import AccountView.Proofs.Document.Records

namespace AccountView

/-! A document that is written is read back. Every part that is written belongs to the grammar, so
what is read of it is known part by part. -/

namespace Document

/-! ### Integers -/

namespace Numeral

theorem le_ofDigitChars (n : Nat) (digits : List Char) : n ≤ Nat.ofDigitChars 10 digits n := by
  have hpos : 0 < 10 ^ digits.length := Nat.pow_pos (by decide)
  rw [Nat.ofDigitChars_eq_ofDigitChars_zero]
  exact Nat.le_trans (Nat.le_mul_of_pos_left n hpos) (Nat.le_add_right _ _)

theorem accumulate_of_lt {n : Nat} {digits : List Char}
    (h : Nat.ofDigitChars 10 digits n < wordSize) :
    accumulate n digits = (Nat.ofDigitChars 10 digits n, []) := by
  induction digits generalizing n with
  | nil => rfl
  | cons c digits ih =>
      rw [Nat.ofDigitChars_cons] at h ⊢
      have hlt := Nat.lt_of_le_of_lt (le_ofDigitChars _ digits) h
      rw [accumulate, digitValue, if_pos hlt]
      exact ih h

end Numeral

theorem toDigits_of_head? (n : Nat) (h : (Nat.toDigits 10 n).head? = some '0') :
    Nat.toDigits 10 n = ['0'] := by
  induction n using Nat.strongRecOn with
  | ind n ih =>
      by_cases hn : n < 10
      · rw [Nat.toDigits_of_lt_base hn] at h ⊢
        exact congrArg (fun c => [c]) (Option.some.inj h)
      · -- The first digits are those of the tenth part, which is not zero.
        have hdigits := Nat.toDigits_of_base_le (b := 10) (by decide) (Nat.le_of_not_lt hn)
        have hhead : (Nat.toDigits 10 (n / 10)).head? = some '0' := by
          obtain ⟨c, digits, hcons⟩ := List.exists_cons_of_ne_nil
            (Nat.toDigits_ne_nil : Nat.toDigits 10 (n / 10) ≠ [])
          rw [hdigits, hcons] at h
          rw [hcons]
          exact h
        have hzero := congrArg (Nat.ofDigitChars 10 · 0) (ih (n / 10) (by omega) hhead)
        simp only [Nat.ofDigitChars_ten_toDigits] at hzero
        have : Nat.ofDigitChars 10 ['0'] 0 = 0 := rfl
        omega

namespace NumberText

def ofInt (n : Int) : NumberText where
  negative := decide (n < 0)
  whole := {
    text := Nat.toDigits 10 n.natAbs
    ne_nil := Nat.toDigits_ne_nil
    isDigit_of_mem := fun _ => Nat.isDigit_of_mem_toDigits (by decide) (by decide)
    eq_zero_of_head? := toDigits_of_head? n.natAbs }
  fraction := none
  exponent := none

theorem text_ofInt (n : Int) : (ofInt n).text = intText n := by
  rw [intText, Int.toString_eq_repr, Int.repr_eq_if]
  by_cases h : n < 0
  · have hneg : ¬ 0 ≤ n := by omega
    have habs : (-n).toNat = n.natAbs := by omega
    simp [ofInt, text, signText, fractionText, exponentText, h, hneg, habs, Nat.toList_repr]
  · have hpos : 0 ≤ n := by omega
    have habs : n.toNat = n.natAbs := by omega
    simp [ofInt, text, signText, fractionText, exponentText, h, hpos, habs, Nat.toList_repr]

theorem value_ofInt {n : Int} (hmin : -9223372036854775808 ≤ n) (hmax : n < 18446744073709551616) :
    Numeral.value (ofInt n).written = .ok (.integer n) := by
  have hdigits : Nat.ofDigitChars 10 (Nat.toDigits 10 n.natAbs) 0 = n.natAbs :=
    Nat.ofDigitChars_ten_toDigits
  have haccumulate : Numeral.accumulate 0 (Nat.toDigits 10 n.natAbs) = (n.natAbs, []) := by
    rw [Numeral.accumulate_of_lt, hdigits]
    rw [hdigits, Numeral.wordSize, UInt64.size]
    omega
  by_cases h : n < 0
  · have hpos : 0 < n.natAbs := by omega
    have hsize : n.natAbs ≤ Numeral.wordSize / 2 := by
      rw [Numeral.wordSize, UInt64.size]
      omega
    have hneg : -(n.natAbs : Int) = n := by omega
    simp only [Numeral.value, ofInt, written, haccumulate, h, hpos, hsize, hneg, decide_true,
      Option.map_none, not_true_eq_false, and_false, and_self, if_false, if_true]
  · have hpos : (n.natAbs : Int) = n := by omega
    simp only [Numeral.value, ofInt, written, haccumulate, h, hpos, decide_false, Option.map_none,
      Bool.false_eq_true, not_false_eq_true, and_self, if_true]

end NumberText

theorem reads_integer {kind : IntegerKind} {n : Int} (hkind : kind.min ≤ n ∧ n ≤ kind.max)
    (hmin : -9223372036854775808 ≤ n) (hmax : n < 18446744073709551616) :
    (integer kind).Reads (intText n) (.ok n) := by
  have hreads := reads_number kind (.ofInt n)
  have hcheck : kind.check (.integer n) = .ok n := if_pos hkind
  rw [NumberText.text_ofInt, NumberText.value_ofInt hmin hmax, Except.bind, hcheck] at hreads
  exact hreads

theorem reads_int64 (n : Int64) : int64.Reads (intText n.toInt) (.ok n) := by
  have hmin : -9223372036854775808 ≤ n.toInt := n.le_toInt
  have hmax : n.toInt < 9223372036854775808 := n.toInt_lt
  have hkind : int64Kind.min ≤ n.toInt ∧ n.toInt ≤ int64Kind.max :=
    ⟨hmin, Int.le_of_lt_add_one hmax⟩
  have hreads := (reads_integer hkind hmin (by omega)).map Int64.ofInt
  rwa [Except.map, Int64.ofInt_toInt] at hreads

theorem reads_int32 (n : Int32) : int32.Reads (intText n.toInt) (.ok n) := by
  have hmin : -2147483648 ≤ n.toInt := n.le_toInt
  have hmax : n.toInt < 2147483648 := n.toInt_lt
  have hkind : int32Kind.min ≤ n.toInt ∧ n.toInt ≤ int32Kind.max :=
    ⟨hmin, Int.le_of_lt_add_one hmax⟩
  have hreads := (reads_integer hkind (by omega) (by omega)).map Int32.ofInt
  rwa [Except.map, Int32.ofInt_toInt] at hreads

theorem reads_role (role : Role) : Document.role.Reads role.toDocument (.ok role) := by
  have hreads := (reads_int32 role.toWire).map Role.ofWire
  rwa [Except.map, Role.ofWire_toWire] at hreads

theorem isValue_intText (n : Int) : IsValue (intText n) := by
  rw [← NumberText.text_ofInt]
  exact .number (.ofInt n)

/-! ### Strings -/

theorem encode_eq_closed (text : List Char) :
    Literal.encode text = '"' :: (Quotable.ofText text).closed [] := by
  rw [Quotable.closed_ofText, List.append_nil]

theorem reads_text (s : String) : string.Reads (Literal.encode s.toList) (.ok s) := by
  have hreads := reads_quotable (.ofText s.toList)
  rwa [← encode_eq_closed, Quotable.decoded_ofText, Except.map, String.ofList_toList] at hreads

theorem isValue_encode (text : List Char) : IsValue (Literal.encode text) := by
  rw [encode_eq_closed]
  exact .string (.ofText text)

/-! ### Objects -/

/-- A member that is written has no blanks. -/
def writtenEntry (name : String) (value : List Char) : Entry where
  key := .ofText name.toList
  value := value

theorem text_writtenEntry (name : String) (value : List Char) :
    (writtenEntry name value).text = member name value := by
  simp only [Entry.text, Entry.fromKey, writtenEntry, Blanks.text_none, List.nil_append,
    List.append_nil, Quotable.closed_ofText]
  rfl

theorem intercalate_closedBy (closing : Char) (part : List Char) (parts : List (List Char)) :
    [','].intercalate (part :: parts) ++ [closing] = part ++ closedBy closing parts := by
  induction parts generalizing part with
  | nil => simp [closedBy]
  | cons other parts ih =>
      rw [List.intercalate_cons_cons, closedBy, ← ih other]
      simp

theorem object_eq_objectText (entries : List Entry) :
    object (entries.map Entry.text) = objectText .none entries := by
  cases entries with
  | nil => rfl
  | cons e entries =>
      simp only [object, objectText, List.map_cons, enclosed, List.cons_append,
        intercalate_closedBy]

namespace Schema

variable {σ α : Type} {schema : Schema σ}

/-- The record that further members make of one that is being read. -/
def completed (schema : Schema σ) (state : Partial σ) (entries : List Entry) : Except Fault σ :=
  entries.foldlM schema.take state >>= schema.finish

theorem completed_written {name : String} {isRequired : Bool} {r : Reader α} {set : α → σ → σ}
    (hfind : schema.find? name = some (.of name isRequired r set)) {value : List Char} {x : α}
    (hreads : r.Reads value (.ok x)) {state : Partial σ} (hnew : name ∉ state.seen)
    {entries : List Entry} : schema.completed state (writtenEntry name value :: entries) =
      schema.completed ⟨set x state.record, name :: state.seen⟩ entries := by
  have hvalue : (Field.of name isRequired r set).update.value value = .ok (set x) :=
    (hreads.map set).value_eq
  have hfield : (Field.of name isRequired r set).name = name := rfl
  have htake : schema.take state (writtenEntry name value) =
      .ok ⟨set x state.record, name :: state.seen⟩ := by
    simp only [take, writtenEntry, Quotable.decoded_ofText, String.ofList_toList, hfind, hvalue,
      hfield, hnew, bind, Except.bind, if_false]
    rfl
  rw [completed, List.foldlM_cons, htake]
  rfl

end Schema

end Document

open Document

/-! ### Wire times -/

namespace WireTime

def entries (w : WireTime) : List Entry :=
  [writtenEntry "seconds" (intText w.seconds.toInt), writtenEntry "nanos" (intText w.nanos.toInt)]

theorem toDocument_eq_objectText (w : WireTime) : w.toDocument = objectText .none w.entries := by
  rw [← object_eq_objectText]
  simp only [toDocument, entries, List.map_cons, List.map_nil, text_writtenEntry]

theorem isValue_of_mem (w : WireTime) : ∀ e ∈ w.entries, IsValue e.value := by
  simp only [entries, List.forall_mem_cons]
  exact ⟨isValue_intText _, isValue_intText _, nofun⟩

theorem ofEntries_entries (w : WireTime) : wireTimeSchema.ofEntries ⟨0, 0⟩ w.entries = .ok w := by
  refine (Schema.completed_written rfl (reads_int64 w.seconds) (by simp)).trans ?_
  refine (Schema.completed_written rfl (reads_int32 w.nanos) (by simp)).trans ?_
  rfl

theorem reads_toDocument (w : WireTime) : wireTime.Reads w.toDocument (.ok w) := by
  rw [toDocument_eq_objectText, ← w.ofEntries_entries]
  exact reads_object framed_wireTimeSchema ⟨0, 0⟩ .none w.isValue_of_mem

theorem isValue_toDocument (w : WireTime) : IsValue w.toDocument := by
  rw [toDocument_eq_objectText]
  exact .object .none w.entries w.isValue_of_mem

theorem reads_stamp (w : WireTime) : (nullable wireTime).Reads w.toDocument (.ok (some w)) := by
  have hnull : w.toDocument.head? ≠ some 'n' := by simp [toDocument, object]
  exact w.reads_toDocument.nullable w.isValue_toDocument hnull

end WireTime

/-! ### Accounts -/

namespace Account

def stampEntries (name : String) (stamp : Stamp) : List Entry :=
  (stamp.map fun w => writtenEntry name w.toDocument).toList

theorem completed_stamp {name : String} {set : Stamp → Account → Account}
    (hfind : accountSchema.find? name = some (.of name false (nullable wireTime) set))
    {stamp : Stamp} {state : Schema.Partial Account} (hnew : name ∉ state.seen)
    (hnone : set none state.record = state.record) {entries : List Entry} :
    accountSchema.completed state (stampEntries name stamp ++ entries) =
      accountSchema.completed
        ⟨set stamp state.record, (stamp.map fun _ => name).toList ++ state.seen⟩ entries := by
  cases stamp with
  | none =>
      rw [hnone]
      rfl
  | some w => exact Schema.completed_written hfind w.reads_stamp hnew

def entries (a : Account) : List Entry :=
  [writtenEntry "id" (intText a.id.toInt),
    writtenEntry "username" (Literal.encode a.username.toList),
    writtenEntry "nickname" (Literal.encode a.nickname.toList),
    writtenEntry "email" (Literal.encode a.email.toList),
    writtenEntry "phone" (Literal.encode a.phone.toList),
    writtenEntry "role" a.role.toDocument] ++
  (stampEntries "createdAt" a.createdAt ++ (stampEntries "updatedAt" a.updatedAt ++
    (stampEntries "passwordExpiresAt" a.passwordExpiresAt ++ [])))

theorem map_stampEntries (name : String) (stamp : Stamp) :
    (stampEntries name stamp).map Entry.text = stampMembers name stamp := by
  cases stamp with
  | none => rfl
  | some w => simp [stampEntries, stampMembers, text_writtenEntry]

theorem toDocument_eq_objectText (a : Account) : a.toDocument = objectText .none a.entries := by
  rw [← object_eq_objectText]
  simp only [toDocument, entries, List.map_append, List.map_cons, List.map_nil,
    text_writtenEntry, map_stampEntries, List.append_assoc, List.append_nil]

theorem isValue_of_mem (a : Account) : ∀ e ∈ a.entries, IsValue e.value := by
  have hstamp (name : String) (stamp : Stamp) : ∀ e ∈ stampEntries name stamp, IsValue e.value := by
    cases stamp with
    | none => nofun
    | some w => simpa [stampEntries, writtenEntry] using w.isValue_toDocument
  simp only [entries, List.forall_mem_append, List.forall_mem_cons]
  exact ⟨⟨isValue_intText _, isValue_encode _, isValue_encode _, isValue_encode _,
    isValue_encode _, isValue_intText _, nofun⟩, hstamp _ _, hstamp _ _, hstamp _ _, nofun⟩

theorem ofEntries_entries (a : Account) : accountSchema.ofEntries {} a.entries = .ok a := by
  refine (Schema.completed_written rfl (reads_int64 a.id) (by simp)).trans ?_
  refine (Schema.completed_written rfl (reads_text a.username) (by simp)).trans ?_
  refine (Schema.completed_written rfl (reads_text a.nickname) (by simp)).trans ?_
  refine (Schema.completed_written rfl (reads_text a.email) (by simp)).trans ?_
  refine (Schema.completed_written rfl (reads_text a.phone) (by simp)).trans ?_
  refine (Schema.completed_written rfl (reads_role a.role) (by simp)).trans ?_
  refine (completed_stamp rfl (by simp) rfl).trans ?_
  refine (completed_stamp rfl (by simp) rfl).trans ?_
  refine (completed_stamp rfl (by simp) rfl).trans ?_
  rfl

theorem reads_toDocument (a : Account) : account.Reads a.toDocument (.ok a) := by
  rw [toDocument_eq_objectText, ← a.ofEntries_entries]
  exact reads_object framed_accountSchema {} .none a.isValue_of_mem

end Account

/-- Whatever is written is read back as it was. -/
theorem ofDocument_toDocument :
    (∀ a : Account, Account.ofDocument (String.ofList a.toDocument) = .ok a) ∧
    (∀ w : WireTime, WireTime.ofDocument (String.ofList w.toDocument) = .ok w) ∧
    ∀ role : Role, Role.ofDocument (String.ofList role.toDocument) = .ok role :=
  ⟨fun a => a.reads_toDocument.readAll_alone, fun w => w.reads_toDocument.readAll_alone,
    fun role => (reads_role role).readAll_alone⟩

end AccountView
