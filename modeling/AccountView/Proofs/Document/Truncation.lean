import AccountView.Proofs.Document.Writing
import AccountView.Proofs.Outcome

namespace AccountView

/-! Truncated documents. A reader that is given only the front of what was written runs out of text:
no part of a token is taken for another token, except that an integer may lose its last digits, and
then the text ends before the object around it. -/

namespace Document

theorem prefix_append_cases {α : Type} {text first rest : List α} (h : text <+: first ++ rest) :
    text <+: first ∨ ∃ left, text = first ++ left ∧ left <+: rest := by
  rcases List.prefix_or_prefix_of_prefix h (List.prefix_append first rest) with hfirst | hmore
  · exact .inl hfirst
  · obtain ⟨left, rfl⟩ := hmore
    exact .inr ⟨left, rfl, (List.prefix_append_right_inj first).mp h⟩

def Ended {α : Type} (outcome : Except Fault α) : Prop := ∃ place, outcome = .error (.ended place)

theorem Ended.bind {α β : Type} {outcome : Except Fault α} (h : Ended outcome)
    (f : α → Except Fault β) : Ended (outcome >>= f) := by
  obtain ⟨place, rfl⟩ := h
  exact ⟨place, rfl⟩

theorem Ended.map {α β : Type} {outcome : Except Fault α} (h : Ended outcome) (f : α → β) :
    Ended (outcome.map f) := by
  obtain ⟨place, rfl⟩ := h
  exact ⟨place, rfl⟩

/-- Of a front part of the value the reader says that it has ended, or else it takes all of it. -/
def Reader.Breaks {α : Type} (r : Reader α) (value : List Char) : Prop :=
  ∀ text, text <+: value → Ended (r.run text) ∨ ∃ x, r.run text = .ok (x, [])

theorem Reader.Breaks.map {α β : Type} {r : Reader α} {value : List Char} (h : r.Breaks value)
    (f : α → β) : (r.map f).Breaks value := by
  intro text htext
  rw [run_map]
  rcases h text htext with hended | ⟨x, hx⟩
  · exact .inl (hended.map _)
  · exact .inr ⟨f x, by rw [hx]; rfl⟩

theorem Reader.Reads.run_alone {α : Type} {r : Reader α} {value : List Char} {x : α}
    (h : r.Reads value (.ok x)) : r.run value = .ok (x, []) := by
  have hrun := h .none [] delimited_nil
  simp only [Blanks.text_none, List.nil_append, List.append_nil] at hrun
  exact hrun

theorem Delimited.of_prefix {left rest : List Char} (h : Delimited rest) (hleft : left <+: rest) :
    Delimited left := by
  intro c hc
  obtain ⟨more, rfl⟩ := hleft
  exact h c (by rw [List.head?_append, hc]; rfl)

/-! ### Integers -/

/-- The front digits of a number are those of a number that is no larger. -/
theorem prefix_toDigits {n : Nat} {text : List Char} (h : text <+: Nat.toDigits 10 n)
    (hne : text ≠ []) : ∃ m, text = Nat.toDigits 10 m ∧ m ≤ n ∧ (0 < n → 0 < m) := by
  induction n using Nat.strongRecOn with
  | ind n ih =>
      by_cases hn : n < 10
      · refine ⟨n, ?_, Nat.le_refl n, id⟩
        rw [Nat.toDigits_of_lt_base hn] at h ⊢
        rcases List.prefix_cons_iff.mp h with hnil | ⟨more, htext, hmore⟩
        · contradiction
        · rw [htext, List.prefix_nil.mp hmore]
      · rw [Nat.toDigits_of_base_le (by decide) (Nat.le_of_not_lt hn), List.prefix_concat_iff] at h
        rcases h with htext | hfront
        · exact ⟨n, by rw [htext, Nat.toDigits_of_base_le (by decide) (Nat.le_of_not_lt hn)],
            Nat.le_refl n, id⟩
        · obtain ⟨m, htext, hle, hpos⟩ := ih (n / 10) (by omega) hfront
          exact ⟨m, htext, by omega, fun _ => hpos (by omega)⟩

theorem intText_eq (n : Int) :
    intText n = NumberText.signText (decide (n < 0)) ++ Nat.toDigits 10 n.natAbs := by
  rw [← NumberText.text_ofInt]
  simp [NumberText.text, NumberText.ofInt, NumberText.fractionText, NumberText.exponentText]

theorem prefix_intText {n : Int} {text : List Char} (h : text <+: intText n) :
    text = [] ∨ text = ['-'] ∨
      ∃ m, text = intText m ∧ (n ≤ m ∧ m ≤ 0 ∨ 0 ≤ m ∧ m ≤ n) := by
  by_cases hnil : text = []
  · exact .inl hnil
  rw [intText_eq] at h
  by_cases hneg : n < 0
  · simp only [hneg, decide_true, NumberText.signText, if_true, List.singleton_append] at h
    obtain ⟨digits, rfl, hdigits⟩ := (List.prefix_cons_iff.mp h).resolve_left hnil
    by_cases hsign : digits = []
    · exact .inr (.inl (by rw [hsign]))
    · obtain ⟨m, rfl, hle, hpos⟩ := prefix_toDigits hdigits hsign
      have hlt : -(m : Int) < 0 := by omega
      have habs : (-(m : Int)).natAbs = m := by omega
      refine .inr (.inr ⟨-m, ?_, .inl (by omega)⟩)
      rw [intText_eq, decide_eq_true hlt, habs]
      rfl
  · simp only [hneg, decide_false, NumberText.signText, Bool.false_eq_true, if_false,
      List.nil_append] at h
    obtain ⟨m, rfl, hle, _⟩ := prefix_toDigits h hnil
    have hnotNeg : ¬ (m : Int) < 0 := by omega
    refine .inr (.inr ⟨m, ?_, .inr (by omega)⟩)
    rw [intText_eq, decide_eq_false hnotNeg, Int.natAbs_natCast]
    rfl

theorem breaks_integer {kind : IntegerKind} {n : Int} (hzero : kind.min ≤ 0 ∧ 0 ≤ kind.max)
    (hkind : kind.min ≤ n ∧ n ≤ kind.max) (hmin : -9223372036854775808 ≤ n)
    (hmax : n < 18446744073709551616) : (integer kind).Breaks (intText n) := by
  intro text htext
  rcases prefix_intText htext with rfl | rfl | ⟨m, rfl, hm⟩
  · exact .inl ⟨.value, rfl⟩
  · exact .inl ⟨.value, rfl⟩
  · exact .inr ⟨m, (reads_integer (by omega) (by omega) (by omega)).run_alone⟩

theorem breaks_int64 (n : Int64) : int64.Breaks (intText n.toInt) := by
  have hmin : -9223372036854775808 ≤ n.toInt := n.le_toInt
  have hmax : n.toInt < 9223372036854775808 := n.toInt_lt
  have hkind : int64Kind.min ≤ n.toInt ∧ n.toInt ≤ int64Kind.max :=
    ⟨hmin, Int.le_of_lt_add_one hmax⟩
  exact (breaks_integer (by decide) hkind hmin (by omega)).map Int64.ofInt

theorem breaks_int32 (n : Int32) : int32.Breaks (intText n.toInt) := by
  have hmin : -2147483648 ≤ n.toInt := n.le_toInt
  have hmax : n.toInt < 2147483648 := n.toInt_lt
  have hkind : int32Kind.min ≤ n.toInt ∧ n.toInt ≤ int32Kind.max :=
    ⟨hmin, Int.le_of_lt_add_one hmax⟩
  exact (breaks_integer (by decide) hkind (by omega) (by omega)).map Int32.ofInt

theorem breaks_role (role : Role) : Document.role.Breaks role.toDocument :=
  (breaks_int32 role.toWire).map Role.ofWire

/-! ### Strings -/

namespace Literal

theorem byteCount_of_ascii {text : List Char} (h : ∀ c ∈ text, c.utf8Size = 1) :
    byteCount text = text.length := by
  induction text with
  | nil => rfl
  | cons c text ih =>
      obtain ⟨hc, htext⟩ := List.forall_mem_cons.mp h
      rw [byteCount, hc, ih htext, List.length_cons, Nat.add_comm]

/-- An escape by number that is cut before its last digit. -/
theorem escape_short {digits : List Char} (h : ∀ c ∈ digits, c.utf8Size = 1)
    (hlt : digits.length < 4) : escape ('u' :: digits) = .error (.ended .string) := by
  have htake : digits.take 4 = digits := List.take_of_length_le (by omega)
  have hnumber : hexNumber digits = .error (.ended .string) := by
    rw [hexNumber, htake, byteCount_of_ascii h, if_pos hlt]
  simp [escape, numberEscape, hnumber, bind, Except.bind, Except.map]

theorem utf8Size_fourHexDigits {n : Nat} (h : n < 32) : ∀ c ∈ fourHexDigits n, c.utf8Size = 1 := by
  have hhigh := (hexValue?_digitChar (n / 16) (by omega)).1
  have hlow := (hexValue?_digitChar (n % 16) (by omega)).1
  have hzero : '0'.utf8Size = 1 := rfl
  simp [fourHexDigits_control n h, utf8Size_hexDigit hhigh, utf8Size_hexDigit hlow, hzero]

theorem body_text_nil (read : List Char) : body read [] = .error (.ended .string) := by
  rw [body]

theorem body_backslash (read : List Char) : body read ['\\'] = .error (.ended .string) :=
  body_escape_error rfl read

theorem body_prefix_encodeChar {c : Char} {text : List Char} (h : text <+: encodeChar c)
    (read : List Char) : body read text = .error (.ended .string) := by
  by_cases hnil : text = []
  · rw [hnil]
    exact body_text_nil read
  by_cases hwhole : text = encodeChar c
  · have hbody := body_encodeChar c read []
    rw [List.append_nil] at hbody
    rw [hwhole, hbody]
    exact body_text_nil (c :: read)
  rcases encodeChar_cases c with ⟨letter, _, _, hencode⟩ | ⟨hcontrol, hencode⟩ | ⟨_, _, _, hencode⟩
  · rw [hencode] at h hwhole
    obtain ⟨front, rfl, hfront⟩ := (List.prefix_cons_iff.mp h).resolve_left hnil
    rcases List.prefix_cons_iff.mp hfront with rfl | ⟨more, rfl, hmore⟩
    · exact body_backslash read
    · exact absurd (by rw [List.prefix_nil.mp hmore]) hwhole
  · have hlt := toNat_lt_of_isControl hcontrol
    have hlength := length_fourHexDigits hlt
    rw [hencode] at h hwhole
    obtain ⟨front, rfl, hfront⟩ := (List.prefix_cons_iff.mp h).resolve_left hnil
    rcases List.prefix_cons_iff.mp hfront with rfl | ⟨digits, rfl, hdigits⟩
    · exact body_backslash read
    · have hshort : digits.length < 4 := by
        have hle := hdigits.length_le
        have hne : digits.length ≠ 4 := fun heq =>
          hwhole (by rw [hdigits.eq_of_length (heq.trans hlength.symm)])
        omega
      exact body_escape_error
        (escape_short (fun d hd => utf8Size_fourHexDigits hlt d (hdigits.subset hd)) hshort) read
  · rw [hencode] at h hwhole
    obtain ⟨front, rfl, hfront⟩ := (List.prefix_cons_iff.mp h).resolve_left hnil
    exact absurd (by rw [List.prefix_nil.mp hfront]) hwhole

/-- A string that is cut before its closing quote, be it inside of an escape. -/
theorem body_prefix {s text : List Char} (h : text <+: s.flatMap encodeChar) (read : List Char) :
    body read text = .error (.ended .string) := by
  induction s generalizing read text with
  | nil =>
      rw [List.prefix_nil.mp h]
      exact body_text_nil read
  | cons c s ih =>
      rw [List.flatMap_cons] at h
      rcases prefix_append_cases h with hfront | ⟨left, rfl, hleft⟩
      · exact body_prefix_encodeChar hfront read
      · rw [body_encodeChar]
        exact ih hleft (c :: read)

end Literal

theorem breaks_string (s : String) : string.Breaks (Literal.encode s.toList) := by
  have hbreaks : Reader.Breaks ⟨readString, readString_le⟩ (Literal.encode s.toList) := by
    intro text htext
    rcases List.prefix_cons_iff.mp htext with rfl | ⟨front, rfl, hfront⟩
    · exact .inl ⟨.value, rfl⟩
    have hrun : readString ('"' :: front) = Literal.body [] front := by
      rw [readString, skipBlanks_cons (by decide)]
      rfl
    rcases List.prefix_concat_iff.mp hfront with rfl | hopen
    · exact .inr ⟨s.toList, hrun.trans (Literal.body_encode s.toList [] [])⟩
    · exact .inl ⟨.string, hrun.trans (Literal.body_prefix hopen [])⟩
  exact hbreaks.map String.ofList

theorem Reader.Breaks.nullable {α : Type} {r : Reader α} {value : List Char}
    (hvalue : IsValue value) (hnull : value.head? ≠ some 'n') (h : r.Breaks value) :
    (nullable r).Breaks value := by
  obtain ⟨c, rest, rfl, hopening⟩ := hvalue.opening
  have hc : c ≠ 'n' := fun heq => hnull (by simp [heq])
  intro text htext
  have hrun : (Document.nullable r).run text =
      (r.run text).map fun p => (some p.1, p.2) := by
    rcases List.prefix_cons_iff.mp htext with rfl | ⟨more, rfl, _⟩
    · rfl
    · exact readNullable_of_ne r (skipBlanks_cons hopening.notBlank more) hc
  rw [hrun]
  rcases h text htext with hended | ⟨x, hx⟩
  · exact .inl (hended.map _)
  · exact .inr ⟨some x, by rw [hx]; rfl⟩

/-! ### Objects -/

namespace Schema

variable {σ : Type} {schema : Schema σ}

/-- A member as it is written, for a field of the schema, whose value may be cut. -/
inductive Breaks (schema : Schema σ) : Entry → Prop
  | written {name : String} {value : List Char} {field : Field σ}
      (find : schema.find? name = some field) (isValue : IsValue value)
      (breaks : field.update.Breaks value) : Breaks schema (writtenEntry name value)

theorem breaks_of {α : Type} {name : String} {isRequired : Bool} {r : Reader α} {set : α → σ → σ}
    (hfind : schema.find? name = some (.of name isRequired r set)) {value : List Char}
    (hvalue : IsValue value) (h : r.Breaks value) : schema.Breaks (writtenEntry name value) :=
  .written hfind hvalue (h.map set)

theorem fromKey_writtenEntry (name : String) (value rest : List Char) :
    (writtenEntry name value).fromKey rest =
      name.toList.flatMap Literal.encodeChar ++ '"' :: ':' :: (value ++ rest) := rfl

theorem members_error (schema : Schema σ) {isFirst : Bool} (state : Partial σ) {text : List Char}
    {fault : Fault} (hnext : nextKey isFirst text = .error fault) :
    schema.members isFirst state text = .error fault := by
  rw [members]
  split
  · rename_i heq
    rw [hnext] at heq
    cases heq
    rfl
  · rename_i heq
    rw [hnext] at heq
    contradiction
  · rename_i heq
    rw [hnext] at heq
    contradiction

theorem ended_members_nil (schema : Schema σ) (isFirst : Bool) (state : Partial σ) :
    Ended (schema.members isFirst state []) :=
  ⟨.object, schema.members_error state rfl⟩

theorem member_known {name : String} {field : Field σ} (hfind : schema.find? name = some field)
    {state : Partial σ} (hnew : name ∉ state.seen) (text : List Char) :
    schema.member state (name.toList.flatMap Literal.encodeChar ++ '"' :: text) =
      (colon text >>= field.update.run).map fun (update, rest) =>
        (⟨update state.record, name :: state.seen⟩, rest) := by
  have hname : field.name = name := (mem_of_find? hfind).2
  simp only [member, Literal.body_encode, List.reverse_nil, List.nil_append, String.ofList_toList,
    hfind, hname, hnew, bind, Except.bind, if_false]
  cases colon text with
  | error fault => rfl
  | ok value => cases field.update.run value <;> rfl

theorem not_mem_seen_of_take {name : String} {value : List Char} {field : Field σ}
    (hfind : schema.find? name = some field) {state next : Partial σ}
    (h : schema.take state (writtenEntry name value) = .ok next) : name ∉ state.seen := by
  intro hseen
  have hname : field.name = name := (mem_of_find? hfind).2
  simp only [take, writtenEntry, Quotable.decoded_ofText, String.ofList_toList, hfind, hname, hseen,
    bind, Except.bind, if_true] at h
  contradiction

/-- A member from its key on, when the text may be cut in it or behind it. -/
theorem member_prefix {name : String} {value : List Char} {field : Field σ}
    (hfind : schema.find? name = some field) (hbreaks : field.update.Breaks value)
    {state : Partial σ} (hnew : name ∉ state.seen) {rest text : List Char}
    (htext : text <+: (writtenEntry name value).fromKey rest) :
    Ended (schema.member state text) ∨
    (∃ next, schema.member state text = .ok (next, [])) ∨
    ∃ left, text = (writtenEntry name value).fromKey left ∧ left <+: rest := by
  have hkey {front : List Char} (hfront : front <+: name.toList.flatMap Literal.encodeChar) :
      Ended (schema.member state front) :=
    ⟨.string, by rw [member, Literal.body_prefix hfront]; rfl⟩
  simp only [fromKey_writtenEntry] at htext ⊢
  rcases prefix_append_cases htext with hopen | ⟨closing, rfl, hclosing⟩
  · exact .inl (hkey hopen)
  rcases List.prefix_cons_iff.mp hclosing with rfl | ⟨behind, rfl, hbehind⟩
  · rw [List.append_nil]
    exact .inl (hkey List.prefix_rfl)
  rw [member_known hfind hnew]
  rcases List.prefix_cons_iff.mp hbehind with rfl | ⟨front, rfl, hfront⟩
  · exact .inl ⟨.object, rfl⟩
  have hrun : (colon (':' :: front) >>= field.update.run) = field.update.run front := by
    have hcolon : colon (':' :: front) = .ok front := colon_blanks .none front
    rw [hcolon]
    rfl
  rw [hrun]
  rcases prefix_append_cases hfront with hvalue | ⟨left, rfl, hleft⟩
  · rcases hbreaks front hvalue with hended | ⟨update, hupdate⟩
    · exact .inl (hended.map _)
    · exact .inr (.inl ⟨_, by rw [hupdate]; rfl⟩)
  · exact .inr (.inr ⟨left, rfl, hleft⟩)

/-- A text that is cut in a member or behind it ends before the object does, if it does so behind
the member. -/
theorem ended_from_key {e : Entry} (hframed : schema.Framed) (hbreaks : schema.Breaks e)
    {state next : Partial σ} (htake : schema.take state e = .ok next) {parts : List (List Char)}
    {text : List Char} (htext : text <+: e.fromKey (closedBy '\x7d' parts))
    (hne : text ≠ e.fromKey (closedBy '\x7d' parts))
    (behind : ∀ left, left <+: closedBy '\x7d' parts → left ≠ closedBy '\x7d' parts →
      Ended (schema.members false next left)) :
    Ended (schema.member state text >>= fun (state, left) => schema.members false state left) := by
  have hrest : Delimited (closedBy '\x7d' parts) := by
    simpa using delimited_closedBy '\x7d' rfl parts []
  cases hbreaks with
  | @written name value field hfind hvalue hbreaks =>
      rcases member_prefix hfind hbreaks (not_mem_seen_of_take hfind htake) htext with
        hended | ⟨other, hother⟩ | ⟨left, rfl, hleft⟩
      · exact hended.bind _
      · rw [hother]
        exact schema.ended_members_nil false other
      · have hmember := member_entry hframed state (writtenEntry name value) hvalue
          (hrest.of_prefix hleft)
        rw [hmember, htake]
        exact behind left hleft fun heq => hne (by rw [heq])

theorem Breaks.isValue {e : Entry} (h : schema.Breaks e) : IsValue e.value := by
  cases h with
  | written find isValue breaks => exact isValue

theorem text_append {e : Entry} (hbreaks : schema.Breaks e) (rest : List Char) :
    e.text ++ rest = '"' :: e.fromKey rest := by
  cases hbreaks with
  | written => simp [Entry.text, Entry.fromKey_append, writtenEntry]

theorem ended_members {entries : List Entry} (hframed : schema.Framed)
    (hbreaks : ∀ e ∈ entries, schema.Breaks e) {state final : Partial σ}
    (htake : entries.foldlM schema.take state = .ok final) {text : List Char}
    (htext : text <+: closedBy '\x7d' (entries.map Entry.text))
    (hne : text ≠ closedBy '\x7d' (entries.map Entry.text)) :
    Ended (schema.members false state text) := by
  induction entries generalizing state text with
  | nil =>
      rcases List.prefix_cons_iff.mp htext with rfl | ⟨more, rfl, hmore⟩
      · exact schema.ended_members_nil false state
      · exact absurd (by rw [List.prefix_nil.mp hmore]; rfl) hne
  | cons e entries ih =>
      obtain ⟨he, hentries⟩ := List.forall_mem_cons.mp hbreaks
      obtain ⟨next, hnext, hlater⟩ := exists_of_bind_eq_ok (List.foldlM_cons.symm.trans htake)
      rw [List.map_cons, closedBy, text_append he] at htext hne
      rcases List.prefix_cons_iff.mp htext with rfl | ⟨front, rfl, hfront⟩
      · exact schema.ended_members_nil false state
      rcases List.prefix_cons_iff.mp hfront with rfl | ⟨fromKey, rfl, hkey⟩
      · exact ⟨.value, schema.members_error state rfl⟩
      have hopen : nextKey false (',' :: '"' :: fromKey) = .ok (some fromKey) := rfl
      rw [members_eq schema state hopen]
      exact ended_from_key hframed he hnext hkey (fun heq => hne (by rw [heq]))
        fun left => ih hentries hlater

theorem run_object (schema : Schema σ) (blank : σ) (text : List Char) :
    (record schema blank).run ('\x7b' :: text) = schema.readObject blank text := by
  have hopening : '\x7b' ≠ '[' := by decide
  simp only [record, Schema.read, skipBlanks_cons (by decide : isBlank '\x7b' = false), hopening,
    if_true, if_false]

/-- An object that is cut anywhere before its end. -/
theorem ended_object {entries : List Entry} (hframed : schema.Framed)
    (hbreaks : ∀ e ∈ entries, schema.Breaks e) {blank x : σ}
    (h : schema.ofEntries blank entries = .ok x) {text : List Char}
    (htext : text <+: objectText .none entries) (hne : text ≠ objectText .none entries) :
    Ended ((record schema blank).run text) := by
  cases entries with
  | nil =>
      rcases List.prefix_cons_iff.mp htext with rfl | ⟨front, rfl, hfront⟩
      · exact ⟨.value, rfl⟩
      rw [run_object]
      rcases List.prefix_cons_iff.mp hfront with rfl | ⟨more, rfl, hmore⟩
      · exact (schema.ended_members_nil true _).bind _
      · exact absurd (by rw [List.prefix_nil.mp hmore]; rfl) hne
  | cons e entries =>
      obtain ⟨he, hentries⟩ := List.forall_mem_cons.mp hbreaks
      rw [objectText, List.map_cons, enclosed, text_append he] at htext hne
      rcases List.prefix_cons_iff.mp htext with rfl | ⟨front, rfl, hfront⟩
      · exact ⟨.value, rfl⟩
      rw [run_object]
      refine Ended.bind ?_ _
      rcases List.prefix_cons_iff.mp hfront with rfl | ⟨fromKey, rfl, hkey⟩
      · exact schema.ended_members_nil true _
      have hopen : nextKey true ('"' :: fromKey) = .ok (some fromKey) := rfl
      obtain ⟨final, hfinal, _⟩ := exists_of_bind_eq_ok h
      obtain ⟨next, hnext, hlater⟩ := exists_of_bind_eq_ok (List.foldlM_cons.symm.trans hfinal)
      rw [members_eq schema _ hopen]
      exact ended_from_key hframed he hnext hkey (fun heq => hne (by rw [heq]))
        fun left => ended_members hframed hentries hlater

theorem breaks_object {entries : List Entry} (hframed : schema.Framed)
    (hbreaks : ∀ e ∈ entries, schema.Breaks e) {blank x : σ}
    (h : schema.ofEntries blank entries = .ok x) :
    (record schema blank).Breaks (objectText .none entries) := by
  intro text htext
  by_cases hwhole : text = objectText .none entries
  · have hreads := reads_object hframed blank .none fun e he => (hbreaks e he).isValue
    rw [h] at hreads
    rw [hwhole]
    exact .inr ⟨x, hreads.run_alone⟩
  · exact .inl (ended_object hframed hbreaks h htext hwhole)

end Schema

end Document

open Document

namespace WireTime

theorem breaks_toDocument (w : WireTime) : wireTime.Breaks w.toDocument := by
  have hbreaks : ∀ e ∈ w.entries, wireTimeSchema.Breaks e := by
    simp only [entries, List.forall_mem_cons]
    exact ⟨Schema.breaks_of rfl (isValue_intText _) (breaks_int64 _),
      Schema.breaks_of rfl (isValue_intText _) (breaks_int32 _), List.forall_mem_nil _⟩
  rw [toDocument_eq_objectText]
  exact Schema.breaks_object framed_wireTimeSchema hbreaks w.ofEntries_entries

theorem breaks_stamp (w : WireTime) : (nullable wireTime).Breaks w.toDocument := by
  have hnull : w.toDocument.head? ≠ some 'n' := by simp [toDocument, object]
  exact w.breaks_toDocument.nullable w.isValue_toDocument hnull

end WireTime

namespace Account

theorem breaks_of_mem (a : Account) : ∀ e ∈ a.entries, accountSchema.Breaks e := by
  have hstamp {name : String} {set : Stamp → Account → Account}
      (hfind : accountSchema.find? name = some (.of name false (nullable wireTime) set))
      (stamp : Stamp) : ∀ e ∈ stampEntries name stamp, accountSchema.Breaks e := by
    cases stamp with
    | none => nofun
    | some w =>
        simp only [stampEntries, Option.map_some, Option.toList_some, List.forall_mem_singleton]
        exact Schema.breaks_of hfind w.isValue_toDocument w.breaks_stamp
  simp only [entries, List.forall_mem_append, List.forall_mem_cons]
  exact ⟨⟨Schema.breaks_of rfl (isValue_intText _) (breaks_int64 _),
    Schema.breaks_of rfl (isValue_encode _) (breaks_string _),
    Schema.breaks_of rfl (isValue_encode _) (breaks_string _),
    Schema.breaks_of rfl (isValue_encode _) (breaks_string _),
    Schema.breaks_of rfl (isValue_encode _) (breaks_string _),
    Schema.breaks_of rfl (isValue_intText _) (breaks_role _), List.forall_mem_nil _⟩,
    hstamp rfl _, hstamp rfl _, hstamp rfl _, List.forall_mem_nil _⟩

/-- Whatever lacks the end of a document is no document. -/
theorem ended_ofDocument {a : Account} {text : List Char} (htext : text <+: a.toDocument)
    (hne : text ≠ a.toDocument) : Ended (ofDocument (String.ofList text)) := by
  rw [toDocument_eq_objectText] at htext hne
  have hended := Schema.ended_object framed_accountSchema a.breaks_of_mem a.ofEntries_entries
    htext hne
  rw [ofDocument, String.toList_ofList]
  exact hended.bind _

end Account

end AccountView
