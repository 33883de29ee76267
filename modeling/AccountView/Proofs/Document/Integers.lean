import AccountView.Proofs.Document.Slots

namespace AccountView

/-! Integers of a document, of any length. A literal is kept as the number that it names, or the
document is refused: nothing is wrapped, cut off or rounded. -/

namespace Document

/-! ### Literals -/

structure IntegerText where
  negative : Bool
  whole : WholeDigits

namespace IntegerText

def text (n : IntegerText) : List Char := NumberText.signText n.negative ++ n.whole.text

def magnitude (n : IntegerText) : Nat := Nat.ofDigitChars 10 n.whole.text 0

def value (n : IntegerText) : Int := if n.negative then -n.magnitude else n.magnitude

/-- The literals of a kind of integers. Zero with a minus sign is none. -/
structure Fits (kind : IntegerKind) (n : IntegerText) : Prop where
  notMinusZero : n.text ≠ ['-', '0']
  min_le : kind.min ≤ n.value
  le_max : n.value ≤ kind.max

def toNumber (n : IntegerText) : NumberText := ⟨n.negative, n.whole, none, none⟩

def ofInt (n : Int) : IntegerText := ⟨decide (n < 0), (NumberText.ofInt n).whole⟩

def minusZero : IntegerText := { ofInt 0 with negative := true }

theorem text_toNumber (n : IntegerText) : n.toNumber.text = n.text := by
  simp [toNumber, text, NumberText.text, NumberText.fractionText, NumberText.exponentText]

theorem present (n : IntegerText) : Present n.text := by
  rw [← text_toNumber]
  refine ⟨.number n.toNumber, ?_⟩
  obtain ⟨c, rest, htext, hc⟩ := n.toNumber.exists_cons
  rw [htext, List.head?_cons, Ne, Option.some.injEq]
  rcases hc with rfl | hc
  · decide
  · exact ne_of_isDigit hc rfl

/-- Only the literal of zero is worth nothing, since no other begins with a zero. -/
theorem whole_of_magnitude_eq_zero {n : IntegerText} (h : n.magnitude = 0) :
    n.whole.text = ['0'] := by
  obtain ⟨d, ds, htext, hd, _⟩ := n.whole.exists_cons
  rw [magnitude, htext, Nat.ofDigitChars_cons] at h
  have hle := Numeral.le_ofDigitChars (10 * 0 + (d.toNat - '0'.toNat)) ds
  have hmin := (Char.isDigit_iff_toNat.mp hd).1
  have hzero : d = '0' := Char.toNat_inj.mp (by omega)
  exact n.whole.eq_zero_of_head? (by rw [htext, hzero]; rfl)

theorem text_eq_minusZero_iff {n : IntegerText} :
    n.text = ['-', '0'] ↔ n.negative = true ∧ n.magnitude = 0 := by
  constructor
  · intro h
    cases hsign : n.negative with
    | false =>
        obtain ⟨d, ds, htext, hd, _⟩ := n.whole.exists_cons
        rw [text, hsign, htext] at h
        exact absurd (List.cons.inj h).1 (ne_of_isDigit hd rfl)
    | true =>
        rw [text, hsign] at h
        have hwhole : n.whole.text = ['0'] := (List.cons.inj h).2
        exact ⟨rfl, by rw [magnitude, hwhole]; rfl⟩
  · rintro ⟨hsign, hzero⟩
    rw [text, hsign, whole_of_magnitude_eq_zero hzero]
    rfl

end IntegerText

/-! ### What is read of a literal -/

namespace Numeral

theorem lt_of_accumulate {n : Nat} {digits : List Char} (hn : n < wordSize)
    (h : (accumulate n digits).2 = []) : Nat.ofDigitChars 10 digits n < wordSize := by
  induction digits generalizing n with
  | nil => exact hn
  | cons c digits ih =>
      rw [accumulate] at h
      split at h
      · rename_i hlt
        exact ih hlt h
      · contradiction

end Numeral

theorem value_toNumber (n : IntegerText) : Numeral.value n.toNumber.written =
    if n.magnitude < Numeral.wordSize ∧ n.negative = false then .ok (.integer n.magnitude)
    else if 0 < n.magnitude ∧ n.magnitude ≤ Numeral.wordSize / 2 then
      .ok (.integer (-n.magnitude))
    else (Numeral.floatValue n.toNumber.written).map .floating := by
  have hwhole : n.toNumber.written.whole = n.whole.text := rfl
  by_cases hlt : n.magnitude < Numeral.wordSize
  · have haccumulate : Numeral.accumulate 0 n.whole.text = (n.magnitude, []) :=
      Numeral.accumulate_of_lt hlt
    cases hsign : n.negative <;>
      simp [Numeral.value, haccumulate, IntegerText.toNumber, NumberText.written, hsign, hlt]
  · have hleft : (Numeral.accumulate 0 n.whole.text).2 ≠ [] := fun h =>
      hlt (Numeral.lt_of_accumulate (by decide) h)
    have hhalf : ¬ n.magnitude ≤ Numeral.wordSize / 2 := by
      have hhalf : Numeral.wordSize / 2 < Numeral.wordSize := by decide
      omega
    simp [Numeral.value, hwhole, hleft, hlt, hhalf]

theorem value_integer (kind : IntegerKind) (n : IntegerText) :
    (integer kind).value n.text = (Numeral.value n.toNumber.written).bind kind.check := by
  rw [← n.text_toNumber]
  exact (reads_number kind n.toNumber).value_eq

section Kinds

variable {kind : IntegerKind} {n : IntegerText}

theorem value_of_fits (hmin : -9223372036854775808 ≤ kind.min)
    (hmax : kind.max < 18446744073709551616) (h : n.Fits kind) :
    (integer kind).value n.text = .ok n.value := by
  obtain ⟨hzero, hle, hge⟩ := h
  rw [Ne, IntegerText.text_eq_minusZero_iff] at hzero
  have hcheck : kind.check (.integer n.value) = .ok n.value := if_pos ⟨hle, hge⟩
  have hsize : Numeral.wordSize = 18446744073709551616 := rfl
  rw [value_integer, value_toNumber]
  rw [IntegerText.value] at hle hge hcheck ⊢
  cases hsign : n.negative with
  | false =>
      simp only [hsign, Bool.false_eq_true, if_false] at hle hge hcheck ⊢
      have hlt : n.magnitude < Numeral.wordSize := by omega
      rw [if_pos ⟨hlt, trivial⟩]
      exact hcheck
  | true =>
      simp only [hsign, true_and, if_true] at hzero hle hge hcheck ⊢
      have hhalf : 0 < n.magnitude ∧ n.magnitude ≤ Numeral.wordSize / 2 := by omega
      rw [if_neg (by simp), if_pos hhalf]
      exact hcheck

theorem exists_error_of_not_fits (h : ¬ n.Fits kind) :
    ∃ fault, (integer kind).value n.text = .error fault := by
  have hcheck : n.text ≠ ['-', '0'] → ∃ fault, kind.check (.integer n.value) = .error fault := by
    intro hzero
    have hrange : ¬ (kind.min ≤ n.value ∧ n.value ≤ kind.max) := fun ⟨hle, hge⟩ =>
      h ⟨hzero, hle, hge⟩
    exact ⟨_, if_neg hrange⟩
  rw [value_integer, value_toNumber]
  split
  · rename_i hword
    have hzero : n.text ≠ ['-', '0'] := by
      rw [Ne, IntegerText.text_eq_minusZero_iff, hword.2]
      simp
    have hvalue : n.value = n.magnitude := by simp [IntegerText.value, hword.2]
    rw [← hvalue]
    exact hcheck hzero
  · rename_i hword
    split
    · rename_i hhalf
      have hsign : n.negative = true := by
        have hsize : Numeral.wordSize = 18446744073709551616 := rfl
        have hlt : n.magnitude < Numeral.wordSize := by omega
        simpa [hlt] using hword
      have hzero : n.text ≠ ['-', '0'] := by
        rw [Ne, IntegerText.text_eq_minusZero_iff]
        omega
      have hvalue : n.value = -n.magnitude := by simp [IntegerText.value, hsign]
      rw [← hvalue]
      exact hcheck hzero
    · cases Numeral.floatValue n.toNumber.written with
      | error fault => exact ⟨fault, rfl⟩
      | ok x => exact ⟨_, rfl⟩

end Kinds

/-- A reader of literals of one kind, which holds the number that is named. -/
structure Reader.Exact {β : Type} (r : Reader β) (kind : IntegerKind) (holds : β → Int → Prop) :
    Prop where
  ok : ∀ n : IntegerText, n.Fits kind → ∃ x, r.value n.text = .ok x ∧ holds x n.value
  error : ∀ n : IntegerText, ¬ n.Fits kind → ∃ fault, r.value n.text = .error fault

theorem exact_integer {kind : IntegerKind} (hmin : -9223372036854775808 ≤ kind.min)
    (hmax : kind.max < 18446744073709551616) :
    (integer kind).Exact kind fun x n => x = n ∧ kind.min ≤ n ∧ n ≤ kind.max where
  ok n h := ⟨n.value, value_of_fits hmin hmax h, rfl, h.min_le, h.le_max⟩
  error _ h := exists_error_of_not_fits h

theorem Reader.Exact.map {β γ : Type} {r : Reader β} {kind : IntegerKind} {holds : β → Int → Prop}
    {holds' : γ → Int → Prop} {f : β → γ} (h : r.Exact kind holds)
    (hholds : ∀ x n, holds x n → holds' (f x) n) : (r.map f).Exact kind holds' where
  ok n hn := by
    obtain ⟨x, hx, hheld⟩ := h.ok n hn
    exact ⟨f x, by rw [r.value_map, hx]; rfl, hholds x _ hheld⟩
  error n hn := by
    obtain ⟨fault, hfault⟩ := h.error n hn
    exact ⟨fault, by rw [r.value_map, hfault]; rfl⟩

theorem exact_int64 : int64.Exact int64Kind fun x n => x.toInt = n := by
  apply (exact_integer (by decide) (by decide)).map
  rintro _ n ⟨rfl, hmin, hmax⟩
  exact Int64.toInt_ofInt_of_le hmin (Int.lt_add_one_of_le hmax)

theorem exact_int32 : int32.Exact int32Kind fun x n => x.toInt = n := by
  apply (exact_integer (by decide) (by decide)).map
  rintro _ n ⟨rfl, hmin, hmax⟩
  exact Int32.toInt_ofInt_of_le hmin (Int.lt_add_one_of_le hmax)

end Document

/-- The role of a number of any size. -/
def Role.ofInt (n : Int) : Role := if n = 1 then user else if n = 2 then admin else unspecified

theorem Role.ofWire_eq_ofInt (n : Int32) : ofWire n = ofInt n.toInt := by
  have hone : n = 1 ↔ n.toInt = 1 := Int32.toInt_inj.symm
  have htwo : n = 2 ↔ n.toInt = 2 := Int32.toInt_inj.symm
  simp only [ofWire, ofInt, hone, htwo]

namespace Document

theorem exact_role : role.Exact int32Kind fun x n => x = Role.ofInt n := by
  apply exact_int32.map
  rintro x _ rfl
  exact Role.ofWire_eq_ofInt x

/-! ### Literals in documents -/

/-- A document with a value in it, and blanks around. -/
def document (before : Blanks) (value : List Char) (after : Blanks) : String :=
  String.ofList (before.text ++ (value ++ after.text))

/-- Documents that differ in one literal. If all else that they say is in order, those with a literal
of the kind are accepted, and no others, and the number is stored; a literal that the kind does not
have refuses the document whatever else it says. -/
structure ExactOrRefused {α : Type} (kind : IntegerKind) (inOrder : Prop)
    (read : IntegerText → Except Fault α) (stores : α → Int → Prop) : Prop where
  accepted_iff : ∀ n, (∃ x, read n = .ok x) ↔ inOrder ∧ n.Fits kind
  stored : ∀ n x, read n = .ok x → n.Fits kind ∧ stores x n.value
  refused : ∀ n, ¬ n.Fits kind → ∃ fault, read n = .error fault

theorem ExactOrRefused.exists_ok {α : Type} {kind : IntegerKind} {inOrder : Prop}
    {read : IntegerText → Except Fault α} {stores : α → Int → Prop}
    (h : ExactOrRefused kind inOrder read stores) (horder : inOrder) {n : IntegerText}
    (hfits : n.Fits kind) : ∃ x, read n = .ok x ∧ stores x n.value := by
  obtain ⟨x, hx⟩ := (h.accepted_iff n).mpr ⟨horder, hfits⟩
  exact ⟨x, hx, (h.stored n x hx).2⟩

theorem Carries.exactOrRefused {α β : Type} {outer : Reader α} {inner : Reader β}
    {fill : List Char → List Char} {get : α → Option β} {inOrder : Prop}
    (h : Carries outer inner fill get inOrder) (hframed : outer.Framed) {kind : IntegerKind}
    {holds : β → Int → Prop} (hexact : inner.Exact kind holds) {stores : α → Int → Prop}
    (hstores : ∀ whole x n, get whole = some x → holds x n → stores whole n)
    (before after : Blanks) : ExactOrRefused kind inOrder
      (fun n => outer.readAll (document before (fill n.text) after).toList) stores := by
  have hread (n : IntegerText) : outer.readAll (document before (fill n.text) after).toList =
      outer.value (fill n.text) := by
    rw [document, String.toList_ofList]
    exact (hframed _ (h.present _ n.present).isValue).readAll before after
  have hsound (n : IntegerText) (whole : α) (hwhole : outer.value (fill n.text) = .ok whole) :
      inOrder ∧ n.Fits kind ∧ stores whole n.value := by
    obtain ⟨horder, x, hx, hget⟩ := h.sound n.text whole n.present hwhole
    by_cases hfits : n.Fits kind
    · obtain ⟨y, hy, hholds⟩ := hexact.ok n hfits
      rw [hx] at hy
      cases hy
      exact ⟨horder, hfits, hstores whole x n.value hget hholds⟩
    · obtain ⟨fault, hfault⟩ := hexact.error n hfits
      rw [hx] at hfault
      contradiction
  simp only [hread]
  constructor
  case accepted_iff =>
    intro n
    constructor
    · rintro ⟨whole, hwhole⟩
      obtain ⟨horder, hfits, _⟩ := hsound n whole hwhole
      exact ⟨horder, hfits⟩
    · rintro ⟨horder, hfits⟩
      obtain ⟨x, hx, _⟩ := hexact.ok n hfits
      exact h.complete horder n.text x n.present hx
  case stored => exact fun n whole hwhole => (hsound n whole hwhole).2
  case refused =>
    intro n hfits
    cases hwhole : outer.value (fill n.text) with
    | error fault => exact ⟨fault, rfl⟩
    | ok whole => exact absurd (hsound n whole hwhole).2.1 hfits

/-! ### Wire times, roles and accounts -/

@[simp] theorem name_of {σ α : Type} (name : String) (isRequired : Bool) (r : Reader α)
    (set : α → σ → σ) : (Field.of name isRequired r set).name = name := rfl

theorem shows_seconds : wireTimeSchema.Shows "seconds" int64 fun w => some w.seconds where
  found := ⟨_, _, rfl, fun _ _ => rfl⟩
  keeps := by simp [wireTimeSchema, keeps_of]

theorem shows_nanos : wireTimeSchema.Shows "nanos" int32 fun w => some w.nanos where
  found := ⟨_, _, rfl, fun _ _ => rfl⟩
  keeps := by simp [wireTimeSchema, keeps_of]

theorem shows_id : accountSchema.Shows "id" int64 fun a => some a.id where
  found := ⟨_, _, rfl, fun _ _ => rfl⟩
  keeps := by simp [accountSchema, keeps_of]

theorem shows_role : accountSchema.Shows "role" role fun a => some a.role where
  found := ⟨_, _, rfl, fun _ _ => rfl⟩
  keeps := by simp [accountSchema, keeps_of]

end Document

def Account.stampNamed (a : Account) (name : String) : Stamp :=
  match name with
  | "createdAt" => a.createdAt
  | "updatedAt" => a.updatedAt
  | "passwordExpiresAt" => a.passwordExpiresAt
  | _ => none

namespace Document

theorem shows_stampNamed {name : String} (h : name ∈ stampNames) :
    accountSchema.Shows name (nullable wireTime) fun a => some (a.stampNamed name) := by
  simp only [stampNames, List.mem_cons, List.not_mem_nil, or_false] at h
  rcases h with rfl | rfl | rfl
  · exact ⟨⟨_, _, rfl, fun _ _ => rfl⟩, by simp [accountSchema, keeps_of, Account.stampNamed]⟩
  · exact ⟨⟨_, _, rfl, fun _ _ => rfl⟩, by simp [accountSchema, keeps_of, Account.stampNamed]⟩
  · exact ⟨⟨_, _, rfl, fun _ _ => rfl⟩, by simp [accountSchema, keeps_of, Account.stampNamed]⟩

variable {β : Type} {name : String} {inner : Reader β}

theorem carries_wireTime {get : WireTime → Option β} (h : wireTimeSchema.Shows name inner get)
    (slot : Slot wireTimeNames name) :
    Carries wireTime inner slot.fill get (slot.InOrder wireTimeSchema) :=
  carries_slot framed_wireTimeSchema nodup_wireTimeNames ⟨0, 0⟩ h slot

theorem carries_account {get : Account → Option β} (h : accountSchema.Shows name inner get)
    (slot : Slot accountNames name) :
    Carries account inner slot.fill get (slot.InOrder accountSchema) :=
  carries_slot framed_accountSchema nodup_accountNames {} h slot

theorem carries_stamp {stampName : String} (hname : stampName ∈ stampNames)
    {get : WireTime → Option β} (h : wireTimeSchema.Shows name inner get)
    (outer : Slot accountNames stampName) (slot : Slot wireTimeNames name) :
    Carries account inner (fun value => outer.fill (slot.fill value))
      (fun a => (a.stampNamed stampName).bind get)
      (outer.InOrder accountSchema ∧ slot.InOrder wireTimeSchema) :=
  ((carries_account (shows_stampNamed hname) outer).ofNullable framed_wireTime).trans
    (carries_wireTime h slot)

/-- Wherever a document has an integer, every literal is kept exactly or refuses the document. -/
theorem exactOrRefused_documents (before after : Blanks) :
    (∀ slot : Slot accountNames "id", ExactOrRefused int64Kind (slot.InOrder accountSchema)
      (fun n => Account.ofDocument (document before (slot.fill n.text) after))
      fun a n => a.id.toInt = n) ∧
    (∀ slot : Slot accountNames "role", ExactOrRefused int32Kind (slot.InOrder accountSchema)
      (fun n => Account.ofDocument (document before (slot.fill n.text) after))
      fun a n => a.role = Role.ofInt n) ∧
    (∀ name ∈ stampNames, ∀ outer : Slot accountNames name,
      (∀ slot : Slot wireTimeNames "seconds", ExactOrRefused int64Kind
        (outer.InOrder accountSchema ∧ slot.InOrder wireTimeSchema)
        (fun n => Account.ofDocument (document before (outer.fill (slot.fill n.text)) after))
        fun a n => ∃ w, a.stampNamed name = some w ∧ w.seconds.toInt = n) ∧
      ∀ slot : Slot wireTimeNames "nanos", ExactOrRefused int32Kind
        (outer.InOrder accountSchema ∧ slot.InOrder wireTimeSchema)
        (fun n => Account.ofDocument (document before (outer.fill (slot.fill n.text)) after))
        fun a n => ∃ w, a.stampNamed name = some w ∧ w.nanos.toInt = n) ∧
    (∀ slot : Slot wireTimeNames "seconds", ExactOrRefused int64Kind (slot.InOrder wireTimeSchema)
      (fun n => WireTime.ofDocument (document before (slot.fill n.text) after))
      fun w n => w.seconds.toInt = n) ∧
    (∀ slot : Slot wireTimeNames "nanos", ExactOrRefused int32Kind (slot.InOrder wireTimeSchema)
      (fun n => WireTime.ofDocument (document before (slot.fill n.text) after))
      fun w n => w.nanos.toInt = n) ∧
    ExactOrRefused int32Kind True (fun n => Role.ofDocument (document before n.text after))
      fun role n => role = Role.ofInt n := by
  refine ⟨fun slot => ?_, fun slot => ?_, fun name hname outer => ⟨fun slot => ?_, fun slot => ?_⟩,
    fun slot => ?_, fun slot => ?_, ?_⟩
  · refine (carries_account shows_id slot).exactOrRefused framed_account exact_int64 ?_ before after
    rintro a _ n ⟨⟩ hn
    exact hn
  · refine (carries_account shows_role slot).exactOrRefused framed_account exact_role ?_ before after
    rintro a _ n ⟨⟩ hn
    exact hn
  · refine (carries_stamp hname shows_seconds outer slot).exactOrRefused framed_account exact_int64
      ?_ before after
    intro a x n hget hn
    obtain ⟨w, hw, ⟨⟩⟩ := Option.bind_eq_some_iff.mp hget
    exact ⟨w, hw, hn⟩
  · refine (carries_stamp hname shows_nanos outer slot).exactOrRefused framed_account exact_int32
      ?_ before after
    intro a x n hget hn
    obtain ⟨w, hw, ⟨⟩⟩ := Option.bind_eq_some_iff.mp hget
    exact ⟨w, hw, hn⟩
  · refine (carries_wireTime shows_seconds slot).exactOrRefused framed_wireTime exact_int64 ?_
      before after
    rintro w _ n ⟨⟩ hn
    exact hn
  · refine (carries_wireTime shows_nanos slot).exactOrRefused framed_wireTime exact_int32 ?_
      before after
    rintro w _ n ⟨⟩ hn
    exact hn
  · refine (Carries.refl role).exactOrRefused framed_role exact_role ?_ before after
    rintro role _ n ⟨⟩ hn
    exact hn

/-! ### Documents of one integer -/

def Slot.ofName {known : List String} (name : String) : Slot known name :=
  .member [] (writtenEntry name []) (Quotable.decoded_ofText _) []

theorem Slot.inOrder_ofName {σ : Type} {schema : Schema σ} {known : List String} {name : String}
    (hrequired : ∀ field ∈ schema.fields, field.isRequired = true → field.name = name) :
    (ofName name : Slot known name).InOrder schema where
  accepted := by simp
  nodup := by simp [Schema.given]
  required := by simpa [Schema.given] using hrequired

/-- The largest numbers and the smallest ones; the next one, and zero with a minus sign. -/
theorem exactOrRefused_documents_limits :
    (∃ a, Account.ofDocument "\x7b\"id\":9223372036854775807\x7d" = .ok a ∧
      a.id.toInt = 9223372036854775807) ∧
    (∃ a, Account.ofDocument "\x7b\"role\":2\x7d" = .ok a ∧ a.role = .admin) ∧
    (∃ a, Account.ofDocument "\x7b\"createdAt\":[1,-2147483648]\x7d" = .ok a ∧
      ∃ w, a.createdAt = some w ∧ w.nanos.toInt = -2147483648) ∧
    (∃ w, WireTime.ofDocument "\x7b\"seconds\":-9223372036854775808\x7d" = .ok w ∧
      w.seconds.toInt = -9223372036854775808) ∧
    (∃ role, Role.ofDocument "2147483647" = .ok role ∧ role = .unspecified) ∧
    (∃ fault, Account.ofDocument "\x7b\"id\":9223372036854775808\x7d" = .error fault) ∧
    ∃ fault, Account.ofDocument "\x7b\"role\":-0\x7d" = .error fault := by
  obtain ⟨hid, hrole, hstamp, hseconds, _, hbare⟩ := exactOrRefused_documents .none .none
  have hid := hid (.ofName "id")
  have hrole := hrole (.ofName "role")
  have hseconds := hseconds (.ofName "seconds")
  let second : Slot wireTimeNames "nanos" :=
    .element [⟨⟨.none, intText 1, .none⟩, isValue_intText 1⟩] ⟨.none, [], .none⟩ rfl []
  have hnanos := (hstamp "createdAt" (by decide) (.ofName "createdAt")).2 second
  have haccount {name : String} : (.ofName name : Slot accountNames name).InOrder accountSchema :=
    Slot.inOrder_ofName fun field hfield hrequired => by
      rw [isRequired_accountSchema field hfield] at hrequired
      contradiction
  have hsecond : (.ofName "seconds" : Slot wireTimeNames "seconds").InOrder wireTimeSchema :=
    Slot.inOrder_ofName (by simp [wireTimeSchema, Field.of])
  have hlist : second.InOrder wireTimeSchema :=
    Schema.places_cons.mpr ⟨.of_value (reads_int64 1).value_eq, Schema.places_nil.mpr (by simp)⟩
  refine ⟨?_, ?_, ?_, ?_, ?_, ?_, ?_⟩
  · exact hid.exists_ok haccount (n := .ofInt 9223372036854775807) ⟨by decide, by decide, by decide⟩
  · exact hrole.exists_ok haccount (n := .ofInt 2) ⟨by decide, by decide, by decide⟩
  · have htext : document .none ((.ofName "createdAt" : Slot accountNames "createdAt").fill
        (second.fill (IntegerText.ofInt (-2147483648)).text)) .none =
          "\x7b\"createdAt\":[1,-2147483648]\x7d" := by decide +kernel
    obtain ⟨a, ha, hstored⟩ := hnanos.exists_ok ⟨haccount, hlist⟩ (n := .ofInt (-2147483648))
      ⟨by decide, by decide, by decide⟩
    exact ⟨a, (congrArg Account.ofDocument htext).symm.trans ha, hstored⟩
  · have htext : document .none ((.ofName "seconds" : Slot wireTimeNames "seconds").fill
        (IntegerText.ofInt (-9223372036854775808)).text) .none =
          "\x7b\"seconds\":-9223372036854775808\x7d" := by decide +kernel
    obtain ⟨w, hw, hstored⟩ := hseconds.exists_ok hsecond (n := .ofInt (-9223372036854775808))
      ⟨by decide, by decide, by decide⟩
    exact ⟨w, (congrArg WireTime.ofDocument htext).symm.trans hw, hstored⟩
  · exact hbare.exists_ok trivial (n := .ofInt 2147483647) ⟨by decide, by decide, by decide⟩
  · exact hid.refused (.ofInt 9223372036854775808) fun h => absurd h.le_max (by decide)
  · exact hrole.refused .minusZero fun h => h.notMinusZero rfl

end Document

end AccountView
