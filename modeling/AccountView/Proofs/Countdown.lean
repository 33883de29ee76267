import AccountView.Countdown
import AccountView.Decimal
import AccountView.Proofs.Document.Numerals

namespace AccountView

/-! Countdowns as numbers of minutes. Days, hours and minutes are the digits of one number and are
in the order of what they count, and all three are read back from the text. -/

attribute [ext] Countdown

namespace Countdown

variable {a b c : Countdown} {millis : Nat}

def total (c : Countdown) : Nat := c.days * 1440 + c.hours * 60 + c.minutes

/-- Neither hours nor minutes fill the next larger unit. -/
structure Carried (c : Countdown) : Prop where
  hours_lt : c.hours < 24
  minutes_lt : c.minutes < 60

instance : Ord Countdown where
  compare a b :=
    (compare a.days b.days).then
      ((compare a.hours b.hours).then (compare a.minutes b.minutes))

theorem compare_def (a b : Countdown) : compare a b =
    (compare a.days b.days).then
      ((compare a.hours b.hours).then (compare a.minutes b.minutes)) := rfl

/-! ### One number -/

theorem carried_ofMillis (millis : Nat) : (ofMillis millis).Carried :=
  ⟨hours_lt millis, minutes_lt millis⟩

theorem total_ofMillis (millis : Nat) : (ofMillis millis).total = millis / millisPerMinute :=
  total_minutes millis

theorem Carried.eq_of_total (ha : a.Carried) (hb : b.Carried) (h : a.total = b.total) : a = b := by
  obtain ⟨hahours, haminutes⟩ := ha
  obtain ⟨hbhours, hbminutes⟩ := hb
  simp only [total] at h
  ext <;> omega

theorem ofMillis_eq_iff :
    ofMillis millis = c ↔ c.Carried ∧ c.total = millis / millisPerMinute := by
  constructor
  · rintro rfl
    exact ⟨carried_ofMillis millis, total_ofMillis millis⟩
  · rintro ⟨hcarried, htotal⟩
    apply (carried_ofMillis millis).eq_of_total hcarried
    rw [htotal, total_ofMillis]

theorem compare_add_left (n k l : Nat) : compare (n + k) (n + l) = compare k l := by
  cases h : compare k l with
  | lt =>
      rw [Nat.compare_eq_lt] at h ⊢
      omega
  | eq =>
      rw [Nat.compare_eq_eq] at h ⊢
      omega
  | gt =>
      rw [Nat.compare_eq_gt] at h ⊢
      omega

/-- The last digits decide where what stands above them is equal. -/
theorem compare_mul_add {base m n k l : Nat} (hk : k < base) (hl : l < base) :
    compare (m * base + k) (n * base + l) = (compare m n).then (compare k l) := by
  cases h : compare m n with
  | lt =>
      have hlt : m < n := Nat.compare_eq_lt.mp h
      have hnext : (m + 1) * base ≤ n * base := Nat.mul_le_mul_right base hlt
      -- One more above the last digits outweighs any of them.
      rw [Nat.succ_mul] at hnext
      apply Nat.compare_eq_lt.mpr
      omega
  | eq =>
      rw [Nat.compare_eq_eq.mp h]
      exact compare_add_left _ k l
  | gt =>
      have hgt : n < m := Nat.compare_eq_gt.mp h
      have hnext : (n + 1) * base ≤ m * base := Nat.mul_le_mul_right base hgt
      rw [Nat.succ_mul] at hnext
      apply Nat.compare_eq_gt.mpr
      omega

theorem Carried.compare_eq (ha : a.Carried) (hb : b.Carried) :
    compare a b = compare a.total b.total := by
  have htotal (c : Countdown) : c.total = (c.days * 24 + c.hours) * 60 + c.minutes := by
    simp only [total]
    omega
  rw [htotal a, htotal b, compare_mul_add ha.minutes_lt hb.minutes_lt,
    compare_mul_add ha.hours_lt hb.hours_lt, Ordering.then_assoc, compare_def]

/-! ### Words -/

/-- The same counts taken in words. -/
def ofWord (millis : UInt64) : Countdown where
  days := (millis / 86400000).toNat
  hours := (millis % 86400000 / 3600000).toNat
  minutes := (millis % 3600000 / 60000).toNat

theorem toNat_mod_div (a b c : UInt64) : (a % b / c).toNat = a.toNat % b.toNat / c.toNat := by
  rw [UInt64.toNat_div, UInt64.toNat_mod]

theorem ofWord_eq (millis : UInt64) : ofWord millis = ofMillis millis.toNat := by
  ext
  case days => exact UInt64.toNat_div millis 86400000
  case hours => exact toNat_mod_div millis 86400000 3600000
  case minutes => exact toNat_mod_div millis 3600000 60000

/-! ### Reading the text -/

/-- A number and its unit, off the front of a text. -/
def counted? (unit text : List Char) : Option (Nat × List Char) := do
  let count ← Decimal.nat? (text.takeWhile Char.isDigit)
  let rest := text.dropWhile Char.isDigit
  if unit <+: rest then some (count, rest.drop unit.length) else none

def ofText? (text : String) : Option Countdown := do
  let (days, rest) ← counted? ['天'] text.toList
  let (hours, rest) ← counted? ['小', '时'] rest
  let (minutes, rest) ← counted? ['分', '钟'] rest
  if rest = [] then some ⟨days, hours, minutes⟩ else none

theorem counted?_append {mark : Char} (hmark : mark.isDigit = false) (unit : List Char) (n : Nat)
    (rest : List Char) :
    counted? (mark :: unit) (Nat.toDigits 10 n ++ (mark :: unit ++ rest)) = some (n, rest) := by
  have hdigits : ∀ d ∈ Nat.toDigits 10 n, d.isDigit = true := fun _ =>
    Nat.isDigit_of_mem_toDigits (by decide) (by decide)
  have hend : Document.NoDigit (mark :: unit ++ rest) := by
    rintro _ ⟨⟩
    exact hmark
  rw [counted?, Document.takeWhile_digits hdigits hend, Document.dropWhile_digits hdigits hend,
    Decimal.nat?_toDigits]
  simp

theorem toList_text (c : Countdown) : c.text.toList =
    Nat.toDigits 10 c.days ++ (['天'] ++ (Nat.toDigits 10 c.hours ++ (['小', '时'] ++
      (Nat.toDigits 10 c.minutes ++ (['分', '钟'] ++ []))))) := by
  simp [text]

theorem ofText?_text (c : Countdown) : ofText? c.text = some c := by
  have hday : '天'.isDigit = false := by decide
  have hhour : '小'.isDigit = false := by decide
  have hminute : '分'.isDigit = false := by decide
  simp only [ofText?, toList_text, counted?_append hday, counted?_append hhour,
    counted?_append hminute, Option.bind_eq_bind, Option.bind_some, if_true]

theorem text_inj : a.text = b.text ↔ a = b := by
  constructor
  · intro h
    have hread := ofText?_text a
    rw [h, ofText?_text, Option.some.injEq] at hread
    exact hread.symm
  · exact congrArg text

/-- The text for what is left tells the whole minutes of it and no more. -/
structure TellsMinutes : Prop where
  printed : ∀ millis, ∃ days hours minutes : Nat, hours < 24 ∧ minutes < 60 ∧
    (days * 1440 + hours * 60 + minutes) * 60000 ≤ millis ∧
      millis < (days * 1440 + hours * 60 + minutes + 1) * 60000 ∧
    (ofMillis millis).text =
      toString days ++ "天" ++ toString hours ++ "小时" ++ toString minutes ++ "分钟" ∧
    ofText? (ofMillis millis).text = some ⟨days, hours, minutes⟩
  eq_iff : ∀ millis other, (ofMillis millis).text = (ofMillis other).text ↔
    millis / 60000 = other / 60000
  ordered : ∀ millis other, ∃ a b, ofText? (ofMillis millis).text = some a ∧
    ofText? (ofMillis other).text = some b ∧ compare a b = compare (millis / 60000) (other / 60000)
  words : ∀ millis, ofWord millis = ofMillis millis.toNat

theorem tellsMinutes : TellsMinutes where
  printed millis := by
    have htotal := total_minutes millis
    rw [millisPerMinute] at htotal
    refine ⟨_, _, _, hours_lt millis, minutes_lt millis, ?_, ?_, rfl, ofText?_text _⟩ <;> omega
  eq_iff millis other := by
    rw [text_inj, ofMillis_eq_iff, total_ofMillis]
    constructor
    · rintro ⟨_, htotal⟩
      exact htotal.symm
    · intro h
      exact ⟨carried_ofMillis other, h.symm⟩
  ordered millis other := by
    refine ⟨_, _, ofText?_text _, ofText?_text _, ?_⟩
    rw [(carried_ofMillis millis).compare_eq (carried_ofMillis other), total_ofMillis,
      total_ofMillis]
    rfl
  words := ofWord_eq

end Countdown

end AccountView
