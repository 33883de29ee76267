import AccountView.Document.Reader

namespace AccountView

/-! Numerals of a document. A numeral without fraction and exponent whose digits fit a word is an
integer; any other names a binary number, computed from as many digits as fit a word and a power of
ten. -/

namespace Document

inductive Numeral where
  | integer (n : Int)
  | floating (x : Binary64)
  deriving DecidableEq

namespace Numeral

def wordSize : Nat := UInt64.size

def digitValue (c : Char) : Nat := c.toNat - '0'.toNat

/-- Appends digits to a count as long as it fits a word. Gives back the digits that are left. -/
def accumulate (n : Nat) : List Char → Nat × List Char
  | [] => (n, [])
  | c :: digits =>
    if 10 * n + digitValue c < wordSize then
      accumulate (10 * n + digitValue c) digits
    else
      (n, c :: digits)

structure Written where
  negative : Bool
  whole : List Char
  fraction : Option (List Char)
  exponent : Option Int
  deriving DecidableEq

/-- A zero takes no digit after it. -/
def wholeDigits (text : List Char) : Except Fault (List Char × List Char) :=
  match text, text.takeWhile Char.isDigit with
  | [], _ => .error (.ended .value)
  | _, [] => .error .invalidNumber
  | _, '0' :: _ :: _ => .error .invalidNumber
  | _, digits => .ok (digits, text.dropWhile Char.isDigit)

/-- At least one digit must follow a point or an exponent mark. -/
def someDigits (text : List Char) : Except Fault (List Char × List Char) :=
  match text, text.takeWhile Char.isDigit with
  | [], _ => .error (.ended .value)
  | _, [] => .error .invalidNumber
  | _, digits => .ok (digits, text.dropWhile Char.isDigit)

def fractionPart : List Char → Except Fault (Option (List Char) × List Char)
  | '.' :: text => do
    let (digits, rest) ← someDigits text
    pure (some digits, rest)
  | text => .ok (none, text)

def exponentSign : List Char → Int × List Char
  | '+' :: text => (1, text)
  | '-' :: text => (-1, text)
  | text => (1, text)

def exponentPart : List Char → Except Fault (Option Int × List Char)
  | c :: text =>
    if c = 'e' ∨ c = 'E' then do
      let (sign, text) := exponentSign text
      let (digits, rest) ← someDigits text
      pure (some (sign * (Nat.ofDigitChars 10 digits 0 : Nat)), rest)
    else
      .ok (none, c :: text)
  | [] => .ok (none, [])

def signPart : List Char → Bool × List Char
  | '-' :: text => (true, text)
  | text => (false, text)

def written (text : List Char) : Except Fault (Written × List Char) := do
  let (negative, text) := signPart text
  let (whole, text) ← wholeDigits text
  let (fraction, text) ← fractionPart text
  let (exponent, text) ← exponentPart text
  pure (⟨negative, whole, fraction, exponent⟩, text)

/-- Digits past a word count as a power of ten in the whole part and not at all in the fraction. -/
def floatValue (w : Written) : Except Fault Binary64 :=
  let (n, left) := accumulate 0 w.whole
  let fraction := w.fraction.getD []
  let (n, unused) := accumulate n fraction
  let exponent := (left.length : Int) - (fraction.length - unused.length : Nat) + w.exponent.getD 0
  match Magnitude.ofDecimal? n exponent with
  | some m => .ok ⟨w.negative, m⟩
  | none => .error .numberOutOfRange

/-- Zero with a minus sign, and negative numbers past a signed word, are binary numbers too. -/
def value (w : Written) : Except Fault Numeral :=
  let (n, left) := accumulate 0 w.whole
  if left = [] ∧ w.fraction = none ∧ w.exponent = none ∧ ¬ w.negative then
    .ok (.integer n)
  else if left = [] ∧ w.fraction = none ∧ w.exponent = none ∧ 0 < n ∧ n ≤ wordSize / 2 then
    .ok (.integer (-n))
  else
    (floatValue w).map .floating

def read (text : List Char) : Except Fault (Numeral × List Char) := do
  let (w, rest) ← written text
  let numeral ← value w
  pure (numeral, rest)

/-! No part of a numeral gives back more than it was given. -/

theorem dropWhile_le (text : List Char) :
    (text.dropWhile Char.isDigit).length ≤ text.length :=
  (List.dropWhile_suffix Char.isDigit).length_le

theorem wholeDigits_le {text digits rest : List Char}
    (h : wholeDigits text = .ok (digits, rest)) : rest.length ≤ text.length := by
  unfold wholeDigits at h
  split at h
  · simp at h
  · simp at h
  · simp at h
  · simp only [Except.ok.injEq, Prod.mk.injEq] at h
    exact h.2 ▸ dropWhile_le _

theorem someDigits_le {text digits rest : List Char}
    (h : someDigits text = .ok (digits, rest)) : rest.length ≤ text.length := by
  unfold someDigits at h
  split at h
  · simp at h
  · simp at h
  · simp only [Except.ok.injEq, Prod.mk.injEq] at h
    exact h.2 ▸ dropWhile_le _

theorem fractionPart_le {text rest : List Char} {fraction : Option (List Char)}
    (h : fractionPart text = .ok (fraction, rest)) : rest.length ≤ text.length := by
  unfold fractionPart at h
  split at h
  · rename_i text
    cases hd : someDigits text with
    | error e => simp [hd, bind, Except.bind] at h
    | ok p =>
      obtain ⟨digits, rest'⟩ := p
      simp only [hd, bind, Except.bind, pure, Except.pure, Except.ok.injEq, Prod.mk.injEq] at h
      exact h.2 ▸ Nat.le_succ_of_le (someDigits_le hd)
  · simp only [Except.ok.injEq, Prod.mk.injEq] at h
    exact h.2 ▸ Nat.le_refl _

theorem exponentSign_le (text : List Char) : (exponentSign text).2.length ≤ text.length := by
  unfold exponentSign
  split <;> simp

theorem exponentPart_le {text rest : List Char} {exponent : Option Int}
    (h : exponentPart text = .ok (exponent, rest)) : rest.length ≤ text.length := by
  unfold exponentPart at h
  split at h
  · rename_i c text
    split at h
    · have hsign := exponentSign_le text
      cases hd : someDigits (exponentSign text).2 with
      | error e => simp [hd, bind, Except.bind] at h
      | ok p =>
        obtain ⟨digits, rest'⟩ := p
        simp only [hd, bind, Except.bind, pure, Except.pure, Except.ok.injEq,
          Prod.mk.injEq] at h
        have := someDigits_le hd
        rw [← h.2, List.length_cons]
        omega
    · simp only [Except.ok.injEq, Prod.mk.injEq] at h
      exact h.2 ▸ Nat.le_refl _
  · simp only [Except.ok.injEq, Prod.mk.injEq] at h
    exact h.2 ▸ Nat.le_refl _

theorem signPart_le (text : List Char) : (signPart text).2.length ≤ text.length := by
  unfold signPart
  split <;> simp

theorem written_le {text rest : List Char} {w : Written} (h : written text = .ok (w, rest)) :
    rest.length ≤ text.length := by
  have hsign := signPart_le text
  unfold written at h
  simp only [bind, Except.bind, pure, Except.pure] at h
  split at h
  · simp at h
  rename_i whole hwhole
  split at h
  · simp at h
  rename_i fraction hfraction
  split at h
  · simp at h
  rename_i exponent hexponent
  simp only [Except.ok.injEq, Prod.mk.injEq] at h
  have := wholeDigits_le hwhole
  have := fractionPart_le hfraction
  have := exponentPart_le hexponent
  rw [← h.2]
  omega

theorem read_le {text rest : List Char} {numeral : Numeral}
    (h : read text = .ok (numeral, rest)) : rest.length ≤ text.length := by
  unfold read at h
  simp only [bind, Except.bind, pure, Except.pure] at h
  split at h
  · simp at h
  rename_i w hw
  split at h
  · simp at h
  simp only [Except.ok.injEq, Prod.mk.injEq] at h
  exact h.2 ▸ written_le hw

end Numeral

end Document

end AccountView
