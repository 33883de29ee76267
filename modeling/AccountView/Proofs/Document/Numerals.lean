import AccountView.Document.Numeral
import AccountView.Proofs.Document.Grammar

namespace AccountView

/-! Numbers of the grammar as numerals: each is read up to its end, and the numeral depends on the
number alone. -/

namespace Document

/-- Nothing that could continue a run of digits stands at the front. -/
def NoDigit (text : List Char) : Prop := ∀ c ∈ text.head?, c.isDigit = false

theorem takeWhile_digits {text rest : List Char} (hdigits : ∀ c ∈ text, c.isDigit = true)
    (hrest : NoDigit rest) : (text ++ rest).takeWhile Char.isDigit = text := by
  rw [List.takeWhile_append_of_pos hdigits]
  cases rest with
  | nil => simp
  | cons c rest =>
      have hc : c.isDigit = false := hrest c rfl
      simp [hc]

theorem dropWhile_digits {text rest : List Char} (hdigits : ∀ c ∈ text, c.isDigit = true)
    (hrest : NoDigit rest) : (text ++ rest).dropWhile Char.isDigit = rest := by
  rw [List.dropWhile_append_of_pos hdigits]
  cases rest with
  | nil => rfl
  | cons c rest =>
      have hc : c.isDigit = false := hrest c rfl
      simp [hc]

theorem Delimited.ne {c : Char} {rest : List Char} (h : Delimited (c :: rest)) {d : Char}
    (hd : isDelimiter d = false) : c ≠ d := by
  rintro rfl
  rw [delimited_cons, hd] at h
  contradiction

theorem Delimited.noDigit {rest : List Char} (h : Delimited rest) : NoDigit rest := by
  intro c hc
  have hmem := isDelimiter_iff.mp (h c hc)
  simp only [List.mem_cons, List.not_mem_nil, or_false] at hmem
  rcases hmem with rfl | rfl | rfl | rfl | rfl | rfl | rfl <;> rfl

def Exponent.value (e : Exponent) : Int :=
  (if e.sign = some '-' then -1 else 1) * (Nat.ofDigitChars 10 e.digits.text 0 : Nat)

def NumberText.written (n : NumberText) : Numeral.Written where
  negative := n.negative
  whole := n.whole.text
  fraction := n.fraction.map (·.text)
  exponent := n.exponent.map Exponent.value

namespace Numeral

theorem someDigits_append (digits : Digits) {rest : List Char} (hrest : NoDigit rest) :
    someDigits (digits.text ++ rest) = .ok (digits.text, rest) := by
  obtain ⟨d, ds, htext, _, _⟩ := digits.exists_cons
  have htake := takeWhile_digits digits.isDigit_of_mem hrest
  have hdrop := dropWhile_digits digits.isDigit_of_mem hrest
  rw [htext] at htake hdrop ⊢
  unfold someDigits
  rw [htake, hdrop]
  rfl

theorem wholeDigits_append (whole : WholeDigits) {rest : List Char} (hrest : NoDigit rest) :
    wholeDigits (whole.text ++ rest) = .ok (whole.text, rest) := by
  obtain ⟨d, ds, htext, _, _⟩ := whole.exists_cons
  have htake := takeWhile_digits whole.isDigit_of_mem hrest
  have hdrop := dropWhile_digits whole.isDigit_of_mem hrest
  rw [htext] at htake hdrop ⊢
  unfold wholeDigits
  rw [htake, hdrop]
  cases ds with
  | nil => simp
  | cons e es =>
      have hzero : d ≠ '0' := by
        rintro rfl
        have := whole.eq_zero_of_head? (by simp [htext])
        simp [htext] at this
      simp [hzero]

theorem signPart_append (negative : Bool) {c : Char} (hc : c ≠ '-') (rest : List Char) :
    signPart (NumberText.signText negative ++ c :: rest) = (negative, c :: rest) := by
  cases negative with
  | true => rfl
  | false => simp [NumberText.signText, signPart, hc]

theorem fractionPart_append (fraction : Option Digits) {rest : List Char} (hrest : NoDigit rest)
    (hpoint : '.' ∉ rest.head?) :
    fractionPart (NumberText.fractionText fraction ++ rest) =
      .ok (fraction.map (·.text), rest) := by
  cases fraction with
  | some digits =>
      simp only [NumberText.fractionText, List.cons_append, fractionPart,
        someDigits_append digits hrest]
      rfl
  | none =>
      cases rest with
      | nil => rfl
      | cons c rest =>
          have hc : c ≠ '.' := fun heq => hpoint (by simp [heq])
          simp [NumberText.fractionText, fractionPart, hc]

theorem exponentSign_append (sign : Option Char) (hsign : ∀ c ∈ sign, c ∈ ['+', '-'])
    (digits : Digits) (rest : List Char) :
    exponentSign (sign.toList ++ (digits.text ++ rest)) =
      (if sign = some '-' then -1 else 1, digits.text ++ rest) := by
  cases sign with
  | some c =>
      have hc := hsign c rfl
      simp only [List.mem_cons, List.not_mem_nil, or_false] at hc
      rcases hc with rfl | rfl <;> rfl
  | none =>
      obtain ⟨d, ds, htext, hd, _⟩ := digits.exists_cons
      have hplus : d ≠ '+' := ne_of_isDigit hd rfl
      have hminus : d ≠ '-' := ne_of_isDigit hd rfl
      simp [htext, exponentSign, hplus, hminus]

theorem exponentPart_append (exponent : Option Exponent) {rest : List Char}
    (hrest : Delimited rest) :
    exponentPart (NumberText.exponentText exponent ++ rest) =
      .ok (exponent.map Exponent.value, rest) := by
  cases exponent with
  | some e =>
      obtain ⟨mark, mark_mem, sign, sign_mem, digits⟩ := e
      have hmark : mark = 'e' ∨ mark = 'E' := by simpa using mark_mem
      have hsign := exponentSign_append sign sign_mem digits rest
      simp only [NumberText.exponentText, Exponent.text, List.cons_append, List.append_assoc,
        exponentPart, hmark, if_true, hsign, someDigits_append digits hrest.noDigit]
      rfl
  | none =>
      cases rest with
      | nil => rfl
      | cons c rest =>
          have hsmall : c ≠ 'e' := hrest.ne rfl
          have hlarge : c ≠ 'E' := hrest.ne rfl
          simp [NumberText.exponentText, exponentPart, hsmall, hlarge]

theorem head?_exponentText (exponent : Option Exponent) {rest : List Char}
    (hrest : Delimited rest) :
    ∀ c ∈ (NumberText.exponentText exponent ++ rest).head?, c.isDigit = false ∧ c ≠ '.' := by
  intro c hc
  cases exponent with
  | some e =>
      have hmark : c = e.mark := by simpa [NumberText.exponentText, Exponent.text] using hc.symm
      have hmem : e.mark = 'e' ∨ e.mark = 'E' := by simpa using e.mark_mem
      rw [hmark]
      rcases hmem with h | h <;> rw [h] <;> exact ⟨rfl, by decide⟩
  | none =>
      refine ⟨hrest.noDigit c hc, ?_⟩
      rintro rfl
      exact absurd (hrest _ hc) (by decide)

theorem written_append (n : NumberText) {rest : List Char} (hrest : Delimited rest) :
    written (n.text ++ rest) = .ok (n.written, rest) := by
  obtain ⟨negative, whole, fraction, exponent⟩ := n
  obtain ⟨d, ds, htext, hd, _⟩ := whole.exists_cons
  have hhead := head?_exponentText exponent hrest
  have hexponent := exponentPart_append exponent hrest
  have hfraction := fractionPart_append fraction (fun c hc => (hhead c hc).1)
    (fun hpoint => (hhead '.' hpoint).2 rfl)
  have hnoDigit : NoDigit (NumberText.fractionText fraction ++
      (NumberText.exponentText exponent ++ rest)) := by
    cases fraction with
    | none => exact fun c hc => (hhead c hc).1
    | some digits => simp [NoDigit, NumberText.fractionText]
  have hwhole := wholeDigits_append whole hnoDigit
  have hsign := signPart_append negative (ne_of_isDigit hd (by decide : Char.isDigit '-' = false))
    (ds ++ (NumberText.fractionText fraction ++ (NumberText.exponentText exponent ++ rest)))
  rw [← List.cons_append, ← htext] at hsign
  simp only [written, NumberText.text, List.append_assoc, hsign, hwhole, hfraction, hexponent,
    bind, Except.bind, pure, Except.pure]
  rfl

theorem read_append (n : NumberText) {rest : List Char} (hrest : Delimited rest) :
    read (n.text ++ rest) = (value n.written).map fun numeral => (numeral, rest) := by
  simp only [read, written_append n hrest, bind, Except.bind, pure, Except.pure]
  cases value n.written <;> rfl

end Numeral

end Document

end AccountView
