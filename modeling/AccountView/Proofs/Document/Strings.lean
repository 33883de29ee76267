import AccountView.Proofs.Document.Grammar

namespace AccountView

/-! Strings of the grammar as texts: each is read up to its closing quote, and what it stands for
depends on nothing behind that quote. -/

namespace Document

open Literal

/-- What the text of a string stands for. Half of a pair stands for nothing. -/
def Quotable.decoded (s : Quotable) : Except Fault (List Char) :=
  (body [] (s.closed [])).map Prod.fst

namespace Literal

theorem shortEscape?_isSome {c : Char} (h : c ∈ escapeLetters) :
    c ≠ 'u' ∧ (shortEscape? c).isSome = true := by
  simp only [escapeLetters, List.mem_cons, List.not_mem_nil, or_false] at h
  rcases h with rfl | rfl | rfl | rfl | rfl | rfl | rfl | rfl <;> exact ⟨by decide, rfl⟩

theorem hexValue?_isSome {c : Char} (h : IsHexDigit c) : (hexValue? c).isSome = true := by
  unfold hexValue?
  split
  · rfl
  split
  · rfl
  split
  · rfl
  · rcases h with h | h | h <;> contradiction

theorem utf8Size_hexDigit {c : Char} (h : IsHexDigit c) : c.utf8Size = 1 := by
  have hle : c.toNat ≤ 'f'.toNat := by
    rcases h with h | h | h
    · exact Nat.le_trans (Char.isDigit_iff_toNat.mp h).2 (by decide)
    · exact h.2
    · exact Nat.le_trans h.2 (by decide)
  exact Char.utf8Size_eq_one_iff.mpr (Nat.le_trans hle (by decide))

theorem hexNumber_digits {a b c d : Char} (ha : IsHexDigit a) (hb : IsHexDigit b)
    (hc : IsHexDigit c) (hd : IsHexDigit d) :
    ∃ n, ∀ rest, hexNumber (a :: b :: c :: d :: rest) = .ok n := by
  obtain ⟨w, hw⟩ := Option.isSome_iff_exists.mp (hexValue?_isSome ha)
  obtain ⟨x, hx⟩ := Option.isSome_iff_exists.mp (hexValue?_isSome hb)
  obtain ⟨y, hy⟩ := Option.isSome_iff_exists.mp (hexValue?_isSome hc)
  obtain ⟨z, hz⟩ := Option.isSome_iff_exists.mp (hexValue?_isSome hd)
  refine ⟨((w * 16 + x) * 16 + y) * 16 + z, fun rest => ?_⟩
  simp [hexNumber, byteCount, utf8Size_hexDigit ha, utf8Size_hexDigit hb, utf8Size_hexDigit hc,
    utf8Size_hexDigit hd, hw, hx, hy, hz]

/-- An escape by number is refused or stands for a character whatever follows its string. The rest
of the string is that behind the escape, or behind both escapes of a pair. -/
theorem escape_number {a b c d : Char} {tail : List Char} (ha : IsHexDigit a) (hb : IsHexDigit b)
    (hc : IsHexDigit c) (hd : IsHexDigit d) (htail : IsQuotable tail) :
    (∃ fault, ∀ rest, escape ('u' :: a :: b :: c :: d :: (tail ++ '"' :: rest)) = .error fault) ∨
      ∃ e n left, IsQuotable left ∧ left.length ≤ tail.length ∧ ∀ rest,
        escape ('u' :: a :: b :: c :: d :: (tail ++ '"' :: rest)) = .ok (e, n) ∧
          ('u' :: a :: b :: c :: d :: (tail ++ '"' :: rest)).drop n = left ++ '"' :: rest := by
  obtain ⟨n, hn⟩ := hexNumber_digits ha hb hc hd
  have hescape (rest : List Char) :
      escape ('u' :: a :: b :: c :: d :: (tail ++ '"' :: rest)) =
        (numberEscape (a :: b :: c :: d :: (tail ++ '"' :: rest))).map
          fun p => (p.1, p.2 + 1) := rfl
  by_cases htrailing : IsTrailing n
  · refine .inl ⟨.loneSurrogate, fun rest => ?_⟩
    rw [hescape]
    simp only [numberEscape, hn, bind, Except.bind, htrailing, if_true]
    rfl
  by_cases hleading : IsLeading n
  · cases htail with
    | nil =>
        refine .inl ⟨.unfinishedSurrogates, fun rest => ?_⟩
        rw [hescape]
        simp only [numberEscape, hn, bind, Except.bind, htrailing, hleading, if_true, if_false]
        rfl
    | plain _ notBackslash _ _ =>
        refine .inl ⟨.unfinishedSurrogates, fun rest => ?_⟩
        rw [hescape]
        simp [numberEscape, hn, bind, Except.bind, htrailing, hleading, notBackslash, throw,
          throwThe, MonadExceptOf.throw, Except.map]
    | letter hletter _ =>
        have hu := (shortEscape?_isSome hletter).1
        refine .inl ⟨.unfinishedSurrogates, fun rest => ?_⟩
        rw [hescape]
        simp [numberEscape, hn, bind, Except.bind, htrailing, hleading, hu, throw, throwThe,
          MonadExceptOf.throw, Except.map]
    | number ha' hb' hc' hd' hleft =>
        obtain ⟨m, hm⟩ := hexNumber_digits ha' hb' hc' hd'
        by_cases hpair : IsTrailing m
        · refine .inr ⟨joined n m, 11, _, hleft, by simp; omega, fun rest => ⟨?_, rfl⟩⟩
          rw [hescape]
          simp [numberEscape, hn, hm, bind, Except.bind, htrailing, hleading, hpair, pure,
            Except.pure, Except.map]
        · refine .inl ⟨.loneSurrogate, fun rest => ?_⟩
          rw [hescape]
          simp [numberEscape, hn, hm, bind, Except.bind, htrailing, hleading, hpair, throw,
            throwThe, MonadExceptOf.throw, Except.map]
  · refine .inr ⟨Char.ofNat n, 5, tail, htail, Nat.le_refl _, fun rest => ⟨?_, rfl⟩⟩
    rw [hescape]
    simp [numberEscape, hn, bind, Except.bind, htrailing, hleading, pure, Except.pure, Except.map]

theorem body_nil (read rest : List Char) : body read ('"' :: rest) = .ok (read.reverse, rest) := by
  rw [body]
  simp

theorem body_plain {c : Char} (hquote : c ≠ '"') (hbackslash : c ≠ '\\')
    (hcontrol : isControl c = false) (read rest : List Char) :
    body read (c :: rest) = body (c :: read) rest := by
  rw [body]
  simp [hquote, hbackslash, hcontrol]

theorem body_escape {text : List Char} {c : Char} {n : Nat} (h : escape text = .ok (c, n))
    (read : List Char) : body read ('\\' :: text) = body (c :: read) (text.drop n) := by
  rw [body]
  simp only [h]
  simp

theorem body_escape_error {text : List Char} {fault : Fault} (h : escape text = .error fault)
    (read : List Char) : body read ('\\' :: text) = .error fault := by
  rw [body]
  simp only [h]
  simp

/-- The reading of a string does not depend on what follows its closing quote. -/
theorem body_closed {text : List Char} (h : IsQuotable text) (read rest : List Char) :
    body read (text ++ '"' :: rest) =
      (body read (text ++ ['"'])).map fun p => (p.1, rest) := by
  -- A pair of escapes is one step of the reader, so the induction is on the length.
  induction hlength : text.length using Nat.strongRecOn generalizing text read with
  | ind length ih =>
      subst hlength
      cases h with
      | nil => simp [body_nil, Except.map]
      | @plain c tail notQuote notBackslash notControl htail =>
          simp only [List.cons_append, body_plain notQuote notBackslash notControl]
          exact ih tail.length (by simp) htail (c :: read) rfl
      | @letter c tail hletter htail =>
          obtain ⟨hu, hsome⟩ := shortEscape?_isSome hletter
          obtain ⟨e, he⟩ := Option.isSome_iff_exists.mp hsome
          have hescape (more : List Char) : escape (c :: more) = .ok (e, 1) := by
            simp [escape, he]
          simp only [List.cons_append, body_escape (hescape _), List.drop_succ_cons,
            List.drop_zero]
          exact ih tail.length (by simp only [List.length_cons]; omega) htail (e :: read) rfl
      | @number a b c d tail ha hb hc hd htail =>
          rcases escape_number ha hb hc hd htail with
            ⟨fault, hescape⟩ | ⟨e, n, left, hleft, hle, hescape⟩
          · simp only [List.cons_append, body_escape_error (hescape _)]
            rfl
          · simp only [List.cons_append, body_escape (hescape _).1, (hescape _).2]
            exact ih left.length (by simp; omega) hleft (e :: read) rfl

end Literal

theorem Quotable.body_closed (s : Quotable) (rest : List Char) :
    body [] (s.closed rest) = s.decoded.map fun text => (text, rest) := by
  rw [closed, Literal.body_closed s.isQuotable, decoded, closed]
  cases body [] (s.text ++ ['"']) <;> rfl

/-! ### Written strings -/

namespace Literal

theorem fourHexDigits_control : ∀ n < 32,
    fourHexDigits n = ['0', '0', (n / 16).digitChar, (n % 16).digitChar] := by
  decide

theorem length_fourHexDigits {n : Nat} (h : n < 32) : (fourHexDigits n).length = 4 := by
  rw [fourHexDigits_control n h]
  rfl

theorem hexValue?_digitChar : ∀ d < 16,
    IsHexDigit d.digitChar ∧ hexValue? d.digitChar = some d := by
  unfold IsHexDigit
  decide

theorem escape_control {n : Nat} (h : n < 32) (rest : List Char) :
    escape ('u' :: (fourHexDigits n ++ rest)) = .ok (Char.ofNat n, 5) := by
  obtain ⟨hhigh, hhigh'⟩ := hexValue?_digitChar (n / 16) (by omega)
  obtain ⟨hlow, hlow'⟩ := hexValue?_digitChar (n % 16) (by omega)
  have hzero : hexValue? '0' = some 0 := rfl
  have hsize : '0'.utf8Size = 1 := rfl
  have hnumber : hexNumber (fourHexDigits n ++ rest) = .ok n := by
    have hsum : n / 16 * 16 + n % 16 = n := by omega
    simp [fourHexDigits_control n h, hexNumber, byteCount, utf8Size_hexDigit hhigh,
      utf8Size_hexDigit hlow, hzero, hsize, hhigh', hlow', hsum]
  have htrailing : ¬ IsTrailing n := by
    unfold IsTrailing
    omega
  have hleading : ¬ IsLeading n := by
    unfold IsLeading
    omega
  simp [escape, numberEscape, hnumber, htrailing, hleading, bind, Except.bind, pure, Except.pure,
    Except.map]

/-- A character is written as a letter, as a number or as itself. -/
theorem encodeChar_cases (c : Char) :
    (∃ letter ∈ escapeLetters, shortEscape? letter = some c ∧ encodeChar c = ['\\', letter]) ∨
    (isControl c = true ∧ encodeChar c = '\\' :: 'u' :: fourHexDigits c.toNat) ∨
    (c ≠ '"' ∧ c ≠ '\\' ∧ isControl c = false ∧ encodeChar c = [c]) := by
  unfold encodeChar
  split
  · subst c
    exact .inl ⟨'"', by simp [escapeLetters], rfl, rfl⟩
  split
  · subst c
    exact .inl ⟨'\\', by simp [escapeLetters], rfl, rfl⟩
  split
  · subst c
    exact .inl ⟨'b', by simp [escapeLetters], rfl, rfl⟩
  split
  · subst c
    exact .inl ⟨'f', by simp [escapeLetters], rfl, rfl⟩
  split
  · subst c
    exact .inl ⟨'n', by simp [escapeLetters], rfl, rfl⟩
  split
  · subst c
    exact .inl ⟨'r', by simp [escapeLetters], rfl, rfl⟩
  split
  · subst c
    exact .inl ⟨'t', by simp [escapeLetters], rfl, rfl⟩
  split
  · rename_i hcontrol
    exact .inr (.inl ⟨hcontrol, rfl⟩)
  · rename_i hquote hbackslash _ _ _ _ _ hcontrol
    exact .inr (.inr ⟨hquote, hbackslash, eq_false_of_ne_true hcontrol, rfl⟩)

theorem toNat_lt_of_isControl {c : Char} (h : isControl c = true) : c.toNat < 32 :=
  of_decide_eq_true h

theorem isQuotable_encodeChar (c : Char) {rest : List Char} (h : IsQuotable rest) :
    IsQuotable (encodeChar c ++ rest) := by
  rcases encodeChar_cases c with ⟨letter, hletter, _, hencode⟩ | ⟨hcontrol, hencode⟩ |
    ⟨hquote, hbackslash, hcontrol, hencode⟩
  · rw [hencode]
    exact .letter hletter h
  · have hlt := toNat_lt_of_isControl hcontrol
    have hhigh := (hexValue?_digitChar (c.toNat / 16) (by omega)).1
    have hlow := (hexValue?_digitChar (c.toNat % 16) (by omega)).1
    rw [hencode, fourHexDigits_control c.toNat hlt]
    exact .number (.inl rfl) (.inl rfl) hhigh hlow h
  · rw [hencode]
    exact .plain hquote hbackslash hcontrol h

theorem body_encodeChar (c : Char) (read rest : List Char) :
    body read (encodeChar c ++ rest) = body (c :: read) rest := by
  rcases encodeChar_cases c with ⟨letter, hletter, hshort, hencode⟩ | ⟨hcontrol, hencode⟩ |
    ⟨hquote, hbackslash, hcontrol, hencode⟩
  · have hu := (shortEscape?_isSome hletter).1
    have hescape : escape (letter :: rest) = .ok (c, 1) := by simp [escape, hshort]
    rw [hencode]
    exact body_escape hescape read
  · have hlt := toNat_lt_of_isControl hcontrol
    have hdrop : ('u' :: (fourHexDigits c.toNat ++ rest)).drop 5 = rest := by
      rw [List.drop_succ_cons, ← length_fourHexDigits hlt, List.drop_left]
    have hescape := escape_control hlt rest
    rw [Char.ofNat_toNat] at hescape
    rw [hencode, List.cons_append, List.cons_append, body_escape hescape, hdrop]
  · rw [hencode]
    exact body_plain hquote hbackslash hcontrol read rest

theorem body_encode (text read rest : List Char) :
    body read (text.flatMap encodeChar ++ '"' :: rest) = .ok (read.reverse ++ text, rest) := by
  induction text generalizing read with
  | nil => simpa using body_nil read rest
  | cons c text ih =>
      rw [List.flatMap_cons, List.append_assoc, body_encodeChar, ih]
      simp

end Literal

namespace Quotable

/-- The text between the quotes of a string that is written. -/
def ofText (text : List Char) : Quotable where
  text := text.flatMap encodeChar
  isQuotable := by
    induction text with
    | nil => exact .nil
    | cons c text ih => exact isQuotable_encodeChar c ih

theorem closed_ofText (text rest : List Char) :
    '"' :: (ofText text).closed rest = encode text ++ rest := by
  simp [ofText, closed, encode]

@[simp] theorem decoded_ofText (text : List Char) : (ofText text).decoded = .ok text := by
  simp only [decoded, closed, ofText, body_encode]
  rfl

end Quotable

end Document

end AccountView
