import AccountView.Document.Reader

namespace AccountView

/-! String literals of a document: characters up to a closing quote, with escapes. Characters past
the first plane are escaped as two surrogates. `encode` writes the one form in which only the quote,
the backslash and the control characters are escaped. -/

namespace Document.Literal

def hexValue? (c : Char) : Option Nat :=
  if c.isDigit then some (c.toNat - '0'.toNat)
  else if 'a' ≤ c ∧ c ≤ 'f' then some (c.toNat - 'a'.toNat + 10)
  else if 'A' ≤ c ∧ c ≤ 'F' then some (c.toNat - 'A'.toNat + 10)
  else none

def byteCount : List Char → Nat
  | [] => 0
  | c :: text => c.utf8Size + byteCount text

/-- The number that the next four hexadecimal digits write. With fewer than four bytes left the text
has ended, whatever they are. -/
def hexNumber (text : List Char) : Except Fault Nat :=
  if byteCount (text.take 4) < 4 then
    .error (.ended .string)
  else
    match (text.take 4).mapM hexValue? with
    | some [a, b, c, d] => .ok (((a * 16 + b) * 16 + c) * 16 + d)
    | _ => .error .invalidEscape

def IsLeading (n : Nat) : Prop := 0xD800 ≤ n ∧ n ≤ 0xDBFF

def IsTrailing (n : Nat) : Prop := 0xDC00 ≤ n ∧ n ≤ 0xDFFF

instance (n : Nat) : Decidable (IsLeading n) := inferInstanceAs (Decidable (_ ∧ _))

instance (n : Nat) : Decidable (IsTrailing n) := inferInstanceAs (Decidable (_ ∧ _))

def joined (leading trailing : Nat) : Char :=
  Char.ofNat (0x10000 + (leading - 0xD800) * 0x400 + (trailing - 0xDC00))

/-- The character of an escape by number, and how many characters it takes after its letter. -/
def numberEscape (text : List Char) : Except Fault (Char × Nat) := do
  let n ← hexNumber text
  if IsTrailing n then
    throw .loneSurrogate
  else if IsLeading n then
    match text.drop 4 with
    | [] => throw (.ended .string)
    | ['\\'] => throw (.ended .string)
    | '\\' :: 'u' :: rest =>
      let m ← hexNumber rest
      if IsTrailing m then pure (joined n m, 10) else throw .loneSurrogate
    | _ => throw .unfinishedSurrogates
  else
    pure (Char.ofNat n, 4)

def shortEscape? (letter : Char) : Option Char :=
  if letter = '"' ∨ letter = '\\' ∨ letter = '/' then some letter
  else if letter = 'b' then some '\x08'
  else if letter = 'f' then some '\x0c'
  else if letter = 'n' then some '\n'
  else if letter = 'r' then some '\r'
  else if letter = 't' then some '\t'
  else none

/-- The character of an escape, and how many characters it takes after the backslash. -/
def escape (text : List Char) : Except Fault (Char × Nat) :=
  match text with
  | [] => .error (.ended .string)
  | 'u' :: rest => (numberEscape rest).map fun (c, n) => (c, n + 1)
  | letter :: _ =>
    match shortEscape? letter with
    | some c => .ok (c, 1)
    | none => .error .invalidEscape

def isControl (c : Char) : Bool := c.toNat < 0x20

/-- Characters up to the closing quote, after those that have been read, the last one first. -/
def body (read : List Char) : List Char → Except Fault (List Char × List Char)
  | [] => .error (.ended .string)
  | c :: rest =>
    if c = '"' then
      .ok (read.reverse, rest)
    else if c = '\\' then
      match escape rest with
      | .ok (d, n) => body (d :: read) (rest.drop n)
      | .error e => .error e
    else if isControl c then
      .error .controlCharacter
    else
      body (c :: read) rest
termination_by text => text.length
decreasing_by
  · simp only [List.length_drop, List.length_cons]
    omega
  · simp

theorem body_le {read text s rest : List Char} (h : body read text = .ok (s, rest)) :
    rest.length ≤ text.length := by
  fun_induction body read text with
  | case1 => simp at h
  | case2 read rest' =>
    simp only [Except.ok.injEq, Prod.mk.injEq] at h
    exact h.2 ▸ Nat.le_succ ..
  | case3 read rest' _ d n hescape ih =>
    refine Nat.le_trans (ih h) ?_
    simp only [List.length_drop, List.length_cons]
    omega
  | case4 => simp at h
  | case5 => simp at h
  | case6 read c rest' _ _ _ ih => exact Nat.le_succ_of_le (ih h)

def fourHexDigits (n : Nat) : List Char := (Nat.toDigits 16 n).leftpad 4 '0'

def encodeChar (c : Char) : List Char :=
  if c = '"' then ['\\', '"']
  else if c = '\\' then ['\\', '\\']
  else if c = '\x08' then ['\\', 'b']
  else if c = '\x0c' then ['\\', 'f']
  else if c = '\n' then ['\\', 'n']
  else if c = '\r' then ['\\', 'r']
  else if c = '\t' then ['\\', 't']
  else if isControl c then '\\' :: 'u' :: fourHexDigits c.toNat
  else [c]

def encode (text : List Char) : List Char := '"' :: text.flatMap encodeChar ++ ['"']

end Document.Literal

end AccountView
