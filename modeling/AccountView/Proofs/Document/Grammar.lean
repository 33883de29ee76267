import AccountView.Document.Literal

namespace AccountView

/-! The form of a document, said without any reader. Texts of values are built from their tokens,
with blanks wherever blanks may stand. -/

namespace Document

structure Blanks where
  text : List Char
  isBlank_of_mem : ∀ c ∈ text, isBlank c = true

namespace Blanks

def none : Blanks := ⟨[], by simp⟩

@[simp] theorem text_none : none.text = [] := rfl

end Blanks

/-! ### Strings -/

def IsHexDigit (c : Char) : Prop :=
  c.isDigit = true ∨ ('a' ≤ c ∧ c ≤ 'f') ∨ ('A' ≤ c ∧ c ≤ 'F')

def escapeLetters : List Char := ['"', '\\', '/', 'b', 'f', 'n', 'r', 't']

/-- What may stand between the quotes of a string. An escape by number may be half of a pair. -/
inductive IsQuotable : List Char → Prop
  | nil : IsQuotable []
  | plain {c : Char} {rest : List Char} (notQuote : c ≠ '"') (notBackslash : c ≠ '\\')
      (notControl : Literal.isControl c = false) (tail : IsQuotable rest) :
      IsQuotable (c :: rest)
  | letter {c : Char} {rest : List Char} (letter : c ∈ escapeLetters) (tail : IsQuotable rest) :
      IsQuotable ('\\' :: c :: rest)
  | number {a b c d : Char} {rest : List Char} (first : IsHexDigit a) (second : IsHexDigit b)
      (third : IsHexDigit c) (fourth : IsHexDigit d) (tail : IsQuotable rest) :
      IsQuotable ('\\' :: 'u' :: a :: b :: c :: d :: rest)

structure Quotable where
  text : List Char
  isQuotable : IsQuotable text
  deriving DecidableEq

/-- A string from its opening quote on, before further text. -/
def Quotable.closed (s : Quotable) (rest : List Char) : List Char := s.text ++ '"' :: rest

/-! ### Numbers -/

structure Digits where
  text : List Char
  ne_nil : text ≠ []
  isDigit_of_mem : ∀ c ∈ text, c.isDigit = true

theorem ne_of_isDigit {c d : Char} (hc : c.isDigit = true) (hd : d.isDigit = false) : c ≠ d := by
  rintro rfl
  rw [hc] at hd
  contradiction

theorem isBlank_of_isDigit {c : Char} (h : c.isDigit = true) : isBlank c = false := by
  have hspace : c ≠ ' ' := ne_of_isDigit h rfl
  have htab : c ≠ '\t' := ne_of_isDigit h rfl
  have hline : c ≠ '\n' := ne_of_isDigit h rfl
  have hreturn : c ≠ '\r' := ne_of_isDigit h rfl
  simp [isBlank, hspace, htab, hline, hreturn]

theorem Digits.exists_cons (digits : Digits) : ∃ d ds, digits.text = d :: ds ∧
    d.isDigit = true ∧ ∀ c ∈ ds, c.isDigit = true := by
  obtain ⟨text, ne_nil, isDigit_of_mem⟩ := digits
  cases text with
  | nil => contradiction
  | cons d ds =>
      exact ⟨d, ds, rfl, isDigit_of_mem d (by simp), fun c hc => isDigit_of_mem c (by simp [hc])⟩

/-- Only a lone zero begins with a zero. -/
structure WholeDigits extends Digits where
  eq_zero_of_head? : text.head? = some '0' → text = ['0']

structure Exponent where
  mark : Char
  mark_mem : mark ∈ ['e', 'E']
  sign : Option Char
  sign_mem : ∀ c ∈ sign, c ∈ ['+', '-']
  digits : Digits

structure NumberText where
  negative : Bool
  whole : WholeDigits
  fraction : Option Digits
  exponent : Option Exponent

def Exponent.text (e : Exponent) : List Char := e.mark :: (e.sign.toList ++ e.digits.text)

namespace NumberText

def fractionText (fraction : Option Digits) : List Char :=
  match fraction with
  | some digits => '.' :: digits.text
  | none => []

def exponentText (exponent : Option Exponent) : List Char :=
  match exponent with
  | some e => e.text
  | none => []

def signText (negative : Bool) : List Char := if negative then ['-'] else []

def text (n : NumberText) : List Char :=
  signText n.negative ++
    (n.whole.text ++ (fractionText n.fraction ++ exponentText n.exponent))

theorem exists_cons (n : NumberText) :
    ∃ c rest, n.text = c :: rest ∧ (c = '-' ∨ c.isDigit = true) := by
  obtain ⟨negative, whole, fraction, exponent⟩ := n
  cases negative with
  | true => exact ⟨'-', _, rfl, .inl rfl⟩
  | false =>
      obtain ⟨d, ds, hdigits, hd, _⟩ := whole.exists_cons
      exact ⟨d, _, by simp [text, signText, hdigits]; rfl, .inr hd⟩

end NumberText

/-! ### Lists and objects -/

/-- Parts of a list or an object from the end of a part on. -/
def closedBy (closing : Char) : List (List Char) → List Char
  | [] => [closing]
  | part :: parts => ',' :: (part ++ closedBy closing parts)

/-- Parts between brackets, with commas between them. Without any part, blanks may stand there. -/
def enclosed (opening closing : Char) (gap : Blanks) : List (List Char) → List Char
  | [] => opening :: (gap.text ++ [closing])
  | part :: parts => opening :: (part ++ closedBy closing parts)

theorem exists_enclosed_eq_cons (opening closing : Char) (gap : Blanks)
    (parts : List (List Char)) : ∃ rest, enclosed opening closing gap parts = opening :: rest := by
  cases parts with
  | nil => exact ⟨_, rfl⟩
  | cons part parts => exact ⟨_, rfl⟩

structure Item where
  before : Blanks := .none
  value : List Char
  after : Blanks := .none

def Item.text (i : Item) : List Char := i.before.text ++ (i.value ++ i.after.text)

/-- The texts of a member. The key is the text between its quotes. -/
structure Entry where
  before : Blanks := .none
  key : Quotable
  beforeColon : Blanks := .none
  afterColon : Blanks := .none
  value : List Char
  after : Blanks := .none

namespace Entry

/-- A member from the text of its key on, before further text. -/
def fromKey (e : Entry) (rest : List Char) : List Char :=
  e.key.closed (e.beforeColon.text ++ ':' :: (e.afterColon.text ++ (e.value ++ rest)))

def text (e : Entry) : List Char := e.before.text ++ '"' :: e.fromKey e.after.text

theorem fromKey_append (e : Entry) (rest more : List Char) :
    e.fromKey rest ++ more = e.fromKey (rest ++ more) := by
  simp [fromKey, Quotable.closed]

end Entry

def listText (gap : Blanks) (items : List Item) : List Char :=
  enclosed '[' ']' gap (items.map Item.text)

def objectText (gap : Blanks) (entries : List Entry) : List Char :=
  enclosed '\x7b' '\x7d' gap (entries.map Entry.text)

inductive IsValue : List Char → Prop
  | null : IsValue ['n', 'u', 'l', 'l']
  | yes : IsValue ['t', 'r', 'u', 'e']
  | no : IsValue ['f', 'a', 'l', 's', 'e']
  | number (n : NumberText) : IsValue n.text
  | string (s : Quotable) : IsValue ('"' :: s.closed [])
  | list (gap : Blanks) (items : List Item) (values : ∀ i ∈ items, IsValue i.value) :
      IsValue (listText gap items)
  | object (gap : Blanks) (entries : List Entry) (values : ∀ e ∈ entries, IsValue e.value) :
      IsValue (objectText gap entries)

/-! ### What follows a value -/

def isDelimiter (c : Char) : Bool := isBlank c || c = ',' || c = ']' || c = '\x7d'

/-- Nothing that could continue a value stands at the front. -/
def Delimited (text : List Char) : Prop := ∀ c ∈ text.head?, isDelimiter c = true

@[simp] theorem delimited_nil : Delimited [] := by simp [Delimited]

@[simp] theorem delimited_cons {c : Char} {rest : List Char} :
    Delimited (c :: rest) ↔ isDelimiter c = true := by
  simp [Delimited]

theorem isDelimiter_iff {c : Char} : isDelimiter c = true ↔
    c ∈ [' ', '\t', '\n', '\r', ',', ']', '\x7d'] := by
  simp [isDelimiter, isBlank, or_assoc]

/-! ### What a value begins with -/

/-- The first character of a value tells what kind of value it is. -/
structure Opening (c : Char) (value : List Char) : Prop where
  notDelimiter : isDelimiter c = false
  null : c = 'n' → value = ['n', 'u', 'l', 'l']
  number : c = '-' ∨ c.isDigit = true → ∃ n : NumberText, value = n.text
  string : c = '"' → ∃ s : Quotable, value = '"' :: s.closed []
  list : c = '[' → ∃ gap items, (∀ i ∈ items, IsValue i.value) ∧ value = listText gap items
  object : c = '\x7b' →
    ∃ gap entries, (∀ e ∈ entries, IsValue e.value) ∧ value = objectText gap entries

theorem ne_of_isDelimiter {c d : Char} (hc : isDelimiter c = false) (hd : isDelimiter d = true) :
    c ≠ d := by
  rintro rfl
  rw [hc] at hd
  contradiction

theorem Opening.notBlank {c : Char} {value : List Char} (h : Opening c value) :
    isBlank c = false := by
  have := h.notDelimiter
  simp only [isDelimiter, Bool.or_eq_false_iff] at this
  exact this.1.1.1

theorem NumberText.opening (n : NumberText) : ∃ c rest, n.text = c :: rest ∧ Opening c n.text := by
  obtain ⟨c, rest, htext, hc⟩ := n.exists_cons
  have hne {d : Char} (hdigit : d.isDigit = false) (hminus : d ≠ '-') : c ≠ d := by
    rcases hc with rfl | hc
    · exact hminus.symm
    · exact ne_of_isDigit hc hdigit
  have hdelimiter : isDelimiter c = false := by
    rcases hc with rfl | hc
    · rfl
    · simp [isDelimiter, isBlank_of_isDigit hc, ne_of_isDigit hc]
  exact ⟨c, rest, htext, hdelimiter, fun h => absurd h (hne rfl (by decide)),
    fun _ => ⟨n, rfl⟩, fun h => absurd h (hne rfl (by decide)),
    fun h => absurd h (hne rfl (by decide)), fun h => absurd h (hne rfl (by decide))⟩

theorem IsValue.opening {value : List Char} (h : IsValue value) :
    ∃ c rest, value = c :: rest ∧ Opening c value := by
  cases h with
  | null => exact ⟨'n', _, rfl, rfl, fun _ => rfl, nofun, nofun, nofun, nofun⟩
  | yes => exact ⟨'t', _, rfl, rfl, nofun, nofun, nofun, nofun, nofun⟩
  | no => exact ⟨'f', _, rfl, rfl, nofun, nofun, nofun, nofun, nofun⟩
  | number n => exact n.opening
  | string s => exact ⟨'"', _, rfl, rfl, nofun, nofun, fun _ => ⟨s, rfl⟩, nofun, nofun⟩
  | list gap items values =>
      obtain ⟨rest, hrest⟩ := exists_enclosed_eq_cons '[' ']' gap (items.map Item.text)
      exact ⟨'[', rest, hrest, rfl, nofun, nofun, nofun, fun _ => ⟨gap, items, values, rfl⟩, nofun⟩
  | object gap entries values =>
      obtain ⟨rest, hrest⟩ := exists_enclosed_eq_cons '\x7b' '\x7d' gap (entries.map Entry.text)
      exact ⟨'\x7b', rest, hrest, rfl, nofun, nofun, nofun, nofun,
        fun _ => ⟨gap, entries, values, rfl⟩⟩

/-! ### Blanks and brackets after a value -/

theorem Delimited.blanks_append (gap : Blanks) {rest : List Char} (h : Delimited rest) :
    Delimited (gap.text ++ rest) := by
  obtain ⟨text, isBlank_of_mem⟩ := gap
  cases text with
  | nil => exact h
  | cons c text =>
      have hc : isBlank c = true := isBlank_of_mem c (by simp)
      simp [isDelimiter, hc]

theorem delimited_closedBy (closing : Char) (h : isDelimiter closing = true)
    (parts : List (List Char)) (rest : List Char) : Delimited (closedBy closing parts ++ rest) := by
  cases parts with
  | nil => simpa [closedBy] using h
  | cons part parts => simp [closedBy, isDelimiter]

/-! ### Skipping blanks -/

@[simp] theorem skipBlanks_append (gap : Blanks) (rest : List Char) :
    skipBlanks (gap.text ++ rest) = skipBlanks rest :=
  List.dropWhile_append_of_pos gap.isBlank_of_mem

theorem skipBlanks_cons {c : Char} (h : isBlank c = false) (rest : List Char) :
    skipBlanks (c :: rest) = c :: rest :=
  List.dropWhile_cons_of_neg (by simp [h])

theorem skipBlanks_closedBy (closing : Char) (h : isBlank closing = false)
    (parts : List (List Char)) (rest : List Char) :
    skipBlanks (closedBy closing parts ++ rest) = closedBy closing parts ++ rest := by
  cases parts with
  | nil => exact skipBlanks_cons h rest
  | cons part parts => exact skipBlanks_cons (by decide) _

end Document

end AccountView
