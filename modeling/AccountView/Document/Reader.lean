import AccountView.Document.Fault

namespace AccountView

/-! Readers take a value off the front of a text and give back the rest, which is never longer than
the text was. -/

namespace Document

structure Reader (α : Type) where
  run : List Char → Except Fault (α × List Char)
  le : ∀ {text x rest}, run text = .ok (x, rest) → rest.length ≤ text.length

def isBlank (c : Char) : Bool := c = ' ' || c = '\t' || c = '\n' || c = '\r'

def skipBlanks (text : List Char) : List Char := text.dropWhile isBlank

theorem length_skipBlanks_le (text : List Char) : (skipBlanks text).length ≤ text.length :=
  (List.dropWhile_suffix isBlank).length_le

theorem skipBlanks_cons_le {text rest : List Char} {c : Char} (h : skipBlanks text = c :: rest) :
    rest.length < text.length := by
  have := length_skipBlanks_le text
  rw [h] at this
  exact this

namespace Reader

variable {α β : Type}

def map (f : α → β) (r : Reader α) : Reader β where
  run text := (r.run text).map fun (x, rest) => (f x, rest)
  le {text y rest} h := by
    cases hr : r.run text with
    | error e => simp [hr, Except.map] at h
    | ok p =>
      obtain ⟨x, rest'⟩ := p
      simp only [hr, Except.map, Except.ok.injEq, Prod.mk.injEq] at h
      exact h.2 ▸ r.le hr

@[simp] theorem run_map (f : α → β) (r : Reader α) (text : List Char) :
    (r.map f).run text = (r.run text).map fun (x, rest) => (f x, rest) := rfl

def readAll (r : Reader α) (text : List Char) : Except Fault α := do
  let (x, rest) ← r.run text
  if skipBlanks rest = [] then
    pure x
  else
    throw .trailingCharacters

end Reader

/-- The rest of an identifier whose first letter has been taken. -/
def ident : List Char → List Char → Except Fault (List Char)
  | [], text => .ok text
  | _ :: _, [] => .error (.ended .value)
  | c :: word, d :: text => if c = d then ident word text else .error .expectedIdent

theorem ident_le {word text rest : List Char} (h : ident word text = .ok rest) :
    rest.length ≤ text.length := by
  induction word generalizing text with
  | nil =>
    simp only [ident, Except.ok.injEq] at h
    exact h ▸ Nat.le_refl _
  | cons c word ih =>
    cases text with
    | nil => simp [ident] at h
    | cons d text =>
      simp only [ident] at h
      split at h
      · exact Nat.le_succ_of_le (ih h)
      · simp at h

end Document

end AccountView
