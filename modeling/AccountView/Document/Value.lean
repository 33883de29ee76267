import AccountView.Document.Literal
import AccountView.Document.Numeral

namespace AccountView

/-! Readers of single values: integers of a range, strings, and values that may be null. A value of
another kind is read as far as it takes to name it. -/

namespace Document

/-- The fault for a value that is not of the kind expected. -/
def mismatch (expected : String) (text : List Char) : Fault :=
  match text with
  | [] => .expectedValue
  | c :: rest =>
    if c = 'n' then found .null (ident ['u', 'l', 'l'] rest)
    else if c = 't' then found (.boolean true) (ident ['r', 'u', 'e'] rest)
    else if c = 'f' then found (.boolean false) (ident ['a', 'l', 's', 'e'] rest)
    else if c = '-' ∨ c.isDigit then
      match Numeral.read text with
      | .ok (.integer n, _) => .invalidType (.integer n) expected
      | .ok (.floating x, _) => .invalidType (.floating x) expected
      | .error e => e
    else if c = '"' then
      match Literal.body [] rest with
      | .ok (s, _) => .invalidType (.string s) expected
      | .error e => e
    else if c = '[' then .invalidType .sequence expected
    else if c = '\x7b' then .invalidType .map expected
    else .expectedValue
where
  found (value : Found) : Except Fault (List Char) → Fault
    | .ok _ => .invalidType value expected
    | .error e => e

structure IntegerKind where
  name : String
  min : Int
  max : Int

def int64Kind : IntegerKind :=
  ⟨"i64", -9223372036854775808, 9223372036854775807⟩

def int32Kind : IntegerKind := ⟨"i32", -2147483648, 2147483647⟩

namespace IntegerKind

def check (kind : IntegerKind) : Numeral → Except Fault Int
  | .integer n =>
    if kind.min ≤ n ∧ n ≤ kind.max then .ok n else .error (.invalidInteger n kind.name)
  | .floating x => .error (.invalidType (.floating x) kind.name)

def read (kind : IntegerKind) (text : List Char) : Except Fault (Int × List Char) :=
  match skipBlanks text with
  | [] => .error (.ended .value)
  | c :: rest =>
    if c = '-' ∨ c.isDigit then do
      let (numeral, rest) ← Numeral.read (c :: rest)
      let n ← kind.check numeral
      pure (n, rest)
    else
      .error (mismatch kind.name (c :: rest))

theorem read_le {kind : IntegerKind} {text rest : List Char} {n : Int}
    (h : kind.read text = .ok (n, rest)) : rest.length ≤ text.length := by
  have hblank := length_skipBlanks_le text
  unfold read at h
  split at h
  · simp at h
  rename_i c tail heq
  split at h
  · simp only [bind, Except.bind, pure, Except.pure] at h
    split at h
    · simp at h
    rename_i numeral hnumeral
    split at h
    · simp at h
    simp only [Except.ok.injEq, Prod.mk.injEq] at h
    have := Numeral.read_le hnumeral
    rw [← h.2]
    rw [heq] at hblank
    omega
  · simp at h

end IntegerKind

def integer (kind : IntegerKind) : Reader Int := ⟨kind.read, IntegerKind.read_le⟩

def int64 : Reader Int64 := (integer int64Kind).map Int64.ofInt

def int32 : Reader Int32 := (integer int32Kind).map Int32.ofInt

def readString (text : List Char) : Except Fault (List Char × List Char) :=
  match skipBlanks text with
  | [] => .error (.ended .value)
  | c :: rest =>
    if c = '"' then Literal.body [] rest else .error (mismatch "a string" (c :: rest))

theorem readString_le {text s rest : List Char} (h : readString text = .ok (s, rest)) :
    rest.length ≤ text.length := by
  unfold readString at h
  split at h
  · simp at h
  rename_i c tail heq
  split at h
  · exact Nat.le_of_lt (Nat.lt_of_le_of_lt (Literal.body_le h) (skipBlanks_cons_le heq))
  · simp at h

def string : Reader String := Reader.map String.ofList ⟨readString, readString_le⟩

/-- Null, or a value. A text that opens like null must be null. -/
def readNullable {α : Type} (r : Reader α) (text : List Char) :
    Except Fault (Option α × List Char) :=
  match skipBlanks text with
  | 'n' :: rest => (ident ['u', 'l', 'l'] rest).map fun rest => (none, rest)
  | text => (r.run text).map fun (x, rest) => (some x, rest)

theorem readNullable_le {α : Type} {r : Reader α} {text rest : List Char} {x : Option α}
    (h : readNullable r text = .ok (x, rest)) : rest.length ≤ text.length := by
  have hblank := length_skipBlanks_le text
  unfold readNullable at h
  split at h
  · rename_i tail heq
    cases hident : ident ['u', 'l', 'l'] tail with
    | error e => simp [hident, Except.map] at h
    | ok rest' =>
      simp only [hident, Except.map, Except.ok.injEq, Prod.mk.injEq] at h
      have := ident_le hident
      have := skipBlanks_cons_le heq
      rw [← h.2]
      omega
  · cases hrun : r.run (skipBlanks text) with
    | error e => simp [hrun, Except.map] at h
    | ok p =>
      simp only [hrun, Except.map, Except.ok.injEq, Prod.mk.injEq] at h
      have := r.le hrun
      rw [← h.2]
      omega

def nullable {α : Type} (r : Reader α) : Reader (Option α) := ⟨readNullable r, readNullable_le⟩

end Document

end AccountView
