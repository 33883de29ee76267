import AccountView.Document.Literal

namespace AccountView

/-! Skipping a value whose content is not wanted: an automaton over characters with a stack of the
lists and objects that are open. It checks the form of the value to any depth, but no number for its
size and no escape for being half of a pair. -/

namespace Document

inductive Frame where
  | list
  | object
  deriving DecidableEq

/-- What has been read of the value at hand, or what must come next. -/
inductive Phase where
  | value
  | ident (left : List Char)
  | minus
  | zero
  | whole
  | point
  | fraction
  | exponent
  | exponentSign
  | exponentDigits
  | string (isKey : Bool)
  | escape (isKey : Bool)
  | hex (isKey : Bool) (bytes : Nat) (good : Bool)
  | after
  | firstElement
  | firstKey
  | nextKey
  | colon
  deriving DecidableEq

namespace Skipper

abbrev Step := Except Fault (Phase × List Frame)

def isExponentMark (c : Char) : Bool := c = 'e' || c = 'E'

/-- Whether a value is complete before a character. -/
def endsBefore (c : Char) : Phase → Bool
  | .after => true
  | .zero | .whole => !(c.isDigit || c = '.' || isExponentMark c)
  | .fraction => !(c.isDigit || isExponentMark c)
  | .exponentDigits => !c.isDigit
  | _ => false

def start (stack : List Frame) (c : Char) : Step :=
  if isBlank c then .ok (.value, stack)
  else if c = 'n' then .ok (.ident ['u', 'l', 'l'], stack)
  else if c = 't' then .ok (.ident ['r', 'u', 'e'], stack)
  else if c = 'f' then .ok (.ident ['a', 'l', 's', 'e'], stack)
  else if c = '-' then .ok (.minus, stack)
  else if c = '0' then .ok (.zero, stack)
  else if c.isDigit then .ok (.whole, stack)
  else if c = '"' then .ok (.string false, stack)
  else if c = '[' then .ok (.firstElement, .list :: stack)
  else if c = '\x7b' then .ok (.firstKey, .object :: stack)
  else .error .expectedValue

def keyStart (stack : List Frame) (phase : Phase) (c : Char) : Step :=
  if isBlank c then .ok (phase, stack)
  else if c = '"' then .ok (.string true, stack)
  else .error .keyNotString

def follow (stack : List Frame) (c : Char) : Frame → Step
  | .list =>
    if isBlank c then .ok (.after, .list :: stack)
    else if c = ',' then .ok (.value, .list :: stack)
    else if c = ']' then .ok (.after, stack)
    else .error .expectedListCommaOrEnd
  | .object =>
    if isBlank c then .ok (.after, .object :: stack)
    else if c = ',' then .ok (.nextKey, .object :: stack)
    else if c = '\x7d' then .ok (.after, stack)
    else .error .expectedObjectCommaOrEnd

def needDigit (stack : List Frame) (phase : Phase) (c : Char) : Step :=
  if c.isDigit then .ok (phase, stack) else .error .invalidNumber

def wholeStep (stack : List Frame) (c : Char) : Step :=
  if c = '.' then .ok (.point, stack)
  else if isExponentMark c then .ok (.exponent, stack)
  else needDigit stack .whole c

def identStep (stack : List Frame) (c : Char) : List Char → Step
  | d :: left =>
    if c = d then
      .ok (if left = [] then .after else .ident left, stack)
    else
      .error .expectedIdent
  | [] => .error .expectedIdent

def stringStep (stack : List Frame) (isKey : Bool) (c : Char) : Step :=
  if c = '"' then .ok (if isKey then .colon else .after, stack)
  else if c = '\\' then .ok (.escape isKey, stack)
  else if Literal.isControl c then .error .controlCharacter
  else .ok (.string isKey, stack)

def escapeStep (stack : List Frame) (isKey : Bool) (c : Char) : Step :=
  if c = 'u' then .ok (.hex isKey 0 true, stack)
  else if (Literal.shortEscape? c).isSome then .ok (.string isKey, stack)
  else .error .invalidEscape

/-- Four bytes are taken before their digits are judged. -/
def hexStep (stack : List Frame) (isKey : Bool) (bytes : Nat) (good : Bool) (c : Char) : Step :=
  let bytes := bytes + c.utf8Size
  let good := good && (Literal.hexValue? c).isSome
  if bytes < 4 then .ok (.hex isKey bytes good, stack)
  else if good then .ok (.string isKey, stack)
  else .error .invalidEscape

def next (stack : List Frame) (c : Char) : Phase → Step
  | .value => start stack c
  | .ident left => identStep stack c left
  | .minus => if c = '0' then .ok (.zero, stack) else needDigit stack .whole c
  | .zero => if c.isDigit then .error .invalidNumber else wholeStep stack c
  | .whole => wholeStep stack c
  | .point => needDigit stack .fraction c
  | .fraction =>
    if isExponentMark c then .ok (.exponent, stack) else needDigit stack .fraction c
  | .exponent =>
    if c = '+' ∨ c = '-' then .ok (.exponentSign, stack) else needDigit stack .exponentDigits c
  | .exponentSign | .exponentDigits => needDigit stack .exponentDigits c
  | .string isKey => stringStep stack isKey c
  | .escape isKey => escapeStep stack isKey c
  | .hex isKey bytes good => hexStep stack isKey bytes good c
  | .firstElement =>
    if isBlank c then .ok (.firstElement, stack)
    else if c = ']' then .ok (.after, stack.tail)
    else start stack c
  | .firstKey =>
    if c = '\x7d' then .ok (.after, stack.tail) else keyStart stack .firstKey c
  | .nextKey => keyStart stack .nextKey c
  | .colon =>
    if isBlank c then .ok (.colon, stack)
    else if c = ':' then .ok (.value, stack)
    else .error .expectedColon
  | .after => .ok (.after, stack)

/-- What the end of the text means. Only a complete value that nothing encloses may end there. -/
def atEnd (stack : List Frame) : Phase → Except Fault Unit
  | .value | .ident _ => .error (.ended .value)
  | .minus | .point | .exponent | .exponentSign => .error .invalidNumber
  | .string _ | .escape _ | .hex .. => .error (.ended .string)
  | .firstElement => .error (.ended .list)
  | .firstKey | .nextKey | .colon => .error (.ended .object)
  | .after | .zero | .whole | .fraction | .exponentDigits =>
    match stack with
    | [] => .ok ()
    | .list :: _ => .error (.ended .list)
    | .object :: _ => .error (.ended .object)

/-- Runs to the end of the value that nothing encloses. -/
def run (phase : Phase) (stack : List Frame) : List Char → Except Fault (List Char)
  | [] => (atEnd stack phase).map fun _ => []
  | c :: rest =>
    if endsBefore c phase then
      match stack with
      | [] => .ok (c :: rest)
      | frame :: frames =>
        match follow frames c frame with
        | .ok (phase, stack) => run phase stack rest
        | .error e => .error e
    else
      match next stack c phase with
      | .ok (phase, stack) => run phase stack rest
      | .error e => .error e

theorem run_le {phase : Phase} {stack : List Frame} {text rest : List Char}
    (h : run phase stack text = .ok rest) : rest.length ≤ text.length := by
  fun_induction run phase stack text with
  | case1 phase stack =>
    cases hend : atEnd stack phase with
    | error e => simp [hend, Except.map] at h
    | ok _ =>
      simp only [hend, Except.map, Except.ok.injEq] at h
      simp [← h]
  | case2 =>
    simp only [Except.ok.injEq] at h
    exact h ▸ Nat.le_refl _
  | case3 _ c rest' _ _ _ _ _ _ ih => exact Nat.le_succ_of_le (ih h)
  | case4 => simp at h
  | case5 _ _ c rest' _ _ _ _ ih => exact Nat.le_succ_of_le (ih h)
  | case6 => simp at h

end Skipper

/-- Takes a value of any kind and tells nothing about it. -/
def skip : Reader Unit where
  run text := (Skipper.run .value [] text).map fun rest => ((), rest)
  le {text x rest} h := by
    cases hrun : Skipper.run .value [] text with
    | error e => simp [hrun, Except.map] at h
    | ok rest' =>
      simp only [hrun, Except.map, Except.ok.injEq, Prod.mk.injEq] at h
      exact h.2 ▸ Skipper.run_le hrun

end Document

end AccountView
