import AccountView.CommandLine.Basic

namespace AccountView

/-! Reading a command line, one argument at a time. Options before the name of the command and those
after it are two levels, each with settings of its own; the inner one wins. The value of an option
that stands apart from its name is not judged before the next setting, so an argument that is
unknown is reported first. -/

namespace CommandLine

inductive ValueOption where
  | now
  | seconds
  | nanos
  | style
  deriving DecidableEq

inductive Flag where
  | zulu
  | quiet
  | verbose
  | help
  | version
  deriving DecidableEq

/-- The command line as a whole, or the arguments of one command. -/
inductive Level where
  | top
  | format
  | profile
  deriving DecidableEq

inductive OptionKind where
  | flag (f : Flag)
  | valued (o : ValueOption)
  deriving DecidableEq

namespace Level

def long? (level : Level) (name : String) : Option OptionKind :=
  match name, level with
  | "now", _ => some (.valued .now)
  | "zulu", _ => some (.flag .zulu)
  | "quiet", _ => some (.flag .quiet)
  | "verbose", _ => some (.flag .verbose)
  | "help", _ => some (.flag .help)
  | "version", .top => some (.flag .version)
  | "seconds", .format => some (.valued .seconds)
  | "nanos", .format => some (.valued .nanos)
  | "style", .format => some (.valued .style)
  | _, _ => none

def short? (level : Level) (c : Char) : Option Flag :=
  match c, level with
  | 'q', _ => some .quiet
  | 'v', _ => some .verbose
  | 'h', _ => some .help
  | 'V', .top => some .version
  | _, _ => none

end Level

@[ext] structure Given where
  now : Option String := none
  zulu : Bool := false
  quiet : Bool := false
  verbose : Nat := 0
  seconds : Option Int64 := none
  nanos : Option Int32 := none
  style : Option Style := none
  file : Option String := none
  deriving DecidableEq, Inhabited

def int64? (text : String) : Option Int64 := do
  let n ← Decimal.int? text.toList
  if -9223372036854775808 ≤ n ∧ n ≤ 9223372036854775807 then some (Int64.ofInt n) else none

def int32? (text : String) : Option Int32 := do
  let n ← Decimal.int? text.toList
  if -2147483648 ≤ n ∧ n ≤ 2147483647 then some (Int32.ofInt n) else none

def maxVerbose : Nat := 255

namespace Given

/-- A value is set once at a level. -/
def once {α : Type} (old : Option α) (bad : Refusal) (new : Option α) : Except Refusal (Option α) :=
  if old.isSome then .error .conflict
  else
    match new with
    | some x => .ok (some x)
    | none => .error bad

def putValue (given : Given) (text : String) : ValueOption → Except Refusal Given
  | .now => do
    let now ← once given.now .malformedValue (some text)
    pure { given with now }
  | .seconds => do
    let seconds ← once given.seconds .malformedValue (int64? text)
    pure { given with seconds }
  | .nanos => do
    let nanos ← once given.nanos .malformedValue (int32? text)
    pure { given with nanos }
  | .style => do
    let style ← once given.style .missingOrUnknownValue (Style.ofName? text)
    pure { given with style }

def putFlag (given : Given) : Flag → Except Refusal Given
  | .zulu => if given.zulu then .error .conflict else .ok { given with zulu := true }
  | .quiet => if given.quiet then .error .conflict else .ok { given with quiet := true }
  | .verbose => .ok { given with verbose := min (given.verbose + 1) maxVerbose }
  | .help => .error .help
  | .version => .error .version

/-- Quiet and verbose exclude each other at one level. -/
def check (given : Given) : Except Refusal Unit :=
  if given.quiet ∧ 0 < given.verbose then .error .conflict else .ok ()

end Given

/-- An option whose value has not come, or has not been judged. -/
inductive Waiting where
  | nothing
  | forValue (o : ValueOption)
  | toJudge (o : ValueOption) (text : String)
  deriving DecidableEq

structure LevelState where
  given : Given := {}
  waiting : Waiting := .nothing
  /-- After a lone double dash no argument is an option. -/
  noOptions : Bool := false
  deriving DecidableEq, Inhabited

/-- Digits, then perhaps a point and digits, then perhaps an exponent. -/
def isUnsignedNumber (text : List Char) : Bool :=
  let afterWhole := text.dropWhile Char.isDigit
  let afterPoint :=
    match afterWhole with
    | '.' :: rest => rest.dropWhile Char.isDigit
    | rest => rest
  let endsWell :=
    match afterPoint with
    | [] => true
    | c :: digits => (c = 'e' || c = 'E') && digits ≠ [] && digits.all Char.isDigit
  text.head?.any Char.isDigit && endsWell

namespace LevelState

def settle (s : LevelState) : Except Refusal LevelState :=
  match s.waiting with
  | .nothing => .ok s
  | .forValue _ => .error .missingOrUnknownValue
  | .toJudge o text => do
    let given ← s.given.putValue text o
    pure { s with given, waiting := .nothing }

def putFlag (s : LevelState) (f : Flag) : Except Refusal LevelState := do
  let s ← s.settle
  let given ← s.given.putFlag f
  pure { s with given }

/-- A value after an equals sign is judged at once. -/
def putValue (s : LevelState) (o : ValueOption) (text : String) : Except Refusal LevelState := do
  let s ← s.settle
  let given ← s.given.putValue text o
  pure { s with given }

def await (s : LevelState) (o : ValueOption) : Except Refusal LevelState := do
  let s ← s.settle
  pure { s with waiting := .forValue o }

def long (s : LevelState) (level : Level) (text : List Char) : Except Refusal LevelState :=
  let name := String.ofList (text.takeWhile (· ≠ '='))
  let value :=
    match text.dropWhile (· ≠ '=') with
    | [] => none
    | _ :: value => some (String.ofList value)
  match level.long? name, value with
  | none, _ => .error .unknownArgument
  | some (.flag _), some _ => .error .unwantedValue
  | some (.flag f), none => s.putFlag f
  | some (.valued o), some value => s.putValue o value
  | some (.valued o), none => s.await o

def letters (s : LevelState) (level : Level) : List Char → Except Refusal LevelState
  | [] => .ok s
  | c :: rest =>
    match level.short? c with
    | some f => do
      let s ← s.putFlag f
      letters s level rest
    | none => .error .unknownArgument

def commandNames : List String := ["format", "profile", "help"]

/-- An argument that is neither an option nor a value. Only a profile takes one, its file. -/
def positional (s : LevelState) (level : Level) (arg : String) : Except Refusal LevelState :=
  match level with
  | .profile =>
    if s.given.file.isSome then
      .error .unknownArgument
    else do
      let s ← s.settle
      pure { s with given := { s.given with file := some arg } }
  | .format => .error .unknownArgument
  | .top => .error (if s.noOptions && commandNames.contains arg then .unknownArgument
      else .unknownCommand)

/-- A value that stands apart may open with a dash only as a number of seconds. -/
def step (s : LevelState) (level : Level) (arg : String) : Except Refusal LevelState :=
  if s.noOptions then s.positional level arg
  else
    match arg.toList, s.waiting with
    | ['-', '-'], _ => .ok { s with noOptions := true }
    | '-' :: '-' :: text, _ => s.long level text
    | '-' :: c :: text, waiting =>
      if waiting = .forValue .seconds ∧ isUnsignedNumber (c :: text) then
        .ok { s with waiting := .toJudge .seconds arg }
      else
        s.letters level (c :: text)
    | _, .forValue o => .ok { s with waiting := .toJudge o arg }
    | _, _ => s.positional level arg

end LevelState

/-- How far the reading has come: before the command, after its name, or after a call for help,
which may name one command. -/
inductive State where
  | top (s : LevelState)
  | within (level : Level) (outer inner : LevelState)
  | helping (named : Bool)
  deriving DecidableEq

namespace State

def takesCommand (s : LevelState) : Bool :=
  !s.noOptions &&
    match s.waiting with
    | .forValue _ => false
    | _ => true

def step : State → String → Except Refusal State
  | .top s, arg =>
    if takesCommand s ∧ arg = "format" then .ok (.within .format s {})
    else if takesCommand s ∧ arg = "profile" then .ok (.within .profile s {})
    else if takesCommand s ∧ arg = "help" then .ok (.helping false)
    else (s.step .top arg).map .top
  | .within level outer inner, arg => (inner.step level arg).map (.within level outer)
  | .helping named, arg =>
    if !named && LevelState.commandNames.contains arg then .ok (.helping true)
    else .error .unknownCommand

def command (level : Level) (given : Given) : Except Refusal Command :=
  match level, given.seconds, given.file with
  | .format, some seconds, _ =>
    .ok (.format ⟨seconds, given.nanos.getD 0⟩ (given.style.getD .full))
  | .profile, _, some file => .ok (.profile file)
  | _, _, _ => .error .missingArgument

/-- Settings of the inner level win over those of the outer one. -/
def merge (outer inner : Given) : Options where
  now := inner.now.or outer.now
  zulu := inner.zulu || outer.zulu
  quiet := inner.quiet || outer.quiet
  verbose := if inner.verbose = 0 then outer.verbose else inner.verbose

def finish : State → Except Refusal CommandLine
  | .top s => do
    let s ← s.settle
    throw (if s.given = {} then .nothingGiven else .missingCommand)
  | .within level outer inner => do
    let inner ← inner.settle
    inner.given.check
    let command ← command level inner.given
    let outer ← outer.settle
    outer.given.check
    pure ⟨merge outer.given inner.given, command⟩
  | .helping _ => .error .help

end State

def read (args : List String) : Except Refusal CommandLine := do
  let state ← args.foldlM State.step (.top {})
  state.finish

end CommandLine

end AccountView
