import AccountView.Clock.Handles
import AccountView.InstantText.Reader
import AccountView.Log
import AccountView.Stamp

namespace AccountView

/-! What a command line asks for, and why one is refused. -/

namespace CommandLine

@[ext] structure Options where
  now : Option String := none
  zulu : Bool := false
  quiet : Bool := false
  verbose : Nat := 0
  deriving DecidableEq, Inhabited

inductive Command where
  | format (time : WireTime) (style : Style)
  | profile (file : String)
  deriving DecidableEq

inductive Refusal where
  | help
  | version
  | nothingGiven
  | missingCommand
  | unknownCommand
  | missingArgument
  | unknownArgument
  | missingOrUnknownValue
  | malformedValue
  | conflict
  | unwantedValue
  deriving DecidableEq

namespace Refusal

def kind : Refusal → String
  | help => "DisplayHelp"
  | version => "DisplayVersion"
  | nothingGiven => "DisplayHelpOnMissingArgumentOrSubcommand"
  | missingCommand => "MissingSubcommand"
  | unknownCommand => "InvalidSubcommand"
  | missingArgument => "MissingRequiredArgument"
  | unknownArgument => "UnknownArgument"
  | missingOrUnknownValue => "InvalidValue"
  | malformedValue => "ValueValidation"
  | conflict => "ArgumentConflict"
  | unwantedValue => "TooManyValues"

/-- Asking for help or for the version is no failure. -/
def exitCode : Refusal → Nat
  | help | version => 0
  | _ => 2

end Refusal

namespace Options

/-- The source of the present time: the wall clock, or the instant given, if it is one. -/
def clockSource? (options : Options) : Option ClockSource :=
  match options.now with
  | none => some .wall
  | some text => (Instant.ofText? text).map .pinnedAt

/-- Quiet wins over verbose. -/
def threshold (options : Options) : Log.Level :=
  if options.quiet then .error
  else
    match options.verbose with
    | 0 => .info
    | 1 => .debug
    | _ => .trace

end Options

end CommandLine

structure CommandLine where
  options : CommandLine.Options
  command : CommandLine.Command
  deriving DecidableEq

end AccountView
