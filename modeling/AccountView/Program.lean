import AccountView.CommandLine.Reader
import AccountView.Log
import AccountView.Profile
import AccountView.Storage

namespace AccountView

/-! A run of the program: from the arguments, the storage of documents, the wall clock and the zone
of the system to the exit code, the text printed and the log. -/

structure Outcome where
  exitCode : Nat
  stdout : String := ""
  log : List Log.Entry := []
  deriving DecidableEq

namespace Program

def versionText : String := "userdesk-client 0.1.0\n"

def badNowText : String := "invalid --now value"

def failureCode : Nat := 255

def failure (message : String) : Outcome where
  exitCode := failureCode
  log := [Log.entry .error message]

def execute (view : Viewpoint) (dials : Dials) (storage : Storage) :
    CommandLine.Command → Outcome
  | .format time style =>
    { exitCode := 0
      stdout := view.render dials time style ++ "\n"
      log := Log.unreadable (some time) }
  | .profile file =>
    match Account.load storage file with
    | .ok account =>
      { exitCode := 0
        stdout := (view.profile dials account).text
        log := Log.loaded account file :: Log.profileWarnings account }
    | .error e => failure e.message

/-- The viewpoint that options ask for, and what its clock shows. -/
def viewpoint? (wall : Instant) (zone : Zone) (options : CommandLine.Options) :
    Option (Viewpoint × Dials) :=
  options.clockSource?.map fun source =>
    let (clock, dials) := Dials.start ⟨wall, []⟩ source
    (⟨clock, if options.zulu then .utc else zone⟩, dials)

/-- A present time that cannot be read is refused before any document is opened. -/
def runCommandLine (wall : Instant) (zone : Zone) (storage : Storage) (line : CommandLine) :
    Outcome :=
  match viewpoint? wall zone line.options with
  | some (view, dials) => execute view dials storage line.command
  | none => failure badNowText

def refused (refusal : CommandLine.Refusal) : Outcome where
  exitCode := refusal.exitCode
  stdout := if refusal = .version then versionText else ""

def run (wall : Instant) (zone : Zone) (storage : Storage) (args : List String) : Outcome :=
  match CommandLine.read args with
  | .error refusal => refused refusal
  | .ok line =>
    let outcome := runCommandLine wall zone storage line
    { outcome with log := Log.upTo line.options.threshold outcome.log }

end Program

end AccountView
