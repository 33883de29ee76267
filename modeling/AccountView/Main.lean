import AccountView.Program
import Std.Time.Zoned

namespace AccountView.Main

/-! The program as it is run: arguments, wall clock, zone of the system and the one file that a
command names go in, and the outcome is printed. -/

def usage : String :=
  "Usage: userdesk [--now RFC3339] [--zulu] [-q | -v...] COMMAND\n\n" ++
    "  format --seconds N [--nanos N] [--style full|date|relative|expiry|remaining]\n" ++
    "  profile FILE\n"

/-- Some calls give the number of an error negated. -/
def systemError : IO.Error → SystemError
  | .interrupted _ code text | .noFileOrDirectory _ code text | .alreadyExists _ code text
  | .invalidArgument _ code text | .permissionDenied _ code text | .resourceExhausted _ code text
  | .inappropriateType _ code text | .noSuchThing _ code text | .otherError code text
  | .resourceBusy code text | .resourceVanished code text | .unsupportedOperation code text
  | .hardwareFault code text | .unsatisfiedConstraints code text | .illegalOperation code text
  | .protocolError code text | .timeExpired code text =>
    .ofCode code.toInt32.toInt.natAbs text
  | .unexpectedEof => ⟨0, "unexpected end of file"⟩
  | .userError text => ⟨0, text⟩

def readFile (path : String) : IO (Except ReadFailure ByteArray) := do
  match ← EIO.toBaseIO (IO.FS.readBinFile path) with
  | .ok bytes => pure (.ok bytes)
  | .error e => pure (.error (.system (systemError e)))

/-- A storage that holds what the file of the command line, if it names one, holds now. -/
def storage (args : List String) : IO Storage := do
  match CommandLine.read args with
  | .ok ⟨_, .profile path⟩ =>
    let contents ← readFile path
    pure fun _ => contents
  | _ => pure fun _ => .error (.system .notFound)

def present : IO Instant := do
  let now ← Std.Time.Timestamp.now
  pure (.clamp now.toNanosecondsSinceUnixEpoch.val)

/-- An offset that is none of ours is taken for that of UTC. -/
def offsetUnder (rules : Std.Time.TimeZone.ZoneRules) (t : Instant) : Offset :=
  let timestamp := Std.Time.Timestamp.ofNanosecondsSinceUnixEpoch (.ofInt t.nanos)
  (Offset.ofSeconds? (rules.timezoneAt timestamp).offset.second.val).getD .utc

/-- The zone of the system by its rules, and UTC where they are not known. -/
def systemZone : IO Zone := do
  try
    let rules ← Std.Time.Database.defaultGetLocalZoneRules
    pure ⟨offsetUnder rules⟩
  catch _ => pure .utc

def printRefusal (refusal : CommandLine.Refusal) : IO Unit :=
  match refusal with
  | .version => pure ()
  | .help => IO.print usage
  | _ => IO.eprint ("error: " ++ refusal.kind ++ "\n\n" ++ usage)

end AccountView.Main

open AccountView in
def main (args : List String) : IO UInt32 := do
  let outcome := Program.run (← Main.present) (← Main.systemZone) (← Main.storage args) args
  if let .error refusal := CommandLine.read args then
    Main.printRefusal refusal
  for entry in outcome.log do
    IO.eprintln (entry.level.name ++ " " ++ entry.message)
  IO.print outcome.stdout
  pure outcome.exitCode.toUInt32
