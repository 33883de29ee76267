import AccountView.Account
import AccountView.WireTime

namespace AccountView

/-! The log of a run: entries with a level, of which those up to a threshold are kept. -/

namespace Log

inductive Level where
  | error
  | warn
  | info
  | debug
  | trace
  deriving DecidableEq

def Level.name : Level → String
  | error => "ERROR"
  | warn => "WARN"
  | info => "INFO"
  | debug => "DEBUG"
  | trace => "TRACE"

def Level.rank : Level → Nat
  | error => 0
  | warn => 1
  | info => 2
  | debug => 3
  | trace => 4

structure Entry where
  level : Level
  message : String
  deriving DecidableEq

/-- A control character that could move the cursor of a terminal, as text. -/
def plainChar (c : Char) : List Char :=
  if c = '\x1b' then ['\\', 'x', '1', 'b']
  else if c = '\x07' then ['\\', 'x', '0', '7']
  else if c = '\x08' then ['\\', 'x', '0', '8']
  else if c = '\x0c' then ['\\', 'x', '0', 'c']
  else if c = '\x7f' then ['\\', 'x', '7', 'f']
  else if 0x80 ≤ c.toNat ∧ c.toNat ≤ 0x9f then
    ['\\', 'u', '\x7b'] ++ Nat.toDigits 16 c.toNat ++ ['\x7d']
  else [c]

def entry (level : Level) (message : String) : Entry :=
  ⟨level, String.ofList (message.toList.flatMap plainChar)⟩

def upTo (threshold : Level) (entries : List Entry) : List Entry :=
  entries.filter fun e => e.level.rank ≤ threshold.rank

def unreadable (stamp : Stamp) : List Entry :=
  match stamp.map WireTime.toInstant with
  | some (.error e) => [entry .warn ("treating unreadable timestamp as absent: " ++ e.message)]
  | _ => []

/-- The warnings for the stamps that a profile reads. An unreadable expiry is read for its text and
again for its status. -/
def profileWarnings (account : Account) : List Entry :=
  [account.createdAt, account.updatedAt, account.passwordExpiresAt,
    account.passwordExpiresAt].flatMap unreadable

def loaded (account : Account) (path : String) : Entry :=
  entry .debug ("loaded user '" ++ account.username ++ "' (id " ++ toString account.id.toInt ++
    ") from " ++ path)

end Log

end AccountView
