import AccountView.LocalTime

namespace AccountView

/-! The standard text of an instant: its local time at an offset with as many fraction digits as it
needs, closed by the offset, which is `Z` for UTC. -/

namespace InstantText

/-- Four digits, or a minus sign and six digits before the year 0. -/
def year (n : Int) : String :=
  if n < 0 then "-" ++ Decimal.padded 6 n.natAbs else Decimal.padded 4 n.natAbs

/-- Fraction digits of a count of nanoseconds, without zeros at the end. -/
def fractionDigits (nanoseconds : Nat) : List Char :=
  (((Nat.toDigits 10 nanoseconds).leftpad 9 '0').reverse.dropWhile (· == '0')).reverse

def fraction (nanoseconds : Nat) : String :=
  match fractionDigits nanoseconds with
  | [] => ""
  | digits => "." ++ String.ofList digits

def dateTime (time : LocalTime) (nanoseconds : Nat) : String :=
  year time.date.year ++ "-" ++ Decimal.padded 2 time.date.month ++ "-" ++
    Decimal.padded 2 time.date.day ++ "T" ++ time.clockText ++ fraction nanoseconds

def offsetText (offset : Offset) : String :=
  let seconds := offset.seconds.natAbs
  (if offset.seconds < 0 then "-" else "+") ++ Decimal.padded 2 (seconds / 3600) ++ ":" ++
    Decimal.padded 2 (seconds / 60 % 60) ++ ":" ++ Decimal.padded 2 (seconds % 60)

end InstantText

def Instant.textAt (t : Instant) (offset : Offset) : String :=
  InstantText.dateTime (t.atOffset offset) t.floorSubsecond.toNat ++ InstantText.offsetText offset

def Instant.text (t : Instant) : String :=
  InstantText.dateTime (t.atOffset .utc) t.floorSubsecond.toNat ++ "Z"

end AccountView
