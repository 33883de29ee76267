import AccountView.Calendar.Lemmas
import AccountView.Decimal
import AccountView.Zone

namespace AccountView

/-! Local times: what the calendar and the clock on a wall show at an instant, to the second, and
how they are written. -/

structure LocalTime where
  date : CivilDate
  hour : Nat
  minute : Nat
  second : Nat
  deriving DecidableEq, Inhabited

namespace LocalTime

structure Valid (time : LocalTime) : Prop where
  date : time.date.Valid
  hour : time.hour < 24
  minute : time.minute < 60
  second : time.second < 60

def secondsPerDay : Int := 86400

/-- Seconds from the start of 1970 on the same wall. -/
def toSeconds (time : LocalTime) : Int :=
  time.date.dayNumber * secondsPerDay + time.hour * 3600 + time.minute * 60 + time.second

def ofSeconds (seconds : Int) : LocalTime :=
  let ofDay := (seconds % secondsPerDay).toNat
  { date := .ofDayNumber (seconds / secondsPerDay)
    hour := ofDay / 3600
    minute := ofDay / 60 % 60
    second := ofDay % 60 }

theorem valid_ofSeconds (seconds : Int) : (ofSeconds seconds).Valid := by
  refine ⟨CivilDate.valid_ofDayNumber _, ?_, ?_, ?_⟩ <;>
    simp only [ofSeconds, secondsPerDay] <;> omega

@[simp] theorem toSeconds_ofSeconds (seconds : Int) : (ofSeconds seconds).toSeconds = seconds := by
  simp only [toSeconds, ofSeconds, CivilDate.dayNumber_ofDayNumber, secondsPerDay]
  omega

/-- A year takes four characters, of which a minus sign is one. -/
def dateText (time : LocalTime) : String :=
  Decimal.signPadded 4 time.date.year ++ "-" ++ Decimal.padded 2 time.date.month ++ "-" ++
    Decimal.padded 2 time.date.day

def clockText (time : LocalTime) : String :=
  Decimal.padded 2 time.hour ++ ":" ++ Decimal.padded 2 time.minute ++ ":" ++
    Decimal.padded 2 time.second

def fullText (time : LocalTime) : String :=
  time.dateText ++ " " ++ time.clockText

end LocalTime

namespace Instant

/-- The local time of an instant; a fraction of a second is dropped toward the past. -/
def atOffset (t : Instant) (offset : Offset) : LocalTime :=
  .ofSeconds (t.floorSecond + offset.seconds)

theorem valid_atOffset (t : Instant) (offset : Offset) : (t.atOffset offset).Valid :=
  LocalTime.valid_ofSeconds _

@[simp] theorem toSeconds_atOffset (t : Instant) (offset : Offset) :
    (t.atOffset offset).toSeconds = t.floorSecond + offset.seconds :=
  LocalTime.toSeconds_ofSeconds _

/-- The offset is the one that the zone has at the instant itself, not at the present one. -/
def inZone (t : Instant) (zone : Zone) : LocalTime :=
  t.atOffset (zone.offsetAt t)

end Instant

end AccountView
