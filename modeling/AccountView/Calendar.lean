namespace AccountView

/-! The proleptic Gregorian calendar, with a year 0 before the year 1. Days are numbered from the
first of January 1970. `dayNumber` gives the number of a date and `ofDayNumber` the date of a
number; years that begin in March put the leap day at the end of each cycle. -/

structure CivilDate where
  year : Int
  month : Nat
  day : Nat
  deriving DecidableEq, Inhabited

namespace CivilDate

def IsLeap (year : Int) : Prop := year % 4 = 0 ∧ (year % 100 = 0 → year % 400 = 0)

instance (year : Int) : Decidable (IsLeap year) :=
  inferInstanceAs (Decidable (_ ∧ (_ → _)))

def daysInMonth (year : Int) (month : Nat) : Nat :=
  if month = 2 then
    if IsLeap year then 29 else 28
  else if month = 4 ∨ month = 6 ∨ month = 9 ∨ month = 11 then
    30
  else
    31

structure Valid (date : CivilDate) : Prop where
  month_pos : 1 ≤ date.month
  month_le : date.month ≤ 12
  day_pos : 1 ≤ date.day
  day_le : date.day ≤ daysInMonth date.year date.month

theorem valid_iff {date : CivilDate} : Valid date ↔ (1 ≤ date.month ∧ date.month ≤ 12) ∧
    (1 ≤ date.day ∧ date.day ≤ daysInMonth date.year date.month) :=
  ⟨fun h => ⟨⟨h.1, h.2⟩, ⟨h.3, h.4⟩⟩, fun h => ⟨h.1.1, h.1.2, h.2.1, h.2.2⟩⟩

instance (date : CivilDate) : Decidable date.Valid := decidable_of_iff _ valid_iff.symm

/-! A count of days from the first of March in the year 0 splits into a year that begins in March
and a day of that year. -/

/-- The days before a year that begins in March. -/
def daysBeforeYear (year : Int) : Int := 365 * year + year / 4 - year / 100 + year / 400

/-- The year that begins in March and holds a day: full cycles of 400 years, then centuries, then
spans of four years, then years. The last century and the last year of a span may be one day
longer than the others. -/
def yearOfDay (day : Int) : Int :=
  let cycle := day / 146097
  let day := day % 146097
  let century := min 3 (day / 36524)
  let day := day - 36524 * century
  let quad := day / 1461
  let year := min 3 (day % 1461 / 365)
  400 * cycle + 100 * century + 4 * quad + year

/-- The days before a month in a year that begins in March; March is month 0. -/
def daysBeforeMonth (month : Int) : Int := (153 * month + 2) / 5

/-- The number of the first of March in the year 0. -/
def firstMarch : Int := -719468

def dayNumber (date : CivilDate) : Int :=
  let year := if date.month ≤ 2 then date.year - 1 else date.year
  let month : Int := if date.month ≤ 2 then date.month + 9 else date.month - 3
  firstMarch + daysBeforeYear year + daysBeforeMonth month + (date.day - 1)

/-- The date of a day of a year that begins in March; its first day is day 0. -/
def ofYearDay (year day : Int) : CivilDate :=
  let month := (5 * day + 2) / 153
  { year := if month < 10 then year else year + 1
    month := if month < 10 then (month + 3).toNat else (month - 9).toNat
    day := (day - daysBeforeMonth month + 1).toNat }

def ofDayNumber (number : Int) : CivilDate :=
  let year := yearOfDay (number - firstMarch)
  ofYearDay year (number - firstMarch - daysBeforeYear year)

end CivilDate

end AccountView
