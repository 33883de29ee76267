import AccountView.Calendar.Lemmas

namespace AccountView

/-! Day numbers are a count of days, month by month and year by year, and dates are in the order of
their years, months and days. -/

namespace CivilDate

/-- The days of the first months of a year. -/
def daysOfMonths (year : Int) : Nat → Nat
  | 0 => 0
  | months + 1 => daysOfMonths year months + daysInMonth year (months + 1)

/-- The days of a run of years. -/
def daysOfYears (first : Int) : Nat → Nat
  | 0 => 0
  | years + 1 => daysOfYears first years + daysOfMonths (first + years) 12

/-- The days from the first of January 1970 to a date, counted one year and one month after the
other. One of the two runs of years is empty. -/
def counted (date : CivilDate) : Int :=
  daysOfYears 1970 (date.year - 1970).toNat - daysOfYears date.year (1970 - date.year).toNat +
    daysOfMonths date.year (date.month - 1) + (date.day - 1)

def yearStart (year : Int) : Int := dayNumber ⟨year, 1, 1⟩

theorem daysOfMonths_twelve (year : Int) :
    daysOfMonths year 12 = if IsLeap year then 366 else 365 := by
  by_cases h : IsLeap year <;> simp [daysOfMonths, daysInMonth, h]

theorem yearStart_eq (year : Int) : yearStart year = firstMarch + daysBeforeYear (year - 1) + 306 := by
  have hmonth : daysBeforeMonth 10 = 306 := rfl
  simp [yearStart, dayNumber, hmonth]

theorem daysBeforeYear_pred (year : Int) :
    daysBeforeYear year = daysBeforeYear (year - 1) + (if IsLeap year then 366 else 365) := by
  have hsucc := daysBeforeYear_succ (year - 1)
  rwa [Int.sub_add_cancel] at hsucc

theorem yearStart_succ (year : Int) :
    yearStart (year + 1) = yearStart year + daysOfMonths year 12 := by
  have hyear := daysBeforeYear_pred year
  rw [yearStart_eq, yearStart_eq, daysOfMonths_twelve, Int.add_sub_cancel]
  by_cases h : IsLeap year
  · simp only [h, if_true] at hyear ⊢
    omega
  · simp only [h, if_false] at hyear ⊢
    omega

theorem yearStart_add (year : Int) (years : Nat) :
    yearStart (year + years) = yearStart year + daysOfYears year years := by
  induction years with
  | zero => simp [daysOfYears]
  | succ years ih =>
      have hsucc := yearStart_succ (year + years)
      rw [Int.natCast_succ, ← Int.add_assoc, hsucc, ih, daysOfYears]
      omega

theorem monthStart_succ (year : Int) {month : Nat} (hpos : 1 ≤ month) (hle : month ≤ 11) :
    dayNumber ⟨year, month + 1, 1⟩ = dayNumber ⟨year, month, 1⟩ + daysInMonth year month := by
  have hyear := daysBeforeYear_pred year
  by_cases hfebruary : month = 2
  · -- The year that begins in March changes here, and with it the leap day is counted.
    subst hfebruary
    by_cases hleap : IsLeap year
    · simp [dayNumber, daysBeforeMonth, daysInMonth, hleap] at hyear ⊢
      omega
    · simp [dayNumber, daysBeforeMonth, daysInMonth, hleap] at hyear ⊢
      omega
  · have hmonth : month = 1 ∨ month = 3 ∨ month = 4 ∨ month = 5 ∨ month = 6 ∨ month = 7 ∨
        month = 8 ∨ month = 9 ∨ month = 10 ∨ month = 11 := by omega
    rcases hmonth with rfl | rfl | rfl | rfl | rfl | rfl | rfl | rfl | rfl | rfl <;>
      simp [dayNumber, daysBeforeMonth, daysInMonth] <;> omega

theorem monthStart (year : Int) {months : Nat} (h : months ≤ 11) :
    dayNumber ⟨year, months + 1, 1⟩ = yearStart year + daysOfMonths year months := by
  induction months with
  | zero => simp [yearStart, daysOfMonths]
  | succ months ih =>
      rw [monthStart_succ year (by omega) h, ih (by omega), daysOfMonths]
      omega

theorem yearStart_epoch : yearStart 1970 = 0 := by decide

theorem yearStart_eq_counted (year : Int) : yearStart year =
    daysOfYears 1970 (year - 1970).toNat - daysOfYears year (1970 - year).toNat := by
  have hepoch := yearStart_epoch
  by_cases h : 1970 ≤ year
  · have hadd := yearStart_add 1970 (year - 1970).toNat
    have hyear : (1970 : Int) + (year - 1970).toNat = year := by omega
    have hnone : (1970 - year).toNat = 0 := by omega
    rw [hyear, hepoch] at hadd
    rw [hadd, hnone, daysOfYears]
    omega
  · have hadd := yearStart_add year (1970 - year).toNat
    have hyear : year + ((1970 - year).toNat : Int) = 1970 := by omega
    have hnone : (year - 1970).toNat = 0 := by omega
    rw [hyear, hepoch] at hadd
    rw [hnone, daysOfYears]
    omega

theorem dayNumber_eq_monthStart (date : CivilDate) :
    date.dayNumber = dayNumber ⟨date.year, date.month, 1⟩ + (date.day - 1) := by
  simp only [dayNumber]
  omega

theorem dayNumber_eq_counted {date : CivilDate} (h : date.Valid) : date.dayNumber = date.counted := by
  have hpos := h.month_pos
  have hle := h.month_le
  have hmonth : dayNumber ⟨date.year, date.month - 1 + 1, 1⟩ =
      yearStart date.year + daysOfMonths date.year (date.month - 1) :=
    monthStart date.year (by omega)
  rw [Nat.sub_add_cancel hpos] at hmonth
  rw [dayNumber_eq_monthStart, hmonth, counted, yearStart_eq_counted]

/-! ### Years -/

theorem yearStart_mono {year other : Int} (h : year ≤ other) : yearStart year ≤ yearStart other := by
  rw [yearStart_eq, yearStart_eq]
  unfold daysBeforeYear
  omega

theorem daysInMonth_le (year : Int) (month : Nat) : daysInMonth year month ≤ 31 := by
  unfold daysInMonth
  split
  · split <;> omega
  · split <;> omega

/-- A date lies in its year. -/
theorem dayNumber_bounds {date : CivilDate} (h : date.Valid) :
    yearStart date.year ≤ date.dayNumber ∧ date.dayNumber < yearStart (date.year + 1) := by
  obtain ⟨year, month, day⟩ := date
  obtain ⟨hpos, hle, hday, hlast⟩ := h
  have hlength : day ≤ 31 := Nat.le_trans hlast (daysInMonth_le year month)
  have hyear := daysBeforeYear_pred year
  rw [yearStart_eq, yearStart_eq, Int.add_sub_cancel]
  unfold dayNumber daysBeforeMonth
  dsimp only at *
  by_cases hmonth : month ≤ 2
  · simp only [hmonth, if_true]
    split at hyear <;> omega
  · simp only [hmonth, if_false]
    split at hyear <;> omega

/-! ### The order of dates -/

variable {date other : CivilDate}

theorem dayNumber_lt_of_year_lt (h : date.Valid) (h' : other.Valid) (hlt : date.year < other.year) :
    date.dayNumber < other.dayNumber := by
  have hdate := (dayNumber_bounds h).2
  have hother := (dayNumber_bounds h').1
  have hyears := yearStart_mono (show date.year + 1 ≤ other.year from hlt)
  omega

theorem monthStart_mono (year : Int) {month later : Nat} (hpos : 1 ≤ month) (hle : month ≤ later)
    (hlater : later ≤ 12) : dayNumber ⟨year, month, 1⟩ ≤ dayNumber ⟨year, later, 1⟩ := by
  induction hle with
  | refl => exact Int.le_refl _
  | @step later hle ih =>
      have hsucc := monthStart_succ year (Nat.le_trans hpos hle) (by omega)
      have hearlier := ih (by omega)
      rw [Nat.succ_eq_add_one, hsucc]
      omega

theorem dayNumber_lt_of_month_lt (h : date.Valid) (h' : other.Valid)
    (hyear : date.year = other.year) (hlt : date.month < other.month) :
    date.dayNumber < other.dayNumber := by
  have hday := h.day_le
  have hother := h'.month_le
  have hfirst := h'.day_pos
  have hsucc := monthStart_succ date.year h.month_pos (by omega)
  have hmonths := monthStart_mono date.year (show 1 ≤ date.month + 1 by omega) hlt h'.month_le
  rw [dayNumber_eq_monthStart date, dayNumber_eq_monthStart other, ← hyear]
  omega

/-- Days are numbered in the order of years, then of months, then of days. -/
theorem dayNumber_lt_iff (h : date.Valid) (h' : other.Valid) :
    date.dayNumber < other.dayNumber ↔ date.year < other.year ∨ date.year = other.year ∧
      (date.month < other.month ∨ date.month = other.month ∧ date.day < other.day) := by
  rcases Int.lt_trichotomy date.year other.year with hyear | hyear | hyear
  · have := dayNumber_lt_of_year_lt h h' hyear
    omega
  · rcases Nat.lt_trichotomy date.month other.month with hmonth | hmonth | hmonth
    · have := dayNumber_lt_of_month_lt h h' hyear hmonth
      omega
    · have hdate := dayNumber_eq_monthStart date
      have hother := dayNumber_eq_monthStart other
      rw [hyear, hmonth] at hdate
      omega
    · have := dayNumber_lt_of_month_lt h' h hyear.symm hmonth
      omega
  · have := dayNumber_lt_of_year_lt h' h hyear
    omega

end CivilDate

end AccountView
