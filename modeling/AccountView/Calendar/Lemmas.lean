import AccountView.Calendar

namespace AccountView

/-! The calendar is consistent: every day number is that of its date, and the date of every day
number is valid. -/

namespace CivilDate

/-- A year in parts: cycles of 400 years, centuries, spans of four years and years. -/
structure YearParts (cycle century quad year : Int) : Prop where
  century_nonneg : 0 ≤ century
  century_le : century ≤ 3
  quad_nonneg : 0 ≤ quad
  quad_le : quad ≤ 24
  year_nonneg : 0 ≤ year
  year_le : year ≤ 3

theorem YearParts.daysBeforeYear {cycle century quad year : Int}
    (h : YearParts cycle century quad year) :
    daysBeforeYear (400 * cycle + 100 * century + 4 * quad + year) =
      146097 * cycle + 36524 * century + 1461 * quad + 365 * year := by
  obtain ⟨h₁, h₂, h₃, h₄, h₅, h₆⟩ := h
  have quarter : (400 * cycle + 100 * century + 4 * quad + year) / 4 =
      100 * cycle + 25 * century + quad := by omega
  have hundredth : (400 * cycle + 100 * century + 4 * quad + year) / 100 =
      4 * cycle + century := by omega
  have cycles : (400 * cycle + 100 * century + 4 * quad + year) / 400 = cycle := by omega
  rw [CivilDate.daysBeforeYear, quarter, hundredth, cycles]
  omega

theorem daysBeforeYear_succ (year : Int) :
    daysBeforeYear (year + 1) = daysBeforeYear year + (if IsLeap (year + 1) then 366 else 365) := by
  split
  · rename_i h
    obtain ⟨h₁, h₂⟩ := h
    unfold daysBeforeYear
    omega
  · rename_i h
    unfold IsLeap at h
    unfold daysBeforeYear
    omega

theorem YearParts.isLeap_succ {cycle century quad year : Int}
    (h : YearParts cycle century quad year) :
    IsLeap (400 * cycle + 100 * century + 4 * quad + year + 1) ↔
      year = 3 ∧ (quad = 24 → century = 3) := by
  obtain ⟨h₁, h₂, h₃, h₄, h₅, h₆⟩ := h
  unfold IsLeap
  omega

theorem yearOfDay_bounds (day : Int) :
    daysBeforeYear (yearOfDay day) ≤ day ∧ day < daysBeforeYear (yearOfDay day + 1) := by
  unfold yearOfDay
  dsimp only
  have hday : day = 146097 * (day / 146097) + day % 146097 := by omega
  have : day % 146097 < 146097 := by omega
  generalize day / 146097 = cycle at *
  generalize hr : day % 146097 = r at *
  have : r = 36524 * min 3 (r / 36524) + (r - 36524 * min 3 (r / 36524)) := by omega
  have : 0 ≤ r - 36524 * min 3 (r / 36524) ∧ r - 36524 * min 3 (r / 36524) ≤ 36524 := by omega
  have : min 3 (r / 36524) < 3 → r - 36524 * min 3 (r / 36524) < 36524 := by omega
  have : 0 ≤ min 3 (r / 36524) ∧ min 3 (r / 36524) ≤ 3 := by omega
  generalize min 3 (r / 36524) = century at *
  generalize r - 36524 * century = q at *
  have : q = 1461 * (q / 1461) + q % 1461 := by omega
  have : 365 * min 3 (q % 1461 / 365) ≤ q % 1461 ∧
      (q % 1461 < 365 * min 3 (q % 1461 / 365) + 365 ∨
        min 3 (q % 1461 / 365) = 3 ∧ q % 1461 ≤ 1460) := by omega
  have : 0 ≤ min 3 (q % 1461 / 365) ∧ min 3 (q % 1461 / 365) ≤ 3 := by omega
  have : 0 ≤ q / 1461 ∧ q / 1461 ≤ 24 := by omega
  generalize min 3 (q % 1461 / 365) = year at *
  generalize q % 1461 = s at *
  generalize q / 1461 = quad at *
  have parts : YearParts cycle century quad year :=
    ⟨by omega, by omega, by omega, by omega, by omega, by omega⟩
  rw [daysBeforeYear_succ, parts.daysBeforeYear]
  have leap := parts.isLeap_succ
  constructor
  · omega
  · split
    · omega
    · rename_i h
      rw [leap] at h
      omega

theorem dayNumber_ofYearDay {year day : Int} (h₀ : 0 ≤ day) (h : day ≤ 365) :
    dayNumber (ofYearDay year day) = firstMarch + daysBeforeYear year + day := by
  unfold ofYearDay dayNumber daysBeforeMonth
  dsimp only
  by_cases hmonth : (5 * day + 2) / 153 < 10
  · have : ¬ ((5 * day + 2) / 153 + 3).toNat ≤ 2 := by omega
    simp only [hmonth, if_true, this, if_false]
    omega
  · have : ((5 * day + 2) / 153 - 9).toNat ≤ 2 := by omega
    have hyear : year + 1 - 1 = year := by omega
    simp only [hmonth, if_false, this, if_true, hyear]
    omega

theorem dayOfYear_bounds (day : Int) : 0 ≤ day - daysBeforeYear (yearOfDay day) ∧
    day - daysBeforeYear (yearOfDay day) < if IsLeap (yearOfDay day + 1) then 366 else 365 := by
  have h := yearOfDay_bounds day
  rw [daysBeforeYear_succ] at h
  omega

@[simp] theorem dayNumber_ofDayNumber (number : Int) : dayNumber (ofDayNumber number) = number := by
  have h := dayOfYear_bounds (number - firstMarch)
  have : number - firstMarch - daysBeforeYear (yearOfDay (number - firstMarch)) ≤ 365 := by
    split at h <;> omega
  unfold ofDayNumber
  rw [dayNumber_ofYearDay h.1 this]
  omega

theorem valid_ofYearDay {year day : Int} (h₀ : 0 ≤ day)
    (h : day < if IsLeap (year + 1) then 366 else 365) : (ofYearDay year day).Valid := by
  have hle : day ≤ 365 := by split at h <;> omega
  unfold ofYearDay daysBeforeMonth
  dsimp only
  by_cases hmonth : (5 * day + 2) / 153 < 10
  · simp only [hmonth, if_true]
    refine ⟨by dsimp only; omega, by dsimp only; omega, by dsimp only; omega, ?_⟩
    unfold daysInMonth
    dsimp only
    have : ¬ ((5 * day + 2) / 153 + 3).toNat = 2 := by omega
    simp only [this, if_false]
    split <;> omega
  · simp only [hmonth, if_false]
    refine ⟨by dsimp only; omega, by dsimp only; omega, by dsimp only; omega, ?_⟩
    unfold daysInMonth
    dsimp only
    split
    · split at h <;> rename_i hleap <;> simp only [hleap, if_true, if_false] <;> omega
    · split <;> omega

theorem valid_ofDayNumber (number : Int) : (ofDayNumber number).Valid := by
  have h := dayOfYear_bounds (number - firstMarch)
  exact valid_ofYearDay h.1 h.2

end CivilDate

end AccountView
