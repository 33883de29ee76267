import AccountView.Proofs.Clock.Adjusted
import Mathlib.Order.MinMax
import Mathlib.Algebra.Order.Ring.Int

namespace AccountView

/-! Where a pinned clock lands when it is advanced or turned back. The exact sum is cut off at an
end of all instants, rounded toward 1970 and cut off once more at an end of the readable range, and
all of that comes to one rounding and one bound. -/

namespace Instant

/-- Rounding moves a count by less than a millisecond. -/
theorem tdiv_nanosPerMilli_near (nanos : Int) :
    nanos - nanosPerMilli < nanos.tdiv nanosPerMilli * nanosPerMilli ∧
      nanos.tdiv nanosPerMilli * nanosPerMilli < nanos + nanosPerMilli := by
  rw [tdiv_nanosPerMilli]
  simp only [nanosPerMilli]
  split <;> omega

theorem millis_clamp (nanos : Int) : (clamp nanos).millis =
    max Reading.minMillis (min (nanos.tdiv nanosPerMilli) (Reading.maxMillis + 999)) := by
  have hmin : minNanos.tdiv nanosPerMilli = Reading.minMillis := by decide
  have hmax : maxNanos.tdiv nanosPerMilli = Reading.maxMillis + 999 := by decide
  have hmono : Monotone (Int.tdiv · nanosPerMilli) := by
    intro a b h
    exact Int.tdiv_le_tdiv (by decide) h
  rw [millis, nanos_clamp, ← hmin, ← hmax]
  exact (hmono.map_max).trans (congrArg _ hmono.map_min)

end Instant

namespace Reading

variable {r : Reading}

/-- The ends of all instants lie no nearer than those of the readable range. -/
theorem millis_ofInstant_clamp (nanos : Int) : (ofInstant (.clamp nanos)).millis.toInt =
    max minMillis (min (nanos.tdiv Instant.nanosPerMilli) maxMillis) := by
  rw [millis_ofInstant, Instant.millis_clamp]
  simp only [minMillis, maxMillis]
  omega

theorem millis_advance (h : r.Readable) (nanos : Nat) : (r.advance nanos).millis.toInt =
    min maxMillis ((r.millis.toInt * Instant.nanosPerMilli + nanos).tdiv
      Instant.nanosPerMilli) := by
  have hle : (r.millis.toInt * Instant.nanosPerMilli).tdiv Instant.nanosPerMilli ≤
      (r.millis.toInt * Instant.nanosPerMilli + nanos).tdiv Instant.nanosPerMilli :=
    Int.tdiv_le_tdiv (by decide) (by omega)
  rw [Int.mul_tdiv_cancel _ (by decide)] at hle
  rw [advance, millis_ofInstant_clamp, nanos_now h]
  have hmin := h.minMillis_le
  simp only [minMillis, maxMillis] at hmin ⊢
  omega

theorem millis_decrease (h : r.Readable) (nanos : Nat) : (r.decrease nanos).millis.toInt =
    max minMillis ((r.millis.toInt * Instant.nanosPerMilli - nanos).tdiv
      Instant.nanosPerMilli) := by
  have hle : (r.millis.toInt * Instant.nanosPerMilli - nanos).tdiv Instant.nanosPerMilli ≤
      (r.millis.toInt * Instant.nanosPerMilli).tdiv Instant.nanosPerMilli :=
    Int.tdiv_le_tdiv (by decide) (by omega)
  rw [Int.mul_tdiv_cancel _ (by decide)] at hle
  rw [decrease, millis_ofInstant_clamp, nanos_now h]
  have hmax := h.le_maxMillis
  simp only [minMillis, maxMillis] at hmax ⊢
  omega

end Reading

namespace Clock

/-- The clock shows what is nearest to an exact count of nanoseconds: an instant less than a
millisecond away from it, or the bound that it has passed. -/
structure Lands (dials : Dials) (clock : Clock) (exact : Int) : Prop where
  nanos_now : (clock.now dials).nanos = clock.millis dials * Instant.nanosPerMilli
  near : Reading.minMillis * Instant.nanosPerMilli ≤ exact →
    exact ≤ Reading.maxMillis * Instant.nanosPerMilli →
      exact - Instant.nanosPerMilli < (clock.now dials).nanos ∧
        (clock.now dials).nanos < exact + Instant.nanosPerMilli
  earliest : exact < Reading.minMillis * Instant.nanosPerMilli →
    clock.millis dials = Reading.minMillis
  latest : Reading.maxMillis * Instant.nanosPerMilli < exact →
    clock.millis dials = Reading.maxMillis

theorem lands_of_cell {dials : Dials} {cell : Nat} {exact : Int}
    (h : dials.cell cell = .ofInstant (.clamp exact)) : Lands dials (.pinned cell) exact := by
  have hmillis : (pinned cell).millis dials =
      max Reading.minMillis (min (exact.tdiv Instant.nanosPerMilli) Reading.maxMillis) := by
    rw [millis, h, Reading.millis_ofInstant_clamp]
  have hnow : ((pinned cell).now dials).nanos =
      (pinned cell).millis dials * Instant.nanosPerMilli := by
    rw [now, millis, h]
    exact Reading.nanos_now (Reading.readable_ofInstant _)
  have hnear := Instant.tdiv_nanosPerMilli_near exact
  simp only [Reading.minMillis, Reading.maxMillis, Instant.nanosPerMilli] at hmillis hnow hnear
  constructor
  case nanos_now => exact hnow
  all_goals
    simp only [Reading.minMillis, Reading.maxMillis, Instant.nanosPerMilli]
    omega

variable {dials : Dials} {cell : Nat}

theorem lands_of_adjust (hcell : cell < dials.cells.length) {adjustment : Adjustment}
    {stored exact : Int} (hstored : ((dials.cell cell).adjust adjustment).millis.toInt = stored)
    (hexact : (dials.cell cell).adjust adjustment = .ofInstant (.clamp exact)) :
    ∃ after, (pinned cell).adjust dials adjustment = .ok after ∧
      (pinned cell).millis after = stored ∧ Lands after (.pinned cell) exact := by
  obtain ⟨after, hadjust, _, hreading⟩ := cell_adjust hcell adjustment
  refine ⟨after, hadjust, ?_, lands_of_cell (hreading.trans hexact)⟩
  rw [millis, hreading, hstored]

theorem lands_adjusted (hcell : cell < dials.cells.length) (readable : (dials.cell cell).Readable)
    (nanos : Nat) :
    (∃ after, (pinned cell).adjust dials (.advance nanos) = .ok after ∧
      (pinned cell).millis after = min Reading.maxMillis
        (((pinned cell).millis dials * Instant.nanosPerMilli + nanos).tdiv
          Instant.nanosPerMilli) ∧
      Lands after (.pinned cell) ((pinned cell).millis dials * Instant.nanosPerMilli + nanos)) ∧
    (∃ after, (pinned cell).adjust dials (.decrease nanos) = .ok after ∧
      (pinned cell).millis after = max Reading.minMillis
        (((pinned cell).millis dials * Instant.nanosPerMilli - nanos).tdiv
          Instant.nanosPerMilli) ∧
      Lands after (.pinned cell) ((pinned cell).millis dials * Instant.nanosPerMilli - nanos)) := by
  have hnanos : (dials.cell cell).now.nanos =
      (pinned cell).millis dials * Instant.nanosPerMilli := Reading.nanos_now readable
  constructor
  · have hadvance := Reading.millis_advance readable nanos
    refine lands_of_adjust hcell hadvance ?_
    rw [Reading.adjust, Reading.advance, hnanos]
  · have hdecrease := Reading.millis_decrease readable nanos
    refine lands_of_adjust hcell hdecrease ?_
    rw [Reading.adjust, Reading.decrease, hnanos]

/-- An advance by the longest duration ends at the bound, and what is turned back past 1970 is
rounded toward it. -/
theorem lands_adjusted_epoch :
    let dials : Dials := ⟨default, [⟨1⟩]⟩
    (∃ after, (pinned 0).adjust dials (.advance 18446744073709551615999999999) = .ok after ∧
      (pinned 0).millis after = 253402207200000) ∧
    (∃ after, (pinned 0).adjust dials (.decrease 2999999) = .ok after ∧
      (pinned 0).millis after = -1 ∧ ((pinned 0).now after).nanos = -1000000) := by
  intro dials
  have hcell : 0 < dials.cells.length := by decide
  have hreadable : (dials.cell 0).Readable := by decide
  obtain ⟨after, hadvance, hlatest, _⟩ :=
    (lands_adjusted hcell hreadable 18446744073709551615999999999).1
  obtain ⟨before, hdecrease, hmillis, hlands⟩ := (lands_adjusted hcell hreadable 2999999).2
  have hminus : (pinned 0).millis before = -1 := by
    rw [hmillis]
    decide
  refine ⟨⟨after, hadvance, ?_⟩, before, hdecrease, hminus, ?_⟩
  · rw [hlatest]
    decide
  · rw [hlands.nanos_now, hminus]
    decide

end Clock

end AccountView
