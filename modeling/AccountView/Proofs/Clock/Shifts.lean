import AccountView.Proofs.Clock.Exact
import AccountView.Proofs.Clock.Landing
import Mathlib.Algebra.BigOperators.Group.List.Basic

namespace AccountView

/-! Steps of whole milliseconds. No rounding is left in them, so they add up: steps one way always
do, and steps both ways as long as none of them is cut off at an end of the readable range. -/

/-- A step of whole milliseconds, forward or back. -/
inductive Shift where
  | forward (millis : Nat)
  | back (millis : Nat)

namespace Shift

def amount : Shift → Int
  | forward millis => millis
  | back millis => -millis

def adjustment : Shift → Adjustment
  | forward millis => .advance (millis * 1000000)
  | back millis => .decrease (millis * 1000000)

@[simp] theorem amount_forward (millis : Nat) : (forward millis).amount = millis := rfl

@[simp] theorem amount_back (millis : Nat) : (back millis).amount = -millis := rfl

end Shift

namespace Reading

variable {r s : Reading}

def shift (r : Reading) (step : Shift) : Reading := r.adjust step.adjustment

theorem eq_of_millis (h : r.millis.toInt = s.millis.toInt) : r = s := by
  cases r
  cases s
  exact congrArg mk (Int64.toInt_inj.mp h)

theorem readable_shift (r : Reading) (step : Shift) : (r.shift step).Readable :=
  r.readable_adjust step.adjustment

/-- A step is cut off at the ends of the readable range and nowhere else. -/
theorem millis_shift (h : r.Readable) (step : Shift) : (r.shift step).millis.toInt =
    max minMillis (min (r.millis.toInt + step.amount) maxMillis) := by
  have hmin := h.minMillis_le
  have hmax := h.le_maxMillis
  simp only [minMillis, maxMillis] at hmin hmax ⊢
  cases step with
  | forward millis =>
      have hsum : r.millis.toInt * Instant.nanosPerMilli + (millis * 1000000 : Nat) =
          (r.millis.toInt + millis) * Instant.nanosPerMilli := by
        simp only [Instant.nanosPerMilli]
        omega
      have hadvance := millis_advance h (millis * 1000000)
      rw [hsum, Int.mul_tdiv_cancel _ (by decide), maxMillis] at hadvance
      rw [shift, Shift.adjustment, adjust, hadvance, Shift.amount_forward]
      omega
  | back millis =>
      have hsum : r.millis.toInt * Instant.nanosPerMilli - (millis * 1000000 : Nat) =
          (r.millis.toInt - millis) * Instant.nanosPerMilli := by
        simp only [Instant.nanosPerMilli]
        omega
      have hdecrease := millis_decrease h (millis * 1000000)
      rw [hsum, Int.mul_tdiv_cancel _ (by decide), minMillis] at hdecrease
      rw [shift, Shift.adjustment, adjust, hdecrease, Shift.amount_back]
      omega

theorem forward_forward (h : r.Readable) (a b : Nat) :
    (r.shift (.forward a)).shift (.forward b) = r.shift (.forward (a + b)) := by
  have hmin := h.minMillis_le
  apply eq_of_millis
  rw [millis_shift (readable_shift _ _), millis_shift h, millis_shift h]
  simp only [Shift.amount_forward, minMillis, maxMillis] at hmin ⊢
  omega

theorem back_back (h : r.Readable) (a b : Nat) :
    (r.shift (.back a)).shift (.back b) = r.shift (.back (a + b)) := by
  have hmax := h.le_maxMillis
  apply eq_of_millis
  rw [millis_shift (readable_shift _ _), millis_shift h, millis_shift h]
  simp only [Shift.amount_back, minMillis, maxMillis] at hmax ⊢
  omega

/-! ### Steps both ways -/

/-- No step is cut off: each is judged by the reading that it is taken from. -/
def Unsaturated (r : Reading) : List Shift → Prop
  | [] => True
  | step :: steps =>
    (minMillis ≤ r.millis.toInt + step.amount ∧ r.millis.toInt + step.amount ≤ maxMillis) ∧
      (r.shift step).Unsaturated steps

theorem millis_shift_of_le (h : r.Readable) {step : Shift}
    (hmin : minMillis ≤ r.millis.toInt + step.amount)
    (hmax : r.millis.toInt + step.amount ≤ maxMillis) :
    (r.shift step).millis.toInt = r.millis.toInt + step.amount := by
  rw [millis_shift h]
  omega

theorem readable_foldl_shift (h : r.Readable) (steps : List Shift) :
    (steps.foldl shift r).Readable := by
  induction steps generalizing r with
  | nil => exact h
  | cons step steps ih => exact ih (readable_shift r step)

theorem millis_foldl_shift (h : r.Readable) {steps : List Shift} (hsteps : r.Unsaturated steps) :
    (steps.foldl shift r).millis.toInt = r.millis.toInt + (steps.map Shift.amount).sum := by
  induction steps generalizing r with
  | nil => simp
  | cons step steps ih =>
      obtain ⟨⟨hmin, hmax⟩, hrest⟩ := hsteps
      rw [List.foldl_cons, ih (readable_shift r step) hrest,
        millis_shift_of_le h hmin hmax, List.map_cons, List.sum_cons, Int.add_assoc]

theorem foldl_shift_perm (h : r.Readable) {steps others : List Shift} (hperm : steps.Perm others)
    (hsteps : r.Unsaturated steps) (hothers : r.Unsaturated others) :
    steps.foldl shift r = others.foldl shift r := by
  apply eq_of_millis
  rw [millis_foldl_shift h hsteps, millis_foldl_shift h hothers,
    (hperm.map Shift.amount).sum_eq]

theorem forward_back (h : r.Readable) {millis : Nat} (hstep : r.Unsaturated [.forward millis]) :
    (r.shift (.forward millis)).shift (.back millis) = r := by
  obtain ⟨⟨hmin, hmax⟩, _⟩ := hstep
  have hforward := millis_shift_of_le h hmin hmax
  have hback : (r.shift (.forward millis)).millis.toInt + (Shift.back millis).amount =
      r.millis.toInt := by
    rw [hforward, Shift.amount_forward, Shift.amount_back]
    omega
  apply eq_of_millis
  rw [millis_shift_of_le (readable_shift _ _) (hback ▸ h.minMillis_le)
    (hback ▸ h.le_maxMillis), hback]

end Reading

namespace Clock

/-- Steps of whole milliseconds on one clock, in order. -/
def shift (clock : Clock) (dials : Dials) (steps : List Shift) : Except ClockError Dials :=
  steps.foldlM (fun dials step => clock.adjust dials step.adjustment) dials

variable {dials : Dials} {cell : Nat}

/-- No step fails, and all of them reach the cell of the clock and nothing else. -/
theorem shift_pinned (hcell : cell < dials.cells.length) (steps : List Shift) :
    (pinned cell).shift dials steps =
      .ok { dials with
        cells := dials.cells.set cell (steps.foldl Reading.shift (dials.cell cell)) } := by
  induction steps generalizing dials with
  | nil =>
      rw [List.foldl_nil, Dials.set_cell]
      rfl
  | cons step steps ih =>
      let next : Dials :=
        { dials with cells := dials.cells.set cell ((dials.cell cell).shift step) }
      have hlength : cell < next.cells.length := by simpa [next] using hcell
      have hnext : next.cell cell = (dials.cell cell).shift step := by
        simp [next, Dials.cell, hcell]
      have hstep : (pinned cell).shift dials (step :: steps) = (pinned cell).shift next steps :=
        rfl
      rw [hstep, ih hlength, hnext, List.foldl_cons]
      simp [next]

theorem cell_shift (hcell : cell < dials.cells.length) (steps : List Shift) :
    ∃ after, (pinned cell).shift dials steps = .ok after ∧
      after.cell cell = steps.foldl Reading.shift (dials.cell cell) := by
  refine ⟨_, shift_pinned hcell steps, ?_⟩
  simp [Dials.cell, hcell]

/-- Steps that come to the same reading leave all clocks the same. -/
theorem shift_congr (hcell : cell < dials.cells.length) {steps others : List Shift}
    (h : steps.foldl Reading.shift (dials.cell cell) =
      others.foldl Reading.shift (dials.cell cell)) :
    ∃ after, (pinned cell).shift dials steps = .ok after ∧
      (pinned cell).shift dials others = .ok after := by
  refine ⟨_, shift_pinned hcell steps, ?_⟩
  rw [shift_pinned hcell others, h]

/-- What steps of whole milliseconds come to on a pinned clock. -/
structure AddsUp (dials : Dials) (cell : Nat) : Prop where
  forward : ∀ a b, ∃ after, (pinned cell).shift dials [.forward a, .forward b] = .ok after ∧
    (pinned cell).shift dials [.forward (a + b)] = .ok after
  back : ∀ a b, ∃ after, (pinned cell).shift dials [.back a, .back b] = .ok after ∧
    (pinned cell).shift dials [.back (a + b)] = .ok after
  sum : ∀ steps, (dials.cell cell).Unsaturated steps →
    ∃ after, (pinned cell).shift dials steps = .ok after ∧
      (pinned cell).millis after =
        (pinned cell).millis dials + (steps.map Shift.amount).sum ∧
      ((pinned cell).now after).nanos =
        ((pinned cell).now dials).nanos + (steps.map Shift.amount).sum * Instant.nanosPerMilli
  reordered : ∀ steps others, steps.Perm others → (dials.cell cell).Unsaturated steps →
    (dials.cell cell).Unsaturated others →
      ∃ after, (pinned cell).shift dials steps = .ok after ∧
        (pinned cell).shift dials others = .ok after
  restored : ∀ millis, (dials.cell cell).Unsaturated [.forward millis] →
    (pinned cell).shift dials [.forward millis, .back millis] = .ok dials

theorem addsUp (hcell : cell < dials.cells.length) (readable : (dials.cell cell).Readable) :
    AddsUp dials cell := by
  constructor
  case forward => exact fun a b => shift_congr hcell (Reading.forward_forward readable a b)
  case back => exact fun a b => shift_congr hcell (Reading.back_back readable a b)
  case sum =>
    intro steps hsteps
    obtain ⟨after, hshift, hreading⟩ := cell_shift hcell steps
    have hmillis := Reading.millis_foldl_shift readable hsteps
    have hnow := Reading.nanos_now (Reading.readable_foldl_shift readable steps)
    refine ⟨after, hshift, ?_, ?_⟩
    · rw [millis, hreading, hmillis, millis]
    · rw [now, hreading, hnow, hmillis, now, Reading.nanos_now readable, Int.add_mul]
  case reordered =>
    exact fun steps others hperm hsteps hothers =>
      shift_congr hcell (Reading.foldl_shift_perm readable hperm hsteps hothers)
  case restored =>
    intro millis hstep
    rw [shift_pinned hcell, List.foldl_cons, List.foldl_cons, List.foldl_nil,
      Reading.forward_back readable hstep, Dials.set_cell]

/-- Across 1970 and back in either order; and two steps that end past the range. -/
theorem addsUp_epoch :
    let dials : Dials := ⟨default, [⟨-2⟩]⟩
    (∃ after, (pinned 0).shift dials [.forward 5, .back 9] = .ok after ∧
      (pinned 0).shift dials [.back 9, .forward 5] = .ok after) ∧
    (∃ after, (pinned 0).shift dials [.forward 5, .back 9] = .ok after ∧
      (pinned 0).millis after = -6) ∧
    (∃ after, (pinned 0).shift dials [.forward 253402207200001, .forward 7] = .ok after ∧
      (pinned 0).shift dials [.forward 253402207200008] = .ok after) := by
  intro dials
  have hcell : 0 < dials.cells.length := by decide
  have hreadable : (dials.cell 0).Readable := by decide
  have hsteps : (dials.cell 0).Unsaturated [.forward 5, .back 9] := by
    refine ⟨?_, ?_, trivial⟩ <;> decide
  have hothers : (dials.cell 0).Unsaturated [.back 9, .forward 5] := by
    refine ⟨?_, ?_, trivial⟩ <;> decide
  have haddsUp := addsUp hcell hreadable
  obtain ⟨after, hshift, hmillis, _⟩ := haddsUp.sum _ hsteps
  refine ⟨haddsUp.reordered _ _ (.swap _ _ _) hsteps hothers, ⟨after, hshift, ?_⟩,
    haddsUp.forward _ _⟩
  rw [hmillis]
  decide

end Clock

end AccountView
