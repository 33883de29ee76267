import AccountView.Clock.Handles

namespace AccountView

/-! What a pinned clock shows, followed from instant to instant. Its reading is looked at only
through the instant it shows. -/

namespace Instant

/-- The instant that a clock shows once it is pinned. -/
def shown (t : Instant) : Instant := (Reading.ofInstant t).now

theorem nanos_shown (t : Instant) :
    t.shown.nanos = max Reading.minMillis (min t.millis Reading.maxMillis) * nanosPerMilli := by
  rw [shown, Reading.nanos_now (Reading.readable_ofInstant t), Reading.millis_ofInstant]

/-- The instant that a pinned clock shows after an adjustment. -/
def adjusted (now : Instant) : Adjustment → Instant
  | .set t => t.shown
  | .advance nanos => (clamp (now.nanos + nanos)).shown
  | .decrease nanos => (clamp (now.nanos - nanos)).shown

end Instant

/-- What a readable clock shows pins the same reading again. -/
theorem Reading.shown_now {r : Reading} (h : r.Readable) : r.now.shown = r.now := by
  rw [Instant.shown, ofInstant_now h]

theorem Reading.now_adjust (r : Reading) (adjustment : Adjustment) :
    (r.adjust adjustment).now = r.now.adjusted adjustment := by
  cases adjustment with
  | set t => rfl
  | advance nanos => rfl
  | decrease nanos => rfl

namespace Clock

/-- Adjustments through one handle, in order. One that fails changes nothing. -/
def adjustAll (clock : Clock) (dials : Dials) (adjustments : List Adjustment) : Dials :=
  adjustments.foldl (fun dials adjustment =>
    (clock.adjust dials adjustment).toOption.getD dials) dials

variable {dials : Dials} {cell : Nat}

theorem cell_adjust (h : cell < dials.cells.length) (adjustment : Adjustment) :
    ∃ dials', (pinned cell).adjust dials adjustment = .ok dials' ∧
      cell < dials'.cells.length ∧ dials'.cell cell = (dials.cell cell).adjust adjustment := by
  refine ⟨_, rfl, ?_, ?_⟩
  · simpa using h
  · simp [Dials.cell, h]

theorem now_of_adjust (h : cell < dials.cells.length) (adjustment : Adjustment) :
    ∃ dials', (pinned cell).adjust dials adjustment = .ok dials' ∧
      (pinned cell).now dials' = ((dials.cell cell).adjust adjustment).now := by
  obtain ⟨dials', hadjust, _, hreading⟩ := cell_adjust h adjustment
  refine ⟨dials', hadjust, ?_⟩
  rw [now, hreading]

theorem now_adjustAll (h : cell < dials.cells.length) (adjustments : List Adjustment) :
    (pinned cell).now ((pinned cell).adjustAll dials adjustments) =
      adjustments.foldl Instant.adjusted ((pinned cell).now dials) := by
  induction adjustments generalizing dials with
  | nil => rfl
  | cons adjustment adjustments ih =>
      obtain ⟨dials', hadjust, hcell, hreading⟩ := cell_adjust h adjustment
      have hnow : (pinned cell).now dials' = ((pinned cell).now dials).adjusted adjustment := by
        rw [now, hreading, Reading.now_adjust]
        rfl
      rw [adjustAll, List.foldl_cons, hadjust, List.foldl_cons, ← hnow]
      exact ih hcell

end Clock

end AccountView
