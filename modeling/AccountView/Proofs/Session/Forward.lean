import AccountView.Proofs.Clock.Forward
import AccountView.Proofs.Session
import AccountView.Proofs.Stamp.Passing

namespace AccountView

/-! Runs that nowhere take a pinned clock back. Whatever such a run asks later is answered for an
instant that is not earlier, and the answers about every stamp are in order. -/

namespace Session

def now (session : Session) : Instant := session.view.now session.dials

def Step.Forward (now : Instant) : Step → Prop
  | .adjust adjustment => now.Forward adjustment
  | _ => True

/-- Each step of the run is judged by what the clock shows when the step is taken. -/
def Forward (session : Session) : List Step → Prop
  | [] => True
  | step :: steps => step.Forward (session.handle.now session.dials) ∧
      Forward (session.step step).2 steps

/-- The viewpoint shares the pinned clock that adjustments go through, and what the clock shows
needs no more rounding. -/
structure Shared (session : Session) : Prop where
  exists_cell : ∃ cell, session.handle = .pinned cell ∧ cell < session.dials.cells.length
  clock : session.view.clock = session.handle
  shown : session.now.shown = session.now

theorem shared_pinned (dials : Dials) (t : Instant) (zone : Zone) (account : Account) :
    (pinned dials t zone account).Shared where
  exists_cell := by
    refine ⟨dials.cells.length, rfl, ?_⟩
    simp [pinned, Dials.start]
  clock := rfl
  shown := by
    have hnow : (pinned dials t zone account).now = t.shown :=
      now_after_pinned dials t zone account []
    rw [hnow]
    exact t.shown_shown

theorem Shared.step_adjust {session : Session} (h : session.Shared) (adjustment : Adjustment) :
    (session.step (.adjust adjustment)).2.Shared ∧
      (session.step (.adjust adjustment)).2.now = session.now.adjusted adjustment := by
  obtain ⟨⟨cell, hhandle, hcell⟩, hclock, hshown⟩ := h
  obtain ⟨dials, hadjust, hlength, hreading⟩ := Clock.cell_adjust hcell adjustment
  have hstep : (session.step (.adjust adjustment)).2 = { session with dials } := by
    rw [Session.step_adjust, hhandle, hadjust]
    rfl
  have hview : session.view.clock = .pinned cell := hclock.trans hhandle
  have hnow : (session.step (.adjust adjustment)).2.now = session.now.adjusted adjustment := by
    rw [hstep, now, now, Viewpoint.now, Viewpoint.now, hview, Clock.now, Clock.now, hreading,
      Reading.now_adjust]
  refine ⟨⟨?_, ?_, ?_⟩, hnow⟩
  · rw [hstep]
    exact ⟨cell, hhandle, hlength⟩
  · rw [hstep]
    exact hclock
  · rw [hnow]
    exact session.now.shown_adjusted adjustment

theorem Shared.step {session : Session} (h : session.Shared) (step : Step) :
    (session.step step).2.Shared := by
  cases step with
  | adjust adjustment => exact (h.step_adjust adjustment).1
  | ask query => exact h
  | askProfile => exact h
  | load contents =>
      obtain ⟨account, hload⟩ := session.step_load contents
      rw [hload]
      exact ⟨h.exists_cell, h.clock, h.shown⟩

theorem Shared.after {session : Session} (h : session.Shared) (steps : List Step) :
    (session.after steps).Shared := by
  induction steps generalizing session with
  | nil => exact h
  | cons step steps ih => exact ih (h.step step)

theorem Shared.le_now_step {session : Session} (h : session.Shared) {step : Step}
    (forward : step.Forward (session.handle.now session.dials)) :
    session.now ≤ (session.step step).2.now := by
  cases step with
  | adjust adjustment =>
      rw [← h.clock] at forward
      rw [(h.step_adjust adjustment).2]
      exact Instant.le_adjusted h.shown forward
  | ask query => exact Int.le_refl _
  | askProfile => exact Int.le_refl _
  | load contents =>
      obtain ⟨account, hload⟩ := session.step_load contents
      rw [hload]
      exact Int.le_refl _

theorem Shared.le_now_after {session : Session} (h : session.Shared) {steps : List Step}
    (forward : session.Forward steps) : session.now ≤ (session.after steps).now := by
  -- `Shared` carries the induction: each step is judged by the clock of the session it is taken in.
  induction steps generalizing session with
  | nil => exact Int.le_refl _
  | cons step steps ih =>
      obtain ⟨hstep, hsteps⟩ := forward
      exact Int.le_trans (h.le_now_step hstep) (ih (h.step step) hsteps)

/-! ### What is shown in such runs -/

/-- The answers at two moments, as they follow one another. The words for an age pass through
`Age.texts`, and once they are the date they stay. -/
structure Precedes (earlier later : Session) : Prop where
  now : earlier.now ≤ later.now
  isExpired : ∀ stamp, earlier.view.isExpired earlier.dials stamp = true →
    later.view.isExpired later.dials stamp = true
  remaining : ∀ stamp,
    later.view.remaining later.dials stamp ≤ earlier.view.remaining earlier.dials stamp
  relative : ∀ w t, WireTime.toInstant w = .ok t →
    Age.Successive (earlier.view.date (some w)) (earlier.view.relative earlier.dials (some w))
      (later.view.relative later.dials (some w))
  date : ∀ w t, WireTime.toInstant w = .ok t →
    earlier.view.relative earlier.dials (some w) = earlier.view.date (some w) →
      later.view.relative later.dials (some w) = earlier.view.date (some w)

theorem precedes_of_le {earlier later : Session} (hzone : later.view.zone = earlier.view.zone)
    (h : earlier.now ≤ later.now) : earlier.Precedes later := by
  have hsuccessive (w : WireTime) (t : Instant) (readable : w.toInstant = .ok t) :
      Age.Successive (earlier.view.date (some w)) (earlier.view.relative earlier.dials (some w))
        (later.view.relative later.dials (some w)) := by
    rw [Viewpoint.relative, Viewpoint.relative, hzone]
    exact Stamp.successive_relative readable _ h
  constructor
  case now => exact h
  case isExpired => exact fun stamp => stamp.isExpired_mono h
  case remaining => exact fun stamp => stamp.remaining_anti h
  case relative => exact hsuccessive
  case date =>
    intro w t readable hdate
    have hlater := hsuccessive w t readable
    rw [hdate] at hlater
    exact hlater.eq_date

theorem view_after (session : Session) (steps : List Step) :
    (session.after steps).view = session.view := by
  obtain ⟨account, hafter⟩ := session.after_eq steps
  rw [hafter]

/-- On a clock pinned at any instant, and from any moment of any run on, answers follow one another
as long as the steps go forward. -/
theorem precedes_of_forward {dials : Dials} {t : Instant} {zone : Zone} {account : Account}
    {before steps : List Step}
    (forward : ((pinned dials t zone account).after before).Forward steps) :
    ((pinned dials t zone account).after before).Precedes
      (((pinned dials t zone account).after before).after steps) := by
  have hshared := (shared_pinned dials t zone account).after before
  apply precedes_of_le
  · rw [view_after]
  · exact hshared.le_now_after forward

/-- Half a second before 1970 the clock rounds to the later millisecond, and goes on from there. -/
theorem precedes_of_forward_epoch :
    let session := pinned ⟨default, []⟩ ⟨-500000001, by decide, by decide⟩ .utc {}
    let steps : List Step := [.adjust (.advance 60000000000), .ask .now, .adjust (.set .latest)]
    session.Forward steps ∧ session.Precedes (session.after steps) ∧
      session.view.relative session.dials (some ⟨0, 0⟩) = "刚刚" ∧
      (session.after steps).view.relative (session.after steps).dials (some ⟨0, 0⟩) =
        "1970-01-01" := by
  intro session steps
  have hforward : session.Forward steps := ⟨trivial, trivial, Instant.le_maxNanos _, trivial⟩
  refine ⟨hforward, ?_, ?_, ?_⟩
  · have hbefore : (session.after []).Forward steps := hforward
    exact precedes_of_forward hbefore
  · decide
  · decide

end Session

end AccountView
