import AccountView.Proofs.Clock.Adjusted
import AccountView.Session

namespace AccountView

/-! Sessions on a pinned clock. What is shown at any moment follows from the adjustments made so
far, and questions leave no trace. -/

namespace Session

/-- A session on a new pinned clock, in a world of other clocks. -/
def pinned (dials : Dials) (t : Instant) (zone : Zone) (account : Account) : Session :=
  let (clock, dials) := dials.start (.pinnedAt t)
  { dials, handle := clock, view := ⟨clock, zone⟩, account }

example (wall t : Instant) (zone : Zone) :
    start wall (.pinnedAt t) zone = pinned ⟨wall, []⟩ t zone {} := rfl

def Step.adjustment? : Step → Option Adjustment
  | .adjust adjustment => some adjustment
  | _ => none

def adjustments (steps : List Step) : List Adjustment := steps.filterMap Step.adjustment?

def after (session : Session) (steps : List Step) : Session :=
  steps.foldl (fun session step => (session.step step).2) session

theorem after_cons (session : Session) (step : Step) (steps : List Step) :
    session.after (step :: steps) = (session.step step).2.after steps := rfl

/-! ### Runs -/

theorem run_append (session : Session) (steps others : List Step) :
    session.run (steps ++ others) = session.run steps ++ (session.after steps).run others := by
  induction steps generalizing session with
  | nil => rfl
  | cons step steps ih =>
      simp only [List.cons_append, run, ih]
      rfl

theorem length_run (session : Session) (steps : List Step) :
    (session.run steps).length = steps.length := by
  induction steps generalizing session with
  | nil => rfl
  | cons step steps ih => exact congrArg Nat.succ (ih _)

theorem run_asks (session : Session) (queries : List Query) :
    session.run (queries.map .ask) =
      queries.map fun query => .answered (query.answer session.view session.dials) := by
  induction queries with
  | nil => rfl
  | cons query queries ih => exact congrArg (_ :: ·) ih

theorem after_asks (session : Session) (queries : List Query) :
    session.after (queries.map .ask) = session := by
  induction queries with
  | nil => rfl
  | cons query queries ih => exact ih

theorem step_adjust (session : Session) (adjustment : Adjustment) :
    (session.step (.adjust adjustment)).2 = { session with
      dials := (session.handle.adjust session.dials adjustment).toOption.getD session.dials } := by
  simp only [step]
  cases session.handle.adjust session.dials adjustment <;> rfl

theorem step_load (session : Session) (contents : ByteArray) :
    ∃ account, (session.step (.load contents)).2 = { session with account } := by
  simp only [step]
  cases Account.ofBytes contents with
  | error e => exact ⟨session.account, rfl⟩
  | ok account => exact ⟨account, rfl⟩

/-- Only adjustments reach the dials, and nothing moves the handle or the viewpoint. -/
theorem after_eq (session : Session) (steps : List Step) :
    ∃ account, session.after steps = { session with
      dials := session.handle.adjustAll session.dials (adjustments steps), account } := by
  induction steps generalizing session with
  | nil => exact ⟨session.account, rfl⟩
  | cons step steps ih =>
      cases step with
      | adjust adjustment =>
          obtain ⟨account, hafter⟩ := ih (session.step (.adjust adjustment)).2
          refine ⟨account, ?_⟩
          rw [after_cons, hafter, step_adjust]
          rfl
      | ask query => exact ih session
      | askProfile => exact ih session
      | load contents =>
          obtain ⟨loaded, hload⟩ := session.step_load contents
          obtain ⟨account, hafter⟩ := ih (session.step (.load contents)).2
          refine ⟨account, ?_⟩
          rw [after_cons, hafter, hload]
          rfl

theorem Query.answer_eq (view : Viewpoint) (dials : Dials) (query : Query) :
    query.answer view dials = query.answerAt (view.now dials) view.zone := by
  cases query <;> rfl

/-! ### Sessions on a pinned clock -/

theorem now_after_pinned (dials : Dials) (t : Instant) (zone : Zone) (account : Account)
    (steps : List Step) :
    ((pinned dials t zone account).after steps).view.now
        ((pinned dials t zone account).after steps).dials =
      (adjustments steps).foldl Instant.adjusted t.shown := by
  obtain ⟨loaded, hafter⟩ := (pinned dials t zone account).after_eq steps
  have hcell : dials.cells.length < (dials.cells ++ [Reading.ofInstant t]).length := by simp
  have hnow : (Clock.pinned dials.cells.length).now
      { dials with cells := dials.cells ++ [Reading.ofInstant t] } = t.shown := by
    simp [Clock.now, Dials.cell, Instant.shown]
  rw [hafter, ← hnow]
  exact Clock.now_adjustAll hcell (adjustments steps)

theorem answer_after_pinned (dials : Dials) (t : Instant) (zone : Zone) (account : Account)
    (steps : List Step) (query : Query) :
    query.answer ((pinned dials t zone account).after steps).view
        ((pinned dials t zone account).after steps).dials =
      query.answerAt ((adjustments steps).foldl Instant.adjusted t.shown) zone := by
  have hzone : ((pinned dials t zone account).after steps).view.zone = zone := by
    obtain ⟨loaded, hafter⟩ := (pinned dials t zone account).after_eq steps
    rw [hafter]
    rfl
  rw [Query.answer_eq, now_after_pinned, hzone]

/-- A session whose clock was pinned at `t` depends on nothing but the adjustments it has had. -/
structure FollowsAdjustments (session : Session) (t : Instant) (zone : Zone) : Prop where
  /-- A question is answered for the instant that the adjustments before it lead to. -/
  answer : ∀ (before later : List Step) (query : Query),
    (session.run (before ++ .ask query :: later))[before.length]? = some (.answered
      (query.answerAt ((adjustments before).foldl Instant.adjusted t.shown) zone))
  /-- The readings of all clocks are those that the adjustments alone lead to. -/
  readings : ∀ steps, (session.after steps).dials =
    session.handle.adjustAll session.dials (adjustments steps)
  /-- No question changes what any clock shows. -/
  unchanged : ∀ (before : List Step) (query : Query) (clock : Clock),
    clock.now (session.after (before ++ [.ask query])).dials =
        clock.now (session.after before).dials ∧
      clock.millis (session.after (before ++ [.ask query])).dials =
        clock.millis (session.after before).dials
  /-- Questions in a row are each answered as if alone, and the rest of the run does not depend on
  which they are. -/
  block : ∀ (before later : List Step) (queries : List Query),
    session.run (before ++ (queries.map .ask ++ later)) = session.run before ++
      ((queries.map fun query => .answered
        (query.answerAt ((adjustments before).foldl Instant.adjusted t.shown) zone)) ++
      (session.after before).run later)

theorem followsAdjustments_pinned (dials : Dials) (t : Instant) (zone : Zone)
    (account : Account) : (pinned dials t zone account).FollowsAdjustments t zone where
  answer before later query := by
    rw [run_append, ← length_run (pinned dials t zone account) before,
      List.getElem?_append_right (Nat.le_refl _), Nat.sub_self,
      ← answer_after_pinned dials t zone account before query]
    rfl
  readings steps := by
    obtain ⟨loaded, hafter⟩ := (pinned dials t zone account).after_eq steps
    rw [hafter]
  unchanged before query clock := by
    have hafter : (pinned dials t zone account).after (before ++ [.ask query]) =
        (pinned dials t zone account).after before := List.foldl_append
    rw [hafter]
    exact ⟨rfl, rfl⟩
  block before later queries := by
    simp only [run_append, run_asks, after_asks, answer_after_pinned]

end Session

end AccountView
