import AccountView.Clock.Handles

namespace AccountView

/-! What one step over clock handles does. It changes the reading behind at most one clock, and no
handle that there is already comes to stand for another clock. -/

/-- The reading of a new clock. The wall clock has none. -/
def ClockSource.reading? : ClockSource → Option Reading
  | wall => none
  | pinnedAt t => some (.ofInstant t)
  | holding r => some r

namespace Clock

/-- The reading behind a clock. The wall clock has none. -/
def reading? (dials : Dials) : Clock → Option Reading
  | wall => none
  | pinned cell => some (dials.cell cell)

/-- The clock has a cell, if it needs one. -/
def Within (dials : Dials) : Clock → Prop
  | wall => True
  | pinned cell => cell < dials.cells.length

/-- The dials after an adjustment. One that fails changes nothing. -/
def adjusted (dials : Dials) (adjustment : Adjustment) (clock : Clock) : Dials :=
  (clock.adjust dials adjustment).toOption.getD dials

variable {dials : Dials} {clock : Clock}

theorem millis_of_reading? {r : Reading} (h : clock.reading? dials = some r) :
    clock.millis dials = r.millis.toInt := by
  cases clock with
  | wall => contradiction
  | pinned cell => exact congrArg (·.millis.toInt) (Option.some.inj h)

@[simp] theorem wall_adjusted (dials : Dials) (adjustment : Adjustment) (clock : Clock) :
    (clock.adjusted dials adjustment).wall = dials.wall := by
  cases clock <;> rfl

theorem Within.adjusted (h : clock.Within dials) (adjustment : Adjustment) (other : Clock) :
    clock.Within (other.adjusted dials adjustment) := by
  cases other with
  | wall => exact h
  | pinned cell =>
      cases clock with
      | wall => trivial
      | pinned own => simpa [Within, Clock.adjusted, adjust, Except.toOption] using h

/-- An adjustment moves the clock that it goes through and no other. -/
theorem reading?_adjusted (h : clock.Within dials) (adjustment : Adjustment) (other : Clock) :
    clock.reading? (other.adjusted dials adjustment) =
      if other = clock then (clock.reading? dials).map (·.adjust adjustment)
      else clock.reading? dials := by
  cases other with
  | wall => cases clock <;> simp [adjusted, adjust, Except.toOption, reading?]
  | pinned cell =>
      cases clock with
      | wall => rfl
      | pinned own =>
          have hlt : own < dials.cells.length := h
          by_cases heq : cell = own
          · subst heq
            simp [adjusted, adjust, Except.toOption, reading?, Dials.cell, hlt]
          · simp [adjusted, adjust, Except.toOption, reading?, Dials.cell, heq]

end Clock

namespace Dials

variable {dials : Dials} {clock : Clock}

@[simp] theorem wall_start (dials : Dials) (source : ClockSource) :
    (dials.start source).2.wall = dials.wall := by
  cases source <;> rfl

theorem within_start (dials : Dials) (source : ClockSource) :
    (dials.start source).1.Within (dials.start source).2 := by
  cases source <;> simp [start, Clock.Within]

theorem reading?_start (dials : Dials) (source : ClockSource) :
    (dials.start source).1.reading? (dials.start source).2 = source.reading? := by
  cases source <;> simp [start, Clock.reading?, ClockSource.reading?, cell]

/-- A clock that there is keeps its reading when another is made. -/
theorem reading?_start_of_within (h : clock.Within dials) (source : ClockSource) :
    clock.reading? (dials.start source).2 = clock.reading? dials := by
  cases clock with
  | wall => rfl
  | pinned own =>
      have hlt : own < dials.cells.length := h
      cases source <;> simp [start, Clock.reading?, cell, List.getElem?_append_left hlt]

/-- A new pinned clock is none of those that there are. -/
theorem start_ne_of_within {cell : Nat} (h : (Clock.pinned cell).Within dials)
    (source : ClockSource) : (dials.start source).1 ≠ .pinned cell := by
  have hlt : cell < dials.cells.length := h
  cases source <;> simp [start] <;> omega

end Dials

theorem Clock.Within.start {dials : Dials} {clock : Clock} (h : clock.Within dials)
    (source : ClockSource) : clock.Within (dials.start source).2 := by
  cases clock with
  | wall => trivial
  | pinned own =>
      have hlt : own < dials.cells.length := h
      cases source <;> simp [Dials.start, Within] <;> omega

namespace Clocks

variable {clocks : Clocks} {clock : Clock}

/-- The clocks after a step. One that fails changes nothing. -/
def after (clocks : Clocks) (step : ClockStep) : Clocks := (clocks.step step).toOption.getD clocks

theorem run_nil (clocks : Clocks) : clocks.run [] = clocks := rfl

theorem run_singleton (clocks : Clocks) (step : ClockStep) :
    clocks.run [step] = clocks.after step := rfl

theorem run_cons (clocks : Clocks) (step : ClockStep) (steps : List ClockStep) :
    clocks.run (step :: steps) = (clocks.after step).run steps := rfl

theorem run_append (clocks : Clocks) (steps others : List ClockStep) :
    clocks.run (steps ++ others) = (clocks.run steps).run others := List.foldl_append

theorem after_adjust {on : Nat} (h : clocks.handles[on]? = some clock) (adjustment : Adjustment) :
    clocks.after (.adjust on adjustment) =
      { clocks with dials := clock.adjusted clocks.dials adjustment } := by
  simp only [after, step, h, Clock.adjusted]
  cases clock.adjust clocks.dials adjustment <;> rfl

theorem after_adjust_none {on : Nat} (h : clocks.handles[on]? = none) (adjustment : Adjustment) :
    clocks.after (.adjust on adjustment) = clocks := by
  simp only [after, step, h]
  rfl

theorem handles_adjust (clocks : Clocks) (on : Nat) (adjustment : Adjustment) :
    (clocks.after (.adjust on adjustment)).handles = clocks.handles := by
  cases hon : clocks.handles[on]? with
  | none => rw [after_adjust_none hon]
  | some other => rw [after_adjust hon]

theorem after_clone (clocks : Clocks) (on : Nat) : clocks.after (.clone on) =
    { clocks with handles := clocks.handles ++ clocks.handles[on]?.toList } := by
  simp only [after, step]
  cases clocks.handles[on]? <;> simp [Except.toOption]

theorem after_new (clocks : Clocks) (source : ClockSource) : clocks.after (.new source) =
    ⟨(clocks.dials.start source).2, clocks.handles ++ [(clocks.dials.start source).1]⟩ := rfl

/-- Every handle is of a clock that there is. -/
def Within (clocks : Clocks) : Prop := ∀ clock ∈ clocks.handles, clock.Within clocks.dials

theorem within_empty (wall : Instant) : (empty wall).Within := nofun

theorem Within.after (h : clocks.Within) (step : ClockStep) : (clocks.after step).Within := by
  cases step with
  | adjust on adjustment =>
      cases hon : clocks.handles[on]? with
      | none =>
          rw [after_adjust_none hon]
          exact h
      | some other =>
          rw [after_adjust hon]
          exact fun clock hmem => (h clock hmem).adjusted adjustment other
  | clone on =>
      rw [after_clone]
      intro clock hmem
      rcases List.mem_append.mp hmem with hmem | hmem
      · exact h clock hmem
      · exact h clock (List.mem_of_getElem? (Option.mem_toList.mp hmem))
  | new source =>
      rw [after_new]
      intro clock hmem
      rcases List.mem_append.mp hmem with hmem | hmem
      · exact (h clock hmem).start source
      · rw [List.mem_singleton.mp hmem]
        exact clocks.dials.within_start source

theorem Within.run (h : clocks.Within) (steps : List ClockStep) : (clocks.run steps).Within := by
  induction steps generalizing clocks with
  | nil => exact h
  | cons step steps ih => exact ih (h.after step)

@[simp] theorem wall_after (clocks : Clocks) (step : ClockStep) :
    (clocks.after step).dials.wall = clocks.dials.wall := by
  cases step with
  | adjust on adjustment =>
      cases hon : clocks.handles[on]? with
      | none => rw [after_adjust_none hon]
      | some other => rw [after_adjust hon, Clock.wall_adjusted]
  | clone on => rw [after_clone]
  | new source => rw [after_new, Dials.wall_start]

/-- A handle stays that of the same clock. -/
theorem handle_after {i : Nat} (h : clocks.handles[i]? = some clock) (step : ClockStep) :
    (clocks.after step).handles[i]? = some clock := by
  have hlt : i < clocks.handles.length := (List.getElem?_eq_some_iff.mp h).1
  cases step with
  | adjust on adjustment => rwa [handles_adjust]
  | clone on => rwa [after_clone, List.getElem?_append_left hlt]
  | new source => rwa [after_new, List.getElem?_append_left hlt]

/-- Only an adjustment through a handle of the clock moves it. -/
theorem reading?_after_adjust (h : clock.Within clocks.dials) (on : Nat) (adjustment : Adjustment) :
    clock.reading? (clocks.after (.adjust on adjustment)).dials =
      if clocks.handles[on]? = some clock then
        (clock.reading? clocks.dials).map (·.adjust adjustment)
      else clock.reading? clocks.dials := by
  cases hon : clocks.handles[on]? with
  | none => simp [after_adjust_none hon]
  | some other => simp [after_adjust hon, Clock.reading?_adjusted h]

theorem reading?_after_clone (clocks : Clocks) (clock : Clock) (on : Nat) :
    clock.reading? (clocks.after (.clone on)).dials = clock.reading? clocks.dials := by
  rw [after_clone]

theorem reading?_after_new (h : clock.Within clocks.dials) (source : ClockSource) :
    clock.reading? (clocks.after (.new source)).dials = clock.reading? clocks.dials :=
  Dials.reading?_start_of_within h source

end Clocks

end AccountView
