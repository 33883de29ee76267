import AccountView.Proofs.Clock.Handles

namespace AccountView

/-! Exact clocks: what a pinned clock stores is just what it shows. Rounding and clamping happen
when a clock is pinned or adjusted, so nothing is left for them to do when it is read. -/

namespace Reading

variable {r s : Reading}

theorem readable_adjust (r : Reading) (adjustment : Adjustment) :
    (r.adjust adjustment).Readable := by
  cases adjustment with
  | set t => exact readable_ofInstant t
  | advance nanos => exact readable_ofInstant _
  | decrease nanos => exact readable_ofInstant _

theorem readable_map_adjust (before : Option Reading) (adjustment : Adjustment) :
    ∀ r ∈ before.map (·.adjust adjustment), r.Readable := by
  intro r hr
  obtain ⟨old, _, rfl⟩ := Option.map_eq_some_iff.mp hr
  exact old.readable_adjust adjustment

theorem now_of_lt (h : r.millis.toInt < minMillis) : r.now = .earliest := by
  have hout : ¬ r.Readable := fun hreadable => absurd hreadable.minMillis_le (Int.not_le.mpr h)
  have hneg : ¬ 0 < r.millis.toInt := by
    rw [minMillis] at h
    omega
  rw [now, dif_neg hout, if_neg hneg]

theorem now_of_gt (h : maxMillis < r.millis.toInt) : r.now = .latest := by
  have hout : ¬ r.Readable := fun hreadable => absurd hreadable.le_maxMillis (Int.not_le.mpr h)
  have hpos : 0 < r.millis.toInt := by
    rw [maxMillis] at h
    omega
  rw [now, dif_neg hout, if_pos hpos]

/-- A word past either end of the readable range shows that end of all instants. -/
theorem now_eq (r : Reading) : r.now =
    if r.millis.toInt < minMillis then .earliest
    else if maxMillis < r.millis.toInt then .latest
    else .clamp (r.millis.toInt * Instant.nanosPerMilli) := by
  by_cases hmin : r.millis.toInt < minMillis
  · rw [if_pos hmin, now_of_lt hmin]
  by_cases hmax : maxMillis < r.millis.toInt
  · rw [if_neg hmin, if_pos hmax, now_of_gt hmax]
  · have hreadable : r.Readable := ⟨Int.not_lt.mp hmin, Int.not_lt.mp hmax⟩
    rw [if_neg hmin, if_neg hmax, ← nanos_now hreadable, Instant.clamp_nanos]

theorem now_mono (h : r.millis ≤ s.millis) : r.now ≤ s.now := by
  have hword : r.millis.toInt ≤ s.millis.toInt := Int64.le_iff_toInt_le.mp h
  rw [now_eq r, now_eq s]
  split
  · exact Instant.minNanos_le _
  split
  · rw [if_neg (by simp only [minMillis, maxMillis] at *; omega), if_pos (by omega)]
    exact Int.le_refl _
  rw [if_neg (by omega)]
  split
  · exact Instant.le_maxNanos _
  · rw [Instant.le_def, Instant.nanos_clamp, Instant.nanos_clamp]
    simp only [Instant.nanosPerMilli]
    omega

end Reading

theorem Dials.set_cell (dials : Dials) (cell : Nat) :
    dials.cells.set cell (dials.cell cell) = dials.cells := by
  by_cases h : cell < dials.cells.length
  · simp [Dials.cell, h]
  · exact List.set_eq_of_length_le (Nat.not_lt.mp h)

namespace Clock

/-- The clock can be adjusted, its stored milliseconds are those of the instant it shows, and that
instant pins the same milliseconds again. -/
structure Exact (dials : Dials) (clock : Clock) : Prop where
  minMillis_le : Reading.minMillis ≤ clock.millis dials
  le_maxMillis : clock.millis dials ≤ Reading.maxMillis
  nanos_now : (clock.now dials).nanos = clock.millis dials * Instant.nanosPerMilli
  millis_now : (clock.now dials).millis = clock.millis dials
  set_now : clock.adjust dials (.set (clock.now dials)) = .ok dials
  new_now : ∀ others : Dials, (others.start (.pinnedAt (clock.now dials))).1.millis
    (others.start (.pinnedAt (clock.now dials))).2 = clock.millis dials

theorem exact_of_readable {dials : Dials} {cell : Nat} (h : (dials.cell cell).Readable) :
    Exact dials (.pinned cell) where
  minMillis_le := h.minMillis_le
  le_maxMillis := h.le_maxMillis
  nanos_now := Reading.nanos_now h
  millis_now := Reading.millis_now h
  set_now := by
    have hset : (dials.cell cell).adjust (.set (now dials (.pinned cell))) = dials.cell cell :=
      Reading.ofInstant_now h
    rw [adjust, hset, Dials.set_cell]
  new_now others := by
    have hnew := others.reading?_start (.pinnedAt (now dials (.pinned cell)))
    have hsame : Reading.ofInstant (now dials (.pinned cell)) = dials.cell cell :=
      Reading.ofInstant_now h
    rw [ClockSource.reading?, hsame] at hnew
    exact millis_of_reading? hnew

end Clock

namespace Clocks

variable {clocks : Clocks} {clock : Clock}

/-- Once the reading behind a clock is readable, no step changes that. -/
theorem readable_after (hwithin : clock.Within clocks.dials)
    (h : ∀ r ∈ clock.reading? clocks.dials, r.Readable) (step : ClockStep) :
    ∀ r ∈ clock.reading? (clocks.after step).dials, r.Readable := by
  cases step with
  | adjust on adjustment =>
      rw [reading?_after_adjust hwithin]
      split
      · exact Reading.readable_map_adjust _ adjustment
      · exact h
  | clone on => rwa [reading?_after_clone]
  | new source => rwa [reading?_after_new hwithin]

theorem readable_run (hwithin : clocks.Within) {on : Nat} (hon : clocks.handles[on]? = some clock)
    (h : ∀ r ∈ clock.reading? clocks.dials, r.Readable) (steps : List ClockStep) :
    (clocks.run steps).handles[on]? = some clock ∧
      ∀ r ∈ clock.reading? (clocks.run steps).dials, r.Readable := by
  induction steps generalizing clocks with
  | nil => exact ⟨hon, h⟩
  | cons step steps ih =>
      have hclock := hwithin clock (List.mem_of_getElem? hon)
      exact ih (hwithin.after step) (handle_after hon step) (readable_after hclock h step)

theorem readable_adjusted (hwithin : clocks.Within) {on : Nat}
    (hon : clocks.handles[on]? = some clock) (adjustment : Adjustment) :
    ∀ r ∈ clock.reading? (clocks.after (.adjust on adjustment)).dials, r.Readable := by
  rw [reading?_after_adjust (hwithin clock (List.mem_of_getElem? hon)), if_pos hon]
  exact Reading.readable_map_adjust _ adjustment

/-! ### Clocks that are pinned at instants only -/

/-- No reading behind any of the clocks is out of range. -/
def Readable (clocks : Clocks) : Prop :=
  ∀ clock ∈ clocks.handles, ∀ r ∈ clock.reading? clocks.dials, r.Readable

theorem Readable.after (hwithin : clocks.Within) (h : clocks.Readable) {step : ClockStep}
    (hstep : ∀ r, step ≠ .new (.holding r)) : (clocks.after step).Readable := by
  intro clock hmem
  by_cases hknown : clock ∈ clocks.handles
  · exact readable_after (hwithin clock hknown) (h clock hknown) step
  -- Only a new clock is none of those that there were, and it holds no raw word.
  cases step with
  | adjust on adjustment =>
      rw [handles_adjust] at hmem
      contradiction
  | clone on =>
      rw [after_clone] at hmem
      rcases List.mem_append.mp hmem with hmem | hmem
      · contradiction
      · exact absurd (List.mem_of_getElem? (Option.mem_toList.mp hmem)) hknown
  | new source =>
      rw [after_new] at hmem ⊢
      rcases List.mem_append.mp hmem with hmem | hmem
      · contradiction
      rw [List.mem_singleton.mp hmem, Dials.reading?_start]
      cases source with
      | wall => nofun
      | pinnedAt t =>
          rintro r ⟨⟩
          exact Reading.readable_ofInstant t
      | holding r => exact absurd rfl (hstep r)

theorem Readable.run (hwithin : clocks.Within) (h : clocks.Readable) {steps : List ClockStep}
    (hsteps : ∀ r, .new (.holding r) ∉ steps) : (clocks.run steps).Readable := by
  induction steps generalizing clocks with
  | nil => exact h
  | cons step steps ih =>
      simp only [List.mem_cons, not_or] at hsteps
      exact ih (hwithin.after step) (h.after hwithin fun r heq => (hsteps r).1 heq.symm)
        fun r => (hsteps r).2

/-- What is true of pinned clocks at every moment of every run. -/
structure StayExact (wall : Instant) : Prop where
  /-- Clocks that are pinned at instants are exact from the start, whatever becomes of them. -/
  pinned : ∀ steps, (∀ r, .new (.holding r) ∉ steps) → ∀ cell,
    .pinned cell ∈ ((empty wall).run steps).handles →
      Clock.Exact ((empty wall).run steps).dials (.pinned cell)
  /-- A clock that holds any word is exact from its first adjustment on. -/
  adjusted : ∀ before on adjustment later cell,
    ((empty wall).run before).handles[on]? = some (.pinned cell) →
      ((empty wall).run (before ++ .adjust on adjustment :: later)).handles[on]? =
          some (.pinned cell) ∧
        Clock.Exact ((empty wall).run (before ++ .adjust on adjustment :: later)).dials
          (.pinned cell)
  /-- Whatever word is held, the instant shown is the one it counts or the end nearest to it. -/
  now : ∀ dials cell, (Clock.pinned cell).now dials =
    if (Clock.pinned cell).millis dials < Reading.minMillis then .earliest
    else if Reading.maxMillis < (Clock.pinned cell).millis dials then .latest
    else .clamp ((Clock.pinned cell).millis dials * Instant.nanosPerMilli)
  mono : ∀ dials others cell other,
    (Clock.pinned cell).millis dials ≤ (Clock.pinned other).millis others →
      (Clock.pinned cell).now dials ≤ (Clock.pinned other).now others

theorem stayExact (wall : Instant) : StayExact wall where
  pinned steps hsteps cell hmem := by
    have hempty : (empty wall).Readable := nofun
    exact Clock.exact_of_readable
      (hempty.run (within_empty wall) hsteps (.pinned cell) hmem _ rfl)
  adjusted before on adjustment later cell hon := by
    have hwithin := (within_empty wall).run before
    have hreadable := readable_adjusted hwithin hon adjustment
    obtain ⟨hhandle, hlater⟩ := readable_run (hwithin.after (.adjust on adjustment))
      (handle_after hon (.adjust on adjustment)) hreadable later
    rw [run_append, run_cons]
    exact ⟨hhandle, Clock.exact_of_readable (hlater _ rfl)⟩
  now dials cell := (dials.cell cell).now_eq
  mono dials others cell other h := Reading.now_mono (Int64.le_iff_toInt_le.mpr h)

end Clocks

end AccountView
