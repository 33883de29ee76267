import AccountView.Proofs.Clock.Handles
import Mathlib.Data.List.Basic

namespace AccountView

/-! Families of clock handles. A handle descends by cloning from one whose clock was new, and all
handles of one descent behave as a lone clock that is adjusted through any of them. -/

namespace ClockStep

/-- For each handle the one that it descends from, which is itself if its clock was new. -/
def descend (origins : List Nat) : ClockStep → List Nat
  | adjust .. => origins
  | clone on => origins ++ origins[on]?.toList
  | new _ => origins ++ [origins.length]

def origins (steps : List ClockStep) : List Nat := steps.foldl descend []

/-- What a step means to one family, as steps on a lone clock. -/
def kin (origin : Nat) (origins : List Nat) : ClockStep → List ClockStep
  | adjust on adjustment => if origins[on]? = some origin then [.adjust 0 adjustment] else []
  | clone _ => []
  | new source => if origins.length = origin then [.new source] else []

/-- A run as one family has it: its clock is made and then adjusted. -/
def lone (origin : Nat) (origins : List Nat) : List ClockStep → List ClockStep
  | [] => []
  | step :: steps => step.kin origin origins ++ lone origin (descend origins step) steps

theorem lone_append (origin : Nat) (origins : List Nat) (steps others : List ClockStep) :
    lone origin origins (steps ++ others) =
      lone origin origins steps ++ lone origin (steps.foldl descend origins) others := by
  induction steps generalizing origins with
  | nil => rfl
  | cons step steps ih => rw [List.cons_append, lone, lone, ih, List.append_assoc, List.foldl_cons]

end ClockStep

namespace Clocks

variable {clocks : Clocks} {clock : Clock} {origins : List Nat}

/-- What a handle shows: an instant and the stored milliseconds. -/
def shows? (clocks : Clocks) (i : Nat) : Option (Instant × Int) :=
  clocks.handles[i]?.map fun clock => (clock.now clocks.dials, clock.millis clocks.dials)

theorem shows?_congr {others : Clocks} {i j : Nat} {other : Clock}
    (hwall : clocks.dials.wall = others.dials.wall) (hi : clocks.handles[i]? = some clock)
    (hj : others.handles[j]? = some other)
    (h : clock.reading? clocks.dials = other.reading? others.dials) :
    clocks.shows? i = others.shows? j := by
  rw [shows?, shows?, hi, hj]
  cases clock with
  | wall =>
      cases other with
      | wall => simp [Clock.now, Clock.millis, hwall]
      | pinned cell => contradiction
  | pinned own =>
      cases other with
      | wall => contradiction
      | pinned cell =>
          have hcell : clocks.dials.cell own = others.dials.cell cell := Option.some.inj h
          simp [Clock.now, Clock.millis, hcell]

/-- Handles of one origin are of one clock, and no two origins have one pinned clock. -/
structure Families (origins : List Nat) (clocks : Clocks) : Prop where
  within : clocks.Within
  length : clocks.handles.length = origins.length
  origin : ∀ {i origin : Nat}, origins[i]? = some origin → origins[origin]? = some origin
  handle : ∀ {i origin : Nat} {clock : Clock}, origins[i]? = some origin →
    clocks.handles[i]? = some clock → clocks.handles[origin]? = some clock
  apart : ∀ {i j cell : Nat}, clocks.handles[i]? = some (.pinned cell) →
    clocks.handles[j]? = some (.pinned cell) → origins[i]? = origins[j]?

theorem families_empty (wall : Instant) : Families [] (empty wall) where
  within := within_empty wall
  length := rfl
  origin := by simp
  handle := by simp
  apart := by simp [empty]

namespace Families

theorem adjust (h : Families origins clocks) (on : Nat) (adjustment : Adjustment) :
    Families origins (clocks.after (.adjust on adjustment)) where
  within := h.within.after _
  length := by rw [handles_adjust, h.length]
  origin := h.origin
  handle := by
    rw [handles_adjust]
    exact h.handle
  apart := by
    rw [handles_adjust]
    exact h.apart

/-- An index into the longer lists is that of an old handle or that of the clone, which has the
entries of the handle it is made of. -/
theorem clone (h : Families origins clocks) (on : Nat) :
    Families (ClockStep.descend origins (.clone on)) (clocks.after (.clone on)) := by
  have hwithin := h.within.after (.clone on)
  rw [after_clone] at hwithin ⊢
  obtain ⟨_, hlength, horigin, hhandle, hapart⟩ := h
  cases hon : clocks.handles[on]? with
  | none =>
      have hnone : origins[on]? = none := by
        rw [List.getElem?_eq_none_iff, ← hlength]
        exact List.getElem?_eq_none_iff.mp hon
      simp only [hon, ClockStep.descend, hnone, Option.toList_none, List.append_nil] at hwithin ⊢
      exact ⟨hwithin, hlength, horigin, hhandle, hapart⟩
  | some clock =>
      obtain ⟨root, hfrom⟩ : ∃ origin, origins[on]? = some origin := by
        have hlt : on < origins.length := hlength ▸ (List.getElem?_eq_some_iff.mp hon).1
        exact ⟨_, List.getElem?_eq_getElem hlt⟩
      simp only [hon, ClockStep.descend, hfrom, Option.toList_some] at hwithin ⊢
      constructor
      case within => exact hwithin
      case length => simp [hlength]
      case origin => grind
      case handle => grind
      case apart => grind

/-- A new handle is its own origin, and no old handle is of its clock. -/
theorem new (h : Families origins clocks) (source : ClockSource) :
    Families (ClockStep.descend origins (.new source)) (clocks.after (.new source)) := by
  have hwithin := h.within.after (.new source)
  have hnew {i cell : Nat} (hi : clocks.handles[i]? = some (.pinned cell)) :
      (clocks.dials.start source).1 ≠ .pinned cell :=
    Dials.start_ne_of_within (h.within _ (List.mem_of_getElem? hi)) source
  rw [after_new] at hwithin ⊢
  obtain ⟨_, hlength, horigin, hhandle, hapart⟩ := h
  simp only [ClockStep.descend]
  constructor
  case within => exact hwithin
  case length => simp [hlength]
  case origin => grind
  case handle => grind
  case apart => grind

theorem after (h : Families origins clocks) (step : ClockStep) :
    Families (ClockStep.descend origins step) (clocks.after step) := by
  cases step with
  | adjust on adjustment => exact h.adjust on adjustment
  | clone on => exact h.clone on
  | new source => exact h.new source

theorem run (h : Families origins clocks) (steps : List ClockStep) :
    Families (steps.foldl ClockStep.descend origins) (clocks.run steps) := by
  induction steps generalizing origins clocks with
  | nil => exact h
  | cons step steps ih => exact ih (h.after step)

theorem exists_handle (h : Families origins clocks) {i origin : Nat}
    (hi : origins[i]? = some origin) :
    ∃ clock, clocks.handles[i]? = some clock ∧ clocks.handles[origin]? = some clock := by
  have hlt : i < clocks.handles.length := h.length ▸ (List.getElem?_eq_some_iff.mp hi).1
  have hclock : clocks.handles[i]? = some clocks.handles[i] := List.getElem?_eq_getElem hlt
  exact ⟨_, hclock, h.handle hi hclock⟩

/-- An adjustment through a handle of another origin does not move the clock of a handle. -/
theorem reading?_adjust_of_ne (h : Families origins clocks) {i on : Nat}
    (hi : clocks.handles[i]? = some clock) (hne : origins[i]? ≠ origins[on]?)
    (adjustment : Adjustment) :
    clock.reading? (clocks.after (.adjust on adjustment)).dials =
      clock.reading? clocks.dials := by
  rw [reading?_after_adjust (h.within clock (List.mem_of_getElem? hi))]
  split
  · rename_i hon
    cases clock with
    | wall => rfl
    | pinned cell => exact absurd (h.apart hi hon) hne
  · rfl

end Families

/-! ### A family alone -/

/-- A lone clock that stands for the family of one origin: it has the same reading, from the step on
that makes the clock of the family. -/
structure StandsFor (single : Clocks) (origin : Nat) (origins : List Nat) (clocks : Clocks) :
    Prop where
  within : single.Within
  wall : single.dials.wall = clocks.dials.wall
  unmade : origins.length ≤ origin → single.handles = []
  made : origins[origin]? = some origin → ∀ clock, clocks.handles[origin]? = some clock →
    ∃ own, single.handles = [own] ∧
      own.reading? single.dials = clock.reading? clocks.dials

namespace StandsFor

variable {single : Clocks} {origin : Nat}

/-- A step that neither makes nor moves the clock of the family changes nothing for it. -/
theorem keep (h : single.StandsFor origin origins clocks) (families : Families origins clocks)
    {step : ClockStep} (hle : origins.length ≤ (ClockStep.descend origins step).length)
    (hold : (ClockStep.descend origins step)[origin]? = some origin →
      origins[origin]? = some origin)
    (hreading : origins[origin]? = some origin → ∀ clock, clocks.handles[origin]? = some clock →
      clock.reading? (clocks.after step).dials = clock.reading? clocks.dials) :
    single.StandsFor origin (ClockStep.descend origins step) (clocks.after step) where
  within := h.within
  wall := by rw [wall_after, h.wall]
  unmade := fun hlater => h.unmade (Nat.le_trans hle hlater)
  made := by
    intro horigin clock hclock
    obtain ⟨old, hhandle, _⟩ := families.exists_handle (hold horigin)
    have hsame : old = clock := Option.some.inj ((handle_after hhandle step).symm.trans hclock)
    rw [← hsame, hreading (hold horigin) old hhandle]
    exact h.made (hold horigin) old hhandle

theorem adjust (h : single.StandsFor origin origins clocks) (families : Families origins clocks)
    (on : Nat) (adjustment : Adjustment) :
    (single.run ((ClockStep.adjust on adjustment).kin origin origins)).StandsFor origin
      (ClockStep.descend origins (.adjust on adjustment))
      (clocks.after (.adjust on adjustment)) := by
  by_cases hkin : origins[on]? = some origin
  · rw [ClockStep.kin, if_pos hkin, run_singleton]
    constructor
    case within => exact h.within.after _
    case wall => rw [wall_after, wall_after, h.wall]
    case unmade =>
      intro hle
      rw [handles_adjust]
      exact h.unmade hle
    case made =>
      intro horigin clock hclock
      rw [handles_adjust] at hclock ⊢
      obtain ⟨own, hsingle, hreading⟩ := h.made horigin clock hclock
      obtain ⟨other, hon, hother⟩ := families.exists_handle hkin
      have hsame : other = clock := Option.some.inj (hother.symm.trans hclock)
      have hfirst : single.handles[0]? = some own := by simp [hsingle]
      refine ⟨own, hsingle, ?_⟩
      rw [reading?_after_adjust (h.within own (List.mem_of_getElem? hfirst)), if_pos hfirst,
        reading?_after_adjust (families.within clock (List.mem_of_getElem? hclock)),
        if_pos (hsame ▸ hon), hreading]
  · rw [ClockStep.kin, if_neg hkin, run_nil]
    refine h.keep families (Nat.le_refl _) id fun horigin clock hclock => ?_
    have hne : origins[origin]? ≠ origins[on]? := fun heq => hkin (heq ▸ horigin)
    exact families.reading?_adjust_of_ne hclock hne adjustment

theorem clone (h : single.StandsFor origin origins clocks) (families : Families origins clocks)
    (on : Nat) : (single.run ((ClockStep.clone on).kin origin origins)).StandsFor origin
      (ClockStep.descend origins (.clone on)) (clocks.after (.clone on)) := by
  have hfrom : origins[on]? = some origin → origins[origin]? = some origin := families.origin
  refine h.keep families ?_ ?_ fun _ clock _ => reading?_after_clone clocks clock on
  · simp [ClockStep.descend]
  · grind [ClockStep.descend]

theorem new (h : single.StandsFor origin origins clocks) (families : Families origins clocks)
    (source : ClockSource) :
    (single.run ((ClockStep.new source).kin origin origins)).StandsFor origin
      (ClockStep.descend origins (.new source)) (clocks.after (.new source)) := by
  by_cases hkin : origins.length = origin
  · have hnone : single.handles = [] := h.unmade (Nat.le_of_eq hkin)
    rw [ClockStep.kin, if_pos hkin, run_singleton]
    constructor
    case within => exact h.within.after _
    case wall => rw [wall_after, wall_after, h.wall]
    case unmade =>
      intro hle
      simp [ClockStep.descend] at hle
      omega
    case made =>
      intro _ clock hclock
      have hlength : clocks.handles.length = origin := families.length.trans hkin
      rw [after_new, ← hlength, List.getElem?_concat_length] at hclock
      cases hclock
      refine ⟨(single.dials.start source).1, by rw [after_new, hnone]; rfl, ?_⟩
      rw [after_new, after_new, Dials.reading?_start, Dials.reading?_start]
  · rw [ClockStep.kin, if_neg hkin, run_nil]
    refine h.keep families ?_ ?_ fun _ clock hclock =>
      reading?_after_new (families.within clock (List.mem_of_getElem? hclock)) source
    · simp [ClockStep.descend]
    · grind [ClockStep.descend]

theorem after (h : single.StandsFor origin origins clocks) (families : Families origins clocks)
    (step : ClockStep) : (single.run (step.kin origin origins)).StandsFor origin
      (ClockStep.descend origins step) (clocks.after step) := by
  cases step with
  | adjust on adjustment => exact h.adjust families on adjustment
  | clone on => exact h.clone families on
  | new source => exact h.new families source

theorem run (h : single.StandsFor origin origins clocks) (families : Families origins clocks)
    (steps : List ClockStep) : (single.run (ClockStep.lone origin origins steps)).StandsFor origin
      (steps.foldl ClockStep.descend origins) (clocks.run steps) := by
  induction steps generalizing single origins clocks with
  | nil => exact h
  | cons step steps ih =>
      rw [ClockStep.lone, run_append]
      exact ih (h.after families step) (families.after step)

end StandsFor

theorem standsFor_empty (wall : Instant) (origin : Nat) :
    (empty wall).StandsFor origin [] (empty wall) where
  within := within_empty wall
  wall := rfl
  unmade _ := rfl
  made := by simp

/-! ### Runs -/

/-- What is true of handles and their origins at every moment of every run. -/
structure ShareByOrigin (wall : Instant) : Prop where
  /-- Each handle has an origin. -/
  length : ∀ steps, ((empty wall).run steps).handles.length = (ClockStep.origins steps).length
  /-- Handles of one origin show the same. -/
  shared : ∀ steps (i j : Nat) origin, (ClockStep.origins steps)[i]? = some origin →
    (ClockStep.origins steps)[j]? = some origin →
      ((empty wall).run steps).shows? i = ((empty wall).run steps).shows? j
  /-- A handle shows what a lone clock shows that has had the adjustments of its family alone. -/
  lone : ∀ steps (i : Nat) origin, (ClockStep.origins steps)[i]? = some origin →
    ((empty wall).run steps).shows? i =
      ((empty wall).run (ClockStep.lone origin [] steps)).shows? 0
  /-- An adjustment through a handle does to its whole family what it does to a lone clock. -/
  adjusted : ∀ steps on adjustment (i : Nat) origin, (ClockStep.origins steps)[on]? = some origin →
    (ClockStep.origins steps)[i]? = some origin →
      ((empty wall).run (steps ++ [.adjust on adjustment])).shows? i =
        ((empty wall).run (ClockStep.lone origin [] steps ++ [.adjust 0 adjustment])).shows? 0
  /-- An adjustment through a handle of one origin changes nothing for handles of others. -/
  isolated : ∀ steps on adjustment (i : Nat), i < (ClockStep.origins steps).length →
    (ClockStep.origins steps)[i]? ≠ (ClockStep.origins steps)[on]? →
      ((empty wall).run (steps ++ [.adjust on adjustment])).shows? i =
        ((empty wall).run steps).shows? i
  /-- Neither a clone nor a new clock changes what a handle shows. -/
  kept : ∀ steps step (i : Nat), (∀ on adjustment, step ≠ .adjust on adjustment) →
    i < (ClockStep.origins steps).length →
      ((empty wall).run (steps ++ [step])).shows? i = ((empty wall).run steps).shows? i
  /-- It makes no difference whether an adjustment goes through a handle or through its origin. -/
  origin : ∀ before (on : Nat) origin adjustment later,
    (ClockStep.origins before)[on]? = some origin →
      (empty wall).run (before ++ .adjust on adjustment :: later) =
        (empty wall).run (before ++ .adjust origin adjustment :: later)

theorem shows?_lone (wall : Instant) (steps : List ClockStep) {i origin : Nat}
    (hi : (ClockStep.origins steps)[i]? = some origin) :
    ((empty wall).run steps).shows? i =
      ((empty wall).run (ClockStep.lone origin [] steps)).shows? 0 := by
  have families : Families (ClockStep.origins steps) ((empty wall).run steps) :=
    (families_empty wall).run steps
  have hstands := (standsFor_empty wall origin).run (families_empty wall) steps
  obtain ⟨clock, hclock, horigin⟩ := families.exists_handle hi
  obtain ⟨own, hsingle, hreading⟩ := hstands.made (families.origin hi) clock horigin
  exact shows?_congr hstands.wall.symm hclock (by simp [hsingle]) hreading.symm

theorem shareByOrigin (wall : Instant) : ShareByOrigin wall := by
  have families (steps : List ClockStep) :
      Families (ClockStep.origins steps) ((empty wall).run steps) :=
    (families_empty wall).run steps
  constructor
  case length => exact fun steps => (families steps).length
  case shared =>
    intro steps i j origin hi hj
    rw [shows?_lone wall steps hi, shows?_lone wall steps hj]
  case lone => exact fun steps i origin hi => shows?_lone wall steps hi
  case adjusted =>
    intro steps on adjustment i origin hon hi
    have horigins : ClockStep.origins (steps ++ [.adjust on adjustment]) =
        ClockStep.origins steps := by
      rw [ClockStep.origins, List.foldl_append]
      rfl
    have hkin : ClockStep.kin origin (ClockStep.origins steps) (.adjust on adjustment) =
        [.adjust 0 adjustment] := if_pos hon
    have hlone : ClockStep.lone origin [] (steps ++ [.adjust on adjustment]) =
        ClockStep.lone origin [] steps ++ [.adjust 0 adjustment] := by
      rw [ClockStep.lone_append, ClockStep.lone, ← ClockStep.origins, hkin]
      rfl
    rw [← hlone]
    exact shows?_lone wall _ (by rw [horigins, hi])
  case isolated =>
    intro steps on adjustment i hlt hne
    obtain ⟨clock, hclock, _⟩ := (families steps).exists_handle (List.getElem?_eq_getElem hlt)
    have hreading := (families steps).reading?_adjust_of_ne hclock hne adjustment
    rw [run_append]
    exact shows?_congr (wall_after _ _) (handle_after hclock _) hclock hreading
  case kept =>
    intro steps step i hstep hlt
    obtain ⟨clock, hclock, _⟩ := (families steps).exists_handle (List.getElem?_eq_getElem hlt)
    have hwithin := (families steps).within clock (List.mem_of_getElem? hclock)
    have hreading : clock.reading? (((empty wall).run steps).after step).dials =
        clock.reading? ((empty wall).run steps).dials := by
      cases step with
      | adjust on adjustment => exact absurd rfl (hstep on adjustment)
      | clone on => exact reading?_after_clone _ clock on
      | new source => exact reading?_after_new hwithin source
    rw [run_append]
    exact shows?_congr (wall_after _ _) (handle_after hclock _) hclock hreading
  case origin =>
    intro before on origin adjustment later hon
    obtain ⟨clock, hclock, horigin⟩ := (families before).exists_handle hon
    rw [run_append, run_append, run_cons, run_cons, after_adjust hclock, after_adjust horigin]

end Clocks

end AccountView
