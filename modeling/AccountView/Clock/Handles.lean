import AccountView.Clock.Basic

namespace AccountView

/-! Runs over a growing list of clock handles. A new clock gets a cell of its own, and a clone of a
handle is the same clock. -/

inductive ClockSource where
  | wall
  | pinnedAt (t : Instant)
  | holding (r : Reading)

/-- Clock handles in the order of their making, and what they show. -/
structure Clocks where
  dials : Dials
  handles : List Clock

inductive ClockStep where
  | adjust (on : Nat) (adjustment : Adjustment)
  | clone (on : Nat)
  | new (source : ClockSource)

def Dials.start (dials : Dials) : ClockSource → Clock × Dials
  | .wall => (.wall, dials)
  | .pinnedAt t => (.pinned dials.cells.length,
      { dials with cells := dials.cells ++ [.ofInstant t] })
  | .holding r => (.pinned dials.cells.length, { dials with cells := dials.cells ++ [r] })

namespace Clocks

def empty (wall : Instant) : Clocks := ⟨⟨wall, []⟩, []⟩

def new (clocks : Clocks) (source : ClockSource) : Clocks :=
  let (clock, dials) := clocks.dials.start source
  ⟨dials, clocks.handles ++ [clock]⟩

def step (clocks : Clocks) : ClockStep → Except ClockError Clocks
  | .adjust on adjustment =>
    match clocks.handles[on]? with
    | some clock => do
      let dials ← clock.adjust clocks.dials adjustment
      pure { clocks with dials }
    | none => .error .noSuchHandle
  | .clone on =>
    match clocks.handles[on]? with
    | some clock => .ok { clocks with handles := clocks.handles ++ [clock] }
    | none => .error .noSuchHandle
  | .new source => .ok (clocks.new source)

/-- A step that fails leaves all clocks as they were. -/
def run (clocks : Clocks) (steps : List ClockStep) : Clocks :=
  steps.foldl (fun clocks s => (clocks.step s).toOption.getD clocks) clocks

end Clocks

end AccountView
