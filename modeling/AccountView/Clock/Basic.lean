import AccountView.Clock.Reading

namespace AccountView

/-! Clocks: the wall clock, or a pinned reading. The reading lives in a cell of `Dials`, so that
handles of one pinned clock share it and an adjustment through any of them moves it for all. -/

inductive Adjustment where
  | set (t : Instant)
  | advance (nanos : Nat)
  | decrease (nanos : Nat)

def Reading.adjust (r : Reading) : Adjustment → Reading
  | .set t => ofInstant t
  | .advance nanos => r.advance nanos
  | .decrease nanos => r.decrease nanos

structure Dials where
  wall : Instant
  cells : List Reading

def Dials.cell (dials : Dials) (index : Nat) : Reading :=
  dials.cells.getD index default

inductive Clock where
  | wall
  | pinned (cell : Nat)
  deriving DecidableEq, Inhabited

/-- Only pinned clocks can be adjusted. -/
inductive ClockError where
  | wallClock
  | noSuchHandle
  deriving DecidableEq

def ClockError.message : ClockError → String
  | .wallClock => "internal error: entered unreachable code"
  | .noSuchHandle => "no such clock"

namespace Clock

def now (dials : Dials) : Clock → Instant
  | wall => dials.wall
  | pinned cell => (dials.cell cell).now

def millis (dials : Dials) : Clock → Int
  | wall => dials.wall.millis
  | pinned cell => (dials.cell cell).millis.toInt

def adjust (dials : Dials) (adjustment : Adjustment) : Clock → Except ClockError Dials
  | wall => .error .wallClock
  | pinned cell =>
    .ok { dials with cells := dials.cells.set cell ((dials.cell cell).adjust adjustment) }

end Clock

end AccountView
