import AccountView.Clock.Basic
import AccountView.Stamp

namespace AccountView

/-! Viewpoints: stamps seen by the time of one clock in one zone. Each answer is that of `Stamp` at
the clock's present instant. -/

structure Viewpoint where
  clock : Clock
  zone : Zone
  deriving Inhabited

namespace Viewpoint

def now (view : Viewpoint) (dials : Dials) : Instant :=
  view.clock.now dials

def full (view : Viewpoint) (stamp : Stamp) : String :=
  Stamp.full stamp view.zone

def date (view : Viewpoint) (stamp : Stamp) : String :=
  Stamp.date stamp view.zone

def relative (view : Viewpoint) (dials : Dials) (stamp : Stamp) : String :=
  Stamp.relative stamp (view.now dials) view.zone

def isExpired (view : Viewpoint) (dials : Dials) (stamp : Stamp) : Bool :=
  Stamp.isExpired stamp (view.now dials)

def remaining (view : Viewpoint) (dials : Dials) (stamp : Stamp) : Nat :=
  Stamp.remaining stamp (view.now dials)

def render (view : Viewpoint) (dials : Dials) (w : WireTime) (style : Style) : String :=
  Stamp.render (some w) style (view.now dials) view.zone

end Viewpoint

end AccountView
