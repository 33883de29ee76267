import AccountView.Clock.Handles
import AccountView.Profile
import AccountView.Storage

namespace AccountView

/-! Sessions: adjustments of one clock and questions asked from a viewpoint that may share it, with
a current account that documents replace. Questions change nothing. -/

structure Session where
  dials : Dials
  /-- The clock that adjustments go through. -/
  handle : Clock
  view : Viewpoint
  account : Account := {}

namespace Session

/-- A question that changes nothing. -/
inductive Query where
  | now
  | zone
  | full (stamp : Stamp)
  | date (stamp : Stamp)
  | relative (stamp : Stamp)
  | isExpired (stamp : Stamp)
  | remaining (stamp : Stamp)
  | render (time : WireTime) (style : Style)
  | profile (account : Account)

/-- A zone is told by the offset it has at present. -/
inductive Answer where
  | instant (t : Instant)
  | offset (offset : Offset)
  | text (s : String)
  | truth (b : Bool)
  | count (n : Nat)
  | profile (p : Profile)
  deriving DecidableEq

/-- The answer at a given present instant in a given zone. -/
def Query.answerAt (now : Instant) (zone : Zone) : Query → Answer
  | .now => .instant now
  | .zone => .offset (zone.offsetAt now)
  | .full stamp => .text (Stamp.full stamp zone)
  | .date stamp => .text (Stamp.date stamp zone)
  | .relative stamp => .text (Stamp.relative stamp now zone)
  | .isExpired stamp => .truth (Stamp.isExpired stamp now)
  | .remaining stamp => .count (Stamp.remaining stamp now)
  | .render time style => .text (Stamp.render (some time) style now zone)
  | .profile account => .profile (.ofAccount account now zone)

def Query.answer (view : Viewpoint) (dials : Dials) : Query → Answer
  | .now => .instant (view.now dials)
  | .zone => .offset (view.zone.offsetAt (view.now dials))
  | .full stamp => .text (view.full stamp)
  | .date stamp => .text (view.date stamp)
  | .relative stamp => .text (view.relative dials stamp)
  | .isExpired stamp => .truth (view.isExpired dials stamp)
  | .remaining stamp => .count (view.remaining dials stamp)
  | .render time style => .text (view.render dials time style)
  | .profile account => .profile (view.profile dials account)

inductive Step where
  | adjust (adjustment : Adjustment)
  | ask (query : Query)
  | askProfile
  | load (contents : ByteArray)

inductive Failure where
  | clock (e : ClockError)
  | load (e : LoadFailure)
  deriving DecidableEq

inductive Event where
  | adjusted (now : Instant) (millis : Int)
  | answered (answer : Answer)
  | loaded (account : Account)
  | failed (failure : Failure)
  deriving DecidableEq

/-- A session on a new clock, which the viewpoint shares. -/
def start (wall : Instant) (source : ClockSource) (zone : Zone) : Session :=
  let (clock, dials) := Dials.start ⟨wall, []⟩ source
  { dials, handle := clock, view := ⟨clock, zone⟩ }

/-- The same session seen by the wall clock in UTC. -/
def byWallClock (session : Session) : Session :=
  { session with view := ⟨.wall, .utc⟩ }

/-- A step that fails leaves the session as it was. -/
def step (session : Session) : Step → Event × Session
  | .adjust adjustment =>
    match session.handle.adjust session.dials adjustment with
    | .ok dials =>
      (.adjusted (session.view.now dials) (session.view.clock.millis dials), { session with dials })
    | .error e => (.failed (.clock e), session)
  | .ask query => (.answered (query.answer session.view session.dials), session)
  | .askProfile =>
    (.answered ((Query.profile session.account).answer session.view session.dials), session)
  | .load contents =>
    match Account.ofBytes contents with
    | .ok account => (.loaded account, { session with account })
    | .error e => (.failed (.load e), session)

def run (session : Session) : List Step → List Event
  | [] => []
  | s :: steps =>
    let (event, session) := session.step s
    event :: session.run steps

end Session

end AccountView
