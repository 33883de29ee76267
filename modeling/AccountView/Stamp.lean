import AccountView.Age
import AccountView.LocalTime
import AccountView.WireTime

namespace AccountView

/-! Stamps: wire times that may be absent. A stamp that names no instant is shown as an absent one,
and every question about an absent stamp has a fixed answer. -/

abbrev Stamp := Option WireTime

namespace Stamp

def absentText : String := "-"

def instant? (stamp : Stamp) : Option Instant :=
  stamp.bind WireTime.instant?

theorem instant?_of_toInstant {w : WireTime} {t : Instant} (readable : w.toInstant = .ok t) :
    instant? (some w) = some t := by
  simp [instant?, WireTime.instant?, readable, Except.toOption]

theorem instant?_of_error {w : WireTime} {e : WireTime.OutOfRange}
    (unreadable : w.toInstant = .error e) : instant? (some w) = none := by
  simp [instant?, WireTime.instant?, unreadable, Except.toOption]

def full (stamp : Stamp) (zone : Zone) : String :=
  match stamp.instant? with
  | some t => (t.inZone zone).fullText
  | none => absentText

def date (stamp : Stamp) (zone : Zone) : String :=
  match stamp.instant? with
  | some t => (t.inZone zone).dateText
  | none => absentText

def relative (stamp : Stamp) (now : Instant) (zone : Zone) : String :=
  match stamp.instant? with
  | some t => (Age.ofElapsed (now.nanos - t.nanos)).text (stamp.date zone)
  | none => absentText

/-- Strictly before `now`. An absent expiry has passed. -/
def isExpired (stamp : Stamp) (now : Instant) : Bool :=
  match stamp.instant? with
  | some t => t < now
  | none => true

/-- Whole milliseconds until the stamp, none once it has passed. -/
def remaining (stamp : Stamp) (now : Instant) : Nat :=
  match stamp.instant? with
  | some t => ((t.nanos - now.nanos).tdiv Instant.nanosPerMilli).toNat
  | none => 0

end Stamp

inductive Style where
  | full
  | date
  | relative
  | expiry
  | remaining
  deriving DecidableEq

namespace Style

def all : List Style := [full, date, relative, expiry, remaining]

def name : Style → String
  | full => "full"
  | date => "date"
  | relative => "relative"
  | expiry => "expiry"
  | remaining => "remaining"

def ofName? (name : String) : Option Style :=
  all.find? (·.name == name)

theorem mem_all (style : Style) : style ∈ all := by
  cases style <;> decide

end Style

namespace Stamp

def expiredText : String := "已过期"

def notExpiredText : String := "未过期"

def render (stamp : Stamp) (style : Style) (now : Instant) (zone : Zone) : String :=
  match style with
  | .full => stamp.full zone
  | .date => stamp.date zone
  | .relative => stamp.relative now zone
  | .expiry => if stamp.isExpired now then expiredText else notExpiredText
  | .remaining => toString (stamp.remaining now)

end Stamp

end AccountView
