namespace AccountView

/-! Time left, in whole days, hours and minutes. -/

structure Countdown where
  days : Nat
  hours : Nat
  minutes : Nat
  deriving DecidableEq

namespace Countdown

def millisPerMinute : Nat := 60000

def millisPerHour : Nat := 60 * millisPerMinute

def millisPerDay : Nat := 24 * millisPerHour

/-- A minute that is not full is dropped. -/
def ofMillis (millis : Nat) : Countdown where
  days := millis / millisPerDay
  hours := millis % millisPerDay / millisPerHour
  minutes := millis % millisPerHour / millisPerMinute

theorem hours_lt (millis : Nat) : (ofMillis millis).hours < 24 := by
  simp only [ofMillis, millisPerDay, millisPerHour, millisPerMinute]
  omega

theorem minutes_lt (millis : Nat) : (ofMillis millis).minutes < 60 := by
  simp only [ofMillis, millisPerHour, millisPerMinute]
  omega

theorem total_minutes (millis : Nat) : (ofMillis millis).days * 1440 +
    (ofMillis millis).hours * 60 + (ofMillis millis).minutes = millis / millisPerMinute := by
  simp only [ofMillis, millisPerDay, millisPerHour, millisPerMinute]
  omega

def text (c : Countdown) : String :=
  toString c.days ++ "天" ++ toString c.hours ++ "小时" ++ toString c.minutes ++ "分钟"

end Countdown

end AccountView
