import AccountView.Instant

namespace AccountView

/-! Instants as a service sends them: a count of seconds and a count of nanoseconds to add. Any two
words may arrive; `toInstant` refuses those that name no instant, and `ofInstant` writes an instant
with nanoseconds that are never negative. -/

structure WireTime where
  seconds : Int64
  nanos : Int32
  deriving DecidableEq, Inhabited

namespace WireTime

structure OutOfRange where
  seconds : Int64
  nanos : Int32
  deriving DecidableEq

def OutOfRange.message (e : OutOfRange) : String :=
  "timestamp out of range: " ++ toString e.seconds.toInt ++ " seconds, " ++
    toString e.nanos.toInt ++ " nanoseconds"

def toInstant (w : WireTime) : Except OutOfRange Instant :=
  match Instant.ofParts? w.seconds.toInt w.nanos.toInt with
  | some t => .ok t
  | none => .error ⟨w.seconds, w.nanos⟩

def instant? (w : WireTime) : Option Instant :=
  w.toInstant.toOption

def ofInstant (t : Instant) : WireTime :=
  ⟨Int64.ofInt t.floorSecond, Int32.ofInt t.floorSubsecond⟩

instance : Ord WireTime where
  compare a b :=
    (compare a.seconds.toInt b.seconds.toInt).then (compare a.nanos.toInt b.nanos.toInt)

theorem seconds_ofInstant (t : Instant) : (ofInstant t).seconds.toInt = t.floorSecond := by
  have := t.minNanos_le
  have := t.le_maxNanos
  simp only [Instant.minNanos, Instant.maxNanos] at *
  refine Int64.toInt_ofInt_of_le ?_ ?_ <;>
    simp only [Instant.floorSecond, Instant.nanosPerSecond] <;> omega

theorem nanos_ofInstant (t : Instant) : (ofInstant t).nanos.toInt = t.floorSubsecond := by
  have := t.floorSubsecond_nonneg
  have := t.floorSubsecond_lt
  simp only [Instant.nanosPerSecond] at *
  refine Int32.toInt_ofInt_of_le ?_ ?_ <;> omega

end WireTime

end AccountView
