namespace AccountView

/-! Instants: whole nanoseconds since the start of 1970 in UTC. Every other view of an instant
(seconds, milliseconds, the pair of parts) is a function of that one count. -/

namespace Instant

/-- The earliest instant: at the offset furthest west the year -9999 begins here. -/
def minNanos : Int := -377705023201000000000

/-- The latest instant: at the offset furthest east the year 9999 ends here. -/
def maxNanos : Int := 253402207200999999999

end Instant

@[ext] structure Instant where
  nanos : Int
  minNanos_le : Instant.minNanos ≤ nanos
  le_maxNanos : nanos ≤ Instant.maxNanos
  deriving DecidableEq

namespace Instant

instance : LE Instant := ⟨fun a b => a.nanos ≤ b.nanos⟩

instance : LT Instant := ⟨fun a b => a.nanos < b.nanos⟩

theorem le_def {a b : Instant} : a ≤ b ↔ a.nanos ≤ b.nanos := Iff.rfl

theorem lt_def {a b : Instant} : a < b ↔ a.nanos < b.nanos := Iff.rfl

instance (a b : Instant) : Decidable (a ≤ b) := inferInstanceAs (Decidable (a.nanos ≤ b.nanos))

instance (a b : Instant) : Decidable (a < b) := inferInstanceAs (Decidable (a.nanos < b.nanos))

def earliest : Instant := ⟨minNanos, by decide, by decide⟩

def latest : Instant := ⟨maxNanos, by decide, by decide⟩

instance : Inhabited Instant := ⟨⟨0, by decide, by decide⟩⟩

def ofNanos? (nanos : Int) : Option Instant :=
  if h : minNanos ≤ nanos ∧ nanos ≤ maxNanos then some ⟨nanos, h.1, h.2⟩ else none

/-- The instant nearest to a count that may lie outside the range. -/
def clamp (nanos : Int) : Instant :=
  ⟨max minNanos (min nanos maxNanos), by omega, by simp only [minNanos, maxNanos]; omega⟩

@[simp] theorem nanos_clamp (nanos : Int) :
    (clamp nanos).nanos = max minNanos (min nanos maxNanos) := rfl

@[simp] theorem clamp_nanos (t : Instant) : clamp t.nanos = t := by
  have := t.minNanos_le
  have := t.le_maxNanos
  ext
  simp only [nanos_clamp]
  omega

theorem ofNanos?_eq_some_iff {nanos : Int} {t : Instant} :
    ofNanos? nanos = some t ↔ t.nanos = nanos := by
  unfold ofNanos?
  split
  · rw [Option.some.injEq, Instant.ext_iff]
    exact eq_comm
  · rename_i h
    constructor
    · simp
    · intro heq
      exact absurd ⟨heq ▸ t.minNanos_le, heq ▸ t.le_maxNanos⟩ h

def nanosPerSecond : Int := 1000000000

def nanosPerMilli : Int := 1000000

def minSecond : Int := -377705023201

def maxSecond : Int := 253402207200

/-- The pairs of seconds and nanoseconds that name an instant. The two parts may differ in sign,
and only the earliest second admits no negative part. -/
structure Parts (second nanosecond : Int) : Prop where
  minSecond_le : minSecond ≤ second
  le_maxSecond : second ≤ maxSecond
  neg_lt : -nanosPerSecond < nanosecond
  lt : nanosecond < nanosPerSecond
  of_eq_minSecond : second = minSecond → 0 ≤ nanosecond

theorem parts_iff {second nanosecond : Int} : Parts second nanosecond ↔
    (minSecond ≤ second ∧ second ≤ maxSecond) ∧
      (-nanosPerSecond < nanosecond ∧ nanosecond < nanosPerSecond) ∧
        (second = minSecond → 0 ≤ nanosecond) :=
  ⟨fun h => ⟨⟨h.1, h.2⟩, ⟨h.3, h.4⟩, h.5⟩, fun h => ⟨h.1.1, h.1.2, h.2.1.1, h.2.1.2, h.2.2⟩⟩

instance (second nanosecond : Int) : Decidable (Parts second nanosecond) :=
  decidable_of_iff _ parts_iff.symm

theorem Parts.range {second nanosecond : Int} (h : Parts second nanosecond) :
    minNanos ≤ second * nanosPerSecond + nanosecond ∧
      second * nanosPerSecond + nanosecond ≤ maxNanos := by
  obtain ⟨h₁, h₂, h₃, h₄, h₅⟩ := h
  simp only [minNanos, maxNanos, minSecond, maxSecond, nanosPerSecond] at *
  omega

def ofParts? (second nanosecond : Int) : Option Instant :=
  if h : Parts second nanosecond then
    some ⟨second * nanosPerSecond + nanosecond, h.range.1, h.range.2⟩
  else
    none

/-- Whole seconds, toward the start of 1970. -/
def second (t : Instant) : Int := t.nanos.tdiv nanosPerSecond

/-- What `second` leaves, with the sign of the instant. -/
def subsecond (t : Instant) : Int := t.nanos.tmod nanosPerSecond

theorem second_subsecond (t : Instant) : t.second * nanosPerSecond + t.subsecond = t.nanos := by
  unfold second subsecond
  rw [Int.mul_comm]
  exact Int.mul_tdiv_add_tmod ..

/-- Whole seconds, toward the past. -/
def floorSecond (t : Instant) : Int := t.nanos / nanosPerSecond

/-- What `floorSecond` leaves, never negative. -/
def floorSubsecond (t : Instant) : Int := t.nanos % nanosPerSecond

theorem floorSubsecond_nonneg (t : Instant) : 0 ≤ t.floorSubsecond := by
  simp only [floorSubsecond, nanosPerSecond]
  omega

theorem floorSubsecond_lt (t : Instant) : t.floorSubsecond < nanosPerSecond := by
  simp only [floorSubsecond, nanosPerSecond]
  omega

theorem floorSecond_floorSubsecond (t : Instant) :
    t.floorSecond * nanosPerSecond + t.floorSubsecond = t.nanos := by
  simp only [floorSecond, floorSubsecond, nanosPerSecond]
  omega

/-- Whole milliseconds, toward the start of 1970. -/
def millis (t : Instant) : Int := t.nanos.tdiv nanosPerMilli

/-- Truncation toward zero is the floor above zero and the ceiling below it. -/
theorem tdiv_nanosPerMilli (nanos : Int) : nanos.tdiv nanosPerMilli =
    if 0 ≤ nanos then nanos / nanosPerMilli else -(-nanos / nanosPerMilli) := by
  split
  · rename_i h
    exact Int.tdiv_eq_ediv_of_nonneg h
  · rename_i h
    have hneg : 0 ≤ -nanos := by omega
    rw [← Int.tdiv_eq_ediv_of_nonneg hneg, Int.neg_tdiv, Int.neg_neg]

theorem millis_eq (t : Instant) : t.millis =
    if 0 ≤ t.nanos then t.nanos / nanosPerMilli else -(-t.nanos / nanosPerMilli) :=
  tdiv_nanosPerMilli t.nanos

end Instant

end AccountView
