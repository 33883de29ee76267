import AccountView.Instant

namespace AccountView

/-! Readings of pinned clocks, in whole milliseconds. Any word may be held, but only those of the
readable range convert to an instant and back. -/

structure Reading where
  millis : Int64
  deriving DecidableEq, Inhabited

namespace Reading

/-- The first millisecond of the earliest second. -/
def minMillis : Int := -377705023201000

/-- The start of the latest second. The rest of that second has no reading of its own. -/
def maxMillis : Int := 253402207200000

/-- A reading that an instant shows as a whole millisecond. -/
structure Readable (r : Reading) : Prop where
  minMillis_le : minMillis ≤ r.millis.toInt
  le_maxMillis : r.millis.toInt ≤ maxMillis

theorem readable_iff {r : Reading} :
    r.Readable ↔ minMillis ≤ r.millis.toInt ∧ r.millis.toInt ≤ maxMillis :=
  ⟨fun h => ⟨h.1, h.2⟩, fun h => ⟨h.1, h.2⟩⟩

instance (r : Reading) : Decidable r.Readable := decidable_of_iff _ readable_iff.symm

theorem Readable.range {r : Reading} (h : r.Readable) :
    Instant.minNanos ≤ r.millis.toInt * Instant.nanosPerMilli ∧
      r.millis.toInt * Instant.nanosPerMilli ≤ Instant.maxNanos := by
  obtain ⟨h₁, h₂⟩ := h
  simp only [minMillis, maxMillis, Instant.minNanos, Instant.maxNanos, Instant.nanosPerMilli] at *
  omega

/-- The instant shown. Past either end of the readable range it is that end of all instants. -/
def now (r : Reading) : Instant :=
  if h : r.Readable then
    ⟨r.millis.toInt * Instant.nanosPerMilli, h.range.1, h.range.2⟩
  else if 0 < r.millis.toInt then
    .latest
  else
    .earliest

def ofInstant (t : Instant) : Reading :=
  ⟨Int64.ofInt (max minMillis (min t.millis maxMillis))⟩

def advance (r : Reading) (nanos : Nat) : Reading :=
  ofInstant (.clamp (r.now.nanos + nanos))

def decrease (r : Reading) (nanos : Nat) : Reading :=
  ofInstant (.clamp (r.now.nanos - nanos))

theorem nanos_now {r : Reading} (h : r.Readable) :
    r.now.nanos = r.millis.toInt * Instant.nanosPerMilli := by
  simp only [now, h, dif_pos]

theorem millis_now {r : Reading} (h : r.Readable) : r.now.millis = r.millis.toInt := by
  rw [Instant.millis, nanos_now h]
  exact Int.mul_tdiv_cancel _ (by decide)

theorem millis_ofInstant (t : Instant) :
    (ofInstant t).millis.toInt = max minMillis (min t.millis maxMillis) := by
  refine Int64.toInt_ofInt_of_le ?_ ?_ <;> simp only [minMillis, maxMillis] <;> omega

theorem readable_ofInstant (t : Instant) : (ofInstant t).Readable := by
  rw [readable_iff, millis_ofInstant]
  simp only [minMillis, maxMillis]
  omega

theorem ofInstant_now {r : Reading} (h : r.Readable) : ofInstant r.now = r := by
  obtain ⟨h₁, h₂⟩ := h
  have hword : max minMillis (min r.now.millis maxMillis) = r.millis.toInt := by
    rw [millis_now ⟨h₁, h₂⟩]
    omega
  rw [ofInstant, hword, Int64.ofInt_toInt]

end Reading

end AccountView
