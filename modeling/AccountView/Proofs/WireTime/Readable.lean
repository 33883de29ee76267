import AccountView.Proofs.WireTime

namespace AccountView

/-! Which wire times name an instant, and which one. Reading them rounds nothing, and an instant is
written back in the same words unless its nanoseconds were below zero. -/

namespace WireTime

variable {w v : WireTime} {t : Instant}

/-- What the two words count together, in nanoseconds. -/
def count (w : WireTime) : Int := w.seconds.toInt * 1000000000 + w.nanos.toInt

structure Readable (w : WireTime) : Prop where
  le_seconds : -377705023201 ≤ w.seconds.toInt
  seconds_le : w.seconds.toInt ≤ 253402207200
  natAbs_nanos_le : w.nanos.toInt.natAbs ≤ 999999999
  not_before : ¬ (w.seconds.toInt = -377705023201 ∧ w.nanos.toInt < 0)

theorem readable_iff_parts :
    w.Readable ↔ Instant.Parts w.seconds.toInt w.nanos.toInt := by
  constructor
  · rintro ⟨hmin, hmax, hnanos, hbefore⟩
    constructor <;>
      simp only [Instant.minSecond, Instant.maxSecond, Instant.nanosPerSecond] <;> omega
  · rintro ⟨hmin, hmax, hneg, hlt, hfirst⟩
    simp only [Instant.minSecond, Instant.maxSecond, Instant.nanosPerSecond] at *
    constructor <;> omega

/-! ### Reading -/

theorem toInstant_eq_ok_iff_readable : w.toInstant = .ok t ↔ w.Readable ∧ t.nanos = w.count := by
  rw [toInstant_eq_ok_iff, readable_iff_parts]
  rfl

theorem toInstant_eq_error_iff {e : OutOfRange} :
    w.toInstant = .error e ↔ ¬ w.Readable ∧ e = ⟨w.seconds, w.nanos⟩ := by
  rw [readable_iff_parts]
  by_cases h : Instant.Parts w.seconds.toInt w.nanos.toInt
  · simp [toInstant, Instant.ofParts?, h]
  · simp [toInstant, Instant.ofParts?, h, eq_comm]

theorem exists_ok_iff_readable : (∃ t, w.toInstant = .ok t) ↔ w.Readable := by
  constructor
  · rintro ⟨t, hok⟩
    exact (toInstant_eq_ok_iff_readable.mp hok).1
  · intro h
    cases hread : w.toInstant with
    | ok t => exact ⟨t, rfl⟩
    | error e => exact absurd h (toInstant_eq_error_iff.mp hread).1

theorem exists_error_iff_not_readable : (∃ e, w.toInstant = .error e) ↔ ¬ w.Readable := by
  constructor
  · rintro ⟨e, herror⟩
    exact (toInstant_eq_error_iff.mp herror).1
  · intro h
    exact ⟨_, toInstant_eq_error_iff.mpr ⟨h, rfl⟩⟩

/-- In normal form the count alone decides. -/
theorem Normal.readable_iff (h : w.Normal) :
    w.Readable ↔ Instant.minNanos ≤ w.count ∧ w.count ≤ Instant.maxNanos := by
  obtain ⟨hnonneg, hlt⟩ := h
  simp only [Instant.minNanos, Instant.maxNanos, Instant.nanosPerSecond, count] at *
  constructor
  · rintro ⟨hmin, hmax, _, _⟩
    omega
  · rintro ⟨hmin, hmax⟩
    constructor <;> omega

/-- The count is that of the latest instant, but the second has passed. -/
example : toInstant ⟨253402207201, -1⟩ = .error ⟨253402207201, -1⟩ := rfl

/-! ### Writing back -/

theorem count_eq_of_toInstant_eq (h : w.toInstant = .ok t) : w.count = t.nanos :=
  (toInstant_eq_ok_iff_readable.mp h).2.symm

theorem Normal.toInstant_eq_ok (h : w.Normal) (hcount : w.count = t.nanos) :
    w.toInstant = .ok t := by
  rw [toInstant_eq_ok_iff_readable, h.readable_iff, hcount]
  exact ⟨⟨t.minNanos_le, t.le_maxNanos⟩, rfl⟩

theorem normal_iff_of_readable (h : w.Readable) : w.Normal ↔ 0 ≤ w.nanos.toInt := by
  constructor
  · exact Normal.nonneg
  · intro hnonneg
    have hnanos := h.natAbs_nanos_le
    refine ⟨hnonneg, ?_⟩
    rw [Instant.nanosPerSecond]
    omega

/-- `v` says in normal form what `w` says, and no other words in normal form do. -/
structure NormalFormOf (w v : WireTime) : Prop where
  normal : v.Normal
  toInstant : v.toInstant = w.toInstant
  unique : ∀ u : WireTime, u.Normal → u.count = w.count → u = v
  eq_iff : v = w ↔ 0 ≤ w.nanos.toInt

theorem normalFormOf_ofInstant (h : w.toInstant = .ok t) : NormalFormOf w (ofInstant t) where
  normal := normal_ofInstant t
  toInstant := (toInstant_ofInstant t).trans h.symm
  unique := by
    intro u hnormal hcount
    rw [count_eq_of_toInstant_eq h] at hcount
    exact (hnormal.ofInstant_eq (hnormal.toInstant_eq_ok hcount)).symm
  eq_iff := by
    have hreadable : w.Readable := (toInstant_eq_ok_iff_readable.mp h).1
    rw [← normal_iff_of_readable hreadable]
    constructor
    · intro heq
      rw [← heq]
      exact normal_ofInstant t
    · intro hnormal
      exact hnormal.ofInstant_eq h

/-- Just the words in range are read, as what they count together, and all others are handed back in
the fault. -/
structure ReadExactly (w : WireTime) : Prop where
  ok_iff : (∃ t, w.toInstant = .ok t) ↔ w.Readable
  nanos : ∀ t, w.toInstant = .ok t → t.nanos = w.count
  error : ¬ w.Readable → w.toInstant = .error ⟨w.seconds, w.nanos⟩
  error_iff : w.Normal → ((∃ e, w.toInstant = .error e) ↔
    w.count < Instant.minNanos ∨ Instant.maxNanos < w.count)
  writtenBack : ∀ t, w.toInstant = .ok t → NormalFormOf w (ofInstant t) ∧
    ofInstant t = borrowing (Int64.ofInt t.second) (Int32.ofInt t.subsecond)

theorem readExactly (w : WireTime) : ReadExactly w where
  ok_iff := exists_ok_iff_readable
  nanos t h := (count_eq_of_toInstant_eq h).symm
  error h := toInstant_eq_error_iff.mpr ⟨h, rfl⟩
  error_iff := by
    intro hnormal
    rw [exists_error_iff_not_readable, hnormal.readable_iff]
    omega
  writtenBack t h := ⟨normalFormOf_ofInstant h, ofInstant_eq_borrowing t⟩

end WireTime

end AccountView
