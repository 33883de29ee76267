import AccountView.WireTime

namespace AccountView

/-! Wire times in normal form. Instants and the readable wire times in normal form correspond one to
one, and the order of the words is the order in time. -/

theorem Instant.floor_of_subsecond_neg {t : Instant} (h : t.subsecond < 0) :
    t.floorSecond = t.second - 1 ∧ t.floorSubsecond = t.subsecond + nanosPerSecond := by
  have hlt : -nanosPerSecond < t.subsecond := Int.lt_tmod_of_pos t.nanos (by decide)
  have htrunc := t.second_subsecond
  simp only [floorSecond, floorSubsecond, nanosPerSecond] at *
  omega

theorem Instant.floor_of_subsecond_nonneg {t : Instant} (h : 0 ≤ t.subsecond) :
    t.floorSecond = t.second ∧ t.floorSubsecond = t.subsecond := by
  have hlt : t.subsecond < nanosPerSecond := Int.tmod_lt_of_pos t.nanos (by decide)
  have htrunc := t.second_subsecond
  simp only [floorSecond, floorSubsecond, nanosPerSecond] at *
  omega

namespace WireTime

/-- Nanoseconds that take nothing back and fill no second. -/
structure Normal (w : WireTime) : Prop where
  nonneg : 0 ≤ w.nanos.toInt
  lt : w.nanos.toInt < Instant.nanosPerSecond

/-- The words for whole seconds and the nanoseconds they leave. A second is borrowed for
nanoseconds below zero. -/
def borrowing (seconds : Int64) (nanos : Int32) : WireTime :=
  if nanos < 0 then ⟨seconds - 1, nanos + 1000000000⟩ else ⟨seconds, nanos⟩

/-- Rounding down and borrowing from the truncated parts write the same words. -/
theorem ofInstant_eq_borrowing (t : Instant) :
    ofInstant t = borrowing (Int64.ofInt t.second) (Int32.ofInt t.subsecond) := by
  have hlt : t.subsecond < Instant.nanosPerSecond := Int.tmod_lt_of_pos t.nanos (by decide)
  have hneg_lt : -Instant.nanosPerSecond < t.subsecond := Int.lt_tmod_of_pos t.nanos (by decide)
  have hword : (Int32.ofInt t.subsecond).toInt = t.subsecond := by
    simp only [Instant.nanosPerSecond] at hlt hneg_lt
    exact Int32.toInt_ofInt_of_le (by omega) (by omega)
  have hsign : Int32.ofInt t.subsecond < 0 ↔ t.subsecond < 0 := by
    rw [Int32.lt_iff_toInt_lt, hword]
    rfl
  unfold borrowing
  split
  · rename_i h
    obtain ⟨hsecond, hsubsecond⟩ := Instant.floor_of_subsecond_neg (hsign.mp h)
    rw [ofInstant, hsecond, hsubsecond, Int64.ofInt_sub, Int32.ofInt_add]
    rfl
  · rename_i h
    obtain ⟨hsecond, hsubsecond⟩ :=
      Instant.floor_of_subsecond_nonneg (Int.not_lt.mp (mt hsign.mpr h))
    rw [ofInstant, hsecond, hsubsecond]

/-! ### Reading and writing -/

theorem toInstant_eq_ok_iff {w : WireTime} {t : Instant} : w.toInstant = .ok t ↔
    Instant.Parts w.seconds.toInt w.nanos.toInt ∧
      t.nanos = w.seconds.toInt * Instant.nanosPerSecond + w.nanos.toInt := by
  by_cases h : Instant.Parts w.seconds.toInt w.nanos.toInt
  · simp [toInstant, Instant.ofParts?, h, Instant.ext_iff, eq_comm]
  · simp [toInstant, Instant.ofParts?, h]

theorem normal_ofInstant (t : Instant) : (ofInstant t).Normal where
  nonneg := by
    rw [nanos_ofInstant]
    exact t.floorSubsecond_nonneg
  lt := by
    rw [nanos_ofInstant]
    exact t.floorSubsecond_lt

theorem parts_floor (t : Instant) : Instant.Parts t.floorSecond t.floorSubsecond := by
  have hmin := t.minNanos_le
  have hmax := t.le_maxNanos
  have hnonneg := t.floorSubsecond_nonneg
  have hlt := t.floorSubsecond_lt
  have hsum := t.floorSecond_floorSubsecond
  simp only [Instant.minNanos, Instant.maxNanos, Instant.nanosPerSecond] at *
  -- The earliest second is reached by borrowing, never with nanoseconds below zero.
  constructor <;> simp only [Instant.minSecond, Instant.maxSecond, Instant.nanosPerSecond] <;> omega

theorem toInstant_ofInstant (t : Instant) : (ofInstant t).toInstant = .ok t := by
  rw [toInstant_eq_ok_iff, seconds_ofInstant, nanos_ofInstant]
  exact ⟨parts_floor t, t.floorSecond_floorSubsecond.symm⟩

/-- A wire time in normal form is the only one of its instant. -/
theorem Normal.ofInstant_eq {w : WireTime} {t : Instant} (h : w.Normal)
    (readable : w.toInstant = .ok t) : ofInstant t = w := by
  obtain ⟨hnonneg, hlt⟩ := h
  obtain ⟨_, hnanos⟩ := toInstant_eq_ok_iff.mp readable
  have hsecond : t.floorSecond = w.seconds.toInt := by
    simp only [Instant.floorSecond, Instant.nanosPerSecond] at *
    omega
  have hsubsecond : t.floorSubsecond = w.nanos.toInt := by
    simp only [Instant.floorSubsecond, Instant.nanosPerSecond] at *
    omega
  rw [ofInstant, hsecond, hsubsecond, Int64.ofInt_toInt, Int32.ofInt_toInt]

/-! ### Order -/

theorem compare_def (w v : WireTime) : compare w v =
    (compare w.seconds.toInt v.seconds.toInt).then (compare w.nanos.toInt v.nanos.toInt) := rfl

theorem compare_ofInstant (a b : Instant) :
    compare (ofInstant a) (ofInstant b) = compare a.nanos b.nanos := by
  have ha := a.floorSecond_floorSubsecond
  have hb := b.floorSecond_floorSubsecond
  have hanonneg := a.floorSubsecond_nonneg
  have halt := a.floorSubsecond_lt
  have hbnonneg := b.floorSubsecond_nonneg
  have hblt := b.floorSubsecond_lt
  rw [compare_def, seconds_ofInstant, seconds_ofInstant, nanos_ofInstant, nanos_ofInstant]
  simp only [Instant.nanosPerSecond] at *
  cases h : compare a.nanos b.nanos with
  | lt =>
      rw [Int.compare_eq_lt] at h
      rw [Ordering.then_eq_lt, Int.compare_eq_lt, Int.compare_eq_eq, Int.compare_eq_lt]
      omega
  | eq =>
      rw [Int.compare_eq_eq] at h
      rw [Ordering.then_eq_eq, Int.compare_eq_eq, Int.compare_eq_eq]
      omega
  | gt =>
      rw [Int.compare_eq_gt] at h
      rw [Ordering.then_eq_gt, Int.compare_eq_gt, Int.compare_eq_eq, Int.compare_eq_gt]
      omega

theorem ofInstant_inj {a b : Instant} : ofInstant a = ofInstant b ↔ a = b := by
  constructor
  · intro h
    have hread := toInstant_ofInstant a
    rw [h, toInstant_ofInstant, Except.ok.injEq] at hread
    exact hread.symm
  · exact congrArg ofInstant

/-- `ofInstant` and `toInstant` are inverse to each other between all instants and the readable wire
times in normal form, and both keep the order. -/
theorem ofInstant_toInstant_inverse :
    (∀ t, (ofInstant t).Normal ∧ (ofInstant t).toInstant = .ok t ∧
      ofInstant t = borrowing (Int64.ofInt t.second) (Int32.ofInt t.subsecond)) ∧
    (∀ w t, w.Normal → w.toInstant = .ok t → ofInstant t = w) ∧
    (∀ a b, (compare (ofInstant a) (ofInstant b) = .lt ↔ a < b) ∧
      (compare (ofInstant a) (ofInstant b) = .eq ↔ a = b) ∧
      (compare (ofInstant a) (ofInstant b) = .gt ↔ b < a) ∧
      (ofInstant a = ofInstant b ↔ a = b)) := by
  refine ⟨?_, ?_, ?_⟩
  · intro t
    exact ⟨normal_ofInstant t, toInstant_ofInstant t, ofInstant_eq_borrowing t⟩
  · intro w t normal readable
    exact normal.ofInstant_eq readable
  · intro a b
    rw [compare_ofInstant, Int.compare_eq_lt, Int.compare_eq_eq, Int.compare_eq_gt]
    exact ⟨Iff.rfl, Instant.ext_iff.symm, Iff.rfl, ofInstant_inj⟩

/-- The instant after the earliest one borrows the earliest second. -/
theorem ofInstant_toInstant_inverse_afterEarliest :
    Normal ⟨-377705023201, 1⟩ ∧
    ∃ t, toInstant ⟨-377705023201, 1⟩ = .ok t ∧ t.second = -377705023200 ∧
      t.subsecond = -999999999 ∧ ofInstant t = ⟨-377705023201, 1⟩ := by
  have hnormal : Normal ⟨-377705023201, 1⟩ := ⟨by decide, by decide⟩
  have hread : toInstant ⟨-377705023201, 1⟩ =
      .ok ⟨-377705023200999999999, by decide, by decide⟩ := rfl
  exact ⟨hnormal, _, hread, rfl, rfl, ofInstant_toInstant_inverse.2.1 _ _ hnormal hread⟩

end WireTime

end AccountView
