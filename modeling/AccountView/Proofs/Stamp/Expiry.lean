import AccountView.Proofs.Stamp.Elapsed

namespace AccountView

/-! Expiry and the time left. One compares two instants, the other counts whole milliseconds
between them, and the two agree to the nanosecond. -/

namespace Stamp

variable {stamp : Stamp} {t : Instant}

theorem isExpired_of_instant? (h : stamp.instant? = some t) (now : Instant) :
    stamp.isExpired now = decide (t < now) := by
  rw [isExpired, h]

theorem isExpired_of_none (h : stamp.instant? = none) (now : Instant) :
    stamp.isExpired now = true := by
  rw [isExpired, h]

theorem isExpired_iff_lt (h : stamp.instant? = some t) {now : Instant} :
    stamp.isExpired now = true ↔ t.nanos < now.nanos := by
  rw [isExpired_of_instant? h, decide_eq_true_eq, Instant.lt_def]

theorem not_isExpired_iff_le (h : stamp.instant? = some t) {now : Instant} :
    stamp.isExpired now = false ↔ now.nanos ≤ t.nanos := by
  rw [isExpired_of_instant? h, decide_eq_false_iff_not, Instant.lt_def, Int.not_lt]

theorem remaining_of_none (h : stamp.instant? = none) (now : Instant) :
    stamp.remaining now = 0 := by
  rw [remaining, h]

/-! ### Counting in words -/

/-- Whole milliseconds until `t`, toward zero, so they count below zero once it has passed. -/
def millisUntil (t now : Instant) : Int := (t.nanos - now.nanos).tdiv Instant.nanosPerMilli

/-- A count as a word without sign, if one holds it. -/
def word? (count : Int) : Option UInt64 :=
  if 0 ≤ count ∧ count < UInt64.size then some (.ofNat count.toNat) else none

theorem word?_eq_none_iff {count : Int} : word? count = none ↔ count < 0 ∨ UInt64.size ≤ count := by
  rw [word?, ite_eq_right_iff]
  simp only [reduceCtorEq, imp_false]
  omega

/-- What no word holds counts as nothing, and below zero nothing is what is left. -/
theorem toNat_getD_word? {count : Int} (h : count < UInt64.size) :
    ((word? count).getD 0).toNat = count.toNat := by
  rw [word?]
  split
  · have hfits : count.toNat < UInt64.size := by omega
    exact UInt64.toNat_ofNat_of_lt' hfits
  · have hnone : count.toNat = 0 := by omega
    rw [hnone]
    rfl

theorem remaining_of_instant? (h : stamp.instant? = some t) (now : Instant) :
    stamp.remaining now = (millisUntil t now).toNat := by
  rw [remaining, h]
  rfl

/-- Even from the earliest instant to the latest the milliseconds fit into a word. -/
theorem millisUntil_lt (t now : Instant) : millisUntil t now < UInt64.size := by
  have hmax := t.le_maxNanos
  have hmin := now.minNanos_le
  have hspan : t.nanos - now.nanos ≤ Instant.maxNanos - Instant.minNanos := by omega
  have hmillis : millisUntil t now ≤
      (Instant.maxNanos - Instant.minNanos).tdiv Instant.nanosPerMilli :=
    Int.tdiv_le_tdiv (by decide) hspan
  exact Int.lt_of_le_of_lt hmillis (by decide)

theorem millisUntil_neg_iff {t now : Instant} :
    millisUntil t now < 0 ↔ t.nanos - now.nanos ≤ -Instant.nanosPerMilli := by
  rw [millisUntil, Instant.tdiv_nanosPerMilli]
  simp only [Instant.nanosPerMilli]
  split <;> omega

/-! ### Agreement -/

/-- The time left is that until `t`, a word is wide enough to count it, and expiry comes within the
millisecond that follows it. -/
structure CountsDown (stamp : Stamp) (t now : Instant) : Prop where
  remaining : (stamp.remaining now : Int) =
    max 0 ((t.nanos - now.nanos) / Instant.nanosPerMilli)
  word : stamp.remaining now = ((word? (millisUntil t now)).getD 0).toNat
  no_word : word? (millisUntil t now) = none ↔ t.nanos - now.nanos ≤ -Instant.nanosPerMilli
  expired : stamp.isExpired now = true → stamp.remaining now = 0
  last : stamp.remaining now = 0 ∧ stamp.isExpired now = false ↔
    0 ≤ t.nanos - now.nanos ∧ t.nanos - now.nanos < Instant.nanosPerMilli
  lasts : stamp.isExpired now = false → ∀ later, now ≤ later →
    later.nanos ≤ now.nanos + stamp.remaining now * Instant.nanosPerMilli →
      stamp.isExpired later = false
  ends : stamp.isExpired now = false → ∀ later : Instant,
    now.nanos + (stamp.remaining now + 1) * Instant.nanosPerMilli ≤ later.nanos →
      stamp.isExpired later = true

theorem remaining_eq_max (h : stamp.instant? = some t) (now : Instant) :
    (stamp.remaining now : Int) = max 0 ((t.nanos - now.nanos) / Instant.nanosPerMilli) := by
  rw [remaining_of_instant? h, millisUntil, Age.toNat_tdiv _ (by decide), Int.ofNat_toNat,
    Int.max_comm]

theorem countsDown_of_instant? (h : stamp.instant? = some t) (now : Instant) :
    CountsDown stamp t now := by
  have hremaining := remaining_eq_max h now
  constructor
  case remaining => exact hremaining
  case word => rw [remaining_of_instant? h, toNat_getD_word? (millisUntil_lt t now)]
  case no_word =>
    have hfits := millisUntil_lt t now
    rw [word?_eq_none_iff, ← millisUntil_neg_iff]
    omega
  case expired =>
    rw [isExpired_iff_lt h]
    simp only [Instant.nanosPerMilli] at hremaining
    omega
  case last =>
    rw [not_isExpired_iff_le h]
    simp only [Instant.nanosPerMilli] at hremaining ⊢
    omega
  case lasts =>
    intro hahead later _ hlater
    rw [not_isExpired_iff_le h] at hahead ⊢
    simp only [Instant.nanosPerMilli] at hremaining hlater
    omega
  case ends =>
    intro hahead later hlater
    rw [not_isExpired_iff_le h] at hahead
    rw [isExpired_iff_lt h]
    simp only [Instant.nanosPerMilli] at hremaining hlater
    omega

/-- An age is told only of what has passed. -/
theorem isExpired_of_relative_ne {now : Instant} {zone : Zone}
    (h : stamp.relative now zone ≠ "刚刚") : stamp.isExpired now = true := by
  cases hinstant : stamp.instant? with
  | none => exact isExpired_of_none hinstant now
  | some t =>
      rw [isExpired_iff_lt hinstant]
      refine Int.not_le.mp fun hahead => h ?_
      have hyoung : now.nanos - t.nanos < Age.nanosPerMinute := by
        simp only [Age.nanosPerMinute]
        omega
      rw [relative, hinstant]
      exact (Age.tells_ofElapsed _ _).justNow hyoung

/-- How expiry, the time left and the age of a stamp go together. -/
structure ExpiryAgrees (stamp : Stamp) (now : Instant) : Prop where
  readable : ∀ t, stamp.instant? = some t → CountsDown stamp t now
  unreadable : stamp.instant? = none → stamp.isExpired now = true ∧ stamp.remaining now = 0
  relative : ∀ zone, stamp.relative now zone ≠ "刚刚" → stamp.isExpired now = true

theorem expiryAgrees (stamp : Stamp) (now : Instant) : ExpiryAgrees stamp now where
  readable _ h := countsDown_of_instant? h now
  unreadable h := ⟨isExpired_of_none h now, remaining_of_none h now⟩
  relative _ h := isExpired_of_relative_ne h

/-- A stamp one nanosecond before 1970, seen a nanosecond less than a millisecond ahead of it:
nothing is left, it holds for now, and a millisecond later it has expired. -/
theorem expiryAgrees_lastMilli :
    remaining (some ⟨-1, 999999999⟩) ⟨-1000000, by decide, by decide⟩ = 0 ∧
    isExpired (some ⟨-1, 999999999⟩) ⟨-1000000, by decide, by decide⟩ = false ∧
    isExpired (some ⟨-1, 999999999⟩) ⟨0, by decide, by decide⟩ = true := by
  have hinstant : instant? (some ⟨-1, 999999999⟩) = some ⟨-1, by decide, by decide⟩ := rfl
  have hdown := (expiryAgrees (some ⟨-1, 999999999⟩) ⟨-1000000, by decide, by decide⟩).readable
    _ hinstant
  obtain ⟨hnone, hahead⟩ := hdown.last.mpr (by decide)
  refine ⟨hnone, hahead, hdown.ends hahead ⟨0, by decide, by decide⟩ ?_⟩
  rw [hnone]
  decide

end Stamp

end AccountView
