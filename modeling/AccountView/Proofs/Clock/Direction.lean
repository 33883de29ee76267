import AccountView.Proofs.Clock.Exact
import AccountView.Proofs.Clock.Forward
import AccountView.Proofs.Clock.Landing
import AccountView.Proofs.Stamp.Expiry
import AccountView.Proofs.Stamp.Passing
import AccountView.Proofs.WireTime

namespace AccountView

/-! Which way a pinned clock goes when it is advanced or turned back, whatever word it holds. A word
past the range shows the latest instant, but no adjustment leaves a clock later than the start of
the latest second. -/

namespace Reading

variable {r : Reading}

/-- Pinning a clock anew at what it shows never takes it forward. -/
theorem shown_now_le (r : Reading) : r.now.shown ≤ r.now := by
  by_cases hmin : r.millis.toInt < minMillis
  · rw [now_of_lt hmin]
    decide
  by_cases hmax : maxMillis < r.millis.toInt
  · rw [now_of_gt hmax]
    exact Instant.le_maxNanos _
  · have hreadable : r.Readable := ⟨Int.not_lt.mp hmin, Int.not_lt.mp hmax⟩
    rw [shown_now hreadable]
    exact Int.le_refl _

theorem now_decrease_le (r : Reading) (nanos : Nat) : (r.decrease nanos).now ≤ r.now := by
  have hback : (Instant.clamp (r.now.nanos - nanos)).shown ≤ r.now.shown :=
    Instant.shown_mono (r.now.clamp_sub_le nanos)
  exact Int.le_trans hback r.shown_now_le

theorem millis_advance_of_gt (h : maxMillis < r.millis.toInt) (nanos : Nat) :
    (r.advance nanos).millis.toInt = maxMillis := by
  have hle : Instant.maxNanos.tdiv Instant.nanosPerMilli ≤
      (Instant.maxNanos + nanos).tdiv Instant.nanosPerMilli :=
    Int.tdiv_le_tdiv (by decide) (by omega)
  have hlast : Instant.maxNanos.tdiv Instant.nanosPerMilli = maxMillis + 999 := by decide
  rw [advance, now_of_gt h, millis_ofInstant_clamp]
  simp only [Instant.latest, minMillis, maxMillis] at hle hlast ⊢
  omega

theorem nanos_advance_of_gt (h : maxMillis < r.millis.toInt) (nanos : Nat) :
    (r.advance nanos).now.nanos = maxMillis * Instant.nanosPerMilli := by
  have hreadable : (r.advance nanos).Readable := readable_ofInstant _
  rw [nanos_now hreadable, millis_advance_of_gt h]

theorem le_now_advance_iff (r : Reading) (nanos : Nat) :
    r.now ≤ (r.advance nanos).now ↔ r.millis.toInt ≤ maxMillis := by
  constructor
  · intro hle
    refine Int.not_lt.mp fun hgt => ?_
    rw [now_of_gt hgt, Instant.le_def, nanos_advance_of_gt hgt] at hle
    exact absurd hle (by decide)
  · intro hmax
    by_cases hmin : r.millis.toInt < minMillis
    · rw [now_of_lt hmin]
      exact Instant.minNanos_le _
    · have hshown : r.now.shown = r.now := shown_now ⟨Int.not_lt.mp hmin, hmax⟩
      have hforward : r.now.Forward (.advance nanos) := trivial
      exact Instant.le_adjusted hshown hforward

end Reading

/-- Whenever time goes back, some stamp that had expired has not expired any more. -/
theorem Stamp.exists_expired_of_lt {now later : Instant} (h : later < now) :
    ∃ stamp : Stamp, stamp.isExpired now = true ∧ stamp.isExpired later = false := by
  have hinstant : instant? (some (.ofInstant later)) = some later :=
    instant?_of_toInstant (WireTime.toInstant_ofInstant later)
  exact ⟨some (.ofInstant later), (isExpired_iff_lt hinstant).mpr h,
    (not_isExpired_iff_le hinstant).mpr (Int.le_refl _)⟩

namespace Clock

/-- An advance never takes the clock back, so it brings nothing expired to life, and turning the
clock back never takes it forward. -/
structure OneWay (dials : Dials) (clock : Clock) : Prop where
  advance : ∀ nanos, ∃ after, clock.adjust dials (.advance nanos) = .ok after ∧
    clock.now dials ≤ clock.now after
  decrease : ∀ nanos, ∃ after, clock.adjust dials (.decrease nanos) = .ok after ∧
    clock.now after ≤ clock.now dials
  expired : ∀ nanos, ∃ after, clock.adjust dials (.advance nanos) = .ok after ∧
    ∀ stamp, Stamp.isExpired stamp (clock.now dials) = true →
      Stamp.isExpired stamp (clock.now after) = true

variable {dials : Dials} {cell : Nat}

theorem now_decrease_le (hcell : cell < dials.cells.length) (nanos : Nat) :
    ∃ after, (pinned cell).adjust dials (.decrease nanos) = .ok after ∧
      (pinned cell).now after ≤ (pinned cell).now dials := by
  obtain ⟨after, hadjust, hnow⟩ := now_of_adjust hcell (.decrease nanos)
  refine ⟨after, hadjust, ?_⟩
  rw [hnow]
  exact (dials.cell cell).now_decrease_le nanos

theorem oneWay_of_le (hcell : cell < dials.cells.length)
    (h : (pinned cell).millis dials ≤ Reading.maxMillis) : OneWay dials (.pinned cell) := by
  have hforward (nanos : Nat) : ∃ after, (pinned cell).adjust dials (.advance nanos) = .ok after ∧
      (pinned cell).now dials ≤ (pinned cell).now after := by
    obtain ⟨after, hadjust, hnow⟩ := now_of_adjust hcell (.advance nanos)
    refine ⟨after, hadjust, ?_⟩
    rw [hnow]
    exact ((dials.cell cell).le_now_advance_iff nanos).mpr h
  constructor
  case advance => exact hforward
  case decrease => exact now_decrease_le hcell
  case expired =>
    intro nanos
    obtain ⟨after, hadjust, hle⟩ := hforward nanos
    exact ⟨after, hadjust, fun stamp => stamp.isExpired_mono hle⟩

/-- Time runs one way on a pinned clock unless it holds a word past the range. Such a clock shows
the latest instant, and any advance takes it back to the start of the latest second, where what has
expired since has not expired yet. Turning a clock back is always safe. -/
theorem oneWay_iff (hcell : cell < dials.cells.length) :
    (OneWay dials (.pinned cell) ↔ (pinned cell).millis dials ≤ Reading.maxMillis) ∧
    (∀ nanos, ∃ after, (pinned cell).adjust dials (.decrease nanos) = .ok after ∧
      (pinned cell).now after ≤ (pinned cell).now dials) ∧
    (Reading.maxMillis < (pinned cell).millis dials → (pinned cell).now dials = .latest ∧
      ∀ nanos, ∃ after, (pinned cell).adjust dials (.advance nanos) = .ok after ∧
        ((pinned cell).now after).nanos = Reading.maxMillis * Instant.nanosPerMilli ∧
        ∃ stamp : Stamp, stamp.isExpired ((pinned cell).now dials) = true ∧
          stamp.isExpired ((pinned cell).now after) = false) := by
  refine ⟨⟨?_, oneWay_of_le hcell⟩, now_decrease_le hcell, ?_⟩
  · intro oneWay
    obtain ⟨after, hadjust, hle⟩ := oneWay.advance 0
    obtain ⟨_, hsame, hnow⟩ := now_of_adjust hcell (.advance 0)
    cases hadjust.symm.trans hsame
    rw [hnow] at hle
    exact ((dials.cell cell).le_now_advance_iff 0).mp hle
  · intro hgt
    have hlatest : (pinned cell).now dials = .latest := Reading.now_of_gt hgt
    refine ⟨hlatest, fun nanos => ?_⟩
    obtain ⟨after, hadjust, hnow⟩ := now_of_adjust hcell (.advance nanos)
    have hnanos : ((pinned cell).now after).nanos =
        Reading.maxMillis * Instant.nanosPerMilli := by
      rw [hnow]
      exact Reading.nanos_advance_of_gt hgt nanos
    have hback : (pinned cell).now after < (pinned cell).now dials := by
      rw [Instant.lt_def, hlatest, hnanos]
      decide
    exact ⟨after, hadjust, hnanos, Stamp.exists_expired_of_lt hback⟩

/-- The smallest word there is lies before the range, and it makes no trouble. -/
theorem oneWay_iff_earliestWord : OneWay ⟨default, [⟨-9223372036854775808⟩]⟩ (.pinned 0) := by
  have hcell : 0 < (Dials.cells ⟨default, [⟨-9223372036854775808⟩]⟩).length := by decide
  exact (oneWay_iff hcell).1.mpr (by decide)

/-- An advance by a second takes a clock that holds the largest word back by almost a second. -/
theorem not_oneWay_latestWord :
    ¬ OneWay ⟨default, [⟨9223372036854775807⟩]⟩ (.pinned 0) := by
  intro oneWay
  obtain ⟨after, hadjust, hle⟩ := oneWay.advance 1000000000
  cases hadjust
  exact absurd hle (by decide)

end Clock

end AccountView
