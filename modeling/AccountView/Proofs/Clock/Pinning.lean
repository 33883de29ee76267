import AccountView.Proofs.Clock.Forward
import AccountView.Proofs.Clock.Handles
import AccountView.Proofs.Clock.Landing

namespace AccountView

/-! What is kept of an instant when a clock is pinned at it. The fraction of a millisecond is lost
toward 1970, and in the latest second all but the second; the order is kept, and nothing is lost the
second time. -/

namespace Instant

variable {t : Instant}

/-- Where the latest second begins, in nanoseconds. -/
def lastSecond : Int := 253402207200000000000

theorem minMillis_le_millis (t : Instant) : Reading.minMillis ≤ t.millis :=
  Int.tdiv_le_tdiv (by decide) t.minNanos_le

/-- `shown` lies on the way from `t` to 1970, less than a millisecond from `t`. -/
structure Truncates (t shown : Instant) : Prop where
  min_le : min 0 t.nanos ≤ shown.nanos
  le_max : shown.nanos ≤ max 0 t.nanos
  natAbs_lt : (shown.nanos - t.nanos).natAbs < 1000000

theorem truncates_of_millis {shown : Instant} (h : shown.nanos = t.millis * nanosPerMilli) :
    Truncates t shown := by
  rw [millis_eq] at h
  simp only [nanosPerMilli] at h
  -- Above zero the milliseconds are rounded down, and below it up.
  split at h
  · constructor <;> omega
  · constructor <;> omega

theorem nanos_shown_of_lt (h : t.nanos < lastSecond) :
    t.shown.nanos = t.millis * nanosPerMilli := by
  have hmin := t.minMillis_le_millis
  have hmax : t.millis ≤ Reading.maxMillis := by
    rw [millis_eq, Reading.maxMillis]
    simp only [lastSecond, nanosPerMilli] at h ⊢
    split <;> omega
  rw [nanos_shown, Int.min_eq_left hmax, Int.max_eq_right hmin]

theorem nanos_shown_of_le (h : lastSecond ≤ t.nanos) : t.shown.nanos = lastSecond := by
  have hmillis : lastSecond.tdiv nanosPerMilli ≤ t.millis := Int.tdiv_le_tdiv (by decide) h
  have hlast : lastSecond.tdiv nanosPerMilli = Reading.maxMillis := by decide
  rw [hlast] at hmillis
  rw [nanos_shown, Int.min_eq_right hmillis]
  decide

theorem truncates_shown (h : t.nanos < lastSecond) : Truncates t t.shown :=
  truncates_of_millis (nanos_shown_of_lt h)

theorem shown_eq_self_iff : t.shown = t ↔ nanosPerMilli ∣ t.nanos ∧ t.nanos ≤ lastSecond := by
  rw [Instant.ext_iff]
  by_cases hlt : t.nanos < lastSecond
  · rw [nanos_shown_of_lt hlt]
    constructor
    · intro h
      exact ⟨Dvd.intro_left t.millis h, Int.le_of_lt hlt⟩
    · rintro ⟨hwhole, _⟩
      exact Int.tdiv_mul_cancel hwhole
  · have hle : lastSecond ≤ t.nanos := Int.not_lt.mp hlt
    rw [nanos_shown_of_le hle]
    constructor
    · intro h
      rw [← h]
      decide
    · rintro ⟨_, hge⟩
      exact Int.le_antisymm hle hge

end Instant

namespace Clock

/-- The clock shows `t`, and its milliseconds are those of `t`. -/
structure Shows (dials : Dials) (clock : Clock) (t : Instant) : Prop where
  now : clock.now dials = t
  millis : clock.millis dials = t.millis

theorem shows_of_reading? {dials : Dials} {clock : Clock} {t : Instant}
    (h : clock.reading? dials = some (.ofInstant t)) : Shows dials clock t.shown := by
  cases clock with
  | wall => contradiction
  | pinned cell =>
      have hreading : dials.cell cell = .ofInstant t := Option.some.inj h
      constructor
      case now => exact congrArg Reading.now hreading
      case millis =>
        rw [Clock.millis, hreading, Instant.shown]
        exact (Reading.millis_now (Reading.readable_ofInstant t)).symm

/-- Whether it is new or is set, a clock pinned at `t` shows `shown t`, which keeps the order of
instants, comes to rest at once and is near to `t`. -/
structure PinsNear (shown : Instant → Instant) : Prop where
  new : ∀ (dials : Dials) t,
    Shows (dials.start (.pinnedAt t)).2 (dials.start (.pinnedAt t)).1 (shown t)
  set : ∀ (dials : Dials) cell t, cell < dials.cells.length →
    ∃ after, (pinned cell).adjust dials (.set t) = .ok after ∧
      Shows after (pinned cell) (shown t)
  mono : ∀ t u, t ≤ u → shown t ≤ shown u
  idem : ∀ t, shown (shown t) = shown t
  eq_iff : ∀ t, shown t = t ↔ 1000000 ∣ t.nanos ∧ t.nanos ≤ 253402207200000000000
  near : ∀ t, t.nanos < 253402207200000000000 → Instant.Truncates t (shown t)
  last : ∀ t, 253402207200000000000 ≤ t.nanos →
    shown t ≤ t ∧ t.nanos - (shown t).nanos < 1000000000

theorem pinsNear_shown : PinsNear Instant.shown where
  new dials t := shows_of_reading? (dials.reading?_start (.pinnedAt t))
  set := by
    intro dials cell t hcell
    obtain ⟨after, hadjust, _, hreading⟩ := cell_adjust hcell (.set t)
    exact ⟨after, hadjust, shows_of_reading? (congrArg some hreading)⟩
  mono _ _ := Instant.shown_mono
  idem := Instant.shown_shown
  eq_iff _ := Instant.shown_eq_self_iff
  near _ := Instant.truncates_shown
  last := by
    intro t h
    have hmax := t.le_maxNanos
    rw [Instant.le_def, Instant.nanos_shown_of_le h]
    simp only [Instant.lastSecond, Instant.maxNanos] at hmax ⊢
    omega

end Clock

end AccountView
