import AccountView.Proofs.Clock.Adjusted

namespace AccountView

/-! A pinned clock that is only advanced, or set to what is not past, never goes back. What it shows is
already rounded, so rounding and clamping once more cannot lose what is gained. -/

namespace Instant

theorem millis_mono {t u : Instant} (h : t ≤ u) : t.millis ≤ u.millis :=
  Int.tdiv_le_tdiv (by decide) h

theorem shown_mono {t u : Instant} (h : t ≤ u) : t.shown ≤ u.shown := by
  have hmillis := millis_mono h
  rw [le_def, nanos_shown, nanos_shown]
  simp only [nanosPerMilli]
  omega

theorem shown_shown (t : Instant) : t.shown.shown = t.shown :=
  Reading.shown_now (Reading.readable_ofInstant t)

theorem le_clamp_add (t : Instant) (nanos : Nat) : t ≤ clamp (t.nanos + nanos) := by
  have hmin := t.minNanos_le
  have hmax := t.le_maxNanos
  rw [le_def, nanos_clamp]
  omega

theorem clamp_sub_le (t : Instant) (nanos : Nat) : clamp (t.nanos - nanos) ≤ t := by
  have hmin := t.minNanos_le
  have hmax := t.le_maxNanos
  rw [le_def, nanos_clamp]
  omega

/-- An adjustment that takes no clock back that shows `now`. -/
def Forward (now : Instant) : Adjustment → Prop
  | .set t => now ≤ t
  | .advance _ => True
  | .decrease _ => False

theorem shown_adjusted (now : Instant) (adjustment : Adjustment) :
    (now.adjusted adjustment).shown = now.adjusted adjustment := by
  cases adjustment with
  | set t => exact shown_shown t
  | advance nanos => exact shown_shown _
  | decrease nanos => exact shown_shown _

theorem le_adjusted {now : Instant} (hshown : now.shown = now) {adjustment : Adjustment}
    (forward : now.Forward adjustment) : now ≤ now.adjusted adjustment := by
  cases adjustment with
  | set t =>
      have hle : now.shown ≤ t.shown := shown_mono forward
      rwa [hshown] at hle
  | advance nanos =>
      have hle : now.shown ≤ (clamp (now.nanos + nanos)).shown := shown_mono (now.le_clamp_add nanos)
      rwa [hshown] at hle
  | decrease nanos => contradiction

end Instant

end AccountView
