import AccountView.Proofs.Age
import AccountView.Proofs.LocalTime

namespace AccountView

/-! One stamp as time passes. Once expired it stays so, the time left does not grow, and the words for
its age move through the stages of `Age.texts`. -/

namespace Stamp

theorem isExpired_mono (stamp : Stamp) {now later : Instant} (h : now ≤ later)
    (expired : stamp.isExpired now = true) : stamp.isExpired later = true := by
  unfold isExpired at *
  split at expired
  · rw [decide_eq_true_eq, Instant.lt_def] at *
    exact Int.lt_of_lt_of_le expired h
  · rfl

theorem remaining_anti (stamp : Stamp) {now later : Instant} (h : now ≤ later) :
    stamp.remaining later ≤ stamp.remaining now := by
  unfold remaining
  split
  · rename_i t _
    have hleft : t.nanos - later.nanos ≤ t.nanos - now.nanos := by
      rw [Instant.le_def] at h
      omega
    have hmillis : (t.nanos - later.nanos).tdiv Instant.nanosPerMilli ≤
        (t.nanos - now.nanos).tdiv Instant.nanosPerMilli := Int.tdiv_le_tdiv (by decide) hleft
    omega
  · exact Nat.le_refl 0

theorem getElem?_texts_relative {w : WireTime} {t : Instant} (readable : w.toInstant = .ok t)
    (now : Instant) (zone : Zone) :
    (Age.texts (date (some w) zone))[(Age.ofElapsed (now.nanos - t.nanos)).rank]? =
      some (relative (some w) now zone) := by
  rw [relative, instant?_of_toInstant readable]
  exact Age.getElem?_texts (Age.mem_stages_ofElapsed _)

theorem nodup_texts_date {w : WireTime} {t : Instant} (readable : w.toInstant = .ok t)
    (zone : Zone) : (Age.texts (date (some w) zone)).Nodup := by
  have hdate : date (some w) zone = (t.inZone zone).dateText := by
    rw [date, instant?_of_toInstant readable]
  rw [hdate]
  exact Age.nodup_texts (t.dateText_atOffset _).head?_dropWhile

theorem successive_relative {w : WireTime} {t : Instant} (readable : w.toInstant = .ok t)
    (zone : Zone) {now later : Instant} (h : now ≤ later) :
    Age.Successive (date (some w) zone) (relative (some w) now zone)
      (relative (some w) later zone) where
  nodup := nodup_texts_date readable zone
  places := by
    have helapsed : now.nanos - t.nanos ≤ later.nanos - t.nanos := Int.sub_le_sub_right h t.nanos
    exact ⟨_, _, Age.rank_ofElapsed_mono helapsed, getElem?_texts_relative readable now zone,
      getElem?_texts_relative readable later zone⟩

end Stamp

end AccountView
