import AccountView.Profile
import AccountView.Proofs.Stamp.Expiry
import Mathlib.Data.List.Nodup

namespace AccountView

/-! Rows of a profile. Each label stands once, so a label finds its own row; and the status of the
password says what the viewpoint says of the same expiry. -/

namespace Stamp

theorem isExpired_eq_true_iff {w : WireTime} {now : Instant} :
    isExpired (some w) now = true ↔
      (∃ e, w.toInstant = .error e) ∨ ∃ t, w.toInstant = .ok t ∧ t < now := by
  cases h : w.toInstant with
  | error e => simp [isExpired, instant?_of_error h]
  | ok t => simp [isExpired, instant?_of_toInstant h]

/-- Milliseconds and then minutes drop what whole minutes of nanoseconds would drop. -/
theorem remaining_minutes {w : WireTime} {t now : Instant} (readable : w.toInstant = .ok t)
    (h : now ≤ t) : ((remaining (some w) now / Countdown.millisPerMinute : Nat) : Int) =
      (t.nanos - now.nanos) / 60000000000 := by
  rw [Instant.le_def] at h
  have hremaining := remaining_eq_max (instant?_of_toInstant readable) now
  simp only [Countdown.millisPerMinute, Instant.nanosPerMilli] at hremaining ⊢
  omega

theorem render_expiry_eq_expiredText_iff {stamp : Stamp} {now : Instant} {zone : Zone} :
    stamp.render .expiry now zone = expiredText ↔ stamp.isExpired now = true := by
  have hne : notExpiredText ≠ expiredText := by decide
  cases h : stamp.isExpired now with
  | false => simp [render, h, hne]
  | true => simp [render, h]

end Stamp

namespace Profile

/-! ### The status -/

theorem remainingText_ne_expiredText (millis : Nat) : remainingText millis ≠ Stamp.expiredText := by
  intro h
  have hhead : (remainingText millis).toList.head? = Stamp.expiredText.toList.head? := by rw [h]
  simp [remainingText, Stamp.expiredText] at hhead

theorem statusText_eq_expiredText_iff {expiry : Stamp} {now : Instant} :
    statusText expiry now = Stamp.expiredText ↔ expiry.isExpired now = true := by
  cases h : expiry.isExpired now with
  | false => simp [statusText, h, remainingText_ne_expiredText]
  | true => simp [statusText, h]

theorem statusText_of_not_expired {expiry : Stamp} {now : Instant}
    (h : ¬ expiry.isExpired now = true) :
    statusText expiry now = remainingText (expiry.remaining now) := by
  rw [statusText, if_neg h]

/-! ### Finding rows -/

variable {profile : Profile} {label value : String}

theorem value?_eq_some_iff (nodup : (profile.rows.map (·.label)).Nodup) :
    profile.value? label = some value ↔ ⟨label, value⟩ ∈ profile.rows := by
  rw [value?, Option.map_eq_some_iff]
  constructor
  · rintro ⟨row, hfind, rfl⟩
    have hlabel : row.label = label := by simpa using List.find?_some hfind
    rw [← hlabel]
    exact List.mem_of_find?_eq_some hfind
  · intro hmem
    -- Some row is found, and no other row has its label.
    have hfound : (profile.rows.find? (·.label == label)).isSome := by
      rw [List.find?_isSome]
      exact ⟨_, hmem, by simp⟩
    obtain ⟨row, hfind⟩ := Option.isSome_iff_exists.mp hfound
    have hlabel : row.label = label := by simpa using List.find?_some hfind
    have hrow : row = ⟨label, value⟩ :=
      List.inj_on_of_nodup_map nodup (List.mem_of_find?_eq_some hfind) hmem hlabel
    exact ⟨row, hfind, by rw [hrow]⟩

theorem value?_eq_none_iff : profile.value? label = none ↔ label ∉ profile.rows.map (·.label) := by
  rw [value?, Option.map_eq_none_iff, List.find?_eq_none]
  simp

/-! ### Rows of an account -/

def accountLabels : List String := ["用户名", "邮箱", "电话", "角色", "创建时间", "更新时间"]

def passwordLabels : List String := ["密码过期时间", "密码状态"]

theorem map_label_passwordRows (expiry : Stamp) (now : Instant) (zone : Zone) :
    (passwordRows expiry now zone).map (·.label) = if expiry.isSome then passwordLabels else [] := by
  cases expiry with
  | none => rfl
  | some w => rfl

theorem map_label_ofAccount (account : Account) (now : Instant) (zone : Zone) :
    (ofAccount account now zone).rows.map (·.label) = accountLabels ++
      if account.passwordExpiresAt.isSome then passwordLabels else [] := by
  rw [ofAccount, List.map_append, map_label_passwordRows]
  rfl

theorem nodup_labels (expiry : Stamp) :
    (accountLabels ++ if expiry.isSome then passwordLabels else []).Nodup := by
  split <;> decide

/-- The status of an expiry, as the clock of the viewpoint shows it. -/
structure Status (view : Viewpoint) (dials : Dials) (w : WireTime) (status : String) : Prop where
  expired : status = Stamp.expiredText ↔
    (∃ e, w.toInstant = .error e) ∨ ∃ t, w.toInstant = .ok t ∧ t < view.now dials
  left : ∀ t, w.toInstant = .ok t → view.now dials ≤ t → ∃ days hours minutes : Nat,
    hours < 24 ∧ minutes < 60 ∧ ((days * 1440 + hours * 60 + minutes : Nat) : Int) =
      (t.nanos - (view.now dials).nanos) / 60000000000 ∧
    status = "剩余" ++ (toString days ++ "天" ++ toString hours ++ "小时" ++ toString minutes ++ "分钟")
  expiry : status = Stamp.expiredText ↔ view.render dials w .expiry = Stamp.expiredText
  remaining : status ≠ Stamp.expiredText → ∃ millis : Nat,
    view.render dials w .remaining = toString millis ∧
      status = "剩余" ++ (Countdown.ofMillis millis).text

theorem status_statusText (view : Viewpoint) (dials : Dials) (w : WireTime) :
    Status view dials w (statusText (some w) (view.now dials)) where
  expired := statusText_eq_expiredText_iff.trans Stamp.isExpired_eq_true_iff
  left := by
    intro t readable h
    have hahead : ¬ Stamp.isExpired (some w) (view.now dials) = true := by
      rw [Stamp.isExpired_eq_true_iff, readable]
      rintro (⟨e, herror⟩ | ⟨u, hok, hlt⟩)
      · contradiction
      · cases hok
        exact absurd h (Int.not_le.mpr hlt)
    rw [statusText_of_not_expired hahead]
    refine ⟨_, _, _, Countdown.hours_lt _, Countdown.minutes_lt _, ?_, rfl⟩
    rw [Countdown.total_minutes, Stamp.remaining_minutes readable h]
  expiry := statusText_eq_expiredText_iff.trans Stamp.render_expiry_eq_expiredText_iff.symm
  remaining := by
    intro h
    rw [Ne, statusText_eq_expiredText_iff] at h
    exact ⟨_, rfl, statusText_of_not_expired h⟩

end Profile

/-- What a profile seen by a pinned clock holds, and where a reader finds it. -/
structure Viewpoint.Shows (view : Viewpoint) (dials : Dials) (account : Account)
    (profile : Profile) : Prop where
  labels : profile.rows.map (·.label) = Profile.accountLabels ++
    if account.passwordExpiresAt.isSome then Profile.passwordLabels else []
  nodup : (profile.rows.map (·.label)).Nodup
  value : ∀ label value, profile.value? label = some value ↔ ⟨label, value⟩ ∈ profile.rows
  no_value : ∀ label, profile.value? label = none ↔ label ∉ profile.rows.map (·.label)
  status : ∀ w, account.passwordExpiresAt = some w →
    ∃ status, profile.value? "密码状态" = some status ∧ Profile.Status view dials w status

theorem Viewpoint.shows_profile (cell : Nat) (zone : Zone) (dials : Dials) (account : Account) :
    Shows ⟨.pinned cell, zone⟩ dials account
      (Viewpoint.profile ⟨.pinned cell, zone⟩ dials account) := by
  have hlabels := Profile.map_label_ofAccount account
    (Viewpoint.now ⟨.pinned cell, zone⟩ dials) zone
  have hnodup : ((Viewpoint.profile ⟨.pinned cell, zone⟩ dials account).rows.map
      (·.label)).Nodup := by
    rw [Viewpoint.profile, hlabels]
    exact Profile.nodup_labels _
  constructor
  case labels => exact hlabels
  case nodup => exact hnodup
  case value => exact fun label value => Profile.value?_eq_some_iff hnodup
  case no_value => exact fun label => Profile.value?_eq_none_iff
  case status =>
    intro w hexpiry
    refine ⟨_, ?_, Profile.status_statusText _ dials w⟩
    rw [Profile.value?_eq_some_iff hnodup]
    simp [Viewpoint.profile, Profile.ofAccount, Profile.passwordRows, hexpiry]

end AccountView
