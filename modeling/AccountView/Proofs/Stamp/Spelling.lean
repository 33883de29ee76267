import AccountView.Profile
import AccountView.Proofs.Stamp.Expiry

namespace AccountView

/-! Spellings of one instant. Many stamps denote the same instant, and the unreadable ones denote none,
as the absent one does. What is shown of a stamp and of an account depends on the instants alone. -/

namespace Stamp

variable {a b : Stamp}

/-! ### Questions about one stamp -/

theorem full_congr (same : a.instant? = b.instant?) (zone : Zone) : a.full zone = b.full zone := by
  rw [full, full, same]

theorem date_congr (same : a.instant? = b.instant?) (zone : Zone) : a.date zone = b.date zone := by
  rw [date, date, same]

theorem relative_congr (same : a.instant? = b.instant?) (now : Instant) (zone : Zone) :
    a.relative now zone = b.relative now zone := by
  -- The date of an old stamp is read from the stamp once more.
  rw [relative, relative, same, date_congr same]

theorem isExpired_congr (same : a.instant? = b.instant?) (now : Instant) :
    a.isExpired now = b.isExpired now := by
  rw [isExpired, isExpired, same]

theorem remaining_congr (same : a.instant? = b.instant?) (now : Instant) :
    a.remaining now = b.remaining now := by
  rw [remaining, remaining, same]

theorem render_congr (same : a.instant? = b.instant?) (style : Style) (now : Instant)
    (zone : Zone) : a.render style now zone = b.render style now zone := by
  cases style with
  | full => exact full_congr same zone
  | date => exact date_congr same zone
  | relative => exact relative_congr same now zone
  | expiry => simp only [render, isExpired_congr same]
  | remaining => simp only [render, remaining_congr same]

/-- The moments at which a stamp has expired tell its instant. -/
theorem instant?_eq_of_isExpired (h : ∀ now, a.isExpired now = b.isExpired now) :
    a.instant? = b.instant? := by
  cases ha : a.instant? with
  | none =>
      cases hb : b.instant? with
      | none => rfl
      | some u =>
          have hnow := h u
          rw [isExpired_of_none ha, isExpired_of_instant? hb] at hnow
          exact absurd (of_decide_eq_true hnow.symm) (Int.lt_irrefl _)
  | some t =>
      cases hb : b.instant? with
      | none =>
          have hnow := h t
          rw [isExpired_of_none hb, isExpired_of_instant? ha] at hnow
          exact absurd (of_decide_eq_true hnow) (Int.lt_irrefl _)
      | some u =>
          -- At its own instant a stamp has not expired, so neither lies before the other.
          have hexpired : ∀ now, t < now ↔ u < now := by
            intro now
            have hnow := h now
            rwa [isExpired_of_instant? ha, isExpired_of_instant? hb, decide_eq_decide] at hnow
          have htu : ¬ t < u := mt (hexpired u).mp (Int.lt_irrefl _)
          have hut : ¬ u < t := mt (hexpired t).mpr (Int.lt_irrefl _)
          have heq : t = u := Instant.ext (Int.le_antisymm (Int.not_lt.mp hut) (Int.not_lt.mp htu))
          rw [heq]

end Stamp

/-! ### Profiles -/

/-- Accounts that are the same to a reader: the words are equal, the times denote the same instants,
and both have an expiry or neither has. -/
structure Account.Agree (a b : Account) : Prop where
  username : a.username = b.username
  nickname : a.nickname = b.nickname
  email : a.email = b.email
  phone : a.phone = b.phone
  role : a.role = b.role
  createdAt : a.createdAt.instant? = b.createdAt.instant?
  updatedAt : a.updatedAt.instant? = b.updatedAt.instant?
  passwordExpiresAt : a.passwordExpiresAt.instant? = b.passwordExpiresAt.instant?
  isSome : a.passwordExpiresAt.isSome = b.passwordExpiresAt.isSome

namespace Account.Agree

variable {a b : Stamp}

theorem createdAt_congr (same : a.instant? = b.instant?) (account : Account) :
    Agree { account with createdAt := a } { account with createdAt := b } :=
  ⟨rfl, rfl, rfl, rfl, rfl, same, rfl, rfl, rfl⟩

theorem updatedAt_congr (same : a.instant? = b.instant?) (account : Account) :
    Agree { account with updatedAt := a } { account with updatedAt := b } :=
  ⟨rfl, rfl, rfl, rfl, rfl, rfl, same, rfl, rfl⟩

theorem passwordExpiresAt_congr (same : a.instant? = b.instant?) (isSome : a.isSome = b.isSome)
    (account : Account) :
    Agree { account with passwordExpiresAt := a } { account with passwordExpiresAt := b } :=
  ⟨rfl, rfl, rfl, rfl, rfl, rfl, rfl, same, isSome⟩

end Account.Agree

namespace Profile

theorem statusText_congr {a b : Stamp} (same : a.instant? = b.instant?) (now : Instant) :
    statusText a now = statusText b now := by
  simp only [statusText, Stamp.isExpired_congr same, Stamp.remaining_congr same]

theorem passwordRows_congr {a b : Stamp} (same : a.instant? = b.instant?)
    (isSome : a.isSome = b.isSome) (now : Instant) (zone : Zone) :
    passwordRows a now zone = passwordRows b now zone := by
  simp only [passwordRows, isSome, Stamp.full_congr same, statusText_congr same]

theorem ofAccount_congr {a b : Account} (h : a.Agree b) (now : Instant) (zone : Zone) :
    ofAccount a now zone = ofAccount b now zone := by
  have hrows : accountRows a zone = accountRows b zone := by
    simp only [accountRows, h.username, h.email, h.phone, h.role, Stamp.full_congr h.createdAt,
      Stamp.full_congr h.updatedAt]
  rw [ofAccount, ofAccount, h.nickname, hrows, passwordRows_congr h.passwordExpiresAt h.isSome]

/-- An unreadable expiry is not an absent one: its rows stand, with nothing to read in them. -/
theorem passwordRows_unreadable {w : WireTime} (h : w.instant? = none) (now : Instant)
    (zone : Zone) : passwordRows (some w) now zone =
      [⟨"密码过期时间", Stamp.absentText⟩, ⟨"密码状态", Stamp.expiredText⟩] := by
  have hinstant : Stamp.instant? (some w) = none := h
  simp only [passwordRows, statusText, Stamp.full, hinstant, Stamp.isExpired_of_none hinstant,
    Option.isSome_some, if_true]

end Profile

/-! ### All that is shown -/

/-- Nothing shown tells one stamp from the other. -/
structure Stamp.Indistinguishable (a b : Stamp) : Prop where
  full : ∀ zone, a.full zone = b.full zone
  date : ∀ zone, a.date zone = b.date zone
  relative : ∀ now zone, a.relative now zone = b.relative now zone
  isExpired : ∀ now, a.isExpired now = b.isExpired now
  remaining : ∀ now, a.remaining now = b.remaining now
  render : ∀ style now zone, a.render style now zone = b.render style now zone
  viewpoint : ∀ (view : Viewpoint) (dials : Dials), view.full a = view.full b ∧
    view.date a = view.date b ∧ view.relative dials a = view.relative dials b ∧
    view.isExpired dials a = view.isExpired dials b ∧ view.remaining dials a = view.remaining dials b
  viewpointRender : ∀ (view : Viewpoint) (dials : Dials) (style : Style) (w v : WireTime),
    a = some w → b = some v → view.render dials w style = view.render dials v style
  createdAt : ∀ (view : Viewpoint) (dials : Dials) (account : Account),
    view.profile dials { account with createdAt := a } =
      view.profile dials { account with createdAt := b }
  updatedAt : ∀ (view : Viewpoint) (dials : Dials) (account : Account),
    view.profile dials { account with updatedAt := a } =
      view.profile dials { account with updatedAt := b }
  /-- Whether there is an expiry at all is shown; which spelling it has is not. -/
  passwordExpiresAt : ∀ (view : Viewpoint) (dials : Dials) (account : Account),
    a.isSome = b.isSome → view.profile dials { account with passwordExpiresAt := a } =
      view.profile dials { account with passwordExpiresAt := b }

/-- Two stamps are shown alike, always and everywhere, exactly if they denote the same instant or
both denote none. -/
theorem Stamp.indistinguishable_iff :
    (∀ a b : Stamp, Indistinguishable a b ↔ a.instant? = b.instant?) ∧
    ∀ (view : Viewpoint) (dials : Dials) (account : Account) (w : WireTime),
      Stamp.instant? (some w) = none →
        (view.profile dials { account with passwordExpiresAt := some w }).rows =
          Profile.accountRows account view.zone ++
            [⟨"密码过期时间", absentText⟩, ⟨"密码状态", expiredText⟩] := by
  constructor
  · intro a b
    constructor
    · intro h
      exact instant?_eq_of_isExpired h.isExpired
    · intro same
      constructor
      case full => exact full_congr same
      case date => exact date_congr same
      case relative => exact relative_congr same
      case isExpired => exact isExpired_congr same
      case remaining => exact remaining_congr same
      case render => exact render_congr same
      case viewpoint =>
        intro view dials
        exact ⟨full_congr same _, date_congr same _, relative_congr same _ _,
          isExpired_congr same _, remaining_congr same _⟩
      case viewpointRender =>
        rintro view dials style w v rfl rfl
        exact render_congr same style _ _
      case createdAt =>
        intro view dials account
        exact Profile.ofAccount_congr (.createdAt_congr same account) _ _
      case updatedAt =>
        intro view dials account
        exact Profile.ofAccount_congr (.updatedAt_congr same account) _ _
      case passwordExpiresAt =>
        intro view dials account isSome
        exact Profile.ofAccount_congr (.passwordExpiresAt_congr same isSome account) _ _
  · intro view dials account w h
    rw [← Profile.passwordRows_unreadable h (view.now dials) view.zone]
    rfl

/-- Half a second after 1970 began, spelled in two ways; a time far too late, and none at all. -/
theorem Stamp.indistinguishable_iff_spellings :
    Indistinguishable (some ⟨1, -500000000⟩) (some ⟨0, 500000000⟩) ∧
    Indistinguishable (some ⟨9223372036854775807, 0⟩) none ∧
    ∀ (view : Viewpoint) (dials : Dials),
      (view.profile dials { passwordExpiresAt := some ⟨9223372036854775807, 0⟩ }).rows.length = 8 := by
  refine ⟨(indistinguishable_iff.1 _ _).mpr (by decide),
    (indistinguishable_iff.1 _ _).mpr (by decide), ?_⟩
  intro view dials
  have hrows := indistinguishable_iff.2 view dials {} ⟨9223372036854775807, 0⟩ (by decide)
  rw [hrows]
  rfl

end AccountView
