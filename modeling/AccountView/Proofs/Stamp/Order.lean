import AccountView.Proofs.LocalTime

namespace AccountView

/-! The order of what is shown. Each text tells its second or its local day, and from the year 0 on
texts are in the order of time, character by character. -/

/-! ### Comparing numerals of one width -/

theorem append_lt_append_iff {x y : List Char} (h : x.length = y.length) (x' y' : List Char) :
    x ++ x' < y ++ y' ↔ x < y ∨ x = y ∧ x' < y' := by
  induction x generalizing y with
  | nil =>
      obtain rfl : y = [] := List.length_eq_zero_iff.mp h.symm
      simp
  | cons c x ih =>
      cases y with
      | nil => exact absurd h (Nat.succ_ne_zero x.length)
      | cons d y =>
          rw [List.cons_append, List.cons_append, List.cons_lt_cons_iff, List.cons_lt_cons_iff,
            ih (Nat.succ.inj h), List.cons.injEq]
          grind

theorem cons_lt_cons_same (c : Char) (x y : List Char) : c :: x < c :: y ↔ x < y := by
  rw [List.cons_lt_cons_iff]
  simp

theorem eq_of_not_lt {x y : List Char} (hle : ¬ x < y) (hge : ¬ y < x) : x = y :=
  List.le_antisymm (List.not_lt.mp hge) (List.not_lt.mp hle)

theorem isDigit_toNat {c : Char} (h : c.isDigit = true) : 48 ≤ c.toNat ∧ c.toNat ≤ 57 :=
  Char.isDigit_iff_toNat.mp h

/-- Numbers of one width are in the order of their first digit that differs. -/
theorem ofDigitChars_lt_iff {x y : List Char} (hx : ∀ c ∈ x, c.isDigit = true)
    (hy : ∀ c ∈ y, c.isDigit = true) (h : x.length = y.length) (m n : Nat) :
    Nat.ofDigitChars 10 x m < Nat.ofDigitChars 10 y n ↔ m < n ∨ m = n ∧ x < y := by
  induction x generalizing y m n with
  | nil =>
      obtain rfl : y = [] := List.length_eq_zero_iff.mp h.symm
      simp [Nat.ofDigitChars_nil]
  | cons c x ih =>
      cases y with
      | nil => exact absurd h (Nat.succ_ne_zero x.length)
      | cons d y =>
          obtain ⟨hc, hx⟩ := List.forall_mem_cons.mp hx
          obtain ⟨hd, hy⟩ := List.forall_mem_cons.mp hy
          have hc := isDigit_toNat hc
          have hd := isDigit_toNat hd
          have hzero : '0'.toNat = 48 := rfl
          have hlt : c < d ↔ c.toNat < d.toNat := Iff.rfl
          rw [Nat.ofDigitChars_cons, Nat.ofDigitChars_cons, ih hx hy (Nat.succ.inj h),
            List.cons_lt_cons_iff, hlt, ← Char.toNat_inj, hzero]
          grind

namespace ZeroPadded

variable {width m n : Nat} {x y : List Char}

theorem length_eq (h : ZeroPadded width m x) (h' : ZeroPadded width n y) : x.length = y.length :=
  h.length.trans h'.length.symm

theorem lt_iff (h : ZeroPadded width m x) (h' : ZeroPadded width n y) : x < y ↔ m < n := by
  have hdigits := ofDigitChars_lt_iff h.isDigit_of_mem h'.isDigit_of_mem (h.length_eq h') 0 0
  rw [h.value, h'.value] at hdigits
  simpa using hdigits.symm

theorem eq_iff (h : ZeroPadded width m x) (h' : ZeroPadded width n y) : x = y ↔ m = n := by
  constructor
  · rintro rfl
    exact h.value.symm.trans h'.value
  · rintro rfl
    have hle : ¬ x < y := mt (h.lt_iff h').mp (Nat.lt_irrefl m)
    have hge : ¬ y < x := mt (h'.lt_iff h).mp (Nat.lt_irrefl m)
    exact eq_of_not_lt hle hge

theorem append_lt_iff (h : ZeroPadded width m x) (h' : ZeroPadded width n y) (c : Char)
    (x' y' : List Char) : x ++ c :: x' < y ++ c :: y' ↔ m < n ∨ m = n ∧ x' < y' := by
  rw [append_lt_append_iff (h.length_eq h'), h.lt_iff h', h.eq_iff h', cons_lt_cons_same]

theorem append_inj (h : ZeroPadded width m x) (h' : ZeroPadded width n y) {c : Char}
    {x' y' : List Char} (heq : x ++ c :: x' = y ++ c :: y') : m = n ∧ x' = y' := by
  obtain ⟨hxy, hrest⟩ := List.append_inj heq (h.length_eq h')
  exact ⟨(h.eq_iff h').mp hxy, List.tail_eq_of_cons_eq hrest⟩

end ZeroPadded

theorem YearText.zeroPadded {year : Int} {text : List Char} (h : YearText year text)
    (hyear : 0 ≤ year) : ZeroPadded 4 year.toNat text := by
  cases h with
  | positive digits => exact digits
  | negative pos => omega
  | early lt => omega

/-- The width and the sign tell the four forms apart. -/
theorem YearText.inj {year other : Int} {text : List Char} (h : YearText year text)
    (h' : YearText other text) : year = other := by
  cases h with
  | positive digits =>
      cases h' with
      | positive digits' => rw [(digits.eq_iff digits').mp rfl]
      | negative pos le digits' => exact absurd List.mem_cons_self (digits.not_mem rfl)
      | early lt digits' => exact absurd List.mem_cons_self (digits.not_mem rfl)
  | negative pos le digits =>
      cases h' with
      | positive digits' => exact absurd List.mem_cons_self (digits'.not_mem rfl)
      | negative pos' le' digits' => rw [(digits.eq_iff digits').mp rfl]
      | early lt' digits' =>
          have := digits.length
          have := digits'.length
          omega
  | early lt digits =>
      cases h' with
      | positive digits' => exact absurd List.mem_cons_self (digits'.not_mem rfl)
      | negative pos' le' digits' =>
          have := digits.length
          have := digits'.length
          omega
      | early lt' digits' => rw [(digits.eq_iff digits').mp rfl]


/-! ### Comparing local times -/

namespace LocalTime

variable {time other : LocalTime} {x y : List Char}

theorem DateText.inj {date other : CivilDate} (h : DateText date x) (h' : DateText other x) :
    date = other := by
  obtain ⟨year, month, day, hyear, hmonth, hday, rfl⟩ := h
  obtain ⟨year', month', day', hyear', hmonth', hday', heq⟩ := h'
  have hlength : ('-' :: (month ++ '-' :: day)).length =
      ('-' :: (month' ++ '-' :: day')).length := by
    simp only [List.length_cons, List.length_append, hmonth.length, hmonth'.length, hday.length,
      hday'.length]
  -- The year alone has no fixed width; what follows it has.
  obtain ⟨rfl, hrest⟩ := List.append_inj' heq hlength
  obtain ⟨hmonths, rfl⟩ := hmonth.append_inj hmonth' (List.tail_eq_of_cons_eq hrest)
  obtain ⟨_, _, _⟩ := date
  obtain ⟨_, _, _⟩ := other
  exact CivilDate.mk.injEq .. ▸ ⟨hyear.inj hyear', hmonths, (hday.eq_iff hday').mp rfl⟩

theorem FullText.inj (h : FullText time x) (h' : FullText other x) : time = other := by
  obtain ⟨date, hour, minute, second, hdate, hhour, hminute, hsecond, rfl⟩ := h
  obtain ⟨date', hour', minute', second', hdate', hhour', hminute', hsecond', heq⟩ := h'
  have hlength : (' ' :: (hour ++ ':' :: (minute ++ ':' :: second))).length =
      (' ' :: (hour' ++ ':' :: (minute' ++ ':' :: second'))).length := by
    simp only [List.length_cons, List.length_append, hhour.length, hhour'.length, hminute.length,
      hminute'.length, hsecond.length, hsecond'.length]
  obtain ⟨rfl, hrest⟩ := List.append_inj' heq hlength
  obtain ⟨hhours, hrest⟩ := hhour.append_inj hhour' (List.tail_eq_of_cons_eq hrest)
  obtain ⟨hminutes, rfl⟩ := hminute.append_inj hminute' hrest
  obtain ⟨_, _, _, _⟩ := time
  obtain ⟨_, _, _, _⟩ := other
  exact LocalTime.mk.injEq .. ▸
    ⟨hdate.inj hdate', hhours, hminutes, (hsecond.eq_iff hsecond').mp rfl⟩

/-- From the year 0 on, texts of dates are in the order of the dates. -/
theorem DateText.lt_iff {date other : CivilDate} (h : DateText date x) (h' : DateText other y)
    (hdate : date.Valid) (hother : other.Valid) (hyear : 0 ≤ date.year) (hyear' : 0 ≤ other.year) :
    x < y ↔ date.dayNumber < other.dayNumber := by
  obtain ⟨year, month, day, hy, hm, hd, rfl⟩ := h
  obtain ⟨year', month', day', hy', hm', hd', rfl⟩ := h'
  have hyears := hy.zeroPadded hyear
  have hyears' := hy'.zeroPadded hyear'
  rw [hyears.append_lt_iff hyears', hm.append_lt_iff hm', hd.lt_iff hd',
    CivilDate.dayNumber_lt_iff hdate hother]
  omega

theorem DateText.eq_iff {date other : CivilDate} (h : DateText date x) (h' : DateText other y)
    (hdate : date.Valid) (hother : other.Valid) (hyear : 0 ≤ date.year) (hyear' : 0 ≤ other.year) :
    x = y ↔ date.dayNumber = other.dayNumber := by
  constructor
  · rintro rfl
    rw [h.inj h']
  · intro heq
    have hlt := h.lt_iff h' hdate hother hyear hyear'
    have hgt := h'.lt_iff h hother hdate hyear' hyear
    exact eq_of_not_lt (mt hlt.mp (by omega)) (mt hgt.mp (by omega))

theorem FullText.lt_iff (h : FullText time x) (h' : FullText other y) (htime : time.Valid)
    (hother : other.Valid) (hyear : 0 ≤ time.date.year) (hyear' : 0 ≤ other.date.year) :
    x < y ↔ time.toSeconds < other.toSeconds := by
  obtain ⟨date, hour, minute, second, hdate, hhour, hminute, hsecond, rfl⟩ := h
  obtain ⟨date', hour', minute', second', hdate', hhour', hminute', hsecond', rfl⟩ := h'
  have hdays := hdate.lt_iff hdate' htime.date hother.date hyear hyear'
  have hsame := hdate.eq_iff hdate' htime.date hother.date hyear hyear'
  have hlength : date.length = date'.length := by
    rw [hdate.length, hdate'.length, if_pos (by omega), if_pos (by omega)]
  -- Day, hour, minute and second are compared one after the other, as the digits of the seconds.
  rw [append_lt_append_iff hlength, cons_lt_cons_same, hdays, hsame,
    hhour.append_lt_iff hhour', hminute.append_lt_iff hminute', hsecond.lt_iff hsecond']
  obtain ⟨_, _, _, _⟩ := htime
  obtain ⟨_, _, _, _⟩ := hother
  simp only [toSeconds, secondsPerDay]
  omega

end LocalTime

/-! ### Comparing what is shown of stamps -/

namespace Instant

def localDay (t : Instant) (offset : Offset) : Int :=
  (t.floorSecond + offset.seconds) / LocalTime.secondsPerDay

variable (t u : Instant) (offset : Offset)

theorem dayNumber_atOffset : (t.atOffset offset).date.dayNumber = t.localDay offset :=
  CivilDate.dayNumber_ofDayNumber _

theorem fullText_atOffset_eq_iff : (t.atOffset offset).fullText = (u.atOffset offset).fullText ↔
    t.floorSecond = u.floorSecond := by
  constructor
  · intro heq
    have htime := (heq ▸ t.fullText_atOffset offset).inj (u.fullText_atOffset offset)
    have hseconds := t.toSeconds_atOffset offset
    rw [htime, u.toSeconds_atOffset offset] at hseconds
    omega
  · intro heq
    rw [atOffset, atOffset, heq]

theorem dateText_atOffset_eq_iff : (t.atOffset offset).dateText = (u.atOffset offset).dateText ↔
    t.localDay offset = u.localDay offset := by
  constructor
  · intro heq
    have hdate := (heq ▸ t.dateText_atOffset offset).inj (u.dateText_atOffset offset)
    rw [← dayNumber_atOffset, hdate, dayNumber_atOffset]
  · intro heq
    have hdate : (t.atOffset offset).date = (u.atOffset offset).date :=
      congrArg CivilDate.ofDayNumber heq
    rw [LocalTime.dateText, LocalTime.dateText, hdate]

section FromYearZero

variable {t u offset} (ht : 0 ≤ (t.atOffset offset).date.year)
  (hu : 0 ≤ (u.atOffset offset).date.year)

include ht hu

theorem fullText_atOffset_lt_iff : (t.atOffset offset).fullText < (u.atOffset offset).fullText ↔
    t.floorSecond < u.floorSecond := by
  rw [String.lt_iff, (t.fullText_atOffset offset).lt_iff (u.fullText_atOffset offset)
    (t.valid_atOffset offset) (u.valid_atOffset offset) ht hu, toSeconds_atOffset,
    toSeconds_atOffset]
  omega

theorem dateText_atOffset_lt_iff : (t.atOffset offset).dateText < (u.atOffset offset).dateText ↔
    t.localDay offset < u.localDay offset := by
  rw [String.lt_iff, (t.dateText_atOffset offset).lt_iff (u.dateText_atOffset offset)
    (t.valid_atOffset offset).date (u.valid_atOffset offset).date ht hu, dayNumber_atOffset,
    dayNumber_atOffset]

end FromYearZero

end Instant

namespace Stamp

theorem instant?_eq_none_iff {stamp : Stamp} :
    stamp.instant? = none ↔ stamp = none ∨ ∃ w e, stamp = some w ∧ w.toInstant = .error e := by
  cases stamp with
  | none => simp [instant?]
  | some w =>
      cases h : w.toInstant with
      | error e => simp [instant?_of_error h, h]
      | ok t => simp [instant?_of_toInstant h, h]

theorem full_eq_absentText_iff (stamp : Stamp) (zone : Zone) :
    full stamp zone = absentText ↔ stamp.instant? = none := by
  unfold full
  split
  · rename_i t h
    have hlength : (t.inZone zone).fullText.toList.length = _ := (t.fullText_atOffset _).length
    have hne : (t.inZone zone).fullText ≠ absentText := by
      intro heq
      rw [heq] at hlength
      split at hlength <;> contradiction
    simp [hne, h]
  · rename_i h
    simp [h]

theorem date_eq_absentText_iff (stamp : Stamp) (zone : Zone) :
    date stamp zone = absentText ↔ stamp.instant? = none := by
  unfold date
  split
  · rename_i t h
    have hlength : (t.inZone zone).dateText.toList.length = _ := (t.dateText_atOffset _).length
    have hne : (t.inZone zone).dateText ≠ absentText := by
      intro heq
      rw [heq] at hlength
      split at hlength <;> contradiction
    simp [hne, h]
  · rename_i h
    simp [h]

/-- The texts of two readable stamps, `w` at `t` and `v` at `u`, tell seconds and local days apart
and put them in order. -/
structure ShownInOrder (offset : Offset) (w v : WireTime) (t u : Instant) : Prop where
  full_eq_iff : full (some w) (.fixed offset) = full (some v) (.fixed offset) ↔
    t.floorSecond = u.floorSecond
  date_eq_iff : date (some w) (.fixed offset) = date (some v) (.fixed offset) ↔
    t.localDay offset = u.localDay offset
  /-- Before the year 0 a sign stands in front, and the texts are not in the order of time. -/
  full_lt_iff : 0 ≤ (t.atOffset offset).date.year → 0 ≤ (u.atOffset offset).date.year →
    (full (some w) (.fixed offset) < full (some v) (.fixed offset) ↔ t.floorSecond < u.floorSecond)
  date_lt_iff : 0 ≤ (t.atOffset offset).date.year → 0 ≤ (u.atOffset offset).date.year →
    (date (some w) (.fixed offset) < date (some v) (.fixed offset) ↔
      t.localDay offset < u.localDay offset)

theorem ShownInOrder.of_readable {w v : WireTime} {t u : Instant} (hw : w.toInstant = .ok t)
    (hv : v.toInstant = .ok u) (offset : Offset) : ShownInOrder offset w v t u := by
  constructor <;> simp only [full, date, instant?_of_toInstant hw, instant?_of_toInstant hv]
  case full_eq_iff => exact t.fullText_atOffset_eq_iff u offset
  case date_eq_iff => exact t.dateText_atOffset_eq_iff u offset
  case full_lt_iff => exact Instant.fullText_atOffset_lt_iff
  case date_lt_iff => exact Instant.dateText_atOffset_lt_iff

/-- What is shown at one offset tells apart what can be told, in order. Where the offset changes a
wall may show one time twice. The absent text is left to stamps that name no instant, whatever the
zone. -/
theorem shownInOrder :
    (∀ (offset : Offset) (w v : WireTime) (t u : Instant), w.toInstant = .ok t →
      v.toInstant = .ok u → ShownInOrder offset w v t u) ∧
    ∀ (zone : Zone) (stamp : Stamp),
      (full stamp zone = absentText ↔
        stamp = none ∨ ∃ w e, stamp = some w ∧ w.toInstant = .error e) ∧
      (date stamp zone = absentText ↔
        stamp = none ∨ ∃ w e, stamp = some w ∧ w.toInstant = .error e) := by
  constructor
  · intro offset w v t u hw hv
    exact .of_readable hw hv offset
  · intro zone stamp
    rw [full_eq_absentText_iff, date_eq_absentText_iff, instant?_eq_none_iff]
    exact ⟨Iff.rfl, Iff.rfl⟩

/-- The last nanosecond of 1969 and the first of 1970; two fractions of one second. -/
theorem shownInOrder_epoch :
    full (some ⟨-1, 999999999⟩) .utc < full (some ⟨0, 0⟩) .utc ∧
    date (some ⟨-1, 999999999⟩) .utc < date (some ⟨0, 0⟩) .utc ∧
    full (some ⟨0, 0⟩) .utc = full (some ⟨0, 999999999⟩) .utc ∧
    date (some ⟨0, 0⟩) .utc ≠ absentText := by
  have hlast : WireTime.toInstant ⟨-1, 999999999⟩ = .ok ⟨-1, by decide, by decide⟩ := rfl
  have hfirst : WireTime.toInstant ⟨0, 0⟩ = .ok ⟨0, by decide, by decide⟩ := rfl
  have hlater : WireTime.toInstant ⟨0, 999999999⟩ = .ok ⟨999999999, by decide, by decide⟩ := rfl
  have hnight := shownInOrder.1 .utc _ _ _ _ hlast hfirst
  have hsecond := shownInOrder.1 .utc _ _ _ _ hfirst hlater
  refine ⟨(hnight.full_lt_iff (by decide) (by decide)).mpr (by decide),
    (hnight.date_lt_iff (by decide) (by decide)).mpr (by decide),
    hsecond.full_eq_iff.mpr (by decide), ?_⟩
  rw [Ne, (shownInOrder.2 _ _).2]
  simp [hfirst]

end Stamp

end AccountView
