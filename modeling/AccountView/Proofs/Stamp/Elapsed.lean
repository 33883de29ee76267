import AccountView.Stamp
import Mathlib.Tactic.SplitIfs

namespace AccountView

/-! Elapsed time to the nanosecond. Unit after unit, each rounded down from the one before, tells
the same as one division of the nanoseconds, and words are wide enough for it. -/

namespace Age

def nanosPerMinute : Int := 60000000000

def nanosPerHour : Int := 3600000000000

def nanosPerDay : Int := 86400000000000

/-- 30 days, from which on only the date tells. -/
def nanosToOlder : Int := 2592000000000000

/-! ### One division -/

theorem ofElapsed_eq (nanos : Int) : ofElapsed nanos =
    if nanos < nanosPerMinute then .justNow
    else if nanos < nanosPerHour then .minutes (nanos / nanosPerMinute).toNat
    else if nanos < nanosPerDay then .hours (nanos / nanosPerHour).toNat
    else if nanos < nanosToOlder then .days (nanos / nanosPerDay).toNat
    else .older := by
  have hseconds : nanos.toNat / 1000000000 < 60 ↔ nanos < nanosPerMinute := by
    simp only [nanosPerMinute]
    omega
  have hminutes : nanos.toNat / 1000000000 / 60 < 60 ↔ nanos < nanosPerHour := by
    simp only [nanosPerHour]
    omega
  have hhours : nanos.toNat / 1000000000 / 60 / 60 < 24 ↔ nanos < nanosPerDay := by
    simp only [nanosPerDay]
    omega
  have hdays : nanos.toNat / 1000000000 / 60 / 60 / 24 < 30 ↔ nanos < nanosToOlder := by
    simp only [nanosToOlder]
    omega
  have hminute : nanos.toNat / 1000000000 / 60 = (nanos / nanosPerMinute).toNat := by
    simp only [nanosPerMinute]
    omega
  have hhour : nanos.toNat / 1000000000 / 60 / 60 = (nanos / nanosPerHour).toNat := by
    simp only [nanosPerHour]
    omega
  have hday : nanos.toNat / 1000000000 / 60 / 60 / 24 = (nanos / nanosPerDay).toNat := by
    simp only [nanosPerDay]
    omega
  simp only [ofElapsed, hseconds, hminutes, hhours, hdays]
  rw [hday, hhour, hminute]

/-- The words for an elapsed time, with `date` for one past counting. -/
structure Tells (nanos : Int) (date text : String) : Prop where
  justNow : nanos < nanosPerMinute → text = "刚刚"
  minutes : nanosPerMinute ≤ nanos → nanos < nanosPerHour → ∃ n : Nat,
    (n : Int) = nanos / nanosPerMinute ∧ (1 ≤ n ∧ n ≤ 59) ∧ text = toString n ++ "分钟前"
  hours : nanosPerHour ≤ nanos → nanos < nanosPerDay → ∃ n : Nat,
    (n : Int) = nanos / nanosPerHour ∧ (1 ≤ n ∧ n ≤ 23) ∧ text = toString n ++ "小时前"
  days : nanosPerDay ≤ nanos → nanos < nanosToOlder → ∃ n : Nat,
    (n : Int) = nanos / nanosPerDay ∧ (1 ≤ n ∧ n ≤ 29) ∧ text = toString n ++ "天前"
  older : nanosToOlder ≤ nanos → text = date

theorem toNat_ediv_bounds {nanos unit : Int} (limit : Nat) (hunit : 0 < unit) (hmin : unit ≤ nanos)
    (hmax : nanos < unit * limit) :
    ((nanos / unit).toNat : Int) = nanos / unit ∧
      (1 ≤ (nanos / unit).toNat ∧ (nanos / unit).toNat < limit) := by
  have hpos : 1 ≤ nanos / unit := Int.le_ediv_of_mul_le hunit (by omega)
  have hlt : nanos / unit < limit := Int.ediv_lt_of_lt_mul hunit (by rwa [Int.mul_comm])
  omega

theorem tells_ofElapsed (nanos : Int) (date : String) :
    Tells nanos date ((ofElapsed nanos).text date) := by
  have hhour : nanosPerMinute < nanosPerHour := by decide
  have hday : nanosPerHour < nanosPerDay := by decide
  have holder : nanosPerDay < nanosToOlder := by decide
  rw [ofElapsed_eq]
  constructor
  case justNow =>
    intro h
    rw [if_pos h]
    rfl
  case minutes =>
    intro hmin hmax
    obtain ⟨hcount, hpos, hlt⟩ := toNat_ediv_bounds 60 (by decide) hmin hmax
    rw [if_neg (by omega), if_pos hmax]
    exact ⟨_, hcount, ⟨hpos, Nat.le_of_lt_succ hlt⟩, rfl⟩
  case hours =>
    intro hmin hmax
    obtain ⟨hcount, hpos, hlt⟩ := toNat_ediv_bounds 24 (by decide) hmin hmax
    rw [if_neg (by omega), if_neg (by omega), if_pos hmax]
    exact ⟨_, hcount, ⟨hpos, Nat.le_of_lt_succ hlt⟩, rfl⟩
  case days =>
    intro hmin hmax
    obtain ⟨hcount, hpos, hlt⟩ := toNat_ediv_bounds 30 (by decide) hmin hmax
    rw [if_neg (by omega), if_neg (by omega), if_neg (by omega), if_pos hmax]
    exact ⟨_, hcount, ⟨hpos, Nat.le_of_lt_succ hlt⟩, rfl⟩
  case older =>
    intro hmin
    rw [if_neg (by omega), if_neg (by omega), if_neg (by omega), if_neg (by omega)]
    rfl

/-- The date is told only past counting. -/
theorem text_ofElapsed_congr {nanos : Int} (h : nanos < nanosToOlder) (date other : String) :
    (ofElapsed nanos).text date = (ofElapsed nanos).text other := by
  cases hage : ofElapsed nanos with
  | older =>
      rw [ofElapsed_eq, if_pos h] at hage
      split_ifs at hage
  | justNow => rfl
  | minutes n => rfl
  | hours n => rfl
  | days n => rfl

/-! ### Words -/

/-- Elapsed time counted in words, each taken from the one before by a division that truncates. -/
structure Counts where
  seconds : Int64
  minutes : Int64
  hours : Int64
  days : Int64

namespace Counts

def ofSeconds (seconds : Int64) : Counts where
  seconds := seconds
  minutes := seconds / 60
  hours := seconds / 60 / 60
  days := seconds / 60 / 60 / 24

/-- From whole seconds toward zero, so what lies ahead counts below zero. -/
def between (t now : Instant) : Counts :=
  ofSeconds (Int64.ofInt ((now.nanos - t.nanos).tdiv Instant.nanosPerSecond))

def age (counts : Counts) : Age :=
  if counts.seconds < 60 then .justNow
  else if counts.minutes < 60 then .minutes counts.minutes.toInt.toNat
  else if counts.hours < 24 then .hours counts.hours.toInt.toNat
  else if counts.days < 30 then .days counts.days.toInt.toNat
  else .older

/-- No count has wrapped, and each is what one division of the nanoseconds gives. -/
structure Exact (counts : Counts) (nanos : Int) : Prop where
  seconds : counts.seconds.toInt = nanos.tdiv Instant.nanosPerSecond
  minutes : counts.minutes.toInt = nanos.tdiv nanosPerMinute
  hours : counts.hours.toInt = nanos.tdiv nanosPerHour
  days : counts.days.toInt = nanos.tdiv nanosPerDay

end Counts

theorem tdiv_tdiv (nanos : Int) (unit count : Nat) :
    (nanos.tdiv unit).tdiv count = nanos.tdiv (unit * count : Nat) := by
  obtain ⟨n, rfl | rfl⟩ := nanos.eq_nat_or_neg
  · exact congrArg Int.ofNat (Nat.div_div_eq_div_mul n unit count)
  · rw [Int.neg_tdiv, Int.neg_tdiv, Int.neg_tdiv]
    exact congrArg (fun m : Nat => -(m : Int)) (Nat.div_div_eq_div_mul n unit count)

theorem tdiv_nonpos {nanos unit : Int} (hunit : 0 < unit) (h : nanos ≤ 0) :
    nanos.tdiv unit ≤ 0 := by
  have hle : nanos.tdiv unit ≤ (0 : Int).tdiv unit := Int.tdiv_le_tdiv hunit h
  rwa [Int.zero_tdiv] at hle

theorem tdiv_lt_iff {nanos unit : Int} (limit : Nat) (hunit : 0 < unit) (hlimit : 0 < limit) :
    nanos.tdiv unit < limit ↔ nanos < unit * limit := by
  by_cases h : 0 ≤ nanos
  · rw [Int.tdiv_eq_ediv_of_nonneg h, Int.ediv_lt_iff_lt_mul hunit, Int.mul_comm]
  · have hbound : 0 < unit * limit := Int.mul_pos hunit (by omega)
    have hneg : nanos.tdiv unit ≤ 0 := tdiv_nonpos hunit (by omega)
    omega

/-- What lies ahead counts as nothing, whichever way it is rounded. -/
theorem toNat_tdiv (nanos : Int) {unit : Int} (hunit : 0 < unit) :
    (nanos.tdiv unit).toNat = (nanos / unit).toNat := by
  by_cases h : 0 ≤ nanos
  · rw [Int.tdiv_eq_ediv_of_nonneg h]
  · have htrunc : nanos.tdiv unit ≤ 0 := tdiv_nonpos hunit (by omega)
    have hfloor : nanos / unit < 0 := Int.ediv_neg_of_neg_of_pos (by omega) hunit
    omega

namespace Counts

theorem toInt_seconds_between (t now : Instant) : (between t now).seconds.toInt =
    (now.nanos - t.nanos).tdiv Instant.nanosPerSecond := by
  have hmin := t.minNanos_le
  have hmax := t.le_maxNanos
  have hmin' := now.minNanos_le
  have hmax' := now.le_maxNanos
  simp only [Instant.minNanos, Instant.maxNanos] at hmin hmax hmin' hmax'
  have hlower : (-631107230402000000000 : Int).tdiv Instant.nanosPerSecond ≤
      (now.nanos - t.nanos).tdiv Instant.nanosPerSecond :=
    Int.tdiv_le_tdiv (by decide) (by omega)
  have hupper : (now.nanos - t.nanos).tdiv Instant.nanosPerSecond ≤
      (631107230402000000000 : Int).tdiv Instant.nanosPerSecond :=
    Int.tdiv_le_tdiv (by decide) (by omega)
  exact Int64.toInt_ofInt_of_le (Int.le_trans (by decide) hlower)
    (Int.lt_of_le_of_lt hupper (by decide))

theorem toInt_div (unit count : Nat) {word divisor : Int64} {nanos : Int}
    (h : word.toInt = nanos.tdiv unit) (hdivisor : divisor.toInt = count) :
    (word / divisor).toInt = nanos.tdiv (unit * count : Nat) := by
  have hne : divisor ≠ -1 := by
    rintro rfl
    have hneg : (-1 : Int64).toInt = -1 := rfl
    omega
  rw [Int64.toInt_div_of_ne_right _ _ hne, h, hdivisor, tdiv_tdiv]

theorem exact_between (t now : Instant) : (between t now).Exact (now.nanos - t.nanos) := by
  have hseconds := toInt_seconds_between t now
  have hminutes : (between t now).minutes.toInt = (now.nanos - t.nanos).tdiv nanosPerMinute :=
    toInt_div 1000000000 60 hseconds rfl
  have hhours : (between t now).hours.toInt = (now.nanos - t.nanos).tdiv nanosPerHour :=
    toInt_div 60000000000 60 hminutes rfl
  have hdays : (between t now).days.toInt = (now.nanos - t.nanos).tdiv nanosPerDay :=
    toInt_div 3600000000000 24 hhours rfl
  exact ⟨hseconds, hminutes, hhours, hdays⟩

theorem Exact.age_eq {counts : Counts} {nanos : Int} (h : counts.Exact nanos) :
    counts.age = ofElapsed nanos := by
  have hseconds : counts.seconds < 60 ↔ nanos < nanosPerMinute := by
    rw [Int64.lt_iff_toInt_lt, h.seconds]
    exact tdiv_lt_iff 60 (by decide) (by decide)
  have hminutes : counts.minutes < 60 ↔ nanos < nanosPerHour := by
    rw [Int64.lt_iff_toInt_lt, h.minutes]
    exact tdiv_lt_iff 60 (by decide) (by decide)
  have hhours : counts.hours < 24 ↔ nanos < nanosPerDay := by
    rw [Int64.lt_iff_toInt_lt, h.hours]
    exact tdiv_lt_iff 24 (by decide) (by decide)
  have hdays : counts.days < 30 ↔ nanos < nanosToOlder := by
    rw [Int64.lt_iff_toInt_lt, h.days]
    exact tdiv_lt_iff 30 (by decide) (by decide)
  have hminute : (nanos.tdiv nanosPerMinute).toNat = (nanos / nanosPerMinute).toNat :=
    toNat_tdiv nanos (by decide)
  have hhour : (nanos.tdiv nanosPerHour).toNat = (nanos / nanosPerHour).toNat :=
    toNat_tdiv nanos (by decide)
  have hday : (nanos.tdiv nanosPerDay).toNat = (nanos / nanosPerDay).toNat :=
    toNat_tdiv nanos (by decide)
  simp only [age, ofElapsed_eq, hseconds, hminutes, hhours, hdays, h.minutes, h.hours, h.days,
    hminute, hhour, hday]

end Counts

end Age

/-- How long ago a readable stamp was is told to the nanosecond, in a zone only by the date, and
counting it in words tells the same. -/
theorem Stamp.tells_relative {w : WireTime} {t : Instant} (readable : w.toInstant = .ok t)
    (now : Instant) (zone : Zone) :
    Age.Tells (now.nanos - t.nanos) (date (some w) zone) (relative (some w) now zone) ∧
    (now.nanos - t.nanos < Age.nanosToOlder →
      ∀ other, relative (some w) now other = relative (some w) now zone) ∧
    (Age.Counts.between t now).Exact (now.nanos - t.nanos) ∧
    relative (some w) now zone = (Age.Counts.between t now).age.text (date (some w) zone) := by
  have hrelative (zone : Zone) : relative (some w) now zone =
      (Age.ofElapsed (now.nanos - t.nanos)).text (date (some w) zone) := by
    rw [relative, instant?_of_toInstant readable]
  have hexact := Age.Counts.exact_between t now
  refine ⟨?_, ?_, hexact, ?_⟩
  · rw [hrelative]
    exact Age.tells_ofElapsed _ _
  · intro h other
    rw [hrelative, hrelative]
    exact Age.text_ofElapsed_congr h _ _
  · rw [hrelative, hexact.age_eq]

/-- One nanosecond short of an hour, which began a nanosecond before 1970; the longest time that can
have elapsed; and a date in a zone that has changed its offset since. -/
theorem Stamp.tells_relative_thresholds :
    relative (some ⟨-1, 999999999⟩) ⟨3599999999998, by decide, by decide⟩ .utc = "59分钟前" ∧
    relative (some ⟨-377705023201, 0⟩) .latest .utc = "-9999-01-02" ∧
    (Age.Counts.between .earliest .latest).seconds.toInt = 631107230401 ∧
    relative (some ⟨0, 0⟩) .latest
      ⟨fun t => if t < .latest then ⟨-1, by decide, by decide⟩ else .utc⟩ = "1969-12-31" := by
  have hbefore : WireTime.toInstant ⟨-1, 999999999⟩ = .ok ⟨-1, by decide, by decide⟩ := rfl
  have hearliest : WireTime.toInstant ⟨-377705023201, 0⟩ = .ok .earliest := rfl
  have hhour := (tells_relative hbefore ⟨3599999999998, by decide, by decide⟩ .utc).1
  have hlongest := tells_relative hearliest .latest .utc
  obtain ⟨n, hcount, _, htext⟩ := hhour.minutes (by decide) (by decide)
  have hminutes : n = 59 := by
    have hvalue : (3599999999998 - -1 : Int) / Age.nanosPerMinute = 59 := by decide
    rw [hvalue] at hcount
    omega
  refine ⟨?_, ?_, ?_, ?_⟩
  · rw [htext, hminutes]
    rfl
  · have hdate : date (some ⟨-377705023201, 0⟩) .utc = "-9999-01-02" := by decide
    rw [hlongest.1.older (by decide), hdate]
  · rw [hlongest.2.2.1.seconds]
    decide
  · have hepoch : WireTime.toInstant ⟨0, 0⟩ = .ok default := rfl
    rw [(tells_relative hepoch .latest _).1.older (by decide)]
    decide

end AccountView
