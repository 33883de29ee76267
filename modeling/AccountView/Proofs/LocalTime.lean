import AccountView.Proofs.Calendar
import AccountView.Stamp
import Mathlib.Algebra.Group.Nat.Defs

namespace AccountView

/-! What a stamp shows in a zone: the text is that of a date and a time of day, and the date and the
time of day are those of the instant at the offset that the zone then has. -/

/-! ### Numerals of a fixed width -/

/-- Digits that write a number in a given width. -/
structure ZeroPadded (width n : Nat) (text : List Char) : Prop where
  length : text.length = width
  isDigit_of_mem : ∀ c ∈ text, c.isDigit = true
  value : Nat.ofDigitChars 10 text 0 = n

theorem zeroPadded_padded {width n : Nat} (hwidth : 0 < width) (h : n < 10 ^ width) :
    ZeroPadded width n (Decimal.padded width n).toList := by
  have hlength : (Nat.toDigits 10 n).length ≤ width :=
    (Nat.length_toDigits_le_iff (by decide) hwidth).mpr h
  have htext : (Decimal.padded width n).toList =
      List.replicate (width - (Nat.toDigits 10 n).length) '0' ++ Nat.toDigits 10 n :=
    String.toList_ofList
  rw [htext]
  refine ⟨?_, ?_, ?_⟩
  · rw [List.length_append, List.length_replicate]
    omega
  · intro c hc
    rcases List.mem_append.mp hc with hzero | hdigit
    · rw [List.eq_of_mem_replicate hzero]
      rfl
    · exact Nat.isDigit_of_mem_toDigits (by decide) (by decide) hdigit
  · rw [Nat.ofDigitChars_append, Nat.ofDigitChars_replicate_zero, Nat.mul_zero,
      Nat.ofDigitChars_ten_toDigits]

theorem ZeroPadded.not_mem {width n : Nat} {text : List Char} (h : ZeroPadded width n text)
    {c : Char} (hc : c.isDigit = false) : c ∉ text := by
  intro hmem
  have := h.isDigit_of_mem c hmem
  rw [hc] at this
  contradiction

theorem padded_succ {width n : Nat} (hwidth : 0 < width) (h : 10 ^ width ≤ n) :
    Decimal.padded width n = Decimal.padded (width + 1) n := by
  have hlength : width < (Nat.toDigits 10 n).length := by
    rw [← Nat.not_le, Nat.length_toDigits_le_iff (by decide) hwidth]
    omega
  have hzeros : width - (Nat.toDigits 10 n).length = 0 := by omega
  have hzeros' : width + 1 - (Nat.toDigits 10 n).length = 0 := by omega
  rw [Decimal.padded, Decimal.padded, List.leftpad, List.leftpad, hzeros, hzeros']

/-- The text of a year. A sign takes the place of a zero, if there is one to take. -/
inductive YearText : Int → List Char → Prop
  | positive {n : Nat} {text : List Char} (digits : ZeroPadded 4 n text) : YearText n text
  | negative {n : Nat} {text : List Char} (pos : 0 < n) (le : n ≤ 999)
      (digits : ZeroPadded 3 n text) : YearText (-n) ('-' :: text)
  | early {n : Nat} {text : List Char} (lt : 999 < n) (digits : ZeroPadded 4 n text) :
      YearText (-n) ('-' :: text)

theorem yearText_signPadded {year : Int} (hmin : -9999 ≤ year) (hmax : year ≤ 9999) :
    YearText year (Decimal.signPadded 4 year).toList := by
  unfold Decimal.signPadded
  split
  · rename_i hneg
    obtain ⟨n, rfl⟩ : ∃ n : Nat, year = -n := ⟨year.natAbs, by omega⟩
    have habs : (-(n : Int)).natAbs = n := by omega
    rw [habs, String.toList_append]
    by_cases hle : n ≤ 999
    · exact .negative (by omega) hle (zeroPadded_padded (by decide) (by omega))
    · have hpadded : Decimal.padded 3 n = Decimal.padded 4 n := padded_succ (by decide) (by omega)
      rw [hpadded]
      exact .early (by omega) (zeroPadded_padded (by decide) (by omega))
  · rename_i hpos
    obtain ⟨n, rfl⟩ : ∃ n : Nat, year = n := ⟨year.natAbs, by omega⟩
    rw [Int.natAbs_natCast]
    exact .positive (zeroPadded_padded (by decide) (by omega))

theorem YearText.length {year : Int} {text : List Char} (h : YearText year text) :
    text.length = if -999 ≤ year then 4 else 5 := by
  cases h with
  | positive digits =>
      rw [digits.length, if_pos (by omega)]
  | negative pos le digits =>
      rw [List.length_cons, digits.length, if_pos (by omega)]
  | early lt digits =>
      rw [List.length_cons, digits.length, if_neg (by omega)]

theorem YearText.not_mem {year : Int} {text : List Char} (h : YearText year text) : ' ' ∉ text := by
  cases h with
  | positive digits => exact digits.not_mem rfl
  | negative pos le digits => simpa using digits.not_mem rfl
  | early lt digits => simpa using digits.not_mem rfl

/-- Before a hyphen no year is digits alone: the hyphen or its own sign follows them. -/
theorem YearText.head?_dropWhile {year : Int} {text : List Char} (h : YearText year text)
    (rest : List Char) : ((text ++ '-' :: rest).dropWhile Char.isDigit).head? = some '-' := by
  cases h with
  | positive digits =>
      rw [List.dropWhile_append_of_pos digits.isDigit_of_mem]
      rfl
  | negative pos le digits => rfl
  | early lt digits => rfl

/-! ### The text of a local time -/

namespace LocalTime

def DateText (date : CivilDate) (text : List Char) : Prop :=
  ∃ year month day, YearText date.year year ∧ ZeroPadded 2 date.month month ∧
    ZeroPadded 2 date.day day ∧ text = year ++ '-' :: (month ++ '-' :: day)

/-- The fields of a date and a time of day, each in its width. -/
def FullText (time : LocalTime) (text : List Char) : Prop :=
  ∃ date hour minute second, DateText time.date date ∧ ZeroPadded 2 time.hour hour ∧
    ZeroPadded 2 time.minute minute ∧ ZeroPadded 2 time.second second ∧
    text = date ++ ' ' :: (hour ++ ':' :: (minute ++ ':' :: second))

theorem dateText_toList {time : LocalTime} (h : time.Valid) (hmin : -9999 ≤ time.date.year)
    (hmax : time.date.year ≤ 9999) : DateText time.date time.dateText.toList := by
  have hmonth := h.date.month_le
  have hday := Nat.le_trans h.date.day_le (CivilDate.daysInMonth_le _ _)
  refine ⟨_, _, _, yearText_signPadded hmin hmax, zeroPadded_padded (by decide) (by omega),
    zeroPadded_padded (by decide) (by omega), ?_⟩
  simp [dateText]

theorem fullText_toList {time : LocalTime} (h : time.Valid) (hmin : -9999 ≤ time.date.year)
    (hmax : time.date.year ≤ 9999) : FullText time time.fullText.toList := by
  have hhour := h.hour
  have hminute := h.minute
  have hsecond := h.second
  refine ⟨_, _, _, _, dateText_toList h hmin hmax, zeroPadded_padded (by decide) (by omega),
    zeroPadded_padded (by decide) (by omega), zeroPadded_padded (by decide) (by omega), ?_⟩
  simp [fullText, clockText]

theorem DateText.not_mem {date : CivilDate} {text : List Char} (h : DateText date text) :
    ' ' ∉ text := by
  obtain ⟨year, month, day, hyear, hmonth, hday, rfl⟩ := h
  have hspace : Char.isDigit ' ' = false := rfl
  simp [hyear.not_mem, hmonth.not_mem hspace, hday.not_mem hspace]

theorem DateText.head?_dropWhile {date : CivilDate} {text : List Char} (h : DateText date text) :
    (text.dropWhile Char.isDigit).head? = some '-' := by
  obtain ⟨year, month, day, hyear, _, _, rfl⟩ := h
  exact hyear.head?_dropWhile _

theorem DateText.length {date : CivilDate} {text : List Char} (h : DateText date text) :
    text.length = if -999 ≤ date.year then 10 else 11 := by
  obtain ⟨year, month, day, hyear, hmonth, hday, rfl⟩ := h
  simp only [List.length_append, List.length_cons, hyear.length, hmonth.length, hday.length]
  split <;> rfl

theorem FullText.length {time : LocalTime} {text : List Char} (h : FullText time text) :
    text.length = if -999 ≤ time.date.year then 19 else 20 := by
  obtain ⟨date, hour, minute, second, hdate, hhour, hminute, hsecond, rfl⟩ := h
  simp only [List.length_append, List.length_cons, hdate.length, hhour.length, hminute.length,
    hsecond.length]
  split <;> rfl

/-- The date is written before the only space. -/
theorem dateText_eq_takeWhile {time : LocalTime} (h : DateText time.date time.dateText.toList) :
    time.dateText.toList = time.fullText.toList.takeWhile (· ≠ ' ') := by
  have hfull : time.fullText.toList = time.dateText.toList ++ ' ' :: time.clockText.toList := by
    simp [fullText]
  have hdate : ∀ c ∈ time.dateText.toList, decide (c ≠ ' ') = true := by
    intro c hc
    have hspace : c ≠ ' ' := fun heq => h.not_mem (heq ▸ hc)
    exact decide_eq_true hspace
  rw [hfull, List.takeWhile_append_of_pos hdate, List.takeWhile_cons_of_neg (by decide),
    List.append_nil]

end LocalTime

/-! ### The local time of an instant -/

namespace Instant

theorem counted_atOffset (t : Instant) (offset : Offset) :
    (t.atOffset offset).date.counted * 86400 + (t.atOffset offset).hour * 3600 +
      (t.atOffset offset).minute * 60 + (t.atOffset offset).second =
        t.nanos / 1000000000 + offset.seconds := by
  rw [← CivilDate.dayNumber_eq_counted (t.valid_atOffset offset).date]
  exact t.toSeconds_atOffset offset

theorem year_atOffset (t : Instant) (offset : Offset) :
    -9999 ≤ (t.atOffset offset).date.year ∧ (t.atOffset offset).date.year ≤ 9999 := by
  have hday : (t.atOffset offset).date.dayNumber =
      (t.nanos / 1000000000 + offset.seconds) / 86400 := CivilDate.dayNumber_ofDayNumber _
  have hrange : -4371587 ≤ (t.atOffset offset).date.dayNumber ∧
      (t.atOffset offset).date.dayNumber < 2932897 := by
    have hmin := t.minNanos_le
    have hmax := t.le_maxNanos
    have hwest := offset.neg_le
    have heast := offset.le
    simp only [minNanos, maxNanos] at hmin hmax
    rw [hday]
    omega
  have hfirst : CivilDate.yearStart (-9999) = -4371587 := by decide
  have hlast : CivilDate.yearStart 10000 = 2932897 := by decide
  obtain ⟨hstart, hend⟩ := CivilDate.dayNumber_bounds (t.valid_atOffset offset).date
  constructor
  · by_cases h : (t.atOffset offset).date.year + 1 ≤ -9999
    · have hmono := CivilDate.yearStart_mono h
      omega
    · omega
  · by_cases h : 10000 ≤ (t.atOffset offset).date.year
    · have hmono := CivilDate.yearStart_mono h
      omega
    · omega

theorem fullText_atOffset (t : Instant) (offset : Offset) :
    (t.atOffset offset).FullText (t.atOffset offset).fullText.toList := by
  obtain ⟨hmin, hmax⟩ := t.year_atOffset offset
  exact LocalTime.fullText_toList (t.valid_atOffset offset) hmin hmax

theorem dateText_atOffset (t : Instant) (offset : Offset) :
    LocalTime.DateText (t.atOffset offset).date (t.atOffset offset).dateText.toList := by
  obtain ⟨hmin, hmax⟩ := t.year_atOffset offset
  exact LocalTime.dateText_toList (t.valid_atOffset offset) hmin hmax

end Instant

/-- The text of a readable stamp is that of the local time at its instant, whichever the instant and
the zone. -/
theorem Stamp.full_of_readable {w : WireTime} {t : Instant} (readable : w.toInstant = .ok t)
    (zone : Zone) : ∃ time : LocalTime, time.Valid ∧
      (-9999 ≤ time.date.year ∧ time.date.year ≤ 9999) ∧
      time.date.counted * 86400 + time.hour * 3600 + time.minute * 60 + time.second =
        t.nanos / 1000000000 + (zone.offsetAt t).seconds ∧
      time.FullText (full (some w) zone).toList ∧
      (full (some w) zone).length = (if -999 ≤ time.date.year then 19 else 20) ∧
      (date (some w) zone).toList = (full (some w) zone).toList.takeWhile (· ≠ ' ') := by
  have hfull : full (some w) zone = (t.inZone zone).fullText := by
    rw [full, instant?_of_toInstant readable]
  have hdate : date (some w) zone = (t.inZone zone).dateText := by
    rw [date, instant?_of_toInstant readable]
  have htext : (t.inZone zone).FullText (t.inZone zone).fullText.toList := t.fullText_atOffset _
  rw [hfull, hdate]
  refine ⟨t.inZone zone, t.valid_atOffset _, t.year_atOffset _, t.counted_atOffset _, htext, ?_, ?_⟩
  · rw [← String.length_toList, htext.length]
  · exact LocalTime.dateText_eq_takeWhile (t.dateText_atOffset _)

theorem Stamp.full_of_readable_earliest :
    full (some ⟨-377705023201, 0⟩) (.fixed ⟨-93599, by decide, by decide⟩) =
      "-9999-01-01 00:00:00" ∧
    ∃ time : LocalTime, time.Valid ∧ time.FullText "-9999-01-01 00:00:00".toList ∧
      time.date.counted * 86400 + time.hour * 3600 + time.minute * 60 + time.second =
        -377705116800 := by
  let zone : Zone := .fixed ⟨-93599, by decide, by decide⟩
  have hfull : full (some ⟨-377705023201, 0⟩) zone = "-9999-01-01 00:00:00" := by decide
  have hreadable : WireTime.toInstant ⟨-377705023201, 0⟩ = .ok .earliest := rfl
  obtain ⟨time, hvalid, _, hcounted, htext, _, _⟩ := full_of_readable hreadable zone
  rw [hfull] at htext
  exact ⟨hfull, time, hvalid, htext, hcounted⟩

end AccountView
