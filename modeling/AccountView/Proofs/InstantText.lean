import AccountView.InstantText.Reader
import AccountView.InstantText.Writer
import AccountView.Proofs.Document.Numerals
import AccountView.Proofs.LocalTime
import Mathlib.Data.List.DropRight

namespace AccountView

/-! The extended form of an instant: what is written in it is read back, whatever the year, the
offset and the number of fraction digits. -/

namespace InstantText

/-! ### The extended form -/

/-- Four digits, or a minus sign and six digits before the year 0. -/
inductive WrittenYear : Int → List Char → Prop
  | common {n : Nat} {text : List Char} (digits : ZeroPadded 4 n text) : WrittenYear n text
  | early {n : Nat} {text : List Char} (pos : 0 < n) (le : n ≤ 9999)
      (digits : ZeroPadded 6 n text) : WrittenYear (-n) ('-' :: text)

inductive WrittenDate (date : CivilDate) : List Char → Prop
  | intro {year month day : List Char} (writtenYear : WrittenYear date.year year)
      (writtenMonth : ZeroPadded 2 date.month month) (writtenDay : ZeroPadded 2 date.day day) :
      WrittenDate date (year ++ '-' :: (month ++ '-' :: day))

inductive WrittenClock (hour minute second : Nat) : List Char → Prop
  | intro {h m s : List Char} (minute_lt : minute < 60) (second_lt : second < 60)
      (writtenHour : ZeroPadded 2 hour h) (writtenMinute : ZeroPadded 2 minute m)
      (writtenSecond : ZeroPadded 2 second s) :
      WrittenClock hour minute second (h ++ ':' :: (m ++ ':' :: s))

/-- Up to nine digits after a point. Zero may be left out. -/
inductive WrittenFraction : Nat → List Char → Prop
  | none : WrittenFraction 0 []
  | digits {width n : Nat} {text : List Char} (pos : 0 < width) (le : width ≤ 9)
      (digits : ZeroPadded width n text) : WrittenFraction (n * 10 ^ (9 - width)) ('.' :: text)

/-- An offset with a sign, or the letter for UTC. -/
inductive WrittenOffset : Offset → List Char → Prop
  | utc : WrittenOffset .utc ['Z']
  | east {offset : Offset} {hour minute second : Nat} {text : List Char}
      (clock : WrittenClock hour minute second text)
      (value : offset.seconds = hour * 3600 + minute * 60 + second) :
      WrittenOffset offset ('+' :: text)
  | west {offset : Offset} {hour minute second : Nat} {text : List Char}
      (clock : WrittenClock hour minute second text) (neg : offset.seconds < 0)
      (value : offset.seconds = -(hour * 3600 + minute * 60 + second)) :
      WrittenOffset offset ('-' :: text)

/-- A local time with nanoseconds and its offset in extended form. -/
inductive Spelling (time : LocalTime) (nanoseconds : Nat) (offset : Offset) : List Char → Prop
  | intro {date clock fraction ending : List Char} (valid : time.Valid)
      (writtenDate : WrittenDate time.date date)
      (writtenClock : WrittenClock time.hour time.minute time.second clock)
      (writtenFraction : WrittenFraction nanoseconds fraction)
      (writtenOffset : WrittenOffset offset ending) :
      Spelling time nanoseconds offset (date ++ 'T' :: (clock ++ (fraction ++ ending)))

/-! ### Reading the parts -/

section Parts

variable {rest : List Char}

theorem digits?_append {width n : Nat} {text : List Char} (h : ZeroPadded width n text) :
    digits? width (text ++ rest) = some (n, rest) := by
  have htake : (text ++ rest).take width = text := by rw [← h.length, List.take_left]
  have hdrop : (text ++ rest).drop width = rest := by rw [← h.length, List.drop_left]
  have hdigits : text.all Char.isDigit := List.all_eq_true.mpr h.isDigit_of_mem
  simp only [digits?, htake, hdrop, h.length, hdigits, h.value, and_self, if_true]

theorem twoDigits?_append {limit n : Nat} {text : List Char} (h : ZeroPadded 2 n text)
    (hle : n ≤ limit) : twoDigits? limit (text ++ rest) = some (n, rest) := by
  simp [twoDigits?, digits?_append h, hle]

theorem year?_append {year : Int} {text : List Char} (h : WrittenYear year text) :
    year? (text ++ rest) = some (year, rest) := by
  cases h with
  | @common n text digits =>
      -- Neither sign is a digit, so the text is tried as four digits.
      have hread : digits? 4 (text ++ rest) = some (n, rest) := digits?_append digits
      obtain ⟨c, tail, rfl⟩ : ∃ c tail, text = c :: tail :=
        List.exists_cons_of_length_eq_add_one digits.length
      have hc : c.isDigit = true := digits.isDigit_of_mem c List.mem_cons_self
      have hplus : c ≠ '+' := Document.ne_of_isDigit hc rfl
      have hminus : c ≠ '-' := Document.ne_of_isDigit hc rfl
      simp only [List.cons_append] at hread
      simp [year?, hplus, hminus, hread]
  | early pos le digits =>
      simp [year?, digits?_append digits, Nat.one_le_iff_ne_zero.mp pos, le]

theorem date?_append {date : CivilDate} {text : List Char} (h : WrittenDate date text)
    (hvalid : date.Valid) : date? (text ++ rest) = some (date, rest) := by
  cases h with
  | intro writtenYear writtenMonth writtenDay =>
      simp [date?, year?_append writtenYear, digits?_append writtenMonth,
        digits?_append writtenDay, char?, hvalid]

/-- Neither a digit nor a fraction mark stands at the front. -/
structure EndsClock (text : List Char) : Prop where
  noDigit : Document.NoDigit text
  noMark : ∀ c ∈ text.head?, c ≠ '.' ∧ c ≠ ','

theorem fraction?_append {nanoseconds : Nat} {text : List Char}
    (h : WrittenFraction nanoseconds text) (hrest : EndsClock rest) :
    fraction? (text ++ rest) = some (nanoseconds, rest) := by
  cases h with
  | none =>
      cases rest with
      | nil => rfl
      | cons c rest =>
          have hc := hrest.noMark c rfl
          simp [fraction?, hc.1, hc.2]
  | @digits width n text pos le digits =>
      -- Nine characters are looked at, of which the last may lie past the digits.
      have htake : (text ++ rest).take 9 = text ++ rest.take (9 - width) := by
        rw [List.take_append, List.take_of_length_le (by rw [digits.length]; exact le),
          digits.length]
      have hends : Document.NoDigit (rest.take (9 - width)) := by
        intro c hc
        rw [List.head?_take] at hc
        split at hc
        · contradiction
        · exact hrest.noDigit c hc
      have hdigits : ((text ++ rest).take 9).takeWhile Char.isDigit = text := by
        rw [htake, Document.takeWhile_digits digits.isDigit_of_mem hends]
      have hne : text ≠ [] := List.ne_nil_of_length_pos (by rw [digits.length]; exact pos)
      have hvalue : Nat.ofDigitChars 10 (text.rightpad 9 '0') 0 = n * 10 ^ (9 - width) := by
        rw [List.rightpad, Nat.ofDigitChars_append, Nat.ofDigitChars_replicate_zero, digits.value,
          digits.length, Nat.mul_comm]
      simp only [List.cons_append, fraction?, true_or, if_true, hdigits, if_neg hne, hvalue,
        List.drop_left]

theorem clockParts?_append {hour minute second nanoseconds hourLimit secondLimit : Nat}
    {clock fraction : List Char} (h : WrittenClock hour minute second clock)
    (hhour : hour ≤ hourLimit) (hsecond : 59 ≤ secondLimit)
    (hfraction : WrittenFraction nanoseconds fraction) (hrest : EndsClock rest) :
    clockParts? hourLimit secondLimit (clock ++ (fraction ++ rest)) =
      some (⟨hour, minute, second, nanoseconds⟩, rest) := by
  cases h with
  | intro minute_lt second_lt writtenHour writtenMinute writtenSecond =>
      simp [clockParts?, nextPart, twoDigits?_append writtenHour hhour,
        twoDigits?_append writtenMinute (Nat.le_of_lt_succ minute_lt),
        twoDigits?_append writtenSecond (Nat.le_trans (Nat.le_of_lt_succ second_lt) hsecond),
        fraction?_append hfraction hrest]

theorem time?_append {time : LocalTime} {nanoseconds : Nat} {clock fraction : List Char}
    (hvalid : time.Valid) (h : WrittenClock time.hour time.minute time.second clock)
    (hfraction : WrittenFraction nanoseconds fraction) (hrest : EndsClock rest) :
    time? (clock ++ (fraction ++ rest)) =
      some (⟨time.hour, time.minute, time.second, nanoseconds⟩, rest) := by
  have hhour : time.hour ≤ 23 := Nat.le_of_lt_succ hvalid.hour
  have hsecond : min time.second 59 = time.second :=
    Nat.min_eq_left (Nat.le_of_lt_succ hvalid.second)
  have hparts := clockParts?_append h hhour (Nat.le_succ 59) hfraction hrest
  simp [time?, hparts, hsecond]

theorem signed_append {offset : Offset} {sign : Int} {hour minute second : Nat} {clock : List Char}
    (h : WrittenClock hour minute second clock) (hhour : hour ≤ 25)
    (value : offset.seconds = sign * (hour * 3600 + minute * 60 + second))
    (hrest : EndsClock rest) : offset?.signed sign (clock ++ rest) = some (offset, rest) := by
  have hparts := clockParts?_append h hhour (Nat.le_refl 59) .none hrest
  have hoffset : Offset.ofSeconds? (sign * (hour * 3600 + minute * 60 + second)) = some offset :=
    Offset.ofSeconds?_eq_some_iff.mpr value
  rw [List.nil_append] at hparts
  simp [offset?.signed, hparts, hoffset]

theorem offset?_append {offset : Offset} {text : List Char} (h : WrittenOffset offset text)
    (hrest : EndsClock rest) : offset? (text ++ rest) = some (offset, rest) := by
  have hwest := offset.neg_le
  have heast := offset.le
  cases h with
  | utc => rfl
  | east clock value => exact signed_append clock (by omega) (by omega) hrest
  | west clock neg value => exact signed_append clock (by omega) (by omega) hrest

theorem endsClock_nil : EndsClock [] := ⟨by simp [Document.NoDigit], by simp⟩

theorem WrittenOffset.endsClock {offset : Offset} {text : List Char}
    (h : WrittenOffset offset text) : EndsClock text := by
  cases h with
  | utc => exact ⟨by simp [Document.NoDigit], by simp⟩
  | east clock value => exact ⟨by simp [Document.NoDigit], by simp⟩
  | west clock neg value => exact ⟨by simp [Document.NoDigit], by simp⟩

end Parts

/-! ### Reading the whole -/

/-- The count of nanoseconds that a local time and an offset denote; no instant need have it. -/
def denoted (time : LocalTime) (nanoseconds : Nat) (offset : Offset) : Int :=
  (time.toSeconds - offset.seconds) * Instant.nanosPerSecond + nanoseconds

theorem mark_cons (rest : List Char) :
    word? isDateEnd (fun _ => false) ('T' :: rest) = some ((), rest) := by
  cases rest <;> rfl

/-- No instant has this count of nanoseconds. -/
def Outside (nanos : Int) : Prop := nanos < Instant.minNanos ∨ Instant.maxNanos < nanos

/-- A date, a time of day and an offset at the front of a text, in whichever form they are read. -/
inductive Opens (text : List Char) (time : LocalTime) (nanoseconds : Nat) (offset : Offset)
    (rest : List Char) : Prop
  | intro {afterDate afterMark afterClock : List Char}
      (date : date? text = some (time.date, afterDate))
      (mark : word? isDateEnd (fun _ => false) afterDate = some ((), afterMark))
      (clock : time? afterMark =
        some (⟨time.hour, time.minute, time.second, nanoseconds⟩, afterClock))
      (ending : offset? afterClock = some (offset, rest))

theorem Opens.read? {text : List Char} {time : LocalTime} {nanoseconds : Nat} {offset : Offset}
    {rest : List Char} (h : Opens text time nanoseconds offset rest) :
    read? text =
      (annotations? rest).bind fun _ => Instant.ofNanos? (denoted time nanoseconds offset) := by
  obtain ⟨date, mark, clock, ending⟩ := h
  simp [InstantText.read?, date, mark, clock, ending, denoted]

theorem Spelling.opens {time : LocalTime} {nanoseconds : Nat} {offset : Offset} {text : List Char}
    (h : Spelling time nanoseconds offset text) : Opens text time nanoseconds offset [] := by
  cases h with
  | intro valid writtenDate writtenClock writtenFraction writtenOffset =>
      have hoffset := offset?_append writtenOffset endsClock_nil
      rw [List.append_nil] at hoffset
      exact ⟨date?_append writtenDate valid.date, mark_cons _,
        time?_append valid writtenClock writtenFraction writtenOffset.endsClock, hoffset⟩

theorem Spelling.read? {time : LocalTime} {nanoseconds : Nat} {offset : Offset} {text : List Char}
    (h : Spelling time nanoseconds offset text) :
    read? text = Instant.ofNanos? (denoted time nanoseconds offset) := by
  rw [h.opens.read?]
  rfl

/-! ### Writing -/

theorem writtenYear_year {n : Int} (hmin : -9999 ≤ n) (hmax : n ≤ 9999) :
    WrittenYear n (year n).toList := by
  unfold year
  split
  · obtain ⟨m, rfl⟩ : ∃ m : Nat, n = -m := ⟨n.natAbs, by omega⟩
    rw [Int.natAbs_neg, Int.natAbs_natCast, String.toList_append]
    exact .early (by omega) (by omega) (zeroPadded_padded (by decide) (by omega))
  · obtain ⟨m, rfl⟩ : ∃ m : Nat, n = m := ⟨n.natAbs, by omega⟩
    rw [Int.natAbs_natCast]
    exact .common (zeroPadded_padded (by decide) (by omega))

/-- The nine digits of a count of nanoseconds, or fewer where only zeros are left out. -/
theorem writtenFraction_of_append {n zeros : Nat} {digits : List Char}
    (h : ZeroPadded 9 n (digits ++ List.replicate zeros '0')) (hne : digits ≠ []) :
    WrittenFraction n ('.' :: digits) := by
  obtain ⟨hlength, hdigits, hvalue⟩ := h
  rw [List.length_append, List.length_replicate] at hlength
  rw [Nat.ofDigitChars_append, Nat.ofDigitChars_replicate_zero, Nat.mul_comm] at hvalue
  have hzeros : zeros = 9 - digits.length := by omega
  have hpadded : ZeroPadded digits.length (Nat.ofDigitChars 10 digits 0) digits :=
    ⟨rfl, fun c hc => hdigits c (List.mem_append_left _ hc), rfl⟩
  rw [← hvalue, hzeros]
  exact .digits (List.length_pos_iff.mpr hne) (by omega) hpadded

theorem padded_eq_fractionDigits_append (n : Nat) : ∃ zeros,
    (Decimal.padded 9 n).toList = fractionDigits n ++ List.replicate zeros '0' := by
  have hdigits : fractionDigits n = (Decimal.padded 9 n).toList.rdropWhile (· == '0') := by
    rw [Decimal.padded, String.toList_ofList]
    rfl
  have hzeros : ∀ c ∈ (Decimal.padded 9 n).toList.rtakeWhile (· == '0'), c = '0' := by
    intro c hc
    have hzero : (c == '0') = true := List.mem_rtakeWhile_imp (p := (· == '0')) hc
    exact eq_of_beq hzero
  refine ⟨((Decimal.padded 9 n).toList.rtakeWhile (· == '0')).length, ?_⟩
  rw [← List.eq_replicate_of_mem hzeros, hdigits, List.rdropWhile_append_rtakeWhile]

theorem writtenFraction_fraction {n : Nat} (h : n < 10 ^ 9) :
    WrittenFraction n (fraction n).toList := by
  have hpadded : ZeroPadded 9 n (Decimal.padded 9 n).toList := zeroPadded_padded (by decide) h
  obtain ⟨zeros, htext⟩ := padded_eq_fractionDigits_append n
  rw [htext] at hpadded
  unfold fraction
  split
  · rename_i hnil
    have hzero : n = 0 := by
      rw [hnil, List.nil_append] at hpadded
      rw [← hpadded.value, Nat.ofDigitChars_replicate_zero, Nat.mul_zero]
    rw [hzero]
    exact .none
  · rename_i hne
    have hpoint : ("." ++ String.ofList (fractionDigits n)).toList = '.' :: fractionDigits n := by
      simp
    rw [hpoint]
    exact writtenFraction_of_append hpadded hne

theorem writtenClock_padded {hour minute second : Nat} (hhour : hour < 100) (hminute : minute < 60)
    (hsecond : second < 60) : WrittenClock hour minute second (Decimal.padded 2 hour ++ ":" ++
      Decimal.padded 2 minute ++ ":" ++ Decimal.padded 2 second).toList := by
  have htext : (Decimal.padded 2 hour ++ ":" ++ Decimal.padded 2 minute ++ ":" ++
      Decimal.padded 2 second).toList = (Decimal.padded 2 hour).toList ++
        ':' :: ((Decimal.padded 2 minute).toList ++ ':' :: (Decimal.padded 2 second).toList) := by
    simp
  rw [htext]
  exact .intro hminute hsecond (zeroPadded_padded (by decide) hhour)
    (zeroPadded_padded (by decide) (by omega)) (zeroPadded_padded (by decide) (by omega))

theorem writtenOffset_offsetText (offset : Offset) :
    WrittenOffset offset (offsetText offset).toList := by
  have hwest := offset.neg_le
  have heast := offset.le
  obtain ⟨seconds, hseconds⟩ : ∃ n : Nat, n = offset.seconds.natAbs := ⟨_, rfl⟩
  have hclock : WrittenClock (seconds / 3600) (seconds / 60 % 60) (seconds % 60) _ :=
    writtenClock_padded (by omega) (by omega) (by omega)
  by_cases hneg : offset.seconds < 0
  · have hvalue : offset.seconds = -(↑(seconds / 3600) * 3600 + ↑(seconds / 60 % 60) * 60 +
        ↑(seconds % 60)) := by omega
    simpa [offsetText, hneg, hseconds] using WrittenOffset.west hclock hneg hvalue
  · have hvalue : offset.seconds = ↑(seconds / 3600) * 3600 + ↑(seconds / 60 % 60) * 60 +
        ↑(seconds % 60) := by omega
    simpa [offsetText, hneg, hseconds] using WrittenOffset.east hclock hvalue

theorem spelling_dateTime {time : LocalTime} {nanoseconds : Nat} {offset : Offset} {ending : String}
    (hvalid : time.Valid) (hmin : -9999 ≤ time.date.year) (hmax : time.date.year ≤ 9999)
    (hnanoseconds : nanoseconds < 10 ^ 9) (hending : WrittenOffset offset ending.toList) :
    Spelling time nanoseconds offset (dateTime time nanoseconds ++ ending).toList := by
  have hmonth := hvalid.date.month_le
  have hday := Nat.le_trans hvalid.date.day_le (CivilDate.daysInMonth_le _ _)
  have hhour := hvalid.hour
  have hdate : WrittenDate time.date ((year time.date.year).toList ++
      '-' :: ((Decimal.padded 2 time.date.month).toList ++
        '-' :: (Decimal.padded 2 time.date.day).toList)) :=
    .intro (writtenYear_year hmin hmax) (zeroPadded_padded (by decide) (by omega))
      (zeroPadded_padded (by decide) (by omega))
  have hclock : WrittenClock time.hour time.minute time.second time.clockText.toList :=
    writtenClock_padded (by omega) hvalid.minute hvalid.second
  have hfraction := writtenFraction_fraction hnanoseconds
  simpa [dateTime] using Spelling.intro hvalid hdate hclock hfraction hending

end InstantText

namespace Instant

open InstantText

theorem denoted_atOffset (t : Instant) (offset : Offset) :
    denoted (t.atOffset offset) t.floorSubsecond.toNat offset = t.nanos := by
  rw [denoted, toSeconds_atOffset, Int.add_sub_cancel, Int.toNat_of_nonneg t.floorSubsecond_nonneg,
    floorSecond_floorSubsecond]

theorem spelling_textAt (t : Instant) (offset : Offset) :
    Spelling (t.atOffset offset) t.floorSubsecond.toNat offset (t.textAt offset).toList := by
  have hsubsecond := t.floorSubsecond_lt
  rw [nanosPerSecond] at hsubsecond
  obtain ⟨hmin, hmax⟩ := t.year_atOffset offset
  rw [textAt]
  exact spelling_dateTime (t.valid_atOffset offset) hmin hmax (by omega)
    (writtenOffset_offsetText offset)

theorem spelling_text (t : Instant) :
    Spelling (t.atOffset .utc) t.floorSubsecond.toNat .utc t.text.toList := by
  have hsubsecond := t.floorSubsecond_lt
  rw [nanosPerSecond] at hsubsecond
  obtain ⟨hmin, hmax⟩ := t.year_atOffset .utc
  rw [text]
  exact spelling_dateTime (t.valid_atOffset .utc) hmin hmax (by omega) .utc

/-- Whichever offset an instant is spelled with, it is read back. -/
theorem ofText?_of_spelling {t : Instant} {offset : Offset} {text : String}
    (h : Spelling (t.atOffset offset) t.floorSubsecond.toNat offset text.toList) :
    ofText? text = some t := by
  rw [ofText?, h.read?, ofNanos?_eq_some_iff, denoted_atOffset]

@[simp] theorem ofText?_textAt (t : Instant) (offset : Offset) :
    ofText? (t.textAt offset) = some t :=
  ofText?_of_spelling (t.spelling_textAt offset)

@[simp] theorem ofText?_text (t : Instant) : ofText? t.text = some t :=
  ofText?_of_spelling t.spelling_text

theorem ofText?_of_opens {time : LocalTime} {nanoseconds : Nat} {offset : Offset} {text : String}
    {rest : List Char} (h : Opens text.toList time nanoseconds offset rest)
    (outside : Outside (denoted time nanoseconds offset)) : ofText? text = none := by
  have hrange : ¬ (minNanos ≤ denoted time nanoseconds offset ∧
      denoted time nanoseconds offset ≤ maxNanos) := by
    rintro ⟨hmin, hmax⟩
    rcases outside with hlow | hhigh
    · exact absurd hmin (Int.not_le.mpr hlow)
    · exact absurd hmax (Int.not_le.mpr hhigh)
  have hnone : ofNanos? (denoted time nanoseconds offset) = none := by rw [ofNanos?, dif_neg hrange]
  rw [ofText?, h.read?, hnone]
  cases annotations? rest <;> rfl

end Instant

end AccountView
