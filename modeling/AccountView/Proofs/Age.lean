import AccountView.Age
import AccountView.Decimal
import Mathlib.Data.List.Nodup

namespace AccountView

/-! Ages in order. As time passes an age moves through one list of ages, from `justNow` to `older`,
and no two of them have the same words. -/

namespace Age

/-- All ages that are told, the youngest first. -/
def stages : List Age :=
  .justNow :: ((List.range' 1 59).map .minutes ++ (List.range' 1 23).map .hours ++
    (List.range' 1 29).map .days ++ [.older])

def rank : Age → Nat
  | justNow => 0
  | minutes n => n
  | hours n => 59 + n
  | days n => 82 + n
  | older => 112

theorem map_rank_stages : stages.map rank = List.range 113 := by decide

theorem nodup_stages : stages.Nodup := by
  refine List.Nodup.of_map rank ?_
  rw [map_rank_stages]
  exact List.nodup_range

theorem getElem?_rank {age : Age} (h : age ∈ stages) : stages[age.rank]? = some age := by
  obtain ⟨i, hi⟩ := List.mem_iff_getElem?.mp h
  have hrank : (stages.map rank)[i]? = some age.rank := by
    rw [List.getElem?_map, hi, Option.map_some]
  rw [map_rank_stages] at hrank
  obtain ⟨_, hplace⟩ := List.getElem?_eq_some_iff.mp hrank
  rw [List.getElem_range] at hplace
  rw [← hplace]
  exact hi

/-! ### Passing through the stages -/

theorem mem_stages_ofElapsed (nanos : Int) : ofElapsed nanos ∈ stages := by
  unfold ofElapsed stages
  dsimp only
  split_ifs <;> simp <;> omega

theorem rank_ofElapsed {nanos : Int} {seconds : Nat} (h : nanos.toNat / 1000000000 = seconds) :
    (ofElapsed nanos).rank =
      if seconds < 60 then 0
      else if seconds < 3600 then seconds / 60
      else if seconds < 86400 then 59 + seconds / 3600
      else if seconds < 2592000 then 82 + seconds / 86400
      else 112 := by
  unfold ofElapsed
  dsimp only
  rw [h]
  split_ifs <;> simp only [rank] <;> omega

theorem rank_ofElapsed_mono {nanos later : Int} (h : nanos ≤ later) :
    (ofElapsed nanos).rank ≤ (ofElapsed later).rank := by
  have hseconds : nanos.toNat / 1000000000 ≤ later.toNat / 1000000000 := by omega
  rw [rank_ofElapsed rfl, rank_ofElapsed rfl]
  split_ifs <;> omega

/-! ### Words -/

/-- The first character of a text that is no digit. -/
def mark : Age → Char
  | justNow => '刚'
  | minutes _ => '分'
  | hours _ => '小'
  | days _ => '天'
  | older => '-'

theorem head?_numeral (n : Nat) {unit : String} {c : Char} (h : unit.toList.head? = some c)
    (hc : c.isDigit = false) :
    ((toString n ++ unit).toList.dropWhile Char.isDigit).head? = some c := by
  have hdigits : ∀ d ∈ Nat.toDigits 10 n, d.isDigit = true := fun d hd =>
    Nat.isDigit_of_mem_toDigits (by decide) (by decide) hd
  rw [String.toList_append, Decimal.toList_toString, List.dropWhile_append_of_pos hdigits]
  cases hunit : unit.toList with
  | nil => simp [hunit] at h
  | cons d rest =>
      have hd : d = c := by simpa [hunit] using h
      simp [hd, hc]

variable {date : String}

theorem head?_text (hdate : (date.toList.dropWhile Char.isDigit).head? = some '-') (age : Age) :
    ((age.text date).toList.dropWhile Char.isDigit).head? = some age.mark := by
  cases age with
  | justNow =>
      have htext : ("刚刚".toList.dropWhile Char.isDigit).head? = some '刚' := by decide
      exact htext
  | minutes n => exact head?_numeral n rfl rfl
  | hours n => exact head?_numeral n rfl rfl
  | days n => exact head?_numeral n rfl rfl
  | older => exact hdate

theorem text_inj (hdate : (date.toList.dropWhile Char.isDigit).head? = some '-') {a b : Age}
    (h : a.text date = b.text date) : a = b := by
  have hmark : a.mark = b.mark := by
    have htext := head?_text hdate a
    rw [h, head?_text hdate b, Option.some.injEq] at htext
    exact htext.symm
  cases a with
  | justNow => cases b <;> simp [mark] at hmark ⊢
  | minutes n =>
      cases b <;> simp [mark] at hmark
      exact congrArg minutes (Decimal.toString_append_inj h)
  | hours n =>
      cases b <;> simp [mark] at hmark
      exact congrArg hours (Decimal.toString_append_inj h)
  | days n =>
      cases b <;> simp [mark] at hmark
      exact congrArg days (Decimal.toString_append_inj h)
  | older => cases b <;> simp [mark] at hmark ⊢

def texts (date : String) : List String := stages.map (text date)

theorem nodup_texts (hdate : (date.toList.dropWhile Char.isDigit).head? = some '-') :
    (texts date).Nodup :=
  nodup_stages.map_on fun _ _ _ _ h => text_inj hdate h

theorem getElem?_texts {age : Age} (h : age ∈ stages) :
    (texts date)[age.rank]? = some (age.text date) := by
  rw [texts, List.getElem?_map, getElem?_rank h, Option.map_some]

/-- The words for an age may change from the first text to the second: both stand in the list of all
such words, which holds none twice, and the second no sooner than the first. -/
structure Successive (date first second : String) : Prop where
  nodup : (texts date).Nodup
  places : ∃ i j : Nat, i ≤ j ∧ (texts date)[i]? = some first ∧ (texts date)[j]? = some second

theorem Successive.eq_date {second : String} (h : Successive date date second) :
    second = date := by
  obtain ⟨i, j, hij, hi, hj⟩ := h.places
  -- The date is the last of the words, so nothing stands behind it.
  have hlast : (texts date)[112]? = some date := rfl
  have hlength : (texts date).length = 113 := rfl
  obtain ⟨hi_lt, _⟩ := List.getElem?_eq_some_iff.mp hi
  obtain ⟨hj_lt, _⟩ := List.getElem?_eq_some_iff.mp hj
  have hplace : i = 112 := (List.getElem?_inj hi_lt h.nodup).mp (hi.trans hlast.symm)
  have hsame : j = 112 := by omega
  rw [hsame, hlast, Option.some.injEq] at hj
  exact hj.symm

end Age

end AccountView
