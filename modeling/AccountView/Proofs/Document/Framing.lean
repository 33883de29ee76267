import AccountView.Document.Account
import AccountView.Proofs.Document.Numerals
import AccountView.Proofs.Document.Skipping

namespace AccountView

/-! Framed readers. On a value of the grammar such a reader takes that value and no more, and what it
makes of it, a fault or a result, depends on nothing around the value. -/

namespace Document

namespace Reader

variable {α β : Type}

/-- Wherever the value stands, the outcome is the same, and a result leaves what follows. -/
def Reads (r : Reader α) (value : List Char) (outcome : Except Fault α) : Prop :=
  ∀ (gap : Blanks) (rest : List Char), Delimited rest →
    r.run (gap.text ++ (value ++ rest)) = outcome.map fun x => (x, rest)

/-- What a reader makes of a value that stands alone. -/
def value (r : Reader α) (text : List Char) : Except Fault α := (r.run text).map Prod.fst

def Framed (r : Reader α) : Prop := ∀ value, IsValue value → r.Reads value (r.value value)

theorem Reads.value_eq {r : Reader α} {value : List Char} {outcome : Except Fault α}
    (h : r.Reads value outcome) : r.value value = outcome := by
  have hrun := h .none [] delimited_nil
  simp only [Blanks.text_none, List.nil_append, List.append_nil] at hrun
  rw [Reader.value, hrun]
  cases outcome <;> rfl

theorem framed_of_reads {r : Reader α}
    (h : ∀ value, IsValue value → ∃ outcome, r.Reads value outcome) : r.Framed := by
  intro value hvalue
  obtain ⟨outcome, hreads⟩ := h value hvalue
  rw [hreads.value_eq]
  exact hreads

theorem Reads.map {r : Reader α} {value : List Char} {outcome : Except Fault α}
    (h : r.Reads value outcome) (f : α → β) : (r.map f).Reads value (outcome.map f) := by
  intro gap rest hrest
  rw [run_map, h gap rest hrest]
  cases outcome <;> rfl

theorem Framed.map {r : Reader α} (h : r.Framed) (f : α → β) : (r.map f).Framed :=
  framed_of_reads fun value hvalue => ⟨_, (h value hvalue).map f⟩

theorem Reads.readAll {r : Reader α} {value : List Char} {outcome : Except Fault α}
    (h : r.Reads value outcome) (before after : Blanks) :
    r.readAll (before.text ++ (value ++ after.text)) = outcome := by
  have hafter : Delimited after.text := by
    simpa using delimited_nil.blanks_append after
  have hblank : skipBlanks after.text = [] := by
    simpa [skipBlanks] using skipBlanks_append after []
  rw [Reader.readAll, h before after.text hafter]
  cases outcome with
  | error e => rfl
  | ok x => simp [Except.map, bind, Except.bind, hblank, pure, Except.pure]

theorem Reads.readAll_alone {r : Reader α} {value : List Char} {outcome : Except Fault α}
    (h : r.Reads value outcome) : r.readAll (String.ofList value).toList = outcome := by
  simpa using h.readAll .none .none

end Reader

/-! ### Faults -/

theorem IsValue.skipBlanks_append {value : List Char} (h : IsValue value) (gap : Blanks)
    (rest : List Char) : skipBlanks (gap.text ++ (value ++ rest)) = value ++ rest := by
  obtain ⟨c, text, rfl, hopening⟩ := h.opening
  rw [Document.skipBlanks_append]
  exact skipBlanks_cons hopening.notBlank _

/-- The fault for a value of the wrong kind depends on that value alone. -/
theorem mismatch_append (expected : String) {value rest : List Char} (h : IsValue value)
    (hrest : Delimited rest) : mismatch expected (value ++ rest) = mismatch expected value := by
  cases h with
  | null => rfl
  | yes => rfl
  | no => rfl
  | number n =>
      have hread := Numeral.read_append n hrest
      have halone := Numeral.read_append n delimited_nil
      rw [List.append_nil] at halone
      obtain ⟨c, text, htext, hc⟩ := n.exists_cons
      have hword : c ≠ 'n' ∧ c ≠ 't' ∧ c ≠ 'f' := by
        rcases hc with rfl | hc
        · decide
        · exact ⟨ne_of_isDigit hc rfl, ne_of_isDigit hc rfl, ne_of_isDigit hc rfl⟩
      rw [htext] at hread halone ⊢
      simp only [List.cons_append] at hread ⊢
      simp only [mismatch, hword, hc, hread, halone, if_true, if_false]
      cases Numeral.value n.written with
      | error e => rfl
      | ok numeral => cases numeral <;> rfl
  | string s =>
      have hbody := s.body_closed rest
      have halone := s.body_closed []
      have hclosed : s.closed [] ++ rest = s.closed rest := by simp [Quotable.closed]
      rw [List.cons_append, hclosed]
      cases hdecoded : s.decoded with
      | error e => simp [mismatch, hbody, halone, hdecoded, Except.map]
      | ok text => simp [mismatch, hbody, halone, hdecoded, Except.map]
  | list gap items _ =>
      obtain ⟨text, htext⟩ := exists_enclosed_eq_cons '[' ']' gap (items.map Item.text)
      rw [listText, htext]
      rfl
  | object gap entries _ =>
      obtain ⟨text, htext⟩ := exists_enclosed_eq_cons '\x7b' '\x7d' gap (entries.map Entry.text)
      rw [objectText, htext]
      rfl

/-- A value that a reader has no use for is taken no further than to name it. -/
theorem reads_mismatch {α : Type} {r : Reader α} {expected : String} {value text : List Char}
    {c : Char} (hvalue : IsValue value) (htext : value = c :: text)
    (h : ∀ text rest, skipBlanks text = c :: rest →
      r.run text = .error (mismatch expected (c :: rest))) :
    r.Reads value (.error (mismatch expected value)) := by
  intro gap rest hrest
  have hmismatch := mismatch_append expected hvalue hrest
  have hblanks := hvalue.skipBlanks_append gap rest
  rw [htext, List.cons_append] at hmismatch hblanks ⊢
  rw [h _ _ hblanks, hmismatch]
  rfl

/-! ### Single values -/

theorem reads_number (kind : IntegerKind) (n : NumberText) :
    (integer kind).Reads n.text ((Numeral.value n.written).bind kind.check) := by
  intro gap rest hrest
  have hread := Numeral.read_append n hrest
  have hblanks := (IsValue.number n).skipBlanks_append gap rest
  obtain ⟨c, text, htext, hc⟩ := n.exists_cons
  rw [htext] at hread hblanks ⊢
  simp only [List.cons_append] at hread hblanks ⊢
  simp only [integer, IntegerKind.read, hblanks, hc, if_true, hread, bind, Except.bind]
  cases Numeral.value n.written with
  | error e => rfl
  | ok numeral => cases kind.check numeral <;> rfl

theorem framed_integer (kind : IntegerKind) : (integer kind).Framed := by
  refine Reader.framed_of_reads fun value hvalue => ?_
  obtain ⟨c, text, htext, hopening⟩ := hvalue.opening
  by_cases hc : c = '-' ∨ c.isDigit = true
  · obtain ⟨n, rfl⟩ := hopening.number hc
    exact ⟨_, reads_number kind n⟩
  · refine ⟨.error (mismatch kind.name value),
      reads_mismatch hvalue htext fun text rest hblanks => ?_⟩
    simp only [integer, IntegerKind.read, hblanks, hc, if_false]

theorem framed_int64 : int64.Framed := (framed_integer int64Kind).map Int64.ofInt

theorem framed_int32 : int32.Framed := (framed_integer int32Kind).map Int32.ofInt

theorem framed_role : role.Framed := framed_int32.map Role.ofWire

theorem reads_quotable (s : Quotable) :
    string.Reads ('"' :: s.closed []) (s.decoded.map String.ofList) := by
  refine Reader.Reads.map (fun gap rest _ => ?_) String.ofList
  have hblanks := (IsValue.string s).skipBlanks_append gap rest
  have hclosed : s.closed [] ++ rest = s.closed rest := by simp [Quotable.closed]
  rw [List.cons_append, hclosed] at hblanks ⊢
  simp only [readString, hblanks, if_true, s.body_closed rest]

theorem framed_string : string.Framed := by
  refine Reader.framed_of_reads fun value hvalue => ?_
  obtain ⟨c, text, htext, hopening⟩ := hvalue.opening
  by_cases hc : c = '"'
  · obtain ⟨s, rfl⟩ := hopening.string hc
    exact ⟨_, reads_quotable s⟩
  · have hreads : Reader.Reads ⟨readString, readString_le⟩ value
        (.error (mismatch "a string" value)) := by
      refine reads_mismatch hvalue htext fun text rest hblanks => ?_
      simp only [readString, hblanks, hc, if_false]
    exact ⟨_, hreads.map String.ofList⟩

theorem reads_null {α : Type} (r : Reader α) :
    (nullable r).Reads ['n', 'u', 'l', 'l'] (.ok none) := by
  intro gap rest _
  have hblanks := IsValue.null.skipBlanks_append gap rest
  simp only [List.cons_append, List.nil_append] at hblanks ⊢
  simp only [nullable, readNullable, hblanks]
  rfl

theorem readNullable_of_ne {α : Type} (r : Reader α) {text rest : List Char} {c : Char}
    (htext : skipBlanks text = c :: rest) (hc : c ≠ 'n') :
    readNullable r text = (r.run (c :: rest)).map fun (x, rest) => (some x, rest) := by
  unfold readNullable
  split
  · rename_i rest' heq
    rw [htext] at heq
    exact absurd (List.cons.inj heq).1 hc
  · rw [htext]

/-- A value that is not null is read as if null were not allowed. -/
theorem Reader.Reads.nullable {α : Type} {r : Reader α} {value : List Char}
    {outcome : Except Fault α} (hvalue : IsValue value) (hnull : value.head? ≠ some 'n')
    (h : r.Reads value outcome) : (nullable r).Reads value (outcome.map some) := by
  intro gap rest hrest
  have hrun := h .none rest hrest
  have hblanks := hvalue.skipBlanks_append gap rest
  obtain ⟨c, text, rfl, hopening⟩ := hvalue.opening
  have hc : c ≠ 'n' := fun heq => hnull (by simp [heq])
  simp only [Blanks.text_none, List.nil_append, List.cons_append] at hrun hblanks ⊢
  simp only [Document.nullable, readNullable_of_ne r hblanks hc, hrun]
  cases outcome <;> rfl

theorem framed_nullable {α : Type} {r : Reader α} (h : r.Framed) : (nullable r).Framed := by
  refine Reader.framed_of_reads fun value hvalue => ?_
  obtain ⟨c, text, htext, hopening⟩ := hvalue.opening
  by_cases hc : c = 'n'
  · rw [hopening.null hc]
    exact ⟨_, reads_null r⟩
  · exact ⟨_, (h value hvalue).nullable hvalue (by simp [htext, hc])⟩

end Document

end AccountView
