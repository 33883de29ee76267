import AccountView.Document.Skipper
import AccountView.Proofs.Document.Strings

namespace AccountView

/-! The skipper takes every value, to any depth, and stops right behind it. -/

namespace Document

namespace Skipper

variable {stack : List Frame} {phase : Phase}

theorem run_next {c : Char} {rest : List Char} {phase' : Phase} {stack' : List Frame}
    (hinside : endsBefore c phase = false) (hnext : next stack c phase = .ok (phase', stack')) :
    run phase stack (c :: rest) = run phase' stack' rest := by
  simp only [run, hinside, hnext]
  rfl

theorem run_follow {c : Char} {rest : List Char} {frame : Frame} {phase' : Phase}
    {stack' : List Frame} (hends : endsBefore c phase = true)
    (hfollow : follow stack c frame = .ok (phase', stack')) :
    run phase (frame :: stack) (c :: rest) = run phase' stack' rest := by
  simp only [run, hends, hfollow, if_true]

theorem run_stay {chars : List Char} (rest : List Char)
    (hinside : ∀ c ∈ chars, endsBefore c phase = false)
    (hnext : ∀ c ∈ chars, next stack c phase = .ok (phase, stack)) :
    run phase stack (chars ++ rest) = run phase stack rest := by
  induction chars with
  | nil => rfl
  | cons c chars ih =>
      have hhead : run phase stack (c :: (chars ++ rest)) = run phase stack (chars ++ rest) :=
        run_next (hinside c (by simp)) (hnext c (by simp))
      have htail := ih (fun d hd => hinside d (by simp [hd])) (fun d hd => hnext d (by simp [hd]))
      exact hhead.trans htail

/-- A number that may end does end before a delimiter. -/
theorem run_complete {rest : List Char} (hrest : Delimited rest)
    (hphase : phase ∈ [Phase.zero, .whole, .fraction, .exponentDigits]) :
    run phase stack rest = run .after stack rest := by
  simp only [List.mem_cons, List.not_mem_nil, or_false] at hphase
  cases rest with
  | nil => rcases hphase with rfl | rfl | rfl | rfl <;> rfl
  | cons c rest =>
      have hends : endsBefore c phase = true := by
        rw [delimited_cons, isDelimiter_iff] at hrest
        simp only [List.mem_cons, List.not_mem_nil, or_false] at hrest
        rcases hrest with rfl | rfl | rfl | rfl | rfl | rfl | rfl <;>
          rcases hphase with rfl | rfl | rfl | rfl <;> rfl
      simp only [run, hends, if_true]
      rfl

/-- Blanks before a token change nothing. -/
theorem run_blanks (gap : Blanks) (rest : List Char)
    (hphase : phase ∈ [Phase.value, .colon, .firstElement, .firstKey, .nextKey]) :
    run phase stack (gap.text ++ rest) = run phase stack rest := by
  simp only [List.mem_cons, List.not_mem_nil, or_false] at hphase
  apply run_stay
  · intro c _
    rcases hphase with rfl | rfl | rfl | rfl | rfl <;> rfl
  · intro c hc
    have hblank := gap.isBlank_of_mem c hc
    have hclosing : c ≠ '\x7d' := by
      rintro rfl
      contradiction
    rcases hphase with rfl | rfl | rfl | rfl | rfl <;>
      simp [next, start, keyStart, hblank, hclosing]

theorem run_after_blanks (gap : Blanks) (frame : Frame) (rest : List Char) :
    run .after (frame :: stack) (gap.text ++ rest) = run .after (frame :: stack) rest := by
  obtain ⟨text, isBlank_of_mem⟩ := gap
  induction text with
  | nil => rfl
  | cons c text ih =>
      have hc : isBlank c = true := isBlank_of_mem c (by simp)
      have hfollow : follow stack c frame = .ok (.after, frame :: stack) := by
        cases frame <;> simp [follow, hc]
      exact (run_follow rfl hfollow).trans (ih fun d hd => isBlank_of_mem d (by simp [hd]))

theorem run_ident (stack : List Frame) (letter : Char) (left rest : List Char) :
    run (.ident (letter :: left)) stack (letter :: left ++ rest) = run .after stack rest := by
  induction left generalizing letter with
  | nil => exact run_next rfl (by simp [next, identStep])
  | cons second left ih => exact (run_next rfl (by simp [next, identStep])).trans (ih second)

/-! ### Strings -/

theorem run_string {text : List Char} (h : IsQuotable text) (isKey : Bool) (rest : List Char) :
    run (.string isKey) stack (text ++ '"' :: rest) =
      run (if isKey then .colon else .after) stack rest := by
  induction h with
  | nil => exact run_next rfl rfl
  | @plain c tail notQuote notBackslash notControl _ ih =>
      refine (run_next rfl ?_).trans ih
      simp [next, stringStep, notQuote, notBackslash, notControl]
  | @letter c tail letter _ ih =>
      have hescape : next stack c (.escape isKey) = .ok (.string isKey, stack) := by
        simp only [escapeLetters, List.mem_cons, List.not_mem_nil, or_false] at letter
        rcases letter with rfl | rfl | rfl | rfl | rfl | rfl | rfl | rfl <;> rfl
      exact (run_next rfl rfl).trans ((run_next rfl hescape).trans ih)
  | @number a b c d tail first second third fourth _ ih =>
      have hdigit (e : Char) (he : IsHexDigit e) (bytes : Nat) :
          next stack e (.hex isKey bytes true) =
            if bytes + 1 < 4 then .ok (.hex isKey (bytes + 1) true, stack)
            else .ok (.string isKey, stack) := by
        simp [next, hexStep, Literal.utf8Size_hexDigit he, Literal.hexValue?_isSome he]
      have hdigits : run (.hex isKey 0 true) stack (a :: b :: c :: d :: (tail ++ '"' :: rest)) =
          run (.string isKey) stack (tail ++ '"' :: rest) := by
        rw [run_next rfl (hdigit a first 0), run_next rfl (hdigit b second 1),
          run_next rfl (hdigit c third 2), run_next rfl (hdigit d fourth 3)]
      exact (run_next rfl rfl).trans ((run_next rfl rfl).trans (hdigits.trans ih))

/-! ### Numbers -/

theorem isExponentMark_of_isDigit {c : Char} (h : c.isDigit = true) : isExponentMark c = false := by
  have hsmall : c ≠ 'e' := ne_of_isDigit h rfl
  have hlarge : c ≠ 'E' := ne_of_isDigit h rfl
  simp [isExponentMark, hsmall, hlarge]

theorem run_digits {text : List Char} (hdigits : ∀ c ∈ text, c.isDigit = true)
    (hphase : phase ∈ [Phase.whole, .fraction, .exponentDigits]) (rest : List Char) :
    run phase stack (text ++ rest) = run phase stack rest := by
  simp only [List.mem_cons, List.not_mem_nil, or_false] at hphase
  apply run_stay
  · intro c hc
    rcases hphase with rfl | rfl | rfl <;> simp [endsBefore, hdigits c hc]
  · intro c hc
    have hpoint : c ≠ '.' := ne_of_isDigit (hdigits c hc) rfl
    rcases hphase with rfl | rfl | rfl <;>
      simp [next, wholeStep, needDigit, hpoint, hdigits c hc,
        isExponentMark_of_isDigit (hdigits c hc)]

theorem run_exponent (e : Exponent) {rest : List Char} (hrest : Delimited rest)
    (hphase : phase ∈ [Phase.zero, .whole, .fraction]) :
    run phase stack (e.text ++ rest) = run .after stack rest := by
  obtain ⟨mark, mark_mem, sign, sign_mem, digits⟩ := e
  obtain ⟨d, ds, hdigits, hd, hds⟩ := digits.exists_cons
  have hmark : run phase stack (mark :: (sign.toList ++ (d :: ds ++ rest))) =
      run .exponent stack (sign.toList ++ (d :: ds ++ rest)) := by
    simp only [List.mem_cons, List.not_mem_nil, or_false] at mark_mem hphase
    rcases mark_mem with rfl | rfl <;> rcases hphase with rfl | rfl | rfl <;>
      exact run_next rfl rfl
  have htail : run .exponentDigits stack (ds ++ rest) = run .after stack rest :=
    (run_digits hds (by simp) rest).trans (run_complete hrest (by simp))
  have hsign : run .exponent stack (sign.toList ++ (d :: ds ++ rest)) =
      run .exponentDigits stack (ds ++ rest) := by
    cases sign with
    | none =>
        have hplus : d ≠ '+' := ne_of_isDigit hd rfl
        have hminus : d ≠ '-' := ne_of_isDigit hd rfl
        exact run_next rfl (by simp [next, needDigit, hd, hplus, hminus])
    | some c =>
        have hnext : next stack c .exponent = .ok (.exponentSign, stack) := by
          have hc := sign_mem c rfl
          simp only [List.mem_cons, List.not_mem_nil, or_false] at hc
          rcases hc with rfl | rfl <;> rfl
        exact (run_next rfl hnext).trans (run_next rfl (by simp [next, needDigit, hd]))
  simp only [Exponent.text, hdigits, List.cons_append, List.append_assoc] at hmark hsign ⊢
  exact hmark.trans (hsign.trans htail)

theorem run_exponentText (exponent : Option Exponent) {rest : List Char} (hrest : Delimited rest)
    (hphase : phase ∈ [Phase.zero, .whole, .fraction]) :
    run phase stack (NumberText.exponentText exponent ++ rest) = run .after stack rest := by
  cases exponent with
  | none =>
      simp only [List.mem_cons, List.not_mem_nil, or_false] at hphase
      exact run_complete hrest (by rcases hphase with rfl | rfl | rfl <;> simp)
  | some e => exact run_exponent e hrest hphase

theorem run_afterWhole (fraction : Option Digits) (exponent : Option Exponent) {rest : List Char}
    (hrest : Delimited rest) (hphase : phase ∈ [Phase.zero, .whole]) :
    run phase stack (NumberText.fractionText fraction ++
      (NumberText.exponentText exponent ++ rest)) = run .after stack rest := by
  simp only [List.mem_cons, List.not_mem_nil, or_false] at hphase
  cases fraction with
  | none =>
      exact run_exponentText exponent hrest (by rcases hphase with rfl | rfl <;> simp)
  | some digits =>
      obtain ⟨d, ds, hdigits, hd, hds⟩ := digits.exists_cons
      have hpoint : run phase stack ('.' :: (d :: ds ++
          (NumberText.exponentText exponent ++ rest))) =
          run .point stack (d :: ds ++ (NumberText.exponentText exponent ++ rest)) := by
        rcases hphase with rfl | rfl <;> exact run_next rfl rfl
      have hfirst : run .point stack (d :: ds ++ (NumberText.exponentText exponent ++ rest)) =
          run .fraction stack (ds ++ (NumberText.exponentText exponent ++ rest)) :=
        run_next rfl (by simp [next, needDigit, hd])
      simp only [NumberText.fractionText, hdigits]
      exact hpoint.trans (hfirst.trans ((run_digits hds (by simp) _).trans
        (run_exponentText exponent hrest (by simp))))

/-- The whole part from where a number may have its sign. -/
theorem run_whole (stack : List Frame) (whole : WholeDigits) (rest : List Char)
    (hphase : phase ∈ [Phase.value, .minus]) :
    ∃ phase' ∈ [Phase.zero, .whole],
      run phase stack (whole.text ++ rest) = run phase' stack rest := by
  simp only [List.mem_cons, List.not_mem_nil, or_false] at hphase
  obtain ⟨d, ds, hdigits, hd, hds⟩ := whole.exists_cons
  by_cases hzero : d = '0'
  · subst hzero
    have hwhole : whole.text = ['0'] := whole.eq_zero_of_head? (by simp [hdigits])
    refine ⟨.zero, by simp, ?_⟩
    rw [hwhole]
    rcases hphase with rfl | rfl <;> exact run_next rfl rfl
  · refine ⟨.whole, by simp, ?_⟩
    have hblank := isBlank_of_isDigit hd
    have hword : d ≠ 'n' ∧ d ≠ 't' ∧ d ≠ 'f' :=
      ⟨ne_of_isDigit hd rfl, ne_of_isDigit hd rfl, ne_of_isDigit hd rfl⟩
    have hminus : d ≠ '-' := ne_of_isDigit hd rfl
    have hfirst : run phase stack (d :: ds ++ rest) = run .whole stack (ds ++ rest) := by
      rcases hphase with rfl | rfl
      · exact run_next rfl (by simp [next, start, hblank, hword, hminus, hzero, hd])
      · exact run_next rfl (by simp [next, needDigit, hzero, hd])
    rw [hdigits]
    exact hfirst.trans (run_digits hds (by simp) rest)

theorem run_number (n : NumberText) {rest : List Char} (hrest : Delimited rest) :
    run .value stack (n.text ++ rest) = run .after stack rest := by
  obtain ⟨negative, whole, fraction, exponent⟩ := n
  have hsign : ∃ phase ∈ [Phase.value, .minus], ∀ text : List Char,
      run .value stack (NumberText.signText negative ++ text) = run phase stack text := by
    cases negative with
    | false => exact ⟨.value, by simp, fun _ => rfl⟩
    | true => exact ⟨.minus, by simp, fun _ => run_next rfl rfl⟩
  obtain ⟨phase, hphase, hsign⟩ := hsign
  obtain ⟨phase', hphase', hwhole⟩ := run_whole stack whole
    (NumberText.fractionText fraction ++ (NumberText.exponentText exponent ++ rest)) hphase
  simp only [NumberText.text, List.append_assoc]
  rw [hsign, hwhole, run_afterWhole fraction exponent hrest hphase']

/-! ### Lists and objects -/

/-- What is to be shown of a value, and what is known of those inside it. -/
def Passes (value : List Char) : Prop :=
  ∀ (stack : List Frame) (rest : List Char), Delimited rest →
    run .value stack (value ++ rest) = run .after stack rest

theorem run_items (stack : List Frame) {items : List Item}
    (values : ∀ i ∈ items, Passes i.value) (gap : Blanks) (rest : List Char) :
    run .after (.list :: stack) (gap.text ++ (closedBy ']' (items.map Item.text) ++ rest)) =
      run .after stack rest := by
  induction items generalizing gap with
  | nil => exact (run_after_blanks gap .list _).trans (run_follow rfl rfl)
  | cons i items ih =>
      have htail := ih (fun j hj => values j (by simp [hj])) i.after
      have hvalue := values i (by simp) (.list :: stack) _
        ((delimited_closedBy ']' rfl (items.map Item.text) rest).blanks_append i.after)
      have hcomma : run .after (.list :: stack) (closedBy ']' ((i :: items).map Item.text) ++ rest) =
          run .value (.list :: stack) (i.before.text ++ (i.value ++ (i.after.text ++
            (closedBy ']' (items.map Item.text) ++ rest)))) := by
        simp only [List.map_cons, closedBy, Item.text, List.cons_append, List.append_assoc]
        exact run_follow rfl rfl
      rw [run_after_blanks, hcomma, run_blanks i.before _ (by simp), hvalue, htail]

theorem run_firstElement {value : List Char} (h : IsValue value) (rest : List Char) :
    run .firstElement stack (value ++ rest) = run .value stack (value ++ rest) := by
  obtain ⟨c, text, rfl, hopening⟩ := h.opening
  have hclosing : c ≠ ']' := ne_of_isDelimiter hopening.notDelimiter rfl
  simp [run, endsBefore, next, hopening.notBlank, hclosing]

theorem passes_list (gap : Blanks) {items : List Item} (hitems : ∀ i ∈ items, IsValue i.value)
    (values : ∀ i ∈ items, Passes i.value) : Passes (listText gap items) := by
  intro stack rest _
  cases items with
  | nil =>
      have hclose : run .firstElement (.list :: stack) (']' :: rest) = run .after stack rest :=
        run_next rfl rfl
      simp only [listText, List.map_nil, enclosed, List.cons_append, List.append_assoc]
      exact (run_next rfl rfl).trans ((run_blanks gap _ (by simp)).trans hclose)
  | cons i items =>
      have htail := run_items stack (fun j (hj : j ∈ items) => values j (by simp [hj])) i.after rest
      have hvalue := values i (by simp) (.list :: stack) _
        ((delimited_closedBy ']' rfl (items.map Item.text) rest).blanks_append i.after)
      simp only [listText, List.map_cons, enclosed, Item.text, List.cons_append, List.append_assoc]
      refine (run_next rfl rfl).trans ((run_blanks i.before _ (by simp)).trans ?_)
      rw [run_firstElement (hitems i (by simp)), hvalue, htail]

theorem run_entry (stack : List Frame) (e : Entry) (value : Passes e.value) {rest : List Char}
    (hrest : Delimited rest) : run (.string true) stack (e.fromKey rest) = run .after stack rest := by
  have hcolon (text : List Char) : run .colon stack (':' :: text) = run .value stack text :=
    run_next rfl rfl
  rw [Entry.fromKey, Quotable.closed, run_string e.key.isQuotable]
  simp only [if_true]
  rw [run_blanks e.beforeColon _ (by simp), hcolon, run_blanks e.afterColon _ (by simp),
    value stack rest hrest]

theorem run_entries (stack : List Frame) {entries : List Entry}
    (values : ∀ e ∈ entries, Passes e.value) (gap : Blanks) (rest : List Char) :
    run .after (.object :: stack)
      (gap.text ++ (closedBy '\x7d' (entries.map Entry.text) ++ rest)) = run .after stack rest := by
  induction entries generalizing gap with
  | nil => exact (run_after_blanks gap .object _).trans (run_follow rfl rfl)
  | cons e entries ih =>
      have htail := ih (fun j hj => values j (by simp [hj])) e.after
      have hentry := run_entry (.object :: stack) e (values e (by simp))
        ((delimited_closedBy '\x7d' rfl (entries.map Entry.text) rest).blanks_append e.after)
      have hcomma : run .after (.object :: stack)
          (closedBy '\x7d' ((e :: entries).map Entry.text) ++ rest) =
          run .nextKey (.object :: stack) (e.before.text ++ '"' :: e.fromKey (e.after.text ++
            (closedBy '\x7d' (entries.map Entry.text) ++ rest))) := by
        simp only [List.map_cons, closedBy, Entry.text, Entry.fromKey_append, List.cons_append,
          List.append_assoc]
        exact run_follow rfl rfl
      have hquote (text : List Char) : run .nextKey (.object :: stack) ('"' :: text) =
          run (.string true) (.object :: stack) text := run_next rfl rfl
      rw [run_after_blanks, hcomma, run_blanks e.before _ (by simp), hquote, hentry, htail]

theorem passes_object (gap : Blanks) {entries : List Entry}
    (values : ∀ e ∈ entries, Passes e.value) : Passes (objectText gap entries) := by
  intro stack rest _
  cases entries with
  | nil =>
      have hclose : run .firstKey (.object :: stack) ('\x7d' :: rest) = run .after stack rest :=
        run_next rfl rfl
      simp only [objectText, List.map_nil, enclosed, List.cons_append, List.append_assoc]
      exact (run_next rfl rfl).trans ((run_blanks gap _ (by simp)).trans hclose)
  | cons e entries =>
      have htail :=
        run_entries stack (fun j (hj : j ∈ entries) => values j (by simp [hj])) e.after rest
      have hentry := run_entry (.object :: stack) e (values e (by simp))
        ((delimited_closedBy '\x7d' rfl (entries.map Entry.text) rest).blanks_append e.after)
      have hquote (text : List Char) : run .firstKey (.object :: stack) ('"' :: text) =
          run (.string true) (.object :: stack) text := run_next rfl rfl
      simp only [objectText, List.map_cons, enclosed, Entry.text, Entry.fromKey_append,
        List.cons_append, List.append_assoc]
      refine (run_next rfl rfl).trans ((run_blanks e.before _ (by simp)).trans ?_)
      rw [hquote, hentry, htail]

theorem passes_value {value : List Char} (h : IsValue value) : Passes value := by
  induction h with
  | null => exact fun stack rest _ => (run_next rfl rfl).trans (run_ident stack 'u' ['l', 'l'] rest)
  | yes => exact fun stack rest _ => (run_next rfl rfl).trans (run_ident stack 'r' ['u', 'e'] rest)
  | no =>
      exact fun stack rest _ => (run_next rfl rfl).trans (run_ident stack 'a' ['l', 's', 'e'] rest)
  | number n => exact fun stack rest hrest => run_number n hrest
  | string s =>
      intro stack rest _
      simp only [Quotable.closed, List.cons_append, List.append_assoc, List.nil_append]
      exact (run_next rfl rfl).trans (run_string s.isQuotable false rest)
  | list gap items hitems values => exact passes_list gap hitems values
  | object gap entries _ values => exact passes_object gap values

end Skipper

/-- Skipping takes the value at the front and nothing else. -/
theorem skip_value (gap : Blanks) {value rest : List Char} (h : IsValue value)
    (hrest : Delimited rest) : skip.run (gap.text ++ (value ++ rest)) = .ok ((), rest) := by
  have hafter : Skipper.run .after [] rest = .ok rest := by
    cases rest <;> rfl
  have hrun : Skipper.run .value [] (gap.text ++ (value ++ rest)) = .ok rest := by
    rw [Skipper.run_blanks gap _ (by simp), Skipper.passes_value h [] rest hrest, hafter]
  simp only [skip, hrun]
  rfl

end Document

end AccountView
