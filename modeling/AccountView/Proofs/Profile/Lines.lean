import AccountView.Proofs.Document.Writing
import AccountView.Proofs.LocalTime
import AccountView.Proofs.Profile

namespace AccountView

/-! Profiles as lines. The heading and every row are printed on a line of their own, unless a name
that stands in them is itself broken over lines: such an account may print what another prints. -/

def Unbroken (text : String) : Prop := '\n' ∉ text.toList

instance (text : String) : Decidable (Unbroken text) := inferInstanceAs (Decidable (_ ∉ _))

@[simp] theorem unbroken_append {a b : String} : Unbroken (a ++ b) ↔ Unbroken a ∧ Unbroken b := by
  simp [Unbroken]

/-! ### Lines set one under the other -/

def stacked (lines : List String) : String := String.join (lines.map (· ++ "\n"))

structure ConsistsOf (text : String) (lines : List String) : Prop where
  text_eq : text = stacked lines
  unbroken : ∀ line ∈ lines, Unbroken line

theorem toList_stacked (lines : List String) :
    (stacked lines).toList = lines.flatMap fun line => line.toList ++ ['\n'] := by
  rw [stacked, String.toList_join, List.flatMap_map]
  simp

theorem count_stacked (lines : List String) : (stacked lines).toList.count '\n' =
    lines.length + (lines.flatMap String.toList).count '\n' := by
  rw [toList_stacked]
  induction lines with
  | nil => rfl
  | cons line lines ih =>
      rw [List.flatMap_cons, List.flatMap_cons, List.count_append, List.count_append,
        List.count_append, ih, List.length_cons, List.count_singleton_self]
      omega

/-- Lines stay lines just if no more line feeds stand in the text than there are lines. -/
theorem consistsOf_stacked_iff {lines : List String} : ConsistsOf (stacked lines) lines ↔
    (stacked lines).toList.count '\n' = lines.length := by
  have hunbroken : (∀ line ∈ lines, Unbroken line) ↔
      (lines.flatMap String.toList).count '\n' = 0 := by
    simp [Unbroken, List.count_eq_zero]
  rw [count_stacked]
  constructor
  · intro h
    rw [hunbroken.mp h.unbroken, Nat.add_zero]
  · intro h
    exact ⟨rfl, hunbroken.mpr (by omega)⟩

/-- Two texts agree as far as the first mark in each of them. -/
theorem append_mark_inj {mark : Char} {first other rest behind : List Char}
    (hfirst : mark ∉ first) (hother : mark ∉ other)
    (h : first ++ mark :: rest = other ++ mark :: behind) : first = other ∧ rest = behind := by
  have htake {text : List Char} (htext : mark ∉ text) (rest : List Char) :
      (text ++ mark :: rest).takeWhile (· ≠ mark) = text := by
    rw [List.takeWhile_append_of_pos, List.takeWhile_cons_of_neg (by simp), List.append_nil]
    intro c hc
    have hne : c ≠ mark := fun heq => htext (heq ▸ hc)
    exact decide_eq_true hne
  have hsame : first = other := by rw [← htake hfirst rest, h, htake hother]
  rw [hsame, List.append_cancel_left_eq, List.cons.injEq] at h
  exact ⟨hsame, h.2⟩

theorem ConsistsOf.unique {text : String} {lines others : List String}
    (h : ConsistsOf text lines) (hothers : ConsistsOf text others) : lines = others := by
  induction lines generalizing text others with
  | nil =>
      cases others with
      | nil => rfl
      | cons other others =>
          have hlist := congrArg String.toList (h.text_eq.symm.trans hothers.text_eq)
          simp [toList_stacked] at hlist
  | cons line lines ih =>
      cases others with
      | nil =>
          have hlist := congrArg String.toList (h.text_eq.symm.trans hothers.text_eq)
          simp [toList_stacked] at hlist
      | cons other others =>
          obtain ⟨hline, hlines⟩ := List.forall_mem_cons.mp h.unbroken
          obtain ⟨hother, hrest⟩ := List.forall_mem_cons.mp hothers.unbroken
          have hlist := congrArg String.toList (h.text_eq.symm.trans hothers.text_eq)
          simp only [toList_stacked, List.flatMap_cons, List.append_assoc,
            List.singleton_append] at hlist
          obtain ⟨hfirst, hrests⟩ := append_mark_inj hline hother hlist
          rw [← toList_stacked, ← toList_stacked, String.toList_inj] at hrests
          rw [String.toList_inj.mp hfirst, ih ⟨rfl, hlines⟩ ⟨hrests, hrest⟩]

/-- Line feeds that end lines may be taken for line feeds that begin them. -/
theorem newline_stacked (lines : List String) : '\n' :: (stacked lines).toList =
    (lines.flatMap fun line => '\n' :: line.toList) ++ ['\n'] := by
  rw [toList_stacked]
  induction lines with
  | nil => rfl
  | cons line lines ih =>
      simp only [List.flatMap_cons, List.append_assoc, List.cons_append, List.nil_append, ih]

/-- The same text ends with the same line. -/
theorem last_of_stacked_eq {lines others : List String} {last other : String}
    (hlast : lines.getLast? = some last) (hother : others.getLast? = some other)
    (hunbroken : Unbroken last) (hline : Unbroken other) (h : stacked lines = stacked others) :
    last = other := by
  have hreverse (before : List String) (line : String) :
      ('\n' :: (stacked (before ++ [line])).toList).reverse = '\n' :: (line.toList.reverse ++
        '\n' :: (before.flatMap fun line => '\n' :: line.toList).reverse) := by
    rw [newline_stacked]
    simp
  have hmem {line : String} (hline : Unbroken line) : '\n' ∉ line.toList.reverse :=
    fun hmem => hline (List.mem_reverse.mp hmem)
  obtain ⟨before, rfl⟩ := List.getLast?_eq_some_iff.mp hlast
  obtain ⟨behind, rfl⟩ := List.getLast?_eq_some_iff.mp hother
  have hend := hreverse before last
  rw [h, hreverse behind other, List.cons.injEq] at hend
  obtain ⟨hsame, _⟩ := append_mark_inj (hmem hline) (hmem hunbroken) hend.2
  exact (String.toList_inj.mp (List.reverse_inj.mp hsame)).symm

/-! ### Texts that are not given -/

theorem newline_not_mem_toDigits (n : Nat) : '\n' ∉ Nat.toDigits 10 n := fun hmem =>
  absurd (Nat.isDigit_of_mem_toDigits (by decide) (by decide) hmem) (by decide)

theorem unbroken_padded (width n : Nat) : Unbroken (Decimal.padded width n) := by
  intro hmem
  rw [Decimal.padded, String.toList_ofList, List.leftpad] at hmem
  rcases List.mem_append.mp hmem with hzero | hdigit
  · exact absurd (List.eq_of_mem_replicate hzero) (by decide)
  · exact newline_not_mem_toDigits n hdigit

theorem unbroken_toString (n : Nat) : Unbroken (toString n) := by
  rw [Unbroken, Decimal.toList_toString]
  exact newline_not_mem_toDigits n

theorem unbroken_signPadded (width : Nat) (n : Int) : Unbroken (Decimal.signPadded width n) := by
  have hsign : Unbroken "-" := by decide
  unfold Decimal.signPadded
  split <;> simp [hsign, unbroken_padded]

theorem LocalTime.unbroken_fullText (time : LocalTime) : Unbroken time.fullText := by
  have hmarks : Unbroken "-" ∧ Unbroken ":" ∧ Unbroken " " := by decide
  simp [fullText, dateText, clockText, unbroken_padded, unbroken_signPadded, hmarks]

theorem Stamp.unbroken_full (stamp : Stamp) (zone : Zone) : Unbroken (stamp.full zone) := by
  unfold full
  split
  · exact LocalTime.unbroken_fullText _
  · decide

theorem Role.unbroken_label (role : Role) : Unbroken role.label := by
  cases role <;> decide

theorem Countdown.unbroken_text (c : Countdown) : Unbroken c.text := by
  have hunits : Unbroken "天" ∧ Unbroken "小时" ∧ Unbroken "分钟" := by decide
  simp only [text, unbroken_append, unbroken_toString, hunits, and_self]

/-- An account whose names, of whatever kind, are each of one line. -/
structure Account.Unbroken (account : Account) : Prop where
  nickname : AccountView.Unbroken account.nickname
  username : AccountView.Unbroken account.username
  email : AccountView.Unbroken account.email
  phone : AccountView.Unbroken account.phone

/-! ### Printed profiles -/

def Row.words (row : Row) : String := row.label ++ ": " ++ row.value

/-- A line that begins as the row of a label does. -/
def Leads (label line : String) : Prop := (label ++ ": ").toList <+: line.toList

instance (label line : String) : Decidable (Leads label line) :=
  inferInstanceAs (Decidable (_ <+: _))

namespace Profile

def labels : List String := accountLabels ++ passwordLabels

def lines (profile : Profile) : List String := profile.heading :: profile.rows.map Row.words

theorem text_eq_stacked (profile : Profile) : profile.text = stacked profile.lines := by
  rw [text, stacked, lines, List.map_cons, String.join_cons, List.map_map]
  rfl

/-- A profile that prints its heading and its rows a line each. No other profile of an account
prints the same, not even one that prints more lines than it has rows. -/
structure LineByLine (profile : Profile) : Prop where
  lines : ConsistsOf profile.text profile.lines
  telling : ∀ view dials account, (Viewpoint.profile view dials account).text = profile.text →
    Viewpoint.profile view dials account = profile

/-- A printed profile in which what begins as a row is that row. -/
structure PrintsByRow (profile : Profile) : Prop extends LineByLine profile where
  heading : ∀ label ∈ labels, ¬ Leads label profile.heading
  row : ∀ row ∈ profile.rows, ∀ label ∈ labels, Leads label row.words → label = row.label

theorem unbroken_statusText (expiry : Stamp) (now : Instant) :
    Unbroken (statusText expiry now) := by
  have hleft : Unbroken "剩余" := by decide
  unfold statusText
  split
  · decide
  · simp [remainingText, hleft, Countdown.unbroken_text]

theorem label_mem {account : Account} {now : Instant} {zone : Zone} {row : Row}
    (h : row ∈ (ofAccount account now zone).rows) : row.label ∈ labels := by
  have hlabel := List.mem_map_of_mem (f := Row.label) h
  rw [map_label_ofAccount] at hlabel
  rcases List.mem_append.mp hlabel with haccount | hpassword
  · exact List.mem_append_left _ haccount
  · split at hpassword
    · exact List.mem_append_right _ hpassword
    · contradiction

theorem unbroken_words {row : Row} (h : row.label ∈ labels) :
    Unbroken row.words ↔ Unbroken row.value := by
  have hlabels : ∀ label ∈ labels, Unbroken label := by decide
  have hcolon : Unbroken ": " := by decide
  simp [Row.words, hlabels row.label h, hcolon]

theorem unbroken_passwordRows (expiry : Stamp) (now : Instant) (zone : Zone) :
    ∀ row ∈ passwordRows expiry now zone, Unbroken row.value := by
  cases expiry with
  | none => nofun
  | some w => simp [passwordRows, Stamp.unbroken_full, unbroken_statusText]

theorem unbroken_lines_iff {account : Account} {now : Instant} {zone : Zone} :
    (∀ line ∈ (ofAccount account now zone).lines, Unbroken line) ↔ account.Unbroken := by
  have hvalues : (∀ row ∈ (ofAccount account now zone).rows, Unbroken row.words) ↔
      ∀ row ∈ (ofAccount account now zone).rows, Unbroken row.value :=
    forall₂_congr fun row hrow => unbroken_words (label_mem hrow)
  rw [lines, List.forall_mem_cons, List.forall_mem_map, hvalues, ofAccount]
  simp only [accountRows, List.forall_mem_append, List.forall_mem_cons]
  constructor
  · rintro ⟨hnickname, ⟨husername, hemail, hphone, _⟩, _⟩
    exact ⟨hnickname, husername, hemail, hphone⟩
  · rintro ⟨hnickname, husername, hemail, hphone⟩
    exact ⟨hnickname, ⟨husername, hemail, hphone, Role.unbroken_label _, Stamp.unbroken_full _ _,
      Stamp.unbroken_full _ _, List.forall_mem_nil _⟩, unbroken_passwordRows _ _ _⟩

/-- The last line is the status of the password, or else the time of the last update. -/
theorem getLast?_lines (account : Account) (now : Instant) (zone : Zone) :
    ∃ value, Unbroken value ∧ (ofAccount account now zone).lines.getLast? = some
      (Row.words ⟨if account.passwordExpiresAt.isSome then "密码状态" else "更新时间", value⟩) := by
  cases hexpiry : account.passwordExpiresAt with
  | none =>
      refine ⟨account.updatedAt.full zone, Stamp.unbroken_full _ _, ?_⟩
      simp [lines, ofAccount, accountRows, passwordRows, hexpiry]
  | some w =>
      refine ⟨statusText (some w) now, unbroken_statusText _ _, ?_⟩
      simp [lines, ofAccount, accountRows, passwordRows, hexpiry]

theorem length_lines (account : Account) (now : Instant) (zone : Zone) :
    (ofAccount account now zone).lines.length =
      if account.passwordExpiresAt.isSome then 9 else 7 := by
  cases hexpiry : account.passwordExpiresAt with
  | none => simp [lines, ofAccount, accountRows, passwordRows, hexpiry]
  | some w => simp [lines, ofAccount, accountRows, passwordRows, hexpiry]

theorem eq_of_label {row : Row} {label : String} (hrow : row.label ∈ labels)
    (hlabel : label ∈ labels) (h : Leads label row.words) : label = row.label := by
  have hcolon : ∀ label ∈ labels, ':' ∉ label.toList := by decide
  obtain ⟨rest, hrest⟩ := h
  simp only [Row.words, String.toList_append, List.append_assoc] at hrest
  exact String.toList_inj.mp (append_mark_inj (hcolon label hlabel) (hcolon _ hrow) hrest).1

theorem words_inj {row other : Row} (hrow : row.label ∈ labels) (hother : other.label ∈ labels)
    (h : row.words = other.words) : row = other := by
  have hleads : Leads row.label other.words := by
    rw [← h, Leads, Row.words, String.toList_append (s := row.label ++ ": ")]
    exact List.prefix_append _ _
  have hlabel : row.label = other.label := eq_of_label hother hrow hleads
  rw [Row.words, Row.words, hlabel, String.append_right_inj] at h
  cases row
  cases other
  exact congr (congrArg Row.mk hlabel) h

theorem rows_inj {rows others : List Row} (hrows : ∀ row ∈ rows, row.label ∈ labels)
    (hothers : ∀ row ∈ others, row.label ∈ labels)
    (h : rows.map Row.words = others.map Row.words) : rows = others := by
  induction rows generalizing others with
  | nil =>
      rw [List.map_nil, List.nil_eq, List.map_eq_nil_iff] at h
      exact h.symm
  | cons row rows ih =>
      obtain ⟨other, behind, rfl, hwords, hrest⟩ := List.map_eq_cons_iff.mp h.symm
      obtain ⟨hrow, hlabels⟩ := List.forall_mem_cons.mp hrows
      obtain ⟨hother, hbehind⟩ := List.forall_mem_cons.mp hothers
      rw [words_inj hrow hother hwords.symm, ih hlabels hbehind hrest.symm]

/-- The last row tells whether a password can expire. -/
theorem isSome_of_text_eq {account other : Account} {now present : Instant} {zone place : Zone}
    (h : (ofAccount account now zone).text = (ofAccount other present place).text) :
    account.passwordExpiresAt.isSome = other.passwordExpiresAt.isSome := by
  obtain ⟨value, hvalue, hlast⟩ := getLast?_lines account now zone
  obtain ⟨status, hstatus, hend⟩ := getLast?_lines other present place
  have hlabel (b : Bool) : (if b then "密码状态" else "更新时间") ∈ labels := by
    cases b <;> decide
  rw [text_eq_stacked, text_eq_stacked] at h
  have hwords := last_of_stacked_eq hlast hend ((unbroken_words (hlabel _)).mpr hvalue)
    ((unbroken_words (hlabel _)).mpr hstatus) h
  have hrow := congrArg Row.label (words_inj (hlabel _) (hlabel _) hwords)
  cases hfirst : account.passwordExpiresAt.isSome <;>
    cases hsecond : other.passwordExpiresAt.isSome <;> simp [hfirst, hsecond] at hrow ⊢

theorem eq_of_text_eq {account other : Account} {now present : Instant} {zone place : Zone}
    (hunbroken : account.Unbroken)
    (h : (ofAccount other present place).text = (ofAccount account now zone).text) :
    ofAccount other present place = ofAccount account now zone := by
  have hlines : ConsistsOf (ofAccount account now zone).text (ofAccount account now zone).lines :=
    ⟨text_eq_stacked _, unbroken_lines_iff.mpr hunbroken⟩
  have hlength : (ofAccount other present place).lines.length =
      (ofAccount account now zone).lines.length := by
    rw [length_lines, length_lines, isSome_of_text_eq h]
  -- There are as many line feeds as lines of the unbroken one, so none is left for the other names.
  have hothers : ConsistsOf (ofAccount other present place).text
      (ofAccount other present place).lines := by
    rw [text_eq_stacked, consistsOf_stacked_iff, ← text_eq_stacked, h, hlength, text_eq_stacked,
      ← consistsOf_stacked_iff, ← text_eq_stacked]
    exact hlines
  rw [h] at hothers
  have hsame := hothers.unique hlines
  rw [lines, lines, List.cons.injEq] at hsame
  have hrows := rows_inj (fun _ => label_mem) (fun _ => label_mem) hsame.2
  cases hprofile : ofAccount account now zone
  cases hother : ofAccount other present place
  simp only [hprofile, hother] at hsame hrows
  rw [hsame.1, hrows]

/-- Names broken over lines are all that keeps a profile from being printed a row a line; and then
only the nickname, which has no label of its own, may still read like a row. -/
theorem lineByLine_iff_unbroken (view : Viewpoint) (dials : Dials) (account : Account) :
    ((view.profile dials account).LineByLine ↔ account.Unbroken) ∧
    ((view.profile dials account).PrintsByRow ↔
      account.Unbroken ∧ ∀ label ∈ labels, ¬ Leads label account.nickname) := by
  have hline : (view.profile dials account).LineByLine ↔ account.Unbroken := by
    constructor
    · intro h
      exact unbroken_lines_iff.mp h.lines.unbroken
    · intro h
      exact ⟨⟨text_eq_stacked _, unbroken_lines_iff.mpr h⟩,
        fun _ _ _ htext => eq_of_text_eq h htext⟩
  refine ⟨hline, ?_⟩
  constructor
  · intro h
    exact ⟨hline.mp h.toLineByLine, h.heading⟩
  · rintro ⟨hunbroken, hheading⟩
    exact ⟨hline.mpr hunbroken, hheading,
      fun row hrow label hlabel => eq_of_label (label_mem hrow) hlabel⟩

/-- A user name of two lines, of which the second reads like the row of a mail address. -/
def mallory : Account where
  username := "mallory\n邮箱: root@example.com"
  email := "mallory@example.com"

/-- An account that prints what `mallory` prints. -/
def namesake : Account where
  username := "mallory"
  email := "root@example.com\n邮箱: mallory@example.com"

theorem not_lineByLine_mallory :
    Account.ofDocument (String.ofList mallory.toDocument) = .ok mallory ∧
    Account.ofDocument (String.ofList namesake.toDocument) = .ok namesake ∧
    ¬ (ofAccount mallory default .utc).LineByLine ∧
    (ofAccount mallory default .utc).rows.length = 6 ∧
    (ofAccount mallory default .utc).text.toList.count '\n' = 8 ∧
    (ofAccount mallory default .utc).text = (ofAccount namesake default .utc).text ∧
    (ofAccount mallory default .utc).rows ≠ (ofAccount namesake default .utc).rows := by
  refine ⟨mallory.reads_toDocument.readAll_alone, namesake.reads_toDocument.readAll_alone,
    ?_, rfl, ?_, ?_, ?_⟩
  · intro h
    have hunbroken := unbroken_lines_iff.mp h.lines.unbroken
    exact absurd hunbroken.username (by decide)
  · rw [text_eq_stacked, count_stacked]
    decide
  · decide
  · decide

end Profile

end AccountView
