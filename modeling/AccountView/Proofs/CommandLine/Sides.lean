import AccountView.Proofs.CommandLine.Groups

namespace AccountView

/-! The two sides of the name of the command. A flag is set at a level exactly if an argument on
that side asks for it. Quiet and verbose exclude each other on one side, and not across the name. -/

namespace CommandLine

/-! ### Asking for a flag -/

def Flag.askedBy (f : Flag) (arg : String) : Bool :=
  match arg.toList with
  | '-' :: '-' :: name => name = f.name.toList
  | '-' :: letters => f.letter ∈ letters
  | _ => false

/-- After a lone double dash no argument is an option. -/
def Flag.askedAmong (f : Flag) (args : List String) : Bool :=
  (args.takeWhile (· ≠ "--")).any f.askedBy

/-- The arguments before the name of the command and those after it. What follows `--now` is its
value and no name. -/
def splitAtCommand (isValue : Bool) : List String → Option (List String × List String)
  | [] => none
  | arg :: rest =>
    if isValue = false ∧ (arg = "format" ∨ arg = "profile") then some ([], rest)
    else (splitAtCommand (!isValue && arg = "--now") rest).map (Prod.map (arg :: ·) id)

def Given.has (given : Given) : Flag → Prop
  | .zulu => given.zulu = true
  | .quiet => given.quiet = true
  | .verbose => 0 < given.verbose
  | .help | .version => False

theorem Given.has_told {given : Given} {x : Setting} (h : x.WellFormed) (f : Flag) :
    (given.told x).has f ↔ given.has f ∨ x = .flag f := by
  cases x with
  | value o text => cases o <;> cases f <;> simp [told, has]
  | flag g =>
      have hpos : 0 < min (given.verbose + 1) maxVerbose := by
        simp only [maxVerbose]
        omega
      cases g <;> cases f <;> simp_all [told, has, Setting.WellFormed]
  | file path => cases f <;> simp [told, has]

theorem Flag.eq_iff_letter {level : Level} {c : Char} {g : Flag} (h : level.short? c = some g)
    (f : Flag) : g = f ↔ f.letter = c := by
  unfold Level.short? at h
  split at h <;> cases h <;> cases f <;> decide

theorem Flag.eq_iff_name {level : Level} {name : String} {g : Flag}
    (h : level.long? name = some (.flag g)) (f : Flag) : g = f ↔ name = f.name := by
  unfold Level.long? at h
  split at h <;> cases h <;> cases f <;> decide

theorem Flag.ne_name {level : Level} {name : String} {o : ValueOption}
    (h : level.long? name = some (.valued o)) (f : Flag) : name ≠ f.name := by
  unfold Level.long? at h
  split at h <;> cases h <;> cases f <;> decide

theorem Level.eq_now_of_valued {name : String} {o : ValueOption}
    (h : Level.long? .top name = some (.valued o)) : name = "now" := by
  unfold Level.long? at h
  split at h <;> simp_all

theorem Level.not_mem_long {level : Level} {name : String} {k : OptionKind}
    (h : level.long? name = some k) : '=' ∉ name.toList := by
  unfold Level.long? at h
  split at h <;> cases h <;> decide

theorem Flag.not_mem_name (f : Flag) : '=' ∉ f.name.toList := by
  cases f <;> decide

namespace LevelState

def awaits (s : LevelState) : Bool :=
  match s.waiting with
  | .forValue _ => true
  | _ => false

/-- The flags `asked` are set, and a value is awaited if the argument is the name of an option. -/
structure Takes (s s' : LevelState) (asked : Flag → Prop) (named : Prop) : Prop where
  has : ∀ f, s'.given.has f ↔ s.given.has f ∨ asked f
  noOptions : s'.noOptions = s.noOptions
  awaits : s'.awaits = true ↔ s.awaits = false ∧ named

variable {s s' : LevelState} {level : Level}

theorem takes_settle (h : s.settle = .ok s') :
    s.awaits = false ∧ Takes s s' (fun _ => False) False := by
  obtain ⟨given, waiting, noOptions⟩ := s
  cases waiting with
  | nothing =>
      cases h
      exact ⟨rfl, by simp, rfl, by simp [awaits]⟩
  | forValue o => cases h
  | toJudge o text =>
      obtain ⟨given', hput, hs'⟩ := exists_of_bind_eq_ok h
      cases hs'
      obtain ⟨hwell, _, rfl⟩ := (Setting.put_eq_ok_iff (x := .value o text)).mp hput
      refine ⟨rfl, ?_, rfl, by simp [awaits]⟩
      intro f
      simpa using Given.has_told hwell f

/-- A setting that is put at once is put after the value that waits. -/
theorem takes_put {x : Setting}
    (h : (do let s ← s.settle; let given ← x.put s.given; pure { s with given }) = .ok s') :
    s.awaits = false ∧ Takes s s' (fun f => x = .flag f) False := by
  obtain ⟨settled, hsettle, hrest⟩ := exists_of_bind_eq_ok h
  obtain ⟨given, hput, hs'⟩ := exists_of_bind_eq_ok hrest
  obtain ⟨hs, htakes⟩ := takes_settle hsettle
  obtain ⟨hwell, _, rfl⟩ := Setting.put_eq_ok_iff.mp hput
  cases hs'
  refine ⟨hs, ?_, htakes.noOptions, htakes.awaits⟩
  intro f
  rw [Given.has_told hwell f, htakes.has, or_false]

theorem takes_await {o : ValueOption} (h : s.await o = .ok s') :
    Takes s s' (fun _ => False) True := by
  obtain ⟨settled, hsettle, hs'⟩ := exists_of_bind_eq_ok h
  obtain ⟨hs, htakes⟩ := takes_settle hsettle
  cases hs'
  exact ⟨htakes.has, htakes.noOptions, fun _ => ⟨hs, trivial⟩, fun _ => rfl⟩

theorem Takes.trans {s₁ s₂ s₃ : LevelState} {asked also : Flag → Prop}
    (h : Takes s₁ s₂ asked False) (h' : Takes s₂ s₃ also False) :
    Takes s₁ s₃ (fun f => asked f ∨ also f) False where
  has f := by rw [h'.has, h.has, or_assoc]
  noOptions := h'.noOptions.trans h.noOptions
  awaits := by
    have hawaits := h'.awaits
    simpa using hawaits

theorem takes_letters {letters : List Char} (h : s.letters level letters = .ok s')
    (hs : s.awaits = false) : Takes s s' (fun f => f.letter ∈ letters) False := by
  induction letters generalizing s with
  | nil =>
      cases h
      exact ⟨by simp, rfl, by simp [hs]⟩
  | cons c rest ih =>
      rw [LevelState.letters] at h
      cases hshort : level.short? c with
      | none =>
          rw [hshort] at h
          cases h
      | some g =>
          rw [hshort] at h
          obtain ⟨next, hput, hrest⟩ := exists_of_bind_eq_ok h
          obtain ⟨_, htakes⟩ := takes_put (x := .flag g) hput
          have hnext : next.awaits = false := by
            simpa using htakes.awaits
          have hletters := htakes.trans (ih hrest hnext)
          refine ⟨?_, hletters.noOptions, hletters.awaits⟩
          intro f
          rw [hletters.has, List.mem_cons, Setting.flag.injEq, Flag.eq_iff_letter hshort]

theorem awaits_of_letters {c : Char} {rest : List Char} (h : s.letters level (c :: rest) = .ok s') :
    s.awaits = false := by
  rw [LevelState.letters] at h
  split at h
  · obtain ⟨next, hput, _⟩ := exists_of_bind_eq_ok h
    exact (takes_put (x := .flag _) hput).1
  · cases h

theorem takes_positional {arg : String} (h : s.positional level arg = .ok s') :
    level ≠ .top ∧ Takes s s' (fun _ => False) False := by
  cases level with
  | top => cases h
  | format => cases h
  | profile =>
      unfold positional at h
      simp only at h
      split at h
      · cases h
      · obtain ⟨next, hsettle, hs'⟩ := exists_of_bind_eq_ok h
        obtain ⟨_, htakes⟩ := takes_settle hsettle
        cases hs'
        refine ⟨Level.noConfusion, ?_, htakes.noOptions, htakes.awaits⟩
        intro f
        rw [← htakes.has]
        cases f <;> rfl

theorem takes_long {text : List Char} (h : s.long level text = .ok s') :
    Takes s s' (fun f => text = f.name.toList)
      (∃ o, level.long? (String.ofList text) = some (.valued o)) := by
  have htext : text.takeWhile (· ≠ '=') ++ text.dropWhile (· ≠ '=') = text :=
    List.takeWhile_append_dropWhile
  cases hvalue : text.dropWhile (· ≠ '=') with
  | nil =>
      rw [hvalue, List.append_nil] at htext
      simp only [long, htext, hvalue] at h
      cases hlong : level.long? (String.ofList text) with
      | none =>
          rw [hlong] at h
          cases h
      | some k =>
          rw [hlong] at h
          cases k with
          | flag g =>
              obtain ⟨_, htakes⟩ := takes_put (x := .flag g) h
              refine ⟨?_, htakes.noOptions, ?_⟩
              · intro f
                rw [htakes.has, Setting.flag.injEq, Flag.eq_iff_name hlong, ← String.toList_inj,
                  String.toList_ofList]
              · simpa using htakes.awaits
          | valued o =>
              have htakes := takes_await h
              have hne : ∀ f : Flag, text ≠ f.name.toList := by
                intro f heq
                exact Flag.ne_name hlong f (by rw [heq, String.ofList_toList])
              refine ⟨?_, htakes.noOptions, ?_⟩
              · intro f
                simp [htakes.has, hne]
              · simpa using htakes.awaits
  | cons c value =>
      have hmem : '=' ∈ text := by
        have hhead := List.head?_dropWhile_not (fun c => decide (c ≠ '=')) text
        rw [hvalue] at hhead
        have hc : c = '=' := by simpa using hhead
        rw [← htext, hvalue, hc]
        exact List.mem_append_right _ List.mem_cons_self
      have hne : ∀ f : Flag, text ≠ f.name.toList := fun f heq => f.not_mem_name (heq ▸ hmem)
      -- A text with an equals sign is the name of no option.
      have hnamed : ∀ k, level.long? (String.ofList text) ≠ some k := by
        intro k hk
        exact Level.not_mem_long hk (by rwa [String.toList_ofList])
      simp only [long, hvalue] at h
      split at h
      · cases h
      · cases h
      · rename_i hnone
        cases hnone
      · rename_i o value' _ hsome
        cases hsome
        obtain ⟨_, htakes⟩ := takes_put (x := .value o _) h
        refine ⟨?_, htakes.noOptions, ?_⟩
        · intro f
          simp [htakes.has, hne]
        · simpa [hnamed] using htakes.awaits
      · rename_i hnone
        cases hnone

theorem mem_dropWhile_isDigit {c : Char} {text : List Char} (hmem : c ∈ text)
    (hc : c.isDigit = false) : c ∈ text.dropWhile Char.isDigit := by
  rw [← List.takeWhile_append_dropWhile (p := Char.isDigit) (l := text)] at hmem
  rcases List.mem_append.mp hmem with htake | hdrop
  · have hdigit := List.all_eq_true.mp List.all_takeWhile c htake
    rw [hc] at hdigit
    contradiction
  · exact hdrop

theorem letter_not_mem_exponent {c : Char} {digits : List Char}
    (h : ((c = 'e' || c = 'E') && digits ≠ [] && digits.all Char.isDigit) = true) (f : Flag) :
    f.letter ∉ c :: digits := by
  have hletter : f.letter.isDigit = false ∧ f.letter ≠ 'e' ∧ f.letter ≠ 'E' := by
    cases f <;> decide
  simp only [Bool.and_eq_true, Bool.or_eq_true, decide_eq_true_eq] at h
  obtain ⟨⟨hc, _⟩, hdigits⟩ := h
  intro hmem
  rcases List.mem_cons.mp hmem with rfl | hmem
  · exact hc.elim hletter.2.1 hletter.2.2
  · have hdigit := List.all_eq_true.mp hdigits _ hmem
    rw [hletter.1] at hdigit
    contradiction

theorem letter_not_mem {text : List Char} (h : isUnsignedNumber text = true) (f : Flag) :
    f.letter ∉ text := by
  intro hmem
  have hdigit : f.letter.isDigit = false := by cases f <;> decide
  have hpoint : f.letter ≠ '.' := by cases f <;> decide
  have hwhole := mem_dropWhile_isDigit hmem hdigit
  have hfraction : ∀ rest, text.dropWhile Char.isDigit = '.' :: rest →
      f.letter ∈ rest.dropWhile Char.isDigit := by
    intro rest hrest
    rw [hrest] at hwhole
    exact mem_dropWhile_isDigit ((List.mem_cons.mp hwhole).resolve_left hpoint) hdigit
  unfold isUnsignedNumber at h
  dsimp only at h
  rw [Bool.and_eq_true] at h
  obtain ⟨_, hend⟩ := h
  -- The letter would have to stand in the exponent, with or without a point before it.
  split at hend
  · rename_i hnil
    split at hnil
    · rename_i rest hrest
      have hmem := hfraction rest hrest
      rw [hnil] at hmem
      cases hmem
    · rw [hnil] at hwhole
      cases hwhole
  · rename_i c digits hcons
    split at hcons
    · rename_i rest hrest
      exact letter_not_mem_exponent hend f (hcons ▸ hfraction rest hrest)
    · exact letter_not_mem_exponent hend f (hcons ▸ hwhole)

/-- What one argument does at a level, if it is taken and is not a lone double dash. -/
structure Stepped (level : Level) (arg : String) (s s' : LevelState) : Prop where
  has : ∀ f, s'.given.has f ↔ s.given.has f ∨ f.askedBy arg = true
  noOptions : s'.noOptions = false
  /-- Before the command only `--now` has a value. -/
  awaits : level = .top → (s'.awaits = true ↔ s.awaits = false ∧ arg = "--now")

theorem stepped_long {arg : String} {text : List Char} (harg : arg.toList = '-' :: '-' :: text)
    (hoptions : s.noOptions = false) (h : s.long level text = .ok s') : Stepped level arg s s' := by
  have htakes := takes_long h
  refine ⟨?_, htakes.noOptions.trans hoptions, ?_⟩
  · intro f
    simp [htakes.has, Flag.askedBy, harg]
  · rintro rfl
    have hnamed : (∃ o, Level.long? .top (String.ofList text) = some (.valued o)) ↔
        arg = "--now" := by
      rw [← String.toList_inj, harg]
      constructor
      · rintro ⟨o, ho⟩
        rw [← String.toList_ofList (l := text), Level.eq_now_of_valued ho]
        rfl
      · intro heq
        obtain rfl : text = "now".toList := by simpa using heq
        exact ⟨.now, rfl⟩
    rw [htakes.awaits, hnamed]

theorem stepped_letters {arg : String} {c : Char} {text : List Char} (hc : c ≠ '-')
    (harg : arg.toList = '-' :: c :: text) (hoptions : s.noOptions = false)
    (h : s.letters level (c :: text) = .ok s') : Stepped level arg s s' := by
  have htakes := takes_letters h (awaits_of_letters h)
  have hnow : arg ≠ "--now" := by
    rintro rfl
    obtain ⟨hdash, _⟩ : '-' = c ∧ ['n', 'o', 'w'] = text := by simpa using harg
    exact hc hdash.symm
  refine ⟨?_, htakes.noOptions.trans hoptions, ?_⟩
  · intro f
    simp [htakes.has, Flag.askedBy, harg, hc]
  · intro _
    simp [htakes.awaits, hnow]

theorem stepped_plain {arg : String} (harg : ∀ c text, arg.toList ≠ '-' :: c :: text)
    (hoptions : s.noOptions = false) (h : s.step level arg = .ok s') : Stepped level arg s s' := by
  have hnow : arg ≠ "--now" := by
    rintro rfl
    exact harg _ _ rfl
  have hasked : ∀ f : Flag, f.askedBy arg = false := by
    intro f
    unfold Flag.askedBy
    split
    · rename_i heq
      exact absurd heq (harg _ _)
    · rename_i letters _ heq
      cases letters with
      | nil => rfl
      | cons c text => exact absurd heq (harg _ _)
    · rfl
  unfold step at h
  rw [hoptions] at h
  simp only [Bool.false_eq_true, if_false] at h
  split at h
  iterate 3
    rename_i heq
    exact absurd heq (harg _ _)
  · cases h
    refine ⟨by simp [hasked], rfl, ?_⟩
    simp [awaits, hnow]
  · obtain ⟨htop, htakes⟩ := takes_positional h
    refine ⟨?_, htakes.noOptions.trans hoptions, fun heq => absurd heq htop⟩
    intro f
    simp [htakes.has, hasked]

theorem stepped_number {arg : String} {c : Char} {text : List Char} (hc : c ≠ '-')
    (harg : arg.toList = '-' :: c :: text) (hoptions : s.noOptions = false)
    (hwaiting : s.waiting = .forValue .seconds) (hnumber : isUnsignedNumber (c :: text) = true)
    (h : s.step level arg = .ok s') : Stepped level arg s s' := by
  have hstep : s.step level arg = .ok { s with waiting := .toJudge .seconds arg } := by
    simp [step, hoptions, harg, hc, hwaiting, hnumber]
  have hasked : ∀ f : Flag, f.askedBy arg = false := by
    intro f
    simpa [Flag.askedBy, harg, hc] using letter_not_mem hnumber f
  rw [hstep] at h
  cases h
  exact ⟨by simp [hasked], hoptions, fun _ => by simp [awaits, hwaiting]⟩

/-- Every argument of a level sets the flags it asks for, and no others. -/
theorem stepped {arg : String} (hoptions : s.noOptions = false) (harg : arg ≠ "--")
    (h : s.step level arg = .ok s') : Stepped level arg s s' := by
  by_cases hdash : ∃ c text, arg.toList = '-' :: c :: text
  · obtain ⟨c, text, htext⟩ := hdash
    by_cases hc : c = '-'
    · subst hc
      have hne : text ≠ [] := by
        rintro rfl
        exact harg (String.toList_inj.mp htext)
      rw [step_long hoptions hne htext] at h
      exact stepped_long htext hoptions h
    · by_cases hnumber : s.waiting = .forValue .seconds ∧ isUnsignedNumber (c :: text)
      · exact stepped_number hc htext hoptions hnumber.1 hnumber.2 h
      · have hstep : s.step level arg = s.letters level (c :: text) := by
          simp [step, hoptions, htext, hc, hnumber]
        rw [hstep] at h
        exact stepped_letters hc htext hoptions h
  · exact stepped_plain (fun c text heq => hdash ⟨c, text, heq⟩) hoptions h

theorem has_run_closed {args : List String} (h : s.run level args = .ok s')
    (hoptions : s.noOptions = true) (f : Flag) : s'.given.has f ↔ s.given.has f := by
  induction args generalizing s with
  | nil =>
      cases h
      exact Iff.rfl
  | cons arg rest ih =>
      rw [run_cons] at h
      obtain ⟨next, hstep, hrest⟩ := exists_of_bind_eq_ok h
      rw [step, if_pos hoptions] at hstep
      obtain ⟨_, htakes⟩ := takes_positional hstep
      rw [ih hrest (htakes.noOptions.trans hoptions), htakes.has, or_false]

theorem has_run {args : List String} (h : s.run level args = .ok s')
    (hoptions : s.noOptions = false) (f : Flag) :
    s'.given.has f ↔ s.given.has f ∨ f.askedAmong args = true := by
  -- Up to the first lone double dash every argument is stepped over with options allowed.
  induction args generalizing s with
  | nil =>
      cases h
      simp [Flag.askedAmong]
  | cons arg rest ih =>
      rw [run_cons] at h
      obtain ⟨next, hstep, hrest⟩ := exists_of_bind_eq_ok h
      by_cases harg : arg = "--"
      · subst harg
        have hnext : s.step level "--" = .ok { s with noOptions := true } := by
          simp [step, hoptions]
        rw [hnext] at hstep
        cases hstep
        simpa [Flag.askedAmong] using has_run_closed hrest rfl f
      · have hstepped := stepped hoptions harg hstep
        rw [ih hrest hstepped.noOptions, hstepped.has, or_assoc]
        simp [Flag.askedAmong, harg]

end LevelState

namespace State

theorem takesCommand_eq (s : LevelState) : takesCommand s = (!s.noOptions && !s.awaits) := by
  unfold takesCommand LevelState.awaits
  cases s.waiting <;> rfl

theorem not_accepted_helping (args : List String) (named : Bool) (line : CommandLine) :
    (args.foldlM step (.helping named) >>= finish) ≠ .ok line := by
  induction args generalizing named with
  | nil =>
      intro h
      cases h
  | cons arg rest ih =>
      rw [List.foldlM_cons, step]
      split
      · exact ih true
      · intro h
        cases h

theorem not_accepted_closed {s : LevelState} (hoptions : s.noOptions = true) (args : List String)
    (line : CommandLine) : (args.foldlM step (.top s) >>= finish) ≠ .ok line := by
  intro h
  obtain ⟨state, hstate, hfinish⟩ := exists_of_bind_eq_ok h
  cases args with
  | nil =>
      cases hstate
      obtain ⟨settled, _, hthrow⟩ := exists_of_bind_eq_ok hfinish
      cases hthrow
  | cons arg rest =>
      obtain ⟨next, hstep, _⟩ := exists_of_bind_eq_ok hstate
      simp [step, takesCommand, hoptions, LevelState.step, LevelState.positional,
        Except.map] at hstep

theorem foldlM_within (level : Level) (outer inner : LevelState) (args : List String) :
    args.foldlM step (.within level outer inner) =
      (inner.run level args).map (.within level outer) := by
  induction args generalizing inner with
  | nil => rfl
  | cons arg rest ih =>
      rw [List.foldlM_cons, step, LevelState.run_cons]
      cases inner.step level arg with
      | error refusal => rfl
      | ok inner => exact ih inner

/-- What an argument can do before the command: name it, call for help, or be one of the level. -/
theorem step_top_cases {s : LevelState} {arg : String} {next : State}
    (h : step (.top s) arg = .ok next) (hoptions : s.noOptions = false) :
    ((s.awaits = false ∧ (arg = "format" ∨ arg = "profile")) ∧
        ∃ level, next = .within level s {}) ∨
      next = .helping false ∨
      (¬ (s.awaits = false ∧ (arg = "format" ∨ arg = "profile")) ∧
        ∃ s', s.step .top arg = .ok s' ∧ next = .top s') := by
  have htakes : takesCommand s = true ↔ s.awaits = false := by simp [takesCommand_eq, hoptions]
  unfold step at h
  simp only [htakes] at h
  split at h
  · rename_i hformat
    cases h
    exact .inl ⟨⟨hformat.1, .inl hformat.2⟩, .format, rfl⟩
  · rename_i hformat
    split at h
    · rename_i hprofile
      cases h
      exact .inl ⟨⟨hprofile.1, .inr hprofile.2⟩, .profile, rfl⟩
    · rename_i hprofile
      split at h
      · cases h
        exact .inr (.inl rfl)
      · refine .inr (.inr ⟨?_, ?_⟩)
        · rintro ⟨hawaits, hname | hname⟩
          · exact hformat ⟨hawaits, hname⟩
          · exact hprofile ⟨hawaits, hname⟩
        · cases hstep : s.step .top arg with
          | error refusal =>
              rw [hstep] at h
              cases h
          | ok s' =>
              rw [hstep] at h
              cases h
              exact ⟨s', rfl, rfl⟩

/-- An accepted command line is split at the name of its command, and read side by side. -/
theorem exists_split {args : List String} {s : LevelState} {line : CommandLine}
    (h : (args.foldlM step (.top s) >>= finish) = .ok line) (hoptions : s.noOptions = false) :
    ∃ before after level outer inner, splitAtCommand s.awaits args = some (before, after) ∧
      s.run .top before = .ok outer ∧ LevelState.run {} level after = .ok inner ∧
        (State.within level outer inner).finish = .ok line := by
  -- Whether a value is awaited is all that `splitAtCommand` has to know of the state.
  induction args generalizing s with
  | nil =>
      have hfinish : (State.top s).finish = .ok line := h
      obtain ⟨settled, _, hthrow⟩ := exists_of_bind_eq_ok hfinish
      cases hthrow
  | cons arg rest ih =>
      rw [List.foldlM_cons, bind_assoc] at h
      obtain ⟨next, hstep, hrest⟩ := exists_of_bind_eq_ok h
      rcases step_top_cases hstep hoptions with ⟨hname, level, rfl⟩ | rfl | ⟨hname, s', hs', rfl⟩
      · rw [foldlM_within] at hrest
        cases hinner : LevelState.run {} level rest with
        | error refusal =>
            rw [hinner] at hrest
            cases hrest
        | ok inner =>
            rw [hinner] at hrest
            have hsplit : splitAtCommand s.awaits (arg :: rest) = some ([], rest) := by
              rw [splitAtCommand, if_pos hname]
            exact ⟨[], rest, level, s, inner, hsplit, rfl, hinner, hrest⟩
      · exact absurd hrest (not_accepted_helping rest false line)
      · by_cases harg : arg = "--"
        · subst harg
          have hclosed : s.step .top "--" = .ok { s with noOptions := true } := by
            simp [LevelState.step, hoptions]
          rw [hclosed] at hs'
          cases hs'
          exact absurd hrest (not_accepted_closed rfl rest line)
        · have hstepped := LevelState.stepped hoptions harg hs'
          obtain ⟨before, after, level, outer, inner, hsplit, houter, hinner, hfinish⟩ :=
            ih hrest hstepped.noOptions
          refine ⟨arg :: before, after, level, outer, inner, ?_, ?_, hinner, hfinish⟩
          · have hawaits : s'.awaits = (!s.awaits && arg = "--now") := by
              rw [Bool.eq_iff_iff, hstepped.awaits rfl]
              simp
            rw [splitAtCommand, if_neg hname, ← hawaits, hsplit]
            rfl
          · rw [LevelState.run_cons, hs']
            exact houter

theorem finish_within_ok {level : Level} {outer inner : LevelState} {line : CommandLine}
    (h : (State.within level outer inner).finish = .ok line) :
    ¬ (outer.given.has .quiet ∧ outer.given.has .verbose) ∧
    ¬ (inner.given.has .quiet ∧ inner.given.has .verbose) ∧
    (line.options.quiet = true ↔ outer.given.has .quiet ∨ inner.given.has .quiet) ∧
    (0 < line.options.verbose ↔ outer.given.has .verbose ∨ inner.given.has .verbose) := by
  obtain ⟨inner', hinner, h⟩ := exists_of_bind_eq_ok h
  obtain ⟨_, hinnerCheck, h⟩ := exists_of_bind_eq_ok h
  obtain ⟨command, _, h⟩ := exists_of_bind_eq_ok h
  obtain ⟨outer', houter, h⟩ := exists_of_bind_eq_ok h
  obtain ⟨_, houterCheck, h⟩ := exists_of_bind_eq_ok h
  cases h
  have hasOuter : ∀ f, outer'.given.has f ↔ outer.given.has f := by
    intro f
    rw [(LevelState.takes_settle houter).2.has, or_false]
  have hasInner : ∀ f, inner'.given.has f ↔ inner.given.has f := by
    intro f
    rw [(LevelState.takes_settle hinner).2.has, or_false]
  simp only [← hasOuter, ← hasInner]
  refine ⟨Given.check_eq_ok_iff.mp houterCheck, Given.check_eq_ok_iff.mp hinnerCheck, ?_, ?_⟩
  · simp only [merge, Given.has, Bool.or_eq_true]
    exact Or.comm
  · simp only [merge, Given.has]
    split <;> omega

end State

/-- The sides on which an accepted command line asks for quiet and for verbose. -/
structure Sides (args : List String) (line : CommandLine) (before after : List String) : Prop where
  split : splitAtCommand false args = some (before, after)
  notBefore : ¬ (Flag.quiet.askedAmong before ∧ Flag.verbose.askedAmong before)
  notAfter : ¬ (Flag.quiet.askedAmong after ∧ Flag.verbose.askedAmong after)
  /-- Nothing compares what was asked for before the command with what was asked for after it. -/
  across : line.options.quiet ∧ 0 < line.options.verbose ↔
    Flag.quiet.askedAmong before ∧ Flag.verbose.askedAmong after ∨
      Flag.verbose.askedAmong before ∧ Flag.quiet.askedAmong after

/-- An accepted command line is quiet and verbose exactly if it asks for one of them before the name
of its command and for the other one after it. -/
theorem exists_sides {args : List String} {line : CommandLine} (h : read args = .ok line) :
    ∃ before after, Sides args line before after := by
  obtain ⟨before, after, level, outer, inner, hsplit, houter, hinner, hfinish⟩ :=
    State.exists_split (s := {}) h rfl
  obtain ⟨hbefore, hafter, hquiet, hverbose⟩ := State.finish_within_ok hfinish
  have hasOuter : ∀ f : Flag, outer.given.has f ↔ f.askedAmong before := by
    intro f
    rw [LevelState.has_run houter rfl]
    cases f <;> simp [Given.has]
  have hasInner : ∀ f : Flag, inner.given.has f ↔ f.askedAmong after := by
    intro f
    rw [LevelState.has_run hinner rfl]
    cases f <;> simp [Given.has]
  rw [hasOuter, hasOuter] at hbefore
  rw [hasInner, hasInner] at hafter
  rw [hasOuter, hasInner] at hquiet hverbose
  refine ⟨before, after, hsplit, hbefore, hafter, ?_⟩
  rw [hquiet, hverbose]
  grind

/-- Quiet before the command and verbose after it. -/
theorem exists_sides_across : ∃ before after line,
    Sides ["-q", "format", "-v", "--seconds", "0"] line before after ∧
      line.options.quiet ∧ 0 < line.options.verbose := by
  have hread : read ["-q", "format", "-v", "--seconds", "0"] =
      .ok ⟨⟨none, false, true, 1⟩, .format ⟨0, 0⟩ .full⟩ := by decide +kernel
  obtain ⟨before, after, hsides⟩ := exists_sides hread
  exact ⟨before, after, _, hsides, by decide, by decide⟩

theorem not_exclusive : ¬ ∀ (args : List String) (line : CommandLine), read args = .ok line →
    ¬ (line.options.quiet ∧ 0 < line.options.verbose) := by
  intro h
  have hread : read ["-q", "format", "-v", "--seconds", "0"] =
      .ok ⟨⟨none, false, true, 1⟩, .format ⟨0, 0⟩ .full⟩ := by decide +kernel
  exact h _ _ hread ⟨rfl, by decide⟩

end CommandLine

end AccountView
