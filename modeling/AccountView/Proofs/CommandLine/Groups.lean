import AccountView.Proofs.CommandLine.Settings
import AccountView.Proofs.Outcome

namespace AccountView

/-! Settings in all their spellings. A value can be joined to its name or stand apart, and then it
is judged later; letters can be clustered. Reading the arguments is putting the settings, up to the
reason of a refusal. -/

namespace CommandLine

/-! ### Spellings of settings -/

def Flag.letter : Flag → Char
  | zulu => 'z'
  | quiet => 'q'
  | verbose => 'v'
  | help => 'h'
  | version => 'V'

/-- Arguments that stand together. -/
inductive Group where
  | joined (o : ValueOption) (text : String)
  | apart (o : ValueOption) (text : String)
  | long (f : Flag)
  | letters (flags : List Flag)
  | file (path : String)
  deriving DecidableEq

/-- A text that is taken as a value where it stands by itself: it does not look like an option, or
it is a negative number of seconds. -/
def standsApart (o : ValueOption) (text : String) : Bool :=
  match text.toList with
  | '-' :: digits => o = .seconds && digits ≠ [] && digits.all Char.isDigit
  | _ => true

namespace Group

def args : Group → List String
  | joined o text => [Setting.arg (.value o text)]
  | apart o text => ["--" ++ o.name, text]
  | long f => [Setting.arg (.flag f)]
  | letters flags => [String.ofList ('-' :: flags.map Flag.letter)]
  | file path => [path]

def settings : Group → List Setting
  | joined o text | apart o text => [.value o text]
  | long f => [.flag f]
  | letters flags => flags.map .flag
  | file path => [.file path]

/-- The groups of a level. No option but `zulu` is without a letter. -/
def AllowedAt (level : Level) : Group → Prop
  | joined o _ => level.long? o.name = some (.valued o)
  | apart o text => level.long? o.name = some (.valued o) ∧ standsApart o text
  | long f => level.long? f.name = some (.flag f)
  | letters flags => flags ≠ [] ∧ ∀ f ∈ flags, level.short? f.letter = some f
  | file path => level = .profile ∧ path.toList.head? ≠ some '-'

instance (level : Level) : DecidablePred (AllowedAt level)
  | joined _ _ => inferInstanceAs (Decidable (_ = _))
  | apart _ _ => inferInstanceAs (Decidable (_ ∧ _))
  | long _ => inferInstanceAs (Decidable (_ = _))
  | letters _ => inferInstanceAs (Decidable (_ ∧ ∀ f ∈ _, _ = _))
  | file _ => inferInstanceAs (Decidable (_ ∧ _))

end Group

/-! ### Reading with a value that has not been judged -/

namespace LevelState

def settled (given : Given) : LevelState := { given }

theorem putValue_settled (given : Given) (o : ValueOption) (text : String) :
    (settled given).putValue o text = (given.putValue text o).map settled := by
  have hbind : (settled given).putValue o text =
      (given.putValue text o).bind fun given => .ok (settled given) := rfl
  rw [hbind]
  cases given.putValue text o <;> rfl

theorem putFlag_settled (given : Given) (f : Flag) :
    (settled given).putFlag f = (given.putFlag f).map settled := by
  have hbind : (settled given).putFlag f =
      (given.putFlag f).bind fun given => .ok (settled given) := rfl
  rw [hbind]
  cases given.putFlag f <;> rfl

/-- Options may follow, and no value has to. -/
structure Ready (s : LevelState) : Prop where
  noOptions : s.noOptions = false
  waiting : ∀ o, s.waiting ≠ .forValue o

/-- What is given so far, with the value read last. -/
def collected (s : LevelState) : Except Refusal Given :=
  match s.waiting with
  | .toJudge o text => s.given.putValue text o
  | _ => .ok s.given

theorem ready_settled (given : Given) : (settled given).Ready :=
  ⟨rfl, fun _ => Waiting.noConfusion⟩

variable {level : Level}

theorem letters_cons {f : Flag} (hknown : level.short? f.letter = some f) (s : LevelState)
    (rest : List Char) :
    s.letters level (f.letter :: rest) = (s.putFlag f >>= fun s => s.letters level rest) := by
  rw [letters, hknown]

theorem letters_settled {flags : List Flag} (hknown : ∀ f ∈ flags, level.short? f.letter = some f)
    (given : Given) : (settled given).letters level (flags.map Flag.letter) =
      (flags.foldlM Given.putFlag given).map settled := by
  induction flags generalizing given with
  | nil => rfl
  | cons f rest ih =>
      rw [List.forall_mem_cons] at hknown
      rw [List.map_cons, letters_cons hknown.1, putFlag_settled, List.foldlM_cons]
      cases given.putFlag f with
      | error refusal => rfl
      | ok given => exact ih hknown.2 given

namespace Ready

variable {s : LevelState}

theorem settle (h : s.Ready) : s.settle = s.collected.map settled := by
  obtain ⟨given, waiting, noOptions⟩ := s
  obtain ⟨rfl, hwaiting⟩ := h
  cases waiting with
  | nothing => rfl
  | forValue o => exact absurd rfl (hwaiting o)
  | toJudge o text =>
      simp only [LevelState.settle, collected]
      cases given.putValue text o <;> rfl

theorem putFlag (h : s.Ready) (f : Flag) :
    s.putFlag f = (s.collected >>= (·.putFlag f)).map settled := by
  rw [LevelState.putFlag, h.settle]
  cases s.collected with
  | error refusal => rfl
  | ok given =>
      exact putFlag_settled given f

theorem putValue (h : s.Ready) (o : ValueOption) (text : String) :
    s.putValue o text = (s.collected >>= (·.putValue text o)).map settled := by
  rw [LevelState.putValue, h.settle]
  cases s.collected with
  | error refusal => rfl
  | ok given => exact putValue_settled given o text

theorem await (h : s.Ready) (o : ValueOption) :
    s.await o = s.collected.map fun given => { given, waiting := .forValue o } := by
  rw [LevelState.await, h.settle]
  cases s.collected <;> rfl

theorem letters (h : s.Ready) {flags : List Flag} (hne : flags ≠ [])
    (hknown : ∀ f ∈ flags, level.short? f.letter = some f) :
    s.letters level (flags.map Flag.letter) =
      (s.collected >>= fun given => flags.foldlM Given.putFlag given).map settled := by
  obtain ⟨f, rest, rfl⟩ := List.exists_cons_of_ne_nil hne
  cases hcollected : s.collected with
  | error refusal =>
      have hput : s.putFlag f = .error refusal := by rw [h.putFlag, hcollected]; rfl
      rw [List.map_cons, letters_cons (List.forall_mem_cons.mp hknown).1, hput]
      rfl
  | ok given =>
      -- After the first letter nothing waits any more.
      have hput : s.putFlag f = (settled given).putFlag f := by
        rw [h.putFlag, hcollected, putFlag_settled]
        rfl
      have hsettled := letters_settled hknown given
      rw [List.map_cons, letters_cons (List.forall_mem_cons.mp hknown).1] at hsettled ⊢
      rw [hput, hsettled]
      rfl

end Ready

/-! ### Arguments of groups, one by one -/

variable {s : LevelState} {level : Level}

theorem step_long {arg : String} {text : List Char}
    (hoptions : s.noOptions = false) (hne : text ≠ []) (harg : arg.toList = '-' :: '-' :: text) :
    s.step level arg = s.long level text := by
  obtain ⟨c, rest, rfl⟩ := List.exists_cons_of_ne_nil hne
  simp [step, hoptions, harg]

theorem step_joined (hoptions : s.noOptions = false)
    {o : ValueOption} (hknown : level.long? o.name = some (.valued o)) (text : String) :
    s.step level (Setting.arg (.value o text)) = s.putValue o text := by
  have hname : ∀ c ∈ o.name.toList, decide (c ≠ '=') = true :=
    List.all_eq_true.mp (by cases o <;> rfl)
  have harg : (Setting.arg (.value o text)).toList =
      '-' :: '-' :: (o.name.toList ++ '=' :: text.toList) := by
    simp [Setting.arg]
  rw [step_long hoptions (by simp) harg, long, List.takeWhile_append_of_pos hname,
    List.dropWhile_append_of_pos hname]
  simp [hknown]

theorem step_longFlag (hoptions : s.noOptions = false) {f : Flag}
    (hknown : level.long? f.name = some (.flag f)) :
    s.step level (Setting.arg (.flag f)) = s.putFlag f := by
  have hne : f.name.toList ≠ [] := by cases f <;> simp [Flag.name]
  have harg : (Setting.arg (.flag f)).toList = '-' :: '-' :: f.name.toList := by
    simp [Setting.arg]
  have htake : f.name.toList.takeWhile (· ≠ '=') = f.name.toList := by cases f <;> rfl
  have hdrop : f.name.toList.dropWhile (· ≠ '=') = [] := by cases f <;> rfl
  rw [step_long hoptions hne harg, long, htake, hdrop]
  simp [hknown]

theorem step_letters (h : s.Ready) {flags : List Flag} (hne : flags ≠ []) :
    s.step level (String.ofList ('-' :: flags.map Flag.letter)) =
      s.letters level (flags.map Flag.letter) := by
  obtain ⟨f, rest, rfl⟩ := List.exists_cons_of_ne_nil hne
  have hletter : f.letter ≠ '-' := by cases f <;> decide
  simp [step, h.noOptions, h.waiting, hletter]

theorem step_name (h : s.Ready) {o : ValueOption} (hknown : level.long? o.name = some (.valued o)) :
    s.step level ("--" ++ o.name) = s.await o := by
  have hne : o.name.toList ≠ [] := by cases o <;> simp [ValueOption.name]
  have harg : ("--" ++ o.name).toList = '-' :: '-' :: o.name.toList := by simp
  have htake : o.name.toList.takeWhile (· ≠ '=') = o.name.toList := by cases o <;> rfl
  have hdrop : o.name.toList.dropWhile (· ≠ '=') = [] := by cases o <;> rfl
  rw [step_long h.noOptions hne harg, long, htake, hdrop]
  simp [hknown]

theorem isUnsignedNumber_of_digits {digits : List Char} (hne : digits ≠ [])
    (hdigits : digits.all Char.isDigit) : isUnsignedNumber digits = true := by
  obtain ⟨c, rest, rfl⟩ := List.exists_cons_of_ne_nil hne
  have hmem := List.all_eq_true.mp hdigits
  have hdrop : (c :: rest ++ []).dropWhile Char.isDigit = [] := List.dropWhile_append_of_pos hmem
  have hc : c.isDigit = true := hmem c List.mem_cons_self
  rw [List.append_nil] at hdrop
  simp [isUnsignedNumber, hdrop, hc]

theorem step_value_apart {o : ValueOption} {text : String} (h : standsApart o text)
    (given : Given) : step { given, waiting := .forValue o } level text =
      .ok { given, waiting := .toJudge o text } := by
  unfold standsApart at h
  split at h
  · rename_i digits htext
    simp only [Bool.and_eq_true, decide_eq_true_eq] at h
    obtain ⟨⟨rfl, hne⟩, hdigits⟩ := h
    have hnumber := isUnsignedNumber_of_digits hne hdigits
    obtain ⟨c, rest, rfl⟩ := List.exists_cons_of_ne_nil hne
    have hc : c ≠ '-' := by
      rintro rfl
      simp at hdigits
    simp [step, htext, hc, hnumber]
  · rename_i hhead
    cases htext : text.toList with
    | nil => simp [step, htext]
    | cons c rest =>
        have hc : c ≠ '-' := by
          rintro rfl
          exact hhead rest htext
        simp [step, htext, hc]

theorem step_path (h : s.Ready) {path : String} (hpath : path.toList.head? ≠ some '-') :
    s.step .profile path = s.positional .profile path := by
  cases htext : path.toList with
  | nil => simp [step, h.noOptions, htext, h.waiting]
  | cons c rest =>
      have hc : c ≠ '-' := by
        rintro rfl
        exact hpath (by rw [htext]; rfl)
      simp [step, h.noOptions, htext, hc, h.waiting]

theorem file_collected {given : Given} (h : s.collected = .ok given) :
    given.file = s.given.file := by
  unfold collected at h
  split at h
  · rename_i o text _
    obtain ⟨_, _, rfl⟩ := (Setting.put_eq_ok_iff (x := .value o text)).mp h
    cases o <;> rfl
  · cases h
    rfl

/-- A second file is refused before a value that waits, which changes the refusal only. -/
theorem positional_path (h : s.Ready) (path : String) : (s.positional .profile path).toOption =
    ((s.collected >>= fun given => Setting.put given (.file path)).map settled).toOption := by
  simp only [positional, h.settle]
  cases hcollected : s.collected with
  | error refusal => split <;> rfl
  | ok given =>
      change _ = ((Setting.put given (.file path)).map settled).toOption
      rw [← file_collected hcollected, Setting.put]
      cases given.file <;> rfl

/-! ### Groups one after the other -/

def run (s : LevelState) (level : Level) (args : List String) : Except Refusal LevelState :=
  args.foldlM (fun s arg => s.step level arg) s

theorem run_cons (s : LevelState) (level : Level) (arg : String) (rest : List String) :
    s.run level (arg :: rest) = (s.step level arg >>= fun s => s.run level rest) := rfl

/-- A reading that goes as the settings `given` so far. -/
def Reads (outcome : Except Refusal LevelState) (given : Except Refusal Given) : Prop :=
  match outcome with
  | .error _ => given.toOption = none
  | .ok s => s.Ready ∧ s.collected.toOption = given.toOption

theorem reads_of_settled {outcome : Except Refusal LevelState} {given : Except Refusal Given}
    (h : outcome.toOption = (given.map settled).toOption) : Reads outcome given := by
  cases given with
  | error refusal =>
      cases outcome with
      | error _ => rfl
      | ok s => cases h
  | ok given =>
      cases outcome with
      | error _ => cases h
      | ok s =>
          cases h
          exact ⟨ready_settled given, rfl⟩

theorem reads_empty : Reads (.ok {}) (.ok {}) := ⟨ready_settled {}, rfl⟩

theorem Reads.congr {outcome : Except Refusal LevelState} {given given' : Except Refusal Given}
    (h : Reads outcome given) (heq : given.toOption = given'.toOption) : Reads outcome given' := by
  cases outcome with
  | error refusal => exact heq.symm.trans h
  | ok s => exact ⟨h.1, h.2.trans heq⟩

theorem reads_group (h : s.Ready) {x : Group} (hx : x.AllowedAt level) :
    Reads (s.run level x.args)
      (s.collected >>= fun given => x.settings.foldlM Setting.put given) := by
  cases x with
  | joined o text =>
      refine reads_of_settled ?_
      simp only [run, Group.args, Group.settings, List.foldlM_cons, List.foldlM_nil, bind_pure]
      rw [step_joined h.noOptions hx, h.putValue]
      rfl
  | apart o text =>
      simp only [run, Group.args, Group.settings, List.foldlM_cons, List.foldlM_nil, bind_pure]
      rw [step_name h hx.1, h.await]
      cases s.collected with
      | error refusal => rfl
      | ok given =>
          change Reads (step { given, waiting := .forValue o } level text) (given.putValue text o)
          rw [step_value_apart hx.2]
          exact ⟨⟨rfl, fun _ => Waiting.noConfusion⟩, rfl⟩
  | long f =>
      refine reads_of_settled ?_
      simp only [run, Group.args, Group.settings, List.foldlM_cons, List.foldlM_nil, bind_pure]
      rw [step_longFlag h.noOptions hx, h.putFlag]
      rfl
  | letters flags =>
      refine reads_of_settled ?_
      simp only [run, Group.args, Group.settings, List.foldlM_cons, List.foldlM_nil, bind_pure]
      rw [step_letters h hx.1, h.letters hx.1 hx.2]
      simp only [List.foldlM_map]
      rfl
  | file path =>
      refine reads_of_settled ?_
      obtain ⟨rfl, hpath⟩ := hx
      simp only [run, Group.args, Group.settings, List.foldlM_cons, List.foldlM_nil, bind_pure]
      rw [step_path h hpath, positional_path h]

end LevelState

def Level.name? : Level → Option String
  | .top => none
  | .format => some "format"
  | .profile => some "profile"

namespace State

open LevelState

/-- The place of a level passes on the arguments that are no names of commands. -/
def PassesOn (level : Level) (place : LevelState → State) : Prop :=
  ∀ s arg, (level = .top → takesCommand s = false ∨ arg.toList.head? = some '-') →
    step (place s) arg = (s.step level arg).map place

theorem passesOn_top : PassesOn .top .top := by
  intro s arg h
  have hname : ∀ name : String, name.toList.head? ≠ some '-' →
      ¬ (takesCommand s = true ∧ arg = name) := by
    rintro _ hname ⟨htakes, rfl⟩
    rcases h rfl with hnone | hdash
    · rw [htakes] at hnone
      contradiction
    · exact hname hdash
  simp only [step, if_neg (hname "format" (by decide)), if_neg (hname "profile" (by decide)),
    if_neg (hname "help" (by decide))]

theorem passesOn_within (level : Level) (outer : LevelState) :
    PassesOn level (.within level outer) := by
  intro s arg _
  rfl

variable {level : Level} {place : LevelState → State}

theorem foldlM_group (hplace : PassesOn level place) {s : LevelState} (hs : s.Ready) {x : Group}
    (hx : x.AllowedAt level) :
    x.args.foldlM step (place s) = (s.run level x.args).map place := by
  have hsingle : ∀ arg : String, (level = .top → arg.toList.head? = some '-') →
      [arg].foldlM step (place s) = (s.run level [arg]).map place := by
    intro arg hdash
    simp only [run, List.foldlM_cons, List.foldlM_nil, bind_pure]
    exact hplace s arg fun htop => .inr (hdash htop)
  cases x with
  | joined o text => exact hsingle _ fun _ => by simp [Setting.arg]
  | apart o text =>
      have hname : step (place s) ("--" ++ o.name) = (s.await o).map place := by
        rw [hplace s _ fun _ => .inr (by simp), step_name hs hx.1]
      simp only [run, Group.args, List.foldlM_cons, List.foldlM_nil, bind_pure]
      rw [hname, step_name hs hx.1, hs.await]
      cases s.collected with
      | error refusal => rfl
      | ok given => exact hplace _ text fun _ => .inl rfl
  | long f => exact hsingle _ fun _ => by simp [Setting.arg]
  | letters flags => exact hsingle _ fun _ => by simp
  | file path => exact hsingle _ fun htop => by simp [hx.1] at htop

/-- Groups are read as their settings are put, up to the reason of a refusal. -/
theorem foldlM_groups (hplace : PassesOn level place) {groups : List Group}
    (hgroups : ∀ x ∈ groups, x.AllowedAt level) {s : LevelState} {given : Except Refusal Given}
    (hs : Reads (.ok s) given) : ∃ outcome,
      (groups.flatMap Group.args).foldlM step (place s) = outcome.map place ∧
        Reads outcome (given >>= fun given =>
          (groups.flatMap Group.settings).foldlM Setting.put given) := by
  -- Carried along: no value is waited for, and what is collected so far is `given`. Which refusal
  -- comes first is not.
  induction groups generalizing s given with
  | nil => exact ⟨.ok s, rfl, by simpa using hs⟩
  | cons x rest ih =>
      rw [List.forall_mem_cons] at hgroups
      have hcollected :
          (s.collected >>= fun given => x.settings.foldlM Setting.put given).toOption =
            (given >>= fun given => x.settings.foldlM Setting.put given).toOption := by
        rw [toOption_bind, toOption_bind, hs.2]
      have hx := (reads_group hs.1 hgroups.1).congr hcollected
      simp only [List.flatMap_cons, List.foldlM_append, foldlM_group hplace hs.1 hgroups.1]
      rw [← bind_assoc]
      cases hrun : s.run level x.args with
      | error refusal =>
          rw [hrun] at hx
          refine ⟨.error refusal, rfl, ?_⟩
          change Except.toOption _ = none
          rw [toOption_bind, hx]
          rfl
      | ok s =>
          rw [hrun] at hx
          exact ih hgroups.2 hx

theorem step_name {level : Level} {name : String} (hname : level.name? = some name)
    {outer : LevelState} (h : outer.Ready) :
    step (.top outer) name = .ok (.within level outer {}) := by
  have htakes : takesCommand outer = true := by
    unfold takesCommand
    rw [h.noOptions]
    split
    · rename_i o hwaiting
      exact absurd hwaiting (h.waiting o)
    · rfl
  cases level with
  | top => cases hname
  | format =>
      cases hname
      simp [step, htakes]
  | profile =>
      cases hname
      simp [step, htakes]

/-- Both levels are settled; which one is first decides the reason of a refusal only. -/
theorem finish_within {outer inner : LevelState} (houter : outer.Ready) (hinner : inner.Ready)
    (level : Level) : (State.within level outer inner).finish.toOption =
      (do
        let outer ← outer.collected
        let inner ← inner.collected
        conclude level outer inner).toOption := by
  simp only [finish, houter.settle, hinner.settle]
  cases inner.collected with
  | error refusal => cases outer.collected <;> rfl
  | ok inner =>
      cases outer.collected with
      | ok outer => rfl
      | error refusal =>
          change (inner.check >>= fun _ => command level inner >>= fun _ =>
            (Except.error refusal : Except Refusal CommandLine)).toOption = none
          cases inner.check with
          | error _ => rfl
          | ok _ => cases command level inner <;> rfl

end State

theorem toOption_read_after {level : Level} {name : String} (hname : level.name? = some name)
    {outer : LevelState} (houter : outer.Ready) {after : List Group}
    (hafter : ∀ x ∈ after, x.AllowedAt level) :
    ((name :: after.flatMap Group.args).foldlM State.step (.top outer) >>= State.finish).toOption =
      (do
        let outer ← outer.collected
        let inner ← (after.flatMap Group.settings).foldlM Setting.put {}
        State.conclude level outer inner).toOption := by
  obtain ⟨outcome, hinner, hreads⟩ :=
    State.foldlM_groups (State.passesOn_within level outer) hafter LevelState.reads_empty
  have hargs : (name :: after.flatMap Group.args).foldlM State.step (.top outer) =
      outcome.map (.within level outer) := by
    rw [List.foldlM_cons, State.step_name hname houter]
    exact hinner
  rw [hargs]
  cases outcome with
  | error refusal =>
      have hnone : ((after.flatMap Group.settings).foldlM Setting.put {}).toOption = none := hreads
      simp only [toOption_bind, hnone]
      cases outer.collected <;> rfl
  | ok inner =>
      obtain ⟨hready, hcollected⟩ := hreads
      change (State.within level outer inner).finish.toOption = _
      rw [State.finish_within houter hready]
      simp only [toOption_bind, hcollected]
      rfl

/-- A command line of groups comes to what its settings come to, level by level. -/
theorem toOption_read {level : Level} {name : String} (hname : level.name? = some name)
    {before after : List Group} (hbefore : ∀ x ∈ before, x.AllowedAt .top)
    (hafter : ∀ x ∈ after, x.AllowedAt level) :
    (read (before.flatMap Group.args ++ name :: after.flatMap Group.args)).toOption =
      (do
        let outer ← (before.flatMap Group.settings).foldlM Setting.put {}
        let inner ← (after.flatMap Group.settings).foldlM Setting.put {}
        State.conclude level outer inner).toOption := by
  obtain ⟨outcome, houter, hreads⟩ :=
    State.foldlM_groups State.passesOn_top hbefore LevelState.reads_empty
  rw [read, List.foldlM_append, houter]
  cases outcome with
  | error refusal =>
      have hnone : ((before.flatMap Group.settings).foldlM Setting.put {}).toOption = none := hreads
      rw [toOption_bind ((before.flatMap Group.settings).foldlM Setting.put {}), hnone]
      rfl
  | ok outer =>
      obtain ⟨hready, hcollected⟩ := hreads
      have hbefore : outer.collected.toOption =
          ((before.flatMap Group.settings).foldlM Setting.put {}).toOption := hcollected
      have hafter := toOption_read_after hname hready hafter
      rw [toOption_bind outer.collected, hbefore, ← toOption_bind] at hafter
      exact hafter

end CommandLine

end AccountView
