import AccountView.Proofs.CommandLine.Groups

namespace AccountView

/-! Command lines that ask for the same. However the settings of a request are spelled and placed,
the command line is refused or comes to what is requested. -/

namespace CommandLine

/-! ### Requests -/

/-- How much is logged: quiet and verbose exclude each other. -/
inductive Loudness where
  | quiet
  | verbose (times : Nat)

inductive Job where
  | format (seconds : String) (nanos style : Option String)
  | profile (path : String)

/-- What is asked of the program, apart from how it is spelled. -/
structure Request where
  now : Option String
  zulu : Bool
  loudness : Loudness
  job : Job

namespace Loudness

def settings : Loudness → List Setting
  | quiet => [.flag .quiet]
  | verbose times => List.replicate times (.flag .verbose)

def isQuiet : Loudness → Bool
  | quiet => true
  | verbose _ => false

def times : Loudness → Nat
  | quiet => 0
  | verbose times => times

end Loudness

namespace Job

def level : Job → Level
  | format .. => .format
  | profile _ => .profile

def name : Job → String
  | format .. => "format"
  | profile _ => "profile"

theorem name?_level (job : Job) : job.level.name? = some job.name := by
  cases job <;> rfl

def settings : Job → List Setting
  | format seconds nanos style => .value .seconds seconds ::
      ((nanos.map (Setting.value .nanos)).toList ++ (style.map (Setting.value .style)).toList)
  | profile path => [.file path]

def given : Job → Given
  | format seconds nanos style =>
    { seconds := int64? seconds, nanos := nanos.bind int32?, style := style.bind Style.ofName? }
  | profile path => { file := some path }

def command? : Job → Option Command
  | format seconds nanos style => do
    let seconds ← int64? seconds
    let nanos ← nanos.elim (some 0) int32?
    let style ← style.elim (some .full) Style.ofName?
    some (.format ⟨seconds, nanos⟩ style)
  | profile path => some (.profile path)

theorem command?_format_eq_some_iff {seconds : String} {nanos style : Option String}
    {command : Command} : (format seconds nanos style).command? = some command ↔
      ∃ n m s, int64? seconds = some n ∧ nanos.elim (some 0) int32? = some m ∧
        style.elim (some .full) Style.ofName? = some s ∧ command = .format ⟨n, m⟩ s := by
  simp only [command?, Option.bind_eq_bind, Option.bind_eq_some_iff]
  grind

theorem wellFormed_settings_iff (job : Job) :
    (∀ x ∈ job.settings, x.WellFormed) ↔ job.command?.isSome := by
  cases job with
  | format seconds nanos style =>
      simp only [Option.isSome_iff_exists, command?_format_eq_some_iff]
      cases nanos <;> cases style <;>
        simp [settings, Setting.WellFormed, Option.isSome_iff_exists]
  | profile path => simp [settings, command?, Setting.WellFormed]

theorem not_isGlobal_of_mem {job : Job} {x : Setting} (h : x ∈ job.settings) :
    ¬ x.IsGlobal := by
  cases job with
  | format seconds nanos style =>
      have hx : x = .value .seconds seconds ∨ (∃ text, nanos = some text ∧ .value .nanos text = x) ∨
          ∃ text, style = some text ∧ .value .style text = x := by
        simpa [settings] using h
      rcases hx with rfl | ⟨text, _, rfl⟩ | ⟨text, _, rfl⟩ <;> exact id
  | profile path =>
      rw [List.mem_singleton.mp h]
      exact id

theorem pairwise_settings (job : Job) : job.settings.Pairwise Setting.Compatible := by
  cases job with
  | format seconds nanos style =>
      cases nanos <;> cases style <;> simp [settings, Setting.Compatible, Setting.kind]
  | profile path => exact List.pairwise_singleton _ _

end Job

namespace Request

def globals (r : Request) : List Setting :=
  (r.now.map (Setting.value .now)).toList ++ (if r.zulu then [.flag .zulu] else []) ++
    r.loudness.settings

def settings (r : Request) : List Setting := r.globals ++ r.job.settings

def options (r : Request) : Options :=
  ⟨r.now, r.zulu, r.loudness.isQuiet, min r.loudness.times maxVerbose⟩

def commandLine? (r : Request) : Option CommandLine :=
  r.job.command?.map fun command => ⟨r.options, command⟩

def given (r : Request) : Given :=
  { r.job.given with
    now := r.now, zulu := r.zulu, quiet := r.loudness.isQuiet
    verbose := min r.loudness.times maxVerbose }

theorem foldl_told_verbose (times : Nat) (given : Given) (h : given.verbose ≤ maxVerbose) :
    (List.replicate times (.flag .verbose)).foldl Given.told given =
      { given with verbose := min (given.verbose + times) maxVerbose } := by
  induction times generalizing given with
  | zero => simp [Nat.min_eq_left h]
  | succ times ih =>
      rw [List.replicate_succ, List.foldl_cons, ih _ (Nat.min_le_right _ _)]
      simp only [Given.told]
      congr 1
      omega

theorem foldl_told_settings (r : Request) : r.settings.foldl Given.told {} = r.given := by
  obtain ⟨now, zulu, loudness, job⟩ := r
  have hglobals : (globals ⟨now, zulu, loudness, job⟩).foldl Given.told {} =
      { now, zulu, quiet := loudness.isQuiet, verbose := min loudness.times maxVerbose } := by
    rw [globals, List.foldl_append]
    cases loudness with
    | quiet => cases now <;> cases zulu <;> rfl
    | verbose times =>
        rw [Loudness.settings, foldl_told_verbose]
        · cases now <;> cases zulu <;> simp [Given.told, Loudness.isQuiet, Loudness.times]
        · cases now <;> cases zulu <;> simp [Given.told]
  rw [settings, List.foldl_append, hglobals]
  cases job with
  | format seconds nanos style => cases nanos <;> cases style <;> rfl
  | profile path => rfl

theorem global_of_mem_globals {r : Request} {x : Setting} (h : x ∈ r.globals) :
    x.IsGlobal ∧ x.WellFormed := by
  obtain ⟨now, zulu, loudness, job⟩ := r
  simp only [globals, List.mem_append] at h
  rcases h with (hnow | hzulu) | hloudness
  · obtain ⟨text, _, rfl⟩ : ∃ text, now = some text ∧ Setting.value .now text = x := by
      simpa using hnow
    exact ⟨trivial, trivial⟩
  · obtain ⟨_, rfl⟩ : zulu = true ∧ x = .flag .zulu := by
      simpa using hzulu
    exact ⟨trivial, Flag.noConfusion, Flag.noConfusion⟩
  · cases loudness with
    | quiet =>
        rw [List.mem_singleton.mp hloudness]
        exact ⟨trivial, Flag.noConfusion, Flag.noConfusion⟩
    | verbose times =>
        rw [List.eq_of_mem_replicate hloudness]
        exact ⟨trivial, Flag.noConfusion, Flag.noConfusion⟩

theorem pairwise_globals (r : Request) : r.globals.Pairwise Setting.Compatible := by
  obtain ⟨now, zulu, loudness, job⟩ := r
  cases loudness with
  | quiet =>
      cases now <;> cases zulu <;>
        simp [globals, Loudness.settings, Setting.Compatible, Setting.kind]
  | verbose times =>
      cases now <;> cases zulu <;>
        simp [globals, Loudness.settings, Setting.Compatible, Setting.kind]

theorem pairwise_settings (r : Request) : r.settings.Pairwise Setting.Compatible := by
  rw [settings, List.pairwise_append]
  refine ⟨r.pairwise_globals, r.job.pairwise_settings, ?_⟩
  intro x hx y hy hkind
  have hglobal := (global_of_mem_globals hx).1
  unfold Setting.IsGlobal at hglobal
  rw [hkind] at hglobal
  exact absurd hglobal (Job.not_isGlobal_of_mem hy)

theorem wellFormed_settings_iff (r : Request) :
    (∀ x ∈ r.settings, x.WellFormed) ↔ r.job.command?.isSome := by
  rw [settings, List.forall_mem_append, Job.wellFormed_settings_iff]
  exact and_iff_right fun x hx => (global_of_mem_globals hx).2

theorem toOption_command (r : Request) (h : r.job.command?.isSome) :
    (State.command r.job.level r.given).toOption = r.job.command? := by
  obtain ⟨now, zulu, loudness, job⟩ := r
  cases job with
  | format seconds nanos style =>
      obtain ⟨command, hcommand⟩ := Option.isSome_iff_exists.mp h
      obtain ⟨n, m, s, hn, hm, hs, rfl⟩ := Job.command?_format_eq_some_iff.mp hcommand
      have hgetD : (nanos.bind int32?).getD 0 = m := by cases nanos <;> simp_all
      have hstyle : (style.bind Style.ofName?).getD .full = s := by cases style <;> simp_all
      rw [hcommand]
      simp [State.command, given, Job.given, Job.level, hn, hgetD, hstyle, Except.toOption]
  | profile path => rfl

theorem check_given (r : Request) : r.given.check = .ok () := by
  refine Given.check_eq_ok_iff.mpr ?_
  obtain ⟨now, zulu, loudness, job⟩ := r
  cases loudness <;> simp [given, Loudness.isQuiet, Loudness.times]

end Request

/-! ### Arrangements -/

/-- The groups before the name of the command, and those after it. -/
structure Arrangement where
  before : List Group
  after : List Group

namespace Arrangement

def args (arrangement : Arrangement) (job : Job) : List String :=
  arrangement.before.flatMap Group.args ++ job.name :: arrangement.after.flatMap Group.args

def outer (arrangement : Arrangement) : List Setting := arrangement.before.flatMap Group.settings

def inner (arrangement : Arrangement) : List Setting := arrangement.after.flatMap Group.settings

/-- What the settings of both sides come to. -/
def outcome (arrangement : Arrangement) (level : Level) : Except Refusal CommandLine := do
  let outer ← arrangement.outer.foldlM Setting.put {}
  let inner ← arrangement.inner.foldlM Setting.put {}
  State.conclude level outer inner

end Arrangement

/-- The groups ask for what is requested: nothing is left out, and nothing is said twice. -/
structure Arranges (arrangement : Arrangement) (r : Request) : Prop where
  before : ∀ x ∈ arrangement.before, x.AllowedAt .top
  after : ∀ x ∈ arrangement.after, x.AllowedAt r.job.level
  settings : (arrangement.outer ++ arrangement.inner).Perm r.settings
  /-- The inner level would win over the outer one, and not be added to it. -/
  verbose : .flag .verbose ∉ arrangement.outer ∨ .flag .verbose ∉ arrangement.inner

theorem Group.isGlobal_settings {x : Group} (hx : x.AllowedAt .top) :
    ∀ y ∈ x.settings, y.IsGlobal := by
  intro y hy
  cases x with
  | joined o text =>
      rw [List.mem_singleton.mp hy]
      cases o <;> trivial
  | apart o text =>
      rw [List.mem_singleton.mp hy]
      cases o <;> first | trivial | exact absurd hx.1 (by decide)
  | long f =>
      rw [List.mem_singleton.mp hy]
      trivial
  | letters flags =>
      obtain ⟨f, _, rfl⟩ := List.mem_map.mp hy
      trivial
  | file path => cases hx.1

namespace Arranges

variable {arrangement : Arrangement} {r : Request}

theorem pairwise (h : Arranges arrangement r) :
    (arrangement.outer ++ arrangement.inner).Pairwise Setting.Compatible :=
  r.pairwise_settings.perm h.settings.symm Setting.Compatible.symm

theorem wellFormed_iff (h : Arranges arrangement r) :
    (∀ x ∈ arrangement.outer ++ arrangement.inner, x.WellFormed) ↔ r.job.command?.isSome := by
  rw [← r.wellFormed_settings_iff]
  exact forall_congr' fun x => by rw [h.settings.mem_iff]

/-- What is given on both sides of the name is given in the request, in whichever order. -/
theorem overlay_eq (h : Arranges arrangement r) (hwell : ∀ x ∈ arrangement.inner, x.WellFormed) :
    Given.overlay (arrangement.outer.foldl Given.told {}) (arrangement.inner.foldl Given.told {}) =
      r.given := by
  have hcount : .flag .verbose ∈ arrangement.inner →
      (arrangement.outer.foldl Given.told {}).verbose = 0 := by
    intro hmem
    rcases h.verbose with houter | hinner
    · exact Given.verbose_foldl_told houter {}
    · exact absurd hmem hinner
  -- The inner settings are told on top of the outer ones, which leaves a reordering of them all.
  calc Given.overlay (arrangement.outer.foldl Given.told {}) (arrangement.inner.foldl Given.told {})
      = arrangement.inner.foldl Given.told
          (Given.overlay (arrangement.outer.foldl Given.told {}) {}) :=
        (Given.foldl_told_overlay hwell hcount {}).symm
    _ = (arrangement.outer ++ arrangement.inner).foldl Given.told {} := by
        rw [Given.overlay_empty, List.foldl_append]
    _ = r.settings.foldl Given.told {} := foldl_told_perm h.settings h.pairwise {}
    _ = r.given := r.foldl_told_settings

theorem onlyGlobal (h : Arranges arrangement r) :
    (arrangement.outer.foldl Given.told {}).OnlyGlobal := by
  refine Given.OnlyGlobal.foldl_told ⟨rfl, rfl, rfl, rfl⟩ ?_
  intro y hy
  obtain ⟨x, hx, hy⟩ := List.mem_flatMap.mp hy
  exact Group.isGlobal_settings (h.before x hx) y hy

theorem outcome_of_isSome (h : Arranges arrangement r) (hcommand : r.job.command?.isSome) :
    (arrangement.outcome r.job.level).toOption = r.commandLine? := by
  obtain ⟨hpairOuter, hpairInner, _⟩ := List.pairwise_append.mp h.pairwise
  obtain ⟨hwellOuter, hwellInner⟩ := List.forall_mem_append.mp (h.wellFormed_iff.mpr hcommand)
  have houter := foldlM_put_eq_ok_iff.mpr
    ⟨fun x hx => ⟨hwellOuter x hx, Given.vacant_empty x.kind⟩, hpairOuter, rfl⟩
  have hinner := foldlM_put_eq_ok_iff.mpr
    ⟨fun x hx => ⟨hwellInner x hx, Given.vacant_empty x.kind⟩, hpairInner, rfl⟩
  have hgiven := h.overlay_eq hwellInner
  rw [Arrangement.outcome, houter, hinner]
  change (State.conclude _ _ _).toOption = _
  rw [State.conclude_eq h.onlyGlobal (hgiven ▸ r.check_given), hgiven, Request.commandLine?,
    ← r.toOption_command hcommand]
  cases State.command r.job.level r.given <;> rfl

theorem outcome_of_not_isSome (h : Arranges arrangement r) (hcommand : ¬ r.job.command?.isSome) :
    (arrangement.outcome r.job.level).toOption = r.commandLine? := by
  have hnone : r.commandLine? = none := by
    rw [Request.commandLine?, Option.not_isSome_iff_eq_none.mp hcommand, Option.map_none]
  rw [hnone]
  cases houtcome : arrangement.outcome r.job.level with
  | error refusal => rfl
  | ok line =>
      -- What was put can be read, on both sides.
      obtain ⟨outer, houter, hrest⟩ := exists_of_bind_eq_ok houtcome
      obtain ⟨inner, hinner, _⟩ := exists_of_bind_eq_ok hrest
      have hwellOuter := (foldlM_put_eq_ok_iff.mp houter).1
      have hwellInner := (foldlM_put_eq_ok_iff.mp hinner).1
      refine absurd (h.wellFormed_iff.mp (List.forall_mem_append.mpr ⟨?_, ?_⟩)) hcommand
      · exact fun x hx => (hwellOuter x hx).1
      · exact fun x hx => (hwellInner x hx).1

/-- An arrangement comes to what is requested, or is refused if that cannot be read. -/
theorem toOption_read (h : Arranges arrangement r) :
    (read (arrangement.args r.job)).toOption = r.commandLine? := by
  have hread : (read (arrangement.args r.job)).toOption =
      (arrangement.outcome r.job.level).toOption :=
    CommandLine.toOption_read r.job.name?_level h.before h.after
  rw [hread]
  by_cases hcommand : r.job.command?.isSome
  · exact h.outcome_of_isSome hcommand
  · exact h.outcome_of_not_isSome hcommand

end Arranges

/-- All arrangements of a request fare alike. -/
structure Request.Unordered (r : Request) : Prop where
  agree : ∀ a b, Arranges a r → Arranges b r →
    (read (a.args r.job)).toOption = (read (b.args r.job)).toOption
  reads : ∀ a, Arranges a r → (read (a.args r.job)).toOption = r.commandLine?
  verbose : ∀ a line, Arranges a r → read (a.args r.job) = .ok line →
    line.options.verbose = min maxVerbose r.loudness.times

/-- The order of the arguments does not matter, nor how they are spelled. -/
theorem Request.unordered (r : Request) : r.Unordered where
  agree := by
    intro a b ha hb
    rw [ha.toOption_read, hb.toOption_read]
  reads := by
    intro a ha
    exact ha.toOption_read
  verbose := by
    intro a line ha hline
    have hread := ha.toOption_read
    rw [hline, commandLine?] at hread
    obtain ⟨command, _, rfl⟩ := Option.map_eq_some_iff.mp hread.symm
    exact Nat.min_comm _ _

/-- The values apart and all the rest before the name, or joined and behind it. -/
theorem Request.unordered_relative :
    read ["--now", "format", "--zulu", "-vv", "--verbose", "format", "--seconds", "-5",
        "--style=relative"] =
      .ok ⟨⟨some "format", true, false, 3⟩, .format ⟨-5, 0⟩ .relative⟩ ∧
    (read ["-vvv", "format", "--style", "relative", "--zulu", "--seconds=-5",
        "--now=format"]).toOption =
      some ⟨⟨some "format", true, false, 3⟩, .format ⟨-5, 0⟩ .relative⟩ := by
  have hread : read ["--now", "format", "--zulu", "-vv", "--verbose", "format", "--seconds", "-5",
      "--style=relative"] = .ok ⟨⟨some "format", true, false, 3⟩, .format ⟨-5, 0⟩ .relative⟩ := by
    decide +kernel
  have hagree := (unordered ⟨some "format", true, .verbose 3, .format "-5" none "relative"⟩).agree
    ⟨[.apart .now "format", .long .zulu, .letters [.verbose, .verbose], .long .verbose],
      [.apart .seconds "-5", .joined .style "relative"]⟩
    ⟨[.letters [.verbose, .verbose, .verbose]],
      [.apart .style "relative", .long .zulu, .joined .seconds "-5", .joined .now "format"]⟩
    ⟨by decide, by decide, by decide, by decide⟩ ⟨by decide, by decide, by decide, by decide⟩
  exact ⟨hread, hagree.symm.trans (congrArg Except.toOption hread)⟩

/-! ### One argument for each setting -/

def Setting.group : Setting → Group
  | value o text => .joined o text
  | flag f => .long f
  | file path => .file path

theorem flatMap_args_group (settings : List Setting) :
    (settings.map Setting.group).flatMap Group.args = settings.map Setting.arg := by
  induction settings with
  | nil => rfl
  | cons x rest ih =>
      rw [List.map_cons, List.flatMap_cons, ih]
      cases x <;> rfl

theorem flatMap_settings_group (settings : List Setting) :
    (settings.map Setting.group).flatMap Group.settings = settings := by
  induction settings with
  | nil => rfl
  | cons x rest ih =>
      rw [List.map_cons, List.flatMap_cons, ih]
      cases x <;> rfl

theorem toOption_read_settingArgs {r : Request} {outer inner : List Setting}
    (houter : ∀ x ∈ outer, x.group.AllowedAt .top)
    (hinner : ∀ x ∈ inner, x.group.AllowedAt r.job.level) (hsettings : outer ++ inner = r.settings)
    (hverbose : .flag .verbose ∉ inner) :
    (read (settingArgs outer r.job.name inner)).toOption = r.commandLine? := by
  have harranges : Arranges ⟨outer.map Setting.group, inner.map Setting.group⟩ r := by
    refine ⟨List.forall_mem_map.mpr houter, List.forall_mem_map.mpr hinner, ?_, .inr ?_⟩
    · rw [Arrangement.outer, Arrangement.inner, flatMap_settings_group, flatMap_settings_group,
        hsettings]
    · rwa [Arrangement.inner, flatMap_settings_group]
  have hread := harranges.toOption_read
  rwa [Arrangement.args, flatMap_args_group, flatMap_args_group] at hread

variable (text : String) (zulu : Bool)

theorem allowedAt_nowSettings : ∀ x ∈ nowSettings text zulu, x.group.AllowedAt .top := by
  have hnow : (Setting.value .now text).group.AllowedAt .top := rfl
  have hzulu : (Setting.flag .zulu).group.AllowedAt .top := rfl
  cases zulu <;> simp [nowSettings, hnow, hzulu]

theorem read_formatArgs (time : WireTime) (style : Style) :
    read (formatArgs text zulu time style) =
      .ok ⟨{ now := some text, zulu }, .format time style⟩ := by
  let r : Request := ⟨some text, zulu, .verbose 0, .format (toString time.seconds.toInt)
    (some (toString time.nanos.toInt)) (some style.name)⟩
  have hallowed : ∀ x ∈ formatSettings time style, x.group.AllowedAt .format := by
    rw [formatSettings, List.forall_mem_cons, List.forall_mem_cons, List.forall_mem_singleton]
    exact ⟨rfl, rfl, rfl⟩
  have hsettings : nowSettings text zulu ++ formatSettings time style = r.settings := by
    cases zulu <;> rfl
  have hcommand : r.job.command? = some (.format time style) :=
    Job.command?_format_eq_some_iff.mpr ⟨time.seconds, time.nanos, style, int64?_toString _,
      int32?_toString _, ofName?_name _, rfl⟩
  have hread := toOption_read_settingArgs (allowedAt_nowSettings text zulu) hallowed hsettings
    (by simp [formatSettings])
  rw [Request.commandLine?, hcommand] at hread
  exact eq_ok_of_toOption hread

theorem read_profileArgs {file : String} (hfile : file.toList.head? ≠ some '-') :
    read (profileArgs text zulu file) = .ok ⟨{ now := some text, zulu }, .profile file⟩ := by
  let r : Request := ⟨some text, zulu, .verbose 0, .profile file⟩
  have hallowed : ∀ x ∈ [Setting.file file], x.group.AllowedAt .profile := by
    rw [List.forall_mem_singleton]
    exact ⟨rfl, hfile⟩
  have hsettings : nowSettings text zulu ++ [Setting.file file] = r.settings := by
    cases zulu <;> rfl
  have hread := toOption_read_settingArgs (allowedAt_nowSettings text zulu) hallowed hsettings
    (by simp)
  exact eq_ok_of_toOption hread

end CommandLine

end AccountView
