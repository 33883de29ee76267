import AccountView.Proofs.CommandLine.Arrangements
import AccountView.Proofs.Program.Pinned

namespace AccountView

/-! What a run prints and how it ends. An accepted command line prints what its viewpoint shows of a
stamp or of an account, or it fails and prints nothing; how much is logged makes no difference. -/

structure Outcome.Prints (outcome : Outcome) (text : String) : Prop where
  exitCode : outcome.exitCode = 0
  stdout : outcome.stdout = text

structure Outcome.FailsSilently (outcome : Outcome) : Prop where
  exitCode : outcome.exitCode = 255
  stdout : outcome.stdout = ""

namespace Program

open CommandLine (Options Command)

variable {wall : Instant} {system : Zone} {storage : Storage} {args : List String}

/-- The arguments are accepted and ask for a command at the present time of a text. -/
def Asks (args : List String) (text : String) (zulu : Bool) (command : Command) : Prop :=
  ∃ quiet verbose, CommandLine.read args = .ok ⟨⟨some text, zulu, quiet, verbose⟩, command⟩

/-- What is printed and the exit code are those of the command line; only the log is cut. -/
theorem run_of_read {line : CommandLine} (h : CommandLine.read args = .ok line) (wall : Instant)
    (system : Zone) (storage : Storage) : run wall system storage args =
      { runCommandLine wall system storage line with
        log := Log.upTo line.options.threshold (runCommandLine wall system storage line).log } := by
  rw [run, h]

theorem prints_run {line : CommandLine} {text : String}
    (h : (runCommandLine wall system storage line).Prints text)
    (hread : CommandLine.read args = .ok line) : (run wall system storage args).Prints text := by
  rw [run_of_read hread]
  exact ⟨h.exitCode, h.stdout⟩

theorem failsSilently_run {line : CommandLine}
    (h : (runCommandLine wall system storage line).FailsSilently)
    (hread : CommandLine.read args = .ok line) : (run wall system storage args).FailsSilently := by
  rw [run_of_read hread]
  exact ⟨h.exitCode, h.stdout⟩

theorem failsSilently_failure (message : String) : (failure message).FailsSilently := ⟨rfl, rfl⟩

theorem execute_format (view : Viewpoint) (dials : Dials) (storage : Storage) (time : WireTime)
    (style : Style) : (execute view dials storage (.format time style)).Prints
      (view.render dials time style ++ "\n") := ⟨rfl, rfl⟩

theorem execute_profile {file : String} {account : Account}
    (h : Account.load storage file = .ok account) (view : Viewpoint) (dials : Dials) :
    (execute view dials storage (.profile file)).Prints (view.profile dials account).text := by
  rw [execute, h]
  exact ⟨rfl, rfl⟩

theorem execute_profile_of_error {file : String} {e : LoadFailure}
    (h : Account.load storage file = .error e) (view : Viewpoint) (dials : Dials) :
    (execute view dials storage (.profile file)).FailsSilently := by
  rw [execute, h]
  exact failsSilently_failure e.message

/-- Neither quiet nor verbose counts for a command. -/
theorem runCommandLine_congr {options options' : Options} (hnow : options.now = options'.now)
    (hzulu : options.zulu = options'.zulu) (command : Command) (wall : Instant) (system : Zone)
    (storage : Storage) : runCommandLine wall system storage ⟨options, command⟩ =
      runCommandLine wall system storage ⟨options', command⟩ := by
  have hview : viewpoint? wall system options = viewpoint? wall system options' := by
    rw [viewpoint?, viewpoint?, Options.clockSource?, Options.clockSource?, hnow, hzulu]
  rw [runCommandLine, runCommandLine, hview]

/-- Each accepted command line, by what it asks for. -/
structure PrintsWhatIsShown (wall : Instant) (system : Zone) (storage : Storage) : Prop where
  formatArgs : ∀ text zulu time style,
    Asks (CommandLine.formatArgs text zulu time style) text zulu (.format time style)
  profileArgs : ∀ text zulu (file : String), file.toList.head? ≠ some '-' →
    Asks (CommandLine.profileArgs text zulu file) text zulu (.profile file)
  readable : ∀ text zulu t, Instant.ofText? text = some t →
    ∃ view dials, viewpoint? wall system { now := text, zulu } = some (view, dials) ∧
      view.now dials = t.shown ∧ view.zone = (if zulu then .utc else system) ∧
      (∀ args time style, Asks args text zulu (.format time style) →
        (run wall system storage args).Prints (view.render dials time style ++ "\n")) ∧
      (∀ args file account, Account.load storage file = .ok account →
        Asks args text zulu (.profile file) →
        (run wall system storage args).Prints (view.profile dials account).text)
  unreadable : ∀ text zulu command args, Instant.ofText? text = none →
    Asks args text zulu command → (run wall system storage args).FailsSilently ∧
      ∀ storage', run wall system storage' args = run wall system storage args
  unloadable : ∀ file e options args, Account.load storage file = .error e →
    CommandLine.read args = .ok ⟨options, .profile file⟩ →
    (run wall system storage args).FailsSilently
  /-- Only what is logged depends on quiet and verbose. -/
  anyThreshold : ∀ options options' command args args',
    CommandLine.read args = .ok ⟨options, command⟩ →
    CommandLine.read args' = .ok ⟨options', command⟩ → options.now = options'.now →
    options.zulu = options'.zulu →
    (run wall system storage args).exitCode = (run wall system storage args').exitCode ∧
      (run wall system storage args).stdout = (run wall system storage args').stdout

theorem printsWhatIsShown (wall : Instant) (system : Zone) (storage : Storage) :
    PrintsWhatIsShown wall system storage where
  formatArgs text zulu time style := ⟨false, 0, CommandLine.read_formatArgs text zulu time style⟩
  profileArgs text zulu file hfile := ⟨false, 0, CommandLine.read_profileArgs text zulu hfile⟩
  readable := by
    intro text zulu t ht
    refine ⟨_, _, viewpoint?_of_ofText? rfl ht wall system, rfl, rfl, ?_, ?_⟩
    · rintro args time style ⟨quiet, verbose, hread⟩
      refine prints_run ?_ hread
      rw [runCommandLine_of_ofText? rfl ht]
      exact execute_format ..
    · rintro args file account hload ⟨quiet, verbose, hread⟩
      refine prints_run ?_ hread
      rw [runCommandLine_of_ofText? rfl ht]
      exact execute_profile hload ..
  unreadable := by
    rintro text zulu command args hnone ⟨quiet, verbose, hread⟩
    have hfails : ∀ storage, runCommandLine wall system storage
        ⟨⟨some text, zulu, quiet, verbose⟩, command⟩ = failure badNowText :=
      runCommandLine_of_unreadable rfl hnone wall system
    refine ⟨failsSilently_run ?_ hread, ?_⟩
    · rw [hfails]
      exact failsSilently_failure _
    · intro storage'
      rw [run_of_read hread, run_of_read hread, hfails, hfails]
  unloadable := by
    intro file e options args hload hread
    refine failsSilently_run ?_ hread
    rw [runCommandLine]
    split
    · exact execute_profile_of_error hload ..
    · exact failsSilently_failure _
  anyThreshold := by
    intro options options' command args args' hread hread' hnow hzulu
    rw [run_of_read hread, run_of_read hread', runCommandLine_congr hnow hzulu]
    exact ⟨rfl, rfl⟩

/-- A stamp a day and an hour before the start of 1970, seen then; and a present time that is none.
-/
theorem printsWhatIsShown_relative :
    (∀ storage, (run .latest .utc storage ["--now=1970-01-01T00:00:00Z", "--zulu", "format",
      "--seconds=-90000", "--nanos=0", "--style=relative"]).Prints "1天前\n") ∧
    (∀ storage, (run .latest .utc storage ["--now=soon", "profile", "a.json"]).FailsSilently) := by
  have hnow : Instant.ofText? "1970-01-01T00:00:00Z" = some ⟨0, by decide, by decide⟩ := by decide
  have hsoon : Instant.ofText? "soon" = none := by decide
  constructor
  · intro storage
    have shown := printsWhatIsShown .latest .utc storage
    obtain ⟨view, dials, _, hview, hzone, hformat, _⟩ := shown.readable _ true _ hnow
    have hrender : view.render dials ⟨-90000, 0⟩ .relative = "1天前" := by
      rw [Viewpoint.render, hview, hzone]
      decide
    have hprints := hformat _ _ _ (shown.formatArgs _ true ⟨-90000, 0⟩ .relative)
    rw [hrender] at hprints
    exact hprints
  · intro storage
    have shown := printsWhatIsShown .latest .utc storage
    exact (shown.unreadable _ false _ _ hsoon (shown.profileArgs _ _ "a.json" (by decide))).1

end Program

end AccountView
