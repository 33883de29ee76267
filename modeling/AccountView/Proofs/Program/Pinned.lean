import AccountView.Program
import AccountView.Proofs.Clock.Adjusted
import AccountView.Proofs.InstantText

namespace AccountView

/-! Runs at a present time that is given. Only the instant counts, not how it is spelled. -/

namespace Program

open InstantText
open CommandLine (Options Command)

variable {options : Options} {text : String}

/-- The clock of a viewpoint is a new one, pinned to an instant. -/
structure PinnedTo (t wall : Instant) (view : Viewpoint) (dials : Dials) : Prop where
  start : Dials.start ⟨wall, []⟩ (.pinnedAt t) = (view.clock, dials)
  now : view.now dials = t.shown
  millis : view.clock.millis dials = (Reading.ofInstant t).millis.toInt

theorem clockSource?_of_ofText? {t : Instant} (given : options.now = some text)
    (h : Instant.ofText? text = some t) : options.clockSource? = some (.pinnedAt t) := by
  simp [CommandLine.Options.clockSource?, given, h]

theorem clockSource?_of_unreadable (given : options.now = some text)
    (h : Instant.ofText? text = none) : options.clockSource? = none := by
  simp [CommandLine.Options.clockSource?, given, h]

theorem viewpoint?_of_ofText? {t : Instant} (given : options.now = some text)
    (h : Instant.ofText? text = some t) (wall : Instant) (system : Zone) :
    viewpoint? wall system options =
      some (⟨.pinned 0, if options.zulu then .utc else system⟩, ⟨wall, [.ofInstant t]⟩) := by
  rw [viewpoint?, clockSource?_of_ofText? given h]
  rfl

theorem viewpoint?_of_unreadable (given : options.now = some text)
    (h : Instant.ofText? text = none) (wall : Instant) (system : Zone) :
    viewpoint? wall system options = none := by
  rw [viewpoint?, clockSource?_of_unreadable given h]
  rfl

theorem runCommandLine_of_ofText? {line : CommandLine} {t : Instant}
    (given : line.options.now = some text) (h : Instant.ofText? text = some t) (wall : Instant)
    (system : Zone) (storage : Storage) : runCommandLine wall system storage line =
      execute ⟨.pinned 0, if line.options.zulu then .utc else system⟩ ⟨wall, [.ofInstant t]⟩ storage
        line.command := by
  rw [runCommandLine, viewpoint?_of_ofText? given h]

theorem runCommandLine_of_unreadable {line : CommandLine} (given : line.options.now = some text)
    (h : Instant.ofText? text = none) (wall : Instant) (system : Zone) (storage : Storage) :
    runCommandLine wall system storage line = failure badNowText := by
  rw [runCommandLine, viewpoint?_of_unreadable given h]

theorem pinnedTo (t wall : Instant) (zone : Zone) :
    PinnedTo t wall ⟨.pinned 0, zone⟩ ⟨wall, [.ofInstant t]⟩ := ⟨rfl, rfl, rfl⟩

/-- A present time pins the clock to its instant, whichever offset it is spelled with and however
many zeros end its fraction; one that denotes no instant is refused. -/
structure ReadsPresentTime (wall : Instant) (system : Zone) : Prop where
  spelled : ∀ (t : Instant) (offset : Offset),
    Spelling (t.atOffset offset) t.floorSubsecond.toNat offset (t.textAt offset).toList ∧
      Spelling (t.atOffset .utc) t.floorSubsecond.toNat .utc t.text.toList
  pinned : ∀ (t : Instant) (offset : Offset) (text : String) (options : Options),
    Spelling (t.atOffset offset) t.floorSubsecond.toNat offset text.toList →
    options.now = some text →
    ∃ view dials, viewpoint? wall system options = some (view, dials) ∧ PinnedTo t wall view dials
  alike : ∀ (t : Instant) (offset offset' : Offset) (text text' : String),
    Spelling (t.atOffset offset) t.floorSubsecond.toNat offset text.toList →
    Spelling (t.atOffset offset') t.floorSubsecond.toNat offset' text'.toList →
    ∀ (options : Options) (command : Command) (storage : Storage),
      runCommandLine wall system storage ⟨{ options with now := some text }, command⟩ =
        runCommandLine wall system storage ⟨{ options with now := some text' }, command⟩
  outside : ∀ (time : LocalTime) (nanoseconds : Nat) (offset : Offset) (text : String)
    (options : Options), Spelling time nanoseconds offset text.toList →
    Outside (denoted time nanoseconds offset) → options.now = some text →
    viewpoint? wall system options = none
  /-- The same of every form that is read, with or without annotations. -/
  outsideInAnyForm : ∀ (time : LocalTime) (nanoseconds : Nat) (offset : Offset) (text : String)
    (rest : List Char) (options : Options), Opens text.toList time nanoseconds offset rest →
    Outside (denoted time nanoseconds offset) → options.now = some text →
    viewpoint? wall system options = none

theorem readsPresentTime (wall : Instant) (system : Zone) : ReadsPresentTime wall system where
  spelled t offset := ⟨t.spelling_textAt offset, t.spelling_text⟩
  pinned := by
    intro t offset text options spelling given
    exact ⟨_, _, viewpoint?_of_ofText? given (Instant.ofText?_of_spelling spelling) wall system,
      pinnedTo t wall _⟩
  alike := by
    intro t offset offset' text text' spelling spelling' options command storage
    rw [runCommandLine_of_ofText? rfl (Instant.ofText?_of_spelling spelling),
      runCommandLine_of_ofText? rfl (Instant.ofText?_of_spelling spelling')]
  outside := by
    intro time nanoseconds offset text options spelling outside given
    exact viewpoint?_of_unreadable given (Instant.ofText?_of_opens spelling.opens outside) wall
      system
  outsideInAnyForm := by
    intro time nanoseconds offset text rest options opens outside given
    exact viewpoint?_of_unreadable given (Instant.ofText?_of_opens opens outside) wall system

/-- Half a second after the earliest instant, spelled with the offset furthest west and in UTC; and
the end of the year 9999 in UTC, after the latest instant. -/
theorem readsPresentTime_earliest :
    (∃ view dials, viewpoint? .latest .utc { now := "-009999-01-01T00:00:00.5-25:59:59" } =
      some (view, dials) ∧ view.now dials = ⟨-377705023200500000000, by decide, by decide⟩) ∧
    (∀ command storage, runCommandLine .latest .utc storage
        ⟨{ now := "-009999-01-01T00:00:00.5-25:59:59" }, command⟩ =
      runCommandLine .latest .utc storage ⟨{ now := "-009999-01-02T01:59:59.5Z" }, command⟩) ∧
    viewpoint? .latest .utc { now := "9999-12-31T23:59:59Z" } = none := by
  have reads := readsPresentTime .latest .utc
  let t : Instant := ⟨-377705023200500000000, by decide, by decide⟩
  let offset : Offset := ⟨-93599, by decide, by decide⟩
  have hwest : t.textAt offset = "-009999-01-01T00:00:00.5-25:59:59" := by decide
  have hutc : t.text = "-009999-01-02T01:59:59.5Z" := by decide
  obtain ⟨west, utc⟩ := reads.spelled t offset
  rw [hwest] at west
  rw [hutc] at utc
  refine ⟨?_, ?_, ?_⟩
  · obtain ⟨view, dials, hview, hpinned⟩ := reads.pinned t offset _ { now := _ } west rfl
    exact ⟨view, dials, hview, by rw [hpinned.now]; decide⟩
  · intro command storage
    exact reads.alike t offset .utc _ _ west utc {} command storage
  · have opens : Opens "9999-12-31T23:59:59Z".toList ⟨⟨9999, 12, 31⟩, 23, 59, 59⟩ 0 .utc [] :=
      ⟨rfl, rfl, rfl, rfl⟩
    exact reads.outsideInAnyForm _ _ _ _ _ { now := _ } opens (.inr (by decide)) rfl

end Program

end AccountView
