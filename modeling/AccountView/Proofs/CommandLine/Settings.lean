import AccountView.Proofs.CommandLine
import AccountView.Proofs.Outcome
import Mathlib.Data.List.Pairwise
import Mathlib.Data.List.Perm.Basic

namespace AccountView

/-! What putting settings comes to. A setting is taken or refused; those that are taken together can
be taken in any order, and at two levels as well as at one. -/

namespace CommandLine

/-! ### One setting -/

namespace Setting

def put (given : Given) : Setting → Except Refusal Given
  | value o text => given.putValue text o
  | flag f => given.putFlag f
  | file path =>
    if given.file.isSome then .error .unknownArgument else .ok { given with file := some path }

def kind : Setting → Option OptionKind
  | value o _ => some (.valued o)
  | flag f => some (.flag f)
  | file _ => none

def WellFormed : Setting → Prop
  | value .now _ => True
  | value .seconds text => (int64? text).isSome
  | value .nanos text => (int32? text).isSome
  | value .style text => (Style.ofName? text).isSome
  | flag f => f ≠ .help ∧ f ≠ .version
  | file _ => True

def IsGlobal (x : Setting) : Prop :=
  match x.kind with
  | some (.valued .now) | some (.flag _) => True
  | _ => False

def Compatible (x y : Setting) : Prop :=
  x.kind = y.kind → x.kind = some (.flag .verbose)

theorem Compatible.symm {x y : Setting} (h : x.Compatible y) : y.Compatible x :=
  fun hkind => hkind.trans (h hkind.symm)

instance : Std.Symm Compatible := ⟨fun _ _ => Compatible.symm⟩

end Setting

namespace Given

/-- A setting of this option has not been given, or may be given again. -/
def Vacant (given : Given) : Option OptionKind → Prop
  | some (.valued .now) => given.now = none
  | some (.valued .seconds) => given.seconds = none
  | some (.valued .nanos) => given.nanos = none
  | some (.valued .style) => given.style = none
  | some (.flag .zulu) => given.zulu = false
  | some (.flag .quiet) => given.quiet = false
  | some (.flag _) => True
  | none => given.file = none

def told (given : Given) : Setting → Given
  | .value .now text => { given with now := some text }
  | .value .seconds text => { given with seconds := int64? text }
  | .value .nanos text => { given with nanos := int32? text }
  | .value .style text => { given with style := Style.ofName? text }
  | .flag .zulu => { given with zulu := true }
  | .flag .quiet => { given with quiet := true }
  | .flag .verbose => { given with verbose := min (given.verbose + 1) maxVerbose }
  | .flag _ => given
  | .file path => { given with file := some path }

theorem once_eq_ok_iff {α : Type} {old new : Option α} {bad : Refusal} {place : Option α → Given}
    {given : Given} : (do let value ← once old bad new; pure (place value)) = Except.ok given ↔
      new.isSome ∧ old = none ∧ given = place new := by
  cases old with
  | some value => simp [once, bind, Except.bind]
  | none =>
      cases new with
      | none => simp [once, bind, Except.bind]
      | some value => simp [once, bind, Except.bind, pure, Except.pure, eq_comm]

theorem first_eq_ok_iff {taken : Bool} {bad : Refusal} {given given' : Given} :
    (if taken = true then Except.error bad else .ok given') = .ok given ↔
      taken = false ∧ given = given' := by
  cases taken <;> simp [eq_comm]

end Given

/-- All that putting a setting can do. -/
theorem Setting.put_eq_ok_iff {given given' : Given} {x : Setting} :
    x.put given = .ok given' ↔ x.WellFormed ∧ given.Vacant x.kind ∧ given' = given.told x := by
  cases x with
  | value o text =>
      cases o with
      | now =>
          exact Given.once_eq_ok_iff.trans (by simp [WellFormed, kind, Given.Vacant, Given.told])
      | seconds | nanos | style => exact Given.once_eq_ok_iff
  | flag f =>
      cases f with
      | zulu | quiet =>
          exact Given.first_eq_ok_iff.trans (by simp [WellFormed, kind, Given.Vacant, Given.told])
      | verbose =>
          have hput : (flag .verbose).put given = .ok (given.told (flag .verbose)) := rfl
          rw [hput, Except.ok.injEq, eq_comm]
          simp [WellFormed, kind, Given.Vacant]
      | help | version => simp [put, Given.putFlag, WellFormed]
  | file path =>
      exact Given.first_eq_ok_iff.trans (by simp [WellFormed, kind, Given.Vacant, Given.told])

namespace Given

theorem vacant_told {given : Given} {x : Setting} (h : x.WellFormed) (kind : Option OptionKind) :
    (given.told x).Vacant kind ↔
      given.Vacant kind ∧ (x.kind = kind → x.kind = some (.flag .verbose)) := by
  cases x with
  | value o text =>
      cases o <;> rcases kind with _ | (_ | _ | _ | _ | _) | (_ | _ | _ | _) <;>
        simp_all [told, Vacant, Setting.kind, Setting.WellFormed, Option.isSome_iff_ne_none]
  | flag f =>
      cases f <;> rcases kind with _ | (_ | _ | _ | _ | _) | (_ | _ | _ | _) <;>
        simp_all [told, Vacant, Setting.kind, Setting.WellFormed]
  | file path =>
      rcases kind with _ | (_ | _ | _ | _ | _) | (_ | _ | _ | _) <;>
        simp [told, Vacant, Setting.kind]

theorem vacant_empty (kind : Option OptionKind) : Vacant {} kind := by
  rcases kind with _ | (_ | _ | _ | _ | _) | (_ | _ | _ | _) <;> simp [Vacant]

end Given

theorem foldlM_put_eq_ok_iff {settings : List Setting} {given given' : Given} :
    settings.foldlM Setting.put given = .ok given' ↔
      (∀ x ∈ settings, x.WellFormed ∧ given.Vacant x.kind) ∧ settings.Pairwise Setting.Compatible ∧
        given' = settings.foldl Given.told given := by
  induction settings generalizing given with
  | nil =>
      simp [pure, Except.pure, eq_comm]
  | cons x rest ih =>
      rw [List.foldlM_cons, bind_eq_ok_iff, List.forall_mem_cons, List.pairwise_cons,
        List.foldl_cons]
      constructor
      · rintro ⟨next, hput, hrest⟩
        obtain ⟨hwell, hvacant, rfl⟩ := Setting.put_eq_ok_iff.mp hput
        obtain ⟨hall, hpairwise, rfl⟩ := ih.mp hrest
        have hlater : ∀ y ∈ rest, given.Vacant y.kind ∧ x.Compatible y :=
          fun y hy => (Given.vacant_told hwell y.kind).mp (hall y hy).2
        -- What is vacant after `x` was vacant before it and does not clash with it.
        exact ⟨⟨⟨hwell, hvacant⟩, fun y hy => ⟨(hall y hy).1, (hlater y hy).1⟩⟩,
          ⟨fun y hy => (hlater y hy).2, hpairwise⟩, rfl⟩
      · rintro ⟨⟨⟨hwell, hvacant⟩, hrest⟩, ⟨hcompatible, hpairwise⟩, rfl⟩
        refine ⟨given.told x, Setting.put_eq_ok_iff.mpr ⟨hwell, hvacant, rfl⟩, ?_⟩
        refine ih.mpr ⟨?_, hpairwise, rfl⟩
        intro y hy
        obtain ⟨hwellLater, hvacantLater⟩ := hrest y hy
        exact ⟨hwellLater, (Given.vacant_told hwell y.kind).mpr ⟨hvacantLater, hcompatible y hy⟩⟩

theorem told_comm {given : Given} {x y : Setting} (h : x.Compatible y) :
    (given.told x).told y = (given.told y).told x := by
  -- Settings of different options touch different fields; `verbose` counts.
  cases x with
  | value o text =>
      cases y with
      | value o' text' => cases o <;> cases o' <;> first | rfl | cases h rfl
      | flag f => cases o <;> cases f <;> rfl
      | file path => cases o <;> rfl
  | flag f =>
      cases y with
      | value o text => cases f <;> cases o <;> rfl
      | flag f' => cases f <;> cases f' <;> rfl
      | file path => cases f <;> rfl
  | file path =>
      cases y with
      | value o text => cases o <;> rfl
      | flag f => cases f <;> rfl
      | file path' => cases h rfl

theorem foldl_told_perm {settings other : List Setting} (hperm : settings.Perm other)
    (h : settings.Pairwise Setting.Compatible) (given : Given) :
    settings.foldl Given.told given = other.foldl Given.told given := by
  refine hperm.foldl_eq' ?_ given
  intro x hx y hy given
  by_cases hxy : x = y
  · rw [hxy]
  · exact told_comm (h.forall hx hy hxy)

namespace Given

/-- What is given at two levels together; what the inner one says of an option stands. -/
def overlay (outer inner : Given) : Given where
  now := inner.now.or outer.now
  zulu := inner.zulu || outer.zulu
  quiet := inner.quiet || outer.quiet
  verbose := if inner.verbose = 0 then outer.verbose else inner.verbose
  seconds := inner.seconds.or outer.seconds
  nanos := inner.nanos.or outer.nanos
  style := inner.style.or outer.style
  file := inner.file.or outer.file

def options (given : Given) : Options := ⟨given.now, given.zulu, given.quiet, given.verbose⟩

theorem overlay_empty (outer : Given) : overlay outer {} = outer := by simp [overlay]

theorem told_overlay {outer inner : Given} {x : Setting} (h : x.WellFormed)
    (hverbose : x = .flag .verbose → outer.verbose = 0) :
    (overlay outer inner).told x = overlay outer (inner.told x) := by
  cases x with
  | value o text =>
      cases o with
      | now => rfl
      | seconds =>
          obtain ⟨n, hn⟩ := Option.isSome_iff_exists.mp h
          simp only [told, overlay, hn, Option.some_or]
      | nanos =>
          obtain ⟨n, hn⟩ := Option.isSome_iff_exists.mp h
          simp only [told, overlay, hn, Option.some_or]
      | style =>
          obtain ⟨style, hstyle⟩ := Option.isSome_iff_exists.mp h
          simp only [told, overlay, hstyle, Option.some_or]
  | flag f =>
      cases f with
      | zulu => rfl
      | quiet => rfl
      | verbose =>
          have hcount : (overlay outer inner).verbose = inner.verbose := by
            simp only [overlay, hverbose rfl]
            split <;> omega
          have hne : (inner.told (.flag .verbose)).verbose ≠ 0 := by
            simp only [told, maxVerbose]
            omega
          have hinner : (overlay outer (inner.told (.flag .verbose))).verbose =
              (inner.told (.flag .verbose)).verbose := if_neg hne
          refine Given.ext rfl rfl rfl ?_ rfl rfl rfl rfl
          rw [hinner]
          simp only [told, hcount]
      | help => rfl
      | version => rfl
  | file path => rfl

theorem foldl_told_overlay {outer : Given} {settings : List Setting}
    (hwell : ∀ x ∈ settings, x.WellFormed)
    (hverbose : .flag .verbose ∈ settings → outer.verbose = 0) (inner : Given) :
    settings.foldl told (overlay outer inner) = overlay outer (settings.foldl told inner) := by
  induction settings generalizing inner with
  | nil => rfl
  | cons x rest ih =>
      rw [List.forall_mem_cons] at hwell
      have hx : x = .flag .verbose → outer.verbose = 0 :=
        fun heq => hverbose (heq ▸ List.mem_cons_self)
      rw [List.foldl_cons, List.foldl_cons, told_overlay hwell.1 hx]
      exact ih hwell.2 (fun hmem => hverbose (List.mem_cons_of_mem x hmem)) _

theorem verbose_told {x : Setting} (h : x ≠ .flag .verbose) (given : Given) :
    (given.told x).verbose = given.verbose := by
  cases x with
  | value o text => cases o <;> rfl
  | flag f => cases f <;> first | rfl | exact absurd rfl h
  | file path => rfl

theorem verbose_foldl_told {settings : List Setting} (h : .flag .verbose ∉ settings)
    (given : Given) : (settings.foldl told given).verbose = given.verbose := by
  induction settings generalizing given with
  | nil => rfl
  | cons x rest ih =>
      rw [List.mem_cons, not_or] at h
      rw [List.foldl_cons, ih h.2, verbose_told (Ne.symm h.1)]

/-- Nothing is given that one command alone may be given. -/
structure OnlyGlobal (given : Given) : Prop where
  seconds : given.seconds = none
  nanos : given.nanos = none
  style : given.style = none
  file : given.file = none

theorem OnlyGlobal.told {given : Given} (h : given.OnlyGlobal) {x : Setting} (hx : x.IsGlobal) :
    (given.told x).OnlyGlobal := by
  obtain ⟨hseconds, hnanos, hstyle, hfile⟩ := h
  cases x with
  | value o text =>
      cases o with
      | now => exact ⟨hseconds, hnanos, hstyle, hfile⟩
      | seconds | nanos | style => exact hx.elim
  | flag f => cases f <;> exact ⟨hseconds, hnanos, hstyle, hfile⟩
  | file path => exact hx.elim

theorem OnlyGlobal.foldl_told {given : Given} (h : given.OnlyGlobal) {settings : List Setting}
    (hsettings : ∀ x ∈ settings, x.IsGlobal) : (settings.foldl Given.told given).OnlyGlobal := by
  induction settings generalizing given with
  | nil => exact h
  | cons x rest ih =>
      rw [List.forall_mem_cons] at hsettings
      exact ih (h.told hsettings.1) hsettings.2

theorem check_eq_ok_iff {given : Given} :
    given.check = .ok () ↔ ¬ (given.quiet ∧ 0 < given.verbose) := by
  unfold check
  split <;> simp_all

end Given

namespace State

open Given

/-- What a command line comes to whose two levels have been read. -/
def conclude (level : Level) (outer inner : Given) : Except Refusal CommandLine := do
  inner.check
  let command ← command level inner
  outer.check
  pure ⟨merge outer inner, command⟩

theorem command_overlay {outer : Given} (h : outer.OnlyGlobal) (level : Level) (inner : Given) :
    command level (overlay outer inner) = command level inner := by
  simp only [command, overlay, h.seconds, h.nanos, h.style, h.file, Option.or_none]

/-- Two levels that together pass the check come to what one level comes to. -/
theorem conclude_eq {outer inner : Given} (hglobal : outer.OnlyGlobal)
    (hcheck : (overlay outer inner).check = .ok ()) (level : Level) :
    conclude level outer inner = (command level (overlay outer inner)).map fun command =>
      ⟨(overlay outer inner).options, command⟩ := by
  have hboth := check_eq_ok_iff.mp hcheck
  have hinner : inner.check = .ok () := by
    refine check_eq_ok_iff.mpr fun h => hboth ?_
    have hne : inner.verbose ≠ 0 := by omega
    simp [overlay, h.1, hne, Nat.pos_of_ne_zero hne]
  have houter : outer.check = .ok () := by
    refine check_eq_ok_iff.mpr fun h => hboth ?_
    simp only [overlay, h.1, Bool.or_true, true_and]
    split <;> omega
  rw [conclude, hinner, houter, command_overlay hglobal]
  cases command level inner <;> rfl

end State

end CommandLine

end AccountView
