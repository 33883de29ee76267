import AccountView.Proofs.Document.Records

namespace AccountView

/-! Members of an object as changes of the progress of a reading. Changes of different fields
commute, and two of one field never both go through. -/

namespace Document

variable {σ : Type}

/-! ### Changes -/

/-- A record that is being read, with its fields as a set. -/
@[ext] structure Progress (σ : Type) where
  record : σ
  seen : String → Bool

def Schema.Partial.progress (state : Schema.Partial σ) : Progress σ :=
  ⟨state.record, state.seen.contains⟩

inductive Change (σ : Type) where
  | refuse
  | ignore
  | update (name : String) (change : σ → σ)

namespace Change

def apply : Change σ → Progress σ → Option (Progress σ)
  | refuse, _ => none
  | ignore, p => some p
  | update name change, p =>
      if p.seen name then none
      else some ⟨change p.record, fun other => other == name || p.seen other⟩

@[simp] theorem bind_apply_refuse (start : Option (Progress σ)) :
    start.bind refuse.apply = none := by
  cases start <;> rfl

@[simp] theorem bind_apply_ignore (start : Option (Progress σ)) :
    start.bind ignore.apply = start := by
  cases start <;> rfl

def applyAll (changes : List (Change σ)) (start : Option (Progress σ)) : Option (Progress σ) :=
  changes.foldl (fun progress change => progress.bind change.apply) start

@[simp] theorem applyAll_nil (start : Option (Progress σ)) : applyAll [] start = start := rfl

@[simp] theorem applyAll_cons (change : Change σ) (changes : List (Change σ))
    (start : Option (Progress σ)) :
    applyAll (change :: changes) start = applyAll changes (start.bind change.apply) := rfl

@[simp] theorem applyAll_append (changes others : List (Change σ)) (start : Option (Progress σ)) :
    applyAll (changes ++ others) start = applyAll others (applyAll changes start) :=
  List.foldl_append

@[simp] theorem applyAll_none (changes : List (Change σ)) : applyAll changes none = none := by
  induction changes with
  | nil => rfl
  | cons change changes ih => exact ih

theorem applyAll_ignore {changes : List (Change σ)} (h : ∀ change ∈ changes, change = ignore)
    (start : Option (Progress σ)) : applyAll changes start = start := by
  induction changes generalizing start with
  | nil => rfl
  | cons change changes ih =>
      rw [applyAll_cons, h change (by simp), bind_apply_ignore,
        ih fun other hother => h other (by simp [hother])]

/-- Updates of different fields can change places. -/
def Independent (c d : Change σ) : Prop :=
  ∀ name change name' change', c = update name change → d = update name' change' →
    name ≠ name' → ∀ record, change (change' record) = change' (change record)

theorem bind_apply_same (name : String) (change change' : σ → σ) (p : Progress σ) :
    ((update name change).apply p).bind (update name change').apply = none := by
  by_cases hseen : p.seen name = true
  · simp [apply, hseen]
  · simp [apply, hseen]

theorem apply_comm {c d : Change σ} (h : c.Independent d) (p : Progress σ) :
    (c.apply p).bind d.apply = (d.apply p).bind c.apply := by
  cases c with
  | refuse => exact (bind_apply_refuse (d.apply p)).symm
  | ignore => exact (bind_apply_ignore (d.apply p)).symm
  | update name change =>
      cases d with
      | refuse => exact bind_apply_refuse _
      | ignore => exact bind_apply_ignore _
      | update name' change' =>
          by_cases hname : name = name'
          · subst hname
            rw [bind_apply_same, bind_apply_same]
          · have hcomm := h name change name' change' rfl rfl hname p.record
            have hname' : ¬ name' = name := fun heq => hname heq.symm
            have horder (other : String) : (other == name' || (other == name || p.seen other)) =
                (other == name || (other == name' || p.seen other)) := by
              cases other == name <;> cases other == name' <;> rfl
            cases hseen : p.seen name <;> cases hseen' : p.seen name' <;>
              simp [apply, hseen, hseen', hname, hname', hcomm, horder]

theorem applyAll_perm {changes others : List (Change σ)} (h : changes.Perm others)
    (independent : ∀ c ∈ changes, ∀ d ∈ changes, c.Independent d) (start : Option (Progress σ)) :
    applyAll changes start = applyAll others start := by
  apply h.foldl_eq'
  intro c hc d hd progress
  cases progress with
  | none => rfl
  | some p => exact apply_comm (independent c hc d hd) p

/-- A change that goes through at most once. -/
def Concerns (name : String) (c : Change σ) : Prop :=
  c = refuse ∨ ∃ change, c = update name change

theorem Concerns.bind_apply {name : String} {c : Change σ} (h : c.Concerns name)
    {start : Option (Progress σ)} (hstart : ∀ p ∈ start, p.seen name = true) :
    start.bind c.apply = none := by
  cases start with
  | none => rfl
  | some p =>
      have hseen := hstart p rfl
      rcases h with rfl | ⟨change, rfl⟩
      · rfl
      · simp [apply, hseen]

theorem Concerns.seen {name : String} {c : Change σ} (h : c.Concerns name)
    (start : Option (Progress σ)) : ∀ p ∈ start.bind c.apply, p.seen name = true := by
  intro p hp
  obtain ⟨p', hp', happly⟩ := Option.bind_eq_some_iff.mp hp
  rcases h with rfl | ⟨change, rfl⟩
  · cases happly
  · simp only [apply] at happly
    split at happly
    · cases happly
    · cases happly
      simp

theorem seen_apply {name : String} (c : Change σ) {start : Option (Progress σ)}
    (hstart : ∀ p ∈ start, p.seen name = true) : ∀ p ∈ start.bind c.apply, p.seen name = true := by
  intro p hp
  obtain ⟨p', hp', happly⟩ := Option.bind_eq_some_iff.mp hp
  have hseen := hstart p' hp'
  cases c with
  | refuse => cases happly
  | ignore =>
      cases happly
      exact hseen
  | update other change =>
      simp only [apply] at happly
      split at happly
      · cases happly
      · cases happly
        simp [hseen]

theorem applyAll_seen {name : String} {changes : List (Change σ)} {d : Change σ}
    (hmem : d ∈ changes) (hd : d.Concerns name) {start : Option (Progress σ)}
    (hstart : ∀ p ∈ start, p.seen name = true) : applyAll changes start = none := by
  induction changes generalizing start with
  | nil => cases hmem
  | cons c changes ih =>
      rcases List.mem_cons.mp hmem with rfl | hmem
      · rw [applyAll_cons, hd.bind_apply hstart, applyAll_none]
      · exact ih hmem (seen_apply c hstart)

/-- Two changes of one field refuse the whole, wherever they stand. -/
theorem applyAll_twice {name : String} {changes : List (Change σ)} {c d : Change σ}
    (h : [c, d].Sublist changes) (hc : c.Concerns name) (hd : d.Concerns name)
    (start : Option (Progress σ)) : applyAll changes start = none := by
  induction changes generalizing start with
  | nil => cases h
  | cons head changes ih =>
      cases h with
      | cons _ htail => exact ih htail (start.bind head.apply)
      | cons_cons _ htail =>
          exact applyAll_seen (List.singleton_sublist.mp htail) hd (hc.seen start)

end Change

/-! ### Members as changes -/

namespace Schema

def change (schema : Schema σ) (e : Entry) : Change σ :=
  match e.key.decoded with
  | .error _ => .refuse
  | .ok key =>
      match schema.find? (String.ofList key) with
      | none => .ignore
      | some field =>
          match field.update.value e.value with
          | .error _ => .refuse
          | .ok update => .update field.name update

/-- All that a member can do to a record that is being read. -/
theorem take_change (schema : Schema σ) (state : Partial σ) (e : Entry) :
    match schema.change e with
    | .refuse => ∃ fault, schema.take state e = .error fault
    | .ignore => schema.take state e = .ok state
    | .update name update => schema.take state e =
        if name ∈ state.seen then .error (.duplicateField name)
        else .ok ⟨update state.record, name :: state.seen⟩ := by
  simp only [take, change, bind, Except.bind, throw, throwThe, MonadExceptOf.throw, pure,
    Except.pure]
  cases e.key.decoded with
  | error fault => exact ⟨fault, rfl⟩
  | ok key =>
      dsimp only
      cases schema.find? (String.ofList key) with
      | none => rfl
      | some field =>
          dsimp only
          cases field.update.value e.value with
          | error fault =>
              by_cases hseen : field.name ∈ state.seen
              · exact ⟨.duplicateField field.name, if_pos hseen⟩
              · exact ⟨fault, if_neg hseen⟩
          | ok update => rfl

section Take

variable {schema : Schema σ} {e : Entry}

theorem take_of_refuse (h : schema.change e = .refuse) (state : Partial σ) :
    ∃ fault, schema.take state e = .error fault := by
  have htake := schema.take_change state e
  rwa [h] at htake

theorem take_of_ignore (h : schema.change e = .ignore) (state : Partial σ) :
    schema.take state e = .ok state := by
  have htake := schema.take_change state e
  rwa [h] at htake

theorem take_of_update {name : String} {update : σ → σ}
    (h : schema.change e = .update name update) (state : Partial σ) : schema.take state e =
      if name ∈ state.seen then .error (.duplicateField name)
      else .ok ⟨update state.record, name :: state.seen⟩ := by
  have htake := schema.take_change state e
  rwa [h] at htake

end Take

theorem toOption_take (schema : Schema σ) (state : Partial σ) (e : Entry) :
    (schema.take state e).toOption.map Partial.progress =
      (schema.change e).apply state.progress := by
  cases hchange : schema.change e with
  | refuse =>
      obtain ⟨fault, hfault⟩ := take_of_refuse hchange state
      rw [hfault]
      rfl
  | ignore =>
      rw [take_of_ignore hchange]
      rfl
  | update name update =>
      rw [take_of_update hchange]
      by_cases hseen : name ∈ state.seen
      · simp [hseen, Change.apply, Except.toOption, Partial.progress]
      · have hnew : state.progress.seen name = false := by simpa [Partial.progress] using hseen
        have hinsert (other : String) : (name :: state.seen).contains other =
            (other == name || state.seen.contains other) := List.contains_cons
        simp only [hseen, if_false, Change.apply, hnew, Bool.false_eq_true]
        exact congrArg some (Progress.ext rfl (funext hinsert))

theorem toOption_foldlM_take (schema : Schema σ) (entries : List Entry) (state : Partial σ) :
    (entries.foldlM schema.take state).toOption.map Partial.progress =
      Change.applyAll (entries.map schema.change) (some state.progress) := by
  induction entries generalizing state with
  | nil => rfl
  | cons e entries ih =>
      have htake := schema.toOption_take state e
      simp only [List.foldlM_cons, bind, Except.bind, List.map_cons, Change.applyAll_cons,
        Option.bind_some]
      cases hstate : schema.take state e with
      | error fault =>
          rw [hstate] at htake
          rw [← htake]
          exact (Change.applyAll_none _).symm
      | ok state' =>
          rw [hstate] at htake
          rw [← htake]
          exact ih state'

/-- The record that changes of a blank one amount to, if all go through and no required field is
left out. -/
def outcome (schema : Schema σ) (blank : σ) (changes : List (Change σ)) : Option σ :=
  (Change.applyAll changes (some ⟨blank, fun _ => false⟩)).bind fun p =>
    if (schema.fields.find? fun field => field.isRequired && !p.seen field.name).isNone then
      some p.record
    else
      none

theorem toOption_ofEntries (schema : Schema σ) (blank : σ) (entries : List Entry) :
    (schema.ofEntries blank entries).toOption =
      schema.outcome blank (entries.map schema.change) := by
  have hfold := schema.toOption_foldlM_take entries ⟨blank, []⟩
  have hblank : Partial.progress (⟨blank, []⟩ : Partial σ) = ⟨blank, fun _ => false⟩ := rfl
  rw [hblank] at hfold
  rw [outcome, ← hfold]
  simp only [ofEntries, bind, Except.bind]
  cases entries.foldlM schema.take ⟨blank, []⟩ with
  | error fault => rfl
  | ok state =>
      simp only [finish, missing?, Except.toOption, Option.map_some, Option.bind_some,
        Partial.progress]
      cases schema.fields.find? fun field => field.isRequired && !state.seen.contains field.name <;>
        rfl

/-- Values of different fields update a record in either order. -/
def Independent (schema : Schema σ) : Prop := ∀ f ∈ schema.fields, ∀ g ∈ schema.fields,
  f.name ≠ g.name → ∀ value value' update update', f.update.value value = .ok update →
    g.update.value value' = .ok update' → ∀ record,
      update (update' record) = update' (update record)

theorem change_eq_update {schema : Schema σ} {e : Entry} {name : String} {update : σ → σ}
    (h : schema.change e = .update name update) :
    ∃ field ∈ schema.fields, field.name = name ∧ field.update.value e.value = .ok update := by
  unfold change at h
  split at h
  · cases h
  split at h
  · cases h
  rename_i field hfind
  split at h
  · cases h
  rename_i update' hupdate
  cases h
  exact ⟨field, (mem_of_find? hfind).1, rfl, hupdate⟩

theorem Independent.change {schema : Schema σ} (h : schema.Independent) (e e' : Entry) :
    (schema.change e).Independent (schema.change e') := by
  intro name update name' update' he he' hname record
  obtain ⟨f, hf, rfl, hupdate⟩ := change_eq_update he
  obtain ⟨g, hg, rfl, hupdate'⟩ := change_eq_update he'
  exact h f hf g hg hname _ _ _ _ hupdate hupdate' record

theorem change_eq_ignore {schema : Schema σ} {e : Entry} {key : List Char}
    (hkey : e.key.decoded = .ok key)
    (hunknown : String.ofList key ∉ schema.fields.map (·.name)) : schema.change e = .ignore := by
  have hfind : schema.find? (String.ofList key) = none := by
    rw [find?, List.find?_eq_none]
    intro field hfield hname
    exact hunknown (List.mem_map.mpr ⟨field, hfield, by simpa using hname⟩)
  simp only [change, hkey, hfind]

theorem change_concerns {schema : Schema σ} {e : Entry} {key : List Char}
    (hkey : e.key.decoded = .ok key)
    (hknown : String.ofList key ∈ schema.fields.map (·.name)) :
    (schema.change e).Concerns (String.ofList key) := by
  obtain ⟨field, hfield, hname⟩ := List.mem_map.mp hknown
  cases hfind : schema.find? (String.ofList key) with
  | none =>
      rw [find?, List.find?_eq_none] at hfind
      exact absurd (by simpa using hname) (hfind field hfield)
  | some found =>
      have hfound := (mem_of_find? hfind).2
      simp only [change, hkey, hfind]
      cases found.update.value e.value with
      | error fault => exact .inl rfl
      | ok update => exact .inr ⟨update, by rw [hfound]⟩

end Schema

end Document

end AccountView
