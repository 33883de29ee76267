import AccountView.Proofs.Document.Changes
import AccountView.Proofs.Document.Writing
import AccountView.Proofs.Outcome

namespace AccountView

/-! When a record is accepted. Of both forms it is said what they have to give to the fields; a
record of that form is accepted exactly if they give it. -/

namespace Document

variable {σ : Type}

theorem Reader.value_map {α β : Type} (r : Reader α) (f : α → β) (text : List Char) :
    (r.map f).value text = (r.value text).map f := by
  rw [Reader.value, Reader.run_map, Reader.value]
  cases r.run text <;> rfl

/-- The field that is updated. -/
def Change.name? : Change σ → Option String
  | update name _ => some name
  | _ => none

/-- An update is read of the value. -/
def Field.Accepts (field : Field σ) (value : List Char) : Prop :=
  ∃ update, field.update.value value = .ok update

theorem Field.Accepts.of_value {α : Type} {name : String} {isRequired : Bool} {r : Reader α}
    {set : α → σ → σ} {value : List Char} {x : α} (h : r.value value = .ok x) :
    (Field.of name isRequired r set).Accepts value := by
  refine ⟨set x, ?_⟩
  rw [Field.of, r.value_map, h]
  rfl

namespace Schema

/-! ### Objects -/

/-- The names of the fields to which entries give values. -/
def given (schema : Schema σ) (entries : List Entry) : List String :=
  entries.filterMap fun e => (schema.change e).name?

/-- Entries that complete a record which has had the fields of some names: none is refused for what
it says itself, no field comes twice, and no required one is left out. -/
structure Completes (schema : Schema σ) (seen : List String) (entries : List Entry) : Prop where
  accepted : ∀ e ∈ entries, schema.change e ≠ .refuse
  nodup : (seen ++ schema.given entries).Nodup
  required : ∀ field ∈ schema.fields, field.isRequired = true →
    field.name ∈ seen ++ schema.given entries

variable {schema : Schema σ} {seen : List String} {e : Entry}

theorem Completes.of_ignore (hchange : schema.change e = .ignore) {entries : List Entry} :
    schema.Completes seen (e :: entries) ↔ schema.Completes seen entries := by
  have hgiven : schema.given (e :: entries) = schema.given entries := by
    simp [given, hchange, Change.name?]
  constructor
  · intro h
    exact ⟨fun other hother => h.accepted other (List.mem_cons_of_mem _ hother),
      hgiven ▸ h.nodup, hgiven ▸ h.required⟩
  · intro h
    have haccepted : ∀ other ∈ e :: entries, schema.change other ≠ .refuse :=
      List.forall_mem_cons.mpr ⟨by simp [hchange], h.accepted⟩
    exact ⟨haccepted, hgiven.symm ▸ h.nodup, hgiven.symm ▸ h.required⟩

/-- The place of a member among the others does not matter. -/
theorem Completes.of_update {name : String} {update : σ → σ}
    (hchange : schema.change e = .update name update) {left right : List Entry} :
    schema.Completes seen (left ++ e :: right) ↔
      schema.Completes (name :: seen) (left ++ right) := by
  have hgiven : (seen ++ schema.given (left ++ e :: right)).Perm
      (name :: seen ++ schema.given (left ++ right)) := by
    simp only [given, List.filterMap_append, List.filterMap_cons, hchange, Change.name?,
      ← List.append_assoc]
    exact List.perm_middle
  have hentries : (left ++ e :: right).Perm (e :: (left ++ right)) := List.perm_middle
  constructor
  · intro h
    constructor
    case accepted =>
      intro other hother
      exact h.accepted other (hentries.mem_iff.mpr (List.mem_cons_of_mem e hother))
    case nodup => exact hgiven.nodup_iff.mp h.nodup
    case required =>
      intro field hfield hrequired
      exact hgiven.mem_iff.mp (h.required field hfield hrequired)
  · intro h
    constructor
    case accepted =>
      intro other hother
      rcases List.mem_cons.mp (hentries.mem_iff.mp hother) with rfl | hother
      · simp [hchange]
      · exact h.accepted other hother
    case nodup => exact hgiven.nodup_iff.mpr h.nodup
    case required =>
      intro field hfield hrequired
      exact hgiven.mem_iff.mpr (h.required field hfield hrequired)

theorem completed_cons (schema : Schema σ) (state : Partial σ) (e : Entry) (entries : List Entry) :
    schema.completed state (e :: entries) =
      schema.take state e >>= fun state => schema.completed state entries := by
  rw [completed, List.foldlM_cons, bind_assoc]
  rfl

theorem exists_finish_iff (state : Partial σ) : (∃ record, schema.finish state = .ok record) ↔
    ∀ field ∈ schema.fields, field.isRequired = true → field.name ∈ state.seen := by
  have hmissing : schema.missing? state.seen = none ↔
      ∀ field ∈ schema.fields, field.isRequired = true → field.name ∈ state.seen := by
    simp [missing?, List.find?_eq_none]
  rw [← hmissing, finish]
  cases schema.missing? state.seen with
  | none => exact iff_of_true ⟨state.record, rfl⟩ rfl
  | some field => exact iff_of_false not_exists_ok (Option.some_ne_none field)

theorem exists_completed_iff {state : Partial σ} (hseen : state.seen.Nodup)
    {entries : List Entry} : (∃ record, schema.completed state entries = .ok record) ↔
      schema.Completes state.seen entries := by
  -- The induction is on the members that are left, for every state they may be read in.
  induction entries generalizing state with
  | nil =>
      have hfinish : schema.completed state [] = schema.finish state := rfl
      rw [hfinish, exists_finish_iff]
      constructor
      · intro h
        exact ⟨by simp, by simpa [given] using hseen, by simpa [given] using h⟩
      · intro h
        simpa [given] using h.required
  | cons e entries ih =>
      rw [completed_cons]
      cases hchange : schema.change e with
      | refuse =>
          obtain ⟨fault, hfault⟩ := take_of_refuse hchange state
          rw [hfault]
          exact iff_of_false not_exists_ok fun h => h.accepted e List.mem_cons_self hchange
      | ignore =>
          rw [take_of_ignore hchange, Completes.of_ignore hchange, ← ih hseen]
          rfl
      | update name update =>
          have hfirst : schema.Completes state.seen ([] ++ e :: entries) ↔
              schema.Completes (name :: state.seen) ([] ++ entries) := Completes.of_update hchange
          simp only [List.nil_append] at hfirst
          rw [take_of_update hchange, hfirst]
          by_cases hnew : name ∈ state.seen
          · rw [if_pos hnew]
            refine iff_of_false not_exists_ok fun h => ?_
            exact absurd (List.mem_append_left _ hnew) (List.nodup_cons.mp h.nodup).1
          · have hnext : (⟨update state.record, name :: state.seen⟩ : Partial σ).seen.Nodup :=
              List.nodup_cons.mpr ⟨hnew, hseen⟩
            rw [if_neg hnew, ← ih hnext]
            rfl

/-! ### Lists -/

/-- Values for fields, in their order: each is read by its field, there are no more than fields, and
no field without a value is required. -/
structure Places (fields : List (Field σ)) (values : List (List Char)) : Prop where
  length_le : values.length ≤ fields.length
  accepted : ∀ p ∈ fields.zip values, p.1.Accepts p.2
  optional : ∀ field ∈ fields.drop values.length, field.isRequired = false

variable {field : Field σ} {fields : List (Field σ)} {value : List Char} {values : List (List Char)}

theorem places_nil : Places fields [] ↔ ∀ field ∈ fields, field.isRequired = false :=
  ⟨fun h => h.optional, fun h => ⟨Nat.zero_le _, by simp, h⟩⟩

theorem places_cons :
    Places (field :: fields) (value :: values) ↔ field.Accepts value ∧ Places fields values := by
  constructor
  · rintro ⟨hlength, haccepted, hoptional⟩
    rw [List.zip_cons_cons, List.forall_mem_cons] at haccepted
    exact ⟨haccepted.1, Nat.le_of_succ_le_succ hlength, haccepted.2, hoptional⟩
  · rintro ⟨hfield, hlength, haccepted, hoptional⟩
    refine ⟨Nat.succ_le_succ hlength, ?_, hoptional⟩
    rw [List.zip_cons_cons, List.forall_mem_cons]
    exact ⟨hfield, haccepted⟩

/-- A value and its field can be left out together. -/
theorem places_middle {before behind : List (Field σ)} {left right : List (List Char)}
    (hlength : before.length = left.length) :
    Places (before ++ field :: behind) (left ++ value :: right) ↔
      field.Accepts value ∧ Places (before ++ behind) (left ++ right) := by
  induction before generalizing left with
  | nil =>
      obtain rfl : left = [] := List.length_eq_zero_iff.mp hlength.symm
      exact places_cons
  | cons first before ih =>
      cases left with
      | nil => contradiction
      | cons firstValue left =>
          simp only [List.cons_append, places_cons, ih (Nat.succ.inj hlength)]
          exact and_left_comm

theorem exists_place_iff (schema : Schema σ) (index : Nat) (record : σ) :
    (∃ whole, schema.place index record fields values = .ok whole) ↔ Places fields values := by
  induction fields generalizing values index record with
  | nil =>
      cases values with
      | nil => exact iff_of_true ⟨record, rfl⟩ (places_nil.mpr (by simp))
      | cons value values =>
          exact iff_of_false not_exists_ok fun h => Nat.not_succ_le_zero _ h.length_le
  | cons field fields ih =>
      cases values with
      | nil =>
          rw [places_nil, List.forall_mem_cons, ← places_nil, ← ih (index + 1) record, place]
          cases field.isRequired with
          | true => exact iff_of_false not_exists_ok fun h => Bool.noConfusion h.1
          | false => simp
      | cons value values =>
          rw [places_cons, place, Field.Accepts]
          cases field.update.value value with
          | error fault => exact iff_of_false not_exists_ok fun h => not_exists_ok h.1
          | ok update =>
              rw [← ih (index + 1) (update record)]
              exact ⟨fun h => ⟨⟨update, rfl⟩, h⟩, fun h => h.2⟩

end Schema

end Document

end AccountView
