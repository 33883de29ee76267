import AccountView.Proofs.Document.Acceptance
import AccountView.Proofs.Document.Positions

namespace AccountView

/-! Slots of records. A slot is the place of one value among all that a document says; what is read
of the document depends on that value only through what is read of the value alone. -/

namespace Document

/-- A value other than null. -/
structure Present (value : List Char) : Prop where
  isValue : IsValue value
  notNull : value.head? ≠ some 'n'

/-- A text around a value is accepted exactly if the value is accepted alone and all else is in
order, and it holds the value as it was read. -/
structure Carries {α β : Type} (outer : Reader α) (inner : Reader β)
    (fill : List Char → List Char) (get : α → Option β) (inOrder : Prop) : Prop where
  present : ∀ value, Present value → Present (fill value)
  sound : ∀ value whole, Present value → outer.value (fill value) = .ok whole →
    inOrder ∧ ∃ x, inner.value value = .ok x ∧ get whole = some x
  complete : inOrder → ∀ value x, Present value → inner.value value = .ok x →
    ∃ whole, outer.value (fill value) = .ok whole

namespace Carries

variable {α β γ : Type}

theorem refl (r : Reader α) : Carries r r id some True where
  present _ h := h
  sound _ whole _ hwhole := ⟨trivial, whole, hwhole, rfl⟩
  complete _ _ x _ hx := ⟨x, hx⟩

theorem trans {outer : Reader α} {middle : Reader β} {inner : Reader γ}
    {fill fill' : List Char → List Char} {get : α → Option β} {get' : β → Option γ}
    {inOrder inOrder' : Prop} (h : Carries outer middle fill get inOrder)
    (h' : Carries middle inner fill' get' inOrder') :
    Carries outer inner (fun value => fill (fill' value)) (fun whole => (get whole).bind get')
      (inOrder ∧ inOrder') where
  present value hvalue := h.present _ (h'.present value hvalue)
  sound value whole hvalue hwhole := by
    obtain ⟨horder, y, hy, hget⟩ := h.sound _ whole (h'.present value hvalue) hwhole
    obtain ⟨horder', x, hx, hget'⟩ := h'.sound value y hvalue hy
    exact ⟨⟨horder, horder'⟩, x, hx, by rw [hget, Option.bind_some, hget']⟩
  complete := by
    rintro ⟨horder, horder'⟩ value x hvalue hx
    obtain ⟨y, hy⟩ := h'.complete horder' value x hvalue hx
    exact h.complete horder _ y (h'.present value hvalue) hy

theorem ofNullable {outer : Reader α} {r : Reader β} {fill : List Char → List Char}
    {get : α → Option (Option β)} {inOrder : Prop}
    (h : Carries outer (nullable r) fill get inOrder) (hframed : r.Framed) :
    Carries outer r fill (fun whole => (get whole).join) inOrder := by
  have hread {value : List Char} (hvalue : Present value) :
      (nullable r).value value = (r.value value).map some :=
    ((hframed value hvalue.isValue).nullable hvalue.isValue hvalue.notNull).value_eq
  constructor
  case present => exact h.present
  case sound =>
    intro value whole hvalue hwhole
    obtain ⟨horder, x?, hx, hget⟩ := h.sound value whole hvalue hwhole
    rw [hread hvalue] at hx
    cases hx' : r.value value with
    | error fault =>
        rw [hx'] at hx
        contradiction
    | ok x =>
        rw [hx'] at hx
        cases hx
        exact ⟨horder, x, rfl, by rw [hget, Option.join_some]⟩
  case complete =>
    intro horder value x hvalue hx
    refine h.complete horder value (some x) hvalue ?_
    rw [hread hvalue, hx]
    rfl

end Carries

/-! ### Slots -/

/-- A member of the name, or the element of a list that stands where the name stands among the known
ones. All else is free. -/
inductive Slot (known : List String) (name : String) where
  | member (left : List Member) (entry : Entry) (named : entry.key.decoded = .ok name.toList)
      (right : List Member)
  | element (left : List Element) (item : Item) (position : known[left.length]? = some name)
      (right : List Element)

namespace Slot

variable {known : List String} {name : String}

def fill : Slot known name → List Char → List Char
  | member left entry _ right, value =>
      objectText .none (left.map Member.toEntry ++ { entry with value } :: right.map Member.toEntry)
  | element left item _ right, value =>
      listText .none (left.map Element.toItem ++ { item with value } :: right.map Element.toItem)

theorem isValue_entries (left right : List Member) (entry : Entry) {value : List Char}
    (h : IsValue value) :
    ∀ e ∈ left.map Member.toEntry ++ { entry with value } :: right.map Member.toEntry,
      IsValue e.value := by
  rw [List.forall_mem_append, List.forall_mem_cons]
  exact ⟨List.forall_mem_map.mpr fun m _ => m.isValue, h,
    List.forall_mem_map.mpr fun m _ => m.isValue⟩

theorem isValue_items (left right : List Element) (item : Item) {value : List Char}
    (h : IsValue value) :
    ∀ i ∈ left.map Element.toItem ++ { item with value } :: right.map Element.toItem,
      IsValue i.value := by
  rw [List.forall_mem_append, List.forall_mem_cons]
  exact ⟨List.forall_mem_map.mpr fun e _ => e.isValue, h,
    List.forall_mem_map.mpr fun e _ => e.isValue⟩

theorem present_fill (slot : Slot known name) {value : List Char} (h : IsValue value) :
    Present (slot.fill value) := by
  cases slot with
  | member left entry named right =>
      have hvalues := isValue_entries left right entry h
      obtain ⟨rest, hrest⟩ := exists_enclosed_eq_cons '\x7b' '\x7d' .none
        ((left.map Member.toEntry ++ { entry with value } :: right.map Member.toEntry).map Entry.text)
      refine ⟨.object .none _ hvalues, ?_⟩
      rw [fill, objectText, hrest]
      simp
  | element left item position right =>
      have hvalues := isValue_items left right item h
      obtain ⟨rest, hrest⟩ := exists_enclosed_eq_cons '[' ']' .none
        ((left.map Element.toItem ++ { item with value } :: right.map Element.toItem).map Item.text)
      refine ⟨.list .none _ hvalues, ?_⟩
      rw [fill, listText, hrest]
      simp

/-- All that the document says besides the value in the slot is in order. -/
def InOrder {σ : Type} (schema : Schema σ) : Slot known name → Prop
  | member left _ _ right => schema.Completes [name] ((left ++ right).map Member.toEntry)
  | element left _ _ right =>
      Schema.Places (schema.fields.eraseIdx left.length) ((left ++ right).map (·.value))

end Slot

/-! ### Fields of a record -/

namespace Schema

variable {σ β : Type}

/-- The field of a name is read by the inner reader and is shown by the projection, which no other
field changes. -/
structure Shows (schema : Schema σ) (name : String) (inner : Reader β) (get : σ → Option β) :
    Prop where
  found : ∃ isRequired set, schema.find? name = some (.of name isRequired inner set) ∧
    ∀ x record, get (set x record) = some x
  keeps : ∀ field ∈ schema.fields, field.name ≠ name → field.Keeps get

/-! ### Members -/

/-- Once the field has been read, no further member changes what it shows. -/
theorem completed_keeps {schema : Schema σ} {name : String} {get : σ → Option β}
    (hkeeps : ∀ field ∈ schema.fields, field.name ≠ name → field.Keeps get) {entries : List Entry}
    {state : Partial σ} (hseen : name ∈ state.seen) {record : σ}
    (h : schema.completed state entries = .ok record) : get record = get state.record := by
  induction entries generalizing state with
  | nil =>
      have hfinish : schema.finish state = .ok record := h
      rw [finish] at hfinish
      split at hfinish
      · contradiction
      · cases hfinish
        rfl
  | cons e entries ih =>
      rw [completed_cons] at h
      cases hchange : schema.change e with
      | refuse =>
          obtain ⟨fault, hfault⟩ := take_of_refuse hchange state
          rw [hfault] at h
          contradiction
      | ignore =>
          rw [take_of_ignore hchange] at h
          exact ih hseen h
      | update other update =>
          rw [take_of_update hchange] at h
          split at h
          · contradiction
          · rename_i hnew
            obtain ⟨field, hfield, rfl, hupdate⟩ := change_eq_update hchange
            have hname : field.name ≠ name := fun heq => hnew (heq ▸ hseen)
            rw [ih (List.mem_cons_of_mem _ hseen) h,
              hkeeps field hfield hname e.value update hupdate]

theorem completed_append (schema : Schema σ) (state : Partial σ) (left right : List Entry) :
    schema.completed state (left ++ right) =
      left.foldlM schema.take state >>= fun state => schema.completed state right := by
  rw [completed, List.foldlM_append, bind_assoc]
  rfl

/-- What an object shows of a field is what its member made of it. -/
theorem completed_shows {schema : Schema σ} {name : String} {get : σ → Option β}
    (hkeeps : ∀ field ∈ schema.fields, field.name ≠ name → field.Keeps get) {e : Entry}
    {update : σ → σ} (hchange : schema.change e = .update name update) {left right : List Entry}
    {state : Partial σ} {record : σ}
    (h : schema.completed state (left ++ e :: right) = .ok record) :
    ∃ before, get record = get (update before) := by
  rw [completed_append] at h
  obtain ⟨next, _, h⟩ := exists_of_bind_eq_ok h
  rw [completed_cons, take_of_update hchange] at h
  split at h
  · contradiction
  · exact ⟨next.record, completed_keeps hkeeps List.mem_cons_self h⟩

/-! ### Elements -/

theorem place_append (schema : Schema σ) {fields : List (Field σ)} {values : List (List Char)}
    (hlength : fields.length = values.length) (index : Nat) (record : σ)
    (fields' : List (Field σ)) (values' : List (List Char)) :
    schema.place index record (fields ++ fields') (values ++ values') =
      fill record fields values >>= fun record =>
        schema.place (index + fields.length) record fields' values' := by
  induction fields generalizing values index record with
  | nil =>
      rw [List.eq_nil_of_length_eq_zero hlength.symm]
      rfl
  | cons field fields ih =>
      cases values with
      | nil => contradiction
      | cons value values =>
          simp only [List.cons_append, place, fill, bind_assoc, List.length_cons]
          congr 1
          funext update
          rw [ih (Nat.succ.inj hlength), Nat.add_right_comm, Nat.add_assoc]

theorem place_keeps {schema : Schema σ} {get : σ → Option β} {fields : List (Field σ)}
    (hkeeps : ∀ field ∈ fields, field.Keeps get) {values : List (List Char)} {index : Nat}
    {state record : σ} (h : schema.place index state fields values = .ok record) :
    get record = get state := by
  induction fields generalizing values index state with
  | nil =>
      cases values with
      | nil =>
          cases h
          rfl
      | cons value values => contradiction
  | cons field fields ih =>
      rw [List.forall_mem_cons] at hkeeps
      cases values with
      | nil =>
          rw [place] at h
          split at h
          · contradiction
          · exact ih hkeeps.2 h
      | cons value values =>
          obtain ⟨update, hupdate, h⟩ := exists_of_bind_eq_ok h
          rw [ih hkeeps.2 h, hkeeps.1 value update hupdate]

/-- What a list shows of a field is what the value at its position made of it. -/
theorem place_shows {schema : Schema σ} {get : σ → Option β} {field : Field σ}
    {before behind : List (Field σ)} (hkeeps : ∀ other ∈ behind, other.Keeps get)
    {left right : List (List Char)} (hlength : before.length = left.length) {value : List Char}
    {index : Nat} {state record : σ} (h : schema.place index state (before ++ field :: behind)
      (left ++ value :: right) = .ok record) :
    ∃ update filled, field.update.value value = .ok update ∧ get record = get (update filled) := by
  rw [place_append schema hlength] at h
  obtain ⟨filled, _, h⟩ := exists_of_bind_eq_ok h
  obtain ⟨update, hupdate, h⟩ := exists_of_bind_eq_ok h
  exact ⟨update, filled, hupdate, place_keeps hkeeps h⟩

end Schema

/-! ### Records carry the values of their slots -/

section Records

variable {σ β : Type} {schema : Schema σ} {name : String} {inner : Reader β} {get : σ → Option β}
  {isRequired : Bool} {set : β → σ → σ}

theorem change_slot (hfind : schema.find? name = some (.of name isRequired inner set)) {e : Entry}
    (hkey : e.key.decoded = .ok name.toList) : schema.change e =
      match inner.value e.value with
      | .error _ => .refuse
      | .ok x => .update name (set x) := by
  have hname : (Field.of name isRequired inner set).name = name := rfl
  have hupdate : (Field.of name isRequired inner set).update.value e.value =
      (inner.value e.value).map set := inner.value_map set e.value
  simp only [Schema.change, hkey, String.ofList_toList, hfind, hname, hupdate]
  cases inner.value e.value <;> rfl

theorem carries_member (hframed : schema.Framed) (blank : σ) (hshows : schema.Shows name inner get)
    (left right : List Member) (entry : Entry) (named : entry.key.decoded = .ok name.toList) :
    Carries (record schema blank) inner
      (.member left entry named right : Slot schema.names name).fill get
      (schema.Completes [name] ((left ++ right).map Member.toEntry)) := by
  obtain ⟨isRequired, set, hfind, hget⟩ := hshows.found
  have hwhole {value : List Char} (h : Present value) : (record schema blank).value
        ((.member left entry named right : Slot schema.names name).fill value) =
      schema.completed ⟨blank, []⟩
        (left.map Member.toEntry ++ { entry with value } :: right.map Member.toEntry) :=
    (reads_object hframed blank .none (Slot.isValue_entries left right entry h.isValue)).value_eq
  have hchange (value : List Char) := change_slot hfind (e := { entry with value }) named
  constructor
  case present => exact fun value h => Slot.present_fill _ h.isValue
  case sound =>
    intro value whole h hread
    rw [hwhole h] at hread
    have hcompletes := (Schema.exists_completed_iff List.nodup_nil).mp ⟨whole, hread⟩
    have hchange := hchange value
    cases hx : inner.value value with
    | error fault =>
        simp only [hx] at hchange
        exact absurd hchange (hcompletes.accepted _ (by simp))
    | ok x =>
        simp only [hx] at hchange
        obtain ⟨state, hstate⟩ := Schema.completed_shows hshows.keeps hchange hread
        rw [Schema.Completes.of_update hchange, ← List.map_append] at hcompletes
        exact ⟨hcompletes, x, rfl, by rw [hstate, hget]⟩
  case complete =>
    intro horder value x h hx
    have hchange := hchange value
    simp only [hx] at hchange
    rw [hwhole h]
    apply (Schema.exists_completed_iff List.nodup_nil).mpr
    rw [Schema.Completes.of_update hchange, ← List.map_append]
    exact horder

/-- The field at a position is the one that its name finds, and it is the only one of that name. -/
theorem exists_fields_eq (hnodup : schema.names.Nodup) {position : Nat}
    (hposition : schema.names[position]? = some name) {field : Field σ}
    (hfind : schema.find? name = some field) : ∃ before behind,
      schema.fields = before ++ field :: behind ∧ before.length = position ∧
        ∀ other ∈ behind, other.name ≠ name := by
  obtain ⟨hlt, hname⟩ := List.getElem?_eq_some_iff.mp hposition
  rw [Schema.names, List.length_map] at hlt
  have hat : schema.fields[position].name = name := by
    simpa [Schema.names] using hname
  have hfield : schema.fields[position] = field := by
    have hfound := Schema.find?_of_mem hnodup (List.getElem_mem hlt)
    rw [hat, hfind] at hfound
    exact (Option.some.inj hfound).symm
  have hsplit : schema.fields =
      schema.fields.take position ++ field :: schema.fields.drop (position + 1) := by
    rw [← hfield, ← List.drop_eq_getElem_cons hlt, List.take_append_drop]
  refine ⟨_, _, hsplit, by rw [List.length_take]; omega, ?_⟩
  intro other hother heq
  rw [Schema.names, hsplit, List.map_append, List.map_cons, List.nodup_append] at hnodup
  have hfresh := (List.nodup_cons.mp hnodup.2.1).1
  rw [(Schema.mem_of_find? hfind).2, ← heq] at hfresh
  exact hfresh (List.mem_map_of_mem hother)

theorem carries_element (hframed : schema.Framed) (hnodup : schema.names.Nodup) (blank : σ)
    (hshows : schema.Shows name inner get) (left right : List Element) (item : Item)
    (position : schema.names[left.length]? = some name) :
    Carries (record schema blank) inner
      (.element left item position right : Slot schema.names name).fill get
      (Schema.Places (schema.fields.eraseIdx left.length) ((left ++ right).map (·.value))) := by
  obtain ⟨isRequired, set, hfind, hget⟩ := hshows.found
  obtain ⟨before, behind, hfields, hlength, hothers⟩ := exists_fields_eq hnodup position hfind
  have hlength' : before.length = (left.map (·.value)).length := by rw [hlength, List.length_map]
  have hothers' : schema.fields.eraseIdx left.length = before ++ behind := by
    rw [hfields, ← hlength, List.eraseIdx_append_of_length_le (Nat.le_refl _), Nat.sub_self]
    rfl
  have hwhole {value : List Char} (h : Present value) : (record schema blank).value
        ((.element left item position right : Slot schema.names name).fill value) =
      schema.place 0 blank (before ++ .of name isRequired inner set :: behind)
        (left.map (·.value) ++ value :: right.map (·.value)) := by
    have hvalues := Slot.isValue_items left right item h.isValue
    rw [Slot.fill, (reads_list hframed blank .none hvalues).value_eq, ← hfields, List.map_append,
      List.map_map, List.map_cons, List.map_map]
    rfl
  have hkeeps : ∀ field ∈ behind, field.Keeps get := by
    intro field hfield
    have hmem : field ∈ schema.fields := by simp [hfields, hfield]
    exact hshows.keeps field hmem (hothers field hfield)
  constructor
  case present => exact fun value h => Slot.present_fill _ h.isValue
  case sound =>
    intro value whole h hread
    rw [hwhole h] at hread
    have hplaces := (Schema.exists_place_iff schema 0 blank).mp ⟨whole, hread⟩
    obtain ⟨update, filled, hupdate, hfilled⟩ := Schema.place_shows hkeeps hlength' hread
    obtain ⟨x, hx, rfl⟩ := value_of hupdate
    rw [Schema.places_middle hlength', ← hothers', ← List.map_append] at hplaces
    exact ⟨hplaces.2, x, hx, by rw [hfilled, hget]⟩
  case complete =>
    intro horder value x h hx
    rw [hwhole h, Schema.exists_place_iff, Schema.places_middle hlength', ← hothers',
      ← List.map_append]
    exact ⟨.of_value hx, horder⟩

theorem carries_slot (hframed : schema.Framed) (hnodup : schema.names.Nodup) (blank : σ)
    (hshows : schema.Shows name inner get) (slot : Slot schema.names name) :
    Carries (record schema blank) inner slot.fill get (slot.InOrder schema) := by
  cases slot with
  | member left entry named right =>
      exact carries_member hframed blank hshows left right entry named
  | element left item position right =>
      exact carries_element hframed hnodup blank hshows left right item position

end Records

end Document

end AccountView
