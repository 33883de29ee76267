import AccountView.Proofs.Document.Framing

namespace AccountView

/-! Records are framed. What a record reader makes of a list is a function of the values in it, and
what it makes of an object is a function of the keys and values, each read alone. -/

namespace Document

namespace Schema

variable {σ : Type}

def Framed (schema : Schema σ) : Prop := ∀ field ∈ schema.fields, field.update.Framed

/-! ### Lists -/

/-- Values for fields, in their order. -/
def place (schema : Schema σ) (index : Nat) (record : σ) :
    List (Field σ) → List (List Char) → Except Fault σ
  | [], [] => .ok record
  | [], _ :: _ => .error .trailingCharacters
  | field :: fields, [] =>
      if field.isRequired then .error (.invalidLength index schema.lengthText)
      else schema.place (index + 1) record fields []
  | field :: fields, value :: values => do
      let update ← field.update.value value
      schema.place (index + 1) (update record) fields values

/-- The text from the first value of the items on. -/
def itemsFrom (rest : List Char) : List Item → Option (List Char)
  | [] => none
  | i :: items => some (i.value ++ (i.after.text ++ (closedBy ']' (items.map Item.text) ++ rest)))

theorem exists_skipBlanks_item {i : Item} (value : IsValue i.value) (rest : List Char) :
    ∃ c text, i.value ++ (i.after.text ++ rest) = c :: text ∧
      skipBlanks (i.text ++ rest) = c :: text ∧ c ≠ ']' ∧ c ≠ ',' := by
  obtain ⟨c, text, htext, hopening⟩ := value.opening
  have hitem : skipBlanks (i.text ++ rest) = i.value ++ (i.after.text ++ rest) := by
    simp only [Item.text, List.append_assoc]
    exact value.skipBlanks_append i.before _
  rw [htext, List.cons_append] at hitem ⊢
  exact ⟨c, _, rfl, hitem, ne_of_isDelimiter hopening.notDelimiter rfl,
    ne_of_isDelimiter hopening.notDelimiter rfl⟩

theorem nextElement_closedBy {items : List Item} (values : ∀ i ∈ items, IsValue i.value)
    (gap : Blanks) (rest : List Char) :
    nextElement false (gap.text ++ (closedBy ']' (items.map Item.text) ++ rest)) =
      .ok (itemsFrom rest items) := by
  have hblanks : skipBlanks (gap.text ++ (closedBy ']' (items.map Item.text) ++ rest)) =
      closedBy ']' (items.map Item.text) ++ rest := by
    rw [skipBlanks_append, skipBlanks_closedBy ']' rfl]
  unfold nextElement
  rw [hblanks]
  cases items with
  | nil => rfl
  | cons i items =>
      obtain ⟨c, text, htext, hitem, hclosing, _⟩ := exists_skipBlanks_item (values i (by simp))
        (closedBy ']' (items.map Item.text) ++ rest)
      simp only [List.map_cons, closedBy, List.cons_append, List.append_assoc, itemsFrom, htext]
      simp [hitem, hclosing]

theorem closeList_closedBy {items : List Item} (values : ∀ i ∈ items, IsValue i.value)
    (gap : Blanks) (rest : List Char) :
    closeList (gap.text ++ (closedBy ']' (items.map Item.text) ++ rest)) =
      if items = [] then .ok rest else .error .trailingCharacters := by
  have hblanks : skipBlanks (gap.text ++ (closedBy ']' (items.map Item.text) ++ rest)) =
      closedBy ']' (items.map Item.text) ++ rest := by
    rw [skipBlanks_append, skipBlanks_closedBy ']' rfl]
  unfold closeList
  rw [hblanks]
  cases items with
  | nil => rfl
  | cons i items =>
      obtain ⟨c, text, _, hitem, hclosing, _⟩ := exists_skipBlanks_item (values i (by simp))
        (closedBy ']' (items.map Item.text) ++ rest)
      simp only [List.map_cons, closedBy, List.cons_append, List.append_assoc]
      simp [hitem, hclosing]

/-- The elements of a list and its end, from any text where they may be taken up. -/
theorem elements_closeList {schema : Schema σ} (fields : List (Field σ))
    (hframed : ∀ field ∈ fields, field.update.Framed) {items : List Item}
    (values : ∀ i ∈ items, IsValue i.value) (index : Nat) {isFirst : Bool} (record : σ)
    {text rest : List Char} (hnext : nextElement isFirst text = .ok (itemsFrom rest items))
    (hclose : closeList text = if items = [] then .ok rest else .error .trailingCharacters) :
    (do let (record, text) ← schema.elements index isFirst record fields text
        let text ← closeList text
        pure (record, text)) =
      (schema.place index record fields (items.map (·.value))).map fun record => (record, rest) := by
  induction fields generalizing index isFirst record items text with
  | nil =>
      simp only [elements, bind, Except.bind, hclose]
      cases items <;> rfl
  | cons field fields ih =>
      have htail : ∀ other ∈ fields, other.update.Framed := fun other h => hframed other (by simp [h])
      cases items with
      | nil =>
          simp only [itemsFrom] at hnext
          have hnone := ih htail values (index + 1) record hnext hclose
          by_cases hrequired : field.isRequired = true
          · simp only [elements, hnext, bind, Except.bind, hrequired, if_true, List.map_nil, place]
            rfl
          · simp only [elements, hnext, bind, Except.bind, hrequired, List.map_nil, place] at hnone ⊢
            exact hnone
      | cons i items =>
          have hvalues : ∀ j ∈ items, IsValue j.value := fun j hj => values j (by simp [hj])
          have hdelimited := (delimited_closedBy ']' rfl (items.map Item.text) rest).blanks_append i.after
          have hupdate := hframed field (by simp) i.value (values i (by simp)) .none _ hdelimited
          simp only [Blanks.text_none, List.nil_append] at hupdate
          simp only [elements, hnext, itemsFrom, hupdate, bind, Except.bind, List.map_cons, place]
          cases field.update.value i.value with
          | error e => rfl
          | ok update =>
              exact ih htail hvalues (index + 1) (update record)
                (nextElement_closedBy hvalues i.after rest) (closeList_closedBy hvalues i.after rest)

theorem readList_items {schema : Schema σ} (hframed : schema.Framed) (blank : σ) (gap : Blanks)
    {items : List Item} (values : ∀ i ∈ items, IsValue i.value) (rest : List Char) :
    ∃ text, listText gap items ++ rest = '[' :: text ∧ schema.readList blank text =
      (schema.place 0 blank schema.fields (items.map (·.value))).map fun record =>
        (record, rest) := by
  cases items with
  | nil =>
      refine ⟨gap.text ++ (']' :: rest), by simp [listText, enclosed], ?_⟩
      exact elements_closeList schema.fields hframed values 0 blank
        (by simp [nextElement, skipBlanks_cons, itemsFrom, isBlank])
        (by simp [closeList, skipBlanks_cons, isBlank])
  | cons i items =>
      obtain ⟨c, text, htext, hitem, hclosing, hcomma⟩ :=
        exists_skipBlanks_item (values i (by simp)) (closedBy ']' (items.map Item.text) ++ rest)
      refine ⟨i.text ++ (closedBy ']' (items.map Item.text) ++ rest),
        by simp [listText, enclosed], ?_⟩
      exact elements_closeList schema.fields hframed values 0 blank
        (by simp [nextElement, hitem, hclosing, itemsFrom, htext])
        (by simp [closeList, hitem, hclosing, hcomma])

/-! ### Objects -/

/-- What a member does to a record that is being read. -/
def take (schema : Schema σ) (state : Partial σ) (e : Entry) : Except Fault (Partial σ) := do
  let key ← e.key.decoded
  match schema.find? (String.ofList key) with
  | some field =>
      if field.name ∈ state.seen then
        throw (.duplicateField field.name)
      else
        let update ← field.update.value e.value
        pure ⟨update state.record, field.name :: state.seen⟩
  | none => pure state

def finish (schema : Schema σ) (state : Partial σ) : Except Fault σ :=
  match schema.missing? state.seen with
  | some field => throw (.missingField field.name)
  | none => pure state.record

def ofEntries (schema : Schema σ) (blank : σ) (entries : List Entry) : Except Fault σ := do
  let state ← entries.foldlM schema.take ⟨blank, []⟩
  schema.finish state

theorem colon_blanks (gap : Blanks) (rest : List Char) : colon (gap.text ++ ':' :: rest) = .ok rest := by
  rw [colon, skipBlanks_append, skipBlanks_cons (by decide)]
  rfl

theorem mem_of_find? {schema : Schema σ} {name : String} {field : Field σ}
    (h : schema.find? name = some field) : field ∈ schema.fields ∧ field.name = name :=
  ⟨List.mem_of_find?_eq_some h, by simpa using List.find?_some h⟩

theorem member_entry {schema : Schema σ} (hframed : schema.Framed) (state : Partial σ) (e : Entry)
    (value : IsValue e.value) {rest : List Char} (hrest : Delimited rest) :
    schema.member state (e.fromKey rest) =
      (schema.take state e).map fun state => (state, rest) := by
  simp only [member, Entry.fromKey, e.key.body_closed, bind, Except.bind, take, throw, throwThe,
    MonadExceptOf.throw, pure, Except.pure]
  cases e.key.decoded with
  | error fault => rfl
  | ok key =>
      cases hfind : schema.find? (String.ofList key) with
      | none =>
          simp only [Except.map, hfind, colon_blanks, skip_value e.afterColon value hrest]
      | some field =>
          have hreads := hframed field (mem_of_find? hfind).1 e.value value e.afterColon rest hrest
          simp only [Except.map, hfind, colon_blanks, hreads]
          by_cases hseen : field.name ∈ state.seen
          · simp only [hseen, if_true]
          · simp only [hseen, if_false]
            cases field.update.value e.value <;> rfl

/-- The text from the first key of the entries on. -/
def entriesFrom (rest : List Char) : List Entry → Option (List Char)
  | [] => none
  | e :: entries =>
      some (e.fromKey (e.after.text ++ (closedBy '\x7d' (entries.map Entry.text) ++ rest)))

theorem members_eq (schema : Schema σ) {isFirst : Bool} (state : Partial σ) {text : List Char}
    {key : Option (List Char)} (hnext : nextKey isFirst text = .ok key) :
    schema.members isFirst state text =
      match key with
      | none => .ok (state, text)
      | some keyText => schema.member state keyText >>= fun (state, rest) =>
          schema.members false state rest := by
  rw [members]
  split
  · rename_i heq
    rw [hnext] at heq
    contradiction
  · rename_i heq
    rw [hnext] at heq
    cases heq
    rfl
  · rename_i keyText heq
    rw [hnext] at heq
    cases heq
    cases hmember : schema.member state keyText with
    | error fault => split <;> simp_all [bind, Except.bind]
    | ok p => split <;> simp_all [bind, Except.bind]

theorem nextKey_closedBy (gap : Blanks) (entries : List Entry) (rest : List Char) :
    nextKey false (gap.text ++ (closedBy '\x7d' (entries.map Entry.text) ++ rest)) =
      .ok (entriesFrom rest entries) := by
  have hblanks : skipBlanks (gap.text ++ (closedBy '\x7d' (entries.map Entry.text) ++ rest)) =
      closedBy '\x7d' (entries.map Entry.text) ++ rest := by
    rw [skipBlanks_append, skipBlanks_closedBy '\x7d' rfl]
  unfold nextKey
  rw [hblanks]
  cases entries with
  | nil => rfl
  | cons e entries =>
      have hquote (text : List Char) : skipBlanks (e.before.text ++ '"' :: text) = '"' :: text := by
        rw [skipBlanks_append, skipBlanks_cons (by decide)]
      simp only [List.map_cons, closedBy, Entry.text, List.cons_append, List.append_assoc,
        Entry.fromKey_append, hquote]
      rfl

theorem closeObject_blanks (gap : Blanks) (rest : List Char) :
    closeObject (gap.text ++ '\x7d' :: rest) = .ok rest := by
  rw [closeObject, skipBlanks_append, skipBlanks_cons (by decide)]
  rfl

/-- The members of an object, from any text where they may be taken up, leave its end. -/
theorem members_entries {schema : Schema σ} (hframed : schema.Framed) {entries : List Entry}
    (values : ∀ e ∈ entries, IsValue e.value) {isFirst : Bool} {text rest : List Char}
    (hnext : nextKey isFirst text = .ok (entriesFrom rest entries))
    (hclose : entries = [] → closeObject text = .ok rest) :
    ∃ left, closeObject left = .ok rest ∧ ∀ state, schema.members isFirst state text =
      (entries.foldlM schema.take state).map fun state => (state, left) := by
  induction entries generalizing isFirst text with
  | nil =>
      refine ⟨text, hclose rfl, fun state => ?_⟩
      rw [members_eq schema state hnext]
      rfl
  | cons e entries ih =>
      have hdelimited :=
        (delimited_closedBy '\x7d' rfl (entries.map Entry.text) rest).blanks_append e.after
      obtain ⟨left, hleft, hmembers⟩ := ih (fun other h => values other (by simp [h]))
        (nextKey_closedBy e.after entries rest) (fun hnil => by
          subst hnil
          exact closeObject_blanks e.after rest)
      refine ⟨left, hleft, fun state => ?_⟩
      rw [members_eq schema state hnext]
      simp only [entriesFrom, member_entry hframed state e (values e (by simp)) hdelimited, bind,
        Except.bind, List.foldlM_cons]
      cases schema.take state e with
      | error fault => rfl
      | ok state => exact hmembers state

theorem readObject_entries {schema : Schema σ} (hframed : schema.Framed) (blank : σ) (gap : Blanks)
    {entries : List Entry} (values : ∀ e ∈ entries, IsValue e.value) (rest : List Char) :
    ∃ text, objectText gap entries ++ rest = '\x7b' :: text ∧ schema.readObject blank text =
      (schema.ofEntries blank entries).map fun record => (record, rest) := by
  have hread {text : List Char} (hnext : nextKey true text = .ok (entriesFrom rest entries))
      (hclose : entries = [] → closeObject text = .ok rest) : schema.readObject blank text =
        (schema.ofEntries blank entries).map fun record => (record, rest) := by
    obtain ⟨left, hleft, hmembers⟩ := members_entries hframed values hnext hclose
    simp only [readObject, hmembers, ofEntries, finish, bind, Except.bind]
    cases entries.foldlM schema.take ⟨blank, []⟩ with
    | error fault => rfl
    | ok state =>
        cases hmissing : schema.missing? state.seen with
        | some field => simp only [Except.map, hmissing]; rfl
        | none => simp only [Except.map, hmissing, hleft]; rfl
  cases entries with
  | nil =>
      refine ⟨gap.text ++ '\x7d' :: rest, by simp [objectText, enclosed], hread ?_ ?_⟩
      · rw [nextKey, skipBlanks_append, skipBlanks_cons (by decide)]
        rfl
      · exact fun _ => closeObject_blanks gap rest
  | cons e entries =>
      refine ⟨e.before.text ++ '"' :: e.fromKey (e.after.text ++
        (closedBy '\x7d' (entries.map Entry.text) ++ rest)), ?_, hread ?_ ?_⟩
      · simp [objectText, enclosed, Entry.text, Entry.fromKey_append]
      · rw [nextKey, skipBlanks_append, skipBlanks_cons (by decide)]
        rfl
      · intro hnil
        contradiction

end Schema

/-! ### Records in general -/

variable {σ : Type} {schema : Schema σ}

theorem reads_list (hframed : schema.Framed) (blank : σ) (gap : Blanks) {items : List Item}
    (values : ∀ i ∈ items, IsValue i.value) : (record schema blank).Reads (listText gap items)
      (schema.place 0 blank schema.fields (items.map (·.value))) := by
  intro before rest _
  have hblanks := (IsValue.list gap items values).skipBlanks_append before rest
  obtain ⟨text, htext, hread⟩ := Schema.readList_items hframed blank gap values rest
  rw [htext] at hblanks ⊢
  simp only [record, Schema.read, hblanks, if_true, hread]

theorem reads_object (hframed : schema.Framed) (blank : σ) (gap : Blanks) {entries : List Entry}
    (values : ∀ e ∈ entries, IsValue e.value) :
    (record schema blank).Reads (objectText gap entries) (schema.ofEntries blank entries) := by
  intro before rest _
  have hblanks := (IsValue.object gap entries values).skipBlanks_append before rest
  obtain ⟨text, htext, hread⟩ := Schema.readObject_entries hframed blank gap values rest
  rw [htext] at hblanks ⊢
  have hopening : '\x7b' ≠ '[' := by decide
  simp only [record, Schema.read, hblanks, hopening, if_true, if_false, hread]

theorem framed_record (hframed : schema.Framed) (blank : σ) : (record schema blank).Framed := by
  refine Reader.framed_of_reads fun value hvalue => ?_
  obtain ⟨c, text, htext, hopening⟩ := hvalue.opening
  by_cases hlist : c = '['
  · obtain ⟨gap, items, values, rfl⟩ := hopening.list hlist
    exact ⟨_, reads_list hframed blank gap values⟩
  by_cases hobject : c = '\x7b'
  · obtain ⟨gap, entries, values, rfl⟩ := hopening.object hobject
    exact ⟨_, reads_object hframed blank gap values⟩
  · refine ⟨.error (mismatch schema.title value),
      reads_mismatch hvalue htext fun text rest hblanks => ?_⟩
    simp only [record, Schema.read, hblanks, hlist, hobject, if_false]

/-! ### Wire times and accounts -/

theorem framed_field {α : Type} (name : String) (isRequired : Bool) {value : Reader α}
    (h : value.Framed) (set : α → σ → σ) : (Field.of name isRequired value set).update.Framed :=
  h.map set

theorem framed_wireTimeSchema : wireTimeSchema.Framed := by
  simp only [Schema.Framed, wireTimeSchema, List.forall_mem_cons, List.not_mem_nil]
  exact ⟨framed_field _ _ framed_int64 _, framed_field _ _ framed_int32 _, nofun⟩

theorem framed_wireTime : wireTime.Framed := framed_record framed_wireTimeSchema ⟨0, 0⟩

theorem framed_stamp : (nullable wireTime).Framed := framed_nullable framed_wireTime

theorem framed_accountSchema : accountSchema.Framed := by
  simp only [Schema.Framed, accountSchema, List.forall_mem_cons, List.not_mem_nil]
  exact ⟨framed_field _ _ framed_int64 _, framed_field _ _ framed_string _,
    framed_field _ _ framed_string _, framed_field _ _ framed_string _,
    framed_field _ _ framed_string _, framed_field _ _ framed_role _,
    framed_field _ _ framed_stamp _, framed_field _ _ framed_stamp _,
    framed_field _ _ framed_stamp _, nofun⟩

theorem framed_account : account.Framed := framed_record framed_accountSchema {}

end Document

end AccountView
