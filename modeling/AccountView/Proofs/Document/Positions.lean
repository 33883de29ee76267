import AccountView.Proofs.Document.MemberOrder
import Mathlib.Data.List.Nodup

namespace AccountView

/-! The two forms of a record. A list gives its values by the order of the fields and an object by
their names; the same values of the first fields make the same record of both, or the same fault. -/

namespace Document

structure Element extends Item where
  isValue : IsValue value

/-- A list as it is written, with the blanks around it and within it. -/
structure WrittenList where
  before : Blanks := .none
  gap : Blanks := .none
  elements : List Element
  after : Blanks := .none

namespace WrittenList

def items (l : WrittenList) : List Item := l.elements.map Element.toItem

def value (l : WrittenList) : List Char := listText l.gap l.items

def values (l : WrittenList) : List (List Char) := l.elements.map (·.value)

def document (l : WrittenList) : String :=
  String.ofList (l.before.text ++ (l.value ++ l.after.text))

theorem isValue_of_mem {l : WrittenList} : ∀ i ∈ l.items, IsValue i.value := by
  intro i hi
  obtain ⟨e, _, rfl⟩ := List.mem_map.mp hi
  exact e.isValue

end WrittenList

/-- The object gives the values of the list, in their order, to the first of the known names. -/
structure Positional (known : List String) (l : WrittenList) (o : WrittenObject) : Prop where
  values : o.members.map (·.value) = l.values
  names : o.members.map (·.key.decoded) =
    (known.take l.elements.length).map fun name => .ok name.toList

/-! ### Values for the first fields -/

namespace Schema

variable {σ : Type}

/-- The record that values for its first fields make of one. -/
def fill (record : σ) : List (Field σ) → List (List Char) → Except Fault σ
  | field :: fields, value :: values => do
      let update ← field.update.value value
      fill (update record) fields values
  | _, _ => .ok record

theorem fill_nil (record : σ) (fields : List (Field σ)) : fill record fields [] = .ok record := by
  cases fields <;> rfl

/-- A list fills the first fields if it holds enough values for those that are required, and no
more than there are fields. -/
theorem place_eq_fill (schema : Schema σ) {fields : List (Field σ)} {values : List (List Char)}
    (hlength : values.length ≤ fields.length)
    (hoptional : ∀ field ∈ fields.drop values.length, field.isRequired = false) (index : Nat)
    (record : σ) : schema.place index record fields values = fill record fields values := by
  induction fields generalizing values index record with
  | nil =>
      rw [List.length_eq_zero_iff.mp (Nat.le_zero.mp hlength)]
      rfl
  | cons field fields ih =>
      cases values with
      | nil =>
          have hfield : field.isRequired = false := hoptional field (by simp)
          have hrest : schema.place (index + 1) record fields [] = fill record fields [] :=
            ih (Nat.zero_le _) (fun other h => hoptional other (by simpa using .inr h)) (index + 1)
              record
          rw [place, hfield, hrest, fill_nil]
          rfl
      | cons value values =>
          simp only [place, fill, bind, Except.bind]
          cases field.update.value value with
          | error fault => rfl
          | ok update =>
              have hrest : ∀ other ∈ fields.drop values.length, other.isRequired = false :=
                fun other h => hoptional other (by simpa using h)
              exact ih (Nat.le_of_succ_le_succ hlength) hrest (index + 1) (update record)

theorem find?_of_mem {schema : Schema σ} (hnodup : schema.names.Nodup) {field : Field σ}
    (h : field ∈ schema.fields) : schema.find? field.name = some field := by
  have hfound : (schema.find? field.name).isSome := by
    rw [find?, List.find?_isSome]
    exact ⟨field, h, by simp⟩
  obtain ⟨other, hfind⟩ := Option.isSome_iff_exists.mp hfound
  obtain ⟨hmem, hname⟩ := mem_of_find? hfind
  rw [hfind, List.inj_on_of_nodup_map hnodup hmem h hname]

theorem take_named {schema : Schema σ} {field : Field σ}
    (hfind : schema.find? field.name = some field) {e : Entry}
    (hkey : e.key.decoded = .ok field.name.toList) {state : Partial σ}
    (hnew : field.name ∉ state.seen) : schema.take state e = (field.update.value e.value).map
      fun update => ⟨update state.record, field.name :: state.seen⟩ := by
  simp only [take, hkey, String.ofList_toList, hfind, hnew, bind, Except.bind, if_false]
  cases field.update.value e.value <;> rfl

/-- Members named for the first fields fill them. -/
theorem foldlM_take_eq_fill {schema : Schema σ} {fields : List (Field σ)}
    (hfind : ∀ field ∈ fields, schema.find? field.name = some field)
    (hnodup : (fields.map (·.name)).Nodup) {entries : List Entry}
    (hnames : entries.map (·.key.decoded) =
      (fields.take entries.length).map fun field => .ok field.name.toList)
    (state : Partial σ) (hnew : ∀ field ∈ fields, field.name ∉ state.seen) :
    entries.foldlM schema.take state =
      (fill state.record fields (entries.map (·.value))).map fun record =>
        ⟨record, ((fields.take entries.length).map (·.name)).reverse ++ state.seen⟩ := by
  induction entries generalizing fields state with
  | nil =>
      simp [fill_nil, Except.map, pure, Except.pure]
  | cons e entries ih =>
      cases fields with
      | nil => simp at hnames
      | cons field fields =>
          obtain ⟨hkey, htail⟩ := List.cons.inj hnames
          obtain ⟨hfresh, hrest⟩ := List.nodup_cons.mp hnodup
          have htake := take_named (hfind field (by simp)) hkey (hnew field (by simp))
          simp only [List.foldlM_cons, htake, List.map_cons, fill, bind, Except.bind]
          cases field.update.value e.value with
          | error fault => rfl
          | ok update =>
              have hnew' : ∀ other ∈ fields, other.name ∉ field.name :: state.seen := by
                intro other hother hmem
                rcases List.mem_cons.mp hmem with heq | hseen
                · exact hfresh (List.mem_map.mpr ⟨other, hother, heq⟩)
                · exact hnew other (by simp [hother]) hseen
              have hfold := ih (fun other h => hfind other (by simp [h])) hrest htail
                ⟨update state.record, field.name :: state.seen⟩ hnew'
              simpa [Except.map] using hfold

/-- An object fills the first fields if its members are named for them and those that are required
are among them. -/
theorem ofEntries_eq_fill {schema : Schema σ} (hnodup : schema.names.Nodup) (blank : σ)
    {entries : List Entry}
    (hnames : entries.map (·.key.decoded) =
      (schema.names.take entries.length).map fun name => .ok name.toList)
    (hoptional : ∀ field ∈ schema.fields.drop entries.length, field.isRequired = false) :
    schema.ofEntries blank entries = fill blank schema.fields (entries.map (·.value)) := by
  have hnames' : entries.map (·.key.decoded) =
      (schema.fields.take entries.length).map fun field => .ok field.name.toList := by
    rw [hnames, names, ← List.map_take, List.map_map]
    rfl
  have hfold := foldlM_take_eq_fill (fun field h => find?_of_mem hnodup h) hnodup hnames'
    ⟨blank, []⟩ (by simp)
  have hmissing : schema.missing?
      (((schema.fields.take entries.length).map (·.name)).reverse ++ []) = none := by
    rw [missing?, List.find?_eq_none]
    intro field hfield
    rw [← List.take_append_drop entries.length schema.fields] at hfield
    rcases List.mem_append.mp hfield with hgiven | hleft
    · have hseen : field.name ∈
          ((schema.fields.take entries.length).map (·.name)).reverse ++ [] := by
        rw [List.append_nil, List.mem_reverse]
        exact List.mem_map.mpr ⟨field, hgiven, rfl⟩
      simp only [List.contains_iff_mem.mpr hseen, Bool.not_true, Bool.and_false,
        Bool.false_eq_true, not_false_eq_true]
    · simp [hoptional field hleft]
  rw [ofEntries, hfold]
  cases fill blank schema.fields (entries.map (·.value)) with
  | error fault => rfl
  | ok record => simp only [Except.map, bind, Except.bind, finish, hmissing]; rfl

end Schema

/-! ### Fields that are left out -/

section Keeping

variable {σ α β : Type}

/-- No value of the field changes what the projection shows. -/
def Field.Keeps (field : Field σ) (p : σ → β) : Prop :=
  ∀ value update, field.update.value value = .ok update → ∀ record, p (update record) = p record

theorem keeps_of {name : String} {isRequired : Bool} {r : Reader α} {set : α → σ → σ} {p : σ → β}
    (h : ∀ x record, p (set x record) = p record) : (Field.of name isRequired r set).Keeps p := by
  intro value update hupdate record
  obtain ⟨x, _, rfl⟩ := value_of hupdate
  exact h x record

theorem Schema.fill_keeps {p : σ → β} {fields : List (Field σ)} {values : List (List Char)}
    (hkeeps : ∀ field ∈ fields.take values.length, field.Keeps p) {record result : σ}
    (h : fill record fields values = .ok result) : p result = p record := by
  induction fields generalizing values record with
  | nil =>
      cases h
      rfl
  | cons field fields ih =>
      cases values with
      | nil =>
          cases h
          rfl
      | cons value values =>
          simp only [fill, bind, Except.bind] at h
          cases hupdate : field.update.value value with
          | error fault =>
              rw [hupdate] at h
              cases h
          | ok update =>
              rw [hupdate] at h
              have hrest := ih (fun other hother => hkeeps other (by simp [hother])) h
              rw [hrest, hkeeps field (by simp) value update hupdate]

end Keeping

/-! ### Records in general -/

section Records

variable {σ : Type} {schema : Schema σ}

theorem readAll_list (hframed : schema.Framed) (blank : σ) (l : WrittenList) :
    (record schema blank).readAll l.document.toList =
      schema.place 0 blank schema.fields l.values := by
  have hvalues : l.items.map (·.value) = l.values := List.map_map
  rw [WrittenList.document, String.toList_ofList, ← hvalues]
  exact (reads_list hframed blank l.gap l.isValue_of_mem).readAll l.before l.after

/-- What both forms come to. -/
theorem readAll_positional (hframed : schema.Framed) (hnodup : schema.names.Nodup) (blank : σ)
    {l : WrittenList} {o : WrittenObject} (h : Positional schema.names l o)
    (hoptional : ∀ field ∈ schema.fields.drop l.elements.length, field.isRequired = false) :
    (record schema blank).readAll l.document.toList = Schema.fill blank schema.fields l.values ∧
      (record schema blank).readAll o.document.toList =
        Schema.fill blank schema.fields l.values := by
  have hlength : o.entries.length = l.elements.length := by
    have hvalues := congrArg List.length h.values
    simpa [WrittenObject.entries, WrittenList.values] using hvalues
  have hle : l.values.length ≤ schema.fields.length := by
    have hnames := congrArg List.length h.names
    simp only [WrittenObject.entries, WrittenList.values, Schema.names, List.length_map,
      List.length_take] at hlength hnames ⊢
    omega
  have hnames : o.entries.map (·.key.decoded) =
      (schema.names.take o.entries.length).map fun name => .ok name.toList := by
    rw [hlength, ← h.names, WrittenObject.entries, List.map_map]
    rfl
  have hvalues : o.entries.map (·.value) = l.values := by
    rw [← h.values, WrittenObject.entries, List.map_map]
    rfl
  constructor
  · rw [readAll_list hframed]
    exact schema.place_eq_fill hle (by rwa [WrittenList.values, List.length_map]) 0 blank
  · rw [readAll_document hframed, ← hvalues]
    exact Schema.ofEntries_eq_fill hnodup blank hnames (by rwa [hlength])

end Records

/-! ### Wire times and accounts -/

/-- Both forms of a document come to the same if enough values are given, and the fields that they
leave out stay blank. -/
structure FormsAgree {α : Type} (known : List String) (least : Nat) (blankFrom : Nat → α → Prop)
    (read : String → Except Fault α) : Prop where
  agree : ∀ l o, Positional known l o → least ≤ l.elements.length →
    read l.document = read o.document
  blank : ∀ l o x, Positional known l o → least ≤ l.elements.length → read o.document = .ok x →
    blankFrom l.elements.length x

theorem nodup_wireTimeNames : wireTimeSchema.names.Nodup := by decide

theorem nodup_accountNames : accountSchema.names.Nodup := by decide

theorem isRequired_accountSchema : ∀ field ∈ accountSchema.fields, field.isRequired = false := by
  simp [accountSchema, Field.of]

theorem isRequired_drop_wireTimeSchema {given : Nat} (h : 1 ≤ given) :
    ∀ field ∈ wireTimeSchema.fields.drop given, field.isRequired = false := by
  intro field hfield
  have hnanos : field ∈ wireTimeSchema.fields.drop 1 :=
    List.drop_subset_drop_left wireTimeSchema.fields h hfield
  simp only [wireTimeSchema, List.drop_succ_cons, List.drop_zero, List.mem_singleton] at hnanos
  rw [hnanos]
  rfl

end Document

open Document

namespace WireTime

/-- The fields from a place on, counted from 0, are left out. Seconds never are. -/
structure BlankFrom (place : Nat) (w : WireTime) : Prop where
  nanos : place ≤ 1 → w.nanos = 0

theorem blankFrom_of_fill {values : List (List Char)} {w : WireTime}
    (h : Schema.fill ⟨0, 0⟩ wireTimeSchema.fields values = .ok w) : w.BlankFrom values.length where
  nanos hplace := by
    refine Schema.fill_keeps (p := fun w : WireTime => w.nanos) (fun field hfield => ?_) h
    have hseconds : field ∈ wireTimeSchema.fields.take 1 :=
      List.take_subset_take_left wireTimeSchema.fields hplace hfield
    simp only [wireTimeSchema, List.take_succ_cons, List.take_zero, List.mem_singleton] at hseconds
    rw [hseconds]
    exact keeps_of fun _ _ => rfl

end WireTime

namespace Account

/-- The fields from a place on, counted from 0, are those of a blank account. -/
structure BlankFrom (place : Nat) (a : Account) : Prop where
  id : place ≤ 0 → a.id = 0
  username : place ≤ 1 → a.username = ""
  nickname : place ≤ 2 → a.nickname = ""
  email : place ≤ 3 → a.email = ""
  phone : place ≤ 4 → a.phone = ""
  role : place ≤ 5 → a.role = .unspecified
  createdAt : place ≤ 6 → a.createdAt = none
  updatedAt : place ≤ 7 → a.updatedAt = none
  passwordExpiresAt : place ≤ 8 → a.passwordExpiresAt = none

theorem blankFrom_of_fill {values : List (List Char)} {a : Account}
    (h : Schema.fill {} accountSchema.fields values = .ok a) : a.BlankFrom values.length := by
  have hblank {β : Type} (p : Account → β) {place : Nat}
      (hkeeps : ∀ field ∈ accountSchema.fields.take place, field.Keeps p)
      (hplace : values.length ≤ place) : p a = p {} :=
    Schema.fill_keeps (fun field hfield =>
      hkeeps field (List.take_subset_take_left accountSchema.fields hplace hfield)) h
  constructor
  case id => exact hblank (·.id) (by simp)
  case username => exact hblank (·.username) (by simp [accountSchema, keeps_of])
  case nickname => exact hblank (·.nickname) (by simp [accountSchema, keeps_of])
  case email => exact hblank (·.email) (by simp [accountSchema, keeps_of])
  case phone => exact hblank (·.phone) (by simp [accountSchema, keeps_of])
  case role => exact hblank (·.role) (by simp [accountSchema, keeps_of])
  case createdAt => exact hblank (·.createdAt) (by simp [accountSchema, keeps_of])
  case updatedAt => exact hblank (·.updatedAt) (by simp [accountSchema, keeps_of])
  case passwordExpiresAt => exact hblank (·.passwordExpiresAt) (by simp [accountSchema, keeps_of])

end Account

namespace Document

/-- Lists and objects agree for accounts and for wire times, but for a wire time without any value,
which both refuse. -/
theorem formsAgree_documents :
    FormsAgree accountNames 0 Account.BlankFrom Account.ofDocument ∧
    FormsAgree wireTimeNames 1 WireTime.BlankFrom WireTime.ofDocument ∧
    (∀ l : WrittenList, l.elements = [] → WireTime.ofDocument l.document =
      .error (.invalidLength 0 "struct WireTimestamp with 2 elements")) ∧
    ∀ o : WrittenObject, o.members = [] →
      WireTime.ofDocument o.document = .error (.missingField "seconds") := by
  have haccount {l : WrittenList} {o : WrittenObject} (h : Positional accountNames l o) :=
    readAll_positional framed_accountSchema nodup_accountNames {} h
      fun field hfield => isRequired_accountSchema field (List.mem_of_mem_drop hfield)
  have hwire {l : WrittenList} {o : WrittenObject} (h : Positional wireTimeNames l o)
      (hleast : 1 ≤ l.elements.length) :=
    readAll_positional framed_wireTimeSchema nodup_wireTimeNames ⟨0, 0⟩ h
      (isRequired_drop_wireTimeSchema hleast)
  refine ⟨⟨?_, ?_⟩, ⟨?_, ?_⟩, ?_, ?_⟩
  · intro l o h _
    exact (haccount h).1.trans (haccount h).2.symm
  · intro l o a h _ hread
    have hblank := Account.blankFrom_of_fill ((haccount h).2.symm.trans hread)
    rwa [WrittenList.values, List.length_map] at hblank
  · intro l o h hleast
    exact (hwire h hleast).1.trans (hwire h hleast).2.symm
  · intro l o w h hleast hread
    have hblank := WireTime.blankFrom_of_fill ((hwire h hleast).2.symm.trans hread)
    rwa [WrittenList.values, List.length_map] at hblank
  · intro l h
    have hread := readAll_list framed_wireTimeSchema ⟨0, 0⟩ l
    rw [WrittenList.values, h] at hread
    exact hread
  · intro o h
    have hread := readAll_document framed_wireTimeSchema ⟨0, 0⟩ o
    rw [WrittenObject.entries, h] at hread
    exact hread

def Element.ofInt (n : Int) : Element := ⟨{ value := intText n }, isValue_intText n⟩

def Element.ofNull : Element := ⟨{ value := ['n', 'u', 'l', 'l'] }, .null⟩

/-- A wire time of seconds alone, and an account whose second value is no string. -/
theorem formsAgree_documents_shortened :
    WireTime.ofDocument "[2]" = .ok ⟨2, 0⟩ ∧
    WireTime.ofDocument "\x7b\"seconds\":2\x7d" = WireTime.ofDocument "[2]" ∧
    Account.ofDocument "[7,null]" = .error (.invalidType .null "a string") ∧
    Account.ofDocument "\x7b\"id\":7,\"username\":null\x7d" = Account.ofDocument "[7,null]" := by
  have hseconds : Positional wireTimeNames { elements := [.ofInt 2] }
      { members := [.ofInt "seconds" 2] } :=
    ⟨rfl, by simp [Member.ofInt, writtenEntry, wireTimeNames]⟩
  have husername : Positional accountNames { elements := [.ofInt 7, .ofNull] }
      { members := [.ofInt "id" 7, .ofNull "username"] } :=
    ⟨rfl, by simp [Member.ofInt, Member.ofNull, writtenEntry, accountNames]⟩
  have hwire := formsAgree_documents.2.1.agree _ _ hseconds (by decide)
  have haccount := formsAgree_documents.1.agree _ _ husername (by decide)
  refine ⟨?_, hwire.symm, ?_, haccount.symm⟩
  · exact (readAll_list framed_wireTimeSchema ⟨0, 0⟩ { elements := [.ofInt 2] }).trans rfl
  · exact (readAll_list framed_accountSchema {} { elements := [.ofInt 7, .ofNull] }).trans rfl

end Document

end AccountView
