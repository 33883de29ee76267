import AccountView.Proofs.Document.Changes
import AccountView.Proofs.Document.Writing

namespace AccountView

/-! What is read of an object does not depend on the order of its members or on members of other
names, and an object with two members of one known name is refused. -/

namespace Document

structure Member extends Entry where
  isValue : IsValue value

/-- An object as it is written, with the blanks around it and within it. -/
structure WrittenObject where
  before : Blanks := .none
  gap : Blanks := .none
  members : List Member
  after : Blanks := .none

namespace WrittenObject

def entries (o : WrittenObject) : List Entry := o.members.map Member.toEntry

def value (o : WrittenObject) : List Char := objectText o.gap o.entries

def document (o : WrittenObject) : String :=
  String.ofList (o.before.text ++ (o.value ++ o.after.text))

theorem isValue_of_mem {o : WrittenObject} : ∀ e ∈ o.entries, IsValue e.value := by
  intro e he
  obtain ⟨m, _, rfl⟩ := List.mem_map.mp he
  exact m.isValue

theorem isValue (o : WrittenObject) : IsValue o.value := .object o.gap o.entries isValue_of_mem

end WrittenObject

namespace Member

/-- What a member says, blanks aside. -/
def content (m : Member) : Quotable × List Char := (m.key, m.value)

def Named (m : Member) (name : String) : Prop := m.key.decoded = .ok name.toList

/-- The member that holds an object in place of the value of an entry. -/
def holding (e : Entry) (o : WrittenObject) : Member where
  before := e.before
  key := e.key
  beforeColon := e.beforeColon
  afterColon := o.before
  value := o.value
  after := o.after
  isValue := o.isValue

end Member

/-- Members in any order, with any blanks, among any number of members of other names. -/
def Rearranged (known : List String) (members others : List Member) : Prop :=
  ∃ extra, (∀ m ∈ extra, ∃ name, m.Named name ∧ name ∉ known) ∧
    (others.map Member.content).Perm ((members ++ extra).map Member.content)

structure MembersUnordered {α : Type} (known : List String)
    (read : WrittenObject → Except Fault α) : Prop where
  rearranged : ∀ o o', Rearranged known o.members o'.members →
    (read o').toOption = (read o).toOption
  twice : ∀ o, ∀ name ∈ known, ∀ a b : Member, a.Named name → b.Named name →
    [a, b].Sublist o.members → (read o).toOption = none

/-! ### Objects of one schema -/

namespace Schema

variable {σ : Type}

def names (schema : Schema σ) : List String := schema.fields.map (·.name)

def changes (schema : Schema σ) (members : List Member) : List (Change σ) :=
  members.map fun m => schema.change m.toEntry

theorem changes_perm {schema : Schema σ} {members others : List Member}
    (h : (others.map Member.content).Perm (members.map Member.content)) :
    (schema.changes others).Perm (schema.changes members) := by
  -- The change is a function of the content.
  obtain ⟨change, hchange⟩ : ∃ change : Quotable × List Char → Change σ,
      ∀ m : Member, schema.change m.toEntry = change m.content :=
    ⟨fun content => schema.change ⟨.none, content.1, .none, .none, content.2, .none⟩,
      fun _ => rfl⟩
  have hmap (members : List Member) :
      schema.changes members = (members.map Member.content).map change := by
    simp only [changes, List.map_map, hchange]
    rfl
  rw [hmap, hmap]
  exact h.map change

theorem changes_independent {schema : Schema σ} (h : schema.Independent) (members : List Member) :
    ∀ c ∈ schema.changes members, ∀ d ∈ schema.changes members, c.Independent d := by
  intro c hc d hd
  obtain ⟨m, _, rfl⟩ := List.mem_map.mp hc
  obtain ⟨m', _, rfl⟩ := List.mem_map.mp hd
  exact h.change m.toEntry m'.toEntry

theorem outcome_rearranged {schema : Schema σ} (h : schema.Independent) (blank : σ)
    {members others : List Member} (hmembers : Rearranged schema.names members others) :
    schema.outcome blank (schema.changes others) =
      schema.outcome blank (schema.changes members) := by
  obtain ⟨extra, hextra, hperm⟩ := hmembers
  have hignore : ∀ c ∈ schema.changes extra, c = .ignore := by
    intro c hc
    obtain ⟨m, hm, rfl⟩ := List.mem_map.mp hc
    obtain ⟨name, hname, hunknown⟩ := hextra m hm
    exact change_eq_ignore hname (by simpa [names] using hunknown)
  have happend : schema.changes (members ++ extra) =
      schema.changes members ++ schema.changes extra := List.map_append
  rw [outcome, Change.applyAll_perm (changes_perm hperm) (changes_independent h others), happend,
    Change.applyAll_append, Change.applyAll_ignore hignore]
  rfl

theorem outcome_twice {schema : Schema σ} (blank : σ) {name : String} (hname : name ∈ schema.names)
    {a b : Member} (ha : a.Named name) (hb : b.Named name) {members : List Member}
    (h : [a, b].Sublist members) : schema.outcome blank (schema.changes members) = none := by
  have hconcerns {m : Member} (hm : m.Named name) : (schema.change m.toEntry).Concerns name := by
    have := change_concerns hm (by simpa [names] using hname)
    simpa using this
  have hsublist : [schema.change a.toEntry, schema.change b.toEntry].Sublist
      (schema.changes members) := h.map fun m : Member => schema.change m.toEntry
  rw [outcome, Change.applyAll_twice hsublist (hconcerns ha) (hconcerns hb)]
  rfl

end Schema

section Records

variable {σ : Type} {schema : Schema σ}

theorem readAll_document (hframed : schema.Framed) (blank : σ) (o : WrittenObject) :
    (record schema blank).readAll o.document.toList = schema.ofEntries blank o.entries := by
  rw [WrittenObject.document, String.toList_ofList]
  exact (reads_object hframed blank o.gap o.isValue_of_mem).readAll o.before o.after

theorem toOption_readAll_document (hframed : schema.Framed) (blank : σ) (o : WrittenObject) :
    ((record schema blank).readAll o.document.toList).toOption =
      schema.outcome blank (schema.changes o.members) := by
  rw [readAll_document hframed, Schema.toOption_ofEntries]
  simp only [WrittenObject.entries, Schema.changes, List.map_map]
  rfl

theorem membersUnordered_record (hframed : schema.Framed) (h : schema.Independent) (blank : σ) :
    MembersUnordered schema.names
      fun o => (record schema blank).readAll o.document.toList where
  rearranged o o' hmembers := by
    rw [toOption_readAll_document hframed, toOption_readAll_document hframed]
    exact Schema.outcome_rearranged h blank hmembers
  twice o name hname a b ha hb hmem := by
    rw [toOption_readAll_document hframed]
    exact Schema.outcome_twice blank hname ha hb hmem

end Records

/-! ### Wire times and accounts -/

def Field.Commutes {σ : Type} (f g : Field σ) : Prop :=
  ∀ value value' update update', f.update.value value = .ok update →
    g.update.value value' = .ok update' → ∀ record,
      update (update' record) = update' (update record)

theorem value_of {σ α : Type} {name : String} {isRequired : Bool} {r : Reader α}
    {set : α → σ → σ} {value : List Char} {update : σ → σ}
    (h : (Field.of name isRequired r set).update.value value = .ok update) :
    ∃ x, r.value value = .ok x ∧ update = set x := by
  simp only [Field.of, Reader.value, Reader.run_map] at h ⊢
  cases hrun : r.run value with
  | error fault =>
      rw [hrun] at h
      cases h
  | ok p =>
      rw [hrun] at h
      cases h
      exact ⟨p.1, rfl, rfl⟩

theorem commutes_of {σ α β : Type} {name name' : String} {isRequired isRequired' : Bool}
    {r : Reader α} {r' : Reader β} {set : α → σ → σ} {set' : β → σ → σ}
    (h : ∀ x y record, set x (set' y record) = set' y (set x record)) :
    (Field.of name isRequired r set).Commutes (Field.of name' isRequired' r' set') := by
  intro value value' update update' hupdate hupdate' record
  obtain ⟨x, _, rfl⟩ := value_of hupdate
  obtain ⟨y, _, rfl⟩ := value_of hupdate'
  exact h x y record

theorem independent_of_pairwise {σ : Type} {schema : Schema σ}
    (h : schema.fields.Pairwise Field.Commutes) : schema.Independent := by
  have hne : schema.fields.Pairwise fun f g => f.name ≠ g.name → f.Commutes g := by
    apply h.imp
    intro f g hcommutes _
    exact hcommutes
  have hsymm : schema.fields.Pairwise (flip fun f g => f.name ≠ g.name → f.Commutes g) := by
    apply h.imp
    intro f g hcommutes _ value value' update update' hupdate hupdate' record
    exact (hcommutes value' value update' update hupdate' hupdate record).symm
  have hself : ∀ f ∈ schema.fields, f.name ≠ f.name → f.Commutes f :=
    fun _ _ hname => absurd rfl hname
  intro f hf g hg
  exact hne.forall_of_forall_of_flip hself hsymm hf hg

theorem independent_wireTimeSchema : wireTimeSchema.Independent := by
  apply independent_of_pairwise
  simp only [wireTimeSchema, List.pairwise_cons, List.forall_mem_cons, List.not_mem_nil,
    List.Pairwise.nil, false_implies, implies_true, and_true]
  exact commutes_of fun _ _ _ => rfl

theorem independent_accountSchema : accountSchema.Independent := by
  apply independent_of_pairwise
  simp only [accountSchema, List.pairwise_cons, List.forall_mem_cons, List.not_mem_nil,
    List.Pairwise.nil, false_implies, implies_true, and_true]
  and_intros <;> exact commutes_of fun _ _ _ => rfl

def wireTimeNames : List String := ["seconds", "nanos"]

def stampNames : List String := ["createdAt", "updatedAt", "passwordExpiresAt"]

def accountNames : List String :=
  ["id", "username", "nickname", "email", "phone", "role"] ++ stampNames

theorem find?_stamp {name : String} (h : name ∈ stampNames) : ∃ set : Stamp → Account → Account,
    accountSchema.find? name = some (.of name false (nullable wireTime) set) := by
  simp only [stampNames, List.mem_cons, List.not_mem_nil, or_false] at h
  rcases h with rfl | rfl | rfl
  · exact ⟨_, rfl⟩
  · exact ⟨_, rfl⟩
  · exact ⟨_, rfl⟩

theorem value_stamp (o : WrittenObject) :
    (nullable wireTime).value o.value = (wireTimeSchema.ofEntries ⟨0, 0⟩ o.entries).map some := by
  have hnull : o.value.head? ≠ some 'n' := by
    obtain ⟨rest, hrest⟩ :=
      exists_enclosed_eq_cons '\x7b' '\x7d' o.gap (o.entries.map Entry.text)
    simp [WrittenObject.value, objectText, hrest]
  have hreads := reads_object framed_wireTimeSchema ⟨0, 0⟩ o.gap o.isValue_of_mem
  exact (hreads.nullable o.isValue hnull).value_eq

/-- A nested object counts only by the wire time that is read of it, if any is. -/
theorem change_holding {e : Entry} {name : String} (hname : name ∈ stampNames)
    (hkey : e.key.decoded = .ok name.toList) :
    ∃ change : Option WireTime → Change Account, change none = .refuse ∧
      ∀ o, accountSchema.change (Member.holding e o).toEntry =
        change (wireTimeSchema.outcome ⟨0, 0⟩ (wireTimeSchema.changes o.members)) := by
  obtain ⟨set, hfind⟩ := find?_stamp hname
  refine ⟨fun w => w.elim .refuse fun w => .update name (set (some w)), rfl, fun o => ?_⟩
  have hvalue : (Field.of name false (nullable wireTime) set).update.value o.value =
      ((nullable wireTime).value o.value).map set :=
    (framed_stamp o.value o.isValue).map set |>.value_eq
  have houtcome := Schema.toOption_ofEntries wireTimeSchema ⟨0, 0⟩ o.entries
  have hchanges : o.entries.map wireTimeSchema.change = wireTimeSchema.changes o.members :=
    List.map_map
  rw [hchanges] at houtcome
  simp only [Schema.change, Member.holding, hkey, String.ofList_toList, hfind, hvalue,
    value_stamp, ← houtcome]
  cases wireTimeSchema.ofEntries ⟨0, 0⟩ o.entries <;> rfl

theorem membersUnordered_nested (outer : WrittenObject) (left right : List Member) {e : Entry}
    {name : String} (hname : name ∈ stampNames) (hkey : e.key.decoded = .ok name.toList) :
    MembersUnordered wireTimeNames fun o => Account.ofDocument
      { outer with members := left ++ Member.holding e o :: right : WrittenObject }.document := by
  obtain ⟨change, hnone, hchange⟩ := change_holding hname hkey
  have hread (o : WrittenObject) : (Account.ofDocument
      { outer with members := left ++ Member.holding e o :: right : WrittenObject }.document).toOption =
        accountSchema.outcome {} (accountSchema.changes left ++
          change (wireTimeSchema.outcome ⟨0, 0⟩ (wireTimeSchema.changes o.members)) ::
            accountSchema.changes right) := by
    rw [Account.ofDocument, account, toOption_readAll_document framed_accountSchema, ← hchange]
    simp only [Schema.changes, List.map_append, List.map_cons]
  constructor
  · intro o o' hmembers
    rw [hread, hread, Schema.outcome_rearranged independent_wireTimeSchema ⟨0, 0⟩ hmembers]
  · intro o name hname a b ha hb hmem
    have htwice : wireTimeSchema.outcome ⟨0, 0⟩ (wireTimeSchema.changes o.members) = none :=
      Schema.outcome_twice _ hname ha hb hmem
    rw [hread, htwice, hnone]
    simp [Schema.outcome]

/-- The order of members does not matter, members of other names do not matter, and no known member
may come twice, for accounts, for wire times and for wire times within accounts. -/
theorem membersUnordered_documents :
    MembersUnordered accountNames (fun o => Account.ofDocument o.document) ∧
    MembersUnordered wireTimeNames (fun o => WireTime.ofDocument o.document) ∧
    ∀ (outer : WrittenObject) (left right : List Member) (e : Entry), ∀ name ∈ stampNames,
      e.key.decoded = .ok name.toList →
        MembersUnordered wireTimeNames fun o => Account.ofDocument
          { outer with members := left ++ Member.holding e o :: right : WrittenObject }.document := by
  refine ⟨?_, ?_, ?_⟩
  · exact membersUnordered_record framed_accountSchema independent_accountSchema {}
  · exact membersUnordered_record framed_wireTimeSchema independent_wireTimeSchema ⟨0, 0⟩
  · intro outer left right e name hname hkey
    exact membersUnordered_nested outer left right hname hkey

def Member.ofInt (name : String) (n : Int) : Member :=
  ⟨writtenEntry name (intText n), isValue_intText n⟩

def Member.ofNull (name : String) : Member := ⟨writtenEntry name ['n', 'u', 'l', 'l'], .null⟩

theorem membersUnordered_documents_createdAt :
    (Account.ofDocument "\x7b\"createdAt\":\x7b\"nanos\":1,\"zone\":null,\"seconds\":2\x7d\x7d"
      ).toOption = some { createdAt := some ⟨2, 1⟩ } ∧
    (Account.ofDocument "\x7b\"createdAt\":\x7b\"seconds\":2,\"seconds\":2\x7d\x7d"
      ).toOption = none := by
  have hunordered := membersUnordered_documents.2.2 { members := [] } [] []
    (writtenEntry "createdAt" []) "createdAt" (by decide) (Quotable.decoded_ofText _)
  have hnamed (n : Int) : (Member.ofInt "seconds" n).Named "seconds" := Quotable.decoded_ofText _
  have hunknown : ∀ m ∈ [Member.ofNull "zone"], ∃ name, m.Named name ∧ name ∉ wireTimeNames := by
    intro m hm
    rw [List.mem_singleton.mp hm]
    exact ⟨"zone", Quotable.decoded_ofText _, by decide⟩
  have hrearranged := hunordered.rearranged
    { members := [.ofInt "seconds" 2, .ofInt "nanos" 1] }
    { members := [.ofInt "nanos" 1, .ofNull "zone", .ofInt "seconds" 2] }
    ⟨[.ofNull "zone"], hunknown, by decide⟩
  have htwice := hunordered.twice { members := [.ofInt "seconds" 2, .ofInt "seconds" 2] }
    "seconds" (by decide) _ _ (hnamed 2) (hnamed 2) (List.Sublist.refl _)
  have hstamp := readAll_document framed_accountSchema {}
    { members := [.holding (writtenEntry "createdAt" [])
        { members := [.ofInt "seconds" 2, .ofInt "nanos" 1] }] }
  have hread : accountSchema.completed ⟨{}, []⟩
      (Account.stampEntries "createdAt" (some ⟨2, 1⟩) ++ []) =
        .ok { createdAt := some ⟨2, 1⟩ } := (Account.completed_stamp rfl (by simp) rfl).trans rfl
  exact ⟨hrearranged.trans (congrArg Except.toOption (hstamp.trans hread)), htwice⟩

end Document

end AccountView
