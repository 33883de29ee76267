import AccountView.Document.Skipper
import AccountView.Document.Value

namespace AccountView

/-! Records: values of named fields, written as an object, in any order and among members of other
names, or as a list, in the order of the fields. Fields that are left out keep the value of a blank
record unless they are required. -/

namespace Document

/-- A field reads its value as an update of the record. -/
structure Field (σ : Type) where
  name : String
  isRequired : Bool
  update : Reader (σ → σ)

def Field.of {σ α : Type} (name : String) (isRequired : Bool) (value : Reader α)
    (set : α → σ → σ) : Field σ :=
  ⟨name, isRequired, value.map set⟩

structure Schema (σ : Type) where
  title : String
  fields : List (Field σ)

namespace Schema

variable {σ : Type}

def find? (schema : Schema σ) (name : String) : Option (Field σ) :=
  schema.fields.find? (·.name == name)

def lengthText (schema : Schema σ) : String :=
  schema.title ++ " with " ++ toString schema.fields.length ++ " elements"

/-! ### Records as lists -/

/-- The text of the next element, or nothing at the end of the list, which is not taken. -/
def nextElement (isFirst : Bool) (text : List Char) : Except Fault (Option (List Char)) :=
  match skipBlanks text with
  | [] => .error (.ended .list)
  | c :: rest =>
    if c = ']' then .ok none
    else if isFirst then .ok (some (c :: rest))
    else if c = ',' then
      match skipBlanks rest with
      | [] => .error (.ended .value)
      | d :: rest => if d = ']' then .error .trailingComma else .ok (some (d :: rest))
    else .error .expectedListCommaOrEnd

def closeList (text : List Char) : Except Fault (List Char) :=
  match skipBlanks text with
  | [] => .error (.ended .list)
  | c :: rest =>
    if c = ']' then .ok rest
    else if c = ',' ∧ (skipBlanks rest).head? = some ']' then .error .trailingComma
    else .error .trailingCharacters

def elements (schema : Schema σ) (index : Nat) (isFirst : Bool) (record : σ) :
    List (Field σ) → List Char → Except Fault (σ × List Char)
  | [], text => .ok (record, text)
  | field :: fields, text => do
    match ← nextElement isFirst text with
    | some text =>
      let (update, text) ← field.update.run text
      elements schema (index + 1) false (update record) fields text
    | none =>
      if field.isRequired then
        throw (.invalidLength index schema.lengthText)
      else
        elements schema (index + 1) isFirst record fields text

def readList (schema : Schema σ) (blank : σ) (text : List Char) : Except Fault (σ × List Char) := do
  let (record, text) ← schema.elements 0 true blank schema.fields text
  let text ← closeList text
  pure (record, text)

/-! ### Records as objects -/

/-- A record that is being read, and the names of the fields it has had. -/
structure Partial (σ : Type) where
  record : σ
  seen : List String

/-- The text after the quote that opens the next key, or nothing at the end of the object, which is
not taken. -/
def nextKey (isFirst : Bool) (text : List Char) : Except Fault (Option (List Char)) :=
  match skipBlanks text with
  | [] => .error (.ended .object)
  | c :: rest =>
    if c = '\x7d' then .ok none
    else if isFirst then
      if c = '"' then .ok (some rest) else .error .keyNotString
    else if c = ',' then
      match skipBlanks rest with
      | [] => .error (.ended .value)
      | d :: rest =>
        if d = '"' then .ok (some rest)
        else if d = '\x7d' then .error .trailingComma
        else .error .keyNotString
    else .error .expectedObjectCommaOrEnd

def colon (text : List Char) : Except Fault (List Char) :=
  match skipBlanks text with
  | [] => .error (.ended .object)
  | c :: rest => if c = ':' then .ok rest else .error .expectedColon

/-- A member from its key on, the opening quote being taken. A field may come once only, and a
member that is no field is skipped. -/
def member (schema : Schema σ) (state : Partial σ) (text : List Char) :
    Except Fault (Partial σ × List Char) := do
  let (key, text) ← Literal.body [] text
  match schema.find? (String.ofList key) with
  | some field =>
    if field.name ∈ state.seen then
      throw (.duplicateField field.name)
    else
      let text ← colon text
      let (update, text) ← field.update.run text
      pure (⟨update state.record, field.name :: state.seen⟩, text)
  | none =>
    let text ← colon text
    let (_, text) ← skip.run text
    pure (state, text)

def missing? (schema : Schema σ) (seen : List String) : Option (Field σ) :=
  schema.fields.find? fun field => field.isRequired && !seen.contains field.name

def closeObject (text : List Char) : Except Fault (List Char) :=
  match skipBlanks text with
  | [] => .error (.ended .object)
  | c :: rest =>
    if c = '\x7d' then .ok rest
    else if c = ',' then .error .trailingComma
    else .error .trailingCharacters

theorem nextKey_lt {isFirst : Bool} {text rest : List Char}
    (h : nextKey isFirst text = .ok (some rest)) : rest.length < text.length := by
  unfold nextKey at h
  split at h
  · simp at h
  rename_i c tail heq
  have hlt := skipBlanks_cons_le heq
  split at h
  · simp at h
  split at h
  · split at h
    · simp only [Except.ok.injEq, Option.some.injEq] at h
      exact h ▸ hlt
    · simp at h
  split at h
  · split at h
    · simp at h
    rename_i d tail' heq'
    have := skipBlanks_cons_le heq'
    split at h
    · simp only [Except.ok.injEq, Option.some.injEq] at h
      rw [← h]
      omega
    · split at h <;> simp at h
  · simp at h

theorem colon_le {text rest : List Char} (h : colon text = .ok rest) :
    rest.length ≤ text.length := by
  unfold colon at h
  split at h
  · simp at h
  rename_i c tail heq
  split at h
  · simp only [Except.ok.injEq] at h
    exact h ▸ Nat.le_of_lt (skipBlanks_cons_le heq)
  · simp at h

theorem member_le {schema : Schema σ} {state state' : Partial σ} {text rest : List Char}
    (h : schema.member state text = .ok (state', rest)) : rest.length ≤ text.length := by
  unfold member at h
  simp only [bind, Except.bind, pure, Except.pure, throw, throwThe, MonadExceptOf.throw] at h
  split at h
  · simp at h
  rename_i key hkey
  have := Literal.body_le hkey
  split at h
  · split at h
    · simp at h
    split at h
    · simp at h
    rename_i text' hcolon
    have := colon_le hcolon
    split at h
    · simp at h
    rename_i update hupdate
    have := Reader.le _ hupdate
    simp only [Except.ok.injEq, Prod.mk.injEq] at h
    rw [← h.2]
    omega
  · split at h
    · simp at h
    rename_i text' hcolon
    have := colon_le hcolon
    split at h
    · simp at h
    rename_i skipped hskip
    have := skip.le hskip
    simp only [Except.ok.injEq, Prod.mk.injEq] at h
    rw [← h.2]
    omega

def members (schema : Schema σ) (isFirst : Bool) (state : Partial σ) (text : List Char) :
    Except Fault (Partial σ × List Char) :=
  match _hkey : nextKey isFirst text with
  | .error e => .error e
  | .ok none => .ok (state, text)
  | .ok (some keyText) =>
    match _hmember : schema.member state keyText with
    | .error e => .error e
    | .ok (state, rest) => schema.members false state rest
termination_by text.length
decreasing_by exact Nat.lt_of_le_of_lt (member_le _hmember) (nextKey_lt _hkey)

def readObject (schema : Schema σ) (blank : σ) (text : List Char) :
    Except Fault (σ × List Char) := do
  let (state, text) ← schema.members true ⟨blank, []⟩ text
  match schema.missing? state.seen with
  | some field => throw (.missingField field.name)
  | none =>
    let text ← closeObject text
    pure (state.record, text)

def read (schema : Schema σ) (blank : σ) (text : List Char) : Except Fault (σ × List Char) :=
  match skipBlanks text with
  | [] => .error (.ended .value)
  | c :: rest =>
    if c = '[' then schema.readList blank rest
    else if c = '\x7b' then schema.readObject blank rest
    else .error (mismatch schema.title (c :: rest))

/-! No record gives back more than it was given. -/

theorem nextElement_le {isFirst : Bool} {text rest : List Char}
    (h : nextElement isFirst text = .ok (some rest)) : rest.length ≤ text.length := by
  unfold nextElement at h
  split at h
  · simp at h
  rename_i c tail heq
  have hlt := skipBlanks_cons_le heq
  split at h
  · simp at h
  split at h
  · simp only [Except.ok.injEq, Option.some.injEq] at h
    rw [← h, List.length_cons]
    omega
  split at h
  · split at h
    · simp at h
    rename_i d tail' heq'
    have := skipBlanks_cons_le heq'
    split at h
    · simp at h
    · simp only [Except.ok.injEq, Option.some.injEq] at h
      rw [← h, List.length_cons]
      omega
  · simp at h

theorem closeList_le {text rest : List Char} (h : closeList text = .ok rest) :
    rest.length ≤ text.length := by
  unfold closeList at h
  split at h
  · simp at h
  rename_i c tail heq
  split at h
  · simp only [Except.ok.injEq] at h
    exact h ▸ Nat.le_of_lt (skipBlanks_cons_le heq)
  · split at h <;> simp at h

theorem closeObject_le {text rest : List Char} (h : closeObject text = .ok rest) :
    rest.length ≤ text.length := by
  unfold closeObject at h
  split at h
  · simp at h
  rename_i c tail heq
  split at h
  · simp only [Except.ok.injEq] at h
    exact h ▸ Nat.le_of_lt (skipBlanks_cons_le heq)
  · split at h <;> simp at h

theorem elements_le {schema : Schema σ} {fields : List (Field σ)} {index : Nat} {isFirst : Bool}
    {record record' : σ} {text rest : List Char}
    (h : schema.elements index isFirst record fields text = .ok (record', rest)) :
    rest.length ≤ text.length := by
  induction fields generalizing index isFirst record text with
  | nil =>
    simp only [elements, Except.ok.injEq, Prod.mk.injEq] at h
    exact h.2 ▸ Nat.le_refl _
  | cons field fields ih =>
    simp only [elements, bind, Except.bind, throw, throwThe, MonadExceptOf.throw] at h
    split at h
    · simp at h
    rename_i next hnext
    split at h
    · rename_i text'
      have := nextElement_le hnext
      split at h
      · simp at h
      rename_i update hupdate
      have := field.update.le hupdate
      have := ih h
      omega
    · split at h
      · simp at h
      · exact ih h

theorem members_le {schema : Schema σ} {isFirst : Bool} {state state' : Partial σ}
    {text rest : List Char} (h : schema.members isFirst state text = .ok (state', rest)) :
    rest.length ≤ text.length := by
  fun_induction members schema isFirst state text with
  | case1 => simp at h
  | case2 =>
    simp only [Except.ok.injEq, Prod.mk.injEq] at h
    exact h.2 ▸ Nat.le_refl _
  | case3 => simp at h
  | case4 _ _ _ _ hkey _ _ hmember ih =>
    have := nextKey_lt hkey
    have := member_le hmember
    have := ih h
    omega

theorem read_le {schema : Schema σ} {blank record : σ} {text rest : List Char}
    (h : schema.read blank text = .ok (record, rest)) : rest.length ≤ text.length := by
  unfold read at h
  split at h
  · simp at h
  rename_i c tail heq
  have := skipBlanks_cons_le heq
  split at h
  · simp only [readList, bind, Except.bind, pure, Except.pure] at h
    split at h
    · simp at h
    rename_i state hstate
    split at h
    · simp at h
    rename_i text' hclose
    simp only [Except.ok.injEq, Prod.mk.injEq] at h
    have := elements_le hstate
    have := closeList_le hclose
    rw [← h.2]
    omega
  split at h
  · simp only [readObject, bind, Except.bind, pure, Except.pure, throw, throwThe,
      MonadExceptOf.throw] at h
    split at h
    · simp at h
    rename_i state hstate
    split at h
    · simp at h
    split at h
    · simp at h
    rename_i text' hclose
    simp only [Except.ok.injEq, Prod.mk.injEq] at h
    have := members_le hstate
    have := closeObject_le hclose
    rw [← h.2]
    omega
  · simp at h

end Schema

def record {σ : Type} (schema : Schema σ) (blank : σ) : Reader σ :=
  ⟨schema.read blank, Schema.read_le⟩

end Document

end AccountView
