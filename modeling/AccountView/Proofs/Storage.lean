import AccountView.Proofs.Document.Truncation
import AccountView.Storage

namespace AccountView

/-! Truncated files. Of a document that has lost its last bytes no account is loaded: either it has
lost whole characters and ends too soon, or what is left of it is not UTF-8. -/

/-- The first bytes of a text are UTF-8 just if they are those of its first characters. -/
theorem isValidUTF8_extract_iff {text : String} {n : Nat} (hn : n ≤ text.utf8ByteSize) :
    (text.toUTF8.extract 0 n).IsValidUTF8 ↔
      ∃ front rest, text = front ++ rest ∧ n = front.utf8ByteSize := by
  have hvalid : String.Pos.Raw.IsValid text ⟨n⟩ ↔ (text.toUTF8.extract 0 n).IsValidUTF8 := by
    rw [String.Pos.Raw.isValid_iff_isValidUTF8_extract_zero, and_iff_right]
    · rfl
    · exact hn
  rw [← hvalid, String.Pos.Raw.isValid_iff_exists_append]
  simp only [String.Pos.Raw.ext_iff, String.byteIdx_rawEndPos]

namespace Account

theorem ofBytes_toUTF8 (text : String) :
    ofBytes text.toUTF8 = (ofDocument text).mapError .refused := by
  have htext : String.fromUTF8? text.toUTF8 = some text := dif_pos text.isValidUTF8
  rw [ofBytes, htext]

theorem ofBytes_of_not_valid {bytes : ByteArray} (h : ¬ bytes.IsValidUTF8) :
    ofBytes bytes = .error (.unreadable .notUtf8) := by
  have htext : String.fromUTF8? bytes = none := dif_neg h
  rw [ofBytes, htext]

/-- The text of the file that an account is written to. -/
def fileText (a : Account) : String := String.ofList a.toDocument

/-- How many bytes of its file the first characters take. -/
def offset (a : Account) (k : Nat) : Nat := (String.ofList (a.toDocument.take k)).utf8ByteSize

def EndsTooSoon (outcome : Except LoadFailure Account) : Prop :=
  ∃ fault, outcome = .error (.refused fault) ∧ fault.category = .ended

theorem toDocument_eq_append {a : Account} {front rest : String} (h : a.fileText = front ++ rest) :
    a.toDocument = front.toList ++ rest.toList := by
  rw [← String.toList_append, ← h, fileText, String.toList_ofList]

theorem endsTooSoon_ofBytes {a : Account} {front rest : String} (h : a.fileText = front ++ rest)
    (hrest : rest ≠ "") : EndsTooSoon (ofBytes front.toUTF8) := by
  have hne : front.toList ≠ a.toDocument := by
    rw [toDocument_eq_append h]
    simpa using hrest
  obtain ⟨place, hplace⟩ := ended_ofDocument ⟨rest.toList, (toDocument_eq_append h).symm⟩ hne
  rw [String.ofList_toList] at hplace
  exact ⟨.ended place, by rw [ofBytes_toUTF8, hplace]; rfl, rfl⟩

/-- What becomes of a file that is cut to its first bytes. -/
structure CutTo (a : Account) (n : Nat) (outcome : Except LoadFailure Account) : Prop where
  fails : EndsTooSoon outcome ∨ outcome = .error (.unreadable .notUtf8)
  between : ∀ k, n = a.offset k → EndsTooSoon outcome
  inside : ∀ k, a.offset k < n → n < a.offset (k + 1) → outcome = .error (.unreadable .notUtf8)

theorem offset_mono (a : Account) {k m : Nat} (h : k ≤ m) : a.offset k ≤ a.offset m := by
  have htake : a.toDocument.take m = a.toDocument.take k ++ (a.toDocument.take m).drop k := by
    have hfront : (a.toDocument.take m).take k = a.toDocument.take k := by
      rw [List.take_take, Nat.min_eq_left h]
    rw [← hfront, List.take_append_drop]
  rw [offset, offset, htake, String.ofList_append, String.utf8ByteSize_append]
  exact Nat.le_add_right _ _

theorem offset_length {a : Account} {front rest : String} (h : a.fileText = front ++ rest) :
    a.offset front.toList.length = front.utf8ByteSize := by
  rw [offset, toDocument_eq_append h, List.take_left, String.ofList_toList]

theorem fileText_eq_append (a : Account) (k : Nat) : a.fileText =
    String.ofList (a.toDocument.take k) ++ String.ofList (a.toDocument.drop k) := by
  rw [fileText, ← String.ofList_append, List.take_append_drop]

theorem endsTooSoon_extract {a : Account} {n : Nat} {front rest : String}
    (h : a.fileText = front ++ rest) (hn : n = front.utf8ByteSize)
    (hlt : n < a.fileText.utf8ByteSize) :
    EndsTooSoon (ofBytes (a.fileText.toUTF8.extract 0 n)) := by
  have hbytes : a.fileText.toUTF8.extract 0 n = front.toUTF8 := by
    rw [h, hn]
    exact ByteArray.extract_append_eq_left rfl
  have hrest : rest ≠ "" := by
    rintro rfl
    rw [h, String.append_empty] at hlt
    omega
  rw [hbytes]
  exact endsTooSoon_ofBytes h hrest

theorem cutTo_ofBytes {a : Account} {n : Nat} (h : n < a.fileText.utf8ByteSize) :
    CutTo a n (ofBytes (a.fileText.toUTF8.extract 0 n)) := by
  have hvalid := isValidUTF8_extract_iff (Nat.le_of_lt h)
  constructor
  case fails =>
    by_cases hcut : (a.fileText.toUTF8.extract 0 n).IsValidUTF8
    · obtain ⟨front, rest, htext, hn⟩ := hvalid.mp hcut
      exact .inl (endsTooSoon_extract htext hn h)
    · exact .inr (ofBytes_of_not_valid hcut)
  case between => exact fun k hk => endsTooSoon_extract (a.fileText_eq_append k) hk h
  case inside =>
    intro k hlt hgt
    refine ofBytes_of_not_valid fun hcut => ?_
    obtain ⟨front, rest, htext, hn⟩ := hvalid.mp hcut
    rw [hn, ← offset_length htext] at hlt hgt
    -- No number of characters is more than one and less than the next.
    rcases Nat.lt_or_ge k front.toList.length with hmore | hle
    · exact absurd hgt (Nat.not_lt.mpr (a.offset_mono hmore))
    · exact absurd hlt (Nat.not_lt.mpr (a.offset_mono hle))

theorem cutTo_load {a : Account} {n : Nat} (h : n < a.fileText.utf8ByteSize) {storage : Storage}
    {path : String} (hfile : storage path = .ok (a.fileText.toUTF8.extract 0 n)) :
    CutTo a n (load storage path) := by
  have hload : load storage path = ofBytes (a.fileText.toUTF8.extract 0 n) := by
    rw [load, hfile]
    rfl
  rw [hload]
  exact cutTo_ofBytes h

def accented : Account where
  username := "é"

theorem cutTo_load_accented :
    21 < accented.fileText.utf8ByteSize ∧
    accented.offset 20 = 20 ∧ accented.offset 21 = 22 ∧
    EndsTooSoon (load (fun _ => .ok (accented.fileText.toUTF8.extract 0 20)) "account") ∧
    load (fun _ => .ok (accented.fileText.toUTF8.extract 0 21)) "account" =
      .error (.unreadable .notUtf8) := by
  have hfirst : accented.offset 20 = 20 := by decide
  have hsecond : accented.offset 21 = 22 := by decide
  have hsize : 21 < accented.fileText.utf8ByteSize := by decide
  refine ⟨hsize, hfirst, hsecond, ?_, ?_⟩
  · exact (cutTo_load (Nat.lt_of_succ_lt hsize) rfl).between 20 hfirst.symm
  · exact (cutTo_load hsize rfl).inside 20 (by decide) (by decide)

end Account

end AccountView
