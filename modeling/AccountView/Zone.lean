import AccountView.Instant

namespace AccountView

/-! Offsets are distances from UTC, in seconds east of it. A display zone has an offset at each
instant, and no law binds how it changes. -/

@[ext] structure Offset where
  seconds : Int
  neg_le : -93599 ≤ seconds
  le : seconds ≤ 93599
  deriving DecidableEq

namespace Offset

def utc : Offset := ⟨0, by decide, by decide⟩

instance : Inhabited Offset := ⟨utc⟩

def ofSeconds? (seconds : Int) : Option Offset :=
  if h : -93599 ≤ seconds ∧ seconds ≤ 93599 then some ⟨seconds, h.1, h.2⟩ else none

theorem ofSeconds?_eq_some_iff {seconds : Int} {offset : Offset} :
    ofSeconds? seconds = some offset ↔ offset.seconds = seconds := by
  unfold ofSeconds?
  split
  · rw [Option.some.injEq, Offset.ext_iff]
    exact eq_comm
  · rename_i h
    constructor
    · simp
    · intro heq
      exact absurd ⟨heq ▸ offset.neg_le, heq ▸ offset.le⟩ h

end Offset

structure Zone where
  offsetAt : Instant → Offset

namespace Zone

/-- A zone whose offset never changes. -/
def fixed (offset : Offset) : Zone := ⟨fun _ => offset⟩

def utc : Zone := fixed .utc

instance : Inhabited Zone := ⟨utc⟩

def ofSeconds? (seconds : Int) : Option Zone :=
  (Offset.ofSeconds? seconds).map fixed

end Zone

end AccountView
