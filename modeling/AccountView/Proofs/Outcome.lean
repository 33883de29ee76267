namespace AccountView

/-! Steps that may be refused, one after the other: the whole goes through if each step does. -/

variable {ε α β : Type}

theorem bind_eq_ok_iff {outcome : Except ε α} {f : α → Except ε β} {y : β} :
    (outcome >>= f) = .ok y ↔ ∃ x, outcome = .ok x ∧ f x = .ok y := by
  cases outcome with
  | error fault => exact ⟨nofun, nofun⟩
  | ok x => exact ⟨fun h => ⟨x, rfl, h⟩, by rintro ⟨_, ⟨rfl⟩, h⟩; exact h⟩

theorem exists_of_bind_eq_ok {outcome : Except ε α} {f : α → Except ε β} {y : β}
    (h : (outcome >>= f) = .ok y) : ∃ x, outcome = .ok x ∧ f x = .ok y :=
  bind_eq_ok_iff.mp h

theorem not_exists_ok {fault : ε} : ¬ ∃ x : α, (.error fault : Except ε α) = .ok x := by
  rintro ⟨x, h⟩
  contradiction

theorem eq_ok_of_toOption {outcome : Except ε α} {x : α} (h : outcome.toOption = some x) :
    outcome = .ok x := by
  cases outcome with
  | error fault => contradiction
  | ok y => exact congrArg Except.ok (Option.some.inj h)

theorem toOption_bind (outcome : Except ε α) (f : α → Except ε β) :
    (outcome >>= f).toOption = outcome.toOption.bind fun x => (f x).toOption := by
  cases outcome <;> rfl

end AccountView
