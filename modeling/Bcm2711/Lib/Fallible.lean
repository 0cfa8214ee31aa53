import Mathlib.Logic.Basic

/-! # Computations that stop

A computation that may stop returns when each of its parts does.  What a computation that returned
has passed through is read off backwards, one part at a time.
-/

universe u v

namespace Fallible

variable {ε : Type u} {α β : Type v}

/-- A sequence returns just when the first part does and then the rest. -/
theorem bind_eq_ok {first : Except ε α} {next : α → Except ε β} {result : β} :
    (first >>= next) = .ok result ↔ ∃ value, first = .ok value ∧ next value = .ok result := by
  cases first with
  | error stop =>
      constructor
      · intro returned
        cases returned
      · rintro ⟨_, returned, _⟩
        cases returned
  | ok value =>
      constructor
      · exact fun returned => ⟨value, rfl, returned⟩
      · rintro ⟨_, same, returned⟩
        cases same
        exact returned

/-- A changed value is returned just when the value was. -/
theorem map_eq_ok {first : Except ε α} {change : α → β} {result : β} :
    first.map change = .ok result ↔ ∃ value, first = .ok value ∧ change value = result := by
  cases first with
  | error stop =>
      constructor
      · intro returned
        cases returned
      · rintro ⟨_, returned, _⟩
        cases returned
  | ok value =>
      constructor
      · exact fun returned => ⟨value, rfl, Except.ok.inj returned⟩
      · rintro ⟨_, same, rfl⟩
        cases same
        rfl

/-- A computation that is guarded returns just when it is not refused. -/
theorem guard_eq_ok {refused : Prop} [Decidable refused] {stop : ε} {rest : Except ε α}
    {result : α} :
    (if refused then .error stop else rest) = .ok result ↔ ¬ refused ∧ rest = .ok result := by
  by_cases given : refused
  · rw [if_pos given]
    constructor
    · intro returned
      cases returned
    · exact fun both => absurd given both.1
  · rw [if_neg given, and_iff_right given]

end Fallible
