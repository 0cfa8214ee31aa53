import Mathlib

/-! # Systems of actions

Several parties act on one state; an action that is not possible in a state leads nowhere.
`Reaches` relates the states that allowed actions lead to, in any order;
`Reaches.invariant` is the induction rule for what every allowed action keeps, and
`reaches_of_perform` turns a list of actions that was carried out into reachability.
-/

namespace Actions

variable {σ α : Type*}

/-- Allowed actions lead from one state to another. -/
def Reaches (act : σ → α → Option σ) (allowed : σ → α → Prop) : σ → σ → Prop :=
  Relation.ReflTransGen fun state after =>
    ∃ action, allowed state action ∧ act state action = some after

/-- Every action is allowed. -/
def always (_ : σ) (_ : α) : Prop := True

variable {act : σ → α → Option σ} {allowed : σ → α → Prop} {start state after : σ}

namespace Reaches

theorem refl : Reaches act allowed start start := Relation.ReflTransGen.refl

/-- One more action. -/
theorem next (reached : Reaches act allowed start state) {action : α}
    (acted : act state action = some after) (isAllowed : allowed state action) :
    Reaches act allowed start after := reached.tail ⟨action, isAllowed, acted⟩

theorem trans (first : Reaches act allowed start state)
    (rest : Reaches act allowed state after) : Reaches act allowed start after :=
  Relation.ReflTransGen.trans first rest

/-- What holds at the start and is kept by every allowed action holds in every state
reached. -/
theorem invariant (reached : Reaches act allowed start state) (inv : σ → Prop)
    (starts : inv start)
    (keeps : ∀ state action after, inv state → allowed state action →
      act state action = some after → inv after) : inv state := by
  induction reached with
  | refl => exact starts
  | tail _ last ih =>
      obtain ⟨action, isAllowed, acted⟩ := last
      exact keeps _ _ _ ih isAllowed acted

end Reaches

/-- Allowed actions reach good states only, and an action that is not allowed can always be
continued to a state that is not good: no weaker condition on the actions would do. -/
def Exactly (act : σ → α → Option σ) (allowed : σ → α → Prop) (good : σ → Prop) (start : σ) :
    Prop :=
  (∀ state, Reaches act allowed start state → good state) ∧
    ∀ state action after, Reaches act allowed start state → act state action = some after →
      ¬ allowed state action → ∃ final, Reaches act always after final ∧ ¬ good final

/-- Carry out these actions in turn. -/
def perform (act : σ → α → Option σ) : σ → List α → Option σ
  | state, [] => some state
  | state, action :: actions => (act state action).bind fun after => perform act after actions

/-- Actions that were carried out lead to where they ended. -/
theorem reaches_of_perform {actions : List α}
    (performed : perform act start actions = some after) :
    Reaches act always start after := by
  induction actions generalizing start with
  | nil =>
      cases performed
      exact .refl
  | cons action actions ih =>
      obtain ⟨middle, acted, rest⟩ := Option.bind_eq_some_iff.mp performed
      exact (Reaches.refl.next acted trivial).trans (ih rest)

end Actions
