import Mathlib

/-! # Runs of a component with calls

A component has a state and takes calls; a call that returns leads to a next state and
a value.  A *run* is a sequence of such calls from a start state, each of them allowed
where it was made, and its history lists the calls with the values they returned.
`Run.invariant` is the induction rule for what holds along every run, and
`Run.split` recovers the state in which an earlier call of the history was made.
-/

namespace Runs

/-- A call that returned, with the value it returned. -/
structure Event (ι ο : Type*) where
  call : ι
  returned : ο
deriving DecidableEq, Repr

variable {σ ι ο ε : Type*}

/-- The histories of runs and the states they lead to.  `allowed` says which calls may be
made in a state after a history. -/
inductive Run (step : σ → ι → Except ε (σ × ο)) (allowed : List (Event ι ο) → σ → ι → Prop)
    (start : σ) : List (Event ι ο) → σ → Prop
  | start : Run step allowed start [] start
  | next {history : List (Event ι ο)} {state after : σ} {call : ι} {returned : ο}
      (before : Run step allowed start history state) (isAllowed : allowed history state call)
      (stepped : step state call = .ok (after, returned)) :
      Run step allowed start (history ++ [⟨call, returned⟩]) after

variable {step : σ → ι → Except ε (σ × ο)} {allowed : List (Event ι ο) → σ → ι → Prop}
  {start : σ}

namespace Run

/-- What holds at the start and is kept by every allowed call holds along every run. -/
theorem invariant {inv : List (Event ι ο) → σ → Prop} (starts : inv [] start)
    (keeps : ∀ history state call after returned, inv history state →
      allowed history state call → step state call = .ok (after, returned) →
        inv (history ++ [⟨call, returned⟩]) after)
    {history : List (Event ι ο)} {state : σ} (run : Run step allowed start history state) :
    inv history state := by
  induction run with
  | start => exact starts
  | next _ isAllowed stepped ih => exact keeps _ _ _ _ _ ih isAllowed stepped

/-- Every event of a history was an allowed call in the state its prefix led to. -/
theorem split {before after : List (Event ι ο)} {event : Event ι ο} {state : σ}
    (run : Run step allowed start (before ++ event :: after) state) :
    ∃ pre post, Run step allowed start before pre ∧ allowed before pre event.call ∧
      step pre event.call = .ok (post, event.returned) := by
  induction after using List.reverseRecOn generalizing state with
  | nil =>
      generalize whole : before ++ [event] = history at run
      cases run with
      | start => cases before <;> cases whole
      | next ran isAllowed stepped =>
          obtain ⟨rfl, last⟩ := List.append_inj' whole rfl
          rw [List.singleton_inj.mp last]
          exact ⟨_, _, ran, isAllowed, stepped⟩
  | append_singleton rest last ih =>
      generalize whole : before ++ event :: (rest ++ [last]) = history at run
      cases run with
      | start => cases before <;> cases whole
      | next ran _ _ =>
          rw [← List.cons_append, ← List.append_assoc] at whole
          obtain ⟨rfl, _⟩ := List.append_inj' whole rfl
          exact ih ran

/-- What every call of a history meets, with the state it was made in and the one it led to. -/
def Every (step : σ → ι → Except ε (σ × ο)) (allowed : List (Event ι ο) → σ → ι → Prop) (start : σ)
    (history : List (Event ι ο)) (meets : σ → ι → σ → ο → Prop) : Prop :=
  ∀ earlier event later, history = earlier ++ event :: later → ∀ before after,
    Run step allowed start earlier before → allowed earlier before event.call →
      step before event.call = .ok (after, event.returned) →
        meets before event.call after event.returned

/-- Two conditions on a call that agree on the calls of runs agree on histories. -/
theorem every_congr {meets fulfils : σ → ι → σ → ο → Prop}
    (each : ∀ earlier before call after returned, Run step allowed start earlier before →
      allowed earlier before call → step before call = .ok (after, returned) →
        (meets before call after returned ↔ fulfils before call after returned))
    (history : List (Event ι ο)) :
    Every step allowed start history meets ↔ Every step allowed start history fulfils := by
  constructor
  · intro all earlier event later parts before after ran isAllowed stepped
    apply (each _ _ _ _ _ ran isAllowed stepped).mp
    exact all earlier event later parts before after ran isAllowed stepped
  · intro all earlier event later parts before after ran isAllowed stepped
    apply (each _ _ _ _ _ ran isAllowed stepped).mpr
    exact all earlier event later parts before after ran isAllowed stepped

/-- A call shows of the state it leads to what it would have shown at the start. -/
def Forgets {ρ : Type*} (step : σ → ι → Except ε (σ × ο)) (start : σ) (shows : σ → ρ) (state : σ)
    (call : ι) : Prop :=
  (step state call).map (fun result => shows result.1) =
    (step start call).map (fun result => shows result.1)

theorem forgets_iff_of_ok {ρ : Type*} {shows : σ → ρ} {state after fresh : σ} {call : ι}
    {returned first : ο} (later : step state call = .ok (after, returned))
    (atStart : step start call = .ok (fresh, first)) :
    Forgets step start shows state call ↔ shows after = shows fresh := by
  rw [Forgets, later, atStart]
  constructor
  · intro same
    exact Except.ok.inj same
  · intro same
    exact congrArg Except.ok same

theorem forgets_of_error {ρ : Type*} {shows : σ → ρ} {state : σ} {call : ι} {fault : ε}
    (later : step state call = .error fault) (atStart : step start call = .error fault) :
    Forgets step start shows state call := by
  rw [Forgets, later, atStart]

/-- Make these calls in turn, as long as each is allowed and returns. -/
def execute (step : σ → ι → Except ε (σ × ο)) (allowed : List (Event ι ο) → σ → ι → Prop)
    [∀ history state call, Decidable (allowed history state call)] :
    List (Event ι ο) → σ → List ι → Option (List (Event ι ο) × σ)
  | history, state, [] => some (history, state)
  | history, state, call :: calls =>
      if allowed history state call then
        match step state call with
        | .ok (after, returned) =>
            execute step allowed (history ++ [⟨call, returned⟩]) after calls
        | .error _ => none
      else none

/-- Calls made in turn extend a run. -/
theorem of_execute [∀ history state call, Decidable (allowed history state call)]
    {history final : List (Event ι ο)} {state last : σ} {calls : List ι}
    (run : Run step allowed start history state)
    (executed : execute step allowed history state calls = some (final, last)) :
    Run step allowed start final last := by
  induction calls generalizing history state with
  | nil =>
      cases executed
      exact run
  | cons call calls ih =>
      rw [execute] at executed
      split at executed
      · next isAllowed =>
          split at executed
          · next after returned stepped => exact ih (run.next isAllowed stepped) executed
          · cases executed
      · cases executed

end Run

end Runs
