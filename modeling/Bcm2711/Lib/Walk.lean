import Mathlib

/-! # Walks that may go round in circles

A loop moves from point to point, and at each point ends with a result or goes on from another
one.  Where it can only reach finitely many points, it ends exactly when no circle can be
reached from its start.
-/

namespace Walks

/-- What a loop does at a point. -/
inductive Turn (α ρ : Type*) where
  | ends (result : ρ)
  | goes (next : α)

variable {α ρ : Type*} {turn : α → Turn α ρ} {start point next : α} {result : ρ}

/-- Walk for at most so many turns. -/
def walk (turn : α → Turn α ρ) : Nat → α → Option ρ
  | 0, _ => none
  | turns + 1, point =>
      match turn point with
      | .ends result => some result
      | .goes next => walk turn turns next

theorem walk_succ (turn : α → Turn α ρ) (turns : Nat) (point : α) :
    walk turn (turns + 1) point =
      match turn point with
      | .ends result => some result
      | .goes next => walk turn turns next := rfl

/-- The walk returns. -/
def Returns (turn : α → Turn α ρ) (start : α) (result : ρ) : Prop :=
  ∃ turns, walk turn turns start = some result

/-- The walk goes on from one point to the other. -/
def Leads (turn : α → Turn α ρ) (point next : α) : Prop := turn point = .goes next

/-- A circle can be reached from the start. -/
def GoesRound (turn : α → Turn α ρ) (start : α) : Prop :=
  ∃ point, Relation.ReflTransGen (Leads turn) start point ∧
    Relation.TransGen (Leads turn) point point

theorem returns_of_ends (ends : turn start = .ends result) : Returns turn start result := by
  refine ⟨1, ?_⟩
  rw [walk_succ, ends]

theorem returns_of_goes (goes : turn start = .goes next) (rest : Returns turn next result) :
    Returns turn start result := by
  obtain ⟨turns, walked⟩ := rest
  refine ⟨turns + 1, ?_⟩
  rw [walk_succ, goes]
  exact walked

/-- A walk returns one result only. -/
theorem Returns.unique {other : ρ} (returns : Returns turn start result)
    (again : Returns turn start other) : result = other := by
  obtain ⟨turns, walked⟩ := returns
  obtain ⟨more, walkedAgain⟩ := again
  induction turns generalizing start more with
  | zero => cases walked
  | succ turns ih =>
      cases more with
      | zero => cases walkedAgain
      | succ more =>
          rw [walk_succ] at walked walkedAgain
          split at walked
          · next ends =>
              rw [ends] at walkedAgain
              exact Option.some.inj (walked.symm.trans walkedAgain)
          · next goes =>
              rw [goes] at walkedAgain
              exact ih walked more walkedAgain

/-- What every turn keeps holds of what a walk returns. -/
theorem Returns.kept {kept : α → Prop} {good : ρ → Prop} (returns : Returns turn start result)
    (goes : ∀ point next, kept point → turn point = .goes next → kept next)
    (ends : ∀ point result, kept point → turn point = .ends result → good result)
    (first : kept start) : good result := by
  obtain ⟨turns, walked⟩ := returns
  induction turns generalizing start with
  | zero => cases walked
  | succ turns ih =>
      rw [walk_succ] at walked
      split at walked
      · next last =>
          cases walked
          exact ends _ _ first last
      · next next step => exact ih (goes _ _ first step) walked

/-- What holds of every result that a turn ends with holds of what a walk returns. -/
theorem Returns.holds {good : ρ → Prop} (returns : Returns turn start result)
    (ends : ∀ point result, turn point = .ends result → good result) : good result :=
  @Returns.kept _ _ _ _ _ (fun _ => True) good returns (fun _ _ _ _ => trivial)
    (fun point result _ last => ends point result last) trivial

/-- A walk that goes on returns what the rest of it returns. -/
theorem Returns.of_goes (returns : Returns turn start result) (goes : turn start = .goes next) :
    Returns turn next result := by
  obtain ⟨turns, walked⟩ := returns
  cases turns with
  | zero => cases walked
  | succ turns =>
      rw [walk_succ, goes] at walked
      exact ⟨turns, walked⟩

/-- Two turns go on alike, or end with results that belong together. -/
inductive Agree {σ : Type*} (together : ρ → σ → Prop) : Turn α ρ → Turn α σ → Prop where
  | ends {result : ρ} {other : σ} (results : together result other) :
      Agree together (.ends result) (.ends other)
  | goes {next : α} : Agree together (.goes next) (.goes next)

/-- A loop that does the same in every turn returns too. -/
theorem Returns.of_agree {σ : Type*} {together : ρ → σ → Prop} {otherTurn : α → Turn α σ}
    (returns : Returns turn start result)
    (agree : ∀ point, Agree together (turn point) (otherTurn point)) :
    ∃ other, Returns otherTurn start other ∧ together result other := by
  obtain ⟨turns, walked⟩ := returns
  induction turns generalizing start with
  | zero => cases walked
  | succ turns ih =>
      have here := agree start
      rw [walk_succ] at walked
      cases step : turn start with
      | ends last =>
          rw [step] at walked here
          obtain rfl := Option.some.inj walked
          cases same : otherTurn start with
          | ends other =>
              rw [same] at here
              cases here with
              | ends results => exact ⟨other, returns_of_ends same, results⟩
          | goes next =>
              rw [same] at here
              cases here
      | goes next =>
          rw [step] at walked here
          obtain ⟨other, rest, results⟩ := ih walked
          cases same : otherTurn start with
          | ends other =>
              rw [same] at here
              cases here
          | goes next =>
              rw [same] at here
              cases here
              exact ⟨other, returns_of_goes same rest, results⟩

/-- A walk that returns does not go round. -/
theorem Returns.not_goesRound (returns : Returns turn start result) : ¬ GoesRound turn start := by
  obtain ⟨turns, walked⟩ := returns
  induction turns generalizing start with
  | zero => cases walked
  | succ turns ih =>
      rw [walk_succ] at walked
      rintro ⟨point, reached, circle⟩
      split at walked
      · next last =>
          have stuck : ∀ next, ¬ Leads turn start next := by
            intro next leads
            rw [Leads, last] at leads
            cases leads
          rcases reached.cases_head with rfl | ⟨next, leads, _⟩
          · obtain ⟨next, leads, _⟩ := Relation.TransGen.head'_iff.mp circle
            exact stuck next leads
          · exact stuck next leads
      · next second goes =>
          have only : ∀ next, Leads turn start next → next = second := by
            intro next leads
            rw [Leads, goes] at leads
            cases leads
            rfl
          refine ih walked ?_
          rcases reached.cases_head with rfl | ⟨next, leads, rest⟩
          · obtain ⟨next, leads, rest⟩ := Relation.TransGen.head'_iff.mp circle
            rw [only next leads] at rest
            exact ⟨start, rest, circle⟩
          · rw [only next leads] at rest
            exact ⟨point, rest, circle⟩

/-- A walk in a finite set that cannot reach a circle returns. -/
theorem returns_of_not_goesRound
    (finite : {point | Relation.ReflTransGen (Leads turn) start point}.Finite)
    (straight : ¬ GoesRound turn start) : ∃ result, Returns turn start result := by
  have : Finite {point // Relation.ReflTransGen (Leads turn) start point} := finite
  let later : {point // Relation.ReflTransGen (Leads turn) start point} →
      {point // Relation.ReflTransGen (Leads turn) start point} → Prop :=
    fun second first => Relation.TransGen (Leads turn) first.1 second.1
  have : IsTrans _ later := ⟨fun _ _ _ second first => first.trans second⟩
  have : Std.Irrefl later := ⟨fun point circle => straight ⟨point.1, point.2, circle⟩⟩
  have founded : WellFounded later := Finite.wellFounded_of_trans_of_irrefl later
  have every : ∀ point : {point // Relation.ReflTransGen (Leads turn) start point},
      ∃ result, Returns turn point.1 result := by
    intro point
    induction point using founded.induction with
    | _ point ih =>
        cases step : turn point.1 with
        | ends result => exact ⟨result, returns_of_ends step⟩
        | goes next =>
            have leads : Leads turn point.1 next := step
            obtain ⟨result, rest⟩ := ih ⟨next, point.2.tail leads⟩ (.single leads)
            exact ⟨result, returns_of_goes step rest⟩
  exact every ⟨start, .refl⟩

/-- A walk that goes on to finitely many points only returns exactly when it cannot go round. -/
theorem returns_iff (targets : Set α) (finite : targets.Finite)
    (leads : ∀ point next, Leads turn point next → next ∈ targets) :
    (∃ result, Returns turn start result) ↔ ¬ GoesRound turn start := by
  constructor
  · rintro ⟨result, returns⟩
    exact returns.not_goesRound
  · refine returns_of_not_goesRound ((finite.insert start).subset fun point reached => ?_)
    rcases reached.cases_tail with rfl | ⟨before, _, last⟩
    · exact Set.mem_insert _ _
    · exact Set.mem_insert_of_mem _ (leads before point last)

end Walks
