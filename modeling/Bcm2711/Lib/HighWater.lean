import Mathlib

/-! # High-water marks

A level is raised to some marks and set to others, one after the other.  It reaches what a mark
reaches that no later one sets it back from.
-/

namespace HighWater

variable {α : Type*} [LinearOrder α]

/-- A mark: the level is raised to it if it is lower, or it is set to it. -/
inductive Mark (α : Type*) where
  | atLeast (level : α)
  | exactly (level : α)
deriving DecidableEq, Repr

/-- The level that a mark stands for. -/
def Mark.level : Mark α → α
  | .atLeast level | .exactly level => level

/-- A mark that lets the level be where it is higher. -/
def Mark.Raises : Mark α → Prop
  | .atLeast _ => True
  | .exactly _ => False

/-- The level behind a mark. -/
def Mark.apply (current : α) : Mark α → α
  | .atLeast level => if current < level then level else current
  | .exactly level => level

/-- The level behind some marks. -/
def behind (start : α) (marks : List (Mark α)) : α := marks.foldl Mark.apply start

/-- The start or some mark is as high, and no later mark sets the level. -/
def Reaches (start : α) (marks : List (Mark α)) (level : α) : Prop :=
  level ≤ start ∧ (∀ mark ∈ marks, mark.Raises) ∨
    ∃ before mark after, marks = before ++ mark :: after ∧ level ≤ mark.level ∧
      ∀ later ∈ after, later.Raises

variable {start level : α}

theorem le_apply_iff (mark : Mark α) :
    level ≤ mark.apply start ↔ level ≤ start ∧ mark.Raises ∨ level ≤ mark.level := by
  cases mark with
  | atLeast other =>
      change level ≤ (if start < other then other else start) ↔ level ≤ start ∧ True ∨ level ≤ other
      rw [and_true]
      split
      · next higher =>
        constructor
        · intro below
          exact .inr below
        · rintro (below | below)
          · exact below.trans higher.le
          · exact below
      · next lower =>
        constructor
        · intro below
          exact .inl below
        · rintro (below | below)
          · exact below
          · exact below.trans (not_lt.mp lower)
  | exactly other =>
      change level ≤ other ↔ level ≤ start ∧ False ∨ level ≤ other
      rw [and_false, false_or]

/-- The level behind the marks is as high as some mark that counts. -/
theorem le_behind_iff (start : α) (marks : List (Mark α)) (level : α) :
    level ≤ behind start marks ↔ Reaches start marks level := by
  induction marks generalizing start with
  | nil =>
      constructor
      · intro below
        exact .inl ⟨below, nofun⟩
      · rintro (⟨below, _⟩ | ⟨before, _, _, split, _⟩)
        · exact below
        · cases before <;> cases split
  | cons mark marks ih =>
      change level ≤ behind (mark.apply start) marks ↔ _
      rw [ih]
      constructor
      · rintro (⟨below, raise⟩ | ⟨before, reaching, after, rfl, below, later⟩)
        · rcases (le_apply_iff mark).mp below with ⟨atStart, raises⟩ | atMark
          · exact .inl ⟨atStart, List.forall_mem_cons.mpr ⟨raises, raise⟩⟩
          · exact .inr ⟨[], mark, marks, rfl, atMark, raise⟩
        · exact .inr ⟨mark :: before, reaching, after, rfl, below, later⟩
      · rintro (⟨below, raise⟩ | ⟨before, reaching, after, split, below, later⟩)
        · obtain ⟨raises, others⟩ := List.forall_mem_cons.mp raise
          exact .inl ⟨(le_apply_iff mark).mpr (.inl ⟨below, raises⟩), others⟩
        · cases before with
          | nil =>
              cases split
              exact .inl ⟨(le_apply_iff mark).mpr (.inr below), later⟩
          | cons first before =>
              cases split
              exact .inr ⟨before, reaching, after, rfl, below, later⟩

theorem behind_append (start : α) (first second : List (Mark α)) :
    behind start (first ++ second) = behind (behind start first) second :=
  List.foldl_append

end HighWater
