import Mathlib

/-! # Linked lists with a pointer to the last link

Cells are linked through a field of their own, and one pointer says where the next cell is to
be linked in: at the head of the list or in the last cell.  Pushed cells are visited in the
order they were pushed.
-/

namespace Links

variable {α : Type*}

/-- Following the links from one of them visits these cells and ends. -/
def Visits (next : α → Option α) : Option α → List α → Prop
  | link, [] => link = none
  | link, cell :: rest => link = some cell ∧ Visits next (next cell) rest

/-- The head of a list, the links of the cells, and the cell whose link is the last one; the
head is the last link while no cell is. -/
structure Queue (α : Type*) where
  head : Option α
  next : α → Option α
  owner : Option α

/-- The cells of a list, and which link is its last. -/
structure Queue.Holds (queue : Queue α) (cells : List α) : Prop where
  visits : Visits queue.next queue.head cells
  owner : queue.owner = cells.getLast?
  nodup : cells.Nodup

/-- Follow the links for so many cells at most. -/
def walk (next : α → Option α) : (fuel : Nat) → Option α → Option (List α)
  | 0, _ => none
  | _ + 1, none => some []
  | fuel + 1, some cell => (walk next fuel (next cell)).map (cell :: ·)

theorem walk_eq {next : α → Option α} {link : Option α} {cells : List α} {fuel : Nat}
    (visits : Visits next link cells) (enough : cells.length < fuel) :
    walk next fuel link = some cells := by
  induction cells generalizing link fuel with
  | nil =>
      obtain ⟨fuel, rfl⟩ := Nat.exists_eq_succ_of_ne_zero (Nat.ne_zero_of_lt enough)
      have isEnd : link = none := visits
      rw [isEnd, walk]
  | cons cell rest ih =>
      obtain ⟨fuel, rfl⟩ := Nat.exists_eq_succ_of_ne_zero (Nat.ne_zero_of_lt enough)
      rw [visits.1, walk, ih visits.2 (Nat.lt_of_succ_lt_succ enough)]
      rfl

/-- Links of other cells do not matter. -/
theorem Visits.congr {next other : α → Option α} {link : Option α} {cells : List α}
    (visits : Visits next link cells) (same : ∀ cell ∈ cells, other cell = next cell) :
    Visits other link cells := by
  induction cells generalizing link with
  | nil => exact visits
  | cons cell rest ih =>
      refine ⟨visits.1, ?_⟩
      rw [same cell List.mem_cons_self]
      exact ih visits.2 fun later member => same later (List.mem_cons_of_mem _ member)

section Push

variable [DecidableEq α]

/-- Link a cell in at the last link, and make its own link the last one. -/
def Queue.push (queue : Queue α) (cell : α) : Queue α :=
  let linked : Queue α :=
    match queue.owner with
    | none => { queue with head := some cell }
    | some last => { queue with next := Function.update queue.next last (some cell) }
  { linked with next := Function.update linked.next cell none, owner := some cell }

/-- A cell linked in behind the last one is visited last. -/
theorem Visits.push {next : α → Option α} {link : Option α} {cells : List α} {last cell : α}
    (visits : Visits next link (cells ++ [last])) (nodup : (cells ++ [last]).Nodup)
    (isNew : cell ∉ cells ++ [last]) :
    Visits (Function.update (Function.update next last (some cell)) cell none) link
      (cells ++ [last] ++ [cell]) := by
  induction cells generalizing link with
  | nil =>
      have different : last ≠ cell := fun same => isNew (List.mem_singleton.mpr same.symm)
      refine ⟨visits.1, ?_, ?_⟩
      · rw [Function.update_of_ne different, Function.update_self]
      · exact Function.update_self _ _ _
  | cons first rest ih =>
      rw [List.cons_append, List.mem_cons, not_or] at isNew
      rw [List.cons_append, List.nodup_cons] at nodup
      have notLast : first ≠ last := fun same => nodup.1
        (same ▸ List.mem_append_right _ (List.mem_singleton.mpr rfl))
      refine ⟨visits.1, ?_⟩
      rw [Function.update_of_ne (Ne.symm isNew.1), Function.update_of_ne notLast]
      exact ih visits.2 nodup.2 isNew.2

/-- A pushed cell stands behind the others. -/
theorem Queue.Holds.push {queue : Queue α} {cells : List α} {cell : α}
    (holds : queue.Holds cells) (isNew : cell ∉ cells) :
    (queue.push cell).Holds (cells ++ [cell]) := by
  have owner := holds.owner
  rcases List.eq_nil_or_concat' cells with isEmpty | ⟨front, last, isConcat⟩
  · rw [isEmpty, List.getLast?_nil] at owner
    rw [isEmpty, Queue.push, owner]
    exact ⟨⟨rfl, Function.update_self _ _ _⟩, rfl, List.nodup_singleton cell⟩
  · rw [isConcat, List.getLast?_concat] at owner
    have visits := holds.visits
    have nodup := holds.nodup
    rw [isConcat] at visits nodup isNew
    rw [isConcat, Queue.push, owner]
    refine ⟨visits.push nodup isNew, by rw [List.getLast?_concat], ?_⟩
    rw [← List.concat_eq_append, List.nodup_concat]
    exact ⟨isNew, nodup⟩

end Push

end Links
