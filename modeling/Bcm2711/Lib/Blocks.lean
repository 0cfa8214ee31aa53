import Mathlib

/-! # Blocks laid one behind the other

A list of blocks is laid out from an address on when each block starts where the one before
it ends.  Such blocks are disjoint and fill the space up to their total size.
-/

namespace Blocks

/-- A block of memory. -/
structure Block where
  start : Nat
  size : Nat
deriving DecidableEq, Repr

/-- The addresses of a block. -/
def Block.range (block : Block) : Set Nat := Set.Ico block.start (block.start + block.size)

/-- The size of all blocks together. -/
def total (blocks : List Block) : Nat := (blocks.map Block.size).sum

/-- The blocks stand one behind the other from an address on. -/
def Laid : Nat → List Block → Prop
  | _, [] => True
  | first, block :: rest => block.start = first ∧ Laid (first + block.size) rest

@[simp] theorem total_nil : total [] = 0 := rfl

@[simp] theorem total_cons (block : Block) (blocks : List Block) :
    total (block :: blocks) = block.size + total blocks := rfl

theorem laid_append {first : Nat} {front back : List Block} :
    Laid first (front ++ back) ↔ Laid first front ∧ Laid (first + total front) back := by
  induction front generalizing first with
  | nil => simp [Laid]
  | cons block front ih =>
      rw [List.cons_append, Laid, Laid, ih, total_cons, and_assoc, Nat.add_assoc]

/-- Every block lies inside the space of all of them. -/
theorem Laid.inside {first : Nat} {blocks : List Block} (laid : Laid first blocks) {block : Block}
    (member : block ∈ blocks) :
    first ≤ block.start ∧ block.start + block.size ≤ first + total blocks := by
  induction blocks generalizing first with
  | nil => exact absurd member List.not_mem_nil
  | cons head rest ih =>
      rw [total_cons]
      rcases List.mem_cons.mp member with same | later
      · rw [same, laid.1]
        omega
      · obtain ⟨lower, upper⟩ := ih laid.2 later
        omega

/-- Each block ends before the ones behind it start. -/
theorem Laid.ordered {first : Nat} {blocks : List Block} (laid : Laid first blocks) :
    blocks.Pairwise fun one other => one.start + one.size ≤ other.start := by
  induction blocks generalizing first with
  | nil => exact List.Pairwise.nil
  | cons head rest ih =>
      refine List.Pairwise.cons (fun other member => ?_) (ih laid.2)
      rw [laid.1]
      exact (laid.2.inside member).1

/-- Two blocks are the same place, or beside each other. -/
theorem Laid.beside {first : Nat} {blocks : List Block} (laid : Laid first blocks)
    {one other : Block} (member : one ∈ blocks) (otherMember : other ∈ blocks) :
    one.start = other.start ∨ one.start + one.size ≤ other.start ∨
      other.start + other.size ≤ one.start := by
  have before := laid.ordered.imp (S := fun one other : Block => one.start = other.start ∨
    one.start + one.size ≤ other.start ∨ other.start + other.size ≤ one.start)
    fun before => .inr (.inl before)
  have behind := laid.ordered.imp (S := fun other one : Block => one.start = other.start ∨
    one.start + one.size ≤ other.start ∨ other.start + other.size ≤ one.start)
    fun before => .inr (.inr before)
  exact before.forall_of_forall_of_flip (fun _ _ => .inl rfl) behind member otherMember

theorem disjoint_of_before {one other : Block} (before : one.start + one.size ≤ other.start) :
    Disjoint one.range other.range := by
  rw [Set.disjoint_left]
  intro address inOne inOther
  exact absurd (inOne.2.trans_le (before.trans inOther.1)) (lt_irrefl address)

theorem Laid.disjoint {first : Nat} {blocks : List Block} (laid : Laid first blocks) :
    blocks.Pairwise fun one other => Disjoint one.range other.range :=
  laid.ordered.imp fun before => disjoint_of_before before

/-- The blocks stand in order, with gaps between them if need be. -/
def InOrder (blocks : List Block) : Prop :=
  blocks.Pairwise fun one other => one.start + one.size ≤ other.start

theorem inOrder_append_singleton {blocks : List Block} {block : Block} :
    InOrder (blocks ++ [block]) ↔
      InOrder blocks ∧ ∀ one ∈ blocks, one.start + one.size ≤ block.start := by
  simp [InOrder, List.pairwise_append]

theorem InOrder.disjoint {blocks : List Block} (ordered : InOrder blocks) :
    blocks.Pairwise fun one other => Disjoint one.range other.range :=
  ordered.imp fun before => disjoint_of_before before

/-- Blocks in order have no more room than the space they stand in. -/
theorem InOrder.total_le {first last : Nat} {blocks : List Block} (ordered : InOrder blocks)
    (space : first ≤ last)
    (inside : ∀ block ∈ blocks, first ≤ block.start ∧ block.start + block.size ≤ last) :
    first + total blocks ≤ last := by
  induction blocks generalizing first with
  | nil => exact space
  | cons head rest ih =>
      obtain ⟨before, ordered⟩ := List.pairwise_cons.mp ordered
      obtain ⟨lower, upper⟩ := inside head List.mem_cons_self
      have behind : head.start + head.size + total rest ≤ last := by
        apply ih ordered upper
        intro block member
        exact ⟨before block member, (inside block (List.mem_cons_of_mem _ member)).2⟩
      rw [total_cons]
      omega

/-- Blocks in order that fill the space they stand in are laid one behind the other. -/
theorem InOrder.laid {first : Nat} {blocks : List Block} (ordered : InOrder blocks)
    (inside : ∀ block ∈ blocks, first ≤ block.start ∧
      block.start + block.size ≤ first + total blocks) : Laid first blocks := by
  induction blocks generalizing first with
  | nil => exact trivial
  | cons head rest ih =>
      obtain ⟨before, ordered⟩ := List.pairwise_cons.mp ordered
      obtain ⟨lower, upper⟩ := inside head List.mem_cons_self
      have within : ∀ block ∈ rest, head.start + head.size ≤ block.start ∧
          block.start + block.size ≤ first + (head.size + total rest) := fun block member =>
        ⟨before block member, (inside block (List.mem_cons_of_mem _ member)).2⟩
      have behind := InOrder.total_le ordered upper within
      rw [total_cons] at behind
      have starts : head.start = first := by omega
      refine ⟨starts, ih ordered ?_⟩
      intro block member
      obtain ⟨low, high⟩ := within block member
      omega

theorem total_filter_pos (blocks : List Block) :
    total (blocks.filter fun block => 0 < block.size) = total blocks := by
  induction blocks with
  | nil => rfl
  | cons head rest ih =>
      rw [List.filter_cons]
      split
      · rw [total_cons, total_cons, ih]
      · next empty =>
          have zero : head.size = 0 := by simpa using empty
          rw [total_cons, ih, zero, Nat.zero_add]

@[simp] theorem total_append (front back : List Block) :
    total (front ++ back) = total front + total back := by
  simp [total]

end Blocks
