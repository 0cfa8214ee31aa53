import Bcm2711.Lib.Blocks

/-! # Walking a chain of records

Records of different lengths stand one behind the other, and each says how long it is.  A walk
goes from record to record until one says that the chain ends.
-/

namespace Chain

open Blocks

/-- The places a walk visits, and the place where the chain ends; nothing when the walk leaves
the memory it may read, or does not end within so many steps. -/
def walk (inside ends : Nat → Bool) (length : Nat → Nat) :
    (steps place : Nat) → Option (List Nat × Nat)
  | 0, _ => none
  | steps + 1, place =>
      if inside place then
        if ends place then some ([], place)
        else
          (walk inside ends length steps (place + length place)).map fun found =>
            (place :: found.1, found.2)
      else none

/-- Non-empty blocks are no more than the bytes they have. -/
theorem length_le_total {blocks : List Block} (nonempty : ∀ block ∈ blocks, 0 < block.size) :
    blocks.length ≤ total blocks := by
  induction blocks with
  | nil => exact le_refl 0
  | cons head rest ih =>
      have first := nonempty head List.mem_cons_self
      have others := ih fun block member => nonempty block (List.mem_cons_of_mem _ member)
      rw [List.length_cons, total_cons]
      omega

/-- A walk over blocks that say their sizes visits each of them and ends behind the last. -/
theorem walk_laid {inside ends : Nat → Bool} {length : Nat → Nat} {first steps : Nat}
    {blocks : List Block} (laid : Laid first blocks)
    (lengths : ∀ block ∈ blocks, length block.start = block.size)
    (readable : ∀ block ∈ blocks, inside block.start = true)
    (goesOn : ∀ block ∈ blocks, ends block.start = false)
    (stopReadable : inside (first + total blocks) = true)
    (stops : ends (first + total blocks) = true) (enough : blocks.length < steps) :
    walk inside ends length steps first = some (blocks.map Block.start, first + total blocks) := by
  induction blocks generalizing first steps with
  | nil =>
      obtain ⟨steps, rfl⟩ := Nat.exists_eq_succ_of_ne_zero (Nat.ne_of_gt enough)
      rw [total_nil, Nat.add_zero] at stopReadable stops
      rw [walk, if_pos stopReadable, if_pos stops]
      rfl
  | cons head rest ih =>
      obtain ⟨steps, rfl⟩ := Nat.exists_eq_succ_of_ne_zero (Nat.ne_of_gt (Nat.zero_lt_of_lt enough))
      have isFirst : head.start = first := laid.1
      have readableFirst := readable head List.mem_cons_self
      have goesOnFirst := goesOn head List.mem_cons_self
      have isLength := lengths head List.mem_cons_self
      rw [isFirst] at readableFirst goesOnFirst isLength
      rw [total_cons, ← Nat.add_assoc] at stopReadable stops
      have rest_walk := ih laid.2
        (fun block member => lengths block (List.mem_cons_of_mem _ member))
        (fun block member => readable block (List.mem_cons_of_mem _ member))
        (fun block member => goesOn block (List.mem_cons_of_mem _ member))
        stopReadable stops (Nat.lt_of_succ_lt_succ enough)
      rw [walk, if_pos readableFirst, if_neg (Bool.eq_false_iff.mp goesOnFirst), isLength,
        rest_walk, total_cons, ← Nat.add_assoc, List.map_cons, isFirst]
      rfl

end Chain
