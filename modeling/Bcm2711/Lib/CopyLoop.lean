import Bcm2711.Lib.Bytes

/-! # Copying loops

A block is copied piece by piece, from its front or from its end.  A piece is read as a whole
before it is written, but a later piece is read when the earlier ones have been written.  The loop
moves the block where it does not write over what it has yet to read.
-/

namespace CopyLoop

open Bytes

variable {memory : Memory} {dst src : Nat}

/-- Copy pieces of one width from the front on. -/
def ups (width : Nat) : (count : Nat) → Memory → (dst src : Nat) → Memory
  | 0, memory, _, _ => memory
  | count + 1, memory, dst, src =>
      ups width count (move memory dst src width) (dst + width) (src + width)

/-- Copy bytes from the end on. -/
def downs : (count : Nat) → Memory → (dst src : Nat) → Memory
  | 0, memory, _, _ => memory
  | count + 1, memory, dst, src =>
      downs count (Function.update memory (dst + count) (memory (src + count))) dst src

@[simp]
theorem move_zero (memory : Memory) (dst src : Nat) : move memory dst src 0 = memory := by
  funext address
  exact if_neg fun inside => absurd inside.1 (Nat.not_le.mpr inside.2)

/-- A block is moved in two parts, the front first. -/
theorem move_move {first rest : Nat} (clear : dst ≤ src ∨ src + (first + rest) ≤ dst) :
    move (move memory dst src first) (dst + first) (src + first) rest =
      move memory dst src (first + rest) := by
  funext address
  by_cases inFirst : dst ≤ address ∧ address < dst + first
  · obtain ⟨place, rfl⟩ := Nat.exists_eq_add_of_le inFirst.1
    rw [move_of_not_mem (Or.inl inFirst.2), move_of_mem (by omega), move_of_mem (by omega)]
  · by_cases inRest : dst + first ≤ address ∧ address < dst + first + rest
    · obtain ⟨place, rfl⟩ := Nat.exists_eq_add_of_le inRest.1
      have unwritten : src + first + place < dst ∨ dst + first ≤ src + first + place := by omega
      rw [move_of_mem (by omega), move_of_not_mem unwritten, Nat.add_assoc, Nat.add_assoc,
        move_of_mem (by omega)]
    · rw [move_of_not_mem (by omega), move_of_not_mem (by omega), move_of_not_mem (by omega)]

/-- From the front on, a block is moved downwards, or clear of itself. -/
theorem ups_eq_move {width count : Nat} (clear : dst ≤ src ∨ src + width * count ≤ dst) :
    ups width count memory dst src = move memory dst src (width * count) := by
  induction count generalizing memory dst src with
  | zero => rw [ups, Nat.mul_zero, move_zero]
  | succ count ih =>
      rw [Nat.mul_succ, Nat.add_comm (width * count) width] at clear ⊢
      rw [ups, ih (by omega), move_move clear]

/-- From the end on, a block is moved upwards, or clear of itself. -/
theorem downs_eq_move {count : Nat} (clear : src ≤ dst ∨ dst + count ≤ src) :
    downs count memory dst src = move memory dst src count := by
  induction count generalizing memory with
  | zero => rw [downs, move_zero]
  | succ count ih =>
      rw [downs, ih (by omega)]
      funext address
      by_cases inside : dst ≤ address ∧ address < dst + count
      · obtain ⟨place, rfl⟩ := Nat.exists_eq_add_of_le inside.1
        have unwritten : src + place ≠ dst + count := by omega
        rw [move_of_mem (by omega), move_of_mem (by omega), Function.update_of_ne unwritten]
      · rw [move_of_not_mem (by omega)]
        by_cases last : address = dst + count
        · rw [last, Function.update_self, move_of_mem (Nat.lt_succ_self count)]
        · rw [Function.update_of_ne last, move_of_not_mem (by omega)]

end CopyLoop
