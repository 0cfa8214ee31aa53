import Mathlib

/-! # Rings of slots

A ring has so many slots, and behind the last comes the first.  Elements are written at one end and
read at the other; as long as the ends do not meet, what is written leaves what is still to be read,
and what is read comes in the order in which it was written.
-/

namespace Ring

variable {α : Type*} {size read count other index : Nat} {slots : Nat → α} {element : α}

/-- The slot so many places behind another one. -/
def slot (size read count : Nat) : Nat := (read + count) % size

/-- The elements in so many slots, the first of them in this one. -/
def contents (slots : Nat → α) (size read : Nat) : (count : Nat) → List α
  | 0 => []
  | count + 1 => slots read :: contents slots size (slot size read 1) count

/-! ## Slots -/

theorem slot_lt (positive : 0 < size) : slot size read count < size := Nat.mod_lt _ positive

theorem slot_zero (inside : read < size) : slot size read 0 = read := Nat.mod_eq_of_lt inside

theorem slot_slot : slot size (slot size read count) other = slot size read (count + other) := by
  rw [slot, slot, slot, Nat.mod_add_mod, Nat.add_assoc]

/-- Two places less than a round apart are different slots. -/
theorem slot_inj (less : count < size) (otherLess : other < size)
    (same : slot size read count = slot size read other) : count = other := by
  have places : count ≡ other [MOD size] := Nat.ModEq.add_left_cancel' read same
  calc count = count % size := (Nat.mod_eq_of_lt less).symm
    _ = other % size := places
    _ = other := Nat.mod_eq_of_lt otherLess

/-- The first slot comes again after a whole round only. -/
theorem slot_eq_self_iff (inside : read < size) (most : count ≤ size) :
    slot size read count = read ↔ count = 0 ∨ count = size := by
  constructor
  · intro same
    rcases Nat.lt_or_eq_of_le most with less | round
    · exact Or.inl (slot_inj less (Nat.zero_lt_of_lt inside) (same.trans (slot_zero inside).symm))
    · exact Or.inr round
  · rintro (rfl | rfl)
    · exact slot_zero inside
    · rw [slot, Nat.add_mod_right, Nat.mod_eq_of_lt inside]

/-- The next slot, found by a comparison. -/
theorem slot_one_eq (inside : read < size) :
    slot size read 1 = if read + 1 < size then read + 1 else 0 := by
  split
  · next within => exact Nat.mod_eq_of_lt within
  · next wraps =>
      have last : read + 1 = size := by omega
      rw [slot, last, Nat.mod_self]

/-! ## Elements -/

@[simp] theorem length_contents : (contents slots size read count).length = count := by
  induction count generalizing read with
  | zero => rfl
  | succ count ih => exact congrArg (· + 1) ih

/-- The elements of some slots, and those behind them. -/
theorem contents_add (inside : read < size) :
    contents slots size read (count + other) =
      contents slots size read count ++ contents slots size (slot size read count) other := by
  induction count generalizing read with
  | zero =>
      rw [Nat.zero_add, slot_zero inside]
      rfl
  | succ count ih =>
      have positive : 0 < size := Nat.zero_lt_of_lt inside
      rw [Nat.succ_add, contents, contents, ih (slot_lt positive), slot_slot, Nat.add_comm 1,
        List.cons_append]

/-- The element behind the others comes last. -/
theorem contents_succ (inside : read < size) :
    contents slots size read (count + 1) =
      contents slots size read count ++ [slots (slot size read count)] := by
  rw [contents_add inside]
  rfl

/-- A write outside of some slots leaves their elements. -/
theorem contents_update (inside : read < size) (most : count ≤ size)
    (outside : ∀ place < count, slot size read place ≠ index) :
    contents (Function.update slots index element) size read count =
      contents slots size read count := by
  induction count with
  | zero => rfl
  | succ count ih =>
      rw [contents_succ inside, contents_succ inside,
        ih (Nat.le_of_succ_le most) fun place less => outside place (Nat.lt_succ_of_lt less),
        Function.update_of_ne (outside count (Nat.lt_succ_self count))]

/-- What is written behind the others is read behind them. -/
theorem contents_push (inside : read < size) (room : count < size) :
    contents (Function.update slots (slot size read count) element) size read (count + 1) =
      contents slots size read count ++ [element] := by
  rw [contents_succ inside, Function.update_self, contents_update inside room.le]
  intro place less same
  exact less.ne (slot_inj (less.trans room) room same)

end Ring
