import Mathlib

/-! # Words that are changed under a mask

A write under a mask takes the bits of the mask from the new word and the others from the old one.
Of several writes under one mask the last one counts.
-/

namespace Masks

variable {width : Nat} {mask old other first second : BitVec width}

/-- The new word under the mask, and the old one elsewhere. -/
def put (mask old new : BitVec width) : BitVec width := old &&& ~~~mask ||| new &&& mask

/-- A write leaves what is outside the mask. -/
theorem put_outside (mask old new : BitVec width) :
    put mask old new &&& ~~~mask = old &&& ~~~mask := by
  apply BitVec.eq_of_getElem_eq
  intro position inside
  simp only [put, BitVec.getElem_and, BitVec.getElem_or, BitVec.getElem_not]
  cases mask[position] <;> simp

/-- A write needs the old word outside the mask only. -/
theorem put_congr (outside : old &&& ~~~mask = other &&& ~~~mask) (new : BitVec width) :
    put mask old new = put mask other new := by
  rw [put, put, outside]

theorem put_put (mask old first second : BitVec width) :
    put mask (put mask old first) second = put mask old second :=
  put_congr (put_outside mask old first) second

/-- A new word inside the mask is put as it is. -/
theorem put_of_inside {new : BitVec width} (inside : new &&& mask = new) :
    put mask old new = old &&& ~~~mask ||| new := by
  rw [put, inside]

/-- Two words agree under a mask when they agree at its bits. -/
theorem and_eq_iff (mask first second : BitVec width) :
    first &&& mask = second &&& mask ↔
      ∀ position, mask.getLsbD position → first.getLsbD position = second.getLsbD position := by
  constructor
  · intro same position marked
    have bits := congrArg (fun word => word.getLsbD position) same
    rw [BitVec.getLsbD_and, BitVec.getLsbD_and, marked, Bool.and_true, Bool.and_true] at bits
    exact bits
  · intro same
    apply BitVec.eq_of_getLsbD_eq
    intro position _
    rw [BitVec.getLsbD_and, BitVec.getLsbD_and]
    by_cases marked : mask.getLsbD position = true
    · rw [same position marked]
    · rw [Bool.eq_false_iff.mpr marked, Bool.and_false, Bool.and_false]

end Masks
