import Mathlib

/-! # Fields packed into words

A row of registers holds fields of one size, so many to a word.  A field that is written leaves the
others, and a word that is stored as a whole changes its own fields only.
-/

namespace Packed

/-- Fields of a size, so many to a word. -/
structure Layout (width : Nat) where
  size : Nat
  perWord : Nat
  positive : 0 < perWord
  fits : size * perWord ≤ width

namespace Layout

variable {width : Nat} (layout : Layout width)

/-- The lowest bit of a field in its word. -/
def shift (index : Nat) : Nat := layout.size * (index % layout.perWord)

/-- The bits of a field in its word. -/
def mask (index : Nat) : BitVec width :=
  (BitVec.allOnes layout.size).setWidth width <<< layout.shift index

/-- A field of its word. -/
def read (word : BitVec width) (index : Nat) : BitVec layout.size :=
  word.extractLsb' (layout.shift index) layout.size

/-- The word with a field changed. -/
def insert (word : BitVec width) (index : Nat) (value : BitVec layout.size) : BitVec width :=
  word &&& ~~~layout.mask index ||| value.setWidth width <<< layout.shift index

/-- A field of the registers. -/
def get (words : Nat → BitVec width) (index : Nat) : BitVec layout.size :=
  layout.read (words (index / layout.perWord)) index

/-- The registers with a field changed. -/
def set (words : Nat → BitVec width) (index : Nat) (value : BitVec layout.size) :
    Nat → BitVec width :=
  Function.update words (index / layout.perWord)
    (layout.insert (words (index / layout.perWord)) index value)

variable {index other bit : Nat} {word : BitVec width} {words : Nat → BitVec width}
  {value : BitVec layout.size}

/-- A field ends within its word. -/
theorem shift_add_le (index : Nat) : layout.shift index + layout.size ≤ width := by
  have place : index % layout.perWord + 1 ≤ layout.perWord :=
    Nat.mod_lt index layout.positive
  calc layout.shift index + layout.size = layout.size * (index % layout.perWord + 1) := by
        rw [shift, Nat.mul_succ]
    _ ≤ layout.size * layout.perWord := Nat.mul_le_mul_left _ place
    _ ≤ width := layout.fits

/-- Two fields of a word have no bit in common. -/
theorem outside_of_ne (different : other % layout.perWord ≠ index % layout.perWord)
    (inside : bit < layout.size) :
    ¬(layout.shift index ≤ layout.shift other + bit ∧
      layout.shift other + bit < layout.shift index + layout.size) := by
  rintro ⟨least, most⟩
  rw [shift, shift, ← Nat.mul_succ] at most
  rw [shift, shift] at least
  rcases Nat.lt_or_gt_of_ne different with before | behind
  · have whole := Nat.mul_le_mul_left layout.size before
    rw [Nat.mul_succ] at whole
    omega
  · have whole := Nat.mul_le_mul_left layout.size behind
    rw [Nat.mul_succ] at whole
    rw [Nat.mul_succ] at most
    omega

theorem getLsbD_read (word : BitVec width) (index bit : Nat) :
    (layout.read word index).getLsbD bit =
      (decide (bit < layout.size) && word.getLsbD (layout.shift index + bit)) := by
  rw [read, BitVec.getLsbD_extractLsb']

theorem getLsbD_mask (index bit : Nat) :
    (layout.mask index).getLsbD bit =
      decide (layout.shift index ≤ bit ∧ bit < layout.shift index + layout.size) := by
  have within := layout.shift_add_le index
  rw [mask, BitVec.getLsbD_shiftLeft, BitVec.getLsbD_setWidth, BitVec.getLsbD_allOnes]
  by_cases least : layout.shift index ≤ bit
  · by_cases most : bit < layout.shift index + layout.size
    · simp only [least, most, and_self, decide_true]
      simp only [Bool.and_eq_true, decide_eq_true_eq, Bool.not_eq_true', decide_eq_false_iff_not]
      omega
    · have beyond : ¬bit - layout.shift index < layout.size := by omega
      simp only [most, beyond, and_false, decide_false, Bool.and_false]
  · have before : bit < layout.shift index := Nat.lt_of_not_le least
    simp only [least, before, false_and, decide_false, decide_true, Bool.not_true, Bool.and_false,
      Bool.false_and]

/-- A changed word has the bits of the value in the field, and its own elsewhere. -/
theorem getLsbD_insert (word : BitVec width) (index : Nat) (value : BitVec layout.size)
    (within : bit < width) :
    (layout.insert word index value).getLsbD bit =
      if layout.shift index ≤ bit ∧ bit < layout.shift index + layout.size then
        value.getLsbD (bit - layout.shift index)
      else word.getLsbD bit := by
  rw [insert, BitVec.getLsbD_or, BitVec.getLsbD_and, BitVec.getLsbD_not, getLsbD_mask,
    BitVec.getLsbD_shiftLeft, BitVec.getLsbD_setWidth]
  split
  · next inside =>
      have less : bit - layout.shift index < width := by omega
      have least : ¬bit < layout.shift index := Nat.not_lt.mpr inside.1
      simp only [inside, and_self, decide_true, Bool.not_true, Bool.and_false, within, least, less,
        decide_false, Bool.not_false, Bool.true_and, Bool.false_or]
  · next outside =>
      have free : (decide (bit < width) && !decide (bit < layout.shift index) &&
          (decide (bit - layout.shift index < width) &&
            value.getLsbD (bit - layout.shift index))) = false := by
        by_cases before : bit < layout.shift index
        · simp only [before, decide_true, Bool.not_true, Bool.and_false, Bool.false_and]
        · have beyond : layout.size ≤ bit - layout.shift index := by omega
          rw [BitVec.getLsbD_of_ge value _ beyond, Bool.and_false, Bool.and_false]
      rw [free, Bool.or_false, decide_eq_false outside, Bool.not_false, Bool.and_true,
        decide_eq_true within, Bool.and_true]

theorem read_insert_self (word : BitVec width) (index : Nat) (value : BitVec layout.size) :
    layout.read (layout.insert word index value) index = value := by
  apply BitVec.eq_of_getLsbD_eq
  intro bit inside
  have within := layout.shift_add_le index
  have place : layout.shift index ≤ layout.shift index + bit ∧
      layout.shift index + bit < layout.shift index + layout.size := by omega
  rw [getLsbD_read, getLsbD_insert _ _ _ _ (by omega), if_pos place, Nat.add_sub_cancel_left,
    decide_eq_true inside, Bool.true_and]

theorem read_insert_of_ne (word : BitVec width) (value : BitVec layout.size)
    (different : other % layout.perWord ≠ index % layout.perWord) :
    layout.read (layout.insert word index value) other = layout.read word other := by
  apply BitVec.eq_of_getLsbD_eq
  intro bit inside
  have within := layout.shift_add_le other
  rw [getLsbD_read, getLsbD_read, getLsbD_insert _ _ _ _ (by omega),
    if_neg (layout.outside_of_ne different inside)]

/-- Words that are masked with the bits of a field. -/
theorem and_allOnes (word : BitVec width) (size : Nat) :
    word &&& (BitVec.allOnes size).setWidth width = (word.setWidth size).setWidth width := by
  apply BitVec.eq_of_getLsbD_eq
  intro bit inside
  simp only [BitVec.getLsbD_and, BitVec.getLsbD_setWidth, BitVec.getLsbD_allOnes, inside,
    decide_true, Bool.true_and]
  exact Bool.and_comm ..

/-- A field that is shifted down and masked. -/
theorem ushiftRight_and (word : BitVec width) (index : Nat) :
    word >>> layout.shift index &&& (BitVec.allOnes layout.size).setWidth width =
      (layout.read word index).setWidth width := by
  rw [and_allOnes]
  congr 1
  apply BitVec.eq_of_getLsbD_eq
  intro bit inside
  rw [BitVec.getLsbD_setWidth, BitVec.getLsbD_ushiftRight, getLsbD_read]

/-- A field that is written is read back. -/
theorem get_set_self (words : Nat → BitVec width) (index : Nat) (value : BitVec layout.size) :
    layout.get (layout.set words index value) index = value := by
  rw [get, set, Function.update_self, read_insert_self]

/-- A field that is written leaves the others. -/
theorem get_set_of_ne (words : Nat → BitVec width) (value : BitVec layout.size)
    (different : other ≠ index) :
    layout.get (layout.set words index value) other = layout.get words other := by
  rw [get, set, get]
  by_cases sameWord : other / layout.perWord = index / layout.perWord
  · have differentPlace : other % layout.perWord ≠ index % layout.perWord := by
      intro samePlace
      apply different
      rw [← Nat.div_add_mod other layout.perWord, ← Nat.div_add_mod index layout.perWord, sameWord,
        samePlace]
    rw [sameWord, Function.update_self, read_insert_of_ne _ _ _ differentPlace]
  · rw [Function.update_of_ne sameWord]

end Layout

end Packed
