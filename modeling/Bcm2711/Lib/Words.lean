import Mathlib.Data.Nat.Bitwise

/-! # A number that a row of words writes

The first word is the highest one.  A field of the number that is no longer than a word lies in
one word, or at the end of one word and the start of the word before it.
-/

namespace Words

/-- The number of a row of words. -/
def number (width : Nat) : List Nat → Nat
  | [] => 0
  | word :: words => word * 2 ^ (width * words.length) + number width words

/-- Every word has the width. -/
def Fits (width : Nat) (words : List Nat) : Prop := ∀ word ∈ words, word < 2 ^ width

variable {width : Nat} {words : List Nat}

theorem number_lt (fits : Fits width words) : number width words < 2 ^ (width * words.length) := by
  induction words with
  | nil => exact Nat.two_pow_pos _
  | cons word words ih =>
      obtain ⟨first, others⟩ := List.forall_mem_cons.mp fits
      have rest := ih others
      calc
        word * 2 ^ (width * words.length) + number width words
            < word * 2 ^ (width * words.length) + 2 ^ (width * words.length) :=
          Nat.add_lt_add_left rest _
        _ = (word + 1) * 2 ^ (width * words.length) := (Nat.succ_mul _ _).symm
        _ ≤ 2 ^ width * 2 ^ (width * words.length) := Nat.mul_le_mul_right _ first
        _ = 2 ^ (width * (words.length + 1)) := by rw [← Nat.pow_add, Nat.mul_succ, Nat.add_comm]

/-- A bit of the number is one of the words. -/
theorem testBit_number (fits : Fits width words) {index bit : Nat} (within : index < words.length)
    (inWord : bit < width) :
    (number width words).testBit (width * (words.length - 1 - index) + bit) =
      (words.getD index 0).testBit bit := by
  induction words generalizing index with
  | nil => exact absurd within (Nat.not_lt_zero index)
  | cons word words ih =>
      obtain ⟨-, others⟩ := List.forall_mem_cons.mp fits
      have rest := number_lt others
      have place : number width (word :: words) =
          2 ^ (width * words.length) * word + number width words := by
        rw [number, Nat.mul_comm]
      rw [place, List.length_cons, Nat.add_sub_cancel]
      cases index with
      | zero =>
          rw [Nat.sub_zero, Nat.testBit_two_pow_mul_add _ rest, if_neg, Nat.add_sub_cancel_left]
          · rfl
          · exact Nat.not_lt.mpr (Nat.le_add_right _ _)
      | succ index =>
          have before : index < words.length := Nat.lt_of_succ_lt_succ within
          have position : words.length - (index + 1) = words.length - 1 - index := by omega
          have low : width * (words.length - 1 - index) + bit < width * words.length := by
            calc
              width * (words.length - 1 - index) + bit
                  < width * (words.length - 1 - index) + width := Nat.add_lt_add_left inWord _
              _ = width * (words.length - 1 - index + 1) := rfl
              _ ≤ width * words.length := Nat.mul_le_mul_left _ (by omega)
          rw [position, Nat.testBit_two_pow_mul_add _ rest, if_pos low, ih others before]
          rfl

/-- The field of a number, by its lowest bit and its size. -/
def field (number start size : Nat) : Nat := number / 2 ^ start % 2 ^ size

theorem field_lt (number start size : Nat) : field number start size < 2 ^ size :=
  Nat.mod_lt _ (Nat.two_pow_pos size)

theorem testBit_field (number start size bit : Nat) :
    (field number start size).testBit bit =
      (decide (bit < size) && number.testBit (start + bit)) := by
  rw [field, Nat.testBit_mod_two_pow, Nat.testBit_div_two_pow, Nat.add_comm]

theorem field_or (first second start size : Nat) :
    field (first ||| second) start size = field first start size ||| field second start size := by
  rw [field, Nat.or_div_two_pow, Nat.or_mod_two_pow]
  rfl

theorem field_and (first second start size : Nat) :
    field (first &&& second) start size = field first start size &&& field second start size := by
  rw [field, Nat.and_div_two_pow, Nat.and_mod_two_pow]
  rfl

/-- The word at an index, shifted down, and the word before it where the field does not end in
the first. -/
def window (width : Nat) (words : List Nat) (index shift size : Nat) : Nat :=
  let value := words.getD index 0 >>> shift
  let value :=
    if width < size + shift then
      value ||| (words.getD (index - 1) 0 <<< (width - shift)) % 2 ^ width
    else value
  value % 2 ^ size

/-- The window is the field. -/
theorem window_eq_field (fits : Fits width words) {index shift size : Nat}
    (within : index < words.length) (inWord : shift < width) (short : size ≤ width)
    (inRow : size + shift ≤ width * (index + 1)) :
    window width words index shift size =
      field (number width words) (width * (words.length - 1 - index) + shift) size := by
  apply Nat.eq_of_testBit_eq
  intro bit
  rw [testBit_field, window, Nat.testBit_mod_two_pow]
  by_cases inside : bit < size
  · simp only [inside, decide_true, Bool.true_and]
    have small : words.getD index 0 < 2 ^ width := by
      rw [List.getD_eq_getElem _ _ within]
      exact fits _ (List.getElem_mem within)
    by_cases here : shift + bit < width
    · -- The bit is one of the first word.
      have read := testBit_number fits within here
      rw [← Nat.add_assoc] at read
      rw [read]
      split
      · rw [Nat.testBit_or, Nat.testBit_shiftRight, Nat.testBit_mod_two_pow, Nat.testBit_shiftLeft]
        have early : ¬ width - shift ≤ bit := by omega
        simp [early]
      · exact Nat.testBit_shiftRight _
    · -- The bit is one of the word before.
      have wide : width < size + shift := by omega
      have notFirst : 0 < index := by
        rcases Nat.eq_zero_or_pos index with rfl | positive
        · omega
        · exact positive
      have previous : index - 1 < words.length := by omega
      have read := testBit_number fits previous (show bit + shift - width < width by omega)
      have position : width * (words.length - 1 - (index - 1)) + (bit + shift - width) =
          width * (words.length - 1 - index) + shift + bit := by
        have above : words.length - 1 - (index - 1) = words.length - 1 - index + 1 := by omega
        rw [above, Nat.mul_succ]
        omega
      rw [position] at read
      rw [read, if_pos wide, Nat.testBit_or, Nat.testBit_shiftRight, Nat.testBit_mod_two_pow,
        Nat.testBit_shiftLeft]
      have beyond : (words.getD index 0).testBit (shift + bit) = false :=
        Nat.testBit_lt_two_pow
          (small.trans_le (Nat.pow_le_pow_right (by decide) (Nat.le_of_not_lt here)))
      have late : width - shift ≤ bit := by omega
      have inWidth : bit < width := by omega
      have offset : bit - (width - shift) = bit + shift - width := by omega
      rw [beyond, Bool.false_or, offset, decide_eq_true late, decide_eq_true inWidth,
        Bool.true_and, Bool.true_and]
  · simp [inside]

end Words
