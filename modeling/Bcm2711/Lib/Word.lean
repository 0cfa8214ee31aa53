import Mathlib

/-! # Unsigned machine words as natural numbers

Words of `width` bits are natural numbers below `2 ^ width`; sums and differences
wrap.  Where nothing wraps they are the sum and the difference, and masking with
the complement of `alignment - 1` rounds down to a multiple of a power of two.
-/

namespace Word

/-- The sum of two words. -/
def add (width first second : Nat) : Nat := (first + second) % 2 ^ width

/-- The difference of two words. -/
def sub (width first second : Nat) : Nat := (first + (2 ^ width - second % 2 ^ width)) % 2 ^ width

/-- The complement of a word. -/
def compl (width word : Nat) : Nat := 2 ^ width - 1 - word

/-- Some bit of the mask is set in the word. -/
def test (word mask : Nat) : Bool := word &&& mask ≠ 0

theorem add_of_lt {width first second : Nat} (fits : first + second < 2 ^ width) :
    add width first second = first + second := Nat.mod_eq_of_lt fits

theorem add_lt (width first second : Nat) : add width first second < 2 ^ width :=
  Nat.mod_lt _ (Nat.two_pow_pos width)

theorem sub_lt (width first second : Nat) : sub width first second < 2 ^ width :=
  Nat.mod_lt _ (Nat.two_pow_pos width)

theorem sub_of_le {width first second : Nat} (order : second ≤ first) (fits : first < 2 ^ width) :
    sub width first second = first - second := by
  have small : second % 2 ^ width = second := Nat.mod_eq_of_lt (order.trans_lt fits)
  have regroup : first + (2 ^ width - second) = (first - second) + 2 ^ width := by omega
  rw [sub, small, regroup, Nat.add_mod_right, Nat.mod_eq_of_lt (by omega)]

/-- `TRUNC`: clear the bits of a word below the alignment. -/
def trunc (width word alignment : Nat) : Nat := word &&& compl width (sub width alignment 1)

/-- `ROUND`: the sum with `alignment - 1`, truncated to the alignment. -/
def round (width word alignment : Nat) : Nat :=
  trunc width (add width word (sub width alignment 1)) alignment

/-- Truncation to a power of two rounds down. -/
theorem trunc_two_pow {width word shift : Nat} (fits : word < 2 ^ width) (small : shift < width) :
    trunc width word (2 ^ shift) = word / 2 ^ shift * 2 ^ shift := by
  have positive : 1 ≤ 2 ^ shift := Nat.one_le_two_pow
  have below : 2 ^ shift < 2 ^ width := Nat.pow_lt_pow_right (by omega) small
  rw [trunc, sub_of_le positive below, compl]
  apply Nat.eq_of_testBit_eq
  intro bit
  have mask : 2 ^ width - 1 - (2 ^ shift - 1) = 2 ^ width - (2 ^ shift - 1 + 1) := by omega
  rw [Nat.testBit_and, mask, Nat.testBit_two_pow_sub_succ (by omega), Nat.testBit_two_pow_sub_one,
    ← Nat.shiftLeft_eq, ← Nat.shiftRight_eq_div_pow, Nat.testBit_shiftLeft, Nat.testBit_shiftRight]
  by_cases low : bit < shift
  · simp [low, Nat.not_le.mpr low]
  · have high : shift ≤ bit := Nat.le_of_not_lt low
    have index : shift + (bit - shift) = bit := by omega
    by_cases inside : bit < width
    · simp [low, high, inside, index]
    · have clear : word.testBit bit = false :=
        Nat.testBit_lt_two_pow (fits.trans_le (Nat.pow_le_pow_right (by omega) (by omega)))
      simp [clear, index]

/-- Rounding up to a power of two, where the sum does not wrap. -/
theorem round_two_pow {width word shift : Nat} (small : shift < width)
    (fits : word + (2 ^ shift - 1) < 2 ^ width) :
    round width word (2 ^ shift) = (word + (2 ^ shift - 1)) / 2 ^ shift * 2 ^ shift := by
  have positive : 1 ≤ 2 ^ shift := Nat.one_le_two_pow
  have below : 2 ^ shift < 2 ^ width := Nat.pow_lt_pow_right (by omega) small
  rw [round, sub_of_le positive below, add_of_lt fits, trunc_two_pow fits small]

theorem le_round {width word shift : Nat} (small : shift < width)
    (fits : word + (2 ^ shift - 1) < 2 ^ width) : word ≤ round width word (2 ^ shift) := by
  have positive : 0 < 2 ^ shift := Nat.two_pow_pos shift
  rw [round_two_pow small fits]
  have parts := Nat.div_add_mod (word + (2 ^ shift - 1)) (2 ^ shift)
  have rest := Nat.mod_lt (word + (2 ^ shift - 1)) positive
  rw [Nat.mul_comm] at parts
  omega

theorem round_lt_add {width word shift : Nat} (small : shift < width)
    (fits : word + (2 ^ shift - 1) < 2 ^ width) :
    round width word (2 ^ shift) < word + 2 ^ shift := by
  have positive : 0 < 2 ^ shift := Nat.two_pow_pos shift
  rw [round_two_pow small fits]
  have upper := Nat.div_mul_le_self (word + (2 ^ shift - 1)) (2 ^ shift)
  omega

theorem dvd_round {width word shift : Nat} (small : shift < width)
    (fits : word + (2 ^ shift - 1) < 2 ^ width) : 2 ^ shift ∣ round width word (2 ^ shift) := by
  rw [round_two_pow small fits]
  exact Nat.dvd_mul_left _ _

/-- Words without a bit in common are added by their bits. -/
theorem or_eq_add {first second : Nat} (disjoint : first &&& second = 0) :
    first ||| second = first + second := by
  obtain ⟨width, left, right⟩ : ∃ width, first < 2 ^ width ∧ second < 2 ^ width := by
    refine ⟨first + second, ?_, ?_⟩
    · exact (Nat.le_add_right first second).trans_lt Nat.lt_two_pow_self
    · exact (Nat.le_add_left second first).trans_lt Nat.lt_two_pow_self
  have wide : 2 ^ width ≤ 2 ^ (width + 1) := Nat.pow_le_pow_right (by decide) (Nat.le_succ width)
  have apart :
      BitVec.ofNat (width + 1) first &&& BitVec.ofNat (width + 1) second = 0#(width + 1) := by
    rw [← BitVec.ofNat_and, disjoint]
  have sum := congrArg BitVec.toNat (BitVec.add_eq_or_of_and_eq_zero _ _ apart)
  rw [BitVec.toNat_add, BitVec.toNat_or, BitVec.toNat_ofNat, BitVec.toNat_ofNat,
    Nat.mod_eq_of_lt (left.trans_le wide), Nat.mod_eq_of_lt (right.trans_le wide),
    Nat.mod_eq_of_lt (by rw [Nat.pow_succ]; omega)] at sum
  exact sum.symm

/-- A word is added to one that starts above it. -/
theorem or_above {word above shift : Nat} (small : word < 2 ^ shift) :
    word ||| 2 ^ shift * above = word + 2 ^ shift * above := by
  rw [Nat.or_comm, ← Nat.two_pow_add_eq_or_of_lt small, Nat.add_comm]

/-- Masking with a field of so many bits at a shift. -/
theorem and_field (word bits shift : Nat) :
    word &&& (2 ^ bits - 1) * 2 ^ shift = word / 2 ^ shift % 2 ^ bits * 2 ^ shift := by
  apply Nat.eq_of_testBit_eq
  intro bit
  rw [Nat.testBit_and, ← Nat.shiftLeft_eq, ← Nat.shiftLeft_eq, Nat.testBit_shiftLeft,
    Nat.testBit_shiftLeft, Nat.testBit_two_pow_sub_one, Nat.testBit_mod_two_pow,
    ← Nat.shiftRight_eq_div_pow, Nat.testBit_shiftRight]
  by_cases low : bit < shift
  · simp [Nat.not_le.mpr low]
  · have high : shift ≤ bit := Nat.le_of_not_lt low
    have index : shift + (bit - shift) = bit := by omega
    simp [high, index, Bool.and_comm]

theorem testBit_eq_false {word bit : Nat} (clear : word % 2 ^ (bit + 1) < 2 ^ bit) :
    word.testBit bit = false := by
  have within : (word % 2 ^ (bit + 1)).testBit bit = word.testBit bit := by
    rw [Nat.testBit_mod_two_pow]
    simp
  rw [← within]
  exact Nat.testBit_lt_two_pow clear

/-- A bit that is clear is set by addition. -/
theorem or_bit {word bit : Nat} (clear : word.testBit bit = false) :
    word ||| 2 ^ bit = word + 2 ^ bit := by
  apply or_eq_add
  apply Nat.eq_of_testBit_eq
  intro other
  rw [Nat.testBit_and, Nat.zero_testBit, Nat.testBit_two_pow]
  by_cases same : bit = other
  · subst same
    simp [clear]
  · simp [same]

/-- Masking with the complement of a bit that has been added takes it away. -/
theorem add_bit_and_compl {width word bit : Nat} (clear : word.testBit bit = false)
    (fits : word < 2 ^ width) (inside : bit < width) :
    (word + 2 ^ bit) &&& compl width (2 ^ bit) = word := by
  have bitFits : 2 ^ bit < 2 ^ width := Nat.pow_lt_pow_right (by decide) inside
  have mask : 2 ^ width - 1 - 2 ^ bit = 2 ^ width - (2 ^ bit + 1) := by omega
  rw [← or_bit clear, compl, mask]
  apply Nat.eq_of_testBit_eq
  intro other
  rw [Nat.testBit_and, Nat.testBit_or, Nat.testBit_two_pow_sub_succ bitFits, Nat.testBit_two_pow]
  by_cases same : bit = other
  · subst same
    simp [clear]
  · by_cases high : other < width
    · simp [same, high]
    · have above : word.testBit other = false :=
        Nat.testBit_lt_two_pow (fits.trans_le (Nat.pow_le_pow_right (by decide) (by omega)))
      simp [same, high, above]

/-- A count that grows by less than the size of a word becomes smaller at its first wrap. -/
theorem exists_wrap {size step offset last : Nat} (stepSmall : step < size)
    (offsetSmall : offset < size) (wraps : size ≤ step * last + offset) :
    ∃ count < last, (step * (count + 1) + offset) % size < (step * count + offset) % size := by
  induction last with
  | zero => exact absurd wraps (by omega)
  | succ last ih =>
      by_cases before : size ≤ step * last + offset
      · obtain ⟨count, below, drops⟩ := ih before
        exact ⟨count, Nat.lt_succ_of_lt below, drops⟩
      · refine ⟨last, Nat.lt_succ_self last, ?_⟩
        rw [Nat.mul_succ] at wraps ⊢
        rw [Nat.mod_eq_of_lt (Nat.lt_of_not_le before), Nat.mod_eq_sub_mod (by omega),
          Nat.mod_eq_of_lt (by omega)]
        omega

end Word
