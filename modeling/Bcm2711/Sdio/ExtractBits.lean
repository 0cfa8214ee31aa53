import Bcm2711.Sdio.Csd

/-! # The words that a field is read from

`sdio_extract_bits` counts the words of a register from its end.  A field that begins in the
register is read from words of the array; behind the last bit there is no word.
-/

namespace Bcm2711.Sdio.Extract

open Words

/-- A read of `data`, which fails outside the array. -/
def wordAt (data : List (BitVec 32)) (idx : Int) : Option (BitVec 32) :=
  if 0 ≤ idx then data[idx.toNat]? else none

/-- The value under the mask of a size, which is computed in 64 bits. -/
def masked (value : BitVec 32) (size : Nat) : BitVec 32 :=
  (value.setWidth 64 &&& ((1#64 <<< size) - 1#64)).setWidth 32

/-- `sdio_extract_bits`. -/
def sdioExtractBits (data : List (BitVec 32)) (bits start size : Nat) : Option (BitVec 32) :=
  let idx : Int := (bits / 32 : Nat) - (start / 32 : Nat) - 1
  let shift := start &&& 31
  match wordAt data idx with
  | none => none
  | some word =>
      let value := word >>> shift
      if 32 < size + shift then
        match wordAt data (idx - 1) with
        | none => none
        | some above => some (masked (value ||| above <<< (32 - shift)) size)
      else some (masked value size)

variable {data : List (BitVec 32)} {start size : Nat}

/-- The numbers of the words. -/
def numbers (data : List (BitVec 32)) : List Nat := data.map BitVec.toNat

theorem numbers_fit (data : List (BitVec 32)) : Fits 32 (numbers data) := by
  intro number member
  obtain ⟨word, _, rfl⟩ := List.mem_map.mp member
  exact word.isLt

/-- A word of the array is read. -/
theorem wordAt_eq {index : Nat} (inside : index < data.length) :
    ∃ word, wordAt data index = some word ∧ (numbers data).getD index 0 = word.toNat := by
  refine ⟨data[index], ?_, ?_⟩
  · rw [wordAt, if_pos (Int.natCast_nonneg index), Int.toNat_natCast]
    exact List.getElem?_eq_getElem inside
  · rw [numbers, List.getD_eq_getElem?_getD, List.getElem?_map, List.getElem?_eq_getElem inside]
    rfl

/-- The mask of a field. -/
theorem masked_toNat (short : size ≤ 32) (value : BitVec 32) :
    (masked value size).toNat = value.toNat &&& (2 ^ size - 1) := by
  have power : 2 ^ size ≤ 2 ^ 32 := Nat.pow_le_pow_right (by norm_num) short
  have bit : (1#64 <<< size).toNat = 2 ^ size := by
    rw [BitVec.toNat_shiftLeft, Nat.shiftLeft_eq]
    change 1 * 2 ^ size % 2 ^ 64 = _
    rw [Nat.one_mul]
    exact Nat.mod_eq_of_lt (power.trans_lt (by decide))
  have mask : ((1#64 <<< size) - 1#64).toNat = 2 ^ size - 1 := by
    have least : 1 ≤ 2 ^ size := Nat.one_le_two_pow
    rw [BitVec.toNat_sub_of_le, bit]
    · rfl
    · rw [BitVec.le_def, bit]
      exact least
  have small : value.toNat &&& (2 ^ size - 1) < 2 ^ 32 := Nat.and_le_left.trans_lt value.isLt
  rw [masked, BitVec.toNat_setWidth, BitVec.toNat_and, BitVec.toNat_setWidth, mask,
    Nat.mod_eq_of_lt (value.isLt.trans (by decide)), Nat.mod_eq_of_lt small]

/-- A field that begins in the register is read from words of the array, and is the field of the
register's number. -/
theorem sdioExtractBits_reads (data : List (BitVec 32)) (start size : Nat) (short : size ≤ 32)
    (inside : start + size ≤ 32 * data.length) (starts : start < 32 * data.length) :
    ∃ value, sdioExtractBits data (32 * data.length) start size = some value ∧
      value.toNat = field (number 32 (numbers data)) start size := by
  have length : (numbers data).length = data.length := List.length_map _
  have read := Csd.sdioExtractBits_eq (numbers_fit data) (congrArg (32 * ·) length).symm short
    inside starts
  have shift : start &&& 31 = start % 32 := Nat.and_two_pow_sub_one_eq_mod start 5
  have whole : 32 * data.length / 32 = data.length := Nat.mul_div_cancel_left _ (by norm_num)
  obtain ⟨index, place⟩ : ∃ index, index + start / 32 + 1 = data.length :=
    ⟨data.length - start / 32 - 1, by omega⟩
  have idx : ((32 * data.length / 32 : Nat) : Int) - (start / 32 : Nat) - 1 = index := by
    rw [whole]
    omega
  have natIdx : 32 * data.length / 32 - start / 32 - 1 = index := by
    rw [whole]
    omega
  obtain ⟨word, found, value⟩ := @wordAt_eq data index (by omega)
  rw [← read]
  unfold sdioExtractBits Csd.sdioExtractBits
  dsimp only
  rw [idx, natIdx, found, value]
  dsimp only
  by_cases spliced : 32 < size + (start &&& 31)
  · obtain ⟨above, position⟩ : ∃ above, above + 1 = index := by
      rw [shift] at spliced
      exact ⟨index - 1, by omega⟩
    obtain ⟨aboveWord, aboveFound, aboveValue⟩ := @wordAt_eq data above (by omega)
    have aboveIdx : (index : Int) - 1 = above := by omega
    have aboveNat : index - 1 = above := by omega
    rw [if_pos spliced, if_pos spliced, aboveIdx, aboveNat, aboveFound, aboveValue]
    refine ⟨_, rfl, ?_⟩
    rw [masked_toNat short, BitVec.toNat_or, BitVec.toNat_ushiftRight, BitVec.toNat_shiftLeft]
  · rw [if_neg spliced, if_neg spliced]
    refine ⟨_, rfl, ?_⟩
    rw [masked_toNat short, BitVec.toNat_ushiftRight]

/-- No bits at the end of the register are read from in front of the array. -/
theorem end_not_read :
    (0 ≤ 32 ∧ 128 + 0 ≤ 32 * [1#32, 2#32, 3#32, 4#32].length) ∧
      sdioExtractBits [1#32, 2#32, 3#32, 4#32] 128 128 0 = none := by decide

/-- A field over two words. -/
theorem splice_reads :
    ∃ value, sdioExtractBits [1#32, 2#32, 3#32, 4#32] (32 * 4) 28 8 = some value ∧
      value.toNat = field (number 32 (numbers [1#32, 2#32, 3#32, 4#32])) 28 8 :=
  sdioExtractBits_reads [1#32, 2#32, 3#32, 4#32] 28 8 (by decide) (by decide) (by decide)

end Bcm2711.Sdio.Extract
