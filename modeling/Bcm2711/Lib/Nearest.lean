import Mathlib

/-! # The nearest integers to a number

A number has one nearest integer, or two when it lies in the middle.  For a quotient it is a matter
of the remainder: twice the error of the product is at most the divisor.
-/

namespace Rounding

/-- No integer is nearer to the number. -/
def Nearest (number : ℚ) (place : ℤ) : Prop := ∀ other : ℤ, |number - place| ≤ |number - other|

variable {dividend divisor place : ℤ}

/-- Distances to a quotient compare as the errors of the products. -/
theorem nearest_div_iff_forall (positive : 0 < divisor) :
    Nearest ((dividend : ℚ) / divisor) place ↔
      ∀ other : ℤ, |dividend - place * divisor| ≤ |dividend - other * divisor| := by
  have large : (0 : ℚ) < divisor := Int.cast_pos.mpr positive
  have distance : ∀ other : ℤ, |(dividend : ℚ) / divisor - other| =
      ((|dividend - other * divisor| : ℤ) : ℚ) / divisor := by
    intro other
    rw [Int.cast_abs, Int.cast_sub, Int.cast_mul, ← abs_of_pos large, ← abs_div, abs_of_pos large,
      sub_div, mul_div_cancel_right₀ _ large.ne']
  unfold Nearest
  apply forall_congr'
  intro other
  rw [distance, distance, div_le_div_iff_of_pos_right large, Int.cast_le]

/-- An integer is nearest to a quotient when twice the error of the product is at most the
divisor. -/
theorem nearest_div_iff (positive : 0 < divisor) :
    Nearest ((dividend : ℚ) / divisor) place ↔
      2 * |dividend - place * divisor| ≤ divisor := by
  rw [nearest_div_iff_forall positive]
  generalize error : dividend - place * divisor = miss
  constructor
  · intro nearest
    have above := nearest (place + 1)
    have below := nearest (place - 1)
    have up : dividend - (place + 1) * divisor = miss - divisor := by
      rw [← error]
      ring
    have down : dividend - (place - 1) * divisor = miss + divisor := by
      rw [← error]
      ring
    rw [up] at above
    rw [down] at below
    rcases le_total 0 miss with front | behind
    · rw [abs_of_nonneg front] at above ⊢
      rcases abs_cases (miss - divisor) with ⟨value, _⟩ | ⟨value, _⟩ <;> omega
    · rw [abs_of_nonpos behind] at below ⊢
      rcases abs_cases (miss + divisor) with ⟨value, _⟩ | ⟨value, _⟩ <;> omega
  · intro small other
    by_cases same : other = place
    · rw [same, error]
    · have apart : divisor ≤ |(place - other) * divisor| := by
        rw [abs_mul, abs_of_pos positive]
        exact le_mul_of_one_le_left positive.le (Int.one_le_abs (sub_ne_zero.mpr (Ne.symm same)))
      have split : dividend - other * divisor = miss + (place - other) * divisor := by
        rw [← error]
        ring
      have triangle := abs_sub_abs_le_abs_add ((place - other) * divisor) miss
      rw [split, add_comm]
      omega

end Rounding
