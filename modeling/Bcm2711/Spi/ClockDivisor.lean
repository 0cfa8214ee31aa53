import Bcm2711.Spi.Config

/-! # The divisor of the SPI clock

`bcm2711_cfg` rounds the divisor for a rate to an even one, takes the rate that this divisor
gives, and computes the divisor that it programs from that rate again.
-/

namespace Bcm2711.Spi

/-- `divisor` of `bcm2711_cfg`. -/
def targetDivisor (inputClk : UInt64) (clockRate : UInt32) : UInt32 :=
  evenDivisor ((inputClk + (clockRate / 2).toUInt64) / clockRate.toUInt64).toUInt32

/-- The divisor that a value of CLK stands for. -/
def clkDivisor (clk : UInt32) : Nat := if clk = 0 then 65536 else clk.toNat

/-- The call gets to the divisor. -/
def Programs (io : ModeBits) (dev : SpiDev) : Prop :=
  accepts io dev.cfg.mode dev.devno = true ∧ dev.currentClkrate ≠ dev.cfg.clockRate

/-- The call returns, and where it programs the clock the divisor in CLK is even and within its
bounds, and is the one that the reported rate was computed from. -/
def ProgramsDivisor (io : ModeBits) (inputClk : UInt64) (clk : UInt32) (dev : SpiDev) : Prop :=
  ∃ done, bcm2711Cfg io inputClk clk dev = .ok done ∧
    (Programs io dev → ∃ divisor : UInt32, divisor = targetDivisor inputClk dev.cfg.clockRate ∧
      done.dev.cfg.clockRate = (inputClk / divisor.toUInt64).toUInt32 ∧
      clkDivisor done.clk = divisor.toNat ∧
      2 ∣ divisor.toNat ∧ 2 ≤ divisor.toNat ∧ divisor.toNat ≤ 65536)

/-- A quotient of 32 bits as a divisor for CLK, by the bound that the driver puts to it. -/
def boundedDivisor (val : Nat) : Nat := if val = 0 ∨ 65536 ≤ val then 65536 else val

/-- The second division finds the divisor again: the rate fits its 32 bits and is not zero, and the
divisor is the largest one, or the remainder is less than the rate; or the rate is cut to 32 bits,
and the quotient by what is left of it comes to the divisor. -/
inductive FindsAgain (inputClk divisor : Nat) : Prop
  | fits (small : inputClk / divisor < 2 ^ 32) (positive : divisor ≤ inputClk)
      (close : divisor = 65536 ∨ inputClk % divisor < inputClk / divisor)
  | cut (large : 2 ^ 32 ≤ inputClk / divisor) (rest : inputClk / divisor % 2 ^ 32 ≠ 0)
      (again : boundedDivisor (inputClk / (inputClk / divisor % 2 ^ 32) % 2 ^ 32) = divisor)

variable {io : ModeBits} {inputClk : UInt64} {clk clockRate : UInt32} {dev : SpiDev}

/-! ## Divisors -/

/-- The target is even and within the bounds. -/
theorem evenDivisor_spec (divisor : UInt32) :
    2 ∣ (evenDivisor divisor).toNat ∧ 2 ≤ (evenDivisor divisor).toNat ∧
      (evenDivisor divisor).toNat ≤ 65536 := by
  unfold evenDivisor
  have least : BCM2711_SPI_MIN_CDIV.toNat = 2 := rfl
  have most : BCM2711_SPI_MAX_CDIV.toNat = 65536 := rfl
  split
  · rw [least]
    omega
  · next large =>
      split
      · rw [most]
        omega
      · next small =>
          have low : 2 ≤ divisor.toNat := not_lt.mp large
          have high : divisor.toNat < 65536 := not_le.mp small
          have parity : (divisor % 2).toNat = divisor.toNat % 2 := UInt32.toNat_mod divisor 2
          rw [UInt32.toNat_add, parity]
          omega

theorem toNat_toUInt32 (word : UInt64) : word.toUInt32.toNat = word.toNat % 2 ^ 32 := rfl

theorem bestRate_toNat (inputClk : UInt64) (clockRate : UInt32) :
    (bestRate inputClk clockRate).toNat =
      inputClk.toNat / (targetDivisor inputClk clockRate).toNat % 2 ^ 32 := by
  have best : bestRate inputClk clockRate =
      (inputClk / (targetDivisor inputClk clockRate).toUInt64).toUInt32 := rfl
  rw [best, toNat_toUInt32, UInt64.toNat_div, UInt32.toNat_toUInt64]

/-- The divisor in CLK for a rate. -/
theorem clkDivisor_cdivOf (inputClk : UInt64) (clockRate : UInt32) :
    clkDivisor (cdivOf inputClk clockRate) =
      boundedDivisor (inputClk.toNat / clockRate.toNat % 2 ^ 32) := by
  have quotient : (inputClk / clockRate.toUInt64).toUInt32.toNat =
      inputClk.toNat / clockRate.toNat % 2 ^ 32 := by
    rw [toNat_toUInt32, UInt64.toNat_div, UInt32.toNat_toUInt64]
  unfold cdivOf
  dsimp only
  rw [← quotient]
  generalize (inputClk / clockRate.toUInt64).toUInt32 = val
  unfold boundedDivisor clkDivisor
  have most : BCM2711_SPI_MAX_CDIV.toNat = 65536 := rfl
  by_cases large : val ≥ BCM2711_SPI_MAX_CDIV
  · have high : 65536 ≤ val.toNat := large
    rw [if_pos large, if_pos rfl, if_pos (.inr high)]
  · have small : val.toNat < 65536 := not_le.mp large
    have cut : val.toUInt16.toUInt32 = val := by
      apply UInt32.toNat.inj
      rw [UInt16.toNat_toUInt32, UInt32.toNat_toUInt16]
      omega
    rw [if_neg large, cut]
    by_cases zero : val = 0
    · rw [if_pos zero, zero, if_pos (.inl rfl)]
    · have nonzero : val.toNat ≠ 0 := fun isZero => zero (UInt32.toNat.inj isZero)
      rw [if_neg zero, if_neg (not_or.mpr ⟨nonzero, not_le.mpr small⟩)]

/-! ## The second division -/

/-- A quotient by a quotient is the divisor when the remainder is less than the first quotient. -/
theorem div_div_eq_iff {input divisor : Nat} (positive : 0 < input / divisor) :
    input / (input / divisor) = divisor ↔ input % divisor < input / divisor := by
  have whole := Nat.div_add_mod input divisor
  have next : (divisor + 1) * (input / divisor) = divisor * (input / divisor) +
      input / divisor := Nat.succ_mul divisor _
  constructor
  · intro same
    have high : input < (divisor + 1) * (input / divisor) := by
      rw [← Nat.div_lt_iff_lt_mul positive, same]
      exact Nat.lt_succ_self divisor
    omega
  · intro close
    apply Nat.div_eq_of_lt_le
    · exact Nat.mul_div_le input divisor
    · rw [next]
      omega

/-- What is left of the quotient. -/
theorem quotient_bounds {input divisor : Nat} (positive : 0 < input / divisor) :
    divisor ≤ input / (input / divisor) ∧ input / (input / divisor) < 2 * divisor := by
  have whole := Nat.div_add_mod input divisor
  have some_divisor : 0 < divisor := by
    by_contra none
    rw [Nat.eq_zero_of_not_pos none, Nat.div_zero] at positive
    exact lt_irrefl 0 positive
  have remainder := Nat.mod_lt input some_divisor
  constructor
  · rw [Nat.le_div_iff_mul_le positive]
    omega
  · apply Nat.div_lt_of_lt_mul
    calc
      input < divisor * (input / divisor) + divisor := by omega
      _ ≤ divisor * (input / divisor) + divisor * (input / divisor) :=
        Nat.add_le_add_left (Nat.le_mul_of_pos_right divisor positive) _
      _ = input / divisor * (2 * divisor) := by ring

/-- When the second division finds the divisor. -/
theorem findsAgain_iff {input divisor : Nat} (least : 2 ≤ divisor) (most : divisor ≤ 65536) :
    (input / divisor % 2 ^ 32 ≠ 0 ∧
      boundedDivisor (input / (input / divisor % 2 ^ 32) % 2 ^ 32) = divisor) ↔
        FindsAgain input divisor := by
  by_cases small : input / divisor < 2 ^ 32
  · rw [Nat.mod_eq_of_lt small]
    have quotient : 0 < input / divisor →
        (boundedDivisor (input / (input / divisor) % 2 ^ 32) = divisor ↔
          divisor = 65536 ∨ input % divisor < input / divisor) := by
      intro positive
      obtain ⟨low, high⟩ := quotient_bounds positive
      rw [Nat.mod_eq_of_lt (by omega), ← div_div_eq_iff positive]
      generalize input / (input / divisor) = again at low high
      unfold boundedDivisor
      split
      · omega
      · omega
    constructor
    · rintro ⟨nonzero, again⟩
      have positive := Nat.pos_of_ne_zero nonzero
      exact .fits small (Nat.div_pos_iff.mp positive).2 ((quotient positive).mp again)
    · intro finds
      cases finds with
      | fits _ enough close =>
          have positive : 0 < input / divisor := Nat.div_pos enough (by omega)
          exact ⟨Nat.ne_of_gt positive, (quotient positive).mpr close⟩
      | cut large _ _ => exact absurd small (not_lt.mpr large)
  · constructor
    · rintro ⟨rest, again⟩
      exact .cut (not_lt.mp small) rest again
    · intro finds
      cases finds with
      | fits fits => exact absurd fits small
      | cut _ rest again => exact ⟨rest, again⟩

/-! ## The call -/

/-- A call that programs the clock returns with the divisor exactly when it finds it again. -/
theorem programClock_divisor_iff (positive : clockRate ≠ 0) {current : UInt32}
    (differs : current ≠ clockRate) :
    (∃ rate programmed, programClock inputClk clk current clockRate = .ok (rate, programmed) ∧
        clkDivisor programmed = (targetDivisor inputClk clockRate).toNat) ↔
      FindsAgain inputClk.toNat (targetDivisor inputClk clockRate).toNat := by
  obtain ⟨_, least, most⟩ : 2 ∣ (targetDivisor inputClk clockRate).toNat ∧
      2 ≤ (targetDivisor inputClk clockRate).toNat ∧
        (targetDivisor inputClk clockRate).toNat ≤ 65536 := evenDivisor_spec _
  rw [← findsAgain_iff least most, ← bestRate_toNat]
  unfold programClock
  rw [if_pos differs, if_neg positive]
  dsimp only
  by_cases zero : bestRate inputClk clockRate = 0
  · rw [if_pos zero, zero]
    constructor
    · rintro ⟨_, _, impossible, _⟩
      cases impossible
    · rintro ⟨nonzero, _⟩
      exact absurd rfl nonzero
  · have nonzero : (bestRate inputClk clockRate).toNat ≠ 0 := fun isZero =>
      zero (UInt32.toNat.inj isZero)
    rw [if_neg zero, ← clkDivisor_cdivOf]
    constructor
    · rintro ⟨_, _, returned, same⟩
      cases returned
      exact ⟨nonzero, same⟩
    · rintro ⟨_, same⟩
      exact ⟨_, _, rfl, same⟩

/-- A device that is accepted gets the rate and the divisor of the clock. -/
theorem bcm2711Cfg_accepted (accepted : accepts io dev.cfg.mode dev.devno = true) :
    bcm2711Cfg io inputClk clk dev =
      (programClock inputClk clk dev.currentClkrate dev.cfg.clockRate).map fun (rate, clk) =>
        ⟨{ dev with
          cfg := { dev.cfg with clockRate := rate }
          currentClkrate := rate
          devctrl := ctrlOf io dev.cfg.mode dev.devno }, clk, .EOK⟩ := by
  obtain ⟨small, supported⟩ := Bool.and_eq_true_iff.mp accepted
  unfold bcm2711Cfg
  rw [if_neg (BitVec.not_lt.mpr (of_decide_eq_true small)), supported,
    if_neg (by rw [Bool.not_true]; exact Bool.false_ne_true)]
  cases programClock inputClk clk dev.currentClkrate dev.cfg.clockRate with
  | error fault => rfl
  | ok both => rfl

/-- Any other call returns. -/
theorem bcm2711Cfg_returns (quiet : ¬ Programs io dev) :
    ∃ done, bcm2711Cfg io inputClk clk dev = .ok done := by
  by_cases accepted : accepts io dev.cfg.mode dev.devno = true
  · have same : dev.currentClkrate = dev.cfg.clockRate := by
      by_contra differs
      exact quiet ⟨accepted, differs⟩
    rw [bcm2711Cfg_accepted accepted]
    unfold programClock
    rw [if_neg (not_not.mpr same)]
    exact ⟨_, rfl⟩
  · unfold bcm2711Cfg
    by_cases large : dev.devno > BCM2711_SPI_CS_MAX
    · rw [if_pos large]
      exact ⟨_, rfl⟩
    · rw [if_neg large]
      have unsupported : widthSupported io dev.cfg.mode = false := by
        by_contra supported
        apply accepted
        rw [accepts, Bool.and_eq_true]
        exact ⟨decide_eq_true (BitVec.not_lt.mp large), Bool.eq_true_of_not_eq_false supported⟩
      rw [unsupported]
      exact ⟨_, rfl⟩

/-- For every input clock and every rate that is asked for, a call divides by no zero and programs
the even divisor from which the rate is computed exactly when it does not get to the divisor, or the
second division finds the divisor again. -/
theorem programsDivisor_iff (io : ModeBits) (inputClk : UInt64) (clk : UInt32) (dev : SpiDev)
    (positive : dev.cfg.clockRate ≠ 0) :
    ProgramsDivisor io inputClk clk dev ↔
      (Programs io dev →
        FindsAgain inputClk.toNat (targetDivisor inputClk dev.cfg.clockRate).toNat) := by
  unfold ProgramsDivisor
  by_cases programs : Programs io dev
  · obtain ⟨accepted, differs⟩ := programs
    have programs : Programs io dev := ⟨accepted, differs⟩
    rw [bcm2711Cfg_accepted accepted, ← @programClock_divisor_iff _ clk _ positive _ differs]
    constructor
    · rintro ⟨done, returned, divides⟩ _
      obtain ⟨divisor, rfl, _, same, _⟩ := divides programs
      cases programmed : programClock inputClk clk dev.currentClkrate dev.cfg.clockRate with
      | error fault =>
          rw [programmed] at returned
          cases returned
      | ok both =>
          rw [programmed] at returned
          cases returned
          exact ⟨both.1, both.2, rfl, same⟩
    · intro finds
      obtain ⟨rate, clkAfter, programmed, same⟩ := finds programs
      rw [programmed]
      refine ⟨_, rfl, fun _ => ⟨_, rfl, ?_, same, evenDivisor_spec _⟩⟩
      rcases programClock_ok programmed with ⟨isSame, _⟩ | ⟨_, best, _⟩
      · exact absurd isSame differs
      · exact best
  · obtain ⟨done, returned⟩ := @bcm2711Cfg_returns io inputClk clk dev programs
    constructor
    · intro _ isProgrammed
      exact absurd isProgrammed programs
    · intro _
      exact ⟨done, returned, fun isProgrammed => absurd isProgrammed programs⟩

/-- A device for words of 8 bits that asks for a rate. -/
def rateDev (clockRate : UInt32) : SpiDev where
  devno := 0
  cfg := ⟨8, clockRate⟩
  currentClkrate := 0
  devctrl := 0

/-- Mode words that hold the width in bits. -/
def bitWidths : ModeBits := ⟨0xff, 8, 32, 0x100, 0x200, 0x400⟩

theorem megahertz_divisor : ProgramsDivisor bitWidths 500000000 0 (rateDev 1000000) := by
  apply (programsDivisor_iff bitWidths 500000000 0 (rateDev 1000000) (by decide)).mpr
  intro _
  apply FindsAgain.fits
  · decide
  · decide
  · right
    decide

/-- At 500 MHz a rate of 9500 Hz leads to the divisor 52632 and to the rate 9499 Hz, and the odd
52637 is programmed. -/
theorem slow_divisor_odd :
    targetDivisor 500000000 9500 = 52632 ∧
      (bcm2711Cfg bitWidths 500000000 0 (rateDev 9500)).map (fun done =>
        (done.dev.cfg.clockRate, done.clk)) = .ok (9499, 52637) ∧
      ¬ ProgramsDivisor bitWidths 500000000 0 (rateDev 9500) := by
  have returned : bcm2711Cfg bitWidths 500000000 0 (rateDev 9500) =
      .ok ⟨⟨0, ⟨8, 9499⟩, 9499, 0⟩, 52637, .EOK⟩ := by decide
  refine ⟨by decide, by rw [returned]; rfl, ?_⟩
  rintro ⟨done, isDone, divides⟩
  rw [returned] at isDone
  cases isDone
  obtain ⟨divisor, _, _, same, even, _⟩ := divides ⟨by decide, by decide⟩
  rw [← same] at even
  exact absurd even (by decide)

end Bcm2711.Spi
