import Bcm2711.Spi.Transfer

/-! # The timeout of a transfer

A transfer estimates its time in microseconds, and `bcm2711spi_wait` waits for 50 times the
estimate for each of its bytes.  Both products are taken in 32 bits, and the second is widened by
its last factor only.
-/

namespace Bcm2711.Spi

/-- `ns_timeout` of `bcm2711spi_wait`, from `spi->dtime`. -/
def nsTimeout (dtime len : Nat) : Nat := dtime * len % 2 ^ 32 * 50 % 2 ^ 32 * 1000 % 2 ^ 64

/-- `ns_timeout` of an exchange. -/
def Start.nsTimeout (start : Start) : Nat := Spi.nsTimeout start.dtime start.lengths.xlen

/-- The timeout is enough to clock the bits of the exchange. -/
def Start.Covers (start : Start) (clockRate : UInt32) : Prop :=
  8 * start.lengths.xlen * 10 ^ 9 ≤ start.nsTimeout * clockRate.toNat

/-- The estimate, as it comes out in 32 bits. -/
def estimate (xlen clockRate : Nat) : Nat := max 1 (xlen * 1000 * 1000 % 2 ^ 32 / clockRate)

/-- The timeout is long enough: there is nothing to clock, or 50 times the estimate for each byte
fits 32 bits and the estimate stands for 160000 bits at least, or it does not fit, and comes far
enough above the last multiple of `2 ^ 32`. -/
inductive LongEnough (xlen clockRate : Nat) : Prop
  | nothing (none : xlen = 0)
  | fits (small : estimate xlen clockRate * xlen * 50 < 2 ^ 32)
      (enough : 160000 ≤ estimate xlen clockRate * clockRate)
  | wraps (wraps : ℕ) (large : 0 < wraps)
      (above : wraps * 2 ^ 32 ≤ estimate xlen clockRate * xlen * 50)
      (below : estimate xlen clockRate * xlen * 50 < (wraps + 1) * 2 ^ 32)
      (far : 8000000 * xlen ≤
        (estimate xlen clockRate * xlen * 50 - wraps * 2 ^ 32) * clockRate)

variable {xlen clockRate : Nat}

theorem nsTimeout_eq (dtime len : Nat) :
    nsTimeout dtime len = dtime * len * 50 % 2 ^ 32 * 1000 := by
  have wrapped : dtime * len % 2 ^ 32 * 50 % 2 ^ 32 = dtime * len * 50 % 2 ^ 32 :=
    Nat.mod_mul_mod _ _ _
  rw [nsTimeout, wrapped, Nat.mod_eq_of_lt]
  have small : dtime * len * 50 % 2 ^ 32 < 2 ^ 32 := Nat.mod_lt _ (Nat.two_pow_pos 32)
  omega

/-- A product that wraps so many times. -/
theorem wrapped_eq {product wraps : Nat} (above : wraps * 2 ^ 32 ≤ product)
    (below : product < (wraps + 1) * 2 ^ 32) : product % 2 ^ 32 = product - wraps * 2 ^ 32 := by
  omega

theorem exists_wraps {product : Nat} (large : ¬ product < 2 ^ 32) :
    ∃ wraps, 0 < wraps ∧ wraps * 2 ^ 32 ≤ product ∧ product < (wraps + 1) * 2 ^ 32 := by
  refine ⟨product / 2 ^ 32, ?_, Nat.div_mul_le_self product (2 ^ 32), ?_⟩
  · exact Nat.div_pos (not_lt.mp large) (Nat.two_pow_pos 32)
  · omega

/-- The time of the bits against the part of the product that is left. -/
theorem covers_wrapped (product : Nat) :
    8 * xlen * 10 ^ 9 ≤ product * 1000 * clockRate ↔ 8000000 * xlen ≤ product * clockRate := by
  rw [Nat.mul_right_comm product 1000 clockRate]
  omega

/-- The time of the bits against a product that does not wrap. -/
theorem covers_whole (something : xlen ≠ 0) (dtime : Nat) :
    8000000 * xlen ≤ dtime * xlen * 50 * clockRate ↔ 160000 ≤ dtime * clockRate := by
  have product : dtime * xlen * 50 * clockRate = xlen * (50 * (dtime * clockRate)) := by ring
  rw [product, Nat.mul_comm 8000000 xlen, Nat.mul_le_mul_left_iff (Nat.pos_of_ne_zero something)]
  omega

/-- When the timeout covers the bits. -/
theorem covers_estimate (xlen clockRate : Nat) :
    8 * xlen * 10 ^ 9 ≤ nsTimeout (estimate xlen clockRate) xlen * clockRate ↔
      LongEnough xlen clockRate := by
  rw [nsTimeout_eq, covers_wrapped]
  constructor
  · intro covers
    by_cases none : xlen = 0
    · exact .nothing none
    by_cases small : estimate xlen clockRate * xlen * 50 < 2 ^ 32
    · rw [Nat.mod_eq_of_lt small, covers_whole none] at covers
      exact .fits small covers
    · obtain ⟨wraps, large, above, below⟩ := exists_wraps small
      rw [wrapped_eq above below] at covers
      exact .wraps wraps large above below covers
  · intro longEnough
    cases longEnough with
    | nothing none =>
        rw [none]
        exact Nat.zero_le _
    | fits small enough =>
        by_cases none : xlen = 0
        · rw [none]
          exact Nat.zero_le _
        · rw [Nat.mod_eq_of_lt small]
          exact (covers_whole none _).mpr enough
    | wraps wraps _ above below far =>
        rw [wrapped_eq above below]
        exact far

/-! ## Fast clocks -/

/-- The estimate at a fast clock. -/
theorem estimate_fast (fast : 3276800 ≤ clockRate) : estimate xlen clockRate ≤ 1310 := by
  have wrapped : xlen * 1000 * 1000 % 2 ^ 32 < 2 ^ 32 := Nat.mod_lt _ (Nat.two_pow_pos 32)
  have quotient : xlen * 1000 * 1000 % 2 ^ 32 / clockRate < 1311 := by
    apply Nat.div_lt_of_lt_mul
    calc
      xlen * 1000 * 1000 % 2 ^ 32 < 2 ^ 32 := wrapped
      _ ≤ 3276800 * 1311 := by norm_num
      _ ≤ clockRate * 1311 := Nat.mul_le_mul_right _ fast
  unfold estimate
  omega

/-- From 3.3 MHz on the timeout is long enough for every length. -/
theorem longEnough_fast (fast : 3276800 ≤ clockRate) (limit : xlen ≤ 65536) :
    LongEnough xlen clockRate := by
  apply LongEnough.fits
  · calc
      estimate xlen clockRate * xlen * 50 ≤ 1310 * 65536 * 50 :=
        Nat.mul_le_mul_right 50 (Nat.mul_le_mul (estimate_fast fast) limit)
      _ < 2 ^ 32 := by norm_num
  · have least : 1 ≤ estimate xlen clockRate := Nat.le_max_left 1 _
    calc
      160000 ≤ 1 * 3276800 := by norm_num
      _ ≤ estimate xlen clockRate * clockRate := Nat.mul_le_mul least fast

/-- Where neither product wraps the timeout is long enough. -/
theorem longEnough_of_small (positive : 0 < clockRate) (first : xlen * 1000 * 1000 < 2 ^ 32)
    (second : estimate xlen clockRate * xlen * 50 < 2 ^ 32) : LongEnough xlen clockRate := by
  by_cases none : xlen = 0
  · exact .nothing none
  apply LongEnough.fits second
  unfold estimate
  rw [Nat.mod_eq_of_lt first]
  by_cases slow : clockRate < 160000
  · have remainder := Nat.mod_lt (xlen * 1000 * 1000) positive
    have whole := Nat.div_add_mod' (xlen * 1000 * 1000) clockRate
    calc
      160000 ≤ xlen * 1000 * 1000 / clockRate * clockRate := by omega
      _ ≤ max 1 (xlen * 1000 * 1000 / clockRate) * clockRate :=
        Nat.mul_le_mul_right clockRate (Nat.le_max_right 1 _)
  · calc
      160000 ≤ 1 * clockRate := by omega
      _ ≤ max 1 (xlen * 1000 * 1000 / clockRate) * clockRate :=
        Nat.mul_le_mul_right clockRate (Nat.le_max_left 1 _)

/-! ## Exchanges -/

section Started

variable {io : ModeBits} {clk : UInt32} {dev after : SpiDev} {tnbytes rnbytes : Nat}
  {waited status : Status} {answers : DmaAnswers} {start : Start}

/-- An exchange of either path waits with the estimate for its length and the rate of its
device. -/
theorem xfer_estimate
    (started : bcm2711spiXfer clk dev tnbytes rnbytes waited = .ok ⟨after, status, some start⟩) :
    start.dtime = estimate start.lengths.xlen dev.cfg.clockRate.toNat := by
  unfold bcm2711spiXfer transferTime at started
  dsimp only at started
  split at started
  · cases started
  · next timed =>
      split at timed
      · cases timed
      · cases timed
        cases started
        rfl

theorem dmaxfer_estimate
    (started : bcm2711spiDmaxfer io clk dev tnbytes rnbytes answers =
      .ok ⟨after, status, some start⟩) :
    start.dtime = estimate start.lengths.xlen dev.cfg.clockRate.toNat := by
  unfold bcm2711spiDmaxfer at started
  dsimp only at started
  split at started
  · exact xfer_estimate started
  · split at started
    · cases started
    · unfold transferTime at started
      split at started
      · cases started
      · next timed =>
          split at timed
          · cases timed
          · cases timed
            split at started
            · cases started
            · split at started
              · cases started
              · split at started
                · cases started
                · cases started
                  rfl

/-- A call of one of the transfer functions for the device starts the exchange. -/
inductive Starts (dev : SpiDev) (start : Start) : Prop
  | xfer (clk : UInt32) (tnbytes rnbytes : Nat) (waited : Status) (after : SpiDev)
      (status : Status)
      (started : bcm2711spiXfer clk dev tnbytes rnbytes waited = .ok ⟨after, status, some start⟩)
  | dmaxfer (io : ModeBits) (clk : UInt32) (tnbytes rnbytes : Nat) (answers : DmaAnswers)
      (after : SpiDev) (status : Status)
      (started : bcm2711spiDmaxfer io clk dev tnbytes rnbytes answers =
        .ok ⟨after, status, some start⟩)

/-- The timeout of an exchange, moved by interrupts or by DMA, covers the bits at the rate of the
device exactly when it is long enough, for every length within the limit of the buffers. -/
theorem timeout_covers_iff (limit : start.lengths.xlen ≤ 65536) (started : Starts dev start) :
    start.Covers dev.cfg.clockRate ↔
      3276800 ≤ dev.cfg.clockRate.toNat ∨
        LongEnough start.lengths.xlen dev.cfg.clockRate.toNat := by
  have dtime : start.dtime = estimate start.lengths.xlen dev.cfg.clockRate.toNat := by
    cases started with
    | xfer _ _ _ _ _ _ started => exact xfer_estimate started
    | dmaxfer _ _ _ _ _ _ _ started => exact dmaxfer_estimate started
  have fast : 3276800 ≤ dev.cfg.clockRate.toNat →
      LongEnough start.lengths.xlen dev.cfg.clockRate.toNat := fun fast =>
    longEnough_fast fast limit
  unfold Start.Covers Start.nsTimeout
  rw [dtime, covers_estimate]
  exact ⟨.inr, fun either => either.elim fast id⟩

end Started

/-- A device at a rate that `bcm2711_cfg` gives for a clock of 500 MHz. -/
def slowDev : SpiDev where
  devno := 0
  cfg := ⟨0, 41247⟩
  currentClkrate := 41247
  devctrl := 0

/-- The exchange of a transfer of so many bytes. -/
def slowStart (xlen : Nat) : Start :=
  ⟨.pio, pioStartBits, 0, 1, ⟨xlen, xlen⟩, estimate xlen 41247⟩

theorem slowDev_starts (xlen : Nat) (something : xlen ≠ 0) : Starts slowDev (slowStart xlen) := by
  apply Starts.xfer 0 xlen xlen .EOK slowDev .EOK
  have both : effective xlen xlen = ⟨xlen, xlen⟩ := by
    rw [effective, if_neg something, if_neg something]
  have length : Lengths.xlen ⟨xlen, xlen⟩ = xlen := Nat.max_self xlen
  have timed : transferTime xlen slowDev.cfg.clockRate = .ok (estimate xlen 41247) := rfl
  unfold bcm2711spiXfer
  dsimp only
  rw [both, length, timed]
  rfl

theorem slowDev_covers : Starts slowDev (slowStart 16) ∧ (slowStart 16).Covers 41247 := by
  refine ⟨slowDev_starts 16 (by decide), ?_⟩
  apply (timeout_covers_iff (by decide) (slowDev_starts 16 (by decide))).mpr
  right
  exact longEnough_of_small (by decide) (by decide) (by decide)

/-- 32 KiB at 41 kHz take more than six seconds, and the wait gives up after two. -/
theorem slowDev_gives_up :
    Starts slowDev (slowStart 32768) ∧ (slowStart 32768).nsTimeout = 1638400000 ∧
      ¬ (slowStart 32768).Covers 41247 := by
  refine ⟨slowDev_starts 32768 (by decide), rfl, ?_⟩
  unfold Start.Covers
  decide

end Bcm2711.Spi
