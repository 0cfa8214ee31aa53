import Mathlib

/-! # The speed of an I2C bus

`bcm2711_set_bus_speed` stores the speed before it looks at it, divides the core clock by it and
programs the quotient.  The speed stays behind for the timeouts of `bcm2711_wait_complete`.
-/

namespace Bcm2711.I2c.Speed

def BCM2711_CORE_FREQ : UInt32 := 500000000

def CLKTREG_BIT_MSK : UInt32 := 0xffff
def DELAYREG_REDL_SHIFT_BITS : UInt32 := 0
def DELAYREG_REDL_BIT_MSK : UInt32 := 0xffff

/-- How a call stops without returning. -/
inductive Fault where
  | divideByZero
deriving DecidableEq, Repr

/-- What the call returns, with `errno`. -/
inductive Ret where
  | ok
  | fail_EINVAL
deriving DecidableEq, Repr

/-- The fields of `bcm2711_dev_t` for the speed, and the registers. -/
structure Dev where
  speed : UInt32
  clk : UInt32
  /-- `BCM2711_I2C_CLKDIVREG_OFF`. -/
  clkdivReg : UInt32
  /-- `BCM2711_I2C_DELAYREG_OFF`. -/
  delayReg : UInt32
deriving DecidableEq, Repr

/-- `delay_reg` with the delay of the receiver. -/
def delayWord (delayReg ckdiv : UInt32) : UInt32 :=
  let rxDelay := (ckdiv / 4).toUInt16
  delayReg &&& ~~~DELAYREG_REDL_BIT_MSK |||
    (rxDelay.toUInt32 <<< DELAYREG_REDL_SHIFT_BITS &&& DELAYREG_REDL_BIT_MSK)

/-- `bcm2711_set_bus_speed`. -/
def bcm2711SetBusSpeed (dev : Dev) (speed : UInt32) : Except Fault (Dev × Ret) :=
  let dev := { dev with speed := speed }
  if dev.speed = 0 then .error .divideByZero
  else
    let ckdiv := BCM2711_CORE_FREQ / dev.speed
    if ckdiv > CLKTREG_BIT_MSK then .ok (dev, .fail_EINVAL)
    else
      let dev := { dev with clkdivReg := ckdiv }
      if ckdiv = 0 then .error .divideByZero
      else
        .ok ({ dev with
          clk := BCM2711_CORE_FREQ / ckdiv
          delayReg := delayWord dev.delayReg ckdiv }, .ok)

/-- `cycles` of `bcm2711_wait_complete`: the bits of the bytes and of the address, and the stretches
of the clock. -/
def waitCycles (len : UInt32) : UInt64 := (len.toUInt64 + 1) * 9 + 64

/-- `timeout_ns` of `bcm2711_wait_complete`, from the start of the wait. -/
def timeoutNs (dev : Dev) (len : UInt32) : Except Fault UInt64 :=
  if dev.speed = 0 then .error .divideByZero
  else .ok (1000000000 / dev.speed.toUInt64 * waitCycles len * 5)

/-! ## What a call is to do -/

/-- The timeout for every length is at least the time of its cycles at the clock of the divider. -/
def WaitsLongEnough (dev : Dev) : Prop :=
  ∀ len, ∃ timeout, timeoutNs dev len = .ok timeout ∧
    (waitCycles len).toNat * dev.clkdivReg.toNat * 10 ^ 9 ≤
      timeout.toNat * BCM2711_CORE_FREQ.toNat

/-- The clock of the bus is not above the speed, the divider fits its field, and no wait is too
short. -/
structure Runs (dev : Dev) (speed : UInt32) : Prop where
  slow : BCM2711_CORE_FREQ.toNat ≤ speed.toNat * dev.clkdivReg.toNat
  fits : dev.clkdivReg.toNat < 2 ^ 16
  waits : WaitsLongEnough dev

/-- A call returns; one that fails leaves everything as it was, and one that succeeds sets a speed
that the bus keeps to. -/
def SetsSpeed (dev : Dev) (speed : UInt32) : Prop :=
  ∃ after ret, bcm2711SetBusSpeed dev speed = .ok (after, ret) ∧
    (ret = .fail_EINVAL → after = dev) ∧ (ret = .ok → Runs after speed)

variable {dev : Dev} {speed : UInt32}

/-! ## The branches -/

theorem core_toNat : BCM2711_CORE_FREQ.toNat = 500000000 := rfl

theorem quotient_toNat (speed : UInt32) :
    (BCM2711_CORE_FREQ / speed).toNat = 500000000 / speed.toNat := UInt32.toNat_div _ _

/-- The quotient is above its field for slow speeds. -/
theorem refused_iff (positive : speed ≠ 0) :
    BCM2711_CORE_FREQ / speed > CLKTREG_BIT_MSK ↔ speed.toNat ≤ 7629 := by
  have someSpeed : 0 < speed.toNat := Nat.pos_of_ne_zero fun zero =>
    positive (UInt32.toNat.inj zero)
  change CLKTREG_BIT_MSK.toNat < (BCM2711_CORE_FREQ / speed).toNat ↔ _
  have field : CLKTREG_BIT_MSK.toNat = 65535 := rfl
  rw [quotient_toNat, field, Nat.lt_div_iff_mul_lt someSpeed]
  omega

/-- The quotient is zero for speeds above the core clock. -/
theorem quotient_zero_iff (positive : speed ≠ 0) :
    BCM2711_CORE_FREQ / speed = 0 ↔ 500000000 < speed.toNat := by
  have someSpeed : 0 < speed.toNat := Nat.pos_of_ne_zero fun zero =>
    positive (UInt32.toNat.inj zero)
  rw [← UInt32.toNat_inj, quotient_toNat]
  exact Nat.div_eq_zero_iff_lt someSpeed

/-- The clock is not above the speed when the speed divides the core clock. -/
theorem slow_iff (speed : UInt32) :
    BCM2711_CORE_FREQ.toNat ≤ speed.toNat * (BCM2711_CORE_FREQ / speed).toNat ↔
      speed.toNat ∣ 500000000 := by
  rw [quotient_toNat, core_toNat, Nat.dvd_iff_div_mul_eq]
  have whole := Nat.div_mul_le_self 500000000 speed.toNat
  rw [Nat.mul_comm]
  constructor
  · intro large
    exact le_antisymm whole large
  · intro same
    exact same.ge

/-! ## Waiting -/

theorem waitCycles_toNat (len : UInt32) :
    (waitCycles len).toNat = (len.toNat + 1) * 9 + 64 := by
  have fits := len.toNat_lt
  have one : (1 : UInt64).toNat = 1 := rfl
  have nine : (9 : UInt64).toNat = 9 := rfl
  have stretch : (64 : UInt64).toNat = 64 := rfl
  rw [waitCycles, UInt64.toNat_add, UInt64.toNat_mul, UInt64.toNat_add, UInt32.toNat_toUInt64,
    one, nine, stretch]
  omega

/-- The timeout does not wrap for a speed that is not refused. -/
theorem timeoutNs_eq (dev : Dev) (len : UInt32) (fast : 7629 < dev.speed.toNat) :
    ∃ timeout, timeoutNs dev len = .ok timeout ∧
      timeout.toNat = 1000000000 / dev.speed.toNat * (waitCycles len).toNat * 5 := by
  have nonzero : dev.speed ≠ 0 := by
    intro zero
    rw [zero] at fast
    exact Nat.not_lt_zero _ fast
  refine ⟨_, if_neg nonzero, ?_⟩
  have fits := len.toNat_lt
  have cycles : (waitCycles len).toNat ≤ 38654705737 := by
    rw [waitCycles_toNat]
    omega
  have cycle : 1000000000 / dev.speed.toNat ≤ 131061 := by
    calc
      1000000000 / dev.speed.toNat ≤ 1000000000 / 7630 := Nat.div_le_div_left fast (by norm_num)
      _ ≤ 131061 := by norm_num
  have product : 1000000000 / dev.speed.toNat * (waitCycles len).toNat ≤ 131061 * 38654705737 :=
    Nat.mul_le_mul cycle cycles
  have billion : (1000000000 : UInt64).toNat = 1000000000 := rfl
  have five : (5 : UInt64).toNat = 5 := rfl
  rw [UInt64.toNat_mul, UInt64.toNat_mul, UInt64.toNat_div, UInt32.toNat_toUInt64, billion, five,
    Nat.mod_eq_of_lt (product.trans_lt (by norm_num))]
  exact Nat.mod_eq_of_lt (by omega)

/-- A speed that is not refused waits long enough for every length. -/
theorem waitsLongEnough (programmed : dev.clkdivReg = BCM2711_CORE_FREQ / dev.speed)
    (fast : 7629 < dev.speed.toNat) : WaitsLongEnough dev := by
  intro len
  obtain ⟨timeout, returned, value⟩ := timeoutNs_eq dev len fast
  refine ⟨timeout, returned, ?_⟩
  have cycle : 2 * (500000000 / dev.speed.toNat) ≤ 1000000000 / dev.speed.toNat := by
    have whole := Nat.div_mul_le_self 500000000 dev.speed.toNat
    rw [Nat.le_div_iff_mul_le (Nat.zero_lt_of_lt fast)]
    calc
      2 * (500000000 / dev.speed.toNat) * dev.speed.toNat =
          2 * (500000000 / dev.speed.toNat * dev.speed.toNat) := Nat.mul_assoc _ _ _
      _ ≤ 2 * 500000000 := Nat.mul_le_mul_left 2 whole
  rw [programmed, quotient_toNat, value, core_toNat]
  calc
    (waitCycles len).toNat * (500000000 / dev.speed.toNat) * 10 ^ 9 ≤
        2 * (500000000 / dev.speed.toNat) * (waitCycles len).toNat * 5 * 500000000 := by
      rw [Nat.mul_comm (waitCycles len).toNat, Nat.mul_assoc 2]
      omega
    _ ≤ 1000000000 / dev.speed.toNat * (waitCycles len).toNat * 5 * 500000000 :=
      Nat.mul_le_mul_right _ (Nat.mul_le_mul_right _ (Nat.mul_le_mul_right _ cycle))

/-! ## The call -/

/-- A speed that is refused stays behind. -/
theorem setBusSpeed_refused (positive : speed ≠ 0) (slow : speed.toNat ≤ 7629) :
    bcm2711SetBusSpeed dev speed = .ok ({ dev with speed := speed }, .fail_EINVAL) := by
  unfold bcm2711SetBusSpeed
  dsimp only
  rw [if_neg positive, if_pos ((refused_iff positive).mpr slow)]

/-- The device behind a speed that is taken. -/
def Dev.taken (dev : Dev) (speed : UInt32) : Dev where
  speed := speed
  clk := BCM2711_CORE_FREQ / (BCM2711_CORE_FREQ / speed)
  clkdivReg := BCM2711_CORE_FREQ / speed
  delayReg := delayWord dev.delayReg (BCM2711_CORE_FREQ / speed)

theorem setBusSpeed_taken (positive : speed ≠ 0) (fast : 7629 < speed.toNat)
    (inside : speed.toNat ≤ 500000000) :
    bcm2711SetBusSpeed dev speed = .ok (dev.taken speed, .ok) := by
  have nonzero : BCM2711_CORE_FREQ / speed ≠ 0 := fun zero =>
    absurd inside (not_le.mpr ((quotient_zero_iff positive).mp zero))
  have notRefused : ¬ BCM2711_CORE_FREQ / speed > CLKTREG_BIT_MSK := fun refused =>
    absurd fast (not_lt.mpr ((refused_iff positive).mp refused))
  unfold bcm2711SetBusSpeed
  dsimp only
  rw [if_neg positive, if_neg notRefused, if_neg nonzero]
  rfl

theorem setBusSpeed_faults (fault : speed = 0 ∨ 500000000 < speed.toNat) :
    bcm2711SetBusSpeed dev speed = .error .divideByZero := by
  unfold bcm2711SetBusSpeed
  dsimp only
  by_cases zero : speed = 0
  · rw [if_pos zero]
  · have large := fault.resolve_left zero
    have notRefused : ¬ BCM2711_CORE_FREQ / speed > CLKTREG_BIT_MSK := fun refused =>
      absurd ((refused_iff zero).mp refused) (by omega)
    rw [if_neg zero, if_neg notRefused, if_pos ((quotient_zero_iff zero).mpr large)]

/-- For every speed a call does what it is to do exactly when the speed is not zero and not above
the core clock, and either is too slow and is the one of the device already, or divides the core
clock. -/
theorem setsSpeed_iff (dev : Dev) (speed : UInt32) :
    SetsSpeed dev speed ↔
      speed ≠ 0 ∧ speed.toNat ≤ 500000000 ∧
        if speed.toNat ≤ 7629 then dev.speed = speed else speed.toNat ∣ 500000000 := by
  by_cases fault : speed = 0 ∨ 500000000 < speed.toNat
  · have faults := @setBusSpeed_faults dev speed fault
    constructor
    · rintro ⟨after, ret, returned, _⟩
      rw [faults] at returned
      cases returned
    · rintro ⟨positive, inside, _⟩
      rcases fault with zero | large
      · exact absurd zero positive
      · exact absurd inside (not_le.mpr large)
  · obtain ⟨positive, notLarge⟩ := not_or.mp fault
    have inside := not_lt.mp notLarge
    by_cases slow : speed.toNat ≤ 7629
    · rw [if_pos slow]
      have refused := @setBusSpeed_refused dev speed positive slow
      constructor
      · rintro ⟨after, ret, returned, keeps, _⟩
        rw [refused] at returned
        cases returned
        have same := congrArg Dev.speed (keeps rfl)
        exact ⟨positive, inside, same.symm⟩
      · rintro ⟨_, _, same⟩
        refine ⟨_, _, refused, fun _ => ?_, nofun⟩
        rw [← same]
    · rw [if_neg slow]
      have fast := not_le.mp slow
      have taken := @setBusSpeed_taken dev speed positive fast inside
      constructor
      · rintro ⟨after, ret, returned, _, runs⟩
        rw [taken] at returned
        cases returned
        exact ⟨positive, inside, (slow_iff speed).mp (runs rfl).slow⟩
      · rintro ⟨_, _, divides⟩
        refine ⟨_, _, taken, nofun, fun _ => ⟨(slow_iff speed).mpr divides, ?_, ?_⟩⟩
        · have notRefused := mt (refused_iff positive).mp slow
          have small : (BCM2711_CORE_FREQ / speed).toNat ≤ 65535 := not_lt.mp notRefused
          exact Nat.lt_succ_of_le small
        · exact waitsLongEnough rfl fast

/-- A device at 100 kHz. -/
def standardDev : Dev := ⟨100000, 100000, 5000, 0x004e04e2⟩

/-- 300 kHz do not divide the core clock, and the bus runs faster. -/
theorem threeHundred_fast :
    bcm2711SetBusSpeed standardDev 300000 =
        .ok (⟨300000, 300120, 1666, 0x004e01a0⟩, .ok) ∧
      300000 * 1666 < 500000000 ∧ ¬ SetsSpeed standardDev 300000 := by
  refine ⟨by decide, by norm_num, ?_⟩
  rintro ⟨after, ret, returned, _, runs⟩
  have taken : bcm2711SetBusSpeed standardDev 300000 =
      .ok (⟨300000, 300120, 1666, 0x004e01a0⟩, .ok) := by decide
  rw [taken] at returned
  cases returned
  exact absurd (runs rfl).slow (by decide)

end Bcm2711.I2c.Speed
