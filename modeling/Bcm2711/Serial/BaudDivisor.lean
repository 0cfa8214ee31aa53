import Bcm2711.Serial.Stty
import Bcm2711.Lib.Nearest

/-! # The baud divisor of the PL011

The debug driver of the startup and the serial driver divide the clock by the baud rate into an
integer and a fraction of 64ths.  The fraction is rounded by itself, and comes to 64 near the next
integer.
-/

namespace Bcm2711.Serial

open Runs Rounding

/-! ## The debug driver -/

namespace Debug

/-- `radix_value`. -/
def radixValue (c : UInt8) : Nat :=
  if 48 ≤ c ∧ c ≤ 57 then c.toNat - 48
  else if 97 ≤ c ∧ c ≤ 102 then c.toNat - 97 + 10
  else if 65 ≤ c ∧ c ≤ 70 then c.toNat - 65 + 10
  else 37

/-- `hexstr`. -/
def hexstr : List UInt8 → Bool
  | zero :: x :: _ => zero = 48 ∧ (x = 120 ∨ x = 88)
  | _ => false

/-- The value that is read on, and the text behind it. -/
def digits (base : Nat) : (value : BitVec 64) → List UInt8 → BitVec 64 × List UInt8
  | value, [] => (value, [])
  | value, c :: text =>
      if base ≤ radixValue c then (value, c :: text)
      else digits base (value * BitVec.ofNat 64 base + BitVec.ofNat 64 (radixValue c)) text

/-- `strtopaddr`, which is `strtoul` as well: the value, and the text at `*endptr`. -/
def strtopaddr (nptr : List UInt8) (base : Nat) : BitVec 64 × List UInt8 :=
  let base :=
    if base = 0 then if hexstr nptr then 16 else if nptr.head? = some 48 then 8 else 10 else base
  let startp := if base = 16 ∧ hexstr nptr then nptr.drop 2 else nptr
  let (value, p) := digits base 0 startp
  (value, if p.length = startp.length then nptr else p)

/-- The entry of `dbg_device`, the baud rate and the clock. -/
structure Line where
  base : BitVec 64
  shift : BitVec 32
  baud : BitVec 32
  clk : BitVec 32
deriving DecidableEq, Repr

/-- A field begins: there is neither its end nor the end of the line. -/
def present (line : List UInt8) : Bool := line.head? ≠ some 46 ∧ line ≠ []

/-- `if (*line == '.') ++line;` -/
def skipDot (line : List UInt8) : List UInt8 := if line.head? = some 46 then line.tail else line

/-- `parse_line`. -/
def parseLine (fields : Line) (line : List UInt8) : Line :=
  let (fields, line) :=
    if present line then
      let (base, line) := strtopaddr line 16
      let fields := { fields with base := base }
      if line.head? = some 94 then
        let (shift, line) := strtopaddr line.tail 0
        ({ fields with shift := shift.setWidth 32 }, line)
      else (fields, line)
    else (fields, line)
  let line := skipDot line
  let (fields, line) :=
    if present line then
      let (baud, line) := strtopaddr line 0
      ({ fields with baud := baud.setWidth 32 }, line)
    else (fields, line)
  let line := skipDot line
  if present line then { fields with clk := (strtopaddr line 0).1.setWidth 32 } else fields

/-- The fields that `init_pl011` goes on with. -/
def lineOf (base : BitVec 64) (shift : BitVec 32) (init defaults : List UInt8) : Line :=
  parseLine (parseLine ⟨base, shift, 57600, 14745600⟩ defaults) init

/-- The entry of `dbg_device` and the registers behind `init_pl011`, which waits until the UART is
not busy. -/
def initPl011 (bits : Pl011.Bits) (base : BitVec 64) (shift : BitVec 32)
    (init defaults : List UInt8) (regs : Pl011.Regs) : (BitVec 64 × BitVec 32) × Pl011.Regs :=
  let line := lineOf base shift init defaults
  let regs :=
    if line.baud ≠ 0 then
      let clk := line.clk / 16
      let ibrd := Pl011.ibrdFor clk line.baud
      let fbrd := Pl011.fbrdFor clk line.baud
      let regs := { regs with cr := 0 }
      let regs := { regs with icr := 0x7FF }
      let regs := { regs with ibrd := ibrd }
      let regs := { regs with fbrd := fbrd }
      { regs with lcrH := bits.LCR_H_WLEN8 ||| bits.LCR_H_FEN }
    else regs
  ((line.base, line.shift), { regs with cr := bits.CR_UARTEN ||| bits.CR_TXE ||| bits.CR_RXE })

end Debug

/-! ## What the divisor is to be -/

/-- A baud rate is positive and not above the clock, which is below 2²⁶. -/
structure InRange (clock baud : BitVec 32) : Prop where
  positive : 0 < baud.toNat
  below : baud.toNat ≤ clock.toNat
  small : clock.toNat < 2 ^ 26

/-- The fraction fits its field, and no number of 64ths is nearer to the quotient. -/
structure Approximates (clock baud ibrd fbrd : BitVec 32) : Prop where
  fits : fbrd.toNat ≤ 63
  nearest : Nearest (((64 * clock.toNat : ℤ) : ℚ) / (baud.toNat : ℤ))
    (64 * ibrd.toNat + fbrd.toNat)

/-- The remainder is not in the last 128th of the baud rate, and the quotient is not the one just
below the middle of two 64ths that an odd baud rate has. -/
def RoundsWell (clock baud : BitVec 32) : Prop :=
  128 * (clock.toNat % baud.toNat) < 127 * baud.toNat ∧ ¬ baud.toNat ∣ 128 * clock.toNat + 1

instance (clock baud : BitVec 32) : Decidable (RoundsWell clock baud) :=
  inferInstanceAs (Decidable (_ ∧ _))

variable {clock baud : BitVec 32}

/-! ## The words -/

theorem ibrdFor_toNat (clock baud : BitVec 32) :
    (Pl011.ibrdFor clock baud).toNat = clock.toNat / baud.toNat := BitVec.toNat_udiv

/-- The sum that is divided does not wrap. -/
theorem fbrdFor_toNat (inRange : InRange clock baud) :
    (Pl011.fbrdFor clock baud).toNat =
      (64 * (clock.toNat % baud.toNat) + (baud.toNat + 1) / 2) / baud.toNat := by
  have below := inRange.below
  have small := inRange.small
  have remainder := Nat.mod_lt clock.toNat inRange.positive
  have product : (clock % baud * 64#32).toNat = 64 * (clock.toNat % baud.toNat) := by
    rw [BitVec.toNat_mul, BitVec.toNat_umod]
    change clock.toNat % baud.toNat * 64 % 2 ^ 32 = _
    rw [Nat.mod_eq_of_lt (by omega), Nat.mul_comm]
  have half : ((baud + 1) >>> (1 : Nat)).toNat = (baud.toNat + 1) / 2 := by
    rw [BitVec.toNat_ushiftRight, BitVec.toNat_add]
    change ((baud.toNat + 1) % 2 ^ 32) >>> 1 = _
    rw [Nat.mod_eq_of_lt (by omega), Nat.shiftRight_eq_div_pow, Nat.pow_one]
  rw [Pl011.fbrdFor, BitVec.toNat_udiv, BitVec.toNat_add, product, half]
  have twice : 2 * (clock.toNat % baud.toNat) ≤ clock.toNat := by
    have whole := Nat.mod_add_div clock.toNat baud.toNat
    have once : 1 ≤ clock.toNat / baud.toNat := Nat.div_pos below inRange.positive
    have least : baud.toNat ≤ baud.toNat * (clock.toNat / baud.toNat) :=
      Nat.le_mul_of_pos_right _ once
    omega
  rw [Nat.mod_eq_of_lt (by omega)]

/-! ## The rounding -/

variable {rest divisor : Nat}

/-- The fraction fits when the remainder is not too near to the divisor. -/
theorem fraction_lt_iff (positive : 0 < divisor) (notBelow : ¬ divisor ∣ 128 * rest + 1) :
    (64 * rest + (divisor + 1) / 2) / divisor ≤ 63 ↔ 128 * rest < 127 * divisor := by
  have apart : 128 * rest + 1 ≠ 127 * divisor := by
    intro same
    exact notBelow (same ▸ Dvd.intro_left 127 rfl)
  rw [← Nat.lt_succ_iff, Nat.div_lt_iff_lt_mul positive]
  omega

/-- The sum is a multiple of an odd divisor just below the middle of two 64ths. -/
theorem below_middle_iff :
    divisor ∣ 128 * rest + 1 ↔ divisor % 2 = 1 ∧ divisor ∣ 64 * rest + (divisor + 1) / 2 := by
  constructor
  · intro divides
    have odd : divisor % 2 = 1 := by
      rcases Nat.mod_two_eq_zero_or_one divisor with even | odd
      · have two : 2 ∣ 128 * rest + 1 := (Nat.dvd_of_mod_eq_zero even).trans divides
        omega
      · exact odd
    refine ⟨odd, ?_⟩
    have twice : 2 * (64 * rest + (divisor + 1) / 2) = 128 * rest + 1 + divisor := by omega
    have coprime : Nat.Coprime divisor 2 := Nat.coprime_two_right.mpr (Nat.odd_iff.mpr odd)
    apply coprime.dvd_of_dvd_mul_left
    rw [twice]
    exact divides.add (Nat.dvd_refl divisor)
  · rintro ⟨odd, divides⟩
    have twice : 2 * (64 * rest + (divisor + 1) / 2) = 128 * rest + 1 + divisor := by omega
    apply (Nat.dvd_add_left (Nat.dvd_refl divisor)).mp
    rw [← twice]
    exact divides.mul_left 2

/-- The rounded fraction misses by half the divisor at most, but for an odd divisor that divides
the sum. -/
theorem miss_le_iff (positive : 0 < divisor) :
    2 * |(64 * rest : ℤ) - ((64 * rest + (divisor + 1) / 2) / divisor : ℕ) * divisor| ≤ divisor ↔
      ¬ divisor ∣ 128 * rest + 1 := by
  have whole := Nat.div_add_mod (64 * rest + (divisor + 1) / 2) divisor
  have small := Nat.mod_lt (64 * rest + (divisor + 1) / 2) positive
  rw [below_middle_iff, Nat.dvd_iff_mod_eq_zero]
  generalize left : (64 * rest + (divisor + 1) / 2) % divisor = excess at *
  generalize (64 * rest + (divisor + 1) / 2) / divisor = fraction at *
  have miss : (64 * rest : ℤ) - fraction * divisor = excess - ((divisor + 1) / 2 : ℕ) := by
    have cast : (divisor * fraction + excess : ℤ) = 64 * rest + ((divisor + 1) / 2 : ℕ) := by
      exact_mod_cast whole
    linarith
  rw [miss]
  rcases abs_cases ((excess : ℤ) - ((divisor + 1) / 2 : ℕ)) with ⟨value, _⟩ | ⟨value, _⟩ <;> omega

/-- The divisor of the formula is as it is to be exactly for what rounds well. -/
theorem approximates_iff (inRange : InRange clock baud) :
    Approximates clock baud (Pl011.ibrdFor clock baud) (Pl011.fbrdFor clock baud) ↔
      RoundsWell clock baud := by
  have positive := inRange.positive
  have whole := Nat.div_add_mod clock.toNat baud.toNat
  have remainder : baud.toNat ∣ 128 * clock.toNat + 1 ↔
      baud.toNat ∣ 128 * (clock.toNat % baud.toNat) + 1 := by
    have split : 128 * clock.toNat + 1 = baud.toNat * (128 * (clock.toNat / baud.toNat)) +
        (128 * (clock.toNat % baud.toNat) + 1) := by
      calc
        128 * clock.toNat + 1 = 128 * (baud.toNat * (clock.toNat / baud.toNat) +
            clock.toNat % baud.toNat) + 1 := by rw [whole]
        _ = _ := by ring
    rw [split]
    exact Nat.dvd_add_right (Nat.dvd_mul_right _ _)
  have near : Nearest (((64 * clock.toNat : ℤ) : ℚ) / (baud.toNat : ℤ))
      (64 * (Pl011.ibrdFor clock baud).toNat + (Pl011.fbrdFor clock baud).toNat) ↔
        ¬ baud.toNat ∣ 128 * (clock.toNat % baud.toNat) + 1 := by
    rw [nearest_div_iff (Int.ofNat_lt.mpr positive), ← miss_le_iff positive,
      fbrdFor_toNat inRange, ibrdFor_toNat]
    have error : (64 * clock.toNat : ℤ) - (64 * (clock.toNat / baud.toNat : ℕ) +
        ((64 * (clock.toNat % baud.toNat) + (baud.toNat + 1) / 2) / baud.toNat : ℕ)) * baud.toNat =
        64 * (clock.toNat % baud.toNat : ℕ) -
        ((64 * (clock.toNat % baud.toNat) + (baud.toNat + 1) / 2) / baud.toNat : ℕ) *
          baud.toNat := by
      have cast :
          (baud.toNat * (clock.toNat / baud.toNat : ℕ) + (clock.toNat % baud.toNat : ℕ) : ℤ) =
            clock.toNat := by exact_mod_cast whole
      linear_combination -64 * cast
    rw [error]
  constructor
  · intro approximates
    have notBelow := near.mp approximates.nearest
    have fits := approximates.fits
    rw [fbrdFor_toNat inRange] at fits
    exact ⟨(fraction_lt_iff positive notBelow).mp fits, mt remainder.mp notBelow⟩
  · rintro ⟨front, notBelow⟩
    have apart := mt remainder.mpr notBelow
    refine ⟨?_, near.mpr apart⟩
    rw [fbrdFor_toNat inRange]
    exact (fraction_lt_iff positive apart).mpr front

/-! ## The drivers -/

variable {bits : Pl011.Bits} {base : BitVec 64} {shift : BitVec 32} {init defaults : List UInt8}
  {line : Debug.Line} {debugRegs debugAfter : Pl011.Regs} {entry : BitVec 64 × BitVec 32}

/-- The debug driver programs the divisor of its line. -/
theorem initPl011_divisor (parsed : Debug.lineOf base shift init defaults = line)
    (returned : Debug.initPl011 bits base shift init defaults debugRegs = (entry, debugAfter))
    (positive : 0 < line.baud.toNat) :
    debugAfter.ibrd = Pl011.ibrdFor (line.clk / 16) line.baud ∧
      debugAfter.fbrd = Pl011.fbrdFor (line.clk / 16) line.baud := by
  have nonzero : line.baud ≠ 0 := by
    intro zero
    rw [zero] at positive
    exact Nat.not_lt_zero _ positive
  unfold Debug.initPl011 at returned
  dsimp only at returned
  rw [parsed, if_pos nonzero] at returned
  cases returned
  exact ⟨rfl, rfl⟩

/-- The serial driver programs the divisor of the last settings, after every history. -/
theorem stty_divisor {config : Pl011.Config} {regs : Pl011.Regs}
    {history : List (Event Settings Unit)} {dev after : Pl011.Dev} {settings : Settings}
    (ran : Run (Pl011.step bits) (fun _ _ call => Pl011.Supported call)
      (Pl011.created config regs) history dev)
    (supported : Pl011.Supported settings)
    (returned : Pl011.serStty bits dev settings = .ok after) :
    after.ibrd = Pl011.ibrdFor (config.clk / config.div) settings.baud ∧
      after.fbrd = Pl011.fbrdFor (config.clk / config.div) settings.baud := by
  have settled := Pl011.settled_of_run ran
  have divides : config.div ≠ 0 := by
    intro zero
    rcases settled with rfl | ⟨_, _, programmed⟩
    · rw [Pl011.serStty_faults supported zero] at returned
      cases returned
    · exact programmed.div zero
  obtain ⟨next, returns, programmed⟩ :=
    @Pl011.serStty_programs bits _ _ _ _ settled supported divides
  rw [returned] at returns
  cases returns
  exact ⟨programmed.ibrd, programmed.fbrd⟩

/-- For every line of the debug driver, and for every history and settings of the serial driver,
whose rates are in range, the divisor is as it is to be exactly when they round well. -/
theorem divisor_approximates_iff {config : Pl011.Config} {regs : Pl011.Regs}
    {history : List (Event Settings Unit)} {dev after : Pl011.Dev} {settings : Settings}
    (parsed : Debug.lineOf base shift init defaults = line)
    (debugReturned : Debug.initPl011 bits base shift init defaults debugRegs = (entry, debugAfter))
    (lineInRange : InRange (line.clk / 16) line.baud)
    (ran : Run (Pl011.step bits) (fun _ _ call => Pl011.Supported call)
      (Pl011.created config regs) history dev)
    (returned : Pl011.serStty bits dev settings = .ok after)
    (inRange : InRange (config.clk / config.div) settings.baud) :
    (Approximates (line.clk / 16) line.baud debugAfter.ibrd debugAfter.fbrd ↔
        RoundsWell (line.clk / 16) line.baud) ∧
      (Approximates (config.clk / config.div) settings.baud after.ibrd after.fbrd ↔
        RoundsWell (config.clk / config.div) settings.baud) := by
  have supported : Pl011.Supported settings := by
    intro zero
    have positive := inRange.positive
    rw [zero] at positive
    exact Nat.not_lt_zero _ positive
  obtain ⟨debugIbrd, debugFbrd⟩ := initPl011_divisor parsed debugReturned lineInRange.positive
  obtain ⟨ibrd, fbrd⟩ := stty_divisor ran supported returned
  constructor
  · rw [debugIbrd, debugFbrd]
    exact approximates_iff lineInRange
  · rw [ibrd, fbrd]
    exact approximates_iff inRange

/-- The line ".428572.48000000". -/
def fastLine : List UInt8 :=
  [46, 52, 50, 56, 53, 55, 50, 46, 52, 56, 48, 48, 48, 48, 48, 48]

/-- The line of the debug driver, and the settings, for 428572 baud of a clock of 3 MHz. -/
def fastDebugLine : Debug.Line := ⟨0xfe201000, 0, 428572, 48000000⟩

def fast : Settings := { plain with baud := 428572 }

/-- The registers behind the debug driver at this rate. -/
def fastDebugRegs : Pl011.Regs := ⟨0x301, 0, 0x70, 0x12, 0, 0x7ff, 6, 64, 0⟩

/-- The serial driver at this rate. -/
def fastDev : Pl011.Dev :=
  ⟨Pl011.boardConfig, 428572, 0x70, 6, 64, 0x301, 0x50,
    ⟨0x301, 0, 0x70, 0x12, 0x1ff, 0x7ff, 6, 64, 0x50⟩⟩

/-- Both drivers program a fraction of 64. -/
theorem fast_fraction :
    Debug.lineOf 0xfe201000 0 fastLine [] = fastDebugLine ∧
      InRange (fastDebugLine.clk / 16) fastDebugLine.baud ∧
      Debug.initPl011 Pl011.armBits 0xfe201000 0 fastLine [] Pl011.resetRegs =
        ((0xfe201000, 0), fastDebugRegs) ∧
      Pl011.serStty Pl011.armBits (Pl011.created Pl011.boardConfig Pl011.resetRegs) fast =
        .ok fastDev ∧
      ¬ Approximates (fastDebugLine.clk / 16) fastDebugLine.baud fastDebugRegs.ibrd
        fastDebugRegs.fbrd ∧
      ¬ Approximates (Pl011.boardConfig.clk / Pl011.boardConfig.div) fast.baud fastDev.ibrd
        fastDev.fbrd := by
  refine ⟨by decide, ⟨by decide, by decide, by decide⟩, by decide, by decide, ?_, ?_⟩
  · rintro ⟨fits, _⟩
    exact absurd fits (by decide)
  · rintro ⟨fits, _⟩
    exact absurd fits (by decide)

/-- The serial driver at 115200 baud. -/
def plainDev : Pl011.Dev :=
  ⟨Pl011.boardConfig, 115200, 0x70, 26, 3, 0x301, 0x50,
    ⟨0x301, 0, 0x70, 0x12, 0x1ff, 0x7ff, 26, 3, 0x50⟩⟩

/-- 428572 baud of a clock of 3 MHz in the debug driver, and 115200 baud in the serial driver. -/
theorem fast_and_plain :
    (Approximates (fastDebugLine.clk / 16) fastDebugLine.baud fastDebugRegs.ibrd
        fastDebugRegs.fbrd ↔ RoundsWell (fastDebugLine.clk / 16) fastDebugLine.baud) ∧
      (Approximates (Pl011.boardConfig.clk / Pl011.boardConfig.div) plain.baud plainDev.ibrd
          plainDev.fbrd ↔
        RoundsWell (Pl011.boardConfig.clk / Pl011.boardConfig.div) plain.baud) := by
  have parsed : Debug.lineOf 0xfe201000 0 fastLine [] = fastDebugLine := by decide
  have debugReturned : Debug.initPl011 Pl011.armBits 0xfe201000 0 fastLine [] Pl011.resetRegs =
      ((0xfe201000, 0), fastDebugRegs) := by decide
  have returned : Pl011.serStty Pl011.armBits
      (Pl011.created Pl011.boardConfig Pl011.resetRegs) plain = .ok plainDev := by decide
  exact divisor_approximates_iff parsed debugReturned ⟨by decide, by decide, by decide⟩ Run.start
    returned ⟨by decide, by decide, by decide⟩

end Bcm2711.Serial
