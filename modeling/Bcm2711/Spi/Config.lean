import Mathlib

/-! # Configuring the devices of an SPI bus

Several devices share one controller.  `bcm2711_cfg` turns a device's configuration into
its control word and, when the rate differs from the one it remembers for that device,
programs the controller's clock divider.
-/

namespace Bcm2711.Spi

/-! ## Data -/

/-- The mode word of an `spi_cfg_t`: where `hw/io-spi.h` puts the width and the polarities,
and how it writes the two widths the controller has. -/
structure ModeBits where
  wordWidthMask : BitVec 32
  wordWidth8 : BitVec 32
  wordWidth32 : BitVec 32
  csPolHigh : BitVec 32
  cPol1 : BitVec 32
  cPha1 : BitVec 32
deriving DecidableEq, Repr

/-- `spi_cfg_t`. -/
structure SpiCfg where
  mode : BitVec 32
  clockRate : UInt32
deriving DecidableEq, Repr

/-- `spi_dev_t`, with the fields of its `devinfo`. -/
structure SpiDev where
  devno : BitVec 32
  cfg : SpiCfg
  currentClkrate : UInt32
  devctrl : BitVec 32
deriving DecidableEq, Repr

/-- The status a driver function returns. -/
inductive Status where
  | EOK
  | EINVAL
  | EIO
  | ETIMEDOUT
  /-- The `errno` a missing function left. -/
  | errno (code : Nat)
deriving DecidableEq, Repr

/-- How a driver function stops without returning. -/
inductive Fault where
  | divideByZero
deriving DecidableEq, Repr

def BCM2711_SPI_CS_MAX : BitVec 32 := 2

def BCM2711_SPI_MIN_CDIV : UInt32 := 2

def BCM2711_SPI_MAX_CDIV : UInt32 := 65536

/-- A bit of the CS register. -/
def csBit (position : Nat) : BitVec 32 := 1#32 <<< position

def SPI_CS_CPHA : Nat := 2

def SPI_CS_CPOL : Nat := 3

def SPI_CS_CSPOL : Nat := 6

def SPI_CS_TA : Nat := 7

def SPI_CS_DMAEN : Nat := 8

def SPI_CS_INTD : Nat := 9

def SPI_CS_INTR : Nat := 10

def SPI_CS_ADCS : Nat := 11

/-! ## The control word -/

/-- Only words of 8 and of 32 bits are supported. -/
def widthSupported (io : ModeBits) (mode : BitVec 32) : Bool :=
  mode &&& io.wordWidthMask = io.wordWidth32 || mode &&& io.wordWidthMask = io.wordWidth8

/-- The width of a mode word in bytes, `dwidth`. -/
def widthBytes (io : ModeBits) (mode : BitVec 32) : BitVec 32 :=
  (mode &&& io.wordWidthMask) >>> 3

/-- A bit of the control word that a flag of the mode word asks for. -/
def ctrlFlag (mode flag : BitVec 32) (position : Nat) : BitVec 32 :=
  if mode &&& flag = 0 then 0 else csBit position

/-- The control word of a device with this mode word: polarities, phase and chip select. -/
def ctrlOf (io : ModeBits) (mode devno : BitVec 32) : BitVec 32 :=
  ctrlFlag mode io.csPolHigh SPI_CS_CSPOL ||| ctrlFlag mode io.cPol1 SPI_CS_CPOL |||
    ctrlFlag mode io.cPha1 SPI_CS_CPHA ||| devno

/-- Whether `bcm2711_cfg` takes a mode word for this device. -/
def accepts (io : ModeBits) (mode devno : BitVec 32) : Bool :=
  devno ≤ BCM2711_SPI_CS_MAX && widthSupported io mode

/-! ## The clock -/

/-- The divisor for a target rate: between the bounds and even. -/
def evenDivisor (divisor : UInt32) : UInt32 :=
  if divisor < BCM2711_SPI_MIN_CDIV then BCM2711_SPI_MIN_CDIV
  else if divisor ≥ BCM2711_SPI_MAX_CDIV then BCM2711_SPI_MAX_CDIV
  else divisor + divisor % 2

/-- The rate the controller can give for a requested one, `cfg->clock_rate` afterwards. -/
def bestRate (inputClk : UInt64) (clockRate : UInt32) : UInt32 :=
  let divisor := ((inputClk + (clockRate / 2).toUInt64) / clockRate.toUInt64).toUInt32
  (inputClk / (evenDivisor divisor).toUInt64).toUInt32

/-- The divider written to CLK for a rate. -/
def cdivOf (inputClk : UInt64) (clockRate : UInt32) : UInt32 :=
  let val := (inputClk / clockRate.toUInt64).toUInt32
  if val ≥ BCM2711_SPI_MAX_CDIV then 0 else val.toUInt16.toUInt32

/-- The rate and the CLK register after `bcm2711_cfg` looked at a requested rate. -/
def programClock (inputClk : UInt64) (clk current requested : UInt32) :
    Except Fault (UInt32 × UInt32) :=
  if current ≠ requested then
    if requested = 0 then .error .divideByZero
    else
      let best := bestRate inputClk requested
      if best = 0 then .error .divideByZero else .ok (best, cdivOf inputClk best)
  else .ok (current, clk)

/-! ## Configuration calls -/

/-- The registers and devices after a call, with its status. -/
structure Configured where
  dev : SpiDev
  clk : UInt32
  status : Status
deriving DecidableEq, Repr

/-- `bcm2711_cfg`. -/
def bcm2711Cfg (io : ModeBits) (inputClk : UInt64) (clk : UInt32) (dev : SpiDev) :
    Except Fault Configured :=
  if dev.devno > BCM2711_SPI_CS_MAX then .ok ⟨dev, clk, .EINVAL⟩
  else if !widthSupported io dev.cfg.mode then .ok ⟨dev, clk, .EINVAL⟩
  else
    match programClock inputClk clk dev.currentClkrate dev.cfg.clockRate with
    | .error fault => .error fault
    | .ok (rate, clk) =>
        .ok ⟨{ dev with
          cfg := { dev.cfg with clockRate := rate }
          currentClkrate := rate
          devctrl := ctrlOf io dev.cfg.mode dev.devno }, clk, .EOK⟩

/-- `bcm2711spi_setcfg`: the configuration is stored before it is checked. -/
def bcm2711spiSetcfg (io : ModeBits) (inputClk : UInt64) (clk : UInt32) (dev : SpiDev)
    (cfg : SpiCfg) : Except Fault Configured :=
  bcm2711Cfg io inputClk clk { dev with cfg := cfg }

/-! ## What a configuration call does -/

/-- The clock is left alone for the remembered rate and programmed for any other. -/
theorem programClock_ok {inputClk : UInt64} {clk current requested rate clkAfter : UInt32}
    (programmed : programClock inputClk clk current requested = .ok (rate, clkAfter)) :
    (current = requested ∧ rate = current ∧ clkAfter = clk) ∨
      (current ≠ requested ∧ rate = bestRate inputClk requested ∧
        clkAfter = cdivOf inputClk rate) := by
  unfold programClock at programmed
  split at programmed
  · next differs =>
      split at programmed
      · cases programmed
      · simp only at programmed
        split at programmed
        · cases programmed
        · cases programmed
          exact .inr ⟨differs, rfl, rfl⟩
  · next same =>
      cases programmed
      exact .inl ⟨not_not.mp same, rfl, rfl⟩

/-- What `bcm2711_cfg` does to a device and the clock. -/
theorem bcm2711Cfg_ok {io : ModeBits} {inputClk : UInt64} {clk : UInt32} {dev : SpiDev}
    {done : Configured} (returned : bcm2711Cfg io inputClk clk dev = .ok done) :
    (accepts io dev.cfg.mode dev.devno = false ∧ done = ⟨dev, clk, .EINVAL⟩) ∨
      (accepts io dev.cfg.mode dev.devno = true ∧ ∃ rate clkAfter,
        programClock inputClk clk dev.currentClkrate dev.cfg.clockRate = .ok (rate, clkAfter) ∧
        done = ⟨{ dev with
          cfg := { dev.cfg with clockRate := rate }
          currentClkrate := rate
          devctrl := ctrlOf io dev.cfg.mode dev.devno }, clkAfter, .EOK⟩) := by
  unfold bcm2711Cfg at returned
  split at returned
  · next large =>
      cases returned
      refine .inl ⟨?_, rfl⟩
      simp only [accepts, Bool.and_eq_false_iff, decide_eq_false_iff_not]
      exact .inl (BitVec.not_le.mpr large)
  · next small =>
      split at returned
      · next unsupported =>
          cases returned
          refine .inl ⟨?_, rfl⟩
          simp only [accepts, Bool.and_eq_false_iff]
          exact .inr (Bool.not_eq_true' _ |>.mp unsupported)
      · next supported =>
          split at returned
          · cases returned
          · next rate clkAfter programmed =>
              cases returned
              refine .inr ⟨?_, rate, clkAfter, programmed, rfl⟩
              simp only [accepts, Bool.and_eq_true, decide_eq_true_eq]
              exact ⟨BitVec.not_lt.mp small, by simpa using supported⟩

/-! ## The bits of the control word -/

/-- The bits of the CS register that belong to the configuration. -/
def configMask : BitVec 32 :=
  csBit SPI_CS_CSPOL ||| csBit SPI_CS_CPOL ||| csBit SPI_CS_CPHA ||| 3

/-- A flag of the control word keeps to its own bit. -/
theorem ctrlFlag_and {mode flag mask : BitVec 32} {position : Nat}
    (inside : csBit position &&& mask = 0#32) : ctrlFlag mode flag position &&& mask = 0#32 := by
  unfold ctrlFlag
  split
  · exact BitVec.zero_and
  · exact inside

/-- The chip select of a device that can be configured keeps to the two low bits. -/
theorem devno_and {devno mask : BitVec 32} (small : devno ≤ BCM2711_SPI_CS_MAX)
    (inside : 3 &&& mask = 0#32) : devno &&& mask = 0#32 := by
  have cases : devno = 0 ∨ devno = 1 ∨ devno = 2 := by
    unfold BCM2711_SPI_CS_MAX at small
    bv_omega
  have within : devno &&& 3 = devno := by
    rcases cases with rfl | rfl | rfl <;> rfl
  rw [← within, BitVec.and_assoc, inside, BitVec.and_zero]

/-- A control word has no bit outside the configuration's. -/
theorem ctrlOf_and {io : ModeBits} {mode devno mask : BitVec 32}
    (accepted : accepts io mode devno = true) (outside : configMask &&& mask = 0#32) :
    ctrlOf io mode devno &&& mask = 0#32 := by
  simp only [accepts, Bool.and_eq_true, decide_eq_true_eq] at accepted
  simp only [configMask, BitVec.and_or_distrib_right, BitVec.or_eq_zero_iff] at outside
  obtain ⟨⟨⟨polarity, clockPolarity⟩, phase⟩, select⟩ := outside
  simp only [ctrlOf, BitVec.and_or_distrib_right, BitVec.or_eq_zero_iff]
  exact ⟨⟨⟨ctrlFlag_and polarity, ctrlFlag_and clockPolarity⟩, ctrlFlag_and phase⟩,
    devno_and accepted.1 select⟩

/-- A control word is made of the configuration's bits. -/
theorem ctrlOf_and_configMask {io : ModeBits} {mode devno : BitVec 32}
    (accepted : accepts io mode devno = true) :
    ctrlOf io mode devno &&& configMask = ctrlOf io mode devno := by
  have none : ctrlOf io mode devno &&& ~~~configMask = 0#32 :=
    ctrlOf_and accepted (by decide)
  calc ctrlOf io mode devno &&& configMask
      = (ctrlOf io mode devno &&& configMask) ||| (ctrlOf io mode devno &&& ~~~configMask) := by
        rw [none, BitVec.or_zero]
    _ = ctrlOf io mode devno &&& (configMask ||| ~~~configMask) := by
        rw [BitVec.and_or_distrib_left]
    _ = ctrlOf io mode devno := by
        have all : configMask ||| ~~~configMask = BitVec.allOnes 32 := by decide
        rw [all, BitVec.and_allOnes]

end Bcm2711.Spi
