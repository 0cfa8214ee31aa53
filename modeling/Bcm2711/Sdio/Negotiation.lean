import Mathlib

/-! # Negotiation of the bus mode of an MMC

`mmc_init_bus` tries the modes of the card from the fastest to the slowest.  Each attempt is a
sequence of calls that returns at its first failure, with what it has changed on either side
left as it is; the attempts after it look at `dev->flags`, which keeps the flags of an earlier
initialisation.

The model gives each call whose result is looked at an outcome of its own.  The results of
`sdio_bus_width`, and of `sdio_timing` for DDR50 and for low speed, are discarded; these calls
are taken to do what they are for, as those of `sdhci.c`, which always return `EOK`, do.  The
clock rate is left out.
-/

namespace Bcm2711.Sdio.Negotiation

/-! ## The two sides of the bus -/

/-- The `TIMING_*` that the MMC code asks of the host. -/
inductive Timing where
  | ls
  | hs
  | ddr50
  | hs200
  | hs400
  | hs400es
deriving DecidableEq, Repr

/-- What the host drives, and the two registers of the card. -/
structure Bus where
  timing : Timing
  width : Nat
  /-- `ECSD_HS_TIMING` of the card, with the driver type above the mode. -/
  hsTiming : Nat
  /-- `ECSD_BUS_WIDTH` of the card. -/
  busWidth : Nat
deriving DecidableEq, Repr

def ECSD_BUS_WIDTH_8 : Nat := 2
def ECSD_BUS_WIDTH_DDR : Nat := 4
def ECSD_BUS_WIDTH_ES : Nat := 0x80
def ECSD_HS_TIMING_DRV_TYPE_SHFT : Nat := 4
def ECSD_HS_TIMING_HS400 : Nat := 3
def ECSD_HS_TIMING_HS200 : Nat := 2
def ECSD_HS_TIMING_HS : Nat := 1
def ECSD_HS_TIMING_LS : Nat := 0
def DTR_MAX_HS52 : Nat := 52000000
def DTR_MAX_HS26 : Nat := 26000000
def DTR_HS_DEC : Nat := 5000000

/-- The mode in `ECSD_HS_TIMING`, without the driver type. -/
def cardMode (hsTiming : Nat) : Nat := hsTiming % 2 ^ ECSD_HS_TIMING_DRV_TYPE_SHFT

/-- The number of data lines that a value of `ECSD_BUS_WIDTH` names. -/
def cardLines (busWidth : Nat) : Nat :=
  match busWidth % 4 with
  | 0 => 1
  | 1 => 4
  | 2 => 8
  | _ => 0

/-- The value asks for both edges of the clock. -/
def cardDdr (busWidth : Nat) : Bool := busWidth.testBit 2

/-- The value asks for the enhanced strobe. -/
def cardStrobe (busWidth : Nat) : Bool := busWidth.testBit 7

/-- The mode of the card, and whether it uses both edges and the strobe, in a timing of the
host. -/
def Timing.expects : Timing → Nat × Bool × Bool
  | .ls => (ECSD_HS_TIMING_LS, false, false)
  | .hs => (ECSD_HS_TIMING_HS, false, false)
  | .ddr50 => (ECSD_HS_TIMING_HS, true, false)
  | .hs200 => (ECSD_HS_TIMING_HS200, false, false)
  | .hs400 => (ECSD_HS_TIMING_HS400, true, false)
  | .hs400es => (ECSD_HS_TIMING_HS400, true, true)

/-- The host drives the bus as the registers of the card say. -/
def Bus.Agrees (bus : Bus) : Prop :=
  (cardMode bus.hsTiming, cardDdr bus.busWidth, cardStrobe bus.busWidth) = bus.timing.expects ∧
    cardLines bus.busWidth = bus.width

instance (bus : Bus) : Decidable bus.Agrees := inferInstanceAs (Decidable (_ ∧ _))

/-! ## The device and the host controller -/

/-- One bit for each mode: those of `dev->flags`, or those of `dev->caps`. -/
structure Modes where
  hs400es : Bool
  hs400 : Bool
  hs200 : Bool
  hs : Bool
  ddr : Bool
deriving DecidableEq, Repr

/-- No mode. -/
def Modes.none : Modes := ⟨false, false, false, false, false⟩

/-- The bits of `ecsd.card_type` that the negotiation reads. -/
structure CardType where
  hs400v12 : Bool
  hs400v18 : Bool
  hs200v12 : Bool
  hs200v18 : Bool
  ddrv12 : Bool
deriving DecidableEq, Repr

/-- What the negotiation reads and writes of `sdio_dev_t`. -/
structure Device where
  caps : Modes
  flags : Modes
  cardType : CardType
  dtrMaxHs : Nat
deriving DecidableEq, Repr

/-- `HC_CAP_BW8`, `HC_CAP_BW4`, `HC_CAP_SV_1_2V`, `HC_CAP_SV_1_8V` and `hc->drv_type`. -/
structure Host where
  bw8 : Bool
  bw4 : Bool
  sv12 : Bool
  sv18 : Bool
  drvType : Nat
deriving DecidableEq, Repr

/-- `mmc_bus_width`, without the bus test. -/
def mmcBusWidth (hc : Host) : Nat :=
  if hc.bw8 then 8 else if hc.bw4 then 4 else 1

/-- The value of `ECSD_HS_TIMING` for a mode with the driver type of the host. -/
def drivenTiming (hc : Host) (mode : Nat) : Nat :=
  hc.drvType <<< ECSD_HS_TIMING_DRV_TYPE_SHFT ||| mode

/-! ## The outcome of each call -/

/-- Whether `sdio_signal_voltage` succeeds for 1.2 V and for 1.8 V. -/
structure VoltageCalls where
  v12 : Bool
  v18 : Bool
deriving DecidableEq, Repr

/-- The calls of `mmc_init_hs` that succeed. -/
structure HsCalls where
  hsTiming : Bool
  timing : Bool
deriving DecidableEq, Repr

/-- The calls of `_mmc_init_hs200` that succeed. -/
structure Hs200Calls where
  busWidth : Bool
  hsTiming : Bool
  timing : Bool
  tune : Bool
deriving DecidableEq, Repr

/-- The calls of `mmc_init_hs400es` that succeed, after the voltage. -/
structure Hs400esCalls where
  busWidth : Bool
  hsTiming : Bool
  timing : Bool
  strobeWidth : Bool
  hs400Timing : Bool
  strobeTiming : Bool
deriving DecidableEq, Repr

/-- The calls of `mmc_hs200_to_hs400` that succeed.  `readyHs` is the wait for the card after
the step back to HS, `ready` the one at the end. -/
structure ToHs400Calls where
  hsTiming : Bool
  timing : Bool
  readyHs : Bool
  ddrWidth : Bool
  hs400Timing : Bool
  hs400Host : Bool
  ready : Bool
deriving DecidableEq, Repr

/-- The outcomes of all calls of `mmc_init_bus`. -/
structure Outcomes where
  esVoltage : VoltageCalls
  es : Hs400esCalls
  hs400Voltage : VoltageCalls
  /-- `_mmc_init_hs200` on the way to HS400. -/
  tuned : Hs200Calls
  toHs400 : ToHs400Calls
  hs200Voltage : VoltageCalls
  hs200 : Hs200Calls
  hs : HsCalls
  ddrVoltage : Bool
  ddrWidth : Bool
  sdrWidth : Bool
  blockLength : Bool
deriving DecidableEq, Repr

/-! ## The sequences -/

/-- The device, the bus, and what the source does not record: the modes whose whole sequence
has succeeded in this call. -/
structure State where
  dev : Device
  bus : Bus
  completed : Modes
deriving DecidableEq, Repr

/-- The choice of the signal voltage at the start of an attempt: 1.2 V where both sides have
it, and 1.8 V where that fails or is not there. -/
def signalVoltage (try12 try18 : Bool) (calls : VoltageCalls) : Bool :=
  let status := if try12 then calls.v12 else false
  if !status && try18 then calls.v18 else status

/-- `mmc_init_hs`. -/
def mmcInitHs (calls : HsCalls) (s : State) : Bool × State :=
  let s := if DTR_MAX_HS52 < s.dev.dtrMaxHs then
    { s with dev := { s.dev with dtrMaxHs := DTR_MAX_HS52 } } else s
  if !calls.hsTiming then (false, s) else
  let s := { s with bus := { s.bus with hsTiming := ECSD_HS_TIMING_HS } }
  if !calls.timing then (false, s) else
  (true, { s with
    bus := { s.bus with timing := .hs }
    dev := { s.dev with flags := { s.dev.flags with hs := true } }
    completed := { s.completed with hs := true } })

/-- `_mmc_init_hs200`. -/
def mmcInitHs200Calls (hc : Host) (calls : Hs200Calls) (busWidth : Nat) (s : State) :
    Bool × State :=
  if !calls.busWidth then (false, s) else
  let s := { s with bus := { s.bus with busWidth := busWidth / 4, width := busWidth } }
  if !calls.hsTiming then (false, s) else
  let s := { s with bus := { s.bus with hsTiming := drivenTiming hc ECSD_HS_TIMING_HS200 } }
  if !calls.timing then (false, s) else
  let s := { s with bus := { s.bus with timing := .hs200 } }
  if !calls.tune then (false, s) else
  (true, { s with completed := { s.completed with hs200 := true } })

/-- The flag that `mmc_init_hs200` and `mmc_init_hs400` set when `_mmc_init_hs200` succeeds. -/
def flagHs200 (result : Bool × State) : State :=
  if result.1 then
    { result.2 with
      dev := { result.2.dev with flags := { result.2.dev.flags with hs200 := true } } }
  else result.2

/-- `mmc_init_hs200`. -/
def mmcInitHs200 (hc : Host) (voltage : VoltageCalls) (calls : Hs200Calls) (busWidth : Nat)
    (s : State) : Bool × State :=
  let type := s.dev.cardType
  if !signalVoltage (type.hs200v12 && hc.sv12) (type.hs200v18 && hc.sv18) voltage then (false, s)
  else
    let result := mmcInitHs200Calls hc calls busWidth s
    (result.1, flagHs200 result)

/-- `mmc_init_hs400es`. -/
def mmcInitHs400es (hc : Host) (voltage : VoltageCalls) (calls : Hs400esCalls) (busWidth : Nat)
    (s : State) : Bool × State :=
  let type := s.dev.cardType
  if !signalVoltage (type.hs400v12 && hc.sv12) (type.hs400v18 && hc.sv18) voltage then (false, s)
  else
  if !calls.busWidth then (false, s) else
  let s := { s with bus := { s.bus with busWidth := busWidth / 4, width := busWidth } }
  if !calls.hsTiming then (false, s) else
  let s := { s with bus := { s.bus with hsTiming := ECSD_HS_TIMING_HS } }
  if !calls.timing then (false, s) else
  let s := { s with bus := { s.bus with timing := .hs } }
  if !calls.strobeWidth then (false, s) else
  let s := { s with bus := { s.bus with
    busWidth := ECSD_BUS_WIDTH_ES ||| ECSD_BUS_WIDTH_8 ||| ECSD_BUS_WIDTH_DDR } }
  if !calls.hs400Timing then (false, s) else
  let s := { s with bus := { s.bus with hsTiming := drivenTiming hc ECSD_HS_TIMING_HS400 } }
  if !calls.strobeTiming then (false, s) else
  (true, { s with
    bus := { s.bus with timing := .hs400es }
    dev := { s.dev with flags := { s.dev.flags with hs400es := true } }
    completed := { s.completed with hs400es := true } })

/-- `mmc_hs200_to_hs400`.  HS400 is complete when the tuning in HS200 was, and the card got
ready both times. -/
def mmcHs200ToHs400 (hc : Host) (calls : ToHs400Calls) (s : State) : Bool × State :=
  if !calls.hsTiming then (false, s) else
  let s := { s with bus := { s.bus with hsTiming := ECSD_HS_TIMING_HS } }
  if !calls.timing then (false, s) else
  let s := { s with bus := { s.bus with timing := .hs } }
  -- A card that does not get ready here is only logged.
  if !calls.ddrWidth then (false, s) else
  let s := { s with bus := { s.bus with busWidth := ECSD_BUS_WIDTH_8 ||| ECSD_BUS_WIDTH_DDR } }
  if !calls.hs400Timing then (false, s) else
  let s := { s with bus := { s.bus with hsTiming := drivenTiming hc ECSD_HS_TIMING_HS400 } }
  if !calls.hs400Host then (false, s) else
  let s := { s with bus := { s.bus with timing := .hs400 } }
  if !calls.ready then (false, s) else
  (true, { s with
    dev := { s.dev with flags := { s.dev.flags with hs200 := false, hs400 := true } }
    completed := { s.completed with hs400 := s.completed.hs200 && calls.readyHs } })

/-- `mmc_init_hs400`.  It goes on to HS400 when `_mmc_init_hs200` has failed as well. -/
def mmcInitHs400 (hc : Host) (voltage : VoltageCalls) (tuned : Hs200Calls) (calls : ToHs400Calls)
    (busWidth : Nat) (s : State) : Bool × State :=
  let type := s.dev.cardType
  if !signalVoltage (type.hs400v12 && type.hs200v12 && hc.sv12)
      (type.hs400v18 && type.hs200v18 && hc.sv18) voltage then (false, s)
  else mmcHs200ToHs400 hc calls (flagHs200 (mmcInitHs200Calls hc tuned busWidth s))

/-- `mmc_init_ddr`.  The voltage is only changed for 1.2 V. -/
def mmcInitDdr (hc : Host) (voltage ddrWidth : Bool) (busWidth : Nat) (s : State) :
    Bool × State :=
  if s.dev.cardType.ddrv12 && hc.sv12 && !voltage then (false, s) else
  if !ddrWidth then (false, s) else
  (true, {
    bus := { s.bus with
      busWidth := busWidth / 4 ||| ECSD_BUS_WIDTH_DDR, width := busWidth, timing := .ddr50 }
    dev := { s.dev with flags := { s.dev.flags with ddr := true } }
    completed := { s.completed with ddr := true } })

/-! ## The whole call -/

/-- A call of `mmc_init_bus`: what it finds, and what becomes of each of its calls. -/
structure Call where
  hc : Host
  dev : Device
  bus : Bus
  calls : Outcomes
deriving DecidableEq, Repr

namespace Call

variable (c : Call)

/-- `bus_width` in `mmc_init_bus`. -/
def busWidth : Nat := mmcBusWidth c.hc

/-- The state after the attempt at HS400ES. -/
def afterEs : State :=
  let s : State := ⟨c.dev, c.bus, .none⟩
  if s.dev.caps.hs400es && DTR_MAX_HS52 < s.dev.dtrMaxHs && 8 ≤ c.busWidth then
    (mmcInitHs400es c.hc c.calls.esVoltage c.calls.es c.busWidth s).2
  else s

/-- The state after the attempt at HS400. -/
def afterHs400 : State :=
  let s := c.afterEs
  if !s.dev.flags.hs400es && s.dev.caps.hs400 && DTR_MAX_HS52 < s.dev.dtrMaxHs &&
      8 ≤ c.busWidth then
    (mmcInitHs400 c.hc c.calls.hs400Voltage c.calls.tuned c.calls.toHs400 c.busWidth s).2
  else s

/-- The state after the attempt at HS200. -/
def afterHs200 : State :=
  let s := c.afterHs400
  if !(s.dev.flags.hs400 || s.dev.flags.hs400es) && s.dev.caps.hs200 &&
      DTR_MAX_HS52 < s.dev.dtrMaxHs && 4 ≤ c.busWidth then
    (mmcInitHs200 c.hc c.calls.hs200Voltage c.calls.hs200 c.busWidth s).2
  else s

/-- The state after the attempt at HS. -/
def afterHs : State :=
  let s := c.afterHs200
  if !(s.dev.flags.hs200 || s.dev.flags.hs400 || s.dev.flags.hs400es) && s.dev.caps.hs then
    (mmcInitHs c.calls.hs s).2
  else s

/-- The state after the attempt at DDR50. -/
def afterDdr : State :=
  let s := c.afterHs
  if s.dev.flags.hs && 4 ≤ c.busWidth && s.dev.caps.ddr then
    (mmcInitDdr c.hc c.calls.ddrVoltage c.calls.ddrWidth c.busWidth s).2
  else s

/-- The state after the lines of a bus without DDR50 have been set. -/
def afterLines : State :=
  let s := c.afterDdr
  if s.dev.flags.hs && 4 ≤ c.busWidth && !s.dev.flags.ddr && c.calls.sdrWidth then
    { s with bus := { s.bus with busWidth := c.busWidth / 4, width := c.busWidth } }
  else s

/-- The state when `mmc_init_bus` sets the block length, whose status it returns. -/
def settled : State :=
  let s := c.afterLines
  if !(s.dev.flags.hs400es || s.dev.flags.hs400 || s.dev.flags.hs200 || s.dev.flags.hs) then
    { s with bus := { s.bus with timing := .ls } }
  else s

/-- `mmc_init_bus`. -/
def mmcInitBus : Bool × State := (c.calls.blockLength, c.settled)

end Call

/-! ## How far a sequence gets -/

/-- The number of calls that succeed before the first that fails. -/
def progress : List Bool → Nat
  | [] => 0
  | ok :: rest => if ok then progress rest + 1 else 0

@[simp] theorem progress_nil : progress [] = 0 := rfl

@[simp] theorem progress_false (rest : List Bool) : progress (false :: rest) = 0 := rfl

@[simp] theorem progress_true (rest : List Bool) :
    progress (true :: rest) = progress rest + 1 := rfl

theorem progress_le_length (calls : List Bool) : progress calls ≤ calls.length := by
  induction calls with
  | nil => exact Nat.le_refl 0
  | cons ok rest shorter =>
      cases ok with
      | false => exact Nat.zero_le _
      | true => exact Nat.succ_le_succ shorter

def HsCalls.steps (calls : HsCalls) : Nat := progress [calls.hsTiming, calls.timing]

def Hs200Calls.steps (calls : Hs200Calls) : Nat :=
  progress [calls.busWidth, calls.hsTiming, calls.timing, calls.tune]

def Hs400esCalls.steps (calls : Hs400esCalls) : Nat :=
  progress [calls.busWidth, calls.hsTiming, calls.timing, calls.strobeWidth, calls.hs400Timing,
    calls.strobeTiming]

def ToHs400Calls.steps (calls : ToHs400Calls) : Nat :=
  progress [calls.hsTiming, calls.timing, calls.ddrWidth, calls.hs400Timing, calls.hs400Host,
    calls.ready]

/-- The bus after so many calls of `mmc_init_hs`. -/
def hsLeaves (steps : Nat) (bus : Bus) : Bus :=
  { bus with
    hsTiming := if 1 ≤ steps then ECSD_HS_TIMING_HS else bus.hsTiming
    timing := if 2 ≤ steps then .hs else bus.timing }

/-- The bus after so many calls of `_mmc_init_hs200`. -/
def hs200Leaves (hc : Host) (busWidth steps : Nat) (bus : Bus) : Bus where
  busWidth := if 1 ≤ steps then busWidth / 4 else bus.busWidth
  width := if 1 ≤ steps then busWidth else bus.width
  hsTiming := if 2 ≤ steps then drivenTiming hc ECSD_HS_TIMING_HS200 else bus.hsTiming
  timing := if 3 ≤ steps then .hs200 else bus.timing

/-- The bus after so many calls of `mmc_init_hs400es`. -/
def esLeaves (hc : Host) (busWidth steps : Nat) (bus : Bus) : Bus where
  busWidth :=
    if 4 ≤ steps then ECSD_BUS_WIDTH_ES ||| ECSD_BUS_WIDTH_8 ||| ECSD_BUS_WIDTH_DDR
    else if 1 ≤ steps then busWidth / 4 else bus.busWidth
  width := if 1 ≤ steps then busWidth else bus.width
  hsTiming :=
    if 5 ≤ steps then drivenTiming hc ECSD_HS_TIMING_HS400
    else if 2 ≤ steps then ECSD_HS_TIMING_HS else bus.hsTiming
  timing := if 6 ≤ steps then .hs400es else if 3 ≤ steps then .hs else bus.timing

/-- The bus after so many calls of `mmc_hs200_to_hs400`. -/
def toHs400Leaves (hc : Host) (steps : Nat) (bus : Bus) : Bus :=
  { bus with
    busWidth := if 3 ≤ steps then ECSD_BUS_WIDTH_8 ||| ECSD_BUS_WIDTH_DDR else bus.busWidth
    hsTiming :=
      if 4 ≤ steps then drivenTiming hc ECSD_HS_TIMING_HS400
      else if 1 ≤ steps then ECSD_HS_TIMING_HS else bus.hsTiming
    timing := if 5 ≤ steps then .hs400 else if 2 ≤ steps then .hs else bus.timing }

/-! ## What each sequence does -/

section Sequences

variable (hc : Host) (busWidth : Nat) (s : State)

theorem mmcInitHs_eq (calls : HsCalls) :
    (mmcInitHs calls s).2 =
      { bus := hsLeaves calls.steps s.bus
        dev := { s.dev with
          dtrMaxHs := min s.dev.dtrMaxHs DTR_MAX_HS52
          flags := { s.dev.flags with hs := s.dev.flags.hs || calls.steps = 2 } }
        completed := { s.completed with hs := s.completed.hs || calls.steps = 2 } } := by
  have limited : (if DTR_MAX_HS52 < s.dev.dtrMaxHs then
      { s with dev := { s.dev with dtrMaxHs := DTR_MAX_HS52 } } else s) =
      { s with dev := { s.dev with dtrMaxHs := min s.dev.dtrMaxHs DTR_MAX_HS52 } } := by
    by_cases above : DTR_MAX_HS52 < s.dev.dtrMaxHs
    · rw [if_pos above, Nat.min_eq_right (Nat.le_of_lt above)]
    · rw [if_neg above, Nat.min_eq_left (Nat.le_of_not_lt above)]
  obtain ⟨hsTiming, timing⟩ := calls
  unfold mmcInitHs
  rw [limited]
  cases hsTiming
  · simp [HsCalls.steps, hsLeaves]
  cases timing <;> simp [HsCalls.steps, hsLeaves]

theorem mmcInitHs200Calls_eq (calls : Hs200Calls) :
    mmcInitHs200Calls hc calls busWidth s =
      (decide (calls.steps = 4),
        { s with
          bus := hs200Leaves hc busWidth calls.steps s.bus
          completed := { s.completed with hs200 := s.completed.hs200 || calls.steps = 4 } }) := by
  obtain ⟨width, hsTiming, timing, tune⟩ := calls
  unfold mmcInitHs200Calls
  cases width
  · simp [Hs200Calls.steps, hs200Leaves]
  cases hsTiming
  · simp [Hs200Calls.steps, hs200Leaves]
  cases timing
  · simp [Hs200Calls.steps, hs200Leaves]
  cases tune <;> simp [Hs200Calls.steps, hs200Leaves]

/-- `_mmc_init_hs200` with the flag that its callers set. -/
theorem flagHs200_eq (calls : Hs200Calls) :
    flagHs200 (mmcInitHs200Calls hc calls busWidth s) =
      { bus := hs200Leaves hc busWidth calls.steps s.bus
        dev := { s.dev with
          flags := { s.dev.flags with hs200 := s.dev.flags.hs200 || calls.steps = 4 } }
        completed := { s.completed with hs200 := s.completed.hs200 || calls.steps = 4 } } := by
  rw [mmcInitHs200Calls_eq]
  by_cases whole : calls.steps = 4 <;> simp [flagHs200, whole]

theorem mmcInitHs200_eq (voltage : VoltageCalls) (calls : Hs200Calls)
    (volts : signalVoltage (s.dev.cardType.hs200v12 && hc.sv12)
      (s.dev.cardType.hs200v18 && hc.sv18) voltage = true) :
    (mmcInitHs200 hc voltage calls busWidth s).2 =
      flagHs200 (mmcInitHs200Calls hc calls busWidth s) := by
  simp [mmcInitHs200, volts]

theorem mmcInitHs400es_eq (voltage : VoltageCalls) (calls : Hs400esCalls)
    (volts : signalVoltage (s.dev.cardType.hs400v12 && hc.sv12)
      (s.dev.cardType.hs400v18 && hc.sv18) voltage = true) :
    (mmcInitHs400es hc voltage calls busWidth s).2 =
      { bus := esLeaves hc busWidth calls.steps s.bus
        dev := { s.dev with
          flags := { s.dev.flags with hs400es := s.dev.flags.hs400es || calls.steps = 6 } }
        completed :=
          { s.completed with hs400es := s.completed.hs400es || calls.steps = 6 } } := by
  obtain ⟨width, hsTiming, timing, strobeWidth, hs400Timing, strobeTiming⟩ := calls
  simp only [mmcInitHs400es, volts, Bool.not_true, Bool.false_eq_true, ↓reduceIte]
  cases width
  · simp [Hs400esCalls.steps, esLeaves]
  cases hsTiming
  · simp [Hs400esCalls.steps, esLeaves]
  cases timing
  · simp [Hs400esCalls.steps, esLeaves]
  cases strobeWidth
  · simp [Hs400esCalls.steps, esLeaves]
  cases hs400Timing
  · simp [Hs400esCalls.steps, esLeaves]
  cases strobeTiming <;> simp [Hs400esCalls.steps, esLeaves]

theorem mmcHs200ToHs400_eq (calls : ToHs400Calls) :
    (mmcHs200ToHs400 hc calls s).2 =
      { bus := toHs400Leaves hc calls.steps s.bus
        dev := { s.dev with
          flags := { s.dev.flags with
            hs200 := s.dev.flags.hs200 && calls.steps ≠ 6
            hs400 := s.dev.flags.hs400 || calls.steps = 6 } }
        completed := { s.completed with
          hs400 := if calls.steps = 6 then s.completed.hs200 && calls.readyHs
            else s.completed.hs400 } } := by
  obtain ⟨hsTiming, timing, readyHs, ddrWidth, hs400Timing, hs400Host, ready⟩ := calls
  unfold mmcHs200ToHs400
  cases hsTiming
  · simp [ToHs400Calls.steps, toHs400Leaves]
  cases timing
  · simp [ToHs400Calls.steps, toHs400Leaves]
  cases ddrWidth
  · simp [ToHs400Calls.steps, toHs400Leaves]
  cases hs400Timing
  · simp [ToHs400Calls.steps, toHs400Leaves]
  cases hs400Host
  · simp [ToHs400Calls.steps, toHs400Leaves]
  cases ready <;> simp [ToHs400Calls.steps, toHs400Leaves]

end Sequences

/-! ## How far each attempt of a call gets -/

namespace Call

variable (c : Call)

/-- How far `mmc_init_hs400es` gets; nowhere, when it is not tried or has no voltage. -/
def esSteps : Nat :=
  if c.dev.caps.hs400es && DTR_MAX_HS52 < c.dev.dtrMaxHs && 8 ≤ c.busWidth &&
      signalVoltage (c.dev.cardType.hs400v12 && c.hc.sv12) (c.dev.cardType.hs400v18 && c.hc.sv18)
        c.calls.esVoltage then c.calls.es.steps else 0

/-- HS400ES is in the flags after its attempt. -/
def esFlag : Bool := c.dev.flags.hs400es || c.esSteps = 6

/-- `mmc_init_hs400` is tried and has a voltage. -/
def triesHs400 : Bool :=
  !c.esFlag && c.dev.caps.hs400 && DTR_MAX_HS52 < c.dev.dtrMaxHs && 8 ≤ c.busWidth &&
    signalVoltage (c.dev.cardType.hs400v12 && c.dev.cardType.hs200v12 && c.hc.sv12)
      (c.dev.cardType.hs400v18 && c.dev.cardType.hs200v18 && c.hc.sv18) c.calls.hs400Voltage

/-- How far `_mmc_init_hs200` gets in `mmc_init_hs400`. -/
def tunedSteps : Nat := if c.triesHs400 then c.calls.tuned.steps else 0

/-- How far `mmc_hs200_to_hs400` gets. -/
def toHs400Steps : Nat := if c.triesHs400 then c.calls.toHs400.steps else 0

/-- HS400 is in the flags after its attempt. -/
def hs400Flag : Bool := c.dev.flags.hs400 || c.toHs400Steps = 6

/-- How far `_mmc_init_hs200` gets in `mmc_init_hs200`. -/
def hs200Steps : Nat :=
  if !(c.hs400Flag || c.esFlag) && c.dev.caps.hs200 && DTR_MAX_HS52 < c.dev.dtrMaxHs &&
      4 ≤ c.busWidth &&
      signalVoltage (c.dev.cardType.hs200v12 && c.hc.sv12) (c.dev.cardType.hs200v18 && c.hc.sv18)
        c.calls.hs200Voltage then c.calls.hs200.steps else 0

/-- HS200 is in the flags after its attempts. -/
def hs200Flag : Bool :=
  (c.dev.flags.hs200 || c.tunedSteps = 4) && c.toHs400Steps ≠ 6 || c.hs200Steps = 4

/-- How far `mmc_init_hs` gets. -/
def hsSteps : Nat :=
  if !(c.hs200Flag || c.hs400Flag || c.esFlag) && c.dev.caps.hs then c.calls.hs.steps else 0

/-- HS is in the flags after its attempt. -/
def hsFlag : Bool := c.dev.flags.hs || c.hsSteps = 2

/-- `mmc_init_ddr` is tried and succeeds. -/
def ddrDone : Bool :=
  c.hsFlag && 4 ≤ c.busWidth && c.dev.caps.ddr &&
    !(c.dev.cardType.ddrv12 && c.hc.sv12 && !c.calls.ddrVoltage) && c.calls.ddrWidth

/-- The lines are set for a bus without DDR50. -/
def linesDone : Bool :=
  c.hsFlag && 4 ≤ c.busWidth && !(c.dev.flags.ddr || c.ddrDone) && c.calls.sdrWidth

/-! ## The state after each attempt -/

/-- The flags of the device, replaced. -/
def device (flags : Modes) : Device := { c.dev with flags := flags }

theorem afterEs_eq : c.afterEs =
    { dev := c.device { c.dev.flags with hs400es := c.esFlag }
      bus := esLeaves c.hc c.busWidth c.esSteps c.bus
      completed := { Modes.none with hs400es := c.esSteps = 6 } } := by
  unfold afterEs esFlag esSteps
  by_cases tried : (c.dev.caps.hs400es && DTR_MAX_HS52 < c.dev.dtrMaxHs && 8 ≤ c.busWidth) = true
  · rw [if_pos tried]
    by_cases volts : signalVoltage (c.dev.cardType.hs400v12 && c.hc.sv12)
        (c.dev.cardType.hs400v18 && c.hc.sv18) c.calls.esVoltage = true
    · rw [mmcInitHs400es_eq _ _ _ _ _ volts]
      simp [tried, volts, device, Modes.none]
    · simp [mmcInitHs400es, volts, device, esLeaves, Modes.none]
  · rw [if_neg tried]
    simp [tried, device, esLeaves, Modes.none]

theorem afterHs400_eq : c.afterHs400 =
    { dev := c.device { c.dev.flags with
        hs400es := c.esFlag
        hs400 := c.hs400Flag
        hs200 := (c.dev.flags.hs200 || c.tunedSteps = 4) && c.toHs400Steps ≠ 6 }
      bus := toHs400Leaves c.hc c.toHs400Steps (hs200Leaves c.hc c.busWidth c.tunedSteps
        (esLeaves c.hc c.busWidth c.esSteps c.bus))
      completed := { Modes.none with
        hs400es := c.esSteps = 6
        hs200 := c.tunedSteps = 4
        hs400 := c.toHs400Steps = 6 && (c.tunedSteps = 4 && c.calls.toHs400.readyHs) } } := by
  unfold afterHs400 hs400Flag tunedSteps toHs400Steps triesHs400
  rw [afterEs_eq]
  dsimp only [device]
  by_cases tried : (!c.esFlag && c.dev.caps.hs400 && DTR_MAX_HS52 < c.dev.dtrMaxHs &&
      8 ≤ c.busWidth) = true
  · rw [if_pos tried]
    by_cases volts : signalVoltage (c.dev.cardType.hs400v12 && c.dev.cardType.hs200v12 && c.hc.sv12)
        (c.dev.cardType.hs400v18 && c.dev.cardType.hs200v18 && c.hc.sv18)
        c.calls.hs400Voltage = true
    · simp [tried, volts, Modes.none, mmcInitHs400, flagHs200_eq, mmcHs200ToHs400_eq]
    · simp [mmcInitHs400, volts, toHs400Leaves, hs200Leaves, Modes.none]
  · rw [if_neg tried]
    simp [tried, toHs400Leaves, hs200Leaves, Modes.none]

theorem afterHs200_eq : c.afterHs200 =
    { dev := c.device { c.dev.flags with
        hs400es := c.esFlag, hs400 := c.hs400Flag, hs200 := c.hs200Flag }
      bus := hs200Leaves c.hc c.busWidth c.hs200Steps (toHs400Leaves c.hc c.toHs400Steps
        (hs200Leaves c.hc c.busWidth c.tunedSteps (esLeaves c.hc c.busWidth c.esSteps c.bus)))
      completed := { Modes.none with
        hs400es := c.esSteps = 6
        hs200 := c.tunedSteps = 4 || c.hs200Steps = 4
        hs400 := c.toHs400Steps = 6 && (c.tunedSteps = 4 && c.calls.toHs400.readyHs) } } := by
  unfold afterHs200 hs200Flag
  rw [afterHs400_eq]
  dsimp only [device]
  by_cases tried : (!(c.hs400Flag || c.esFlag) && c.dev.caps.hs200 &&
      DTR_MAX_HS52 < c.dev.dtrMaxHs && 4 ≤ c.busWidth) = true
  · rw [if_pos tried]
    by_cases volts : signalVoltage (c.dev.cardType.hs200v12 && c.hc.sv12)
        (c.dev.cardType.hs200v18 && c.hc.sv18) c.calls.hs200Voltage = true
    · have steps : c.hs200Steps = c.calls.hs200.steps := by
        rw [hs200Steps, tried, volts, Bool.and_self, if_pos rfl]
      rw [mmcInitHs200_eq _ _ _ _ _ volts, flagHs200_eq, steps]
    · have steps : c.hs200Steps = 0 := by
        rw [hs200Steps, tried, Bool.eq_false_iff.mpr volts, Bool.and_false,
          if_neg Bool.false_ne_true]
      simp [mmcInitHs200, volts, steps, hs200Leaves, Modes.none]
  · have steps : c.hs200Steps = 0 := by
      rw [hs200Steps, Bool.eq_false_iff.mpr tried, Bool.false_and,
        if_neg Bool.false_ne_true]
    rw [if_neg tried]
    simp [steps, hs200Leaves, Modes.none]

/-- The bus when the faster modes have been tried. -/
def fastLeaves : Bus :=
  hs200Leaves c.hc c.busWidth c.hs200Steps (toHs400Leaves c.hc c.toHs400Steps
    (hs200Leaves c.hc c.busWidth c.tunedSteps (esLeaves c.hc c.busWidth c.esSteps c.bus)))

theorem afterHs_eq : ∃ dtrMaxHs, c.afterHs =
    { dev := { c.dev with
        dtrMaxHs := dtrMaxHs
        flags := { c.dev.flags with
          hs400es := c.esFlag, hs400 := c.hs400Flag, hs200 := c.hs200Flag, hs := c.hsFlag } }
      bus := hsLeaves c.hsSteps c.fastLeaves
      completed :=
        { hs400es := c.esSteps = 6
          hs200 := c.tunedSteps = 4 || c.hs200Steps = 4
          hs400 := c.toHs400Steps = 6 && (c.tunedSteps = 4 && c.calls.toHs400.readyHs)
          hs := c.hsSteps = 2
          ddr := false } } := by
  unfold afterHs hsFlag fastLeaves
  rw [afterHs200_eq]
  dsimp only [device]
  by_cases tried : (!(c.hs200Flag || c.hs400Flag || c.esFlag) && c.dev.caps.hs) = true
  · refine ⟨min c.dev.dtrMaxHs DTR_MAX_HS52, ?_⟩
    have steps : c.hsSteps = c.calls.hs.steps := if_pos tried
    rw [if_pos tried, mmcInitHs_eq, steps]
    rfl
  · refine ⟨c.dev.dtrMaxHs, ?_⟩
    have steps : c.hsSteps = 0 := if_neg tried
    rw [if_neg tried]
    simp [steps, hsLeaves, Modes.none]

/-- The bus when the sequences of the modes have been tried. -/
def modesLeave : Bus :=
  let bus := hsLeaves c.hsSteps c.fastLeaves
  let bus := if c.ddrDone then
    { bus with
      busWidth := c.busWidth / 4 ||| ECSD_BUS_WIDTH_DDR, width := c.busWidth, timing := .ddr50 }
    else bus
  if c.linesDone then { bus with busWidth := c.busWidth / 4, width := c.busWidth } else bus

theorem afterLines_eq : ∃ dtrMaxHs, c.afterLines =
    { dev := { c.dev with
        dtrMaxHs := dtrMaxHs
        flags :=
          { hs400es := c.esFlag
            hs400 := c.hs400Flag
            hs200 := c.hs200Flag
            hs := c.hsFlag
            ddr := c.dev.flags.ddr || c.ddrDone } }
      bus := c.modesLeave
      completed :=
        { hs400es := c.esSteps = 6
          hs200 := c.tunedSteps = 4 || c.hs200Steps = 4
          hs400 := c.toHs400Steps = 6 && (c.tunedSteps = 4 && c.calls.toHs400.readyHs)
          hs := c.hsSteps = 2
          ddr := c.ddrDone } } := by
  obtain ⟨dtrMaxHs, afterHs⟩ := c.afterHs_eq
  refine ⟨dtrMaxHs, ?_⟩
  have afterDdr : c.afterDdr = { c.afterHs with
      dev := { c.afterHs.dev with
        flags := { c.afterHs.dev.flags with ddr := c.dev.flags.ddr || c.ddrDone } }
      bus := if c.ddrDone then
        { c.afterHs.bus with
          busWidth := c.busWidth / 4 ||| ECSD_BUS_WIDTH_DDR
          width := c.busWidth
          timing := .ddr50 } else c.afterHs.bus
      completed := { c.afterHs.completed with ddr := c.ddrDone } } := by
    unfold Call.afterDdr ddrDone
    rw [afterHs]
    dsimp only
    by_cases tried : (c.hsFlag && 4 ≤ c.busWidth && c.dev.caps.ddr) = true
    · rw [if_pos tried, mmcInitDdr]
      by_cases volts : (c.dev.cardType.ddrv12 && c.hc.sv12 && !c.calls.ddrVoltage) = true
      · simp [volts]
      · by_cases switched : c.calls.ddrWidth = true <;> simp [tried, volts, switched]
    · rw [if_neg tried]
      simp [tried]
  unfold afterLines modesLeave linesDone
  rw [afterDdr, afterHs]
  dsimp only
  by_cases lines : (c.hsFlag && 4 ≤ c.busWidth && !(c.dev.flags.ddr || c.ddrDone) &&
      c.calls.sdrWidth) = true
  · rw [if_pos lines, if_pos lines]
  · rw [if_neg lines, if_neg lines]

/-- The state at the end, with the host at low speed when no mode is in the flags. -/
theorem settled_eq : ∃ dtrMaxHs, c.settled =
    { dev := { c.dev with
        dtrMaxHs := dtrMaxHs
        flags :=
          { hs400es := c.esFlag
            hs400 := c.hs400Flag
            hs200 := c.hs200Flag
            hs := c.hsFlag
            ddr := c.dev.flags.ddr || c.ddrDone } }
      bus := if !(c.esFlag || c.hs400Flag || c.hs200Flag || c.hsFlag) then
        { c.modesLeave with timing := .ls } else c.modesLeave
      completed :=
        { hs400es := c.esSteps = 6
          hs200 := c.tunedSteps = 4 || c.hs200Steps = 4
          hs400 := c.toHs400Steps = 6 && (c.tunedSteps = 4 && c.calls.toHs400.readyHs)
          hs := c.hsSteps = 2
          ddr := c.ddrDone } } := by
  obtain ⟨dtrMaxHs, afterLines⟩ := c.afterLines_eq
  refine ⟨dtrMaxHs, ?_⟩
  unfold settled
  rw [afterLines]
  dsimp only
  by_cases slow : (!(c.esFlag || c.hs400Flag || c.hs200Flag || c.hsFlag)) = true
  · rw [if_pos slow, if_pos slow]
  · rw [if_neg slow, if_neg slow]

/-! ## Which attempts are made -/

theorem busWidth_cases : c.busWidth = 1 ∨ c.busWidth = 4 ∨ c.busWidth = 8 := by
  unfold busWidth mmcBusWidth
  cases c.hc.bw8
  · cases c.hc.bw4
    · exact Or.inl rfl
    · exact Or.inr (Or.inl rfl)
  · exact Or.inr (Or.inr rfl)

theorem busWidth_eight (wide : 8 ≤ c.busWidth) : c.busWidth = 8 := by
  rcases c.busWidth_cases with one | four | eight
  · omega
  · omega
  · exact eight

theorem busWidth_wide (wide : 4 ≤ c.busWidth) : c.busWidth = 4 ∨ c.busWidth = 8 := by
  rcases c.busWidth_cases with one | wide
  · omega
  · exact wide

theorem esSteps_pos (reached : 0 < c.esSteps) : c.busWidth = 8 := by
  unfold esSteps at reached
  split at reached
  case isTrue tried =>
    simp only [Bool.and_eq_true, decide_eq_true_eq] at tried
    exact c.busWidth_eight tried.1.2
  case isFalse => exact absurd reached (Nat.lt_irrefl 0)

theorem triesHs400_spec (tried : c.triesHs400 = true) :
    c.esFlag = false ∧ c.busWidth = 8 := by
  simp only [triesHs400, Bool.and_eq_true, Bool.not_eq_true', decide_eq_true_eq] at tried
  exact ⟨tried.1.1.1.1, c.busWidth_eight tried.1.2⟩

theorem tunedSteps_pos (reached : 0 < c.tunedSteps) : c.esFlag = false ∧ c.busWidth = 8 := by
  unfold tunedSteps at reached
  split at reached
  case isTrue tried => exact c.triesHs400_spec tried
  case isFalse => exact absurd reached (Nat.lt_irrefl 0)

theorem toHs400Steps_pos (reached : 0 < c.toHs400Steps) :
    c.esFlag = false ∧ c.busWidth = 8 := by
  unfold toHs400Steps at reached
  split at reached
  case isTrue tried => exact c.triesHs400_spec tried
  case isFalse => exact absurd reached (Nat.lt_irrefl 0)

theorem hs200Steps_pos (reached : 0 < c.hs200Steps) :
    c.esFlag = false ∧ c.hs400Flag = false ∧ (c.busWidth = 4 ∨ c.busWidth = 8) := by
  unfold hs200Steps at reached
  split at reached
  case isTrue tried =>
    simp only [Bool.and_eq_true, Bool.not_eq_true', Bool.or_eq_false_iff, decide_eq_true_eq]
      at tried
    exact ⟨tried.1.1.1.1.2, tried.1.1.1.1.1, c.busWidth_wide tried.1.2⟩
  case isFalse => exact absurd reached (Nat.lt_irrefl 0)

theorem hsSteps_pos (reached : 0 < c.hsSteps) :
    c.esFlag = false ∧ c.hs400Flag = false ∧ c.hs200Flag = false := by
  unfold hsSteps at reached
  split at reached
  case isTrue tried =>
    simp only [Bool.and_eq_true, Bool.not_eq_true', Bool.or_eq_false_iff] at tried
    exact ⟨tried.1.2, tried.1.1.2, tried.1.1.1⟩
  case isFalse => exact absurd reached (Nat.lt_irrefl 0)

theorem esSteps_le : c.esSteps ≤ 6 := by
  unfold esSteps
  split
  · exact progress_le_length _
  · exact Nat.zero_le _

theorem tunedSteps_le : c.tunedSteps ≤ 4 := by
  unfold tunedSteps
  split
  · exact progress_le_length _
  · exact Nat.zero_le _

theorem toHs400Steps_le : c.toHs400Steps ≤ 6 := by
  unfold toHs400Steps
  split
  · exact progress_le_length _
  · exact Nat.zero_le _

theorem hs200Steps_le : c.hs200Steps ≤ 4 := by
  unfold hs200Steps
  split
  · exact progress_le_length _
  · exact Nat.zero_le _

theorem hsSteps_le : c.hsSteps ≤ 2 := by
  unfold hsSteps
  split
  · exact progress_le_length _
  · exact Nat.zero_le _

/-! ## When the flags are those of this call -/

end Call

/-- Each flag that is set names a mode whose sequence is complete. -/
def Modes.Within (flags completed : Modes) : Prop :=
  (flags.hs400es = true → completed.hs400es = true) ∧
    (flags.hs400 = true → completed.hs400 = true) ∧
    (flags.hs200 = true → completed.hs200 = true) ∧
    (flags.hs = true → completed.hs = true) ∧
    (flags.ddr = true → completed.ddr = true)

namespace Call

variable (c : Call)

/-- Every flag of an earlier initialisation is earned again, and no step on the way to HS400
fails that `mmc_init_hs400` passes over: none of `_mmc_init_hs200`, and not the wait after the
step back to HS. -/
structure FlagsEarned : Prop where
  hs400es : c.dev.flags.hs400es = true → c.esSteps = 6
  hs400 : c.dev.flags.hs400 = true ∨ c.toHs400Steps = 6 →
    c.toHs400Steps = 6 ∧ c.tunedSteps = 4 ∧ c.calls.toHs400.readyHs = true
  hs200 : c.dev.flags.hs200 = true →
    c.toHs400Steps = 6 ∨ c.tunedSteps = 4 ∨ c.hs200Steps = 4
  hs : c.dev.flags.hs = true → c.hsSteps = 2
  ddr : c.dev.flags.ddr = true → c.ddrDone = true

theorem flags_within_iff :
    c.settled.dev.flags.Within c.settled.completed ↔ c.FlagsEarned := by
  obtain ⟨dtrMaxHs, settled⟩ := c.settled_eq
  rw [settled]
  simp only [Modes.Within, esFlag, hs400Flag, hs200Flag, hsFlag, Bool.or_eq_true,
    Bool.and_eq_true, decide_eq_true_eq]
  constructor
  · rintro ⟨es, hs400, hs200, hs, ddr⟩
    refine ⟨fun flag => es (Or.inl flag), hs400, ?_, fun flag => hs (Or.inl flag),
      fun flag => ddr (Or.inl flag)⟩
    intro flag
    by_cases upgraded : c.toHs400Steps = 6
    · exact Or.inl upgraded
    · exact Or.inr (hs200 (Or.inl ⟨Or.inl flag, upgraded⟩))
  · intro earned
    refine ⟨fun flag => flag.elim earned.hs400es id, earned.hs400, ?_,
      fun flag => flag.elim earned.hs id, fun flag => flag.elim earned.ddr id⟩
    rintro (⟨flag | tuned, notUpgraded⟩ | hs200)
    · exact (earned.hs200 flag).resolve_left notUpgraded
    · exact Or.inl tuned
    · exact Or.inr hs200

end Call

/-! ## When the two sides agree -/

/-- The card uses one edge of the clock and the lines that the host drives. -/
def Bus.PlainLines (bus : Bus) : Prop :=
  cardDdr bus.busWidth = false ∧ cardStrobe bus.busWidth = false ∧
    cardLines bus.busWidth = bus.width

instance (bus : Bus) : Decidable bus.PlainLines := inferInstanceAs (Decidable (_ ∧ _ ∧ _))

@[simp] theorem cardMode_drivenTiming_hs200 (hc : Host) :
    cardMode (drivenTiming hc ECSD_HS_TIMING_HS200) = 2 := by
  rw [cardMode, drivenTiming, Nat.or_mod_two_pow, Nat.shiftLeft_eq, Nat.mul_mod_left]
  rfl

@[simp] theorem cardMode_drivenTiming_hs400 (hc : Host) :
    cardMode (drivenTiming hc ECSD_HS_TIMING_HS400) = 3 := by
  rw [cardMode, drivenTiming, Nat.or_mod_two_pow, Nat.shiftLeft_eq, Nat.mul_mod_left]
  rfl

@[simp] theorem cardMode_hs : cardMode ECSD_HS_TIMING_HS = 1 := rfl

/-- What the value for eight lines with DDR and strobe says. -/
theorem strobeWidth_reads :
    let value := ECSD_BUS_WIDTH_ES ||| ECSD_BUS_WIDTH_8 ||| ECSD_BUS_WIDTH_DDR
    cardDdr value = true ∧ cardStrobe value = true ∧ cardLines value = 8 := by
  decide

/-- What the value for eight lines with DDR says. -/
theorem ddrWidth_reads :
    let value := ECSD_BUS_WIDTH_8 ||| ECSD_BUS_WIDTH_DDR
    cardDdr value = true ∧ cardStrobe value = false ∧ cardLines value = 8 := by
  decide

theorem Bus.agrees_iff_of_plain {bus : Bus} {mode : Nat}
    (expects : bus.timing.expects = (mode, false, false)) :
    bus.Agrees ↔ cardMode bus.hsTiming = mode ∧ bus.PlainLines := by
  simp only [Bus.Agrees, Bus.PlainLines, expects, Prod.mk.injEq, and_assoc]

/-- The value that asks for so many lines names them, without DDR and strobe. -/
theorem plain_of_wide {bus : Bus} (wide : bus.width = 4 ∨ bus.width = 8)
    (named : bus.busWidth = bus.width / 4) : bus.PlainLines := by
  unfold Bus.PlainLines
  rw [named]
  rcases wide with four | eight
  · rw [four]
    decide
  · rw [eight]
    decide

namespace Call

variable (c : Call)

/-- The lines of the card are those of the host before HS sets them: the last attempt to set
`ECSD_BUS_WIDTH` was for one edge, or there was none and they were. -/
def LinesKept : Prop :=
  1 ≤ c.hs200Steps ∨
    (c.toHs400Steps < 3 ∧
      (1 ≤ c.tunedSteps ∨
        (c.esSteps < 4 ∧ (1 ≤ c.esSteps ∨ c.bus.PlainLines))))

/-- The card has not been taken out of low speed. -/
def SpeedKept : Prop :=
  c.hsSteps = 0 ∧ c.hs200Steps ≤ 1 ∧ c.toHs400Steps = 0 ∧ c.tunedSteps ≤ 1 ∧
    c.esSteps ≤ 1 ∧ cardMode c.bus.hsTiming = ECSD_HS_TIMING_LS

/-- The step from HS200 to HS400 fails, and what it leaves fits to what the second attempt at
HS200 leaves. -/
def Hs200Kept : Prop :=
  (c.hs200Steps = 0 → c.toHs400Steps = 0 ∨ c.toHs400Steps = 2 ∨ c.toHs400Steps = 5) ∧
    (c.hs200Steps = 1 → c.toHs400Steps = 0 ∨ c.toHs400Steps = 2 ∨ c.toHs400Steps = 3) ∧
    (c.hs200Steps = 2 → c.toHs400Steps ≤ 1)

theorem fastLeaves_plain : c.fastLeaves.PlainLines ↔ c.LinesKept := by
  unfold LinesKept
  by_cases again : 1 ≤ c.hs200Steps
  · have plain : c.fastLeaves.PlainLines := by
      apply plain_of_wide
      · simpa [fastLeaves, hs200Leaves, again] using (c.hs200Steps_pos again).2.2
      · simp [fastLeaves, hs200Leaves, again]
    exact ⟨fun _ => Or.inl again, fun _ => plain⟩
  by_cases doubled : 3 ≤ c.toHs400Steps
  · have fast : c.fastLeaves.busWidth = 6 := by
      simp [fastLeaves, hs200Leaves, toHs400Leaves, again, doubled, ECSD_BUS_WIDTH_8,
        ECSD_BUS_WIDTH_DDR]
    have notPlain : ¬ c.fastLeaves.PlainLines := by
      intro plain
      rw [Bus.PlainLines, fast] at plain
      exact absurd plain.1 (by decide)
    exact ⟨fun plain => absurd plain notPlain, fun kept =>
      absurd (kept.resolve_left again).1 (Nat.not_lt.mpr doubled)⟩
  by_cases tuned : 1 ≤ c.tunedSteps
  · have plain : c.fastLeaves.PlainLines := by
      apply plain_of_wide
      · right
        simpa [fastLeaves, hs200Leaves, toHs400Leaves, again, tuned] using
          (c.tunedSteps_pos tuned).2
      · simp [fastLeaves, hs200Leaves, toHs400Leaves, again, doubled, tuned]
    exact ⟨fun _ => Or.inr ⟨Nat.lt_of_not_le doubled, Or.inl tuned⟩, fun _ => plain⟩
  by_cases strobe : 4 ≤ c.esSteps
  · have fast : c.fastLeaves.busWidth = 0x86 := by
      simp [fastLeaves, hs200Leaves, toHs400Leaves, esLeaves, again, doubled, tuned, strobe,
        ECSD_BUS_WIDTH_ES, ECSD_BUS_WIDTH_8, ECSD_BUS_WIDTH_DDR]
    have notPlain : ¬ c.fastLeaves.PlainLines := by
      intro plain
      rw [Bus.PlainLines, fast] at plain
      exact absurd plain.1 (by decide)
    exact ⟨fun plain => absurd plain notPlain, fun kept =>
      absurd (((kept.resolve_left again).2.resolve_left tuned).1) (Nat.not_lt.mpr strobe)⟩
  by_cases widened : 1 ≤ c.esSteps
  · have plain : c.fastLeaves.PlainLines := by
      apply plain_of_wide
      · right
        simpa [fastLeaves, hs200Leaves, toHs400Leaves, esLeaves, again, tuned, widened] using
          c.esSteps_pos widened
      · simp [fastLeaves, hs200Leaves, toHs400Leaves, esLeaves, again, doubled, tuned, strobe,
          widened]
    exact ⟨fun _ => Or.inr ⟨Nat.lt_of_not_le doubled,
      Or.inr ⟨Nat.lt_of_not_le strobe, Or.inl widened⟩⟩, fun _ => plain⟩
  · -- No attempt has written the register.
    have lines : c.fastLeaves.busWidth = c.bus.busWidth ∧ c.fastLeaves.width = c.bus.width := by
      simp [fastLeaves, hs200Leaves, toHs400Leaves, esLeaves, again, doubled, tuned, strobe,
        widened]
    rw [Bus.PlainLines, lines.1, lines.2]
    constructor
    · intro plain
      exact Or.inr ⟨Nat.lt_of_not_le doubled, Or.inr ⟨Nat.lt_of_not_le strobe, Or.inr plain⟩⟩
    · intro kept
      exact ((((kept.resolve_left again).2.resolve_left tuned).2).resolve_left widened)

/-- Without HS in the flags neither DDR50 nor the lines are tried. -/
theorem modesLeave_of_not_hs (slow : c.hsFlag = false) :
    c.modesLeave = hsLeaves c.hsSteps c.fastLeaves := by
  have ddr : c.ddrDone = false := by simp [ddrDone, slow]
  have lines : c.linesDone = false := by simp [linesDone, slow]
  simp [modesLeave, ddr, lines]

/-- A mode that is faster than HS keeps what the faster sequences have left. -/
theorem settled_of_fast (earned : c.FlagsEarned)
    (fast : c.esFlag = true ∨ c.hs400Flag = true ∨ c.hs200Flag = true) :
    c.settled.bus = c.fastLeaves := by
  have steps : c.hsSteps = 0 := by
    by_contra reached
    have slow := c.hsSteps_pos (Nat.pos_of_ne_zero reached)
    rcases fast with flag | flag | flag
    · exact Bool.false_ne_true (slow.1.symm.trans flag)
    · exact Bool.false_ne_true (slow.2.1.symm.trans flag)
    · exact Bool.false_ne_true (slow.2.2.symm.trans flag)
  have hs : c.hsFlag = false := by
    rw [hsFlag, steps, Bool.eq_false_iff]
    intro flag
    have again := earned.hs (by simpa using flag)
    rw [steps] at again
    exact absurd again (by decide)
  have kept : hsLeaves 0 c.fastLeaves = c.fastLeaves := rfl
  obtain ⟨dtrMaxHs, settled⟩ := c.settled_eq
  rw [settled]
  dsimp only
  rw [if_neg, modesLeave_of_not_hs c hs, steps, kept]
  rcases fast with flag | flag | flag <;> simp [flag]

theorem agrees_of_es (earned : c.FlagsEarned) (done : c.esSteps = 6) : c.settled.bus.Agrees := by
  have flag : c.esFlag = true := by simp [esFlag, done]
  have noHs400 : c.toHs400Steps = 0 := by
    by_contra reached
    exact Bool.false_ne_true ((c.toHs400Steps_pos (Nat.pos_of_ne_zero reached)).1.symm.trans flag)
  have noTuned : c.tunedSteps = 0 := by
    by_contra reached
    exact Bool.false_ne_true ((c.tunedSteps_pos (Nat.pos_of_ne_zero reached)).1.symm.trans flag)
  have noHs200 : c.hs200Steps = 0 := by
    by_contra reached
    exact Bool.false_ne_true ((c.hs200Steps_pos (Nat.pos_of_ne_zero reached)).1.symm.trans flag)
  have eight : c.busWidth = 8 := c.esSteps_pos (by omega)
  rw [settled_of_fast c earned (Or.inl flag)]
  simp [Bus.Agrees, fastLeaves, hs200Leaves, toHs400Leaves, esLeaves, noHs400, noTuned, noHs200,
    done, eight, Timing.expects, strobeWidth_reads]
  rfl

theorem agrees_of_hs400 (earned : c.FlagsEarned) (done : c.toHs400Steps = 6) :
    c.settled.bus.Agrees := by
  have flag : c.hs400Flag = true := by simp [hs400Flag, done]
  have tuned := (earned.hs400 (Or.inr done)).2.1
  have noHs200 : c.hs200Steps = 0 := by
    by_contra reached
    exact Bool.false_ne_true
      ((c.hs200Steps_pos (Nat.pos_of_ne_zero reached)).2.1.symm.trans flag)
  have eight : c.busWidth = 8 := (c.toHs400Steps_pos (by omega)).2
  rw [settled_of_fast c earned (Or.inr (Or.inl flag))]
  simp [Bus.Agrees, fastLeaves, hs200Leaves, toHs400Leaves, tuned, noHs200, done, eight,
    Timing.expects, ddrWidth_reads]
  rfl

theorem agrees_of_hs200 (earned : c.FlagsEarned) (done : c.hs200Steps = 4) :
    c.settled.bus.Agrees := by
  have flag : c.hs200Flag = true := by simp [hs200Flag, done]
  rw [settled_of_fast c earned (Or.inr (Or.inr flag))]
  have timing : c.fastLeaves.timing = .hs200 := by simp [fastLeaves, hs200Leaves, done]
  have expects : c.fastLeaves.timing.expects = (2, false, false) := by
    rw [timing]
    rfl
  refine (Bus.agrees_iff_of_plain expects).mpr ⟨?_, c.fastLeaves_plain.mpr (Or.inl ?_)⟩
  · simp [fastLeaves, hs200Leaves, done]
  · omega

/-- HS200 has been tuned, the step to HS400 has failed, and so has a second attempt. -/
theorem agrees_iff_of_tuned (earned : c.FlagsEarned) (tuned : c.tunedSteps = 4)
    (notHs400 : c.toHs400Steps ≠ 6) (notAgain : c.hs200Steps ≠ 4) :
    c.settled.bus.Agrees ↔ c.Hs200Kept := by
  have flag : c.hs200Flag = true := by simp [hs200Flag, tuned, notHs400]
  have eight : c.busWidth = 8 := (c.tunedSteps_pos (by omega)).2
  have upTo : c.toHs400Steps < 6 := Nat.lt_of_le_of_ne c.toHs400Steps_le notHs400
  have again : c.hs200Steps < 4 := Nat.lt_of_le_of_ne c.hs200Steps_le notAgain
  have mode : cardMode c.fastLeaves.hsTiming =
      if 2 ≤ c.hs200Steps then 2 else if 4 ≤ c.toHs400Steps then 3
      else if 1 ≤ c.toHs400Steps then 1 else 2 := by
    simp [fastLeaves, hs200Leaves, toHs400Leaves, tuned, apply_ite cardMode]
  have register : c.fastLeaves.busWidth =
      if 1 ≤ c.hs200Steps then 2 else if 3 ≤ c.toHs400Steps then 6 else 2 := by
    simp [fastLeaves, hs200Leaves, toHs400Leaves, tuned, eight, ECSD_BUS_WIDTH_8,
      ECSD_BUS_WIDTH_DDR]
  have lines : c.fastLeaves.width = 8 := by
    simp [fastLeaves, hs200Leaves, toHs400Leaves, tuned, eight]
  have timing : c.fastLeaves.timing =
      if 3 ≤ c.hs200Steps then .hs200 else if 5 ≤ c.toHs400Steps then .hs400
      else if 2 ≤ c.toHs400Steps then .hs else .hs200 := by
    simp [fastLeaves, hs200Leaves, toHs400Leaves, tuned]
  rw [settled_of_fast c earned (Or.inr (Or.inr flag)), Bus.Agrees, mode, register, lines, timing,
    Hs200Kept]
  generalize c.toHs400Steps = upgraded at upTo
  generalize c.hs200Steps = retried at again
  -- One case for each pair of calls at which the two sequences stop.
  interval_cases upgraded <;> interval_cases retried <;> decide

/-- The card has been switched to HS, and so has the host. -/
theorem agrees_iff_of_hs (done : c.hsSteps = 2) :
    c.settled.bus.Agrees ↔ c.ddrDone = true ∨ c.linesDone = true ∨ c.LinesKept := by
  have flag : c.hsFlag = true := by simp [hsFlag, done]
  obtain ⟨dtrMaxHs, settled⟩ := c.settled_eq
  rw [settled]
  dsimp only
  rw [if_neg (by simp [flag])]
  by_cases ddr : c.ddrDone = true
  · have wide : 4 ≤ c.busWidth := by
      simp only [ddrDone, Bool.and_eq_true, decide_eq_true_eq] at ddr
      exact ddr.1.1.1.2
    have noLines : c.linesDone = false := by simp [linesDone, ddr]
    have left : c.modesLeave =
        { hsTiming := ECSD_HS_TIMING_HS
          timing := .ddr50
          busWidth := c.busWidth / 4 ||| ECSD_BUS_WIDTH_DDR
          width := c.busWidth } := by
      simp [modesLeave, ddr, noLines, hsLeaves, done]
    have agrees : c.modesLeave.Agrees := by
      rcases c.busWidth_wide wide with four | eight
      · rw [left, four]
        decide
      · rw [left, eight]
        decide
    exact ⟨fun _ => Or.inl ddr, fun _ => agrees⟩
  by_cases lines : c.linesDone = true
  · have wide : 4 ≤ c.busWidth := by
      simp only [linesDone, Bool.and_eq_true, decide_eq_true_eq] at lines
      exact lines.1.1.2
    have left : c.modesLeave =
        { hsTiming := ECSD_HS_TIMING_HS
          timing := .hs
          busWidth := c.busWidth / 4
          width := c.busWidth } := by
      simp [modesLeave, ddr, lines, hsLeaves, done]
    have agrees : c.modesLeave.Agrees := by
      rw [left]
      exact (Bus.agrees_iff_of_plain rfl).mpr ⟨rfl, plain_of_wide (c.busWidth_wide wide) rfl⟩
    exact ⟨fun _ => Or.inr (Or.inl lines), fun _ => agrees⟩
  · have left : c.modesLeave = { c.fastLeaves with
        hsTiming := ECSD_HS_TIMING_HS, timing := .hs } := by
      simp [modesLeave, ddr, lines, hsLeaves, done]
    rw [left, Bus.agrees_iff_of_plain rfl]
    constructor
    · intro agrees
      exact Or.inr (Or.inr (c.fastLeaves_plain.mp agrees.2))
    · intro kept
      exact ⟨rfl, c.fastLeaves_plain.mpr ((kept.resolve_left ddr).resolve_left lines)⟩

/-- No mode is left, and the host goes back to low speed. -/
theorem agrees_iff_of_slow (earned : c.FlagsEarned) (notEs : c.esSteps ≠ 6)
    (notHs400 : c.toHs400Steps ≠ 6) (notHs200 : c.hs200Steps ≠ 4) (notTuned : c.tunedSteps ≠ 4)
    (notHs : c.hsSteps ≠ 2) : c.settled.bus.Agrees ↔ c.SpeedKept ∧ c.LinesKept := by
  have es : c.esFlag = false := by
    rw [esFlag, decide_eq_false notEs, Bool.or_false, Bool.eq_false_iff]
    exact fun flag => notEs (earned.hs400es flag)
  have hs400 : c.hs400Flag = false := by
    rw [hs400Flag, decide_eq_false notHs400, Bool.or_false, Bool.eq_false_iff]
    exact fun flag => notHs400 (earned.hs400 (Or.inl flag)).1
  have hs200 : c.hs200Flag = false := by
    have notFlag : c.dev.flags.hs200 = false := by
      rw [Bool.eq_false_iff]
      intro flag
      rcases earned.hs200 flag with done | done | done
      · exact notHs400 done
      · exact notTuned done
      · exact notHs200 done
    simp [hs200Flag, notFlag, notTuned, notHs200]
  have hs : c.hsFlag = false := by
    rw [hsFlag, decide_eq_false notHs, Bool.or_false, Bool.eq_false_iff]
    exact fun flag => notHs (earned.hs flag)
  obtain ⟨dtrMaxHs, settled⟩ := c.settled_eq
  rw [settled]
  dsimp only
  rw [if_pos (by simp [es, hs400, hs200, hs]), modesLeave_of_not_hs c hs,
    Bus.agrees_iff_of_plain rfl]
  have speed : cardMode (hsLeaves c.hsSteps c.fastLeaves).hsTiming = ECSD_HS_TIMING_LS ↔
      c.SpeedKept := by
    have last : cardMode (hsLeaves c.hsSteps c.fastLeaves).hsTiming =
        if 1 ≤ c.hsSteps then 1
        else if 2 ≤ c.hs200Steps then 2
        else if 4 ≤ c.toHs400Steps then 3
        else if 1 ≤ c.toHs400Steps then 1
        else if 2 ≤ c.tunedSteps then 2
        else if 5 ≤ c.esSteps then 3
        else if 2 ≤ c.esSteps then 1
        else cardMode c.bus.hsTiming := by
      simp [hsLeaves, fastLeaves, hs200Leaves, toHs400Leaves, esLeaves, apply_ite cardMode]
    rw [last, SpeedKept, ECSD_HS_TIMING_LS]
    constructor
    · intro slow
      split_ifs at slow
      omega
    · rintro ⟨noHs, again, noUpgrade, tuned, strobe, slow⟩
      split_ifs <;> first | exact slow | omega
  exact and_congr speed c.fastLeaves_plain

/-- The attempts leave both sides alike: a mode that is faster than HS is complete, or what the
failed attempts leave is repaired. -/
def BusSettled : Prop :=
  c.esSteps = 6 ∨ c.toHs400Steps = 6 ∨ c.hs200Steps = 4 ∨
    (c.tunedSteps = 4 ∧ c.Hs200Kept) ∨
    (c.tunedSteps < 4 ∧ c.hsSteps = 2 ∧
      (c.ddrDone = true ∨ c.linesDone = true ∨ c.LinesKept)) ∨
    (c.tunedSteps < 4 ∧ c.hsSteps < 2 ∧ c.SpeedKept ∧ c.LinesKept)

theorem agrees_iff (earned : c.FlagsEarned) : c.settled.bus.Agrees ↔ c.BusSettled := by
  unfold BusSettled
  by_cases es : c.esSteps = 6
  · exact ⟨fun _ => Or.inl es, fun _ => agrees_of_es c earned es⟩
  by_cases hs400 : c.toHs400Steps = 6
  · exact ⟨fun _ => Or.inr (Or.inl hs400), fun _ => agrees_of_hs400 c earned hs400⟩
  by_cases hs200 : c.hs200Steps = 4
  · exact ⟨fun _ => Or.inr (Or.inr (Or.inl hs200)), fun _ => agrees_of_hs200 c earned hs200⟩
  by_cases tuned : c.tunedSteps = 4
  · have below : ¬ c.tunedSteps < 4 := Nat.not_lt.mpr tuned.ge
    rw [agrees_iff_of_tuned c earned tuned hs400 hs200]
    constructor
    · exact fun kept => Or.inr (Or.inr (Or.inr (Or.inl ⟨tuned, kept⟩)))
    · rintro (done | done | done | ⟨_, kept⟩ | ⟨untuned, _⟩ | ⟨untuned, _⟩)
      · exact absurd done es
      · exact absurd done hs400
      · exact absurd done hs200
      · exact kept
      · exact absurd untuned below
      · exact absurd untuned below
  have below : c.tunedSteps < 4 := Nat.lt_of_le_of_ne c.tunedSteps_le tuned
  by_cases hs : c.hsSteps = 2
  · have notSlow : ¬ c.hsSteps < 2 := Nat.not_lt.mpr hs.ge
    rw [agrees_iff_of_hs c hs]
    constructor
    · exact fun kept => Or.inr (Or.inr (Or.inr (Or.inr (Or.inl ⟨below, hs, kept⟩))))
    · rintro (done | done | done | ⟨done, _⟩ | ⟨_, _, kept⟩ | ⟨_, slow, _⟩)
      · exact absurd done es
      · exact absurd done hs400
      · exact absurd done hs200
      · exact absurd done tuned
      · exact kept
      · exact absurd slow notSlow
  · have slow : c.hsSteps < 2 := Nat.lt_of_le_of_ne c.hsSteps_le hs
    rw [agrees_iff_of_slow c earned es hs400 hs200 tuned hs]
    constructor
    · exact fun kept => Or.inr (Or.inr (Or.inr (Or.inr (Or.inr ⟨below, slow, kept⟩))))
    · rintro (done | done | done | ⟨done, _⟩ | ⟨_, done, _⟩ | ⟨_, _, kept⟩)
      · exact absurd done es
      · exact absurd done hs400
      · exact absurd done hs200
      · exact absurd done tuned
      · exact absurd done hs
      · exact kept

/-! ## The call as a whole -/

/-- When `mmc_init_bus` returns `EOK`, the host agrees with the card, and the flags name modes
that are complete. -/
def Truthful : Prop :=
  c.mmcInitBus.1 = true →
    c.mmcInitBus.2.bus.Agrees ∧ c.mmcInitBus.2.dev.flags.Within c.mmcInitBus.2.completed

/-- `mmc_init_bus` leaves host and card in agreement, with flags that are right, if and only if
it fails at the block length, or earns all flags and settles the bus. -/
theorem truthful_iff :
    c.Truthful ↔ c.calls.blockLength = false ∨ (c.FlagsEarned ∧ c.BusSettled) := by
  unfold Truthful mmcInitBus
  cases c.calls.blockLength with
  | false => exact ⟨fun _ => Or.inl rfl, fun _ done => absurd done Bool.false_ne_true⟩
  | true =>
      constructor
      · intro truthful
        obtain ⟨agrees, within⟩ := truthful rfl
        have earned := c.flags_within_iff.mp within
        exact Or.inr ⟨earned, (c.agrees_iff earned).mp agrees⟩
      · rintro (failed | ⟨earned, settled⟩) _
        · cases failed
        · exact ⟨(c.agrees_iff earned).mpr settled, c.flags_within_iff.mpr earned⟩

end Call

/-- A first initialisation of a card with HS400 at 1.8 V, on a host with eight lines, where only
the tuning in HS200 fails. -/
def untuned : Call where
  hc := { bw8 := true, bw4 := true, sv12 := false, sv18 := true, drvType := 0 }
  dev :=
    { caps := { hs400es := false, hs400 := true, hs200 := true, hs := true, ddr := true }
      flags := .none
      cardType :=
        { hs400v12 := false, hs400v18 := true, hs200v12 := false, hs200v18 := true
          ddrv12 := false }
      dtrMaxHs := 200000000 }
  bus := { timing := .ls, width := 1, hsTiming := ECSD_HS_TIMING_LS, busWidth := 0 }
  calls :=
    { esVoltage := ⟨true, true⟩
      es := ⟨true, true, true, true, true, true⟩
      hs400Voltage := ⟨true, true⟩
      tuned := ⟨true, true, true, false⟩
      toHs400 := ⟨true, true, true, true, true, true, true⟩
      hs200Voltage := ⟨true, true⟩
      hs200 := ⟨true, true, true, true⟩
      hs := ⟨true, true⟩
      ddrVoltage := true
      ddrWidth := true
      sdrWidth := true
      blockLength := true }

/-- The card ends in HS400 without the tuning. -/
theorem untuned_flagged :
    untuned.mmcInitBus.1 = true ∧ untuned.mmcInitBus.2.dev.flags.hs400 = true ∧
      untuned.mmcInitBus.2.completed = .none ∧ ¬ untuned.Truthful := by
  have status : untuned.mmcInitBus.1 = true := by decide
  have flag : untuned.mmcInitBus.2.dev.flags.hs400 = true := by decide
  have completed : untuned.mmcInitBus.2.completed = .none := by decide
  refine ⟨status, flag, completed, ?_⟩
  intro truthful
  have earned := (truthful status).2.2.1 flag
  rw [completed] at earned
  exact Bool.false_ne_true earned

/-! ## Bus errors -/

/-- `mmc_bus_error` up to its call of `mmc_init_bus`, without the rate of low speed: the fastest
mode in the flags is given up, or made slower when it is HS. -/
def mmcBusError (dev : Device) : Device :=
  let { caps, flags, .. } := dev
  if flags.hs400es then
    { dev with caps := { caps with hs400es := false }, flags := { flags with hs400es := false } }
  else if flags.hs400 then
    { dev with caps := { caps with hs400 := false }, flags := { flags with hs400 := false } }
  else if flags.hs200 then
    { dev with
      caps := { caps with hs200 := false }
      flags := { flags with hs200 := false }
      dtrMaxHs := DTR_MAX_HS52 }
  else if flags.ddr then
    { dev with caps := { caps with ddr := false }, flags := { flags with ddr := false } }
  else if flags.hs then
    { dev with
      flags := { flags with hs := false }
      dtrMaxHs := if dev.dtrMaxHs = DTR_MAX_HS26 then dev.dtrMaxHs
        else max DTR_MAX_HS26 (dev.dtrMaxHs - DTR_HS_DEC) }
  else dev

/-- The mode that a bus error gives up. -/
inductive GivesUp (flags : Modes) : (Modes → Bool) → Prop where
  | hs400es (flag : flags.hs400es = true) : GivesUp flags Modes.hs400es
  | hs400 (slower : flags.hs400es = false) (flag : flags.hs400 = true) :
      GivesUp flags Modes.hs400
  | hs200 (slower : flags.hs400es = false ∧ flags.hs400 = false) (flag : flags.hs200 = true) :
      GivesUp flags Modes.hs200
  | ddr (slower : flags.hs400es = false ∧ flags.hs400 = false ∧ flags.hs200 = false)
      (flag : flags.ddr = true) : GivesUp flags Modes.ddr

/-- A mode that is given up does not come back in the negotiation after it, whatever fails. -/
theorem busError_drops (c : Call) {dev : Device} (after : c.dev = mmcBusError dev)
    {mode : Modes → Bool} (given : GivesUp dev.flags mode) :
    mode c.settled.dev.flags = false := by
  obtain ⟨dtrMaxHs, settled⟩ := c.settled_eq
  rw [settled]
  cases given with
  | hs400es flag =>
      have error : mmcBusError dev = { dev with
          caps := { dev.caps with hs400es := false }
          flags := { dev.flags with hs400es := false } } := if_pos flag
      have untried : c.esSteps = 0 := by simp [Call.esSteps, after, error]
      simp [Call.esFlag, untried, after, error]
  | hs400 slower flag =>
      have error : mmcBusError dev = { dev with
          caps := { dev.caps with hs400 := false }
          flags := { dev.flags with hs400 := false } } := by
        simp [mmcBusError, slower, flag]
      have untried : c.toHs400Steps = 0 := by
        simp [Call.toHs400Steps, Call.triesHs400, after, error]
      simp [Call.hs400Flag, untried, after, error]
  | hs200 slower flag =>
      have error : mmcBusError dev = { dev with
          caps := { dev.caps with hs200 := false }
          flags := { dev.flags with hs200 := false }
          dtrMaxHs := DTR_MAX_HS52 } := by
        simp [mmcBusError, slower, flag]
      have untuned : c.tunedSteps = 0 := by
        simp [Call.tunedSteps, Call.triesHs400, after, error]
      have untried : c.hs200Steps = 0 := by simp [Call.hs200Steps, after, error]
      simp [Call.hs200Flag, untuned, untried, after, error]
  | ddr slower flag =>
      have error : mmcBusError dev = { dev with
          caps := { dev.caps with ddr := false }
          flags := { dev.flags with ddr := false } } := by
        simp [mmcBusError, slower, flag]
      have untried : c.ddrDone = false := by simp [Call.ddrDone, after, error]
      simp [untried, after, error]

end Bcm2711.Sdio.Negotiation
