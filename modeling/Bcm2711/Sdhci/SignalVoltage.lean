import Bcm2711.Lib.Run

/-! # The signal voltage of the SD card

The board has a regulator for the signals of the card, which a GPIO of the firmware switches, and
the host controller has a bit for the voltage.  `bcm2711_signal_voltage` asks the firmware for the
state of the GPIO, has it switched where it differs from the request, and leaves the rest to
`sdhci_signal_voltage`.
-/

namespace Bcm2711.Sdhci.Voltage

open Runs

/-! ## Messages for the GPIO -/

def EXP_GPIO_BASE : BitVec 32 := 128
def EXP_GPIO_VDD_SD_IO_SEL : BitVec 32 := 4
def EXP_GPIO_VDD_SD_IO_SEL_3_3V : BitVec 32 := 0
def EXP_GPIO_VDD_SD_IO_SEL_1_8V : BitVec 32 := 1

def MBOX_TAG_GET_GPIO_STATE : BitVec 32 := 0x00030041
/-- The bit that makes the tag of a get the one of a set. -/
def MBOX_TAG_SET : BitVec 32 := 0x8000
def MBOX_TAG_RESPONSE : BitVec 32 := 1 <<< 31
def MBOX_STATUS_FULL : BitVec 32 := 0x80000000
def MBOX_STATUS_EMPTY : BitVec 32 := 0x40000000
def MBOX_SEND_CHANNEL : BitVec 32 := 8
def MBOX_SEND_CHANNEL_MASK : BitVec 32 := 0xf
/-- `sizeof(struct gpio_state)`. -/
def GPIO_STATE_SIZE : BitVec 32 := 8

/-- `struct gpio_state`. -/
structure GpioState where
  gpio : BitVec 32
  state : BitVec 32
deriving DecidableEq, Repr

/-- The tag and the body of a message. -/
structure GpioMessage where
  tag : BitVec 32
  body : GpioState
deriving DecidableEq, Repr

/-- A word that comes on the channel from the firmware: the status polls before it, the word, and
the tag code and the body of the message when it has come. -/
structure Answer where
  status : Nat → BitVec 32
  rd : BitVec 32
  tagcode : BitVec 32
  body : GpioState

/-- What a call of `mbox_send_msg_gpio_state` meets.  Behind the answers nothing comes. -/
structure Exchange where
  /-- The memory of the message and the registers could be mapped. -/
  mapped : Bool
  tovcStatus : Nat → BitVec 32
  answers : List Answer
  /-- The firmware carries the message out. -/
  carries : Bool

/-- Poll a status until a bit is clear, so many times at most. -/
def pollClear (status : Nat → BitVec 32) (bit : BitVec 32) : (polls wait_cnt : Nat) → Bool
  | 0, _ => false
  | polls + 1, wait_cnt =>
      if status wait_cnt &&& bit = 0 then true else pollClear status bit polls (wait_cnt + 1)

/-- The message is written to the mailbox. -/
def Exchange.sent (exchange : Exchange) : Bool :=
  exchange.mapped && pollClear exchange.tovcStatus MBOX_STATUS_FULL 5001 0

/-- The message of a call. -/
def gpioMessage (gpiostate : GpioState) (set : Bool) : GpioMessage :=
  { tag := if set then MBOX_TAG_GET_GPIO_STATE ||| MBOX_TAG_SET else MBOX_TAG_GET_GPIO_STATE
    body := ⟨EXP_GPIO_BASE + gpiostate.gpio, if set then gpiostate.state else 0⟩ }

/-- The loop that waits for a word of the channel. -/
def receive (gpiostate : GpioState) (set : Bool) : List Answer → Int × GpioState
  | [] => (-2, gpiostate)
  | answer :: answers =>
      if pollClear answer.status MBOX_STATUS_EMPTY 5001 0 then
        if answer.rd &&& MBOX_SEND_CHANNEL_MASK = MBOX_SEND_CHANNEL then
          if set then (GPIO_STATE_SIZE.toNat, gpiostate)
          else if answer.tagcode &&& ~~~MBOX_TAG_RESPONSE ≠ GPIO_STATE_SIZE then (-4, gpiostate)
          else (GPIO_STATE_SIZE.toNat, answer.body)
        else receive gpiostate set answers
      else (-2, gpiostate)

/-- `mbox_send_msg_gpio_state`: what it returns, and `gpiostate` behind it. -/
def mboxSendMsgGpioState (exchange : Exchange) (gpiostate : GpioState) (set : Bool) :
    Int × GpioState :=
  if exchange.sent then receive gpiostate set exchange.answers else (-1, gpiostate)

/-- `get_vdd_sd_io_state`. -/
def getVddSdIoState (exchange : Exchange) : Int :=
  let (ret, gpiostate) := mboxSendMsgGpioState exchange ⟨EXP_GPIO_VDD_SD_IO_SEL, 0⟩ false
  if ret = GPIO_STATE_SIZE.toNat then gpiostate.state.toInt else -1

/-! ## The host controller -/

def SDHCI_SPEC_VER_3 : Nat := 2
def SDHCI_PSTATE_DLSL_MSK : BitVec 32 := 0xF <<< 20

/-- `SIGNAL_VOLTAGE_xxx`. -/
inductive SignalVoltage where
  | v3_3
  | v3_0
  | v1_8
  | v1_2
deriving DecidableEq, Repr

inductive Status where
  | EOK
  | EIO
deriving DecidableEq, Repr

/-- The host and the GPIO. -/
structure Host where
  version : Nat
  /-- `HC_FLAG_DEV_MMC`. -/
  devMmc : Bool
  /-- `HC_CAP_SV_1_8V`. -/
  capSv1_8V : Bool
  signalVoltage : Option SignalVoltage
  /-- `SDHCI_HCTL2_SIG_1_8V` in the register. -/
  sig1_8V : Bool
  /-- `SDHCI_SYSCTL_CEN` in the register. -/
  clockEnable : Bool
  /-- `SDHCI_HCTL_SDBP` in the register. -/
  busPower : Bool
  /-- The GPIO is high. -/
  vddSdIoSel : Bool
deriving DecidableEq, Repr

/-- What the controller does in a call of `sdhci_signal_voltage`. -/
structure Controller where
  /-- The bit for the voltage takes what is written. -/
  takes : Bool
  /-- `SDHCI_PSTATE`. -/
  pstate : BitVec 32

/-- Write the bit for the voltage. -/
def Host.writeSig (hc : Host) (controller : Controller) (value : Bool) : Host :=
  { hc with sig1_8V := if controller.takes then value else hc.sig1_8V }

/-- `sdhci_signal_voltage`. -/
def sdhciSignalVoltage (hc : Host) (controller : Controller) (signalVoltage : SignalVoltage) :
    Host × Status :=
  if hc.version < SDHCI_SPEC_VER_3 then (hc, .EOK)
  else if hc.signalVoltage = some signalVoltage then (hc, .EOK)
  else match signalVoltage with
    | .v3_3 =>
        let written := hc.writeSig controller false
        if written.sig1_8V then (written, Status.EIO)
        else ({ written with signalVoltage := some .v3_3 }, .EOK)
    | .v1_8 =>
        let written := { hc with clockEnable := false }.writeSig controller true
        if written.sig1_8V then
          let clocked := { written with clockEnable := hc.clockEnable }
          if controller.pstate &&& SDHCI_PSTATE_DLSL_MSK = SDHCI_PSTATE_DLSL_MSK ∨ hc.devMmc then
            ({ clocked with signalVoltage := some .v1_8 }, .EOK)
          -- the power is taken away and given again
          else ({ clocked with busPower := true }, Status.EIO)
        else ({ written with busPower := true }, Status.EIO)
    | other => ({ hc with signalVoltage := some other }, .EOK)

/-! ## The board -/

/-- The firmware carries out a message: the GPIO takes the state of a set. -/
def Host.drive (hc : Host) (message : GpioMessage) : Host :=
  if message.tag = MBOX_TAG_GET_GPIO_STATE ||| MBOX_TAG_SET ∧
      message.body.gpio = EXP_GPIO_BASE + EXP_GPIO_VDD_SD_IO_SEL then
    { hc with vddSdIoSel := message.body.state ≠ EXP_GPIO_VDD_SD_IO_SEL_3_3V }
  else hc

/-- `set_vdd_sd_io_state`, whose result the caller does not look at. -/
def setVddSdIoState (hc : Host) (exchange : Exchange) (state : BitVec 32) : Host :=
  if exchange.sent && exchange.carries then
    hc.drive (gpioMessage ⟨EXP_GPIO_VDD_SD_IO_SEL, state⟩ true)
  else hc

/-- A call with what it meets. -/
structure Call where
  signalVoltage : SignalVoltage
  get : Exchange
  set : Exchange
  controller : Controller

/-- `bcm2711_signal_voltage`. -/
def bcm2711SignalVoltage (hc : Host) (call : Call) : Host × Status :=
  let gpioSdIovddSelState := getVddSdIoState call.get
  if gpioSdIovddSelState ≠ -1 then
    let hc := if call.signalVoltage = .v3_3 ∧
        gpioSdIovddSelState ≠ EXP_GPIO_VDD_SD_IO_SEL_3_3V.toInt then
      { setVddSdIoState hc call.set EXP_GPIO_VDD_SD_IO_SEL_3_3V with signalVoltage := none }
    else hc
    let hc := if call.signalVoltage = .v1_8 ∧
        gpioSdIovddSelState ≠ EXP_GPIO_VDD_SD_IO_SEL_1_8V.toInt then
      { setVddSdIoState hc call.set EXP_GPIO_VDD_SD_IO_SEL_1_8V with signalVoltage := none }
    else hc
    sdhciSignalVoltage hc call.controller call.signalVoltage
  else if call.signalVoltage = .v1_8 then
    sdhciSignalVoltage { hc with capSv1_8V := false } call.controller .v3_3
  else sdhciSignalVoltage hc call.controller call.signalVoltage

/-- A call as a step. -/
def Host.step (hc : Host) (call : Call) : Except Empty (Host × Status) :=
  .ok (bcm2711SignalVoltage hc call)

/-- The level of the GPIO as the firmware reports it. -/
def Host.level (hc : Host) : BitVec 32 :=
  if hc.vddSdIoSel then EXP_GPIO_VDD_SD_IO_SEL_1_8V else EXP_GPIO_VDD_SD_IO_SEL_3_3V

/-- The firmware answers with the state of the GPIO, when it answers. -/
def Call.Reported (call : Call) : Prop := getVddSdIoState call.get ≠ -1

/-- The calls ask for 3.3 V or 1.8 V, and a state that is reported is the one of the GPIO. -/
def Asked (_ : List (Event Call Status)) (hc : Host) (call : Call) : Prop :=
  (call.signalVoltage = .v3_3 ∨ call.signalVoltage = .v1_8) ∧
    (call.Reported → getVddSdIoState call.get = hc.level.toInt)

/-! ## Agreement -/

/-- The voltage of the regulator. -/
def Host.regulator (hc : Host) : SignalVoltage := if hc.vddSdIoSel then .v1_8 else .v3_3

/-- The voltage of the controller. -/
def Host.signalling (hc : Host) : SignalVoltage := if hc.sig1_8V then .v1_8 else .v3_3

/-- A call that returns `EOK` leaves both sides at the voltage of the request. -/
def Agrees (_ : Host) (call : Call) (after : Host) (returned : Status) : Prop :=
  returned = .EOK →
    after.regulator = call.signalVoltage ∧ after.signalling = call.signalVoltage

/-- The voltage that the controller is asked for. -/
def Call.passed (call : Call) : SignalVoltage :=
  if getVddSdIoState call.get = -1 ∧ call.signalVoltage = .v1_8 then .v3_3 else call.signalVoltage

/-- The cached voltage is forgotten. -/
def Call.Forces (call : Call) (hc : Host) : Prop :=
  call.Reported ∧ hc.regulator ≠ call.signalVoltage

/-- The controller does not switch to the voltage. -/
def Controller.Refuses (controller : Controller) (hc : Host) : SignalVoltage → Prop
  | .v3_3 => hc.sig1_8V = true ∧ controller.takes = false
  | _ =>
      hc.sig1_8V = false ∧ controller.takes = false ∨
        controller.pstate &&& SDHCI_PSTATE_DLSL_MSK ≠ SDHCI_PSTATE_DLSL_MSK ∧ hc.devMmc = false

/-- The controller has to switch, and does not. -/
def Call.Refused (call : Call) (hc : Host) : Prop :=
  SDHCI_SPEC_VER_3 ≤ hc.version ∧ (call.Forces hc ∨ hc.signalVoltage ≠ some call.passed) ∧
    call.controller.Refuses hc call.passed

/-- The request can be carried out on both sides: the firmware reports the GPIO, or 3.3 V is asked
for; the GPIO is at the voltage, or the firmware carries out the message that sets it. -/
structure Call.CarriedOut (call : Call) (hc : Host) : Prop where
  passed : call.Reported ∨ call.signalVoltage = .v3_3 ∨ hc.version < SDHCI_SPEC_VER_3 ∨
    -- the cached voltage is still the one from before a switch to 1.8 V that failed
    hc.signalVoltage = some .v3_3 ∧ hc.sig1_8V = true
  regulator : hc.regulator = call.signalVoltage ∨
    call.Reported ∧ call.set.sent = true ∧ call.set.carries = true
  signalling : hc.version < SDHCI_SPEC_VER_3 → hc.signalling = call.signalVoltage

/-- When a call agrees. -/
def CanAgree (hc : Host) (call : Call) (_ : Host) (_ : Status) : Prop :=
  call.Refused hc ∨ call.CarriedOut hc

variable {hc after : Host} {controller : Controller} {call : Call} {v : SignalVoltage}
  {returned : Status} {history : List (Event Call Status)} {start : Host}

/-! ## The controller -/

/-- The controller leaves the GPIO alone. -/
theorem sdhci_vddSdIoSel (hc : Host) (controller : Controller) (v : SignalVoltage) :
    (sdhciSignalVoltage hc controller v).1.vddSdIoSel = hc.vddSdIoSel := by
  unfold sdhciSignalVoltage
  split
  · rfl
  · split
    · rfl
    · split
      · dsimp only
        split <;> rfl
      · dsimp only
        split
        · split <;> rfl
        · rfl
      · rfl

/-- Where nothing is switched the controller stays as it is. -/
theorem sdhci_left (left : hc.version < SDHCI_SPEC_VER_3 ∨ hc.signalVoltage = some v) :
    sdhciSignalVoltage hc controller v = (hc, .EOK) := by
  unfold sdhciSignalVoltage
  by_cases old : hc.version < SDHCI_SPEC_VER_3
  · rw [if_pos old]
  · rw [if_neg old, if_pos (left.resolve_left old)]

/-- A switch to 3.3 V. -/
theorem sdhci_3_3 (new : ¬ hc.version < SDHCI_SPEC_VER_3) (other : hc.signalVoltage ≠ some .v3_3) :
    ((sdhciSignalVoltage hc controller .v3_3).2 = .EOK ↔ ¬ controller.Refuses hc .v3_3) ∧
      sdhciSignalVoltage hc controller .v3_3 =
        if (hc.writeSig controller false).sig1_8V then
          (hc.writeSig controller false, Status.EIO)
        else ({ hc.writeSig controller false with signalVoltage := some .v3_3 }, .EOK) := by
  have switched : sdhciSignalVoltage hc controller .v3_3 =
        if (hc.writeSig controller false).sig1_8V then
          (hc.writeSig controller false, Status.EIO)
        else ({ hc.writeSig controller false with signalVoltage := some .v3_3 }, .EOK) := by
    unfold sdhciSignalVoltage
    rw [if_neg new, if_neg other]
  refine ⟨?_, switched⟩
  rw [switched]
  unfold Controller.Refuses Host.writeSig
  cases hc.sig1_8V <;> cases controller.takes <;> simp

/-- A switch to 1.8 V. -/
theorem sdhci_1_8 (new : ¬ hc.version < SDHCI_SPEC_VER_3) (other : hc.signalVoltage ≠ some .v1_8) :
    ((sdhciSignalVoltage hc controller .v1_8).2 = .EOK ↔ ¬ controller.Refuses hc .v1_8) ∧
      (sdhciSignalVoltage hc controller .v1_8).1.sig1_8V = (controller.takes || hc.sig1_8V) ∧
      (sdhciSignalVoltage hc controller .v1_8).1.signalVoltage =
        (if (sdhciSignalVoltage hc controller .v1_8).2 = .EOK then some .v1_8
          else hc.signalVoltage) := by
  unfold sdhciSignalVoltage Controller.Refuses Host.writeSig
  rw [if_neg new, if_neg other]
  dsimp only
  by_cases high : controller.pstate &&& SDHCI_PSTATE_DLSL_MSK = SDHCI_PSTATE_DLSL_MSK <;>
    cases hc.sig1_8V <;> cases controller.takes <;> cases hc.devMmc <;> simp [high]

/-- A switch that is not refused leads to the voltage. -/
theorem sdhci_switched (new : ¬ hc.version < SDHCI_SPEC_VER_3)
    (other : hc.signalVoltage ≠ some v) (asked : v = .v3_3 ∨ v = .v1_8) :
    ((sdhciSignalVoltage hc controller v).2 = .EOK ↔ ¬ controller.Refuses hc v) ∧
      ((sdhciSignalVoltage hc controller v).2 = .EOK →
        (sdhciSignalVoltage hc controller v).1.signalling = v) := by
  rcases asked with rfl | rfl
  · obtain ⟨taken, switched⟩ := @sdhci_3_3 _ controller new other
    refine ⟨taken, ?_⟩
    rw [switched]
    split
    · intro isOk
      cases isOk
    · next low =>
        intro _
        exact if_neg low
  · obtain ⟨taken, written, _⟩ := @sdhci_1_8 _ controller new other
    refine ⟨taken, ?_⟩
    intro isOk
    have notRefused := taken.mp isOk
    unfold Host.signalling
    rw [written, if_pos]
    unfold Controller.Refuses at notRefused
    cases takes : controller.takes with
    | true => rfl
    | false =>
        cases bit : hc.sig1_8V with
        | true => rfl
        | false => exact absurd (.inl ⟨bit, takes⟩) notRefused

/-! ## The board -/

/-- The message that sets the GPIO sets it when it is sent and carried out. -/
theorem setVddSdIoState_eq (hc : Host) (exchange : Exchange) (state : BitVec 32) :
    setVddSdIoState hc exchange state =
      { hc with vddSdIoSel := if exchange.sent && exchange.carries
          then decide (state ≠ EXP_GPIO_VDD_SD_IO_SEL_3_3V) else hc.vddSdIoSel } := by
  unfold setVddSdIoState
  cases exchange.sent && exchange.carries with
  | true => rfl
  | false => rfl

instance (call : Call) : Decidable call.Reported := inferInstanceAs (Decidable (_ ≠ _))

instance (call : Call) (hc : Host) : Decidable (call.Forces hc) :=
  inferInstanceAs (Decidable (_ ∧ _))

/-- The host as it is handed to the controller's function. -/
def Host.prepared (hc : Host) (call : Call) : Host :=
  { hc with
    capSv1_8V := if call.passed = call.signalVoltage then hc.capSv1_8V else false
    signalVoltage := if call.Forces hc then none else hc.signalVoltage
    vddSdIoSel := if call.Forces hc ∧ (call.set.sent && call.set.carries) = true
      then decide (call.signalVoltage = .v1_8) else hc.vddSdIoSel }

theorem bcm2711SignalVoltage_eq (asked : Asked history hc call) :
    bcm2711SignalVoltage hc call =
      sdhciSignalVoltage (hc.prepared call) call.controller call.passed := by
  obtain ⟨voltage, honest⟩ := asked
  unfold bcm2711SignalVoltage Host.prepared Call.Forces Call.passed
  by_cases silent : getVddSdIoState call.get = -1
  · have unreported : ¬ call.Reported := fun reported => reported silent
    rcases voltage with low | high
    · simp [silent, low, unreported]
    · simp [silent, high, unreported]
  · have reported : call.Reported := silent
    have level := honest reported
    have seen : getVddSdIoState call.get = if hc.vddSdIoSel then EXP_GPIO_VDD_SD_IO_SEL_1_8V.toInt
        else EXP_GPIO_VDD_SD_IO_SEL_3_3V.toInt := by
      rw [level, Host.level]
      split <;> rfl
    have different : EXP_GPIO_VDD_SD_IO_SEL_1_8V.toInt ≠ EXP_GPIO_VDD_SD_IO_SEL_3_3V.toInt := by
      decide
    have high : EXP_GPIO_VDD_SD_IO_SEL_1_8V ≠ EXP_GPIO_VDD_SD_IO_SEL_3_3V := by decide
    have heard : EXP_GPIO_VDD_SD_IO_SEL_1_8V.toInt ≠ -1 ∧
        EXP_GPIO_VDD_SD_IO_SEL_3_3V.toInt ≠ -1 := by decide
    rcases voltage with asked | asked <;> cases line : hc.vddSdIoSel <;>
      simp [setVddSdIoState_eq, Host.regulator, asked, seen, reported, line, different,
        different.symm, high, heard]
    -- the GPIO is at the voltage already
    all_goals rw [← line]

theorem Call.passed_of_reported (reported : call.Reported) : call.passed = call.signalVoltage :=
  if_neg fun silent => reported silent.1

theorem Call.passed_low (low : call.signalVoltage = .v3_3) : call.passed = call.signalVoltage :=
  if_neg fun silent => by
    rw [low] at silent
    cases silent.2

theorem Call.passed_asked (asked : Asked history hc call) :
    call.passed = .v3_3 ∨ call.passed = .v1_8 := by
  unfold Call.passed
  split
  · exact .inl rfl
  · exact asked.1

/-- Where 1.8 V is passed on and nothing is forgotten the GPIO is at 1.8 V. -/
theorem line_of_unforced (unforced : ¬ call.Forces hc) (high : call.passed = .v1_8) :
    hc.vddSdIoSel = true := by
  unfold Call.passed at high
  split at high
  · cases high
  · next passes =>
      have reported : call.Reported := fun silent => passes ⟨silent, high⟩
      have same : hc.regulator = .v1_8 := by
        by_contra different
        exact unforced ⟨reported, high ▸ different⟩
      by_contra low
      rw [Host.regulator, if_neg low] at same
      cases same

/-- The GPIO has the voltage of the request behind the message. -/
theorem prepared_regulator (asked : Asked history hc call) :
    (hc.prepared call).regulator = call.signalVoltage ↔
      hc.regulator = call.signalVoltage ∨
        call.Reported ∧ call.set.sent = true ∧ call.set.carries = true := by
  by_cases driven : call.Forces hc ∧ (call.set.sent && call.set.carries) = true
  · have line : (hc.prepared call).vddSdIoSel = decide (call.signalVoltage = .v1_8) := if_pos driven
    have set : (hc.prepared call).regulator = call.signalVoltage := by
      rw [Host.regulator, line]
      rcases asked.1 with low | high
      · rw [low]
        rfl
      · rw [high]
        rfl
    exact ⟨fun _ => .inr ⟨driven.1.1, Bool.and_eq_true_iff.mp driven.2⟩, fun _ => set⟩
  · have line : (hc.prepared call).vddSdIoSel = hc.vddSdIoSel := if_neg driven
    have kept : (hc.prepared call).regulator = hc.regulator := by
      rw [Host.regulator, line]
      rfl
    rw [kept]
    constructor
    · exact .inl
    · rintro (same | ⟨reported, both⟩)
      · exact same
      · by_contra different
        exact driven ⟨⟨reported, different⟩, Bool.and_eq_true_iff.mpr both⟩

/-! ## Runs -/

/-- The cached voltage is the one of the controller, or the GPIO is still at 1.8 V behind a switch
that failed. -/
structure Truthful (hc : Host) : Prop where
  high : hc.signalVoltage = some .v1_8 → hc.sig1_8V = true
  low : hc.signalVoltage = some .v3_3 → hc.sig1_8V = true → hc.vddSdIoSel = true

theorem Truthful.prepared (truthful : Truthful hc) (call : Call) :
    Truthful (hc.prepared call) := by
  by_cases forces : call.Forces hc
  · have forgotten : (hc.prepared call).signalVoltage = none := if_pos forces
    constructor
    · intro cached
      rw [forgotten] at cached
      cases cached
    · intro cached
      rw [forgotten] at cached
      cases cached
  · have kept : (hc.prepared call).signalVoltage = hc.signalVoltage := if_neg forces
    have line : (hc.prepared call).vddSdIoSel = hc.vddSdIoSel :=
      if_neg fun driven => forces driven.1
    constructor
    · rw [kept]
      exact truthful.high
    · rw [kept, line]
      exact truthful.low

theorem truthful_step (truthful : Truthful hc) (asked : Asked history hc call)
    (stepped : hc.step call = .ok (after, returned)) : Truthful after := by
  have both := Except.ok.inj stepped
  rw [bcm2711SignalVoltage_eq asked] at both
  have isAfter : (sdhciSignalVoltage (hc.prepared call) call.controller call.passed).1 = after :=
    congrArg Prod.fst both
  have prepared := truthful.prepared call
  by_cases left : (hc.prepared call).version < SDHCI_SPEC_VER_3 ∨
      (hc.prepared call).signalVoltage = some call.passed
  · rw [sdhci_left left] at isAfter
    rw [← isAfter]
    exact prepared
  · obtain ⟨new, other⟩ := not_or.mp left
    rcases Call.passed_asked asked with low | high
    · rw [low] at isAfter other
      rw [(sdhci_3_3 new other).2] at isAfter
      split at isAfter
      · next stuck =>
          have bit : (hc.prepared call).sig1_8V = true := by
            unfold Host.writeSig at stuck
            cases takes : call.controller.takes with
            | true => simp [takes] at stuck
            | false => simpa [takes] using stuck
          rw [← isAfter]
          exact ⟨fun _ => stuck, fun cached _ => prepared.low cached bit⟩
      · next cleared =>
          rw [← isAfter]
          exact ⟨nofun, fun _ bit => absurd bit cleared⟩
    · rw [high] at isAfter other
      obtain ⟨_, written, cache⟩ := @sdhci_1_8 _ call.controller new other
      rw [isAfter] at written cache
      have line := sdhci_vddSdIoSel (hc.prepared call) call.controller .v1_8
      rw [isAfter] at line
      by_cases isOk : (sdhciSignalVoltage (hc.prepared call) call.controller .v1_8).2 = .EOK
      · have switched := (sdhci_switched new other (.inr rfl)).2 isOk
        rw [isAfter] at switched
        have bit : after.sig1_8V = true := by
          by_contra clear
          rw [Host.signalling, if_neg clear] at switched
          cases switched
        rw [if_pos isOk] at cache
        refine ⟨fun _ => bit, fun cached => ?_⟩
        rw [cache] at cached
        cases cached
      · rw [if_neg isOk] at cache
        refine ⟨fun cached => absurd (cache.symm.trans cached) other, fun cached _ => ?_⟩
        -- nothing was forgotten, so that the GPIO had the voltage of the request
        have unforced : ¬ call.Forces hc := by
          intro forces
          have forgotten : (hc.prepared call).signalVoltage = none := if_pos forces
          rw [cache, forgotten] at cached
          cases cached
        have kept : (hc.prepared call).vddSdIoSel = hc.vddSdIoSel :=
          if_neg fun driven => unforced driven.1
        rw [line, kept]
        exact line_of_unforced unforced high

theorem truthful_of_run (truthful : Truthful start)
    (ran : Run Host.step Asked start history hc) : Truthful hc := by
  refine @Run.invariant _ _ _ _ _ _ _ (fun _ hc => Truthful hc) truthful ?_ _ _ ran
  intro _ _ _ _ _ kept asked stepped
  exact truthful_step kept asked stepped

/-- Where the GPIO cannot be asked, a request for 1.8 V is passed on as one for 3.3 V. -/
theorem Call.passed_silent (silent : ¬ call.Reported) (high : call.signalVoltage = .v1_8) :
    call.passed = .v3_3 :=
  if_pos ⟨not_not.mp silent, high⟩

theorem signalling_high (bit : hc.sig1_8V = true) : hc.signalling = .v1_8 := if_pos bit

theorem signalling_low (bit : ¬ hc.sig1_8V = true) : hc.signalling = .v3_3 := if_neg bit

/-- A controller that has the voltage cached is at the request when the GPIO is, but for a request
that could not be passed on. -/
theorem Truthful.cached_iff (truthful : Truthful hc) (asked : Asked history hc call)
    (regulator : (hc.prepared call).regulator = call.signalVoltage)
    (cached : (hc.prepared call).signalVoltage = some call.passed) :
    hc.signalling = call.signalVoltage ↔
      call.Reported ∨ call.signalVoltage = .v3_3 ∨
        hc.signalVoltage = some .v3_3 ∧ hc.sig1_8V = true := by
  have prepared := truthful.prepared call
  rcases asked.1 with low | high
  · have bit : ¬ hc.sig1_8V = true := by
      intro set
      rw [Call.passed_low low, low] at cached
      rw [Host.regulator, if_pos (prepared.low cached set), low] at regulator
      cases regulator
    rw [low, signalling_low bit]
    exact ⟨fun _ => .inr (.inl rfl), fun _ => rfl⟩
  · by_cases reported : call.Reported
    · rw [Call.passed_of_reported reported, high] at cached
      have bit : hc.sig1_8V = true := prepared.high cached
      rw [high, signalling_high bit]
      exact ⟨fun _ => .inl reported, fun _ => rfl⟩
    · have unforced : (hc.prepared call).signalVoltage = hc.signalVoltage :=
        if_neg fun forces => reported forces.1
      rw [Call.passed_silent reported high, unforced] at cached
      rw [high]
      constructor
      · intro same
        right
        right
        refine ⟨cached, ?_⟩
        by_contra clear
        rw [signalling_low clear] at same
        cases same
      · rintro (isReported | low | ⟨_, bit⟩)
        · exact absurd isReported reported
        · cases low
        · exact signalling_high bit

/-- A controller that switches is at the request when the request was passed on. -/
theorem Call.switched_iff (asked : Asked history hc call)
    (uncached : (hc.prepared call).signalVoltage ≠ some call.passed) :
    call.passed = call.signalVoltage ↔
      call.Reported ∨ call.signalVoltage = .v3_3 ∨
        hc.signalVoltage = some .v3_3 ∧ hc.sig1_8V = true := by
  constructor
  · intro passes
    by_cases reported : call.Reported
    · exact .inl reported
    · rcases asked.1 with low | high
      · exact .inr (.inl low)
      · rw [Call.passed_silent reported high, high] at passes
        cases passes
  · rintro (reported | low | ⟨cached, _⟩)
    · exact Call.passed_of_reported reported
    · exact Call.passed_low low
    · by_contra replaced
      have silent : ¬ call.Reported := fun reported =>
        replaced (Call.passed_of_reported reported)
      have high : call.signalVoltage = .v1_8 :=
        asked.1.resolve_left fun low => replaced (Call.passed_low low)
      have unforced : (hc.prepared call).signalVoltage = hc.signalVoltage :=
        if_neg fun forces => silent forces.1
      rw [Call.passed_silent silent high, unforced] at uncached
      exact uncached cached

/-- The controller has to switch when the voltage is not cached any more. -/
theorem prepared_uncached_iff :
    (hc.prepared call).signalVoltage ≠ some call.passed ↔
      call.Forces hc ∨ hc.signalVoltage ≠ some call.passed := by
  by_cases forces : call.Forces hc
  · have forgotten : (hc.prepared call).signalVoltage = none := if_pos forces
    rw [forgotten]
    exact ⟨fun _ => .inl forces, fun _ => nofun⟩
  · have kept : (hc.prepared call).signalVoltage = hc.signalVoltage := if_neg forces
    rw [kept]
    exact ⟨.inr, fun either => either.resolve_left forces⟩

/-- A call returns `EOK` unless the controller refuses. -/
theorem returns_iff (asked : Asked history hc call) :
    (sdhciSignalVoltage (hc.prepared call) call.controller call.passed).2 = .EOK ↔
      ¬ call.Refused hc := by
  by_cases old : hc.version < SDHCI_SPEC_VER_3
  · have left : sdhciSignalVoltage (hc.prepared call) call.controller call.passed =
        (hc.prepared call, .EOK) := sdhci_left (.inl old)
    rw [left]
    exact ⟨fun _ refused => absurd old (not_lt.mpr refused.1), fun _ => rfl⟩
  · by_cases cached : (hc.prepared call).signalVoltage = some call.passed
    · rw [sdhci_left (.inr cached)]
      refine ⟨fun _ refused => ?_, fun _ => rfl⟩
      exact prepared_uncached_iff.mpr refused.2.1 cached
    · have new : ¬ (hc.prepared call).version < SDHCI_SPEC_VER_3 := old
      have taken := (@sdhci_switched _ call.controller _ new cached (Call.passed_asked asked)).1
      rw [taken, not_iff_not]
      constructor
      · intro refuses
        exact ⟨not_lt.mp old, prepared_uncached_iff.mp cached, refuses⟩
      · intro refused
        exact refused.2.2

/-- When a call agrees with its request. -/
theorem agrees_step (truthful : Truthful hc) (asked : Asked history hc call)
    (stepped : hc.step call = .ok (after, returned)) :
    Agrees hc call after returned ↔ CanAgree hc call after returned := by
  have both := Except.ok.inj stepped
  rw [bcm2711SignalVoltage_eq asked] at both
  have isAfter : (sdhciSignalVoltage (hc.prepared call) call.controller call.passed).1 = after :=
    congrArg Prod.fst both
  have isReturned : (sdhciSignalVoltage (hc.prepared call) call.controller call.passed).2 =
      returned := congrArg Prod.snd both
  have line : after.regulator = (hc.prepared call).regulator := by
    rw [← isAfter, Host.regulator, sdhci_vddSdIoSel]
    rfl
  by_cases refused : call.Refused hc
  · refine ⟨fun _ => .inl refused, fun _ isOk => ?_⟩
    exact absurd refused ((returns_iff asked).mp (isReturned.trans isOk))
  · have isOk : returned = .EOK := isReturned ▸ (returns_iff asked).mpr refused
    have agrees : Agrees hc call after returned ↔
        (hc.prepared call).regulator = call.signalVoltage ∧
          after.signalling = call.signalVoltage := by
      rw [← line]
      exact ⟨fun holds => holds isOk, fun holds _ => holds⟩
    have canAgree : CanAgree hc call after returned ↔ call.CarriedOut hc :=
      ⟨fun either => either.resolve_left refused, .inr⟩
    rw [agrees, canAgree]
    by_cases regulator : (hc.prepared call).regulator = call.signalVoltage
    · have carried := (prepared_regulator asked).mp regulator
      by_cases old : hc.version < SDHCI_SPEC_VER_3
      · have left : sdhciSignalVoltage (hc.prepared call) call.controller call.passed =
            (hc.prepared call, .EOK) := sdhci_left (.inl old)
        rw [left] at isAfter
        rw [← isAfter]
        constructor
        · rintro ⟨_, signalling⟩
          exact ⟨.inr (.inr (.inl old)), carried, fun _ => signalling⟩
        · intro carriedOut
          exact ⟨regulator, carriedOut.signalling old⟩
      · have signalling : after.signalling = call.signalVoltage ↔
            call.Reported ∨ call.signalVoltage = .v3_3 ∨
              hc.signalVoltage = some .v3_3 ∧ hc.sig1_8V = true := by
          by_cases cached : (hc.prepared call).signalVoltage = some call.passed
          · rw [sdhci_left (.inr cached)] at isAfter
            rw [← isAfter]
            exact truthful.cached_iff asked regulator cached
          · have new : ¬ (hc.prepared call).version < SDHCI_SPEC_VER_3 := old
            have switched := (sdhci_switched new cached (Call.passed_asked asked)).2
              (isReturned.trans isOk)
            rw [isAfter] at switched
            rw [switched]
            exact Call.switched_iff asked cached
        constructor
        · rintro ⟨_, same⟩
          refine ⟨?_, carried, fun isOld => absurd isOld old⟩
          rcases signalling.mp same with reported | low | stale
          · exact .inl reported
          · exact .inr (.inl low)
          · exact .inr (.inr (.inr stale))
        · intro carriedOut
          refine ⟨regulator, signalling.mpr ?_⟩
          rcases carriedOut.passed with reported | low | isOld | stale
          · exact .inl reported
          · exact .inr (.inl low)
          · exact absurd isOld old
          · exact .inr (.inr stale)
    · constructor
      · rintro ⟨same, _⟩
        exact absurd same regulator
      · intro carriedOut
        exact absurd ((prepared_regulator asked).mpr carriedOut.regulator) regulator

/-- Along every sequence of requests, every call that returns `EOK` leaves the regulator and the
controller at the voltage it asked for exactly when each request was refused by the controller or
could be carried out on both sides. -/
theorem voltages_agree_iff (cached : ∀ v, start.signalVoltage = some v → start.signalling = v)
    (history : List (Event Call Status)) :
    Run.Every Host.step Asked start history Agrees ↔
      Run.Every Host.step Asked start history CanAgree := by
  have truthful : Truthful start := by
    constructor
    · intro high
      by_contra clear
      have same := cached _ high
      rw [signalling_low clear] at same
      cases same
    · intro low bit
      have same := cached _ low
      rw [signalling_high bit] at same
      cases same
  apply Run.every_congr
  intro earlier before call after returned ran asked stepped
  exact agrees_step (truthful_of_run truthful ran) asked stepped

/-- A host at 3.3 V, as it is behind a reset. -/
def resetHost : Host where
  version := 2
  devMmc := false
  capSv1_8V := true
  signalVoltage := some .v3_3
  sig1_8V := false
  clockEnable := true
  busPower := true
  vddSdIoSel := false

/-- An exchange for which no memory can be had. -/
def unmapped : Exchange where
  mapped := false
  tovcStatus := fun _ => 0
  answers := []
  carries := false

/-- A request for 1.8 V that cannot ask the firmware. -/
def unanswered : Call where
  signalVoltage := .v1_8
  get := unmapped
  set := unmapped
  controller := ⟨true, SDHCI_PSTATE_DLSL_MSK⟩

theorem resetHost_agrees :
    Run.Every Host.step Asked resetHost [⟨unanswered, .EOK⟩] Agrees ↔
      Run.Every Host.step Asked resetHost [⟨unanswered, .EOK⟩] CanAgree := by
  apply voltages_agree_iff
  intro v isCached
  cases isCached
  rfl

theorem unanswered_returned :
    resetHost.step unanswered = .ok ({ resetHost with capSv1_8V := false }, .EOK) := rfl

theorem unanswered_asked : Asked [] resetHost unanswered :=
  ⟨.inr rfl, fun reported => absurd rfl reported⟩

/-- A request for 1.8 V that cannot ask the firmware returns `EOK`, with both sides at 3.3 V. -/
theorem unanswered_disagrees :
    ¬ Run.Every Host.step Asked resetHost [⟨unanswered, .EOK⟩] Agrees := by
  intro all
  have agrees := all [] _ [] rfl _ _ .start unanswered_asked unanswered_returned rfl
  cases agrees.1

end Bcm2711.Sdhci.Voltage
