import Mathlib
import Bcm2711.Lib.Run
import Bcm2711.Lib.Masks

/-! # The line settings of the serial drivers

The `ser_stty` of each driver programs flow control, line control and baud divisor from the settings
of the terminal, and returns early when nothing changes.  The mini UART builds the new values from
its registers; the PL011 builds them anew and divides only for a baud rate it has not seen last.
-/

namespace Bcm2711.Serial

open Runs

/-- `CSIZE` of `c_cflag`. -/
inductive CSize where
  | cs5
  | cs6
  | cs7
  | cs8
deriving DecidableEq, Repr

/-- The flags of `c_cflag` that the drivers look at, and the baud rate. -/
structure Settings where
  ohflow : Bool
  ihflow : Bool
  csize : CSize
  cstopb : Bool
  parenb : Bool
  parodd : Bool
  baud : BitVec 32
deriving DecidableEq, Repr

/-- How a call stops without returning. -/
inductive Fault where
  | divideByZero
deriving DecidableEq, Repr

/-! ## The mini UART -/

namespace Mini

def CNTL_RXEN : BitVec 32 := 1 <<< 0
def CNTL_TXEN : BitVec 32 := 1 <<< 1
def CNTL_RTSEN : BitVec 32 := 1 <<< 2
def CNTL_CTSEN : BitVec 32 := 1 <<< 3
def IER_RXEN : BitVec 32 := 1 <<< 0
def IER_TXEN : BitVec 32 := 1 <<< 1
def IIR_CLRFIFO : BitVec 32 := 1 <<< 1 ||| 1 <<< 2
def LCR_DSIZE8 : BitVec 32 := 1 <<< 0
def LCR_DSIZE7 : BitVec 32 := 0 <<< 0

/-- The registers that `ser_stty` writes. -/
structure Regs where
  cntl : BitVec 32
  baud : BitVec 32
  lcr : BitVec 32
  ier : BitVec 32
  iir : BitVec 32
deriving DecidableEq, Repr

/-- The fields of `DEV_MINIUART` for the settings, and the registers. -/
structure Dev where
  clk : BitVec 32
  div : BitVec 32
  cntl : BitVec 32
  lcr : BitVec 32
  initDone : Bool
  regs : Regs
deriving DecidableEq, Repr

/-- A device before its first `ser_stty`: `create_device` has it from `calloc`. -/
def created (clk div : BitVec 32) (regs : Regs) : Dev where
  clk := clk
  div := div
  cntl := 0
  lcr := 0
  initDone := false
  regs := regs

/-- The `cntl` for the settings, from the register. -/
def cntlFor (settings : Settings) (cntl : BitVec 32) : BitVec 32 :=
  let cntl := if settings.ohflow then cntl &&& ~~~CNTL_CTSEN ||| CNTL_CTSEN else cntl
  let cntl := if settings.ihflow then cntl &&& ~~~CNTL_RTSEN ||| CNTL_RTSEN else cntl
  cntl ||| (CNTL_TXEN ||| CNTL_RXEN)

/-- The `divd` for the settings, from the register. -/
def divdFor (clk : BitVec 32) (settings : Settings) (divd : BitVec 32) : BitVec 32 :=
  divd &&& ~~~0xFFFF ||| ((clk / (settings.baud * 8) - 1) &&& 0xFFFF)

/-- The `lcr` for the settings, from the register; other sizes are logged. -/
def lcrFor (settings : Settings) (lcr : BitVec 32) : BitVec 32 :=
  match settings.csize with
  | .cs8 => lcr &&& ~~~1 ||| LCR_DSIZE8
  | .cs7 => lcr &&& ~~~1 ||| LCR_DSIZE7
  | .cs6 | .cs5 => lcr

/-- The writes that program the device. -/
def program (regs : Regs) (div lcr cntl : BitVec 32) : Regs :=
  let regs := { regs with cntl := regs.cntl &&& ~~~(CNTL_TXEN ||| CNTL_RXEN) }
  let regs := { regs with ier := regs.ier &&& ~~~(IER_TXEN ||| IER_RXEN) }
  let regs := { regs with baud := div }
  let regs := { regs with lcr := lcr }
  let regs := { regs with cntl := cntl }
  let regs := { regs with iir := IIR_CLRFIFO }
  { regs with ier := regs.ier ||| IER_RXEN }

/-- `ser_stty`.  The wait for the transmitter before the writes ends in a warning at most. -/
def serStty (dev : Dev) (settings : Settings) : Except Fault Dev :=
  let dev := { dev with cntl := dev.regs.cntl, div := dev.regs.baud, lcr := dev.regs.lcr }
  if settings.baud * 8 = 0 then .error .divideByZero
  else
    let divd := divdFor dev.clk settings dev.div
    let lcr := lcrFor settings dev.lcr
    let cntl := cntlFor settings dev.cntl
    if dev.initDone ∧ dev.cntl = cntl ∧ dev.lcr = lcr ∧ dev.div = divd then .ok dev
    else
      let dev := { dev with div := divd, cntl := cntl, lcr := lcr }
      .ok { dev with regs := program dev.regs dev.div dev.lcr dev.cntl }

/-- What happens to a device: a change of the settings, or the end of `create_device`. -/
inductive Call where
  | stty (settings : Settings)
  | initDone
deriving DecidableEq, Repr

def step (dev : Dev) : Call → Except Fault (Dev × Unit)
  | .stty settings => (serStty dev settings).map fun after => (after, ())
  | .initDone => .ok ({ dev with initDone := true }, ())

/-- The hardware has seven and eight bits, and a baud rate is positive. -/
def Supported : Call → Prop
  | .stty settings => (settings.csize = .cs7 ∨ settings.csize = .cs8) ∧ settings.baud ≠ 0
  | .initDone => True

instance : DecidablePred Supported := fun call =>
  match call with
  | .stty _ => inferInstanceAs (Decidable (_ ∧ _))
  | .initDone => inferInstanceAs (Decidable True)

/-- The flow-control enables, the line control and the divisor of a device. -/
def programmed (dev : Dev) : BitVec 32 × BitVec 32 × BitVec 32 :=
  (dev.regs.cntl &&& (CNTL_CTSEN ||| CNTL_RTSEN), dev.regs.lcr, dev.regs.baud)

/-- A flag that a call of the history asked for. -/
def asked (flag : Settings → Bool) (history : List (Event Call Unit)) : Bool :=
  history.any fun event =>
    match event.call with
    | .stty settings => flag settings
    | .initDone => false

/-- A flow control that an earlier call asked for is asked for again, or was on at first. -/
def StillAsked (regs : Regs) (history : List (Event Call Unit)) (last : Settings) : Prop :=
  (asked Settings.ohflow history → last.ohflow ∨ regs.cntl.getLsbD 3) ∧
    (asked Settings.ihflow history → last.ihflow ∨ regs.cntl.getLsbD 2)

/-! ### The registers after a call -/

variable {dev after : Dev} {settings : Settings}

theorem cntlFor_cts (settings : Settings) (cntl : BitVec 32) :
    (cntlFor settings cntl).getLsbD 3 = (settings.ohflow || cntl.getLsbD 3) := by
  unfold cntlFor
  cases settings.ohflow <;> cases settings.ihflow <;>
    simp [CNTL_CTSEN, CNTL_RTSEN, CNTL_TXEN, CNTL_RXEN]

theorem cntlFor_rts (settings : Settings) (cntl : BitVec 32) :
    (cntlFor settings cntl).getLsbD 2 = (settings.ihflow || cntl.getLsbD 2) := by
  unfold cntlFor
  cases settings.ohflow <;> cases settings.ihflow <;>
    simp [CNTL_CTSEN, CNTL_RTSEN, CNTL_TXEN, CNTL_RXEN]

/-- The enables are the bits of the two flow controls. -/
theorem flow_eq_iff (first second : BitVec 32) :
    first &&& (CNTL_CTSEN ||| CNTL_RTSEN) = second &&& (CNTL_CTSEN ||| CNTL_RTSEN) ↔
      first.getLsbD 3 = second.getLsbD 3 ∧ first.getLsbD 2 = second.getLsbD 2 := by
  rw [Masks.and_eq_iff]
  constructor
  · intro same
    exact ⟨same 3 rfl, same 2 rfl⟩
  · rintro ⟨cts, rts⟩ position marked
    have place : position = 3 ∨ position = 2 := by
      by_contra elsewhere
      obtain ⟨notCts, notRts⟩ := not_or.mp elsewhere
      have inside := BitVec.lt_of_getLsbD marked
      interval_cases position <;> contradiction
    rcases place with rfl | rfl
    · exact cts
    · exact rts

/-- The divisor is put into the low half. -/
theorem divdFor_eq (clk divd : BitVec 32) (settings : Settings) :
    divdFor clk settings divd = Masks.put 0xFFFF divd (clk / (settings.baud * 8) - 1) := rfl

/-- The size is put into the lowest bit. -/
theorem lcrFor_eq (size : settings.csize = .cs7 ∨ settings.csize = .cs8) :
    ∃ dsize, ∀ lcr, lcrFor settings lcr = Masks.put 1 lcr dsize := by
  rcases size with seven | eight
  · refine ⟨LCR_DSIZE7, fun lcr => ?_⟩
    rw [lcrFor, seven, Masks.put_of_inside rfl]
  · refine ⟨LCR_DSIZE8, fun lcr => ?_⟩
    rw [lcrFor, eight, Masks.put_of_inside rfl]

/-- A call that does not divide by zero leaves the values for its settings in the registers, also
when it returns early. -/
theorem serStty_returns (dev : Dev) (divides : settings.baud * 8 ≠ 0) :
    ∃ after, serStty dev settings = .ok after ∧ after.clk = dev.clk ∧
      after.regs.cntl = cntlFor settings dev.regs.cntl ∧
      after.regs.lcr = lcrFor settings dev.regs.lcr ∧
      after.regs.baud = divdFor dev.clk settings dev.regs.baud := by
  unfold serStty
  dsimp only
  rw [if_neg divides]
  split
  · next same =>
    obtain ⟨_, cntl, lcr, divd⟩ := same
    exact ⟨_, rfl, rfl, cntl, lcr, divd⟩
  · exact ⟨_, rfl, rfl, rfl, rfl, rfl⟩

theorem serStty_faults (dev : Dev) (zero : settings.baud * 8 = 0) :
    serStty dev settings = .error .divideByZero := if_pos zero

/-! ### Histories -/

/-- What a history leaves of the registers at first. -/
structure Leaves (start : Dev) (history : List (Event Call Unit)) (state : Dev) : Prop where
  clk : state.clk = start.clk
  baud : state.regs.baud &&& ~~~0xFFFF = start.regs.baud &&& ~~~0xFFFF
  lcr : state.regs.lcr &&& ~~~1 = start.regs.lcr &&& ~~~1
  cts : state.regs.cntl.getLsbD 3 = (asked Settings.ohflow history || start.regs.cntl.getLsbD 3)
  rts : state.regs.cntl.getLsbD 2 = (asked Settings.ihflow history || start.regs.cntl.getLsbD 2)

theorem asked_append (flag : Settings → Bool) (history : List (Event Call Unit)) (call : Call) :
    asked flag (history ++ [⟨call, ()⟩]) =
      (asked flag history || match call with
        | .stty settings => flag settings
        | .initDone => false) := by
  rw [asked, List.any_append, List.any_cons, List.any_nil, Bool.or_false]
  rfl

theorem leaves_step {start state : Dev} {history : List (Event Call Unit)} {call : Call}
    {returned : Unit} (left : Leaves start history state) (supported : Supported call)
    (stepped : step state call = .ok (after, returned)) :
    Leaves start (history ++ [⟨call, returned⟩]) after := by
  cases call with
  | initDone =>
      cases stepped
      refine ⟨left.clk, left.baud, left.lcr, ?_, ?_⟩
      · rw [asked_append, Bool.or_false]
        exact left.cts
      · rw [asked_append, Bool.or_false]
        exact left.rts
  | stty settings =>
      by_cases zero : settings.baud * 8 = 0
      · rw [step, serStty_faults state zero] at stepped
        cases stepped
      · obtain ⟨next, returns, clk, cntl, lcr, baud⟩ := serStty_returns state zero
        rw [step, returns] at stepped
        cases stepped
        obtain ⟨dsize, sized⟩ := lcrFor_eq supported.1
        refine ⟨clk.trans left.clk, ?_, ?_, ?_, ?_⟩
        · rw [baud, divdFor_eq, Masks.put_outside]
          exact left.baud
        · rw [lcr, sized, Masks.put_outside]
          exact left.lcr
        · rw [cntl, cntlFor_cts, left.cts, asked_append, ← Bool.or_assoc,
            Bool.or_comm settings.ohflow]
        · rw [cntl, cntlFor_rts, left.rts, asked_append, ← Bool.or_assoc,
            Bool.or_comm settings.ihflow]

theorem leaves_of_run {start state : Dev} {history : List (Event Call Unit)}
    (ran : Run step (fun _ _ call => Supported call) start history state) :
    Leaves start history state := by
  apply ran.invariant
  · exact ⟨rfl, rfl, rfl, rfl, rfl⟩
  · intro history state call after returned left supported stepped
    exact leaves_step left supported stepped

/-- Two settings of a flow control agree when the first was asked for again or on at first. -/
theorem flow_agrees_iff (flag earlier first : Bool) :
    (flag || (earlier || first)) = (flag || first) ↔
      (earlier = true → flag = true ∨ first = true) := by
  cases flag <;> cases earlier <;> cases first <;> decide

/-- A call forgets the history exactly when it divides by zero, or each flow control that an
earlier call asked for is asked for again or was on at first. -/
theorem forgets_iff {start state : Dev} {history : List (Event Call Unit)} {last : Settings}
    (ran : Run step (fun _ _ call => Supported call) start history state)
    (supported : Supported (.stty last)) :
    Run.Forgets step start programmed state (.stty last) ↔
      last.baud * 8 = 0 ∨ StillAsked start.regs history last := by
  have left := leaves_of_run ran
  by_cases zero : last.baud * 8 = 0
  · have faults : ∀ dev, step dev (.stty last) = .error .divideByZero := by
      intro dev
      rw [step, serStty_faults dev zero]
      rfl
    exact iff_of_true (Run.forgets_of_error (faults state) (faults start)) (.inl zero)
  · obtain ⟨after, returns, _, cntl, lcr, baud⟩ := serStty_returns state zero
    obtain ⟨fresh, freshReturns, _, freshCntl, freshLcr, freshBaud⟩ := serStty_returns start zero
    obtain ⟨dsize, sized⟩ := lcrFor_eq supported.1
    have sameLcr : after.regs.lcr = fresh.regs.lcr := by
      rw [lcr, freshLcr, sized, sized, Masks.put_congr left.lcr]
    have sameBaud : after.regs.baud = fresh.regs.baud := by
      rw [baud, freshBaud, divdFor_eq, divdFor_eq, left.clk, Masks.put_congr left.baud]
    have stepped : step state (.stty last) = .ok (after, ()) := by
      rw [step, returns]
      rfl
    have freshStepped : step start (.stty last) = .ok (fresh, ()) := by
      rw [step, freshReturns]
      rfl
    rw [Run.forgets_iff_of_ok stepped freshStepped, programmed, programmed, sameLcr, sameBaud,
      Prod.mk.injEq, and_iff_left rfl, flow_eq_iff, cntl, freshCntl, cntlFor_cts, cntlFor_cts,
      cntlFor_rts, cntlFor_rts, left.cts, left.rts, flow_agrees_iff, flow_agrees_iff,
      or_iff_right zero]
    rfl

end Mini

/-! ## The PL011 -/

namespace Pl011

/-- The bits of the registers, which have their names in `arm/pl011.h`. -/
structure Bits where
  CR_UARTEN : BitVec 32
  CR_TXE : BitVec 32
  CR_RXE : BitVec 32
  CR_CTSEn : BitVec 32
  CR_RTSEn : BitVec 32
  CR_OVSFACT : BitVec 32
  CR_LBE : BitVec 32
  LCR_H_FEN : BitVec 32
  LCR_H_WLEN8 : BitVec 32
  LCR_H_WLEN7 : BitVec 32
  LCR_H_WLEN6 : BitVec 32
  LCR_H_WLEN5 : BitVec 32
  LCR_H_STP2 : BitVec 32
  LCR_H_PEN : BitVec 32
  LCR_H_EPS : BitVec 32
  IMSC_RXIM : BitVec 32
  IMSC_RTIM : BitVec 32
  enables : CR_UARTEN ≠ 0
deriving DecidableEq, Repr

/-- The registers that `ser_stty` writes. -/
structure Regs where
  cr : BitVec 32
  dmacr : BitVec 32
  lcrH : BitVec 32
  ifls : BitVec 32
  timeout : BitVec 32
  icr : BitVec 32
  ibrd : BitVec 32
  fbrd : BitVec 32
  imsc : BitVec 32
deriving DecidableEq, Repr

/-- What `create_device` sets for good. -/
structure Config where
  portSize : Int
  fifosize : BitVec 32
  clk : BitVec 32
  div : BitVec 32
  fifo : BitVec 32
  loopback : BitVec 32
deriving DecidableEq, Repr

/-- The fields of `DEV_PL011` for the settings, and the registers. -/
structure Dev where
  config : Config
  baud : BitVec 32
  lcrH : BitVec 32
  ibrd : BitVec 32
  fbrd : BitVec 32
  cr : BitVec 32
  imr : BitVec 32
  regs : Regs
deriving DecidableEq, Repr

/-- A device before its first `ser_stty`: `create_device` fills it with zeros. -/
def created (config : Config) (regs : Regs) : Dev where
  config := config
  baud := 0
  lcrH := 0
  ibrd := 0
  fbrd := 0
  cr := 0
  imr := 0
  regs := regs

/-- `write_port` on a register. -/
def writePort (portSize : Int) (reg val : BitVec 32) : BitVec 32 :=
  if portSize = 2 then val
  else if portSize = 1 then reg &&& ~~~0xFFFF ||| val &&& 0xFFFF
  else reg &&& ~~~0xFF ||| val &&& 0xFF

/-- `read_port` on a register. -/
def readPort (portSize : Int) (reg : BitVec 32) : BitVec 32 :=
  if portSize = 2 then reg
  else if portSize = 1 then reg &&& 0xFFFF
  else reg &&& 0xFF

variable (bits : Bits)

/-- The `lcr_h` for the settings. -/
def lcrHFor (settings : Settings) : BitVec 32 :=
  let lcrH := bits.LCR_H_FEN
  let lcrH := lcrH ||| match settings.csize with
    | .cs8 => bits.LCR_H_WLEN8
    | .cs7 => bits.LCR_H_WLEN7
    | .cs6 => bits.LCR_H_WLEN6
    | .cs5 => bits.LCR_H_WLEN5
  let lcrH := if settings.cstopb then lcrH ||| bits.LCR_H_STP2 else lcrH
  if settings.parenb then
    let lcrH := lcrH ||| bits.LCR_H_PEN
    if settings.parodd then lcrH else lcrH ||| bits.LCR_H_EPS
  else lcrH

/-- The `cr` for the settings. -/
def crFor (config : Config) (settings : Settings) : BitVec 32 :=
  let cr := bits.CR_RXE ||| bits.CR_TXE ||| bits.CR_UARTEN
  let cr := if settings.ohflow then cr ||| bits.CR_CTSEn else cr
  let cr := if settings.ihflow then cr ||| bits.CR_RTSEn else cr
  let cr := if config.div = 8 then cr ||| bits.CR_OVSFACT else cr
  if config.loopback ≠ 0 then cr ||| bits.CR_LBE else cr

/-- The integer part of the baud divisor. -/
def ibrdFor (clock baud : BitVec 32) : BitVec 32 := clock / baud

/-- The fraction of the baud divisor. -/
def fbrdFor (clock baud : BitVec 32) : BitVec 32 :=
  (clock % baud * 64#32 + (baud + 1) >>> (1 : Nat)) / baud

/-- The baud rate and the divisor that a call goes on with. -/
def divisors (dev : Dev) (settings : Settings) :
    Except Fault (BitVec 32 × BitVec 32 × BitVec 32) :=
  if dev.baud = settings.baud then .ok (dev.baud, dev.ibrd, dev.fbrd)
  else if dev.config.div = 0 ∨ settings.baud = 0 then .error .divideByZero
  else
    let clock := dev.config.clk / dev.config.div
    .ok (settings.baud, ibrdFor clock settings.baud, fbrdFor clock settings.baud)

/-- The writes that program the device. -/
def program (dev : Dev) : Regs :=
  let write := writePort dev.config.portSize
  let regs := dev.regs
  let regs := { regs with cr := write regs.cr 0 }
  let regs := { regs with dmacr := write regs.dmacr 0 }
  let regs := { regs with
    lcrH := write regs.lcrH (readPort dev.config.portSize regs.lcrH &&& ~~~bits.LCR_H_FEN) }
  let regs := if dev.config.fifosize ≠ 0 ∧ dev.config.fifo ≠ 0 then
      { regs with ifls := write regs.ifls dev.config.fifo, timeout := write regs.timeout 0x1ff }
    else regs
  let regs := { regs with icr := write regs.icr 0x7FF }
  let regs := { regs with ibrd := write regs.ibrd dev.ibrd }
  let regs := { regs with fbrd := write regs.fbrd dev.fbrd }
  let regs := { regs with lcrH := write regs.lcrH dev.lcrH }
  let regs := { regs with cr := write regs.cr dev.cr }
  { regs with imsc := write regs.imsc dev.imr }

/-- `ser_stty`.  The wait for the chip before the writes ends in a message at most. -/
def serStty (dev : Dev) (settings : Settings) : Except Fault Dev :=
  let lcrH := lcrHFor bits settings
  let cr := crFor bits dev.config settings
  match divisors dev settings with
  | .error fault => .error fault
  | .ok (baud, ibrd, fbrd) =>
      let dev := { dev with baud := baud }
      if cr = dev.cr ∧ lcrH = dev.lcrH ∧ ibrd = dev.ibrd ∧ fbrd = dev.fbrd then .ok dev
      else
        let dev := { dev with
          imr := bits.IMSC_RXIM ||| bits.IMSC_RTIM
          lcrH := lcrH
          ibrd := ibrd
          fbrd := fbrd
          cr := cr }
        .ok { dev with regs := program bits dev }

def step (dev : Dev) (settings : Settings) : Except Fault (Dev × Unit) :=
  (serStty bits dev settings).map fun after => (after, ())

/-- Every size has its bits; a baud rate is positive. -/
def Supported (settings : Settings) : Prop := settings.baud ≠ 0

instance : DecidablePred Supported := fun _ => inferInstanceAs (Decidable (_ ≠ _))

/-- The flow-control enables, the line control and the divisor of a device. -/
def programmed (dev : Dev) : BitVec 32 × BitVec 32 × BitVec 32 × BitVec 32 :=
  (dev.regs.cr &&& (bits.CR_CTSEn ||| bits.CR_RTSEn), dev.regs.lcrH, dev.regs.ibrd, dev.regs.fbrd)

/-! ### Ports -/

/-- The bits of a port. -/
def portMask (portSize : Int) : BitVec 32 :=
  if portSize = 2 then BitVec.allOnes 32 else if portSize = 1 then 0xFFFF else 0xFF

theorem writePort_eq (portSize : Int) (reg val : BitVec 32) :
    writePort portSize reg val = Masks.put (portMask portSize) reg val := by
  unfold writePort portMask
  split
  · rw [Masks.put, BitVec.not_allOnes, BitVec.and_zero, BitVec.zero_or, BitVec.and_allOnes]
  · split <;> rfl

/-- Of two writes to a register the last one counts. -/
theorem writePort_writePort (portSize : Int) (reg first second : BitVec 32) :
    writePort portSize (writePort portSize reg first) second = writePort portSize reg second := by
  rw [writePort_eq, writePort_eq, writePort_eq, Masks.put_put]

/-! ### The registers after a call -/

variable {bits} {config : Config} {regs : Regs} {dev after : Dev} {settings : Settings}

/-- The UART is enabled for all settings. -/
theorem crFor_ne_zero (bits : Bits) (config : Config) (settings : Settings) :
    crFor bits config settings ≠ 0 := by
  have keeps : ∀ {first second : BitVec 32}, first ≠ 0 → first ||| second ≠ 0 := fun nonzero zero =>
    nonzero (BitVec.or_eq_zero_iff.mp zero).1
  have keepsIf : ∀ {given : Prop} [Decidable given] {first second : BitVec 32}, first ≠ 0 →
      (if given then first ||| second else first) ≠ 0 := by
    intro given _ first second nonzero
    split
    · exact keeps nonzero
    · exact nonzero
  have enabled : bits.CR_RXE ||| bits.CR_TXE ||| bits.CR_UARTEN ≠ 0 := fun zero =>
    bits.enables (BitVec.or_eq_zero_iff.mp zero).2
  exact keepsIf (keepsIf (keepsIf (keepsIf enabled)))

/-- The registers that hold these settings, where others were before. -/
structure Holds (portSize : Int) (before : Regs) (cr lcrH ibrd fbrd : BitVec 32) (regs : Regs) :
    Prop where
  cr : regs.cr = writePort portSize before.cr cr
  lcrH : regs.lcrH = writePort portSize before.lcrH lcrH
  ibrd : regs.ibrd = writePort portSize before.ibrd ibrd
  fbrd : regs.fbrd = writePort portSize before.fbrd fbrd

/-- Programming a device puts its settings into its registers. -/
theorem program_holds (bits : Bits) (dev : Dev) :
    Holds dev.config.portSize dev.regs dev.cr dev.lcrH dev.ibrd dev.fbrd (program bits dev) := by
  unfold program
  dsimp only
  split <;>
    exact ⟨writePort_writePort _ _ _ _, writePort_writePort _ _ _ _, rfl, rfl⟩

/-- Settings that are programmed once more replace the ones before. -/
theorem Holds.trans {portSize : Int} {before between regs : Regs}
    {cr lcrH ibrd fbrd newCr newLcrH newIbrd newFbrd : BitVec 32}
    (first : Holds portSize before cr lcrH ibrd fbrd between)
    (second : Holds portSize between newCr newLcrH newIbrd newFbrd regs) :
    Holds portSize before newCr newLcrH newIbrd newFbrd regs where
  cr := by rw [second.cr, first.cr, writePort_writePort]
  lcrH := by rw [second.lcrH, first.lcrH, writePort_writePort]
  ibrd := by rw [second.ibrd, first.ibrd, writePort_writePort]
  fbrd := by rw [second.fbrd, first.fbrd, writePort_writePort]

/-- The device has the values for the settings, and its registers hold them. -/
structure Programmed (bits : Bits) (config : Config) (start : Regs) (settings : Settings)
    (dev : Dev) : Prop where
  configured : dev.config = config
  div : config.div ≠ 0
  baud : dev.baud = settings.baud
  cr : dev.cr = crFor bits config settings
  lcrH : dev.lcrH = lcrHFor bits settings
  ibrd : dev.ibrd = ibrdFor (config.clk / config.div) settings.baud
  fbrd : dev.fbrd = fbrdFor (config.clk / config.div) settings.baud
  holds : Holds config.portSize start dev.cr dev.lcrH dev.ibrd dev.fbrd dev.regs

/-- A device that was never programmed, or that was for some settings. -/
def Settled (bits : Bits) (config : Config) (start : Regs) (dev : Dev) : Prop :=
  dev = created config start ∨ ∃ settings, Supported settings ∧
    Programmed bits config start settings dev

/-- The divisor of a settled device is the one of the settings, whether it is computed or not. -/
theorem divisors_eq (settled : Settled bits config regs dev) (supported : Supported settings)
    (divides : config.div ≠ 0) :
    divisors dev settings = .ok (settings.baud, ibrdFor (config.clk / config.div) settings.baud,
      fbrdFor (config.clk / config.div) settings.baud) := by
  have computed : dev.config = config → dev.baud ≠ settings.baud →
      divisors dev settings = .ok (settings.baud, ibrdFor (config.clk / config.div) settings.baud,
        fbrdFor (config.clk / config.div) settings.baud) := by
    intro same other
    unfold divisors
    rw [if_neg other, same, if_neg (not_or.mpr ⟨divides, supported⟩)]
  rcases settled with rfl | ⟨earlier, _, programmed⟩
  · apply computed rfl
    exact Ne.symm supported
  · by_cases same : dev.baud = settings.baud
    · unfold divisors
      rw [if_pos same, programmed.ibrd, programmed.fbrd, ← programmed.baud, same]
    · exact computed programmed.configured same

/-- A call programs the settings on a settled device. -/
theorem serStty_programs (settled : Settled bits config regs dev) (supported : Supported settings)
    (divides : config.div ≠ 0) :
    ∃ after, serStty bits dev settings = .ok after ∧
      Programmed bits config regs settings after := by
  have configured : dev.config = config := by
    rcases settled with rfl | ⟨earlier, _, programmed⟩
    · rfl
    · exact programmed.configured
  unfold serStty
  dsimp only
  rw [divisors_eq settled supported divides]
  dsimp only
  split
  · next same =>
    obtain ⟨cr, lcrH, ibrd, fbrd⟩ := same
    rcases settled with rfl | ⟨earlier, _, programmed⟩
    · exact absurd cr (crFor_ne_zero _ _ _)
    · rw [configured] at cr
      exact ⟨_, rfl, configured, divides, rfl, cr.symm, lcrH.symm, ibrd.symm, fbrd.symm,
        programmed.holds⟩
  · refine ⟨_, rfl, configured, divides, rfl, congrArg (crFor bits · settings) configured, rfl, rfl,
      rfl, ?_⟩
    have holds := program_holds bits { dev with
      baud := settings.baud
      imr := bits.IMSC_RXIM ||| bits.IMSC_RTIM
      lcrH := lcrHFor bits settings
      ibrd := ibrdFor (config.clk / config.div) settings.baud
      fbrd := fbrdFor (config.clk / config.div) settings.baud
      cr := crFor bits dev.config settings }
    rcases settled with rfl | ⟨earlier, _, programmed⟩
    · exact holds
    · dsimp only at holds
      rw [configured] at holds
      rw [configured]
      exact programmed.holds.trans holds

theorem serStty_faults (supported : Supported settings) (zero : config.div = 0) :
    serStty bits (created config regs) settings = .error .divideByZero := by
  have faults : divisors (created config regs) settings = .error .divideByZero := by
    have other : (created config regs).baud ≠ settings.baud := Ne.symm supported
    have faulty : (created config regs).config.div = 0 ∨ settings.baud = 0 := .inl zero
    unfold divisors
    rw [if_neg other, if_pos faulty]
  unfold serStty
  dsimp only
  rw [faults]

/-! ### Histories -/

theorem settled_step (settled : Settled bits config regs dev) (supported : Supported settings)
    {returned : Unit} (stepped : step bits dev settings = .ok (after, returned)) :
    Settled bits config regs after := by
  by_cases zero : config.div = 0
  · rcases settled with rfl | ⟨_, _, programmed⟩
    · rw [step, serStty_faults supported zero] at stepped
      cases stepped
    · exact absurd zero programmed.div
  · obtain ⟨next, returns, programmed⟩ := @serStty_programs bits _ _ _ _ settled supported zero
    rw [step, returns] at stepped
    cases stepped
    exact .inr ⟨settings, supported, programmed⟩

theorem settled_of_run {history : List (Event Settings Unit)}
    (ran : Run (step bits) (fun _ _ call => Supported call) (created config regs) history dev) :
    Settled bits config regs dev := by
  apply ran.invariant
  · exact .inl rfl
  · intro history state call after returned settled supported stepped
    exact settled_step settled supported stepped

/-- Two devices that are programmed for the same settings show the same. -/
theorem Programmed.shows_eq {first second : Dev} (one : Programmed bits config regs settings first)
    (two : Programmed bits config regs settings second) :
    programmed bits first = programmed bits second := by
  rw [programmed, programmed, one.holds.cr, two.holds.cr, one.holds.lcrH, two.holds.lcrH,
    one.holds.ibrd, two.holds.ibrd, one.holds.fbrd, two.holds.fbrd, one.cr, two.cr, one.lcrH,
    two.lcrH, one.ibrd, two.ibrd, one.fbrd, two.fbrd]

/-- A call forgets every history. -/
theorem forgets {history : List (Event Settings Unit)}
    (ran : Run (step bits) (fun _ _ call => Supported call) (created config regs) history dev)
    (supported : Supported settings) :
    Run.Forgets (step bits) (created config regs) (programmed bits) dev settings := by
  have settled := settled_of_run ran
  by_cases zero : config.div = 0
  · rcases settled with rfl | ⟨_, _, programmed⟩
    · rfl
    · exact absurd zero programmed.div
  · obtain ⟨after, returns, later⟩ := @serStty_programs bits _ _ _ _ settled supported zero
    obtain ⟨fresh, freshReturns, atStart⟩ :=
      @serStty_programs bits config regs _ _ (.inl rfl) supported zero
    have stepped : step bits dev settings = .ok (after, ()) := by
      rw [step, returns]
      rfl
    have freshStepped : step bits (created config regs) settings = .ok (fresh, ()) := by
      rw [step, freshReturns]
      rfl
    rw [Run.forgets_iff_of_ok stepped freshStepped]
    exact later.shows_eq atStart

end Pl011

/-! ## Both drivers -/

/-- After every history of each driver, with every state of the registers at first, the last calls
leave flow control, line control and divisor as they would have on a fresh device exactly when the
one on the mini UART divides by zero, or asks again for each flow control that an earlier call asked
for and that was off at first. -/
theorem stty_forgets_iff {bits : Pl011.Bits} {config : Pl011.Config} {regs : Pl011.Regs}
    {history : List (Event Settings Unit)} {dev : Pl011.Dev} {last : Settings}
    {clk div : BitVec 32} {miniRegs : Mini.Regs} {miniHistory : List (Event Mini.Call Unit)}
    {miniDev : Mini.Dev} {miniLast : Settings}
    (ran : Run (Pl011.step bits) (fun _ _ call => Pl011.Supported call)
      (Pl011.created config regs) history dev)
    (supported : Pl011.Supported last)
    (miniRan : Run Mini.step (fun _ _ call => Mini.Supported call)
      (Mini.created clk div miniRegs) miniHistory miniDev)
    (miniSupported : Mini.Supported (.stty miniLast)) :
    Run.Forgets (Pl011.step bits) (Pl011.created config regs) (Pl011.programmed bits) dev last ∧
        Run.Forgets Mini.step (Mini.created clk div miniRegs) Mini.programmed miniDev
          (.stty miniLast) ↔
      miniLast.baud * 8 = 0 ∨ Mini.StillAsked miniRegs miniHistory miniLast := by
  rw [and_iff_right (Pl011.forgets ran supported)]
  exact Mini.forgets_iff miniRan miniSupported

/-- Eight bits at 115200 baud. -/
def plain : Settings := ⟨false, false, .cs8, false, false, false, 115200⟩

/-- The same with the flow control of the output. -/
def flowing : Settings := { plain with ohflow := true }

/-- The registers of a mini UART after a reset. -/
def Mini.resetRegs : Mini.Regs := ⟨3, 0, 0, 0, 0xc1⟩

/-- The bits of the PL011, and a port of words with a UART at 48 MHz. -/
def Pl011.armBits : Pl011.Bits where
  CR_UARTEN := 0x0001
  CR_TXE := 0x0100
  CR_RXE := 0x0200
  CR_CTSEn := 0x8000
  CR_RTSEn := 0x4000
  CR_OVSFACT := 0x0008
  CR_LBE := 0x0080
  LCR_H_FEN := 0x10
  LCR_H_WLEN8 := 0x60
  LCR_H_WLEN7 := 0x40
  LCR_H_WLEN6 := 0x20
  LCR_H_WLEN5 := 0x00
  LCR_H_STP2 := 0x08
  LCR_H_PEN := 0x02
  LCR_H_EPS := 0x04
  IMSC_RXIM := 0x10
  IMSC_RTIM := 0x40
  enables := by decide

def Pl011.boardConfig : Pl011.Config := ⟨2, 32, 48000000, 16, 0x12, 0⟩

def Pl011.resetRegs : Pl011.Regs := ⟨0x300, 0, 0, 0x12, 0, 0, 0, 0, 0⟩

/-- The device after the call of `create_device`, and the end of it. -/
def Mini.flowingDev : Mini.Dev :=
  ⟨250000000, 270, 0xb, 1, true, ⟨0xb, 270, 1, 1, 6⟩⟩

theorem Mini.flowingRun : Run Mini.step (fun _ _ call => Mini.Supported call)
    (Mini.created 250000000 16 Mini.resetRegs) [⟨.stty flowing, ()⟩, ⟨.initDone, ()⟩]
    Mini.flowingDev := by
  have executed : Run.execute Mini.step (fun _ _ call => Mini.Supported call) []
      (Mini.created 250000000 16 Mini.resetRegs) [.stty flowing, .initDone] =
        some ([⟨.stty flowing, ()⟩, ⟨.initDone, ()⟩], Mini.flowingDev) := by decide
  exact Run.of_execute Run.start executed

/-- The flow control of the output stays on when the next call does not ask for it. -/
theorem flow_stays :
    Run Mini.step (fun _ _ call => Mini.Supported call)
        (Mini.created 250000000 16 Mini.resetRegs) [⟨.stty flowing, ()⟩, ⟨.initDone, ()⟩]
        Mini.flowingDev ∧
      Mini.Supported (.stty plain) ∧
      ¬ Run.Forgets Mini.step (Mini.created 250000000 16 Mini.resetRegs) Mini.programmed
        Mini.flowingDev (.stty plain) := by
  refine ⟨Mini.flowingRun, by decide, ?_⟩
  unfold Run.Forgets
  decide

/-- A history that asked for flow control, and a call that asks for it again. -/
theorem flow_forgotten :
    Run.Forgets (Pl011.step Pl011.armBits) (Pl011.created Pl011.boardConfig Pl011.resetRegs)
        (Pl011.programmed Pl011.armBits) (Pl011.created Pl011.boardConfig Pl011.resetRegs) plain ∧
      Run.Forgets Mini.step (Mini.created 250000000 16 Mini.resetRegs) Mini.programmed
        Mini.flowingDev (.stty flowing) :=
  (stty_forgets_iff Run.start (by decide) Mini.flowingRun (by decide)).mpr
    (.inr ⟨fun _ => .inl rfl, nofun⟩)

end Bcm2711.Serial
