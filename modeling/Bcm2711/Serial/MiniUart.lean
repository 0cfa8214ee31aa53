import Bcm2711.Lib.Actions

/-! # The driver of the mini UART

`tto` moves characters from the output buffer to the FIFO of the UART while there is room, and
enables the transmit interrupt when it leaves some; the interrupt handler disables it again and asks
for another call.  The handler also moves what has been received to the input.  The two run beside
each other and beside the UART, and read and write the same registers.
-/

namespace Bcm2711.Serial.MiniUart

open Actions

/-! ## The UART and the driver -/

def MINIUART_FIFO_SIZE : Nat := 8

/-- `AUX_MU_IER_REG`. -/
structure Ier where
  txen : Bool
  rxen : Bool
deriving DecidableEq, Repr

/-- A character of the output buffer: of a client, or one that controls the flow. -/
inductive Item where
  | data (char : UInt8)
  | control (char : UInt8)
deriving DecidableEq, Repr

/-- Where `tto` is. -/
inductive Tto where
  | idle
  /-- The flags are tested. -/
  | entered
  /-- At the condition of the loop. -/
  | loop
  /-- At `tto_getchar`. -/
  | getting
  /-- The character is written to the UART next. -/
  | sending (c : Item)
  /-- `OSW_PAGED_OVERRIDE` is tested. -/
  | sent
  /-- Behind the loop. -/
  | behind
  /-- `AUX_MU_IER_REG` is read next. -/
  | enabling
  | enable (reg : Ier)
deriving DecidableEq, Repr

/-- Where the interrupt handler is. -/
inductive Handler where
  | idle
  /-- `AUX_MU_IIR_REG` is read next. -/
  | entered
  /-- At the condition of the loop of `rx_interrupt`. -/
  | rx (byteCount : Nat)
  /-- In `tx_interrupt`, where `AUX_MU_IER_REG` is read next. -/
  | tx
  /-- The transmit interrupt is disabled next. -/
  | disabling (ier : Ier)
  /-- `EVENT_TTO` is set next. -/
  | flagging
  /-- At `InterruptUnmask`. -/
  | leaving
deriving DecidableEq, Repr

/-- The driver, the UART, and what has gone through them. -/
structure State where
  obuf : List Item
  /-- `OHW_PAGED` or `OSW_PAGED` is set. -/
  paged : Bool
  /-- `OSW_PAGED_OVERRIDE` is set. -/
  override : Bool
  /-- `EVENT_TTO` is set. -/
  eventTto : Bool
  /-- `tto` is to be called, since something was added or output goes on. -/
  called : Bool
  txFifo : List Item
  line : List Item
  ier : Ier
  rxFifo : List UInt8
  /-- What `tti` was called with. -/
  input : List UInt8
  tto : Tto
  handler : Handler
  /-- What clients have written. -/
  written : List UInt8
  /-- What the UART has put into its FIFO. -/
  received : List UInt8
deriving DecidableEq, Repr

/-- Nothing is written, and the receive interrupt is enabled. -/
def State.initial : State :=
  ⟨[], false, false, false, false, [], [], ⟨false, true⟩, [], [], .idle, .idle, [], []⟩

/-- A step of `tto`. -/
def ttoStep (state : State) : Option State :=
  match state.tto with
  | .idle => none
  | .entered =>
      if state.paged ∧ ¬state.override then some { state with tto := .idle }
      else some { state with tto := .loop }
  | .loop =>
      if state.txFifo.length < MINIUART_FIFO_SIZE ∧ state.obuf ≠ [] then
        some { state with tto := .getting }
      else some { state with tto := .behind }
  | .getting =>
      match state.obuf with
      | [] => none
      | c :: obuf => some { state with obuf := obuf, tto := .sending c }
  | .sending c => some { state with txFifo := state.txFifo ++ [c], tto := .sent }
  | .sent =>
      if state.override then some { state with override := false, tto := .behind }
      else some { state with tto := .loop }
  | .behind =>
      if ¬state.paged ∧ state.obuf ≠ [] then some { state with tto := .enabling }
      else some { state with tto := .idle }
  | .enabling => some { state with tto := .enable state.ier }
  | .enable reg => some { state with ier := { reg with txen := true }, tto := .idle }

/-- A step of the interrupt handler. -/
def handlerStep (state : State) : Option State :=
  match state.handler with
  | .idle => none
  | .entered =>
      if state.ier.rxen ∧ state.rxFifo ≠ [] then some { state with handler := .rx 0 }
      else if state.ier.txen ∧ state.txFifo = [] then some { state with handler := .tx }
      else some { state with handler := .leaving }
  | .rx byteCount =>
      match state.rxFifo with
      | [] => some { state with handler := .leaving }
      | key :: rxFifo =>
          if byteCount < MINIUART_FIFO_SIZE then
            some { state with
              rxFifo := rxFifo
              input := state.input ++ [key]
              handler := .rx (byteCount + 1) }
          else some { state with handler := .leaving }
  | .tx =>
      if state.ier.txen then some { state with handler := .disabling state.ier }
      else some { state with handler := .leaving }
  | .disabling ier => some { state with ier := { ier with txen := false }, handler := .flagging }
  | .flagging => some { state with eventTto := true, handler := .leaving }
  | .leaving => some { state with handler := .idle }

/-- Whose step it is. -/
inductive Act where
  /-- A client writes. -/
  | write (chars : List UInt8)
  /-- A character that controls the flow is put in front of the others. -/
  | inject (char : UInt8)
  /-- Output is suspended. -/
  | page
  /-- Output goes on. -/
  | unpage
  /-- `tto` is called. -/
  | call
  | tto
  | irq
  | handler
  /-- The UART sends a character. -/
  | send
  /-- The UART receives a character, for which it has room. -/
  | arrive (char : UInt8)
deriving DecidableEq, Repr

/-- The steps of all of them. -/
def act (state : State) : Act → Option State
  | .write chars =>
      some { state with
        obuf := state.obuf ++ chars.map .data
        written := state.written ++ chars
        called := true }
  | .inject char =>
      some { state with obuf := .control char :: state.obuf, override := true, called := true }
  | .page => some { state with paged := true }
  | .unpage => some { state with paged := false, called := true }
  | .call =>
      if state.tto = .idle ∧ (state.called ∨ state.eventTto) then
        some { state with called := false, eventTto := false, tto := .entered }
      else none
  | .tto => ttoStep state
  | .irq =>
      if state.handler = .idle ∧ (state.ier.rxen ∧ state.rxFifo ≠ [] ∨
          state.ier.txen ∧ state.txFifo = []) then
        some { state with handler := .entered }
      else none
  | .handler => handlerStep state
  | .send =>
      match state.txFifo with
      | [] => none
      | c :: txFifo => some { state with txFifo := txFifo, line := state.line ++ [c] }
  | .arrive char =>
      if state.rxFifo.length < MINIUART_FIFO_SIZE then
        some { state with
          rxFifo := state.rxFifo ++ [char]
          received := state.received ++ [char] }
      else none

/-! ## What they keep -/

/-- The characters of the clients. -/
def dataOf (items : List Item) : List UInt8 :=
  items.filterMap fun
    | .data char => some char
    | .control _ => none

/-- The character that `tto` has taken and not written. -/
def Tto.transit : Tto → List Item
  | .sending c => [c]
  | _ => []

/-- `tto` is about to write to the UART. -/
def Tto.writes : Tto → Bool
  | .getting => true
  | .sending _ => true
  | _ => false

/-- What holds in every state. -/
structure State.Keeps (state : State) : Prop where
  sent : dataOf (state.line ++ state.txFifo ++ state.tto.transit ++ state.obuf) = state.written
  input : state.input ++ state.rxFifo = state.received
  room : state.tto.writes = true → state.txFifo.length < MINIUART_FIFO_SIZE
  fifo : state.txFifo.length ≤ MINIUART_FIFO_SIZE
  getting : state.tto = .getting → state.obuf ≠ []
  goesOn : state.obuf ≠ [] → state.paged = false → state.tto ≠ .idle ∨ state.called = true ∨
    state.eventTto = true ∨ state.ier.txen = true ∨ state.handler = .flagging

variable {state after : State}

/-- The steps of the driver and those by which the UART sends. -/
def Act.own : Act → Bool
  | .call | .tto | .irq | .handler | .send => true
  | _ => false

/-- How far the handler is from its end, where it has yet to take a character from the FIFO or to
set `EVENT_TTO`. -/
def Handler.remaining (rxCount : Nat) : Handler → Nat
  | .idle => 12 * rxCount
  | .entered => 12 * (rxCount - 1) + 11
  | .rx 0 => 12 * (rxCount - 1) + 3
  | .rx (_ + 1) => 12 * rxCount + 2
  | .tx => 12 * rxCount + 10
  | .disabling _ => 12 * rxCount + 9
  | .flagging => 12 * rxCount + 8
  | .leaving => 12 * rxCount + 1

/-- Whether the transmit interrupt is still to come, and not what the handler has come for. -/
def State.interrupts (state : State) : Bool :=
  state.ier.txen && state.txFifo.isEmpty &&
    match state.handler with
    | .entered => !state.rxFifo.isEmpty
    | .tx | .disabling _ => false
    | _ => true

/-- How far `tto` is from its end, and from the transmit interrupt that it enables. -/
def Tto.remaining (enabled : Nat) (more : Bool) : Tto → Nat
  | .idle => 0
  | .entered => 5
  | .loop => 4
  | .getting => 0
  | .sending _ => 0
  | .sent => 16
  | .behind => if more then enabled + 3 else 1
  | .enabling => enabled + 2
  | .enable _ => enabled + 1

/-- An upper bound on the number of steps that the driver and the UART make by themselves. -/
def State.remaining (state : State) : Nat :=
  40 * (3 * state.obuf.length + 2 * state.tto.transit.length + state.txFifo.length) +
    (if state.called then 6 else 0) + (if state.eventTto then 6 else 0) +
    state.handler.remaining state.rxFifo.length +
    (if state.interrupts then 12 else 0) +
    state.tto.remaining (if state.txFifo = [] then 12 else 0) (!state.obuf.isEmpty)

end Bcm2711.Serial.MiniUart
