import Bcm2711.Spi.Transfer
import Bcm2711.Lib.Actions
import Bcm2711.Lib.Bytes

/-! # An exchange moved by interrupts

`bcm2711spi_xfer` puts up to 16 bytes into the TX FIFO and waits; at each completion event
`process_interrupts` refills it and stores what arrived, in place, at the start of the same
buffer.  Between any two accesses of the driver the controller may shift: the oldest byte of
the TX FIFO goes out and one byte comes into the RX FIFO.
-/

namespace Bcm2711.Spi

open Bytes (firstBytes)

/-! ## The controller -/

/-- Bytes either FIFO holds. -/
def fifoDepth : Nat := 64

/-- The FIFOs of the controller, with the bytes exchanged on the bus so far, each with the
one that came back, and those taken out of the RX FIFO. -/
structure Fifos where
  tx : List UInt8
  rx : List UInt8
  clocked : List (UInt8 × UInt8)
  taken : List UInt8
  arrived : clocked.map Prod.snd = taken ++ rx
  txFits : tx.length ≤ fifoDepth
  rxFits : rx.length ≤ fifoDepth

namespace Fifos

/-- The FIFOs after both were cleared. -/
def cleared : Fifos := ⟨[], [], [], [], rfl, Nat.zero_le _, Nat.zero_le _⟩

/-- All bytes written to the TX FIFO so far. -/
def written (fifos : Fifos) : List UInt8 := fifos.clocked.map Prod.fst ++ fifos.tx

/-- A write to the FIFO register; a full FIFO drops the byte. -/
def write (fifos : Fifos) (byte : UInt8) : Fifos :=
  if room : fifos.tx.length < fifoDepth then
    { fifos with
      tx := fifos.tx ++ [byte]
      txFits := by
        rw [List.length_append]
        exact room }
  else fifos

/-- A read of the FIFO register, when there is a byte. -/
def read (fifos : Fifos) : Option (UInt8 × Fifos) :=
  match rx : fifos.rx with
  | [] => none
  | byte :: rest => some (byte,
      { fifos with
        rx := rest
        taken := fifos.taken ++ [byte]
        arrived := by rw [fifos.arrived, rx, List.append_assoc, List.singleton_append]
        rxFits := by
          have fits := fifos.rxFits
          rw [rx, List.length_cons] at fits
          exact Nat.le_of_succ_le fits })

/-- One byte is exchanged on the bus; a full RX FIFO stops the clock. -/
def shift (fifos : Fifos) (incoming : UInt8) : Option Fifos :=
  match fifos.tx, fifos.txFits with
  | [], _ => none
  | byte :: rest, fits =>
      if room : fifos.rx.length < fifoDepth then
        some
          { fifos with
            tx := rest
            rx := fifos.rx ++ [incoming]
            clocked := fifos.clocked ++ [(byte, incoming)]
            arrived := by
              rw [List.map_append, fifos.arrived, List.append_assoc]
              rfl
            txFits := Nat.le_of_succ_le fits
            rxFits := by
              rw [List.length_append]
              exact room }
      else none

end Fifos

/-! ## The driver -/

def BCM2711_SPI_FIFOLEN : Nat := 16

/-- Where the driver is: in the prefill loop, in `sem_timedwait_monotonic`, in one of the
two loops of `process_interrupts` or about to clear TA, or back at its caller. -/
inductive Phase where
  | prefill
  | waiting
  | pushing
  | reading
  | finishing
  | returned (status : Status)
deriving DecidableEq, Repr

/-- A transfer under way. -/
structure Exchange where
  phase : Phase
  tcnt : Nat
  rcnt : Nat
  buf : Nat → UInt8
  fifos : Fifos

/-- The transfer when TA has been set. -/
def Exchange.start (buffer : Nat → UInt8) : Exchange := ⟨.prefill, 0, 0, buffer, .cleared⟩

/-- The byte at `pbuf + tcnt` goes to the FIFO. -/
def Exchange.send (exchange : Exchange) : Exchange :=
  { exchange with
    fifos := exchange.fifos.write (exchange.buf exchange.tcnt)
    tcnt := exchange.tcnt + 1 }

/-- A byte from the FIFO goes to `pbuf + rcnt`. -/
def Exchange.store (exchange : Exchange) (byte : UInt8) (fifos : Fifos) : Exchange :=
  { exchange with
    buf := Function.update exchange.buf exchange.rcnt byte
    rcnt := exchange.rcnt + 1
    fifos := fifos }

/-- Go on in another place of the driver. -/
def Exchange.goto (exchange : Exchange) (phase : Phase) : Exchange :=
  { exchange with phase := phase }

/-- One turn of the driver: a loop iteration with its test, a completion event taken, or
the end. -/
def driverStep (lengths : Lengths) (exchange : Exchange) : Exchange :=
  match exchange.phase with
  | .prefill =>
      if exchange.tcnt < lengths.tnbytes ∧ exchange.tcnt < BCM2711_SPI_FIFOLEN then exchange.send
      else exchange.goto .waiting
  | .waiting =>
      -- SPI_CS_DONE: the TX FIFO is empty
      if exchange.fifos.tx = [] then exchange.goto .pushing else exchange
  | .pushing =>
      -- SPI_CS_TXD: the TX FIFO has room
      if exchange.tcnt < lengths.tnbytes ∧ exchange.fifos.tx.length < fifoDepth then exchange.send
      else exchange.goto .reading
  | .reading =>
      match exchange.fifos.read with
      | some (byte, fifos) =>
          if exchange.rcnt < lengths.rnbytes then exchange.store byte fifos
          else exchange.goto .finishing
      | none =>
          if exchange.rcnt < lengths.rnbytes then exchange.goto .waiting
          else exchange.goto .finishing
  | .finishing => exchange.goto (.returned .EOK)
  | .returned _ => exchange

/-- What can happen during a transfer. -/
inductive Action where
  | driver
  | shift (incoming : UInt8)
  | timeout
deriving DecidableEq, Repr

/-- The transfer has not returned: TA is still set. -/
def Phase.active : Phase → Bool
  | .returned _ => false
  | _ => true

/-- One action of a transfer that has not returned. -/
def Exchange.act (lengths : Lengths) (exchange : Exchange) : Action → Option Exchange
  | .driver => if exchange.phase.active then some (driverStep lengths exchange) else none
  | .shift incoming =>
      if exchange.phase.active then
        (exchange.fifos.shift incoming).map fun fifos => { exchange with fifos := fifos }
      else none
  | .timeout =>
      if exchange.phase = .waiting then some (exchange.goto (.returned .ETIMEDOUT)) else none

/-- The states a transfer of these lengths can reach. -/
def Reaches (lengths : Lengths) : Exchange → Exchange → Prop :=
  Actions.Reaches (Exchange.act lengths) Actions.always

/-- The exchange was complete: the transmit bytes were written in order, the receive bytes
stored in order, and the full length clocked. -/
structure Complete (lengths : Lengths) (buffer : Nat → UInt8) (exchange : Exchange) : Prop where
  written : exchange.fifos.written = firstBytes buffer lengths.tnbytes
  stored : firstBytes exchange.buf lengths.rnbytes =
    (exchange.fifos.clocked.map Prod.snd).take lengths.rnbytes
  clocked : exchange.fifos.clocked.length = lengths.xlen

end Bcm2711.Spi
