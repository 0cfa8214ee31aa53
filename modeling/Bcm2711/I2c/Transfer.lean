import Bcm2711.Lib.Actions
import Bcm2711.Lib.Bytes

/-! # I2C transfers

`bcm2711_send` and `bcm2711_recv` start a transfer of the length in the 16-bit DLEN register;
the interrupt thread reads the status register at each interrupt and decides what it means,
and `push_data` and `read_data` move bytes for as long as the status register lets them.
-/

namespace Bcm2711.I2c

/-! ## Registers -/

def STATREG_MASK : BitVec 32 := 0x000001FF

def STATREG_CLKT : BitVec 32 := 0x200

def STATREG_ERR : BitVec 32 := 0x100

def STATREG_RXD : BitVec 32 := 0x20

def STATREG_TXD : BitVec 32 := 0x10

def STATREG_RXR : BitVec 32 := 0x8

def STATREG_TXW : BitVec 32 := 0x4

def STATREG_DONE : BitVec 32 := 0x2

/-- Values of the DLEN register. -/
def dlenRange : Nat := 2 ^ 16

/-- Bytes the FIFO holds. -/
def fifoDepth : Nat := 16

/-- One of these bits is set. -/
def has (word bits : BitVec 32) : Bool := word &&& bits ≠ 0

/-! ## Transfers -/

/-- `i2c_status_t`. -/
inductive I2cStatus where
  | done
  | error
  | nack
  | abort
deriving DecidableEq, Repr

/-- `dev->txrx` during a transfer. -/
inductive Direction where
  | tx
  | rx
deriving DecidableEq, Repr

/-- Where the driver is: in `push_data`, before or after the start of the transfer; waiting
for an interrupt; in `read_data`, at its test or at its read of the status register, in a
handler that found the transfer done or not; or at the end. -/
inductive Phase where
  | pushing (started : Bool)
  | waiting
  | reading (last : Bool)
  | refreshing (last : Bool)
  | ended (status : I2cStatus)
deriving DecidableEq, Repr

/-- A transfer: the driver's fields, the controller's, and what was read and moved. -/
structure Transfer where
  dir : Direction
  phase : Phase
  status : BitVec 32
  totLen : Nat
  curLen : Nat
  buf : Bytes.Memory
  dlen : Nat
  /-- Bytes moved on the bus. -/
  moved : Nat
  fifo : List UInt8
  /-- Bytes written to the FIFO. -/
  written : List UInt8
  /-- Bytes read from the FIFO. -/
  taken : List UInt8
  /-- Status words read at interrupts. -/
  seen : List (BitVec 32)
  /-- Status words read in the loops of `push_data` and `read_data`. -/
  seenInLoops : List (BitVec 32)

/-- A transfer with its length in DLEN. -/
def Transfer.begin (dir : Direction) (phase : Phase) (buf : Bytes.Memory) (len : Nat) :
    Transfer :=
  { dir := dir, phase := phase, status := 0, totLen := len, curLen := 0, buf := buf
    dlen := len % dlenRange, moved := 0, fifo := [], written := [], taken := [], seen := []
    seenInLoops := [] }

/-- `dev->slave_addr` and whether its format has 7 bits. -/
structure SlaveAddr where
  addr : BitVec 32
  is7Bit : Bool
deriving DecidableEq, Repr

def INVALID_ADDR : BitVec 32 := 0x80

/-- `bcm2711_send`, up to its first read of the status register. -/
def bcm2711Send (slave : SlaveAddr) (buf : Bytes.Memory) (len : Nat) : I2cStatus ⊕ Transfer :=
  if len = 0 then .inl .done
  else if has slave.addr INVALID_ADDR then .inl .error
  else .inr (.begin .tx (.pushing false) buf len)

/-- `bcm2711_recv`, up to its wait. -/
def bcm2711Recv (slave : SlaveAddr) (buf : Bytes.Memory) (len : Nat) : I2cStatus ⊕ Transfer :=
  if len = 0 then .inl .done
  else if has slave.addr INVALID_ADDR then .inl .error
  else if !slave.is7Bit then .inl .error
  else .inr (.begin .rx .waiting buf len)

/-! ## The driver -/

namespace Transfer

def goto (transfer : Transfer) (phase : Phase) : Transfer := { transfer with phase := phase }

/-- The next byte of the buffer goes to the FIFO. -/
def push (transfer : Transfer) : Transfer :=
  { transfer with
    fifo := transfer.fifo ++ [transfer.buf transfer.curLen]
    written := transfer.written ++ [transfer.buf transfer.curLen]
    curLen := transfer.curLen + 1 }

/-- The next byte of the FIFO goes to the buffer; an empty FIFO gives none. -/
def take (transfer : Transfer) : Transfer :=
  match transfer.fifo with
  | [] => transfer
  | byte :: rest =>
      { transfer with
        buf := Function.update transfer.buf transfer.curLen byte
        curLen := transfer.curLen + 1
        fifo := rest
        taken := transfer.taken ++ [byte] }

/-- A turn of the loop of `push_data` that read this status word. -/
def pushTurn (transfer : Transfer) (raw : BitVec 32) : Transfer :=
  let read :=
    { transfer with
      status := raw &&& STATREG_MASK
      seenInLoops := transfer.seenInLoops ++ [raw] }
  if has read.status STATREG_TXD then read.push else read.goto .waiting

/-- What an interrupt with this masked status word leads to. -/
def dispatch (dir : Direction) (status : BitVec 32) : Phase :=
  if has status (STATREG_ERR ||| STATREG_CLKT) then .ended .nack
  else if has status STATREG_DONE then .reading true
  else if dir = .rx ∧ has status STATREG_RXR then
    if has status STATREG_RXD then .reading false else .waiting
  else if dir = .tx ∧ has status STATREG_TXW then
    if has status STATREG_TXD then .pushing true else .waiting
  else .waiting

/-- `bcm2711_wait_thread` at an interrupt that reads this status word. -/
def interrupt (transfer : Transfer) (raw : BitVec 32) : Transfer :=
  { transfer with
    status := raw &&& STATREG_MASK
    seen := transfer.seen ++ [raw]
    phase := dispatch transfer.dir (raw &&& STATREG_MASK) }

/-- Where `read_data` returns to. -/
def afterReading (last : Bool) : Phase := if last then .ended .done else .waiting

/-! ## The controller -/

/-- What a read of the status register can show: room and bytes as the FIFO has them, and
a transfer without an error done only when the bytes of DLEN have moved. -/
def shows (transfer : Transfer) (raw : BitVec 32) : Prop :=
  (has raw STATREG_TXD = true → transfer.fifo.length < fifoDepth) ∧
    (has raw STATREG_RXD = true ↔ transfer.fifo ≠ []) ∧
    (has raw STATREG_DONE = true → has raw STATREG_ERR = false → has raw STATREG_CLKT = false →
      transfer.moved = transfer.dlen)

instance showsDecidable (transfer : Transfer) (raw : BitVec 32) :
    Decidable (transfer.shows raw) :=
  inferInstanceAs (Decidable (_ ∧ _ ∧ _))

/-- The transfer has been started on the bus and has not ended. -/
def onBus (transfer : Transfer) : Bool :=
  match transfer.phase with
  | .pushing started => started
  | .ended _ => false
  | _ => true

/-- A byte moves on the bus. -/
def move (transfer : Transfer) (incoming : UInt8) : Option Transfer :=
  if transfer.onBus ∧ transfer.moved < transfer.dlen then
    match transfer.dir with
    | .tx =>
        match transfer.fifo with
        | [] => none
        | _ :: rest => some { transfer with fifo := rest, moved := transfer.moved + 1 }
    | .rx =>
        if transfer.fifo.length < fifoDepth then
          some { transfer with
            fifo := transfer.fifo ++ [incoming]
            moved := transfer.moved + 1 }
        else none
  else none

/-! ## Actions -/

/-- What can happen during a transfer. -/
inductive Action where
  /-- The driver reads this status word. -/
  | read (raw : BitVec 32)
  /-- The driver does what it can without reading a status word. -/
  | turn
  /-- The controller moves a byte, this one if it comes in. -/
  | move (incoming : UInt8)
  /-- The caller's wait times out. -/
  | timeout
deriving DecidableEq, Repr

/-- One action of a transfer. -/
def act (transfer : Transfer) : Action → Option Transfer
  | .read raw =>
      if transfer.shows raw then
        match transfer.phase with
        | .pushing _ =>
            if transfer.curLen < transfer.totLen then some (transfer.pushTurn raw) else none
        | .waiting => some (transfer.interrupt raw)
        | .refreshing last => some
            { transfer with
              status := raw &&& STATREG_MASK
              seenInLoops := transfer.seenInLoops ++ [raw]
              phase := .reading last }
        | _ => none
      else none
  | .turn =>
      match transfer.phase with
      | .pushing _ =>
          if transfer.curLen < transfer.totLen then none else some (transfer.goto .waiting)
      | .reading last =>
          if transfer.curLen < transfer.totLen ∧ has transfer.status STATREG_RXD then
            some (transfer.take.goto (.refreshing last))
          else some (transfer.goto (afterReading last))
      | _ => none
  | .move incoming => transfer.move incoming
  | .timeout => if transfer.onBus then some (transfer.goto (.ended .abort)) else none

/-- Every byte was moved between the buffer and the FIFO, once and in order. -/
def allMoved (transfer : Transfer) (buffer : Bytes.Memory) (len : Nat) : Prop :=
  match transfer.dir with
  | .tx => transfer.written = Bytes.firstBytes buffer len
  | .rx => transfer.taken = Bytes.firstBytes transfer.buf len

/-- No status word read had an error, and every byte was moved. -/
def truthful (transfer : Transfer) (buffer : Bytes.Memory) (len : Nat) : Prop :=
  (∀ raw ∈ transfer.seen ++ transfer.seenInLoops,
    has raw STATREG_ERR = false ∧ has raw STATREG_CLKT = false) ∧
    transfer.allMoved buffer len

end Transfer

end Bcm2711.I2c
