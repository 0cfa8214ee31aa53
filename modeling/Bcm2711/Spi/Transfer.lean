import Bcm2711.Spi.Config
import Bcm2711.Lib.Run

/-! # Starting transfers on an SPI bus

`bcm2711spi_xfer` moves the bytes of a transfer itself; `bcm2711spi_dmaxfer` hands 32-bit
words to two DMA channels and falls back to the former for 8-bit words.  Both write the
CS register once to start the exchange and then wait for it.
-/

namespace Bcm2711.Spi

/-! ## Transfers -/

/-- The byte counts a transfer runs with, `spi->tnbytes` and `spi->rnbytes`. -/
structure Lengths where
  tnbytes : Nat
  rnbytes : Nat
deriving DecidableEq, Repr

/-- The full length of the transaction, `spi->xlen`. -/
def Lengths.xlen (lengths : Lengths) : Nat := max lengths.tnbytes lengths.rnbytes

/-- The transaction type: read only, write only or bidirectional. -/
def effective (tnbytes rnbytes : Nat) : Lengths :=
  if tnbytes = 0 then ⟨rnbytes, rnbytes⟩
  else if rnbytes = 0 then ⟨tnbytes, tnbytes⟩
  else ⟨tnbytes, rnbytes⟩

/-- The estimate `spi->dtime`, computed in 32 bits and at least 1. -/
def transferTime (xlen : Nat) (clockRate : UInt32) : Except Fault Nat :=
  if clockRate = 0 then .error .divideByZero
  else .ok (max 1 (xlen * 1000 * 1000 % 2 ^ 32 / clockRate.toNat))

/-- Who moves the bytes of a transfer. -/
inductive Path where
  | pio
  | dma
deriving DecidableEq, Repr

/-- A started exchange: the value written to CS, the CLK register and the word width it
runs with, and what `bcm2711spi_wait` is told. -/
structure Start where
  path : Path
  cs : BitVec 32
  clk : UInt32
  dwidth : BitVec 32
  lengths : Lengths
  dtime : Nat
deriving DecidableEq, Repr

/-- A device after a transfer, the status returned and the exchange if one was started. -/
structure Transferred where
  dev : SpiDev
  status : Status
  start : Option Start
deriving DecidableEq, Repr

/-- The bits that start a transfer moved by interrupts. -/
def pioStartBits : BitVec 32 := csBit SPI_CS_TA ||| csBit SPI_CS_INTD ||| csBit SPI_CS_INTR

/-- The bits that start a transfer moved by DMA. -/
def dmaStartBits : BitVec 32 := csBit SPI_CS_DMAEN ||| csBit SPI_CS_TA ||| csBit SPI_CS_ADCS

/-- `bcm2711spi_xfer`, with the status `bcm2711spi_wait` will return. -/
def bcm2711spiXfer (clk : UInt32) (dev : SpiDev) (tnbytes rnbytes : Nat) (waited : Status) :
    Except Fault Transferred :=
  let lengths := effective tnbytes rnbytes
  match transferTime lengths.xlen dev.cfg.clockRate with
  | .error fault => .error fault
  | .ok dtime =>
      .ok ⟨dev, waited, some ⟨.pio, pioStartBits ||| dev.devctrl, clk, 1, lengths, dtime⟩⟩

/-- What the DMA library answers in one transfer, and the status of the wait. -/
structure DmaAnswers where
  setupDma : Status
  startRx : Status
  startTx : Status
  waited : Status
deriving DecidableEq, Repr

/-- Both channels were set up and started. -/
def DmaAnswers.started (answers : DmaAnswers) : Bool :=
  answers.setupDma = .EOK && answers.startRx = .EOK && answers.startTx = .EOK

/-- `bcm2711spi_dmaxfer`. -/
def bcm2711spiDmaxfer (io : ModeBits) (clk : UInt32) (dev : SpiDev) (tnbytes rnbytes : Nat)
    (answers : DmaAnswers) : Except Fault Transferred :=
  let dwidth := widthBytes io dev.cfg.mode
  if dwidth = 1 then bcm2711spiXfer clk dev tnbytes rnbytes answers.waited
  else
    let lengths := effective tnbytes rnbytes
    if dwidth ≠ 4 ∨ lengths.xlen % dwidth.toNat ≠ 0 then .ok ⟨dev, .EINVAL, none⟩
    else
      match transferTime lengths.xlen dev.cfg.clockRate with
      | .error fault => .error fault
      | .ok dtime =>
          if answers.setupDma ≠ .EOK then .ok ⟨dev, answers.setupDma, none⟩
          else if answers.startRx ≠ .EOK then .ok ⟨dev, answers.startRx, none⟩
          else if answers.startTx ≠ .EOK then .ok ⟨dev, answers.startTx, none⟩
          else
            let devctrl := dev.devctrl ||| dmaStartBits
            .ok ⟨{ dev with devctrl := devctrl }, answers.waited,
              some ⟨.dma, devctrl, clk, dwidth, lengths, dtime⟩⟩

/-! ## The bus -/

/-- A controller with the devices on it. -/
structure Bus (ι : Type) where
  inputClk : UInt64
  clk : UInt32
  devs : ι → SpiDev

/-- A call into the driver; the answers are those of the code it calls. -/
inductive Call (ι : Type) where
  | setcfg (dev : ι) (cfg : SpiCfg)
  | xfer (dev : ι) (tnbytes rnbytes : Nat) (waited : Status)
  | dmaxfer (dev : ι) (tnbytes rnbytes : Nat) (answers : DmaAnswers)
deriving DecidableEq, Repr

/-- The device a call is for. -/
def Call.dev {ι : Type} : Call ι → ι
  | .setcfg dev _ => dev
  | .xfer dev _ _ _ => dev
  | .dmaxfer dev _ _ _ => dev

/-- Whether a call is a transfer. -/
def Call.transfers {ι : Type} : Call ι → Bool
  | .setcfg _ _ => false
  | .xfer _ _ _ _ => true
  | .dmaxfer _ _ _ _ => true

/-- What a call returned, and the exchange it started. -/
structure Returned where
  status : Status
  start : Option Start
deriving DecidableEq, Repr

variable {ι : Type} [DecidableEq ι]

/-- One call into the driver. -/
def step (io : ModeBits) (bus : Bus ι) : Call ι → Except Fault (Bus ι × Returned)
  | .setcfg dev cfg =>
      match bcm2711spiSetcfg io bus.inputClk bus.clk (bus.devs dev) cfg with
      | .error fault => .error fault
      | .ok done =>
          .ok (⟨bus.inputClk, done.clk, Function.update bus.devs dev done.dev⟩,
            ⟨done.status, none⟩)
  | .xfer dev tnbytes rnbytes waited =>
      match bcm2711spiXfer bus.clk (bus.devs dev) tnbytes rnbytes waited with
      | .error fault => .error fault
      | .ok done =>
          .ok ({ bus with devs := Function.update bus.devs dev done.dev },
            ⟨done.status, done.start⟩)
  | .dmaxfer dev tnbytes rnbytes answers =>
      match bcm2711spiDmaxfer io bus.clk (bus.devs dev) tnbytes rnbytes answers with
      | .error fault => .error fault
      | .ok done =>
          .ok ({ bus with devs := Function.update bus.devs dev done.dev },
            ⟨done.status, done.start⟩)

/-- The loop of `init_device` over the bus's device list. -/
def initDevices (io : ModeBits) (bus : Bus ι) : List ι → Except Fault (Bus ι × Status)
  | [] => .ok (bus, .EOK)
  | dev :: devlist =>
      match bcm2711Cfg io bus.inputClk bus.clk (bus.devs dev) with
      | .error fault => .error fault
      | .ok done =>
          let bus := ⟨bus.inputClk, done.clk, Function.update bus.devs dev done.dev⟩
          if done.status ≠ .EOK then .ok (bus, done.status) else initDevices io bus devlist

/-! ## What a transfer does -/

/-- A transfer moved by interrupts always starts, and leaves the device as it was. -/
theorem bcm2711spiXfer_ok {clk : UInt32} {dev : SpiDev} {tnbytes rnbytes : Nat}
    {waited : Status} {done : Transferred}
    (returned : bcm2711spiXfer clk dev tnbytes rnbytes waited = .ok done) :
    ∃ dtime, done = ⟨dev, waited, some ⟨.pio, pioStartBits ||| dev.devctrl, clk, 1,
      effective tnbytes rnbytes, dtime⟩⟩ := by
  unfold bcm2711spiXfer at returned
  simp only at returned
  split at returned
  · cases returned
  · next dtime _ =>
      cases returned
      exact ⟨dtime, rfl⟩

/-- When a DMA transfer of a device with this mode word gets as far as being started. -/
def dmaStarts (io : ModeBits) (mode : BitVec 32) (tnbytes rnbytes : Nat)
    (answers : DmaAnswers) : Bool :=
  widthBytes io mode = 4 && (effective tnbytes rnbytes).xlen % 4 = 0 && answers.started

/-- The three ends of `bcm2711spi_dmaxfer`: the fallback, a start and an early return. -/
theorem bcm2711spiDmaxfer_ok {io : ModeBits} {clk : UInt32} {dev : SpiDev}
    {tnbytes rnbytes : Nat} {answers : DmaAnswers} {done : Transferred}
    (returned : bcm2711spiDmaxfer io clk dev tnbytes rnbytes answers = .ok done) :
    (widthBytes io dev.cfg.mode = 1 ∧
        bcm2711spiXfer clk dev tnbytes rnbytes answers.waited = .ok done) ∨
      (dmaStarts io dev.cfg.mode tnbytes rnbytes answers = true ∧ ∃ dtime,
        done = ⟨{ dev with devctrl := dev.devctrl ||| dmaStartBits }, answers.waited,
          some ⟨.dma, dev.devctrl ||| dmaStartBits, clk, widthBytes io dev.cfg.mode,
            effective tnbytes rnbytes, dtime⟩⟩) ∨
      (widthBytes io dev.cfg.mode ≠ 1 ∧
        dmaStarts io dev.cfg.mode tnbytes rnbytes answers = false ∧
        done.dev = dev ∧ done.start = none) := by
  unfold bcm2711spiDmaxfer at returned
  simp only at returned
  split at returned
  · next byteWide => exact .inl ⟨byteWide, returned⟩
  · next wider =>
      refine .inr ?_
      split at returned
      · next unaligned =>
          cases returned
          refine .inr ⟨wider, ?_, rfl, rfl⟩
          unfold dmaStarts
          by_cases four : widthBytes io dev.cfg.mode = 4
          · have odd := unaligned.resolve_left (not_not.mpr four)
            rw [four] at odd
            simpa [four] using fun aligned => absurd aligned odd
          · rw [decide_eq_false four, Bool.false_and, Bool.false_and]
      · next aligned =>
          rw [not_or, not_not, not_not] at aligned
          have words : (effective tnbytes rnbytes).xlen % 4 = 0 := by
            simpa [aligned.1] using aligned.2
          split at returned
          · cases returned
          · next dtime _ =>
              split at returned
              · next failed =>
                  cases returned
                  exact .inr ⟨wider, by simp [dmaStarts, DmaAnswers.started, failed], rfl, rfl⟩
              · next isSetUp =>
                  split at returned
                  · next failed =>
                      cases returned
                      exact .inr ⟨wider, by simp [dmaStarts, DmaAnswers.started, failed], rfl, rfl⟩
                  · next rxStarted =>
                      split at returned
                      · next failed =>
                          cases returned
                          exact .inr ⟨wider, by simp [dmaStarts, DmaAnswers.started, failed],
                            rfl, rfl⟩
                      · next txStarted =>
                          cases returned
                          refine .inl ⟨?_, dtime, rfl⟩
                          rw [not_not] at isSetUp rxStarted txStarted
                          simp [dmaStarts, DmaAnswers.started, aligned.1, words, isSetUp,
                            rxStarted, txStarted]

end Bcm2711.Spi
