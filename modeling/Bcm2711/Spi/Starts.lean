import Bcm2711.Spi.Ledger

/-! # What started transfers run with

Two questions about the exchanges of a bus, each settled by the ledger of the calls before
it: whether the value written to CS mixes the bits of the two ways to move the bytes, and
whether the exchange runs with the last configuration accepted for its own device.
-/

namespace Bcm2711.Spi

variable {ι : Type} [DecidableEq ι] {io : ModeBits} {reset bus : Bus ι} {ledger : Ledger ι}

/-! ## The two ways to move the bytes -/

/-- The value written to CS has no bit of the other way to move the bytes. -/
def Start.separate (start : Start) : Prop :=
  match start.path with
  | .pio => start.cs &&& (csBit SPI_CS_DMAEN ||| csBit SPI_CS_ADCS) = 0
  | .dma => start.cs &&& (csBit SPI_CS_INTD ||| csBit SPI_CS_INTR) = 0

/-- Whether a call moves its bytes by interrupts: directly, or by the fallback for 8-bit
words. -/
def movesByInterrupts (io : ModeBits) (ledger : Ledger ι) : Call ι → Bool
  | .setcfg _ _ => false
  | .xfer _ _ _ _ => true
  | .dmaxfer dev _ _ _ => widthBytes io (ledger.standing dev).asked = 1

/-- Whether the device of a call had a DMA transfer started since its last accepted
configuration. -/
def usedDma (ledger : Ledger ι) (call : Call ι) : Bool := (ledger.standing call.dev).dmaSince

/-- What an exchange is started with: the clock of the bus, and the value written to CS and
the word width of the way its bytes are moved. -/
theorem step_started (follows : Follows io reset ledger bus) {call : Call ι} {after : Bus ι}
    {returned : Returned} {start : Start} (stepped : step io bus call = .ok (after, returned))
    (started : returned.start = some start) :
    call.transfers = true ∧ start.clk = bus.clk ∧
      ((movesByInterrupts io ledger call = true ∧ start.path = .pio ∧ start.dwidth = 1 ∧
          start.cs = pioStartBits ||| (bus.devs call.dev).devctrl) ∨
        (movesByInterrupts io ledger call = false ∧ start.path = .dma ∧
          start.dwidth = widthBytes io (ledger.standing call.dev).asked ∧
          start.cs = (bus.devs call.dev).devctrl ||| dmaStartBits)) := by
  cases call with
  | setcfg dev cfg =>
      simp only [step] at stepped
      split at stepped
      · cases stepped
      · cases stepped
        cases started
  | xfer dev tnbytes rnbytes waited =>
      simp only [step] at stepped
      split at stepped
      · cases stepped
      · next done transferred =>
          cases stepped
          obtain ⟨dtime, rfl⟩ := bcm2711spiXfer_ok transferred
          cases started
          exact ⟨rfl, rfl, .inl ⟨rfl, rfl, rfl, rfl⟩⟩
  | dmaxfer dev tnbytes rnbytes answers =>
      have asked := (follows.devs dev).asked
      simp only [step] at stepped
      split at stepped
      · cases stepped
      · next done transferred =>
          cases stepped
          rcases bcm2711spiDmaxfer_ok transferred with ⟨byteWide, fallback⟩ | ⟨starts, dtime, rfl⟩ |
            ⟨_, _, _, none⟩
          · obtain ⟨dtime, rfl⟩ := bcm2711spiXfer_ok fallback
            cases started
            rw [asked] at byteWide
            exact ⟨rfl, rfl, .inl ⟨decide_eq_true byteWide, rfl, rfl, rfl⟩⟩
          · cases started
            have four : widthBytes io (ledger.standing dev).asked = 4 := by
              rw [asked] at starts
              simp only [dmaStarts, Bool.and_eq_true, decide_eq_true_eq] at starts
              exact starts.1.1
            have words : movesByInterrupts io ledger (.dmaxfer dev tnbytes rnbytes answers) =
                false := by
              simp only [movesByInterrupts, four]
              rfl
            exact ⟨rfl, rfl, .inr ⟨words, rfl, congrArg (widthBytes io) asked, rfl⟩⟩
          · rw [none] at started
            cases started

/-- A control word has none of the bits that choose how the bytes are moved. -/
theorem ctrlOf_startBits {mode devno : BitVec 32} (accepted : accepts io mode devno = true) :
    ctrlOf io mode devno &&& (csBit SPI_CS_DMAEN ||| csBit SPI_CS_ADCS) = 0#32 ∧
      ctrlOf io mode devno &&& (csBit SPI_CS_INTD ||| csBit SPI_CS_INTR) = 0#32 :=
  ⟨ctrlOf_and accepted (by decide), ctrlOf_and accepted (by decide)⟩

/-- **The two ways stay apart** exactly when no exchange is moved by interrupts for a
device that had a DMA transfer started since its last accepted configuration. -/
theorem start_separate_iff {before after : List (Runs.Event (Call ι) Returned)}
    {event : Runs.Event (Call ι) Returned} {start : Start}
    (run : Runs.Run (step io) (configuredFirst io reset) reset (before ++ event :: after) bus)
    (started : event.returned.start = some start) :
    start.separate ↔ ¬ (movesByInterrupts io (ledgerAfter io reset before) event.call = true ∧
      usedDma (ledgerAfter io reset before) event.call = true) := by
  obtain ⟨pre, post, ran, isAllowed, stepped⟩ := run.split
  have follows := follows_run ran
  obtain ⟨transfers, _, moved⟩ := step_started follows stepped started
  obtain ⟨mode, known⟩ := Option.ne_none_iff_exists'.mp (isAllowed transfers)
  have agrees := follows.devs event.call.dev
  obtain ⟨noDma, noInterrupts⟩ := ctrlOf_startBits (agrees.accepts mode known)
  have devctrl := agrees.devctrl mode known
  rcases moved with ⟨moves, path, _, cs⟩ | ⟨moves, path, _, cs⟩
  · simp only [Start.separate, path, cs, devctrl, BitVec.and_or_distrib_right, noDma, moves,
      true_and, usedDma]
    cases ((ledgerAfter io reset before).standing event.call.dev).dmaSince with
    | false =>
        refine iff_of_true ?_ Bool.false_ne_true
        decide
    | true =>
        refine iff_of_false ?_ (not_not.mpr rfl)
        decide
  · simp only [Start.separate, path, cs, devctrl, BitVec.and_or_distrib_right, noInterrupts,
      moves, Bool.false_eq_true, false_and, not_false_eq_true, iff_true]
    cases ((ledgerAfter io reset before).standing event.call.dev).dmaSince <;> decide

/-! ### A small transfer after one moved by DMA -/

/-- The mode word with its width in the low byte. -/
def plainModes : ModeBits where
  wordWidthMask := 0xFF
  wordWidth8 := 8
  wordWidth32 := 32
  csPolHigh := 0x1000
  cPol1 := 0x400
  cPha1 := 0x200

/-- Two devices on a 500 MHz bus, not yet configured. -/
def twoDevices : Bus (Fin 2) where
  inputClk := 500000000
  clk := 0
  devs dev := ⟨BitVec.ofNat 32 dev.val, ⟨32, 1000000⟩, 0, 0⟩

/-- The history of these calls on the two devices. -/
def twoDevicesHistory (calls : List (Call (Fin 2))) :
    Option (List (Runs.Event (Call (Fin 2)) Returned)) :=
  (Runs.Run.execute (step plainModes) (configuredFirst plainModes twoDevices) [] twoDevices
    calls).map Prod.fst

/-- The calls of a history were a run. -/
theorem run_of_twoDevicesHistory {calls : List (Call (Fin 2))}
    {history : List (Runs.Event (Call (Fin 2)) Returned)}
    (made : twoDevicesHistory calls = some history) :
    ∃ last, Runs.Run (step plainModes) (configuredFirst plainModes twoDevices) twoDevices history
      last := by
  obtain ⟨⟨final, last⟩, executed, rfl⟩ := Option.map_eq_some_iff.mp made
  exact ⟨last, Runs.Run.of_execute .start executed⟩

/-- Device 0 is configured for 32-bit words at 1 MHz. -/
def configuredForWords : List (Runs.Event (Call (Fin 2)) Returned) :=
  [⟨.setcfg 0 ⟨32, 1000000⟩, ⟨.EOK, none⟩⟩]

def wordStart : Start := ⟨.dma, 0x980, 500, 4, ⟨4, 4⟩, 4⟩

/-- A word goes out by DMA. -/
def wordSent : Runs.Event (Call (Fin 2)) Returned :=
  ⟨.dmaxfer 0 4 4 ⟨.EOK, .EOK, .EOK, .EOK⟩, ⟨.EOK, some wordStart⟩⟩

def byteStart : Start := ⟨.pio, 0xF80, 500, 1, ⟨1, 1⟩, 1⟩

/-- A byte goes out by interrupts. -/
def byteSent : Runs.Event (Call (Fin 2)) Returned :=
  ⟨.xfer 0 1 1 .EOK, ⟨.EOK, some byteStart⟩⟩

set_option maxRecDepth 8000 in
theorem word_then_byte : twoDevicesHistory [.setcfg 0 ⟨32, 1000000⟩, wordSent.call,
    byteSent.call] = some (configuredForWords ++ [wordSent, byteSent]) := by
  decide

/-- The word goes out without the bits of the other way. -/
theorem start_separate_iff_word : wordStart.separate := by
  obtain ⟨last, run⟩ := run_of_twoDevicesHistory word_then_byte
  refine (@start_separate_iff _ _ _ _ _ configuredForWords [byteSent] wordSent _ run rfl).mpr ?_
  decide

/-- The byte after it is started with DMA enabled. -/
theorem byte_after_word_mixed :
    ∃ before event start last,
      Runs.Run (step plainModes) (configuredFirst plainModes twoDevices) twoDevices
        (before ++ [event]) last ∧
      event.returned.start = some start ∧ start.path = .pio ∧
      start.cs &&& (csBit SPI_CS_DMAEN ||| csBit SPI_CS_ADCS) ≠ 0 := by
  obtain ⟨last, run⟩ := run_of_twoDevicesHistory word_then_byte
  exact ⟨configuredForWords ++ [wordSent], byteSent, byteStart, last, run, rfl, rfl, by decide⟩

/-! ## The configuration of the device -/

/-- The word width of an exchange is the one of a mode word; only a direct call to move the
bytes by interrupts has 8-bit words whatever the configuration. -/
def Start.widthOf (io : ModeBits) (call : Call ι) (start : Start) (mode : BitVec 32) : Prop :=
  match call with
  | .xfer _ _ _ _ => start.dwidth = 1
  | _ => start.dwidth = widthBytes io mode

/-- An exchange runs with the last configuration accepted for its device: with the divider
of its rate, its polarities and chip select, and its word width. -/
def Start.ownConfig (io : ModeBits) (reset : Bus ι) (ledger : Ledger ι) (call : Call ι)
    (start : Start) : Prop :=
  ∃ mode, (ledger.standing call.dev).accepted = some mode ∧
    start.clk = cdivOf reset.inputClk (ledger.standing call.dev).rate ∧
    start.cs &&& configMask = ctrlOf io mode (reset.devs call.dev).devno ∧
    start.widthOf io call mode

/-- The clock was last programmed for a rate with the divider of this device's rate. -/
def clockKept (reset : Bus ι) (ledger : Ledger ι) (dev : ι) : Prop :=
  match ledger.clockOwner with
  | none => reset.clk = cdivOf reset.inputClk (ledger.standing dev).rate
  | some owner => cdivOf reset.inputClk (ledger.standing owner).rate =
      cdivOf reset.inputClk (ledger.standing dev).rate

/-- The mode word a device was last given has the width of the one last accepted, where the
call looks at it. -/
def widthKept (io : ModeBits) (ledger : Ledger ι) : Call ι → Prop
  | .dmaxfer dev _ _ _ => ∀ mode, (ledger.standing dev).accepted = some mode →
      widthBytes io (ledger.standing dev).asked = widthBytes io mode
  | _ => True

omit [DecidableEq ι] in
/-- The divider in the CLK register is the device's own exactly when the clock is kept. -/
theorem clk_eq_iff {dev : ι} :
    ledger.clk reset = cdivOf reset.inputClk (ledger.standing dev).rate ↔
      clockKept reset ledger dev := by
  unfold Ledger.clk clockKept
  cases ledger.clockOwner <;> exact Iff.rfl

/-- The bits that start a transfer leave the configuration's alone. -/
theorem cs_and_configMask {cs devctrl mode devno : BitVec 32} {dmaSince : Bool}
    (accepted : accepts io mode devno = true)
    (isCtrl : devctrl = ctrlOf io mode devno ||| if dmaSince then dmaStartBits else 0)
    (written : cs = pioStartBits ||| devctrl ∨ cs = devctrl ||| dmaStartBits) :
    cs &&& configMask = ctrlOf io mode devno := by
  have pioOutside : pioStartBits &&& configMask = 0#32 := by decide
  have dmaOutside : dmaStartBits &&& configMask = 0#32 := by decide
  have since : (if dmaSince then dmaStartBits else 0) &&& configMask = 0#32 := by
    cases dmaSince with
    | false => exact BitVec.zero_and
    | true => exact dmaOutside
  have own : devctrl &&& configMask = ctrlOf io mode devno := by
    rw [isCtrl, BitVec.and_or_distrib_right, since, BitVec.or_zero,
      ctrlOf_and_configMask accepted]
  rcases written with rfl | rfl
  · rw [BitVec.and_or_distrib_right, pioOutside, own, BitVec.zero_or]
  · rw [BitVec.and_or_distrib_right, dmaOutside, own, BitVec.or_zero]

omit [DecidableEq ι] in
/-- The word width is the accepted one exactly when the width is kept. -/
theorem widthOf_iff {call : Call ι} {start : Start} {mode : BitVec 32}
    (known : (ledger.standing call.dev).accepted = some mode) (transfers : call.transfers = true)
    (byteWide : movesByInterrupts io ledger call = true → start.dwidth = 1)
    (wordWide : movesByInterrupts io ledger call = false →
      start.dwidth = widthBytes io (ledger.standing call.dev).asked) :
    start.widthOf io call mode ↔ widthKept io ledger call := by
  cases call with
  | setcfg dev cfg => cases transfers
  | xfer dev tnbytes rnbytes waited => exact iff_of_true (byteWide rfl) trivial
  | dmaxfer dev tnbytes rnbytes answers =>
      have width : start.dwidth = widthBytes io (ledger.standing dev).asked := by
        by_cases one : widthBytes io (ledger.standing dev).asked = 1
        · rw [byteWide (decide_eq_true one), one]
        · exact wordWide (decide_eq_false one)
      simp only [Start.widthOf, widthKept, width]
      constructor
      · intro same other isAccepted
        cases known.symm.trans isAccepted
        exact same
      · intro kept
        exact kept mode known

/-- **An exchange runs with its own configuration** exactly when the clock was last
programmed for a rate with the same divider, and the device was not given another word width
in a configuration that was not accepted. -/
theorem start_ownConfig_iff {before after : List (Runs.Event (Call ι) Returned)}
    {event : Runs.Event (Call ι) Returned} {start : Start}
    (run : Runs.Run (step io) (configuredFirst io reset) reset (before ++ event :: after) bus)
    (started : event.returned.start = some start) :
    start.ownConfig io reset (ledgerAfter io reset before) event.call ↔
      clockKept reset (ledgerAfter io reset before) event.call.dev ∧
        widthKept io (ledgerAfter io reset before) event.call := by
  obtain ⟨pre, post, ran, isAllowed, stepped⟩ := run.split
  have follows := follows_run ran
  obtain ⟨transfers, clk, moved⟩ := step_started follows stepped started
  obtain ⟨mode, known⟩ := Option.ne_none_iff_exists'.mp (isAllowed transfers)
  have agrees := follows.devs event.call.dev
  have ctrl : start.cs &&& configMask = ctrlOf io mode (reset.devs event.call.dev).devno := by
    refine cs_and_configMask (agrees.accepts mode known) (agrees.devctrl mode known) ?_
    rcases moved with ⟨_, _, _, cs⟩ | ⟨_, _, _, cs⟩
    · exact .inl cs
    · exact .inr cs
  have width : start.widthOf io event.call mode ↔
      widthKept io (ledgerAfter io reset before) event.call := by
    refine widthOf_iff known transfers ?_ ?_
    · intro moves
      rcases moved with ⟨_, _, dwidth, _⟩ | ⟨still, _⟩
      · exact dwidth
      · cases moves.symm.trans still
    · intro still
      rcases moved with ⟨moves, _⟩ | ⟨_, _, dwidth, _⟩
      · cases moves.symm.trans still
      · exact dwidth
  rw [← width, ← clk_eq_iff, ← follows.clk, ← clk]
  constructor
  · rintro ⟨other, isAccepted, own, _, kept⟩
    cases known.symm.trans isAccepted
    exact ⟨own, kept⟩
  · intro ⟨own, kept⟩
    exact ⟨mode, known, own, ctrl, kept⟩

/-! ### Two devices at different rates -/

/-- Device 0 is configured for 1 MHz. -/
def slowConfigured : Runs.Event (Call (Fin 2)) Returned :=
  ⟨.setcfg 0 ⟨8, 1000000⟩, ⟨.EOK, none⟩⟩

/-- Device 1 is configured for 10 MHz. -/
def fastConfigured : Runs.Event (Call (Fin 2)) Returned :=
  ⟨.setcfg 1 ⟨8, 10000000⟩, ⟨.EOK, none⟩⟩

/-- A byte of device 0 with this divider in CLK. -/
def slowSent (clk : UInt32) : Runs.Event (Call (Fin 2)) Returned :=
  ⟨.xfer 0 1 1 .EOK, ⟨.EOK, some ⟨.pio, 0x680, clk, 1, ⟨1, 1⟩, 1⟩⟩⟩

set_option maxRecDepth 8000 in
theorem slow_alone : twoDevicesHistory [slowConfigured.call, (slowSent 500).call] =
    some [slowConfigured, slowSent 500] := by
  decide

set_option maxRecDepth 8000 in
theorem slow_after_fast : twoDevicesHistory [slowConfigured.call, fastConfigured.call,
    (slowSent 50).call] = some [slowConfigured, fastConfigured, slowSent 50] := by
  decide

/-- Alone on the bus, device 0 runs at its own rate. -/
theorem start_ownConfig_iff_slow :
    Start.ownConfig plainModes twoDevices
      (ledgerAfter plainModes twoDevices [slowConfigured]) (slowSent 500).call
      ⟨.pio, 0x680, 500, 1, ⟨1, 1⟩, 1⟩ := by
  obtain ⟨last, run⟩ := run_of_twoDevicesHistory slow_alone
  refine (@start_ownConfig_iff _ _ _ _ _ [slowConfigured] [] (slowSent 500) _ run rfl).mpr ?_
  exact ⟨rfl, trivial⟩

/-- After another device was configured, device 0 runs with that one's divider. -/
theorem slow_after_fast_disturbed :
    ∃ before event start last,
      Runs.Run (step plainModes) (configuredFirst plainModes twoDevices) twoDevices
        (before ++ [event]) last ∧
      event.returned.start = some start ∧
      ¬ start.ownConfig plainModes twoDevices (ledgerAfter plainModes twoDevices before)
        event.call := by
  obtain ⟨last, run⟩ := run_of_twoDevicesHistory slow_after_fast
  refine ⟨[slowConfigured, fastConfigured], slowSent 50, _, last, run, rfl, ?_⟩
  rintro ⟨_, _, clk, _⟩
  exact absurd clk (by decide)

end Bcm2711.Spi
