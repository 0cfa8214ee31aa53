import Bcm2711.Spi.Transfer
import Bcm2711.Dma.Completion
import Bcm2711.Dma.Rejected

/-! # Failed transfers moved by DMA

`bcm2711spi_dmaxfer` sets up two channels, starts them and waits.  Only the wait cleans up behind
a failure: it aborts or completes both channels, and the busy flag of each is cleared by that.
-/

namespace Bcm2711.Spi

open Runs Dma

def BCM2711_SPI_FIFO : Nat := 0x4

/-! ## Channels -/

/-- A channel of the library with its engine. -/
structure BusChannel where
  chan : DmaChannel
  /-- The engine has a control block, and moves bytes. -/
  active : Bool

/-- `dma->rx_ch_handle` and `dma->tx_ch_handle`. -/
structure DmaPair where
  rx : BusChannel
  tx : BusChannel

/-- A register write resets the engine. -/
def resets (info : DmaChInfo) (write : RegWrite) : Bool :=
  write = if info.isDma4 then ⟨DMA4_DEBUG, DMA4_DEBUG_RESET⟩ else ⟨DMA_CS, DMA_CS_RESET⟩

/-- A channel when these registers have been read and written: an engine without a control block
stays idle, and so does one that is reset. -/
def BusChannel.wrote (channel : BusChannel) (chan : DmaChannel) (registers : Registers)
    (writes : List RegWrite) : BusChannel :=
  ⟨chan, channel.active && registers.conblkAd ≠ 0 && !writes.any (resets channel.chan.info)⟩

/-- `xfer_start`. -/
def BusChannel.start (channel : BusChannel) : BusChannel × Ret :=
  let (chan, ret, writes) := dmaStart channel.chan
  (⟨chan, channel.active || !writes.isEmpty⟩, ret)

/-- `xfer_abort`. -/
def BusChannel.abort (channel : BusChannel) (registers : Registers) : BusChannel :=
  let (chan, _, writes) := dmaXferAbort channel.chan registers
  channel.wrote chan registers writes

/-- `xfer_complete`. -/
def BusChannel.complete (channel : BusChannel) (registers : Registers) : BusChannel × Ret :=
  let completed := xferComplete channel.chan registers
  (channel.wrote completed.chan registers completed.writes, completed.ret)

/-! ## Transfers -/

/-- What the controller of a bus has of its own. -/
structure Controller where
  io : ModeBits
  pbase : Nat
  dmarxDreq : Nat
  dmatxDreq : Nat

/-- A call of `bcm2711spi_dmaxfer`. -/
structure DmaRequest where
  dev : SpiDev
  addr : DmaAddr
  tnbytes : Nat
  rnbytes : Nat

/-- What a call meets. -/
structure Surroundings where
  /-- Where a buffer for control blocks of a size is found. -/
  allocTx : Nat → Option Nat
  allocRx : Nat → Option Nat
  /-- `errno` when none is found. -/
  allocErrno : Nat
  /-- The registers of the channels when the wait has ended. -/
  rx : Registers
  tx : Registers
  /-- `errno` of `sem_timedwait_monotonic`, when it fails. -/
  semFails : Option Nat
  /-- The status of a wait for a transfer moved by interrupts. -/
  pio : Status

/-- `errno` as a status. -/
def Surroundings.errno (surroundings : Surroundings) : Errno → Status
  | .EINVAL => .EINVAL
  | .EBUSY => .errno 16
  | Errno.EIO => Status.EIO
  | .alloc => .errno surroundings.allocErrno

theorem len_lt_word (len : Nat) : len % 2 ^ 32 < 2 ^ 32 := Nat.mod_lt len (Nat.two_pow_pos 32)

/-- An address with this length. -/
def withLen (paddr len : Nat) : DmaAddr := ⟨paddr, len % 2 ^ 32, len_lt_word len⟩

/-- `tx_tinfo`. -/
def txTinfo (controller : Controller) (addr : DmaAddr) (dwidth : Nat) (lengths : Lengths) :
    DmaTransfer where
  srcAddrs := fun _ => withLen addr.paddr lengths.tnbytes
  dstAddrs := fun _ => withLen (controller.pbase + BCM2711_SPI_FIFO) lengths.xlen
  srcFragments := 1
  dstFragments := 1
  srcFlags := DMA_ADDR_FLAG_MEMORY
  dstFlags := DMA_ADDR_FLAG_DEVICE ||| DMA_ADDR_FLAG_NO_INCREMENT
  xferUnitSize := dwidth
  xferBytes := lengths.tnbytes
  modeFlags := 0
  reqId := controller.dmatxDreq

/-- `rx_tinfo`. -/
def rxTinfo (controller : Controller) (addr : DmaAddr) (dwidth : Nat) (lengths : Lengths) :
    DmaTransfer where
  srcAddrs := fun _ => withLen (controller.pbase + BCM2711_SPI_FIFO) lengths.xlen
  dstAddrs := fun _ => withLen addr.paddr lengths.rnbytes
  srcFragments := 1
  dstFragments := 1
  srcFlags := DMA_ADDR_FLAG_DEVICE ||| DMA_ADDR_FLAG_NO_INCREMENT
  dstFlags := DMA_ADDR_FLAG_MEMORY
  xferUnitSize := dwidth
  xferBytes := lengths.rnbytes
  modeFlags := 0
  reqId := controller.dmarxDreq

section Calls

variable (controller : Controller) (surroundings : Surroundings)

/-- `bcm2711_setup_dma`. -/
def bcm2711SetupDma (pair : DmaPair) (addr : DmaAddr) (dwidth : Nat) (lengths : Lengths) :
    DmaPair × Status :=
  let (tx, txRet) := dmaSetupXfer surroundings.allocTx pair.tx.chan
    (txTinfo controller addr dwidth lengths)
  let pair := { pair with tx := ⟨tx, pair.tx.active⟩ }
  match txRet with
  | .fail errno => (pair, surroundings.errno errno)
  | .ok =>
      let (rx, rxRet) := dmaSetupXfer surroundings.allocRx pair.rx.chan
        (rxTinfo controller addr dwidth lengths)
      let pair := { pair with rx := ⟨rx, pair.rx.active⟩ }
      match rxRet with
      | .fail errno => (pair, surroundings.errno errno)
      | .ok => (pair, .EOK)

/-- The starts of the two channels. -/
def startDma (pair : DmaPair) : DmaPair × Status :=
  let (rx, rxRet) := pair.rx.start
  let pair := { pair with rx := rx }
  match rxRet with
  | .fail errno => (pair, surroundings.errno errno)
  | .ok =>
      let (tx, txRet) := pair.tx.start
      let pair := { pair with tx := tx }
      match txRet with
      | .fail errno => (pair, surroundings.errno errno)
      | .ok => (pair, .EOK)

/-- `bcm2711spi_wait`, for a transfer moved by DMA. -/
def dmaWait (pair : DmaPair) : DmaPair × Status :=
  match surroundings.semFails with
  | some code => (⟨pair.rx.abort surroundings.rx, pair.tx.abort surroundings.tx⟩, .errno code)
  | none =>
      let (rx, rxRet) := pair.rx.complete surroundings.rx
      let (tx, txRet) := pair.tx.complete surroundings.tx
      (⟨rx, tx⟩, if rxRet = .ok ∧ txRet = .ok then .EOK else Status.EIO)

/-- `bcm2711spi_dmaxfer`, with what it does to the channels. -/
def dmaxferChannels (pair : DmaPair) (request : DmaRequest) : Except Fault (DmaPair × Status) :=
  let dwidth := widthBytes controller.io request.dev.cfg.mode
  let lengths := effective request.tnbytes request.rnbytes
  if dwidth = 1 then
    match transferTime lengths.xlen request.dev.cfg.clockRate with
    | .error fault => .error fault
    | .ok _ => .ok (pair, surroundings.pio)
  else if dwidth ≠ 4 ∨ lengths.xlen % dwidth.toNat ≠ 0 then .ok (pair, .EINVAL)
  else
    match transferTime lengths.xlen request.dev.cfg.clockRate with
    | .error fault => .error fault
    | .ok _ =>
        let (pair, set) :=
          bcm2711SetupDma controller surroundings pair request.addr dwidth.toNat lengths
        if set ≠ .EOK then .ok (pair, set)
        else
          let (pair, started) := startDma surroundings pair
          if started ≠ .EOK then .ok (pair, started) else .ok (dmaWait surroundings pair)

end Calls

/-! ## Channels that can be used -/

/-- A channel between transfers. -/
structure Idle (channel : BusChannel) : Prop where
  free : channel.chan.busy = false
  stopped : channel.active = false
  /-- The channel was attached with an event at the end of a transfer. -/
  whole : flagged channel.chan.aflags DMA_ATTACH_EVENT_PER_SEGMENT = false

/-- Both channels are between transfers. -/
def BothIdle (pair : DmaPair) : Prop := Idle pair.rx ∧ Idle pair.tx

/-- The channel has control blocks, or finds a buffer for them. -/
def HasBlocks (alloc : Nat → Option Nat) (chan : DmaChannel) : Prop :=
  1 ≤ chan.numCbs ∧
    (chan.cb.len ≠ 0 ∨ (alloc (chan.numCbs * DMA_CB_SIZE % 2 ^ 32)).isSome = true)

/-- A request for 32 bit words that passes the checks of the library, with memory for it. -/
structure ValidRequest (controller : Controller) (surroundings : Surroundings) (pair : DmaPair)
    (addr : DmaAddr) (lengths : Lengths) : Prop where
  whole : lengths.xlen % 4 = 0
  tx : checkTinfoParams pair.tx.chan (txTinfo controller addr 4 lengths) = true
  rx : checkTinfoParams pair.rx.chan (rxTinfo controller addr 4 lengths) = true
  txBlocks : HasBlocks surroundings.allocTx pair.tx.chan
  rxBlocks : HasBlocks surroundings.allocRx pair.rx.chan

/-- Neither channel is busy or touches memory, and every valid request is set up and started. -/
structure Usable (controller : Controller) (pair : DmaPair) : Prop where
  free : pair.rx.chan.busy = false ∧ pair.tx.chan.busy = false
  stopped : pair.rx.active = false ∧ pair.tx.active = false
  accepts : ∀ surroundings addr lengths,
    ValidRequest controller surroundings pair addr lengths →
      ∃ ready started, bcm2711SetupDma controller surroundings pair addr 4 lengths =
          (ready, .EOK) ∧
        startDma surroundings ready = (started, .EOK) ∧
        started.rx.active = true ∧ started.tx.active = true

variable {controller : Controller} {surroundings : Surroundings} {pair after : DmaPair}
  {channel : BusChannel} {registers : Registers} {addr : DmaAddr} {dwidth : Nat}
  {lengths : Lengths} {alloc : Nat → Option Nat} {chan : DmaChannel} {tinfo : DmaTransfer}

/-! ## The library's functions -/

theorem errno_ne_EOK (surroundings : Surroundings) (errno : Errno) :
    surroundings.errno errno ≠ .EOK := by
  cases errno <;> exact nofun

/-- Setting up leaves the flags of a channel alone. -/
theorem dmaSetupXfer_keeps (alloc : Nat → Option Nat) (chan : DmaChannel) (tinfo : DmaTransfer) :
    (dmaSetupXfer alloc chan tinfo).1.status = chan.status ∧
      (dmaSetupXfer alloc chan tinfo).1.aflags = chan.aflags := by
  unfold dmaSetupXfer
  split
  · exact ⟨rfl, rfl⟩
  · split
    · exact ⟨rfl, rfl⟩
    · unfold dmaSetupCbs
      split
      · exact ⟨rfl, rfl⟩
      · dsimp only
        split
        · exact ⟨rfl, rfl⟩
        · split <;> exact ⟨rfl, rfl⟩

theorem Idle.setUp (idle : Idle channel) (alloc : Nat → Option Nat) (tinfo : DmaTransfer) :
    Idle ⟨(dmaSetupXfer alloc channel.chan tinfo).1, channel.active⟩ := by
  obtain ⟨status, aflags⟩ := dmaSetupXfer_keeps alloc channel.chan tinfo
  refine ⟨?_, idle.stopped, ?_⟩
  · unfold DmaChannel.busy
    rw [status]
    exact idle.free
  · dsimp only
    rw [aflags]
    exact idle.whole

/-- A checked transfer of words is set up on an idle channel with control blocks. -/
theorem dmaSetupXfer_accepts (free : chan.busy = false)
    (checked : checkTinfoParams chan tinfo = true) (single : tinfo.sgs = 1)
    (words : tinfo.xferUnitSize = 4) (blocks : HasBlocks alloc chan) :
    ∃ ready, dmaSetupXfer alloc chan tinfo = (ready, .ok) := by
  have notBusy : flagged chan.status DMACH_BUSY = false := free
  have fits : ¬ tinfo.sgs > chan.numCbs := by
    rw [single]
    exact not_lt.mpr blocks.1
  unfold dmaSetupXfer
  rw [if_neg (not_not.mpr checked), notBusy, if_neg Bool.false_ne_true]
  unfold dmaSetupCbs
  rw [if_neg fits]
  have loop : ∀ prepared : DmaChannel, prepared.xferUnitSize = 4 →
      ∃ cbs, setupLoop prepared tinfo = some cbs := by
    intro prepared unit
    have encodes : Encodes prepared.info prepared.xferUnitSize := by
      rw [unit]
      unfold Encodes
      split
      · exact .inl rfl
      · exact .inl rfl
    obtain ⟨cbs, built, _⟩ := setupBlocks_encodes prepared tinfo encodes (List.range tinfo.sgs) []
      (startParams tinfo)
    exact ⟨cbs, built⟩
  dsimp only
  by_cases empty : chan.cb.len = 0
  · rw [if_pos empty]
    obtain ⟨paddr, found⟩ := Option.isSome_iff_exists.mp
      (blocks.2.resolve_left (not_not.mpr empty))
    rw [found]
    dsimp only [Option.map_some]
    obtain ⟨cbs, built⟩ := loop
      { chan with
        cb := ⟨paddr, chan.numCbs * DMA_CB_SIZE % 2 ^ 32, cbSize_lt chan.numCbs⟩
        frgsNum := tinfo.sgs
        frgCount := tinfo.sgs
        xferType := getXferType tinfo.srcFlags tinfo.dstFlags
        mflags := tinfo.modeFlags
        xferUnitSize := tinfo.xferUnitSize } words
    rw [built]
    exact ⟨_, rfl⟩
  · rw [if_neg empty]
    dsimp only
    obtain ⟨cbs, built⟩ := loop
      { chan with
        frgsNum := tinfo.sgs
        frgCount := tinfo.sgs
        xferType := getXferType tinfo.srcFlags tinfo.dstFlags
        mflags := tinfo.modeFlags
        xferUnitSize := tinfo.xferUnitSize } words
    rw [built]
    exact ⟨_, rfl⟩

/-- An engine that has a control block is reset by an abort. -/
theorem dmaXferAbort_resets {info : DmaChInfo} (isInfo : chan.info = info)
    (busy : registers.conblkAd ≠ 0) :
    (dmaXferAbort chan registers).2.2.any (resets info) = true := by
  have writes : (dmaXferAbort chan registers).2.2 = (abortChannel chan registers).2 := rfl
  rw [writes, ← isInfo]
  unfold abortChannel
  rw [if_neg busy]
  apply List.any_eq_true.mpr
  exact ⟨_, List.mem_cons_of_mem _ List.mem_cons_self, decide_eq_true rfl⟩

/-- An engine that is idle or reset does not run any more. -/
theorem wrote_stopped {writes : List RegWrite}
    (reset : registers.conblkAd ≠ 0 → writes.any (resets channel.chan.info) = true) :
    (channel.wrote chan registers writes).active = false := by
  unfold BusChannel.wrote
  by_cases idle : registers.conblkAd = 0
  · simp [idle]
  · simp [reset idle]

/-- An abort frees a channel and stops its engine. -/
theorem abort_idle (channel : BusChannel) (registers : Registers) :
    (channel.abort registers).chan.busy = false ∧ (channel.abort registers).active = false ∧
      (channel.abort registers).chan.aflags = channel.chan.aflags :=
  ⟨busy_cleared channel.chan.status, wrote_stopped (dmaXferAbort_resets rfl), rfl⟩

/-- A channel that neither repeats nor reports segments. -/
structure Single (channel : BusChannel) : Prop where
  whole : flagged channel.chan.aflags DMA_ATTACH_EVENT_PER_SEGMENT = false
  once : flagged channel.chan.mflags DMA_MODE_FLAG_REPEAT = false

/-- So does a completion, with an error of the engine or without. -/
theorem complete_idle (single : Single channel) (registers : Registers) :
    (channel.complete registers).1.chan.busy = false ∧
      (channel.complete registers).1.active = false ∧
      (channel.complete registers).1.chan.aflags = channel.chan.aflags := by
  have isOver : ∀ failed, toAbort channel.chan failed = true := by
    intro failed
    unfold toAbort
    split
    · rfl
    · rw [single.whole, single.once, if_neg Bool.false_ne_true]
      rfl
  unfold BusChannel.complete xferComplete
  dsimp only
  rw [isOver, if_pos rfl]
  refine ⟨busy_cleared channel.chan.status, wrote_stopped ?_, rfl⟩
  intro busy
  rw [List.any_cons, Bool.or_eq_true]
  right
  apply dmaXferAbort_resets _ busy
  exact congrArg chsInfo rfl

/-! ## The parts of a transfer -/

/-- Setting up keeps the channels idle, and when it succeeds they are to run once. -/
theorem setupDma_idle (idle : BothIdle pair) :
    BothIdle (bcm2711SetupDma controller surroundings pair addr dwidth lengths).1 ∧
      ((bcm2711SetupDma controller surroundings pair addr dwidth lengths).2 = .EOK →
        Single (bcm2711SetupDma controller surroundings pair addr dwidth lengths).1.rx ∧
          Single (bcm2711SetupDma controller surroundings pair addr dwidth lengths).1.tx) := by
  have txIdle := idle.2.setUp surroundings.allocTx (txTinfo controller addr dwidth lengths)
  have rxIdle := idle.1.setUp surroundings.allocRx (rxTinfo controller addr dwidth lengths)
  unfold bcm2711SetupDma
  cases tx : dmaSetupXfer surroundings.allocTx pair.tx.chan
      (txTinfo controller addr dwidth lengths) with
  | mk txChan txRet =>
      rw [tx] at txIdle
      cases txRet with
      | fail errno =>
          exact ⟨⟨idle.1, txIdle⟩, fun isOk => absurd isOk (errno_ne_EOK surroundings errno)⟩
      | ok =>
          dsimp only
          cases rx : dmaSetupXfer surroundings.allocRx pair.rx.chan
              (rxTinfo controller addr dwidth lengths) with
          | mk rxChan rxRet =>
              rw [rx] at rxIdle
              cases rxRet with
              | fail errno =>
                  exact ⟨⟨rxIdle, txIdle⟩,
                    fun isOk => absurd isOk (errno_ne_EOK surroundings errno)⟩
              | ok =>
                  have rxOnce : rxChan.mflags = 0 := (setUp_of_accepted rx).mflags
                  have txOnce : txChan.mflags = 0 := (setUp_of_accepted tx).mflags
                  refine ⟨⟨rxIdle, txIdle⟩, fun _ => ⟨⟨rxIdle.whole, ?_⟩, txIdle.whole, ?_⟩⟩
                  · dsimp only
                    rw [rxOnce]
                    rfl
                  · dsimp only
                    rw [txOnce]
                    rfl

/-- A channel that was started. -/
def BusChannel.started (channel : BusChannel) : BusChannel := ⟨(dmaStart channel.chan).1, true⟩

theorem start_idle (idle : Idle channel) : channel.start = (channel.started, .ok) := by
  have notBusy : flagged channel.chan.status DMACH_BUSY = false := idle.free
  unfold BusChannel.start BusChannel.started dmaStart
  rw [notBusy, if_neg Bool.false_ne_true]
  dsimp only
  rw [List.isEmpty_cons, Bool.not_false, Bool.or_true]

/-- Idle channels start. -/
theorem startDma_idle (surroundings : Surroundings) (idle : BothIdle pair) :
    startDma surroundings pair = (⟨pair.rx.started, pair.tx.started⟩, .EOK) := by
  unfold startDma
  rw [start_idle idle.1]
  dsimp only
  rw [start_idle idle.2]

theorem Single.started (single : Single channel) : Single channel.started := by
  have kept : channel.started.chan =
      { channel.chan with status := channel.chan.status ||| DMACH_BUSY } :=
    dmaStart_chan channel.chan
  constructor
  · rw [kept]
    exact single.whole
  · rw [kept]
    exact single.once

/-- The wait leaves both channels idle, however it ends. -/
theorem dmaWait_idle (surroundings : Surroundings) (rx : Single pair.rx) (tx : Single pair.tx) :
    BothIdle (dmaWait surroundings pair).1 := by
  unfold dmaWait
  cases surroundings.semFails with
  | some code =>
      obtain ⟨rxFree, rxStopped, rxFlags⟩ := abort_idle pair.rx surroundings.rx
      obtain ⟨txFree, txStopped, txFlags⟩ := abort_idle pair.tx surroundings.tx
      exact ⟨⟨rxFree, rxStopped, rxFlags ▸ rx.whole⟩, txFree, txStopped, txFlags ▸ tx.whole⟩
  | none =>
      obtain ⟨rxFree, rxStopped, rxFlags⟩ := complete_idle rx surroundings.rx
      obtain ⟨txFree, txStopped, txFlags⟩ := complete_idle tx surroundings.tx
      exact ⟨⟨rxFree, rxStopped, rxFlags ▸ rx.whole⟩, txFree, txStopped, txFlags ▸ tx.whole⟩

/-- A clock rate of zero faults. -/
theorem transferTime_of_match {α : Type} {xlen : Nat} {clockRate : UInt32} {value : α}
    {rest : Nat → Except Fault α}
    (returned : (match transferTime xlen clockRate with
      | Except.error fault => (Except.error fault : Except Fault α)
      | Except.ok dtime => rest dtime) = .ok value) :
    ∃ dtime, transferTime xlen clockRate = .ok dtime := by
  cases timed : transferTime xlen clockRate with
  | error fault =>
      rw [timed] at returned
      cases returned
  | ok dtime => exact ⟨dtime, rfl⟩

/-- The status is the one that `bcm2711spi_dmaxfer` returns for these answers of the library. -/
theorem dmaxferChannels_status {request : DmaRequest} {status : Status}
    (returned : dmaxferChannels controller surroundings pair request = .ok (after, status)) :
    ∃ answers, (bcm2711spiDmaxfer controller.io 0 request.dev request.tnbytes request.rnbytes
      answers).map Transferred.status = .ok status := by
  unfold dmaxferChannels at returned
  dsimp only at returned
  unfold bcm2711spiDmaxfer bcm2711spiXfer
  dsimp only
  by_cases bytes : widthBytes controller.io request.dev.cfg.mode = 1
  · rw [if_pos bytes] at returned
    obtain ⟨dtime, timed⟩ := transferTime_of_match returned
    rw [timed] at returned
    cases returned
    refine ⟨⟨.EOK, .EOK, .EOK, surroundings.pio⟩, ?_⟩
    rw [if_pos bytes, timed]
    rfl
  · rw [if_neg bytes] at returned
    split at returned
    · next unaligned =>
        cases returned
        refine ⟨⟨.EOK, .EOK, .EOK, .EOK⟩, ?_⟩
        rw [if_neg bytes, if_pos unaligned]
        rfl
    · next aligned =>
        obtain ⟨dtime, timed⟩ := transferTime_of_match returned
        rw [timed] at returned
        dsimp only at returned
        split at returned
        · next unset =>
            have isStatus := congrArg Prod.snd (Except.ok.inj returned)
            rw [isStatus] at unset
            refine ⟨⟨status, .EOK, .EOK, .EOK⟩, ?_⟩
            rw [if_neg bytes, if_neg aligned, timed]
            dsimp only
            rw [if_pos unset]
            rfl
        · split at returned
          · next unstarted =>
              have isStatus := congrArg Prod.snd (Except.ok.inj returned)
              rw [isStatus] at unstarted
              refine ⟨⟨.EOK, status, .EOK, .EOK⟩, ?_⟩
              rw [if_neg bytes, if_neg aligned, timed]
              dsimp only
              rw [if_neg (not_not.mpr rfl), if_pos unstarted]
              rfl
          · refine ⟨⟨.EOK, .EOK, .EOK, status⟩, ?_⟩
            rw [if_neg bytes, if_neg aligned, timed]
            rfl

/-! ## Runs -/

/-- Idle channels can be used. -/
theorem usable_of_idle (controller : Controller) (idle : BothIdle pair) :
    Usable controller pair := by
  refine ⟨⟨idle.1.free, idle.2.free⟩, ⟨idle.1.stopped, idle.2.stopped⟩, ?_⟩
  intro surroundings addr lengths valid
  obtain ⟨tx, txSet⟩ := dmaSetupXfer_accepts idle.2.free valid.tx rfl rfl valid.txBlocks
  obtain ⟨rx, rxSet⟩ := dmaSetupXfer_accepts idle.1.free valid.rx rfl rfl valid.rxBlocks
  have set : bcm2711SetupDma controller surroundings pair addr 4 lengths =
      (⟨⟨rx, pair.rx.active⟩, ⟨tx, pair.tx.active⟩⟩, .EOK) := by
    unfold bcm2711SetupDma
    rw [txSet]
    dsimp only
    rw [rxSet]
  have ready := (@setupDma_idle controller surroundings pair addr 4 lengths idle).1
  rw [set] at ready
  exact ⟨_, _, set, startDma_idle surroundings ready, rfl, rfl⟩

/-- A call leaves both channels idle. -/
theorem dmaxferChannels_idle {request : DmaRequest} {status : Status} (idle : BothIdle pair)
    (returned : dmaxferChannels controller surroundings pair request = .ok (after, status)) :
    BothIdle after := by
  unfold dmaxferChannels at returned
  dsimp only at returned
  split at returned
  · split at returned
    · cases returned
    · cases returned
      exact idle
  · split at returned
    · cases returned
      exact idle
    · split at returned
      · cases returned
      · generalize (widthBytes controller.io request.dev.cfg.mode).toNat = dwidth at returned
        generalize effective request.tnbytes request.rnbytes = lengths at returned
        obtain ⟨setIdle, single⟩ :=
          @setupDma_idle controller surroundings pair request.addr dwidth lengths idle
        split at returned
        · cases returned
          exact setIdle
        · next isSet =>
            obtain ⟨rx, tx⟩ := single (not_not.mp isSet)
            rw [startDma_idle surroundings setIdle] at returned
            dsimp only at returned
            rw [if_neg (not_not.mpr rfl)] at returned
            have waited := Except.ok.inj returned
            generalize bcm2711SetupDma controller surroundings pair request.addr dwidth lengths =
              set at waited rx tx
            have isIdle := @dmaWait_idle ⟨set.1.rx.started, set.1.tx.started⟩ surroundings
              rx.started tx.started
            rw [waited] at isIdle
            exact isIdle

/-- A call as a step. -/
def dmaStep (controller : Controller) (pair : DmaPair) (call : DmaRequest × Surroundings) :
    Except Fault (DmaPair × Status) :=
  dmaxferChannels controller call.2 pair call.1

/-- Every request may be made. -/
def AnyRequest (_ : List (Event (DmaRequest × Surroundings) Status)) (_ : DmaPair)
    (_ : DmaRequest × Surroundings) : Prop := True

/-- A channel as `bcm2711_init_dma` attaches it. -/
structure Attached (channel : BusChannel) : Prop where
  status : channel.chan.status = 0
  stopped : channel.active = false
  aflags : channel.chan.aflags = 0x01 ||| DMA_ATTACH_EVENT_ON_COMPLETE

theorem Attached.idle (attached : Attached channel) : Idle channel := by
  refine ⟨?_, attached.stopped, ?_⟩
  · unfold DmaChannel.busy
    rw [attached.status]
    rfl
  · rw [attached.aflags]
    rfl

theorem bothIdle_of_run {start : DmaPair}
    {history : List (Event (DmaRequest × Surroundings) Status)} (rx : Attached start.rx)
    (tx : Attached start.tx) (ran : Run (dmaStep controller) AnyRequest start history pair) :
    BothIdle pair := by
  refine @Run.invariant _ _ _ _ _ _ _ (fun _ pair => BothIdle pair) ⟨rx.idle, tx.idle⟩ ?_ _ _ ran
  intro _ _ _ _ _ idle _ stepped
  exact dmaxferChannels_idle idle stepped

/-- Behind every sequence of transfers, whatever it meets, a transfer that returns, and wherever it
fails, leaves both channels free and stopped, and the next valid one is set up and started. -/
theorem transfer_usable {start : DmaPair}
    {history : List (Event (DmaRequest × Surroundings) Status)} {request : DmaRequest}
    {status : Status} (rx : Attached start.rx) (tx : Attached start.tx)
    (ran : Run (dmaStep controller) AnyRequest start history pair)
    (returned : dmaxferChannels controller surroundings pair request = .ok (after, status)) :
    Usable controller after := by
  have idle := bothIdle_of_run rx tx ran
  exact usable_of_idle controller (dmaxferChannels_idle idle returned)

theorem oneBlock_lt : 1 < 2 ^ 32 := by decide

/-- A channel with room for one control block, as it is attached. -/
def attachedChannel : BusChannel where
  chan :=
    { chanIdx := firstChannel, status := 0, xferUnitSize := 0, numCbs := 1, frgsNum := 0
      frgCount := 0, mflags := 0, aflags := 0x01 ||| DMA_ATTACH_EVENT_ON_COMPLETE
      cb := withLen 0x10000 32, cbs := [], xferType := .ioToIo, numCbs_lt := oneBlock_lt }
  active := false

/-- A controller whose mode words hold the width in bits. -/
def wordController : Controller where
  io := ⟨0xff, 8, 32, 0x100, 0x200, 0x400⟩
  pbase := 0xfe204000
  dmarxDreq := 7
  dmatxDreq := 6

/-- A transfer of 64 bytes in words of 32 bits. -/
def wordRequest : DmaRequest where
  dev := ⟨0, ⟨32, 1000000⟩, 1000000, 0⟩
  addr := withLen 0x20000 64
  tnbytes := 64
  rnbytes := 64

/-- The wait times out while the channels run. -/
def timesOut : Surroundings where
  allocTx := fun _ => none
  allocRx := fun _ => none
  allocErrno := 12
  rx := ⟨0, 0x10000, true⟩
  tx := ⟨0, 0x10000, true⟩
  semFails := some 260
  pio := .EOK

theorem timedOut_usable : ∃ after,
    dmaxferChannels wordController timesOut ⟨attachedChannel, attachedChannel⟩ wordRequest =
        .ok (after, .errno 260) ∧
      Usable wordController after := by
  have attached : Attached attachedChannel := ⟨rfl, rfl, rfl⟩
  have returned : dmaxferChannels wordController timesOut ⟨attachedChannel, attachedChannel⟩
      wordRequest = .ok ((dmaWait timesOut (startDma timesOut (bcm2711SetupDma wordController
        timesOut ⟨attachedChannel, attachedChannel⟩ (withLen 0x20000 64) 4 ⟨64, 64⟩).1).1).1,
          .errno 260) := rfl
  exact ⟨_, returned, transfer_usable attached attached .start returned⟩

end Bcm2711.Spi
