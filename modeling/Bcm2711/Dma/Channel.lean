import Bcm2711.Lib.Word

/-! # DMA channels and the preparation of transfers

`dma_setup_xfer` checks a transfer and lays out one control block for each pair of
fragments.  Channels 0 to 10 are legacy engines with 32-bit bus addresses, channels 7 to 10
of them lite ones; channels 11 to 14 are DMA4 engines with 40-bit bus addresses.
-/

namespace Bcm2711.Dma

/-! ## Data -/

/-- `dma_ch_info_t`, the engine of a channel. -/
structure DmaChInfo where
  isDma4 : Bool
  isDmalite : Bool
deriving DecidableEq, Repr

/-- `chs_info`. -/
def chsInfo (chanIdx : Fin 15) : DmaChInfo :=
  if chanIdx.val < 7 then ⟨false, false⟩
  else if chanIdx.val < 11 then ⟨false, true⟩
  else ⟨true, false⟩

def DMA_ATTACH_EVENT_ON_COMPLETE : Nat := 0x10

def DMA_ATTACH_EVENT_PER_SEGMENT : Nat := 0x20

def DMA_MODE_FLAG_REPEAT : Nat := 0x1

def DMA_ADDR_FLAG_IO : Nat := 0x1

def DMA_ADDR_FLAG_MEMORY : Nat := 0x2

def DMA_ADDR_FLAG_DEVICE : Nat := 0x4

def DMA_ADDR_FLAG_NO_INCREMENT : Nat := 0x8

def DMA_XFER_TYPE_FLAG : Nat :=
  DMA_ADDR_FLAG_IO ||| DMA_ADDR_FLAG_MEMORY ||| DMA_ADDR_FLAG_DEVICE

def MAX_DMA_LEN : Nat := 1024 * 1024 * 1024

def MAX_LITE_DMA_LEN : Nat := 64 * 1024 - 4

def DMA_MAX_DREQ_NUM : Nat := 31

def DMA_CB_SIZE : Nat := 32

def DMACH_BUSY : Nat := 1

/-- `dma_xfer_types_t`. -/
inductive DmaXferType where
  | ioToIo
  | ioToMemory
  | ioToDevice
  | memoryToIo
  | memoryToMemory
  | memoryToDevice
  | deviceToIo
  | deviceToMemory
  | deviceToDevice
  | unknown
deriving DecidableEq, Repr

/-- `dma_addr_t`, a physical address and a length. -/
structure DmaAddr where
  paddr : Nat
  len : Nat
  len_lt : len < 2 ^ 32
deriving DecidableEq, Repr

/-- `dma_transfer_t`. -/
structure DmaTransfer where
  srcAddrs : Nat → DmaAddr
  dstAddrs : Nat → DmaAddr
  srcFragments : Nat
  dstFragments : Nat
  srcFlags : Nat
  dstFlags : Nat
  xferUnitSize : Nat
  xferBytes : Nat
  modeFlags : Nat
  reqId : Nat

/-- `dma_cb_params_t`. -/
structure DmaCbParams where
  info : Nat
  len : Nat
  dreq : Nat
  srcPaddr : Nat
  dstPaddr : Nat
  nextcb : Nat
deriving DecidableEq, Repr

/-- `dma_cb_t`. -/
structure DmaCb where
  ti : Nat
  sourceAd : Nat
  destAd : Nat
  txfrLen : Nat
  stride : Nat
  nextconbk : Nat
deriving DecidableEq, Repr

/-- `dma4_cb_t`. -/
structure Dma4Cb where
  ti : Nat
  src : Nat
  srci : Nat
  dest : Nat
  desti : Nat
  len : Nat
  nextCb : Nat
deriving DecidableEq, Repr

/-- A control block of either engine. -/
inductive ControlBlock where
  | legacy (cb : DmaCb)
  | dma4 (scb : Dma4Cb)
deriving DecidableEq, Repr

/-- `dma_channel_t`; `cbs` are the control blocks at `cb`. -/
structure DmaChannel where
  chanIdx : Fin 15
  status : Nat
  xferUnitSize : Nat
  numCbs : Nat
  frgsNum : Nat
  frgCount : Nat
  mflags : Nat
  aflags : Nat
  cb : DmaAddr
  cbs : List ControlBlock
  xferType : DmaXferType
  numCbs_lt : numCbs < 2 ^ 32

/-- The engine of a channel. -/
def DmaChannel.info (chan : DmaChannel) : DmaChInfo := chsInfo chan.chanIdx

/-- The first channel, a legacy one. -/
def firstChannel : Fin 15 := 0

/-- A flag is set. -/
def flagged (flags flag : Nat) : Bool := flags &&& flag ≠ 0

/-- The values of `errno` the functions leave. -/
inductive Errno where
  | EINVAL
  | EBUSY
  | EIO
  /-- Whatever the allocation of the control blocks left. -/
  | alloc
deriving DecidableEq, Repr

/-- The result of a call: success, or -1 with `errno`. -/
inductive Ret where
  | ok
  | fail (errno : Errno)
deriving DecidableEq, Repr

/-! ## Addresses -/

/-- `dma_legacy_addr`. -/
def dmaLegacyAddr (phys : Nat) : Nat :=
  if phys &&& 0xfc000000 = 0xfc000000 then phys &&& 0x7fffffff else phys ||| 0xc0000000

/-- `dma4_full_addr`. -/
def dma4FullAddr (phys : Nat) : Nat :=
  if phys &&& 0xfffffffffc000000 = 0xfc000000 then
    0x400000000 ||| (phys &&& Word.compl 64 0x80000000)
  else phys &&& 0xffffffffff

/-! ## Control blocks -/

def SRC_INC : Nat := 2 ^ 4

def DST_INC : Nat := 2 ^ 3

def SRC_DREQ : Nat := 2 ^ 2

def DST_DREQ : Nat := 2 ^ 1

def INT_EN : Nat := 2 ^ 0

/-- A flag of a register, if a condition holds. -/
def bitIf (condition : Bool) (flag : Nat) : Nat := if condition then flag else 0

/-- `DMA4_BURST_LEN(16)`. -/
def DMA4_BURST_LEN_16 : Nat := 15 <<< 8

/-- `DMA_TI_BURST(16)`. -/
def DMA_TI_BURST_16 : Nat := 15 <<< 12

/-- Channels 11 and 3 wait a cycle between the segments of a copy they report one by one. -/
def waitsForSegments (chan : DmaChannel) (chanIdx : Nat) : Bool :=
  flagged chan.aflags DMA_ATTACH_EVENT_PER_SEGMENT && chan.xferType = .memoryToMemory &&
    chan.chanIdx.val = chanIdx

/-- `DMA4_SIZE_32`, `DMA4_SIZE_64` or `DMA4_SIZE_128`. -/
def dma4Size : Nat → Option Nat
  | 4 => some (0 <<< 13)
  | 8 => some (1 <<< 13)
  | 16 => some (2 <<< 13)
  | _ => none

/-- `dma4_setcb`. -/
def dma4Setcb (chan : DmaChannel) (params : DmaCbParams) : Option Dma4Cb :=
  (dma4Size chan.xferUnitSize).map fun size =>
    let burst := bitIf (chan.xferType = .memoryToMemory) DMA4_BURST_LEN_16
    let dreq :=
      if flagged params.info SRC_DREQ then 2 ^ 14 ||| 2 ^ 3
      else if flagged params.info DST_DREQ then 2 ^ 15 else 0
    let waits := bitIf (waitsForSegments chan 11) (1 <<< 24 ||| 1 <<< 16)
    let src := dma4FullAddr params.srcPaddr
    let dest := dma4FullAddr params.dstPaddr
    { ti := params.dreq <<< 9 ||| 2 ^ 2 ||| dreq ||| bitIf (flagged params.info INT_EN) 1 ||| waits
      src := src % 2 ^ 32
      srci := size ||| bitIf (flagged params.info SRC_INC) (2 ^ 12) ||| burst |||
        (src >>> 32 &&& 0xff)
      dest := dest % 2 ^ 32
      desti := size ||| bitIf (flagged params.info DST_INC) (2 ^ 12) ||| burst |||
        (dest >>> 32 &&& 0xff)
      len := params.len
      nextCb := if params.nextcb ≠ 0 then (dma4FullAddr params.nextcb >>> 5) % 2 ^ 32 else 0 }

/-- The width bits of `ti` for a unit of 4 or 16 bytes. -/
def dmaWidth : Nat → Option Nat
  | 4 => some 0
  | 16 => some (2 ^ 9 ||| 2 ^ 5)
  | _ => none

/-- `dma_setcb`. -/
def dmaSetcb (chan : DmaChannel) (params : DmaCbParams) : Option DmaCb :=
  (dmaWidth chan.xferUnitSize).map fun width =>
    let dreq :=
      if flagged params.info SRC_DREQ then 2 ^ 10
      else if flagged params.info DST_DREQ then 2 ^ 6 else 0
    { ti := width ||| bitIf (flagged params.info SRC_INC) (2 ^ 8) |||
        bitIf (flagged params.info DST_INC) (2 ^ 4) |||
        bitIf (chan.xferType = .memoryToMemory) DMA_TI_BURST_16 |||
        params.dreq <<< 16 ||| 2 ^ 3 ||| dreq ||| bitIf (flagged params.info INT_EN) 1 |||
        bitIf (waitsForSegments chan 3) (1 <<< 21)
      sourceAd := dmaLegacyAddr (params.srcPaddr % 2 ^ 32)
      destAd := dmaLegacyAddr (params.dstPaddr % 2 ^ 32)
      txfrLen := params.len
      stride := 0
      nextconbk := if params.nextcb ≠ 0 then dmaLegacyAddr (params.nextcb % 2 ^ 32) else 0 }

/-! ## Checking a transfer -/

/-- `__builtin_popcount` of the three type flags. -/
def popcount (flags : Nat) : Nat := flags % 2 + flags / 2 % 2 + flags / 4 % 2

/-- `xfer_types`. -/
def xferTypes : List (List DmaXferType) :=
  [[.ioToIo, .ioToMemory, .ioToDevice],
    [.memoryToIo, .memoryToMemory, .memoryToDevice],
    [.deviceToIo, .deviceToMemory, .deviceToDevice]]

/-- `get_xfer_type`. -/
def getXferType (srcFlags dstFlags : Nat) : DmaXferType :=
  let srcFlags := srcFlags &&& DMA_XFER_TYPE_FLAG
  let dstFlags := dstFlags &&& DMA_XFER_TYPE_FLAG
  let srcType := srcFlags >>> 1
  let dstType := dstFlags >>> 1
  if popcount srcFlags ≠ 1 ∨ popcount dstFlags ≠ 1 ∨ 3 ≤ srcType ∨ 3 ≤ dstType then .unknown
  else (xferTypes.getD srcType []).getD dstType .unknown

/-- `check_segment_params`.  A remainder by zero is the dividend, as the processor has it. -/
def checkSegmentParams (info : DmaChInfo) (unit : Nat) (addr : DmaAddr) : Bool :=
  if addr.paddr > 2 ^ 32 - 1 ∧ ¬ info.isDma4 then false
  else if addr.len % unit ≠ 0 then false
  else if info.isDmalite ∧ addr.len > MAX_LITE_DMA_LEN then false
  else addr.len ≤ MAX_DMA_LEN

/-- The size of `(int)unit`. -/
def intAbs (unit : Nat) : Nat := if unit < 2 ^ 31 then unit else 2 ^ 32 - unit

/-- The loop of `check_tinfo_params` over the fragments of one side, with their total length. -/
def checkFragments (info : DmaChInfo) (unit flags : Nat) : List DmaAddr → Nat → Option Nat
  | [], total => some total
  | addr :: rest, total =>
      if ¬ checkSegmentParams info unit addr then none
      else if flagged flags DMA_ADDR_FLAG_NO_INCREMENT ∧ addr.paddr % intAbs unit ≠ 0 then none
      else checkFragments info unit flags rest (Word.add 32 total addr.len)

/-- The source fragments. -/
def DmaTransfer.src (tinfo : DmaTransfer) : List DmaAddr :=
  (List.range tinfo.srcFragments).map tinfo.srcAddrs

/-- The destination fragments. -/
def DmaTransfer.dst (tinfo : DmaTransfer) : List DmaAddr :=
  (List.range tinfo.dstFragments).map tinfo.dstAddrs

/-- The comparison of the total lengths with `xfer_bytes`. -/
def checkLengths (tinfo : DmaTransfer) (srcTotalLen dstTotalLen : Nat) : Bool :=
  if flagged tinfo.srcFlags DMA_ADDR_FLAG_DEVICE then dstTotalLen = tinfo.xferBytes
  else if flagged tinfo.dstFlags DMA_ADDR_FLAG_DEVICE then srcTotalLen = tinfo.xferBytes
  else if tinfo.srcFragments = tinfo.dstFragments then
    srcTotalLen = tinfo.xferBytes ∧ dstTotalLen = tinfo.xferBytes
  else if tinfo.srcFragments = 1 then dstTotalLen = tinfo.xferBytes
  else if tinfo.dstFragments = 1 then srcTotalLen = tinfo.xferBytes
  else false

/-- `check_tinfo_params`. -/
def checkTinfoParams (chan : DmaChannel) (tinfo : DmaTransfer) : Bool :=
  let xferType := getXferType tinfo.srcFlags tinfo.dstFlags
  if xferType = .unknown ∨ xferType = .deviceToDevice then false
  else if tinfo.xferBytes % tinfo.xferUnitSize ≠ 0 then false
  else
    match checkFragments chan.info tinfo.xferUnitSize tinfo.srcFlags tinfo.src 0,
        checkFragments chan.info tinfo.xferUnitSize tinfo.dstFlags tinfo.dst 0 with
    | some srcTotalLen, some dstTotalLen =>
        if ¬ checkLengths tinfo srcTotalLen dstTotalLen then false
        else if flagged (tinfo.srcFlags ||| tinfo.dstFlags) DMA_ADDR_FLAG_DEVICE then
          tinfo.reqId < DMA_MAX_DREQ_NUM
        else true
    | _, _ => false

/-! ## Setting up a transfer -/

/-- The number of control blocks of a transfer. -/
def DmaTransfer.sgs (tinfo : DmaTransfer) : Nat := max tinfo.srcFragments tinfo.dstFragments

/-- `params->info` and `params->dreq` at the start of `dma_setup_xfer`. -/
def setupInfo (tinfo : DmaTransfer) : Nat × Nat :=
  let info := bitIf (!flagged tinfo.srcFlags DMA_ADDR_FLAG_NO_INCREMENT) SRC_INC |||
    bitIf (!flagged tinfo.dstFlags DMA_ADDR_FLAG_NO_INCREMENT) DST_INC
  if flagged tinfo.srcFlags DMA_ADDR_FLAG_DEVICE then (info ||| SRC_DREQ, tinfo.reqId)
  else if flagged tinfo.dstFlags DMA_ADDR_FLAG_DEVICE then (info ||| DST_DREQ, tinfo.reqId)
  else (info, 0)

/-- The parameters of one control block in the loop of `dma_setup_cbs`. -/
def cbParams (chan : DmaChannel) (tinfo : DmaTransfer) (sgi : Nat) : DmaCbParams :=
  let srcFrag := if sgi < tinfo.srcFragments then sgi else 0
  let dstFrag := if sgi < tinfo.dstFragments then sgi else 0
  let last : Bool := sgi = tinfo.sgs - 1
  let intEn := (last && flagged chan.aflags DMA_ATTACH_EVENT_ON_COMPLETE) ||
    flagged chan.aflags DMA_ATTACH_EVENT_PER_SEGMENT
  { info := (setupInfo tinfo).1 ||| bitIf intEn INT_EN
    len :=
      if 1 < tinfo.srcFragments then (tinfo.srcAddrs srcFrag).len
      else if 1 < tinfo.dstFragments then (tinfo.dstAddrs dstFrag).len
      else tinfo.xferBytes
    dreq := (setupInfo tinfo).2
    srcPaddr := (tinfo.srcAddrs srcFrag).paddr
    dstPaddr := (tinfo.dstAddrs dstFrag).paddr
    nextcb :=
      if !last then chan.cb.paddr + (sgi + 1) * DMA_CB_SIZE
      else if flagged tinfo.modeFlags DMA_MODE_FLAG_REPEAT then chan.cb.paddr else 0 }

/-- `dma4_setcb` or `dma_setcb`, after the engine. -/
def setcb (chan : DmaChannel) (params : DmaCbParams) : Option ControlBlock :=
  if chan.info.isDma4 then (dma4Setcb chan params).map .dma4
  else (dmaSetcb chan params).map .legacy

/-- The loop of `dma_setup_cbs`. -/
def setupLoop (chan : DmaChannel) (tinfo : DmaTransfer) : Option (List ControlBlock) :=
  (List.range tinfo.sgs).mapM fun sgi => setcb chan (cbParams chan tinfo sgi)

/-- `dma_setup_cbs`; `alloc` tells for a size where a buffer for the control blocks is
found. -/
def dmaSetupCbs (alloc : Nat → Option Nat) (chan : DmaChannel) (tinfo : DmaTransfer) :
    DmaChannel × Ret :=
  if tinfo.sgs > chan.numCbs then (chan, .fail .EINVAL)
  else
    let size := chan.numCbs * DMA_CB_SIZE % 2 ^ 32
    let buffer :=
      if chan.cb.len = 0 then
        (alloc size).map fun paddr => ⟨paddr, size, Nat.mod_lt _ (Nat.two_pow_pos 32)⟩
      else some chan.cb
    match buffer with
    | none => (chan, .fail .alloc)
    | some cb =>
        let chan := { chan with cb := cb, frgsNum := tinfo.sgs, frgCount := tinfo.sgs }
        match setupLoop chan tinfo with
        | some cbs => ({ chan with cbs := cbs }, .ok)
        | none => (chan, .fail .EINVAL)

/-- `dma_setup_xfer`. -/
def dmaSetupXfer (alloc : Nat → Option Nat) (chan : DmaChannel) (tinfo : DmaTransfer) :
    DmaChannel × Ret :=
  if ¬ checkTinfoParams chan tinfo then (chan, .fail .EINVAL)
  else if flagged chan.status DMACH_BUSY then (chan, .fail .EBUSY)
  else
    dmaSetupCbs alloc
      { chan with
        xferType := getXferType tinfo.srcFlags tinfo.dstFlags
        mflags := tinfo.modeFlags
        xferUnitSize := tinfo.xferUnitSize } tinfo

/-! ## What an accepted transfer leaves -/

variable {alloc : Nat → Option Nat} {chan ready : DmaChannel} {tinfo : DmaTransfer}

/-- What an accepted transfer passed, and what it set. -/
structure SetUp (chan : DmaChannel) (tinfo : DmaTransfer) (ready : DmaChannel) : Prop where
  checked : checkTinfoParams chan tinfo = true
  idle : flagged ready.status DMACH_BUSY = false
  chanIdx : ready.chanIdx = chan.chanIdx
  status : ready.status = chan.status
  aflags : ready.aflags = chan.aflags
  mflags : ready.mflags = tinfo.modeFlags
  xferType : ready.xferType = getXferType tinfo.srcFlags tinfo.dstFlags
  xferUnitSize : ready.xferUnitSize = tinfo.xferUnitSize
  frgsNum : ready.frgsNum = tinfo.sgs
  frgCount : ready.frgCount = tinfo.sgs
  sgs_le : tinfo.sgs ≤ ready.numCbs
  cbs : setupLoop ready tinfo = some ready.cbs

theorem setUp_of_accepted (setup : dmaSetupXfer alloc chan tinfo = (ready, .ok)) :
    SetUp chan tinfo ready := by
  unfold dmaSetupXfer at setup
  split at setup
  · cases setup
  · next checked =>
      split at setup
      · cases setup
      · next idle =>
          unfold dmaSetupCbs at setup
          dsimp only at setup
          split at setup
          · cases setup
          · next fits =>
              split at setup
              · cases setup
              · next cb isCb =>
                  split at setup
                  · next cbs built =>
                      cases setup
                      exact ⟨not_not.mp checked, by simpa using idle, rfl, rfl, rfl, rfl, rfl, rfl,
                        rfl, rfl, Nat.le_of_not_lt fits, built⟩
                  · cases setup

end Bcm2711.Dma
