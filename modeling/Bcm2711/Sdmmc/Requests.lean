import Bcm2711.Sdmmc.Device

/-! # Requests

The handlers of `sdmmc_scsi_io` and `sdmmc_devctl` for data, erase, trim, discard, write
protect and flush requests, from the checks of a request to the commands that it sends.
-/

namespace Bcm2711.Sdmmc

def SDMMC_WP_ACTION_CLR : Nat := 0x00
def SDMMC_WP_ACTION_SET : Nat := 0x01
def SDMMC_WP_ACTION_PROT : Nat := 0x02
def SDMMC_WP_ACTION_PROT_TYPE : Nat := 0x03
def SDMMC_WP_MODE_PWR_WP_EN : Nat := 0x01

def SDMMC_ERASE_ACTION_NORMAL : Nat := 0x00
def SDMMC_ERASE_ACTION_SECURE : Nat := 0x01
def SDMMC_ERASE_ACTION_TRIM : Nat := 0x02
def SDMMC_ERASE_ACTION_SECURE_TRIM : Nat := 0x03
def SDMMC_ERASE_ACTION_SECURE_PURGE : Nat := 0x04
def SDMMC_ERASE_ACTION_DISCARD : Nat := 0x05

def MMC_PART_BOOT1 : Nat := 1
def MMC_PART_BOOT2 : Nat := 2

def CS_CMD_CMP : Nat := 0x01

def CDS_URGENT_BKOPS : Nat := 1 <<< 6
def CDS_READY_FOR_DATA : Nat := 1 <<< 8
def CDS_CUR_STATE_TRAN : Nat := 4 <<< 9
def CDS_CUR_STATE_MSK : Nat := 0xf <<< 9
def CDS_ERROR : Nat := 1 <<< 19
def CDS_CARD_ECC_FAILED : Nat := 1 <<< 21
def CDS_CARD_IS_LOCKED : Nat := 1 <<< 25
def CDS_WP_VIOLATION : Nat := 1 <<< 26

/-! ## Requests and what their commands come to -/

/-- What the handlers read of a CCB's header. -/
structure Ccb where
  unit : LogicalUnit
  /-- The function is `XPT_SCSI_IO`. -/
  isScsiIo : Bool
  /-- There is a sense buffer, and `CAM_DIS_AUTOSENSE` is clear. -/
  autosense : Bool
  /-- `CAM_DATA_PHYS`. -/
  dataPhys : Bool
  dxferLen : Nat
  /-- `cam_devctl_ioflag` has a read or a write flag. -/
  permitted : Bool
deriving DecidableEq, Repr

/-- A transfer: its block, the forced unit access bit, and the lengths in its scatter list. -/
structure Transfer where
  lba : Nat
  fua : Bool
  sgCounts : List Nat
deriving DecidableEq, Repr

/-- What the commands of `sdmmc_rw` come to. -/
structure RwReply where
  /-- `sdio_alloc_cmd` returns a command. -/
  hasCmd : Bool
  /-- `_sdio_synchronize`, before the data command. -/
  sync : Nat
  data : Reply
  cstatus : Nat
  rsp : Nat
  /-- `sdio_send_status` after a failure, and its response. -/
  status : Nat × Nat
  /-- `sdio_stop_transmission`. -/
  stop : Nat
  /-- `sdio_wait_card_status` after a write, and its response. -/
  wait : Nat × Nat
  /-- The last `sdio_send_status` of a failed transfer, and its response. -/
  last : Nat × Nat
  reset : ResetReply
  /-- `sdio_dev_info`. -/
  devInf : DevInf
deriving DecidableEq, Repr

/-- What the commands of `sdmmc_read_write` come to; the legacy loop is followed for so many
turns. -/
structure RwReplies where
  /-- `_sdio_synchronize`, before the switch of the partition. -/
  sync : Nat
  partition : Reply
  reset : ResetReply
  bkops : BkopsReply
  rw : Nat → RwReply
  turns : Nat

/-- What the commands of `sdmmc_write_protect` come to. -/
structure WpReplies where
  sync : Nat
  partition : Reply
  /-- The switch of `ECSD_USER_WP` or `ECSD_BOOT_WP`. -/
  mode : Reply
  /-- `sdio_alloc_cmd` returns a command, and `sdio_alloc` a buffer. -/
  hasCmd : Bool
  hasBuffer : Bool
  /-- `MMC_SET_WRITE_PROT` or `MMC_CLR_WRITE_PROT` for each group. -/
  group : Nat → Reply
  query : Reply

/-- `dsm->opt`. -/
inductive DsmOpt where
  | trim
  | discard
  | other
deriving DecidableEq, Repr

/-- A request, with what its commands come to. -/
inductive Request where
  /-- `SC_READ10`. -/
  | read (io : Transfer) (replies : RwReplies)
  /-- `SC_WRITE10`. -/
  | write (io : Transfer) (replies : RwReplies)
  /-- `SC_WR_SAME16`; `unmap` is `WS_OPT_UNMAP`. -/
  | writeSame (unmap : Bool) (nlba : Nat) (reply : EraseReply)
  /-- `SC_ERASE12`. -/
  | erase12 (lba nlba : Nat) (reply : EraseReply)
  /-- `SC_SYNC`; `flush` is what `sdio_cache` returns. -/
  | sync (flush : Nat)
  /-- `DCMD_SDMMC_ERASE`. -/
  | erase (action lba nlba : Nat) (reply : EraseReply)
  /-- `DCMD_CAM_DATA_SET_MGNT`; the buffer holds all ranges or not. -/
  | dsm (opt : DsmOpt) (holdsRanges : Bool) (ranges : List (Nat × Nat))
      (replies : Nat → EraseReply)
  /-- `DCMD_SDMMC_WRITE_PROTECT`. -/
  | writeProtect (action lba nlba : Nat) (replies : WpReplies)

/-! ## Errors -/

/-- `sdmmc_sense`. -/
def Ccb.sense (ccb : Ccb) : Nat :=
  if ccb.isScsiIo && ccb.autosense then CAM_REQ_CMP_ERR ||| CAM_AUTOSNS_VALID
  else CAM_REQ_CMP_ERR

/-- `status ? status : CAM_REQ_CMP`. -/
def completed (status : Nat) : Nat := if status ≠ EOK then status else CAM_REQ_CMP

/-- The card waits for data in the transfer state. -/
def readyInTran (rsp : Nat) : Bool :=
  rsp &&& (CDS_READY_FOR_DATA ||| CDS_CUR_STATE_MSK) = CDS_READY_FOR_DATA ||| CDS_CUR_STATE_TRAN

namespace Sim

variable (sim : Sim)

/-- `sdmmc_error`. -/
def sdmmcError (ccb : Ccb) (status : Nat) : Sim × Nat :=
  if status ∈ [ EIO, ENXIO, EACCES, EINVAL, EROFS] then (sim, ccb.sense)
  else if status = ENODEV then ({ sim with present := false }, CAM_NO_HBA)
  else if status = ETIMEDOUT then (sim, CAM_CMD_TIMEOUT)
  else (sim, CAM_REQ_CMP_ERR)

/-- `sdmmc_unit_ready`. -/
def unitReady (ccb : Ccb) : Sim × Nat :=
  let attached := if sim.present then (sim, CAM_REQ_CMP) else sim.sdmmcError ccb ENODEV
  if (sim.part ccb.unit).nlba = 0 then attached.1.sdmmcError ccb ENXIO else attached

/-! ## Reads and writes -/

/-- The flags of a transfer, as `sdmmc_rw` gets them. -/
structure RwFlags where
  /-- `SCF_DIR_OUT`. -/
  dirOut : Bool
  /-- `SCF_SBC_RLW`. -/
  sbcRlw : Bool
deriving DecidableEq, Repr

/-- `SCF_SBC`, in `sdmmc_rw`. -/
def sbc (flgs : RwFlags) (dlen : Nat) : Bool :=
  flgs.sbcRlw || (dlen > sim.devInf.sectorSize && !sim.acmd12 && sim.devInf.cmd23)

/-- The status and the response of a transfer, after the commands that follow it. -/
def transferred (flgs : RwFlags) (dlen : Nat) (reply : RwReply) : Nat × Nat :=
  if reply.data.status ≠ EOK then
    if reply.status.1 ≠ EOK || !readyInTran reply.status.2 then
      (if reply.stop ≠ EOK then ETIMEDOUT else reply.data.status, reply.status.2)
    else (reply.data.status, reply.status.2)
  else if !sim.sbc flgs dlen && dlen > sim.devInf.sectorSize && !sim.acmd12 &&
      reply.stop ≠ EOK then (ETIMEDOUT, reply.rsp)
  else if flgs.dirOut then reply.wait
  else (EOK, reply.rsp)

/-- What the command status and the flags of the response make of the status. -/
def judged (status cstatus rsp : Nat) : Nat :=
  if Word.test rsp CDS_CARD_ECC_FAILED then EIO
  else if Word.test rsp CDS_CARD_IS_LOCKED then EACCES
  else if Word.test rsp CDS_WP_VIOLATION then EROFS
  else if Word.test rsp CDS_ERROR then EIO
  else if cstatus ≠ CS_CMD_CMP then ETIMEDOUT
  else status

/-- The end of a failed transfer: the card is reset when it does not wait for data. -/
def recover (flgs : RwFlags) (dlen status : Nat) (reply : RwReply) : Sim :=
  let ready :=
    if reply.last.1 ≠ EOK || !readyInTran reply.last.2 then sim.sdmmcReset reply.reset else sim
  { ready with
    devInf := { reply.devInf with
      cmd23 := reply.devInf.cmd23 &&
        !(status = ETIMEDOUT && sim.sbc flgs dlen && !sim.isMmc) } }

/-- `sdmmc_rw`. -/
def sdmmcRw (unit : LogicalUnit) (flgs : RwFlags) (dlen : Nat) (reply : RwReply) : Sim × Nat :=
  if !reply.hasCmd then (sim, ENOMEM)
  else if reply.sync ≠ EOK then (sim, reply.sync)
  else
    let sent := sim.send unit (if flgs.dirOut then .write else .read) reply.data
    if reply.data.status = ENXIO then (sent, ENXIO)
    else
      let answer := sim.transferred flgs dlen reply
      let noted :=
        if Word.test answer.2 CDS_URGENT_BKOPS then
          { sent with bkopsStatus := BKOPS_STATUS_OPERATIONS_CRITICAL }
        else sent
      let status := judged answer.1 reply.cstatus answer.2
      if status ≠ EOK then (noted.recover flgs dlen status reply, status) else (noted, EOK)

/-- The length of one legacy reliable write. -/
def legacyCount (lba sgCount : Nat) : Nat :=
  let relWrCount := sim.devInf.relWrSecC * 512 % 2 ^ 32
  let count :=
    if lba &&& Word.sub 64 sim.devInf.relWrSecC 1 = 0 then sgCount else 512
  if count > relWrCount then relWrCount else 512

/-- The loop of legacy reliable writes, for at most so many turns; `none` when it still runs. -/
def legacyWrite (unit : LogicalUnit) (flgs : RwFlags) (replies : Nat → RwReply) :
    Nat → Nat → List Nat → Nat → Sim → Sim × Option Nat
  | 0, _, _, _, sim => (sim, none)
  | _ + 1, _, [], _, sim => (sim, some EOK)
  | turns + 1, turn, sgCount :: sgCounts, lba, sim =>
      if sgCount = 0 then legacyWrite unit flgs replies turns turn sgCounts lba sim
      else
        let count := sim.legacyCount lba sgCount
        let written := sim.sdmmcRw unit flgs count (replies turn)
        if written.2 ≠ EOK then (written.1, some written.2)
        else
          legacyWrite unit flgs replies turns (turn + 1)
            (Word.sub 32 sgCount count :: sgCounts) (Word.add 64 lba (count / 512)) written.1

/-- The status of a transfer becomes that of the request. -/
def finish (ccb : Ccb) (transfer : Sim × Option Nat) : Sim × Option Nat :=
  match transfer.2 with
  | none => transfer
  | some status =>
      if status ≠ EOK then
        let failed := transfer.1.sdmmcError ccb status
        (failed.1, some (completed failed.2))
      else (transfer.1, some CAM_REQ_CMP)

/-- The transfer of `sdmmc_read_write`, once the partition is selected. -/
def transfer (ccb : Ccb) (flgs : RwFlags) (io : Transfer) (replies : RwReplies) :
    Sim × Option Nat :=
  let lba := Word.add 64 io.lba (sim.part ccb.unit).slba
  if flgs.sbcRlw && !sim.devInf.wrRelEnh then
    finish ccb (legacyWrite ccb.unit flgs replies.rw replies.turns 0 io.sgCounts lba sim)
  else
    let done := sim.sdmmcRw ccb.unit flgs ccb.dxferLen (replies.rw 0)
    finish ccb (done.1, some done.2)

/-- `sdmmc_read_write` selects the partition, sees to background operations and transfers. -/
def selectAndTransfer (ccb : Ccb) (flgs : RwFlags) (io : Transfer) (replies : RwReplies) :
    Sim × Option Nat :=
  let selected := sim.sdioSetPartition (sim.part ccb.unit).config replies.sync replies.partition
  if selected.2 ≠ EOK then
    let failed := (selected.1.sdmmcReset replies.reset).sdmmcError ccb ETIMEDOUT
    (failed.1, some failed.2)
  else (selected.1.sdmmcBkops false replies.bkops).transfer ccb flgs io replies

/-- The flags that `sdmmc_read_write` hands on. -/
def rwFlags (dirOut : Bool) (io : Transfer) : RwFlags :=
  ⟨dirOut, dirOut && (sim.relwr || (io.fua && sim.devInf.wrRel))⟩

/-- `sdmmc_read_write`. -/
def readWrite (ccb : Ccb) (dirOut : Bool) (io : Transfer) (replies : RwReplies) :
    Sim × Option Nat :=
  let ready := sim.unitReady ccb
  if ready.2 ≠ CAM_REQ_CMP then (ready.1, some ready.2)
  else if sim.devInf.locked then
    let failed := sim.sdmmcError ccb EACCES
    (failed.1, some failed.2)
  else if dirOut && Word.test (sim.part ccb.unit).pflags SDMMC_PFLAG_WP then
    let failed := sim.sdmmcError ccb EROFS
    (failed.1, some failed.2)
  else if (sim.part ccb.unit).config &&& MMC_PART_MSK = MMC_PART_RPMB then
    (sim, some CAM_PROVIDE_FAIL)
  else sim.selectAndTransfer ccb (sim.rwFlags dirOut io) io replies

/-- `SC_WRITE10`, in `sdmmc_scsi_io`: the cache is marked dirty before the write. -/
def write10 (ccb : Ccb) (io : Transfer) (replies : RwReplies) : Sim × Option Nat :=
  let marked :=
    if sim.devInf.cache && sim.cache then { sim with vcacheDirty := true } else sim
  marked.readWrite ccb true io replies

/-! ## Erases -/

/-- The end of a handler that erases. -/
def erased (ccb : Ccb) (done : Sim × Nat) : Sim × Nat :=
  if done.2 ≠ EOK then done.1.sdmmcError ccb done.2 else (done.1, CAM_REQ_CMP)

/-- `sdmmc_write_same`. -/
def writeSame (ccb : Ccb) (unmap : Bool) (nlba : Nat) (reply : EraseReply) : Sim × Nat :=
  let ready := sim.unitReady ccb
  if ready.2 ≠ CAM_REQ_CMP then ready
  else if !sim.devInf.trim || !unmap then sim.sdmmcError ccb EINVAL
  else erased ccb (sim.sdioErase ccb.unit (sim.part ccb.unit).config nlba reply)

/-- Blocks in an erase group. -/
def egs : Nat := sim.devInf.eraseSize / 512

/-- The range leaves the partition, computed in words of this width. -/
def beyond (width : Nat) (unit : LogicalUnit) (lba nlba : Nat) : Bool :=
  let part := sim.part unit
  let pend := Word.sub width (Word.add width part.slba part.nlba) 1
  lba > pend || Word.sub width (Word.add width lba nlba) 1 > pend

/-- `sdmmc_erase12`; a card without erase groups makes it divide by zero. -/
def erase12 (ccb : Ccb) (cdbLba nlba : Nat) (reply : EraseReply) : Option (Sim × Nat) :=
  let lba := Word.add 32 cdbLba (sim.part ccb.unit).slba
  let ready := sim.unitReady ccb
  if ready.2 ≠ CAM_REQ_CMP then some ready
  else if sim.beyond 32 ccb.unit lba nlba then some (sim.sdmmcError ccb EINVAL)
  else if sim.egs = 0 then none
  else if lba % sim.egs ≠ 0 || nlba % sim.egs ≠ 0 then some (sim.sdmmcError ccb EINVAL)
  else some (erased ccb (sim.sdioErase ccb.unit (sim.part ccb.unit).config nlba reply))

/-- The range is made of whole erase groups; a card without any makes the test divide by
zero. -/
def wholeGroups (slba nlba : Nat) : Option Bool :=
  if sim.egs = 0 then none else some (slba % sim.egs = 0 && nlba % sim.egs = 0)

/-- `sdmmc_erase_devctl` lets this action through to the card. -/
def eraseAllowed (action slba nlba : Nat) : Option Bool :=
  if action = SDMMC_ERASE_ACTION_NORMAL then sim.wholeGroups slba nlba
  else if action = SDMMC_ERASE_ACTION_SECURE then
    if sim.devInf.secure then sim.wholeGroups slba nlba else some false
  else if action = SDMMC_ERASE_ACTION_TRIM then some sim.devInf.trim
  else if action = SDMMC_ERASE_ACTION_SECURE_TRIM then some sim.devInf.secureTrim
  else if action = SDMMC_ERASE_ACTION_SECURE_PURGE then some sim.devInf.secureTrim
  else if action = SDMMC_ERASE_ACTION_DISCARD then some sim.devInf.trim
  else some false

/-- `sdmmc_erase_devctl`; the status is `cam_devctl_status`. -/
def eraseDevctl (ccb : Ccb) (action lba nlba : Nat) (reply : EraseReply) :
    Option (Sim × Nat) :=
  let count := nlba % 2 ^ 32
  let slba := Word.add 64 (sim.part ccb.unit).slba lba
  let ready := sim.unitReady ccb
  if ready.2 ≠ CAM_REQ_CMP then some (ready.1, EIO)
  else if sim.beyond 64 ccb.unit slba count then some (sim, EINVAL)
  else (sim.eraseAllowed action slba count).map fun isAllowed =>
    if isAllowed then sim.sdioErase ccb.unit (sim.part ccb.unit).config count reply
    else (sim, EINVAL)

/-- The loop of `sdmmc_dsm`. -/
def dsmLoop (unit : LogicalUnit) (replies : Nat → EraseReply) :
    List (Nat × Nat) → Nat → Sim → Sim × Nat
  | [], _, sim => (sim, EOK)
  | (lba, nlba) :: ranges, turn, sim =>
      if sim.beyond 64 unit (Word.add 64 (sim.part unit).slba lba) nlba then (sim, EINVAL)
      else
        let done := sim.sdioErase unit (sim.part unit).config nlba (replies turn)
        if done.2 ≠ EOK then done else dsmLoop unit replies ranges (turn + 1) done.1

/-- `sdmmc_dsm_devctl`; the status is `cam_devctl_status`. -/
def dsmDevctl (ccb : Ccb) (opt : DsmOpt) (holdsRanges : Bool) (ranges : List (Nat × Nat))
    (replies : Nat → EraseReply) : Sim × Nat :=
  let ready := sim.unitReady ccb
  if ready.2 ≠ CAM_REQ_CMP then (ready.1, EIO)
  else if !holdsRanges then (sim, EINVAL)
  else
    match opt with
    | .trim =>
        if sim.devInf.trim then dsmLoop ccb.unit replies ranges 0 sim else (sim, EINVAL)
    | .discard =>
        if sim.devInf.discard then dsmLoop ccb.unit replies ranges 0 sim else (sim, EINVAL)
    | .other => (sim, EINVAL)

/-! ## Write protection of the card -/

/-- The switch of the protection mode, before groups are protected. -/
def wpMode (unit : LogicalUnit) (partition : Nat) (reply : Reply) : Sim × Nat :=
  if partition &&& MMC_PART_MSK ∈ [MMC_PART_USER, MMC_PART_BOOT1, MMC_PART_BOOT2] then
    (sim.send unit .writeProtect reply, reply.status)
  else (sim, EINVAL)

/-- The loop over write protect groups. -/
def wpGroups (unit : LogicalUnit) (replies : Nat → Reply) : Nat → Nat → Sim → Sim × Nat
  | 0, _, sim => (sim, EOK)
  | groups + 1, turn, sim =>
      let reply := replies turn
      let done := sim.send unit .writeProtect reply
      if reply.status ≠ EOK then (done, reply.status)
      else wpGroups unit replies groups (turn + 1) done

/-- The commands of `sdmmc_write_protect`, once the mode is set. -/
def wpCommands (unit : LogicalUnit) (action groups : Nat) (replies : WpReplies) : Sim × Nat :=
  if !replies.hasCmd then (sim, ENOMEM)
  else if action = SDMMC_WP_ACTION_SET || action = SDMMC_WP_ACTION_CLR then
    wpGroups unit replies.group groups 0 sim
  else if !replies.hasBuffer then (sim, ENOMEM)
  else (sim.send unit .writeProtect replies.query, replies.query.status)

/-- `sdmmc_write_protect`. -/
def writeProtect (unit : LogicalUnit) (action partition lba nlba : Nat) (replies : WpReplies) :
    Sim × Nat :=
  let wpGrpSize := sim.devInf.wpSize / 512
  if wpGrpSize = 0 then (sim, ENOTSUP)
  else if lba % wpGrpSize ≠ 0 then (sim, EINVAL)
  else
    let selected := sim.sdioSetPartition partition replies.sync replies.partition
    if selected.2 ≠ EOK then selected
    else
      let mode :=
        if action = SDMMC_WP_ACTION_SET then selected.1.wpMode unit partition replies.mode
        else (selected.1, EOK)
      if mode.2 ≠ EOK then mode
      else mode.1.wpCommands unit action ((nlba + wpGrpSize - 1) / wpGrpSize) replies

/-- `sdmmc_wp_devctl`; the status is `cam_devctl_status`. -/
def wpDevctl (ccb : Ccb) (action lba wpNlba : Nat) (replies : WpReplies) : Sim × Nat :=
  let nlba := max 1 wpNlba
  let slba := Word.add 64 (sim.part ccb.unit).slba lba
  let ready := sim.unitReady ccb
  if ready.2 ≠ CAM_REQ_CMP then (ready.1, EIO)
  else if action > SDMMC_WP_ACTION_PROT_TYPE || sim.beyond 64 ccb.unit slba nlba then
    (sim, EINVAL)
  else if !sim.isMmc then (sim, ENOTSUP)
  else sim.writeProtect ccb.unit action (sim.part ccb.unit).config slba nlba replies

/-! ## The cache, and the dispatch -/

/-- `sdmmc_cache_flush`. -/
def cacheFlush (flush : Nat) : Sim × Nat :=
  if sim.devInf.cache && sim.cache && sim.vcacheDirty then
    if flush = EOK then ({ sim with vcacheDirty := false }, EOK) else (sim, flush)
  else (sim, EOK)

/-- `sdmmc_sync`. -/
def sdmmcSync (ccb : Ccb) (flush : Nat) : Sim × Nat :=
  if !sim.present then (sim, CAM_REQ_CMP)
  else
    let ready := sim.unitReady ccb
    if ready.2 ≠ CAM_REQ_CMP then ready
    else
      let flushed := sim.cacheFlush flush
      (flushed.1, completed flushed.2)

/-- A handler of `sdmmc_devctl` ran; the status of the CCB is `CAM_REQ_CMP`. -/
def devctl (ccb : Ccb) (done : Option (Sim × Nat)) : Option (Sim × Option Nat) :=
  if ccb.permitted then done.map fun result => (result.1, some CAM_REQ_CMP)
  else some (sim, some CAM_REQ_CMP)

/-- A handler of `sdmmc_scsi_io` ran, unless the transfer needs DMA that the controller
lacks. -/
def scsiIo (ccb : Ccb) (done : Option (Sim × Option Nat)) : Option (Sim × Option Nat) :=
  if ccb.dxferLen ≠ 0 && ccb.dataPhys && !sim.dma then some (sim, some CAM_PROVIDE_FAIL)
  else done

/-- A finished handler. -/
def finished (done : Sim × Nat) : Sim × Option Nat := (done.1, some done.2)

/-- `sdmmc_scsi_io` and `sdmmc_devctl`: the state and the status of the request, or nothing
when the handler divides by zero. -/
def serve (ccb : Ccb) : Request → Option (Sim × Option Nat)
  | .read io replies => sim.scsiIo ccb (some (sim.readWrite ccb false io replies))
  | .write io replies => sim.scsiIo ccb (some (sim.write10 ccb io replies))
  | .writeSame unmap nlba reply =>
      sim.scsiIo ccb (some (finished (sim.writeSame ccb unmap nlba reply)))
  | .erase12 lba nlba reply => sim.scsiIo ccb ((sim.erase12 ccb lba nlba reply).map finished)
  | .sync flush => sim.scsiIo ccb (some (finished (sim.sdmmcSync ccb flush)))
  | .erase action lba nlba reply => sim.devctl ccb (sim.eraseDevctl ccb action lba nlba reply)
  | .dsm opt holdsRanges ranges replies =>
      sim.devctl ccb (some (sim.dsmDevctl ccb opt holdsRanges ranges replies))
  | .writeProtect action lba nlba replies =>
      sim.devctl ccb (some (sim.wpDevctl ccb action lba nlba replies))

end Sim

/-! ## Runs -/

/-- What happens to a bus with a card. -/
inductive SimAction where
  /-- A request that `sdmmc_sim_action` accepted; `sdio_retune` follows it. -/
  | request (ccb : Ccb) (request : Request) (retune : Nat) (reset : ResetReply)
  /-- `SIM_TIMER`, for background operations. -/
  | timer (reply : BkopsReply)

/-- The driver looks after the tuning when a request has been posted. -/
def Sim.retuned (sim : Sim) (retune : Nat) (reset : ResetReply) : Sim :=
  if retune ≠ EOK then sim.sdmmcReset reset else sim

/-- One action. -/
def Sim.act (sim : Sim) : SimAction → Option Sim
  | .request ccb request retune reset =>
      if sim.tables.accepts ccb.unit.targetId ccb.unit.targetLun then
        (sim.serve ccb request).map fun served =>
          if served.2.isSome then served.1.retuned retune reset else served.1
      else none
  | .timer reply => some (sim.sdmmcBkops true reply)

end Bcm2711.Sdmmc
