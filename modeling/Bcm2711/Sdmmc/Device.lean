import Bcm2711.Sdmmc.Partitions

/-! # A card and what the driver knows of it

The requests of a bus go to the partitions of one card.  The card has a current partition,
`PARTITION_ACCESS`, that every data, erase or write protect command works on; the driver
cannot see it and remembers in `pactive` what it last selected.  Replies say what the
commands of a request come to.
-/

namespace Bcm2711.Sdmmc

def EOK : Nat := 0
def EIO : Nat := 5
def ENXIO : Nat := 6
def ENOMEM : Nat := 12
def EACCES : Nat := 13
def ENODEV : Nat := 19
def EINVAL : Nat := 22
def EROFS : Nat := 30
def ENOTSUP : Nat := 48
def ETIMEDOUT : Nat := 260

def CAM_REQ_CMP : Nat := 0x01
def CAM_REQ_CMP_ERR : Nat := 0x04
def CAM_CMD_TIMEOUT : Nat := 0x0B
def CAM_NO_HBA : Nat := 0x11
def CAM_PROVIDE_FAIL : Nat := 0x16
def CAM_AUTOSNS_VALID : Nat := 0x80

def MMC_PART_RPMB : Nat := 3

def BKOPS_NC_TICKS : Nat := 10
def BKOPS_IMPACTED_TICKS : Nat := 5
def BKOPS_STATUS_OPERATIONS_NONE : Nat := 0
def BKOPS_STATUS_OPERATIONS_NON_CRITICAL : Nat := 1
def BKOPS_STATUS_OPERATIONS_IMPACTED : Nat := 2
def BKOPS_STATUS_OPERATIONS_CRITICAL : Nat := 3
def BKOPS_STATUS_OPERATIONS_INPROG : Nat := 0x80000000

/-! ## Replies -/

/-- What a command comes to: the status that the driver sees, and whether the card carried out
one that failed. -/
structure Reply where
  status : Nat
  carriedOut : Bool
deriving DecidableEq, Repr

/-- The card carried the command out. -/
def Reply.accepted (reply : Reply) : Bool := reply.status = EOK || reply.carriedOut

/-- What the driver reads of `sdio_dev_info_t`. -/
structure DevInf where
  /-- `DEV_FLAG_CARD_LOCKED`. -/
  locked : Bool
  cache : Bool
  bkops : Bool
  trim : Bool
  secure : Bool
  secureTrim : Bool
  discard : Bool
  wrRel : Bool
  wrRelEnh : Bool
  cmd23 : Bool
  sectorSize : Nat
  eraseSize : Nat
  wpSize : Nat
  relWrSecC : Nat
deriving DecidableEq, Repr

/-- What the configuration after a reset comes to: `sdio_cache`, the manual bit of
`ECSD_BKOPS_EN`, and the switch of `sdmmc_bkops_cfg`. -/
structure ResetReply where
  cache : Nat
  bkopsEnable : Bool
  bkopsCfg : Nat
deriving DecidableEq, Repr

/-- What the commands of `sdmmc_bkops` come to. -/
structure BkopsReply where
  /-- `sdio_hpi`, for operations in progress. -/
  hpi : Nat
  /-- `ECSD_BKOPS_STATUS`, when it could be read. -/
  extCsd : Option Nat
  /-- The switch that starts the operations. -/
  start : Nat
  /-- `sdio_hpi`, when the start timed out. -/
  hpiAfterStart : Nat
  reset : ResetReply
deriving DecidableEq, Repr

/-- What the commands of an erase come to. -/
structure EraseReply where
  /-- `_sdio_synchronize`. -/
  sync : Nat
  /-- The switch of the partition. -/
  partition : Reply
  /-- `sdio_alloc_cmd` returns a command. -/
  hasCmd : Bool
  groupStart : Reply
  groupEnd : Reply
  erase : Reply
  /-- `_sdio_wait_card_status`. -/
  wait : Nat
deriving DecidableEq, Repr

/-! ## The state -/

/-- What a command does. -/
inductive CmdKind where
  | read
  | write
  | erase
  | writeProtect
deriving DecidableEq, Repr

/-- A command that works on the current partition, as it was sent. -/
structure Sent where
  kind : CmdKind
  /-- `config` of the partition that the request is for. -/
  config : Nat
  /-- The partition of the request carries `SDMMC_PFLAG_WP`. -/
  isProtected : Bool
  /-- `PARTITION_ACCESS` of the card. -/
  access : Nat
  accepted : Bool
deriving DecidableEq, Repr

/-- The unit that a request is for. -/
structure LogicalUnit where
  targetId : Nat
  targetLun : Nat
deriving DecidableEq, Repr

/-- What the requests use of `SIM_SDMMC_EXT` and of the device, the partition that the card
works on, and the commands that were sent so far. -/
structure Sim where
  /-- `dtype` is `DEV_TYPE_MMC`. -/
  isMmc : Bool
  /-- `HC_CAP_ACMD12`. -/
  acmd12 : Bool
  /-- `HC_CAP_DMA`. -/
  dma : Bool
  devInf : DevInf
  /-- `SDMMC_EFLAG_PRESENT`. -/
  present : Bool
  /-- `SDMMC_EFLAG_CACHE`. -/
  cache : Bool
  /-- `SDMMC_EFLAG_VCACHE_DIRTY`. -/
  vcacheDirty : Bool
  /-- `SDMMC_EFLAG_BKOPS`. -/
  bkops : Bool
  /-- `SDMMC_EFLAG_RELWR`. -/
  relwr : Bool
  /-- `drvr_state` is `SDMMC_DRVR_PAUSE`. -/
  paused : Bool
  bkopsStatus : Nat
  bkopsTicks : Nat
  tables : Targets
  /-- The partition that the driver last selected. -/
  pactive : Nat
  /-- `PARTITION_ACCESS` of the card. -/
  access : Nat
  sent : List Sent

namespace Sim

variable (sim : Sim)

/-- The partition of a unit. -/
def part (unit : LogicalUnit) : SdmmcPartition := sim.tables.part unit.targetId unit.targetLun

/-- A command for a unit's partition is sent. -/
def send (unit : LogicalUnit) (kind : CmdKind) (reply : Reply) : Sim :=
  { sim with
    sent := sim.sent ++ [⟨kind, (sim.part unit).config,
      Word.test (sim.part unit).pflags SDMMC_PFLAG_WP, sim.access, reply.accepted⟩] }

/-! ## The sdio layer -/

/-- `mmc_set_partition`. -/
def mmcSetPartition (partition : Nat) (reply : Reply) : Sim × Nat :=
  if sim.pactive = partition then (sim, EOK)
  else
    let switched :=
      if reply.accepted then { sim with access := partition &&& MMC_PART_MSK } else sim
    if reply.status = EOK then ({ switched with pactive := partition }, EOK)
    else (switched, reply.status)

/-- `sdio_set_partition`. -/
def sdioSetPartition (partition sync : Nat) (reply : Reply) : Sim × Nat :=
  if sync ≠ EOK then (sim, sync)
  else if sim.isMmc then sim.mmcSetPartition partition reply
  else (sim, EOK)

/-- The commands of an erase: the group's start, its end and the erase itself. -/
def eraseGroup (unit : LogicalUnit) (reply : EraseReply) : Sim × Nat :=
  let started := sim.send unit .erase reply.groupStart
  if reply.groupStart.status ≠ EOK then (started, reply.groupStart.status)
  else
    let ended := started.send unit .erase reply.groupEnd
    if reply.groupEnd.status ≠ EOK then (ended, reply.groupEnd.status)
    else (ended.send unit .erase reply.erase, reply.erase.status)

/-- `mmc_erase`; the loop has at most one turn. -/
def mmcErase (unit : LogicalUnit) (partition nlba : Nat) (reply : EraseReply) : Sim × Nat :=
  let selected := sim.mmcSetPartition partition reply.partition
  if selected.2 ≠ EOK then selected
  else if !reply.hasCmd then (selected.1, ENOMEM)
  else if nlba = 0 then (selected.1, EOK)
  else
    let erased := selected.1.eraseGroup unit reply
    if erased.2 ≠ EOK then erased else (erased.1, reply.wait)

/-- `sd_erase`; the loop has at most one turn. -/
def sdErase (unit : LogicalUnit) (nlba : Nat) (reply : EraseReply) : Sim × Nat :=
  if !reply.hasCmd then (sim, ENOMEM)
  else if nlba = 0 then (sim, EOK)
  else sim.eraseGroup unit reply

/-- `sdio_erase`. -/
def sdioErase (unit : LogicalUnit) (partition nlba : Nat) (reply : EraseReply) : Sim × Nat :=
  if reply.sync ≠ EOK then (sim, reply.sync)
  else if sim.isMmc then sim.mmcErase unit partition nlba reply
  else sim.sdErase unit nlba reply

/-- `sdio_reset`: the card loses its power, and with it the partition that was selected. -/
def sdioReset : Sim := { sim with pactive := 0, access := 0 }

/-! ## Resets and background operations -/

/-- The background operations and reliable writes of an eMMC card, in `sdmmc_dev_cfg`. -/
def mmcCfg (reply : ResetReply) : Sim :=
  { sim with
    bkops := (sim.bkops || reply.bkopsEnable) && sim.devInf.bkops && reply.bkopsCfg = EOK
    relwr := sim.relwr && sim.devInf.wrRel }

/-- `sdmmc_dev_cfg`. -/
def devCfg (reply : ResetReply) : Sim :=
  let cached :=
    if sim.devInf.cache && reply.cache ≠ EOK then { sim with cache := false } else sim
  if cached.isMmc then cached.mmcCfg reply else cached

/-- A reset loses the volatile cache: user partitions with data in it become read only. -/
def loseCache : Sim :=
  if sim.devInf.cache && sim.cache then
    { sim with
      tables := if sim.vcacheDirty then sim.tables.setPartitionAttr MMC_PART_USER SDMMC_PFLAG_WP
        else sim.tables
      cache := false }
  else sim

/-- `sdmmc_reset`. -/
def sdmmcReset (reply : ResetReply) : Sim := (sim.sdioReset.loseCache).devCfg reply

/-- A timer tick reads the status of the background operations. -/
def bkopsPoll (reply : BkopsReply) : Sim :=
  let ticked :=
    if sim.bkopsStatus ≠ 0 then { sim with bkopsTicks := sim.bkopsTicks + 1 } else sim
  match reply.extCsd with
  | some status =>
      if ticked.bkopsStatus ≠ status then { ticked with bkopsTicks := 0, bkopsStatus := status }
      else ticked
  | none => ticked

/-- Background operations are to be started: the cases of `sdmmc_bkops` that fall through. -/
def bkopsDue : Bool :=
  if sim.bkopsStatus = BKOPS_STATUS_OPERATIONS_NON_CRITICAL then
    !(sim.bkopsTicks < BKOPS_NC_TICKS) && !(sim.bkopsTicks < BKOPS_IMPACTED_TICKS)
  else if sim.bkopsStatus = BKOPS_STATUS_OPERATIONS_IMPACTED then
    !(sim.bkopsTicks < BKOPS_IMPACTED_TICKS)
  else sim.bkopsStatus = BKOPS_STATUS_OPERATIONS_CRITICAL

/-- `sdmmc_bkops` starts the operations. -/
def bkopsStart (reply : BkopsReply) : Sim :=
  if reply.start = EOK then
    { sim with
      bkopsStatus := sim.bkopsStatus ||| BKOPS_STATUS_OPERATIONS_INPROG
      bkopsTicks := 0 }
  else if reply.start = ETIMEDOUT && reply.hpiAfterStart ≠ EOK then sim.sdmmcReset reply.reset
  else sim

/-- `sdmmc_bkops` finds operations in progress; a request interrupts them. -/
def bkopsInterrupt (tick : Bool) (reply : BkopsReply) : Sim :=
  if tick then sim
  else
    let stopped := if reply.hpi ≠ EOK then sim.sdmmcReset reply.reset else sim
    { stopped with bkopsStatus := BKOPS_STATUS_OPERATIONS_NONE }

/-- `sdmmc_bkops`. -/
def sdmmcBkops (tick : Bool) (reply : BkopsReply) : Sim :=
  if !sim.bkops || sim.paused then sim
  else if Word.test sim.bkopsStatus BKOPS_STATUS_OPERATIONS_INPROG then
    sim.bkopsInterrupt tick reply
  else
    let polled := if tick then sim.bkopsPoll reply else sim
    if polled.bkopsDue then polled.bkopsStart reply else polled

end Sim

end Bcm2711.Sdmmc
