import Bcm2711.Sdmmc.Checks

/-! # The status of a handler

The driver posts a CCB when its handler returns anything but `CAM_REQ_INPROG`, which is
zero, and zero is also `EOK`: a handler that returned it would keep the bus for itself.
No handler does.
-/

namespace Bcm2711.Sdmmc

def EPERM : Nat := 1
def EBUSY : Nat := 16

def CAM_REQ_INPROG : Nat := 0x00

def LD_CMD_STOP : Nat := 0x00
def LD_CMD_START : Nat := 0x01
def MP_RW_ERR : Nat := 0x01
def MP_CACHING : Nat := 0x08
def SAI_READ_CAPACITY_16 : Nat := 0x10
def WB_MODE_DNLD_MC : Nat := 0x04
def WB_MODE_ACT_MC : Nat := 0x0f

/-- `drvr_state`, and the state that `DCMD_SDMMC_DRVR_STATE` asks for. -/
inductive DrvrState where
  | pause
  | run
deriving DecidableEq, Repr

/-- A firmware update, with what its commands come to. -/
structure Ffu where
  /-- The card is an eMMC of revision 5 or later with `ECSD_FFU_SUPPORTED`. -/
  supported : Bool
  /-- `ECSD_FWUPDATE_DISABLED`. -/
  disabled : Bool
  mode : Nat
  bufferId : Nat
  /-- `sdio_mmc_switch`, `sdio_cache` and `sdmmc_bkops_cfg`. -/
  switch : Nat
  flush : Nat
  bkopsCfg : Nat
  /-- `SDMMC_EFLAG_BKOPS_AUTO`. -/
  bkopsAuto : Bool
  dssize : Nat
  /-- `ecsd->blksz`. -/
  blksz : Nat
  /-- `sdio_set_block_length`. -/
  setBlockLength : Nat
  rw : RwReply
  reset : ResetReply
deriving DecidableEq, Repr

/-- What a CCB asks the driver for, with what its commands come to. -/
inductive Job where
  /-- A request for data, erases, write protection or a flush. -/
  | request (request : Request)
  /-- `SC_UNIT_RDY`. -/
  | unitRdy
  /-- `SC_INQUIRY`; a page of vital product data is known and has room, or not. -/
  | inquiry (evpd : Option Bool)
  /-- `SC_SPINDLE`. -/
  | spindle (cmd : Nat)
  /-- `SC_RD_CAP`. -/
  | rdCap
  /-- `SC_MSELECT10`: the page, `MP_CACHE_WCE` and what `sdio_cache` returns. -/
  | modeSelect (page : Nat) (wce : Bool) (cache : Nat)
  /-- `SC_MSENSE10`. -/
  | modeSense (page : Nat)
  /-- `SC_WR_BUF`. -/
  | writeBuffer (ffu : Ffu)
  /-- `SC_SERVICE_ACTION_IN16`. -/
  | serviceAction (action : Nat)
  /-- Any other SCSI command. -/
  | unknownCommand
  /-- Any other devctl. -/
  | devctl
  /-- `DCMD_SDMMC_DRVR_STATE`: the state, and what `sdmmc_dev_dcfg` returns. -/
  | drvrState (state : DrvrState) (dcfg : Nat) (reset : ResetReply)
  /-- A function that is neither SCSI I/O nor a devctl. -/
  | unknownFunction

namespace Sim

variable (sim : Sim)

/-- `sdmmc_inquiry`. -/
def inquiry (ccb : Ccb) : Option Bool → Sim × Nat
  | none => (sim, CAM_REQ_CMP)
  | some isKnown => if isKnown then (sim, CAM_REQ_CMP) else sim.sdmmcError ccb EINVAL

/-- `sdmmc_spindle`. -/
def spindle (ccb : Ccb) (cmd : Nat) : Sim × Nat :=
  let ready := sim.unitReady ccb
  if ready.2 ≠ CAM_REQ_CMP then ready
  else if cmd = LD_CMD_STOP || cmd = LD_CMD_START then (sim, CAM_REQ_CMP)
  else sim.sdmmcError ccb EINVAL

/-- `sdmmc_mpage_caching`, for `sdmmc_mode_select`. -/
def mpageCaching (ccb : Ccb) (wce : Bool) (cache : Nat) : Sim × Nat :=
  if !sim.devInf.cache then sim.sdmmcError ccb EINVAL
  else if cache = EOK then ({ sim with cache := wce }, CAM_REQ_CMP)
  else sim.sdmmcError ccb cache

/-- `sdmmc_mode_select`. -/
def modeSelect (ccb : Ccb) (page : Nat) (wce : Bool) (cache : Nat) : Sim × Nat :=
  if page = MP_CACHING then sim.mpageCaching ccb wce cache else sim.sdmmcError ccb EINVAL

/-- `sdmmc_mode_sense`. -/
def modeSense (ccb : Ccb) (page : Nat) : Sim × Nat :=
  let ready := sim.unitReady ccb
  if ready.2 ≠ CAM_REQ_CMP then ready
  else if page = MP_RW_ERR || page = MP_CACHING then (sim, CAM_REQ_CMP)
  else sim.sdmmcError ccb EINVAL

/-- `sdmmc_service_action`. -/
def serviceAction (ccb : Ccb) (action : Nat) : Sim × Nat :=
  if action = SAI_READ_CAPACITY_16 then sim.unitReady ccb else (sim, ccb.sense)

/-- The first chunk of a firmware download prepares the card, in `sdmmc_ffu`. -/
def ffuPrepare (ffu : Ffu) : Nat :=
  if ffu.bufferId ≠ 0 then EOK
  else if sim.devInf.cache && sim.cache && ffu.flush ≠ EOK then ffu.flush
  else if ffu.bkopsAuto && ffu.bkopsCfg ≠ EOK then ffu.bkopsCfg
  else ffu.switch

/-- The download of a chunk, in `sdmmc_ffu`. -/
def ffuDownload (ccb : Ccb) (ffu : Ffu) : Sim × Nat :=
  if ccb.dxferLen = 0 || ccb.dxferLen % ffu.dssize ≠ 0 then (sim, EINVAL)
  else if sim.devInf.sectorSize ≠ ffu.dssize && ffu.setBlockLength ≠ EOK then (sim, EIO)
  else
    let sized := { sim with devInf := { sim.devInf with sectorSize := ffu.dssize } }
    let done := sized.sdmmcRw ccb.unit ⟨true, false⟩ ccb.dxferLen ffu.rw
    ({ done.1 with devInf := { done.1.devInf with sectorSize := ffu.blksz } }, completed done.2)

/-- `sdmmc_ffu`. -/
def sdmmcFfu (ccb : Ccb) (ffu : Ffu) : Sim × Nat :=
  if !ffu.supported then (sim, ENOTSUP)
  else if ffu.disabled then (sim, EPERM)
  else if ffu.mode ≠ WB_MODE_DNLD_MC && ffu.mode ≠ WB_MODE_ACT_MC then (sim, EINVAL)
  else if (sim.unitReady ccb).2 ≠ CAM_REQ_CMP then ((sim.unitReady ccb).1, EBUSY)
  else if ffu.mode = WB_MODE_ACT_MC then (sim.sdmmcReset ffu.reset, completed ffu.switch)
  else if sim.ffuPrepare ffu ≠ EOK then (sim, sim.ffuPrepare ffu)
  else sim.ffuDownload ccb ffu

/-- `sdmmc_drvr_state_devctl`; the state also says whether the CCB freezes the queue. -/
def drvrStateDevctl (ccb : Ccb) (state : DrvrState) (dcfg : Nat) (reset : ResetReply) :
    Sim × Bool :=
  if (sim.unitReady ccb).2 ≠ CAM_REQ_CMP then ((sim.unitReady ccb).1, false)
  else
    match state with
    | .pause => if dcfg ≠ EOK then (sim, false) else ({ sim with paused := true }, true)
    | .run => ({ sim.sdioReset.devCfg reset with paused := false }, false)

/-- The handlers that `sdmmc_start_ccb` calls: the state and the status of the CCB, which is
`none` while a handler still runs. -/
def handle (ccb : Ccb) : Job → Option (Sim × Option Nat)
  | .request request => sim.serve ccb request
  | .unitRdy => sim.scsiIo ccb (some (finished (sim.unitReady ccb)))
  | .inquiry evpd => sim.scsiIo ccb (some (finished (sim.inquiry ccb evpd)))
  | .spindle cmd => sim.scsiIo ccb (some (finished (sim.spindle ccb cmd)))
  | .rdCap => sim.scsiIo ccb (some (finished (sim.unitReady ccb)))
  | .modeSelect page wce cache =>
      sim.scsiIo ccb (some (finished (sim.modeSelect ccb page wce cache)))
  | .modeSense page => sim.scsiIo ccb (some (finished (sim.modeSense ccb page)))
  | .writeBuffer ffu => sim.scsiIo ccb (some (finished (sim.sdmmcFfu ccb ffu)))
  | .serviceAction action => sim.scsiIo ccb (some (finished (sim.serviceAction ccb action)))
  | .unknownCommand => sim.scsiIo ccb (some (finished (sim.sdmmcError ccb EINVAL)))
  | .devctl => some (sim, some CAM_REQ_CMP)
  | .drvrState state dcfg reset =>
      if ccb.permitted then
        some ((sim.drvrStateDevctl ccb state dcfg reset).1, some CAM_REQ_CMP)
      else some (sim, some CAM_REQ_CMP)
  | .unknownFunction => some (sim, some CAM_REQ_CMP_ERR)

/-- The handler asks for the queue to be frozen when the CCB is posted. -/
def freezesQueue (ccb : Ccb) : Job → Bool
  | .drvrState state dcfg reset =>
      ccb.permitted && (sim.drvrStateDevctl ccb state dcfg reset).2
  | _ => false

/-! ## No handler returns `CAM_REQ_INPROG` -/

variable {sim}

/-- A completed status is never zero. -/
theorem completed_ne (status : Nat) : completed status ≠ CAM_REQ_INPROG := by
  unfold completed
  split
  · next failed => exact failed
  · exact nofun

theorem sense_ne_inprog (ccb : Ccb) : ccb.sense ≠ CAM_REQ_INPROG := by
  unfold Ccb.sense
  split <;> exact nofun

theorem sdmmcError_ne (sim : Sim) (ccb : Ccb) (status : Nat) :
    (sim.sdmmcError ccb status).2 ≠ CAM_REQ_INPROG := by
  unfold sdmmcError
  split
  · exact sense_ne_inprog ccb
  · split
    · exact nofun
    · split <;> exact nofun

theorem unitReady_ne (sim : Sim) (ccb : Ccb) : (sim.unitReady ccb).2 ≠ CAM_REQ_INPROG := by
  unfold unitReady
  dsimp only
  split
  · exact sdmmcError_ne _ ccb ENXIO
  · split
    · exact nofun
    · exact sdmmcError_ne sim ccb ENODEV

/-- The status of a handler that has returned is not `CAM_REQ_INPROG`. -/
def Ends (done : Option (Sim × Option Nat)) : Prop :=
  ∀ after status, done = some (after, some status) → status ≠ CAM_REQ_INPROG

theorem ends_scsiIo {ccb : Ccb} {done : Option (Sim × Option Nat)} (ends : Ends done) :
    Ends (sim.scsiIo ccb done) := by
  intro after status isServed
  unfold scsiIo at isServed
  split at isServed
  · cases isServed
    exact nofun
  · exact ends after status isServed

theorem ends_devctl {ccb : Ccb} {done : Option (Sim × Nat)} : Ends (sim.devctl ccb done) := by
  intro after status isServed
  unfold devctl at isServed
  split at isServed
  · obtain ⟨_, _, same⟩ := Option.map_eq_some_iff.mp isServed
    cases same
    exact nofun
  · cases isServed
    exact nofun

theorem ends_finished {done : Sim × Nat} (ne : done.2 ≠ CAM_REQ_INPROG) :
    Ends (some (finished done)) := by
  rintro _ _ ⟨⟩
  exact ne

theorem ends_finish (ccb : Ccb) (done : Sim × Option Nat) : Ends (some (finish ccb done)) := by
  obtain ⟨sim, status⟩ := done
  intro after final isServed
  cases status with
  | none => cases isServed
  | some status =>
      unfold finish at isServed
      dsimp only at isServed
      split at isServed
      · cases isServed
        exact completed_ne _
      · cases isServed
        exact nofun

theorem ends_selectAndTransfer (sim : Sim) (ccb : Ccb) (flgs : RwFlags) (io : Transfer)
    (replies : RwReplies) : Ends (some (sim.selectAndTransfer ccb flgs io replies)) := by
  unfold selectAndTransfer transfer
  dsimp only
  split
  · exact ends_finished (sdmmcError_ne _ ccb ETIMEDOUT)
  · split
    · exact ends_finish ccb _
    · exact ends_finish ccb _

theorem ends_readWrite (sim : Sim) (ccb : Ccb) (dirOut : Bool) (io : Transfer)
    (replies : RwReplies) : Ends (some (sim.readWrite ccb dirOut io replies)) := by
  unfold readWrite
  dsimp only
  split
  · exact ends_finished (unitReady_ne sim ccb)
  · split
    · exact ends_finished (sdmmcError_ne sim ccb EACCES)
    · split
      · exact ends_finished (sdmmcError_ne sim ccb EROFS)
      · split
        · rintro _ _ ⟨⟩
          exact nofun
        · exact ends_selectAndTransfer sim ccb _ io replies

theorem erased_ne (ccb : Ccb) (done : Sim × Nat) : (erased ccb done).2 ≠ CAM_REQ_INPROG := by
  unfold erased
  split
  · exact sdmmcError_ne _ ccb done.2
  · exact nofun

theorem writeSame_ne (sim : Sim) (ccb : Ccb) (unmap : Bool) (nlba : Nat) (reply : EraseReply) :
    (sim.writeSame ccb unmap nlba reply).2 ≠ CAM_REQ_INPROG := by
  unfold writeSame
  dsimp only
  split
  · exact unitReady_ne sim ccb
  · split
    · exact sdmmcError_ne sim ccb EINVAL
    · exact erased_ne ccb _

theorem erase12_ne (sim : Sim) (ccb : Ccb) (lba nlba : Nat) (reply : EraseReply)
    {done : Sim × Nat} (ran : sim.erase12 ccb lba nlba reply = some done) :
    done.2 ≠ CAM_REQ_INPROG := by
  unfold erase12 at ran
  dsimp only at ran
  split at ran
  · cases ran
    exact unitReady_ne sim ccb
  · split at ran
    · cases ran
      exact sdmmcError_ne sim ccb EINVAL
    · split at ran
      · cases ran
      · split at ran
        · cases ran
          exact sdmmcError_ne sim ccb EINVAL
        · cases ran
          exact erased_ne ccb _

theorem sdmmcSync_ne (sim : Sim) (ccb : Ccb) (flush : Nat) :
    (sim.sdmmcSync ccb flush).2 ≠ CAM_REQ_INPROG := by
  unfold sdmmcSync
  dsimp only
  split
  · exact nofun
  · split
    · exact unitReady_ne sim ccb
    · exact completed_ne _

theorem ends_serve (sim : Sim) (ccb : Ccb) (request : Request) :
    Ends (sim.serve ccb request) := by
  cases request with
  | read io replies => exact ends_scsiIo (ends_readWrite sim ccb false io replies)
  | write io replies => exact ends_scsiIo (ends_readWrite _ ccb true io replies)
  | writeSame unmap nlba reply =>
      exact ends_scsiIo (ends_finished (writeSame_ne sim ccb unmap nlba reply))
  | erase12 lba nlba reply =>
      apply ends_scsiIo
      intro after status isServed
      obtain ⟨done, isDone, same⟩ := Option.map_eq_some_iff.mp isServed
      cases same
      exact erase12_ne sim ccb lba nlba reply isDone
  | sync flush => exact ends_scsiIo (ends_finished (sdmmcSync_ne sim ccb flush))
  | erase action lba nlba reply => exact ends_devctl
  | dsm opt holdsRanges ranges replies => exact ends_devctl
  | writeProtect action lba nlba replies => exact ends_devctl

theorem sdmmcFfu_ne (sim : Sim) (ccb : Ccb) (ffu : Ffu) :
    (sim.sdmmcFfu ccb ffu).2 ≠ CAM_REQ_INPROG := by
  unfold sdmmcFfu ffuDownload
  dsimp only
  split_ifs
  · exact nofun
  · exact nofun
  · exact nofun
  · exact nofun
  · exact completed_ne _
  · next failed => exact failed
  · exact nofun
  · exact nofun
  · exact completed_ne _

/-- Every handler that returns has a status other than `CAM_REQ_INPROG`. -/
theorem ends_handle (sim : Sim) (ccb : Ccb) (job : Job) : Ends (sim.handle ccb job) := by
  cases job with
  | request request => exact ends_serve sim ccb request
  | unitRdy => exact ends_scsiIo (ends_finished (unitReady_ne sim ccb))
  | inquiry evpd =>
      apply ends_scsiIo
      apply ends_finished
      unfold inquiry
      split
      · exact nofun
      · split
        · exact nofun
        · exact sdmmcError_ne sim ccb EINVAL
  | spindle cmd =>
      apply ends_scsiIo
      apply ends_finished
      unfold spindle
      dsimp only
      split
      · exact unitReady_ne sim ccb
      · split
        · exact nofun
        · exact sdmmcError_ne sim ccb EINVAL
  | rdCap => exact ends_scsiIo (ends_finished (unitReady_ne sim ccb))
  | modeSelect page wce cache =>
      apply ends_scsiIo
      apply ends_finished
      unfold modeSelect mpageCaching
      split_ifs
      · exact sdmmcError_ne sim ccb EINVAL
      · exact nofun
      · exact sdmmcError_ne sim ccb cache
      · exact sdmmcError_ne sim ccb EINVAL
  | modeSense page =>
      apply ends_scsiIo
      apply ends_finished
      unfold modeSense
      dsimp only
      split
      · exact unitReady_ne sim ccb
      · split
        · exact nofun
        · exact sdmmcError_ne sim ccb EINVAL
  | writeBuffer ffu => exact ends_scsiIo (ends_finished (sdmmcFfu_ne sim ccb ffu))
  | serviceAction action =>
      apply ends_scsiIo
      apply ends_finished
      unfold serviceAction
      split
      · exact unitReady_ne sim ccb
      · exact sense_ne_inprog ccb
  | unknownCommand => exact ends_scsiIo (ends_finished (sdmmcError_ne sim ccb EINVAL))
  | devctl =>
      rintro _ _ ⟨⟩
      exact nofun
  | drvrState state dcfg reset =>
      intro after status isHandled
      change (if ccb.permitted = true then
        some ((sim.drvrStateDevctl ccb state dcfg reset).1, some CAM_REQ_CMP)
        else some (sim, some CAM_REQ_CMP)) = some (after, some status) at isHandled
      split at isHandled
      · cases isHandled
        exact nofun
      · cases isHandled
        exact nofun
  | unknownFunction =>
      rintro _ _ ⟨⟩
      exact nofun

end Sim

end Bcm2711.Sdmmc
