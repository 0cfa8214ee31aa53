import Bcm2711.Sdmmc.Handlers
import Bcm2711.Sdmmc.WriteProtect

/-! # The status that is posted

`sdmmc_start_ccb` posts the status of `sdmmc_scsi_io` in 8 bits.  Most handlers make an error
number a CAM status with `sdmmc_error`; `sdmmc_sync` and `sdmmc_ffu` hand it on.
-/

namespace Bcm2711.Sdmmc

/-- `cam_status`, as `sdmmc_start_ccb` sets it. -/
def posted (status : Nat) : Nat := status % 2 ^ 8

/-- The status is neither `CAM_REQ_INPROG` nor `CAM_REQ_CMP` when it is posted. -/
def Refuses (status : Nat) : Prop :=
  posted status ≠ CAM_REQ_INPROG ∧ posted status ≠ CAM_REQ_CMP

/-- An error number that can be posted as it is. -/
def Telling (status : Nat) : Prop := status = EOK ∨ Refuses status

instance (status : Nat) : Decidable (Refuses status) :=
  inferInstanceAs (Decidable (_ ∧ _))

theorem Refuses.ne_eok {status : Nat} (refuses : Refuses status) : status ≠ EOK := by
  rintro rfl
  exact refuses.1 rfl

theorem completed_of_refuses {status : Nat} (refuses : Refuses status) :
    completed status = status := if_pos refuses.ne_eok

/-- A status that is honest about the request. -/
def Sound (status : Nat) (succeeded : Prop) : Prop :=
  Refuses status ∨ (status = CAM_REQ_CMP ∧ succeeded)

theorem Sound.honest {status : Nat} {succeeded : Prop} (sound : Sound status succeeded) :
    posted status ≠ CAM_REQ_INPROG ∧ (posted status = CAM_REQ_CMP → succeeded) := by
  rcases sound with refuses | ⟨rfl, holds⟩
  · exact ⟨refuses.1, fun completed => absurd completed refuses.2⟩
  · exact ⟨by decide, fun _ => holds⟩

theorem Sound.mono {status : Nat} {first second : Prop} (sound : Sound status first)
    (implies : first → second) : Sound status second :=
  sound.imp_right fun ⟨completed, holds⟩ => ⟨completed, implies holds⟩

/-- The response has no flag of an error. -/
def Clean (rsp : Nat) : Prop :=
  ∀ flag ∈ [CDS_CARD_ECC_FAILED, CDS_CARD_IS_LOCKED, CDS_WP_VIOLATION, CDS_ERROR],
    Word.test rsp flag = false

/-- The request is a SCSI command. -/
def Job.isScsi : Job → Bool
  | .request (.erase _ _ _ _) => false
  | .request (.dsm _ _ _ _) => false
  | .request (.writeProtect _ _ _ _) => false
  | .devctl => false
  | .drvrState _ _ _ => false
  | .unknownFunction => false
  | _ => true

namespace Sim

variable (sim : Sim)

/-! ## What a request needs -/

/-- Everything that `sdmmc_rw` does for a transfer succeeds. -/
structure Moved (flgs : RwFlags) (dlen : Nat) (reply : RwReply) : Prop where
  hasCmd : reply.hasCmd = true
  sync : reply.sync = EOK
  data : reply.data.status = EOK
  stopped : sim.sbc flgs dlen = false → dlen > sim.devInf.sectorSize → sim.acmd12 = false →
    reply.stop = EOK
  waited : flgs.dirOut = true → reply.wait.1 = EOK
  clean : Clean (if flgs.dirOut then reply.wait.2 else reply.rsp)
  complete : reply.cstatus = CS_CMD_CMP

/-- Every write of the loop of legacy reliable writes succeeds, to the last. -/
def LegacyMoved (unit : LogicalUnit) (flgs : RwFlags) (replies : Nat → RwReply) :
    Nat → Nat → List Nat → Nat → Sim → Prop
  | 0, _, _, _, _ => False
  | _ + 1, _, [], _, _ => True
  | turns + 1, turn, sgCount :: sgCounts, lba, sim =>
      if sgCount = 0 then LegacyMoved unit flgs replies turns turn sgCounts lba sim
      else
        sim.Moved flgs (sim.legacyCount lba sgCount) (replies turn) ∧
          LegacyMoved unit flgs replies turns (turn + 1)
            (Word.sub 32 sgCount (sim.legacyCount lba sgCount) :: sgCounts)
            (Word.add 64 lba (sim.legacyCount lba sgCount / 512))
            (sim.sdmmcRw unit flgs (sim.legacyCount lba sgCount) (replies turn)).1

/-- The partition is selected, and then everything is moved. -/
def Transferred (ccb : Ccb) (flgs : RwFlags) (io : Transfer) (replies : RwReplies) : Prop :=
  let selected := sim.sdioSetPartition (sim.part ccb.unit).config replies.sync replies.partition
  let settled := selected.1.sdmmcBkops false replies.bkops
  selected.2 = EOK ∧
    if flgs.sbcRlw && !settled.devInf.wrRelEnh then
      LegacyMoved ccb.unit flgs replies.rw replies.turns 0 io.sgCounts
        (Word.add 64 io.lba (settled.part ccb.unit).slba) settled
    else settled.Moved flgs ccb.dxferLen (replies.rw 0)

/-- `sdmmc_cache_flush` turns to the card. -/
def flushes : Bool := sim.devInf.cache && sim.cache && sim.vcacheDirty

/-- The blocks of a firmware download, as `sdmmc_ffu` counts them. -/
def ffuSized (ffu : Ffu) : Sim :=
  { sim with devInf := { sim.devInf with sectorSize := ffu.dssize } }

/-- A chunk of a firmware can be downloaded: the card is prepared before the first. -/
structure FfuReady (ccb : Ccb) (ffu : Ffu) : Prop where
  flushed : ffu.bufferId = 0 → sim.devInf.cache = true → sim.cache = true → ffu.flush = EOK
  bkops : ffu.bufferId = 0 → ffu.bkopsAuto = true → ffu.bkopsCfg = EOK
  switched : ffu.bufferId = 0 → ffu.switch = EOK
  length : ccb.dxferLen ≠ 0 ∧ ccb.dxferLen % ffu.dssize = 0
  sized : sim.devInf.sectorSize ≠ ffu.dssize → ffu.setBlockLength = EOK

/-- Everything that a SCSI request asks for was done; `reset` is what `sdio_reset` comes to after
the activation of a firmware. -/
def Succeeds (ccb : Ccb) (reset : Nat) : Job → Prop
  | .request (.read io replies) =>
      sim.transferAllowed ccb false = true ∧
        sim.Transferred ccb (sim.rwFlags false io) io replies
  | .request (.write io replies) =>
      sim.transferAllowed ccb true = true ∧
        sim.dirtied.Transferred ccb (sim.dirtied.rwFlags true io) io replies
  | .request (.writeSame unmap nlba reply) =>
      sim.ready ccb = true ∧ (sim.devInf.trim && unmap) = true ∧
        (sim.sdioErase ccb.unit (sim.part ccb.unit).config nlba reply).2 = EOK
  | .request (.erase12 lba nlba reply) =>
      sim.ready ccb = true ∧
        sim.beyond 32 ccb.unit (Word.add 32 lba (sim.part ccb.unit).slba) nlba = false ∧
        (Word.add 32 lba (sim.part ccb.unit).slba % sim.egs = 0 ∧ nlba % sim.egs = 0) ∧
        (sim.sdioErase ccb.unit (sim.part ccb.unit).config nlba reply).2 = EOK
  | .request (.sync flush) =>
      sim.present = true → sim.ready ccb = true ∧ (sim.flushes = true → flush = EOK)
  | .unitRdy => sim.ready ccb = true
  | .inquiry evpd => evpd ≠ some false
  | .spindle cmd => sim.ready ccb = true ∧ (cmd = LD_CMD_STOP ∨ cmd = LD_CMD_START)
  | .rdCap => sim.ready ccb = true
  | .modeSelect page _ cache => page = MP_CACHING ∧ sim.devInf.cache = true ∧ cache = EOK
  | .modeSense page => sim.ready ccb = true ∧ (page = MP_RW_ERR ∨ page = MP_CACHING)
  | .writeBuffer ffu =>
      ffu.supported = true ∧ ffu.disabled = false ∧ sim.ready ccb = true ∧
        ((ffu.mode = WB_MODE_ACT_MC ∧ ffu.switch = EOK ∧ reset = EOK) ∨
          (ffu.mode = WB_MODE_DNLD_MC ∧ sim.FfuReady ccb ffu ∧
            (sim.ffuSized ffu).Moved ⟨true, false⟩ ccb.dxferLen ffu.rw))
  | .serviceAction action => action = SAI_READ_CAPACITY_16 ∧ sim.ready ccb = true
  | _ => False

/-- The status that is posted for a SCSI request is not `CAM_REQ_INPROG`, and `CAM_REQ_CMP` only
for one that succeeded. -/
def Honest (ccb : Ccb) (reset : Nat) (job : Job) : Prop :=
  job.isScsi = true → ∀ after status, sim.handle ccb job = some (after, some status) →
    posted status ≠ CAM_REQ_INPROG ∧
      (posted status = CAM_REQ_CMP → sim.Succeeds ccb reset job)

/-! ## What the handlers hand on -/

/-- The error numbers that `sdmmc_rw` hands on tell. -/
def RwTelling (flgs : RwFlags) (dlen : Nat) (reply : RwReply) : Prop :=
  reply.hasCmd = true → Telling reply.sync ∧
    (reply.sync = EOK → Clean (sim.transferred flgs dlen reply).2 →
      reply.cstatus = CS_CMD_CMP → Telling (sim.transferred flgs dlen reply).1)

/-- The error numbers that a handler hands on tell; a firmware update is not disabled, and the
reset after its activation succeeds. -/
def Tells (ccb : Ccb) (reset : Nat) : Job → Prop
  | .request (.sync flush) =>
      sim.scsiAllowed ccb = true → sim.ready ccb = true → sim.flushes = true → Telling flush
  | .writeBuffer ffu =>
      sim.scsiAllowed ccb = true → ffu.supported = true →
        ffu.disabled = false ∧
          (sim.ready ccb = true → ffu.mode = WB_MODE_ACT_MC →
            Telling ffu.switch ∧ (ffu.switch = EOK → reset = EOK)) ∧
          (sim.ready ccb = true → ffu.mode = WB_MODE_DNLD_MC →
            Telling (sim.ffuPrepare ffu) ∧
              (sim.FfuReady ccb ffu →
                (sim.ffuSized ffu).RwTelling ⟨true, false⟩ ccb.dxferLen ffu.rw))
  | _ => True

/-! ## CAM statuses -/

variable {sim}

theorem refuses_sense (ccb : Ccb) : Refuses ccb.sense := by
  unfold Ccb.sense
  split
  · exact ⟨by decide, by decide⟩
  · exact ⟨by decide, by decide⟩

/-- An error is posted as one. -/
theorem refuses_sdmmcError (sim : Sim) (ccb : Ccb) (status : Nat) :
    Refuses (sim.sdmmcError ccb status).2 := by
  unfold sdmmcError
  split
  · exact refuses_sense ccb
  · split
    · exact (by decide : Refuses CAM_NO_HBA)
    · split
      · exact (by decide : Refuses CAM_CMD_TIMEOUT)
      · exact (by decide : Refuses CAM_REQ_CMP_ERR)

theorem sound_unitReady (sim : Sim) (ccb : Ccb) :
    Sound (sim.unitReady ccb).2 (sim.ready ccb = true) := by
  by_cases isReady : (sim.unitReady ccb).2 = CAM_REQ_CMP
  · exact .inr ⟨isReady, decide_eq_true isReady⟩
  · left
    unfold unitReady at isReady ⊢
    dsimp only at isReady ⊢
    split
    · exact refuses_sdmmcError _ ccb ENXIO
    · next blocks =>
        rw [if_neg blocks] at isReady
        split at isReady
        · exact absurd rfl isReady
        · next absent =>
            rw [if_neg absent]
            exact refuses_sdmmcError sim ccb ENODEV

/-! ## Transfers -/

/-- The flags and the command status leave a status as it is, or make it an error of their own. -/
theorem judged_cases (status cstatus rsp : Nat) :
    (Clean rsp ∧ cstatus = CS_CMD_CMP ∧ judged status cstatus rsp = status) ∨
      ((¬ Clean rsp ∨ cstatus ≠ CS_CMD_CMP) ∧ Refuses (judged status cstatus rsp)) := by
  unfold judged
  split
  · next found =>
      refine .inr ⟨.inl fun clean => ?_, by decide, by decide⟩
      rw [clean _ List.mem_cons_self] at found
      cases found
  · next first =>
      split
      · next found =>
          refine .inr ⟨.inl fun clean => ?_, by decide, by decide⟩
          rw [clean _ (List.mem_cons_of_mem _ List.mem_cons_self)] at found
          cases found
      · next second =>
          split
          · next found =>
              refine .inr ⟨.inl fun clean => ?_, by decide, by decide⟩
              rw [clean CDS_WP_VIOLATION (by decide)] at found
              cases found
          · next third =>
              split
              · next found =>
                  refine .inr ⟨.inl fun clean => ?_, by decide, by decide⟩
                  rw [clean CDS_ERROR (by decide)] at found
                  cases found
              · next fourth =>
                  split
                  · next failed => exact .inr ⟨.inr failed, by decide, by decide⟩
                  · next done =>
                      refine .inl ⟨?_, not_not.mp done, rfl⟩
                      intro flag member
                      simp only [List.mem_cons, List.not_mem_nil, or_false] at member
                      rcases member with rfl | rfl | rfl | rfl
                      · exact Bool.eq_false_iff.mpr first
                      · exact Bool.eq_false_iff.mpr second
                      · exact Bool.eq_false_iff.mpr third
                      · exact Bool.eq_false_iff.mpr fourth

/-- The status of `sdmmc_rw`. -/
theorem sdmmcRw_status (sim : Sim) (unit : LogicalUnit) (flgs : RwFlags) (dlen : Nat)
    (reply : RwReply) (hasCmd : reply.hasCmd = true) (sync : reply.sync = EOK)
    (attached : reply.data.status ≠ ENXIO) :
    (sim.sdmmcRw unit flgs dlen reply).2 =
      judged (sim.transferred flgs dlen reply).1 reply.cstatus
        (sim.transferred flgs dlen reply).2 := by
  unfold sdmmcRw
  rw [hasCmd, Bool.not_true, if_neg Bool.false_ne_true, if_neg (not_not.mpr sync),
    if_neg attached]
  dsimp only
  split
  · rfl
  · next done => exact (not_not.mp done).symm

/-- The commands that follow a transfer make it a success when they succeed. -/
theorem transferred_eok_iff (sim : Sim) (flgs : RwFlags) (dlen : Nat) (reply : RwReply) :
    (sim.transferred flgs dlen reply).1 = EOK ↔
      reply.data.status = EOK ∧
        (sim.sbc flgs dlen = false → dlen > sim.devInf.sectorSize → sim.acmd12 = false →
          reply.stop = EOK) ∧
        (flgs.dirOut = true → reply.wait.1 = EOK) := by
  unfold transferred
  by_cases moved : reply.data.status = EOK
  · rw [if_neg (not_not.mpr moved), and_iff_right moved]
    by_cases unstopped : (!sim.sbc flgs dlen && decide (dlen > sim.devInf.sectorSize) &&
        !sim.acmd12 && decide (reply.stop ≠ EOK)) = true
    · rw [if_pos unstopped]
      simp only [Bool.and_eq_true, Bool.not_eq_true', decide_eq_true_eq] at unstopped
      obtain ⟨⟨⟨open', several⟩, manual⟩, failed⟩ := unstopped
      refine iff_of_false (by decide : ETIMEDOUT ≠ EOK) ?_
      rintro ⟨stopped, _⟩
      exact failed (stopped open' several manual)
    · rw [if_neg unstopped]
      have stopped : sim.sbc flgs dlen = false → dlen > sim.devInf.sectorSize →
          sim.acmd12 = false → reply.stop = EOK := by
        intro open' several manual
        by_contra failed
        apply unstopped
        rw [open', manual, decide_eq_true several, decide_eq_true failed]
        rfl
      rw [and_iff_right stopped]
      cases flgs.dirOut with
      | true => exact ⟨fun waited _ => waited, fun waited => waited rfl⟩
      | false => exact iff_of_true rfl fun isOut => absurd isOut Bool.false_ne_true
  · rw [if_pos moved]
    refine iff_of_false ?_ fun all => moved all.1
    split
    · split
      · exact (by decide : ETIMEDOUT ≠ EOK)
      · exact moved
    · exact moved

/-- The response of a successful transfer is that to the wait of a write. -/
theorem transferred_rsp (sim : Sim) (flgs : RwFlags) (dlen : Nat) (reply : RwReply)
    (succeeded : (sim.transferred flgs dlen reply).1 = EOK) :
    (sim.transferred flgs dlen reply).2 = if flgs.dirOut then reply.wait.2 else reply.rsp := by
  have moved := ((sim.transferred_eok_iff flgs dlen reply).mp succeeded).1
  unfold transferred at succeeded ⊢
  rw [if_neg (not_not.mpr moved)] at succeeded ⊢
  split at succeeded
  · cases succeeded
  · next stopped =>
      rw [if_neg stopped]
      split <;> rfl

/-- `sdmmc_rw` succeeds when everything that it does succeeds. -/
theorem sdmmcRw_eok_iff (sim : Sim) (unit : LogicalUnit) (flgs : RwFlags) (dlen : Nat)
    (reply : RwReply) :
    (sim.sdmmcRw unit flgs dlen reply).2 = EOK ↔ sim.Moved flgs dlen reply := by
  by_cases hasCmd : reply.hasCmd = true
  · by_cases sync : reply.sync = EOK
    · by_cases removed : reply.data.status = ENXIO
      · refine iff_of_false ?_ fun moved => ?_
        · unfold sdmmcRw
          rw [hasCmd, Bool.not_true, if_neg Bool.false_ne_true, if_neg (not_not.mpr sync),
            if_pos removed]
          exact (by decide : ENXIO ≠ EOK)
        · exact absurd (removed.symm.trans moved.data) (by decide)
      · rw [sim.sdmmcRw_status unit flgs dlen reply hasCmd sync removed]
        rcases judged_cases (sim.transferred flgs dlen reply).1 reply.cstatus
          (sim.transferred flgs dlen reply).2 with ⟨clean, complete, same⟩ | ⟨found, refuses⟩
        · rw [same]
          constructor
          · intro succeeded
            obtain ⟨data, stopped, waited⟩ := (sim.transferred_eok_iff flgs dlen reply).mp succeeded
            rw [sim.transferred_rsp flgs dlen reply succeeded] at clean
            exact ⟨hasCmd, sync, data, stopped, waited, clean, complete⟩
          · intro moved
            exact (sim.transferred_eok_iff flgs dlen reply).mpr
              ⟨moved.data, moved.stopped, moved.waited⟩
        · refine iff_of_false refuses.ne_eok fun moved => ?_
          have succeeded := (sim.transferred_eok_iff flgs dlen reply).mpr
            ⟨moved.data, moved.stopped, moved.waited⟩
          rw [sim.transferred_rsp flgs dlen reply succeeded] at found
          rcases found with dirty | incomplete
          · exact dirty moved.clean
          · exact incomplete moved.complete
    · refine iff_of_false ?_ fun moved => sync moved.sync
      unfold sdmmcRw
      rw [hasCmd, Bool.not_true, if_neg Bool.false_ne_true, if_pos sync]
      exact sync
  · refine iff_of_false ?_ fun moved => hasCmd moved.hasCmd
    unfold sdmmcRw
    rw [Bool.eq_false_iff.mpr hasCmd, Bool.not_false, if_pos rfl]
    exact (by decide : ENOMEM ≠ EOK)

/-- The error number of a transfer that is removed tells. -/
theorem telling_transferred {flgs : RwFlags} {dlen : Nat} {reply : RwReply}
    (removed : reply.data.status = ENXIO) : Telling (sim.transferred flgs dlen reply).1 := by
  right
  unfold transferred
  rw [removed, if_pos (by decide : ENXIO ≠ EOK)]
  split
  · split
    · exact (by decide : Refuses ETIMEDOUT)
    · exact (by decide : Refuses ENXIO)
  · exact (by decide : Refuses ENXIO)

/-- The error number of `sdmmc_rw` tells where those that it hands on do. -/
theorem telling_sdmmcRw_iff (sim : Sim) (unit : LogicalUnit) (flgs : RwFlags) (dlen : Nat)
    (reply : RwReply) :
    Telling (sim.sdmmcRw unit flgs dlen reply).2 ↔ sim.RwTelling flgs dlen reply := by
  by_cases hasCmd : reply.hasCmd = true
  · rw [RwTelling, forall_prop_of_true hasCmd]
    by_cases sync : reply.sync = EOK
    · have synchronized : Telling reply.sync := .inl sync
      rw [and_iff_right synchronized, forall_prop_of_true sync]
      by_cases removed : reply.data.status = ENXIO
      · refine iff_of_true ?_ fun _ _ => telling_transferred removed
        unfold sdmmcRw
        rw [hasCmd, Bool.not_true, if_neg Bool.false_ne_true, if_neg (not_not.mpr sync),
          if_pos removed]
        exact .inr (by decide : Refuses ENXIO)
      · rw [sim.sdmmcRw_status unit flgs dlen reply hasCmd sync removed]
        rcases judged_cases (sim.transferred flgs dlen reply).1 reply.cstatus
          (sim.transferred flgs dlen reply).2 with ⟨clean, complete, same⟩ | ⟨found, refuses⟩
        · rw [same]
          exact ⟨fun telling _ _ => telling, fun telling => telling clean complete⟩
        · refine iff_of_true (.inr refuses) fun clean complete => ?_
          rcases found with dirty | incomplete
          · exact absurd clean dirty
          · exact absurd complete incomplete
    · have ran : (sim.sdmmcRw unit flgs dlen reply).2 = reply.sync := by
        unfold sdmmcRw
        rw [hasCmd, Bool.not_true, if_neg Bool.false_ne_true, if_pos sync]
      rw [ran]
      exact ⟨fun telling => ⟨telling, fun synchronized => absurd synchronized sync⟩,
        fun telling => telling.1⟩
  · refine iff_of_true ?_ fun isCmd => absurd isCmd hasCmd
    unfold sdmmcRw
    rw [Bool.eq_false_iff.mpr hasCmd, Bool.not_false, if_pos rfl]
    exact .inr (by decide : Refuses ENOMEM)

/-- The loop of legacy reliable writes succeeds when every write does. -/
theorem legacyWrite_eok_iff (sim : Sim) (unit : LogicalUnit) (flgs : RwFlags)
    (replies : Nat → RwReply) (turns turn : Nat) (sgCounts : List Nat) (lba : Nat) :
    (legacyWrite unit flgs replies turns turn sgCounts lba sim).2 = some EOK ↔
      LegacyMoved unit flgs replies turns turn sgCounts lba sim := by
  induction turns generalizing sim turn sgCounts lba with
  | zero => exact iff_of_false nofun id
  | succ turns ih =>
      cases sgCounts with
      | nil => exact iff_of_true rfl trivial
      | cons sgCount sgCounts =>
          rw [legacyWrite, LegacyMoved]
          by_cases used : sgCount = 0
          · rw [if_pos used, if_pos used]
            exact ih sim turn sgCounts lba
          · rw [if_neg used, if_neg used]
            dsimp only
            by_cases moved : (sim.sdmmcRw unit flgs (sim.legacyCount lba sgCount)
                (replies turn)).2 = EOK
            · rw [if_neg (not_not.mpr moved),
                and_iff_right ((sim.sdmmcRw_eok_iff unit flgs _ _).mp moved)]
              exact ih _ (turn + 1) _ _
            · rw [if_pos moved]
              refine iff_of_false (fun same => moved (Option.some.inj same)) ?_
              rintro ⟨all, _⟩
              exact moved ((sim.sdmmcRw_eok_iff unit flgs _ _).mpr all)

/-- The end of a transfer is sound. -/
theorem sound_finish (ccb : Ccb) (done : Sim × Option Nat) {after : Sim} {status : Nat}
    (ran : finish ccb done = (after, some status)) : Sound status (done.2 = some EOK) := by
  obtain ⟨sim, result⟩ := done
  cases result with
  | none => cases ran
  | some result =>
      unfold finish at ran
      dsimp only at ran
      split at ran
      · cases ran
        have refuses := refuses_sdmmcError sim ccb result
        rw [completed_of_refuses refuses]
        exact .inl refuses
      · next succeeded =>
          cases ran
          exact .inr ⟨rfl, congrArg some (not_not.mp succeeded)⟩

theorem sound_selectAndTransfer (sim : Sim) (ccb : Ccb) (flgs : RwFlags) (io : Transfer)
    (replies : RwReplies) {after : Sim} {status : Nat}
    (ran : sim.selectAndTransfer ccb flgs io replies = (after, some status)) :
    Sound status (sim.Transferred ccb flgs io replies) := by
  unfold selectAndTransfer at ran
  dsimp only at ran
  split at ran
  · cases ran
    exact .inl (refuses_sdmmcError _ ccb ETIMEDOUT)
  · next selected =>
      unfold transfer at ran
      dsimp only at ran
      unfold Transferred
      dsimp only
      rw [and_iff_right (not_not.mp selected)]
      split at ran
      · next legacy =>
          rw [if_pos legacy]
          exact (sound_finish ccb _ ran).mono (legacyWrite_eok_iff _ _ _ _ _ _ _ _).mp
      · next plain =>
          rw [if_neg plain]
          apply (sound_finish ccb _ ran).mono
          intro same
          exact (sdmmcRw_eok_iff _ _ _ _ _).mp (Option.some.inj same)

/-- A read or a write is sound. -/
theorem sound_readWrite (sim : Sim) (ccb : Ccb) (dirOut : Bool) (io : Transfer)
    (replies : RwReplies) {after : Sim} {status : Nat}
    (ran : sim.readWrite ccb dirOut io replies = (after, some status)) :
    Sound status (sim.transferAllowed ccb dirOut = true ∧
      sim.Transferred ccb (sim.rwFlags dirOut io) io replies) := by
  unfold readWrite at ran
  dsimp only at ran
  split at ran
  · next unready =>
      cases ran
      rcases sound_unitReady sim ccb with refuses | ⟨isReady, _⟩
      · exact .inl refuses
      · exact absurd isReady unready
  · next isReady =>
      split at ran
      · cases ran
        exact .inl (refuses_sdmmcError sim ccb EACCES)
      · next unlocked =>
          split at ran
          · cases ran
            exact .inl (refuses_sdmmcError sim ccb EROFS)
          · next writable =>
              split at ran
              · cases ran
                exact .inl (by decide)
              · next notRpmb =>
                  apply (sim.sound_selectAndTransfer ccb _ io replies ran).mono
                  intro transferred
                  refine ⟨?_, transferred⟩
                  unfold transferAllowed ready
                  rw [decide_eq_true (not_not.mp isReady), Bool.eq_false_iff.mpr unlocked,
                    Bool.eq_false_iff.mpr writable, decide_eq_true notRpmb]
                  rfl

/-! ## Erases and parameters -/

/-- A handler that answers for a unit that is not ready, and goes on with one that is. -/
theorem sound_ifReady (sim : Sim) (ccb : Ccb) {rest : Sim × Nat} {succeeded : Prop}
    (isSound : sim.ready ccb = true → Sound rest.2 succeeded) :
    Sound (if (sim.unitReady ccb).2 ≠ CAM_REQ_CMP then sim.unitReady ccb else rest).2
      succeeded := by
  split
  · next unready =>
      exact .inl ((sound_unitReady sim ccb).resolve_right fun ready => unready ready.1)
  · next isReady => exact isSound (decide_eq_true (not_not.mp isReady))

/-- The end of an erase is sound. -/
theorem sound_erased (ccb : Ccb) (done : Sim × Nat) : Sound (erased ccb done).2 (done.2 = EOK) := by
  unfold erased
  split
  · exact .inl (refuses_sdmmcError done.1 ccb done.2)
  · next succeeded => exact .inr ⟨rfl, not_not.mp succeeded⟩

theorem sound_writeSame (sim : Sim) (ccb : Ccb) (unmap : Bool) (nlba : Nat) (reply : EraseReply)
    (reset : Nat) :
    Sound (sim.writeSame ccb unmap nlba reply).2
      (sim.Succeeds ccb reset (.request (.writeSame unmap nlba reply))) := by
  unfold writeSame
  dsimp only
  apply sound_ifReady
  intro isReady
  split
  · exact .inl (refuses_sdmmcError sim ccb EINVAL)
  · next supported =>
      apply (sound_erased ccb _).mono
      intro succeeded
      refine ⟨isReady, ?_, succeeded⟩
      rw [← Bool.not_and, Bool.not_eq_true', Bool.not_eq_false] at supported
      exact supported

theorem sound_erase12 (sim : Sim) (ccb : Ccb) (lba nlba : Nat) (reply : EraseReply) (reset : Nat)
    {done : Sim × Nat} (ran : sim.erase12 ccb lba nlba reply = some done) :
    Sound done.2 (sim.Succeeds ccb reset (.request (.erase12 lba nlba reply))) := by
  have start := sound_unitReady sim ccb
  unfold erase12 at ran
  dsimp only at ran
  split at ran
  · next unready =>
      cases ran
      exact .inl (start.resolve_right fun ready => unready ready.1)
  · next isReady =>
      split at ran
      · cases ran
        exact .inl (refuses_sdmmcError sim ccb EINVAL)
      · next inside =>
          split at ran
          · cases ran
          · split at ran
            · cases ran
              exact .inl (refuses_sdmmcError sim ccb EINVAL)
            · next aligned =>
                cases ran
                apply (sound_erased ccb _).mono
                intro succeeded
                refine ⟨decide_eq_true (not_not.mp isReady), Bool.eq_false_iff.mpr inside, ?_,
                  succeeded⟩
                simpa using aligned

theorem sound_spindle (sim : Sim) (ccb : Ccb) (cmd reset : Nat) :
    Sound (sim.spindle ccb cmd).2 (sim.Succeeds ccb reset (.spindle cmd)) := by
  unfold spindle
  dsimp only
  apply sound_ifReady
  intro isReady
  split
  · next known =>
      rw [Bool.or_eq_true, decide_eq_true_eq, decide_eq_true_eq] at known
      exact .inr ⟨rfl, isReady, known⟩
  · exact .inl (refuses_sdmmcError sim ccb EINVAL)

theorem sound_modeSelect (sim : Sim) (ccb : Ccb) (page : Nat) (wce : Bool) (cache reset : Nat) :
    Sound (sim.modeSelect ccb page wce cache).2
      (sim.Succeeds ccb reset (.modeSelect page wce cache)) := by
  unfold modeSelect mpageCaching
  split
  · next isCaching =>
      split
      · exact .inl (refuses_sdmmcError sim ccb EINVAL)
      · next hasCache =>
          split
          · next succeeded =>
              rw [Bool.not_eq_true', Bool.not_eq_false] at hasCache
              exact .inr ⟨rfl, isCaching, hasCache, succeeded⟩
          · exact .inl (refuses_sdmmcError sim ccb cache)
  · exact .inl (refuses_sdmmcError sim ccb EINVAL)

theorem sound_modeSense (sim : Sim) (ccb : Ccb) (page reset : Nat) :
    Sound (sim.modeSense ccb page).2 (sim.Succeeds ccb reset (.modeSense page)) := by
  unfold modeSense
  dsimp only
  apply sound_ifReady
  intro isReady
  split
  · next known =>
      rw [Bool.or_eq_true, decide_eq_true_eq, decide_eq_true_eq] at known
      exact .inr ⟨rfl, isReady, known⟩
  · exact .inl (refuses_sdmmcError sim ccb EINVAL)

theorem sound_inquiry (sim : Sim) (ccb : Ccb) (evpd : Option Bool) (reset : Nat) :
    Sound (sim.inquiry ccb evpd).2 (sim.Succeeds ccb reset (.inquiry evpd)) := by
  rcases evpd with _ | isKnown
  · exact .inr ⟨rfl, nofun⟩
  · cases isKnown with
    | false => exact .inl (refuses_sdmmcError sim ccb EINVAL)
    | true => exact .inr ⟨rfl, nofun⟩

theorem sound_serviceAction (sim : Sim) (ccb : Ccb) (action reset : Nat) :
    Sound (sim.serviceAction ccb action).2 (sim.Succeeds ccb reset (.serviceAction action)) := by
  unfold serviceAction
  split
  · next known => exact (sound_unitReady sim ccb).mono fun isReady => ⟨known, isReady⟩
  · exact .inl (refuses_sense ccb)

/-! ## The requests -/

/-- The handler of a request that the controller can do decides its status. -/
theorem scsiIo_of_allowed {ccb : Ccb} (isAllowed : sim.scsiAllowed ccb = true)
    (done : Option (Sim × Option Nat)) : sim.scsiIo ccb done = done := by
  unfold scsiAllowed at isAllowed
  rw [Bool.not_eq_true'] at isAllowed
  unfold scsiIo
  rw [isAllowed, if_neg Bool.false_ne_true]

/-- A request is honest when its handler is, on a controller that can do it. -/
theorem honest_iff_done {ccb : Ccb} {reset : Nat} (job : Job) (isScsi : job.isScsi = true)
    {done : Option (Sim × Option Nat)} (handled : sim.handle ccb job = sim.scsiIo ccb done) :
    sim.Honest ccb reset job ↔ (sim.scsiAllowed ccb = true →
      ∀ after status, done = some (after, some status) →
        posted status ≠ CAM_REQ_INPROG ∧
          (posted status = CAM_REQ_CMP → sim.Succeeds ccb reset job)) := by
  rw [Honest, forall_prop_of_true isScsi, handled]
  constructor
  · intro honest isAllowed after status ran
    apply honest after status
    rw [scsiIo_of_allowed isAllowed, ran]
  · intro honest after status ran
    by_cases isAllowed : sim.scsiAllowed ccb = true
    · rw [scsiIo_of_allowed isAllowed] at ran
      exact honest isAllowed after status ran
    · unfold scsiAllowed at isAllowed
      rw [Bool.not_eq_true', Bool.not_eq_false] at isAllowed
      unfold scsiIo at ran
      rw [if_pos isAllowed] at ran
      cases ran
      exact ⟨by decide, fun completed => absurd completed (by decide)⟩

/-- So it is where the status is sound. -/
theorem honest_of_sound {ccb : Ccb} {reset : Nat} {job : Job} (isScsi : job.isScsi = true)
    {done : Sim × Nat} (handled : sim.handle ccb job = sim.scsiIo ccb (some (finished done)))
    (sound : Sound done.2 (sim.Succeeds ccb reset job)) : sim.Honest ccb reset job := by
  apply (honest_iff_done _ isScsi handled).mpr
  rintro _ _ _ ⟨⟩
  exact sound.honest

/-- A flush hands its error number on. -/
theorem sdmmcSync_of_ready (sim : Sim) (ccb : Ccb) (flush : Nat) (isReady : sim.ready ccb = true)
    (flushing : sim.flushes = true) : (sim.sdmmcSync ccb flush).2 = completed flush := by
  have present : sim.present = true := by
    rw [ready_eq, Bool.and_eq_true] at isReady
    exact isReady.1
  unfold flushes at flushing
  unfold sdmmcSync cacheFlush
  rw [present, Bool.not_true, if_neg Bool.false_ne_true,
    if_neg (not_not.mpr (of_decide_eq_true isReady)), if_pos flushing]
  dsimp only
  split
  · next succeeded => rw [succeeded]
  · rfl

/-- A flush is honest when its error number tells. -/
theorem honest_sync_iff (sim : Sim) (ccb : Ccb) (reset flush : Nat) :
    sim.Honest ccb reset (.request (.sync flush)) ↔
      sim.Tells ccb reset (.request (.sync flush)) := by
  rw [honest_iff_done (.request (.sync flush)) rfl rfl, Tells]
  constructor
  · intro honest isAllowed isReady flushing
    by_cases succeeded : flush = EOK
    · exact .inl succeeded
    · right
      have handed := sim.sdmmcSync_of_ready ccb flush isReady flushing
      obtain ⟨running, completion⟩ := honest isAllowed _ _ rfl
      rw [handed, completed, if_pos succeeded] at running completion
      refine ⟨running, fun done => succeeded ?_⟩
      have present : sim.present = true := by
        rw [ready_eq, Bool.and_eq_true] at isReady
        exact isReady.1
      exact (completion done present).2 flushing
  · intro tells isAllowed after status ran
    cases ran
    apply Sound.honest
    by_cases present : sim.present = true
    · by_cases isReady : sim.ready ccb = true
      · by_cases flushing : sim.flushes = true
        · rw [sim.sdmmcSync_of_ready ccb flush isReady flushing]
          rcases tells isAllowed isReady flushing with succeeded | refuses
          · rw [succeeded]
            exact .inr ⟨rfl, fun _ => ⟨isReady, fun _ => rfl⟩⟩
          · rw [completed_of_refuses refuses]
            exact .inl refuses
        · right
          refine ⟨?_, fun _ => ⟨isReady, fun flushes => absurd flushes flushing⟩⟩
          unfold sdmmcSync cacheFlush
          unfold flushes at flushing
          rw [present, Bool.not_true, if_neg Bool.false_ne_true,
            if_neg (not_not.mpr (of_decide_eq_true isReady)), if_neg flushing]
          rfl
      · left
        have unready : (sim.unitReady ccb).2 ≠ CAM_REQ_CMP := fun same =>
          isReady (decide_eq_true same)
        unfold sdmmcSync
        rw [present, Bool.not_true, if_neg Bool.false_ne_true, if_pos unready]
        exact (sound_unitReady sim ccb).resolve_right fun ready => unready ready.1
    · right
      refine ⟨?_, fun isPresent => absurd isPresent present⟩
      unfold sdmmcSync
      rw [Bool.eq_false_iff.mpr present, Bool.not_false, if_pos rfl]

/-! ## Firmware updates -/

/-- The preparation succeeds when all of it does. -/
theorem ffuPrepare_eok_iff (sim : Sim) (ffu : Ffu) :
    sim.ffuPrepare ffu = EOK ↔
      (ffu.bufferId = 0 → sim.devInf.cache = true → sim.cache = true → ffu.flush = EOK) ∧
        (ffu.bufferId = 0 → ffu.bkopsAuto = true → ffu.bkopsCfg = EOK) ∧
        (ffu.bufferId = 0 → ffu.switch = EOK) := by
  unfold ffuPrepare
  by_cases first : ffu.bufferId = 0
  · rw [if_neg (not_not.mpr first), forall_prop_of_true first, forall_prop_of_true first,
      forall_prop_of_true first]
    by_cases unflushed : (sim.devInf.cache && sim.cache && decide (ffu.flush ≠ EOK)) = true
    · rw [if_pos unflushed]
      simp only [Bool.and_eq_true, decide_eq_true_eq] at unflushed
      exact iff_of_false unflushed.2 fun all => unflushed.2 (all.1 unflushed.1.1 unflushed.1.2)
    · rw [if_neg unflushed]
      have flushed : sim.devInf.cache = true → sim.cache = true → ffu.flush = EOK := by
        intro hasCache isOn
        by_contra failed
        exact unflushed (by rw [hasCache, isOn, decide_eq_true failed]; rfl)
      rw [and_iff_right flushed]
      by_cases running : (ffu.bkopsAuto && decide (ffu.bkopsCfg ≠ EOK)) = true
      · rw [if_pos running]
        simp only [Bool.and_eq_true, decide_eq_true_eq] at running
        exact iff_of_false running.2 fun all => running.2 (all.1 running.1)
      · rw [if_neg running]
        have stopped : ffu.bkopsAuto = true → ffu.bkopsCfg = EOK := by
          intro isAuto
          by_contra failed
          exact running (by rw [isAuto, decide_eq_true failed]; rfl)
        rw [and_iff_right stopped]
  · rw [if_pos first]
    exact iff_of_true rfl ⟨fun zero => absurd zero first, fun zero => absurd zero first,
      fun zero => absurd zero first⟩

/-- The download of a chunk hands the status of `sdmmc_rw` on. -/
theorem ffuDownload_of_ready {ccb : Ccb} {ffu : Ffu} (isReady : sim.FfuReady ccb ffu) :
    (sim.ffuDownload ccb ffu).2 =
      completed ((sim.ffuSized ffu).sdmmcRw ccb.unit ⟨true, false⟩ ccb.dxferLen ffu.rw).2 := by
  have whole : (decide (ccb.dxferLen = 0) || decide (ccb.dxferLen % ffu.dssize ≠ 0)) = false := by
    rw [decide_eq_false isReady.length.1, decide_eq_false (not_not.mpr isReady.length.2)]
    rfl
  have sized : ¬ (sim.devInf.sectorSize ≠ ffu.dssize && ffu.setBlockLength ≠ EOK) = true := by
    intro failed
    rw [Bool.and_eq_true, decide_eq_true_eq, decide_eq_true_eq] at failed
    exact failed.2 (isReady.sized failed.1)
  unfold ffuDownload
  rw [whole, if_neg Bool.false_ne_true, if_neg sized]
  rfl

/-- A chunk that cannot be downloaded is refused. -/
theorem ffuDownload_of_unready {ccb : Ccb} {ffu : Ffu} (prepared : sim.ffuPrepare ffu = EOK)
    (unready : ¬ sim.FfuReady ccb ffu) : Refuses (sim.ffuDownload ccb ffu).2 := by
  unfold ffuDownload
  split
  · exact (by decide : Refuses EINVAL)
  · next whole =>
      split
      · exact (by decide : Refuses EIO)
      · next sized =>
          obtain ⟨flushed, bkops, switched⟩ := (sim.ffuPrepare_eok_iff ffu).mp prepared
          refine absurd ⟨flushed, bkops, switched, ?_, ?_⟩ unready
          · simpa using whole
          · simpa using sized

/-- An update that gets as far as the mode: the status of each mode. -/
theorem sdmmcFfu_of_ready (sim : Sim) (ccb : Ccb) (ffu : Ffu) (supported : ffu.supported = true)
    (enabled : ffu.disabled = false) (isReady : sim.ready ccb = true) :
    (ffu.mode = WB_MODE_ACT_MC → (sim.sdmmcFfu ccb ffu).2 = completed ffu.switch) ∧
      (ffu.mode = WB_MODE_DNLD_MC → (sim.sdmmcFfu ccb ffu).2 =
        if sim.ffuPrepare ffu ≠ EOK then sim.ffuPrepare ffu else (sim.ffuDownload ccb ffu).2) := by
  unfold sdmmcFfu
  rw [supported, Bool.not_true, if_neg Bool.false_ne_true, enabled, if_neg Bool.false_ne_true]
  have known (mode : ffu.mode = WB_MODE_DNLD_MC ∨ ffu.mode = WB_MODE_ACT_MC) :
      ¬ (ffu.mode ≠ WB_MODE_DNLD_MC && ffu.mode ≠ WB_MODE_ACT_MC) = true := by
    rw [Bool.and_eq_true, decide_eq_true_eq, decide_eq_true_eq, not_and_or, not_not, not_not]
    exact mode
  constructor
  · intro activation
    rw [if_neg (known (.inr activation)), if_neg (not_not.mpr (of_decide_eq_true isReady)),
      if_pos activation]
  · intro download
    have other : ffu.mode ≠ WB_MODE_ACT_MC := by
      rw [download]
      decide
    rw [if_neg (known (.inl download)), if_neg (not_not.mpr (of_decide_eq_true isReady)),
      if_neg other]
    split <;> rfl

/-- A disabled update is posted as completed. -/
theorem sdmmcFfu_disabled {ccb : Ccb} {ffu : Ffu} (supported : ffu.supported = true)
    (disabled : ffu.disabled = true) : (sim.sdmmcFfu ccb ffu).2 = EPERM := by
  unfold sdmmcFfu
  rw [supported, Bool.not_true, if_neg Bool.false_ne_true, disabled, if_pos rfl]

/-- The switch of an honest activation tells, and its reset succeeds. -/
theorem tells_of_activation {ccb : Ccb} {reset : Nat} {ffu : Ffu}
    (handed : (sim.sdmmcFfu ccb ffu).2 = completed ffu.switch)
    (activation : ffu.mode = WB_MODE_ACT_MC)
    (running : posted (sim.sdmmcFfu ccb ffu).2 ≠ CAM_REQ_INPROG)
    (completion : posted (sim.sdmmcFfu ccb ffu).2 = CAM_REQ_CMP →
      sim.Succeeds ccb reset (.writeBuffer ffu)) :
    Telling ffu.switch ∧ (ffu.switch = EOK → reset = EOK) := by
  have other : ffu.mode ≠ WB_MODE_DNLD_MC := by
    rw [activation]
    decide
  rw [handed] at running completion
  have activated (done : posted (completed ffu.switch) = CAM_REQ_CMP) :
      ffu.switch = EOK ∧ reset = EOK := by
    rcases (completion done).2.2.2 with ⟨_, all⟩ | ⟨download, _⟩
    · exact all
    · exact absurd download other
  by_cases succeeded : ffu.switch = EOK
  · refine ⟨.inl succeeded, fun _ => ?_⟩
    rw [succeeded] at activated
    exact (activated rfl).2
  · rw [completed, if_pos succeeded] at running activated
    exact ⟨.inr ⟨running, fun done => succeeded (activated done).1⟩,
      fun same => absurd same succeeded⟩

/-- The preparation and the transfer of an honest download tell. -/
theorem tells_of_download {ccb : Ccb} {reset : Nat} {ffu : Ffu}
    (handed : (sim.sdmmcFfu ccb ffu).2 = if sim.ffuPrepare ffu ≠ EOK then sim.ffuPrepare ffu
      else (sim.ffuDownload ccb ffu).2)
    (download : ffu.mode = WB_MODE_DNLD_MC)
    (running : posted (sim.sdmmcFfu ccb ffu).2 ≠ CAM_REQ_INPROG)
    (completion : posted (sim.sdmmcFfu ccb ffu).2 = CAM_REQ_CMP →
      sim.Succeeds ccb reset (.writeBuffer ffu)) :
    Telling (sim.ffuPrepare ffu) ∧ (sim.FfuReady ccb ffu →
      (sim.ffuSized ffu).RwTelling ⟨true, false⟩ ccb.dxferLen ffu.rw) := by
  have other : ffu.mode ≠ WB_MODE_ACT_MC := by
    rw [download]
    decide
  rw [handed] at running completion
  have downloaded (done : posted (if sim.ffuPrepare ffu ≠ EOK then sim.ffuPrepare ffu
      else (sim.ffuDownload ccb ffu).2) = CAM_REQ_CMP) :
      sim.FfuReady ccb ffu ∧ (sim.ffuSized ffu).Moved ⟨true, false⟩ ccb.dxferLen ffu.rw := by
    rcases (completion done).2.2.2 with ⟨activation, _⟩ | ⟨_, all⟩
    · exact absurd activation other
    · exact all
  have preparation (chunk : sim.FfuReady ccb ffu) : sim.ffuPrepare ffu = EOK :=
    (sim.ffuPrepare_eok_iff ffu).mpr ⟨chunk.flushed, chunk.bkops, chunk.switched⟩
  by_cases prepared : sim.ffuPrepare ffu = EOK
  · refine ⟨.inl prepared, fun chunk => ?_⟩
    rw [if_neg (not_not.mpr prepared), ffuDownload_of_ready chunk] at running downloaded
    rw [← telling_sdmmcRw_iff _ ccb.unit]
    by_cases moved : ((sim.ffuSized ffu).sdmmcRw ccb.unit ⟨true, false⟩ ccb.dxferLen
        ffu.rw).2 = EOK
    · exact .inl moved
    · rw [completed, if_pos moved] at running downloaded
      exact .inr ⟨running, fun done =>
        moved ((sdmmcRw_eok_iff _ _ _ _ _).mpr (downloaded done).2)⟩
  · rw [if_pos prepared] at running downloaded
    exact ⟨.inr ⟨running, fun done => prepared (preparation (downloaded done).1)⟩,
      fun chunk => absurd (preparation chunk) prepared⟩

/-- An update that is not disabled and whose error numbers tell is sound. -/
theorem sound_sdmmcFfu (sim : Sim) (ccb : Ccb) (reset : Nat) (ffu : Ffu)
    (tells : sim.Tells ccb reset (.writeBuffer ffu)) (isAllowed : sim.scsiAllowed ccb = true) :
    Sound (sim.sdmmcFfu ccb ffu).2 (sim.Succeeds ccb reset (.writeBuffer ffu)) := by
  by_cases supported : ffu.supported = true
  · obtain ⟨enabled, activates, downloads⟩ := tells isAllowed supported
    by_cases isReady : sim.ready ccb = true
    · obtain ⟨activation, download⟩ :=
        sim.sdmmcFfu_of_ready ccb ffu supported enabled isReady
      by_cases isActivation : ffu.mode = WB_MODE_ACT_MC
      · obtain ⟨telling, resets⟩ := activates isReady isActivation
        rw [activation isActivation]
        rcases telling with succeeded | refuses
        · rw [succeeded]
          exact .inr ⟨rfl, supported, enabled, isReady,
            .inl ⟨isActivation, succeeded, resets succeeded⟩⟩
        · rw [completed_of_refuses refuses]
          exact .inl refuses
      · by_cases isDownload : ffu.mode = WB_MODE_DNLD_MC
        · obtain ⟨telling, transfers⟩ := downloads isReady isDownload
          rw [download isDownload]
          by_cases prepared : sim.ffuPrepare ffu = EOK
          · rw [if_neg (not_not.mpr prepared)]
            by_cases chunk : sim.FfuReady ccb ffu
            · rw [ffuDownload_of_ready chunk]
              have handedOn := (telling_sdmmcRw_iff _ ccb.unit _ _ _).mpr (transfers chunk)
              rcases handedOn with succeeded | refuses
              · rw [succeeded]
                exact .inr ⟨rfl, supported, enabled, isReady,
                  .inr ⟨isDownload, chunk, (sdmmcRw_eok_iff _ _ _ _ _).mp succeeded⟩⟩
              · rw [completed_of_refuses refuses]
                exact .inl refuses
            · exact .inl (ffuDownload_of_unready prepared chunk)
          · rw [if_pos prepared]
            exact .inl (telling.resolve_left prepared)
        · left
          unfold sdmmcFfu
          rw [supported, Bool.not_true, if_neg Bool.false_ne_true, enabled,
            if_neg Bool.false_ne_true, if_pos (by simp [isDownload, isActivation])]
          exact (by decide : Refuses EINVAL)
    · left
      have unready : (sim.unitReady ccb).2 ≠ CAM_REQ_CMP := fun same =>
        isReady (decide_eq_true same)
      unfold sdmmcFfu
      rw [supported, Bool.not_true, if_neg Bool.false_ne_true, enabled,
        if_neg Bool.false_ne_true]
      split
      · exact (by decide : Refuses EINVAL)
      · exact (by decide : Refuses EBUSY)
  · left
    unfold sdmmcFfu
    rw [Bool.eq_false_iff.mpr supported, Bool.not_false, if_pos rfl]
    exact (by decide : Refuses ENOTSUP)

/-- A firmware update is honest when it is not disabled and its error numbers tell. -/
theorem honest_writeBuffer_iff (sim : Sim) (ccb : Ccb) (reset : Nat) (ffu : Ffu) :
    sim.Honest ccb reset (.writeBuffer ffu) ↔ sim.Tells ccb reset (.writeBuffer ffu) := by
  rw [honest_iff_done (.writeBuffer ffu) rfl rfl]
  constructor
  · intro honest isAllowed supported
    obtain ⟨running, completion⟩ := honest isAllowed _ _ rfl
    have enabled : ffu.disabled = false := by
      by_contra disabled
      rw [Bool.not_eq_false] at disabled
      have refused : posted (sim.sdmmcFfu ccb ffu).2 = CAM_REQ_CMP := by
        rw [sdmmcFfu_disabled supported disabled]
        rfl
      exact Bool.false_ne_true ((completion refused).2.1.symm.trans disabled)
    refine ⟨enabled, fun isReady activation => ?_, fun isReady download => ?_⟩
    · exact tells_of_activation ((sim.sdmmcFfu_of_ready ccb ffu supported enabled isReady).1
        activation) activation running completion
    · exact tells_of_download ((sim.sdmmcFfu_of_ready ccb ffu supported enabled isReady).2
        download) download running completion
  · rintro tells isAllowed _ _ ⟨⟩
    exact (sim.sound_sdmmcFfu ccb reset ffu tells isAllowed).honest

/-- The status that is posted for a request is honest exactly when the error numbers that are
handed on tell. -/
theorem honest_iff (sim : Sim) (ccb : Ccb) (reset : Nat) (job : Job) :
    sim.Honest ccb reset job ↔ sim.Tells ccb reset job := by
  cases job with
  | request request =>
      cases request with
      | read io replies =>
          refine iff_of_true ?_ trivial
          apply (honest_iff_done _ rfl rfl).mpr
          intro _ after status ran
          exact (sim.sound_readWrite ccb false io replies (Option.some.inj ran)).honest
      | write io replies =>
          refine iff_of_true ?_ trivial
          apply (honest_iff_done _ rfl rfl).mpr
          intro _ after status ran
          have sound := sim.dirtied.sound_readWrite ccb true io replies (Option.some.inj ran)
          rw [transferAllowed_dirtied] at sound
          exact sound.honest
      | writeSame unmap nlba reply =>
          exact iff_of_true (honest_of_sound rfl rfl (sim.sound_writeSame ccb _ _ _ reset)) trivial
      | erase12 lba nlba reply =>
          refine iff_of_true ?_ trivial
          apply (honest_iff_done _ rfl rfl).mpr
          intro _ after status ran
          obtain ⟨done, erased, same⟩ := Option.map_eq_some_iff.mp ran
          cases same
          exact (sim.sound_erase12 ccb lba nlba reply reset erased).honest
      | sync flush => exact sim.honest_sync_iff ccb reset flush
      | erase action lba nlba reply => exact iff_of_true (fun isScsi => nomatch isScsi) trivial
      | dsm opt holds ranges replies => exact iff_of_true (fun isScsi => nomatch isScsi) trivial
      | writeProtect action lba nlba replies =>
          exact iff_of_true (fun isScsi => nomatch isScsi) trivial
  | unitRdy => exact iff_of_true (honest_of_sound rfl rfl (sound_unitReady sim ccb)) trivial
  | inquiry evpd =>
      exact iff_of_true (honest_of_sound rfl rfl (sim.sound_inquiry ccb evpd reset)) trivial
  | spindle cmd =>
      exact iff_of_true (honest_of_sound rfl rfl (sim.sound_spindle ccb cmd reset)) trivial
  | rdCap => exact iff_of_true (honest_of_sound rfl rfl (sound_unitReady sim ccb)) trivial
  | modeSelect page wce cache =>
      exact iff_of_true
        (honest_of_sound rfl rfl (sim.sound_modeSelect ccb page wce cache reset)) trivial
  | modeSense page =>
      exact iff_of_true (honest_of_sound rfl rfl (sim.sound_modeSense ccb page reset)) trivial
  | writeBuffer ffu => exact sim.honest_writeBuffer_iff ccb reset ffu
  | serviceAction action =>
      exact iff_of_true (honest_of_sound rfl rfl (sim.sound_serviceAction ccb action reset)) trivial
  | unknownCommand =>
      refine iff_of_true (honest_of_sound rfl rfl ?_) trivial
      exact .inl (refuses_sdmmcError sim ccb EINVAL)
  | devctl => exact iff_of_true (fun isScsi => nomatch isScsi) trivial
  | drvrState state dcfg reply => exact iff_of_true (fun isScsi => nomatch isScsi) trivial
  | unknownFunction => exact iff_of_true (fun isScsi => nomatch isScsi) trivial

/-- An eMMC card with the bit that disables firmware updates. -/
def disabledFfu : Ffu where
  supported := true
  disabled := true
  mode := WB_MODE_DNLD_MC
  bufferId := 0
  switch := EOK
  flush := EOK
  bkopsCfg := EOK
  bkopsAuto := false
  dssize := 512
  blksz := 512
  setBlockLength := EOK
  rw := plainTransfer.rw 0
  reset := ⟨EOK, false, EOK⟩

/-- Its update is refused with `EPERM`, and completed. -/
theorem disabledFfu_completed :
    ¬ ∀ (sim : Sim) ccb reset job, sim.Honest ccb reset job := by
  intro honest
  have sound := honest { protectedSim with isMmc := true } { protectedCcb with dxferLen := 512 }
    EOK (.writeBuffer disabledFfu) rfl _ EPERM rfl
  exact Bool.false_ne_true (sound.2 rfl).2.1.symm

end Sim

end Bcm2711.Sdmmc
