import Bcm2711.Sdmmc.Requests

/-! # The checks of the handlers

A handler first looks at the unit, the partition and the card's capabilities.  A request
that fails a check leaves the card alone; one that passes them all is carried out by the
core of its handler.
-/

namespace Bcm2711.Sdmmc

namespace Sim

/-- The unit is there for the request. -/
def ready (sim : Sim) (ccb : Ccb) : Bool := (sim.unitReady ccb).2 = CAM_REQ_CMP

/-- `sdmmc_scsi_io` hands the request to its handler. -/
def scsiAllowed (sim : Sim) (ccb : Ccb) : Bool :=
  !(ccb.dxferLen ≠ 0 && ccb.dataPhys && !sim.dma)

/-- `sdmmc_read_write` goes on to select the partition. -/
def transferAllowed (sim : Sim) (ccb : Ccb) (dirOut : Bool) : Bool :=
  sim.ready ccb && !sim.devInf.locked &&
    !(dirOut && Word.test (sim.part ccb.unit).pflags SDMMC_PFLAG_WP) &&
      (sim.part ccb.unit).config &&& MMC_PART_MSK ≠ MMC_PART_RPMB

/-- The card supports the option of a data set request. -/
def dsmAllowed (sim : Sim) : DsmOpt → Bool
  | .trim => sim.devInf.trim
  | .discard => sim.devInf.discard
  | .other => false

/-- The first range of a data set request lies inside the partition. -/
def firstInside (sim : Sim) (unit : LogicalUnit) : List (Nat × Nat) → Bool
  | [] => false
  | (lba, nlba) :: _ => !sim.beyond 64 unit (Word.add 64 (sim.part unit).slba lba) nlba

/-- The request passes the checks of its handler, which then turns to the card. -/
def passes (sim : Sim) (ccb : Ccb) : Request → Bool
  | .read _ _ => sim.scsiAllowed ccb && sim.transferAllowed ccb false
  | .write _ _ => sim.scsiAllowed ccb && sim.transferAllowed ccb true
  | .writeSame unmap _ _ => sim.scsiAllowed ccb && sim.ready ccb && (sim.devInf.trim && unmap)
  | .erase12 cdbLba nlba _ =>
      let lba := Word.add 32 cdbLba (sim.part ccb.unit).slba
      sim.scsiAllowed ccb && sim.ready ccb && !sim.beyond 32 ccb.unit lba nlba &&
        (lba % sim.egs = 0 && nlba % sim.egs = 0)
  | .sync _ => false
  | .erase action lba nlba _ =>
      let count := nlba % 2 ^ 32
      let slba := Word.add 64 (sim.part ccb.unit).slba lba
      ccb.permitted && sim.ready ccb && !sim.beyond 64 ccb.unit slba count &&
        sim.eraseAllowed action slba count = some true
  | .dsm opt holdsRanges ranges _ =>
      ccb.permitted && sim.ready ccb && holdsRanges && sim.dsmAllowed opt &&
        sim.firstInside ccb.unit ranges
  | .writeProtect action lba nlba _ =>
      let slba := Word.add 64 (sim.part ccb.unit).slba lba
      ccb.permitted && sim.ready ccb &&
        !(action > SDMMC_WP_ACTION_PROT_TYPE || sim.beyond 64 ccb.unit slba (max 1 nlba)) &&
          sim.isMmc

/-- A write marks the cache dirty before anything else. -/
def dirtied (sim : Sim) : Sim :=
  if sim.devInf.cache && sim.cache then { sim with vcacheDirty := true } else sim

/-- What the handler does with a request that passes its checks. -/
def core (sim : Sim) (ccb : Ccb) : Request → Sim
  | .read io replies => (sim.selectAndTransfer ccb (sim.rwFlags false io) io replies).1
  | .write io replies =>
      (sim.dirtied.selectAndTransfer ccb (sim.dirtied.rwFlags true io) io replies).1
  | .writeSame _ nlba reply =>
      (erased ccb (sim.sdioErase ccb.unit (sim.part ccb.unit).config nlba reply)).1
  | .erase12 _ nlba reply =>
      (erased ccb (sim.sdioErase ccb.unit (sim.part ccb.unit).config nlba reply)).1
  | .sync _ => sim
  | .erase _ _ nlba reply =>
      (sim.sdioErase ccb.unit (sim.part ccb.unit).config (nlba % 2 ^ 32) reply).1
  | .dsm _ _ ranges replies => (dsmLoop ccb.unit replies ranges 0 sim).1
  | .writeProtect action lba nlba replies =>
      (sim.writeProtect ccb.unit action (sim.part ccb.unit).config
        (Word.add 64 (sim.part ccb.unit).slba lba) (max 1 nlba) replies).1

/-- The background operations end in a reset of the card. -/
def bkopsResets (sim : Sim) (reply : BkopsReply) : Bool :=
  sim.bkops && !sim.paused &&
    if Word.test sim.bkopsStatus BKOPS_STATUS_OPERATIONS_INPROG then reply.hpi ≠ EOK
    else sim.bkopsDue && reply.start = ETIMEDOUT && reply.hpiAfterStart ≠ EOK

/-- The selection of a transfer succeeds. -/
def selectionSucceeds (sim : Sim) (unit : LogicalUnit) (replies : RwReplies) : Bool :=
  replies.sync = EOK &&
    (!sim.isMmc || (sim.pactive = (sim.part unit).config || replies.partition.status = EOK))

/-- A transfer selects its partition, and the background operations then reset the card. -/
def resetsBeforeTransfer (sim : Sim) (unit : LogicalUnit) (replies : RwReplies) : Bool :=
  sim.selectionSucceeds unit replies && sim.bkopsResets replies.bkops

/-- A request that fails a check changes at most what is known of the card's presence and of
its cache. -/
def Unserved (sim after : Sim) : Prop :=
  ∃ present vcacheDirty,
    after = { sim with present := present, vcacheDirty := vcacheDirty }

variable {sim : Sim}

namespace Unserved

theorem refl (sim : Sim) : sim.Unserved sim := ⟨_, _, rfl⟩

theorem trans {middle after : Sim} (first : sim.Unserved middle)
    (second : middle.Unserved after) : sim.Unserved after := by
  obtain ⟨_, _, rfl⟩ := first
  obtain ⟨present, vcacheDirty, rfl⟩ := second
  exact ⟨present, vcacheDirty, rfl⟩

/-- An error may find the card gone, and changes nothing else. -/
theorem sdmmcError (sim : Sim) (ccb : Ccb) (status : Nat) :
    sim.Unserved (sim.sdmmcError ccb status).1 := by
  unfold Sim.sdmmcError
  split
  · exact refl sim
  · split
    · exact ⟨false, sim.vcacheDirty, rfl⟩
    · split <;> exact refl sim

theorem unitReady (sim : Sim) (ccb : Ccb) : sim.Unserved (sim.unitReady ccb).1 := by
  unfold Sim.unitReady
  dsimp only
  by_cases attached : sim.present = true
  · simp only [attached, if_true]
    split
    · exact sdmmcError sim ccb ENXIO
    · exact refl sim
  · simp only [attached, Bool.false_eq_true, if_false]
    split
    · exact (sdmmcError sim ccb ENODEV).trans (sdmmcError _ ccb ENXIO)
    · exact sdmmcError sim ccb ENODEV

theorem cacheFlush (sim : Sim) (flush : Nat) : sim.Unserved (sim.cacheFlush flush).1 := by
  unfold Sim.cacheFlush
  split
  · split
    · exact ⟨sim.present, false, rfl⟩
    · exact refl sim
  · exact refl sim

end Unserved

/-- Sense data is no success. -/
theorem sense_ne (ccb : Ccb) : ccb.sense ≠ CAM_REQ_CMP := by
  unfold Ccb.sense
  split <;> decide

/-- A unit is ready when the card is present and the partition has blocks. -/
theorem ready_eq (sim : Sim) (ccb : Ccb) :
    sim.ready ccb = (sim.present && (sim.part ccb.unit).nlba ≠ 0) := by
  unfold ready Sim.unitReady
  dsimp only
  by_cases blocks : (sim.part ccb.unit).nlba = 0
  · rw [if_pos blocks]
    have failed (other : Sim) : (other.sdmmcError ccb ENXIO).2 = ccb.sense := rfl
    simp only [failed, sense_ne, blocks, ne_eq, not_true_eq_false, decide_false, Bool.and_false]
  · rw [if_neg blocks]
    cases sim.present with
    | true => simp [blocks]
    | false => rfl

/-- The mark on the cache plays no part in the checks of a transfer. -/
theorem transferAllowed_dirtied (sim : Sim) (ccb : Ccb) (dirOut : Bool) :
    sim.dirtied.transferAllowed ccb dirOut = sim.transferAllowed ccb dirOut := by
  obtain ⟨present, vcacheDirty, dirty⟩ : ∃ present vcacheDirty,
      present = sim.present ∧
        sim.dirtied = { sim with present := present, vcacheDirty := vcacheDirty } := by
    unfold dirtied
    split <;> exact ⟨_, _, rfl, rfl⟩
  unfold transferAllowed
  rw [ready_eq, ready_eq, dirty.2, dirty.1]
  rfl

/-! ## One lemma for each handler -/

theorem readWrite_cases (sim : Sim) (ccb : Ccb) (dirOut : Bool) (io : Transfer)
    (replies : RwReplies) :
    sim.Unserved (sim.readWrite ccb dirOut io replies).1 ∨
      (sim.transferAllowed ccb dirOut = true ∧ sim.readWrite ccb dirOut io replies =
        sim.selectAndTransfer ccb (sim.rwFlags dirOut io) io replies) := by
  unfold Sim.readWrite
  dsimp only
  split
  · exact .inl (.unitReady sim ccb)
  · next ready =>
      split
      · exact .inl (.sdmmcError sim ccb EACCES)
      · next unlocked =>
          split
          · exact .inl (.sdmmcError sim ccb EROFS)
          · next writable =>
              split
              · exact .inl (.refl sim)
              · next notRpmb =>
                  refine .inr ⟨?_, rfl⟩
                  simp only [transferAllowed, Sim.ready, not_not.mp ready,
                    Bool.eq_false_iff.mpr unlocked, Bool.eq_false_iff.mpr writable]
                  exact decide_eq_true notRpmb

theorem writeSame_cases (sim : Sim) (ccb : Ccb) (unmap : Bool) (nlba : Nat)
    (reply : EraseReply) :
    sim.Unserved (sim.writeSame ccb unmap nlba reply).1 ∨
      (sim.ready ccb = true ∧ (sim.devInf.trim && unmap) = true ∧
        sim.writeSame ccb unmap nlba reply =
          erased ccb (sim.sdioErase ccb.unit (sim.part ccb.unit).config nlba reply)) := by
  unfold Sim.writeSame
  dsimp only
  split
  · exact .inl (.unitReady sim ccb)
  · next ready =>
      split
      · exact .inl (.sdmmcError sim ccb EINVAL)
      · next supported =>
          refine .inr ⟨decide_eq_true (not_not.mp ready), ?_, rfl⟩
          simpa [← Bool.not_and] using supported

theorem erase12_cases (sim : Sim) (ccb : Ccb) (cdbLba nlba : Nat) (reply : EraseReply)
    {done : Sim × Nat} (ran : sim.erase12 ccb cdbLba nlba reply = some done) :
    sim.Unserved done.1 ∨
      (sim.ready ccb = true ∧
        sim.beyond 32 ccb.unit (Word.add 32 cdbLba (sim.part ccb.unit).slba) nlba = false ∧
        (Word.add 32 cdbLba (sim.part ccb.unit).slba % sim.egs = 0 ∧ nlba % sim.egs = 0) ∧
        done = erased ccb (sim.sdioErase ccb.unit (sim.part ccb.unit).config nlba reply)) := by
  unfold Sim.erase12 at ran
  dsimp only at ran
  split at ran
  · cases ran
    exact .inl (.unitReady sim ccb)
  · next ready =>
      split at ran
      · cases ran
        exact .inl (.sdmmcError sim ccb EINVAL)
      · next inside =>
          split at ran
          · cases ran
          · split at ran
            · cases ran
              exact .inl (.sdmmcError sim ccb EINVAL)
            · next aligned =>
                cases ran
                refine .inr ⟨decide_eq_true (not_not.mp ready), Bool.eq_false_iff.mpr inside,
                  ?_, rfl⟩
                simpa using aligned

theorem eraseDevctl_cases (sim : Sim) (ccb : Ccb) (action lba nlba : Nat) (reply : EraseReply)
    {done : Sim × Nat} (ran : sim.eraseDevctl ccb action lba nlba reply = some done) :
    sim.Unserved done.1 ∨
      (sim.ready ccb = true ∧
        sim.beyond 64 ccb.unit (Word.add 64 (sim.part ccb.unit).slba lba) (nlba % 2 ^ 32) =
          false ∧
        sim.eraseAllowed action (Word.add 64 (sim.part ccb.unit).slba lba) (nlba % 2 ^ 32) =
          some true ∧
        done = sim.sdioErase ccb.unit (sim.part ccb.unit).config (nlba % 2 ^ 32) reply) := by
  unfold Sim.eraseDevctl at ran
  dsimp only at ran
  split at ran
  · cases ran
    exact .inl (.unitReady sim ccb)
  · next ready =>
      split at ran
      · cases ran
        exact .inl (.refl sim)
      · next inside =>
          obtain ⟨isAllowed, allowed, rfl⟩ := Option.map_eq_some_iff.mp ran
          cases isAllowed with
          | false => exact .inl (.refl sim)
          | true =>
              exact .inr ⟨decide_eq_true (not_not.mp ready), Bool.eq_false_iff.mpr inside,
                allowed, rfl⟩

/-- The loop of a data set request does nothing when its first range is not inside. -/
theorem dsmLoop_of_outside {unit : LogicalUnit} (replies : Nat → EraseReply)
    {ranges : List (Nat × Nat)} (turn : Nat) (outside : sim.firstInside unit ranges = false) :
    (dsmLoop unit replies ranges turn sim).1 = sim := by
  cases ranges with
  | nil => rfl
  | cons range ranges =>
      obtain ⟨lba, nlba⟩ := range
      unfold dsmLoop
      rw [if_pos]
      simpa [firstInside] using outside

theorem dsmDevctl_cases (sim : Sim) (ccb : Ccb) (opt : DsmOpt) (holdsRanges : Bool)
    (ranges : List (Nat × Nat)) (replies : Nat → EraseReply) :
    sim.Unserved (sim.dsmDevctl ccb opt holdsRanges ranges replies).1 ∨
      (sim.ready ccb = true ∧ holdsRanges = true ∧ sim.dsmAllowed opt = true ∧
        sim.firstInside ccb.unit ranges = true ∧
        sim.dsmDevctl ccb opt holdsRanges ranges replies =
          dsmLoop ccb.unit replies ranges 0 sim) := by
  unfold Sim.dsmDevctl
  dsimp only
  split
  · exact .inl (.unitReady sim ccb)
  · next ready =>
      have isReady : sim.ready ccb = true := decide_eq_true (not_not.mp ready)
      cases holdsRanges with
      | false => exact .inl (.refl sim)
      | true =>
          simp only [Bool.not_true, Bool.false_eq_true, if_false]
          cases inside : sim.firstInside ccb.unit ranges with
          | false =>
              have nothing : sim.Unserved (dsmLoop ccb.unit replies ranges 0 sim).1 := by
                rw [dsmLoop_of_outside replies 0 inside]
                exact .refl sim
              left
              cases opt with
              | other => exact .refl sim
              | trim =>
                  dsimp only
                  split
                  · exact nothing
                  · exact .refl sim
              | discard =>
                  dsimp only
                  split
                  · exact nothing
                  · exact .refl sim
          | true =>
              cases opt with
              | other => exact .inl (.refl sim)
              | trim =>
                  dsimp only
                  split
                  · next supported => exact .inr ⟨isReady, trivial, supported, rfl, rfl⟩
                  · exact .inl (.refl sim)
              | discard =>
                  dsimp only
                  split
                  · next supported => exact .inr ⟨isReady, trivial, supported, rfl, rfl⟩
                  · exact .inl (.refl sim)

theorem wpDevctl_cases (sim : Sim) (ccb : Ccb) (action lba nlba : Nat) (replies : WpReplies) :
    sim.Unserved (sim.wpDevctl ccb action lba nlba replies).1 ∨
      (sim.passes ccb (.writeProtect action lba nlba replies) = ccb.permitted ∧
        (sim.wpDevctl ccb action lba nlba replies).1 =
          sim.core ccb (.writeProtect action lba nlba replies)) := by
  unfold Sim.wpDevctl
  dsimp only
  split
  · exact .inl (.unitReady sim ccb)
  · next ready =>
      have isReady : sim.ready ccb = true := decide_eq_true (not_not.mp ready)
      split
      · exact .inl (.refl sim)
      · next valid =>
          split
          · exact .inl (.refl sim)
          · next isMmc =>
              refine .inr ⟨?_, rfl⟩
              have isMmc : sim.isMmc = true := by simpa using isMmc
              unfold passes
              simp only [isReady, Bool.eq_false_iff.mpr valid, isMmc, Bool.and_true,
                Bool.not_false]

/-- The mark of a write fails no check. -/
theorem write10_cases (sim : Sim) (ccb : Ccb) (io : Transfer) (replies : RwReplies) :
    sim.Unserved (sim.write10 ccb io replies).1 ∨
      (sim.transferAllowed ccb true = true ∧ sim.write10 ccb io replies =
        sim.dirtied.selectAndTransfer ccb (sim.dirtied.rwFlags true io) io replies) := by
  have dirty : sim.Unserved sim.dirtied := by
    unfold dirtied
    split
    · exact ⟨sim.present, true, rfl⟩
    · exact .refl sim
  rcases sim.dirtied.readWrite_cases ccb true io replies with unserved | ⟨allowed, same⟩
  · exact .inl (dirty.trans unserved)
  · rw [transferAllowed_dirtied] at allowed
    exact .inr ⟨allowed, same⟩

/-- A handler of a SCSI command runs when the controller can do the transfer. -/
theorem scsiIo_cases {ccb : Ccb} {done : Option (Sim × Option Nat)}
    {served : Sim × Option Nat} (isServed : sim.scsiIo ccb done = some served) :
    served.1 = sim ∨ (sim.scsiAllowed ccb = true ∧ done = some served) := by
  unfold scsiIo at isServed
  split at isServed
  · cases isServed
    exact .inl rfl
  · next isAllowed =>
      right
      refine ⟨?_, isServed⟩
      unfold scsiAllowed
      rw [Bool.eq_false_iff.mpr isAllowed]
      rfl

/-- A handler of a devctl runs when the devctl is permitted. -/
theorem devctl_cases {ccb : Ccb} {done : Option (Sim × Nat)} {served : Sim × Option Nat}
    (isServed : sim.devctl ccb done = some served) :
    served.1 = sim ∨
      (ccb.permitted = true ∧ ∃ result, done = some result ∧ served.1 = result.1) := by
  unfold devctl at isServed
  split at isServed
  · next permitted =>
      obtain ⟨result, isResult, rfl⟩ := Option.map_eq_some_iff.mp isServed
      exact .inr ⟨permitted, result, isResult, rfl⟩
  · cases isServed
    exact .inl rfl

/-- A request fails a check and leaves the card alone, or passes its checks and is carried
out. -/
theorem serve_cases (sim : Sim) (ccb : Ccb) (request : Request) {served : Sim × Option Nat}
    (isServed : sim.serve ccb request = some served) :
    sim.Unserved served.1 ∨
      (sim.passes ccb request = true ∧ served.1 = sim.core ccb request) := by
  cases request with
  | read io replies =>
      rcases scsiIo_cases isServed with same | ⟨possible, ran⟩
      · exact .inl (same ▸ .refl sim)
      · cases ran
        rcases sim.readWrite_cases ccb false io replies with unserved | ⟨allowed, same⟩
        · exact .inl unserved
        · refine .inr ⟨?_, congrArg Prod.fst same⟩
          simp only [passes, possible, allowed, Bool.and_self]
  | write io replies =>
      rcases scsiIo_cases isServed with same | ⟨possible, ran⟩
      · exact .inl (same ▸ .refl sim)
      · cases ran
        rcases sim.write10_cases ccb io replies with unserved | ⟨allowed, same⟩
        · exact .inl unserved
        · refine .inr ⟨?_, congrArg Prod.fst same⟩
          simp only [passes, possible, allowed, Bool.and_self]
  | writeSame unmap nlba reply =>
      rcases scsiIo_cases isServed with same | ⟨possible, ran⟩
      · exact .inl (same ▸ .refl sim)
      · cases ran
        rcases sim.writeSame_cases ccb unmap nlba reply with
          unserved | ⟨isReady, supported, same⟩
        · exact .inl unserved
        · refine .inr ⟨?_, congrArg Prod.fst same⟩
          simp only [passes, possible, isReady, supported, Bool.and_self]
  | erase12 cdbLba nlba reply =>
      rcases scsiIo_cases isServed with same | ⟨possible, ran⟩
      · exact .inl (same ▸ .refl sim)
      · obtain ⟨done, isDone, rfl⟩ := Option.map_eq_some_iff.mp ran
        rcases sim.erase12_cases ccb cdbLba nlba reply isDone with
          unserved | ⟨isReady, inside, ⟨aligned, whole⟩, rfl⟩
        · exact .inl unserved
        · refine .inr ⟨?_, rfl⟩
          simp only [passes, possible, isReady, inside, aligned, whole, decide_true,
            Bool.not_false, Bool.and_self]
  | sync flush =>
      rcases scsiIo_cases isServed with same | ⟨_, ran⟩
      · exact .inl (same ▸ .refl sim)
      · cases ran
        left
        unfold finished sdmmcSync
        dsimp only
        split
        · exact .refl sim
        · split
          · exact .unitReady sim ccb
          · exact .cacheFlush sim flush
  | erase action lba nlba reply =>
      rcases devctl_cases isServed with same | ⟨permitted, done, isDone, same⟩
      · exact .inl (same ▸ .refl sim)
      · rcases sim.eraseDevctl_cases ccb action lba nlba reply isDone with
          unserved | ⟨isReady, inside, allowed, rfl⟩
        · exact .inl (same ▸ unserved)
        · refine .inr ⟨?_, same⟩
          simp only [passes, permitted, isReady, inside, allowed, decide_true, Bool.not_false,
            Bool.and_self]
  | dsm opt holdsRanges ranges replies =>
      rcases devctl_cases isServed with same | ⟨permitted, done, isDone, same⟩
      · exact .inl (same ▸ .refl sim)
      · cases isDone
        rcases sim.dsmDevctl_cases ccb opt holdsRanges ranges replies with
          unserved | ⟨isReady, holds, supported, inside, ran⟩
        · exact .inl (same ▸ unserved)
        · refine .inr ⟨?_, same.trans (congrArg Prod.fst ran)⟩
          simp only [passes, permitted, isReady, holds, supported, inside, Bool.and_self]
  | writeProtect action lba nlba replies =>
      rcases devctl_cases isServed with same | ⟨permitted, done, isDone, same⟩
      · exact .inl (same ▸ .refl sim)
      · cases isDone
        rcases sim.wpDevctl_cases ccb action lba nlba replies with unserved | ⟨passed, ran⟩
        · exact .inl (same ▸ unserved)
        · exact .inr ⟨passed.trans permitted, same.trans ran⟩

/-! ## Selection and background operations -/

/-- What a selection can come to. -/
theorem mmcSetPartition_cases (sim : Sim) (partition : Nat) (reply : Reply) :
    (sim.pactive = partition ∧ sim.mmcSetPartition partition reply = (sim, EOK)) ∨
    (sim.pactive ≠ partition ∧ reply.status = EOK ∧ sim.mmcSetPartition partition reply =
      ({ sim with access := partition &&& MMC_PART_MSK, pactive := partition }, EOK)) ∨
    (sim.pactive ≠ partition ∧ reply.status ≠ EOK ∧ reply.carriedOut = true ∧
      sim.mmcSetPartition partition reply =
        ({ sim with access := partition &&& MMC_PART_MSK }, reply.status)) ∨
    (sim.pactive ≠ partition ∧ reply.status ≠ EOK ∧ reply.carriedOut = false ∧
      sim.mmcSetPartition partition reply = (sim, reply.status)) := by
  unfold Sim.mmcSetPartition Reply.accepted
  by_cases already : sim.pactive = partition
  · exact .inl ⟨already, if_pos already⟩
  · rw [if_neg already]
    by_cases switched : reply.status = EOK
    · exact .inr (.inl ⟨already, switched, by simp [switched]⟩)
    · cases carried : reply.carriedOut with
      | true => exact .inr (.inr (.inl ⟨already, switched, rfl, by simp [switched]⟩))
      | false => exact .inr (.inr (.inr ⟨already, switched, rfl, by simp [switched]⟩))

/-- A selection succeeds when there is nothing to switch or the switch succeeds. -/
theorem mmcSetPartition_eok (sim : Sim) (partition : Nat) (reply : Reply) :
    (sim.mmcSetPartition partition reply).2 = EOK ↔
      (sim.pactive = partition ∨ reply.status = EOK) := by
  rcases sim.mmcSetPartition_cases partition reply with
    ⟨already, same⟩ | ⟨_, switched, same⟩ | ⟨other, failed, _, same⟩ | ⟨other, failed, _, same⟩
  · rw [same]
    exact iff_of_true rfl (.inl already)
  · rw [same]
    exact iff_of_true rfl (.inr switched)
  · rw [same]
    exact iff_of_false failed (not_or.mpr ⟨other, failed⟩)
  · rw [same]
    exact iff_of_false failed (not_or.mpr ⟨other, failed⟩)

/-- A selection changes the partition that the card works on, and what the driver knows of
it. -/
theorem sdioSetPartition_eq (sim : Sim) (partition sync : Nat) (reply : Reply) :
    ∃ access pactive, (sim.sdioSetPartition partition sync reply).1 =
      { sim with access := access, pactive := pactive } := by
  unfold Sim.sdioSetPartition
  split
  · exact ⟨_, _, rfl⟩
  · split
    · rcases sim.mmcSetPartition_cases partition reply with
        ⟨_, same⟩ | ⟨_, _, same⟩ | ⟨_, _, _, same⟩ | ⟨_, _, _, same⟩
      all_goals
        rw [same]
        exact ⟨_, _, rfl⟩
    · exact ⟨_, _, rfl⟩

/-- The selection of a transfer, as `sdio_set_partition` reports it. -/
theorem selectionSucceeds_of_eok {unit : LogicalUnit} {replies : RwReplies}
    (succeeded : (sim.sdioSetPartition (sim.part unit).config replies.sync
      replies.partition).2 = EOK) : sim.selectionSucceeds unit replies = true := by
  unfold Sim.sdioSetPartition at succeeded
  unfold selectionSucceeds
  split at succeeded
  · next failed => exact absurd succeeded failed
  · next synchronized =>
      rw [not_not.mp synchronized]
      split at succeeded
      · next isMmc =>
          have went := (sim.mmcSetPartition_eok _ _).mp succeeded
          simpa [isMmc] using went
      · next other => simp [other]

/-- A tick only reads how the background operations stand. -/
theorem bkopsPoll_eq (sim : Sim) (reply : BkopsReply) :
    ∃ ticks status,
      sim.bkopsPoll reply = { sim with bkopsTicks := ticks, bkopsStatus := status } := by
  unfold Sim.bkopsPoll
  cases reply.extCsd with
  | none => dsimp only; split <;> exact ⟨_, _, rfl⟩
  | some status => dsimp only; split_ifs <;> exact ⟨_, _, rfl⟩

/-- What a reset keeps is kept by background operations, unless it speaks of them. -/
theorem sdmmcBkops_kept (good : Sim → Prop)
    (resets : ∀ (sim : Sim) reply, good sim → good (sim.sdmmcReset reply))
    (notes : ∀ (sim : Sim) status ticks, good sim →
      good { sim with bkopsStatus := status, bkopsTicks := ticks })
    (holds : good sim) (tick : Bool) (reply : BkopsReply) : good (sim.sdmmcBkops tick reply) := by
  have polled : good (if tick then sim.bkopsPoll reply else sim) := by
    obtain ⟨ticks, status, noted⟩ := sim.bkopsPoll_eq reply
    split
    · rw [noted]
      exact notes sim status ticks holds
    · exact holds
  unfold Sim.sdmmcBkops Sim.bkopsInterrupt
  dsimp only
  generalize (if tick then sim.bkopsPoll reply else sim) = poll at polled
  split
  · exact holds
  · split
    · split
      · exact holds
      · refine notes _ _ _ ?_
        split
        · exact resets sim _ holds
        · exact holds
    · split
      · unfold Sim.bkopsStart
        split
        · exact notes poll _ _ polled
        · split
          · exact resets poll _ polled
          · exact polled
      · exact polled

/-- Background operations of a transfer leave the card alone unless they reset it. -/
theorem sdmmcBkops_cases (sim : Sim) (reply : BkopsReply) :
    (sim.bkopsResets reply = false ∧ ∃ status ticks, sim.sdmmcBkops false reply =
      { sim with bkopsStatus := status, bkopsTicks := ticks }) ∨
    (sim.bkopsResets reply = true ∧ ∃ status ticks, sim.sdmmcBkops false reply =
      { sim.sdmmcReset reply.reset with bkopsStatus := status, bkopsTicks := ticks }) := by
  unfold Sim.sdmmcBkops bkopsResets
  by_cases idle : (!sim.bkops || sim.paused) = true
  · have off : (sim.bkops && !sim.paused) = false := by
      cases h : sim.bkops <;> simp_all
    rw [if_pos idle, off, Bool.false_and]
    exact .inl ⟨rfl, _, _, rfl⟩
  · have on : (sim.bkops && !sim.paused) = true := by
      cases h : sim.bkops <;> simp_all
    rw [if_neg idle, on, Bool.true_and]
    split
    · rw [Sim.bkopsInterrupt, if_neg (by decide)]
      by_cases failed : reply.hpi = EOK
      · refine .inl ⟨by simp [failed], BKOPS_STATUS_OPERATIONS_NONE, sim.bkopsTicks, ?_⟩
        simp only [failed, ne_eq, not_true_eq_false, if_false]
      · refine .inr ⟨by simp [failed], BKOPS_STATUS_OPERATIONS_NONE,
          (sim.sdmmcReset reply.reset).bkopsTicks, ?_⟩
        simp only [failed, ne_eq, not_false_eq_true, if_true]
    · simp only [Bool.false_eq_true, if_false]
      cases due : sim.bkopsDue with
      | false => exact .inl ⟨rfl, _, _, rfl⟩
      | true =>
          simp only [if_true, Bool.true_and]
          unfold Sim.bkopsStart
          by_cases started : reply.start = EOK
          · rw [if_pos started, started]
            exact .inl ⟨rfl, _, _, rfl⟩
          · rw [if_neg started]
            split
            · next failed => exact .inr ⟨failed, _, _, rfl⟩
            · next other => exact .inl ⟨Bool.eq_false_iff.mpr other, _, _, rfl⟩

/-- What an action can come to: a timer tick, or a request with possibly a reset after it. -/
theorem act_cases {action : SimAction} {after : Sim} (acted : sim.act action = some after) :
    (∃ reply, action = .timer reply ∧ after = sim.sdmmcBkops true reply) ∨
    ∃ ccb request retune reset served, action = .request ccb request retune reset ∧
      sim.tables.accepts ccb.unit.targetId ccb.unit.targetLun = true ∧
      sim.serve ccb request = some served ∧
      (after = served.1 ∨ after = served.1.sdmmcReset reset) := by
  cases action with
  | timer reply =>
      cases acted
      exact .inl ⟨reply, rfl, rfl⟩
  | request ccb request retune reset =>
      change (if sim.tables.accepts ccb.unit.targetId ccb.unit.targetLun = true then
        (sim.serve ccb request).map fun served =>
          if served.2.isSome then served.1.retuned retune reset else served.1
        else none) = some after at acted
      split at acted
      · next accepted =>
          obtain ⟨served, isServed, isAfter⟩ := Option.map_eq_some_iff.mp acted
          refine .inr ⟨ccb, request, retune, reset, served, rfl, accepted, isServed, ?_⟩
          rw [← isAfter]
          split
          · unfold retuned
            split
            · exact .inr rfl
            · exact .inl rfl
          · exact .inl rfl
      · cases acted

end Sim

end Bcm2711.Sdmmc
