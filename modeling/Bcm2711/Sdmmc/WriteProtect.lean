import Bcm2711.Lib.Actions
import Bcm2711.Sdmmc.Checks

/-! # Write protected partitions

`SDMMC_PFLAG_WP` marks a partition that is not to be written, and no request ever takes the
mark away.  Only `sdmmc_read_write` looks at it, before it selects the partition and sees to
background operations; the handlers that erase do not look at it at all.
-/

namespace Bcm2711.Sdmmc

open Actions

variable {sim start : Sim} {unit : LogicalUnit}

/-- The command modifies the partition. -/
def CmdKind.modifies : CmdKind → Bool
  | .write => true
  | .erase => true
  | .read => false
  | .writeProtect => false

namespace Sim

/-- The unit's partition carries `SDMMC_PFLAG_WP`. -/
def isProtected (sim : Sim) (unit : LogicalUnit) : Bool :=
  Word.test (sim.part unit).pflags SDMMC_PFLAG_WP

/-- No command that was sent modified a partition that carried the mark. -/
def Spared (sim : Sim) : Prop :=
  ∀ command ∈ sim.sent, command.kind.modifies = true → command.isProtected = false

/-- A reset marks the user area after the check of a write and before its transfer: the cache
is on, and the write has made it dirty. -/
def losesWrite (sim : Sim) (unit : LogicalUnit) (replies : RwReplies) : Bool :=
  sim.resetsBeforeTransfer unit replies && (sim.devInf.cache && sim.cache) &&
    (sim.part unit).config &&& MMC_PART_MSK = MMC_PART_USER

/-- A request that passes its checks disregards the mark: it erases in a partition that carries
it, or it writes to the user area after a reset that lost the cache. -/
def disregards (sim : Sim) (ccb : Ccb) : Request → Bool
  | .read _ _ => false
  | .write _ replies => sim.losesWrite ccb.unit replies
  | .writeSame _ _ _ => sim.isProtected ccb.unit
  | .erase12 _ _ _ => sim.isProtected ccb.unit
  | .sync _ => false
  | .erase _ _ _ _ => sim.isProtected ccb.unit
  | .dsm _ _ _ _ => sim.isProtected ccb.unit
  | .writeProtect _ _ _ _ => false

/-- No request that passes its checks disregards the mark. -/
def RespectsMark (sim : Sim) : SimAction → Prop
  | .request ccb request _ _ =>
      sim.passes ccb request = true → sim.disregards ccb request = false
  | .timer _ => True

/-- Nothing marked was modified so far, and what carried the mark at the start still does. -/
structure Guarded (start sim : Sim) : Prop where
  spared : sim.Spared
  marks : ∀ unit, start.isProtected unit = true → sim.isProtected unit = true

end Sim

/-! ## Marks -/

/-- Attributes are only added. -/
theorem test_setPartitionAttr {tables : Targets} {tidx pidx mask : Nat} (partition flags : Nat)
    (isSet : Word.test (tables.part tidx pidx).pflags mask = true) :
    Word.test ((tables.setPartitionAttr partition flags).part tidx pidx).pflags mask = true := by
  unfold Targets.setPartitionAttr
  refine List.foldlRecOn (motive := fun marked : Targets =>
    Word.test (marked.part tidx pidx).pflags mask = true) _ _ isSet ?_
  intro marked stays pair _
  split
  · rw [Targets.part_modify]
    split
    · have before : (marked.part tidx pidx).pflags &&& mask ≠ 0 := of_decide_eq_true stays
      refine decide_eq_true ?_
      change ((marked.part tidx pidx).pflags ||| flags) &&& mask ≠ 0
      rw [Nat.and_or_distrib_right]
      exact fun none => before (Nat.or_eq_zero_iff.mp none).1
    · exact stays
  · exact stays

/-- Attributes are added to partitions of one kind. -/
theorem part_setPartitionAttr_of_ne {tables : Targets} {tidx pidx partition : Nat} (flags : Nat)
    (other : (tables.part tidx pidx).config &&& MMC_PART_MSK ≠ partition) :
    (tables.setPartitionAttr partition flags).part tidx pidx = tables.part tidx pidx := by
  unfold Targets.setPartitionAttr
  refine List.foldlRecOn (motive := fun marked : Targets =>
    marked.part tidx pidx = tables.part tidx pidx) _ _ rfl ?_
  intro marked same pair _
  split
  · next kind =>
      rw [Targets.part_modify, if_neg]
      · exact same
      · rintro ⟨rfl, rfl⟩
        rw [same] at kind
        exact other kind
  · exact same

namespace Sim

theorem loseCache_tables (sim : Sim) :
    sim.loseCache.tables =
      if sim.devInf.cache && sim.cache && sim.vcacheDirty then
        sim.tables.setPartitionAttr MMC_PART_USER SDMMC_PFLAG_WP
      else sim.tables := by
  unfold loseCache
  cases enabled : (sim.devInf.cache && sim.cache) with
  | false => rfl
  | true => rfl

/-- What a reset makes of the tables. -/
theorem sdmmcReset_tables (sim : Sim) (reply : ResetReply) :
    (sim.sdmmcReset reply).tables =
      if sim.devInf.cache && sim.cache && sim.vcacheDirty then
        sim.tables.setPartitionAttr MMC_PART_USER SDMMC_PFLAG_WP
      else sim.tables := by
  have configured (lost : Sim) : (lost.devCfg reply).tables = lost.tables := by
    unfold devCfg mmcCfg
    dsimp only
    split <;> split <;> rfl
  exact (configured sim.sdioReset.loseCache).trans sim.sdioReset.loseCache_tables

/-- A reset sends nothing to a partition. -/
theorem sdmmcReset_sent (sim : Sim) (reply : ResetReply) :
    (sim.sdmmcReset reply).sent = sim.sent := by
  unfold sdmmcReset devCfg mmcCfg loseCache
  dsimp only
  split_ifs <;> rfl

/-- A reset keeps every mark. -/
theorem isProtected_sdmmcReset (reply : ResetReply) (marked : sim.isProtected unit = true) :
    (sim.sdmmcReset reply).isProtected unit = true := by
  unfold isProtected part
  rw [sdmmcReset_tables]
  split
  · exact test_setPartitionAttr _ _ marked
  · exact marked

namespace Guarded

/-- What sends nothing and keeps the marks changes nothing. -/
theorem quiet {after : Sim} (guarded : start.Guarded sim) (sent : after.sent = sim.sent)
    (marks : ∀ unit, sim.isProtected unit = true → after.isProtected unit = true) :
    start.Guarded after where
  spared := by
    unfold Spared
    rw [sent]
    exact guarded.spared
  marks unit marked := marks unit (guarded.marks unit marked)

/-- The same commands and the same tables. -/
theorem same {after : Sim} (guarded : start.Guarded sim) (sent : after.sent = sim.sent)
    (tables : after.tables = sim.tables) : start.Guarded after := by
  apply guarded.quiet sent
  intro unit marked
  unfold isProtected part
  rw [tables]
  exact marked

theorem sdmmcReset (guarded : start.Guarded sim) (reply : ResetReply) :
    start.Guarded (sim.sdmmcReset reply) :=
  guarded.quiet (sim.sdmmcReset_sent reply) fun _ marked => isProtected_sdmmcReset reply marked

theorem unserved {after : Sim} (guarded : start.Guarded sim) (unserved : sim.Unserved after) :
    start.Guarded after := by
  obtain ⟨_, _, rfl⟩ := unserved
  exact guarded.same rfl rfl

theorem sdmmcError (guarded : start.Guarded sim) (ccb : Ccb) (status : Nat) :
    start.Guarded (sim.sdmmcError ccb status).1 :=
  guarded.unserved (.sdmmcError sim ccb status)

/-- A command that does not modify, or goes to a partition without the mark. -/
theorem send (guarded : start.Guarded sim) (kind : CmdKind) (reply : Reply)
    (allowed : kind.modifies = true → sim.isProtected unit = false) :
    start.Guarded (sim.send unit kind reply) where
  spared := by
    intro command isSent modifies
    rcases List.mem_append.mp isSent with before | new
    · exact guarded.spared command before modifies
    · obtain rfl := List.mem_singleton.mp new
      exact allowed modifies
  marks := guarded.marks

end Guarded

/-! ## Erases -/

theorem mmcSetPartition_same (sim : Sim) (partition : Nat) (reply : Reply) :
    (sim.mmcSetPartition partition reply).1.sent = sim.sent ∧
      (sim.mmcSetPartition partition reply).1.tables = sim.tables := by
  rcases sim.mmcSetPartition_cases partition reply with
    ⟨_, same⟩ | ⟨_, _, same⟩ | ⟨_, _, _, same⟩ | ⟨_, _, _, same⟩
  all_goals
    rw [same]
    exact ⟨rfl, rfl⟩

/-- The tables decide which partitions are marked. -/
theorem isProtected_of_tables {after : Sim} (tables : after.tables = sim.tables)
    (unit : LogicalUnit) : after.isProtected unit = sim.isProtected unit := by
  unfold isProtected part
  rw [tables]

theorem Guarded.eraseGroup (guarded : start.Guarded sim) (open_ : sim.isProtected unit = false)
    (reply : EraseReply) :
    start.Guarded (sim.eraseGroup unit reply).1 ∧
      (sim.eraseGroup unit reply).1.tables = sim.tables := by
  have started := guarded.send .erase reply.groupStart fun _ => open_
  have ended := started.send .erase reply.groupEnd fun _ => open_
  unfold Sim.eraseGroup
  dsimp only
  split
  · exact ⟨started, rfl⟩
  · split
    · exact ⟨ended, rfl⟩
    · exact ⟨ended.send .erase reply.erase fun _ => open_, rfl⟩

/-- An erase in a partition without the mark. -/
theorem Guarded.sdioErase (guarded : start.Guarded sim) (open_ : sim.isProtected unit = false)
    (partition nlba : Nat) (reply : EraseReply) :
    start.Guarded (sim.sdioErase unit partition nlba reply).1 ∧
      (sim.sdioErase unit partition nlba reply).1.tables = sim.tables := by
  obtain ⟨sent, tables⟩ := sim.mmcSetPartition_same partition reply.partition
  have selected := guarded.same sent tables
  obtain ⟨erased, kept⟩ := selected.eraseGroup
    ((isProtected_of_tables tables unit).trans open_) reply
  obtain ⟨plain, plainTables⟩ := guarded.eraseGroup open_ reply
  unfold Sim.sdioErase Sim.mmcErase Sim.sdErase
  dsimp only
  split_ifs
  · exact ⟨guarded, rfl⟩
  · exact ⟨selected, tables⟩
  · exact ⟨selected, tables⟩
  · exact ⟨selected, tables⟩
  · exact ⟨erased, kept.trans tables⟩
  · exact ⟨erased, kept.trans tables⟩
  · exact ⟨guarded, rfl⟩
  · exact ⟨guarded, rfl⟩
  · exact ⟨plain, plainTables⟩

theorem Guarded.dsmLoop (replies : Nat → EraseReply) (ranges : List (Nat × Nat)) (turn : Nat)
    (guarded : start.Guarded sim) (open_ : sim.isProtected unit = false) :
    start.Guarded (Sim.dsmLoop unit replies ranges turn sim).1 := by
  induction ranges generalizing turn sim with
  | nil => exact guarded
  | cons range ranges ih =>
      obtain ⟨lba, nlba⟩ := range
      obtain ⟨erased, tables⟩ :=
        guarded.sdioErase open_ (sim.part unit).config nlba (replies turn)
      unfold Sim.dsmLoop
      dsimp only
      split
      · exact guarded
      · split
        · exact erased
        · exact ih (turn + 1) erased ((isProtected_of_tables tables unit).trans open_)

/-! ## Transfers -/

theorem Guarded.recover (guarded : start.Guarded sim) (flgs : RwFlags) (dlen status : Nat)
    (reply : RwReply) : start.Guarded (sim.recover flgs dlen status reply) := by
  have ready :
      start.Guarded (if reply.last.1 ≠ EOK || !readyInTran reply.last.2 then
        sim.sdmmcReset reply.reset else sim) := by
    split
    · exact guarded.sdmmcReset reply.reset
    · exact guarded
  exact ready.same rfl rfl

/-- A transfer that reads, or writes to a partition without the mark. -/
theorem Guarded.sdmmcRw (guarded : start.Guarded sim) (flgs : RwFlags) (dlen : Nat)
    (reply : RwReply) (allowed : flgs.dirOut = true → sim.isProtected unit = false) :
    start.Guarded (sim.sdmmcRw unit flgs dlen reply).1 ∧
      ((sim.sdmmcRw unit flgs dlen reply).2 = EOK →
        (sim.sdmmcRw unit flgs dlen reply).1.tables = sim.tables) := by
  have sent : start.Guarded
      (sim.send unit (if flgs.dirOut then .write else .read) reply.data) := by
    apply guarded.send
    intro modifies
    apply allowed
    by_contra reads
    rw [if_neg reads] at modifies
    cases modifies
  have noted (urgent : Prop) [Decidable urgent] (status : Nat) :
      start.Guarded (if urgent then
        { sim.send unit (if flgs.dirOut then .write else .read) reply.data with
          bkopsStatus := status }
        else sim.send unit (if flgs.dirOut then .write else .read) reply.data) ∧
      (if urgent then
        { sim.send unit (if flgs.dirOut then .write else .read) reply.data with
          bkopsStatus := status }
        else sim.send unit (if flgs.dirOut then .write else .read) reply.data).tables =
          sim.tables := by
    split
    · exact ⟨sent.same rfl rfl, rfl⟩
    · exact ⟨sent, rfl⟩
  unfold Sim.sdmmcRw
  dsimp only
  split
  · exact ⟨guarded, nofun⟩
  · split
    · exact ⟨guarded, fun _ => rfl⟩
    · split
      · exact ⟨sent, nofun⟩
      · obtain ⟨kept, tables⟩ := noted
          (Word.test (sim.transferred flgs dlen reply).2 CDS_URGENT_BKOPS = true)
          BKOPS_STATUS_OPERATIONS_CRITICAL
        split
        · next failed => exact ⟨kept.recover _ _ _ _, fun succeeded => absurd succeeded failed⟩
        · exact ⟨kept, fun _ => tables⟩

theorem Guarded.legacyWrite (flgs : RwFlags) (replies : Nat → RwReply) (turns turn : Nat)
    (sgCounts : List Nat) (lba : Nat) (guarded : start.Guarded sim)
    (allowed : flgs.dirOut = true → sim.isProtected unit = false) :
    start.Guarded (Sim.legacyWrite unit flgs replies turns turn sgCounts lba sim).1 := by
  induction turns generalizing turn sgCounts lba sim with
  | zero => exact guarded
  | succ turns ih =>
      cases sgCounts with
      | nil => exact guarded
      | cons sgCount sgCounts =>
          unfold Sim.legacyWrite
          split
          · exact ih turn sgCounts lba guarded allowed
          · obtain ⟨written, tables⟩ :=
              guarded.sdmmcRw flgs (sim.legacyCount lba sgCount) (replies turn) allowed
            dsimp only
            split
            · exact written
            · next succeeded =>
                apply ih _ _ _ written
                intro writes
                rw [isProtected_of_tables (tables (not_not.mp succeeded))]
                exact allowed writes

theorem Guarded.finish {done : Sim × Option Nat} (guarded : start.Guarded done.1) (ccb : Ccb) :
    start.Guarded (Sim.finish ccb done).1 := by
  obtain ⟨after, status⟩ := done
  cases status with
  | none => exact guarded
  | some status =>
      unfold Sim.finish
      dsimp only
      split
      · exact guarded.sdmmcError ccb status
      · exact guarded

theorem Guarded.transfer {ccb : Ccb} (guarded : start.Guarded sim) (flgs : RwFlags)
    (io : Transfer) (replies : RwReplies)
    (allowed : flgs.dirOut = true → sim.isProtected ccb.unit = false) :
    start.Guarded (sim.transfer ccb flgs io replies).1 := by
  unfold Sim.transfer
  dsimp only
  split
  · exact Guarded.finish (Guarded.legacyWrite flgs replies.rw _ _ _ _ guarded allowed) ccb
  · exact Guarded.finish (guarded.sdmmcRw flgs ccb.dxferLen (replies.rw 0) allowed).1 ccb

theorem Guarded.sdioSetPartition (guarded : start.Guarded sim) (partition sync : Nat)
    (reply : Reply) : start.Guarded (sim.sdioSetPartition partition sync reply).1 := by
  obtain ⟨_, _, same⟩ := sim.sdioSetPartition_eq partition sync reply
  rw [same]
  exact guarded.same rfl rfl

theorem Guarded.sdmmcBkops (guarded : start.Guarded sim) (tick : Bool) (reply : BkopsReply) :
    start.Guarded (sim.sdmmcBkops tick reply) := by
  refine sdmmcBkops_kept start.Guarded ?_ ?_ guarded tick reply
  · exact fun _ reply guarded => guarded.sdmmcReset reply
  · exact fun _ _ _ guarded => guarded.same rfl rfl

/-- A reset marks no partition when there is no cache to lose, nor one outside of the user
area. -/
theorem isProtected_sdmmcReset_of_open (reply : ResetReply)
    (open_ : sim.isProtected unit = false)
    (elsewhere : (sim.devInf.cache && sim.cache) = true →
      (sim.part unit).config &&& MMC_PART_MSK ≠ MMC_PART_USER) :
    (sim.sdmmcReset reply).isProtected unit = false := by
  unfold isProtected part
  rw [sdmmcReset_tables]
  split
  · next lost =>
      have enabled := (Bool.and_eq_true_iff.mp lost).1
      rw [part_setPartitionAttr_of_ne _ (elsewhere enabled)]
      exact open_
  · exact open_

/-- A write goes to a partition without the mark when no reset marks it after the check. -/
theorem Guarded.selectAndTransfer {ccb : Ccb} (guarded : start.Guarded sim) (flgs : RwFlags)
    (io : Transfer) (replies : RwReplies)
    (allowed : flgs.dirOut = true →
      sim.isProtected ccb.unit = false ∧ sim.losesWrite ccb.unit replies = false) :
    start.Guarded (sim.selectAndTransfer ccb flgs io replies).1 := by
  obtain ⟨_, _, same⟩ := sim.sdioSetPartition_eq (sim.part ccb.unit).config replies.sync
    replies.partition
  unfold Sim.selectAndTransfer
  dsimp only
  split
  · have selected := guarded.sdioSetPartition (sim.part ccb.unit).config replies.sync
      replies.partition
    exact (selected.sdmmcReset replies.reset).sdmmcError ccb ETIMEDOUT
  · next succeeded =>
      have selection := selectionSucceeds_of_eok (not_not.mp succeeded)
      have selected := guarded.sdioSetPartition (sim.part ccb.unit).config replies.sync
        replies.partition
      rw [same] at selected ⊢
      apply Guarded.transfer (selected.sdmmcBkops false replies.bkops)
      intro writes
      obtain ⟨open_, kept⟩ := allowed writes
      rcases Sim.sdmmcBkops_cases _ replies.bkops with ⟨_, _, _, noted⟩ | ⟨resets, _, _, noted⟩
      · rw [noted]
        exact open_
      · rw [noted]
        refine isProtected_sdmmcReset_of_open _ open_ fun enabled => ?_
        have before : sim.bkopsResets replies.bkops = true := resets
        have cached : (sim.devInf.cache && sim.cache) = true := enabled
        change (sim.part ccb.unit).config &&& MMC_PART_MSK ≠ MMC_PART_USER
        simpa [losesWrite, resetsBeforeTransfer, selection, before, cached] using kept

/-! ## The other handlers -/

theorem Guarded.erased {done : Sim × Nat} (guarded : start.Guarded done.1) (ccb : Ccb) :
    start.Guarded (Sim.erased ccb done).1 := by
  unfold Sim.erased
  split
  · exact guarded.sdmmcError ccb done.2
  · exact guarded

/-- The commands that protect groups modify no data. -/
theorem Guarded.sendProtect (guarded : start.Guarded sim) (unit : LogicalUnit) (reply : Reply) :
    start.Guarded (sim.send unit .writeProtect reply) := guarded.send .writeProtect reply nofun

theorem Guarded.wpGroups (replies : Nat → Reply) (groups turn : Nat)
    (guarded : start.Guarded sim) :
    start.Guarded (Sim.wpGroups unit replies groups turn sim).1 := by
  induction groups generalizing turn sim with
  | zero => exact guarded
  | succ groups ih =>
      have sent := guarded.sendProtect unit (replies turn)
      unfold Sim.wpGroups
      dsimp only
      split
      · exact sent
      · exact ih (turn + 1) sent

theorem Guarded.wpCommands (guarded : start.Guarded sim) (action groups : Nat)
    (replies : WpReplies) : start.Guarded (sim.wpCommands unit action groups replies).1 := by
  unfold Sim.wpCommands
  split
  · exact guarded
  · split
    · exact guarded.wpGroups replies.group groups 0
    · split
      · exact guarded
      · exact guarded.sendProtect unit replies.query

theorem Guarded.wpMode (guarded : start.Guarded sim) (unit : LogicalUnit)
    (action partition : Nat) (reply : Reply) :
    start.Guarded (if action = SDMMC_WP_ACTION_SET then sim.wpMode unit partition reply
      else (sim, EOK)).1 := by
  unfold Sim.wpMode
  split_ifs
  · exact guarded.sendProtect unit reply
  · exact guarded
  · exact guarded

theorem Guarded.writeProtect (guarded : start.Guarded sim) (action partition lba nlba : Nat)
    (replies : WpReplies) :
    start.Guarded (sim.writeProtect unit action partition lba nlba replies).1 := by
  have selected := guarded.sdioSetPartition partition replies.sync replies.partition
  unfold Sim.writeProtect
  dsimp only
  split
  · exact guarded
  · split
    · exact guarded
    · split
      · exact selected
      · have set := selected.wpMode unit action partition replies.mode
        generalize (if action = SDMMC_WP_ACTION_SET then
          (sim.sdioSetPartition partition replies.sync replies.partition).1.wpMode unit partition
            replies.mode
          else ((sim.sdioSetPartition partition replies.sync replies.partition).1, EOK)) = mode
          at set ⊢
        split
        · exact set
        · exact set.wpCommands action _ replies

/-! ## Requests and runs -/

/-- A request that passes its checks and respects the mark. -/
theorem Guarded.core (guarded : start.Guarded sim) (ccb : Ccb) (request : Request)
    (passed : sim.passes ccb request = true) (respects : sim.disregards ccb request = false) :
    start.Guarded (sim.core ccb request) := by
  cases request with
  | read io replies =>
      apply guarded.selectAndTransfer
      intro writes
      cases writes
  | write io replies =>
      have allowed : sim.transferAllowed ccb true = true := (Bool.and_eq_true_iff.mp passed).2
      have open_ : sim.isProtected ccb.unit = false := by
        unfold transferAllowed at allowed
        simp only [Bool.and_eq_true, Bool.not_eq_true', Bool.true_and] at allowed
        exact allowed.1.2
      have dirtied : start.Guarded sim.dirtied ∧
          sim.dirtied.isProtected ccb.unit = sim.isProtected ccb.unit ∧
            sim.dirtied.losesWrite ccb.unit replies = sim.losesWrite ccb.unit replies := by
        unfold Sim.dirtied
        split
        · exact ⟨guarded.same rfl rfl, rfl, rfl⟩
        · exact ⟨guarded, rfl, rfl⟩
      obtain ⟨marked, same, loses⟩ := dirtied
      apply marked.selectAndTransfer
      intro _
      exact ⟨same.trans open_, loses.trans respects⟩
  | writeSame unmap nlba reply =>
      exact Guarded.erased (guarded.sdioErase respects _ nlba reply).1 ccb
  | erase12 cdbLba nlba reply =>
      exact Guarded.erased (guarded.sdioErase respects _ nlba reply).1 ccb
  | sync flush => exact guarded
  | erase action lba nlba reply => exact (guarded.sdioErase respects _ _ reply).1
  | dsm opt holdsRanges ranges replies => exact guarded.dsmLoop replies ranges 0 respects
  | writeProtect action lba nlba replies => exact guarded.writeProtect action _ _ _ replies

/-- One action that respects the mark. -/
theorem Guarded.act (guarded : start.Guarded sim) {action : SimAction} {after : Sim}
    (respects : sim.RespectsMark action) (acted : sim.act action = some after) :
    start.Guarded after := by
  rcases sim.act_cases acted with
    ⟨reply, rfl, rfl⟩ | ⟨ccb, request, _, reset, served, rfl, _, isServed, ends⟩
  · exact guarded.sdmmcBkops true reply
  · have handled : start.Guarded served.1 := by
      rcases sim.serve_cases ccb request isServed with unserved | ⟨passed, same⟩
      · exact guarded.unserved unserved
      · rw [same]
        exact guarded.core ccb request passed (respects passed)
    rcases ends with rfl | rfl
    · exact handled
    · exact handled.sdmmcReset reset

end Sim

/-- In every run whose requests respect the mark, marks stay and no command that modifies is
sent to a partition that carries one. -/
theorem spared_of_respectsMark (start final : Sim) (attached : start.sent = [])
    (reached : Reaches Sim.act Sim.RespectsMark start final) :
    final.Spared ∧ ∀ unit, start.isProtected unit = true → final.isProtected unit = true := by
  have starts : start.Guarded start :=
    { spared := by
        intro command isSent
        rw [attached] at isSent
        exact absurd isSent List.not_mem_nil
      marks := fun _ marked => marked }
  have guarded := reached.invariant start.Guarded starts
    fun _ _ _ guarded respects acted => guarded.act respects acted
  exact ⟨guarded.spared, guarded.marks⟩

/-! ## A protected card that is erased -/

/-- A write protected card with one partition. -/
def protectedSim : Sim :=
  { isMmc := false, acmd12 := true, dma := true
    devInf :=
      { locked := false, cache := false, bkops := false, trim := false, secure := false
        secureTrim := false, discard := false, wrRel := false, wrRelEnh := false, cmd23 := true
        sectorSize := 512, eraseSize := 512, wpSize := 0, relWrSecC := 0 }
    present := true, cache := false, vcacheDirty := false, bkops := false, relwr := false
    paused := false, bkopsStatus := 0, bkopsTicks := 0
    tables :=
      { ntargs := 0
        targets := fun _ => ⟨0, 512, fun _ => ⟨SDMMC_PFLAG_WP, 0, "uda", 0, 4095, 4096⟩⟩ }
    pactive := 0, access := 0, sent := [] }

def protectedCcb : Ccb :=
  { unit := ⟨0, 0⟩, isScsiIo := true, autosense := true, dataPhys := true, dxferLen := 0
    permitted := true }

/-- Every command of an erase is accepted. -/
def plainErase : EraseReply :=
  { sync := EOK, partition := ⟨EOK, true⟩, hasCmd := true, groupStart := ⟨EOK, true⟩
    groupEnd := ⟨EOK, true⟩, erase := ⟨EOK, true⟩, wait := EOK }

def plainTransfer : RwReplies :=
  { sync := EOK, partition := ⟨EOK, true⟩, reset := ⟨EOK, false, EOK⟩
    bkops := ⟨EOK, none, EOK, EOK, ⟨EOK, false, EOK⟩⟩
    rw := fun _ =>
      { hasCmd := true, sync := EOK, data := ⟨EOK, true⟩, cstatus := CS_CMD_CMP, rsp := 0
        status := (EOK, 0), stop := EOK, wait := (EOK, 0), last := (EOK, 0)
        reset := ⟨EOK, false, EOK⟩, devInf := protectedSim.devInf }
    turns := 0 }

/-- A read of the protected card respects the mark. -/
theorem protectedRead_spared : ∃ final,
    protectedSim.act (.request { protectedCcb with dxferLen := 512 }
      (.read ⟨0, false, [512]⟩ plainTransfer) EOK ⟨EOK, false, EOK⟩) = some final ∧
        final.Spared := by
  obtain ⟨final, acted⟩ : ∃ final,
    protectedSim.act (.request { protectedCcb with dxferLen := 512 }
      (.read ⟨0, false, [512]⟩ plainTransfer) EOK ⟨EOK, false, EOK⟩) = some final := ⟨_, rfl⟩
  have reached : Reaches Sim.act Sim.RespectsMark protectedSim final :=
    Reaches.refl.next acted fun _ => rfl
  exact ⟨final, acted, (spared_of_respectsMark protectedSim final rfl reached).1⟩

/-- The protected card is erased. -/
theorem protected_erased :
    ¬ ∀ start final : Sim, start.sent = [] → Reaches Sim.act always start final →
      final.Spared := by
  intro claim
  obtain ⟨final, acted, sent⟩ : ∃ final,
      protectedSim.act (.request protectedCcb (.erase12 0 8 plainErase) EOK
        ⟨EOK, false, EOK⟩) = some final ∧
          (⟨.erase, 0, true, 0, true⟩ : Sent) ∈ final.sent :=
    ⟨_, rfl, List.mem_cons_self⟩
  have reached : Reaches Sim.act always protectedSim final := Reaches.refl.next acted trivial
  exact absurd (claim protectedSim final rfl reached _ sent rfl) (by decide)

end Bcm2711.Sdmmc
