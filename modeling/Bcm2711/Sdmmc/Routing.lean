import Bcm2711.Lib.Actions
import Bcm2711.Sdmmc.Checks

/-! # The partition that a command works on

A command is routed when the card works on the partition of its request.  The driver
knows the card's partition as long as every switch that it saw fail was not carried out
after all, or was followed by a reset; and a reset that comes between the selection and
the transfer undoes the selection.
-/

namespace Bcm2711.Sdmmc

open Actions

variable {sim : Sim}

/-- Every command that the card accepted worked on the partition of its request. -/
def Sim.Routed (sim : Sim) : Prop :=
  ∀ command ∈ sim.sent, command.accepted = true →
    command.access = command.config &&& MMC_PART_MSK

/-- An eMMC card has just been attached. -/
structure Sim.Attached (sim : Sim) : Prop where
  isMmc : sim.isMmc = true
  shadow : sim.access = sim.pactive &&& MMC_PART_MSK
  sent : sim.sent = []

/-! ## Requests that keep their way -/

namespace Sim

/-- A switch to another partition fails, though the card carries it out. -/
def switchLost (sim : Sim) (unit : LogicalUnit) (sync : Nat) (reply : Reply) : Bool :=
  sync = EOK && sim.pactive ≠ (sim.part unit).config && reply.status ≠ EOK &&
    reply.carriedOut && sim.access ≠ (sim.part unit).config &&& MMC_PART_MSK

/-- A request that passes its checks goes astray: the card is reset between the selection of
a partition other than the user area and the transfer, or a switch outside of a transfer
fails though the card carries it out. -/
def goesAstray (sim : Sim) (ccb : Ccb) : Request → Bool
  | .read _ replies => sim.resetsBeforeTransfer ccb.unit replies &&
      (sim.part ccb.unit).config &&& MMC_PART_MSK ≠ MMC_PART_USER
  | .write _ replies => sim.resetsBeforeTransfer ccb.unit replies &&
      (sim.part ccb.unit).config &&& MMC_PART_MSK ≠ MMC_PART_USER
  | .writeSame _ _ reply => sim.switchLost ccb.unit reply.sync reply.partition
  | .erase12 _ _ reply => sim.switchLost ccb.unit reply.sync reply.partition
  | .sync _ => false
  | .erase _ _ _ reply => sim.switchLost ccb.unit reply.sync reply.partition
  | .dsm _ _ _ replies => sim.switchLost ccb.unit (replies 0).sync (replies 0).partition
  | .writeProtect _ _ _ replies => sim.switchLost ccb.unit replies.sync replies.partition

/-- No request that passes its checks goes astray. -/
def KeepsWay (sim : Sim) : SimAction → Prop
  | .request ccb request _ _ => sim.passes ccb request = true → sim.goesAstray ccb request = false
  | .timer _ => True

/-! ## What the driver knows -/

/-- Each unit has its partition, and commands were routed so far. -/
structure Settled (config : LogicalUnit → Nat) (sim : Sim) : Prop where
  isMmc : sim.isMmc = true
  configs : ∀ unit, (sim.part unit).config = config unit
  routed : sim.Routed

/-- The driver also knows which partition the card works on. -/
structure Tracks (config : LogicalUnit → Nat) (sim : Sim) : Prop extends
    Settled config sim where
  shadow : sim.access = sim.pactive &&& MMC_PART_MSK

/-- The card works on the unit's partition. -/
def On (config : LogicalUnit → Nat) (unit : LogicalUnit) (sim : Sim) : Prop :=
  sim.access = config unit &&& MMC_PART_MSK

end Sim

variable {config : LogicalUnit → Nat} {unit : LogicalUnit}

/-- Attributes do not change what a partition is. -/
theorem config_setPartitionAttr (tables : Targets) (partition flags tidx pidx : Nat) :
    ((tables.setPartitionAttr partition flags).part tidx pidx).config =
      (tables.part tidx pidx).config := by
  unfold Targets.setPartitionAttr
  refine List.foldlRecOn (motive := fun marked : Targets =>
    (marked.part tidx pidx).config = (tables.part tidx pidx).config) _ _ rfl ?_
  intro marked same pair _
  split
  · rw [Targets.part_modify]
    split
    · exact same
    · exact same
  · exact same

namespace Sim

namespace Settled

/-- A command to the partition that the card works on is routed. -/
theorem send (settled : sim.Settled config) (on : sim.On config unit) (kind : CmdKind)
    (reply : Reply) : (sim.send unit kind reply).Settled config where
  isMmc := settled.isMmc
  configs := settled.configs
  routed := by
    intro command isSent accepted
    rcases List.mem_append.mp isSent with before | new
    · exact settled.routed command before accepted
    · obtain rfl := List.mem_singleton.mp new
      change sim.access = (sim.part unit).config &&& MMC_PART_MSK
      rw [settled.configs unit]
      exact on

/-- The configuration after a reset changes neither partitions nor commands. -/
theorem devCfg (settled : sim.Settled config) (reply : ResetReply) :
    (sim.devCfg reply).Settled config := by
  unfold Sim.devCfg mmcCfg
  dsimp only
  split <;> split <;> exact ⟨settled.isMmc, settled.configs, settled.routed⟩

theorem loseCache (settled : sim.Settled config) : sim.loseCache.Settled config := by
  unfold Sim.loseCache
  split
  · refine ⟨settled.isMmc, fun unit => ?_, settled.routed⟩
    unfold part
    dsimp only
    split
    · rw [config_setPartitionAttr]
      exact settled.configs unit
    · exact settled.configs unit
  · exact settled

end Settled

/-- The configuration after a reset selects nothing. -/
theorem devCfg_selection (sim : Sim) (reply : ResetReply) :
    (sim.devCfg reply).access = sim.access ∧ (sim.devCfg reply).pactive = sim.pactive := by
  unfold Sim.devCfg mmcCfg
  dsimp only
  split <;> split <;> exact ⟨rfl, rfl⟩

theorem loseCache_selection (sim : Sim) :
    sim.loseCache.access = sim.access ∧ sim.loseCache.pactive = sim.pactive := by
  unfold Sim.loseCache
  split <;> exact ⟨rfl, rfl⟩

/-- After a reset the card works on the user area. -/
theorem sdmmcReset_selection (sim : Sim) (reply : ResetReply) :
    (sim.sdmmcReset reply).access = 0 ∧ (sim.sdmmcReset reply).pactive = 0 := by
  obtain ⟨access, pactive⟩ := (sim.sdioReset.loseCache).devCfg_selection reply
  obtain ⟨cleared, forgotten⟩ := sim.sdioReset.loseCache_selection
  exact ⟨access.trans cleared, pactive.trans forgotten⟩

/-- A reset tells the driver what the card works on, whatever happened before. -/
theorem Settled.sdmmcReset (settled : sim.Settled config) (reply : ResetReply) :
    (sim.sdmmcReset reply).Tracks config := by
  have off : sim.sdioReset.Settled config :=
    ⟨settled.isMmc, settled.configs, settled.routed⟩
  obtain ⟨access, pactive⟩ := sim.sdmmcReset_selection reply
  refine { toSettled := off.loseCache.devCfg reply, shadow := ?_ }
  rw [access, pactive]
  rfl

namespace Tracks

variable {reply : Reply}

theorem send (tracks : sim.Tracks config) (on : sim.On config unit) (kind : CmdKind)
    (reply : Reply) : (sim.send unit kind reply).Tracks config where
  toSettled := tracks.toSettled.send on kind reply
  shadow := tracks.shadow

end Tracks

/-! ## Selection -/

/-- A selection may leave the driver in the wrong about the card, but changes nothing
else. -/
theorem Settled.mmcSetPartition (settled : sim.Settled config) (partition : Nat)
    (reply : Reply) : (sim.mmcSetPartition partition reply).1.Settled config := by
  rcases sim.mmcSetPartition_cases partition reply with
    ⟨_, same⟩ | ⟨_, _, same⟩ | ⟨_, _, _, same⟩ | ⟨_, _, _, same⟩
  all_goals
    rw [same]
    exact ⟨settled.isMmc, settled.configs, settled.routed⟩

/-- A successful selection puts the card on the partition. -/
theorem Tracks.mmcSetPartition_ok (tracks : sim.Tracks config) {reply : Reply}
    (succeeded : (sim.mmcSetPartition (config unit) reply).2 = EOK) :
    (sim.mmcSetPartition (config unit) reply).1.Tracks config ∧
      (sim.mmcSetPartition (config unit) reply).1.On config unit ∧
        (sim.mmcSetPartition (config unit) reply).1.pactive = config unit := by
  have settled := tracks.toSettled.mmcSetPartition (config unit) reply
  rcases sim.mmcSetPartition_cases (config unit) reply with
    ⟨already, same⟩ | ⟨_, _, same⟩ | ⟨_, failed, _, same⟩ | ⟨_, failed, _, same⟩
  · rw [same]
    refine ⟨tracks, ?_, already⟩
    rw [On, tracks.shadow, already]
  · rw [same] at settled ⊢
    exact ⟨⟨settled, rfl⟩, rfl, rfl⟩
  · rw [same] at succeeded
    exact absurd succeeded failed
  · rw [same] at succeeded
    exact absurd succeeded failed

/-- A selection whose switch is not lost keeps the driver in the know. -/
theorem Tracks.mmcSetPartition (tracks : sim.Tracks config) {reply : Reply}
    (kept : sim.switchLost unit EOK reply = false) :
    (sim.mmcSetPartition (config unit) reply).1.Tracks config := by
  have settled := tracks.toSettled.mmcSetPartition (config unit) reply
  rcases sim.mmcSetPartition_cases (config unit) reply with
    ⟨_, same⟩ | ⟨_, _, same⟩ | ⟨other, failed, carriedOut, same⟩ | ⟨_, _, _, same⟩
  · rw [same]
    exact tracks
  · rw [same] at settled ⊢
    exact ⟨settled, rfl⟩
  · rw [same] at settled ⊢
    have there : sim.access = config unit &&& MMC_PART_MSK := by
      simpa [switchLost, tracks.configs unit, other, failed, carriedOut] using kept
    refine ⟨settled, ?_⟩
    change config unit &&& MMC_PART_MSK = sim.pactive &&& MMC_PART_MSK
    rw [← there, tracks.shadow]
  · rw [same]
    exact tracks

theorem Settled.sdioSetPartition (settled : sim.Settled config) (partition sync : Nat)
    (reply : Reply) : (sim.sdioSetPartition partition sync reply).1.Settled config := by
  obtain ⟨_, _, same⟩ := sim.sdioSetPartition_eq partition sync reply
  rw [same]
  exact ⟨settled.isMmc, settled.configs, settled.routed⟩

theorem Tracks.sdioSetPartition_ok (tracks : sim.Tracks config) {sync : Nat} {reply : Reply}
    (succeeded : (sim.sdioSetPartition (config unit) sync reply).2 = EOK) :
    (sim.sdioSetPartition (config unit) sync reply).1.Tracks config ∧
      (sim.sdioSetPartition (config unit) sync reply).1.On config unit := by
  unfold Sim.sdioSetPartition at succeeded ⊢
  split
  · next failed =>
      rw [if_pos failed] at succeeded
      exact absurd succeeded failed
  · next synchronized =>
      rw [if_neg synchronized, if_pos tracks.isMmc] at succeeded
      rw [if_pos tracks.isMmc]
      obtain ⟨selected, on, _⟩ := tracks.mmcSetPartition_ok succeeded
      exact ⟨selected, on⟩

/-- A switch that is not lost keeps the driver in the know. -/
theorem Tracks.sdioSetPartition (tracks : sim.Tracks config) {sync : Nat} {reply : Reply}
    (kept : sim.switchLost unit sync reply = false) :
    (sim.sdioSetPartition (config unit) sync reply).1.Tracks config := by
  unfold Sim.sdioSetPartition
  split
  · exact tracks
  · next synchronized =>
      rw [if_pos tracks.isMmc]
      rw [not_not.mp synchronized] at kept
      exact tracks.mmcSetPartition kept

/-! ## Erases -/

/-- The commands of an erase go to the partition that the card works on. -/
theorem Tracks.eraseGroup (tracks : sim.Tracks config) (on : sim.On config unit)
    (reply : EraseReply) :
    (sim.eraseGroup unit reply).1.Tracks config ∧
      (sim.eraseGroup unit reply).1.pactive = sim.pactive := by
  have started := tracks.send on .erase reply.groupStart
  have ended := started.send on .erase reply.groupEnd
  unfold Sim.eraseGroup
  dsimp only
  split
  · exact ⟨started, rfl⟩
  · split
    · exact ⟨ended, rfl⟩
    · exact ⟨ended.send on .erase reply.erase, rfl⟩

theorem Tracks.mmcErase (tracks : sim.Tracks config) {reply : EraseReply} (nlba : Nat)
    (kept : sim.switchLost unit EOK reply.partition = false) :
    (sim.mmcErase unit (config unit) nlba reply).1.Tracks config ∧
      ((sim.mmcErase unit (config unit) nlba reply).2 = EOK →
        (sim.mmcErase unit (config unit) nlba reply).1.pactive = config unit) := by
  have selection := tracks.mmcSetPartition kept
  unfold Sim.mmcErase
  dsimp only
  split
  · next failed => exact ⟨selection, fun succeeded => absurd succeeded failed⟩
  · next succeeded =>
      obtain ⟨selected, on, active⟩ := tracks.mmcSetPartition_ok (not_not.mp succeeded)
      split
      · exact ⟨selected, nofun⟩
      · split
        · exact ⟨selected, fun _ => active⟩
        · obtain ⟨erased, same⟩ := selected.eraseGroup on reply
          split
          · exact ⟨erased, fun _ => same.trans active⟩
          · exact ⟨erased, fun _ => same.trans active⟩

/-- An erase keeps the driver in the know, and when it succeeds the card works on the
partition. -/
theorem Tracks.sdioErase (tracks : sim.Tracks config) {reply : EraseReply} (nlba : Nat)
    (kept : sim.switchLost unit reply.sync reply.partition = false) :
    (sim.sdioErase unit (config unit) nlba reply).1.Tracks config ∧
      ((sim.sdioErase unit (config unit) nlba reply).2 = EOK →
        (sim.sdioErase unit (config unit) nlba reply).1.pactive = config unit) := by
  unfold Sim.sdioErase
  by_cases synchronized : reply.sync = EOK
  · rw [if_neg (not_not.mpr synchronized), if_pos tracks.isMmc]
    rw [synchronized] at kept
    exact tracks.mmcErase nlba kept
  · rw [if_pos synchronized]
    exact ⟨tracks, fun succeeded => absurd succeeded synchronized⟩

/-- The driver does not switch again to the partition that it selected. -/
theorem switchLost_of_active (config_eq : (sim.part unit).config = sim.pactive) (sync : Nat)
    (reply : Reply) : sim.switchLost unit sync reply = false := by
  simp [switchLost, config_eq]

/-- After the first range of a data set request there is nothing left to switch. -/
theorem Tracks.dsmLoop (replies : Nat → EraseReply) (ranges : List (Nat × Nat)) (turn : Nat)
    (tracks : sim.Tracks config)
    (kept : sim.firstInside unit ranges = true →
      sim.switchLost unit (replies turn).sync (replies turn).partition = false) :
    (Sim.dsmLoop unit replies ranges turn sim).1.Tracks config := by
  induction ranges generalizing turn sim with
  | nil => exact tracks
  | cons range ranges ih =>
      obtain ⟨lba, nlba⟩ := range
      unfold Sim.dsmLoop
      by_cases beyond : sim.beyond 64 unit (Word.add 64 (sim.part unit).slba lba) nlba = true
      · rw [if_pos beyond]
        exact tracks
      · rw [if_neg beyond, tracks.configs unit]
        dsimp only
        have inside : sim.firstInside unit ((lba, nlba) :: ranges) = true := by
          simpa [firstInside] using beyond
        obtain ⟨erased, active⟩ := tracks.sdioErase nlba (kept inside)
        split
        · exact erased
        · next succeeded =>
            apply ih (turn + 1) erased
            intro _
            apply switchLost_of_active
            rw [erased.configs unit, active (not_not.mp succeeded)]

/-! ## Errors -/

/-- A request that is not served tells the driver nothing about the selection. -/
theorem Tracks.unserved {after : Sim} (tracks : sim.Tracks config)
    (unserved : sim.Unserved after) : after.Tracks config := by
  obtain ⟨_, _, rfl⟩ := unserved
  exact ⟨⟨tracks.isMmc, tracks.configs, tracks.routed⟩, tracks.shadow⟩

theorem Tracks.sdmmcError (tracks : sim.Tracks config) (ccb : Ccb) (status : Nat) :
    (sim.sdmmcError ccb status).1.Tracks config :=
  tracks.unserved (.sdmmcError sim ccb status)

/-! ## Background operations -/

/-- Background operations keep the driver in the know, even when they end in a reset. -/
theorem Tracks.sdmmcBkops (tracks : sim.Tracks config) (tick : Bool) (reply : BkopsReply) :
    (sim.sdmmcBkops tick reply).Tracks config := by
  refine sdmmcBkops_kept (Tracks config) ?_ ?_ tracks tick reply
  · exact fun _ reply tracks => tracks.sdmmcReset reply
  · exact fun _ _ _ tracks =>
      ⟨⟨tracks.isMmc, tracks.configs, tracks.routed⟩, tracks.shadow⟩

/-! ## Transfers -/

/-- The end of a failed transfer may reset the card. -/
theorem Tracks.recover (tracks : sim.Tracks config) (flgs : RwFlags) (dlen status : Nat)
    (reply : RwReply) : (sim.recover flgs dlen status reply).Tracks config := by
  have ready :
      (if reply.last.1 ≠ EOK || !readyInTran reply.last.2 then sim.sdmmcReset reply.reset
        else sim).Tracks config := by
    split
    · exact tracks.sdmmcReset reply.reset
    · exact tracks
  exact ⟨⟨ready.isMmc, ready.configs, ready.routed⟩, ready.shadow⟩

/-- A transfer goes to the partition that the card works on, and one that succeeds leaves the
card there. -/
theorem Tracks.sdmmcRw (tracks : sim.Tracks config) (on : sim.On config unit) (flgs : RwFlags)
    (dlen : Nat) (reply : RwReply) :
    (sim.sdmmcRw unit flgs dlen reply).1.Tracks config ∧
      ((sim.sdmmcRw unit flgs dlen reply).2 = EOK →
        (sim.sdmmcRw unit flgs dlen reply).1.On config unit) := by
  have sent := tracks.send on (if flgs.dirOut then .write else .read) reply.data
  have noted : ∀ urgent : Prop, [Decidable urgent] → ∀ status,
      (if urgent then
        { sim.send unit (if flgs.dirOut then .write else .read) reply.data with
          bkopsStatus := status }
      else sim.send unit (if flgs.dirOut then .write else .read) reply.data).Tracks config ∧
      (if urgent then
        { sim.send unit (if flgs.dirOut then .write else .read) reply.data with
          bkopsStatus := status }
      else sim.send unit (if flgs.dirOut then .write else .read) reply.data).On config unit := by
    intro urgent _ status
    split
    · exact ⟨⟨⟨sent.isMmc, sent.configs, sent.routed⟩, sent.shadow⟩, on⟩
    · exact ⟨sent, on⟩
  unfold Sim.sdmmcRw
  dsimp only
  split
  · exact ⟨tracks, nofun⟩
  · split
    · next failed => exact ⟨tracks, fun succeeded => absurd succeeded failed⟩
    · split
      · exact ⟨sent, nofun⟩
      · obtain ⟨kept, there⟩ := noted
          (Word.test (sim.transferred flgs dlen reply).2 CDS_URGENT_BKOPS = true)
          BKOPS_STATUS_OPERATIONS_CRITICAL
        split
        · next failed => exact ⟨kept.recover _ _ _ _, fun succeeded => absurd succeeded failed⟩
        · exact ⟨kept, fun _ => there⟩

/-- Each legacy reliable write is only made when the one before it succeeded. -/
theorem Tracks.legacyWrite (flgs : RwFlags) (replies : Nat → RwReply) (turns turn : Nat)
    (sgCounts : List Nat) (lba : Nat) (tracks : sim.Tracks config) (on : sim.On config unit) :
    (Sim.legacyWrite unit flgs replies turns turn sgCounts lba sim).1.Tracks config := by
  induction turns generalizing turn sgCounts lba sim with
  | zero => exact tracks
  | succ turns ih =>
      cases sgCounts with
      | nil => exact tracks
      | cons sgCount sgCounts =>
          unfold Sim.legacyWrite
          split
          · exact ih turn sgCounts lba tracks on
          · obtain ⟨written, there⟩ :=
              tracks.sdmmcRw on flgs (sim.legacyCount lba sgCount) (replies turn)
            dsimp only
            split
            · exact written
            · next succeeded => exact ih _ _ _ written (there (not_not.mp succeeded))

theorem Tracks.finish {done : Sim × Option Nat} (tracks : done.1.Tracks config) (ccb : Ccb) :
    (Sim.finish ccb done).1.Tracks config := by
  obtain ⟨after, status⟩ := done
  cases status with
  | none => exact tracks
  | some status =>
      unfold Sim.finish
      dsimp only
      split
      · exact tracks.sdmmcError ccb status
      · exact tracks

theorem Tracks.transfer {ccb : Ccb} (tracks : sim.Tracks config) (on : sim.On config ccb.unit)
    (flgs : RwFlags) (io : Transfer) (replies : RwReplies) :
    (sim.transfer ccb flgs io replies).1.Tracks config := by
  unfold Sim.transfer
  dsimp only
  split
  · exact Tracks.finish (tracks.legacyWrite flgs replies.rw _ _ _ _ on) ccb
  · exact Tracks.finish (tracks.sdmmcRw on flgs ccb.dxferLen (replies.rw 0)).1 ccb

/-- A transfer works on its partition unless the card is reset after the selection. -/
theorem Tracks.selectAndTransfer {ccb : Ccb} (tracks : sim.Tracks config) (flgs : RwFlags)
    (io : Transfer) (replies : RwReplies)
    (kept : (sim.resetsBeforeTransfer ccb.unit replies &&
      (sim.part ccb.unit).config &&& MMC_PART_MSK ≠ MMC_PART_USER) = false) :
    (sim.selectAndTransfer ccb flgs io replies).1.Tracks config := by
  have settled :=
    tracks.toSettled.sdioSetPartition (config ccb.unit) replies.sync replies.partition
  unfold Sim.selectAndTransfer
  dsimp only
  split
  · rw [tracks.configs ccb.unit]
    exact (settled.sdmmcReset replies.reset).sdmmcError ccb ETIMEDOUT
  · next succeeded =>
      have selection := selectionSucceeds_of_eok (not_not.mp succeeded)
      rw [tracks.configs ccb.unit] at succeeded ⊢
      obtain ⟨selected, on⟩ := tracks.sdioSetPartition_ok (not_not.mp succeeded)
      refine (selected.sdmmcBkops false replies.bkops).transfer ?_ flgs io replies
      rcases Sim.sdmmcBkops_cases _ replies.bkops with ⟨_, _, _, same⟩ | ⟨resets, _, _, same⟩
      · rw [same]
        exact on
      · -- the card was reset, so the partition must be the user area
        obtain ⟨_, _, same'⟩ :=
          sim.sdioSetPartition_eq (config ccb.unit) replies.sync replies.partition
        have before : sim.bkopsResets replies.bkops = true := by
          rw [same'] at resets
          exact resets
        have user : config ccb.unit &&& MMC_PART_MSK = MMC_PART_USER := by
          simpa [resetsBeforeTransfer, selection, before, tracks.configs ccb.unit] using kept
        rw [same]
        exact (Sim.sdmmcReset_selection _ _).1.trans user.symm

/-! ## The other handlers -/

theorem Tracks.erased {done : Sim × Nat} (tracks : done.1.Tracks config) (ccb : Ccb) :
    (Sim.erased ccb done).1.Tracks config := by
  unfold Sim.erased
  split
  · exact tracks.sdmmcError ccb done.2
  · exact tracks

/-- Write protect groups are routed like any other command. -/
theorem Tracks.wpGroups (replies : Nat → Reply) (groups turn : Nat)
    (tracks : sim.Tracks config) (on : sim.On config unit) :
    (Sim.wpGroups unit replies groups turn sim).1.Tracks config := by
  induction groups generalizing turn sim with
  | zero => exact tracks
  | succ groups ih =>
      have sent := tracks.send on .writeProtect (replies turn)
      unfold Sim.wpGroups
      dsimp only
      split
      · exact sent
      · exact ih (turn + 1) sent on

theorem Tracks.wpCommands (tracks : sim.Tracks config) (on : sim.On config unit)
    (action groups : Nat) (replies : WpReplies) :
    (sim.wpCommands unit action groups replies).1.Tracks config := by
  unfold Sim.wpCommands
  split
  · exact tracks
  · split
    · exact tracks.wpGroups replies.group groups 0 on
    · split
      · exact tracks
      · exact tracks.send on .writeProtect replies.query

/-- The mode of the protection is set where the groups are. -/
theorem Tracks.wpMode (tracks : sim.Tracks config) (on : sim.On config unit) (action : Nat)
    (reply : Reply) :
    (if action = SDMMC_WP_ACTION_SET then sim.wpMode unit (config unit) reply
      else (sim, EOK)).1.Tracks config ∧
    (if action = SDMMC_WP_ACTION_SET then sim.wpMode unit (config unit) reply
      else (sim, EOK)).1.On config unit := by
  unfold Sim.wpMode
  split_ifs
  · exact ⟨tracks.send on .writeProtect reply, on⟩
  · exact ⟨tracks, on⟩
  · exact ⟨tracks, on⟩

theorem Tracks.writeProtect (tracks : sim.Tracks config) (action lba nlba : Nat)
    {replies : WpReplies}
    (kept : sim.switchLost unit replies.sync replies.partition = false) :
    (sim.writeProtect unit action (config unit) lba nlba replies).1.Tracks config := by
  unfold Sim.writeProtect
  dsimp only
  split
  · exact tracks
  · split
    · exact tracks
    · split
      · exact tracks.sdioSetPartition kept
      · next succeeded =>
          obtain ⟨selected, on⟩ := tracks.sdioSetPartition_ok (not_not.mp succeeded)
          obtain ⟨set, there⟩ := selected.wpMode on action replies.mode
          generalize (if action = SDMMC_WP_ACTION_SET then
            (sim.sdioSetPartition (config unit) replies.sync replies.partition).1.wpMode unit
              (config unit) replies.mode
            else ((sim.sdioSetPartition (config unit) replies.sync replies.partition).1, EOK)) =
              mode at set there ⊢
          split
          · exact set
          · exact set.wpCommands there action _ replies

/-! ## Requests and runs -/

/-- The core of a handler keeps the driver in the know when the request keeps its way. -/
theorem Tracks.core (tracks : sim.Tracks config) (ccb : Ccb) (request : Request)
    (kept : sim.goesAstray ccb request = false) : (sim.core ccb request).Tracks config := by
  have config_eq := tracks.configs ccb.unit
  cases request with
  | read io replies => exact tracks.selectAndTransfer _ io replies kept
  | write io replies =>
      have dirtied : sim.dirtied.Tracks config ∧
          sim.dirtied.resetsBeforeTransfer ccb.unit replies =
            sim.resetsBeforeTransfer ccb.unit replies ∧
          (sim.dirtied.part ccb.unit).config = (sim.part ccb.unit).config := by
        unfold Sim.dirtied
        split
        · exact ⟨⟨⟨tracks.isMmc, tracks.configs, tracks.routed⟩, tracks.shadow⟩, rfl, rfl⟩
        · exact ⟨tracks, rfl, rfl⟩
      obtain ⟨marked, resets, same⟩ := dirtied
      apply marked.selectAndTransfer
      rw [resets, same]
      exact kept
  | writeSame unmap nlba reply =>
      unfold Sim.core
      rw [config_eq]
      exact Tracks.erased (tracks.sdioErase _ kept).1 ccb
  | erase12 cdbLba nlba reply =>
      unfold Sim.core
      rw [config_eq]
      exact Tracks.erased (tracks.sdioErase _ kept).1 ccb
  | sync flush => exact tracks
  | erase action lba nlba reply =>
      unfold Sim.core
      rw [config_eq]
      exact (tracks.sdioErase _ kept).1
  | dsm opt holdsRanges ranges replies => exact tracks.dsmLoop replies ranges 0 fun _ => kept
  | writeProtect action lba nlba replies =>
      unfold Sim.core
      rw [config_eq]
      exact tracks.writeProtect action _ _ kept

/-- One action that keeps its way. -/
theorem Tracks.act (tracks : sim.Tracks config) {action : SimAction} {after : Sim}
    (keepsWay : sim.KeepsWay action) (acted : sim.act action = some after) :
    after.Tracks config := by
  rcases sim.act_cases acted with
    ⟨reply, rfl, rfl⟩ | ⟨ccb, request, _, reset, served, rfl, _, isServed, ends⟩
  · exact tracks.sdmmcBkops true reply
  · have handled : served.1.Tracks config := by
      rcases sim.serve_cases ccb request isServed with unserved | ⟨passed, same⟩
      · exact tracks.unserved unserved
      · rw [same]
        exact tracks.core ccb request (keepsWay passed)
    rcases ends with rfl | rfl
    · exact handled
    · exact handled.sdmmcReset reset

end Sim

/-- In every run of an eMMC card whose requests keep their way, every command that the card
accepts works on the partition of its request. -/
theorem routed_of_keepsWay (start final : Sim) (attached : start.Attached)
    (reached : Reaches Sim.act Sim.KeepsWay start final) : final.Routed := by
  have starts : start.Tracks fun unit => (start.part unit).config :=
    { isMmc := attached.isMmc
      configs := fun _ => rfl
      routed := by
        intro command isSent
        rw [attached.sent] at isSent
        exact absurd isSent List.not_mem_nil
      shadow := attached.shadow }
  have tracks := reached.invariant (Sim.Tracks fun unit => (start.part unit).config) starts
    fun _ _ _ tracks keepsWay acted => tracks.act keepsWay acted
  exact tracks.routed

/-! ## A boot area that is written elsewhere -/

/-- A card with the user area as target 0 and a boot area as target 1. -/
def bootTables : Targets :=
  { ntargs := 1, targets := fun tidx => ⟨0, 512, fun _ => ⟨0, tidx, "", 0, 4095, 4096⟩⟩ }

/-- What is known of the card. -/
def bootInf : DevInf :=
  { locked := false, cache := false, bkops := true, trim := true, secure := true
    secureTrim := true, discard := true, wrRel := true, wrRelEnh := true, cmd23 := true
    sectorSize := 512, eraseSize := 524288, wpSize := 8388608, relWrSecC := 1 }

/-- The card when it has just been attached, with manual background operations on. -/
def bootSim : Sim :=
  { isMmc := true, acmd12 := true, dma := true, devInf := bootInf, present := true
    cache := false, vcacheDirty := false, bkops := true, relwr := false, paused := false
    bkopsStatus := 0, bkopsTicks := 0, tables := bootTables, pactive := 0, access := 0
    sent := [] }

/-- A request of one block for the boot area. -/
def bootCcb : Ccb :=
  { unit := ⟨1, 0⟩, isScsiIo := true, autosense := true, dataPhys := true, dxferLen := 512
    permitted := true }

def bootTransfer : Transfer := ⟨8, false, [512]⟩

/-- The configuration after a reset succeeds. -/
def plainReset : ResetReply := ⟨EOK, false, EOK⟩

/-- A transfer that succeeds, with this response. -/
def plainRw (rsp : Nat) : RwReply :=
  { hasCmd := true, sync := EOK, data := ⟨EOK, true⟩, cstatus := CS_CMD_CMP, rsp := rsp
    status := (EOK, 0), stop := EOK, wait := (EOK, rsp), last := (EOK, 0)
    reset := plainReset, devInf := bootInf }

/-- The selection succeeds and the transfer too; background operations come to `bkops`. -/
def plainReplies (bkops : BkopsReply) (rsp : Nat) : RwReplies :=
  { sync := EOK, partition := ⟨EOK, true⟩, reset := plainReset, bkops := bkops
    rw := fun _ => plainRw rsp, turns := 0 }

/-- The start of the background operations times out, and they cannot be interrupted. -/
def stuckBkops : BkopsReply := ⟨EOK, none, ETIMEDOUT, EIO, plainReset⟩

/-- Background operations that go well. -/
def calmBkops : BkopsReply := ⟨EOK, none, EOK, EOK, plainReset⟩

/-- A read of the boot area, whose response asks for background operations. -/
def bootRead : SimAction :=
  .request bootCcb (.read bootTransfer (plainReplies calmBkops CDS_URGENT_BKOPS)) EOK plainReset

/-- A write of the boot area, during which the card is reset. -/
def bootWrite : SimAction :=
  .request bootCcb (.write bootTransfer (plainReplies stuckBkops 0)) EOK plainReset

theorem attached_bootSim : bootSim.Attached := ⟨rfl, rfl, rfl⟩

/-- The read of the boot area is routed. -/
theorem bootRead_routed : ∃ final, bootSim.act bootRead = some final ∧ final.Routed := by
  obtain ⟨final, acted⟩ : ∃ final, bootSim.act bootRead = some final := ⟨_, rfl⟩
  refine ⟨final, acted, routed_of_keepsWay bootSim final attached_bootSim ?_⟩
  exact Reaches.refl.next acted fun _ => rfl

/-- The write of the boot area goes to the user area. -/
theorem bootWrite_astray :
    ¬ ∀ start final : Sim, start.Attached → Reaches Sim.act always start final →
      final.Routed := by
  intro claim
  obtain ⟨final, performed, sent⟩ : ∃ final,
      perform Sim.act bootSim [bootRead, bootWrite] = some final ∧
        (⟨.write, 1, false, 0, true⟩ : Sent) ∈ final.sent :=
    ⟨_, rfl, List.mem_cons_of_mem _ (List.mem_singleton.mpr rfl)⟩
  have routed := claim bootSim final attached_bootSim (reaches_of_perform performed)
  exact absurd (routed _ sent rfl) (by decide)

end Bcm2711.Sdmmc
