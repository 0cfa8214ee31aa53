import Bcm2711.Sdmmc.WriteProtect

/-! # The blocks of an erase

A request names blocks of a partition; `mmc_erase` and `sd_erase` send the addresses of the first
and of the last, in the 32 bits of a command's argument.
-/

namespace Bcm2711.Sdmmc

def MMC_TAG_ERASE_GROUP_START : Nat := 35
def MMC_TAG_ERASE_GROUP_END : Nat := 36
def MMC_ERASE : Nat := 38
def MMC_ERASE_SECURE_TRIM_PURGE : Nat := 0x80008000
def MMC_ERASE_SECURE_TRIM : Nat := 0x80000001
def MMC_ERASE_SECURE : Nat := 0x80000000
def MMC_ERASE_DISCARD : Nat := 0x00000003
def MMC_ERASE_TRIM : Nat := 0x00000001
def MMC_ERASE_NORM : Nat := 0x00000000
def SD_ERASE_WR_BLK_START : Nat := 32
def SD_ERASE_WR_BLK_END : Nat := 33
def SD_ERASE : Nat := 38

def SDIO_TIME_DEFAULT : Nat := 1000
def MMC_ERASE_TIMEOUT : Nat := 300
def MMC_ERASE_TIMEOUT_MIN : Nat := 2000
def SD_ERASE_TIMEOUT : Nat := 250

/-- What an erase reads of `sdio_dev_t`. -/
structure EraseDev where
  /-- `dtype` is `DEV_TYPE_MMC`. -/
  isMmc : Bool
  /-- `DEV_CAP_HC`. -/
  hc : Bool
  /-- Of the CSD. -/
  blksz : Nat
  eraseGrpSize : Nat
  eraseGrpMult : Nat
  eraseBlkEn : Bool
  sectorSize : Nat
  writeBlLen : Nat
  /-- Of the extended CSD. -/
  eraseGrpDef : Bool
  hcEraseGroupSize : Nat
  eraseMult : Nat
  trimMult : Nat
  secEraseMult : Nat
  secTrimMult : Nat
  /-- Of the SD status. -/
  eraseTimeout : Nat
  eraseOffset : Nat
  blksz_pos : 0 < blksz
  grpSize_lt : eraseGrpSize < 2 ^ 8
  grpMult_lt : eraseGrpMult < 2 ^ 8
  hcGroup_lt : hcEraseGroupSize < 2 ^ 8

namespace EraseDev

variable (dev : EraseDev)

/-- `mmc_erase_grp_size`. -/
def mmcEraseGrpSize : Nat :=
  if dev.eraseGrpDef then dev.hcEraseGroupSize * MMC_ERASE_GRP_512K
  else (dev.eraseGrpSize + 1) * (dev.eraseGrpMult + 1) * 512

/-- `sd_erase_grp_size`. -/
def sdEraseGrpSize : Nat :=
  if dev.eraseBlkEn then 512 else (dev.sectorSize + 1) * 2 ^ dev.writeBlLen

/-- `erase_size`. -/
def eraseSize : Nat := (if dev.isMmc then dev.mmcEraseGrpSize else dev.sdEraseGrpSize) % 2 ^ 32

/-- The time for a group, in `mmc_erase_timeout`. -/
def tmult (etype : Nat) : Nat :=
  if !dev.eraseGrpDef then MMC_ERASE_TIMEOUT
  else if etype = MMC_ERASE_TRIM || etype = MMC_ERASE_DISCARD then
    MMC_ERASE_TIMEOUT * dev.trimMult
  else if etype = MMC_ERASE_SECURE then MMC_ERASE_TIMEOUT * dev.eraseMult * dev.secEraseMult
  else if etype = MMC_ERASE_SECURE_TRIM || etype = MMC_ERASE_SECURE_TRIM_PURGE then
    MMC_ERASE_TIMEOUT * dev.eraseMult * dev.secTrimMult
  else MMC_ERASE_TIMEOUT * dev.eraseMult

/-- `mmc_erase_timeout`; a card without erase groups makes it divide by zero. -/
def mmcEraseTimeout (etype nlba : Nat) : Option Nat :=
  let eraseGrpSize := dev.mmcEraseGrpSize / 512
  if eraseGrpSize = 0 then none
  else some (max (dev.tmult etype * (nlba / eraseGrpSize + 2)) MMC_ERASE_TIMEOUT_MIN)

/-- `sd_erase_timeout`. -/
def sdEraseTimeout (nlba : Nat) : Nat :=
  if dev.eraseTimeout ≠ 0 then Word.add 32 (dev.eraseTimeout * nlba) dev.eraseOffset
  else SD_ERASE_TIMEOUT * nlba % 2 ^ 32

/-- The argument for a block. -/
def eraseArg (lba : Nat) : Nat := (if dev.hc then lba else lba * dev.blksz % 2 ^ 64) % 2 ^ 32

end EraseDev

/-! ## The commands -/

/-- A command of an erase, as it is sent. -/
structure EraseCmd where
  op : Nat
  arg : Nat
  timeout : Nat
deriving DecidableEq, Repr

/-- The commands for the blocks from the first to the last, and the status; there is none where
the timeout divides by zero. -/
def eraseGroupCmds (startOp endOp eraseOp flgs first last : Nat) (timeout : Option Nat)
    (wait : Nat) (reply : EraseReply) : Option (List EraseCmd × Nat) :=
  let start : EraseCmd := ⟨startOp, first, SDIO_TIME_DEFAULT⟩
  if reply.groupStart.status ≠ EOK then some ([start], reply.groupStart.status)
  else
    match timeout with
    | none => none
    | some timeout =>
        let stop : EraseCmd := ⟨endOp, last, SDIO_TIME_DEFAULT⟩
        if reply.groupEnd.status ≠ EOK then some ([start, stop], reply.groupEnd.status)
        else
          some ([start, stop, ⟨eraseOp, flgs, timeout⟩],
            if reply.erase.status ≠ EOK then reply.erase.status else wait)

namespace Sim

variable (sim : Sim) (dev : EraseDev)

/-- What `mmc_erase` sends. -/
def mmcEraseCmds (partition flgs lba nlba : Nat) (reply : EraseReply) :
    Option (List EraseCmd × Nat) :=
  let selected := sim.mmcSetPartition partition reply.partition
  if selected.2 ≠ EOK then some ([], selected.2)
  else if !reply.hasCmd then some ([], ENOMEM)
  else if nlba = 0 then some ([], EOK)
  else
    eraseGroupCmds MMC_TAG_ERASE_GROUP_START MMC_TAG_ERASE_GROUP_END MMC_ERASE flgs
      (dev.eraseArg lba) (dev.eraseArg (Word.add 64 lba (nlba - 1)))
      (dev.mmcEraseTimeout flgs nlba) reply.wait reply

/-- What `sd_erase` sends. -/
def sdEraseCmds (flgs lba nlba : Nat) (reply : EraseReply) : Option (List EraseCmd × Nat) :=
  if !reply.hasCmd then some ([], ENOMEM)
  else if nlba = 0 then some ([], EOK)
  else
    eraseGroupCmds SD_ERASE_WR_BLK_START SD_ERASE_WR_BLK_END SD_ERASE flgs
      (dev.eraseArg lba) (dev.eraseArg (Word.sub 64 (Word.add 64 lba nlba) 1))
      (some (dev.sdEraseTimeout nlba)) EOK reply

/-- What `sdio_erase` sends. -/
def sdioEraseCmds (partition flgs lba nlba : Nat) (reply : EraseReply) :
    Option (List EraseCmd × Nat) :=
  if reply.sync ≠ EOK then some ([], reply.sync)
  else if sim.isMmc then sim.mmcEraseCmds dev partition flgs lba nlba reply
  else sdEraseCmds dev flgs lba nlba reply

/-- The calls of `sdio_erase` that `sdmmc_erase12` makes, with what each sends and its status, and
the status of the request. -/
def erase12Calls (ccb : Ccb) (cdbLba nlba : Nat) (reply : EraseReply) :
    Option (List (List EraseCmd × Nat) × Nat) :=
  let lba := Word.add 32 cdbLba (sim.part ccb.unit).slba
  let ready := sim.unitReady ccb
  if ready.2 ≠ CAM_REQ_CMP then some ([], ready.2)
  else if sim.beyond 32 ccb.unit lba nlba then some ([], (sim.sdmmcError ccb EINVAL).2)
  else if sim.egs = 0 then none
  else if lba % sim.egs ≠ 0 || nlba % sim.egs ≠ 0 then
    some ([], (sim.sdmmcError ccb EINVAL).2)
  else
    (sim.sdioEraseCmds dev (sim.part ccb.unit).config MMC_ERASE_SECURE lba nlba reply).map
      fun call => ([call],
        if call.2 ≠ EOK then (sim.sdmmcError ccb call.2).2 else CAM_REQ_CMP)

/-- The argument of `MMC_ERASE` for an action. -/
def eraseFlgs (action : Nat) : Nat :=
  if action = SDMMC_ERASE_ACTION_NORMAL then MMC_ERASE_NORM
  else if action = SDMMC_ERASE_ACTION_SECURE then MMC_ERASE_SECURE
  else if action = SDMMC_ERASE_ACTION_TRIM then MMC_ERASE_TRIM
  else if action = SDMMC_ERASE_ACTION_SECURE_TRIM then MMC_ERASE_SECURE_TRIM
  else if action = SDMMC_ERASE_ACTION_SECURE_PURGE then MMC_ERASE_SECURE_TRIM_PURGE
  else MMC_ERASE_DISCARD

/-- The calls that `sdmmc_erase_devctl` makes. -/
def eraseDevctlCalls (ccb : Ccb) (action lba nlba : Nat) (reply : EraseReply) :
    Option (List (List EraseCmd × Nat) × Nat) :=
  let count := nlba % 2 ^ 32
  let slba := Word.add 64 (sim.part ccb.unit).slba lba
  if (sim.unitReady ccb).2 ≠ CAM_REQ_CMP then some ([], EIO)
  else if sim.beyond 64 ccb.unit slba count then some ([], EINVAL)
  else
    match sim.eraseAllowed action slba count with
    | none => none
    | some false => some ([], EINVAL)
    | some true =>
        (sim.sdioEraseCmds dev (sim.part ccb.unit).config (eraseFlgs action) slba count
          reply).map fun call => ([call], call.2)

/-- The calls that `sdmmc_dsm` makes for its ranges. -/
def dsmCalls (unit : LogicalUnit) (dtype : Nat) (replies : Nat → EraseReply) :
    List (Nat × Nat) → Nat → Sim → Option (List (List EraseCmd × Nat) × Nat)
  | [], _, _ => some ([], EOK)
  | (dsmLba, dsmNlba) :: ranges, turn, sim =>
      let nlba := dsmNlba % 2 ^ 32
      let lba := Word.add 64 (sim.part unit).slba dsmLba
      if sim.beyond 64 unit lba nlba then some ([], EINVAL)
      else
        match sim.sdioEraseCmds dev (sim.part unit).config dtype lba nlba (replies turn) with
        | none => none
        | some (cmds, status) =>
            if status ≠ EOK then some ([(cmds, status)], status)
            else
              (dsmCalls unit dtype replies ranges (turn + 1)
                (sim.sdioErase unit (sim.part unit).config nlba (replies turn)).1).map
                  fun later => ((cmds, status) :: later.1, later.2)

/-- The calls that `sdmmc_dsm_devctl` makes. -/
def dsmDevctlCalls (ccb : Ccb) (opt : DsmOpt) (holdsRanges : Bool) (ranges : List (Nat × Nat))
    (replies : Nat → EraseReply) : Option (List (List EraseCmd × Nat) × Nat) :=
  if (sim.unitReady ccb).2 ≠ CAM_REQ_CMP then some ([], EIO)
  else if !holdsRanges then some ([], EINVAL)
  else
    match opt with
    | .trim =>
        if sim.devInf.trim then dsmCalls dev ccb.unit MMC_ERASE_TRIM replies ranges 0 sim
        else some ([], EINVAL)
    | .discard =>
        if sim.devInf.discard then dsmCalls dev ccb.unit MMC_ERASE_DISCARD replies ranges 0 sim
        else some ([], EINVAL)
    | .other => some ([], EINVAL)

/-- The commands of a group are counted by `eraseGroup`, and the status is its own but for what
follows the erase. -/
theorem eraseGroupCmds_sent (unit : LogicalUnit)
    (startOp endOp eraseOp flgs first last : Nat) (timeout : Option Nat) (wait : Nat)
    (reply : EraseReply) {cmds : List EraseCmd} {status : Nat}
    (ran : eraseGroupCmds startOp endOp eraseOp flgs first last timeout wait reply =
      some (cmds, status)) :
    (if (sim.eraseGroup unit reply).2 ≠ EOK then (sim.eraseGroup unit reply).2 else wait) =
        status ∧
      (sim.eraseGroup unit reply).1.sent.length = sim.sent.length + cmds.length := by
  unfold eraseGroupCmds at ran
  rw [eraseGroup]
  dsimp only at ran
  split at ran
  · next notStarted =>
      cases ran
      dsimp only
      rw [if_pos notStarted]
      exact ⟨if_pos notStarted, List.length_append⟩
  · next started =>
      dsimp only
      rw [if_neg started]
      cases timeout with
      | none => cases ran
      | some timeout =>
          dsimp only at ran
          split at ran
          · next notEnded =>
              cases ran
              rw [if_pos notEnded]
              refine ⟨if_pos notEnded, ?_⟩
              rw [send, send, List.length_append, List.length_append]
              rfl
          · next ended =>
              cases ran
              rw [if_neg ended]
              refine ⟨rfl, ?_⟩
              rw [send, send, send, List.length_append, List.length_append, List.length_append]
              rfl

/-- A selection sends no command of an erase. -/
theorem mmcSetPartition_sent (partition : Nat) (reply : Reply) :
    (sim.mmcSetPartition partition reply).1.sent = sim.sent := by
  rcases sim.mmcSetPartition_cases partition reply with
    ⟨_, same⟩ | ⟨_, _, same⟩ | ⟨_, _, _, same⟩ | ⟨_, _, _, same⟩ <;> rw [same]

theorem mmcEraseCmds_sent (unit : LogicalUnit) (partition flgs lba nlba : Nat)
    (reply : EraseReply) {cmds : List EraseCmd} {status : Nat}
    (ran : sim.mmcEraseCmds dev partition flgs lba nlba reply = some (cmds, status)) :
    (sim.mmcErase unit partition nlba reply).2 = status ∧
      (sim.mmcErase unit partition nlba reply).1.sent.length = sim.sent.length + cmds.length := by
  have quiet := sim.mmcSetPartition_sent partition reply.partition
  rw [mmcEraseCmds] at ran
  rw [mmcErase]
  dsimp only at ran ⊢
  split at ran
  · next unselected =>
      cases ran
      rw [if_pos unselected]
      exact ⟨rfl, congrArg List.length quiet⟩
  · next selected =>
      rw [if_neg selected]
      split at ran
      · next noCmd =>
          cases ran
          rw [if_pos noCmd]
          exact ⟨rfl, congrArg List.length quiet⟩
      · next hasCmd =>
          rw [if_neg hasCmd]
          split at ran
          · next nothing =>
              cases ran
              rw [if_pos nothing]
              exact ⟨rfl, congrArg List.length quiet⟩
          · next some =>
              rw [if_neg some]
              obtain ⟨same, more⟩ := eraseGroupCmds_sent _ unit _ _ _ _ _ _ _ _ _ ran
              rw [quiet] at more
              refine ⟨?_, ?_⟩
              · rw [← same]
                split <;> rfl
              · rw [← more]
                split <;> rfl

theorem sdEraseCmds_sent (unit : LogicalUnit) (flgs lba nlba : Nat) (reply : EraseReply)
    {cmds : List EraseCmd} {status : Nat}
    (ran : sdEraseCmds dev flgs lba nlba reply = some (cmds, status)) :
    (sim.sdErase unit nlba reply).2 = status ∧
      (sim.sdErase unit nlba reply).1.sent.length = sim.sent.length + cmds.length := by
  rw [sdEraseCmds] at ran
  rw [sdErase]
  split at ran
  · next noCmd =>
      cases ran
      rw [if_pos noCmd]
      exact ⟨rfl, rfl⟩
  · next hasCmd =>
      rw [if_neg hasCmd]
      split at ran
      · next nothing =>
          cases ran
          rw [if_pos nothing]
          exact ⟨rfl, rfl⟩
      · next some =>
          rw [if_neg some]
          obtain ⟨same, more⟩ := eraseGroupCmds_sent sim unit _ _ _ _ _ _ _ _ _ ran
          refine ⟨?_, more⟩
          rw [← same]
          split
          · rfl
          · next succeeded => exact not_not.mp succeeded

/-- They are the commands that `sdio_erase` sends, and the status is its own. -/
theorem sdioEraseCmds_sent (unit : LogicalUnit) (partition flgs lba nlba : Nat)
    (reply : EraseReply) {cmds : List EraseCmd} {status : Nat}
    (ran : sim.sdioEraseCmds dev partition flgs lba nlba reply = some (cmds, status)) :
    (sim.sdioErase unit partition nlba reply).2 = status ∧
      (sim.sdioErase unit partition nlba reply).1.sent.length = sim.sent.length + cmds.length := by
  rw [sdioEraseCmds] at ran
  rw [sdioErase]
  split at ran
  · next desynchronized =>
      cases ran
      rw [if_pos desynchronized]
      exact ⟨rfl, rfl⟩
  · next synchronized =>
      rw [if_neg synchronized]
      split at ran
      · next isMmc =>
          rw [if_pos isMmc]
          exact sim.mmcEraseCmds_sent dev unit partition flgs lba nlba reply ran
      · next isSd =>
          rw [if_neg isSd]
          exact sim.sdEraseCmds_sent dev unit flgs lba nlba reply ran

end Sim

/-! ## The blocks that a request names -/

/-- The address of a block: its number, or that of its first byte. -/
def EraseDev.address (dev : EraseDev) (block : Nat) : Nat :=
  if dev.hc then block else block * dev.blksz

/-- The commands that name a range of blocks, with their arguments. -/
def EraseDev.exactly (dev : EraseDev) (flgs first count : Nat) : List (Nat × Nat) :=
  if count = 0 then []
  else
    [(if dev.isMmc then MMC_TAG_ERASE_GROUP_START else SD_ERASE_WR_BLK_START, dev.address first),
      (if dev.isMmc then MMC_TAG_ERASE_GROUP_END else SD_ERASE_WR_BLK_END,
        dev.address (first + count - 1)),
      (MMC_ERASE, flgs)]

/-- The range lies in the partition. -/
def SdmmcPartition.Holds (part : SdmmcPartition) (range : Nat × Nat) : Prop :=
  range.2 = 0 ∨ range.1 + range.2 ≤ part.nlba

/-- The commands with their arguments. -/
def arguments (cmds : List EraseCmd) : List (Nat × Nat) := cmds.map fun cmd => (cmd.op, cmd.arg)

/-- Ranges of a partition are erased in one call after the other: a range is refused before its
call, or the call fails before it sends a command, or its commands name blocks of the partition. -/
inductive Erases (dev : EraseDev) (part : SdmmcPartition) (flgs : Nat) :
    List (Nat × Nat) → List (List EraseCmd × Nat) → (succeeded : Bool) → Prop
  | done : Erases dev part flgs [] [] true
  | refused (ranges : List (Nat × Nat)) : Erases dev part flgs ranges [] false
  | failed {range : Nat × Nat} {ranges : List (Nat × Nat)} {cmds : List EraseCmd} {status : Nat}
      (failure : status ≠ EOK)
      (named : cmds ≠ [] → part.Holds range ∧
        arguments cmds <+: dev.exactly flgs (part.slba + range.1) range.2) :
      Erases dev part flgs (range :: ranges) [(cmds, status)] false
  | erased {range : Nat × Nat} {ranges : List (Nat × Nat)} {cmds : List EraseCmd}
      {calls : List (List EraseCmd × Nat)} {succeeded : Bool} (inside : part.Holds range)
      (named : arguments cmds = dev.exactly flgs (part.slba + range.1) range.2)
      (rest : Erases dev part flgs ranges calls succeeded) :
      Erases dev part flgs (range :: ranges) ((cmds, EOK) :: calls) succeeded

/-- The range has an end that a command can name, on a card whose groups have blocks. -/
def EraseDev.Names (dev : EraseDev) (part : SdmmcPartition) (range : Nat × Nat) : Prop :=
  range.2 = 0 ∨
    (dev.address (part.slba + range.1 + range.2 - 1) < 2 ^ 32 ∧
      (dev.isMmc = true → dev.mmcEraseGrpSize / 512 ≠ 0))

section Addresses

variable {dev : EraseDev} {sim : Sim} {first count : Nat}

theorem EraseDev.eraseArg_lt (dev : EraseDev) (lba : Nat) : dev.eraseArg lba < 2 ^ 32 :=
  Nat.mod_lt _ (Nat.two_pow_pos 32)

/-- The argument is the address of a block that a command can name. -/
theorem EraseDev.eraseArg_eq {block : Nat} (fits : dev.address block < 2 ^ 32) :
    dev.eraseArg block = dev.address block := by
  rw [address] at fits ⊢
  rw [eraseArg]
  by_cases hc : dev.hc = true
  · rw [if_pos hc] at fits
    rw [if_pos hc, if_pos hc, Nat.mod_eq_of_lt fits]
  · rw [if_neg hc] at fits
    have narrow : block * dev.blksz < 2 ^ 64 := fits.trans (by norm_num)
    rw [if_neg hc, if_neg hc, Nat.mod_eq_of_lt narrow, Nat.mod_eq_of_lt fits]

theorem EraseDev.le_address (dev : EraseDev) (block : Nat) : block ≤ dev.address block := by
  rw [address]
  split
  · exact le_rfl
  · exact Nat.le_mul_of_pos_right block dev.blksz_pos

theorem EraseDev.address_mono (dev : EraseDev) {low high : Nat} (order : low ≤ high) :
    dev.address low ≤ dev.address high := by
  rw [address, address]
  split
  · exact order
  · exact Nat.mul_le_mul_right dev.blksz order

/-- One less than a sum, as the range checks compute it. -/
theorem sub_add_one (width : Nat) (some : 0 < first + count) :
    Word.sub width (Word.add width first count) 1 = (first + count - 1) % 2 ^ width := by
  rw [Word.sub, Word.add, Nat.mod_add_mod]
  rcases Nat.eq_zero_or_pos width with rfl | wide
  · rw [Nat.pow_zero, Nat.mod_one, Nat.mod_one]
  · have one : 1 % 2 ^ width = 1 := Nat.mod_eq_of_lt (Nat.one_lt_two_pow wide.ne')
    have around : first + count + (2 ^ width - 1) = first + count - 1 + 2 ^ width := by
      have positive := Nat.two_pow_pos width
      omega
    rw [one, around, Nat.add_mod_right]

/-- A range that does not wrap and passes the check lies in the partition. -/
theorem inside_of_passes {width : Nat} {unit : LogicalUnit} (some : count ≠ 0)
    (blocks : (sim.part unit).nlba ≠ 0) (unwrapped : first + count ≤ 2 ^ width)
    (passes : sim.beyond width unit first count = false) :
    first + count ≤ (sim.part unit).slba + (sim.part unit).nlba := by
  have positive : 0 < first + count := Nat.add_pos_right first (Nat.pos_of_ne_zero some)
  have filled : 0 < (sim.part unit).slba + (sim.part unit).nlba :=
    Nat.add_pos_right _ (Nat.pos_of_ne_zero blocks)
  rw [Sim.beyond, Bool.or_eq_false_iff, decide_eq_false_iff_not, decide_eq_false_iff_not,
    sub_add_one width positive, sub_add_one width filled,
    Nat.mod_eq_of_lt (Nat.sub_one_lt_of_le positive unwrapped)] at passes
  have last := (not_lt.mp passes.2).trans (Nat.mod_le _ _)
  exact (Nat.sub_le_sub_iff_right filled).mp last

/-- Nothing but the empty range in front of all blocks ends behind them. -/
theorem beyond_empty {unit : LogicalUnit} (blocks : (sim.part unit).nlba ≠ 0)
    (sized : (sim.part unit).nlba < 2 ^ 64) (start : (sim.part unit).slba = 0) :
    sim.beyond 64 unit 0 0 = true := by
  have filled : 0 < (sim.part unit).slba + (sim.part unit).nlba :=
    Nat.add_pos_right _ (Nat.pos_of_ne_zero blocks)
  have before : Word.sub 64 (Word.add 64 0 0) 1 = 2 ^ 64 - 1 := rfl
  rw [Sim.beyond, sub_add_one 64 filled, start, Nat.zero_add, before, Bool.or_eq_true_iff]
  right
  apply decide_eq_true
  rw [Nat.mod_eq_of_lt (by omega)]
  omega

/-- A range with a name that passes the check lies in the partition, and begins where the check
begins. -/
theorem EraseDev.Names.inside {part : SdmmcPartition} {unit : LogicalUnit} {range : Nat × Nat}
    (names : dev.Names part range) (isPart : sim.part unit = part) (blocks : part.nlba ≠ 0)
    {width : Nat} (wide : 32 ≤ width) (some : range.2 ≠ 0)
    (passes : sim.beyond width unit ((part.slba + range.1) % 2 ^ width) range.2 = false) :
    (part.slba + range.1) % 2 ^ width = part.slba + range.1 ∧ range.1 + range.2 ≤ part.nlba := by
  obtain ⟨named, _⟩ := names.resolve_left some
  have narrow : 2 ^ 32 ≤ 2 ^ width := Nat.pow_le_pow_right (by norm_num) wide
  have last := (dev.le_address _).trans_lt named
  have positive := Nat.pos_of_ne_zero some
  have start : (part.slba + range.1) % 2 ^ width = part.slba + range.1 :=
    Nat.mod_eq_of_lt (by omega)
  rw [start] at passes
  refine ⟨start, ?_⟩
  rw [← isPart] at blocks passes ⊢
  have fits : (sim.part unit).slba + range.1 + range.2 ≤ 2 ^ width := by
    rw [isPart]
    omega
  have inside := inside_of_passes some blocks fits passes
  rw [Nat.add_assoc] at inside
  exact Nat.le_of_add_le_add_left inside

/-- It is a range of the partition, from where the check begins. -/
theorem EraseDev.Names.holds {part : SdmmcPartition} {unit : LogicalUnit} {range : Nat × Nat}
    (names : dev.Names part range) (isPart : sim.part unit = part) (blocks : part.nlba ≠ 0)
    {width : Nat} (wide : 32 ≤ width)
    (passes : sim.beyond width unit ((part.slba + range.1) % 2 ^ width) range.2 = false) :
    part.Holds range ∧
      (range.2 = 0 ∨ (part.slba + range.1) % 2 ^ width = part.slba + range.1) := by
  by_cases none : range.2 = 0
  · exact ⟨.inl none, .inl none⟩
  · obtain ⟨start, inside⟩ := names.inside isPart blocks wide none passes
    exact ⟨.inr inside, .inr start⟩

/-- The count of a range with a name that passes the check is not cut. -/
theorem EraseDev.Names.count_eq {part : SdmmcPartition} {unit : LogicalUnit}
    {range : Nat × Nat} (names : dev.Names part range) (isPart : sim.part unit = part)
    (blocks : part.nlba ≠ 0) (sized : part.nlba < 2 ^ 64)
    (passes : sim.beyond 64 unit ((part.slba + range.1) % 2 ^ 64) (range.2 % 2 ^ 32) = false) :
    range.2 % 2 ^ 32 = range.2 := by
  rcases names with none | ⟨named, _⟩
  · rw [none, Nat.zero_mod]
  · apply Nat.mod_eq_of_lt
    by_contra large
    have last := (dev.le_address _).trans_lt named
    have start : part.slba + range.1 = 0 := by omega
    have whole : range.2 = 2 ^ 32 := by omega
    rw [start, whole, Nat.zero_mod, Nat.mod_self] at passes
    have first : (sim.part unit).slba = 0 := by
      rw [isPart]
      exact (Nat.add_eq_zero_iff.mp start).1
    rw [beyond_empty (by rwa [isPart]) (by rwa [isPart]) first] at passes
    cases passes

end Addresses

/-! ## One call -/

section Calls

variable {dev : EraseDev} {sim : Sim} {part : SdmmcPartition} {unit : LogicalUnit}

/-- A group sends its commands one after the other, and all of them when it succeeds. -/
theorem eraseGroupCmds_prefix (startOp endOp eraseOp flgs first last timeout wait : Nat)
    (reply : EraseReply) :
    ∃ cmds status,
      eraseGroupCmds startOp endOp eraseOp flgs first last (some timeout) wait reply =
          some (cmds, status) ∧
        arguments cmds <+: [(startOp, first), (endOp, last), (eraseOp, flgs)] ∧
        (status = EOK → arguments cmds = [(startOp, first), (endOp, last), (eraseOp, flgs)]) := by
  unfold eraseGroupCmds
  dsimp only
  by_cases notStarted : reply.groupStart.status ≠ EOK
  · rw [if_pos notStarted]
    exact ⟨_, _, rfl, ⟨[(endOp, last), (eraseOp, flgs)], rfl⟩, fun ok => absurd ok notStarted⟩
  · rw [if_neg notStarted]
    by_cases notEnded : reply.groupEnd.status ≠ EOK
    · rw [if_pos notEnded]
      exact ⟨_, _, rfl, ⟨[(eraseOp, flgs)], rfl⟩, fun ok => absurd ok notEnded⟩
    · rw [if_neg notEnded]
      exact ⟨_, _, rfl, List.prefix_rfl, fun _ => rfl⟩

/-- The commands of a range that has a name, with one turn of the loop. -/
theorem EraseDev.exactly_eq {flgs first count : Nat} (some : count ≠ 0)
    (fits : dev.address (first + count - 1) < 2 ^ 32) :
    dev.exactly flgs first count =
      [(if dev.isMmc then MMC_TAG_ERASE_GROUP_START else SD_ERASE_WR_BLK_START,
          dev.eraseArg first),
        (if dev.isMmc then MMC_TAG_ERASE_GROUP_END else SD_ERASE_WR_BLK_END,
          dev.eraseArg (first + count - 1)),
        (MMC_ERASE, flgs)] := by
  have order : first ≤ first + count - 1 :=
    Nat.le_sub_of_add_le (Nat.add_le_add_left (Nat.pos_of_ne_zero some) first)
  rw [exactly, if_neg some, eraseArg_eq fits, eraseArg_eq ((dev.address_mono order).trans_lt fits)]

/-- A range that has a name is erased by it. -/
theorem sdioEraseCmds_of_names (kind : sim.isMmc = dev.isMmc) (partition flgs : Nat)
    {first count : Nat}
    (names : count = 0 ∨ (dev.address (first + count - 1) < 2 ^ 32 ∧
      (dev.isMmc = true → dev.mmcEraseGrpSize / 512 ≠ 0))) (reply : EraseReply) :
    ∃ cmds status,
      sim.sdioEraseCmds dev partition flgs first count reply = some (cmds, status) ∧
        arguments cmds <+: dev.exactly flgs first count ∧
        (status = EOK → arguments cmds = dev.exactly flgs first count) := by
  have silent {status : Nat} (failed : status ≠ EOK) :
      ∃ cmds result, (some ([], status) : Option (List EraseCmd × Nat)) = some (cmds, result) ∧
        arguments cmds <+: dev.exactly flgs first count ∧
        (result = EOK → arguments cmds = dev.exactly flgs first count) :=
    ⟨[], status, rfl, List.nil_prefix, fun ok => absurd ok failed⟩
  have idle (none : count = 0) :
      ∃ cmds result, (some ([], EOK) : Option (List EraseCmd × Nat)) = some (cmds, result) ∧
        arguments cmds <+: dev.exactly flgs first count ∧
        (result = EOK → arguments cmds = dev.exactly flgs first count) := by
    refine ⟨[], EOK, rfl, List.nil_prefix, fun _ => ?_⟩
    rw [EraseDev.exactly, if_pos none]
    rfl
  rw [Sim.sdioEraseCmds]
  by_cases desynchronized : reply.sync ≠ EOK
  · rw [if_pos desynchronized]
    exact silent desynchronized
  · rw [if_neg desynchronized, kind]
    cases isMmc : dev.isMmc with
    | true =>
        rw [if_pos rfl, Sim.mmcEraseCmds]
        by_cases unselected : (sim.mmcSetPartition partition reply.partition).2 ≠ EOK
        · rw [if_pos unselected]
          exact silent unselected
        · rw [if_neg unselected]
          cases reply.hasCmd with
          | false => exact silent (by decide)
          | true =>
              rw [Bool.not_true, if_neg Bool.false_ne_true]
              by_cases none : count = 0
              · rw [if_pos none]
                exact idle none
              · obtain ⟨fits, groups⟩ := names.resolve_left none
                have last : Word.add 64 first (count - 1) = first + count - 1 := by
                  have some : 1 ≤ count := Nat.pos_of_ne_zero none
                  rw [Nat.add_sub_assoc some]
                  apply Word.add_of_lt
                  rw [← Nat.add_sub_assoc some]
                  exact ((dev.le_address _).trans_lt fits).trans (by norm_num)
                rw [if_neg none, EraseDev.exactly_eq none fits, EraseDev.mmcEraseTimeout,
                  if_neg (groups isMmc), last, isMmc]
                exact eraseGroupCmds_prefix _ _ _ _ _ _ _ _ _
    | false =>
        rw [if_neg Bool.false_ne_true, Sim.sdEraseCmds]
        cases reply.hasCmd with
        | false => exact silent (by decide)
        | true =>
            rw [Bool.not_true, if_neg Bool.false_ne_true]
            by_cases none : count = 0
            · rw [if_pos none]
              exact idle none
            · obtain ⟨fits, _⟩ := names.resolve_left none
              have last : Word.sub 64 (Word.add 64 first count) 1 = first + count - 1 := by
                rw [sub_add_one 64 (Nat.add_pos_right first (Nat.pos_of_ne_zero none))]
                exact Nat.mod_eq_of_lt
                  (((dev.le_address _).trans_lt fits).trans (by norm_num))
              rw [if_neg none, EraseDev.exactly_eq none fits, last, isMmc]
              exact eraseGroupCmds_prefix _ _ _ _ _ _ _ _ _

/-- Where every command succeeds, the card is without groups or the blocks get addresses of 32
bits. -/
theorem sdioEraseCmds_plain (kind : sim.isMmc = dev.isMmc) (partition flgs first count : Nat) :
    (sim.sdioEraseCmds dev partition flgs first count plainErase = none) ∨
      ∃ cmds, sim.sdioEraseCmds dev partition flgs first count plainErase = some (cmds, EOK) ∧
        (cmds = [] ∨ (dev.isMmc = true → dev.mmcEraseGrpSize / 512 ≠ 0)) ∧
        ∀ argument ∈ arguments cmds, argument.1 = MMC_ERASE ∨ argument.2 < 2 ^ 32 := by
  have group (startOp endOp first last timeout : Nat) :
      ∃ cmds, eraseGroupCmds startOp endOp MMC_ERASE flgs (dev.eraseArg first)
          (dev.eraseArg last) (some timeout) EOK plainErase = some (cmds, EOK) ∧
        ∀ argument ∈ arguments cmds, argument.1 = MMC_ERASE ∨ argument.2 < 2 ^ 32 := by
    refine ⟨_, rfl, ?_⟩
    intro argument member
    simp only [arguments, List.map_cons, List.map_nil, List.mem_cons, List.not_mem_nil,
      or_false] at member
    rcases member with rfl | rfl | rfl
    · exact .inr (dev.eraseArg_lt first)
    · exact .inr (dev.eraseArg_lt last)
    · exact .inl rfl
  have synchronized : ¬ plainErase.sync ≠ EOK := not_not.mpr rfl
  rw [Sim.sdioEraseCmds, if_neg synchronized, kind]
  cases isMmc : dev.isMmc with
  | true =>
      have selected : ¬ (sim.mmcSetPartition partition plainErase.partition).2 ≠ EOK :=
        not_not.mpr ((sim.mmcSetPartition_eok partition plainErase.partition).mpr (.inr rfl))
      rw [if_pos rfl, Sim.mmcEraseCmds, if_neg selected, plainErase, Bool.not_true,
        if_neg Bool.false_ne_true]
      by_cases none : count = 0
      · rw [if_pos none]
        exact .inr ⟨[], rfl, .inl rfl, fun argument member => absurd member List.not_mem_nil⟩
      · rw [if_neg none, EraseDev.mmcEraseTimeout]
        by_cases groups : dev.mmcEraseGrpSize / 512 = 0
        · rw [if_pos groups]
          exact .inl rfl
        · rw [if_neg groups]
          obtain ⟨cmds, sent, narrow⟩ := group MMC_TAG_ERASE_GROUP_START MMC_TAG_ERASE_GROUP_END
            first (Word.add 64 first (count - 1))
            (max (dev.tmult flgs * (count / (dev.mmcEraseGrpSize / 512) + 2))
              MMC_ERASE_TIMEOUT_MIN)
          exact .inr ⟨cmds, sent, .inr fun _ => groups, narrow⟩
  | false =>
      rw [if_neg Bool.false_ne_true, Sim.sdEraseCmds, plainErase, Bool.not_true,
        if_neg Bool.false_ne_true]
      by_cases none : count = 0
      · rw [if_pos none]
        exact .inr ⟨[], rfl, .inl rfl, fun argument member => absurd member List.not_mem_nil⟩
      · rw [if_neg none]
        obtain ⟨cmds, sent, narrow⟩ := group SD_ERASE_WR_BLK_START SD_ERASE_WR_BLK_END
          first (Word.sub 64 (Word.add 64 first count) 1) (dev.sdEraseTimeout count)
        exact .inr ⟨cmds, sent, .inr fun isMmc => absurd isMmc Bool.false_ne_true, narrow⟩

/-- Commands that name a range have the range's name in 32 bits. -/
theorem names_of_exactly {flgs : Nat} {range : Nat × Nat} {cmds : List EraseCmd}
    (named : arguments cmds = dev.exactly flgs (part.slba + range.1) range.2)
    (groups : cmds = [] ∨ (dev.isMmc = true → dev.mmcEraseGrpSize / 512 ≠ 0))
    (narrow : ∀ argument ∈ arguments cmds, argument.1 = MMC_ERASE ∨ argument.2 < 2 ^ 32) :
    dev.Names part range := by
  by_cases none : range.2 = 0
  · exact .inl none
  · right
    rw [EraseDev.exactly, if_neg none] at named
    have sent : cmds ≠ [] := by
      rintro rfl
      cases named
    refine ⟨?_, groups.resolve_left sent⟩
    have last := narrow (if dev.isMmc then MMC_TAG_ERASE_GROUP_END else SD_ERASE_WR_BLK_END,
      dev.address (part.slba + range.1 + range.2 - 1)) (by
        rw [named]
        exact List.mem_cons_of_mem _ List.mem_cons_self)
    apply last.resolve_left
    split
    · exact (by decide : MMC_TAG_ERASE_GROUP_END ≠ MMC_ERASE)
    · exact (by decide : SD_ERASE_WR_BLK_END ≠ MMC_ERASE)

/-- A call for a range that has a name, where the call begins with the range. -/
theorem Erases.call {flgs first : Nat} {range : Nat × Nat} (kind : sim.isMmc = dev.isMmc)
    (partition : Nat) (names : dev.Names part range) (inside : part.Holds range)
    (start : range.2 = 0 ∨ first = part.slba + range.1) (reply : EraseReply) :
    ∃ cmds status,
      sim.sdioEraseCmds dev partition flgs first range.2 reply = some (cmds, status) ∧
        (status ≠ EOK → cmds ≠ [] → part.Holds range ∧
          arguments cmds <+: dev.exactly flgs (part.slba + range.1) range.2) ∧
        (status = EOK → arguments cmds = dev.exactly flgs (part.slba + range.1) range.2) := by
  have same : dev.exactly flgs first range.2 =
      dev.exactly flgs (part.slba + range.1) range.2 := by
    rcases start with none | start
    · rw [EraseDev.exactly, if_pos none, EraseDev.exactly, if_pos none]
    · rw [start]
  have named : range.2 = 0 ∨ (dev.address (first + range.2 - 1) < 2 ^ 32 ∧
      (dev.isMmc = true → dev.mmcEraseGrpSize / 512 ≠ 0)) := by
    rcases start with none | start
    · exact .inl none
    · rw [start]
      exact names
  obtain ⟨cmds, status, called, sent, all⟩ :=
    sdioEraseCmds_of_names kind partition flgs named reply
  rw [same] at sent all
  exact ⟨cmds, status, called, fun _ _ => ⟨inside, sent⟩, all⟩

/-! ## The requests -/

/-- A range of a data set request passes the check. -/
def Sim.dsmPasses (sim : Sim) (unit : LogicalUnit) (range : Nat × Nat) : Bool :=
  !sim.beyond 64 unit (Word.add 64 (sim.part unit).slba range.1) (range.2 % 2 ^ 32)

/-- A card with the driver that knows it. -/
structure EraseCard where
  sim : Sim
  dev : EraseDev
  kind : sim.isMmc = dev.isMmc
  size : sim.devInf.eraseSize = dev.eraseSize
  slba_lt : ∀ unit, (sim.part unit).slba < 2 ^ 64
  nlba_lt : ∀ unit, (sim.part unit).nlba < 2 ^ 64

/-- A request to erase blocks. -/
inductive EraseRequest where
  /-- `SC_ERASE12`. -/
  | erase12 (ccb : Ccb) (lba nlba : Nat)
  /-- `DCMD_SDMMC_ERASE`. -/
  | devctl (ccb : Ccb) (action lba nlba : Nat)
  /-- `DCMD_CAM_DATA_SET_MGNT`. -/
  | dsm (ccb : Ccb) (opt : DsmOpt) (holdsRanges : Bool) (ranges : List (Nat × Nat))

namespace EraseCard

variable (card : EraseCard)

/-- The request is erased exactly, whatever its commands come to, and without dividing by zero. -/
def ErasesExactly : EraseRequest → Prop
  | .erase12 ccb lba nlba => ∀ reply, ∃ calls status,
      card.sim.erase12Calls card.dev ccb lba nlba reply = some (calls, status) ∧
        Erases card.dev (card.sim.part ccb.unit) MMC_ERASE_SECURE [(lba, nlba)] calls
          (decide (status = CAM_REQ_CMP))
  | .devctl ccb action lba nlba => ∀ reply, ∃ calls status,
      card.sim.eraseDevctlCalls card.dev ccb action lba nlba reply = some (calls, status) ∧
        Erases card.dev (card.sim.part ccb.unit) (Sim.eraseFlgs action) [(lba, nlba)] calls
          (decide (status = EOK))
  | .dsm ccb opt holdsRanges ranges => ∀ replies, ∃ calls status,
      card.sim.dsmDevctlCalls card.dev ccb opt holdsRanges ranges replies =
          some (calls, status) ∧
        Erases card.dev (card.sim.part ccb.unit)
          (if opt = .trim then MMC_ERASE_TRIM else MMC_ERASE_DISCARD) ranges calls
          (decide (status = EOK))

/-- Whatever passes the checks has a name, and none of the checks divides by zero. -/
def Named : EraseRequest → Prop
  | .erase12 ccb lba nlba =>
      let first := Word.add 32 lba (card.sim.part ccb.unit).slba
      card.sim.ready ccb = true → card.sim.beyond 32 ccb.unit first nlba = false →
        card.sim.egs ≠ 0 ∧ (first % card.sim.egs = 0 → nlba % card.sim.egs = 0 →
          card.dev.Names (card.sim.part ccb.unit) (lba, nlba))
  | .devctl ccb action lba nlba =>
      let first := Word.add 64 (card.sim.part ccb.unit).slba lba
      card.sim.ready ccb = true → card.sim.beyond 64 ccb.unit first (nlba % 2 ^ 32) = false →
        ∃ isAllowed, card.sim.eraseAllowed action first (nlba % 2 ^ 32) = some isAllowed ∧
          (isAllowed = true → card.dev.Names (card.sim.part ccb.unit) (lba, nlba))
  | .dsm ccb opt holdsRanges ranges =>
      card.sim.ready ccb = true → holdsRanges = true → card.sim.dsmAllowed opt = true →
        ∀ range ∈ ranges.takeWhile (card.sim.dsmPasses ccb.unit),
          card.dev.Names (card.sim.part ccb.unit) range

variable {card}

/-- The partition of a unit that is ready has blocks. -/
theorem blocks_of_ready (card : EraseCard) {ccb : Ccb}
    (isReady : (card.sim.unitReady ccb).2 = CAM_REQ_CMP) :
    (card.sim.part ccb.unit).nlba ≠ 0 := by
  have ready : card.sim.ready ccb = true := decide_eq_true isReady
  rw [Sim.ready_eq, Bool.and_eq_true] at ready
  exact of_decide_eq_true ready.2

/-- An error of a request is no success. -/
theorem sdmmcError_failed (sim : Sim) (ccb : Ccb) (status : Nat) :
    (sim.sdmmcError ccb status).2 ≠ CAM_REQ_CMP := by
  unfold Sim.sdmmcError
  split
  · exact Sim.sense_ne ccb
  · split
    · exact (by decide : CAM_NO_HBA ≠ CAM_REQ_CMP)
    · split
      · exact (by decide : CAM_CMD_TIMEOUT ≠ CAM_REQ_CMP)
      · exact (by decide : CAM_REQ_CMP_ERR ≠ CAM_REQ_CMP)

end EraseCard

/-- A call that succeeds has named its range. -/
theorem Erases.named {flgs : Nat} {range : Nat × Nat} {ranges : List (Nat × Nat)}
    {cmds : List EraseCmd} {calls : List (List EraseCmd × Nat)} {succeeded : Bool}
    (erases : Erases dev part flgs (range :: ranges) ((cmds, EOK) :: calls) succeeded) :
    arguments cmds = dev.exactly flgs (part.slba + range.1) range.2 ∧
      Erases dev part flgs ranges calls succeeded := by
  cases erases with
  | failed failure _ => exact absurd rfl failure
  | erased _ named rest => exact ⟨named, rest⟩

/-- One call for one range. -/
theorem Erases.single {flgs : Nat} {range : Nat × Nat} {cmds : List EraseCmd} {status : Nat}
    (inside : part.Holds range)
    (failure : status ≠ EOK → cmds ≠ [] → part.Holds range ∧
      arguments cmds <+: dev.exactly flgs (part.slba + range.1) range.2)
    (success : status = EOK → arguments cmds = dev.exactly flgs (part.slba + range.1) range.2) :
    Erases dev part flgs [range] [(cmds, status)] (decide (status = EOK)) := by
  by_cases succeeded : status = EOK
  · rw [decide_eq_true succeeded, succeeded]
    exact .erased inside (success succeeded) .done
  · rw [decide_eq_false succeeded]
    exact .failed succeeded (failure succeeded)

namespace EraseCard

variable {card : EraseCard}

/-- `SC_ERASE12`: what passes the checks has a name. -/
theorem erase12_iff (ccb : Ccb) (lba nlba : Nat) :
    card.ErasesExactly (.erase12 ccb lba nlba) ↔ card.Named (.erase12 ccb lba nlba) := by
  rw [ErasesExactly, Named]
  have readyIff : (card.sim.unitReady ccb).2 = CAM_REQ_CMP ↔ card.sim.ready ccb = true :=
    decide_eq_true_iff.symm
  constructor
  · intro erases isReady inside
    obtain ⟨calls, status, ran, erased⟩ := erases plainErase
    rw [Sim.erase12Calls] at ran
    rw [if_neg (not_not.mpr (readyIff.mpr isReady)), inside, if_neg Bool.false_ne_true] at ran
    by_cases none : card.sim.egs = 0
    · rw [if_pos none] at ran
      cases ran
    · rw [if_neg none] at ran
      refine ⟨none, fun aligned whole => ?_⟩
      rw [if_neg (by simp [aligned, whole])] at ran
      rcases sdioEraseCmds_plain card.kind (card.sim.part ccb.unit).config MMC_ERASE_SECURE
        (Word.add 32 lba (card.sim.part ccb.unit).slba) nlba with
        stuck | ⟨cmds, called, groups, narrow⟩
      · rw [stuck] at ran
        cases ran
      · rw [called] at ran
        cases ran
        exact names_of_exactly erased.named.1 groups narrow
  · intro named reply
    rw [Sim.erase12Calls]
    by_cases isReady : (card.sim.unitReady ccb).2 = CAM_REQ_CMP
    · rw [if_neg (not_not.mpr isReady)]
      cases inside : card.sim.beyond 32 ccb.unit
          (Word.add 32 lba (card.sim.part ccb.unit).slba) nlba with
      | true =>
          rw [if_pos rfl]
          refine ⟨_, _, rfl, ?_⟩
          rw [decide_eq_false (sdmmcError_failed _ _ _)]
          exact .refused _
      | false =>
          obtain ⟨groups, names⟩ := named (readyIff.mp isReady) inside
          have begins : Word.add 32 lba (card.sim.part ccb.unit).slba =
              ((card.sim.part ccb.unit).slba + lba) % 2 ^ 32 := by rw [Word.add, Nat.add_comm]
          rw [if_neg Bool.false_ne_true, if_neg groups]
          by_cases whole : Word.add 32 lba (card.sim.part ccb.unit).slba % card.sim.egs = 0 ∧
              nlba % card.sim.egs = 0
          · rw [if_neg (by simp [whole])]
            obtain ⟨holds, start⟩ := (names whole.1 whole.2).holds rfl
              (card.blocks_of_ready isReady) le_rfl (by rw [← begins]; exact inside)
            obtain ⟨cmds, status, called, failure, success⟩ := Erases.call card.kind
              (card.sim.part ccb.unit).config (names whole.1 whole.2) holds
              (start.imp_right begins.trans) reply
            refine ⟨_, _, congrArg (Option.map _) called, ?_⟩
            have outcome : decide ((if status ≠ EOK then
                (card.sim.sdmmcError ccb status).2 else CAM_REQ_CMP) = CAM_REQ_CMP) =
                decide (status = EOK) := by
              by_cases succeeded : status = EOK
              · rw [if_neg (not_not.mpr succeeded), decide_eq_true rfl, decide_eq_true succeeded]
              · rw [if_pos succeeded, decide_eq_false (sdmmcError_failed _ _ _),
                  decide_eq_false succeeded]
            rw [outcome]
            exact Erases.single holds failure success
          · rw [if_pos (by rcases not_and_or.mp whole with rest | rest <;> simp [rest])]
            refine ⟨_, _, rfl, ?_⟩
            rw [decide_eq_false (sdmmcError_failed _ _ _)]
            exact .refused _
    · rw [if_pos isReady]
      refine ⟨_, _, rfl, ?_⟩
      rw [decide_eq_false isReady]
      exact .refused _

/-- `sdmmc_erase_devctl`: what passes the checks has a name. -/
theorem devctl_iff (ccb : Ccb) (action lba nlba : Nat) :
    card.ErasesExactly (.devctl ccb action lba nlba) ↔
      card.Named (.devctl ccb action lba nlba) := by
  rw [ErasesExactly, Named]
  have readyIff : (card.sim.unitReady ccb).2 = CAM_REQ_CMP ↔ card.sim.ready ccb = true :=
    decide_eq_true_iff.symm
  constructor
  · intro erases isReady inside
    obtain ⟨calls, status, ran, erased⟩ := erases plainErase
    rw [Sim.eraseDevctlCalls] at ran
    rw [if_neg (not_not.mpr (readyIff.mpr isReady)), inside, if_neg Bool.false_ne_true] at ran
    cases allowed : card.sim.eraseAllowed action
        (Word.add 64 (card.sim.part ccb.unit).slba lba) (nlba % 2 ^ 32) with
    | none =>
        rw [allowed] at ran
        cases ran
    | some isAllowed =>
        refine ⟨isAllowed, rfl, ?_⟩
        rintro rfl
        rw [allowed] at ran
        dsimp only at ran
        rcases sdioEraseCmds_plain card.kind (card.sim.part ccb.unit).config
          (Sim.eraseFlgs action) (Word.add 64 (card.sim.part ccb.unit).slba lba)
          (nlba % 2 ^ 32) with stuck | ⟨cmds, called, groups, narrow⟩
        · rw [stuck] at ran
          cases ran
        · rw [called] at ran
          cases ran
          exact names_of_exactly erased.named.1 groups narrow
  · intro named reply
    rw [Sim.eraseDevctlCalls]
    by_cases isReady : (card.sim.unitReady ccb).2 = CAM_REQ_CMP
    · rw [if_neg (not_not.mpr isReady)]
      cases inside : card.sim.beyond 64 ccb.unit
          (Word.add 64 (card.sim.part ccb.unit).slba lba) (nlba % 2 ^ 32) with
      | true =>
          rw [if_pos rfl]
          exact ⟨_, _, rfl, .refused _⟩
      | false =>
          obtain ⟨isAllowed, allowed, names⟩ := named (readyIff.mp isReady) inside
          rw [if_neg Bool.false_ne_true, allowed]
          cases isAllowed with
          | false => exact ⟨_, _, rfl, .refused _⟩
          | true =>
              have blocks := card.blocks_of_ready isReady
              have uncut := (names rfl).count_eq rfl blocks (card.nlba_lt _) inside
              dsimp only at uncut
              rw [uncut] at inside ⊢
              obtain ⟨holds, start⟩ := (names rfl).holds rfl blocks (by norm_num) inside
              obtain ⟨cmds, status, called, failure, success⟩ := Erases.call card.kind
                (card.sim.part ccb.unit).config (names rfl) holds start reply
              exact ⟨_, _, congrArg (Option.map _) called, Erases.single holds failure success⟩
    · rw [if_pos isReady]
      exact ⟨_, _, rfl, .refused _⟩

end EraseCard

/-! ## Data set requests -/

/-- An erase changes nothing but what is selected and what has been sent. -/
theorem sdioErase_eq (sim : Sim) (unit : LogicalUnit) (partition nlba : Nat)
    (reply : EraseReply) :
    ∃ access pactive sent, (sim.sdioErase unit partition nlba reply).1 =
      { sim with access := access, pactive := pactive, sent := sent } := by
  have group (sim : Sim) : ∃ sent, (sim.eraseGroup unit reply).1 = { sim with sent := sent } := by
    rw [Sim.eraseGroup]
    split
    · exact ⟨_, rfl⟩
    · split
      · exact ⟨_, rfl⟩
      · exact ⟨_, rfl⟩
  rw [Sim.sdioErase]
  split
  · exact ⟨_, _, _, rfl⟩
  · split
    · have selected : ∃ access pactive, (sim.mmcSetPartition partition reply.partition).1 =
          { sim with access := access, pactive := pactive } := by
        rcases sim.mmcSetPartition_cases partition reply.partition with
          ⟨_, same⟩ | ⟨_, _, same⟩ | ⟨_, _, _, same⟩ | ⟨_, _, _, same⟩
        all_goals
          rw [same]
          exact ⟨_, _, rfl⟩
      obtain ⟨access, pactive, selected⟩ := selected
      rw [Sim.mmcErase]
      split
      · exact ⟨access, pactive, sim.sent, selected⟩
      · split
        · exact ⟨access, pactive, sim.sent, selected⟩
        · split
          · exact ⟨access, pactive, sim.sent, selected⟩
          · obtain ⟨sent, erased⟩ := group (sim.mmcSetPartition partition reply.partition).1
            rw [selected] at erased
            refine ⟨access, pactive, sent, ?_⟩
            dsimp only
            rw [selected]
            split
            · exact erased
            · exact erased
    · rw [Sim.sdErase]
      split
      · exact ⟨_, _, _, rfl⟩
      · split
        · exact ⟨_, _, _, rfl⟩
        · obtain ⟨sent, erased⟩ := group sim
          exact ⟨_, _, sent, erased⟩

/-- The next range is checked as it was before. -/
theorem sdioErase_dsmPasses (sim : Sim) (unit : LogicalUnit) (partition nlba : Nat)
    (reply : EraseReply) :
    (sim.sdioErase unit partition nlba reply).1.isMmc = sim.isMmc ∧
      (sim.sdioErase unit partition nlba reply).1.part unit = sim.part unit ∧
      (sim.sdioErase unit partition nlba reply).1.dsmPasses unit = sim.dsmPasses unit := by
  obtain ⟨access, pactive, sent, same⟩ := sdioErase_eq sim unit partition nlba reply
  rw [same]
  exact ⟨rfl, rfl, rfl⟩

/-- The ranges of a data set request are erased where those that pass have names. -/
theorem dsmCalls_erases (dtype : Nat) (replies : Nat → EraseReply) (ranges : List (Nat × Nat))
    (turn : Nat) (kind : sim.isMmc = dev.isMmc) (isPart : sim.part unit = part)
    (blocks : part.nlba ≠ 0) (sized : part.nlba < 2 ^ 64)
    (names : ∀ range ∈ ranges.takeWhile (sim.dsmPasses unit), dev.Names part range) :
    ∃ calls status, Sim.dsmCalls dev unit dtype replies ranges turn sim = some (calls, status) ∧
      Erases dev part dtype ranges calls (decide (status = EOK)) := by
  induction ranges generalizing sim turn with
  | nil => exact ⟨_, _, rfl, .done⟩
  | cons range ranges ih =>
      rw [Sim.dsmCalls]
      cases inside : sim.beyond 64 unit (Word.add 64 (sim.part unit).slba range.1)
          (range.2 % 2 ^ 32) with
      | true =>
          rw [if_pos rfl]
          exact ⟨_, _, rfl, .refused _⟩
      | false =>
          have passes : sim.dsmPasses unit range = true := by rw [Sim.dsmPasses, inside]; rfl
          rw [List.takeWhile_cons_of_pos passes] at names
          have named := names range List.mem_cons_self
          rw [isPart] at inside ⊢
          have uncut := named.count_eq isPart blocks sized inside
          rw [uncut] at inside ⊢
          obtain ⟨holds, start⟩ := named.holds isPart blocks (by norm_num) inside
          obtain ⟨cmds, status, called, failure, success⟩ :=
            Erases.call kind part.config named holds start (replies turn)
          rw [if_neg Bool.false_ne_true]
          obtain ⟨sameKind, samePart, sameCheck⟩ :=
            sdioErase_dsmPasses sim unit part.config range.2 (replies turn)
          have called : sim.sdioEraseCmds dev part.config dtype
              (Word.add 64 part.slba range.1) range.2 (replies turn) = some (cmds, status) := called
          rw [called]
          dsimp only
          by_cases succeeded : status = EOK
          · rw [if_neg (not_not.mpr succeeded)]
            obtain ⟨calls, last, later, erased⟩ := ih (turn + 1) (sameKind.trans kind)
              (samePart.trans isPart) (by
                rw [sameCheck]
                exact fun range member => names range (List.mem_cons_of_mem _ member))
            rw [later, succeeded]
            exact ⟨_, _, rfl, .erased holds (success succeeded) erased⟩
          · rw [if_pos succeeded]
            refine ⟨_, _, rfl, ?_⟩
            rw [decide_eq_false succeeded]
            exact .failed succeeded (failure succeeded)

/-- They have names where the ranges are erased with every command succeeding. -/
theorem names_of_dsmCalls (dtype : Nat) (ranges : List (Nat × Nat))
    (turn : Nat) (kind : sim.isMmc = dev.isMmc) (isPart : sim.part unit = part)
    {calls : List (List EraseCmd × Nat)} {status : Nat} {succeeded : Bool}
    (ran : Sim.dsmCalls dev unit dtype (fun _ => plainErase) ranges turn sim = some (calls, status))
    (erases : Erases dev part dtype ranges calls succeeded) :
    ∀ range ∈ ranges.takeWhile (sim.dsmPasses unit), dev.Names part range := by
  induction ranges generalizing sim turn calls with
  | nil => exact fun range member => absurd member List.not_mem_nil
  | cons range ranges ih =>
      cases passes : sim.dsmPasses unit range with
      | false =>
          rw [List.takeWhile_cons_of_neg (Bool.eq_false_iff.mp passes)]
          exact fun range member => absurd member List.not_mem_nil
      | true =>
          rw [List.takeWhile_cons_of_pos passes]
          rw [Sim.dsmPasses, Bool.not_eq_true'] at passes
          rw [Sim.dsmCalls, passes, if_neg Bool.false_ne_true] at ran
          rcases sdioEraseCmds_plain kind (sim.part unit).config dtype
            (Word.add 64 (sim.part unit).slba range.1) (range.2 % 2 ^ 32) with
            stuck | ⟨cmds, called, groups, narrow⟩
          · rw [stuck] at ran
            cases ran
          · rw [called] at ran
            dsimp only at ran
            rw [if_neg (not_not.mpr rfl)] at ran
            obtain ⟨later, rest, same⟩ := Option.map_eq_some_iff.mp ran
            obtain ⟨laterCalls, laterStatus⟩ := later
            cases same
            obtain ⟨named, others⟩ := erases.named
            obtain ⟨sameKind, samePart, sameCheck⟩ :=
              sdioErase_dsmPasses sim unit (sim.part unit).config (range.2 % 2 ^ 32) plainErase
            rw [List.forall_mem_cons]
            refine ⟨names_of_exactly named groups narrow, ?_⟩
            rw [← sameCheck]
            exact ih (turn + 1) (sameKind.trans kind) (samePart.trans isPart) rest others

namespace EraseCard

variable {card : EraseCard}

/-- A data set request: the ranges that pass the checks have names. -/
theorem dsm_iff (ccb : Ccb) (opt : DsmOpt) (holdsRanges : Bool) (ranges : List (Nat × Nat)) :
    card.ErasesExactly (.dsm ccb opt holdsRanges ranges) ↔
      card.Named (.dsm ccb opt holdsRanges ranges) := by
  rw [ErasesExactly, Named]
  have readyIff : (card.sim.unitReady ccb).2 = CAM_REQ_CMP ↔ card.sim.ready ccb = true :=
    decide_eq_true_iff.symm
  constructor
  · intro erases isReady holds allowed
    obtain ⟨calls, status, ran, erased⟩ := erases fun _ => plainErase
    unfold Sim.dsmDevctlCalls at ran
    rw [if_neg (not_not.mpr (readyIff.mpr isReady)), holds, Bool.not_true,
      if_neg Bool.false_ne_true] at ran
    cases opt with
    | trim =>
        have trim : card.sim.devInf.trim = true := allowed
        dsimp only at ran
        rw [if_pos trim] at ran
        exact names_of_dsmCalls _ ranges 0 card.kind rfl ran erased
    | discard =>
        have discard : card.sim.devInf.discard = true := allowed
        dsimp only at ran
        rw [if_pos discard] at ran
        exact names_of_dsmCalls _ ranges 0 card.kind rfl ran erased
    | other => cases allowed
  · intro named replies
    unfold Sim.dsmDevctlCalls
    by_cases isReady : (card.sim.unitReady ccb).2 = CAM_REQ_CMP
    · have names := named (readyIff.mp isReady)
      have blocks := card.blocks_of_ready isReady
      rw [if_neg (not_not.mpr isReady)]
      cases holdsRanges with
      | false => exact ⟨_, _, rfl, .refused _⟩
      | true =>
          rw [Bool.not_true, if_neg Bool.false_ne_true]
          cases opt with
          | trim =>
              dsimp only
              by_cases allowed : card.sim.devInf.trim = true
              · rw [if_pos allowed]
                exact dsmCalls_erases _ replies ranges 0 card.kind rfl blocks (card.nlba_lt _)
                  (names rfl allowed)
              · rw [if_neg allowed]
                exact ⟨_, _, rfl, .refused _⟩
          | discard =>
              dsimp only
              by_cases allowed : card.sim.devInf.discard = true
              · rw [if_pos allowed]
                exact dsmCalls_erases _ replies ranges 0 card.kind rfl blocks (card.nlba_lt _)
                  (names rfl allowed)
              · rw [if_neg allowed]
                exact ⟨_, _, rfl, .refused _⟩
          | other => exact ⟨_, _, rfl, .refused _⟩
    · rw [if_pos isReady]
      exact ⟨_, _, rfl, .refused _⟩

/-- The blocks that are erased are the requested ones exactly where what passes the checks has a
name. -/
theorem erasesExactly_iff (card : EraseCard) (request : EraseRequest) :
    card.ErasesExactly request ↔ card.Named request := by
  cases request with
  | erase12 ccb lba nlba => exact erase12_iff ccb lba nlba
  | devctl ccb action lba nlba => exact devctl_iff ccb action lba nlba
  | dsm ccb opt holdsRanges ranges => exact dsm_iff ccb opt holdsRanges ranges

/-- A high capacity SD card with a partition of 4096 blocks, that are erased one by one. -/
def sectorCard : EraseCard where
  sim :=
    { protectedSim with
      tables := ⟨0, fun _ => ⟨0, 512, fun _ => ⟨0, 0, "uda", 0, 4095, 4096⟩⟩⟩ }
  dev :=
    { isMmc := false, hc := true, blksz := 512, eraseGrpSize := 0, eraseGrpMult := 0
      eraseBlkEn := true, sectorSize := 127, writeBlLen := 9, eraseGrpDef := false
      hcEraseGroupSize := 0, eraseMult := 0, trimMult := 0, secEraseMult := 0, secTrimMult := 0
      eraseTimeout := 0, eraseOffset := 0, blksz_pos := by norm_num, grpSize_lt := by norm_num
      grpMult_lt := by norm_num, hcGroup_lt := by norm_num }
  kind := rfl
  size := rfl
  slba_lt := fun _ => Nat.two_pow_pos 64
  nlba_lt := fun _ => (by norm_num : 4096 < 2 ^ 64)

/-- A count that wraps in 32 bits passes for an erase from the ninth block. -/
theorem wrappedCount_misnamed :
    ¬ sectorCard.ErasesExactly (.erase12 protectedCcb 8 0xFFFFFFFC) := by
  rw [erase12_iff]
  intro named
  have passes : sectorCard.sim.beyond 32 protectedCcb.unit
      (Word.add 32 8 (sectorCard.sim.part protectedCcb.unit).slba) 0xFFFFFFFC = false := by decide
  have aligned : Word.add 32 8 (sectorCard.sim.part protectedCcb.unit).slba %
      sectorCard.sim.egs = 0 := by decide
  have whole : 0xFFFFFFFC % sectorCard.sim.egs = 0 := by decide
  have names := (named rfl passes).2 aligned whole
  rcases names with none | ⟨fits, _⟩
  · cases none
  · have start : (sectorCard.sim.part protectedCcb.unit).slba = 0 := rfl
    have hc : sectorCard.dev.hc = true := rfl
    rw [EraseDev.address, if_pos hc, start] at fits
    exact absurd fits (by norm_num)

end EraseCard

end Calls

end Bcm2711.Sdmmc
