import Bcm2711.Sdmmc.Erases

/-! # The time that an erase is given

The timeout grows with the number of blocks.  It is multiplied from registers of the card, and
`_sdio_send_cmd` takes it as a word of 32 bits.
-/

namespace Bcm2711.Sdmmc

open Word

namespace EraseDev

variable (dev : EraseDev)

/-- The registers have the sizes of their fields. -/
structure Sized : Prop where
  eraseMult : dev.eraseMult < 2 ^ 8
  trimMult : dev.trimMult < 2 ^ 8
  secEraseMult : dev.secEraseMult < 2 ^ 8
  secTrimMult : dev.secTrimMult < 2 ^ 8
  eraseTimeout : dev.eraseTimeout < 2 ^ 32
  eraseOffset : dev.eraseOffset < 2 ^ 32

/-- `mmc_erase_timeout` or `sd_erase_timeout`; nothing where it divides by zero. -/
def timeoutOf (etype nlba : Nat) : Option Nat :=
  if dev.isMmc then dev.mmcEraseTimeout etype nlba else some (dev.sdEraseTimeout nlba)

/-- The timeout as `_sdio_send_cmd` takes it. -/
def sentTimeout (etype nlba : Nat) : Option Nat :=
  (dev.timeoutOf etype nlba).map fun timeout => timeout % 2 ^ 32

/-- The time for one unit: a group of an MMC, or a block of an SD card. -/
def unitTimeout (etype : Nat) : Nat :=
  if dev.isMmc then dev.tmult etype
  else if dev.eraseTimeout ≠ 0 then dev.eraseTimeout else SD_ERASE_TIMEOUT

/-- The units that blocks from an address on lie in. -/
def units (lba nlba : Nat) : Nat :=
  if dev.isMmc then
    let blocks := dev.mmcEraseGrpSize / 512
    if nlba = 0 then 0 else (lba + nlba - 1) / blocks + 1 - lba / blocks
  else nlba

/-- For no number of blocks up to this one the timeout divides by zero, it is the longer the more
blocks there are, and it is enough for the units that they lie in. -/
structure TimesOut (etype nlba : Nat) : Prop where
  divides : ∀ count ≤ nlba, dev.timeoutOf etype count ≠ none
  mono : ∀ {few many shorter longer}, few ≤ many → many ≤ nlba →
    dev.sentTimeout etype few = some shorter → dev.sentTimeout etype many = some longer →
    shorter ≤ longer
  enough : ∀ {lba count timeout}, count ≤ nlba → dev.sentTimeout etype count = some timeout →
    dev.unitTimeout etype * dev.units lba count ≤ timeout

/-- The time that a card needs for so many blocks is a word of 32 bits, and an MMC of high
capacity groups has groups. -/
def HasTime (etype nlba : Nat) : Prop :=
  if dev.isMmc then
    (dev.eraseGrpDef = true → dev.hcEraseGroupSize ≠ 0) ∧
      dev.tmult etype * (nlba / (dev.mmcEraseGrpSize / 512) + 2) < 2 ^ 32
  else dev.unitTimeout etype * nlba +
    (if dev.eraseTimeout ≠ 0 then dev.eraseOffset else 0) < 2 ^ 32

end EraseDev

/-! ## The timeout of the command -/

/-- What `eraseGroupCmds` sends last has the timeout. -/
theorem eraseGroupCmds_timeout {startOp endOp eraseOp flgs first last wait : Nat}
    {timeout : Option Nat} {reply : EraseReply} {cmds : List EraseCmd} {status : Nat}
    {cmd : EraseCmd} (sent : eraseGroupCmds startOp endOp eraseOp flgs first last timeout wait
      reply = some (cmds, status)) (member : cmd ∈ cmds) (erases : cmd.op = eraseOp)
    (notStart : startOp ≠ eraseOp) (notEnd : endOp ≠ eraseOp) : timeout = some cmd.timeout := by
  have later {others : List EraseCmd} {op arg time : Nat} (different : op ≠ eraseOp)
      (inside : cmd ∈ ⟨op, arg, time⟩ :: others) : cmd ∈ others := by
    rcases List.mem_cons.mp inside with rfl | inside
    · exact absurd erases different
    · exact inside
  unfold eraseGroupCmds at sent
  dsimp only at sent
  split at sent
  · obtain ⟨rfl, -⟩ := Prod.mk.inj (Option.some.inj sent)
    exact absurd (later notStart member) List.not_mem_nil
  · cases timeout with
    | none => cases sent
    | some timeout =>
        dsimp only at sent
        split at sent
        · obtain ⟨rfl, -⟩ := Prod.mk.inj (Option.some.inj sent)
          exact absurd (later notEnd (later notStart member)) List.not_mem_nil
        · obtain ⟨rfl, -⟩ := Prod.mk.inj (Option.some.inj sent)
          rw [List.mem_singleton.mp (later notEnd (later notStart member))]

/-- The command that erases is sent with the timeout of its blocks. -/
theorem sdioEraseCmds_timeout {sim : Sim} {dev : EraseDev} (kind : sim.isMmc = dev.isMmc)
    {partition flgs lba nlba status : Nat} {reply : EraseReply} {cmds : List EraseCmd}
    {cmd : EraseCmd} (sent : sim.sdioEraseCmds dev partition flgs lba nlba reply =
      some (cmds, status)) (member : cmd ∈ cmds) (erases : cmd.op = MMC_ERASE) :
    dev.timeoutOf flgs nlba = some cmd.timeout := by
  have nothing {status' : Nat} (refused : some (([] : List EraseCmd), status') =
      some (cmds, status)) : False := by
    obtain ⟨rfl, -⟩ := Prod.mk.inj (Option.some.inj refused)
    exact List.not_mem_nil member
  unfold Sim.sdioEraseCmds at sent
  unfold EraseDev.timeoutOf
  split at sent
  · exact (nothing sent).elim
  · rw [kind] at sent
    split at sent
    case isTrue isMmc =>
      rw [if_pos isMmc]
      unfold Sim.mmcEraseCmds at sent
      dsimp only at sent
      split at sent
      · exact (nothing sent).elim
      split at sent
      · exact (nothing sent).elim
      split at sent
      · exact (nothing sent).elim
      · exact eraseGroupCmds_timeout sent member erases (by decide) (by decide)
    case isFalse isSd =>
      rw [if_neg isSd]
      unfold Sim.sdEraseCmds at sent
      split at sent
      · exact (nothing sent).elim
      split at sent
      · exact (nothing sent).elim
      · exact eraseGroupCmds_timeout sent member erases (by decide) (by decide)

/-! ## When the time is enough -/

namespace EraseDev

variable {dev : EraseDev} {etype nlba : Nat}

/-- The blocks of a group. -/
theorem grpBlocks_eq : dev.mmcEraseGrpSize / 512 =
    if dev.eraseGrpDef then dev.hcEraseGroupSize * 1024
    else (dev.eraseGrpSize + 1) * (dev.eraseGrpMult + 1) := by
  rw [mmcEraseGrpSize]
  split
  · have whole : dev.hcEraseGroupSize * MMC_ERASE_GRP_512K =
        dev.hcEraseGroupSize * 1024 * 512 := by
      rw [MMC_ERASE_GRP_512K, Nat.mul_assoc]
    rw [whole, Nat.mul_div_cancel _ (by decide)]
  · exact Nat.mul_div_cancel _ (by decide)

/-- The group is empty where the card has set the group size of high capacity, and has none. -/
theorem grpBlocks_pos_iff : 0 < dev.mmcEraseGrpSize / 512 ↔
    (dev.eraseGrpDef = true → dev.hcEraseGroupSize ≠ 0) := by
  rw [grpBlocks_eq]
  cases dev.eraseGrpDef with
  | true =>
      rw [if_pos rfl, Nat.mul_pos_iff_of_pos_right (by decide), Nat.pos_iff_ne_zero]
      exact ⟨fun size _ => size, fun size => size rfl⟩
  | false =>
      rw [if_neg Bool.false_ne_true]
      exact ⟨fun _ isDef => absurd isDef Bool.false_ne_true,
        fun _ => Nat.mul_pos (Nat.succ_pos _) (Nat.succ_pos _)⟩

theorem tmult_lt (sized : dev.Sized) (etype : Nat) : dev.tmult etype < 2 ^ 31 := by
  obtain ⟨erase, trim, secErase, secTrim, -, -⟩ := sized
  have product {first second : Nat} (firstLt : first < 2 ^ 8) (secondLt : second < 2 ^ 8) :
      MMC_ERASE_TIMEOUT * first * second < 2 ^ 31 := by
    have bound : MMC_ERASE_TIMEOUT * first * second ≤ 300 * 2 ^ 8 * 2 ^ 8 :=
      Nat.mul_le_mul (Nat.mul_le_mul_left _ firstLt.le) secondLt.le
    exact bound.trans_lt (by decide)
  have single {first : Nat} (firstLt : first < 2 ^ 8) : MMC_ERASE_TIMEOUT * first < 2 ^ 31 := by
    rw [MMC_ERASE_TIMEOUT]
    omega
  unfold tmult
  split
  · decide
  split
  · exact single trim
  split
  · exact product erase secErase
  split
  · exact product erase secTrim
  · exact single erase

/-- For the block counts of a request the 64 bits of the timeout are enough. -/
theorem mmcEraseTimeout_lt (sized : dev.Sized) (count : nlba < 2 ^ 32) {timeout : Nat}
    (computed : dev.mmcEraseTimeout etype nlba = some timeout) : timeout < 2 ^ 64 := by
  have factor := tmult_lt sized etype
  unfold mmcEraseTimeout at computed
  dsimp only at computed
  split at computed
  · cases computed
  · obtain rfl := Option.some.inj computed
    have groups : nlba / (dev.mmcEraseGrpSize / 512) + 2 ≤ 2 ^ 32 + 2 :=
      Nat.add_le_add_right ((Nat.div_le_self _ _).trans count.le) 2
    have bound : dev.tmult etype * (nlba / (dev.mmcEraseGrpSize / 512) + 2) ≤
        2 ^ 31 * (2 ^ 32 + 2) := Nat.mul_le_mul factor.le groups
    exact Nat.max_lt.mpr ⟨bound.trans_lt (by decide), by decide⟩

/-- Blocks lie in so many groups at the most, wherever they start. -/
theorem groups_le {blocks lba : Nat} (positive : 0 < blocks) (count : Nat) :
    (lba + count - 1) / blocks + 1 - lba / blocks ≤ count / blocks + 2 := by
  have last : (lba + count - 1) / blocks ≤ (lba + count) / blocks :=
    Nat.div_le_div_right (Nat.sub_le _ 1)
  have sum := Nat.add_div (a := lba) (b := count) positive
  have carry : (lba + count) / blocks ≤ lba / blocks + count / blocks + 1 := by
    rw [sum]
    apply Nat.add_le_add_left
    split
    · exact Nat.le_refl 1
    · exact Nat.zero_le 1
  have upTo := last.trans carry
  generalize (lba + count - 1) / blocks = final, lba / blocks = first, count / blocks = groups
    at upTo ⊢
  omega

section Mmc

variable (isMmc : dev.isMmc = true)
include isMmc

theorem timeoutOf_mmc (positive : 0 < dev.mmcEraseGrpSize / 512) (count : Nat) :
    dev.timeoutOf etype count =
      some (max (dev.tmult etype * (count / (dev.mmcEraseGrpSize / 512) + 2))
        MMC_ERASE_TIMEOUT_MIN) := by
  rw [timeoutOf, if_pos isMmc, mmcEraseTimeout]
  exact if_neg positive.ne'

theorem sentTimeout_mmc (positive : 0 < dev.mmcEraseGrpSize / 512) (count : Nat) :
    dev.sentTimeout etype count =
      some (max (dev.tmult etype * (count / (dev.mmcEraseGrpSize / 512) + 2))
        MMC_ERASE_TIMEOUT_MIN % 2 ^ 32) := by
  rw [sentTimeout, timeoutOf_mmc isMmc positive]
  rfl

theorem timesOut_mmc_iff (sized : dev.Sized) : dev.TimesOut etype nlba ↔
    (dev.eraseGrpDef = true → dev.hcEraseGroupSize ≠ 0) ∧
      dev.tmult etype * (nlba / (dev.mmcEraseGrpSize / 512) + 2) < 2 ^ 32 := by
  have factor := tmult_lt sized etype
  have unit : dev.unitTimeout etype = dev.tmult etype := if_pos isMmc
  rw [← grpBlocks_pos_iff]
  constructor
  · rintro ⟨divides, -, enough⟩
    have positive : 0 < dev.mmcEraseGrpSize / 512 := by
      by_contra empty
      apply divides 0 (Nat.zero_le _)
      rw [timeoutOf, if_pos isMmc, mmcEraseTimeout]
      exact if_pos (Nat.eq_zero_of_not_pos empty)
    refine ⟨positive, ?_⟩
    by_contra wraps
    have needed : _ * dev.units 0 nlba ≤ _ :=
      enough (Nat.le_refl nlba) (sentTimeout_mmc isMmc positive nlba)
    rw [unit, units, if_pos isMmc] at needed
    dsimp only at needed
    generalize dev.mmcEraseGrpSize / 512 = blocks at positive wraps needed
    rw [Nat.not_lt] at wraps
    have long : MMC_ERASE_TIMEOUT_MIN ≤ dev.tmult etype * (nlba / blocks + 2) :=
      le_trans (by decide) wraps
    have groups : nlba / blocks ≤
        if nlba = 0 then 0 else (0 + nlba - 1) / blocks + 1 - 0 / blocks := by
      split
      case isTrue none => rw [none, Nat.zero_div]
      case isFalse some =>
        rw [Nat.zero_add, Nat.zero_div, Nat.sub_zero]
        have step : nlba / blocks ≤ (nlba - 1 + blocks) / blocks :=
          Nat.div_le_div_right (by omega)
        rwa [Nat.add_div_right _ positive] at step
    have product := (Nat.mul_le_mul_left (dev.tmult etype) groups).trans needed
    rw [max_eq_left long, Nat.mod_eq_sub_mod wraps] at product
    have smaller := product.trans (Nat.mod_le _ _)
    rw [Nat.mul_add] at smaller wraps
    omega
  · rintro ⟨positive, fits⟩
    have total {few many : Nat} (order : few ≤ many) :
        dev.tmult etype * (few / (dev.mmcEraseGrpSize / 512) + 2) ≤
          dev.tmult etype * (many / (dev.mmcEraseGrpSize / 512) + 2) :=
      Nat.mul_le_mul_left _ (Nat.add_le_add_right (Nat.div_le_div_right order) 2)
    have sent {count : Nat} (order : count ≤ nlba) : dev.sentTimeout etype count =
        some (max (dev.tmult etype * (count / (dev.mmcEraseGrpSize / 512) + 2))
          MMC_ERASE_TIMEOUT_MIN) := by
      rw [sentTimeout_mmc isMmc positive, Nat.mod_eq_of_lt]
      exact Nat.max_lt.mpr ⟨(total order).trans_lt fits, by decide⟩
    refine ⟨?_, ?_, ?_⟩
    · intro count _ divides
      rw [timeoutOf_mmc isMmc positive] at divides
      cases divides
    · intro few many shorter longer order upTo first second
      rw [sent (order.trans upTo)] at first
      rw [sent upTo] at second
      obtain rfl := Option.some.inj first
      obtain rfl := Option.some.inj second
      exact max_le_max_right _ (total order)
    · intro lba count timeout upTo computed
      rw [sent upTo] at computed
      obtain rfl := Option.some.inj computed
      rw [unit, units, if_pos isMmc]
      dsimp only
      refine le_trans (Nat.mul_le_mul_left _ ?_) (Nat.le_max_left _ _)
      split
      · exact Nat.zero_le _
      · exact groups_le positive count

end Mmc

section Sd

variable (isSd : dev.isMmc = false)
include isSd

/-- The offset that is added once. -/
theorem sentTimeout_sd (etype count : Nat) : dev.sentTimeout etype count =
    some ((dev.unitTimeout etype * count +
      (if dev.eraseTimeout ≠ 0 then dev.eraseOffset else 0)) % 2 ^ 32) := by
  have notMmc : ¬ dev.isMmc = true := by
    rw [isSd]
    exact Bool.false_ne_true
  rw [sentTimeout, timeoutOf, if_neg notMmc, Option.map_some, unitTimeout, if_neg notMmc,
    sdEraseTimeout]
  by_cases given : dev.eraseTimeout ≠ 0
  · rw [if_pos given, if_pos given, if_pos given, Word.add, Nat.mod_mod]
  · rw [if_neg given, if_neg given, if_neg given, Nat.add_zero, Nat.mod_mod]

theorem timesOut_sd_iff (sized : dev.Sized) : dev.TimesOut etype nlba ↔
    dev.unitTimeout etype * nlba + (if dev.eraseTimeout ≠ 0 then dev.eraseOffset else 0) <
      2 ^ 32 := by
  have notMmc : ¬ dev.isMmc = true := by
    rw [isSd]
    exact Bool.false_ne_true
  have sent := sentTimeout_sd isSd etype
  have stepSmall : dev.unitTimeout etype < 2 ^ 32 := by
    rw [unitTimeout, if_neg notMmc]
    split
    · exact sized.eraseTimeout
    · decide
  have offsetSmall : (if dev.eraseTimeout ≠ 0 then dev.eraseOffset else 0) < 2 ^ 32 := by
    split
    · exact sized.eraseOffset
    · decide
  generalize (if dev.eraseTimeout ≠ 0 then dev.eraseOffset else 0) = offset at sent offsetSmall ⊢
  constructor
  · rintro ⟨-, mono, -⟩
    by_contra wraps
    obtain ⟨count, below, drops⟩ := exists_wrap stepSmall offsetSmall (Nat.le_of_not_lt wraps)
    have grows := mono (Nat.le_succ count) below (sent count) (sent (count + 1))
    exact absurd drops (Nat.not_lt.mpr grows)
  · intro fits
    have total {few many : Nat} (order : few ≤ many) : dev.unitTimeout etype * few + offset ≤
        dev.unitTimeout etype * many + offset :=
      Nat.add_le_add_right (Nat.mul_le_mul_left _ order) _
    have exact' {count : Nat} (order : count ≤ nlba) : dev.sentTimeout etype count =
        some (dev.unitTimeout etype * count + offset) := by
      rw [sent, Nat.mod_eq_of_lt ((total order).trans_lt fits)]
    refine ⟨?_, ?_, ?_⟩
    · intro count _ divides
      rw [timeoutOf, if_neg notMmc] at divides
      cases divides
    · intro few many shorter longer order upTo first second
      rw [exact' (order.trans upTo)] at first
      rw [exact' upTo] at second
      obtain rfl := Option.some.inj first
      obtain rfl := Option.some.inj second
      exact total order
    · intro lba count timeout upTo computed
      rw [exact' upTo] at computed
      obtain rfl := Option.some.inj computed
      rw [units, if_neg notMmc]
      exact Nat.le_add_right _ _

end Sd

/-- The timeouts up to a number of blocks are right if and only if the last one is a word. -/
theorem timesOut_iff (sized : dev.Sized) (etype nlba : Nat) :
    dev.TimesOut etype nlba ↔ dev.HasTime etype nlba := by
  unfold HasTime
  cases kind : dev.isMmc with
  | true =>
      rw [if_pos rfl]
      exact timesOut_mmc_iff kind sized
  | false =>
      rw [if_neg Bool.false_ne_true]
      exact timesOut_sd_iff kind sized

/-- An SD card that gives no time for its erases. -/
def untimed : EraseDev where
  isMmc := false
  hc := true
  blksz := 512
  eraseGrpSize := 0
  eraseGrpMult := 0
  eraseBlkEn := true
  sectorSize := 127
  writeBlLen := 9
  eraseGrpDef := false
  hcEraseGroupSize := 0
  eraseMult := 0
  trimMult := 0
  secEraseMult := 0
  secTrimMult := 0
  eraseTimeout := 0
  eraseOffset := 0
  blksz_pos := by decide
  grpSize_lt := by decide
  grpMult_lt := by decide
  hcGroup_lt := by decide

theorem untimed_sized : untimed.Sized := by constructor <;> decide

theorem untimed_timesOut : untimed.TimesOut MMC_ERASE_NORM 2048 := by
  apply (timesOut_iff untimed_sized MMC_ERASE_NORM 2048).mpr
  change 250 * 2048 + 0 < 2 ^ 32
  decide

/-- The first erase of more than 71 minutes is given 204 ms. -/
theorem untimed_wraps : untimed.sentTimeout MMC_ERASE_NORM 17179869 = some 4294967250 ∧
    untimed.sentTimeout MMC_ERASE_NORM 17179870 = some 204 ∧
    ¬ untimed.TimesOut MMC_ERASE_NORM 17179870 := by
  have long : untimed.sentTimeout MMC_ERASE_NORM 17179869 = some 4294967250 := by decide
  have short : untimed.sentTimeout MMC_ERASE_NORM 17179870 = some 204 := by decide
  refine ⟨long, short, ?_⟩
  intro timesOut
  have grows := timesOut.mono (by decide) (Nat.le_refl _) long short
  exact absurd grows (by decide)

end EraseDev

end Bcm2711.Sdmmc
