import Bcm2711.Lib.Word

/-! # Targets and partitions of a card

Target 0 is the user area of a card.  When the partitions option is on, an eMMC card also
shows its boot areas, its RPMB area and its general purpose partitions as targets 1 to 7; every
target has one partition.  `sdmmc_partition_config` writes these tables at each attach.
-/

namespace Bcm2711.Sdmmc

def SDMMC_TARGET_MAX : Nat := 8

def SDMMC_PARTITION_MAX : Nat := 8

def SDMMC_PFLAG_WP : Nat := 0x01

def SDMMC_PFLAG_ENH : Nat := 0x02

def MMC_PART_USER : Nat := 0

def MMC_PART_MSK : Nat := 0x7

def MMC_BOOT_PART_MAX : Nat := 2

def MMC_GP_PART_MAX : Nat := 4

def MMC_BOOT_SIZE_MULT : Nat := 0x20000

def MMC_RPMB_SIZE_MULT : Nat := 0x20000

def MMC_ERASE_GRP_512K : Nat := 0x80000

def ECSD_GP_SIZE : Nat := 143

def ECSD_PARTITIONS_ATTR : Nat := 156

def ECSD_PA_ENH_1 : Nat := 0x02

def ECSD_PARTITIONING_SUP : Nat := 160

def ECSD_PS_PART_EN : Nat := 0x01

def ECSD_RPMB_SIZE_MULT : Nat := 168

def ECSD_PART_CONFIG : Nat := 179

def ECSD_PC_ACCESS_MSK : Nat := 0x7

def ECSD_HC_WP_GRP_SIZE : Nat := 221

def ECSD_ERASE_GRP_SIZE : Nat := 224

def ECSD_BOOT_SIZE_MULT : Nat := 226

/-! ## Tables -/

/-- `SDMMC_PARTITION`. -/
structure SdmmcPartition where
  pflags : Nat
  config : Nat
  name : String
  slba : Nat
  elba : Nat
  nlba : Nat
deriving DecidableEq, Repr

/-- `SDMMC_TARGET`. -/
structure SdmmcTarget where
  nluns : Nat
  blksz : Nat
  partitions : Nat → SdmmcPartition

/-- The targets of a bus, in `SIM_SDMMC_EXT`; `ntargs` is the number of the last. -/
structure Targets where
  ntargs : Nat
  targets : Nat → SdmmcTarget

/-- A cleared partition. -/
def SdmmcPartition.cleared : SdmmcPartition := ⟨0, 0, "", 0, 0, 0⟩

/-- The tables of a bus that `sdmmc_alloc_hba` has allocated. -/
def Targets.cleared : Targets := ⟨0, fun _ => ⟨0, 0, fun _ => .cleared⟩⟩

namespace Targets

/-- `ext->targets[tidx].partitions[pidx]`. -/
def part (tables : Targets) (tidx pidx : Nat) : SdmmcPartition :=
  (tables.targets tidx).partitions pidx

/-- Change a partition. -/
def modify (tables : Targets) (tidx pidx : Nat) (change : SdmmcPartition → SdmmcPartition) :
    Targets :=
  let targ := tables.targets tidx
  { tables with
    targets := Function.update tables.targets tidx { targ with
      partitions := Function.update targ.partitions pidx (change (targ.partitions pidx)) } }

/-- One target more. -/
def oneMore (tables : Targets) : Targets := { tables with ntargs := Word.add 32 tables.ntargs 1 }

/-- A loop that writes the first partition of `count` targets from `base` on and counts them. -/
def addTargets (tables : Targets) (base count : Nat)
    (change : Nat → SdmmcPartition → SdmmcPartition) : Targets :=
  (List.range count).foldl
    (fun tables pidx => (tables.modify (base + pidx) 0 (change pidx)).oneMore) tables

/-- Every target has this block size. -/
def setBlksz (tables : Targets) (blksz : Nat) : Targets :=
  { tables with
    targets := fun tidx =>
      if tidx < SDMMC_TARGET_MAX then { tables.targets tidx with blksz := blksz }
      else tables.targets tidx }

/-- The targets and partitions that the loops over all of them visit. -/
def pairs (tables : Targets) : List (Nat × Nat) :=
  (List.range (tables.ntargs + 1)).flatMap fun tidx =>
    (List.range ((tables.targets tidx).nluns + 1)).map fun pidx => (tidx, pidx)

/-- `sdmmc_sim_action` accepts a request for this target and unit. -/
def accepts (tables : Targets) (targetId targetLun : Nat) : Bool :=
  !(targetId > tables.ntargs) && !(targetLun > (tables.targets targetId).nluns)

/-- `sdmmc_set_partition_attr`. -/
def setPartitionAttr (tables : Targets) (partition flags : Nat) : Targets :=
  tables.pairs.foldl
    (fun tables pair =>
      if (tables.part pair.1 pair.2).config &&& MMC_PART_MSK = partition then
        tables.modify pair.1 pair.2 fun part => { part with pflags := part.pflags ||| flags }
      else tables)
    tables

end Targets

/-! ## Cards -/

/-- What the attach of a card reads of it. -/
structure Card where
  /-- `dtype` is `DEV_TYPE_MMC`. -/
  isMmc : Bool
  /-- `DEV_FLAG_WP` is set. -/
  isProtected : Bool
  sectors : Nat
  sectorSize : Nat
  /-- The extended CSD. -/
  ecsd : Nat → UInt8

/-- A byte of the extended CSD. -/
def Card.byte (card : Card) (place : Nat) : Nat := (card.ecsd place).toNat

/-- The partition configuration without the access bits. -/
def Card.pconf (card : Card) : Nat :=
  card.byte ECSD_PART_CONFIG &&& Word.compl 32 ECSD_PC_ACCESS_MSK

/-- The partition covers this many blocks. -/
def SdmmcPartition.sized (part : SdmmcPartition) (config nlba elba : Nat) (name : String) :
    SdmmcPartition :=
  { part with config := config, slba := 0, nlba := nlba, elba := elba, name := name }

/-- The partition has a flag more, if the card says so. -/
def SdmmcPartition.flagged (part : SdmmcPartition) (flag : Nat) (isSet : Bool) : SdmmcPartition :=
  if isSet then { part with pflags := part.pflags ||| flag } else part

/-- Boot area `pidx`, in `sdmmc_partition_enum`. -/
def Card.bootPartition (card : Card) (pidx : Nat) (part : SdmmcPartition) : SdmmcPartition :=
  let nlba := card.byte ECSD_BOOT_SIZE_MULT * MMC_BOOT_SIZE_MULT / 512
  (part.sized (card.pconf ||| (1 + pidx)) nlba (Word.sub 64 nlba 1) "boot").flagged SDMMC_PFLAG_ENH
    (Word.test (card.byte ECSD_PARTITIONING_SUP) ECSD_PS_PART_EN)

/-- The RPMB area, in `sdmmc_partition_enum`. -/
def Card.rpmbPartition (card : Card) (part : SdmmcPartition) : SdmmcPartition :=
  let nlba := card.byte ECSD_RPMB_SIZE_MULT * MMC_RPMB_SIZE_MULT / 512
  part.sized (card.pconf ||| 3) nlba (Word.sub 64 nlba 1) "rpmb"

/-- Blocks of general purpose partition `pidx`. -/
def Card.gpBlocks (card : Card) (pidx : Nat) : Nat :=
  let gpSize := card.byte (ECSD_GP_SIZE + pidx * 3) +
    card.byte (ECSD_GP_SIZE + 1 + pidx * 3) * 2 ^ 8 +
    card.byte (ECSD_GP_SIZE + 2 + pidx * 3) * 2 ^ 16
  let wpGrpSize :=
    card.byte ECSD_HC_WP_GRP_SIZE * card.byte ECSD_ERASE_GRP_SIZE * MMC_ERASE_GRP_512K
  gpSize * wpGrpSize / 512

/-- General purpose partition `pidx`, in `sdmmc_partition_enum`. -/
def Card.gpPartition (card : Card) (pidx : Nat) (part : SdmmcPartition) : SdmmcPartition :=
  let nlba := card.gpBlocks pidx
  (part.sized (card.pconf ||| (4 + pidx)) nlba (if nlba ≠ 0 then nlba - 1 else 0) "gp").flagged
    SDMMC_PFLAG_ENH
    (Word.test (card.byte ECSD_PARTITIONS_ATTR) (ECSD_PA_ENH_1 * 2 ^ pidx))

/-- `sdmmc_partition_enum`. -/
def partitionEnum (card : Card) (tables : Targets) : Targets :=
  let booted := tables.addTargets 1 MMC_BOOT_PART_MAX card.bootPartition
  let rpmb := (booted.modify 3 0 card.rpmbPartition).oneMore
  rpmb.addTargets 4 MMC_GP_PART_MAX card.gpPartition

/-- The user area, in `sdmmc_partition_config`. -/
def Card.userPartition (card : Card) (part : SdmmcPartition) : SdmmcPartition :=
  (part.flagged SDMMC_PFLAG_WP card.isProtected).sized (if card.isMmc then card.pconf else 0)
    card.sectors (Word.sub 64 card.sectors 1) "uda"

/-- The partitions of the card become targets of their own. -/
def Card.enumerates (card : Card) (partitions : Bool) : Bool := card.isMmc && partitions

/-- `sdmmc_partition_config`, with the partitions option on or off. -/
def partitionConfig (partitions : Bool) (card : Card) (tables : Targets) : Targets :=
  let user := (tables.setBlksz card.sectorSize).modify 0 0 card.userPartition
  if card.enumerates partitions then partitionEnum card user else user

/-! ## What an attach writes -/

namespace Targets

variable (tables : Targets)

theorem part_modify (tidx pidx otherT otherP : Nat) (change : SdmmcPartition → SdmmcPartition) :
    (tables.modify otherT otherP change).part tidx pidx =
      if tidx = otherT ∧ pidx = otherP then change (tables.part tidx pidx)
      else tables.part tidx pidx := by
  unfold part modify
  by_cases sameT : tidx = otherT
  · subst sameT
    by_cases sameP : pidx = otherP
    · subst sameP
      simp only [Function.update_self, and_self, if_true]
    · simp only [Function.update_self, Function.update_of_ne sameP, sameP, and_false, if_false]
  · simp only [Function.update_of_ne sameT, sameT, false_and, if_false]

@[simp] theorem part_oneMore (tidx pidx : Nat) :
    tables.oneMore.part tidx pidx = tables.part tidx pidx := rfl

@[simp] theorem ntargs_modify (tidx pidx : Nat) (change : SdmmcPartition → SdmmcPartition) :
    (tables.modify tidx pidx change).ntargs = tables.ntargs := rfl

@[simp] theorem ntargs_oneMore : tables.oneMore.ntargs = Word.add 32 tables.ntargs 1 := rfl

@[simp] theorem nluns_oneMore (tidx : Nat) :
    (tables.oneMore.targets tidx).nluns = (tables.targets tidx).nluns := rfl

@[simp] theorem nluns_modify (tidx otherT otherP : Nat)
    (change : SdmmcPartition → SdmmcPartition) :
    ((tables.modify otherT otherP change).targets tidx).nluns = (tables.targets tidx).nluns := by
  unfold modify
  by_cases same : tidx = otherT
  · subst same
    simp only [Function.update_self]
  · simp only [Function.update_of_ne same]

@[simp] theorem part_setBlksz (blksz tidx pidx : Nat) :
    (tables.setBlksz blksz).part tidx pidx = tables.part tidx pidx := by
  unfold part setBlksz
  dsimp only
  split <;> rfl

@[simp] theorem nluns_setBlksz (blksz tidx : Nat) :
    ((tables.setBlksz blksz).targets tidx).nluns = (tables.targets tidx).nluns := by
  unfold setBlksz
  dsimp only
  split <;> rfl

/-- The last turn of the loop. -/
theorem addTargets_succ (base count : Nat) (change : Nat → SdmmcPartition → SdmmcPartition) :
    tables.addTargets base (count + 1) change =
      ((tables.addTargets base count change).modify (base + count) 0 (change count)).oneMore := by
  unfold addTargets
  rw [List.range_succ, List.foldl_append]
  rfl

/-- The loop writes the partitions of its targets and no others. -/
theorem part_addTargets (base count : Nat) (change : Nat → SdmmcPartition → SdmmcPartition)
    (tidx pidx : Nat) :
    (tables.addTargets base count change).part tidx pidx =
      if pidx = 0 ∧ base ≤ tidx ∧ tidx < base + count then
        change (tidx - base) (tables.part tidx pidx)
      else tables.part tidx pidx := by
  induction count with
  | zero =>
      have none_inside : ¬ (pidx = 0 ∧ base ≤ tidx ∧ tidx < base + 0) := by omega
      rw [if_neg none_inside]
      rfl
  | succ count ih =>
      rw [addTargets_succ, part_oneMore, part_modify, ih]
      by_cases last : tidx = base + count ∧ pidx = 0
      · obtain ⟨rfl, rfl⟩ := last
        have before : ¬ (0 = 0 ∧ base ≤ base + count ∧ base + count < base + count) := by omega
        have inside : 0 = 0 ∧ base ≤ base + count ∧ base + count < base + (count + 1) := by omega
        rw [if_pos ⟨rfl, rfl⟩, if_neg before, if_pos inside, Nat.add_sub_cancel_left]
      · rw [if_neg last]
        have same : (pidx = 0 ∧ base ≤ tidx ∧ tidx < base + (count + 1)) ↔
            (pidx = 0 ∧ base ≤ tidx ∧ tidx < base + count) := by omega
        simp only [same]

theorem ntargs_addTargets (base count : Nat) (change : Nat → SdmmcPartition → SdmmcPartition)
    (fits : tables.ntargs < 2 ^ 32) :
    (tables.addTargets base count change).ntargs = Word.add 32 tables.ntargs count := by
  induction count with
  | zero => exact (Nat.mod_eq_of_lt fits).symm
  | succ count ih =>
      rw [addTargets_succ, ntargs_oneMore, ntargs_modify, ih]
      unfold Word.add
      rw [Nat.mod_add_mod, Nat.add_assoc]

@[simp] theorem nluns_addTargets (base count : Nat)
    (change : Nat → SdmmcPartition → SdmmcPartition) (tidx : Nat) :
    ((tables.addTargets base count change).targets tidx).nluns = (tables.targets tidx).nluns := by
  induction count with
  | zero => rfl
  | succ count ih => rw [addTargets_succ, nluns_oneMore, nluns_modify, ih]

end Targets

/-- What `sdmmc_partition_config` makes of a partition. -/
def Card.configured (card : Card) (partitions : Bool) (tidx pidx : Nat) (part : SdmmcPartition) :
    SdmmcPartition :=
  if pidx ≠ 0 then part
  else if tidx = 0 then card.userPartition part
  else if !card.enumerates partitions then part
  else if tidx < 3 then card.bootPartition (tidx - 1) part
  else if tidx = 3 then card.rpmbPartition part
  else if tidx < 8 then card.gpPartition (tidx - 4) part
  else part

/-- Every partition is configured by itself. -/
theorem part_partitionConfig (partitions : Bool) (card : Card) (tables : Targets)
    (tidx pidx : Nat) :
    (partitionConfig partitions card tables).part tidx pidx =
      card.configured partitions tidx pidx (tables.part tidx pidx) := by
  unfold partitionConfig Card.configured
  cases card.enumerates partitions with
  | false =>
      simp only [Bool.false_eq_true, if_false, Targets.part_modify, Targets.part_setBlksz,
        Bool.not_false, if_true]
      split_ifs <;> first | rfl | omega
  | true =>
      simp only [if_true, partitionEnum, Targets.part_addTargets, Targets.part_oneMore,
        Targets.part_modify, Targets.part_setBlksz, MMC_GP_PART_MAX, MMC_BOOT_PART_MAX,
        Bool.not_true, Bool.false_eq_true, if_false]
      split_ifs <;> first | rfl | omega

/-- An enumeration adds seven targets. -/
theorem ntargs_partitionConfig (partitions : Bool) (card : Card) (tables : Targets)
    (fits : tables.ntargs < 2 ^ 32) :
    (partitionConfig partitions card tables).ntargs =
      Word.add 32 tables.ntargs (if card.enumerates partitions then 7 else 0) := by
  unfold partitionConfig
  split
  · have booted :=
      ((tables.setBlksz card.sectorSize).modify 0 0 card.userPartition).ntargs_addTargets
      1 MMC_BOOT_PART_MAX card.bootPartition fits
    rw [partitionEnum, Targets.ntargs_addTargets _ _ _ _ (Word.add_lt 32 _ _),
      Targets.ntargs_oneMore, Targets.ntargs_modify, booted]
    change ((((tables.ntargs + 2) % 2 ^ 32 + 1) % 2 ^ 32) + 4) % 2 ^ 32 =
      (tables.ntargs + 7) % 2 ^ 32
    omega
  · exact (Nat.mod_eq_of_lt fits).symm

/-- No attach adds a unit to a target. -/
theorem nluns_partitionConfig (partitions : Bool) (card : Card) (tables : Targets) (tidx : Nat) :
    ((partitionConfig partitions card tables).targets tidx).nluns =
      (tables.targets tidx).nluns := by
  unfold partitionConfig
  split
  · simp only [partitionEnum, Targets.nluns_addTargets, Targets.nluns_oneMore,
      Targets.nluns_modify, Targets.nluns_setBlksz]
  · simp only [Targets.nluns_modify, Targets.nluns_setBlksz]

end Bcm2711.Sdmmc
