import Bcm2711.Lib.Actions
import Bcm2711.Sdmmc.Partitions

/-! # Cards that come and go

A bus keeps its tables when a card is removed, and the next attach writes over them: it counts
the targets of the new card on top of the old ones and adds to the flags of their partitions.
-/

namespace Bcm2711.Sdmmc

open Actions

/-! ## The bus -/

/-- A bus with its tables and the card that is attached, if one is. -/
structure Bus where
  tables : Targets
  attached : Option Card

/-- What happens to a bus. -/
inductive BusAction where
  /-- `sdmmc_sdio_insertion` of a card that `sdio_attach` takes; `sdmmc_reg` succeeds or not. -/
  | insertion (card : Card) (registered : Bool)
  /-- `sdmmc_reset`, which may find dirty data lost from the cache. -/
  | reset (cacheLost : Bool)
  /-- `sdmmc_sdio_removal`. -/
  | removal

namespace Bus

/-- A bus without a card yet. -/
def empty : Bus := ⟨.cleared, none⟩

/-- One action, with the partitions option on or off.  A reset whose loop leaves the array
leads nowhere. -/
def act (partitions : Bool) (bus : Bus) : BusAction → Option Bus
  | .insertion card registered =>
      if bus.attached.isNone then
        some ⟨partitionConfig partitions card bus.tables, if registered then some card else none⟩
      else none
  | .reset cacheLost =>
      if bus.attached.isSome ∧ bus.tables.ntargs < SDMMC_TARGET_MAX then
        some { bus with
          tables := if cacheLost then bus.tables.setPartitionAttr MMC_PART_USER SDMMC_PFLAG_WP
            else bus.tables }
      else none
  | .removal => if bus.attached.isSome then some { bus with attached := none } else none

end Bus

/-- What the rest of the driver reads of a partition. -/
def SdmmcPartition.sameArea (part other : SdmmcPartition) : Prop :=
  part.slba = other.slba ∧ part.nlba = other.nlba ∧ part.elba = other.elba ∧
    part.config = other.config ∧ part.pflags = other.pflags

/-- The tables show the same targets and partitions. -/
def Targets.Same (tables other : Targets) : Prop :=
  tables.ntargs = other.ntargs ∧ ∀ tidx < SDMMC_TARGET_MAX, ∀ pidx < SDMMC_PARTITION_MAX,
    (tables.part tidx pidx).sameArea (other.part tidx pidx)

/-- Every target and unit that is accepted or visited lies inside the arrays. -/
def Targets.Inside (tables : Targets) : Prop :=
  (∀ targetId targetLun, tables.accepts targetId targetLun = true →
    targetId < SDMMC_TARGET_MAX ∧ targetLun < SDMMC_PARTITION_MAX) ∧
      ∀ pair ∈ tables.pairs, pair.1 < SDMMC_TARGET_MAX ∧ pair.2 < SDMMC_PARTITION_MAX

/-- The tables are those of a first attach of the card, and stay inside the arrays. -/
def Targets.Fresh (partitions : Bool) (card : Card) (tables : Targets) : Prop :=
  tables.Same (partitionConfig partitions card .cleared) ∧ tables.Inside

/-- The flags that an attach of the card gives to a target. -/
def Card.flags (card : Card) (partitions : Bool) (tidx : Nat) : Nat :=
  (card.configured partitions tidx 0 .cleared).pflags

/-- Targets have one unit, and other partitions are never configured. -/
structure Targets.Plain (tables : Targets) : Prop where
  ntargs : tables.ntargs < 2 ^ 32
  nluns : ∀ tidx, (tables.targets tidx).nluns = 0
  others : ∀ tidx pidx, pidx ≠ 0 → tables.part tidx pidx = .cleared

variable {partitions : Bool} {card : Card} {tables : Targets} {bus : Bus}

namespace Targets.Plain

theorem partitionConfig (plain : tables.Plain) :
    (partitionConfig partitions card tables).Plain where
  ntargs := by
    rw [ntargs_partitionConfig partitions card tables plain.ntargs]
    exact Word.add_lt 32 _ _
  nluns tidx := by
    rw [nluns_partitionConfig]
    exact plain.nluns tidx
  others tidx pidx other := by
    rw [part_partitionConfig, Card.configured, if_pos other]
    exact plain.others tidx pidx other

/-- The loops visit the first partition of every target. -/
theorem pairs (plain : tables.Plain) :
    tables.pairs = (List.range (tables.ntargs + 1)).map fun tidx => (tidx, 0) := by
  unfold Targets.pairs
  simp only [plain.nluns, Nat.zero_add, List.range_one, List.map_cons, List.map_nil,
    ← List.map_eq_flatMap]

theorem setPartitionAttr (plain : tables.Plain) (partition flags : Nat) :
    (tables.setPartitionAttr partition flags).Plain := by
  unfold Targets.setPartitionAttr
  rw [plain.pairs]
  refine List.foldlRecOn _ _ plain fun marked isPlain pair visited => ?_
  obtain ⟨tidx, _, rfl⟩ := List.mem_map.mp visited
  split
  · refine ⟨isPlain.ntargs, fun other => ?_, fun other pidx different => ?_⟩
    · rw [Targets.nluns_modify]
      exact isPlain.nluns other
    · rw [Targets.part_modify, if_neg fun both => different both.2]
      exact isPlain.others other pidx different
  · exact isPlain

end Targets.Plain

end Bcm2711.Sdmmc
