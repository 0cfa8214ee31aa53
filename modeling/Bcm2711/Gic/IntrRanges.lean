import Bcm2711.Lib.Blocks
import Bcm2711.Lib.Run
import Bcm2711.Lib.Word

/-! # Ranges of the interrupt controller

Before `gic_v3_initialize` a board adds its interrupt entries with `gic_v3_spi_add_entry`,
`gic_v3_espi_add_entry` and `gic_v3_lpi_add_entry`.  The entries that a table takes have vectors of
their own, in increasing order and inside the range that the hardware reports.
-/

namespace Bcm2711.Gic

open Blocks Runs

/-- The callouts that an entry can name, and those of a board. -/
inductive CalloutRtn where
  | interruptIdGicV3Spi | interruptIdGicV3Espi | interruptIdGicV3Lpi
  | interruptEoiGicV3SpiSr | interruptEoiGicV3LpiSr
  | interruptMaskGicV3Spi | interruptMaskGicV3Espi
  | interruptMaskGicV3LpiIts | interruptMaskGicV3LpiDirect
  | interruptUnmaskGicV3Spi | interruptUnmaskGicV3Espi
  | interruptUnmaskGicV3LpiIts | interruptUnmaskGicV3LpiDirect
  | board (address : BitVec 64)
deriving DecidableEq, Repr

/-- `struct startup_intrgen`. -/
structure StartupIntrgen where
  genflags : BitVec 16
  size : BitVec 16
  rtn : CalloutRtn
deriving DecidableEq, Repr

/-- `struct startup_intrinfo`. -/
structure StartupIntrinfo where
  vectorBase : BitVec 32
  numVectors : BitVec 32
  cascadeVector : BitVec 32
  cpuIntrBase : BitVec 32
  cpuIntrStride : BitVec 16
  flags : BitVec 16
  id : StartupIntrgen
  eoi : StartupIntrgen
  mask : CalloutRtn
  unmask : CalloutRtn
  config : CalloutRtn
  patchData : BitVec 64
  localStride : BitVec 32
deriving DecidableEq, Repr

/-- Where an entry is declared. -/
abbrev Ptr := Nat

/-- `ARM_GIC_SPI_MIN_IRQ`. -/
def ARM_GIC_SPI_MIN_IRQ : BitVec 32 := 32
/-- `ARM_GIC_SPI_MAX_IRQ`. -/
def ARM_GIC_SPI_MAX_IRQ : BitVec 32 := 1019
/-- `ARM_GIC_ESPI_MIN_IRQ`. -/
def ARM_GIC_ESPI_MIN_IRQ : BitVec 32 := 4096
/-- `ARM_GIC_ESPI_MAX_IRQ`. -/
def ARM_GIC_ESPI_MAX_IRQ : BitVec 32 := 5119
/-- `ARM_GIC_LPI_MIN_IRQ`. -/
def ARM_GIC_LPI_MIN_IRQ : BitVec 32 := 8192
/-- `NUM_ELTS` of the arrays of entries. -/
def numElts : Nat := 16

/-- What the functions read of the hardware, and the values of the system's headers. -/
structure Hw where
  baseAddressesInitialized : Bool
  gicdTyper : BitVec 32
  gicrTyper : BitVec 64
  /-- `_NTO_INTR_SPARE`. -/
  ntoIntrSpare : BitVec 32
  /-- `INTR_FLAG_MSI`. -/
  intrFlagMsi : BitVec 16

/-- The entries of the board, those in the tables, and `lpi_params.num_lpis`. -/
structure State where
  mem : Ptr → StartupIntrinfo
  spi : List Ptr
  espi : List Ptr
  lpi : List Ptr
  numLpis : BitVec 32

/-- The assertions that can fail. -/
inductive Assertion where
  | initialized | tableFull | base | count | total
deriving DecidableEq, Repr

/-- The kinds of interrupts with a table. -/
inductive Kind where
  | spi | espi | lpi
deriving DecidableEq, Repr

/-- A shift of 1 by a register, which takes the low five bits of the amount. -/
def oneShifted (amount : BitVec 32) : BitVec 32 := 1#32 <<< (amount.toNat % 32)

/-- `gic_v3_num_spis`. -/
def Hw.numSpis (hw : Hw) : BitVec 32 :=
  let itLines := hw.gicdTyper >>> 0 &&& 0x1f#32
  if (itLines + 1) * 32 > ARM_GIC_SPI_MAX_IRQ + 1 then ARM_GIC_SPI_MAX_IRQ + 1 - 32
  else itLines * 32

/-- `gic_v3_num_espis`. -/
def Hw.numEspis (hw : Hw) : BitVec 32 :=
  if hw.gicdTyper &&& (1#32 <<< 8) ≠ 0 then
    32#32 * ((hw.gicdTyper &&& (0x1f#32 <<< 27)) >>> 27 + 1#32)
  else 0

/-- `gic_v3_num_lpis`. -/
def Hw.numLpis (hw : Hw) : BitVec 32 :=
  let nlpi := hw.gicdTyper >>> 11 &&& 0x1f#32
  if hw.gicdTyper &&& (1#32 <<< 17) = 0 then 0
  else if nlpi = 0 then oneShifted ((hw.gicdTyper >>> 19 &&& 0x1f#32) + 1) - ARM_GIC_LPI_MIN_IRQ
  else oneShifted (nlpi + 1)

/-- `gic_v3_lpi_uses_its`. -/
def Hw.lpiUsesIts (hw : Hw) : Bool :=
  hw.gicrTyper &&& (1#64 <<< 0) ≠ 0 ∧ hw.gicrTyper &&& (1#64 <<< 3) = 0

namespace StartupIntrinfo

/-- The last vector of an entry. -/
def last (entry : StartupIntrinfo) : BitVec 32 := entry.vectorBase + entry.numVectors - 1

/-- The fields that are set in an entry when a table takes it. -/
def withCallouts (entry : StartupIntrinfo) (spare : BitVec 32)
    (id eoi mask unmask : CalloutRtn) : StartupIntrinfo :=
  { entry with
    cascadeVector := spare, cpuIntrBase := 0, cpuIntrStride := 0
    id := ⟨0, 0, id⟩, eoi := ⟨0, 0, eoi⟩, mask := mask, unmask := unmask }

end StartupIntrinfo

/-- The test of the loops over the SPI and ESPI entries: the new entry cannot go behind one. -/
def clashes (newStart newLast : BitVec 32) (cur : StartupIntrinfo) : Bool :=
  let curStart := cur.vectorBase
  let curLast := cur.last
  if newStart ≥ curStart ∧ newStart ≤ curLast then true
  else if newLast ≥ curStart ∧ newLast ≤ curLast then true
  else if newStart ≤ curLast then true
  else false

/-- The test of the loop over the LPI entries, with another condition in the middle. -/
def lpiClashes (newStart newLast : BitVec 32) (cur : StartupIntrinfo) : Bool :=
  let curStart := cur.vectorBase
  let curLast := cur.last
  if newStart ≥ curStart ∧ newStart ≤ curLast then true
  else if newLast ≥ curStart ∧ newStart ≤ curLast then true
  else if newStart ≤ curLast then true
  else false

/-- The loop over a table: the index of the first entry at which it breaks. -/
def scan (test : StartupIntrinfo → Bool) (mem : Ptr → StartupIntrinfo) : List Ptr → Nat
  | [] => 0
  | cur :: rest => if test (mem cur) then 0 else scan test mem rest + 1

/-- A message based entry that the hardware does not support. -/
def Hw.refusesMsi (hw : Hw) (entry : StartupIntrinfo) : Bool :=
  entry.flags &&& hw.intrFlagMsi ≠ 0 ∧ hw.gicdTyper &&& (1#32 <<< 16) = 0

/-- `gic_v3_spi_add_entry`. -/
def Hw.spiAddEntry (hw : Hw) (state : State) (ptr : Ptr) : Except Assertion (State × Int) :=
  let entry := state.mem ptr
  if ¬ hw.baseAddressesInitialized then .error .initialized
  else if ¬ state.spi.length < numElts then .error .tableFull
  else if ¬ (entry.vectorBase ≥ ARM_GIC_SPI_MIN_IRQ ∧ entry.vectorBase ≤ ARM_GIC_SPI_MAX_IRQ) then
    .error .base
  else if ¬ entry.vectorBase + entry.numVectors ≤ hw.numSpis + ARM_GIC_SPI_MIN_IRQ then
    .error .count
  else if entry.last ≥ hw.numSpis + ARM_GIC_SPI_MIN_IRQ then .ok (state, -1)
  else if hw.refusesMsi entry then .ok (state, -1)
  else if scan (clashes entry.vectorBase entry.last) state.mem state.spi ≠ state.spi.length then
    .ok (state, -1)
  else
    let taken := entry.withCallouts hw.ntoIntrSpare .interruptIdGicV3Spi .interruptEoiGicV3SpiSr
      .interruptMaskGicV3Spi .interruptUnmaskGicV3Spi
    .ok ({ state with mem := Function.update state.mem ptr taken, spi := state.spi ++ [ptr] }, 0)

/-- `gic_v3_espi_add_entry`. -/
def Hw.espiAddEntry (hw : Hw) (state : State) (ptr : Ptr) : Except Assertion (State × Int) :=
  let entry := state.mem ptr
  if ¬ hw.baseAddressesInitialized then .error .initialized
  else if ¬ state.espi.length < numElts then .error .tableFull
  else if ¬ (entry.vectorBase ≥ ARM_GIC_ESPI_MIN_IRQ ∧
      entry.vectorBase ≤ ARM_GIC_ESPI_MAX_IRQ) then .error .base
  else if ¬ entry.vectorBase + entry.numVectors ≤ hw.numEspis + ARM_GIC_ESPI_MIN_IRQ then
    .error .count
  else if hw.numEspis = 0 then .ok (state, -1)
  else if entry.last ≥ hw.numEspis + ARM_GIC_ESPI_MIN_IRQ then .ok (state, -1)
  else if hw.refusesMsi entry then .ok (state, -1)
  else if scan (clashes entry.vectorBase entry.last) state.mem state.espi ≠ state.espi.length then
    .ok (state, -1)
  else
    let taken := entry.withCallouts hw.ntoIntrSpare .interruptIdGicV3Espi .interruptEoiGicV3SpiSr
      .interruptMaskGicV3Espi .interruptUnmaskGicV3Espi
    .ok ({ state with mem := Function.update state.mem ptr taken, espi := state.espi ++ [ptr] }, 0)

/-- The mask and unmask callouts of an LPI entry. -/
def Hw.lpiMasks (hw : Hw) : CalloutRtn × CalloutRtn :=
  if hw.lpiUsesIts then (.interruptMaskGicV3LpiIts, .interruptUnmaskGicV3LpiIts)
  else (.interruptMaskGicV3LpiDirect, .interruptUnmaskGicV3LpiDirect)

/-- `gic_v3_lpi_add_entry`. -/
def Hw.lpiAddEntry (hw : Hw) (state : State) (ptr : Ptr) : Except Assertion (State × Int) :=
  let entry := state.mem ptr
  if ¬ hw.baseAddressesInitialized then .error .initialized
  else if ¬ state.lpi.length < numElts then .error .tableFull
  else if ¬ entry.vectorBase ≥ ARM_GIC_LPI_MIN_IRQ then .error .base
  else if ¬ entry.vectorBase + entry.numVectors - ARM_GIC_LPI_MIN_IRQ ≤ hw.numLpis then
    .error .count
  else if entry.last ≥ hw.numLpis + ARM_GIC_LPI_MIN_IRQ then .ok (state, -1)
  else if scan (lpiClashes entry.vectorBase entry.last) state.mem state.lpi ≠ state.lpi.length then
    .ok (state, -1)
  else
    let taken := entry.withCallouts hw.ntoIntrSpare .interruptIdGicV3Lpi .interruptEoiGicV3LpiSr
      hw.lpiMasks.1 hw.lpiMasks.2
    let numLpis := state.numLpis + entry.numVectors
    if ¬ numLpis ≤ hw.numLpis then .error .total
    else
      .ok ({ state with mem := Function.update state.mem ptr taken, lpi := state.lpi ++ [ptr]
                        numLpis := numLpis }, 0)

/-! ## Runs -/

/-- A board fills an entry, or adds one to the table of its kind. -/
inductive Call where
  | fill (ptr : Ptr) (entry : StartupIntrinfo)
  | add (kind : Kind) (ptr : Ptr)

/-- One call. -/
def Hw.step (hw : Hw) (state : State) : Call → Except Assertion (State × Int)
  | .fill ptr entry => .ok ({ state with mem := Function.update state.mem ptr entry }, 0)
  | .add .spi ptr => hw.spiAddEntry state ptr
  | .add .espi ptr => hw.espiAddEntry state ptr
  | .add .lpi ptr => hw.lpiAddEntry state ptr

/-- The table of a kind. -/
def State.table (state : State) : Kind → List Ptr
  | .spi => state.spi
  | .espi => state.espi
  | .lpi => state.lpi

/-- The vectors of an entry. -/
def StartupIntrinfo.block (entry : StartupIntrinfo) : Block :=
  ⟨entry.vectorBase.toNat, entry.numVectors.toNat⟩

/-- The vectors of the entries in a table. -/
def State.blocks (state : State) (kind : Kind) : List Block :=
  (state.table kind).map fun ptr => (state.mem ptr).block

/-- Before the first call. -/
def State.start (mem : Ptr → StartupIntrinfo) : State := ⟨mem, [], [], [], 0⟩

/-- An entry has vectors that do not wrap when it is added, and is the controller's afterwards. -/
def Allowed (_ : List (Event Call Int)) (state : State) : Call → Prop
  | .fill ptr _ => ptr ∉ state.spi ∧ ptr ∉ state.espi ∧ ptr ∉ state.lpi
  | .add _ ptr => 0 < (state.mem ptr).numVectors.toNat ∧
      (state.mem ptr).vectorBase.toNat + (state.mem ptr).numVectors.toNat ≤ 2 ^ 32

/-- The entries of a kind whose calls returned 0. -/
def accepted (kind : Kind) (history : List (Event Call Int)) : List Ptr :=
  history.filterMap fun event =>
    match event.call with
    | .fill _ _ => none
    | .add other ptr => if other = kind ∧ event.returned = 0 then some ptr else none

/-! ## The hardware's ranges -/

/-- A field of `GICD_TYPER`. -/
def Hw.typerField (hw : Hw) (low bits : Nat) : Nat := hw.gicdTyper.toNat / 2 ^ low % 2 ^ bits

/-- Where the interrupts of a kind end: SPIs by `ITLinesNumber`, below the reserved ones; extended
SPIs by `ESPI_range`; LPIs by `num_LPIs`, or by `IDbits` where that is zero. -/
def Hw.vectorEnd (hw : Hw) : Kind → Nat
  | .spi => min (32 * (hw.typerField 0 5 + 1)) 1020
  | .espi => if hw.typerField 8 1 = 1 then 4096 + 32 * (hw.typerField 27 5 + 1) else 4096
  | .lpi =>
      if hw.typerField 17 1 = 0 then 8192
      else if hw.typerField 11 5 = 0 then 2 ^ (hw.typerField 19 5 + 1)
      else 8192 + 2 ^ (hw.typerField 11 5 + 1)

/-- The first interrupt of a kind. -/
def Kind.vectorStart : Kind → Nat
  | .spi => 32
  | .espi => 4096
  | .lpi => 8192

/-- The interrupts of a kind. -/
def Hw.vectors (hw : Hw) (kind : Kind) : Set Nat := Set.Ico kind.vectorStart (hw.vectorEnd kind)

/-- The entries of a kind stand in increasing order, disjoint, inside the hardware's range. -/
structure WellPlaced (hw : Hw) (kind : Kind) (blocks : List Block) : Prop where
  increasing : blocks.Pairwise fun one other => one.start < other.start
  disjoint : blocks.Pairwise fun one other => Disjoint one.range other.range
  inside : ∀ block ∈ blocks, block.range ⊆ hw.vectors kind

variable {hw : Hw} {state after : State} {ptr : Ptr} {kind : Kind} {returned : Int}

/-! ## The number of interrupts -/

theorem field_toNat (typer : BitVec 32) (low : Nat) :
    (typer >>> low &&& 0x1f#32).toNat = typer.toNat / 2 ^ low % 2 ^ 5 := by
  rw [BitVec.toNat_and, BitVec.toNat_ushiftRight, Nat.shiftRight_eq_div_pow]
  exact Nat.and_two_pow_sub_one_eq_mod _ 5

theorem highField_toNat (typer : BitVec 32) :
    ((typer &&& (0x1f#32 <<< 27)) >>> 27).toNat = typer.toNat / 2 ^ 27 % 2 ^ 5 := by
  have moved : (typer &&& (0x1f#32 <<< 27)) >>> 27 = typer >>> 27 &&& 0x1f#32 := by
    apply BitVec.eq_of_getLsbD_eq
    intro bit inside
    simp only [BitVec.getLsbD_ushiftRight, BitVec.getLsbD_and, BitVec.getLsbD_shiftLeft]
    have index : 27 + bit - 27 = bit := by omega
    rw [index]
    by_cases high : 27 + bit < 32
    · simp [high]
    · have outside : typer.getLsbD (27 + bit) = false :=
        BitVec.getLsbD_of_ge _ _ (Nat.le_of_not_lt high)
      simp [outside]
  rw [moved, field_toNat]

theorem bit_eq_zero (typer : BitVec 32) (bit : Nat) (inside : bit < 32) :
    typer &&& (1#32 <<< bit) = 0 ↔ typer.toNat / 2 ^ bit % 2 ^ 1 = 0 := by
  have value : typer.getLsbD bit = decide (typer.toNat / 2 ^ bit % 2 = 1) := by
    rw [BitVec.getLsbD, Nat.testBit_eq_decide_div_mod_eq]
  rw [← BitVec.twoPow_eq, BitVec.and_twoPow, value, Nat.pow_one]
  by_cases set : typer.toNat / 2 ^ bit % 2 = 1
  · have nonzero : ¬ BitVec.twoPow 32 bit = 0#32 := by
      intro isZero
      have power := congrArg BitVec.toNat isZero
      rw [BitVec.toNat_twoPow_of_lt inside] at power
      exact absurd power (Nat.two_pow_pos bit).ne'
    simp [set, nonzero]
  · have clear : typer.toNat / 2 ^ bit % 2 = 0 := by omega
    simp [clear]

theorem oneShifted_toNat {amount : BitVec 32} (small : amount.toNat < 32) :
    (oneShifted amount).toNat = 2 ^ amount.toNat := by
  rw [oneShifted, Nat.mod_eq_of_lt small, ← BitVec.twoPow_eq, BitVec.toNat_twoPow_of_lt small]

theorem numSpis_toNat (hw : Hw) : (hw.numSpis + ARM_GIC_SPI_MIN_IRQ).toNat = hw.vectorEnd .spi := by
  have lines : (hw.gicdTyper >>> 0 &&& 0x1f#32).toNat = hw.typerField 0 5 := field_toNat _ 0
  have small : hw.typerField 0 5 < 32 := Nat.mod_lt _ (by decide)
  have spiMin : ARM_GIC_SPI_MIN_IRQ.toNat = 32 := rfl
  have spiMax : ARM_GIC_SPI_MAX_IRQ.toNat = 1019 := rfl
  unfold Hw.numSpis Hw.vectorEnd
  generalize hw.gicdTyper >>> 0 &&& 0x1f#32 = itLines at *
  by_cases clipped : (itLines + 1) * 32 > ARM_GIC_SPI_MAX_IRQ + 1
  · have many : 1020 < 32 * (hw.typerField 0 5 + 1) := by bv_omega
    rw [if_pos clipped, min_eq_right many.le]
    rfl
  · have few : 32 * (hw.typerField 0 5 + 1) ≤ 1020 := by bv_omega
    rw [if_neg clipped, min_eq_left few]
    bv_omega

theorem numEspis_toNat (hw : Hw) :
    (hw.numEspis + ARM_GIC_ESPI_MIN_IRQ).toNat = hw.vectorEnd .espi := by
  have bit := bit_eq_zero hw.gicdTyper 8 (by decide)
  have range : ((hw.gicdTyper &&& (0x1f#32 <<< 27)) >>> 27).toNat = hw.typerField 27 5 :=
    highField_toNat _
  have small : hw.typerField 27 5 < 32 := Nat.mod_lt _ (by decide)
  have single : hw.typerField 8 1 < 2 := Nat.mod_lt _ (by decide)
  unfold Hw.numEspis Hw.vectorEnd
  simp only [ARM_GIC_ESPI_MIN_IRQ]
  change _ ↔ hw.typerField 8 1 = 0 at bit
  generalize (hw.gicdTyper &&& (0x1f#32 <<< 27)) >>> 27 = field at *
  by_cases clear : hw.gicdTyper &&& (1#32 <<< 8) = 0
  · rw [if_neg (not_not.mpr clear), if_neg (by rw [bit.mp clear]; decide)]
    rfl
  · have set : hw.typerField 8 1 = 1 := by
      have nonzero : hw.typerField 8 1 ≠ 0 := fun isZero => clear (bit.mpr isZero)
      omega
    rw [if_pos clear, if_pos set]
    bv_omega

/-- The last vector of an LPI entry behind the test of its range. -/
theorem lpi_inside (hw : Hw) {base last : BitVec 32} (lower : ARM_GIC_LPI_MIN_IRQ ≤ base)
    (order : base ≤ last) (upper : last < hw.numLpis + ARM_GIC_LPI_MIN_IRQ) :
    last.toNat < hw.vectorEnd .lpi := by
  have bit := bit_eq_zero hw.gicdTyper 17 (by decide)
  have counted : (hw.gicdTyper >>> 11 &&& 0x1f#32).toNat = hw.typerField 11 5 := field_toNat _ 11
  have idBits : (hw.gicdTyper >>> 19 &&& 0x1f#32).toNat = hw.typerField 19 5 := field_toNat _ 19
  have countedSmall : hw.typerField 11 5 < 32 := Nat.mod_lt _ (by decide)
  have idSmall : hw.typerField 19 5 < 32 := Nat.mod_lt _ (by decide)
  change _ ↔ hw.typerField 17 1 = 0 at bit
  unfold Hw.numLpis at upper
  unfold Hw.vectorEnd
  simp only [ARM_GIC_LPI_MIN_IRQ] at *
  generalize hw.gicdTyper >>> 11 &&& 0x1f#32 = nlpi at *
  generalize hw.gicdTyper >>> 19 &&& 0x1f#32 = idField at *
  by_cases unsupported : hw.gicdTyper &&& (1#32 <<< 17) = 0
  · rw [if_pos unsupported] at upper
    bv_omega
  · rw [if_neg unsupported] at upper
    rw [if_neg fun isZero => unsupported (bit.mpr isZero)]
    by_cases byIds : nlpi = 0
    · have zero : hw.typerField 11 5 = 0 := by
        rw [← counted, byIds]
        rfl
      rw [if_pos byIds, BitVec.sub_add_cancel] at upper
      rw [if_pos zero]
      by_cases wide : hw.typerField 19 5 + 1 < 32
      · have amount : (idField + 1).toNat = hw.typerField 19 5 + 1 := by bv_omega
        rw [BitVec.lt_def, oneShifted_toNat (by omega), amount] at upper
        exact upper
      · have all : hw.typerField 19 5 + 1 = 32 := by omega
        rw [all]
        exact last.isLt
    · have nonzero : hw.typerField 11 5 ≠ 0 := by
        intro isZero
        apply byIds
        apply BitVec.eq_of_toNat_eq
        rw [counted, isZero]
        rfl
      rw [if_neg byIds] at upper
      rw [if_neg nonzero]
      by_cases wide : hw.typerField 11 5 + 1 < 32
      · have amount : (nlpi + 1).toNat = hw.typerField 11 5 + 1 := by bv_omega
        have power : (oneShifted (nlpi + 1)).toNat = 2 ^ (hw.typerField 11 5 + 1) := by
          rw [oneShifted_toNat (by omega), amount]
        have bound : 2 ^ (hw.typerField 11 5 + 1) ≤ 2 ^ 31 :=
          Nat.pow_le_pow_right (by decide) (by omega)
        bv_omega
      · have all : hw.typerField 11 5 + 1 = 32 := by omega
        rw [all]
        bv_omega

/-! ## The loop over a table -/

/-- A loop that gets through the table has found no entry that clashes. -/
theorem free_of_scan {test : StartupIntrinfo → Bool} {mem : Ptr → StartupIntrinfo}
    {table : List Ptr} (through : scan test mem table = table.length) :
    ∀ cur ∈ table, test (mem cur) = false := by
  induction table with
  | nil => exact fun cur member => absurd member List.not_mem_nil
  | cons head rest ih =>
      rw [scan] at through
      split at through
      · exact absurd through (Nat.succ_ne_zero _).symm
      · next free =>
          intro cur member
          rcases List.mem_cons.mp member with rfl | later
          · exact Bool.eq_false_iff.mpr free
          · exact ih (Nat.succ.inj through) cur later

theorem behind_of_clashes {newStart newLast : BitVec 32} {cur : StartupIntrinfo}
    (free : clashes newStart newLast cur = false) : cur.last < newStart := by
  unfold clashes at free
  by_contra notBehind
  have early : newStart ≤ cur.last := by bv_omega
  simp [early] at free

theorem behind_of_lpiClashes {newStart newLast : BitVec 32} {cur : StartupIntrinfo}
    (free : lpiClashes newStart newLast cur = false) : cur.last < newStart := by
  unfold lpiClashes at free
  by_contra notBehind
  have early : newStart ≤ cur.last := by bv_omega
  simp [early] at free

/-! ## One call -/

/-- What it takes for an entry to be added, and what it does. -/
structure Takes (hw : Hw) (kind : Kind) (state : State) (ptr : Ptr) (after : State) : Prop where
  table : ∀ other, after.table other = state.table other ++ if kind = other then [ptr] else []
  block : ∀ place, (after.mem place).block = (state.mem place).block
  behind : ∀ cur ∈ state.table kind, (state.mem cur).last < (state.mem ptr).vectorBase
  lower : kind.vectorStart ≤ (state.mem ptr).vectorBase.toNat
  upper : (state.mem ptr).vectorBase ≤ (state.mem ptr).last →
    (state.mem ptr).last.toNat < hw.vectorEnd kind
  numLpis : after.numLpis =
    if kind = .lpi then state.numLpis + (state.mem ptr).numVectors else state.numLpis
  limit : kind = .lpi → (state.mem ptr).last < hw.numLpis + ARM_GIC_LPI_MIN_IRQ ∧
    after.numLpis ≤ hw.numLpis

/-- A call returns -1 and changes nothing, or 0 and takes the entry. -/
def Answers (hw : Hw) (kind : Kind) (state : State) (ptr : Ptr) (after : State) (returned : Int) :
    Prop :=
  returned = -1 ∧ after = state ∨ returned = 0 ∧ Takes hw kind state ptr after

/-- Setting the callouts of an entry leaves the vectors of all entries. -/
theorem block_update (mem : Ptr → StartupIntrinfo) (ptr place : Ptr) (spare : BitVec 32)
    (id eoi mask unmask : CalloutRtn) :
    (Function.update mem ptr ((mem ptr).withCallouts spare id eoi mask unmask) place).block =
      (mem place).block := by
  by_cases same : place = ptr
  · subst same
    rw [Function.update_self]
    rfl
  · rw [Function.update_of_ne same]

theorem spiAddEntry_answers (added : hw.spiAddEntry state ptr = .ok (after, returned)) :
    Answers hw .spi state ptr after returned := by
  unfold Hw.spiAddEntry at added
  extract_lets entry taken at added
  split_ifs at added with _ _ base _ inRange _ through
  all_goals try (cases added; exact .inl ⟨rfl, rfl⟩)
  cases added
  refine .inr ⟨rfl, ?_, ?_, ?_, ?_, ?_, rfl, nofun⟩
  · rintro (_ | _ | _)
    · rfl
    · exact (List.append_nil _).symm
    · exact (List.append_nil _).symm
  · intro place
    exact block_update ..
  · intro cur member
    exact behind_of_clashes (free_of_scan (not_not.mp through) cur member)
  · exact base.1
  · intro _
    rw [← numSpis_toNat]
    exact BitVec.not_le.mp inRange

theorem espiAddEntry_answers (added : hw.espiAddEntry state ptr = .ok (after, returned)) :
    Answers hw .espi state ptr after returned := by
  unfold Hw.espiAddEntry at added
  extract_lets entry taken at added
  split_ifs at added with _ _ base _ _ inRange _ through
  all_goals try (cases added; exact .inl ⟨rfl, rfl⟩)
  cases added
  refine .inr ⟨rfl, ?_, ?_, ?_, ?_, ?_, rfl, nofun⟩
  · rintro (_ | _ | _)
    · exact (List.append_nil _).symm
    · rfl
    · exact (List.append_nil _).symm
  · intro place
    exact block_update ..
  · intro cur member
    exact behind_of_clashes (free_of_scan (not_not.mp through) cur member)
  · exact base.1
  · intro _
    rw [← numEspis_toNat]
    exact BitVec.not_le.mp inRange

theorem lpiAddEntry_answers (added : hw.lpiAddEntry state ptr = .ok (after, returned)) :
    Answers hw .lpi state ptr after returned := by
  unfold Hw.lpiAddEntry at added
  extract_lets entry taken numLpis at added
  split_ifs at added with _ _ base _ inRange through inTotal
  all_goals try (cases added; exact .inl ⟨rfl, rfl⟩)
  cases added
  refine .inr ⟨rfl, ?_, ?_, ?_, ?_, ?_, rfl, fun _ => ⟨BitVec.not_le.mp inRange, inTotal⟩⟩
  · rintro (_ | _ | _)
    · exact (List.append_nil _).symm
    · exact (List.append_nil _).symm
    · rfl
  · intro place
    exact block_update ..
  · intro cur member
    exact behind_of_lpiClashes (free_of_scan (not_not.mp through) cur member)
  · exact base
  · intro order
    exact lpi_inside hw base order (BitVec.not_le.mp inRange)

/-! ## Runs keep the tables in order -/

/-- What every run keeps. -/
structure Kept (hw : Hw) (history : List (Event Call Int)) (state : State) : Prop where
  table : ∀ kind, state.table kind = accepted kind history
  vectors : ∀ kind, ∀ block ∈ state.blocks kind, 0 < block.size ∧ block.start + block.size ≤ 2 ^ 32
  inOrder : ∀ kind, InOrder (state.blocks kind)
  inside : ∀ kind, ∀ block ∈ state.blocks kind,
    kind.vectorStart ≤ block.start ∧ block.start + block.size ≤ hw.vectorEnd kind
  summed : state.numLpis.toNat = total (state.blocks .lpi)

/-- The last vector of an entry whose vectors do not wrap. -/
theorem last_toNat {entry : StartupIntrinfo} (nonempty : 0 < entry.numVectors.toNat)
    (fits : entry.vectorBase.toNat + entry.numVectors.toNat ≤ 2 ^ 32) :
    entry.last.toNat + 1 = entry.vectorBase.toNat + entry.numVectors.toNat := by
  unfold StartupIntrinfo.last
  bv_omega

theorem kept_start (hw : Hw) (mem : Ptr → StartupIntrinfo) : Kept hw [] (State.start mem) where
  table := by rintro (_ | _ | _) <;> rfl
  vectors := by rintro (_ | _ | _) _ member <;> exact absurd member List.not_mem_nil
  inOrder := by rintro (_ | _ | _) <;> exact List.Pairwise.nil
  inside := by rintro (_ | _ | _) _ member <;> exact absurd member List.not_mem_nil
  summed := rfl

/-- The tables and the counter do not change. -/
theorem Kept.unchanged {history : List (Event Call Int)} (kept : Kept hw history state)
    {event : Event Call Int} (table : ∀ kind, after.table kind = state.table kind)
    (blocks : ∀ kind, after.blocks kind = state.blocks kind)
    (numLpis : after.numLpis = state.numLpis)
    (nothing : ∀ kind, accepted kind (history ++ [event]) = accepted kind history) :
    Kept hw (history ++ [event]) after where
  table := fun kind => by rw [table, kept.table, nothing]
  vectors := fun kind => by rw [blocks]; exact kept.vectors kind
  inOrder := fun kind => by rw [blocks]; exact kept.inOrder kind
  inside := fun kind => by rw [blocks]; exact kept.inside kind
  summed := by rw [numLpis, blocks, kept.summed]

/-- The vectors in the tables once an entry is taken. -/
theorem Takes.blocks (takes : Takes hw kind state ptr after) (other : Kind) :
    after.blocks other =
      state.blocks other ++ if kind = other then [(state.mem ptr).block] else [] := by
  unfold State.blocks
  rw [takes.table, List.map_append]
  congr 1
  · exact List.map_congr_left fun place _ => takes.block place
  · split
    · rw [List.map_singleton, takes.block]
    · rfl

/-- What holds of the vectors in the tables and of those of a new entry holds afterwards. -/
theorem Takes.forall_blocks {property : Kind → Block → Prop} (takes : Takes hw kind state ptr after)
    (before : ∀ other, ∀ block ∈ state.blocks other, property other block)
    (new : property kind (state.mem ptr).block) :
    ∀ other, ∀ block ∈ after.blocks other, property other block := by
  intro other block member
  rw [takes.blocks] at member
  rcases List.mem_append.mp member with old | added
  · exact before other block old
  · by_cases same : kind = other
    · subst same
      rw [if_pos rfl] at added
      rw [List.mem_singleton.mp added]
      exact new
    · rw [if_neg same] at added
      exact absurd added List.not_mem_nil

theorem Kept.inOrder_take {history : List (Event Call Int)} (kept : Kept hw history state)
    (takes : Takes hw kind state ptr after) (other : Kind) : InOrder (after.blocks other) := by
  rw [takes.blocks]
  by_cases same : kind = other
  · subst same
    rw [if_pos rfl, inOrder_append_singleton]
    refine ⟨kept.inOrder kind, ?_⟩
    intro block member
    obtain ⟨cur, inTable, rfl⟩ := List.mem_map.mp member
    obtain ⟨nonempty, fits⟩ := kept.vectors kind _ member
    have behind := BitVec.lt_def.mp (takes.behind cur inTable)
    have last := last_toNat nonempty fits
    change (state.mem cur).vectorBase.toNat + (state.mem cur).numVectors.toNat ≤
      (state.mem ptr).vectorBase.toNat
    omega
  · rw [if_neg same, List.append_nil]
    exact kept.inOrder other

/-- The counter has room for the vectors of all LPI entries, which do not overlap. -/
theorem Kept.summed_take {history : List (Event Call Int)} (kept : Kept hw history state)
    (takes : Takes hw kind state ptr after) (inOrder : InOrder (after.blocks .lpi))
    (vectors : ∀ block ∈ after.blocks .lpi, block.start + block.size ≤ 2 ^ 32)
    (inside : ∀ block ∈ after.blocks .lpi, 8192 ≤ block.start) :
    after.numLpis.toNat = total (after.blocks .lpi) := by
  have room : 8192 + total (after.blocks .lpi) ≤ 2 ^ 32 := by
    apply inOrder.total_le (by decide)
    intro block member
    exact ⟨inside block member, vectors block member⟩
  rw [takes.blocks] at room ⊢
  rw [takes.numLpis]
  by_cases lpi : kind = .lpi
  · rw [if_pos lpi, total_append, ← kept.summed] at room ⊢
    rw [if_pos lpi]
    change 8192 + (state.numLpis.toNat + ((state.mem ptr).numVectors.toNat + 0)) ≤ 2 ^ 32 at room
    change _ = state.numLpis.toNat + ((state.mem ptr).numVectors.toNat + 0)
    rw [BitVec.toNat_add, Nat.mod_eq_of_lt (by omega), Nat.add_zero]
  · rw [if_neg lpi, if_neg lpi, List.append_nil]
    exact kept.summed

theorem accepted_append (kind : Kind) (history : List (Event Call Int)) (event : Event Call Int) :
    accepted kind (history ++ [event]) = accepted kind history ++ accepted kind [event] :=
  List.filterMap_append

/-- Taking an entry keeps the tables in order. -/
theorem Kept.take {history : List (Event Call Int)} (kept : Kept hw history state)
    (nonempty : 0 < (state.mem ptr).numVectors.toNat)
    (fits : (state.mem ptr).vectorBase.toNat + (state.mem ptr).numVectors.toNat ≤ 2 ^ 32)
    (takes : Takes hw kind state ptr after) :
    Kept hw (history ++ [⟨.add kind ptr, 0⟩]) after := by
  have last := last_toNat nonempty fits
  have order : (state.mem ptr).vectorBase ≤ (state.mem ptr).last := by
    rw [BitVec.le_def]
    omega
  have upper := takes.upper order
  have vectors := takes.forall_blocks kept.vectors ⟨nonempty, fits⟩
  have inside : ∀ other, ∀ block ∈ after.blocks other,
      other.vectorStart ≤ block.start ∧ block.start + block.size ≤ hw.vectorEnd other := by
    apply takes.forall_blocks kept.inside
    refine ⟨takes.lower, ?_⟩
    change (state.mem ptr).vectorBase.toNat + (state.mem ptr).numVectors.toNat ≤ _
    omega
  refine ⟨?_, vectors, kept.inOrder_take takes, inside, ?_⟩
  · intro other
    rw [takes.table, kept.table, accepted_append]
    by_cases same : kind = other <;> simp [accepted, same]
  · apply kept.summed_take takes (kept.inOrder_take takes .lpi)
    · intro block member
      exact (vectors .lpi block member).2
    · intro block member
      exact (inside .lpi block member).1

/-- A call returns -1 and changes nothing, or 0 and takes the entry. -/
theorem step_answers (added : hw.step state (.add kind ptr) = .ok (after, returned)) :
    Answers hw kind state ptr after returned := by
  cases kind with
  | spi => exact spiAddEntry_answers added
  | espi => exact espiAddEntry_answers added
  | lpi => exact lpiAddEntry_answers added

/-- The vectors in a table do not change when an entry outside it is filled. -/
theorem blocks_fill (entry : StartupIntrinfo) (outside : ptr ∉ state.table kind) :
    State.blocks { state with mem := Function.update state.mem ptr entry } kind =
      state.blocks kind := by
  have table : State.table { state with mem := Function.update state.mem ptr entry } kind =
      state.table kind := by
    cases kind <;> rfl
  unfold State.blocks
  rw [table]
  apply List.map_congr_left
  intro place member
  have other : place ≠ ptr := fun same => outside (same ▸ member)
  exact congrArg StartupIntrinfo.block (Function.update_of_ne other entry state.mem)

/-- The tables stay in order along every run. -/
theorem kept_of_run {mem : Ptr → StartupIntrinfo} {history : List (Event Call Int)}
    (ran : Run hw.step Allowed (State.start mem) history state) : Kept hw history state := by
  refine @Run.invariant _ _ _ _ _ _ _ (Kept hw) (kept_start hw mem) ?_ _ _ ran
  intro history state call after returned kept isAllowed stepped
  cases call with
  | fill ptr entry =>
      obtain ⟨notSpi, notEspi, notLpi⟩ := isAllowed
      cases stepped
      have outside : ∀ kind, ptr ∉ state.table kind := by
        rintro (_ | _ | _)
        · exact notSpi
        · exact notEspi
        · exact notLpi
      refine kept.unchanged (by rintro (_ | _ | _) <;> rfl) ?_ rfl ?_
      · intro kind
        exact blocks_fill entry (outside kind)
      · intro kind
        rw [accepted_append]
        exact List.append_nil _
  | add kind ptr =>
      obtain ⟨nonempty, fits⟩ := isAllowed
      rcases step_answers stepped with ⟨rfl, rfl⟩ | ⟨rfl, takes⟩
      · refine kept.unchanged (fun _ => rfl) (fun _ => rfl) rfl ?_
        intro other
        rw [accepted_append]
        simp [accepted]
      · exact kept.take nonempty fits takes

/-- Along every run of calls the entries that each table took stand in increasing order, disjoint
and inside the hardware's range; the LPIs are counted; a call that fails changes nothing. -/
theorem ranges_disjoint {mem : Ptr → StartupIntrinfo} {history : List (Event Call Int)}
    (ran : Run hw.step Allowed (State.start mem) history state) :
    (∀ kind, state.table kind = accepted kind history ∧
      WellPlaced hw kind (state.blocks kind)) ∧
    state.numLpis.toNat = total (state.blocks .lpi) ∧
    ∀ kind ptr after, hw.step state (.add kind ptr) = .ok (after, -1) → after = state := by
  have kept := kept_of_run ran
  refine ⟨fun kind => ⟨kept.table kind, ?_, (kept.inOrder kind).disjoint, ?_⟩, kept.summed, ?_⟩
  · refine (kept.inOrder kind).imp_of_mem ?_
    intro one other member _ before
    have nonempty := (kept.vectors kind one member).1
    omega
  · intro block member
    obtain ⟨lower, upper⟩ := kept.inside kind block member
    exact Set.Ico_subset_Ico lower upper
  · intro kind ptr after failed
    rcases step_answers failed with ⟨_, same⟩ | ⟨zero, _⟩
    · exact same
    · exact absurd zero (by decide)

instance (history : List (Event Call Int)) (state : State) (call : Call) :
    Decidable (Allowed history state call) :=
  match call with
  | .fill _ _ => inferInstanceAs (Decidable (_ ∧ _ ∧ _))
  | .add _ _ => inferInstanceAs (Decidable (_ ∧ _))

/-- A controller with 96 SPIs and with LPIs behind an ITS. -/
def smallHw : Hw := ⟨true, 0x7a0003, 1, 0x7fffffff, 2⟩

/-- An entry of a board. -/
def boardEntry (vectorBase numVectors : BitVec 32) : StartupIntrinfo where
  vectorBase := vectorBase
  numVectors := numVectors
  cascadeVector := 0
  cpuIntrBase := 0
  cpuIntrStride := 0
  flags := 0
  id := ⟨0, 0, .board 0⟩
  eoi := ⟨0, 0, .board 0⟩
  mask := .board 0
  unmask := .board 0
  config := .board 0
  patchData := 0
  localStride := 0

/-- Two SPI entries, of which the second has vectors of the first, and an LPI entry. -/
def boardCalls : List Call :=
  [.fill 0 (boardEntry 32 64), .add .spi 0, .fill 1 (boardEntry 95 8), .add .spi 1,
    .fill 2 (boardEntry 8192 100), .add .lpi 2]

theorem ranges_board : ∃ (history : List (Event Call Int)) (state : State),
    state.spi = [0] ∧ state.lpi = [2] ∧ history.map Event.returned = [0, 0, 0, -1, 0, 0] ∧
    (∀ kind, state.table kind = accepted kind history ∧
      WellPlaced smallHw kind (state.blocks kind)) ∧
    state.numLpis.toNat = total (state.blocks .lpi) := by
  have made : (Run.execute smallHw.step Allowed [] (State.start fun _ => boardEntry 0 0)
      boardCalls).map (fun final => (final.2.spi, final.2.lpi, final.1.map Event.returned)) =
        some ([0], [2], [0, 0, 0, -1, 0, 0]) := by decide
  obtain ⟨⟨history, state⟩, executed, same⟩ := Option.map_eq_some_iff.mp made
  obtain ⟨spi, lpi, returned⟩ : state.spi = [0] ∧ state.lpi = [2] ∧
      history.map Event.returned = [0, 0, 0, -1, 0, 0] := by simpa using same
  obtain ⟨placed, counted, _⟩ := ranges_disjoint (Run.of_execute .start executed)
  exact ⟨history, state, spi, lpi, returned, placed, counted⟩

end Bcm2711.Gic
