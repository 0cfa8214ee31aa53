import Bcm2711.Startup.AsinfoNamed
import Bcm2711.Startup.NoDoubleAlloc

/-! # The memory of the board

`bcm2711_init_raminfo` adds the RAM that the board revision tells, takes the VideoCore memory below
1 GiB out of it and names it in the table of address ranges.  The RAM below the VideoCore memory
gets a name of its own only on boards with more than 1 GiB.
-/

namespace Bcm2711.Startup

open Fallible

def KILO (k : Nat) : Nat := k * 1024

def MEG (m : Nat) : Nat := m * (1024 * 1024)

def GIG (m : Nat) : Nat := m * (1024 * 1024 * 1024)

def BCM2711_DRAM_BASE : Nat := 0

def BCM2711_DRAM_STUB_SIZE : Nat := KILO 4

def BCM2711_DRAM_BASE_1 : Nat := 0x100000000

def BOARD_REV_MEM_SHIFT : Nat := 20

def BOARD_REV_MEM_MASK : Nat := 0x7

/-- `get_memory_size`. -/
def getMemorySize (boardRev : Nat) : Nat :=
  let memory := [256, 512, 1024, 2048, 4096, 8192]
  let idx := (boardRev >>> BOARD_REV_MEM_SHIFT) &&& BOARD_REV_MEM_MASK
  if idx < memory.length then memory.getD idx 0 else 0

/-- `ramsize`. -/
def boardRamsize (boardRev : Nat) : Nat :=
  let ramsize := MEG (getMemorySize boardRev)
  if ramsize = 0 then MEG 256 else ramsize

/-- The calls of `add_ram`. -/
def addBoardRam (boot : Boot) (state : RamState) (ramsize : Nat) : Result RamState := do
  if ramsize ≥ GIG 4 then
    let state ← addRam boot state BCM2711_DRAM_BASE (GIG 4 - MEG 64)
    if ramsize ≥ GIG 8 then addRam boot state BCM2711_DRAM_BASE_1 (GIG 4) else return state
  else addRam boot state BCM2711_DRAM_BASE ramsize

/-- `bcm2711_init_raminfo`, for what the mailbox returns. -/
def bcm2711InitRaminfo (boot : Boot) (state : RamState) (vcramSize boardRev : Nat) :
    Result RamState := do
  let vcramStart := subPaddr (GIG 1) vcramSize
  let state ← avoidRam boot state BCM2711_DRAM_BASE BCM2711_DRAM_STUB_SIZE
  let state ← avoidRam boot state vcramStart vcramSize
  let ramsize := boardRamsize boardRev
  let state ← addBoardRam boot state ramsize
  let (state, _) ← allocRam state vcramStart vcramSize 0
  let (asinfo, _) ← asAddContaining state.asinfo vcramStart
    (subPaddr (addPaddr vcramStart vcramSize) 1) asAttrRam "vcram" "ram"
  if ramsize > GIG 1 then
    let (asinfo, _) ← asAddContaining asinfo BCM2711_DRAM_BASE (subPaddr vcramStart 1) asAttrRam
      "below1G" "ram"
    return { state with asinfo := asinfo }
  else return { state with asinfo := asinfo }

/-! ## The map that is to result -/

/-- Where the peripherals are. -/
def peripherals : Set Nat := Set.Ico 0xfc000000 0x100000000

/-- The RAM of a board. -/
def detectedRam (boardRev : Nat) : Set Nat := Set.Ico 0 (boardRamsize boardRev) \ peripherals

/-- The addresses of the VideoCore memory. -/
def videoCore (vcramSize : Nat) : Set Nat := Set.Ico (GIG 1 - vcramSize) (GIG 1)

/-- The RAM below the VideoCore memory. -/
def ramBelow (vcramSize boardRev : Nat) : Set Nat :=
  detectedRam boardRev ∩ Set.Iio (GIG 1 - vcramSize)

/-- `ram_list` and the table of address ranges show the memory of the board. -/
structure MemoryMapped (boot : Boot) (vcramSize boardRev : Nat) (state : RamState) : Prop where
  ram : ∃ ram, state.ram = some ram ∧
    ram.HoldsFree ((detectedRam boardRev \ videoCore vcramSize) \ imageRange boot)
  vcram : namedRange state.asinfo "vcram" = videoCore vcramSize ∩ detectedRam boardRev
  below1G : (ramBelow vcramSize boardRev).Nonempty →
    namedRange state.asinfo "below1G" = ramBelow vcramSize boardRev

/-! ## The tables on the way -/

/-- The place on the avoid list that the temporary system page will take. -/
def RamState.pending (state : RamState) : Nat := if state.tempSyspage = nullPaddr then 1 else 0

/-- What is known of the tables of a state, with room on the avoid list for so many ranges. -/
structure KnownRam (state : RamState) (count slots : Nat) (free : Set Nat) : Prop where
  ram : ∃ ram, state.ram = some ram ∧ ram.HoldsIn count free
  avoid : ∃ avoid taken, state.avoid = some avoid ∧ avoid.Avoids taken ∧
    avoid.avoidListSize + sizeofAvoidEntry * (slots + state.pending) ≤ maxAvoidListSize
  early : state.sysramAdded = false
  below : free ⊆ Set.Iio (2 ^ 33)

/-- Startup before any RAM is known, with room on the avoid list for what the board avoids. -/
def BeforeRam (boot : Boot) (state : RamState) : Prop :=
  ∃ ready, ensureInit boot state = .ok ready ∧ KnownRam ready 0 2 ∅ ∧ ready.asinfo = []

section Steps

variable {boot : Boot} {state ready : RamState} {count slots start size : Nat} {free : Set Nat}

theorem Boot.ensureInit_known (boot : Boot) (known : KnownRam state count slots free) :
    ensureInit boot state = .ok state := by
  obtain ⟨avoid, taken, isAvoid, _⟩ := known.avoid
  simp only [ensureInit, isAvoid]

/-- `avoid_ram` takes a place on the avoid list. -/
theorem avoidRam_known (inited : ensureInit boot state = .ok ready)
    (known : KnownRam ready count (slots + 1) free) (ends : start + size ≠ 0)
    (fits : start + size < 2 ^ 64) :
    ∃ after, avoidRam boot state start size = .ok after ∧ KnownRam after count slots free ∧
      after.asinfo = ready.asinfo := by
  obtain ⟨ram, ⟨avoid, taken, isAvoid, avoids, room⟩, early, below⟩ := known
  simp only [sizeofAvoidEntry, maxAvoidListSize] at room
  obtain ⟨next, run, more, grown⟩ := addAvoid_returns avoids ends fits (by
    simp only [sizeofAvoidEntry, maxAvoidListSize]
    omega)
  refine ⟨{ ready with avoid := some next }, ?_, ⟨ram, ⟨next, _, rfl, more, ?_⟩, early, below⟩,
    rfl⟩
  · simp only [avoidRam, inited, isAvoid, deref, bind, Except.bind, run, pure, Except.pure]
  · simp only [RamState.pending, sizeofAvoidEntry, maxAvoidListSize] at room grown ⊢
    omega

/-- `alloc_ram` at an address. -/
theorem takeRam_known (known : KnownRam state count slots free) (fits : start + size < 2 ^ 64)
    (few : count < 63) :
    ∃ after, takeRam state start size = .ok (after, start) ∧
      KnownRam after (2 * count) slots (free \ Set.Ico start (start + size)) ∧
      after.asinfo = state.asinfo := by
  obtain ⟨⟨ram, isRam, holds⟩, avoid, early, below⟩ := known
  obtain ⟨removed, run, fewer⟩ := removeRam_holdsIn holds fits few
  refine ⟨{ state with ram := some removed }, ?_, ⟨⟨removed, rfl, fewer⟩, avoid, early,
    Set.sdiff_subset.trans below⟩, rfl⟩
  simp only [takeRam, isRam, deref, bind, Except.bind, run, early, Bool.false_eq_true, ↓reduceIte,
    pure, Except.pure]

/-- The temporary system page takes its place on the avoid list. -/
theorem findTempSyspage_known (boot : Boot) (known : KnownRam state count slots free) :
    ∃ after, findTempSyspage boot state = .ok after ∧ KnownRam after count slots free ∧
      after.asinfo = state.asinfo := by
  by_cases unset : state.tempSyspage = nullPaddr
  · obtain ⟨⟨ram, isRam, holds⟩, ⟨avoid, taken, isAvoid, avoids, slotsLeft⟩, early, below⟩ := known
    obtain ⟨-, small⟩ := pageShift_bounds boot
    have pages : 2 ^ boot.pageShift ≤ 2 ^ 16 := Nat.pow_le_pow_right (by decide) small
    have room : ∀ address ∈ free, address + (2 ^ boot.pageShift - 1) < 2 ^ 64 := by
      intro address member
      have bound : address < 2 ^ 33 := below member
      omega
    obtain ⟨place, search, found⟩ := @findRam_sound avoid ram tempSyspageSize boot.pageShift free
      taken holds.holdsFree avoids (by omega) room
    have searched : findTempSyspage boot state =
        if place ≠ nullPaddr then
          avoidRam boot { state with tempSyspage := place } place tempSyspageSize
        else .ok { state with tempSyspage := place } := by
      simp only [findTempSyspage, unset, ↓reduceIte, isRam, isAvoid, deref, bind, Except.bind,
        search, pure, Except.pure]
    rw [searched]
    by_cases isNull : place = nullPaddr
    · rw [if_neg (not_not.mpr isNull), isNull]
      refine ⟨_, rfl, ⟨⟨ram, isRam, holds⟩, ⟨avoid, taken, isAvoid, avoids, ?_⟩, early, below⟩, rfl⟩
      simpa only [RamState.pending, unset, ↓reduceIte] using slotsLeft
    · have found := found.resolve_left isNull
      rw [if_pos isNull]
      have more : KnownRam { state with tempSyspage := place } count (slots + 1) free := by
        refine ⟨⟨ram, isRam, holds⟩, ⟨avoid, taken, isAvoid, avoids, ?_⟩, early, below⟩
        simpa only [RamState.pending, unset, isNull, ↓reduceIte] using slotsLeft
      have ends : place + tempSyspageSize ≠ 0 := by simp [tempSyspageSize]
      obtain ⟨after, run, known, same⟩ :=
        avoidRam_known (boot.ensureInit_known more) more ends found.fits
      exact ⟨after, run, known, same⟩
  · refine ⟨state, ?_, known, rfl⟩
    simp only [findTempSyspage, unset, ↓reduceIte, pure, Except.pure]

/-- `add_ram` adds its range but for the boot image. -/
theorem addRam_known (boot : Boot) (start size : Nat) {asinfo : List AsinfoEntry}
    {off : Option Nat} (known : KnownRam state count slots free) (inMemory : start + size ≤ 2 ^ 33)
    (few : count < 62)
    (adds : asAddContaining (if state.asinfo.length = 0 then initAsinfo boot else state.asinfo)
      start (subPaddr (addPaddr start size) 1) asAttrRam "ram" "memory" = .ok (asinfo, off)) :
    ∃ after, addRam boot state start size = .ok after ∧
      KnownRam after (2 * (count + 1)) slots
        ((free ∪ Set.Ico start (start + size)) \ imageRange boot) ∧
      after.asinfo = asinfo := by
  obtain ⟨⟨ram, isRam, holds⟩, avoid, early, below⟩ := known
  obtain ⟨added, run, more⟩ := addMem_holdsIn holds (by omega : start + size < 2 ^ 64) (by omega)
  have wider : KnownRam { state with asinfo := asinfo, ram := some added } (count + 1) slots
      (free ∪ Set.Ico start (start + size)) := by
    refine ⟨⟨added, rfl, more⟩, avoid, early, Set.union_subset below ?_⟩
    intro address inside
    exact lt_of_lt_of_le inside.2 inMemory
  obtain ⟨cleared, takes, lessRam, sameTable⟩ := takeRam_known wider boot.image_fits (by omega)
  obtain ⟨after, finds, stillRam, stillTable⟩ := findTempSyspage_known boot lessRam
  rw [boot.ico_image] at stillRam
  refine ⟨after, ?_, stillRam, stillTable.trans sameTable⟩
  simp only [addRam, adds, isRam, deref, bind, Except.bind, run, allocRam_image, takes, finds]

end Steps

/-! ## The table of address ranges on the way -/

/-- The table while RAM is added: what is under `ram`, and no name of the board yet. -/
structure RamUnder (table : List AsinfoEntry) (under : Set Nat) : Prop where
  sound : SoundTable table
  memory : Laminar table "memory"
  low : Set.Iio (2 ^ 32) ⊆ contained table "memory"
  laminar : Laminar table "ram"
  ram : contained table "ram" = under
  unnamed : ∀ name, name = "vcram" ∨ name = "below1G" → namedRange table name = ∅

section Asinfo

variable {table : List AsinfoEntry} {under : Set Nat}

theorem RamUnder.some_entry (known : RamUnder table under) : table.length ≠ 0 := by
  intro none
  rw [List.length_eq_zero_iff] at none
  subst none
  have zero : (0 : Nat) < 2 ^ 32 := by decide
  obtain ⟨off, named, _⟩ := known.low zero
  exact Nat.not_lt_zero _ named.lt_length

/-- RAM beside the RAM added before goes under the memory. -/
theorem RamUnder.add (known : RamUnder table under) (start : Nat) {stop : Nat}
    (fits : stop < 2 ^ 64)
    (beside : Disjoint (Set.Icc start stop) under) :
    ∃ result off, asAddContaining table start stop asAttrRam "ram" "memory" =
        .ok (result, off) ∧
      RamUnder result (under ∪ Set.Icc start stop ∩ contained table "memory") := by
  obtain ⟨result, off, run, added⟩ :=
    asAddContaining_added known.sound known.memory start fits "ram"
  refine ⟨result, off, run, added.sound, added.laminar, ?_, ?_, ?_, ?_⟩
  · rw [added.contained]
    exact known.low.trans Set.subset_union_left
  · exact added.beside known.laminar (known.ram ▸ beside)
  · rw [added.contained, known.ram]
    congr 1
    ext address
    exact and_iff_right rfl
  · intro name isName
    rw [added.named, known.unnamed name isName, Set.empty_union,
      Set.eq_empty_iff_forall_notMem]
    rintro address ⟨same, -⟩
    rcases isName with rfl | rfl
    · exact absurd same (by decide)
    · exact absurd same (by decide)

/-- The table that `add_ram` begins with. -/
theorem initAsinfo_eq (boot : Boot) : initAsinfo boot =
    [⟨0, 2 ^ boot.paddrBits - 1, none, "memory", { asAttrRam.stored with kids := true }⟩,
      ⟨0, 2 ^ 32 - 1, some 0, "below4G", asAttrRam.stored⟩] := rfl

theorem initAsinfo_ramUnder (boot : Boot) : RamUnder (initAsinfo boot) ∅ := by
  have bits := boot.paddrBits_mem
  simp only [List.mem_cons, List.not_mem_nil, or_false] at bits
  have wide : 2 ^ 32 ≤ 2 ^ boot.paddrBits := Nat.pow_le_pow_right (by decide) (by omega)
  have narrow : 2 ^ boot.paddrBits ≤ 2 ^ 48 := Nat.pow_le_pow_right (by decide) (by omega)
  have owners : OwnersFirst (initAsinfo boot) := by
    rw [initAsinfo_eq]
    intro off entry owner at_off owned
    rcases off with _ | _ | off
    · cases at_off
      cases owned
    · cases at_off
      cases owned
      exact Nat.zero_lt_one
    · cases at_off
  have names : ∀ entry ∈ initAsinfo boot, entry.name = "memory" ∨ entry.name = "below4G" := by
    rw [initAsinfo_eq]
    intro entry member
    simp only [List.mem_cons, List.not_mem_nil, or_false] at member
    rcases member with rfl | rfl
    · exact Or.inl rfl
    · exact Or.inr rfl
  have noRam : ∀ off, ¬ Named (initAsinfo boot) "ram" off := by
    intro off named
    induction named with
    | own at_off same =>
        rcases names _ (List.mem_of_getElem? at_off) with other | other
        · exact absurd (other.symm.trans same) (by decide)
        · exact absurd (other.symm.trans same) (by decide)
    | inherited _ _ _ ih => exact ih
  refine ⟨⟨owners, ?_⟩, ?_, ?_, ?_, ?_, ?_⟩
  · rw [initAsinfo_eq]
    intro entry member
    simp only [List.mem_cons, List.not_mem_nil, or_false] at member
    rcases member with rfl | rfl
    · exact ⟨Nat.zero_le _, by simp only; omega⟩
    · exact ⟨Nat.zero_le _, by simp only; omega⟩
  · intro earlier later order _ namedLater
    have below := namedLater.lt_length
    rw [initAsinfo_eq] at below ⊢
    simp only [List.length_cons, List.length_nil] at below
    obtain ⟨rfl, rfl⟩ : earlier = 0 ∧ later = 1 := by omega
    refine Or.inl fun address inside => ?_
    have bounds : 0 ≤ address ∧ address ≤ 2 ^ 32 - 1 := inside
    have wider : 0 ≤ address ∧ address ≤ 2 ^ boot.paddrBits - 1 := by omega
    exact wider
  · intro address low
    have bound : address < 2 ^ 32 := low
    have wider : 0 ≤ address ∧ address ≤ 2 ^ boot.paddrBits - 1 := by omega
    exact ⟨0, .own rfl rfl, wider⟩
  · exact fun earlier later _ named _ => absurd named (noRam earlier)
  · rw [Set.eq_empty_iff_forall_notMem]
    rintro address ⟨off, named, _⟩
    exact noRam off named
  · intro name isName
    rw [Set.eq_empty_iff_forall_notMem]
    rintro address ⟨entry, member, same, _⟩
    rcases isName with rfl | rfl <;> rcases names entry member with other | other <;>
      exact absurd (other.symm.trans same) (by decide)

end Asinfo

/-! ## The RAM of the board -/

section Board

variable {boot : Boot} {state : RamState} {slots : Nat}

/-- What a board can have. -/
theorem boardRamsize_mem (boardRev : Nat) :
    boardRamsize boardRev ∈ [MEG 256, MEG 512, GIG 1, GIG 2, GIG 4, GIG 8] ∧
      (GIG 1 < boardRamsize boardRev ↔ 1024 < getMemorySize boardRev) := by
  rw [boardRamsize, getMemorySize]
  generalize (boardRev >>> BOARD_REV_MEM_SHIFT) &&& BOARD_REV_MEM_MASK = idx
  by_cases inside : idx < 6
  · interval_cases idx <;> decide
  · have outside : ¬ idx < [256, 512, 1024, 2048, 4096, 8192].length := inside
    simp only [outside, ↓reduceIte]
    decide

theorem KnownRam.mono {count more : Nat} {free : Set Nat} (known : KnownRam state count slots free)
    (grows : count ≤ more) : KnownRam state more slots free := by
  obtain ⟨⟨ram, isRam, spans, stores, separated, covers, few⟩, avoid, early, below⟩ := known
  exact ⟨⟨ram, isRam, spans, stores, separated, covers, few.trans grows⟩, avoid, early, below⟩

/-- The first range. -/
theorem addRam_first (boot : Boot) (known : KnownRam state 0 slots ∅)
    (noTable : state.asinfo = []) {size : Nat} (positive : 0 < size) (fits : size ≤ 2 ^ 32) :
    ∃ after, addRam boot state BCM2711_DRAM_BASE size = .ok after ∧
      KnownRam after 2 slots (Set.Ico 0 size \ imageRange boot) ∧
      RamUnder after.asinfo (Set.Ico 0 size) := by
  have start := initAsinfo_ramUnder boot
  obtain ⟨result, off, adds, under⟩ := start.add 0 (by omega : size - 1 < 2 ^ 64)
    (Set.disjoint_empty _)
  have stop : subPaddr (addPaddr BCM2711_DRAM_BASE size) 1 = size - 1 := by
    rw [BCM2711_DRAM_BASE, addPaddr_of_lt (by omega), Nat.zero_add,
      subPaddr_of_le (by omega) (by omega)]
  have range : ∅ ∪ Set.Icc 0 (size - 1) ∩ contained (initAsinfo boot) "memory" =
      Set.Ico 0 size := by
    rw [Set.empty_union]
    ext address
    constructor
    · rintro ⟨⟨first, last⟩, -⟩
      exact ⟨first, by omega⟩
    · rintro ⟨first, last⟩
      refine ⟨⟨first, by omega⟩, start.low ?_⟩
      exact lt_of_lt_of_le last fits
  have table : (if state.asinfo.length = 0 then initAsinfo boot else state.asinfo) =
      initAsinfo boot := by
    rw [noTable]
    rfl
  rw [range] at under
  obtain ⟨after, run, still, same⟩ := addRam_known boot BCM2711_DRAM_BASE size known
    (by rw [BCM2711_DRAM_BASE]; omega) (by decide) (by rw [table, stop]; exact adds)
  refine ⟨after, run, ?_, by rw [same]; exact under⟩
  simp only [Set.empty_union, BCM2711_DRAM_BASE, Nat.zero_add] at still
  exact still

/-- The second range, above 4 GiB. -/
theorem addRam_second (boot : Boot) {count size : Nat} {free : Set Nat}
    (known : KnownRam state count slots free) (few : count < 62) (fits : size ≤ 2 ^ 32)
    (under : RamUnder state.asinfo (Set.Ico 0 size)) :
    ∃ after more, addRam boot state BCM2711_DRAM_BASE_1 (GIG 4) = .ok after ∧
      KnownRam after (2 * (count + 1)) slots
        ((free ∪ Set.Ico (2 ^ 32) (2 ^ 33)) \ imageRange boot) ∧
      RamUnder after.asinfo (Set.Ico 0 size ∪ Set.Icc (2 ^ 32) (2 ^ 33 - 1) ∩ more) := by
  have beside : Disjoint (Set.Icc (2 ^ 32) (2 ^ 33 - 1)) (Set.Ico 0 size) := by
    rw [Set.disjoint_left]
    rintro address ⟨high, -⟩ ⟨-, low⟩
    omega
  obtain ⟨result, off, adds, more⟩ := under.add (2 ^ 32) (by decide : 2 ^ 33 - 1 < 2 ^ 64) beside
  have stop : subPaddr (addPaddr BCM2711_DRAM_BASE_1 (GIG 4)) 1 = 2 ^ 33 - 1 := by decide
  have table : (if state.asinfo.length = 0 then initAsinfo boot else state.asinfo) =
      state.asinfo := if_neg under.some_entry
  obtain ⟨after, run, still, same⟩ := addRam_known boot BCM2711_DRAM_BASE_1 (GIG 4) known
    (by decide) few (by rw [table, stop]; exact adds)
  exact ⟨after, _, run, still, by rw [same]; exact more⟩

/-- What is under `ram` below 4 GiB is the RAM of the board there. -/
theorem addBoardRam_known (boot : Boot) (known : KnownRam state 0 slots ∅)
    (noTable : state.asinfo = []) (boardRev : Nat) :
    ∃ after under, addBoardRam boot state (boardRamsize boardRev) = .ok after ∧
      KnownRam after 6 slots (detectedRam boardRev \ imageRange boot) ∧
      RamUnder after.asinfo under ∧
      under ∩ Set.Iio (2 ^ 32) = detectedRam boardRev ∩ Set.Iio (2 ^ 32) := by
  have sizes := (boardRamsize_mem boardRev).1
  rw [detectedRam]
  generalize boardRamsize boardRev = ramsize at sizes
  have sizes : ramsize ≤ GIG 2 ∧ 0 < ramsize ∨ ramsize = GIG 4 ∨ ramsize = GIG 8 := by
    simp only [List.mem_cons, List.not_mem_nil, or_false, MEG, GIG] at sizes ⊢
    omega
  rcases sizes with ⟨small, positive⟩ | rfl | rfl
  · have below : ¬ ramsize ≥ GIG 4 := by
      simp only [GIG] at small ⊢
      omega
    have bound : ramsize ≤ 2 ^ 32 := by
      simp only [GIG] at small
      omega
    have whole : Set.Ico 0 ramsize \ peripherals = Set.Ico 0 ramsize := by
      rw [sdiff_eq_left, Set.disjoint_left]
      rintro address ⟨-, low⟩ ⟨high, -⟩
      simp only [GIG] at small
      omega
    obtain ⟨after, adds, still, under⟩ := addRam_first boot known noTable positive bound
    refine ⟨after, _, ?_, ?_, under, ?_⟩
    · rw [addBoardRam, if_neg below, adds]
    · rw [whole]
      exact still.mono (by decide)
    · rw [whole]
  · obtain ⟨after, adds, still, under⟩ :=
      addRam_first boot known noTable (by decide : 0 < GIG 4 - MEG 64) (by decide)
    have whole : Set.Ico 0 (GIG 4) \ peripherals = Set.Ico 0 (GIG 4 - MEG 64) := by
      ext address
      simp only [peripherals, Set.mem_sdiff, Set.mem_Ico, GIG, MEG]
      omega
    refine ⟨after, _, ?_, ?_, under, ?_⟩
    · rw [addBoardRam, if_pos (le_refl _), adds]
      rfl
    · rw [whole]
      exact still.mono (by decide)
    · rw [whole]
  · obtain ⟨first, adds, still, under⟩ :=
      addRam_first boot known noTable (by decide : 0 < GIG 4 - MEG 64) (by decide)
    obtain ⟨after, more, again, both, wider⟩ :=
      addRam_second boot still (by decide) (by decide) under
    refine ⟨after, _, ?_, ?_, wider, ?_⟩
    · rw [addBoardRam, if_pos (by decide), adds]
      exact again
    · have whole : (Set.Ico 0 (GIG 4 - MEG 64) \ imageRange boot ∪ Set.Ico (2 ^ 32) (2 ^ 33)) \
          imageRange boot = (Set.Ico 0 (GIG 8) \ peripherals) \ imageRange boot := by
        rw [Set.union_sdiff_distrib, sdiff_idem, ← Set.union_sdiff_distrib]
        congr 1
        ext address
        simp only [peripherals, Set.mem_sdiff, Set.mem_union, Set.mem_Ico, GIG, MEG]
        omega
      rw [← whole]
      exact both
    · ext address
      simp only [peripherals, Set.mem_inter_iff, Set.mem_sdiff, Set.mem_union, Set.mem_Ico,
        Set.mem_Icc, Set.mem_Iio, GIG, MEG]
      omega

theorem mem_under_iff {under : Set Nat} {boardRev address : Nat}
    (shown : under ∩ Set.Iio (2 ^ 32) = detectedRam boardRev ∩ Set.Iio (2 ^ 32))
    (low : address < GIG 1) : address ∈ under ↔ address ∈ detectedRam boardRev := by
  have inside : address < 2 ^ 32 := by
    simp only [GIG] at low
    omega
  have same := Set.ext_iff.mp shown address
  simpa only [Set.mem_inter_iff, Set.mem_Iio, inside, and_true] using same

/-- The VideoCore memory gets its name. -/
theorem vcram_named {table : List AsinfoEntry} {under : Set Nat} (known : RamUnder table under)
    (vcramSize : Nat) {boardRev : Nat}
    (shown : under ∩ Set.Iio (2 ^ 32) = detectedRam boardRev ∩ Set.Iio (2 ^ 32)) :
    ∃ result off, asAddContaining table (GIG 1 - vcramSize) (GIG 1 - 1) asAttrRam "vcram" "ram" =
        .ok (result, off) ∧ SoundTable result ∧ Laminar result "ram" ∧
      contained result "ram" = under ∧ namedRange result "below1G" = ∅ ∧
      namedRange result "vcram" = videoCore vcramSize ∩ detectedRam boardRev := by
  obtain ⟨result, off, run, added⟩ := asAddContaining_added known.sound known.laminar
    (GIG 1 - vcramSize) (by decide : GIG 1 - 1 < 2 ^ 64) "vcram"
  refine ⟨result, off, run, added.sound, added.laminar, ?_, ?_, ?_⟩
  · rw [added.contained, known.ram, Set.union_eq_left]
    rintro address ⟨same, -⟩
    exact absurd same (by decide)
  · rw [added.named, known.unnamed _ (Or.inr rfl), Set.empty_union,
      Set.eq_empty_iff_forall_notMem]
    rintro address ⟨same, -⟩
    exact absurd same (by decide)
  · rw [added.named, known.unnamed _ (Or.inl rfl), Set.empty_union]
    have some_memory : 0 < GIG 1 := by decide
    ext address
    constructor
    · rintro ⟨-, ⟨first, last⟩, inside⟩
      rw [known.ram] at inside
      have low : address < GIG 1 := by omega
      exact ⟨⟨first, low⟩, (mem_under_iff shown low).mp inside⟩
    · rintro ⟨⟨first, low⟩, inside⟩
      refine ⟨rfl, ⟨first, by omega⟩, ?_⟩
      rw [known.ram]
      exact (mem_under_iff shown low).mpr inside

/-- The RAM below the VideoCore memory gets its name, and the VideoCore memory keeps its own. -/
theorem below1G_named {table : List AsinfoEntry} {under : Set Nat} (sound : SoundTable table)
    (laminar : Laminar table "ram") (isUnder : contained table "ram" = under)
    (unnamed : namedRange table "below1G" = ∅) (vcramSize : Nat) {boardRev : Nat}
    (shown : under ∩ Set.Iio (2 ^ 32) = detectedRam boardRev ∩ Set.Iio (2 ^ 32)) :
    ∃ result off, asAddContaining table BCM2711_DRAM_BASE (subPaddr (GIG 1 - vcramSize) 1) asAttrRam
        "below1G" "ram" = .ok (result, off) ∧
      namedRange result "vcram" = namedRange table "vcram" ∧
      (vcramSize < GIG 1 → namedRange result "below1G" = ramBelow vcramSize boardRev) := by
  have fits : subPaddr (GIG 1 - vcramSize) 1 < 2 ^ 64 := Word.sub_lt 64 _ _
  obtain ⟨result, off, run, added⟩ :=
    asAddContaining_added sound laminar BCM2711_DRAM_BASE fits "below1G"
  refine ⟨result, off, run, ?_, fun smaller => ?_⟩
  · rw [added.named, Set.union_eq_left]
    rintro address ⟨same, -⟩
    exact absurd same (by decide)
  · have stop : subPaddr (GIG 1 - vcramSize) 1 = GIG 1 - vcramSize - 1 :=
      subPaddr_of_le (by omega) (by simp only [GIG]; omega)
    rw [added.named, unnamed, Set.empty_union, stop, BCM2711_DRAM_BASE]
    ext address
    constructor
    · rintro ⟨-, ⟨-, last⟩, inside⟩
      rw [isUnder] at inside
      have low : address < GIG 1 := by omega
      have below : address < GIG 1 - vcramSize := by omega
      exact ⟨(mem_under_iff shown low).mp inside, below⟩
    · rintro ⟨inside, below⟩
      have bound : address < GIG 1 - vcramSize := below
      refine ⟨rfl, ⟨Nat.zero_le _, by omega⟩, ?_⟩
      rw [isUnder]
      exact (mem_under_iff shown (by omega)).mpr inside

/-- The calls of `bcm2711_init_raminfo`, which all return. -/
theorem bcm2711InitRaminfo_eq {vcramSize boardRev vcramStart vcramStop : Nat}
    {stub video added taken : RamState} {named both : List AsinfoEntry} {off moreOff : Option Nat}
    (start : subPaddr (GIG 1) vcramSize = vcramStart)
    (stop : subPaddr (addPaddr vcramStart vcramSize) 1 = vcramStop)
    (isExplicit : vcramStart ≠ nullPaddr)
    (avoidsStub : avoidRam boot state BCM2711_DRAM_BASE BCM2711_DRAM_STUB_SIZE = .ok stub)
    (avoidsVideo : avoidRam boot stub vcramStart vcramSize = .ok video)
    (adds : addBoardRam boot video (boardRamsize boardRev) = .ok added)
    (takes : takeRam added vcramStart vcramSize = .ok (taken, vcramStart))
    (names : asAddContaining taken.asinfo vcramStart vcramStop asAttrRam "vcram" "ram" =
      .ok (named, off))
    (more : asAddContaining named BCM2711_DRAM_BASE (subPaddr vcramStart 1) asAttrRam "below1G"
      "ram" = .ok (both, moreOff)) :
    bcm2711InitRaminfo boot state vcramSize boardRev =
      .ok { taken with asinfo := if boardRamsize boardRev > GIG 1 then both else named } := by
  have allocates : allocRam added vcramStart vcramSize 0 = .ok (taken, vcramStart) := by
    rw [allocRam, if_neg isExplicit, takes]
  rw [bcm2711InitRaminfo, start, stop]
  refine bind_eq_ok.mpr ⟨stub, avoidsStub, bind_eq_ok.mpr ⟨video, avoidsVideo,
    bind_eq_ok.mpr ⟨added, adds, bind_eq_ok.mpr ⟨_, allocates, bind_eq_ok.mpr ⟨_, names, ?_⟩⟩⟩⟩⟩
  by_cases large : boardRamsize boardRev > GIG 1
  · simp only [large, ↓reduceIte]
    exact bind_eq_ok.mpr ⟨_, more, rfl⟩
  · simp only [large, ↓reduceIte]
    rfl

/-- What `bcm2711_init_raminfo` leaves. -/
theorem bcm2711InitRaminfo_known (before : BeforeRam boot state) (boardRev : Nat) {vcramSize : Nat}
    (small : vcramSize ≤ GIG 1) :
    ∃ after, bcm2711InitRaminfo boot state vcramSize boardRev = .ok after ∧
      (∃ ram, after.ram = some ram ∧
        ram.HoldsFree ((detectedRam boardRev \ videoCore vcramSize) \ imageRange boot)) ∧
      namedRange after.asinfo "vcram" = videoCore vcramSize ∩ detectedRam boardRev ∧
      (GIG 1 < boardRamsize boardRev → vcramSize < GIG 1 →
        namedRange after.asinfo "below1G" = ramBelow vcramSize boardRev) ∧
      (¬ GIG 1 < boardRamsize boardRev → namedRange after.asinfo "below1G" = ∅) := by
  obtain ⟨ready, inited, known, noTable⟩ := before
  have start : subPaddr (GIG 1) vcramSize = GIG 1 - vcramSize := subPaddr_of_le small (by decide)
  have whole : GIG 1 - vcramSize + vcramSize = GIG 1 := Nat.sub_add_cancel small
  have stop : subPaddr (addPaddr (GIG 1 - vcramSize) vcramSize) 1 = GIG 1 - 1 := by
    rw [addPaddr_of_lt (by rw [whole]; decide), whole]
    decide
  have isExplicit : GIG 1 - vcramSize ≠ nullPaddr := by
    simp only [GIG, nullPaddr]
    omega
  obtain ⟨stub, avoidsStub, known, stubTable⟩ := avoidRam_known inited known
    (by decide : BCM2711_DRAM_BASE + BCM2711_DRAM_STUB_SIZE ≠ 0) (by decide)
  obtain ⟨video, avoidsVideo, known, videoTable⟩ := avoidRam_known (boot.ensureInit_known known)
    known (by rw [whole]; decide : GIG 1 - vcramSize + vcramSize ≠ 0) (by rw [whole]; decide)
  obtain ⟨added, under, adds, known, underRam, shown⟩ := addBoardRam_known boot known
    (videoTable.trans (stubTable.trans noTable)) boardRev
  obtain ⟨taken, takes, known, takenTable⟩ := takeRam_known known
    (by rw [whole]; decide : GIG 1 - vcramSize + vcramSize < 2 ^ 64) (by decide)
  rw [← takenTable] at underRam
  obtain ⟨named, off, names, sound, laminar, isUnder, unnamed, vcram⟩ :=
    vcram_named underRam vcramSize shown
  obtain ⟨ram, isRam, holds⟩ := known.ram
  rw [whole, sdiff_right_comm] at holds
  obtain ⟨both, moreOff, more, keeps, below⟩ :=
    below1G_named sound laminar isUnder unnamed vcramSize shown
  refine ⟨_, bcm2711InitRaminfo_eq start stop isExplicit avoidsStub avoidsVideo adds takes names
    more, ⟨ram, isRam, holds.holdsFree⟩, ?_, ?_, ?_⟩
  · by_cases large : boardRamsize boardRev > GIG 1
    · simp only [large, ↓reduceIte]
      exact keeps.trans vcram
    · simp only [large, ↓reduceIte]
      exact vcram
  · intro large
    simp only [large, ↓reduceIte]
    exact below
  · intro small
    simp only [small, ↓reduceIte]
    exact unnamed

/-- On a small board no entry tells the RAM below the VideoCore memory. -/
theorem small_not_memoryMapped (before : BeforeRam boot state) {boardRev vcramSize : Nat}
    (little : getMemorySize boardRev ≤ 1024) (part : vcramSize < GIG 1) :
    ¬ ∃ after, bcm2711InitRaminfo boot state vcramSize boardRev = .ok after ∧
      MemoryMapped boot vcramSize boardRev after := by
  rintro ⟨after, run, mapped⟩
  obtain ⟨other, again, _, _, _, without⟩ := bcm2711InitRaminfo_known before boardRev part.le
  rw [run] at again
  cases again
  have some_ram : (0 : Nat) ∈ ramBelow vcramSize boardRev := by
    have sizes := (boardRamsize_mem boardRev).1
    simp only [List.mem_cons, List.not_mem_nil, or_false, MEG, GIG] at sizes
    have left : 0 < GIG 1 - vcramSize := by omega
    exact ⟨⟨⟨le_refl 0, by omega⟩, fun hole => absurd hole.1 (by decide)⟩, left⟩
  have named := mapped.below1G ⟨0, some_ram⟩
  rw [without fun large => by have := (boardRamsize_mem boardRev).2.mp large; omega] at named
  rw [← named] at some_ram
  exact some_ram

/-- **The memory of the board is shown as it is just when the board has more than 1 GiB**, or
the VideoCore has all of the first. -/
theorem memoryMapped_iff (before : BeforeRam boot state) (boardRev : Nat) {vcramSize : Nat}
    (small : vcramSize ≤ GIG 1) :
    (∃ after, bcm2711InitRaminfo boot state vcramSize boardRev = .ok after ∧
        MemoryMapped boot vcramSize boardRev after) ↔
      1024 < getMemorySize boardRev ∨ vcramSize = GIG 1 := by
  constructor
  · intro mapped
    by_contra neither
    obtain ⟨little, part⟩ := not_or.mp neither
    exact small_not_memoryMapped before (Nat.le_of_not_lt little) (by omega) mapped
  · intro condition
    obtain ⟨after, run, ram, vcram, above, _⟩ := bcm2711InitRaminfo_known before boardRev small
    refine ⟨after, run, ram, vcram, fun ⟨address, _, below⟩ => ?_⟩
    have bound : address < GIG 1 - vcramSize := below
    have large := condition.resolve_right (by omega)
    exact above ((boardRamsize_mem boardRev).2.mpr large) (by omega)

end Board

/-- Startup begins so. -/
theorem beforeRam_initial (boot : Boot) : BeforeRam boot RamState.initial := by
  obtain ⟨ready, avoid, taken, returns, _, isRam, isAvoid, avoids, short, noTable, early⟩ :=
    wsInit_returns boot
  refine ⟨ready, returns, ⟨⟨_, isRam, holdsIn_empty rfl rfl⟩, ⟨avoid, _, isAvoid, avoids, ?_⟩,
    early, Set.empty_subset _⟩, noTable⟩
  have one : ready.pending ≤ 1 := by
    rw [RamState.pending]
    split <;> omega
  simp only [sizeofAvoidEntry, maxAvoidListSize] at short ⊢
  omega

theorem memoryMapped_four_gigabytes :
    ∃ after, bcm2711InitRaminfo smallBoot RamState.initial (MEG 76) 0xc03111 = .ok after ∧
      MemoryMapped smallBoot (MEG 76) 0xc03111 after :=
  (memoryMapped_iff (beforeRam_initial smallBoot) 0xc03111 (by decide)).mpr (Or.inl (by decide))

/-- A board with 1 GiB. -/
theorem one_gigabyte_not_mapped :
    ¬ ∃ after, bcm2711InitRaminfo smallBoot RamState.initial (MEG 76) 0xa03111 = .ok after ∧
      MemoryMapped smallBoot (MEG 76) 0xa03111 after :=
  small_not_memoryMapped (beforeRam_initial smallBoot) (by decide) (by decide)

end Bcm2711.Startup
