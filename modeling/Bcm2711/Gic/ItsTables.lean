import Bcm2711.Gic.LpiTables
import Bcm2711.Lib.Fallible

/-! # Tables of the interrupt translation service

`gic_v3_its_initialize` allocates the device table and the collection table, writes each to the
`GITS_BASER` register that reported it, and flushes it from the cache.  The address passed to the
flush is the value of the register, with the attributes and the valid bit in it.
-/

namespace Bcm2711.Gic

open Fallible

/-- What the function reads of an ITS, the parameters set before, and what `calloc_ram` returns. -/
structure Its where
  gitsPaddrBase : BitVec 64
  typer : BitVec 64
  /-- `GITS_BASER<n>`, and the register below the first at -1. -/
  baser : Int → BitVec 64
  /-- What such a register holds when a value is written to it. -/
  accepts : Int → BitVec 64 → BitVec 64
  numCpu : Nat
  devicePageSize : Nat
  deviceParams : GicTblParams
  collectionPageSize : Nat
  collectionParams : GicTblParams
  deviceRam : BitVec 64
  collectionRam : BitVec 64
  cmdQRam : BitVec 64
  /-- `shdr->paddr_bias`. -/
  paddrBias : BitVec 32

/-- `MAKE_1TO1_PTR`. -/
def Its.make1to1Ptr (its : Its) (paddr : BitVec 64) : BitVec 64 :=
  paddr + its.paddrBias.setWidth 64

/-- The assertions of the initialisation. -/
inductive ItsAssertion where
  | base | devidBits | twice | pages | address | pageSize | size | hardware | collections
deriving DecidableEq, Repr

/-- The type of table that a `GITS_BASER` register reports. -/
def tableTypeOf (baser : BitVec 64) : Nat := (baser >>> 56 &&& 0x7).toNat

/-- The entry size that a `GITS_BASER` register reports. -/
def entrySizeOf (baser : BitVec 64) : Nat := (baser >>> 48 &&& 0x1f).toNat + 1

/-- The size of a page that a `GITS_BASER` register is programmed for. -/
def pageSizeOf (baser : BitVec 64) : Nat := 0x1000 <<< ((baser >>> 8 &&& 0x3).toNat * 2)

/-- The number of pages that a `GITS_BASER` register is programmed for. -/
def pageCountOf (baser : BitVec 64) : Nat := (baser &&& 0xff).toNat + 1

/-- The index and the entry size of a table, or -1 and 0. -/
structure FoundTable where
  index : Int
  entrySize : Nat

/-- What the loop finds at a register. -/
def Its.findAt (its : Its) (i : Nat) (dt ct : FoundTable) :
    Except ItsAssertion (FoundTable × FoundTable) :=
  let baser := its.baser i
  if tableTypeOf baser = 1 then
    if ¬ dt.entrySize = 0 then .error .twice else .ok (⟨i, entrySizeOf baser⟩, ct)
  else if tableTypeOf baser = 4 then
    if ¬ ct.entrySize = 0 then .error .twice else .ok (dt, ⟨i, entrySizeOf baser⟩)
  else .ok (dt, ct)

/-- The loop over the `GITS_BASER` registers from `i` on. -/
def Its.findTables (its : Its) :
    (rounds i : Nat) → FoundTable → FoundTable → Except ItsAssertion (FoundTable × FoundTable)
  | 0, _, dt, ct => .ok (dt, ct)
  | rounds + 1, i, dt, ct =>
      (its.findAt i dt ct).bind fun (dt, ct) =>
        if dt.index > 0 ∧ ct.index > 0 then .ok (dt, ct) else its.findTables rounds (i + 1) dt ct

/-- The bits for a size of pages. -/
def pageSizeBits (pageSize : Nat) : Option (BitVec 64) :=
  if pageSize = 4096 then some 0
  else if pageSize = 16384 then some 1
  else if pageSize = 65536 then some 2
  else none

/-- The shareability bits of a register can be set. -/
def Its.shareSettable (its : Its) (index : Int) : Bool :=
  let flipped := ~~~(its.baser index >>> 10 &&& 0x3) &&& 0x3
  its.accepts index (flipped <<< 10) >>> 10 &&& 0x3 = flipped

/-- What is done for a table: the memory allocated for it, the range flushed, and the register and
the value written to it. -/
structure TableSetup where
  index : Int
  entries : Nat
  entrySize : Nat
  pageSize : Nat
  paddr : BitVec 64
  bytes : Nat
  flushStart : BitVec 64
  flushLen : Nat
  written : BitVec 64

/-- The attributes, the flat layout and the valid bit in a table's word. -/
def withAttributes (table : BitVec 64) (params : GicTblParams) : BitVec 64 :=
  (table ||| params.shareability.setWidth 64 <<< 10 ||| params.inner.setWidth 64 <<< 59 |||
    params.outer.setWidth 64 <<< 53) &&& ~~~(1#64 <<< 62) ||| 1#64 <<< 63

/-- The statements for the device table, and again for the collection table. -/
def Its.setUpTable (its : Its) (found : FoundTable) (entries pageSize : Nat)
    (params : GicTblParams) (ram : BitVec 64) : Except ItsAssertion TableSetup :=
  let numPages := max 1 (entries * found.entrySize % 2 ^ 32 / pageSize)
  if ¬ numPages ≤ 0x100 then .error .pages
  else if ram = NULL_PADDR then .error .address
  else if ram &&& 0xFFFFFFFFF000 ≠ ram then .error .address
  else
    match pageSizeBits pageSize with
    | none => .error .pageSize
    | some bits =>
        let table := ram ||| bits <<< 8 ||| (BitVec.ofNat 64 (numPages - 1) &&& 0xff)
        if ¬ pageSizeOf table * pageCountOf table = numPages * pageSize then .error .size
        else
          let attributes := if its.shareSettable found.index then params else ⟨0, 1, 0⟩
          let table := withAttributes table attributes
          if ¬ its.accepts found.index table >>> 8 &&& 0x3 = bits then .error .pageSize
          else .ok
            { index := found.index, entries := entries, entrySize := found.entrySize
              pageSize := pageSize, paddr := ram, bytes := numPages * pageSize
              flushStart := its.make1to1Ptr table, flushLen := numPages * pageSize
              written := table }

/-- The tables that are set up. -/
structure ItsTables where
  device : TableSetup
  collection : Option TableSetup

/-- The number of device IDs. -/
def Its.devidBits (its : Its) : Nat := (its.typer >>> 13 &&& 0x1f).toNat + 1

/-- The number of collections in the hardware. -/
def Its.numHwCollections (its : Its) : Nat := (its.typer >>> 24 &&& 0xff).toNat

/-- The number of collections in memory. -/
def Its.numMemCollections (its : Its) : Nat :=
  let cidBits := if its.typer >>> 36 &&& 1 = 1 then (its.typer >>> 32 &&& 0xf).toNat + 1 else 16
  min (2 ^ cidBits) its.numCpu

/-- The collection table, if there is one in memory. -/
def Its.setUpCollections (its : Its) (ct : FoundTable) : Except ItsAssertion (Option TableSetup) :=
  if ct.index ≥ 0 then
    if ¬ its.numHwCollections = 0 then .error .hardware
    else
      (its.setUpTable ct its.numMemCollections its.collectionPageSize its.collectionParams
        its.collectionRam).bind fun collection =>
          if ¬ its.numMemCollections > 0 then .error .collections else .ok (some collection)
  else if ¬ its.numHwCollections > 0 then .error .collections
  else .ok none

/-- The tables in `gic_v3_its_initialize`. -/
def Its.gicV3ItsInitialize (its : Its) : Except ItsAssertion ItsTables :=
  if its.gitsPaddrBase = 0 then .error .base
  else if ¬ its.devidBits < 32 then .error .devidBits
  else
    (its.findTables 8 0 ⟨-1, 0⟩ ⟨-1, 0⟩).bind fun (dt, ct) =>
      (its.setUpTable dt (2 ^ its.devidBits) its.devicePageSize its.deviceParams
        its.deviceRam).bind fun device =>
          (its.setUpCollections ct).bind fun collection =>
            if its.cmdQRam = NULL_PADDR ∨ its.cmdQRam &&& 0xFFFFFFFFF0000 ≠ its.cmdQRam then
              .error .address
            else .ok ⟨device, collection⟩

/-! ## Sizes of tables -/

/-- The tables with the types that their registers report. -/
def ItsTables.all (tables : ItsTables) : List (Nat × TableSetup) :=
  (1, tables.device) :: tables.collection.toList.map fun collection => (4, collection)

/-- A register reports the table. -/
def Reported (its : Its) (type : Nat) (index : Int) (entrySize : Nat) : Prop :=
  ∃ i : Nat, i < 8 ∧ index = i ∧ tableTypeOf (its.baser i) = type ∧
    entrySize = entrySizeOf (its.baser i)

/-- The table has room for its entries, the fields encode its size, the register that reported it
is written, and it is flushed. -/
structure WellSized (its : Its) (type : Nat) (table : TableSetup) : Prop where
  room : table.entries * table.entrySize ≤ table.bytes
  encodes : pageSizeOf table.written * pageCountOf table.written = table.bytes
  reported : Reported its type table.index table.entrySize
  flushed : table.flushStart = its.make1to1Ptr table.paddr ∧ table.flushLen = table.bytes

/-- The entries fit a page, or fill pages without a rest and without wrapping. -/
def TableSetup.FillsPages (table : TableSetup) : Prop :=
  table.entries * table.entrySize ≤ table.pageSize ∨
    table.entries * table.entrySize < 2 ^ 32 ∧ table.pageSize ∣ table.entries * table.entrySize

/-- What is right about a table that is set up, and what is not. -/
structure AsSetUp (its : Its) (type : Nat) (table : TableSetup) : Prop where
  room : table.entries * table.entrySize ≤ table.bytes ↔ table.FillsPages
  encodes : pageSizeOf table.written * pageCountOf table.written = table.bytes
  reported : Reported its type table.index table.entrySize ↔ table.index ≠ -1
  flushLen : table.flushLen = table.bytes
  flushStart : table.flushStart ≠ its.make1to1Ptr table.paddr

variable {its : Its} {found : FoundTable} {entries pageSize : Nat} {params : GicTblParams}
  {ram : BitVec 64} {table : TableSetup} {tables : ItsTables}

theorem room_iff (product page : Nat) :
    product ≤ max 1 (product % 2 ^ 32 / page) * page ↔
      product ≤ page ∨ product < 2 ^ 32 ∧ page ∣ product := by
  have below := Nat.div_mul_le_self (product % 2 ^ 32) page
  constructor
  · intro fits
    by_cases one : product ≤ page
    · exact .inl one
    · right
      rcases Nat.le_total (product % 2 ^ 32 / page) 1 with few | many
      · rw [max_eq_left few, Nat.one_mul] at fits
        exact absurd fits one
      · rw [max_eq_right many] at fits
        have whole : product % 2 ^ 32 = product :=
          Nat.le_antisymm (Nat.mod_le _ _) (fits.trans below)
        rw [whole] at fits below
        refine ⟨?_, Dvd.intro_left _ (Nat.le_antisymm below fits)⟩
        rw [← whole]
        exact Nat.mod_lt _ (Nat.two_pow_pos 32)
  · rintro (one | ⟨small, divides⟩)
    · exact one.trans (Nat.le_mul_of_pos_left page (le_max_left 1 _))
    · rw [Nat.mod_eq_of_lt small]
      calc
        product = product / page * page := (Nat.div_mul_cancel divides).symm
        _ ≤ _ := Nat.mul_le_mul_right page (le_max_right 1 _)

/-! ## The word of a table -/

/-- The fields are in the low ten bits. -/
theorem fields_congr {first second : BitVec 64}
    (low : first.toNat % 2 ^ 10 = second.toNat % 2 ^ 10) :
    pageSizeOf first = pageSizeOf second ∧ pageCountOf first = pageCountOf second := by
  have size : ∀ word : BitVec 64, (word >>> 8 &&& 0x3).toNat = word.toNat / 2 ^ 8 % 2 ^ 2 := by
    intro word
    rw [BitVec.toNat_and, BitVec.toNat_ushiftRight, Nat.shiftRight_eq_div_pow]
    exact Nat.and_two_pow_sub_one_eq_mod _ 2
  have count : ∀ word : BitVec 64, (word &&& 0xff).toNat = word.toNat % 2 ^ 8 := by
    intro word
    rw [BitVec.toNat_and]
    exact Nat.and_two_pow_sub_one_eq_mod _ 8
  have sameSize : (first >>> 8 &&& 0x3).toNat = (second >>> 8 &&& 0x3).toNat := by
    rw [size, size]
    omega
  have sameCount : (first &&& 0xff).toNat = (second &&& 0xff).toNat := by
    rw [count, count]
    omega
  exact ⟨by rw [pageSizeOf, pageSizeOf, sameSize], by rw [pageCountOf, pageCountOf, sameCount]⟩

theorem shifted_low (value : BitVec 64) {amount : Nat} (above : 10 ≤ amount) :
    (value <<< amount).toNat % 2 ^ 10 = 0 := by
  rw [BitVec.toNat_shiftLeft, Nat.mod_mod_of_dvd _ (pow_dvd_pow 2 (by decide)), Nat.shiftLeft_eq]
  exact Nat.mod_eq_zero_of_dvd (Dvd.dvd.mul_left (pow_dvd_pow 2 above) _)

/-- The attributes leave the fields. -/
theorem withAttributes_low (table : BitVec 64) (params : GicTblParams) :
    (withAttributes table params).toNat % 2 ^ 10 = table.toNat % 2 ^ 10 := by
  have kept : (~~~(1#64 <<< 62)).toNat % 2 ^ 10 = 2 ^ 10 - 1 := by decide
  have small := Nat.mod_lt table.toNat (Nat.two_pow_pos 10)
  unfold withAttributes
  simp only [BitVec.toNat_or, BitVec.toNat_and, Nat.or_mod_two_pow, Nat.and_mod_two_pow,
    shifted_low _ (show 10 ≤ 10 by decide), shifted_low _ (show 10 ≤ 59 by decide),
    shifted_low _ (show 10 ≤ 53 by decide), shifted_low _ (show 10 ≤ 63 by decide), kept,
    Nat.or_zero]
  rw [Nat.and_two_pow_sub_one_eq_mod, Nat.mod_mod]

/-- The valid bit is set in the word, and not in an address. -/
theorem withAttributes_ne (table : BitVec 64) (params : GicTblParams)
    (aligned : ram &&& 0xFFFFFFFFF000 = ram) : withAttributes table params ≠ ram := by
  have valid : (withAttributes table params).getLsbD 63 = true := by
    rw [withAttributes, BitVec.getLsbD_or]
    exact Bool.or_eq_true_iff.mpr (.inr (by decide))
  have clear : ram.getLsbD 63 = false := by
    rw [← aligned, BitVec.getLsbD_and]
    exact Bool.and_eq_false_iff.mpr (.inr (by decide))
  intro same
  rw [same, clear] at valid
  cases valid

/-! ## What is set up -/

/-- A table is found by its type, or not at all. -/
def Found (its : Its) (type : Nat) (found : FoundTable) : Prop :=
  found.index = -1 ∧ found.entrySize = 0 ∨ Reported its type found.index found.entrySize

theorem Found.reported_iff {type : Nat} (isFound : Found its type found) :
    Reported its type found.index found.entrySize ↔ found.index ≠ -1 := by
  constructor
  · rintro ⟨i, _, index, _⟩
    omega
  · intro index
    exact isFound.resolve_left fun none => index none.1

theorem asSetUp {type : Nat} (isFound : Found its type found)
    (done : its.setUpTable found entries pageSize params ram = .ok table) :
    AsSetUp its type table := by
  unfold Its.setUpTable at done
  extract_lets numPages at done
  split_ifs at done with _ _ aligned
  cases bits : pageSizeBits pageSize with
  | none =>
      rw [bits] at done
      cases done
  | some value =>
      rw [bits] at done
      dsimp only at done
      split_ifs at done with size
      cases done
      refine ⟨room_iff _ _, ?_, isFound.reported_iff, rfl, ?_⟩
      · obtain ⟨sizes, counts⟩ := fields_congr (withAttributes_low _ _)
        exact (congrArg₂ (· * ·) sizes counts).trans size
      · intro same
        exact withAttributes_ne _ _ (not_not.mp aligned) (add_right_cancel same)

theorem found_of_findAt {i : Nat} {dt ct dtFound ctFound : FoundTable} (inside : i < 8)
    (dtBefore : Found its 1 dt) (ctBefore : Found its 4 ct)
    (done : its.findAt i dt ct = .ok (dtFound, ctFound)) :
    Found its 1 dtFound ∧ Found its 4 ctFound := by
  unfold Its.findAt at done
  dsimp only at done
  split_ifs at done with device _ collection
  · cases done
    exact ⟨.inr ⟨i, inside, rfl, device, rfl⟩, ctBefore⟩
  · cases done
    exact ⟨dtBefore, .inr ⟨i, inside, rfl, collection, rfl⟩⟩
  · cases done
    exact ⟨dtBefore, ctBefore⟩

/-- The loop finds the tables by their types. -/
theorem found_of_findTables {rounds i : Nat} {dt ct dtFound ctFound : FoundTable}
    (inside : i + rounds ≤ 8) (dtBefore : Found its 1 dt) (ctBefore : Found its 4 ct)
    (done : its.findTables rounds i dt ct = .ok (dtFound, ctFound)) :
    Found its 1 dtFound ∧ Found its 4 ctFound := by
  induction rounds generalizing i dt ct with
  | zero =>
      cases done
      exact ⟨dtBefore, ctBefore⟩
  | succ rounds ih =>
      obtain ⟨⟨dtNext, ctNext⟩, step, rest⟩ := bind_eq_ok.mp done
      obtain ⟨dtStep, ctStep⟩ := found_of_findAt (by omega) dtBefore ctBefore step
      dsimp only at rest
      split_ifs at rest
      · cases rest
        exact ⟨dtStep, ctStep⟩
      · exact ih (by omega) dtStep ctStep rest

theorem asSetUp_collection {ct : FoundTable} (isFound : Found its 4 ct)
    (done : its.setUpCollections ct = .ok (some table)) : AsSetUp its 4 table := by
  unfold Its.setUpCollections at done
  split at done
  · split at done
    · cases done
    · obtain ⟨collection, setUp, counted⟩ := bind_eq_ok.mp done
      split at counted
      · cases counted
      · cases counted
        exact asSetUp isFound setUp
  · split at done <;> cases done

/-- Every table is set up as its register reports it, where there is one. -/
theorem all_asSetUp (done : its.gicV3ItsInitialize = .ok tables) :
    ∀ type table, (type, table) ∈ tables.all → AsSetUp its type table := by
  unfold Its.gicV3ItsInitialize at done
  split at done
  · cases done
  split at done
  · cases done
  obtain ⟨⟨dt, ct⟩, searched, afterSearch⟩ := bind_eq_ok.mp done
  obtain ⟨dtFound, ctFound⟩ :=
    found_of_findTables (by decide) (.inl ⟨rfl, rfl⟩) (.inl ⟨rfl, rfl⟩) searched
  obtain ⟨device, deviceDone, afterDevice⟩ := bind_eq_ok.mp afterSearch
  obtain ⟨collection, collectionDone, afterCollection⟩ := bind_eq_ok.mp afterDevice
  split at afterCollection
  · cases afterCollection
  cases afterCollection
  intro type table member
  rcases List.mem_cons.mp member with isDevice | isCollection
  · cases isDevice
    exact asSetUp dtFound deviceDone
  · obtain ⟨one, isOne, same⟩ := List.mem_map.mp isCollection
    cases same
    have isCollected : collection = some table := Option.mem_toList.mp isOne
    exact asSetUp_collection ctFound (collectionDone.trans (congrArg Except.ok isCollected))

/-- No initialisation flushes its tables; all that is said of a table otherwise holds exactly when
its entries fill its pages and a register reported it. -/
theorem tables_missized (done : its.gicV3ItsInitialize = .ok tables) :
    (¬ ∀ type table, (type, table) ∈ tables.all → WellSized its type table) ∧
      ∀ type table, (type, table) ∈ tables.all → AsSetUp its type table := by
  refine ⟨?_, all_asSetUp done⟩
  intro wellSized
  have device := all_asSetUp done 1 tables.device List.mem_cons_self
  exact device.flushStart (wellSized 1 tables.device List.mem_cons_self).flushed.1

/-- An ITS with a table of devices in its first register and one of collections in its second, and
with so many bits of device IDs and bytes in an entry. -/
def smallIts (devidBits entrySize devicePageSize : Nat) : Its where
  gitsPaddrBase := 0x8080000
  typer := BitVec.ofNat 64 ((devidBits - 1) * 2 ^ 13)
  baser := fun index =>
    if index = 0 then BitVec.ofNat 64 (1 * 2 ^ 56 + (entrySize - 1) * 2 ^ 48)
    else if index = 1 then BitVec.ofNat 64 (4 * 2 ^ 56 + 7 * 2 ^ 48)
    else 0
  accepts := fun _ value => value
  numCpu := 4
  devicePageSize := devicePageSize
  deviceParams := ⟨0, 1, 1⟩
  collectionPageSize := 4096
  collectionParams := ⟨0, 1, 1⟩
  deviceRam := 0x80000000
  collectionRam := 0x80040000
  cmdQRam := 0x80050000
  paddrBias := 0

theorem smallIts_missized : ∃ tables, (smallIts 12 8 4096).gicV3ItsInitialize = .ok tables ∧
    tables.device.bytes = 2 ^ 12 * 8 ∧
    (¬ ∀ type table, (type, table) ∈ tables.all → WellSized (smallIts 12 8 4096) type table) ∧
    ∀ type table, (type, table) ∈ tables.all → AsSetUp (smallIts 12 8 4096) type table :=
  ⟨_, rfl, rfl, tables_missized rfl⟩

/-- A device table that gets a page for one and a half, and is flushed elsewhere. -/
theorem device_table_short : ∃ tables, (smallIts 11 12 16384).gicV3ItsInitialize = .ok tables ∧
    tables.device.bytes = 16384 ∧ tables.device.entries * tables.device.entrySize = 24576 ∧
    tables.device.paddr = 0x80000000 ∧ tables.device.flushStart = 0x8820000080000100 ∧
    ¬ ∀ type table, (type, table) ∈ tables.all → WellSized (smallIts 11 12 16384) type table := by
  refine ⟨_, rfl, rfl, rfl, rfl, rfl, ?_⟩
  intro wellSized
  have room := (wellSized 1 _ List.mem_cons_self).room
  exact absurd room (by decide)

end Bcm2711.Gic
