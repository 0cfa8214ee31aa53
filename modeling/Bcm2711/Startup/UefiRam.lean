import Bcm2711.Lib.Links
import Bcm2711.Startup.RamInfo

/-! # Memory from the UEFI memory map

`do_raminfo` goes through the memory map once.  It joins usable ranges that follow each other
into one pending range, adds that as RAM when the next usable descriptor starts elsewhere, and
links the ranges that must be avoided through the `VirtualStart` fields of their descriptors.
Behind the last descriptor it adds what is pending, and then avoids the linked ranges.

Addresses have 64 bits, so that the checks whether a `paddr_t` holds them always succeed.
-/

namespace Bcm2711.Startup

open Links

/-! ## The memory map -/

/-- `EFI_MEMORY_TYPE`, and the values it does not name. -/
inductive EfiMemoryType where
  | reservedMemoryType
  | loaderCode
  | loaderData
  | bootServicesCode
  | bootServicesData
  | runtimeServicesCode
  | runtimeServicesData
  | conventionalMemory
  | unusableMemory
  | acpiReclaimMemory
  | acpiMemoryNvs
  | memoryMappedIo
  | memoryMappedIoPortSpace
  | palCode
  | other (value : Nat)
deriving DecidableEq, Repr

/-- The fields of an `EFI_MEMORY_DESCRIPTOR` that are read. -/
structure EfiMemoryDescriptor where
  type : EfiMemoryType
  physicalStart : Nat
  numberOfPages : Nat
deriving DecidableEq, Repr

/-- `NumberOfPages * 0x1000u`. -/
def EfiMemoryDescriptor.nbytes (desc : EfiMemoryDescriptor) : Nat :=
  desc.numberOfPages * 0x1000 % 2 ^ 64

/-- The variables of the loop and the calls it has made; descriptors are known by their place
in the map. -/
structure UefiImport where
  startingPaddr : Nat
  endingPaddr : Nat
  avoidList : Queue Nat
  calls : List RamInfoCall

/-- The range between the two addresses is added. -/
def UefiImport.addPending (state : UefiImport) : UefiImport :=
  { state with
    calls := state.calls ++
      [.addRam state.startingPaddr (subPaddr state.endingPaddr state.startingPaddr)] }

/-- The case of `EfiConventionalMemory`, into which the avoided types fall through. -/
def UefiImport.extend (state : UefiImport) (desc : EfiMemoryDescriptor) : UefiImport :=
  let state :=
    if desc.physicalStart ≠ state.endingPaddr then
      let state := if state.startingPaddr ≠ nullPaddr then state.addPending else state
      { state with startingPaddr := desc.physicalStart, endingPaddr := desc.physicalStart }
    else state
  { state with endingPaddr := addPaddr state.endingPaddr desc.nbytes }

/-- One round of the loop over the map. -/
def importDescriptor (state : UefiImport) : EfiMemoryDescriptor × Nat → Result UefiImport
  | (desc, place) =>
      match desc.type with
      | .reservedMemoryType | .unusableMemory | .memoryMappedIo | .memoryMappedIoPortSpace =>
          .ok state
      | .acpiReclaimMemory | .acpiMemoryNvs | .palCode | .loaderCode | .loaderData
      | .bootServicesCode | .bootServicesData | .runtimeServicesCode | .runtimeServicesData =>
          .ok ({ state with avoidList := state.avoidList.push place }.extend desc)
      | .conventionalMemory => .ok (state.extend desc)
      | .other value => .error (.crash s!"Unexpected memory type: {value}\n")

/-- What is called for a descriptor of the list of avoided ones. -/
def avoidCall (desc : EfiMemoryDescriptor) : List RamInfoCall :=
  match desc.type with
  | .acpiReclaimMemory | .acpiMemoryNvs | .palCode | .runtimeServicesCode
  | .runtimeServicesData => [.allocRam desc.physicalStart desc.nbytes 0]
  | .loaderCode | .loaderData | .bootServicesCode | .bootServicesData =>
      [.avoidRam desc.physicalStart desc.nbytes]
  | _ => []

/-- `do_raminfo` behind `GetMemoryMap`: the calls it makes for the map. `virtualStart` is what
the firmware left in the fields of that name. -/
def doRaminfo (virtualStart : Nat → Option Nat) (map : List EfiMemoryDescriptor) :
    Result (List RamInfoCall) := do
  let state ← map.zipIdx.foldlM importDescriptor
    ⟨nullPaddr, nullPaddr, ⟨none, virtualStart, none⟩, []⟩
  let state := if state.startingPaddr ≠ state.endingPaddr then state.addPending else state
  match walk state.avoidList.next (map.length + 1) state.avoidList.head with
  | none => .error .stuck
  | some places =>
      .ok (state.calls ++ places.flatMap fun place => (map[place]?.map avoidCall).getD [])

/-! ## What is to be done -/

/-- Memory that startup code may use now or later. -/
def EfiMemoryType.Usable : EfiMemoryType → Prop
  | .reservedMemoryType | .unusableMemory | .memoryMappedIo | .memoryMappedIoPortSpace
  | .other _ => False
  | _ => True

/-- Memory of the firmware that is never given back. -/
def EfiMemoryType.Kept : EfiMemoryType → Prop
  | .acpiReclaimMemory | .acpiMemoryNvs | .palCode | .runtimeServicesCode
  | .runtimeServicesData => True
  | _ => False

/-- Memory of the loader and the firmware that is free behind startup. -/
def EfiMemoryType.Released : EfiMemoryType → Prop
  | .loaderCode | .loaderData | .bootServicesCode | .bootServicesData => True
  | _ => False

/-- A type of the specification. -/
def EfiMemoryType.Known : EfiMemoryType → Prop
  | .other _ => False
  | _ => True

/-- The addresses of a descriptor. -/
def EfiMemoryDescriptor.range (desc : EfiMemoryDescriptor) : Set Nat :=
  Set.Ico desc.physicalStart (desc.physicalStart + desc.numberOfPages * 0x1000)

/-- Descriptors begin at pages and end at an address. -/
structure EfiMemoryDescriptor.Valid (desc : EfiMemoryDescriptor) : Prop where
  known : desc.type.Known
  aligned : 0x1000 ∣ desc.physicalStart
  inMemory : desc.physicalStart + desc.numberOfPages * 0x1000 < 2 ^ 64

/-- Some call adds the address as RAM. -/
def Adds (calls : List RamInfoCall) (address : Nat) : Prop :=
  ∃ start size, .addRam start size ∈ calls ∧ address ∈ Set.Ico start (start + size)

/-! ## The loop -/

/-- The type is linked into the list of avoided ones. -/
def EfiMemoryType.avoided (type : EfiMemoryType) : Bool :=
  match type with
  | .acpiReclaimMemory | .acpiMemoryNvs | .palCode | .loaderCode | .loaderData
  | .bootServicesCode | .bootServicesData | .runtimeServicesCode | .runtimeServicesData => true
  | _ => false

/-- The places of the avoided descriptors. -/
def avoidedPlaces (descs : List (EfiMemoryDescriptor × Nat)) : List Nat :=
  (descs.filter fun entry => entry.1.type.avoided).map Prod.snd

/-- The pending range: none yet, or one between two pages. -/
def UefiImport.Pending (state : UefiImport) : Prop :=
  state.startingPaddr = nullPaddr ∧ state.endingPaddr = nullPaddr ∨
    state.startingPaddr ≤ state.endingPaddr ∧ state.endingPaddr < 2 ^ 64 ∧
      0x1000 ∣ state.startingPaddr ∧ 0x1000 ∣ state.endingPaddr

/-- What was added and what is pending are the usable ranges of the descriptors passed. -/
structure Imported (passed : List EfiMemoryDescriptor) (state : UefiImport) : Prop where
  pending : state.Pending
  onlyAdds : ∀ call ∈ state.calls, ∃ start size, call = .addRam start size
  covers : ∀ address, Adds state.calls address ∨
      address ∈ Set.Ico state.startingPaddr state.endingPaddr ↔
    ∃ desc ∈ passed, desc.type.Usable ∧ address ∈ desc.range
  avoids : state.avoidList.Holds (avoidedPlaces passed.zipIdx)

section Loop

variable {state : UefiImport} {desc : EfiMemoryDescriptor} {passed : List EfiMemoryDescriptor}

theorem EfiMemoryDescriptor.Valid.nbytes (valid : desc.Valid) :
    desc.nbytes = desc.numberOfPages * 0x1000 := by
  have inMemory := valid.inMemory
  exact Nat.mod_eq_of_lt (by omega)

theorem adds_append {front back : List RamInfoCall} {address : Nat} :
    Adds (front ++ back) address ↔ Adds front address ∨ Adds back address := by
  constructor
  · rintro ⟨start, size, member, inside⟩
    rcases List.mem_append.mp member with early | late
    · exact Or.inl ⟨start, size, early, inside⟩
    · exact Or.inr ⟨start, size, late, inside⟩
  · rintro (⟨start, size, member, inside⟩ | ⟨start, size, member, inside⟩)
    · exact ⟨start, size, List.mem_append_left _ member, inside⟩
    · exact ⟨start, size, List.mem_append_right _ member, inside⟩

theorem adds_singleton {start size address : Nat} :
    Adds [.addRam start size] address ↔ address ∈ Set.Ico start (start + size) := by
  constructor
  · rintro ⟨_, _, member, inside⟩
    cases List.mem_singleton.mp member
    exact inside
  · exact fun inside => ⟨start, size, List.mem_singleton.mpr rfl, inside⟩

/-- Adding the pending range as RAM covers what it covered. -/
theorem addPending_adds (ordered : state.startingPaddr ≤ state.endingPaddr)
    (inMemory : state.endingPaddr < 2 ^ 64) (address : Nat) :
    Adds state.addPending.calls address ↔
      Adds state.calls address ∨ address ∈ Set.Ico state.startingPaddr state.endingPaddr := by
  have size : state.startingPaddr + subPaddr state.endingPaddr state.startingPaddr =
      state.endingPaddr := by
    rw [subPaddr_of_le ordered inMemory, Nat.add_sub_cancel' ordered]
  rw [UefiImport.addPending, adds_append, adds_singleton, size]

theorem addPending_onlyAdds
    (onlyAdds : ∀ call ∈ state.calls, ∃ start size, call = .addRam start size) :
    ∀ call ∈ state.addPending.calls, ∃ start size, call = .addRam start size := by
  intro call member
  rcases List.mem_append.mp member with old | last
  · exact onlyAdds call old
  · exact ⟨_, _, List.mem_singleton.mp last⟩

/-- A usable descriptor extends the pending range, or begins another one. -/
theorem extend_spec (pending : state.Pending)
    (onlyAdds : ∀ call ∈ state.calls, ∃ start size, call = .addRam start size)
    (valid : desc.Valid) :
    (state.extend desc).Pending ∧
      (∀ call ∈ (state.extend desc).calls, ∃ start size, call = .addRam start size) ∧
      (state.extend desc).avoidList = state.avoidList ∧
      ∀ address, Adds (state.extend desc).calls address ∨
          address ∈ Set.Ico (state.extend desc).startingPaddr (state.extend desc).endingPaddr ↔
        (Adds state.calls address ∨
          address ∈ Set.Ico state.startingPaddr state.endingPaddr) ∨ address ∈ desc.range := by
  have aligned := valid.aligned
  have inMemory := valid.inMemory
  have stop : addPaddr desc.physicalStart desc.nbytes =
      desc.physicalStart + desc.numberOfPages * 0x1000 := by
    rw [valid.nbytes, addPaddr_of_lt inMemory]
  have isNull : nullPaddr = 2 ^ 64 - 1 := rfl
  by_cases joins : desc.physicalStart = state.endingPaddr
  · rcases pending with ⟨_, isEnd⟩ | ⟨ordered, small, alignedStart, alignedEnd⟩
    · omega
    · have same : state.extend desc =
          { state with endingPaddr := desc.physicalStart + desc.numberOfPages * 0x1000 } := by
        unfold UefiImport.extend
        dsimp only
        rw [if_neg (not_not.mpr joins), ← joins, stop]
      rw [same]
      refine ⟨Or.inr ⟨by dsimp only; omega, inMemory, alignedStart, by dsimp only; omega⟩, onlyAdds,
        rfl, fun address => ?_⟩
      unfold EfiMemoryDescriptor.range
      simp only [Set.mem_Ico]
      rw [or_assoc]
      refine or_congr_right ?_
      omega
  · have begun : Set.Ico desc.physicalStart
        (desc.physicalStart + desc.numberOfPages * 0x1000) = desc.range := rfl
    have newPending : ∀ before : UefiImport, ({ before with
        startingPaddr := desc.physicalStart
        endingPaddr := desc.physicalStart + desc.numberOfPages * 0x1000 } : UefiImport).Pending :=
      fun before => Or.inr ⟨Nat.le_add_right _ _, inMemory, aligned, by dsimp only; omega⟩
    rcases pending with ⟨isStart, isEnd⟩ | ⟨ordered, small, alignedStart, alignedEnd⟩
    · have same : state.extend desc = { state with
          startingPaddr := desc.physicalStart
          endingPaddr := desc.physicalStart + desc.numberOfPages * 0x1000 } := by
        unfold UefiImport.extend
        dsimp only
        rw [if_pos joins, if_neg (not_not.mpr isStart), stop]
      rw [same]
      refine ⟨newPending state, onlyAdds, rfl, fun address => ?_⟩
      have nothing : address ∉ Set.Ico state.startingPaddr state.endingPaddr := by
        rw [isStart, isEnd, Set.Ico_self]
        exact Set.notMem_empty address
      rw [or_iff_left nothing]
      exact Iff.rfl
    · have begins : state.startingPaddr ≠ nullPaddr := by omega
      have same : state.extend desc = { state.addPending with
          startingPaddr := desc.physicalStart
          endingPaddr := desc.physicalStart + desc.numberOfPages * 0x1000 } := by
        unfold UefiImport.extend
        dsimp only
        rw [if_pos joins, if_pos begins, stop]
      rw [same]
      refine ⟨newPending _, addPending_onlyAdds onlyAdds, rfl, fun address => ?_⟩
      dsimp only
      rw [addPending_adds ordered small, begun]

/-- What the switch does, by the class of the type. -/
theorem importDescriptor_cases (place : Nat) (known : desc.type.Known) :
    (¬ desc.type.Usable ∧ desc.type.avoided = false ∧
      importDescriptor state (desc, place) = .ok state) ∨
    (desc.type.Usable ∧ desc.type.avoided = true ∧ importDescriptor state (desc, place) =
      .ok ({ state with avoidList := state.avoidList.push place }.extend desc)) ∨
    (desc.type.Usable ∧ desc.type.avoided = false ∧
      importDescriptor state (desc, place) = .ok (state.extend desc)) := by
  obtain ⟨type, physicalStart, numberOfPages⟩ := desc
  cases type with
  | other value => exact absurd known id
  | conventionalMemory => exact Or.inr (Or.inr ⟨trivial, rfl, rfl⟩)
  | reservedMemoryType => exact Or.inl ⟨id, rfl, rfl⟩
  | unusableMemory => exact Or.inl ⟨id, rfl, rfl⟩
  | memoryMappedIo => exact Or.inl ⟨id, rfl, rfl⟩
  | memoryMappedIoPortSpace => exact Or.inl ⟨id, rfl, rfl⟩
  | _ => exact Or.inr (Or.inl ⟨trivial, rfl, rfl⟩)

theorem avoidedPlaces_append (passed : List EfiMemoryDescriptor) (desc : EfiMemoryDescriptor) :
    avoidedPlaces (passed ++ [desc]).zipIdx = avoidedPlaces passed.zipIdx ++
      if desc.type.avoided then [passed.length] else [] := by
  rw [List.zipIdx_append, avoidedPlaces, List.filter_append, List.map_append, Nat.zero_add]
  refine congrArg (_ ++ ·) ?_
  by_cases isAvoided : desc.type.avoided = true
  · simp [isAvoided]
  · simp [isAvoided]

theorem lt_of_mem_avoidedPlaces {place : Nat}
    (member : place ∈ avoidedPlaces passed.zipIdx) : place < passed.length := by
  obtain ⟨⟨desc, _⟩, inPassed, rfl⟩ := List.mem_map.mp member
  have there := List.mem_zipIdx (List.mem_filter.mp inPassed).1
  omega

/-- One descriptor is imported. -/
theorem importDescriptor_spec (imported : Imported passed state) (valid : desc.Valid) :
    ∃ after, importDescriptor state (desc, passed.length) = .ok after ∧
      Imported (passed ++ [desc]) after := by
  have split : ∀ address, (∃ other ∈ passed ++ [desc],
      other.type.Usable ∧ address ∈ other.range) ↔
      (∃ other ∈ passed, other.type.Usable ∧ address ∈ other.range) ∨
        desc.type.Usable ∧ address ∈ desc.range := by
    intro address
    simp only [List.mem_append, List.mem_singleton, or_and_right, exists_or, exists_eq_left]
  have isNew : passed.length ∉ avoidedPlaces passed.zipIdx := fun member =>
    absurd (lt_of_mem_avoidedPlaces member) (Nat.lt_irrefl _)
  have pushed := imported.avoids.push isNew
  rcases @importDescriptor_cases state desc passed.length valid.known with
    ⟨notUsable, notAvoided, ran⟩ | ⟨usable, isAvoided, ran⟩ | ⟨usable, notAvoided, ran⟩
  · refine ⟨state, ran, imported.pending, imported.onlyAdds, fun address => ?_, ?_⟩
    · rw [split, imported.covers, or_iff_left fun both => notUsable both.1]
    · rw [avoidedPlaces_append, notAvoided, if_neg Bool.false_ne_true, List.append_nil]
      exact imported.avoids
  · obtain ⟨pending, onlyAdds, sameList, covers⟩ :=
      @extend_spec { state with avoidList := state.avoidList.push passed.length } desc
        imported.pending imported.onlyAdds valid
    refine ⟨_, ran, pending, onlyAdds, fun address => ?_, ?_⟩
    · rw [covers, split]
      exact or_congr (imported.covers address) (and_iff_right usable).symm
    · rw [sameList, avoidedPlaces_append, isAvoided, if_pos rfl]
      exact pushed
  · obtain ⟨pending, onlyAdds, sameList, covers⟩ :=
      extend_spec imported.pending imported.onlyAdds valid
    refine ⟨_, ran, pending, onlyAdds, fun address => ?_, ?_⟩
    · rw [covers, split]
      exact or_congr (imported.covers address) (and_iff_right usable).symm
    · rw [sameList, avoidedPlaces_append, notAvoided, if_neg Bool.false_ne_true, List.append_nil]
      exact imported.avoids

/-- The loop imports the descriptors in order. -/
theorem importMap_spec {rest : List EfiMemoryDescriptor} (imported : Imported passed state)
    (valid : ∀ desc ∈ rest, desc.Valid) :
    ∃ after, (rest.zipIdx passed.length).foldlM importDescriptor state = .ok after ∧
      Imported (passed ++ rest) after := by
  induction rest generalizing passed state with
  | nil =>
      refine ⟨state, rfl, ?_⟩
      rw [List.append_nil]
      exact imported
  | cons desc rest ih =>
      obtain ⟨middle, ran, step⟩ :=
        importDescriptor_spec imported (valid desc List.mem_cons_self)
      obtain ⟨after, ranRest, whole⟩ :=
        ih step fun later member => valid later (List.mem_cons_of_mem _ member)
      rw [List.length_append, List.length_singleton] at ranRest
      refine ⟨after, ?_, ?_⟩
      · rw [List.zipIdx_cons, List.foldlM_cons, ran]
        exact ranRest
      · rw [List.append_assoc, List.singleton_append] at whole
        exact whole

end Loop

/-! ## The whole import -/

section Whole

variable {map : List EfiMemoryDescriptor} {virtualStart : Nat → Option Nat}

theorem imported_start (virtualStart : Nat → Option Nat) :
    Imported [] ⟨nullPaddr, nullPaddr, ⟨none, virtualStart, none⟩, []⟩ := by
  refine ⟨Or.inl ⟨rfl, rfl⟩, fun call member => absurd member List.not_mem_nil, fun address => ?_,
    rfl, rfl, List.nodup_nil⟩
  rw [Set.Ico_self]
  constructor
  · rintro (⟨_, _, member, _⟩ | inside)
    · exact absurd member List.not_mem_nil
    · exact absurd inside (Set.notMem_empty address)
  · rintro ⟨desc, member, _⟩
    exact absurd member List.not_mem_nil

theorem avoidCall_eq_nil {desc : EfiMemoryDescriptor} (notAvoided : ¬ desc.type.avoided = true) :
    avoidCall desc = [] := by
  obtain ⟨type, physicalStart, numberOfPages⟩ := desc
  cases type with
  | other value => rfl
  | conventionalMemory => rfl
  | reservedMemoryType => rfl
  | unusableMemory => rfl
  | memoryMappedIo => rfl
  | memoryMappedIoPortSpace => rfl
  | _ => exact absurd rfl notAvoided

/-- What is avoided is what the list of descriptors says, in its order. -/
theorem avoidCalls_eq (descs : List (EfiMemoryDescriptor × Nat))
    (there : ∀ entry ∈ descs, map[entry.2]? = some entry.1) :
    ((avoidedPlaces descs).flatMap fun place => (map[place]?.map avoidCall).getD []) =
      (descs.map Prod.fst).flatMap avoidCall := by
  induction descs with
  | nil => rfl
  | cons entry rest ih =>
      have later := ih fun other member => there other (List.mem_cons_of_mem _ member)
      have here := there entry List.mem_cons_self
      rw [List.map_cons, List.flatMap_cons, ← later]
      by_cases isAvoided : entry.1.type.avoided = true
      · have places : avoidedPlaces (entry :: rest) = entry.2 :: avoidedPlaces rest := by
          simp [avoidedPlaces, isAvoided]
        rw [places, List.flatMap_cons, here]
        rfl
      · have places : avoidedPlaces (entry :: rest) = avoidedPlaces rest := by
          simp [avoidedPlaces, isAvoided]
        have nothing : avoidCall entry.1 = [] := avoidCall_eq_nil isAvoided
        rw [places, nothing, List.nil_append]

/-- The calls made for a memory map. -/
structure Imports (map : List EfiMemoryDescriptor) (adds avoids : List RamInfoCall) : Prop where
  onlyAdds : ∀ call ∈ adds, ∃ start size, call = .addRam start size
  union : ∀ address, Adds adds address ↔
    ∃ desc ∈ map, desc.type.Usable ∧ address ∈ desc.range
  never : ∀ desc ∈ map, ¬ desc.type.Usable → ∀ address ∈ desc.range, ¬ Adds adds address
  kept : ∀ desc ∈ map, desc.type.Kept →
    .allocRam desc.physicalStart (desc.numberOfPages * 0x1000) 0 ∈ avoids
  released : ∀ desc ∈ map, desc.type.Released →
    .avoidRam desc.physicalStart (desc.numberOfPages * 0x1000) ∈ avoids
  /-- Nothing else is done behind the RAM. -/
  all : avoids = map.flatMap avoidCall

theorem avoidCall_kept {desc : EfiMemoryDescriptor} (valid : desc.Valid)
    (kept : desc.type.Kept) :
    avoidCall desc = [.allocRam desc.physicalStart (desc.numberOfPages * 0x1000) 0] := by
  rw [← valid.nbytes]
  obtain ⟨type, physicalStart, numberOfPages⟩ := desc
  cases type with
  | acpiReclaimMemory => rfl
  | acpiMemoryNvs => rfl
  | palCode => rfl
  | runtimeServicesCode => rfl
  | runtimeServicesData => rfl
  | _ => exact absurd kept id

theorem avoidCall_released {desc : EfiMemoryDescriptor} (valid : desc.Valid)
    (released : desc.type.Released) :
    avoidCall desc = [.avoidRam desc.physicalStart (desc.numberOfPages * 0x1000)] := by
  rw [← valid.nbytes]
  obtain ⟨type, physicalStart, numberOfPages⟩ := desc
  cases type with
  | loaderCode => rfl
  | loaderData => rfl
  | bootServicesCode => rfl
  | bootServicesData => rfl
  | _ => exact absurd released id

/-- The flush at the end adds what is still pending. -/
theorem Imported.flush {state : UefiImport} (imported : Imported map state) :
    ∃ flushed : UefiImport,
      (if state.startingPaddr ≠ state.endingPaddr then state.addPending else state) = flushed ∧
      flushed.avoidList = state.avoidList ∧
      (∀ call ∈ flushed.calls, ∃ start size, call = .addRam start size) ∧
      ∀ address, Adds flushed.calls address ↔
        ∃ desc ∈ map, desc.type.Usable ∧ address ∈ desc.range := by
  by_cases isEmpty : state.startingPaddr = state.endingPaddr
  · refine ⟨state, by rw [if_neg (not_not.mpr isEmpty)], rfl, imported.onlyAdds,
      fun address => ?_⟩
    have nothing : address ∉ Set.Ico state.startingPaddr state.endingPaddr := by
      rw [isEmpty, Set.Ico_self]
      exact Set.notMem_empty address
    rw [← imported.covers, or_iff_left nothing]
  · rcases imported.pending with ⟨isStart, isEnd⟩ | ⟨ordered, small, _⟩
    · exact absurd (isStart.trans isEnd.symm) isEmpty
    · refine ⟨state.addPending, by rw [if_pos isEmpty], rfl,
        addPending_onlyAdds imported.onlyAdds, fun address => ?_⟩
      rw [addPending_adds ordered small, imported.covers]

/-- Every memory map of separate descriptors is imported: the usable ranges are added and
nothing else, and then every range of the firmware and the loader is avoided. -/
theorem doRaminfo_imports (virtualStart : Nat → Option Nat)
    (valid : ∀ desc ∈ map, desc.Valid)
    (separate : map.Pairwise fun one other => Disjoint one.range other.range) :
    ∃ adds avoids, doRaminfo virtualStart map = .ok (adds ++ avoids) ∧
      Imports map adds avoids := by
  obtain ⟨state, ran, imported⟩ := importMap_spec (imported_start virtualStart) valid
  rw [List.nil_append] at imported
  obtain ⟨flushed, isFlushed, sameList, onlyAdds, union⟩ := imported.flush
  have walked : walk flushed.avoidList.next (map.length + 1) flushed.avoidList.head =
      some (avoidedPlaces map.zipIdx) := by
    rw [sameList]
    refine walk_eq imported.avoids.visits ?_
    have few := List.length_filter_le (fun entry : EfiMemoryDescriptor × Nat =>
      entry.1.type.avoided) map.zipIdx
    rw [List.length_zipIdx] at few
    rw [avoidedPlaces, List.length_map]
    omega
  have avoids : ((avoidedPlaces map.zipIdx).flatMap fun place =>
      (map[place]?.map avoidCall).getD []) = map.flatMap avoidCall := by
    rw [avoidCalls_eq map.zipIdx, List.zipIdx_map_fst]
    exact fun entry member => List.mk_mem_zipIdx_iff_getElem?.mp member
  refine ⟨flushed.calls, map.flatMap avoidCall, ?_, onlyAdds, union, ?_, ?_, ?_, rfl⟩
  · unfold doRaminfo
    rw [List.length_nil] at ran
    rw [ran]
    simp only [bind, Except.bind]
    rw [isFlushed, walked]
    dsimp only
    rw [avoids]
  · intro desc member notUsable address inside added
    obtain ⟨other, inMap, usable, insideOther⟩ := (union address).mp added
    have different : desc ≠ other := fun same => notUsable (same ▸ usable)
    have symmetric : Std.Symm fun one other : EfiMemoryDescriptor =>
        Disjoint one.range other.range := ⟨fun _ _ apart => apart.symm⟩
    have disjoint : Disjoint desc.range other.range := separate.forall member inMap different
    exact Set.disjoint_left.mp disjoint inside insideOther
  · intro desc member kept
    refine List.mem_flatMap.mpr ⟨desc, member, ?_⟩
    rw [avoidCall_kept (valid desc member) kept]
    exact List.mem_singleton.mpr rfl
  · intro desc member released
    refine List.mem_flatMap.mpr ⟨desc, member, ?_⟩
    rw [avoidCall_released (valid desc member) released]
    exact List.mem_singleton.mpr rfl

end Whole

/-- The loader in front of free memory, and a reserved page below both. -/
def smallMap : List EfiMemoryDescriptor :=
  [⟨.loaderCode, 0x2000, 1⟩, ⟨.conventionalMemory, 0x3000, 2⟩, ⟨.reservedMemoryType, 0x1000, 1⟩]

theorem smallMap_imported :
    ∃ adds avoids, doRaminfo (fun _ => none) smallMap = .ok (adds ++ avoids) ∧
      Imports smallMap adds avoids := by
  refine doRaminfo_imports (fun _ => none) ?_ ?_
  · intro desc member
    rcases List.mem_cons.mp member with rfl | later
    · exact ⟨trivial, by decide, by decide⟩
    · rcases List.mem_cons.mp later with rfl | last
      · exact ⟨trivial, by decide, by decide⟩
      · rw [List.mem_singleton.mp last]
        exact ⟨trivial, by decide, by decide⟩
  · simp [smallMap, EfiMemoryDescriptor.range, Set.Ico_disjoint_Ico]

example : doRaminfo (fun _ => none) smallMap =
    .ok [.addRam 0x2000 0x3000, .avoidRam 0x2000 0x1000] := rfl

end Bcm2711.Startup
