import Bcm2711.Lib.Bytes
import Bcm2711.Startup.NoDoubleAlloc

/-! # The secondary image file system

`load_ifs2_nonbootable` finds a place for the secondary image, tries to restore an image that
is still there from the last boot, and otherwise copies the image to its place.  A place the
user chose is reserved only when the image is copied.
-/

namespace Bcm2711.Startup

open Fallible Runs Spans

/-! ## Options and variables -/

def RIFS_FLAG_IFS2_RESTORE : Nat := 0x08

def RIFS_FLAG_IFS2_CKSUM : Nat := 0x10

def RIFS_FLAG_IFS2_SRC : Nat := 0x20

def RIFS_FLAG_IFS2_DST : Nat := 0x40

/-- `RIFS_SIGNATURE`, "rifsboot". -/
def rifsSignature : List UInt8 := [0x72, 0x69, 0x66, 0x73, 0x62, 0x6f, 0x6f, 0x74]

/-- The size of `struct restore_ifs2_info`: a signature of eight bytes, `cksum` and
`image_size`. -/
def sizeofRestoreIfs2Info : Nat := 16

/-- `sizeof(uint64_t)`. -/
def sizeofUint64 : Nat := 8

/-- The options of the secondary image.  The destination is masked with `0xFFFFF000`, and the
size is `unsigned`. -/
structure Ifs2Options where
  rifsFlag : Nat
  src : Nat
  dst : Nat
  size : Nat
  dst_lt : dst < 2 ^ 32
  size_lt : size < 2 ^ 32

/-- What the platform gives: the header of an image file system, the boot image, and whether
the system is secure. -/
structure Ifs2Platform where
  /-- `IMAGE_SIGNATURE`, of which seven bytes are compared. -/
  imageSignature : Nat → UInt8
  /-- The place of `image_size` in `struct image_header`. -/
  imageSizeAt : Nat
  fullImagefsPaddr : Nat
  storedSize : Nat
  startupSize : Nat
  secureSystem : Bool

/-- The variables of the restore code, the allocator and memory. -/
structure Ifs2State where
  ram : RamState
  memory : Bytes.Memory
  ifs2PaddrSrc : Nat
  ifs2PaddrDst : Nat
  /-- The physical address behind `rifs2_info`, null at first. -/
  rifs2Info : Option Nat

/-- The variables as option parsing leaves them. -/
def Ifs2Options.start (options : Ifs2Options) (ram : RamState) (memory : Bytes.Memory) :
    Ifs2State :=
  ⟨ram, memory, options.src, options.dst, none⟩

/-- The user chose the destination. -/
def Ifs2Options.givesDst (options : Ifs2Options) : Bool :=
  Word.test options.rifsFlag RIFS_FLAG_IFS2_DST

/-- The user asked to restore an image. -/
def Ifs2Options.restores (options : Ifs2Options) : Bool :=
  Word.test options.rifsFlag RIFS_FLAG_IFS2_RESTORE

/-! ## Checks on memory -/

/-- An access to a block of physical memory; one that reaches the top, as one at
`NULL_PADDR` does, faults. -/
def accessBlock (addr size : Nat) : Result Unit :=
  if addr + size < 2 ^ 64 then .ok () else .error .nullAccess

/-- `rifs_checksum`: the sum of the 32-bit words. -/
def rifsChecksum (memory : Bytes.Memory) (addr len : Nat) : Nat :=
  (List.range ((len + 3) / 4)).foldl
    (fun sum word => Word.add 32 sum (Bytes.load memory 4 (addr + 4 * word))) 0

/-- `check_ifs_signature`. -/
def checkIfsSignature (platform : Ifs2Platform) (memory : Bytes.Memory) (ifsHdr : Nat) : Bool :=
  (List.range 7).all fun place => memory (ifsHdr + place) == platform.imageSignature place

/-- `rifs2_info->image_size`. -/
def infoImageSize (memory : Bytes.Memory) (info : Nat) : Nat := Bytes.load memory 4 (info + 12)

/-- What is in memory passes for the image of the last boot. -/
def ifs2Valid (platform : Ifs2Platform) (options : Ifs2Options) (memory : Bytes.Memory)
    (ifs2Hdr info : Nat) : Bool :=
  checkIfsSignature platform memory ifs2Hdr &&
    rifsChecksum memory info sizeofRestoreIfs2Info == 0 &&
      (!Word.test options.rifsFlag RIFS_FLAG_IFS2_CKSUM ||
        rifsChecksum memory ifs2Hdr (infoImageSize memory info) == 0)

/-! ## Loading -/

/-- Memory after `alloc_ram(NULL_PADDR, ...)`, which clears the block on a secure system at an
address that is cut to 32 bits. -/
def clearBlock (platform : Ifs2Platform) (memory : Bytes.Memory) (addr size : Nat) :
    Bytes.Memory :=
  if platform.secureSystem ∧ addr ≠ nullPaddr then Bytes.fill memory (addr % 2 ^ 32) 0 size
  else memory

/-- `alloc_ram(NULL_PADDR, size, align)`, with its effect on memory. -/
def allocCleared (platform : Ifs2Platform) (state : Ifs2State) (size align : Nat) :
    Result (Ifs2State × Nat) := do
  let (ram, addr) ← allocRam state.ram nullPaddr size align
  return ({ state with ram := ram, memory := clearBlock platform state.memory addr size }, addr)

/-- `rifs_restore_ifs2`. -/
def rifsRestoreIfs2 (platform : Ifs2Platform) (options : Ifs2Options) (state : Ifs2State) :
    Result (Ifs2State × Int) := do
  let (state, paddr) ← allocCleared platform state sizeofRestoreIfs2Info sizeofUint64
  let state := { state with rifs2Info := some paddr }
  let ifs2Hdr := state.ifs2PaddrDst
  accessBlock ifs2Hdr 7
  if checkIfsSignature platform state.memory ifs2Hdr then
    accessBlock paddr sizeofRestoreIfs2Info
    if rifsChecksum state.memory paddr sizeofRestoreIfs2Info = 0 then
      if Word.test options.rifsFlag RIFS_FLAG_IFS2_CKSUM then
        accessBlock ifs2Hdr (infoImageSize state.memory paddr)
        if rifsChecksum state.memory ifs2Hdr (infoImageSize state.memory paddr) ≠ 0 then
          return (state, -1)
        else return (state, 0)
      else return (state, 0)
    else return (state, -1)
  else return (state, -1)

/-- The restore information that `rifs_load_ifs2` leaves for the next boot. -/
def saveInfo (platform : Ifs2Platform) (memory : Bytes.Memory) (ifs2Hdr info : Nat) :
    Bytes.Memory :=
  let signed := fun address =>
    if info ≤ address then rifsSignature.getD (address - info) (memory address)
    else memory address
  let sized := Bytes.store signed 4 (info + 12)
    (Bytes.load signed 4 (ifs2Hdr + platform.imageSizeAt))
  let cleared := Bytes.store sized 4 (info + 8) 0
  Bytes.store cleared 4 (info + 8)
    ((2 ^ 32 - rifsChecksum cleared info sizeofRestoreIfs2Info) % 2 ^ 32)

/-- Where the image comes from: the user's choice, or the end of the first image. -/
def ifs2Source (platform : Ifs2Platform) (options : Ifs2Options) (state : Ifs2State) : Nat :=
  if Word.test options.rifsFlag RIFS_FLAG_IFS2_SRC then state.ifs2PaddrSrc
  else subPaddr (addPaddr platform.fullImagefsPaddr platform.storedSize) platform.startupSize

/-- `rifs_load_ifs2`, up to the copy: a place the user chose is taken off `ram_list`. -/
def reserveDst (options : Ifs2Options) (state : Ifs2State) : Result RamState :=
  if options.givesDst then do
    let (ram, _) ← allocRam state.ram state.ifs2PaddrDst options.size 0x1000
    return ram
  else .ok state.ram

/-- `rifs_load_ifs2`. -/
def rifsLoadIfs2 (platform : Ifs2Platform) (options : Ifs2Options) (state : Ifs2State) :
    Result Ifs2State := do
  let src := ifs2Source platform options state
  let ram ← reserveDst options state
  accessBlock state.ifs2PaddrDst options.size
  let memory := Bytes.move state.memory state.ifs2PaddrDst src options.size
  let state := { state with ifs2PaddrSrc := src, ram := ram, memory := memory }
  if options.restores then
    let info ← deref state.rifs2Info
    accessBlock info sizeofRestoreIfs2Info
    return { state with memory := saveInfo platform state.memory state.ifs2PaddrDst info }
  else return state

/-- `load_ifs2_nonbootable`, up to the restore: without a place of the user's choice the image
gets a block. -/
def placeIfs2 (platform : Ifs2Platform) (options : Ifs2Options) (state : Ifs2State) :
    Result Ifs2State :=
  if options.givesDst then .ok state
  else do
    let (state, addr) ← allocCleared platform state options.size 0x1000
    return { state with ifs2PaddrDst := addr }

/-- `load_ifs2_nonbootable`, with the place known. -/
def restoreOrLoad (platform : Ifs2Platform) (options : Ifs2Options) (state : Ifs2State) :
    Result Ifs2State :=
  if options.restores then do
    let (state, status) ← rifsRestoreIfs2 platform options state
    if status = -1 then rifsLoadIfs2 platform options state
    else return state
  else rifsLoadIfs2 platform options state

/-- `load_ifs2_nonbootable`. -/
def loadIfs2Nonbootable (platform : Ifs2Platform) (options : Ifs2Options) (state : Ifs2State) :
    Result Ifs2State := do
  let state ← placeIfs2 platform options state
  restoreOrLoad platform options state

/-! ## What comes later -/

/-- Allocator calls behind `load_ifs2_nonbootable`. -/
inductive LaterCall where
  /-- `alloc_ram`, at an address or anywhere (`NULL_PADDR`). -/
  | allocRam (addr size align : Nat)
  | avoidRam (start size : Nat)
  | wsAlloc (size : Nat)
deriving DecidableEq, Repr

/-- Make a call; the value is the address of the block it returns. -/
def laterStep (boot : Boot) (state : RamState) : LaterCall → Result (RamState × Option Nat)
  | .allocRam addr size align => do
      let (state, addr) ← allocRam state addr size align
      return (state, if addr = nullPaddr then none else some addr)
  | .avoidRam start size => do return (← avoidRam boot state start size, none)
  | .wsAlloc size => wsAlloc boot state size

/-- What callers promise: requests are not empty and do not wrap, and alignments are powers of
two. -/
def LaterCall.Legal : LaterCall → Prop
  | .allocRam addr size align => 0 < size ∧ (addr = nullPaddr ∨ addr + size < 2 ^ 64) ∧
      ∃ shift < 32, align = 2 ^ shift
  | .avoidRam start size => 0 < size ∧ start + size < 2 ^ 64
  | .wsAlloc size => 0 < size ∧ size + 7 < 2 ^ 64

/-- The place of the image. -/
def Ifs2State.imageBlock (state : Ifs2State) (options : Ifs2Options) : Set Nat :=
  Set.Ico state.ifs2PaddrDst (state.ifs2PaddrDst + options.size)

/-- `ram_list` holds exactly these addresses. -/
def RamState.HoldsFree (state : RamState) (free : Set Nat) : Prop :=
  ∃ ram, state.ram = some ram ∧ ram.HoldsFree free

/-- The place of the image is no longer free, is not that of the restore information, and is
never handed out. -/
structure Ifs2Reserved (boot : Boot) (options : Ifs2Options) (state : Ifs2State) : Prop where
  unlisted : ∀ free, state.ram.HoldsFree free → Disjoint (state.imageBlock options) free
  info : ∀ info, state.rifs2Info = some info →
    Disjoint (state.imageBlock options) (Set.Ico info (info + sizeofRestoreIfs2Info))
  later : ∀ history final, Run (laterStep boot) (fun _ _ call => call.Legal) state.ram history
    final → ∀ event ∈ history, ∀ size align addr, event.call = .allocRam nullPaddr size align →
      event.returned = some addr → Disjoint (state.imageBlock options) (Set.Ico addr (addr + size))

/-- The tables of the allocator, as its calls leave them: `ram_list` is canonical and the avoid
list is not empty.  RAM ends far below the top of the address space. -/
structure RamState.Ready (state : RamState) (free : Set Nat) : Prop where
  holds : state.HoldsFree free
  avoids : ∃ avoid taken, state.avoid = some avoid ∧ avoid.Avoids taken
  room : ∀ address ∈ free, address + 2 ^ 32 ≤ 2 ^ 64

/-- The place that `find_ram` has for the restore information. -/
def infoPlace (state : RamState) : Result Nat := do
  findRam (← deref state.ram) (← deref state.avoid) sizeofRestoreIfs2Info sizeofUint64 0 0

/-- The user chose no place or does not restore, or the place is not in `ram_list`, or there is
no valid image there and the restore information gets a place beside it. -/
def Ifs2Beside (platform : Ifs2Platform) (options : Ifs2Options) (state : Ifs2State)
    (free : Set Nat) : Prop :=
  options.givesDst = false ∨ options.restores = false ∨
    Disjoint (state.imageBlock options) free ∨
      ∀ info, infoPlace state.ram = .ok info →
        ifs2Valid platform options
            (clearBlock platform state.memory info sizeofRestoreIfs2Info)
            state.ifs2PaddrDst info = false ∧
          Disjoint (state.imageBlock options) (Set.Ico info (info + sizeofRestoreIfs2Info))

variable {boot : Boot} {state after : RamState} {free : Set Nat}

/-! ## The allocator -/

/-- What `ram_list` holds is determined. -/
theorem RamState.HoldsFree.unique {other : Set Nat} (holds : state.HoldsFree free)
    (also : state.HoldsFree other) : other = free := by
  obtain ⟨ram, isRam, first⟩ := holds
  obtain ⟨sameRam, isSame, second⟩ := also
  rw [isRam] at isSame
  cases isSame
  obtain ⟨count, formed, covers⟩ := first.wellFormed
  obtain ⟨sameCount, sameFormed, sameCovers⟩ := second.wellFormed
  have counts : sameCount = count := by
    have bytes := formed.bytes.symm.trans sameFormed.bytes
    simp only [sizeofRamEntry] at bytes
    omega
  ext address
  rw [← covers, ← sameCovers, counts]

/-- `alloc_ram` at an address takes the block off `ram_list`. -/
theorem RamState.Ready.take {addr size returned : Nat} (ready : state.Ready free)
    (fits : addr + size < 2 ^ 64) (taken : takeRam state addr size = .ok (after, returned)) :
    returned = addr ∧ after.Ready (free \ Set.Ico addr (addr + size)) := by
  obtain ⟨ram, isRam, holds⟩ := ready.holds
  obtain ⟨same, removed, stored, isAfter⟩ := takeRam_ok isRam holds fits taken
  refine ⟨same, ⟨removed, by rw [isAfter], stored⟩, ?_, fun address member =>
    ready.room address member.1⟩
  rw [isAfter]
  exact ready.avoids

/-- What `find_ram` returns is `NULL_PADDR` or the address of a free block. -/
theorem RamState.Ready.find {ram : RamTable} {avoid : AvoidTable} {size shift addr : Nat}
    (ready : state.Ready free) (isRam : state.ram = some ram) (isAvoid : state.avoid = some avoid)
    (small : shift < 32) (search : findRam ram avoid size (2 ^ shift) 0 0 = .ok addr) :
    addr = nullPaddr ∨ addr + size < 2 ^ 64 ∧ Set.Ico addr (addr + size) ⊆ free := by
  obtain ⟨sameRam, isSame, holds⟩ := ready.holds
  rw [isRam] at isSame
  cases isSame
  obtain ⟨sameAvoid, taken, isSame, avoids⟩ := ready.avoids
  rw [isAvoid] at isSame
  cases isSame
  have room : ∀ address ∈ free, address + (2 ^ shift - 1) < 2 ^ 64 := by
    intro address member
    have bound := ready.room address member
    have narrow : 2 ^ shift ≤ 2 ^ 32 := Nat.pow_le_pow_right Nat.two_pos small.le
    have positive := Nat.two_pow_pos shift
    omega
  obtain ⟨place, found, sound⟩ := @findRam_sound _ _ size _ _ _ holds avoids small room
  rw [search] at found
  cases found
  exact sound.imp_right fun found => ⟨found.fits, found.inside⟩

/-- `alloc_ram(NULL_PADDR, ...)` takes the block that `find_ram` returns. -/
theorem RamState.Ready.allocAnywhere {size shift addr : Nat} (ready : state.Ready free)
    (small : shift < 32)
    (allocated : allocRam state nullPaddr size (2 ^ shift) = .ok (after, addr)) :
    (do findRam (← deref state.ram) (← deref state.avoid) size (2 ^ shift) 0 0) = .ok addr ∧
      (addr = nullPaddr ∧ after.Ready free ∨
        addr + size < 2 ^ 64 ∧ Set.Ico addr (addr + size) ⊆ free ∧
          after.Ready (free \ Set.Ico addr (addr + size))) := by
  obtain ⟨ram, isRam, _⟩ := ready.holds
  obtain ⟨avoid, _, isAvoid, _⟩ := ready.avoids
  simp only [allocRam, if_true, isRam, isAvoid, deref] at allocated ⊢
  change findRam ram avoid size (2 ^ shift) 0 0 = .ok addr ∧ _
  obtain ⟨place, search, rest⟩ := (@bind_eq_ok _ _ _ (findRam ram avoid size (2 ^ shift) 0 0) _
    (after, addr)).mp allocated
  have sound := ready.find isRam isAvoid small search
  split at rest
  · next isNull =>
      cases rest
      exact ⟨search.trans (congrArg _ isNull), .inl ⟨rfl, ready⟩⟩
  · next notNull =>
      obtain ⟨fits, inside⟩ := sound.resolve_left notNull
      obtain ⟨rfl, next⟩ := ready.take fits rest
      exact ⟨search, .inr ⟨fits, inside, next⟩⟩

/-! ## Later calls -/

/-- The allocator keeps clear of a block: it is not free, and while there is free RAM the
tables are as its calls leave them. -/
def RamState.Spares (state : RamState) (block : Set Nat) : Prop :=
  ∃ free, state.HoldsFree free ∧ Disjoint block free ∧ (∃ avoid, state.avoid = some avoid) ∧
    (free = ∅ ∨ state.Ready free)

/-- A table without RAM has no entry before the terminator. -/
theorem RamTable.HoldsFree.empty_iff {ram : RamTable} (holds : ram.HoldsFree free) :
    ram.ramListSize ≤ sizeofRamEntry ↔ free = ∅ := by
  obtain ⟨spans, stores, _, rfl⟩ := holds
  rw [stores.bytes]
  cases spans with
  | nil => exact iff_of_true le_rfl cover_nil
  | cons span rest =>
      have proper := stores.proper span List.mem_cons_self
      refine iff_of_false ?_ fun empty => ?_
      · simp only [List.length_cons, sizeofRamEntry]
        omega
      · have member : span.lo ∈ cover (span :: rest) := by
          rw [cover_cons]
          exact .inl ⟨le_rfl, proper⟩
        rw [empty] at member
        exact member

/-- `find_ram` finds nothing in a table without RAM. -/
theorem findRam_empty {ram : RamTable} {avoid : AvoidTable} {size align : Nat}
    (holds : ram.HoldsFree ∅) : findRam ram avoid size align 0 0 = .ok nullPaddr := by
  obtain ⟨spans, stores, _, covers⟩ := holds
  have none_left : spans = [] := by
    cases spans with
    | nil => rfl
    | cons span rest =>
        have proper := stores.proper span List.mem_cons_self
        have member : span.lo ∈ cover (span :: rest) := by
          rw [cover_cons]
          exact .inl ⟨le_rfl, proper⟩
        rw [covers] at member
        exact member.elim
  cases none_left
  have ended : (ram.ramList 0).size = 0 := @RamTable.Stores.terminated ram [] stores
  have bytes : ram.ramListSize = 15 + 1 := stores.bytes
  simp only [findRam, findRamInRange, bytes, findRamFrom, ended, if_true]

variable {block : Set Nat}

namespace RamState.Spares

/-- `alloc_ram` at an address. -/
theorem take (spares : state.Spares block) {addr size returned : Nat}
    (fits : addr + size < 2 ^ 64) (taken : takeRam state addr size = .ok (after, returned)) :
    after.Spares block := by
  obtain ⟨free, ⟨ram, isRam, holds⟩, clear, ⟨avoid, isAvoid⟩, ready⟩ := spares
  obtain ⟨_, removed, stored, isAfter⟩ := takeRam_ok isRam holds fits taken
  refine ⟨_, ⟨removed, by rw [isAfter], stored⟩, clear.mono_right Set.sdiff_subset,
    ⟨avoid, by rw [isAfter]; exact isAvoid⟩, ?_⟩
  rcases ready with empty | ready
  · exact .inl (by rw [empty, Set.empty_sdiff])
  · exact .inr (ready.take fits taken).2

/-- `alloc_ram` anywhere returns a block beside. -/
theorem allocAnywhere (spares : state.Spares block) {size shift addr : Nat} (small : shift < 32)
    (allocated : allocRam state nullPaddr size (2 ^ shift) = .ok (after, addr)) :
    after.Spares block ∧
      (addr ≠ nullPaddr → Disjoint block (Set.Ico addr (addr + size))) := by
  obtain ⟨free, holdsFree, clear, ⟨avoid, isAvoid⟩, ready⟩ := spares
  rcases ready with rfl | ready
  · obtain ⟨ram, isRam, holds⟩ := holdsFree
    have search : findRam ram avoid size (2 ^ shift) 0 0 = .ok nullPaddr := findRam_empty holds
    simp only [allocRam, if_true, isRam, isAvoid, deref, bind, Except.bind, search] at allocated
    cases allocated
    exact ⟨⟨∅, ⟨ram, isRam, holds⟩, clear, ⟨avoid, isAvoid⟩, .inl rfl⟩, fun some => absurd rfl some⟩
  · rcases (ready.allocAnywhere small allocated).2 with ⟨isNull, next⟩ | ⟨_, inside, next⟩
    · obtain ⟨nextAvoid, _, isNext, _⟩ := next.avoids
      exact ⟨⟨free, next.holds, clear, ⟨nextAvoid, isNext⟩, .inr next⟩,
        fun some => absurd isNull some⟩
    · obtain ⟨nextAvoid, _, isNext, _⟩ := next.avoids
      exact ⟨⟨_, next.holds, clear.mono_right Set.sdiff_subset, ⟨nextAvoid, isNext⟩, .inr next⟩,
        fun _ => clear.mono_right inside⟩

/-- A longer avoid list. -/
theorem avoiding (spares : state.Spares block) {start size : Nat} {avoid next : AvoidTable}
    (isAvoid : state.avoid = some avoid) (nonempty : 0 < size) (fits : start + size < 2 ^ 64)
    (listed : addAvoid avoid start size = .ok next) :
    RamState.Spares { state with avoid := some next } block := by
  obtain ⟨free, holds, clear, _, ready⟩ := spares
  refine ⟨free, holds, clear, ⟨next, rfl⟩, ready.imp_right fun ready => ⟨holds, ?_, ready.room⟩⟩
  obtain ⟨old, taken, isOld, avoids⟩ := ready.avoids
  rw [isAvoid] at isOld
  cases isOld
  have ends : start + size ≠ 0 := (Nat.add_pos_right start nonempty).ne'
  rcases addAvoid_avoids avoids ends fits with overflow | ⟨found, same, more⟩
  · rw [overflow] at listed
    cases listed
  · rw [same] at listed
    cases listed
    exact ⟨_, _, rfl, more⟩

/-- A state without free RAM spares every block whatever it avoids. -/
theorem of_empty {ram : RamTable} (isRam : state.ram = some ram) (holds : ram.HoldsFree ∅)
    {avoid : AvoidTable} (isAvoid : state.avoid = some avoid) : state.Spares block :=
  ⟨∅, ⟨ram, isRam, holds⟩, Set.disjoint_empty block, ⟨avoid, isAvoid⟩, .inl rfl⟩

/-- `ws_alloc`. -/
theorem workspace (spares : state.Spares block) {size : Nat} {returned : Option Nat}
    (nonempty : 0 < size) (fits : size + 7 < 2 ^ 64)
    (allocated : wsAlloc boot state size = .ok (after, returned)) : after.Spares block := by
  obtain ⟨grows, _⟩ := round_eight fits
  have positive : 0 < ROUND size 8 := nonempty.trans_le grows
  have same := spares
  obtain ⟨free, ⟨ram, isRam, holds⟩, clear, ⟨avoid, isAvoid⟩, ready⟩ := same
  have bytes : state.ramListSize = ram.ramListSize := by
    rw [RamState.ramListSize, isRam]
  simp only [wsAlloc, ensureInit, isAvoid, bind, Except.bind, wsTake, bytes, deref, isRam]
    at allocated
  split at allocated
  · next empty =>
      have noRam := holds.empty_iff.mp empty
      rw [noRam] at holds
      cases listed : addAvoid avoid state.wsEarlyNext (ROUND size 8) with
      | error halt =>
          rw [listed] at allocated
          cases allocated
      | ok next =>
          rw [listed] at allocated
          cases allocated
          exact of_empty rfl holds rfl
  · next some_ram =>
      have ready := ready.resolve_left fun noRam => some_ram (holds.empty_iff.mpr noRam)
      cases search : findRam ram avoid (ROUND size 8) 8 0 0 with
      | error halt =>
          rw [search] at allocated
          cases allocated
      | ok addr =>
          simp only [search] at allocated
          split at allocated
          · cases allocated
            exact spares
          · next notNull =>
              have found := ready.find isRam isAvoid (by decide : 3 < 32) search
              obtain ⟨inMemory, _⟩ := found.resolve_left notNull
              cases listed : addAvoid avoid addr (ROUND size 8) with
              | error halt =>
                  rw [listed] at allocated
                  cases allocated
              | ok next =>
                  rw [listed] at allocated
                  cases allocated
                  have kept := spares.avoiding isAvoid positive inMemory listed
                  rw [isRam] at kept
                  exact kept

/-- A later call spares the block again and hands out none of it. -/
theorem step (spares : state.Spares block) {call : LaterCall} {returned : Option Nat}
    (legal : call.Legal) (stepped : laterStep boot state call = .ok (after, returned)) :
    after.Spares block ∧
      ∀ size align addr, call = .allocRam nullPaddr size align → returned = some addr →
        Disjoint block (Set.Ico addr (addr + size)) := by
  cases call with
  | allocRam addr size align =>
      obtain ⟨_, inMemory, shift, small, rfl⟩ := legal
      obtain ⟨⟨next, place⟩, allocated, rest⟩ := bind_eq_ok.mp stepped
      cases rest
      by_cases isNull : addr = nullPaddr
      · rw [isNull] at allocated
        obtain ⟨kept, beside⟩ := spares.allocAnywhere small allocated
        refine ⟨kept, fun sameSize sameAlign found same isFound => ?_⟩
        cases same
        split at isFound
        · cases isFound
        · next some =>
            cases isFound
            exact beside some
      · rw [allocRam, if_neg isNull] at allocated
        refine ⟨spares.take (inMemory.resolve_left isNull) allocated, ?_⟩
        rintro _ _ _ same
        cases same
        exact absurd rfl isNull
  | avoidRam start size =>
      refine ⟨?_, fun _ _ _ same => by cases same⟩
      obtain ⟨nonempty, inMemory⟩ := legal
      obtain ⟨next, avoided, rest⟩ := bind_eq_ok.mp stepped
      cases rest
      have same := spares
      obtain ⟨_, _, _, ⟨avoid, isAvoid⟩, _⟩ := same
      simp only [avoidRam, ensureInit, isAvoid, bind, Except.bind, deref] at avoided
      cases listed : addAvoid avoid start size with
      | error halt =>
          rw [listed] at avoided
          cases avoided
      | ok next =>
          rw [listed] at avoided
          cases avoided
          exact spares.avoiding isAvoid nonempty inMemory listed
  | wsAlloc size =>
      obtain ⟨nonempty, inMemory⟩ := legal
      exact ⟨spares.workspace nonempty inMemory stepped, fun _ _ _ same => by cases same⟩

/-- Whatever is called later, the block is not handed out. -/
theorem later (spares : state.Spares block) {history : List (Event LaterCall (Option Nat))}
    {final : RamState}
    (run : Run (laterStep boot) (fun _ _ call => call.Legal) state history final) :
    ∀ event ∈ history, ∀ size align addr, event.call = .allocRam nullPaddr size align →
      event.returned = some addr → Disjoint block (Set.Ico addr (addr + size)) := by
  intro event member size align addr isCall isReturned
  obtain ⟨earlier, rest, rfl⟩ := List.append_of_mem member
  obtain ⟨before, next, ran, legal, stepped⟩ := run.split
  have kept : before.Spares block := by
    refine @Run.invariant _ _ _ _ _ _ _ (fun _ middle => middle.Spares block) spares ?_ _ _ ran
    intro _ _ _ _ _ inv isLegal made
    exact (inv.step isLegal made).1
  exact (kept.step legal stepped).2 size align addr isCall isReturned

end RamState.Spares

/-! ## What is reserved -/

variable {platform : Ifs2Platform} {options : Ifs2Options} {before next final : Ifs2State}

/-- The image is reserved when its place is not in `ram_list` and not that of the restore
information. -/
theorem reserved_iff (ready : final.ram.Ready free) :
    Ifs2Reserved boot options final ↔
      Disjoint (final.imageBlock options) free ∧ ∀ info, final.rifs2Info = some info →
        Disjoint (final.imageBlock options) (Set.Ico info (info + sizeofRestoreIfs2Info)) := by
  constructor
  · intro reserved
    exact ⟨reserved.unlisted free ready.holds, reserved.info⟩
  · rintro ⟨clear, info⟩
    obtain ⟨avoid, _, isAvoid, _⟩ := ready.avoids
    have spares : final.ram.Spares (final.imageBlock options) :=
      ⟨free, ready.holds, clear, ⟨avoid, isAvoid⟩, .inr ready⟩
    refine ⟨fun other holds => ?_, info, fun history last run => spares.later run⟩
    rw [ready.holds.unique holds]
    exact clear

/-- A place the user chose does not wrap. -/
theorem Ifs2Options.dst_fits (options : Ifs2Options) : options.dst + options.size < 2 ^ 64 := by
  have dst := options.dst_lt
  have size := options.size_lt
  omega

theorem accessed_below {addr size : Nat} (accessed : accessBlock addr size = .ok ()) :
    addr + size < 2 ^ 64 := by
  by_contra outside
  rw [accessBlock, if_neg outside] at accessed
  cases accessed

/-- `rifs_restore_ifs2` gets a place for the restore information and finds the image valid or
not. -/
theorem rifsRestoreIfs2_ok {status : Int} (ready : before.ram.Ready free)
    (restored : rifsRestoreIfs2 platform options before = .ok (next, status)) :
    ∃ info memory, infoPlace before.ram = .ok info ∧
      memory = clearBlock platform before.memory info sizeofRestoreIfs2Info ∧
      before.ifs2PaddrDst + 7 < 2 ^ 64 ∧ next.ifs2PaddrDst = before.ifs2PaddrDst ∧
      next.rifs2Info = some info ∧
      (status = -1 ↔ ifs2Valid platform options memory before.ifs2PaddrDst info = false) ∧
      (info = nullPaddr ∧ next.ram.Ready free ∨
        info + sizeofRestoreIfs2Info < 2 ^ 64 ∧
          Set.Ico info (info + sizeofRestoreIfs2Info) ⊆ free ∧
          next.ram.Ready (free \ Set.Ico info (info + sizeofRestoreIfs2Info))) := by
  obtain ⟨⟨cleared, info⟩, allocated, rest⟩ := bind_eq_ok.mp restored
  obtain ⟨⟨ram, place⟩, took, isCleared⟩ := bind_eq_ok.mp allocated
  cases isCleared
  obtain ⟨isPlace, sound⟩ := ready.allocAnywhere (by decide : 3 < 32) took
  refine ⟨info, _, isPlace, rfl, ?_⟩
  obtain ⟨_, accessed, rest⟩ := bind_eq_ok.mp rest
  have inMemory := accessed_below accessed
  unfold ifs2Valid
  split at rest
  · next signed =>
      obtain ⟨_, _, rest⟩ := bind_eq_ok.mp rest
      split at rest
      · next summed =>
          split at rest
          · next asked =>
              obtain ⟨_, _, rest⟩ := bind_eq_ok.mp rest
              split at rest
              · next broken =>
                  cases rest
                  refine ⟨inMemory, rfl, rfl, iff_of_true rfl ?_, sound⟩
                  dsimp only at signed summed broken
                  rw [signed, summed, asked]
                  simp [broken]
              · next whole =>
                  cases rest
                  refine ⟨inMemory, rfl, rfl, iff_of_false nofun ?_, sound⟩
                  dsimp only at signed summed whole
                  rw [signed, summed, asked]
                  simp [not_not.mp whole]
          · next unasked =>
              cases rest
              refine ⟨inMemory, rfl, rfl, iff_of_false nofun ?_, sound⟩
              dsimp only at signed summed
              rw [signed, summed, Bool.eq_false_of_not_eq_true unasked]
              exact nofun
      · next broken =>
          cases rest
          refine ⟨inMemory, rfl, rfl, iff_of_true rfl ?_, sound⟩
          dsimp only at signed broken
          rw [signed]
          simp [broken]
  · next unsigned =>
      cases rest
      refine ⟨inMemory, rfl, rfl, iff_of_true rfl ?_, sound⟩
      dsimp only at unsigned
      simp [unsigned]

/-- `rifs_load_ifs2` reserves a place the user chose, and the image does not wrap. -/
theorem rifsLoadIfs2_ok (ready : before.ram.Ready free)
    (fits : options.givesDst = true → before.ifs2PaddrDst + options.size < 2 ^ 64)
    (chosen : options.givesDst = true → before.ifs2PaddrDst ≠ nullPaddr)
    (loaded : rifsLoadIfs2 platform options before = .ok final) :
    final.ifs2PaddrDst = before.ifs2PaddrDst ∧ final.rifs2Info = before.rifs2Info ∧
      before.ifs2PaddrDst + options.size < 2 ^ 64 ∧
      final.ram.Ready (if options.givesDst then free \ before.imageBlock options else free) := by
  obtain ⟨ram, taken, rest⟩ := bind_eq_ok.mp loaded
  obtain ⟨_, accessed, rest⟩ := bind_eq_ok.mp rest
  have inMemory := accessed_below accessed
  have kept : ram.Ready (if options.givesDst then free \ before.imageBlock options else free) := by
    unfold reserveDst at taken
    split at taken
    · next gives =>
        obtain ⟨⟨next, place⟩, took, same⟩ := bind_eq_ok.mp taken
        cases same
        rw [allocRam, if_neg (chosen gives)] at took
        rw [if_pos gives]
        exact (ready.take (fits gives) took).2
    · next free_choice =>
        cases taken
        rw [if_neg free_choice]
        exact ready
  split at rest
  · obtain ⟨info, _, rest⟩ := bind_eq_ok.mp rest
    obtain ⟨_, _, rest⟩ := bind_eq_ok.mp rest
    cases rest
    exact ⟨rfl, rfl, inMemory, kept⟩
  · cases rest
    exact ⟨rfl, rfl, inMemory, kept⟩

/-- The place the restore information gets when nothing is left is beside every image. -/
theorem beside_null {dst size : Nat} (fits : dst + size < 2 ^ 64) :
    Disjoint (Set.Ico dst (dst + size))
      (Set.Ico nullPaddr (nullPaddr + sizeofRestoreIfs2Info)) := by
  refine Set.disjoint_left.mpr fun address inImage inInfo => ?_
  have below := inImage.2
  have above := inInfo.1
  simp only [nullPaddr] at above
  omega

/-- A state with the image at the same place. -/
theorem Ifs2State.imageBlock_congr (same : final.ifs2PaddrDst = next.ifs2PaddrDst) :
    final.imageBlock options = next.imageBlock options := by
  unfold Ifs2State.imageBlock
  rw [same]

/-- The restore information comes beside an image that is not free. -/
theorem info_beside {info : Nat} (fits : next.ifs2PaddrDst + options.size < 2 ^ 64)
    (clear : Disjoint (next.imageBlock options) free)
    (isInfo : info = nullPaddr ∨ Set.Ico info (info + sizeofRestoreIfs2Info) ⊆ free) :
    Disjoint (next.imageBlock options) (Set.Ico info (info + sizeofRestoreIfs2Info)) := by
  rcases isInfo with rfl | inside
  · exact beside_null fits
  · exact clear.mono_right inside

section Placed

variable (ready : next.ram.Ready free)
  (chosen : options.givesDst = true → next.ifs2PaddrDst ≠ nullPaddr)
  (fits : next.ifs2PaddrDst ≠ nullPaddr → next.ifs2PaddrDst + options.size < 2 ^ 64)
  (taken : options.givesDst = false → next.ifs2PaddrDst ≠ nullPaddr →
    Disjoint (next.imageBlock options) free)

include ready chosen fits taken

/-- A load leaves the image outside `ram_list`. -/
theorem unlisted_of_loaded (loaded : rifsLoadIfs2 platform options next = .ok final) :
    final.ifs2PaddrDst = next.ifs2PaddrDst ∧ final.rifs2Info = next.rifs2Info ∧
      ∃ left ⊆ free, final.ram.Ready left ∧ Disjoint (next.imageBlock options) left := by
  obtain ⟨sameDst, sameInfo, inMemory, kept⟩ :=
    rifsLoadIfs2_ok ready (fun gives => fits (chosen gives)) chosen loaded
  refine ⟨sameDst, sameInfo, _, ?_, kept, ?_⟩
  · split
    · exact Set.sdiff_subset
    · exact subset_rfl
  · split
    · exact Set.disjoint_sdiff_right
    · next anywhere =>
        by_cases isNull : next.ifs2PaddrDst = nullPaddr
        · refine Set.disjoint_left.mpr fun address inside _ => ?_
          have below := inside.2
          have above := inside.1
          simp only [nullPaddr] at isNull
          omega
        · exact taken (Bool.eq_false_of_not_eq_true anywhere) isNull

/-- Without a restore the image is reserved. -/
theorem reserved_of_loaded (unset : next.rifs2Info = none)
    (loaded : rifsLoadIfs2 platform options next = .ok final) :
    Ifs2Reserved boot options final := by
  obtain ⟨sameDst, sameInfo, left, _, kept, clear⟩ :=
    unlisted_of_loaded ready chosen fits taken loaded
  refine (reserved_iff kept).mpr ⟨?_, fun info isInfo => ?_⟩
  · rw [Ifs2State.imageBlock_congr sameDst]
    exact clear
  · rw [sameInfo, unset] at isInfo
    cases isInfo

/-- With a restore the image is reserved exactly in the cases described. -/
theorem restored_reserved_iff {middle : Ifs2State} {status : Int}
    (restores : options.restores = true)
    (restored : rifsRestoreIfs2 platform options next = .ok (middle, status))
    (done : (if status = -1 then rifsLoadIfs2 platform options middle else .ok middle) =
      .ok final) :
    Ifs2Reserved boot options final ↔ Ifs2Beside platform options next free := by
  obtain ⟨info, memory, isPlace, rfl, inMemory, sameDst, isInfo, failed, block⟩ :=
    rifsRestoreIfs2_ok ready restored
  have some_place : next.ifs2PaddrDst ≠ nullPaddr := by
    intro isNull
    rw [isNull] at inMemory
    exact absurd inMemory (by decide)
  have below := fits some_place
  have sameImage : middle.imageBlock options = next.imageBlock options :=
    Ifs2State.imageBlock_congr sameDst
  have aside : Disjoint (next.imageBlock options) free →
      Disjoint (next.imageBlock options) (Set.Ico info (info + sizeofRestoreIfs2Info)) :=
    fun clear => info_beside below clear (block.imp And.left fun found => found.2.1)
  obtain ⟨left, kept, within, covers⟩ : ∃ left, middle.ram.Ready left ∧ left ⊆ free ∧
      free ⊆ left ∪ Set.Ico info (info + sizeofRestoreIfs2Info) := by
    rcases block with ⟨_, kept⟩ | ⟨_, _, kept⟩
    · exact ⟨free, kept, subset_rfl, Set.subset_union_left⟩
    · refine ⟨_, kept, Set.sdiff_subset, ?_⟩
      rw [Set.sdiff_union_self]
      exact Set.subset_union_left
  split at done
  · next isFailed =>
      have invalid := failed.mp isFailed
      have loaded : final.ifs2PaddrDst = middle.ifs2PaddrDst ∧
          final.rifs2Info = middle.rifs2Info ∧ ∃ rest ⊆ left, final.ram.Ready rest ∧
            Disjoint (middle.imageBlock options) rest := by
        refine unlisted_of_loaded kept ?_ ?_ ?_ done
        · rw [sameDst]
          exact chosen
        · rw [sameDst]
          exact fits
        · rw [sameDst, sameImage]
          exact fun anywhere isPlaced => (taken anywhere isPlaced).mono_right within
      obtain ⟨lastDst, lastInfo, rest, _, keptRest, clear⟩ := loaded
      rw [reserved_iff keptRest, Ifs2State.imageBlock_congr lastDst, sameImage, lastInfo, isInfo]
      rw [sameImage] at clear
      constructor
      · rintro ⟨_, beside⟩
        refine .inr (.inr (.inr fun place samePlace => ?_))
        rw [isPlace] at samePlace
        cases samePlace
        exact ⟨invalid, beside info rfl⟩
      · intro cases_of
        refine ⟨clear, fun place samePlace => ?_⟩
        cases samePlace
        rcases cases_of with anywhere | noRestore | outside | beside
        · exact aside (taken anywhere some_place)
        · rw [restores] at noRestore
          cases noRestore
        · exact aside outside
        · exact (beside info isPlace).2
  · next succeeded =>
      cases done
      rw [reserved_iff kept, sameImage, isInfo]
      constructor
      · rintro ⟨clear, beside⟩
        refine .inr (.inr (.inl ?_))
        exact (Set.disjoint_union_right.mpr ⟨clear, beside info rfl⟩).mono_right covers
      · intro cases_of
        have clear : Disjoint (next.imageBlock options) free := by
          rcases cases_of with anywhere | noRestore | outside | beside
          · exact taken anywhere some_place
          · rw [restores] at noRestore
            cases noRestore
          · exact outside
          · exact absurd (failed.mpr (beside info isPlace).1) succeeded
        refine ⟨clear.mono_right within, fun place samePlace => ?_⟩
        cases samePlace
        exact aside clear

/-- The image is reserved behind the restore or the load exactly in the cases described. -/
theorem restoreOrLoad_reserved_iff (unset : next.rifs2Info = none)
    (done : restoreOrLoad platform options next = .ok final) :
    Ifs2Reserved boot options final ↔ Ifs2Beside platform options next free := by
  unfold restoreOrLoad at done
  split at done
  · next restores =>
      obtain ⟨⟨middle, status⟩, restored, rest⟩ := bind_eq_ok.mp done
      exact restored_reserved_iff ready chosen fits taken restores restored rest
  · next noRestore =>
      refine iff_of_true (reserved_of_loaded ready chosen fits taken unset done) ?_
      exact .inr (.inl (Bool.eq_false_of_not_eq_true noRestore))

end Placed

/-- The image is reserved by `load_ifs2_nonbootable` exactly when the user chose no place, or
does not restore, or the place is not in `ram_list`, or there is no valid image there and the
restore information comes beside it. -/
theorem loadIfs2_reserved_iff {ram : RamState} {memory : Bytes.Memory} (ready : ram.Ready free)
    (loaded : loadIfs2Nonbootable platform options (options.start ram memory) = .ok final) :
    Ifs2Reserved boot options final ↔
      Ifs2Beside platform options (options.start ram memory) free := by
  obtain ⟨placed, isPlaced, done⟩ := bind_eq_ok.mp loaded
  unfold placeIfs2 at isPlaced
  split at isPlaced
  · next gives =>
      cases isPlaced
      have small := options.dst_lt
      refine restoreOrLoad_reserved_iff ready (fun _ isNull => ?_) (fun _ => options.dst_fits) ?_
        rfl done
      · have isTop : options.dst = nullPaddr := isNull
        simp only [nullPaddr] at isTop
        omega
      · intro anywhere
        rw [gives] at anywhere
        cases anywhere
  · next anywhere =>
      have anywhere := Bool.eq_false_of_not_eq_true anywhere
      obtain ⟨⟨cleared, addr⟩, allocated, same⟩ := bind_eq_ok.mp isPlaced
      cases same
      obtain ⟨⟨next, place⟩, took, isCleared⟩ := bind_eq_ok.mp allocated
      cases isCleared
      refine iff_of_true ?_ (.inl anywhere)
      have chosen : options.givesDst = true → addr ≠ nullPaddr := by
        intro gives
        rw [anywhere] at gives
        cases gives
      rcases (ready.allocAnywhere (by decide : 12 < 32) took).2 with
        ⟨isNull, kept⟩ | ⟨inMemory, _, kept⟩
      · refine (restoreOrLoad_reserved_iff kept chosen (fun some_place => absurd isNull some_place)
          (fun _ some_place => absurd isNull some_place) rfl done).mpr (.inl anywhere)
      · refine (restoreOrLoad_reserved_iff kept chosen (fun _ => inMemory) (fun _ _ => ?_) rfl
          done).mpr (.inl anywhere)
        exact Set.disjoint_sdiff_right

/-- A platform whose image file systems are marked "imagefs". -/
def imagefsPlatform : Ifs2Platform where
  imageSignature place := [0x69, 0x6d, 0x61, 0x67, 0x65, 0x66, 0x73].getD place 0
  imageSizeAt := 8
  fullImagefsPaddr := 0x90000
  storedSize := 0x20000
  startupSize := 0x10000
  secureSystem := false

/-- Memory with the image of the last boot at `0x101000` and zeros elsewhere. -/
def keptMemory : Bytes.Memory := fun address =>
  if 0x101000 ≤ address then imagefsPlatform.imageSignature (address - 0x101000) else 0

/-- RAM from `0x100000` to `0x110000`, and an avoid list. -/
def sixteenPages : RamState :=
  { RamState.initial with
    ram := some ⟨fun slot => if slot = 0 then ⟨0x100000, 0x10000⟩ else ⟨0, 0⟩, 32⟩
    avoid := some ⟨fun slot => if slot = 0 then ⟨0x80000, 0x90000⟩ else ⟨0, 0⟩, 32⟩ }

theorem sixteenPages_ready : sixteenPages.Ready (Set.Ico 0x100000 0x110000) := by
  have stores : RamTable.Stores
      ⟨fun slot => if slot = 0 then ⟨0x100000, 0x10000⟩ else ⟨0, 0⟩, 32⟩
      [⟨0x100000, 0x110000⟩] := by
    refine ⟨⟨fun slot first => ?_, fun entry member => ?_, rfl⟩, rfl, fun span member => ?_⟩
    · cases Nat.lt_one_iff.mp first
      rfl
    · rw [List.mem_singleton.mp member]
      exact nofun
    · rw [List.mem_singleton.mp member]
      decide
  have avoids : AvoidTable.Stores
      ⟨fun slot => if slot = 0 then ⟨0x80000, 0x90000⟩ else ⟨0, 0⟩, 32⟩
      [⟨0x80000, 0x90000⟩] := by
    refine ⟨⟨fun slot first => ?_, fun entry member => ?_, rfl⟩, rfl, fun entry member => ?_⟩
    · cases Nat.lt_one_iff.mp first
      rfl
    · rw [List.mem_singleton.mp member]
      exact nofun
    · rw [List.mem_singleton.mp member]
      decide
  refine ⟨⟨_, rfl, _, stores, ?_, ?_⟩, ⟨_, _, rfl, _, avoids, nofun, rfl⟩, ?_⟩
  · exact separated_cons.mpr ⟨by decide, nofun, separated_nil⟩
  · rw [cover_cons, cover_nil, Set.union_empty]
  · intro address inside
    have below := inside.2
    omega

/-- Restore an image of four pages at `0x101000`. -/
def restoreThere : Ifs2Options where
  rifsFlag := RIFS_FLAG_IFS2_RESTORE + RIFS_FLAG_IFS2_DST
  src := 0
  dst := 0x101000
  size := 0x4000
  dst_lt := by decide
  size_lt := by decide

theorem loaded_there_reserved : ∃ final,
    loadIfs2Nonbootable imagefsPlatform restoreThere
        (restoreThere.start sixteenPages fun _ => 0) = .ok final ∧
      Ifs2Reserved smallBoot restoreThere final := by
  have loads : ∃ final, loadIfs2Nonbootable imagefsPlatform restoreThere
      (restoreThere.start sixteenPages fun _ => 0) = .ok final := ⟨_, rfl⟩
  obtain ⟨final, loaded⟩ := loads
  refine ⟨final, loaded, (loadIfs2_reserved_iff sixteenPages_ready loaded).mpr ?_⟩
  refine .inr (.inr (.inr fun info isPlace => ?_))
  have first : infoPlace sixteenPages = .ok 0x100000 := rfl
  have same : Except.ok info = Except.ok 0x100000 := isPlace.symm.trans first
  cases same
  refine ⟨rfl, Set.disjoint_left.mpr fun address inImage inInfo => ?_⟩
  have above : 0x101000 ≤ address := inImage.1
  have below : address < 0x100000 + 16 := inInfo.2
  omega

/-- The image is found in place, and stays in free memory. -/
theorem restored_stays_free : ∃ final,
    loadIfs2Nonbootable imagefsPlatform restoreThere (restoreThere.start sixteenPages keptMemory) =
      .ok final ∧ ¬ Ifs2Reserved smallBoot restoreThere final := by
  have loads : ∃ final, loadIfs2Nonbootable imagefsPlatform restoreThere
      (restoreThere.start sixteenPages keptMemory) = .ok final := ⟨_, rfl⟩
  obtain ⟨final, loaded⟩ := loads
  refine ⟨final, loaded, fun reserved => ?_⟩
  have stored : (restoreThere.start sixteenPages keptMemory).ram.Ready
      (Set.Ico 0x100000 0x110000) := sixteenPages_ready
  have done : restoreOrLoad imagefsPlatform restoreThere
      (restoreThere.start sixteenPages keptMemory) = .ok final := loaded
  have cases_of := (restoreOrLoad_reserved_iff stored (fun _ => nofun)
    (fun _ => restoreThere.dst_fits) (fun anywhere => nomatch anywhere) rfl done).mp reserved
  rcases cases_of with anywhere | noRestore | outside | beside
  · cases anywhere
  · cases noRestore
  · exact Set.disjoint_left.mp outside ⟨le_rfl, by decide⟩
      (⟨by decide, by decide⟩ : 0x101000 ∈ Set.Ico 0x100000 0x110000)
  · have valid := (beside 0x100000 rfl).1
    cases valid

end Bcm2711.Startup
