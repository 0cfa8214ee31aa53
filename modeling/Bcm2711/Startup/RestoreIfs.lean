import Bcm2711.Startup.Ifs2

/-! # Restoring the image file system

The boot image is kept in RAM over a warm reset.  `rifs_save_elf32data` notes where the writeable
data of each bootable executable comes from and `rifs_set_cksum` seals these notes; the next boot
puts the data back and uses the image.  The notes of the primary image are accepted only with
their signature, those of the secondary image by their checksum alone.
-/

namespace Bcm2711.Startup

open Fallible

/-! ## The restore information -/

def RIFS_FLAG_CKSUM : Nat := 0x02

def RIFS_MAX_BOOTABLE : Nat := 5

/-- The size of `struct restore_ifs_info`: the signature, `cksum`, `image_size`, five entries of
sixteen bytes, `numboot`, and padding to a multiple of eight. -/
def sizeofRestoreIfsInfo : Nat := 104

/-- The boot image, beside what the secondary image needs of the platform. -/
structure IfsPlatform extends Ifs2Platform where
  fullImagePaddr : Nat
  /-- `shdr->flags1 & STARTUP_HDR_FLAGS1_COMPRESS_MASK`. -/
  compressed : Bool

/-- The variables of the restore code, the allocator and memory. -/
structure RifsState where
  ram : RamState
  memory : Bytes.Memory
  /-- The physical address behind `rifs_info`, null at first. -/
  rifsInfo : Option Nat

/-- `struct restore_ifs_elf`. -/
structure ElfInfo where
  offset : Nat
  size : Nat
  data : Nat
deriving DecidableEq, Repr

/-- The place of `elfinfo[index]`. -/
def elfinfoAt (info index : Nat) : Nat := info + 16 + 16 * index

/-- `rifs_info->elfinfo[index]`. -/
def elfinfo (memory : Bytes.Memory) (info index : Nat) : ElfInfo where
  offset := Bytes.load memory 4 (elfinfoAt info index)
  size := Bytes.load memory 4 (elfinfoAt info index + 4)
  data := Bytes.load memory 8 (elfinfoAt info index + 8)

/-- `rifs_info->numboot`. -/
def infoNumboot (memory : Bytes.Memory) (info : Nat) : Nat := Bytes.load memory 4 (info + 96)

/-- `rifs_info->cksum`, at the same place in both variants. -/
def infoCksum (memory : Bytes.Memory) (info : Nat) : Nat := Bytes.load memory 4 (info + 8)

/-- Copy `RIFS_SIGNATURE` to the information. -/
def signInfo (memory : Bytes.Memory) (info : Nat) : Bytes.Memory := fun address =>
  if info ≤ address then rifsSignature.getD (address - info) (memory address) else memory address

/-- `rifs_init`. -/
def rifsInit (memory : Bytes.Memory) (info : Nat) : Bytes.Memory :=
  Bytes.fill (signInfo memory info) (info + 8) 0 92

/-- Store the negated sum of the information at `cksum`. -/
def sealInfo (memory : Bytes.Memory) (info size : Nat) : Bytes.Memory :=
  Bytes.store memory 4 (info + 8) ((2 ^ 32 - rifsChecksum memory info size) % 2 ^ 32)

/-- `rifs_set_cksum`. -/
def rifsSetCksum (platform : IfsPlatform) (memory : Bytes.Memory) (info ifsHdr : Nat) :
    Bytes.Memory :=
  let sized := Bytes.store memory 4 (info + 12)
    (Bytes.load memory 4 (ifsHdr + platform.imageSizeAt))
  sealInfo sized info sizeofRestoreIfsInfo

/-! ## Saving the writeable data -/

/-- Where the fields of an ELF file lie. -/
structure ElfLayout where
  /-- The bytes of an address or an offset. -/
  word : Nat
  phoffAt : Nat
  phentsizeAt : Nat
  phnumAt : Nat
  flagsAt : Nat
  offsetAt : Nat
  fileszAt : Nat

/-- `Elf32_Ehdr` and `Elf32_Phdr`. -/
def elf32Layout : ElfLayout := ⟨4, 28, 42, 44, 24, 4, 16⟩

/-- `Elf64_Ehdr` and `Elf64_Phdr`. -/
def elf64Layout : ElfLayout := ⟨8, 32, 54, 56, 4, 8, 32⟩

def PT_LOAD : Nat := 1

def PF_W : Nat := 2

/-- The offset and the size of the first writeable segment, both cut to 32 bits. -/
def findWriteable (memory : Bytes.Memory) (layout : ElfLayout) (ptr size : Nat) :
    (num off : Nat) → Option (Nat × Nat)
  | 0, _ => none
  | num + 1, off =>
      if Bytes.load memory 4 (ptr + off) = PT_LOAD ∧
          Word.test (Bytes.load memory 4 (ptr + off + layout.flagsAt)) PF_W then
        some (Bytes.load memory layout.word (ptr + off + layout.offsetAt) % 2 ^ 32,
          Bytes.load memory layout.word (ptr + off + layout.fileszAt) % 2 ^ 32)
      else findWriteable memory layout ptr size num (Word.add 32 off size)

/-- `rifs_readelf`. -/
def rifsReadelf (memory : Bytes.Memory) (ptr : Nat) : Option (Nat × Nat) :=
  if Bytes.firstBytes (fun place => memory (ptr + place)) 4 ≠ [0x7f, 0x45, 0x4c, 0x46] then none
  else
    let layout := if memory (ptr + 4) = 2 then elf64Layout else elf32Layout
    findWriteable memory layout ptr (Bytes.load memory 2 (ptr + layout.phentsizeAt))
      (Bytes.load memory 2 (ptr + layout.phnumAt))
      (Bytes.load memory layout.word (ptr + layout.phoffAt) % 2 ^ 32)

/-- `copy_memory`, with the destination in the one-to-one area. -/
def copyMemory (memory : Bytes.Memory) (dst src len : Nat) : Result Bytes.Memory := do
  accessBlock dst len
  return Bytes.move memory dst src len

/-- Where the data of an executable lie in the image. -/
def ElfInfo.dst (platform : IfsPlatform) (entry : ElfInfo) : Nat :=
  addPaddr (addPaddr platform.fullImagePaddr platform.startupSize) entry.offset

/-- Where a restore takes the data of an executable from. -/
def ElfInfo.src (platform : IfsPlatform) (entry : ElfInfo) : Nat :=
  if platform.compressed then entry.data else addPaddr platform.fullImagefsPaddr entry.offset

/-- Count an executable and note where its data are. -/
def noteElfinfo (memory : Bytes.Memory) (info numboot offset size : Nat) : Bytes.Memory :=
  let counted := Bytes.store memory 4 (info + 96) (Word.add 32 (infoNumboot memory info) 1)
  let placed := Bytes.store counted 4 (elfinfoAt info numboot) offset
  Bytes.store placed 4 (elfinfoAt info numboot + 4) size

/-- The part of `rifs_save_elf32data` for a compressed image: keep a copy of the data. -/
def saveData (platform : IfsPlatform) (state : RifsState) (info numboot : Nat) :
    Result RifsState := do
  let size := (elfinfo state.memory info numboot).size
  let (ram, data) ← allocRam state.ram nullPaddr size sizeofUint64
  let cleared := clearBlock platform.toIfs2Platform state.memory data size
  let noted := Bytes.store cleared 8 (elfinfoAt info numboot + 8) data
  let entry := elfinfo noted info numboot
  let memory ← copyMemory noted entry.data (entry.dst platform) entry.size
  return { state with ram := ram, memory := memory }

/-- `rifs_save_elf32data`. -/
def rifsSaveElf32data (platform : IfsPlatform) (state : RifsState)
    (addr dirOffset numboot : Nat) : Result (RifsState × Int) :=
  if RIFS_MAX_BOOTABLE ≤ numboot then .ok (state, -1)
  else match rifsReadelf state.memory addr with
    | none => .ok (state, -1)
    | some (off, size) => do
        let info ← deref state.rifsInfo
        let state := { state with
          memory := noteElfinfo state.memory info numboot (Word.add 32 dirOffset off) size }
        let state ← if platform.compressed then saveData platform state info numboot else .ok state
        return (state, 0)

/-! ## Restoring -/

/-- `check_rifs_signature`. -/
def checkRifsSignature (memory : Bytes.Memory) (info : Nat) : Bool :=
  ((List.range 8).all fun place => memory (info + place) == rifsSignature.getD place 0) &&
    rifsChecksum memory info sizeofRestoreIfsInfo == 0

/-- The loop of `rifs_restore_ifs` puts the writeable data back, from the executable at `index`
on; the entries and their number are read in each round. -/
def restoreFrom (platform : IfsPlatform) (info : Nat) (memory : Bytes.Memory) (index : Nat) :
    Result Bytes.Memory :=
  if index < infoNumboot memory info then do
    let entry := elfinfo memory info index
    let restored ← copyMemory memory (entry.dst platform) (entry.src platform) entry.size
    restoreFrom platform info restored (index + 1)
  else .ok memory
termination_by 2 ^ 32 - index
decreasing_by
  have bound := Bytes.load_lt memory 4 (info + 96)
  simp only [infoNumboot] at *
  omega

/-- What `rifs_restore_ifs` does with an image whose signatures are right. -/
def restoreChecked (platform : IfsPlatform) (rifsFlag : Nat) (memory : Bytes.Memory)
    (ifsHdr info : Nat) : Result (Bytes.Memory × Int) := do
  let memory ← restoreFrom platform info memory 0
  if Word.test rifsFlag RIFS_FLAG_CKSUM then
    accessBlock ifsHdr (infoImageSize memory info)
    if rifsChecksum memory ifsHdr (infoImageSize memory info) ≠ 0 then return (memory, -1)
    else return (memory, 0)
  else return (memory, 0)

/-- `rifs_restore_ifs`, between the allocation and `rifs_init`. -/
def checkAndRestore (platform : IfsPlatform) (rifsFlag : Nat) (memory : Bytes.Memory)
    (ifsHdr info : Nat) : Result (Bytes.Memory × Int) := do
  accessBlock ifsHdr 7
  if checkIfsSignature platform.toIfs2Platform memory ifsHdr then
    accessBlock info sizeofRestoreIfsInfo
    if checkRifsSignature memory info then
      restoreChecked platform rifsFlag memory ifsHdr info
    else return (memory, -1)
  else return (memory, -1)

/-- `rifs_restore_ifs`. -/
def rifsRestoreIfs (platform : IfsPlatform) (rifsFlag : Nat) (state : RifsState)
    (ifsPaddr : Nat) : Result (RifsState × Int) := do
  let (ram, paddr) ← allocRam state.ram nullPaddr sizeofRestoreIfsInfo sizeofUint64
  let memory := clearBlock platform.toIfs2Platform state.memory paddr sizeofRestoreIfsInfo
  let (memory, status) ← checkAndRestore platform rifsFlag memory ifsPaddr paddr
  accessBlock paddr sizeofRestoreIfsInfo
  return (⟨ram, rifsInit memory paddr, some paddr⟩, status)

/-! ## What a restore promises -/

/-- The information carries `RIFS_SIGNATURE`. -/
def CarriesSignature (memory : Bytes.Memory) (info : Nat) : Prop :=
  ∀ place < 8, memory (info + place) = rifsSignature.getD place 0

/-- An image lies at an address: it has its signature and, where checksums are on, sums to
zero. -/
structure IsImage (platform : Ifs2Platform) (checked : Bool) (memory : Bytes.Memory)
    (hdr size : Nat) : Prop where
  signature : checkIfsSignature platform memory hdr = true
  sums : checked = true → rifsChecksum memory hdr size = 0
  header : hdr + 7 < 2 ^ 64
  fits : hdr + size < 2 ^ 64

/-- The information is signed, and its checksum still clear. -/
structure Unsealed (memory : Bytes.Memory) (info : Nat) : Prop where
  signature : CarriesSignature memory info
  clear : infoCksum memory info = 0
  few : infoNumboot memory info ≤ RIFS_MAX_BOOTABLE

/-- The place of the writeable data of an executable in the image. -/
def dataBlock (platform : IfsPlatform) (memory : Bytes.Memory) (info index : Nat) : Set Nat :=
  let entry := elfinfo memory info index
  Set.Ico (entry.dst platform) (entry.dst platform + entry.size)

/-- What a restore needs of an executable: the data of the original image are still where they
come from, and putting back other data does not overwrite them. -/
structure Restorable (platform : IfsPlatform) (original memory : Bytes.Memory) (info : Nat)
    (entry : ElfInfo) : Prop where
  fits : entry.dst platform + entry.size < 2 ^ 64
  saved : ∀ place < entry.size,
    memory (entry.src platform + place) = original (entry.dst platform + place)
  apart : entry.src platform = entry.dst platform ∨
    ∀ other < infoNumboot memory info, Disjoint (dataBlock platform memory info other)
      (Set.Ico (entry.src platform) (entry.src platform + entry.size))
  beside : Disjoint (Set.Ico (entry.dst platform) (entry.dst platform + entry.size))
    (Set.Ico info (info + sizeofRestoreIfsInfo))

/-- RAM still holds an image that `rifs_set_cksum` recorded: the information is as it was left,
and only the writeable data of the image may differ from the original. -/
structure Survived (platform : IfsPlatform) (checked : Bool) (original memory : Bytes.Memory)
    (info ifsPaddr : Nat) : Prop where
  recorded : ∃ before, Unsealed before info ∧ ∀ place < sizeofRestoreIfsInfo,
    memory (info + place) = rifsSetCksum platform before info ifsPaddr (info + place)
  fits : info + sizeofRestoreIfsInfo < 2 ^ 64
  header : checkIfsSignature platform.toIfs2Platform memory ifsPaddr = true
  image : IsImage platform.toIfs2Platform checked original ifsPaddr (infoImageSize memory info)
  kept : ∀ place < 4 * ((infoImageSize memory info + 3) / 4),
    memory (ifsPaddr + place) = original (ifsPaddr + place) ∨
      ∃ index < infoNumboot memory info, ifsPaddr + place ∈ dataBlock platform memory info index
  data : ∀ index < infoNumboot memory info,
    Restorable platform original memory info (elfinfo memory info index)

/-- RAM still holds an image that `rifs_load_ifs2` recorded. -/
structure Survived2 (platform : Ifs2Platform) (options : Ifs2Options) (memory : Bytes.Memory)
    (info dst : Nat) : Prop where
  recorded : ∃ before last, rifsLoadIfs2 platform options before = .ok last ∧
    last.rifs2Info = some info ∧ ∀ place < sizeofRestoreIfs2Info,
      memory (info + place) = last.memory (info + place)
  restores : options.restores = true
  image : IsImage platform (Word.test options.rifsFlag RIFS_FLAG_IFS2_CKSUM) memory dst
    (infoImageSize memory info)

/-- What is recorded is accepted by the next boot, and only what carries the signature and has
the right checksums is accepted.  The information is read after `alloc_ram`. -/
structure RestoreIntegrity (platform : IfsPlatform) (options : Ifs2Options) (ifsPaddr : Nat)
    (primary : RifsState) (secondary : Ifs2State) : Prop where
  accepted : ∀ ram info original,
    allocRam primary.ram nullPaddr sizeofRestoreIfsInfo sizeofUint64 = .ok (ram, info) →
      Survived platform (Word.test options.rifsFlag RIFS_FLAG_CKSUM) original
        (clearBlock platform.toIfs2Platform primary.memory info sizeofRestoreIfsInfo)
        info ifsPaddr →
      ∃ final, rifsRestoreIfs platform options.rifsFlag primary ifsPaddr = .ok (final, 0)
  sound : ∀ final info, rifsRestoreIfs platform options.rifsFlag primary ifsPaddr =
      .ok (final, 0) → final.rifsInfo = some info →
    ∀ memory, memory =
        clearBlock platform.toIfs2Platform primary.memory info sizeofRestoreIfsInfo →
      CarriesSignature memory info ∧ rifsChecksum memory info sizeofRestoreIfsInfo = 0 ∧
        (Word.test options.rifsFlag RIFS_FLAG_CKSUM = true →
          ∃ restored, restoreFrom platform info memory 0 = .ok restored ∧
            rifsChecksum restored ifsPaddr (infoImageSize restored info) = 0)
  accepted2 : ∀ ram info,
    allocRam secondary.ram nullPaddr sizeofRestoreIfs2Info sizeofUint64 = .ok (ram, info) →
      Survived2 platform.toIfs2Platform options
        (clearBlock platform.toIfs2Platform secondary.memory info sizeofRestoreIfs2Info)
        info secondary.ifs2PaddrDst →
      ∃ final, rifsRestoreIfs2 platform.toIfs2Platform options secondary = .ok (final, 0)
  sound2 : ∀ final info, rifsRestoreIfs2 platform.toIfs2Platform options secondary =
      .ok (final, 0) → final.rifs2Info = some info →
    ∀ memory, memory =
        clearBlock platform.toIfs2Platform secondary.memory info sizeofRestoreIfs2Info →
      CarriesSignature memory info ∧ rifsChecksum memory info sizeofRestoreIfs2Info = 0 ∧
        (Word.test options.rifsFlag RIFS_FLAG_IFS2_CKSUM = true →
          rifsChecksum memory secondary.ifs2PaddrDst (infoImageSize memory info) = 0)

/-- The blocks that `rifs_restore_ifs2` reads are in memory. -/
structure Ifs2InMemory (options : Ifs2Options) (memory : Bytes.Memory) (ifs2Hdr info : Nat) :
    Prop where
  header : ifs2Hdr + 7 < 2 ^ 64
  block : info + sizeofRestoreIfs2Info < 2 ^ 64
  image : Word.test options.rifsFlag RIFS_FLAG_IFS2_CKSUM = true →
    ifs2Hdr + infoImageSize memory info < 2 ^ 64

/-- Where the place of the restore information passes the checks of `rifs_restore_ifs2`, its
first eight bytes are the signature. -/
def Ifs2Signed (platform : Ifs2Platform) (options : Ifs2Options) (state : Ifs2State) : Prop :=
  ∀ ram info, allocRam state.ram nullPaddr sizeofRestoreIfs2Info sizeofUint64 = .ok (ram, info) →
    let memory := clearBlock platform state.memory info sizeofRestoreIfs2Info
    Ifs2InMemory options memory state.ifs2PaddrDst info →
      ifs2Valid platform options memory state.ifs2PaddrDst info = true →
        CarriesSignature memory info

/-! ## Checksums -/

section Checksum

variable {memory : Bytes.Memory} {addr info len : Nat}

/-- The sum of the words from an address on. -/
def wordSum (memory : Bytes.Memory) (addr count : Nat) : Nat :=
  ∑ word ∈ Finset.range count, Bytes.load memory 4 (addr + 4 * word)

/-- `rifs_checksum` is the sum of the words, cut to 32 bits. -/
theorem rifsChecksum_eq :
    rifsChecksum memory addr len = wordSum memory addr ((len + 3) / 4) % 2 ^ 32 := by
  have sums : ∀ count, (List.range count).foldl
      (fun sum word => Word.add 32 sum (Bytes.load memory 4 (addr + 4 * word))) 0 =
        wordSum memory addr count % 2 ^ 32 := by
    intro count
    induction count with
    | zero => rfl
    | succ count sum =>
        have longer : wordSum memory addr (count + 1) =
            wordSum memory addr count + Bytes.load memory 4 (addr + 4 * count) :=
          Finset.sum_range_succ _ _
        rw [List.range_succ, List.foldl_append, sum, longer]
        exact Nat.mod_add_mod _ _ _
  exact sums _

/-- Equal bytes have equal sums. -/
theorem rifsChecksum_congr {other : Bytes.Memory} {first second : Nat}
    (same : ∀ place < 4 * ((len + 3) / 4), memory (first + place) = other (second + place)) :
    rifsChecksum memory first len = rifsChecksum other second len := by
  rw [rifsChecksum_eq, rifsChecksum_eq]
  refine congrArg (· % 2 ^ 32) (Finset.sum_congr rfl fun word inside => ?_)
  have below := Finset.mem_range.mp inside
  refine Bytes.load_congr fun place small => ?_
  rw [Nat.add_assoc, Nat.add_assoc]
  exact same _ (by omega)

/-- Sealed information sums to zero. -/
theorem sealInfo_sum (long : 12 ≤ len) (clear : infoCksum memory info = 0) :
    rifsChecksum (sealInfo memory info len) info len = 0 := by
  set value := (2 ^ 32 - rifsChecksum memory info len) % 2 ^ 32 with isValue
  have inRange : 2 ∈ Finset.range ((len + 3) / 4) := Finset.mem_range.mpr (by omega)
  have stored : Bytes.load (sealInfo memory info len) 4 (info + 4 * 2) = value := by
    refine Bytes.load_store.trans (Nat.mod_eq_of_lt ?_)
    exact Nat.mod_lt _ (Nat.two_pow_pos 32)
  have others : ∀ word ∈ (Finset.range ((len + 3) / 4)).erase 2,
      Bytes.load (sealInfo memory info len) 4 (info + 4 * word) =
        Bytes.load memory 4 (info + 4 * word) := by
    intro word member
    have apart := (Finset.mem_erase.mp member).1
    exact Bytes.load_store_of_disjoint (by omega)
  have whole := Finset.add_sum_erase _ (fun word =>
    Bytes.load (sealInfo memory info len) 4 (info + 4 * word)) inRange
  have before := Finset.add_sum_erase _ (fun word => Bytes.load memory 4 (info + 4 * word)) inRange
  have isClear : Bytes.load memory 4 (info + 4 * 2) = 0 := clear
  rw [stored, Finset.sum_congr rfl others] at whole
  rw [isClear, Nat.zero_add] at before
  rw [rifsChecksum_eq, wordSum, ← whole, before]
  have sum : rifsChecksum memory info len = wordSum memory info ((len + 3) / 4) % 2 ^ 32 :=
    rifsChecksum_eq
  rw [wordSum] at sum
  omega

end Checksum

theorem accessBlock_ok {addr size : Nat} (fits : addr + size < 2 ^ 64) :
    accessBlock addr size = .ok () := by
  rw [accessBlock, if_pos fits]

/-- The signature is compared byte by byte. -/
theorem checkRifsSignature_iff {memory : Bytes.Memory} {info : Nat} :
    checkRifsSignature memory info = true ↔
      CarriesSignature memory info ∧ rifsChecksum memory info sizeofRestoreIfsInfo = 0 := by
  rw [checkRifsSignature, Bool.and_eq_true, List.all_eq_true]
  refine and_congr ?_ beq_iff_eq
  constructor
  · intro same place below
    exact beq_iff_eq.mp (same place (List.mem_range.mpr below))
  · intro same place member
    exact beq_iff_eq.mpr (same place (List.mem_range.mp member))

/-! ## What is recorded -/

section Record

variable {platform : IfsPlatform} {memory before other : Bytes.Memory} {info ifsHdr : Nat}

/-- Signing writes the signature. -/
theorem signInfo_signature : CarriesSignature (signInfo memory info) info := by
  intro place below
  rw [signInfo, if_pos (Nat.le_add_right info place), Nat.add_sub_cancel_left]
  have inside : place < rifsSignature.length := below
  rw [List.getD_eq_getElem _ _ inside, List.getD_eq_getElem _ _ inside]

/-- The signature stays when the first eight bytes do. -/
theorem CarriesSignature.congr (signed : CarriesSignature memory info)
    (same : ∀ place < 8, other (info + place) = memory (info + place)) :
    CarriesSignature other info :=
  fun place below => (same place below).trans (signed place below)

/-- `rifs_init` leaves signed information without entries. -/
theorem rifsInit_unsealed : Unsealed (rifsInit memory info) info := by
  have signed : CarriesSignature (signInfo memory info) info := signInfo_signature
  refine ⟨signed.congr fun place below => ?_, ?_, ?_⟩
  · exact Bytes.fill_of_not_mem (by omega)
  · refine Bytes.load_zeros fun place below => ?_
    exact Bytes.fill_of_mem (by omega)
  · have none : infoNumboot (rifsInit memory info) info = 0 := by
      refine Bytes.load_zeros fun place below => ?_
      exact Bytes.fill_of_mem (by omega)
    rw [none]
    exact Nat.zero_le _

/-- `rifs_set_cksum` keeps the signature and makes the information sum to zero. -/
theorem rifsSetCksum_sealed (unsealed : Unsealed before info) :
    CarriesSignature (rifsSetCksum platform before info ifsHdr) info ∧
      rifsChecksum (rifsSetCksum platform before info ifsHdr) info sizeofRestoreIfsInfo = 0 := by
  refine ⟨unsealed.signature.congr fun place below => ?_, ?_⟩
  · refine (Bytes.store_of_not_mem (by omega)).trans ?_
    exact Bytes.store_of_not_mem (by omega)
  · refine sealInfo_sum (by decide) ?_
    exact (Bytes.load_store_of_disjoint (by omega)).trans unsealed.clear

/-- `rifs_set_cksum` keeps the number of executables. -/
theorem rifsSetCksum_numboot :
    infoNumboot (rifsSetCksum platform before info ifsHdr) info = infoNumboot before info := by
  refine (Bytes.load_store_of_disjoint (by omega)).trans ?_
  exact Bytes.load_store_of_disjoint (by omega)

/-- `rifs_load_ifs2` leaves information that sums to zero. -/
theorem saveInfo_sum (platform : Ifs2Platform) :
    rifsChecksum (saveInfo platform memory ifsHdr info) info sizeofRestoreIfs2Info = 0 := by
  refine sealInfo_sum (by decide) ?_
  exact Bytes.load_store

/-- Writes to one entry keep the rest of the information. -/
theorem Unsealed.write {numboot : Nat} (unsealed : Unsealed memory info)
    (few : numboot < RIFS_MAX_BOOTABLE)
    (same : ∀ address, address < elfinfoAt info numboot ∨ elfinfoAt info numboot + 16 ≤ address →
      other address = memory address) :
    Unsealed other info ∧ infoNumboot other info = infoNumboot memory info ∧
      ∀ index < numboot, elfinfo other info index = elfinfo memory info index := by
  have small : numboot < 5 := few
  have place : elfinfoAt info numboot = info + 16 + 16 * numboot := rfl
  have count : infoNumboot other info = infoNumboot memory info := by
    refine Bytes.load_congr fun byte inside => ?_
    exact same _ (by omega)
  refine ⟨⟨unsealed.signature.congr fun byte below => ?_, ?_, ?_⟩, count, ?_⟩
  · exact same _ (by omega)
  · refine (Bytes.load_congr fun byte below => ?_).trans unsealed.clear
    exact same _ (by omega)
  · rw [count]
    exact unsealed.few
  · intro index below
    have earlier : ∀ width offset, offset + width ≤ 16 →
        Bytes.load other width (elfinfoAt info index + offset) =
          Bytes.load memory width (elfinfoAt info index + offset) := by
      intro width offset fits
      have before : elfinfoAt info index = info + 16 + 16 * index := rfl
      refine Bytes.load_congr fun byte inside => ?_
      exact same _ (by omega)
    have first := earlier 4 0 (by omega)
    rw [Nat.add_zero] at first
    rw [elfinfo, elfinfo, first, earlier 4 4 (by omega), earlier 8 8 (by omega)]

/-- Noting an executable keeps the information unsealed and the earlier entries. -/
theorem noteElfinfo_unsealed {numboot offset size : Nat} (unsealed : Unsealed memory info)
    (counted : infoNumboot memory info = numboot) (few : numboot < RIFS_MAX_BOOTABLE) :
    Unsealed (noteElfinfo memory info numboot offset size) info ∧
      infoNumboot (noteElfinfo memory info numboot offset size) info = numboot + 1 ∧
      ∀ index < numboot, elfinfo (noteElfinfo memory info numboot offset size) info index =
        elfinfo memory info index := by
  have small : numboot < 5 := few
  set more := Bytes.store memory 4 (info + 96) (Word.add 32 (infoNumboot memory info) 1)
    with isMore
  have count : infoNumboot more info = numboot + 1 := by
    refine Bytes.load_store.trans ?_
    rw [counted, Word.add_of_lt (by omega)]
    exact Nat.mod_eq_of_lt (by omega)
  have unsealedMore : Unsealed more info := by
    refine ⟨unsealed.signature.congr fun byte below => ?_, ?_, ?_⟩
    · exact Bytes.store_of_not_mem (by omega)
    · exact (Bytes.load_store_of_disjoint (by omega)).trans unsealed.clear
    · rw [count]
      exact few
  have inEntry : ∀ address,
      address < elfinfoAt info numboot ∨ elfinfoAt info numboot + 16 ≤ address →
        noteElfinfo memory info numboot offset size address = more address := by
    intro address outside
    refine (Bytes.store_of_not_mem (by omega)).trans ?_
    exact Bytes.store_of_not_mem (by omega)
  obtain ⟨kept, sameCount, earlier⟩ := unsealedMore.write few inEntry
  refine ⟨kept, sameCount.trans count, fun index below => (earlier index below).trans ?_⟩
  have beside : ∀ width offset, offset + width ≤ 16 →
      Bytes.load more width (elfinfoAt info index + offset) =
        Bytes.load memory width (elfinfoAt info index + offset) := by
    intro width offset fits
    have before : elfinfoAt info index = info + 16 + 16 * index := rfl
    exact Bytes.load_store_of_disjoint (by omega)
  have first := beside 4 0 (by omega)
  rw [Nat.add_zero] at first
  rw [elfinfo, elfinfo, first, beside 4 4 (by omega), beside 8 8 (by omega)]

/-- An entry is read from its sixteen bytes. -/
theorem elfinfo_congr {other : Bytes.Memory} {index : Nat} (few : index < RIFS_MAX_BOOTABLE)
    (same : ∀ place < sizeofRestoreIfsInfo, other (info + place) = memory (info + place)) :
    elfinfo other info index = elfinfo memory info index := by
  have inside : ∀ width place, place + width ≤ sizeofRestoreIfsInfo →
      Bytes.load other width (info + place) = Bytes.load memory width (info + place) := by
    intro width place fits
    refine Bytes.load_congr fun byte below => ?_
    rw [Nat.add_assoc]
    exact same _ (by omega)
  have bound : index < 5 := few
  unfold elfinfo elfinfoAt
  rw [Nat.add_assoc info 16, Nat.add_assoc info, Nat.add_assoc info,
    inside 4 _ (by rw [sizeofRestoreIfsInfo]; omega),
    inside 4 _ (by rw [sizeofRestoreIfsInfo]; omega),
    inside 8 _ (by rw [sizeofRestoreIfsInfo]; omega)]

/-- The number of executables is read from the information. -/
theorem infoNumboot_congr {other : Bytes.Memory}
    (same : ∀ place < sizeofRestoreIfsInfo, other (info + place) = memory (info + place)) :
    infoNumboot other info = infoNumboot memory info := by
  refine Bytes.load_congr fun byte below => ?_
  rw [Nat.add_assoc]
  exact same _ (by rw [sizeofRestoreIfsInfo]; omega)

/-- The information stays unsealed while its bytes stay. -/
theorem Unsealed.congr (unsealed : Unsealed memory info)
    (same : ∀ place < sizeofRestoreIfsInfo, other (info + place) = memory (info + place)) :
    Unsealed other info := by
  refine ⟨unsealed.signature.congr fun place below => ?_, ?_, ?_⟩
  · exact same place (below.trans (by decide))
  · refine (Bytes.load_congr fun place below => ?_).trans unsealed.clear
    rw [Nat.add_assoc]
    exact same _ (by rw [sizeofRestoreIfsInfo]; omega)
  · rw [infoNumboot_congr same]
    exact unsealed.few

/-- Without a secure system `alloc_ram` clears nothing. -/
theorem clearBlock_insecure {platform : Ifs2Platform} {addr size : Nat}
    (insecure : platform.secureSystem = false) :
    clearBlock platform memory addr size = memory := by
  refine if_neg fun secure => ?_
  rw [insecure] at secure
  cases secure.1

/-- A copy reads and writes memory below the top. -/
theorem copyMemory_ok {dst src len : Nat} {after : Bytes.Memory}
    (copied : copyMemory memory dst src len = .ok after) :
    dst + len < 2 ^ 64 ∧ after = Bytes.move memory dst src len := by
  obtain ⟨_, accessed, same⟩ := bind_eq_ok.mp copied
  exact ⟨accessed_below accessed, (Except.ok.inj same).symm⟩

/-- A copy of the data of an executable leaves the rest of the information, and is where a
restore looks for it. -/
theorem saveData_ok {state next : RifsState} {free : Set Nat} {numboot : Nat}
    (ready : state.ram.Ready free) (insecure : platform.secureSystem = false)
    (taken : Disjoint (Set.Ico info (info + sizeofRestoreIfsInfo)) free)
    (saved : saveData platform state info numboot = .ok next) :
    ∃ data, let noted := Bytes.store state.memory 8 (elfinfoAt info numboot + 8) data
      (∀ place < sizeofRestoreIfsInfo, next.memory (info + place) = noted (info + place)) ∧
      let entry := elfinfo noted info numboot
      ∀ place < entry.size,
        next.memory (entry.data + place) = noted (entry.dst platform + place) := by
  obtain ⟨⟨ram, data⟩, allocated, rest⟩ := bind_eq_ok.mp saved
  dsimp only at rest
  rw [clearBlock_insecure insecure] at rest
  obtain ⟨memory, copied, rest⟩ := bind_eq_ok.mp rest
  have isNext : next.memory = memory := by
    rw [← Except.ok.inj rest]
  obtain ⟨accessed, isMemory⟩ := copyMemory_ok copied
  refine ⟨data, ?_⟩
  intro noted
  have sameSize : (elfinfo noted info numboot).size = (elfinfo state.memory info numboot).size :=
    Bytes.load_store_of_disjoint (by omega)
  have isData : (elfinfo noted info numboot).data = data % 256 ^ 8 := Bytes.load_store
  rw [isNext, isMemory]
  refine ⟨fun place below => ?_, fun place below => Bytes.move_of_mem below⟩
  refine Bytes.move_of_not_mem ?_
  by_contra inside
  rw [not_or, not_lt, not_le] at inside
  rcases (ready.allocAnywhere (by decide : 3 < 32) allocated).2 with
    ⟨isNull, _⟩ | ⟨fits, block, _⟩
  · rw [isData, isNull] at accessed inside
    have top : nullPaddr % 256 ^ 8 = 2 ^ 64 - 1 := by decide
    omega
  · rw [isData, sameSize, Nat.mod_eq_of_lt (by omega)] at inside
    refine Set.disjoint_left.mp taken ?_ (block inside)
    exact ⟨Nat.le_add_right _ _, Nat.add_lt_add_left below info⟩

/-- Saving the data of an executable keeps the information unsealed and the earlier entries. -/
theorem rifsSaveElf32data_unsealed {state next : RifsState} {free : Set Nat}
    {addr dirOffset numboot : Nat} (ready : state.ram.Ready free)
    (insecure : platform.secureSystem = false) (isInfo : state.rifsInfo = some info)
    (unsealed : Unsealed state.memory info) (counted : infoNumboot state.memory info = numboot)
    (taken : Disjoint (Set.Ico info (info + sizeofRestoreIfsInfo)) free)
    (saved : rifsSaveElf32data platform state addr dirOffset numboot = .ok (next, 0)) :
    Unsealed next.memory info ∧ infoNumboot next.memory info = numboot + 1 ∧
      ∀ index < numboot, elfinfo next.memory info index = elfinfo state.memory info index := by
  unfold rifsSaveElf32data at saved
  split at saved
  · cases saved
  · next more =>
      have few : numboot < RIFS_MAX_BOOTABLE := not_le.mp more
      split at saved
      · cases saved
      · next off size isElf =>
          obtain ⟨place, isPlace, rest⟩ := bind_eq_ok.mp saved
          rw [isInfo] at isPlace
          cases isPlace
          obtain ⟨kept, count, earlier⟩ :=
            @noteElfinfo_unsealed state.memory info numboot (Word.add 32 dirOffset off) size
              unsealed counted few
          dsimp only at rest
          split at rest
          · obtain ⟨last, saved, same⟩ := bind_eq_ok.mp rest
            have isNext : last = next := congrArg Prod.fst (Except.ok.inj same)
            rw [isNext] at saved
            have readyNoted : RamState.Ready (RifsState.ram { state with
                memory := noteElfinfo state.memory info numboot (Word.add 32 dirOffset off) size })
              free := ready
            obtain ⟨data, same, _⟩ := saveData_ok readyNoted insecure taken saved
            obtain ⟨stored, sameCount, before⟩ := kept.write few fun address outside =>
              @Bytes.store_of_not_mem _ 8 (elfinfoAt info numboot + 8) data address (by omega)
            refine ⟨stored.congr same, (infoNumboot_congr same).trans (sameCount.trans count), ?_⟩
            intro index below
            rw [elfinfo_congr (below.trans few) same, before index below]
            exact earlier index below
          · have isNext : _ = next := congrArg Prod.fst (Except.ok.inj rest)
            rw [← isNext]
            exact ⟨kept, count, earlier⟩

/-- `rifs_load_ifs2` writes nothing beside the information. -/
theorem saveInfo_beside {platform : Ifs2Platform} {address : Nat}
    (outside : address ∉ Set.Ico info (info + sizeofRestoreIfs2Info)) :
    saveInfo platform memory ifsHdr info address = memory address := by
  have apart : address < info ∨ info + 16 ≤ address := by
    by_contra inside
    rw [not_or, not_lt, not_le] at inside
    exact outside inside
  refine (Bytes.store_of_not_mem (by omega)).trans ?_
  refine (Bytes.store_of_not_mem (by omega)).trans ?_
  refine (Bytes.store_of_not_mem (by omega)).trans ?_
  split
  · refine List.getD_eq_default _ _ ?_
    have short : rifsSignature.length = 8 := rfl
    omega
  · rfl

/-- `rifs_load_ifs2` notes the size in the header of the image. -/
theorem saveInfo_imageSize {platform : Ifs2Platform}
    (beside : ∀ place < 4, ifsHdr + platform.imageSizeAt + place ∉
      Set.Ico info (info + sizeofRestoreIfs2Info)) :
    infoImageSize (saveInfo platform memory ifsHdr info) info =
      Bytes.load memory 4 (ifsHdr + platform.imageSizeAt) := by
  have signed : Bytes.load (signInfo memory info) 4 (ifsHdr + platform.imageSizeAt) =
      Bytes.load memory 4 (ifsHdr + platform.imageSizeAt) := by
    refine Bytes.load_congr fun place below => ?_
    have outside := beside place below
    rw [signInfo]
    split
    · refine List.getD_eq_default _ _ ?_
      have short : rifsSignature.length = 8 := rfl
      simp only [Set.mem_Ico, sizeofRestoreIfs2Info] at outside
      omega
    · rfl
  refine (Bytes.load_store_of_disjoint (by omega)).trans ?_
  refine (Bytes.load_store_of_disjoint (by omega)).trans ?_
  refine Bytes.load_store.trans ?_
  rw [Nat.mod_eq_of_lt (Bytes.load_lt _ _ _)]
  exact signed

end Record

/-! ## What a restore puts back -/

section Restore

variable {platform : IfsPlatform} {checked : Bool} {original memory : Bytes.Memory}
  {info ifsPaddr : Nat}

/-- The data of the first executables are those of the original image, and the rest is as
before. -/
structure PutBack (platform : IfsPlatform) (original memory : Bytes.Memory) (info count : Nat)
    (current : Bytes.Memory) : Prop where
  back : ∀ index < count, ∀ address ∈ dataBlock platform memory info index,
    current address = original address
  kept : ∀ address, (∀ index < count, address ∉ dataBlock platform memory info index) →
    current address = memory address

variable (few : infoNumboot memory info ≤ RIFS_MAX_BOOTABLE)
  (data : ∀ index < infoNumboot memory info,
    Restorable platform original memory info (elfinfo memory info index))

include data

/-- Putting data back leaves the information alone. -/
theorem PutBack.spares {count : Nat} {current : Bytes.Memory}
    (putBack : PutBack platform original memory info count current)
    (within : count ≤ infoNumboot memory info) :
    ∀ place < sizeofRestoreIfsInfo, current (info + place) = memory (info + place) := by
  intro place below
  refine putBack.kept _ fun index small inside => ?_
  have beside := (data index (small.trans_le within)).beside
  refine Set.disjoint_left.mp beside inside ⟨Nat.le_add_right _ _, ?_⟩
  exact Nat.add_lt_add_left below info

/-- The source of an executable still holds the data of the original image. -/
theorem PutBack.source {count index place : Nat} {current : Bytes.Memory}
    (putBack : PutBack platform original memory info count current)
    (within : count ≤ infoNumboot memory info) (counted : index < infoNumboot memory info)
    (inside : place < (elfinfo memory info index).size) :
    current ((elfinfo memory info index).src platform + place) =
      original ((elfinfo memory info index).dst platform + place) := by
  have entry := data index counted
  by_cases written : ∃ other < count,
      (elfinfo memory info index).src platform + place ∈ dataBlock platform memory info other
  · obtain ⟨other, below, member⟩ := written
    rcases entry.apart with same | apart
    · rw [putBack.back other below _ member, same]
    · refine absurd ?_ (Set.disjoint_left.mp (apart other (below.trans_le within)) member)
      exact ⟨Nat.le_add_right _ _, Nat.add_lt_add_left inside _⟩
  · have untouched : ∀ other < count, (elfinfo memory info index).src platform + place ∉
        dataBlock platform memory info other :=
      fun other below member => written ⟨other, below, member⟩
    exact (putBack.kept _ untouched).trans (entry.saved place inside)

/-- One round puts back the data of one more executable. -/
theorem PutBack.step {index : Nat} {current : Bytes.Memory}
    (putBack : PutBack platform original memory info index current)
    (counted : index < infoNumboot memory info) :
    let entry := elfinfo memory info index
    PutBack platform original memory info (index + 1)
      (Bytes.move current (entry.dst platform) (entry.src platform) entry.size) := by
  intro entry
  have moved : ∀ address ∈ dataBlock platform memory info index,
      Bytes.move current (entry.dst platform) (entry.src platform) entry.size address =
        original address := by
    intro address inside
    obtain ⟨place, rfl⟩ := Nat.exists_eq_add_of_le inside.1
    have below : place < entry.size := Nat.lt_of_add_lt_add_left inside.2
    rw [Bytes.move_of_mem below]
    exact putBack.source data counted.le counted below
  have spared : ∀ address ∉ dataBlock platform memory info index,
      Bytes.move current (entry.dst platform) (entry.src platform) entry.size address =
        current address := by
    intro address outside
    refine Bytes.move_of_not_mem ?_
    by_contra inside
    rw [not_or, not_lt, not_le] at inside
    exact outside inside
  refine ⟨fun other below address member => ?_, fun address outside => ?_⟩
  · by_cases here : address ∈ dataBlock platform memory info index
    · exact moved address here
    · rw [spared address here]
      rcases Nat.lt_succ_iff_lt_or_eq.mp below with before | rfl
      · exact putBack.back other before address member
      · exact absurd member here
  · rw [spared address (outside index (Nat.lt_succ_self index))]
    exact putBack.kept address fun other below => outside other (Nat.lt_succ_of_lt below)

include few

/-- The loop puts back the data of all executables. -/
theorem restoreFrom_ok {count index : Nat} {current : Bytes.Memory}
    (putBack : PutBack platform original memory info index current)
    (left : index + count = infoNumboot memory info) :
    ∃ restored, restoreFrom platform info current index = .ok restored ∧
      PutBack platform original memory info (infoNumboot memory info) restored := by
  induction count generalizing index current with
  | zero =>
      have same := infoNumboot_congr (putBack.spares data (by omega))
      rw [Nat.add_zero] at left
      refine ⟨current, ?_, left ▸ putBack⟩
      rw [restoreFrom, same, left, if_neg (lt_irrefl _)]
  | succ count restores =>
      have counted : index < infoNumboot memory info := by omega
      have kept := putBack.spares data counted.le
      obtain ⟨restored, ran, done⟩ := restores (putBack.step data counted) (by omega)
      refine ⟨restored, ?_, done⟩
      rw [restoreFrom, infoNumboot_congr kept, if_pos counted,
        elfinfo_congr (counted.trans_le few) kept]
      simp only [copyMemory, accessBlock_ok (data index counted).fits]
      exact ran

end Restore

/-! ## What is accepted -/

section Accepted

variable {platform : IfsPlatform} {options : Ifs2Options} {rifsFlag : Nat}
  {original memory : Bytes.Memory} {info ifsPaddr : Nat}

/-- The information of a recorded image is signed and sums to zero. -/
theorem Survived.sealed {checked : Bool}
    (survived : Survived platform checked original memory info ifsPaddr) :
    checkRifsSignature memory info = true ∧ infoNumboot memory info ≤ RIFS_MAX_BOOTABLE := by
  obtain ⟨before, unsealed, same⟩ := survived.recorded
  obtain ⟨signed, sums⟩ : CarriesSignature (rifsSetCksum platform before info ifsPaddr) info ∧
      rifsChecksum (rifsSetCksum platform before info ifsPaddr) info sizeofRestoreIfsInfo = 0 :=
    rifsSetCksum_sealed unsealed
  refine ⟨checkRifsSignature_iff.mpr ⟨signed.congr fun place below => ?_, ?_⟩, ?_⟩
  · exact same place (below.trans (by decide))
  · exact (rifsChecksum_congr same).trans sums
  · rw [infoNumboot_congr same, rifsSetCksum_numboot]
    exact unsealed.few

/-- Behind the loop the image is the original one. -/
theorem Survived.restored {checked : Bool} {restored : Bytes.Memory}
    (survived : Survived platform checked original memory info ifsPaddr)
    (putBack : PutBack platform original memory info (infoNumboot memory info) restored) :
    infoImageSize restored info = infoImageSize memory info ∧
      rifsChecksum restored ifsPaddr (infoImageSize memory info) =
        rifsChecksum original ifsPaddr (infoImageSize memory info) := by
  constructor
  · have same := putBack.spares survived.data le_rfl
    refine Bytes.load_congr fun place below => ?_
    rw [Nat.add_assoc]
    exact same _ (by rw [sizeofRestoreIfsInfo]; omega)
  · refine rifsChecksum_congr fun place below => ?_
    by_cases inData : ∃ index < infoNumboot memory info,
        ifsPaddr + place ∈ dataBlock platform memory info index
    · obtain ⟨index, small, member⟩ := inData
      exact putBack.back index small _ member
    · rw [putBack.kept _ fun index small member => inData ⟨index, small, member⟩]
      exact (survived.kept place below).resolve_right inData

/-- A recorded image is accepted. -/
theorem Survived.accepts
    (survived : Survived platform (Word.test rifsFlag RIFS_FLAG_CKSUM) original memory info
      ifsPaddr) :
    ∃ restored, checkAndRestore platform rifsFlag memory ifsPaddr info = .ok (restored, 0) := by
  obtain ⟨isSealed, few⟩ := survived.sealed
  have start : PutBack platform original memory info 0 memory :=
    ⟨fun index below => absurd below (Nat.not_lt_zero index), fun _ _ => rfl⟩
  obtain ⟨restored, ran, putBack⟩ :=
    restoreFrom_ok few survived.data start (Nat.zero_add (infoNumboot memory info))
  obtain ⟨sameSize, sameSum⟩ := survived.restored putBack
  refine ⟨restored, ?_⟩
  rw [checkAndRestore, accessBlock_ok survived.image.header, if_pos survived.header,
    accessBlock_ok survived.fits]
  simp only [isSealed, if_true, restoreChecked, ran]
  change (if Word.test rifsFlag RIFS_FLAG_CKSUM = true then _ else _) = _
  split
  · next asked =>
      have inMemory := accessBlock_ok survived.image.fits
      rw [← sameSize] at inMemory sameSum
      rw [inMemory]
      change (if _ then _ else _) = _
      rw [if_neg]
      · rfl
      · rw [sameSum, sameSize, not_not]
        exact survived.image.sums asked
  · rfl

/-- What `rifs_restore_ifs` accepts carries the signature and has the right checksums. -/
theorem checkAndRestore_sound {restored : Bytes.Memory}
    (accepted : checkAndRestore platform rifsFlag memory ifsPaddr info = .ok (restored, 0)) :
    CarriesSignature memory info ∧ rifsChecksum memory info sizeofRestoreIfsInfo = 0 ∧
      (Word.test rifsFlag RIFS_FLAG_CKSUM = true →
        ∃ restored, restoreFrom platform info memory 0 = .ok restored ∧
          rifsChecksum restored ifsPaddr (infoImageSize restored info) = 0) := by
  obtain ⟨_, _, rest⟩ := bind_eq_ok.mp accepted
  split at rest
  · obtain ⟨_, _, rest⟩ := bind_eq_ok.mp rest
    split at rest
    · next isSealed =>
        obtain ⟨signed, sums⟩ := checkRifsSignature_iff.mp isSealed
        refine ⟨signed, sums, fun asked => ?_⟩
        obtain ⟨memory, ran, rest⟩ := bind_eq_ok.mp rest
        rw [if_pos asked] at rest
        obtain ⟨_, _, rest⟩ := bind_eq_ok.mp rest
        split at rest
        · cases rest
        · next whole => exact ⟨memory, ran, not_not.mp whole⟩
    · cases rest
  · cases rest

/-- The information of a recorded secondary image sums to zero. -/
theorem Survived2.sums {platform : Ifs2Platform} {dst : Nat}
    (survived : Survived2 platform options memory info dst) :
    rifsChecksum memory info sizeofRestoreIfs2Info = 0 ∧
      info + sizeofRestoreIfs2Info < 2 ^ 64 := by
  obtain ⟨before, last, loaded, isInfo, same⟩ := survived.recorded
  obtain ⟨ram, _, rest⟩ := bind_eq_ok.mp loaded
  obtain ⟨_, _, rest⟩ := bind_eq_ok.mp rest
  rw [if_pos survived.restores] at rest
  obtain ⟨place, isPlace, rest⟩ := bind_eq_ok.mp rest
  obtain ⟨_, accessed, rest⟩ := bind_eq_ok.mp rest
  cases rest
  have samePlace : place = info := by
    dsimp only at isPlace isInfo
    rw [isInfo] at isPlace
    cases isPlace
    rfl
  rw [samePlace] at accessed same
  exact ⟨(rifsChecksum_congr same).trans (saveInfo_sum platform), accessed_below accessed⟩

/-- A copied image is an image. -/
theorem IsImage.move {platform : Ifs2Platform} {checked : Bool} {src dst size count : Nat}
    (image : IsImage platform checked memory src size) (header : 7 ≤ count)
    (whole : 4 * ((size + 3) / 4) ≤ count) (fits : dst + count < 2 ^ 64) {after : Bytes.Memory}
    (same : ∀ place < count, after (dst + place) = memory (src + place)) :
    IsImage platform checked after dst size := by
  refine ⟨?_, fun asked => ?_, by omega, by omega⟩
  · have signed := image.signature
    rw [checkIfsSignature, List.all_eq_true] at signed ⊢
    intro place member
    have small := List.mem_range.mp member
    rw [same place (by omega)]
    exact signed place member
  · refine (rifsChecksum_congr fun place below => ?_).trans (image.sums asked)
    exact same place (by omega)

/-- What `rifs_load_ifs2` leaves survives: an image that fits its place, with the restore
information beside it. -/
theorem rifsLoadIfs2_survives {platform : Ifs2Platform} {before last : Ifs2State}
    (loaded : rifsLoadIfs2 platform options before = .ok last)
    (restores : options.restores = true) (isInfo : before.rifs2Info = some info)
    (image : IsImage platform (Word.test options.rifsFlag RIFS_FLAG_IFS2_CKSUM) before.memory
      (ifs2Source platform options before) (Bytes.load before.memory 4
        (ifs2Source platform options before + platform.imageSizeAt)))
    (header : 7 ≤ options.size) (sized : platform.imageSizeAt + 4 ≤ options.size)
    (whole : 4 * ((Bytes.load before.memory 4
      (ifs2Source platform options before + platform.imageSizeAt) + 3) / 4) ≤ options.size)
    (beside : Disjoint (before.imageBlock options)
      (Set.Ico info (info + sizeofRestoreIfs2Info))) :
    Survived2 platform options last.memory info before.ifs2PaddrDst := by
  obtain ⟨ram, reserved, rest⟩ := bind_eq_ok.mp loaded
  obtain ⟨_, accessed, rest⟩ := bind_eq_ok.mp rest
  have fits := accessed_below accessed
  rw [if_pos restores] at rest
  dsimp only at rest
  rw [isInfo] at rest
  obtain ⟨_, isPlace, rest⟩ := bind_eq_ok.mp rest
  cases isPlace
  obtain ⟨_, block, rest⟩ := bind_eq_ok.mp rest
  cases rest
  have outside : ∀ place < options.size, before.ifs2PaddrDst + place ∉
      Set.Ico info (info + sizeofRestoreIfs2Info) := by
    intro place below
    refine Set.disjoint_left.mp beside ⟨Nat.le_add_right _ _, ?_⟩
    exact Nat.add_lt_add_left below _
  have copied : ∀ place < options.size,
      saveInfo platform (Bytes.move before.memory before.ifs2PaddrDst
        (ifs2Source platform options before) options.size) before.ifs2PaddrDst info
          (before.ifs2PaddrDst + place) =
        before.memory (ifs2Source platform options before + place) := by
    intro place below
    rw [saveInfo_beside (outside place below), Bytes.move_of_mem below]
  refine ⟨⟨before, _, loaded, rfl, fun _ _ => rfl⟩, restores, ?_⟩
  dsimp only
  rw [saveInfo_imageSize]
  · have sameSize : Bytes.load (Bytes.move before.memory before.ifs2PaddrDst
        (ifs2Source platform options before) options.size) 4
          (before.ifs2PaddrDst + platform.imageSizeAt) =
        Bytes.load before.memory 4
          (ifs2Source platform options before + platform.imageSizeAt) := by
      refine Bytes.load_congr fun place below => ?_
      rw [Nat.add_assoc, Nat.add_assoc, Bytes.move_of_mem (by omega)]
    rw [sameSize]
    exact image.move header whole fits copied
  · intro place below
    rw [Nat.add_assoc]
    exact outside _ (by omega)

theorem ifs2Valid_iff {platform : Ifs2Platform} {ifs2Hdr : Nat} :
    ifs2Valid platform options memory ifs2Hdr info = true ↔
      checkIfsSignature platform memory ifs2Hdr = true ∧
        rifsChecksum memory info sizeofRestoreIfs2Info = 0 ∧
          (Word.test options.rifsFlag RIFS_FLAG_IFS2_CKSUM = true →
            rifsChecksum memory ifs2Hdr (infoImageSize memory info) = 0) := by
  rw [ifs2Valid, Bool.and_eq_true, Bool.and_eq_true, Bool.or_eq_true, Bool.not_eq_true',
    beq_iff_eq, beq_iff_eq, and_assoc, ← Bool.not_eq_true, imp_iff_not_or]

section Secondary

variable {platform : Ifs2Platform} {state final : Ifs2State} {ram : RamState}
  (allocated : allocRam state.ram nullPaddr sizeofRestoreIfs2Info sizeofUint64 =
    .ok (ram, info))
  (cleared : clearBlock platform state.memory info sizeofRestoreIfs2Info = memory)

include allocated cleared

/-- What `rifs_restore_ifs2` accepts passes its checks. -/
theorem rifsRestoreIfs2_accepted
    (accepted : rifsRestoreIfs2 platform options state = .ok (final, 0)) :
    final.rifs2Info = some info ∧ Ifs2InMemory options memory state.ifs2PaddrDst info ∧
      ifs2Valid platform options memory state.ifs2PaddrDst info = true := by
  obtain ⟨⟨given, place⟩, given_ok, rest⟩ := bind_eq_ok.mp accepted
  obtain ⟨⟨_, _⟩, took, isGiven⟩ := bind_eq_ok.mp given_ok
  rw [allocated] at took
  cases took
  cases isGiven
  rw [cleared] at rest
  obtain ⟨_, header, rest⟩ := bind_eq_ok.mp rest
  split at rest
  · next signed =>
      obtain ⟨_, block, rest⟩ := bind_eq_ok.mp rest
      split at rest
      · next summed =>
          split at rest
          · next asked =>
              obtain ⟨_, image, rest⟩ := bind_eq_ok.mp rest
              split at rest
              · cases rest
              · next whole =>
                  cases rest
                  refine ⟨rfl, ⟨accessed_below header, accessed_below block,
                    fun _ => accessed_below image⟩, ?_⟩
                  exact ifs2Valid_iff.mpr ⟨signed, summed, fun _ => not_not.mp whole⟩
          · next unasked =>
              cases rest
              refine ⟨rfl, ⟨accessed_below header, accessed_below block,
                fun asked => absurd asked unasked⟩, ?_⟩
              exact ifs2Valid_iff.mpr ⟨signed, summed, fun asked => absurd asked unasked⟩
      · cases rest
  · cases rest

/-- What passes the checks of `rifs_restore_ifs2` is accepted. -/
theorem rifsRestoreIfs2_accepts
    (inMemory : Ifs2InMemory options memory state.ifs2PaddrDst info)
    (valid : ifs2Valid platform options memory state.ifs2PaddrDst info = true) :
    ∃ final, rifsRestoreIfs2 platform options state = .ok (final, 0) ∧
      final.rifs2Info = some info := by
  obtain ⟨signed, summed, whole⟩ := ifs2Valid_iff.mp valid
  have given : allocCleared platform state sizeofRestoreIfs2Info sizeofUint64 =
      .ok ({ state with ram := ram, memory := memory }, info) := by
    rw [allocCleared, allocated, ← cleared]
    rfl
  refine ⟨{ state with ram := ram, memory := memory, rifs2Info := some info }, ?_, rfl⟩
  refine bind_eq_ok.mpr ⟨_, given, ?_⟩
  refine bind_eq_ok.mpr ⟨(), accessBlock_ok inMemory.header, ?_⟩
  dsimp only
  rw [if_pos signed]
  refine bind_eq_ok.mpr ⟨(), accessBlock_ok inMemory.block, ?_⟩
  rw [if_pos summed]
  split
  · next asked =>
      refine bind_eq_ok.mpr ⟨(), accessBlock_ok (inMemory.image asked), ?_⟩
      rw [if_neg (not_not.mpr (whole asked))]
      rfl
  · rfl

end Secondary

end Accepted

/-- Restores keep their promise exactly when the information of the secondary image is signed
wherever it passes. -/
theorem restoreIntegrity_iff (platform : IfsPlatform) (options : Ifs2Options) (ifsPaddr : Nat)
    (primary : RifsState) (secondary : Ifs2State) :
    RestoreIntegrity platform options ifsPaddr primary secondary ↔
      Ifs2Signed platform.toIfs2Platform options secondary := by
  constructor
  · intro integrity ram info allocated memory inMemory valid
    obtain ⟨final, accepted, isInfo⟩ := rifsRestoreIfs2_accepts allocated rfl inMemory valid
    exact (integrity.sound2 final info accepted isInfo memory rfl).1
  · intro signed
    refine ⟨?_, ?_, ?_, ?_⟩
    · intro ram info original allocated survived
      obtain ⟨restored, accepted⟩ := survived.accepts
      refine ⟨⟨ram, rifsInit restored info, some info⟩, ?_⟩
      refine bind_eq_ok.mpr ⟨(ram, info), allocated, ?_⟩
      refine bind_eq_ok.mpr ⟨(restored, 0), accepted, ?_⟩
      exact bind_eq_ok.mpr ⟨(), accessBlock_ok survived.fits, rfl⟩
    · intro final info returned isInfo memory isMemory
      obtain ⟨⟨ram, place⟩, _, rest⟩ := bind_eq_ok.mp returned
      obtain ⟨⟨restored, status⟩, accepted, rest⟩ := bind_eq_ok.mp rest
      obtain ⟨_, _, rest⟩ := bind_eq_ok.mp rest
      cases rest
      cases isInfo
      rw [isMemory]
      exact checkAndRestore_sound accepted
    · intro ram info allocated survived
      obtain ⟨sums, block⟩ := survived.sums
      have inMemory : Ifs2InMemory options
          (clearBlock platform.toIfs2Platform secondary.memory info sizeofRestoreIfs2Info)
          secondary.ifs2PaddrDst info :=
        ⟨survived.image.header, block, fun _ => survived.image.fits⟩
      obtain ⟨final, accepted, _⟩ := rifsRestoreIfs2_accepts allocated rfl inMemory
        (ifs2Valid_iff.mpr ⟨survived.image.signature, sums, survived.image.sums⟩)
      exact ⟨final, accepted⟩
    · intro final info accepted isInfo memory isMemory
      obtain ⟨⟨given, place⟩, given_ok, _⟩ := bind_eq_ok.mp accepted
      obtain ⟨⟨ram, same⟩, allocated, _⟩ := bind_eq_ok.mp given_ok
      obtain ⟨isPlace, inMemory, valid⟩ := rifsRestoreIfs2_accepted allocated rfl accepted
      have samePlace : same = info := Option.some.inj (isPlace.symm.trans isInfo)
      subst samePlace
      subst isMemory
      have passed := ifs2Valid_iff.mp valid
      exact ⟨signed ram same allocated inMemory valid, passed.2.1, passed.2.2⟩

/-- Restore a checked image of four pages at `0x101000`. -/
def checkedThere : Ifs2Options :=
  { restoreThere with
    rifsFlag := RIFS_FLAG_IFS2_RESTORE + RIFS_FLAG_IFS2_CKSUM + RIFS_FLAG_IFS2_DST }

/-- RAM is zero but for the mark of an image at `0x101000`: nothing was recorded, and the
secondary image is accepted, with checksums on. -/
theorem zeroed_accepted :
    ¬ RestoreIntegrity ⟨imagefsPlatform, 0x80000, false⟩ checkedThere 0x90000
      ⟨sixteenPages, keptMemory, none⟩ (checkedThere.start sixteenPages keptMemory) := by
  intro integrity
  have accepted : ∃ final, rifsRestoreIfs2 imagefsPlatform checkedThere
      (checkedThere.start sixteenPages keptMemory) = .ok (final, 0) ∧
        final.rifs2Info = some 0x100000 := ⟨_, rfl, rfl⟩
  obtain ⟨final, accepted, isInfo⟩ := accepted
  obtain ⟨signed, _⟩ := integrity.sound2 final _ accepted isInfo _ rfl
  have zero : (0 : UInt8) = 0x72 := signed 0 (by decide)
  exact absurd zero (by decide)

end Bcm2711.Startup
