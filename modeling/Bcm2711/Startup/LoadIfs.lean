import Bcm2711.Lib.CopyLoop
import Bcm2711.Lib.Walk

/-! # Loading the image file system

`load_ifs` brings an image file system that is not compressed to its place.  `_main` has added
the load offset to the addresses of the startup header; the copy starts from the address as the
header has it.
-/

namespace Bcm2711.Startup.LoadIfs

open Walks Bytes CopyLoop

def STARTUP_HDR_FLAGS1_COMPRESS_MASK : BitVec 8 := 0x1c

/-! ## The functions of the C library -/

/-- The words that the unrolled loop of `memcpy` copies: it is entered in its middle, and then
goes round with 16 words. -/
def unrolled (words : Nat) : Nat :=
  let n := (words + 15) / 16 % 2 ^ 32
  (if words % 16 = 0 then 16 else words % 16) + 16 * (n - 1)

/-- `memcpy`: words where the addresses are aligned, and then bytes. -/
def memcpy (memory : Memory) (dst src nbytes : Nat) : Memory :=
  if 4 ≤ nbytes ∧ src % 4 = 0 ∧ dst % 4 = 0 then
    let words := unrolled (nbytes / 4)
    ups 1 (nbytes % 4) (ups 4 words memory dst src) (dst + 4 * words) (src + 4 * words)
  else ups 1 nbytes memory dst src

/-- `memmove`. -/
def memmove (memory : Memory) (dest src len : Nat) : Memory :=
  if src < dest ∧ dest < src + len then downs len memory dest src else memcpy memory dest src len

theorem unrolled_eq {words : Nat} (some : 0 < words) (small : words < 2 ^ 32) :
    unrolled words = words := by
  rw [unrolled]
  split
  · omega
  · omega

theorem memcpy_eq {memory : Memory} {dst src nbytes : Nat}
    (clear : dst ≤ src ∨ src + nbytes ≤ dst) (small : nbytes < 2 ^ 32) :
    memcpy memory dst src nbytes = move memory dst src nbytes := by
  rw [memcpy]
  split
  · next aligned =>
      have words : unrolled (nbytes / 4) = nbytes / 4 := unrolled_eq (by omega) (by omega)
      have whole : 4 * (nbytes / 4) + nbytes % 4 = nbytes := Nat.div_add_mod nbytes 4
      dsimp only
      rw [words, ups_eq_move (by omega), ups_eq_move (by omega), Nat.one_mul, move_move (by omega),
        whole]
  · rw [ups_eq_move (by omega), Nat.one_mul]

/-- `memmove` moves a block, whichever way it overlaps. -/
theorem memmove_eq {memory : Memory} {dest src len : Nat} (small : len < 2 ^ 32) :
    memmove memory dest src len = move memory dest src len := by
  rw [memmove]
  split
  · next overlaps => exact downs_eq_move (Or.inl overlaps.1.le)
  · next clear => exact memcpy_eq (by omega) small

/-! ## The startup header -/

/-- What `_main` and `load_ifs` read of the startup header. -/
structure StartupHeader where
  flags1 : BitVec 8
  paddrBias : BitVec 32
  imagePaddr : BitVec 32
  startupSize : BitVec 32
  imagefsPaddr : BitVec 32
  imagefsSize : BitVec 32
  addrOff : BitVec 64
deriving DecidableEq, Repr

/-- `full_image_paddr`, as `_main` sets it. -/
def StartupHeader.fullImagePaddr (shdr : StartupHeader) : Nat :=
  (shdr.imagePaddr.toNat + shdr.addrOff.toNat) % 2 ^ 64

/-- `full_imagefs_paddr`, which `_main` leaves at zero without an address. -/
def StartupHeader.fullImagefsPaddr (shdr : StartupHeader) : Nat :=
  if shdr.imagefsPaddr ≠ 0 then (shdr.imagefsPaddr.toNat + shdr.addrOff.toNat) % 2 ^ 64 else 0

/-- The value of a pointer to a physical address, `MAKE_1TO1_PTR`. -/
def StartupHeader.make1to1Ptr (shdr : StartupHeader) (paddr : Nat) : Nat :=
  (paddr + shdr.paddrBias.toNat) % 2 ^ 64

/-- `startup_memory_map`. -/
def startupMemoryMap (phys : Nat) : Nat := phys

/-- `copy_memory` before a part; memory is what pointers find. -/
structure CopyPoint where
  memory : Memory
  dst : Nat
  src : Nat
  len : Nat

/-- One round of `copy_memory`, with `max` for the first length. -/
def copyTurn (shdr : StartupHeader) (max : Nat) (p : CopyPoint) : Turn CopyPoint Memory :=
  let amount := (if max < p.len then max else p.len) % 2 ^ 32
  let memory := memmove p.memory (shdr.make1to1Ptr p.dst) (startupMemoryMap p.src) amount
  let len := p.len - amount
  if len = 0 then .ends memory
  else .goes ⟨memory, (p.dst + amount) % 2 ^ 64, (p.src + amount) % 2 ^ 64, len⟩

/-- `copy_memory`, for so many rounds at the most. -/
def copyMemory (shdr : StartupHeader) (memory : Memory) (dst src len rounds : Nat) :
    Option Memory :=
  walk (copyTurn shdr (len % 2 ^ 32)) rounds ⟨memory, dst, src, len⟩

/-- How `load_ifs` ends. -/
inductive Outcome where
  | crash
  | returns (memory : Memory)

/-- `load_ifs`, for so many rounds of a copy at the most; `uncompress` is what it does with a
compressed image. -/
def loadIfs (uncompress : StartupHeader → Memory → Nat → Outcome) (shdr : StartupHeader)
    (memory : Memory) (ifsPaddr rounds : Nat) : Option Outcome :=
  if shdr.fullImagePaddr = 0 ∨ shdr.startupSize = 0 then some .crash
  else if shdr.flags1 &&& STARTUP_HDR_FLAGS1_COMPRESS_MASK ≠ 0 then
    some (uncompress shdr memory ifsPaddr)
  else if shdr.fullImagefsPaddr ≠ 0 ∧ shdr.fullImagefsPaddr ≠ ifsPaddr then
    (copyMemory shdr memory ifsPaddr shdr.imagefsPaddr.toNat shdr.imagefsSize.toNat rounds).map
      .returns
  else some (.returns memory)

/-! ## Placement -/

/-- Where the image file system lies before the call: without an address it is in its place. -/
def StartupHeader.imagefsFrom (shdr : StartupHeader) (ifsPaddr : Nat) : Nat :=
  if shdr.imagefsPaddr = 0 then ifsPaddr
  else (shdr.imagefsPaddr.toNat + shdr.addrOff.toNat) % 2 ^ 64

/-- After the call the image file system is in its place. -/
def Placed (uncompress : StartupHeader → Memory → Nat → Outcome) (shdr : StartupHeader)
    (memory : Memory) (ifsPaddr : Nat) : Prop :=
  ∃ rounds outcome, loadIfs uncompress shdr memory ifsPaddr rounds = some outcome ∧
    ∀ after, outcome = .returns after → ∀ place < shdr.imagefsSize.toNat,
      after (shdr.make1to1Ptr (ifsPaddr + place)) =
        memory (shdr.make1to1Ptr (shdr.imagefsFrom ifsPaddr + place))

/-- Where `load_ifs` leaves what it finds in the place from: the address as the header has it,
where there is anything to copy. -/
def StartupHeader.takenFrom (shdr : StartupHeader) (ifsPaddr place : Nat) : Nat :=
  if shdr.fullImagefsPaddr = 0 then shdr.make1to1Ptr (ifsPaddr + place)
  else shdr.imagefsPaddr.toNat + place

/-- The header is refused, or the image file system is in its place, or what is taken for it is
the same. -/
def InOrder (shdr : StartupHeader) (memory : Memory) (ifsPaddr : Nat) : Prop :=
  (shdr.fullImagePaddr = 0 ∨ shdr.startupSize = 0) ∨ shdr.imagefsPaddr = 0 ∨
    shdr.fullImagefsPaddr = ifsPaddr ∨ ∀ place < shdr.imagefsSize.toNat,
      memory (shdr.takenFrom ifsPaddr place) =
        memory (shdr.make1to1Ptr (shdr.fullImagefsPaddr + place))

section Placement

variable {uncompress : StartupHeader → Memory → Nat → Outcome} {shdr : StartupHeader}
  {memory : Memory} {ifsPaddr : Nat}

theorem fullImagefsPaddr_eq (given : shdr.imagefsPaddr ≠ 0) :
    shdr.imagefsFrom ifsPaddr = shdr.fullImagefsPaddr := by
  rw [StartupHeader.imagefsFrom, StartupHeader.fullImagefsPaddr, if_neg given, if_pos given]

/-- A pointer into the place. -/
theorem make1to1Ptr_add {place : Nat}
    (inside : shdr.make1to1Ptr ifsPaddr + place < 2 ^ 64) :
    shdr.make1to1Ptr (ifsPaddr + place) = shdr.make1to1Ptr ifsPaddr + place := by
  rw [StartupHeader.make1to1Ptr] at inside ⊢
  rw [StartupHeader.make1to1Ptr, Nat.add_right_comm]
  omega

/-- The copy is made in one round. -/
theorem copyMemory_eq (dst src rounds : Nat) :
    copyMemory shdr memory dst src shdr.imagefsSize.toNat (rounds + 1) =
      some (move memory (shdr.make1to1Ptr dst) src shdr.imagefsSize.toNat) := by
  have small := shdr.imagefsSize.isLt
  have amount : (if shdr.imagefsSize.toNat % 2 ^ 32 < shdr.imagefsSize.toNat then
      shdr.imagefsSize.toNat % 2 ^ 32 else shdr.imagefsSize.toNat) % 2 ^ 32 =
      shdr.imagefsSize.toNat := by
    rw [Nat.mod_eq_of_lt small, if_neg (Nat.lt_irrefl _), Nat.mod_eq_of_lt small]
  rw [copyMemory, walk, copyTurn]
  dsimp only
  rw [amount, Nat.sub_self, if_pos rfl, memmove_eq small]
  rfl

/-- Where there is anything to copy, it is taken from the address as the header has it. -/
theorem placed_iff_of_copied (fine : ¬ (shdr.fullImagePaddr = 0 ∨ shdr.startupSize = 0))
    (plain : shdr.flags1 &&& STARTUP_HDR_FLAGS1_COMPRESS_MASK = 0)
    (room : shdr.make1to1Ptr ifsPaddr + shdr.imagefsSize.toNat ≤ 2 ^ 64)
    (copies : shdr.fullImagefsPaddr ≠ 0 ∧ shdr.fullImagefsPaddr ≠ ifsPaddr) :
    Placed uncompress shdr memory ifsPaddr ↔ ∀ place < shdr.imagefsSize.toNat,
      memory (shdr.imagefsPaddr.toNat + place) =
        memory (shdr.make1to1Ptr (shdr.fullImagefsPaddr + place)) := by
  have given : shdr.imagefsPaddr ≠ 0 := by
    intro none
    exact copies.1 (if_neg (not_not.mpr none))
  have loads : ∀ rounds, loadIfs uncompress shdr memory ifsPaddr (rounds + 1) =
      some (.returns (move memory (shdr.make1to1Ptr ifsPaddr) shdr.imagefsPaddr.toNat
        shdr.imagefsSize.toNat)) := by
    intro rounds
    rw [loadIfs, if_neg fine, if_neg (not_not.mpr plain), if_pos copies, copyMemory_eq]
    rfl
  have moved : ∀ place < shdr.imagefsSize.toNat,
      move memory (shdr.make1to1Ptr ifsPaddr) shdr.imagefsPaddr.toNat shdr.imagefsSize.toNat
        (shdr.make1to1Ptr (ifsPaddr + place)) = memory (shdr.imagefsPaddr.toNat + place) := by
    intro place inside
    rw [make1to1Ptr_add (by omega), move_of_mem inside]
  constructor
  · rintro ⟨rounds, outcome, loaded, placed⟩ place inside
    cases rounds with
    | zero =>
        rw [loadIfs, if_neg fine, if_neg (not_not.mpr plain), if_pos copies] at loaded
        cases loaded
    | succ rounds =>
        rw [loads] at loaded
        have there := placed _ (Option.some.inj loaded).symm place inside
        rw [moved place inside, fullImagefsPaddr_eq given] at there
        exact there
  · intro same
    refine ⟨1, _, loads 0, ?_⟩
    rintro after returned place inside
    obtain rfl := Outcome.returns.inj returned
    rw [moved place inside, fullImagefsPaddr_eq given]
    exact same place inside

/-- Where nothing is copied, memory is kept. -/
theorem placed_iff_of_kept (fine : ¬ (shdr.fullImagePaddr = 0 ∨ shdr.startupSize = 0))
    (plain : shdr.flags1 &&& STARTUP_HDR_FLAGS1_COMPRESS_MASK = 0)
    (kept : ¬ (shdr.fullImagefsPaddr ≠ 0 ∧ shdr.fullImagefsPaddr ≠ ifsPaddr)) :
    Placed uncompress shdr memory ifsPaddr ↔ ∀ place < shdr.imagefsSize.toNat,
      memory (shdr.make1to1Ptr (ifsPaddr + place)) =
        memory (shdr.make1to1Ptr (shdr.imagefsFrom ifsPaddr + place)) := by
  have loads : ∀ rounds, loadIfs uncompress shdr memory ifsPaddr rounds =
      some (.returns memory) := by
    intro rounds
    rw [loadIfs, if_neg fine, if_neg (not_not.mpr plain), if_neg kept]
  constructor
  · rintro ⟨rounds, outcome, loaded, placed⟩
    rw [loads] at loaded
    exact placed _ (Option.some.inj loaded).symm
  · intro same
    refine ⟨0, _, loads 0, ?_⟩
    rintro after returned
    obtain rfl := Outcome.returns.inj returned
    exact same

end Placement

/-- An image that is not compressed is placed exactly where everything is in order. -/
theorem placed_iff (uncompress : StartupHeader → Memory → Nat → Outcome) (shdr : StartupHeader)
    (memory : Memory) (ifsPaddr : Nat)
    (plain : shdr.flags1 &&& STARTUP_HDR_FLAGS1_COMPRESS_MASK = 0)
    (room : shdr.make1to1Ptr ifsPaddr + shdr.imagefsSize.toNat ≤ 2 ^ 64) :
    Placed uncompress shdr memory ifsPaddr ↔ InOrder shdr memory ifsPaddr := by
  by_cases refused : shdr.fullImagePaddr = 0 ∨ shdr.startupSize = 0
  · refine iff_of_true ⟨0, .crash, if_pos refused, ?_⟩ (Or.inl refused)
    intro after returned
    cases returned
  rw [InOrder, or_iff_right refused]
  by_cases copies : shdr.fullImagefsPaddr ≠ 0 ∧ shdr.fullImagefsPaddr ≠ ifsPaddr
  · have given : shdr.imagefsPaddr ≠ 0 := by
      intro none
      exact copies.1 (if_neg (not_not.mpr none))
    rw [placed_iff_of_copied refused plain room copies, or_iff_right given, or_iff_right copies.2]
    simp only [StartupHeader.takenFrom, if_neg copies.1]
  · rw [placed_iff_of_kept refused plain copies]
    by_cases none : shdr.imagefsPaddr = 0
    · refine iff_of_true ?_ (Or.inl none)
      intro place inside
      rw [StartupHeader.imagefsFrom, if_pos none]
    rw [or_iff_right none, fullImagefsPaddr_eq none]
    by_cases inPlace : shdr.fullImagefsPaddr = ifsPaddr
    · refine iff_of_true ?_ (Or.inl inPlace)
      intro place inside
      rw [inPlace]
    · have zero : shdr.fullImagefsPaddr = 0 := by
        by_contra some
        exact copies ⟨some, inPlace⟩
      rw [or_iff_right inPlace]
      simp only [StartupHeader.takenFrom, if_pos zero]

/-- A header for an image below 4 GB. -/
def lowHeader : StartupHeader where
  flags1 := 1
  paddrBias := 0
  imagePaddr := 0x80000
  startupSize := 0x20000
  imagefsPaddr := 0x90000
  imagefsSize := 0x40000
  addrOff := 0

theorem lowHeader_placed :
    Placed (fun _ memory _ => .returns memory) lowHeader (fun _ => 0) 0xa0000 ↔
      InOrder lowHeader (fun _ => 0) 0xa0000 :=
  placed_iff _ lowHeader _ 0xa0000 (by decide) (by decide)

/-- A header for the same image above 4 GB. -/
def highHeader : StartupHeader := { lowHeader with addrOff := 0x100000000 }

/-- The image is copied from below 4 GB, where it does not lie. -/
theorem highHeader_misplaced :
    ¬ Placed (fun _ memory _ => .returns memory) highHeader
      (fun address => if address = 0x100090000 then 1 else 0) 0x1000a0000 := by
  intro placed
  have same := (placed_iff_of_copied (by decide) (by decide) (by decide) (by decide)).mp placed 0
    (by decide)
  revert same
  decide

/-- Without an offset the image is placed, whichever way it overlaps. -/
theorem inOrder_of_no_offset {shdr : StartupHeader} {memory : Memory} {ifsPaddr : Nat}
    (noOffset : shdr.addrOff = 0) (noBias : shdr.paddrBias = 0) : InOrder shdr memory ifsPaddr := by
  by_cases none : shdr.imagefsPaddr = 0
  · exact Or.inr (Or.inl none)
  have small := shdr.imagefsPaddr.isLt
  have full : shdr.fullImagefsPaddr = shdr.imagefsPaddr.toNat := by
    rw [StartupHeader.fullImagefsPaddr, if_pos none, noOffset]
    apply Nat.mod_eq_of_lt
    change shdr.imagefsPaddr.toNat + 0 < 2 ^ 64
    omega
  have some : shdr.fullImagefsPaddr ≠ 0 := by
    rw [full]
    exact fun zero => none (BitVec.eq_of_toNat_eq zero)
  refine Or.inr (Or.inr (Or.inr ?_))
  intro place inside
  have sizeSmall := shdr.imagefsSize.isLt
  rw [StartupHeader.takenFrom, if_neg some, full, StartupHeader.make1to1Ptr, noBias]
  have within : shdr.imagefsPaddr.toNat + place + (0 : BitVec 32).toNat < 2 ^ 64 := by
    change shdr.imagefsPaddr.toNat + place + 0 < 2 ^ 64
    omega
  rw [Nat.mod_eq_of_lt within]
  rfl

end Bcm2711.Startup.LoadIfs
