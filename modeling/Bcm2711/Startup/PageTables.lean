import Bcm2711.Lib.Radix
import Bcm2711.Lib.Word

/-! # The page tables of a virtual image, with 4K pages

`aarch64_map` walks three levels of tables in nested loops, takes the tables that are missing
from `calloc_ram`, and marks aligned runs of 16 pages as contiguous; `elf_vaddr_to_paddr` walks
them for one address.  The header `aarch64/mmu.h` is not part of the repository: its constants
are parameters, with what the architecture says of them.
-/

namespace Bcm2711.Startup.PageTables

open Word

/-- `__PAGESIZE`. -/
def PAGESIZE : Nat := 0x1000

/-- `NPTE_PTBL`. -/
def NPTE_PTBL : Nat := 512

/-- `CONTIG_PAGES`. -/
def CONTIG_PAGES : Nat := 16

/-- The word has only bits of a descriptor that are neither of the address nor `CONTIG`. -/
def Attribute (word : Nat) : Prop := word < 2 ^ 64 ∧ word % 2 ^ 53 < 2 ^ 12

/-- What `aarch64/mmu.h` defines. -/
structure Mmu where
  userEnd : Nat
  startupBase : Nat
  userEnd_le : userEnd ≤ 2 ^ 39
  le_startupBase : 2 ^ 64 - 2 ^ 39 ≤ startupBase
  startupBase_aligned : PAGESIZE ∣ startupBase
  /-- The slots through which the tables map themselves. -/
  l1L1Idx : Nat
  l1L2Idx : Nat
  l2L2Idx : Nat
  l1Slots_ne : l1L1Idx ≠ l1L2Idx
  l1Idx : Nat → Nat
  l2Idx : Nat → Nat
  l3Idx : Nat → Nat
  l1Idx_eq : ∀ vaddr, l1Idx vaddr = vaddr / 2 ^ 30 % 512
  l2Idx_eq : ∀ vaddr, l2Idx vaddr = vaddr / 2 ^ 21 % 512
  l3Idx_eq : ∀ vaddr, l3Idx vaddr = vaddr / 2 ^ 12 % 512
  l1Voff : Nat → Nat
  l2Voff : Nat → Nat
  l3Voff : Nat → Nat
  l1Voff_eq : ∀ vaddr, l1Voff vaddr = vaddr % 2 ^ 30
  l2Voff_eq : ∀ vaddr, l2Voff vaddr = vaddr % 2 ^ 21
  l3Voff_eq : ∀ vaddr, l3Voff vaddr = vaddr % 2 ^ 12
  /-- `AARCH64_PTE_*`. -/
  pteValid : Nat
  pteAf : Nat
  pteUrw : Nat
  pteKrw : Nat
  pteUro : Nat
  pteKro : Nat
  pteUxn : Nat
  ptePxn : Nat
  pteSodev : Nat
  pteDev : Nat
  pteNc : Nat
  pteWbwa : Nat
  pteIsh : Nat
  pteNg : Nat
  bits_attribute : ∀ bits ∈ [pteValid, pteAf, pteUrw, pteKrw, pteUro, pteKro, pteUxn, ptePxn,
    pteSodev, pteDev, pteNc, pteWbwa, pteIsh, pteNg], Attribute bits
  pteValid_ne : pteValid ≠ 0
  /-- `AARCH64_PTE_CONTIG`. -/
  pteContig : Nat
  pteContig_eq : pteContig = 2 ^ 52
  ptpValid : Nat
  ptpType : Nat → Nat
  ptpBlock : Nat
  /-- A descriptor of a page or a table is valid and not that of a block. -/
  valid_table : ∀ word, word &&& pteValid = pteValid →
    word &&& ptpValid ≠ 0 ∧ ptpType word ≠ ptpBlock

/-- The pages that `calloc_ram` returns for tables, one after the other, until it has none. -/
structure Frames where
  page : Nat → Nat
  count : Nat
  aligned : ∀ n < count, PAGESIZE ∣ page n
  small : ∀ n < count, page n < 2 ^ 48
  distinct : ∀ m < count, ∀ n < count, page m = page n → m = n

/-- `PROT_*` of a mapping. -/
structure Prot where
  write : Bool
  user : Bool
  exec : Bool
  device : Bool
  nocache : Bool
deriving DecidableEq, Repr

/-- What `set_pte` asks of the system: more than one cpu, and the meltdown fix. -/
structure System where
  smp : Bool
  meltdown : Bool
deriving DecidableEq, Repr

/-- The tables, what has been taken for them, and `free_vaddr`. -/
structure State where
  memory : Nat → Nat → Nat
  taken : Nat
  l1Ttbr0 : Nat
  l1Ttbr1 : Nat
  freeVaddr : Nat

/-- `PTP_PADDR` and `PTP_PTR`. -/
def ptpPaddr (ptp : Nat) : Nat := trunc 64 (ptp &&& 0x0000fffffffff000) PAGESIZE

/-- `USE_CONTIG`. -/
def useContig (vaddr paddr size run : Nat) : Bool :=
  run ≤ size && (vaddr ||| paddr) &&& sub 64 run 1 = 0

section Map

variable (mmu : Mmu) (frames : Frames) (system : System)

/-- `set_pte`. -/
def setPte (paddr : Nat) (flags : Prot) : Nat :=
  let pte := paddr ||| mmu.pteValid ||| mmu.pteAf
  let pte := pte |||
    if flags.write then (if flags.user then mmu.pteUrw else mmu.pteKrw)
    else (if flags.user then mmu.pteUro else mmu.pteKro)
  let pte := if !flags.exec then pte ||| (mmu.pteUxn ||| mmu.ptePxn) else pte
  let pte :=
    if flags.device then pte ||| (if flags.nocache then mmu.pteSodev else mmu.pteDev)
    else
      let pte := pte ||| (if flags.nocache then mmu.pteNc else mmu.pteWbwa)
      if system.smp then pte ||| mmu.pteIsh else pte
  if system.meltdown then pte ||| mmu.pteNg else pte

/-- `PROT_READ|PROT_WRITE`. -/
def protRw : Prot := ⟨true, false, false, false, false⟩

/-- `pt_alloc`: the descriptor of a cleared page. -/
def ptAlloc (st : State) : Nat × State :=
  let pa := frames.page st.taken
  (setPte mmu system pa protRw,
    { st with
      memory := Function.update st.memory pa fun _ => 0
      taken := st.taken + 1 })

/-- Take the table of a slot that has none. -/
def ensureTable (table index : Nat) (st : State) : State :=
  if st.memory table index = 0 then
    let (entry, st) := ptAlloc mmu frames system st
    { st with memory := Radix.write st.memory table index entry }
  else st

/-- `aarch64_map_init` up to its first call of `aarch64_map`. -/
def aarch64MapInit : State :=
  let st : State :=
    { memory := fun _ _ => 0
      taken := 1
      l1Ttbr0 := frames.page 0
      l1Ttbr1 := 0
      freeVaddr := mmu.startupBase }
  let (l1pte, st) := ptAlloc mmu frames system st
  let l1 := ptpPaddr l1pte
  let st := { st with
    l1Ttbr1 := l1
    memory := Radix.write st.memory l1 mmu.l1L1Idx l1pte }
  let (l2pte, st) := ptAlloc mmu frames system st
  let memory := Radix.write st.memory l1 mmu.l1L2Idx l2pte
  { st with memory := Radix.write memory (ptpPaddr l2pte) mmu.l2L2Idx l1pte }

/-! ## The loops of `aarch64_map` -/

/-- Where the innermost loop is: its index, `va`, `pte`, and the memory. -/
structure Cursor where
  l3i : Nat
  va : Nat
  pte : Nat
  memory : Nat → Nat → Nat

/-- The innermost loop, that stores so many entries. -/
def storeEntries (l3 : Nat) : Nat → Cursor → Cursor
  | 0, c => c
  | n + 1, c =>
      storeEntries l3 n
        { l3i := c.l3i + 1
          va := c.va + PAGESIZE
          pte := add 64 c.pte PAGESIZE
          memory := Radix.write c.memory l3 c.l3i c.pte }

/-- The loop over the entries of an L3 table.  Each round goes on by one entry at least. -/
def mapL3 (l3 last : Nat) : Nat → Cursor → Cursor
  | 0, c => c
  | rounds + 1, c =>
      if c.l3i < NPTE_PTBL ∧ c.va < last then
        if useContig c.va (trunc 64 c.pte PAGESIZE) (last - c.va) (CONTIG_PAGES * PAGESIZE) then
          let c := storeEntries l3 CONTIG_PAGES { c with pte := c.pte ||| mmu.pteContig }
          mapL3 l3 last rounds { c with pte := c.pte &&& Word.compl 64 mmu.pteContig }
        else mapL3 l3 last rounds (storeEntries l3 1 c)
      else c

/-- Where the outer loops are. -/
structure Progress where
  st : State
  va : Nat
  pte : Nat

/-- The loop over the entries of an L2 table. -/
def mapL2 (l2 last : Nat) : Nat → Nat → Progress → Progress
  | 0, _, p => p
  | rounds + 1, l2i, p =>
      if l2i < NPTE_PTBL ∧ p.va < last then
        let st := ensureTable mmu frames system l2 l2i p.st
        let l3 := ptpPaddr (st.memory l2 l2i)
        let c := mapL3 mmu l3 last NPTE_PTBL ⟨mmu.l3Idx p.va, p.va, p.pte, st.memory⟩
        mapL2 l2 last rounds (l2i + 1) ⟨{ st with memory := c.memory }, c.va, c.pte⟩
      else p

/-- The loop over the entries of the L1 table. -/
def mapL1 (l1 last : Nat) : Nat → Nat → Progress → Progress
  | 0, _, p => p
  | rounds + 1, l1i, p =>
      if l1i < NPTE_PTBL ∧ p.va < last then
        let st := ensureTable mmu frames system l1 l1i p.st
        let l2 := ptpPaddr (st.memory l1 l1i)
        let p := mapL2 mmu frames system l2 last NPTE_PTBL (mmu.l2Idx p.va) { p with st := st }
        mapL1 l1 last rounds (l1i + 1) p
      else p

/-- The arguments of `aarch64_map`; no address is `~0`. -/
structure Request where
  vaddr : Option Nat
  paddr : Nat
  size : Nat
  flags : Prot
deriving DecidableEq, Repr

namespace Request

variable (q : Request)

/-- `off`. -/
def off : Nat := q.paddr % PAGESIZE

/-- `paddr` without its offset. -/
def frame : Nat := q.paddr / PAGESIZE * PAGESIZE

/-- `size`, rounded to whole pages. -/
def span : Nat := round 64 (add 64 q.size q.off) PAGESIZE

/-- The address that the request gives, or `free_vaddr`. -/
def target (st : State) : Nat := q.vaddr.getD st.freeVaddr

/-- `va` before the loops. -/
def start (st : State) : Nat := trunc 64 (q.target st) PAGESIZE

/-- `end`. -/
def last (st : State) : Nat := add 64 (q.start st) q.span

end Request

/-- `aarch64_map` for a virtual image; nothing where it crashes. -/
def aarch64Map (q : Request) (st : State) : Option (Nat × State) :=
  let vaddr := q.target st
  let st' := if q.vaddr = none then { st with freeVaddr := add 64 st.freeVaddr q.span } else st
  if q.vaddr ≠ none ∧ vaddr % PAGESIZE ≠ q.off then none
  else
    let va := q.start st
    let last := q.last st
    if last < va then none
    else if va < mmu.userEnd ∧ mmu.userEnd ≤ last then none
    else if ¬ va < mmu.userEnd ∧ va < mmu.startupBase then none
    else
      let l1 := if va < mmu.userEnd then st.l1Ttbr0 else st.l1Ttbr1
      let pte := setPte mmu system q.frame q.flags
      let p := mapL1 mmu frames system l1 last NPTE_PTBL (mmu.l1Idx va) ⟨st', va, pte⟩
      -- `calloc_ram` crashes when it is asked for more pages than it has.
      if frames.count < p.st.taken then none
      else some (add 64 vaddr q.off, p.st)

end Map

/-- `elf_vaddr_to_paddr`: nothing where it crashes, and no address where it returns
`NULL_PADDR`. -/
def elfVaddrToPaddr (mmu : Mmu) (st : State) (vaddr : Nat) : Option (Option Nat) :=
  if ¬ vaddr < mmu.userEnd ∧ vaddr < mmu.startupBase then none
  else
    let l1 := if vaddr < mmu.userEnd then st.l1Ttbr0 else st.l1Ttbr1
    let pa := st.memory l1 (mmu.l1Idx vaddr)
    if pa &&& mmu.ptpValid = 0 then some none
    else if mmu.ptpType pa = mmu.ptpBlock then some (some (ptpPaddr pa ||| mmu.l1Voff vaddr))
    else
      let pa := st.memory (ptpPaddr pa) (mmu.l2Idx vaddr)
      if pa &&& mmu.ptpValid = 0 then some none
      else if mmu.ptpType pa = mmu.ptpBlock then some (some (ptpPaddr pa ||| mmu.l2Voff vaddr))
      else
        let pa := st.memory (ptpPaddr pa) (mmu.l3Idx vaddr)
        if pa &&& mmu.pteValid ≠ mmu.pteValid then some none
        else some (some (ptpPaddr pa ||| mmu.l3Voff vaddr))

/-! ## Descriptors as numbers -/

theorem ptpPaddr_eq (ptp : Nat) : ptpPaddr ptp = ptp / 2 ^ 12 % 2 ^ 36 * 2 ^ 12 := by
  have field : ptp &&& 0x0000fffffffff000 = ptp / 2 ^ 12 % 2 ^ 36 * 2 ^ 12 :=
    and_field ptp 36 12
  have small : ptp / 2 ^ 12 % 2 ^ 36 * 2 ^ 12 < 2 ^ 64 := by omega
  have page : PAGESIZE = 2 ^ 12 := rfl
  rw [ptpPaddr, field, page, trunc_two_pow small (by decide)]
  omega

theorem ptpPaddr_lt (ptp : Nat) : ptpPaddr ptp < 2 ^ 48 := by
  rw [ptpPaddr_eq]
  omega

theorem dvd_ptpPaddr (ptp : Nat) : 2 ^ 12 ∣ ptpPaddr ptp := by
  rw [ptpPaddr_eq]
  exact Nat.dvd_mul_left _ _

namespace Attribute

theorem or {first second : Nat} (left : Attribute first) (right : Attribute second) :
    Attribute (first ||| second) := by
  refine ⟨Nat.or_lt_two_pow left.1 right.1, ?_⟩
  rw [Nat.or_mod_two_pow]
  exact Nat.or_lt_two_pow left.2 right.2

/-- Attributes are added to an address by their bits. -/
theorem or_address {bits address : Nat} (isAttribute : Attribute bits)
    (aligned : 2 ^ 12 ∣ address) (small : address < 2 ^ 53) :
    address ||| bits = address + bits := by
  apply or_eq_add
  apply Nat.eq_of_testBit_eq
  intro bit
  rw [Nat.testBit_and, Nat.zero_testBit, Bool.and_eq_false_iff]
  obtain ⟨frame, rfl⟩ := aligned
  by_cases low : bit < 12
  · left
    rw [Nat.mul_comm, ← Nat.shiftLeft_eq, Nat.testBit_shiftLeft]
    simp [Nat.not_le.mpr low]
  by_cases high : bit < 53
  · right
    have within : (bits % 2 ^ 53).testBit bit = bits.testBit bit := by
      rw [Nat.testBit_mod_two_pow]
      simp [high]
    rw [← within]
    exact Nat.testBit_lt_two_pow
      (isAttribute.2.trans_le (Nat.pow_le_pow_right (by decide) (Nat.le_of_not_lt low)))
  · left
    exact Nat.testBit_lt_two_pow
      (small.trans_le (Nat.pow_le_pow_right (by decide) (Nat.le_of_not_lt high)))

end Attribute

section Descriptors

variable (mmu : Mmu) (system : System) (flags : Prot)

/-- The bits that `set_pte` puts beside the address. -/
def pteBits : Nat :=
  mmu.pteValid ||| (mmu.pteAf |||
    ((if flags.write then (if flags.user then mmu.pteUrw else mmu.pteKrw)
      else (if flags.user then mmu.pteUro else mmu.pteKro)) |||
    ((if flags.exec then 0 else mmu.pteUxn ||| mmu.ptePxn) |||
    ((if flags.device then (if flags.nocache then mmu.pteSodev else mmu.pteDev)
      else (if flags.nocache then mmu.pteNc else mmu.pteWbwa) |||
        (if system.smp then mmu.pteIsh else 0)) |||
    (if system.meltdown then mmu.pteNg else 0)))))

theorem setPte_eq_or (paddr : Nat) :
    setPte mmu system paddr flags = paddr ||| pteBits mmu system flags := by
  unfold setPte pteBits
  cases flags.exec <;> cases flags.device <;> cases system.smp <;> cases system.meltdown <;>
    simp [Nat.or_assoc]

theorem attribute_ite {condition : Prop} [Decidable condition] {yes no : Nat}
    (first : Attribute yes) (second : Attribute no) :
    Attribute (if condition then yes else no) := by
  split
  · exact first
  · exact second

theorem pteBits_attribute : Attribute (pteBits mmu system flags) := by
  have zero : Attribute 0 := ⟨by decide, by decide⟩
  have bits := mmu.bits_attribute
  simp only [List.forall_mem_cons] at bits
  obtain ⟨valid, af, urw, krw, uro, kro, uxn, pxn, sodev, dev, nc, wbwa, ish, ng, -⟩ := bits
  unfold pteBits
  apply valid.or
  apply af.or
  apply Attribute.or
  · exact attribute_ite (attribute_ite urw krw) (attribute_ite uro kro)
  apply Attribute.or
  · exact attribute_ite zero (uxn.or pxn)
  apply Attribute.or
  · exact attribute_ite (attribute_ite sodev dev)
      ((attribute_ite nc wbwa).or (attribute_ite ish zero))
  · exact attribute_ite ng zero

/-- For a page of the address space a descriptor is the address and the bits, added. -/
theorem setPte_eq_add {paddr : Nat} (aligned : 2 ^ 12 ∣ paddr) (small : paddr < 2 ^ 53) :
    setPte mmu system paddr flags = paddr + pteBits mmu system flags := by
  rw [setPte_eq_or]
  exact (pteBits_attribute mmu system flags).or_address aligned small

/-- The bits that mark a page or a table are set. -/
def IsTable (word : Nat) : Prop := word &&& mmu.pteValid = mmu.pteValid

theorem isTable_or (word rest : Nat) : IsTable mmu (word ||| (mmu.pteValid ||| rest)) := by
  apply Nat.eq_of_testBit_eq
  intro bit
  rw [Nat.testBit_and, Nat.testBit_or, Nat.testBit_or]
  cases mmu.pteValid.testBit bit <;> simp

variable {mmu} in
theorem IsTable.ne_zero {word : Nat} (isTable : IsTable mmu word) : word ≠ 0 := by
  rintro rfl
  rw [IsTable, Nat.zero_and] at isTable
  exact mmu.pteValid_ne isTable.symm

theorem setPte_isTable (paddr : Nat) : IsTable mmu (setPte mmu system paddr flags) := by
  rw [setPte_eq_or]
  exact isTable_or mmu _ _

theorem ptpPaddr_setPte {paddr : Nat} (aligned : 2 ^ 12 ∣ paddr) (small : paddr < 2 ^ 48) :
    ptpPaddr (setPte mmu system paddr flags) = paddr := by
  have bits := (pteBits_attribute mmu system flags).2
  rw [setPte_eq_add mmu system flags aligned (by omega), ptpPaddr_eq]
  omega

end Descriptors

/-! ## The tables form two trees -/

/-- The table to which a descriptor of the upper levels points. -/
def child (descriptor : Nat) : Option Nat :=
  if descriptor = 0 then none else some (ptpPaddr descriptor)

/-- The L1 table of the startup addresses, or of the system addresses. -/
def State.root (st : State) (kernel : Bool) : Nat := if kernel then st.l1Ttbr1 else st.l1Ttbr0

/-- The path goes through no slot in which the tables map themselves. -/
def Plain (mmu : Mmu) (kernel : Bool) (path : List Nat) : Prop :=
  kernel = true → ¬ [mmu.l1L1Idx] <+: path ∧ ¬ [mmu.l1L2Idx, mmu.l2L2Idx] <+: path

theorem plain_paths (mmu : Mmu) : Radix.Paths (Plain mmu) where
  init := by
    intro kernel path rest plain isKernel
    obtain ⟨first, second⟩ := plain isKernel
    exact ⟨fun starts => first (starts.trans (List.prefix_append path rest)),
      fun starts => second (starts.trans (List.prefix_append path rest))⟩

/-- The tables that have been taken from `calloc_ram`. -/
def Taken (frames : Frames) (taken table : Nat) : Prop := ∃ n < taken, table = frames.page n

/-- The tables are two trees, but for the slots in which they map themselves, and the upper
levels hold descriptors of tables only. -/
structure Sound (mmu : Mmu) (frames : Frames) (st : State) : Prop where
  forest : Radix.Forest child st.root (Plain mmu) 2 (Taken frames st.taken) st.memory
  upper : ∀ {kernel path index table}, Plain mmu kernel (path ++ [index]) → path.length < 2 →
    Radix.descend child st.memory (st.root kernel) path = some table →
    st.memory table index = 0 ∨ IsTable mmu (st.memory table index)
  free_aligned : 2 ^ 12 ∣ st.freeVaddr

/-- The entry of an L3 table, or 0 where there is none. -/
def State.leaf (st : State) (kernel : Bool) (path : List Nat) (index : Nat) : Nat :=
  Radix.Forest.leaf child 0 st.memory (st.root kernel) path index

namespace Sound

variable {mmu : Mmu} {frames : Frames} {st : State} {kernel : Bool} {path : List Nat}
  {table : Nat}

theorem taken_fresh {taken : Nat} (left : taken < frames.count) :
    ¬ Taken frames taken (frames.page taken) := by
  rintro ⟨n, below, same⟩
  exact absurd (frames.distinct _ left n (below.trans left) same) (Nat.ne_of_gt below)

/-- What is stored in an L3 table leaves the trees as they are. -/
theorem store (sound : Sound mmu frames st) (plain : Plain mmu kernel path)
    (bottom : path.length = 2)
    (reached : Radix.descend child st.memory (st.root kernel) path = some table)
    {memory : Nat → Nat → Nat} (same : ∀ other, other ≠ table → memory other = st.memory other) :
    Sound mmu frames { st with memory := memory } where
  forest := sound.forest.rewritten (plain_paths mmu) plain bottom reached same
  upper := by
    intro kernel' path' slot found plain' short reached'
    have plainPath' := (plain_paths mmu).init plain'
    have before := (sound.forest.descend_bottom (plain_paths mmu) plain bottom reached same
      plainPath' short.le).symm.trans reached'
    have different : found ≠ table := by
      rintro rfl
      obtain ⟨-, rfl⟩ := sound.forest.apart plainPath' plain short.le bottom.le before reached
      omega
    dsimp only
    rw [same found different]
    exact sound.upper plain' short before
  free_aligned := sound.free_aligned

end Sound

/-- One state of the tables comes after another: the ways that were there are kept. -/
structure Grows (mmu : Mmu) (st st' : State) : Prop where
  roots : st'.root = st.root
  ways : ∀ {kernel path table}, Plain mmu kernel path → path.length ≤ 2 →
    Radix.descend child st.memory (st.root kernel) path = some table →
    Radix.descend child st'.memory (st'.root kernel) path = some table
  free : st'.freeVaddr = st.freeVaddr

namespace Grows

variable {mmu : Mmu} {st st' st'' : State}

theorem refl (mmu : Mmu) (st : State) : Grows mmu st st := ⟨rfl, fun _ _ way => way, rfl⟩

theorem trans (first : Grows mmu st st') (second : Grows mmu st' st'') : Grows mmu st st'' where
  roots := second.roots.trans first.roots
  ways plain short way := second.ways plain short (first.ways plain short way)
  free := second.free.trans first.free

end Grows

theorem ensureTable_of_empty (mmu : Mmu) (frames : Frames) (system : System) {table index : Nat}
    {st : State} (empty : st.memory table index = 0) :
    ensureTable mmu frames system table index st =
      { st with
        memory := Radix.Forest.linked st.memory 0 (frames.page st.taken) table index
          (setPte mmu system (frames.page st.taken) protRw)
        taken := st.taken + 1 } := by
  rw [ensureTable, if_pos empty]
  rfl

theorem child_setPte (mmu : Mmu) {frames : Frames} (system : System) {n : Nat}
    (left : n < frames.count) :
    child (setPte mmu system (frames.page n) protRw) = some (frames.page n) := by
  rw [child, if_neg (setPte_isTable mmu system protRw _).ne_zero,
    ptpPaddr_setPte mmu system protRw (frames.aligned n left) (frames.small n left)]

/-- No table is given back. -/
theorem le_ensureTable (mmu : Mmu) (frames : Frames) (system : System) (table index : Nat)
    (st : State) : st.taken ≤ (ensureTable mmu frames system table index st).taken := by
  by_cases empty : st.memory table index = 0
  · rw [ensureTable_of_empty mmu frames system empty]
    exact Nat.le_succ _
  · rw [ensureTable, if_neg empty]

namespace Sound

variable {mmu : Mmu} {frames : Frames} {st : State} {kernel : Bool} {path : List Nat}
  {index table : Nat}

/-- A slot of an upper level gets a table where it has none, and no page is mapped otherwise. -/
theorem ensure (sound : Sound mmu frames st) (system : System)
    (plain : Plain mmu kernel (path ++ [index])) (short : path.length < 2)
    (reached : Radix.descend child st.memory (st.root kernel) path = some table)
    (enough : (ensureTable mmu frames system table index st).taken ≤ frames.count) :
    let st' := ensureTable mmu frames system table index st
    Sound mmu frames st' ∧ Grows mmu st st' ∧
      Radix.descend child st'.memory (st'.root kernel) (path ++ [index]) =
        some (ptpPaddr (st'.memory table index)) ∧
      ∀ {kernel' path'} (slot), Plain mmu kernel' path' → path'.length = 2 →
        st'.leaf kernel' path' slot = st.leaf kernel' path' slot := by
  intro st'
  have paths := plain_paths mmu
  by_cases empty : st.memory table index = 0
  · have step : st' = _ := ensureTable_of_empty mmu frames system empty
    have free : child (st.memory table index) = none := if_pos empty
    rw [ensureTable_of_empty mmu frames system empty] at enough
    have left : st.taken < frames.count := enough
    have isFresh := taken_fresh left
    have isEmpty : child 0 = none := rfl
    have points := child_setPte mmu system left
    have noWay : Radix.descend child st.memory (st.root kernel) (path ++ [index]) = none := by
      rw [Radix.descend_concat reached, free]
    have written : st'.memory table index =
        setPte mmu system (frames.page st.taken) protRw := by
      rw [step]
      exact Radix.write_same
    have notFresh : table ≠ frames.page st.taken := by
      rintro rfl
      exact isFresh (sound.forest.inUse (paths.init plain) short.le reached)
    have grows : Grows mmu st st' := by
      refine ⟨by rw [step]; rfl, ?_, by rw [step]⟩
      intro kernel' path' found plain' short' reached'
      rw [step]
      refine (sound.forest.descend_linked paths plain short reached free isFresh isEmpty points
        plain' short').trans ?_
      rw [if_neg]
      · exact reached'
      · rintro ⟨rfl, rfl⟩
        rw [noWay] at reached'
        cases reached'
    have way : Radix.descend child st'.memory (st'.root kernel) (path ++ [index]) =
        some (ptpPaddr (st'.memory table index)) := by
      rw [Radix.descend_concat (grows.ways (paths.init plain) short.le reached), written, points,
        ptpPaddr_setPte mmu system protRw (frames.aligned _ left) (frames.small _ left)]
    refine ⟨⟨?_, ?_, ?_⟩, grows, way, ?_⟩
    · rw [step]
      refine (sound.forest.link paths plain short reached free isFresh isEmpty points).mono ?_
      rintro used (⟨n, below, rfl⟩ | rfl)
      · exact ⟨n, Nat.lt_succ_of_lt below, rfl⟩
      · exact ⟨st.taken, Nat.lt_succ_self _, rfl⟩
    · intro kernel' path' slot found plain' short' reached'
      have plainPath' := paths.init plain'
      rw [step] at reached' ⊢
      have reached' := (sound.forest.descend_linked paths plain short reached free isFresh isEmpty
        points plainPath' short'.le).symm.trans reached'
      dsimp only
      split at reached'
      · -- The fresh table is empty.
        cases reached'
        left
        rw [Radix.Forest.linked, Radix.write_of_table_ne notFresh.symm, Function.update_self]
      · have foundNe : found ≠ frames.page st.taken := by
          rintro rfl
          exact isFresh (sound.forest.inUse plainPath' short'.le reached')
        by_cases here : found = table ∧ slot = index
        · obtain ⟨rfl, rfl⟩ := here
          right
          rw [Radix.Forest.linked, Radix.write_same]
          exact setPte_isTable mmu system protRw _
        · rw [Radix.Forest.linked, Radix.write_of_ne here, Function.update_of_ne foundNe]
          exact sound.upper plain' short' reached'
    · rw [step]
      exact sound.free_aligned
    · intro kernel' path' slot plain' bottom'
      rw [step]
      exact sound.forest.leaf_linked paths plain short reached free isFresh isEmpty points plain'
        bottom' slot
  · have step : st' = st := if_neg empty
    rw [step]
    refine ⟨sound, Grows.refl mmu st, ?_, fun _ _ _ => rfl⟩
    rw [Radix.descend_concat reached, child, if_neg empty]

end Sound

/-! ## The entry of an address -/

/-- The address belongs to the system, not to the startup code. -/
def isKernel (mmu : Mmu) (vaddr : Nat) : Bool := !decide (vaddr < mmu.userEnd)

/-- `elf_vaddr_to_paddr` accepts the address. -/
def Addressable (mmu : Mmu) (vaddr : Nat) : Prop :=
  vaddr < mmu.userEnd ∨ (mmu.startupBase ≤ vaddr ∧ vaddr < 2 ^ 64)

/-- The indices of the two upper levels. -/
def pathOf (mmu : Mmu) (vaddr : Nat) : List Nat := [mmu.l1Idx vaddr, mmu.l2Idx vaddr]

/-- The address is not translated by a slot in which the tables map themselves. -/
def Open (mmu : Mmu) (vaddr : Nat) : Prop := Plain mmu (isKernel mmu vaddr) (pathOf mmu vaddr)

/-- The entry of the L3 table for an address, or 0. -/
def State.entryAt (mmu : Mmu) (st : State) (vaddr : Nat) : Nat :=
  st.leaf (isKernel mmu vaddr) (pathOf mmu vaddr) (mmu.l3Idx vaddr)

section Addresses

variable {mmu : Mmu} {u v : Nat}

theorem Addressable.bounds (addressable : Addressable mmu v) :
    (isKernel mmu v = false ∧ v < 2 ^ 39) ∨
      (isKernel mmu v = true ∧ 2 ^ 64 - 2 ^ 39 ≤ v ∧ v < 2 ^ 64) := by
  have low := mmu.userEnd_le
  have high := mmu.le_startupBase
  rcases addressable with user | ⟨system, fits⟩
  · exact Or.inl ⟨by simp [isKernel, user], user.trans_le low⟩
  · have notUser : ¬ v < mmu.userEnd := by omega
    exact Or.inr ⟨by simp [isKernel, notUser], high.trans system, fits⟩

/-- The tree and the path of an address determine its 2 MB. -/
theorem sameTable (first : Addressable mmu u) (second : Addressable mmu v)
    (tree : isKernel mmu u = isKernel mmu v) (path : pathOf mmu u = pathOf mmu v) :
    u / 2 ^ 21 = v / 2 ^ 21 := by
  simp only [pathOf, List.cons.injEq, and_true, mmu.l1Idx_eq, mmu.l2Idx_eq] at path
  obtain ⟨l1, l2⟩ := path
  rcases first.bounds with ⟨low, bound⟩ | ⟨high, bound⟩ <;>
    rcases second.bounds with ⟨low', bound'⟩ | ⟨high', bound'⟩
  · omega
  · rw [low, high'] at tree
    cases tree
  · rw [high, low'] at tree
    cases tree
  · omega

theorem pathOf_congr (same : u / 2 ^ 21 = v / 2 ^ 21) : pathOf mmu u = pathOf mmu v := by
  simp only [pathOf, List.cons.injEq, and_true, mmu.l1Idx_eq, mmu.l2Idx_eq]
  omega

end Addresses

end Bcm2711.Startup.PageTables
