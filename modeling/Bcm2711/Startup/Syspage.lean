import Bcm2711.Lib.Bytes
import Bcm2711.Lib.Run
import Bcm2711.Startup.Types

/-! # The sections of the temporary system page

The system page is built in one block of memory: a header, then the sections.  `lsp`
holds a pointer to each section and its size; sections that are still empty share
addresses with their neighbours.  Growing a section moves everything behind it, and the
pointers and callout owners that point there.

The declarations in `sys/syspage.h` are not part of the repository; what the code needs
of them is a `SyspageLayout`.
-/

namespace Bcm2711.Startup

open Runs

/-- The sections of `struct local_syspage`, the processor's own ones last. -/
inductive Section where
  | syspage
  | systemPrivate
  | asinfo
  | hwinfo
  | cpuinfo
  | cacheattr
  | qtime
  | callout
  | typedStrings
  | strings
  | intrinfo
  | smp
  | hypinfo
  | cluster
  | aarch64GicMap
  | aarch64GicrMap
  | aarch64IdregDump
deriving DecidableEq, Repr

/-- The sections from `SECTION_START` to `SECTION_END`. -/
def Section.all : List Section :=
  [.syspage, .systemPrivate, .asinfo, .hwinfo, .cpuinfo, .cacheattr, .qtime, .callout,
    .typedStrings, .strings, .intrinfo, .smp, .hypinfo, .cluster, .aarch64GicMap,
    .aarch64GicrMap, .aarch64IdregDump]

/-- Every section is met once. -/
theorem Section.sum_ite (sect : Section) (added : Nat) :
    (Section.all.map fun other => if other = sect then added else 0).sum = added := by
  cases sect <;> simp [Section.all]

/-- `local_section`. -/
structure LocalSection where
  p : Nat
  size : Nat
deriving DecidableEq, Repr

/-- What the code needs to know of the declarations in `sys/syspage.h`. -/
structure SyspageLayout where
  /-- `sizeof(struct syspage_entry)`. -/
  headerSize : Nat
  /-- The bytes of `total_size` and of `size`. -/
  fieldBytes : Nat
  totalSizeOff : Nat
  sizeOff : Nat
  /-- A header with its version, element sizes and processor count, otherwise zero. -/
  header : Nat → UInt8
  /-- `sizeof(struct callout_entry)`. -/
  calloutSize : Nat
  /-- `sizeof(struct hwi_prefix)`. -/
  hwiPrefixSize : Nat
  /-- `PROCESSORS_MAX`. -/
  processorsMax : Nat
  totalSize_inside : totalSizeOff + fieldBytes ≤ headerSize
  size_inside : sizeOff + fieldBytes ≤ headerSize
  fields_apart : totalSizeOff + fieldBytes ≤ sizeOff ∨ sizeOff + fieldBytes ≤ totalSizeOff
  header_nonempty : 0 < headerSize

/-- A `co_info` of `patch_data`. -/
structure PatchData where
  owner : Nat
  data : Nat
deriving DecidableEq, Repr

/-- The memory, `lsp`, `fixed_size` and `patch_data`. -/
structure Syspage where
  memory : Bytes.Memory
  lsp : Section → LocalSection
  fixedSize : Nat
  patchData : List PatchData

/-- The address of the system page. -/
def Syspage.base (state : Syspage) : Nat := (state.lsp .syspage).p

variable (layout : SyspageLayout)

/-- `lsp.syspage.p->total_size`. -/
def Syspage.totalSize (state : Syspage) : Nat :=
  Bytes.load state.memory layout.fieldBytes (state.base + layout.totalSizeOff)

/-- `lsp.syspage.p->size`, the most the system page may grow to while it is built. -/
def Syspage.maxSize (state : Syspage) : Nat :=
  Bytes.load state.memory layout.fieldBytes (state.base + layout.sizeOff)

/-- `lsp.syspage.p->total_size = value`. -/
def Syspage.setTotalSize (state : Syspage) (value : Nat) : Syspage :=
  { state with
    memory := Bytes.store state.memory layout.fieldBytes (state.base + layout.totalSizeOff) value }

/-- `lsp.syspage.p->size = value`. -/
def Syspage.setMaxSize (state : Syspage) (value : Nat) : Syspage :=
  { state with
    memory := Bytes.store state.memory layout.fieldBytes (state.base + layout.sizeOff) value }

/-- `ROUND(size, sizeof(uint64_t))` stored in an `unsigned`. -/
def roundSize (size : Nat) : Nat := ROUND size 8 % 2 ^ 32

/-- `callout_reloc_data`. -/
def calloutRelocData (patchData : List PatchData) (base len diff : Nat) : List PatchData :=
  patchData.map fun pd =>
    if base ≤ pd.owner ∧ addPaddr base len > pd.owner then
      { pd with owner := addPaddr pd.owner diff }
    else pd

/-- `grow_syspage_section`. -/
def growSyspageSection (state : Syspage) (sect : Section) (add : Nat) : Result Syspage :=
  if add > 0 then
    let add := roundSize add
    let totalSize := state.totalSize layout
    let newSize := Word.add 32 totalSize add
    let maxSize := state.maxSize layout
    if newSize > maxSize then
      .error (.crash
        s!"Syspage memory request of {newSize} exceeds maximum of {maxSize} bytes.\n")
    else
      let bottom := addPaddr (state.lsp sect).p (state.lsp sect).size
      let lsp : Section → LocalSection := fun other =>
        if other ≠ sect ∧ (state.lsp other).p ≥ bottom then
          { state.lsp other with p := addPaddr (state.lsp other).p add }
        else state.lsp other
      let len := Word.sub 32 totalSize (subPaddr bottom (lsp .syspage).p)
      let memory := Bytes.move state.memory (addPaddr bottom add) bottom len
      let patchData := calloutRelocData state.patchData bottom len add
      let memory := Bytes.fill memory bottom 0 add
      let lsp := Function.update lsp sect
        { lsp sect with size := Word.add 32 (lsp sect).size add }
      .ok (Syspage.setTotalSize layout
        { state with memory := memory, lsp := lsp, patchData := patchData } newSize)
  else .ok state

/-- `set_syspage_section`. -/
def setSyspageSection (state : Syspage) (sect : Section) (size : Nat) : Result Syspage :=
  let size := roundSize size
  let placed := Function.update state.lsp sect
    { state.lsp sect with p := addPaddr state.base state.fixedSize }
  growSyspageSection layout
    { state with lsp := placed, fixedSize := Word.add 32 state.fixedSize size } sect size

/-- The part of `init_syspage_memory` before the first section is placed. -/
def initHeader (memory : Bytes.Memory) (base maxSize : Nat) : Syspage :=
  let spsize := roundSize layout.headerSize
  let lsp : Section → LocalSection := fun sect =>
    if sect = .syspage then ⟨base, spsize⟩ else ⟨addPaddr base spsize, 0⟩
  let memory : Bytes.Memory := fun address =>
    if base ≤ address ∧ address < base + spsize then layout.header (address - base)
    else memory address
  let state : Syspage := ⟨memory, lsp, spsize, []⟩
  Syspage.setMaxSize layout (Syspage.setTotalSize layout state spsize) maxSize

/-- `init_syspage_memory`, before `hwi_default` fills in the first hardware items. -/
def initSyspageMemory (memory : Bytes.Memory) (base maxSize : Nat) : Result Syspage := do
  let state ← setSyspageSection layout (initHeader layout memory base maxSize) .callout
    layout.calloutSize
  let state ← growSyspageSection layout state .typedStrings 4
  let state ← growSyspageSection layout state .strings 1
  let state ← growSyspageSection layout state .hwinfo layout.hwiPrefixSize
  setSyspageSection layout state .aarch64GicMap (8 * layout.processorsMax)

/-- `reloc_syspage_memory`. -/
def relocSyspageMemory (state : Syspage) (base maxSize : Nat) : Syspage :=
  let old := state.base
  let memory := Bytes.move state.memory base old (state.totalSize layout)
  let diff := subPaddr base old
  -- The length is read at the old place again, behind the copy.
  let len := Bytes.load memory layout.fieldBytes (old + layout.totalSizeOff)
  let patchData := calloutRelocData state.patchData old len diff
  let lsp : Section → LocalSection := fun sect =>
    { state.lsp sect with p := addPaddr (state.lsp sect).p diff }
  Syspage.setMaxSize layout
    { state with memory := memory, lsp := lsp, patchData := patchData } maxSize

/-- `callout_register_data`; `hasPatcher` tells for the address of a `callout_rtn` whether
its patcher is set. -/
def calloutRegisterData (hasPatcher : Nat → Bool) (state : Syspage) (rp data : Nat) : Syspage :=
  let rtn := Bytes.load state.memory 8 rp
  if data ≠ 0 ∧ rtn ≠ 0 ∧ hasPatcher rtn then
    if state.patchData.any fun pd => pd.owner = rp then state
    else { state with patchData := ⟨rp, data⟩ :: state.patchData }
  else state

/-! ## The layout of the sections -/

/-- A size rounded up to eight bytes. -/
def roundedUp (size : Nat) : Nat := (size + 7) / 8 * 8

theorem roundSize_eq {size : Nat} (fits : roundedUp size < 2 ^ 32) :
    roundSize size = roundedUp size := by
  have small : size + (2 ^ 3 - 1) < 2 ^ 64 := by
    unfold roundedUp at fits
    omega
  have rounded : ROUND size (2 ^ 3) = roundedUp size := Word.round_two_pow (by decide) small
  have rounded : ROUND size 8 = roundedUp size := rounded
  rw [roundSize, rounded, Nat.mod_eq_of_lt fits]

theorem le_roundedUp (size : Nat) : size ≤ roundedUp size := by
  unfold roundedUp
  omega

theorem eight_dvd_roundedUp (size : Nat) : 8 ∣ roundedUp size := Nat.dvd_mul_left _ _

/-- The bytes of a section. -/
def Syspage.range (state : Syspage) (sect : Section) : Set Nat :=
  Set.Ico (state.lsp sect).p ((state.lsp sect).p + (state.lsp sect).size)

variable {layout}

/-- The sections lie behind the header, inside the system page, side by side. -/
structure Syspage.Valid (layout : SyspageLayout) (state : Syspage) : Prop where
  header : layout.headerSize ≤ (state.lsp .syspage).size
  behind : ∀ sect, sect ≠ .syspage →
    state.base + (state.lsp .syspage).size ≤ (state.lsp sect).p
  inside : ∀ sect, (state.lsp sect).p + (state.lsp sect).size ≤
    state.base + state.totalSize layout
  eight : ∀ sect, 8 ∣ (state.lsp sect).size
  /-- Also for empty sections: none points into another section. -/
  beside : ∀ one other, one ≠ other →
    (state.lsp one).p + (state.lsp one).size ≤ (state.lsp other).p ∨
      (state.lsp other).p + (state.lsp other).size ≤ (state.lsp one).p
  total : state.totalSize layout = (Section.all.map fun sect => (state.lsp sect).size).sum
  maximum : state.totalSize layout ≤ state.maxSize layout
  maxSize_lt : state.maxSize layout < 2 ^ 32
  field_lt : state.maxSize layout < 256 ^ layout.fieldBytes
  memory_lt : state.base + state.maxSize layout < 2 ^ 64

/-- `fixed_size` counts at least the header and stays inside the system page. -/
def Syspage.FixedInside (layout : SyspageLayout) (state : Syspage) : Prop :=
  layout.headerSize ≤ state.fixedSize ∧ state.fixedSize ≤ state.totalSize layout

/-- No section spans the offset `fixed_size`, where `set_syspage_section` places the next
section. -/
def Syspage.Boundary (state : Syspage) : Prop :=
  ∀ sect, (state.lsp sect).p + (state.lsp sect).size ≤ state.base + state.fixedSize ∨
    state.base + state.fixedSize ≤ (state.lsp sect).p

/-- A place in a section that is not one of the two size fields of the header. -/
def ContentAt (layout : SyspageLayout) (sect : Section) (place : Nat) : Prop :=
  sect = .syspage →
    (place < layout.totalSizeOff ∨ layout.totalSizeOff + layout.fieldBytes ≤ place) ∧
      (place < layout.sizeOff ∨ layout.sizeOff + layout.fieldBytes ≤ place)

/-- The contents of every section are what they were, and one section is extended by a
number of zero bytes. -/
structure Kept (layout : SyspageLayout) (before after : Syspage) (grown : Section)
    (added : Nat) : Prop where
  size : ∀ sect, (after.lsp sect).size =
    (before.lsp sect).size + if sect = grown then added else 0
  contents : ∀ sect place, place < (before.lsp sect).size → ContentAt layout sect place →
    after.memory ((after.lsp sect).p + place) = before.memory ((before.lsp sect).p + place)
  zeros : ∀ place, (before.lsp grown).size ≤ place → place < (before.lsp grown).size + added →
    after.memory ((after.lsp grown).p + place) = 0

/-- A callout owner, by its place in a section, and the data registered for it. -/
structure Mark where
  sect : Section
  place : Nat
  data : Nat
deriving DecidableEq, Repr

/-- The patch data of an owner at its place. -/
def Mark.patchData (mark : Mark) (lsp : Section → LocalSection) : PatchData :=
  ⟨(lsp mark.sect).p + mark.place, mark.data⟩

/-- The callout owners stand at these places of these sections. -/
structure Owners (state : Syspage) (marks : List Mark) : Prop where
  points : state.patchData = marks.map fun mark => mark.patchData state.lsp
  inside : ∀ mark ∈ marks, mark.place < (state.lsp mark.sect).size

namespace Syspage.Valid

variable {state : Syspage}

/-- The two size fields lie in front of every section but the header. -/
theorem fields_before (valid : state.Valid layout) {sect : Section} (other : sect ≠ .syspage) :
    state.base + layout.headerSize ≤ (state.lsp sect).p := by
  have header := valid.header
  have behind := valid.behind sect other
  omega

/-- Where the end of a section splits the others: each starts behind it or ends in front of
the section. -/
theorem split (valid : state.Valid layout) {sect other : Section} (different : other ≠ sect) :
    (state.lsp sect).p + (state.lsp sect).size ≤ (state.lsp other).p ∨
      (state.lsp other).p < (state.lsp sect).p + (state.lsp sect).size ∧
        (state.lsp other).p + (state.lsp other).size ≤ (state.lsp sect).p := by
  rcases valid.beside sect other different.symm with after | before
  · exact Or.inl after
  · by_cases behind : (state.lsp sect).p + (state.lsp sect).size ≤ (state.lsp other).p
    · exact Or.inl behind
    · exact Or.inr ⟨Nat.lt_of_not_le behind, before⟩

theorem base_le (valid : state.Valid layout) (sect : Section) :
    state.base ≤ (state.lsp sect).p := by
  by_cases isHeader : sect = .syspage
  · rw [isHeader]
    exact le_rfl
  · have behind := valid.behind sect isHeader
    omega

/-- Every section ends behind the two size fields. -/
theorem header_le_stop (valid : state.Valid layout) (sect : Section) :
    state.base + layout.headerSize ≤ (state.lsp sect).p + (state.lsp sect).size := by
  by_cases isHeader : sect = .syspage
  · have header := valid.header
    rw [isHeader]
    exact Nat.add_le_add_left header _
  · have before := valid.fields_before isHeader
    omega

end Syspage.Valid

/-! ## Growing a section -/

/-- The pointers and sizes after a section has grown. -/
def grownLsp (state : Syspage) (sect : Section) (added : Nat) (other : Section) :
    LocalSection :=
  if other = sect then ⟨(state.lsp sect).p, (state.lsp sect).size + added⟩
  else if (state.lsp sect).p + (state.lsp sect).size ≤ (state.lsp other).p then
    ⟨(state.lsp other).p + added, (state.lsp other).size⟩
  else state.lsp other

/-- The memory after a section has grown, before the header is updated. -/
def grownMemory (layout : SyspageLayout) (state : Syspage) (sect : Section) (added : Nat) :
    Bytes.Memory :=
  let bottom := (state.lsp sect).p + (state.lsp sect).size
  Bytes.fill (Bytes.move state.memory (bottom + added) bottom
    (state.totalSize layout - (bottom - state.base))) bottom 0 added

/-- The state after a section has grown. -/
def grown (layout : SyspageLayout) (state : Syspage) (sect : Section) (added : Nat) : Syspage :=
  let bottom := (state.lsp sect).p + (state.lsp sect).size
  Syspage.setTotalSize layout
    { state with
      memory := grownMemory layout state sect added
      lsp := grownLsp state sect added
      patchData := calloutRelocData state.patchData bottom
        (state.totalSize layout - (bottom - state.base)) added }
    (state.totalSize layout + added)

/-- `grow_syspage_section` within the maximum, where nothing wraps. -/
theorem growSyspageSection_eq {state : Syspage} (valid : state.Valid layout) {sect : Section}
    {add : Nat} (positive : 0 < add)
    (fits : state.totalSize layout + roundedUp add ≤ state.maxSize layout) :
    growSyspageSection layout state sect add = .ok (grown layout state sect (roundedUp add)) := by
  have inside := valid.inside sect
  have lowest := valid.base_le sect
  have stop := valid.header_le_stop sect
  have nonempty := layout.header_nonempty
  have maximum := valid.maxSize_lt
  have memory := valid.memory_lt
  have rounded : roundSize add = roundedUp add := roundSize_eq (by omega)
  have sum : Word.add 32 (state.totalSize layout) (roundedUp add) =
      state.totalSize layout + roundedUp add := Word.add_of_lt (by omega)
  have within : ¬ state.totalSize layout + roundedUp add > state.maxSize layout := by omega
  have bottom : addPaddr (state.lsp sect).p (state.lsp sect).size =
      (state.lsp sect).p + (state.lsp sect).size := addPaddr_of_lt (by omega)
  have isLsp : (Function.update (fun other =>
      if other ≠ sect ∧ (state.lsp other).p ≥ (state.lsp sect).p + (state.lsp sect).size then
        { state.lsp other with p := addPaddr (state.lsp other).p (roundedUp add) }
      else state.lsp other) sect
      { state.lsp sect with size := Word.add 32 (state.lsp sect).size (roundedUp add) }) =
      grownLsp state sect (roundedUp add) := by
    funext other
    by_cases here : other = sect
    · subst here
      have size : Word.add 32 (state.lsp other).size (roundedUp add) =
          (state.lsp other).size + roundedUp add := Word.add_of_lt (by omega)
      simp only [Function.update_self, grownLsp, ↓reduceIte, size]
    · have place := valid.inside other
      have moved : addPaddr (state.lsp other).p (roundedUp add) =
          (state.lsp other).p + roundedUp add := addPaddr_of_lt (by omega)
      simp only [Function.update_of_ne here, grownLsp, here, ne_eq, not_false_eq_true, true_and,
        ge_iff_le, ↓reduceIte, moved]
  have isBase : (if Section.syspage ≠ sect ∧
      (state.lsp .syspage).p ≥ (state.lsp sect).p + (state.lsp sect).size then
        { state.lsp .syspage with p := addPaddr (state.lsp .syspage).p (roundedUp add) }
      else state.lsp .syspage).p = state.base := by
    have notBehind : ¬ (state.lsp .syspage).p ≥ (state.lsp sect).p + (state.lsp sect).size := by
      have isBase : (state.lsp .syspage).p = state.base := rfl
      omega
    rw [if_neg fun both => notBehind both.2]
    rfl
  have gap : subPaddr ((state.lsp sect).p + (state.lsp sect).size) state.base =
      (state.lsp sect).p + (state.lsp sect).size - state.base :=
    subPaddr_of_le (by omega) (by omega)
  have len : Word.sub 32 (state.totalSize layout)
      ((state.lsp sect).p + (state.lsp sect).size - state.base) =
      state.totalSize layout - ((state.lsp sect).p + (state.lsp sect).size - state.base) :=
    Word.sub_of_le (by omega) (by omega)
  have target : addPaddr ((state.lsp sect).p + (state.lsp sect).size) (roundedUp add) =
      (state.lsp sect).p + (state.lsp sect).size + roundedUp add := addPaddr_of_lt (by omega)
  have isSelf : ¬ (sect ≠ sect ∧ (state.lsp sect).p ≥
      (state.lsp sect).p + (state.lsp sect).size) := fun both => both.1 rfl
  rw [growSyspageSection, if_pos positive, rounded]
  dsimp only
  rw [sum, if_neg within, bottom, isBase, gap, len, target, if_neg isSelf, isLsp]
  rfl

theorem grownLsp_self (state : Syspage) (sect : Section) (added : Nat) :
    grownLsp state sect added sect =
      ⟨(state.lsp sect).p, (state.lsp sect).size + added⟩ := by
  rw [grownLsp, if_pos rfl]

/-- Where the other sections are after one has grown. -/
theorem grownLsp_other {state : Syspage} (valid : state.Valid layout) {sect other : Section}
    (different : other ≠ sect) (added : Nat) :
    ((state.lsp sect).p + (state.lsp sect).size ≤ (state.lsp other).p ∧
      grownLsp state sect added other = ⟨(state.lsp other).p + added, (state.lsp other).size⟩) ∨
    ((state.lsp other).p + (state.lsp other).size ≤ (state.lsp sect).p ∧
      grownLsp state sect added other = state.lsp other) := by
  rcases valid.split different with behind | ⟨inFront, before⟩
  · refine Or.inl ⟨behind, ?_⟩
    rw [grownLsp, if_neg different, if_pos behind]
  · refine Or.inr ⟨before, ?_⟩
    rw [grownLsp, if_neg different, if_neg (Nat.not_le.mpr inFront)]

section Grown

variable {state : Syspage} {sect : Section} {added : Nat}

theorem grownLsp_header (valid : state.Valid layout) (sect : Section) (added : Nat) :
    (grownLsp state sect added .syspage).p = state.base := by
  by_cases isHeader : Section.syspage = sect
  · rw [← isHeader, grownLsp_self]
    rfl
  · have stop := valid.header_le_stop sect
    have nonempty := layout.header_nonempty
    rcases grownLsp_other valid isHeader added with ⟨behind, _⟩ | ⟨_, same⟩
    · have isBase : (state.lsp .syspage).p = state.base := rfl
      omega
    · rw [same]
      rfl

theorem grown_base (valid : state.Valid layout) (sect : Section) (added : Nat) :
    (grown layout state sect added).base = state.base :=
  grownLsp_header valid sect added

/-- In front of the end of the grown section memory is as it was, the header's size apart. -/
theorem grown_memory_before (valid : state.Valid layout) {address : Nat}
    (before : address < (state.lsp sect).p + (state.lsp sect).size)
    (notField : address < state.base + layout.totalSizeOff ∨
      state.base + layout.totalSizeOff + layout.fieldBytes ≤ address) :
    (grown layout state sect added).memory address = state.memory address := by
  have isBase := grownLsp_header valid sect added
  simp only [grown, Syspage.setTotalSize, Syspage.base, isBase]
  have field : (state.lsp .syspage).p = state.base := rfl
  rw [Bytes.store_of_not_mem (by omega), grownMemory, Bytes.fill_of_not_mem (Or.inl before),
    Bytes.move_of_not_mem (by omega)]

/-- Behind it memory has moved up. -/
theorem grown_memory_behind (valid : state.Valid layout) {address : Nat}
    (behind : (state.lsp sect).p + (state.lsp sect).size ≤ address)
    (inside : address < state.base + state.totalSize layout) :
    (grown layout state sect added).memory (address + added) = state.memory address := by
  have isBase := grownLsp_header valid sect added
  have stop := valid.header_le_stop sect
  have field := layout.totalSize_inside
  obtain ⟨place, rfl⟩ := Nat.exists_eq_add_of_le behind
  have regroup : (state.lsp sect).p + (state.lsp sect).size + place + added =
      (state.lsp sect).p + (state.lsp sect).size + added + place := by omega
  simp only [grown, Syspage.setTotalSize, Syspage.base, isBase]
  have same : (state.lsp .syspage).p = state.base := rfl
  rw [Bytes.store_of_not_mem (by omega), grownMemory, Bytes.fill_of_not_mem (by omega), regroup,
    Bytes.move_of_mem (by omega)]

/-- The gap is filled with zeros. -/
theorem grown_memory_gap (valid : state.Valid layout) {address : Nat}
    (behind : (state.lsp sect).p + (state.lsp sect).size ≤ address)
    (inside : address < (state.lsp sect).p + (state.lsp sect).size + added) :
    (grown layout state sect added).memory address = 0 := by
  have isBase := grownLsp_header valid sect added
  have stop := valid.header_le_stop sect
  have field := layout.totalSize_inside
  simp only [grown, Syspage.setTotalSize, Syspage.base, isBase]
  have same : (state.lsp .syspage).p = state.base := rfl
  rw [Bytes.store_of_not_mem (by omega), grownMemory, Bytes.fill_of_mem ⟨behind, inside⟩]

theorem grown_maxSize (valid : state.Valid layout) (sect : Section) (added : Nat) :
    (grown layout state sect added).maxSize layout = state.maxSize layout := by
  have stop := valid.header_le_stop sect
  have apart := layout.fields_apart
  have within := layout.size_inside
  rw [Syspage.maxSize, Syspage.maxSize, grown_base valid]
  refine Bytes.load_congr fun place below => ?_
  exact grown_memory_before valid (by omega) (by omega)

theorem grown_totalSize (valid : state.Valid layout)
    (fits : state.totalSize layout + added ≤ state.maxSize layout) (sect : Section) :
    (grown layout state sect added).totalSize layout = state.totalSize layout + added := by
  have limit := valid.field_lt
  rw [Syspage.totalSize, grown_base valid, ← Nat.mod_eq_of_lt (fits.trans_lt limit)]
  have isBase := grownLsp_header valid sect added
  simp only [grown, Syspage.setTotalSize, Syspage.base, isBase]
  exact Bytes.load_store

/-- A growing section keeps every section side by side. -/
theorem grown_valid (valid : state.Valid layout) (dvd : 8 ∣ added)
    (fits : state.totalSize layout + added ≤ state.maxSize layout) :
    (grown layout state sect added).Valid layout := by
  have isBase := grown_base valid sect added
  have total := grown_totalSize valid fits sect
  have maximum := grown_maxSize valid sect added
  have isLsp : (grown layout state sect added).lsp = grownLsp state sect added := rfl
  have size : ∀ other, (grownLsp state sect added other).size =
      (state.lsp other).size + if other = sect then added else 0 := by
    intro other
    by_cases here : other = sect
    · rw [here, grownLsp_self, if_pos rfl]
    · rw [if_neg here]
      rcases grownLsp_other valid here added with ⟨_, same⟩ | ⟨_, same⟩
      · rw [same, Nat.add_zero]
      · rw [same, Nat.add_zero]
  refine ⟨?_, ?_, ?_, ?_, ?_, ?_, ?_, ?_, ?_, ?_⟩
  · rw [isLsp, size]
    exact valid.header.trans (Nat.le_add_right _ _)
  · intro other notHeader
    have behind := valid.behind other notHeader
    rw [isBase, isLsp]
    by_cases isHeader : Section.syspage = sect
    · have different : other ≠ sect := isHeader ▸ notHeader
      rcases grownLsp_other valid different added with ⟨_, same⟩ | ⟨before, _⟩
      · rw [size, if_pos isHeader, same]
        dsimp only
        omega
      · have header := valid.header
        have nonempty := layout.header_nonempty
        have lowest := valid.base_le other
        rw [← isHeader] at before
        have isBase : (state.lsp .syspage).p = state.base := rfl
        omega
    · rw [size, if_neg isHeader, Nat.add_zero]
      by_cases here : other = sect
      · rw [here, grownLsp_self, ← here]
        exact behind
      · rcases grownLsp_other valid here added with ⟨_, same⟩ | ⟨_, same⟩
        · rw [same]
          dsimp only
          omega
        · rw [same]
          exact behind
  · intro other
    have inside := valid.inside other
    rw [isBase, isLsp, total]
    by_cases here : other = sect
    · rw [here, grownLsp_self, ← here]
      dsimp only
      omega
    · rcases grownLsp_other valid here added with ⟨_, same⟩ | ⟨_, same⟩
      · rw [same]
        dsimp only
        omega
      · rw [same]
        omega
  · intro other
    rw [isLsp, size]
    refine Nat.dvd_add (valid.eight other) ?_
    split
    · exact dvd
    · exact Nat.dvd_zero 8
  · intro one other different
    have beside := valid.beside one other different
    rw [isLsp]
    by_cases isOne : one = sect
    · subst isOne
      rw [grownLsp_self]
      rcases grownLsp_other valid different.symm added with ⟨behind, same⟩ | ⟨before, same⟩
      · rw [same]
        exact Or.inl (by dsimp only; omega)
      · rw [same]
        exact Or.inr before
    · by_cases isOther : other = sect
      · subst isOther
        rw [grownLsp_self]
        rcases grownLsp_other valid different added with ⟨behind, same⟩ | ⟨before, same⟩
        · rw [same]
          exact Or.inr (by dsimp only; omega)
        · rw [same]
          exact Or.inl before
      · rcases grownLsp_other valid isOne added with ⟨behindOne, sameOne⟩ | ⟨beforeOne, sameOne⟩ <;>
          rcases grownLsp_other valid isOther added with
            ⟨behindOther, sameOther⟩ | ⟨beforeOther, sameOther⟩ <;>
          · simp only [sameOne, sameOther]
            omega
  · rw [isLsp, total, valid.total]
    simp only [size]
    rw [List.sum_map_add, Section.sum_ite]
  · rw [total, maximum]
    exact fits
  · rw [maximum]
    exact valid.maxSize_lt
  · rw [maximum]
    exact valid.field_lt
  · rw [isBase, maximum]
    exact valid.memory_lt

/-- A growing section keeps the contents of all sections and gains zeros. -/
theorem grown_kept (valid : state.Valid layout) (sect : Section) (added : Nat) :
    Kept layout state (grown layout state sect added) sect added := by
  have isLsp : (grown layout state sect added).lsp = grownLsp state sect added := rfl
  refine ⟨?_, ?_, ?_⟩
  · intro other
    rw [isLsp]
    by_cases here : other = sect
    · rw [here, grownLsp_self, if_pos rfl]
    · rw [if_neg here]
      rcases grownLsp_other valid here added with ⟨_, same⟩ | ⟨_, same⟩
      · rw [same, Nat.add_zero]
      · rw [same, Nat.add_zero]
  · intro other place below content
    have inside := valid.inside other
    have field := layout.totalSize_inside
    have notField : (state.lsp other).p + place < state.base + layout.totalSizeOff ∨
        state.base + layout.totalSizeOff + layout.fieldBytes ≤ (state.lsp other).p + place := by
      by_cases isHeader : other = .syspage
      · have outside := (content isHeader).1
        have isBase : (state.lsp other).p = state.base := by
          rw [isHeader]
          rfl
        omega
      · have behind := valid.fields_before isHeader
        omega
    rw [isLsp]
    by_cases here : other = sect
    · subst here
      rw [grownLsp_self]
      exact grown_memory_before valid (Nat.add_lt_add_left below _) notField
    · rcases grownLsp_other valid here added with ⟨behind, same⟩ | ⟨before, same⟩
      · rw [same]
        dsimp only
        rw [Nat.add_right_comm]
        exact grown_memory_behind valid (by omega) (by omega)
      · rw [same]
        exact grown_memory_before valid (by omega) notField
  · intro place above below
    rw [isLsp, grownLsp_self]
    exact grown_memory_gap valid (by dsimp only; omega) (by dsimp only; omega)

/-- A growing section takes the callout owners along. -/
theorem grown_owners (valid : state.Valid layout)
    (fits : state.totalSize layout + added ≤ state.maxSize layout)
    {marks : List Mark} (owners : Owners state marks) :
    Owners (grown layout state sect added) marks := by
  have kept := grown_kept valid sect added
  refine ⟨?_, ?_⟩
  · have lowest := valid.base_le sect
    have bottom := valid.inside sect
    have memory := valid.memory_lt
    have stopped : addPaddr ((state.lsp sect).p + (state.lsp sect).size)
        (state.totalSize layout - ((state.lsp sect).p + (state.lsp sect).size - state.base)) =
        state.base + state.totalSize layout := by
      rw [addPaddr_of_lt (by omega)]
      omega
    have isData : (grown layout state sect added).patchData = calloutRelocData state.patchData
        ((state.lsp sect).p + (state.lsp sect).size) (state.totalSize layout -
          ((state.lsp sect).p + (state.lsp sect).size - state.base)) added := rfl
    rw [isData, calloutRelocData, stopped, owners.points, List.map_map]
    refine List.map_congr_left fun mark member => ?_
    have place := owners.inside mark member
    have inside := valid.inside mark.sect
    have isLsp : (grown layout state sect added).lsp = grownLsp state sect added := rfl
    have owner : (mark.patchData state.lsp).owner = (state.lsp mark.sect).p + mark.place := rfl
    rw [isLsp, Function.comp_apply]
    by_cases here : mark.sect = sect
    · have same : (grownLsp state sect added mark.sect).p = (state.lsp mark.sect).p := by
        rw [here, grownLsp_self]
      rw [here] at owner place
      rw [if_neg (by omega), Mark.patchData, Mark.patchData, same]
    · rcases grownLsp_other valid here added with ⟨behind, same⟩ | ⟨before, same⟩
      · rw [if_pos (by omega), owner, addPaddr_of_lt (by omega), Nat.add_right_comm]
        rw [Mark.patchData, Mark.patchData, same]
      · rw [if_neg (by omega), Mark.patchData, Mark.patchData, same]
  · intro mark member
    have inside := owners.inside mark member
    rw [kept.size]
    exact inside.trans_le (Nat.le_add_right _ _)

end Grown

/-- What growing a section does to the state. -/
structure Grew (layout : SyspageLayout) (before after : Syspage) (sect : Section)
    (added : Nat) : Prop where
  valid : after.Valid layout
  kept : Kept layout before after sect added
  owners : ∀ marks, Owners before marks → Owners after marks
  lsp : after.lsp = grownLsp before sect added
  fixedSize : after.fixedSize = before.fixedSize
  total : after.totalSize layout = before.totalSize layout + added
  maximum : after.maxSize layout = before.maxSize layout

theorem grownLsp_zero (state : Syspage) (sect : Section) : grownLsp state sect 0 = state.lsp := by
  funext other
  unfold grownLsp
  split
  · next here => rw [here, Nat.add_zero]
  · split
    · rw [Nat.add_zero]
    · rfl

/-- `grow_syspage_section` within the maximum. -/
theorem growSyspageSection_ok {state : Syspage} (valid : state.Valid layout) (sect : Section)
    {add : Nat} (fits : state.totalSize layout + roundedUp add ≤ state.maxSize layout) :
    ∃ after, growSyspageSection layout state sect add = .ok after ∧
      Grew layout state after sect (roundedUp add) := by
  cases add with
  | zero =>
      refine ⟨state, rfl, valid, ⟨?_, fun _ _ _ _ => rfl, ?_⟩, fun _ => id,
        (grownLsp_zero state sect).symm, rfl, rfl, rfl⟩
      · exact fun other => by simp [roundedUp]
      · intro place above below
        have none_added : roundedUp 0 = 0 := rfl
        omega
  | succ add =>
      exact ⟨_, growSyspageSection_eq valid (Nat.succ_pos add) fits,
        grown_valid valid (eight_dvd_roundedUp _) fits, grown_kept valid sect _,
        fun _ => grown_owners valid fits, rfl, rfl, grown_totalSize valid fits sect,
        grown_maxSize valid sect _⟩

theorem Grew.base {before after : Syspage} {sect : Section} {added : Nat}
    (grew : Grew layout before after sect added) (valid : before.Valid layout) :
    after.base = before.base := by
  rw [Syspage.base, grew.lsp]
  exact grownLsp_header valid sect added

theorem Grew.fixedInside {before after : Syspage} {sect : Section} {added : Nat}
    (grew : Grew layout before after sect added) (fixed : before.FixedInside layout) :
    after.FixedInside layout := by
  rw [Syspage.FixedInside, grew.fixedSize, grew.total]
  exact ⟨fixed.1, fixed.2.trans (Nat.le_add_right _ _)⟩

/-- Growing a section behind `fixed_size` leaves no section across it. -/
theorem Grew.boundary {before after : Syspage} {sect : Section} {added : Nat}
    (grew : Grew layout before after sect added) (valid : before.Valid layout)
    (boundary : before.Boundary) (unfixed : before.base + before.fixedSize ≤ (before.lsp sect).p) :
    after.Boundary := by
  intro other
  rw [grew.base valid, grew.fixedSize, grew.lsp]
  by_cases here : other = sect
  · rw [here, grownLsp_self]
    exact Or.inr unfixed
  · have old := boundary other
    rcases grownLsp_other valid here added with ⟨_, same⟩ | ⟨_, same⟩
    · rw [same]
      dsimp only
      omega
    · rw [same]
      exact old

/-! ## Placing a section -/

/-- The state of `set_syspage_section` before the section grows. -/
def placed (state : Syspage) (sect : Section) : Syspage :=
  { state with lsp := Function.update state.lsp sect ⟨state.base + state.fixedSize, 0⟩ }

section Placed

variable {state : Syspage} {sect : Section}

theorem roundedUp_roundedUp (size : Nat) : roundedUp (roundedUp size) = roundedUp size := by
  unfold roundedUp
  omega

/-- An empty section is not the header. -/
theorem Syspage.Valid.ne_header (valid : state.Valid layout) (empty : (state.lsp sect).size = 0) :
    sect ≠ .syspage := by
  rintro rfl
  have header := valid.header
  have nonempty := layout.header_nonempty
  omega

theorem placed_self : (placed state sect).lsp sect = ⟨state.base + state.fixedSize, 0⟩ :=
  Function.update_self _ _ _

theorem placed_other {other : Section} (different : other ≠ sect) :
    (placed state sect).lsp other = state.lsp other :=
  Function.update_of_ne different _ _

theorem placed_base (valid : state.Valid layout) (empty : (state.lsp sect).size = 0) :
    (placed state sect).base = state.base := by
  rw [Syspage.base, placed_other (valid.ne_header empty).symm]
  rfl

theorem placed_totalSize (valid : state.Valid layout) (empty : (state.lsp sect).size = 0) :
    (placed state sect).totalSize layout = state.totalSize layout := by
  rw [Syspage.totalSize, placed_base valid empty]
  rfl

theorem placed_maxSize (valid : state.Valid layout) (empty : (state.lsp sect).size = 0) :
    (placed state sect).maxSize layout = state.maxSize layout := by
  rw [Syspage.maxSize, placed_base valid empty]
  rfl

theorem placed_size (empty : (state.lsp sect).size = 0) (other : Section) :
    ((placed state sect).lsp other).size = (state.lsp other).size := by
  by_cases here : other = sect
  · rw [here, placed_self, empty]
  · rw [placed_other here]

/-- Moving an empty section to the boundary keeps every section side by side. -/
theorem placed_valid (valid : state.Valid layout) (empty : (state.lsp sect).size = 0)
    (boundary : state.Boundary) (fixed : state.FixedInside layout) :
    (placed state sect).Valid layout := by
  have isBase := placed_base valid empty
  have notHeader := valid.ne_header empty
  have size := @placed_size state sect empty
  have headerEnd : state.base + (state.lsp .syspage).size ≤ state.base + state.fixedSize := by
    have nonempty := layout.header_nonempty
    have fixedHeader := fixed.1
    have isBase : (state.lsp .syspage).p = state.base := rfl
    rcases boundary .syspage with before | behind
    · exact before
    · omega
  refine ⟨?_, ?_, ?_, ?_, ?_, ?_, ?_, ?_, ?_, ?_⟩
  · rw [size]
    exact valid.header
  · intro other different
    rw [isBase, size]
    by_cases here : other = sect
    · rw [here, placed_self]
      exact headerEnd
    · rw [placed_other here]
      exact valid.behind other different
  · intro other
    rw [isBase, placed_totalSize valid empty]
    by_cases here : other = sect
    · rw [here, placed_self]
      exact Nat.add_le_add_left fixed.2 _
    · rw [placed_other here]
      exact valid.inside other
  · intro other
    rw [size]
    exact valid.eight other
  · intro one other different
    by_cases isOne : one = sect
    · rw [isOne, placed_self, placed_other (isOne ▸ different.symm)]
      rcases boundary other with before | behind
      · exact Or.inr before
      · exact Or.inl behind
    · by_cases isOther : other = sect
      · rw [isOther, placed_self, placed_other isOne]
        exact boundary one
      · rw [placed_other isOne, placed_other isOther]
        exact valid.beside one other different
  · rw [placed_totalSize valid empty, valid.total]
    simp only [size]
  · rw [placed_totalSize valid empty, placed_maxSize valid empty]
    exact valid.maximum
  · rw [placed_maxSize valid empty]
    exact valid.maxSize_lt
  · rw [placed_maxSize valid empty]
    exact valid.field_lt
  · rw [isBase, placed_maxSize valid empty]
    exact valid.memory_lt

/-- What placing a section does to the state. -/
structure Placed (layout : SyspageLayout) (before after : Syspage) (sect : Section)
    (added : Nat) : Prop where
  valid : after.Valid layout
  fixed : after.FixedInside layout
  boundary : after.Boundary
  kept : Kept layout before after sect added
  owners : ∀ marks, Owners before marks → Owners after marks
  lsp : after.lsp = grownLsp (placed before sect) sect added
  base : after.base = before.base
  fixedSize : after.fixedSize = before.fixedSize + added
  total : after.totalSize layout = before.totalSize layout + added
  maximum : after.maxSize layout = before.maxSize layout

/-- `set_syspage_section` on an empty section, within the maximum and at a boundary. -/
theorem setSyspageSection_ok (valid : state.Valid layout) (fixed : state.FixedInside layout)
    (boundary : state.Boundary) (empty : (state.lsp sect).size = 0) {size : Nat}
    (fits : state.totalSize layout + roundedUp size ≤ state.maxSize layout) :
    ∃ after, setSyspageSection layout state sect size = .ok after ∧
      Placed layout state after sect (roundedUp size) := by
  have maximum := valid.maxSize_lt
  have memory := valid.memory_lt
  have inside := fixed.2
  have bounded := valid.maximum
  have rounded : roundSize size = roundedUp size := roundSize_eq (by omega)
  have sum : Word.add 32 state.fixedSize (roundedUp size) = state.fixedSize + roundedUp size :=
    Word.add_of_lt (by omega)
  have place : addPaddr state.base state.fixedSize = state.base + state.fixedSize :=
    addPaddr_of_lt (by omega)
  have moved : ({ state.lsp sect with p := state.base + state.fixedSize } : LocalSection) =
      ⟨state.base + state.fixedSize, 0⟩ := by
    dsimp only
    rw [empty]
  let ready : Syspage :=
    { placed state sect with fixedSize := state.fixedSize + roundedUp size }
  have readyValid : ready.Valid layout :=
    let old := placed_valid valid empty boundary fixed
    ⟨old.header, old.behind, old.inside, old.eight, old.beside, old.total, old.maximum,
      old.maxSize_lt, old.field_lt, old.memory_lt⟩
  have readyTotal : ready.totalSize layout = state.totalSize layout :=
    placed_totalSize valid empty
  have readyMaximum : ready.maxSize layout = state.maxSize layout := placed_maxSize valid empty
  have readyBase : ready.base = state.base := placed_base valid empty
  have readyFits : ready.totalSize layout + roundedUp (roundedUp size) ≤
      ready.maxSize layout := by
    rw [readyTotal, readyMaximum, roundedUp_roundedUp]
    exact fits
  obtain ⟨after, run, grew⟩ := growSyspageSection_ok readyValid sect readyFits
  rw [roundedUp_roundedUp] at grew
  have isBase := (grew.base readyValid).trans readyBase
  have total : after.totalSize layout = state.totalSize layout + roundedUp size := by
    rw [grew.total, readyTotal]
  refine ⟨after, ?_, grew.valid, ?_, ?_, ?_, ?_, grew.lsp, isBase, grew.fixedSize, total, ?_⟩
  · rw [setSyspageSection, rounded]
    dsimp only
    rw [sum, place, moved]
    exact run
  · rw [Syspage.FixedInside, grew.fixedSize, total]
    have lower := fixed.1
    simp only [ready]
    omega
  · intro other
    rw [isBase, grew.fixedSize, grew.lsp]
    simp only [ready]
    by_cases here : other = sect
    · rw [here, grownLsp_self]
      simp only [placed_self]
      omega
    · have old := boundary other
      have same : ready.lsp other = state.lsp other := placed_other here
      have spot : ready.lsp sect = ⟨state.base + state.fixedSize, 0⟩ := placed_self
      rcases grownLsp_other readyValid here (roundedUp size) with
        ⟨behind, shifted⟩ | ⟨before, unmoved⟩
      · simp only [ready] at shifted
        rw [shifted]
        rw [same, spot] at behind
        dsimp only at behind
        simp only [placed_other here]
        omega
      · simp only [ready] at unmoved
        rw [unmoved]
        rw [same, spot] at before
        dsimp only at before
        rw [placed_other here]
        omega
  · have kept := grew.kept
    refine ⟨?_, ?_, ?_⟩
    · intro other
      rw [kept.size]
      exact congrArg (· + _) (placed_size empty other)
    · intro other index below content
      have different : other ≠ sect := by
        rintro rfl
        omega
      have same : ready.lsp other = state.lsp other := placed_other different
      have contents := kept.contents other index (by rw [same]; exact below) content
      rw [contents, same]
      rfl
    · intro index above below
      refine kept.zeros index ?_ ?_
      · exact (placed_size empty sect).le.trans above
      · exact below.trans_le (Nat.add_le_add_right (placed_size empty sect).ge _)
  · intro marks owners
    refine grew.owners marks ⟨?_, ?_⟩
    · refine owners.points.trans (List.map_congr_left fun mark member => ?_)
      have occupied := owners.inside mark member
      have different : mark.sect ≠ sect := by
        intro here
        rw [here] at occupied
        omega
      have same : ready.lsp mark.sect = state.lsp mark.sect := placed_other different
      rw [Mark.patchData, Mark.patchData, same]
    · intro mark member
      exact (owners.inside mark member).trans_le (placed_size empty mark.sect).ge
  · rw [grew.maximum, readyMaximum]

end Placed

/-! ## Moving the system page -/

/-- The new place of the system page holds all of it, and the copy leaves `total_size` at the
old place. -/
structure FreshArea (layout : SyspageLayout) (state : Syspage) (base maxSize : Nat) : Prop where
  enough : state.totalSize layout ≤ maxSize
  memory_lt : base + maxSize < 2 ^ 64
  maxSize_lt : maxSize < 2 ^ 32
  field_lt : maxSize < 256 ^ layout.fieldBytes
  sizeKept : base = state.base ∨
    base + state.totalSize layout ≤ state.base + layout.totalSizeOff ∨
    state.base + layout.totalSizeOff + layout.fieldBytes ≤ base

section Moved

variable {state : Syspage} {base maxSize : Nat}

/-- A pointer into the system page moves along with it. -/
theorem relocate_eq {old place : Nat} (inside : old ≤ place)
    (newFits : base + (place - old) < 2 ^ 64) :
    addPaddr place (subPaddr base old) = base + (place - old) := by
  simp only [addPaddr, subPaddr, Word.add, Word.sub]
  omega

theorem totalSize_positive (valid : state.Valid layout) :
    layout.headerSize ≤ state.totalSize layout := by
  have header := valid.header
  have inside := valid.inside .syspage
  have isBase : (state.lsp .syspage).p = state.base := rfl
  omega

theorem moved_lsp (valid : state.Valid layout) (fresh : FreshArea layout state base maxSize)
    (sect : Section) : (relocSyspageMemory layout state base maxSize).lsp sect =
      ⟨base + ((state.lsp sect).p - state.base), (state.lsp sect).size⟩ := by
  have lowest := valid.base_le sect
  have inside := valid.inside sect
  have memory := valid.memory_lt
  have enough := fresh.enough
  have newMemory := fresh.memory_lt
  have place : addPaddr (state.lsp sect).p (subPaddr base state.base) =
      base + ((state.lsp sect).p - state.base) :=
    relocate_eq lowest (by omega)
  simp only [relocSyspageMemory, Syspage.setMaxSize, place]

theorem moved_base (valid : state.Valid layout) (fresh : FreshArea layout state base maxSize) :
    (relocSyspageMemory layout state base maxSize).base = base := by
  rw [Syspage.base, moved_lsp valid fresh]
  have isBase : (state.lsp .syspage).p = state.base := rfl
  rw [isBase, Nat.sub_self]
  rfl

/-- The copy holds what the system page held, the maximum apart. -/
theorem moved_memory (valid : state.Valid layout) (fresh : FreshArea layout state base maxSize)
    {place : Nat} (inside : place < state.totalSize layout)
    (notField : place < layout.sizeOff ∨ layout.sizeOff + layout.fieldBytes ≤ place) :
    (relocSyspageMemory layout state base maxSize).memory (base + place) =
      state.memory (state.base + place) := by
  have isBase := moved_base valid fresh
  simp only [relocSyspageMemory, Syspage.setMaxSize, Syspage.base] at isBase ⊢
  rw [isBase, Bytes.store_of_not_mem (by omega), Bytes.move_of_mem inside]

theorem moved_totalSize (valid : state.Valid layout)
    (fresh : FreshArea layout state base maxSize) :
    (relocSyspageMemory layout state base maxSize).totalSize layout =
      state.totalSize layout := by
  have header := totalSize_positive valid
  have within := layout.totalSize_inside
  have apart := layout.fields_apart
  rw [Syspage.totalSize, Syspage.totalSize, moved_base valid fresh]
  refine Bytes.load_congr fun place below => ?_
  rw [Nat.add_assoc, Nat.add_assoc]
  exact moved_memory valid fresh (by rw [Syspage.totalSize] at header ⊢; omega) (by omega)

theorem moved_maxSize (valid : state.Valid layout)
    (fresh : FreshArea layout state base maxSize) :
    (relocSyspageMemory layout state base maxSize).maxSize layout = maxSize := by
  rw [Syspage.maxSize, moved_base valid fresh, ← Nat.mod_eq_of_lt fresh.field_lt]
  have isBase := moved_base valid fresh
  rw [Nat.mod_eq_of_lt fresh.field_lt]
  simp only [relocSyspageMemory, Syspage.setMaxSize, Syspage.base] at isBase ⊢
  rw [isBase, Bytes.load_store, Nat.mod_eq_of_lt fresh.field_lt]

/-- Moving the system page keeps every section side by side. -/
theorem moved_valid (valid : state.Valid layout) (fresh : FreshArea layout state base maxSize) :
    (relocSyspageMemory layout state base maxSize).Valid layout := by
  have isLsp := moved_lsp valid fresh
  have isBase := moved_base valid fresh
  have total := moved_totalSize valid fresh
  have maximum := moved_maxSize valid fresh
  refine ⟨?_, ?_, ?_, ?_, ?_, ?_, ?_, ?_, ?_, ?_⟩
  · rw [isLsp]
    exact valid.header
  · intro sect different
    have behind := valid.behind sect different
    rw [isBase, isLsp, isLsp]
    dsimp only
    omega
  · intro sect
    have lowest := valid.base_le sect
    have inside := valid.inside sect
    rw [isBase, isLsp, total]
    dsimp only
    omega
  · intro sect
    rw [isLsp]
    exact valid.eight sect
  · intro one other different
    have beside := valid.beside one other different
    have lowestOne := valid.base_le one
    have lowestOther := valid.base_le other
    rw [isLsp, isLsp]
    dsimp only
    omega
  · rw [total, valid.total]
    simp only [isLsp]
  · rw [total, maximum]
    exact fresh.enough
  · rw [maximum]
    exact fresh.maxSize_lt
  · rw [maximum]
    exact fresh.field_lt
  · rw [isBase, maximum]
    exact fresh.memory_lt

/-- Moving the system page keeps the contents of all sections. -/
theorem moved_kept (valid : state.Valid layout) (fresh : FreshArea layout state base maxSize) :
    Kept layout state (relocSyspageMemory layout state base maxSize) .syspage 0 := by
  have isLsp := moved_lsp valid fresh
  refine ⟨?_, ?_, ?_⟩
  · intro sect
    rw [isLsp, ite_self, Nat.add_zero]
  · intro sect place below content
    have lowest := valid.base_le sect
    have inside := valid.inside sect
    have field := layout.size_inside
    have regroup : base + ((state.lsp sect).p - state.base) + place =
        base + ((state.lsp sect).p + place - state.base) := by omega
    have back : state.base + ((state.lsp sect).p + place - state.base) =
        (state.lsp sect).p + place := by omega
    have notField : (state.lsp sect).p + place - state.base < layout.sizeOff ∨
        layout.sizeOff + layout.fieldBytes ≤ (state.lsp sect).p + place - state.base := by
      by_cases isHeader : sect = .syspage
      · have outside := (content isHeader).2
        have isBase : (state.lsp sect).p = state.base := by
          rw [isHeader]
          rfl
        omega
      · have behind := valid.fields_before isHeader
        omega
    have moved := moved_memory valid fresh (by omega) notField
    rw [isLsp]
    dsimp only
    rw [regroup, moved, back]
  · intro place above below
    omega

/-- Moving the system page takes the callout owners along. -/
theorem moved_owners (valid : state.Valid layout) (fresh : FreshArea layout state base maxSize)
    {marks : List Mark} (owners : Owners state marks) :
    Owners (relocSyspageMemory layout state base maxSize) marks := by
  have isLsp := moved_lsp valid fresh
  have maximum := valid.maximum
  have memory := valid.memory_lt
  have newMemory := fresh.memory_lt
  have enough := fresh.enough
  have header := totalSize_positive valid
  have field := layout.totalSize_inside
  -- The copy leaves the size at the old place, so the length read there is still right.
  have len : Bytes.load (Bytes.move state.memory base state.base (state.totalSize layout))
      layout.fieldBytes (state.base + layout.totalSizeOff) = state.totalSize layout := by
    refine Bytes.load_congr fun place below => ?_
    rcases fresh.sizeKept with same | beside
    · rw [same, Nat.add_assoc, Bytes.move_of_mem (by omega)]
    · exact Bytes.move_of_not_mem (by omega)
  have isData : (relocSyspageMemory layout state base maxSize).patchData =
      calloutRelocData state.patchData state.base (state.totalSize layout)
        (subPaddr base state.base) := by
    simp only [relocSyspageMemory, Syspage.setMaxSize, len]
  refine ⟨?_, ?_⟩
  · have stop : addPaddr state.base (state.totalSize layout) =
        state.base + state.totalSize layout := addPaddr_of_lt (by omega)
    rw [isData, calloutRelocData, stop, owners.points, List.map_map]
    refine List.map_congr_left fun mark member => ?_
    have place := owners.inside mark member
    have lowest := valid.base_le mark.sect
    have inside := valid.inside mark.sect
    have regroup : base + ((state.lsp mark.sect).p + mark.place - state.base) =
        base + ((state.lsp mark.sect).p - state.base) + mark.place := by omega
    rw [Function.comp_apply, Mark.patchData, Mark.patchData, if_pos (by dsimp only; omega), isLsp]
    dsimp only
    rw [relocate_eq (by omega) (by omega), regroup]
  · intro mark member
    rw [isLsp]
    exact owners.inside mark member

theorem moved_fixed (valid : state.Valid layout) (fresh : FreshArea layout state base maxSize)
    (fixed : state.FixedInside layout) :
    (relocSyspageMemory layout state base maxSize).FixedInside layout := by
  rw [Syspage.FixedInside, moved_totalSize valid fresh]
  exact fixed

theorem moved_boundary (valid : state.Valid layout)
    (fresh : FreshArea layout state base maxSize) (boundary : state.Boundary) :
    (relocSyspageMemory layout state base maxSize).Boundary := by
  intro sect
  have old := boundary sect
  have lowest := valid.base_le sect
  have sameFixed : (relocSyspageMemory layout state base maxSize).fixedSize =
      state.fixedSize := rfl
  rw [moved_base valid fresh, moved_lsp valid fresh, sameFixed]
  dsimp only
  omega

end Moved

end Bcm2711.Startup
