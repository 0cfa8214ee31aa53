import Bcm2711.Lib.Blocks
import Bcm2711.Startup.Syspage

/-! # Sizing and emitting the kernel callouts

`output_callouts` walks over all callout slots twice.  The first pass adds up the code and
the read/write areas of the routines; the second copies the code behind the system page and
replaces each slot by the address of its copy.  Both passes share `rtn_size`, a size in the
first and an offset in the second.
-/

namespace Bcm2711.Startup

open Fallible

/-! ## Slots -/

/-- The slots at these offsets of every element of a table. -/
def tableSlots (p count size : Nat) (offsets : List Nat) : List Nat :=
  (List.range count).flatMap fun index => offsets.map fun offset => p + index * size + offset

/-- The elements of the tables that hold callout slots. -/
structure TableLayout where
  /-- `sizeof(struct intrinfo_entry)`. -/
  intrinfoSize : Nat
  /-- `offsets`, of the five routines of an interrupt entry. -/
  offsets : List Nat
  /-- `sizeof(struct cacheattr_entry)`. -/
  cacheattrSize : Nat
  /-- The offset of `control`. -/
  control : Nat
  offsets_nodup : offsets.Nodup
  offsets_inside : ∀ offset ∈ offsets, offset < intrinfoSize
  control_inside : control < cacheattrSize

/-- The slots `callout_output_section` visits. -/
def calloutOutputSection (layout : SyspageLayout) (lsp : Section → LocalSection) : List Nat :=
  tableSlots (lsp .callout).p (layout.calloutSize / 8) 8 [0]

/-- The slots `callout_output_intr` visits. -/
def calloutOutputIntr (table : TableLayout) (lsp : Section → LocalSection) : List Nat :=
  tableSlots (lsp .intrinfo).p ((lsp .intrinfo).size / table.intrinfoSize) table.intrinfoSize
    table.offsets

/-- The slots `callout_output_cache` visits. -/
def calloutOutputCache (table : TableLayout) (lsp : Section → LocalSection) : List Nat :=
  tableSlots (lsp .cacheattr).p ((lsp .cacheattr).size / table.cacheattrSize)
    table.cacheattrSize [table.control]

/-- The functions that hook into `callout_output_rtn`, and the first one there. -/
inductive CalloutHook where
  | callouts
  | intr
  | cache
deriving DecidableEq, Repr

/-- The section a hook visits. -/
def CalloutHook.sect : CalloutHook → Section
  | .callouts => .callout
  | .intr => .intrinfo
  | .cache => .cacheattr

/-- The slots a hook visits. -/
def CalloutHook.slots (layout : SyspageLayout) (table : TableLayout)
    (lsp : Section → LocalSection) : CalloutHook → List Nat
  | .callouts => calloutOutputSection layout lsp
  | .intr => calloutOutputIntr table lsp
  | .cache => calloutOutputCache table lsp

/-- The slots visited from `callout_output_rtn` on, where these hooks call one another. -/
def calloutSlots (layout : SyspageLayout) (table : TableLayout) (lsp : Section → LocalSection)
    (hooks : List CalloutHook) : List Nat :=
  hooks.flatMap fun hook => hook.slots layout table lsp

section Slots

variable {p count size slot : Nat} {offsets : List Nat}

theorem tableSlots_inside (inside : ∀ offset ∈ offsets, offset < size)
    (member : slot ∈ tableSlots p count size offsets) : p ≤ slot ∧ slot < p + count * size := by
  obtain ⟨index, below, held⟩ := List.mem_flatMap.mp member
  obtain ⟨offset, isOffset, isSlot⟩ := List.mem_map.mp held
  have step : (index + 1) * size ≤ count * size :=
    Nat.mul_le_mul_right size (List.mem_range.mp below)
  have small := inside offset isOffset
  rw [Nat.succ_mul] at step
  omega

/-- A table holds every slot once. -/
theorem tableSlots_nodup (distinct : offsets.Nodup) (inside : ∀ offset ∈ offsets, offset < size) :
    (tableSlots p count size offsets).Nodup := by
  refine List.nodup_flatMap.mpr ⟨fun index _ => ?_, ?_⟩
  · exact distinct.map fun _ _ same => Nat.add_left_cancel same
  · refine List.nodup_range.imp fun {one other} different => ?_
    intro slot inOne inOther
    obtain ⟨first, isFirst, sameFirst⟩ := List.mem_map.mp inOne
    obtain ⟨second, isSecond, sameSecond⟩ := List.mem_map.mp inOther
    have quotient : (one * size + first) / size = (other * size + second) / size := by
      have same : one * size + first = other * size + second := by omega
      rw [same]
    have belowFirst := inside first isFirst
    have belowSecond := inside second isSecond
    rw [Nat.mul_comm one, Nat.mul_comm other, Nat.mul_add_div (by omega),
      Nat.mul_add_div (by omega), Nat.div_eq_of_lt belowFirst,
      Nat.div_eq_of_lt belowSecond] at quotient
    exact different quotient

variable {layout : SyspageLayout} {table : TableLayout} {state : Syspage}

/-- A hook visits slots of its own section. -/
theorem CalloutHook.slots_inside (callouts : layout.calloutSize ≤ (state.lsp .callout).size)
    {hook : CalloutHook} (member : slot ∈ hook.slots layout table state.lsp) :
    slot ∈ state.range hook.sect := by
  cases hook with
  | callouts =>
      have inside := tableSlots_inside (by simp) member
      have whole := Nat.div_mul_le_self layout.calloutSize 8
      exact ⟨inside.1, by simp only [CalloutHook.sect]; omega⟩
  | intr =>
      have inside := tableSlots_inside table.offsets_inside member
      have whole := Nat.div_mul_le_self (state.lsp .intrinfo).size table.intrinfoSize
      exact ⟨inside.1, by simp only [CalloutHook.sect]; omega⟩
  | cache =>
      have control := table.control_inside
      have inside := tableSlots_inside (by simpa using control) member
      have whole := Nat.div_mul_le_self (state.lsp .cacheattr).size table.cacheattrSize
      exact ⟨inside.1, by simp only [CalloutHook.sect]; omega⟩

theorem CalloutHook.slots_nodup (hook : CalloutHook) :
    (hook.slots layout table state.lsp).Nodup := by
  have control := table.control_inside
  cases hook with
  | callouts => exact tableSlots_nodup (List.nodup_singleton 0) (by simp)
  | intr => exact tableSlots_nodup table.offsets_nodup table.offsets_inside
  | cache => exact tableSlots_nodup (List.nodup_singleton _) (by simpa using control)

/-- In a system page whose sections lie side by side every slot is visited once. -/
theorem calloutSlots_nodup (valid : state.Valid layout)
    (callouts : layout.calloutSize ≤ (state.lsp .callout).size) {hooks : List CalloutHook}
    (once : hooks.Nodup) : (calloutSlots layout table state.lsp hooks).Nodup := by
  refine List.nodup_flatMap.mpr ⟨fun hook _ => hook.slots_nodup, ?_⟩
  refine once.imp fun {one other} different => ?_
  intro slot inOne inOther
  have ofOne := CalloutHook.slots_inside callouts inOne
  have ofOther := CalloutHook.slots_inside callouts inOther
  have sections : one.sect ≠ other.sect := by
    intro same
    cases one <;> cases other <;> simp_all [CalloutHook.sect]
  have beside := valid.beside one.sect other.sect sections
  simp only [Syspage.range, Set.mem_Ico] at ofOne ofOther
  omega

end Slots

/-! ## Routines and the state of the passes -/

/-- What a patcher is called with. -/
structure PatchArgs where
  syspagePaddr : Nat
  vaddr : Nat
  rtnOffset : Nat
  rwOffset : Nat
  data : Nat
  src : Nat
deriving DecidableEq, Repr

/-- `struct callout_rtn`; `rwSize` is the pointer `rw_size`, and memory is counted from
`_syspage_ptr` on. -/
structure CalloutRtn where
  rwSize : Nat
  patcher : Option (PatchArgs → Bytes.Memory → Bytes.Memory)
  rtnSize : Nat
  rtnCode : Nat → UInt8

/-- A `co_info` of `rw_addrs`. -/
structure RwArea where
  rwOff : Nat
  data : Nat
deriving DecidableEq, Repr

/-- What the passes read and never change. -/
structure CalloutEnv where
  /-- The `callout_rtn` at an address. -/
  rtnAt : Nat → CalloutRtn
  /-- The word a `rw_size` points to. -/
  rwWord : Nat → Nat
  /-- `__PAGESIZE` is a power of two. -/
  pageShift : Nat
  syspagePaddr : Nat
  kernSyspageptr : Nat
  pageShift_lt : pageShift < 32

/-- The memory behind `_syspage_ptr`, the words of the slots, the static variables of the
passes, and the total size and patch data of the system page. -/
structure Callouts where
  memory : Bytes.Memory
  fps : Nat → Nat
  rwAddrs : List RwArea
  rwSize : Nat
  rtnSize : Nat
  /-- The `co_info` structures still to be had. -/
  coInfos : Nat
  totalSize : Nat
  patchData : List PatchData

/-- What the second pass did for a slot. -/
structure Emitted where
  slot : Nat
  rtn : Nat
  rtnOff : Nat
  rwOff : Nat
deriving DecidableEq, Repr

/-- `ROUNDPG(_x)`. -/
def ROUNDPG (env : CalloutEnv) (size : Nat) : Nat := ROUND size (2 ^ env.pageShift)

/-- `get_co_info`. -/
def getCoInfo (state : Callouts) : Result Callouts :=
  match state.coInfos with
  | 0 => .error (.crash "No memory for callout information structure.\n")
  | more + 1 => .ok { state with coInfos := more }

/-- `callout_output_one` for a routine, while sizing. -/
def sizeRtn (env : CalloutEnv) (state : Callouts) (rtn : CalloutRtn) : Result Callouts :=
  let state := { state with rtnSize := Word.add 32 state.rtnSize rtn.rtnSize }
  if rtn.rwSize ≠ 0 then
    if state.rwAddrs.any fun rw => rw.data = rtn.rwSize then .ok state
    else do
      let state ← getCoInfo state
      .ok { state with
        rwAddrs := ⟨state.rwSize, rtn.rwSize⟩ :: state.rwAddrs
        rwSize := Word.add 32 state.rwSize (env.rwWord rtn.rwSize) }
  else .ok state

/-- The offset of the read/write area of a routine from the one of the first; the search
runs off the list when the area is missing. -/
def findRwOff (state : Callouts) (rtn : CalloutRtn) : Result Nat :=
  if rtn.rwSize ≠ 0 then
    match state.rwAddrs.find? fun rw => rw.data = rtn.rwSize with
    | some rw => .ok (Word.add 32 state.totalSize rw.rwOff)
    | none => .error .nullAccess
  else .ok state.totalSize

/-- `rtn_size` is zero before the first routine of the second pass. -/
def beginEmission (env : CalloutEnv) (state : Callouts) : Callouts :=
  if state.rtnSize = 0 then
    { state with
      memory := Bytes.fill state.memory state.totalSize 0 state.rwSize
      rtnSize := ROUNDPG env (Word.add 32 state.totalSize state.rwSize) % 2 ^ 32 }
  else state

/-- Copy the code of a routine. -/
def copyCode (memory : Bytes.Memory) (dst : Nat) (rtn : CalloutRtn) : Bytes.Memory :=
  fun address => if dst ≤ address ∧ address < dst + rtn.rtnSize then rtn.rtnCode (address - dst)
    else memory address

/-- The data registered for a slot, or `NULL`. -/
def patchDataOf (patchData : List PatchData) (rp : Nat) : Nat :=
  match patchData.find? fun pd => pd.owner = rp with
  | some pd => pd.data
  | none => 0

/-- Call the patcher of a routine on its copy. -/
def patchCode (env : CalloutEnv) (patchData : List PatchData) (emitted : Emitted)
    (memory : Bytes.Memory) : Bytes.Memory :=
  match (env.rtnAt emitted.rtn).patcher with
  | some patcher => patcher ⟨env.syspagePaddr, env.kernSyspageptr, emitted.rtnOff, emitted.rwOff,
      patchDataOf patchData emitted.slot, emitted.rtn⟩ memory
  | none => memory

/-- `callout_output_one` for a routine, while emitting. -/
def emitRtn (env : CalloutEnv) (state : Callouts) (rp rtn : Nat) : Result (Callouts × Emitted) := do
  let state := beginEmission env state
  let memory := copyCode state.memory state.rtnSize (env.rtnAt rtn)
  let rwOff ← findRwOff state (env.rtnAt rtn)
  let emitted : Emitted := ⟨rp, rtn, state.rtnSize, rwOff⟩
  .ok ({ state with
    memory := patchCode env state.patchData emitted memory
    fps := Function.update state.fps rp (addPaddr env.kernSyspageptr state.rtnSize)
    rtnSize := Word.add 32 state.rtnSize (env.rtnAt rtn).rtnSize }, emitted)

/-- `callout_output_one`, with what it emitted. -/
def calloutOutputOne (env : CalloutEnv) (sizing : Bool) (state : Callouts) (rp : Nat) :
    Result (Callouts × Option Emitted) :=
  let rtn := state.fps rp
  if rtn = 0 then .ok (state, none)
  else if sizing then do
    let state ← sizeRtn env state (env.rtnAt rtn)
    .ok (state, none)
  else do
    let (state, emitted) ← emitRtn env state rp rtn
    .ok (state, some emitted)

/-- The hooks of `callout_output_rtn` call `callout_output_one` for each slot in turn. -/
def calloutOutputRtn (env : CalloutEnv) (sizing : Bool) :
    List Nat → Callouts → Result (Callouts × List Emitted)
  | [], state => .ok (state, [])
  | rp :: slots, state => do
      let (state, emitted) ← calloutOutputOne env sizing state rp
      let (state, rest) ← calloutOutputRtn env sizing slots state
      .ok (state, emitted.toList ++ rest)

/-- `output_callouts`; while sizing `*rwsize` is the `rw_size` it leaves. -/
def outputCallouts (env : CalloutEnv) (sizing : Bool) (slots : List Nat) (state : Callouts) :
    Result (Callouts × Nat × List Emitted) := do
  let (state, emitted) ← calloutOutputRtn env sizing slots state
  let size := roundSize state.rtnSize
  .ok ({ state with
    rwSize := roundSize state.rwSize
    rtnSize := if sizing then 0 else state.rtnSize }, size, emitted)

/-- `spsize` of `alloc_syspage_memory`. -/
def spsize (env : CalloutEnv) (asinfoSize totalSize rwSize calloutsSize : Nat) : Nat :=
  let spsize := ROUNDPG env (addPaddr (Word.add 32 totalSize rwSize) (4 * asinfoSize)) % 2 ^ 32
  addPaddr spsize (ROUNDPG env calloutsSize) % 2 ^ 32

/-! ## Sizes without wrapping -/

section Sizes

variable (env : CalloutEnv)

/-- A size rounded up to whole pages. -/
def pages (size : Nat) : Nat :=
  (size + (2 ^ env.pageShift - 1)) / 2 ^ env.pageShift * 2 ^ env.pageShift

/-- The code of all routines the slots hold. -/
def codeTotal (contents : List Nat) : Nat :=
  ((contents.filter (· ≠ 0)).map fun rtn => (env.rtnAt rtn).rtnSize).sum

/-- The `rw_size` pointers of the routines the slots hold. -/
def rwPointers (contents : List Nat) : Finset Nat :=
  ((contents.filter (· ≠ 0)).map fun rtn => (env.rtnAt rtn).rwSize).toFinset.erase 0

/-- The read/write areas of all routines, shared ones counted once. -/
def rwTotal (contents : List Nat) : Nat := ∑ pointer ∈ rwPointers env contents, env.rwWord pointer

/-- The system page, the read/write areas, four more `asinfo_entry` and the code, each rounded
up to whole pages, fit an `unsigned`. -/
def CalloutsFit (asinfoSize totalSize : Nat) (contents : List Nat) : Prop :=
  pages env (totalSize + roundedUp (rwTotal env contents) + 4 * asinfoSize) +
    pages env (roundedUp (codeTotal env contents)) < 2 ^ 32

instance (asinfoSize totalSize : Nat) (contents : List Nat) :
    Decidable (CalloutsFit env asinfoSize totalSize contents) :=
  inferInstanceAs (Decidable (_ < _))

variable {env}

theorem ROUNDPG_eq {size : Nat} (fits : size < 2 ^ 32) : ROUNDPG env size = pages env size := by
  have shift := env.pageShift_lt
  have page : 2 ^ env.pageShift < 2 ^ 32 := Nat.pow_lt_pow_right (by omega) shift
  exact Word.round_two_pow (by omega) (by omega)

theorem le_pages (size : Nat) : size ≤ pages env size := by
  have positive : 0 < 2 ^ env.pageShift := Nat.two_pow_pos _
  have parts := Nat.div_add_mod (size + (2 ^ env.pageShift - 1)) (2 ^ env.pageShift)
  have rest := Nat.mod_lt (size + (2 ^ env.pageShift - 1)) positive
  rw [pages, Nat.mul_comm]
  omega

theorem pages_mono {size larger : Nat} (order : size ≤ larger) :
    pages env size ≤ pages env larger :=
  Nat.mul_le_mul_right _ (Nat.div_le_div_right (Nat.add_le_add_right order _))

theorem codeTotal_append (front back : List Nat) :
    codeTotal env (front ++ back) = codeTotal env front + codeTotal env back := by
  rw [codeTotal, List.filter_append, List.map_append, List.sum_append]
  rfl

theorem codeTotal_cons_zero (contents : List Nat) :
    codeTotal env (0 :: contents) = codeTotal env contents := rfl

theorem codeTotal_cons {rtn : Nat} (nonzero : rtn ≠ 0) (contents : List Nat) :
    codeTotal env (rtn :: contents) = (env.rtnAt rtn).rtnSize + codeTotal env contents := by
  have kept : (decide (rtn ≠ 0)) = true := decide_eq_true nonzero
  simp only [codeTotal, List.filter_cons, kept, ↓reduceIte, List.map_cons, List.sum_cons]

theorem mem_rwPointers {contents : List Nat} {pointer : Nat} :
    pointer ∈ rwPointers env contents ↔
      pointer ≠ 0 ∧ ∃ rtn ∈ contents, rtn ≠ 0 ∧ (env.rtnAt rtn).rwSize = pointer := by
  simp [rwPointers, and_assoc]

theorem rwTotal_le_append (front back : List Nat) :
    rwTotal env front ≤ rwTotal env (front ++ back) := by
  refine Finset.sum_le_sum_of_subset fun pointer member => ?_
  obtain ⟨nonzero, rtn, held, isRtn⟩ := mem_rwPointers.mp member
  exact mem_rwPointers.mpr ⟨nonzero, rtn, List.mem_append_left _ held, isRtn⟩

end Sizes

/-! ## The first pass -/

section Sizing

variable {env : CalloutEnv} {state after : Callouts} {seen : List Nat}

/-- The read/write areas in the order they were laid out. -/
def areaBlocks (env : CalloutEnv) (rwAddrs : List RwArea) : List Blocks.Block :=
  rwAddrs.reverse.map fun rw => ⟨rw.rwOff, env.rwWord rw.data⟩

/-- The static variables after the first pass has visited slots with these contents. -/
structure Sized (env : CalloutEnv) (state : Callouts) (seen : List Nat) : Prop where
  laid : Blocks.Laid 0 (areaBlocks env state.rwAddrs)
  nodup : (state.rwAddrs.map RwArea.data).Nodup
  pointers : (state.rwAddrs.map RwArea.data).toFinset = rwPointers env seen
  rwSize : state.rwSize = rwTotal env seen
  rtnSize : state.rtnSize = codeTotal env seen

theorem Sized.total (sized : Sized env state seen) :
    Blocks.total (areaBlocks env state.rwAddrs) = rwTotal env seen := by
  have sum := List.sum_toFinset env.rwWord sized.nodup
  rw [sized.pointers] at sum
  rw [rwTotal, sum, Blocks.total, areaBlocks, List.map_map, List.map_map, ← List.sum_reverse,
    ← List.map_reverse, List.reverse_reverse]
  rfl

theorem getCoInfo_ok (returned : getCoInfo state = .ok after) :
    ∃ more, after = { state with coInfos := more } := by
  unfold getCoInfo at returned
  split at returned
  · cases returned
  · cases returned
    exact ⟨_, rfl⟩

theorem rwPointers_append_zero : rwPointers env (seen ++ [0]) = rwPointers env seen := by
  rw [rwPointers, List.filter_append]
  have dropped : [0].filter (fun content => decide (content ≠ 0)) = [] := rfl
  rw [dropped, List.append_nil]
  rfl

theorem rwPointers_append (rtn : Nat) (nonzero : rtn ≠ 0) : rwPointers env (seen ++ [rtn]) =
    (insert (env.rtnAt rtn).rwSize (rwPointers env seen)).erase 0 := by
  ext pointer
  rw [Finset.mem_erase, Finset.mem_insert, mem_rwPointers, mem_rwPointers]
  constructor
  · rintro ⟨positive, held, member, isRtn, points⟩
    refine ⟨positive, ?_⟩
    rcases List.mem_append.mp member with before | last
    · exact Or.inr ⟨positive, held, before, isRtn, points⟩
    · rw [List.mem_singleton.mp last] at points
      exact Or.inl points.symm
  · rintro ⟨positive, new | ⟨_, held, before, isRtn, points⟩⟩
    · exact ⟨positive, rtn, List.mem_append_right _ (List.mem_singleton.mpr rfl), nonzero,
        new.symm⟩
    · exact ⟨positive, held, List.mem_append_left _ before, isRtn, points⟩

/-- A routine is added to the sizes, its area only if it is new. -/
theorem sizeRtn_sized {rtn : Nat} (nonzero : rtn ≠ 0) (sized : Sized env state seen)
    (rwFits : rwTotal env (seen ++ [rtn]) < 2 ^ 32)
    (codeFits : codeTotal env (seen ++ [rtn]) < 2 ^ 32)
    (returned : sizeRtn env state (env.rtnAt rtn) = .ok after) :
    Sized env after (seen ++ [rtn]) ∧ after.fps = state.fps ∧
      after.totalSize = state.totalSize := by
  have isCode : codeTotal env (seen ++ [rtn]) =
      codeTotal env seen + (env.rtnAt rtn).rtnSize := by
    rw [codeTotal_append, codeTotal_cons nonzero]
    rfl
  have rtnSize : Word.add 32 state.rtnSize (env.rtnAt rtn).rtnSize =
      codeTotal env (seen ++ [rtn]) := by
    rw [isCode, sized.rtnSize, Word.add_of_lt (isCode ▸ codeFits)]
  have isPointers := @rwPointers_append env seen rtn nonzero
  unfold sizeRtn at returned
  dsimp only at returned
  rw [rtnSize] at returned
  by_cases hasArea : (env.rtnAt rtn).rwSize = 0
  · rw [if_neg (not_not.mpr hasArea)] at returned
    cases returned
    have same : rwPointers env (seen ++ [rtn]) = rwPointers env seen := by
      rw [isPointers, hasArea, Finset.erase_insert_eq_erase]
      exact Finset.erase_eq_of_notMem fun member => (mem_rwPointers.mp member).1 rfl
    refine ⟨⟨sized.laid, sized.nodup, ?_, ?_, rfl⟩, rfl, rfl⟩
    · rw [same]
      exact sized.pointers
    · rw [rwTotal, same]
      exact sized.rwSize
  · rw [if_pos hasArea] at returned
    have isNew : rwPointers env (seen ++ [rtn]) =
        insert (env.rtnAt rtn).rwSize (rwPointers env seen) := by
      rw [isPointers]
      refine Finset.erase_eq_of_notMem fun member => ?_
      rcases Finset.mem_insert.mp member with same | old
      · exact hasArea same.symm
      · exact (mem_rwPointers.mp old).1 rfl
    split at returned
    · next shared =>
        obtain ⟨rw, member, same⟩ := List.any_eq_true.mp shared
        have known : (env.rtnAt rtn).rwSize ∈ rwPointers env seen := by
          rw [← sized.pointers, List.mem_toFinset]
          exact List.mem_map.mpr ⟨rw, member, of_decide_eq_true same⟩
        rw [Finset.insert_eq_self.mpr known] at isNew
        cases returned
        refine ⟨⟨sized.laid, sized.nodup, ?_, ?_, rfl⟩, rfl, rfl⟩
        · rw [isNew]
          exact sized.pointers
        · rw [rwTotal, isNew]
          exact sized.rwSize
    · next fresh =>
        obtain ⟨got, gotten, rest⟩ := bind_eq_ok.mp returned
        obtain ⟨more, isGot⟩ := getCoInfo_ok gotten
        rw [isGot] at rest
        cases rest
        have unknown : (env.rtnAt rtn).rwSize ∉ state.rwAddrs.map RwArea.data := by
          intro member
          obtain ⟨rw, held, same⟩ := List.mem_map.mp member
          exact fresh (List.any_eq_true.mpr ⟨rw, held, decide_eq_true same⟩)
        have grows : rwTotal env (seen ++ [rtn]) =
            rwTotal env seen + env.rwWord (env.rtnAt rtn).rwSize := by
          rw [rwTotal, isNew, Finset.sum_insert, Nat.add_comm]
          · rfl
          · rw [← sized.pointers, List.mem_toFinset]
            exact unknown
        have rwSize : Word.add 32 state.rwSize (env.rwWord (env.rtnAt rtn).rwSize) =
            rwTotal env (seen ++ [rtn]) := by
          rw [grows, sized.rwSize, Word.add_of_lt (grows ▸ rwFits)]
        refine ⟨⟨?_, ?_, ?_, rwSize, rfl⟩, rfl, rfl⟩
        · have blocks : areaBlocks env (⟨state.rwSize, (env.rtnAt rtn).rwSize⟩ :: state.rwAddrs) =
              areaBlocks env state.rwAddrs ++
                [⟨state.rwSize, env.rwWord (env.rtnAt rtn).rwSize⟩] := by
            rw [areaBlocks, List.reverse_cons, List.map_append]
            rfl
          dsimp only
          rw [blocks, Blocks.laid_append, sized.total, sized.rwSize]
          exact ⟨sized.laid, (Nat.zero_add _).symm, trivial⟩
        · rw [List.map_cons]
          exact List.nodup_cons.mpr ⟨unknown, sized.nodup⟩
        · rw [List.map_cons, List.toFinset_cons, sized.pointers, isNew]

/-- The first pass adds up the code and the areas of all routines. -/
theorem calloutOutputRtn_sized {slots : List Nat} {emitted : List Emitted}
    (sized : Sized env state seen)
    (rwFits : rwTotal env (seen ++ slots.map state.fps) < 2 ^ 32)
    (codeFits : codeTotal env (seen ++ slots.map state.fps) < 2 ^ 32)
    (returned : calloutOutputRtn env true slots state = .ok (after, emitted)) :
    Sized env after (seen ++ slots.map state.fps) ∧ after.fps = state.fps ∧
      after.totalSize = state.totalSize := by
  induction slots generalizing state seen emitted with
  | nil =>
      cases returned
      rw [List.map_nil, List.append_nil]
      exact ⟨sized, rfl, rfl⟩
  | cons rp slots ih =>
      obtain ⟨⟨middle, one⟩, first, rest⟩ := bind_eq_ok.mp returned
      obtain ⟨⟨last, others⟩, second, same⟩ := bind_eq_ok.mp rest
      cases same
      have regroup : seen ++ (rp :: slots).map state.fps =
          seen ++ [state.fps rp] ++ slots.map state.fps := by
        rw [List.map_cons, List.append_assoc]
        rfl
      rw [regroup] at rwFits codeFits ⊢
      have step : Sized env middle (seen ++ [state.fps rp]) ∧ middle.fps = state.fps ∧
          middle.totalSize = state.totalSize := by
        unfold calloutOutputOne at first
        dsimp only at first
        split at first
        · next empty =>
            cases first
            rw [empty]
            refine ⟨⟨sized.laid, sized.nodup, ?_, ?_, ?_⟩, rfl, rfl⟩
            · rw [rwPointers_append_zero]
              exact sized.pointers
            · rw [rwTotal, rwPointers_append_zero]
              exact sized.rwSize
            · rw [codeTotal_append]
              exact sized.rtnSize
        · next nonzero =>
            rw [if_pos rfl] at first
            obtain ⟨sizedState, sizing, same⟩ := bind_eq_ok.mp first
            cases same
            refine sizeRtn_sized nonzero sized ?_ ?_ sizing
            · exact (rwTotal_le_append _ _).trans_lt rwFits
            · rw [codeTotal_append] at codeFits
              omega
      obtain ⟨sizedMiddle, sameFps, sameTotal⟩ := step
      rw [← sameFps] at sizedMiddle rwFits codeFits ⊢
      obtain ⟨sizedAfter, fps, total⟩ := ih sizedMiddle rwFits codeFits second
      exact ⟨sizedAfter, fps, total.trans sameTotal⟩

end Sizing

/-! ## The second pass -/

section Emission

variable {env : CalloutEnv}

/-- Where the second pass copies the first routine. -/
def firstOffset (env : CalloutEnv) (state : Callouts) : Nat :=
  ROUNDPG env (Word.add 32 state.totalSize state.rwSize) % 2 ^ 32

/-- The copy of a routine. -/
def codeBlock (env : CalloutEnv) (emitted : Emitted) : Blocks.Block :=
  ⟨emitted.rtnOff, (env.rtnAt emitted.rtn).rtnSize⟩

/-- Patchers change nothing but the copy they are called on. -/
def Confined (env : CalloutEnv) : Prop :=
  ∀ rtn patcher, (env.rtnAt rtn).patcher = some patcher → ∀ args memory address,
    args.src = rtn →
      (address < args.rtnOffset ∨ args.rtnOffset + (env.rtnAt rtn).rtnSize ≤ address) →
        patcher args memory address = memory address

/-- The second pass changes neither the areas nor the system page. -/
structure SameStatics (before after : Callouts) : Prop where
  rwAddrs : after.rwAddrs = before.rwAddrs
  rwSize : after.rwSize = before.rwSize
  totalSize : after.totalSize = before.totalSize
  patchData : after.patchData = before.patchData

theorem SameStatics.trans {before middle after : Callouts} (first : SameStatics before middle)
    (second : SameStatics middle after) : SameStatics before after :=
  ⟨second.rwAddrs.trans first.rwAddrs, second.rwSize.trans first.rwSize,
    second.totalSize.trans first.totalSize, second.patchData.trans first.patchData⟩

theorem SameStatics.firstOffset {before after : Callouts} (same : SameStatics before after) :
    firstOffset env after = firstOffset env before := by
  rw [Startup.firstOffset, Startup.firstOffset, same.totalSize, same.rwSize]

theorem SameStatics.findRwOff {before after : Callouts} (same : SameStatics before after)
    (rtn : CalloutRtn) : findRwOff after rtn = findRwOff before rtn := by
  rw [Startup.findRwOff, Startup.findRwOff, same.rwAddrs, same.totalSize]

theorem beginEmission_statics (state : Callouts) : SameStatics state (beginEmission env state) := by
  unfold beginEmission
  split
  · exact ⟨rfl, rfl, rfl, rfl⟩
  · exact ⟨rfl, rfl, rfl, rfl⟩

theorem beginEmission_fps (state : Callouts) : (beginEmission env state).fps = state.fps := by
  unfold beginEmission
  split
  · rfl
  · rfl

/-- Clearing the read/write areas leaves what lies behind them. -/
theorem beginEmission_memory {state : Callouts} {address : Nat}
    (behind : state.totalSize + state.rwSize ≤ address) :
    (beginEmission env state).memory address = state.memory address := by
  unfold beginEmission
  split
  · exact Bytes.fill_of_not_mem (Or.inr behind)
  · rfl

/-- The offset goes on where the last routine ended, also when that is still zero. -/
theorem beginEmission_rtnSize {state : Callouts} {offset : Nat} (isOffset : state.rtnSize = offset)
    (reached : firstOffset env state ≤ offset) :
    (beginEmission env state).rtnSize = offset := by
  unfold beginEmission
  split
  · next zero =>
      have none_copied : firstOffset env state = offset := by omega
      exact none_copied
  · exact isOffset

theorem copyCode_of_not_mem {memory : Bytes.Memory} {offset address : Nat} {rtn : CalloutRtn}
    (outside : address < offset ∨ offset + rtn.rtnSize ≤ address) :
    copyCode memory offset rtn address = memory address := if_neg (by omega)

theorem patchCode_outside (confined : Confined env) {patchData : List PatchData}
    {emitted : Emitted} {memory : Bytes.Memory} {address : Nat}
    (outside : address < emitted.rtnOff ∨
      emitted.rtnOff + (env.rtnAt emitted.rtn).rtnSize ≤ address) :
    patchCode env patchData emitted memory address = memory address := by
  unfold patchCode
  cases isPatcher : (env.rtnAt emitted.rtn).patcher with
  | none => rfl
  | some patcher => exact confined _ patcher isPatcher _ _ _ rfl outside

variable {state : Callouts}

/-- One routine is copied to the current offset. -/
theorem emitRtn_ok {rp rtn offset rwOff : Nat}
    (isOffset : (beginEmission env state).rtnSize = offset)
    (area : findRwOff state (env.rtnAt rtn) = .ok rwOff)
    (fits : offset + (env.rtnAt rtn).rtnSize < 2 ^ 32) :
    ∃ after, emitRtn env state rp rtn = .ok (after, ⟨rp, rtn, offset, rwOff⟩) ∧
      SameStatics state after ∧ after.rtnSize = offset + (env.rtnAt rtn).rtnSize ∧
      after.fps = Function.update state.fps rp (addPaddr env.kernSyspageptr offset) ∧
      after.memory = patchCode env state.patchData ⟨rp, rtn, offset, rwOff⟩
        (copyCode (beginEmission env state).memory offset (env.rtnAt rtn)) := by
  have same := @beginEmission_statics env state
  have found : findRwOff (beginEmission env state) (env.rtnAt rtn) = .ok rwOff := by
    rw [same.findRwOff, area]
  let copied := copyCode (beginEmission env state).memory offset (env.rtnAt rtn)
  let after : Callouts := { beginEmission env state with
    memory := patchCode env state.patchData ⟨rp, rtn, offset, rwOff⟩ copied
    fps := Function.update state.fps rp (addPaddr env.kernSyspageptr offset)
    rtnSize := Word.add 32 offset (env.rtnAt rtn).rtnSize
    patchData := state.patchData }
  refine ⟨after, ?_, ⟨same.rwAddrs, same.rwSize, same.totalSize, rfl⟩,
    Word.add_of_lt fits, rfl, rfl⟩
  rw [emitRtn]
  dsimp only
  rw [found, isOffset, same.patchData, beginEmission_fps]
  rfl

/-- What the second pass did for slots with their code copied from an offset on. -/
structure EmissionRun (env : CalloutEnv) (state after : Callouts) (slots : List Nat)
    (offset : Nat) (emitted : List Emitted) : Prop where
  statics : SameStatics state after
  slots : (emitted.map fun one => (one.slot, one.rtn)) =
    (slots.map fun rp => (rp, state.fps rp)).filter fun held => held.2 ≠ 0
  laid : Blocks.Laid offset (emitted.map (codeBlock env))
  areas : ∀ one ∈ emitted, findRwOff state (env.rtnAt one.rtn) = .ok one.rwOff
  fps : ∀ one ∈ emitted, after.fps one.slot = addPaddr env.kernSyspageptr one.rtnOff
  others : ∀ rp, rp ∉ emitted.map Emitted.slot → after.fps rp = state.fps rp
  code : Confined env → ∀ one ∈ emitted, ∃ memory, ∀ address ∈ (codeBlock env one).range,
    after.memory address = patchCode env state.patchData one
      (copyCode memory one.rtnOff (env.rtnAt one.rtn)) address
  frame : Confined env → ∀ address, firstOffset env state ≤ address → address < offset →
    after.memory address = state.memory address

theorem EmissionRun.slot_mem {after : Callouts} {slots : List Nat} {offset : Nat}
    {emitted : List Emitted} (run : EmissionRun env state after slots offset emitted)
    {one : Emitted} (member : one ∈ emitted) :
    one.slot ∈ slots ∧ one.rtn = state.fps one.slot ∧ one.rtn ≠ 0 := by
  have held : (one.slot, one.rtn) ∈ emitted.map fun one => (one.slot, one.rtn) :=
    List.mem_map.mpr ⟨one, member, rfl⟩
  rw [run.slots, List.mem_filter, List.mem_map] at held
  obtain ⟨⟨rp, visited, same⟩, nonzero⟩ := held
  obtain ⟨isSlot, isRtn⟩ := Prod.mk.inj same
  rw [← isSlot]
  exact ⟨visited, isRtn.symm, of_decide_eq_true nonzero⟩

/-- The copies fill as much as the code of all routines. -/
theorem EmissionRun.total {after : Callouts} {slots : List Nat} {offset : Nat}
    {emitted : List Emitted} (run : EmissionRun env state after slots offset emitted) :
    Blocks.total (emitted.map (codeBlock env)) = codeTotal env (slots.map state.fps) := by
  have rtns : emitted.map Emitted.rtn = (slots.map state.fps).filter (· ≠ 0) := by
    have second := congrArg (List.map Prod.snd) run.slots
    rw [List.map_map, List.filter_map, List.map_map] at second
    rw [List.filter_map]
    exact second
  rw [codeTotal, ← rtns, Blocks.total, List.map_map, List.map_map]
  rfl

/-- The second pass copies the code of all routines one behind the other. -/
theorem calloutOutputRtn_emits {slots : List Nat} {offset : Nat}
    (isOffset : (beginEmission env state).rtnSize = offset)
    (reached : firstOffset env state ≤ offset)
    (areasBefore : state.totalSize + state.rwSize ≤ firstOffset env state)
    (areas : ∀ rp ∈ slots, state.fps rp ≠ 0 →
      ∃ rwOff, findRwOff state (env.rtnAt (state.fps rp)) = .ok rwOff)
    (fits : offset + codeTotal env (slots.map state.fps) < 2 ^ 32) (distinct : slots.Nodup) :
    ∃ after emitted, calloutOutputRtn env false slots state = .ok (after, emitted) ∧
      EmissionRun env state after slots offset emitted := by
  induction slots generalizing state offset with
  | nil =>
      refine ⟨state, [], rfl, ⟨rfl, rfl, rfl, rfl⟩, rfl, trivial, ?_, ?_, fun _ _ => rfl, ?_,
        fun _ _ _ _ => rfl⟩
      · exact fun one member => absurd member List.not_mem_nil
      · exact fun one member => absurd member List.not_mem_nil
      · exact fun _ one member => absurd member List.not_mem_nil
  | cons rp slots ih =>
      obtain ⟨notLater, distinct⟩ := List.nodup_cons.mp distinct
      rw [List.map_cons] at fits
      by_cases empty : state.fps rp = 0
      · rw [empty, codeTotal_cons_zero] at fits
        obtain ⟨after, emitted, ran, run⟩ := ih isOffset reached areasBefore
          (fun later member => areas later (List.mem_cons_of_mem rp member)) fits distinct
        refine ⟨after, emitted, ?_, run.statics, ?_, run.laid, run.areas, run.fps, run.others,
          run.code, run.frame⟩
        · rw [calloutOutputRtn, calloutOutputOne]
          dsimp only
          rw [if_pos empty]
          simp only [bind, Except.bind, ran, Option.toList_none, List.nil_append]
        · rw [run.slots, List.map_cons, List.filter_cons]
          simp only [empty, ne_eq, not_true_eq_false, decide_false, Bool.false_eq_true, ↓reduceIte]
      · rw [codeTotal_cons empty] at fits
        obtain ⟨rwOff, area⟩ := areas rp List.mem_cons_self empty
        obtain ⟨middle, emittedOne, statics, rtnSize, fps, memory⟩ :=
          @emitRtn_ok env state rp (state.fps rp) offset rwOff isOffset area (by omega)
        have sameFps : slots.map middle.fps = slots.map state.fps := by
          refine List.map_congr_left fun later member => ?_
          rw [fps, Function.update_of_ne]
          exact fun same => notLater (same ▸ member)
        have sameFirst := @SameStatics.firstOffset env _ _ statics
        have nextOffset : (beginEmission env middle).rtnSize =
            offset + (env.rtnAt (state.fps rp)).rtnSize :=
          beginEmission_rtnSize rtnSize (by omega)
        obtain ⟨after, emitted, ran, run⟩ := ih nextOffset (by omega)
          (by rw [statics.totalSize, statics.rwSize, sameFirst]; exact areasBefore)
          (fun later member nonzero => by
            have same : middle.fps later = state.fps later :=
              List.map_inj_left.mp sameFps later member
            rw [same] at nonzero ⊢
            rw [statics.findRwOff]
            exact areas later (List.mem_cons_of_mem rp member) nonzero)
          (by rw [sameFps]; omega) distinct
        let one : Emitted := ⟨rp, state.fps rp, offset, rwOff⟩
        have slotNew : rp ∉ emitted.map Emitted.slot := by
          intro member
          obtain ⟨other, held, same⟩ := List.mem_map.mp member
          exact notLater (same ▸ (run.slot_mem held).1)
        refine ⟨after, one :: emitted, ?_, statics.trans run.statics, ?_, ⟨rfl, run.laid⟩, ?_, ?_,
          ?_, ?_, ?_⟩
        · rw [calloutOutputRtn, calloutOutputOne]
          dsimp only
          rw [if_neg empty, if_neg Bool.false_ne_true]
          simp only [bind, Except.bind, emittedOne, ran, Option.toList_some, List.singleton_append]
          rfl
        · have held : (slots.map fun rp => (rp, middle.fps rp)) =
              slots.map fun rp => (rp, state.fps rp) :=
            List.map_congr_left fun later member =>
              congrArg (Prod.mk later) (List.map_inj_left.mp sameFps later member)
          rw [List.map_cons, run.slots, held, List.map_cons, List.filter_cons]
          simp only [empty, ne_eq, not_false_eq_true, decide_true, ↓reduceIte, one]
        · intro other member
          rcases List.mem_cons.mp member with isOne | later
          · rw [isOne]
            exact area
          · rw [← statics.findRwOff]
            exact run.areas other later
        · intro other member
          rcases List.mem_cons.mp member with isOne | later
          · rw [isOne, run.others rp slotNew, fps, Function.update_self]
          · exact run.fps other later
        · intro other notSlot
          rw [List.map_cons, List.mem_cons, not_or] at notSlot
          rw [run.others other notSlot.2, fps, Function.update_of_ne notSlot.1]
        · intro confined other member
          rcases List.mem_cons.mp member with isOne | later
          · refine ⟨(beginEmission env state).memory, fun address inside => ?_⟩
            rw [isOne] at inside ⊢
            have lower : offset ≤ address := inside.1
            have upper : address < offset + (env.rtnAt (state.fps rp)).rtnSize := inside.2
            have behind : firstOffset env middle ≤ address := by omega
            rw [run.frame confined address behind upper, memory]
          · obtain ⟨before, holds⟩ := run.code confined other later
            rw [statics.patchData] at holds
            exact ⟨before, holds⟩
        · intro confined address lower upper
          have outside : address < offset ∨
              offset + (env.rtnAt (state.fps rp)).rtnSize ≤ address := Or.inl upper
          have behind : firstOffset env middle ≤ address := by omega
          rw [run.frame confined address behind (by omega), memory,
            patchCode_outside confined outside, copyCode_of_not_mem outside,
            beginEmission_memory (areasBefore.trans lower)]

end Emission

/-! ## Both passes -/

section Agreement

variable {env : CalloutEnv} {asinfoSize : Nat} {start sized before after : Callouts}
  {slots moved : List Nat} {calloutsSize rwSize reserved : Nat} {emitted : List Emitted}

/-- The static variables before the first pass. -/
structure Callouts.Fresh (start : Callouts) : Prop where
  rwAddrs : start.rwAddrs = []
  rwSize : start.rwSize = 0
  rtnSize : start.rtnSize = 0

/-- Between the passes the system page grows by up to four `asinfo_entry`; the slots may move
but hold what they held. -/
structure BetweenPasses (asinfoSize : Nat) (sized before : Callouts) (slots moved : List Nat) :
    Prop where
  contents : moved.map before.fps = slots.map sized.fps
  rwAddrs : before.rwAddrs = sized.rwAddrs
  rwSize : before.rwSize = sized.rwSize
  rtnSize : before.rtnSize = sized.rtnSize
  total_le : sized.totalSize ≤ before.totalSize
  growth : before.totalSize ≤ sized.totalSize + 4 * asinfoSize

/-- The read/write area of a routine. -/
def rwBlock (env : CalloutEnv) (emitted : Emitted) : Blocks.Block :=
  ⟨emitted.rwOff, env.rwWord (env.rtnAt emitted.rtn).rwSize⟩

/-- The emission pass against what the sizing pass announced. -/
structure Emission (env : CalloutEnv) (before after : Callouts) (slots : List Nat)
    (rwSize calloutsSize reserved : Nat) (emitted : List Emitted) : Prop where
  /-- Every slot that holds a routine is emitted, in order. -/
  slots : (emitted.map fun one => (one.slot, one.rtn)) =
    (slots.map fun rp => (rp, before.fps rp)).filter fun held => held.2 ≠ 0
  inside : ∀ one ∈ emitted, ROUNDPG env (before.totalSize + rwSize) ≤ one.rtnOff ∧
    one.rtnOff + (env.rtnAt one.rtn).rtnSize ≤
      ROUNDPG env (before.totalSize + rwSize) + calloutsSize
  reserved : ROUNDPG env (before.totalSize + rwSize) + calloutsSize ≤ reserved
  disjoint : emitted.Pairwise fun one other =>
    Disjoint (codeBlock env one).range (codeBlock env other).range
  shared : ∀ one ∈ emitted, ∀ other ∈ emitted, (env.rtnAt one.rtn).rwSize ≠ 0 →
    (env.rtnAt one.rtn).rwSize = (env.rtnAt other.rtn).rwSize → one.rwOff = other.rwOff
  apart : ∀ one ∈ emitted, ∀ other ∈ emitted, (env.rtnAt one.rtn).rwSize ≠ 0 →
    (env.rtnAt other.rtn).rwSize ≠ 0 →
      (env.rtnAt one.rtn).rwSize ≠ (env.rtnAt other.rtn).rwSize →
        Disjoint (rwBlock env one).range (rwBlock env other).range
  areas : ∀ one ∈ emitted, (env.rtnAt one.rtn).rwSize ≠ 0 → before.totalSize ≤ one.rwOff ∧
    one.rwOff + env.rwWord (env.rtnAt one.rtn).rwSize ≤ before.totalSize + rwSize
  fps : ∀ one ∈ emitted, after.fps one.slot = addPaddr env.kernSyspageptr one.rtnOff
  others : ∀ rp, rp ∉ emitted.map Emitted.slot → after.fps rp = before.fps rp
  /-- The copy at the new address is the code of the routine, patched. -/
  code : Confined env → ∀ one ∈ emitted, ∃ memory, ∀ address ∈ (codeBlock env one).range,
    after.memory address = patchCode env before.patchData one
      (copyCode memory one.rtnOff (env.rtnAt one.rtn)) address

theorem sized_of_fresh (fresh : start.Fresh) : Sized env start [] := by
  refine ⟨?_, ?_, ?_, fresh.rwSize, fresh.rtnSize⟩
  · rw [fresh.rwAddrs]
    trivial
  · rw [fresh.rwAddrs]
    exact List.nodup_nil
  · rw [fresh.rwAddrs]
    rfl

/-- The area of a routine is the one recorded for its pointer. -/
theorem findRwOff_area {rtn : CalloutRtn} {rwOff : Nat} (hasArea : rtn.rwSize ≠ 0)
    (found : findRwOff before rtn = .ok rwOff) :
    ∃ rw ∈ before.rwAddrs, rw.data = rtn.rwSize ∧
      (before.rwAddrs.find? fun rw => rw.data = rtn.rwSize) = some rw ∧
      rwOff = Word.add 32 before.totalSize rw.rwOff := by
  rw [findRwOff, if_pos hasArea] at found
  split at found
  · next rw isRw =>
      cases found
      have isArea := List.find?_some isRw
      exact ⟨rw, List.mem_of_find?_eq_some isRw, of_decide_eq_true isArea, isRw, rfl⟩
  · cases found

/-- Every routine that was sized has an area, if it asks for one. -/
theorem Sized.findRwOff {seen : List Nat} (isSized : Sized env sized seen)
    (same : before.rwAddrs = sized.rwAddrs) {rtn : Nat} (held : rtn ∈ seen) (nonzero : rtn ≠ 0) :
    ∃ rwOff, findRwOff before (env.rtnAt rtn) = .ok rwOff := by
  by_cases hasArea : (env.rtnAt rtn).rwSize = 0
  · exact ⟨before.totalSize, by rw [Startup.findRwOff, if_neg (not_not.mpr hasArea)]⟩
  · have pointer : (env.rtnAt rtn).rwSize ∈ rwPointers env seen :=
      mem_rwPointers.mpr ⟨hasArea, rtn, held, nonzero, rfl⟩
    rw [← isSized.pointers, List.mem_toFinset] at pointer
    obtain ⟨area, member, isArea⟩ := List.mem_map.mp pointer
    have found : (sized.rwAddrs.find? fun rw => rw.data = (env.rtnAt rtn).rwSize).isSome :=
      List.find?_isSome.mpr ⟨area, member, decide_eq_true isArea⟩
    obtain ⟨rw, isRw⟩ := Option.isSome_iff_exists.mp found
    refine ⟨Word.add 32 before.totalSize rw.rwOff, ?_⟩
    rw [Startup.findRwOff, if_pos hasArea, same, isRw]

/-- Areas lie inside the sized space. -/
theorem Sized.inside {seen : List Nat} (isSized : Sized env sized seen) {rw : RwArea}
    (member : rw ∈ sized.rwAddrs) : rw.rwOff + env.rwWord rw.data ≤ rwTotal env seen := by
  have block : (⟨rw.rwOff, env.rwWord rw.data⟩ : Blocks.Block) ∈ areaBlocks env sized.rwAddrs :=
    List.mem_map.mpr ⟨rw, List.mem_reverse.mpr member, rfl⟩
  have inside := (isSized.laid.inside block).2
  rwa [isSized.total, Nat.zero_add] at inside

/-- Areas of different pointers do not overlap. -/
theorem Sized.apart {seen : List Nat} (isSized : Sized env sized seen) {one other : RwArea}
    (isOne : one ∈ sized.rwAddrs) (isOther : other ∈ sized.rwAddrs)
    (different : one.data ≠ other.data) :
    one.rwOff + env.rwWord one.data ≤ other.rwOff ∨
      other.rwOff + env.rwWord other.data ≤ one.rwOff := by
  have ordered := List.pairwise_map.mp isSized.laid.ordered
  have either : sized.rwAddrs.reverse.Pairwise fun one other =>
      one.rwOff + env.rwWord one.data ≤ other.rwOff ∨
        other.rwOff + env.rwWord other.data ≤ one.rwOff := ordered.imp Or.inl
  have symmetric : Std.Symm fun one other : RwArea =>
      one.rwOff + env.rwWord one.data ≤ other.rwOff ∨
        other.rwOff + env.rwWord other.data ≤ one.rwOff := ⟨fun _ _ => Or.symm⟩
  exact either.forall (List.mem_reverse.mpr isOne) (List.mem_reverse.mpr isOther)
    fun same => different (congrArg RwArea.data same)

/-- The first pass returns the sizes of all routines, rounded up to eight bytes. -/
theorem outputCallouts_sized (fresh : start.Fresh)
    (fit : CalloutsFit env asinfoSize start.totalSize (slots.map start.fps))
    (sizing : outputCallouts env true slots start = .ok (sized, calloutsSize, emitted)) :
    ∃ summed, Sized env summed (slots.map start.fps) ∧ sized.rwAddrs = summed.rwAddrs ∧
      sized.rwSize = roundedUp (rwTotal env (slots.map start.fps)) ∧ sized.rtnSize = 0 ∧
      sized.fps = start.fps ∧ sized.totalSize = start.totalSize ∧
      calloutsSize = roundedUp (codeTotal env (slots.map start.fps)) := by
  have rwLe := @le_pages env (start.totalSize +
    roundedUp (rwTotal env (slots.map start.fps)) + 4 * asinfoSize)
  have codeLe := @le_pages env (roundedUp (codeTotal env (slots.map start.fps)))
  have rwRounded := le_roundedUp (rwTotal env (slots.map start.fps))
  have codeRounded := le_roundedUp (codeTotal env (slots.map start.fps))
  unfold CalloutsFit at fit
  obtain ⟨⟨summed, visited⟩, ran, same⟩ := bind_eq_ok.mp sizing
  cases same
  obtain ⟨isSized, fps, total⟩ := calloutOutputRtn_sized (sized_of_fresh fresh)
    (by rw [List.nil_append]; omega) (by rw [List.nil_append]; omega) ran
  rw [List.nil_append] at isSized
  have rwSize : roundSize summed.rwSize = roundedUp (rwTotal env (slots.map start.fps)) := by
    rw [isSized.rwSize, roundSize_eq (by omega)]
  have rtnSize : roundSize summed.rtnSize =
      roundedUp (codeTotal env (slots.map start.fps)) := by
    rw [isSized.rtnSize, roundSize_eq (by omega)]
  exact ⟨summed, isSized, rfl, rwSize, rfl, fps, total, rtnSize⟩

/-- `spsize` counts the system page with its read/write areas and the code, page by page. -/
theorem spsize_eq {totalSize rwSize : Nat}
    (fits : pages env (totalSize + rwSize + 4 * asinfoSize) + pages env calloutsSize < 2 ^ 32) :
    spsize env asinfoSize totalSize rwSize calloutsSize =
      pages env (totalSize + rwSize + 4 * asinfoSize) + pages env calloutsSize := by
  have front := @le_pages env (totalSize + rwSize + 4 * asinfoSize)
  have back := @le_pages env calloutsSize
  have used : Word.add 32 totalSize rwSize = totalSize + rwSize := Word.add_of_lt (by omega)
  have asinfo : addPaddr (totalSize + rwSize) (4 * asinfoSize) =
      totalSize + rwSize + 4 * asinfoSize := addPaddr_of_lt (by omega)
  have code : ROUNDPG env calloutsSize = pages env calloutsSize := ROUNDPG_eq (by omega)
  have small : pages env (totalSize + rwSize + 4 * asinfoSize) % 2 ^ 32 =
      pages env (totalSize + rwSize + 4 * asinfoSize) := Nat.mod_eq_of_lt (by omega)
  rw [spsize, used, asinfo, code, ROUNDPG_eq (by omega), small, addPaddr_of_lt (by omega),
    Nat.mod_eq_of_lt fits]

/-- After the sizing pass the emission pass copies every routine inside the space announced for
it, gives the routines the areas announced for them, and points each slot to its own copy. -/
theorem callouts_agree (fresh : start.Fresh)
    (fit : CalloutsFit env asinfoSize start.totalSize (slots.map start.fps))
    (sizing : outputCallouts env true slots start = .ok (sized, calloutsSize, emitted))
    (between : BetweenPasses asinfoSize sized before slots moved) (distinct : moved.Nodup) :
    ∃ after size copies, outputCallouts env false moved before = .ok (after, size, copies) ∧
      Emission env before after moved sized.rwSize calloutsSize
        (spsize env asinfoSize start.totalSize sized.rwSize calloutsSize) copies := by
  obtain ⟨summed, isSized, rwAddrs, rwSize, rtnSize, fps, total, isCalloutsSize⟩ :=
    outputCallouts_sized fresh fit sizing
  unfold CalloutsFit at fit
  rw [← rwSize, ← isCalloutsSize] at fit
  have lower := between.total_le
  have upper := between.growth
  rw [total] at lower upper
  have rwFits : rwTotal env (slots.map start.fps) ≤ sized.rwSize := rwSize ▸ le_roundedUp _
  have codeFits : codeTotal env (slots.map start.fps) ≤ calloutsSize :=
    isCalloutsSize ▸ le_roundedUp _
  have front := @le_pages env (start.totalSize + sized.rwSize + 4 * asinfoSize)
  have back := @le_pages env calloutsSize
  have grown : pages env (before.totalSize + sized.rwSize) ≤
      pages env (start.totalSize + sized.rwSize + 4 * asinfoSize) := pages_mono (by omega)
  have behind := @le_pages env (before.totalSize + sized.rwSize)
  have isFirst : ROUNDPG env (before.totalSize + sized.rwSize) =
      pages env (before.totalSize + sized.rwSize) := ROUNDPG_eq (by omega)
  have first : firstOffset env before = pages env (before.totalSize + sized.rwSize) := by
    rw [firstOffset, between.rwSize, Word.add_of_lt (by omega), isFirst,
      Nat.mod_eq_of_lt (by omega)]
  have contents : moved.map before.fps = slots.map start.fps := by
    rw [between.contents, fps]
  have isOffset : (beginEmission env before).rtnSize = firstOffset env before := by
    rw [beginEmission, if_pos (between.rtnSize.trans rtnSize)]
    rfl
  have held : ∀ rp ∈ moved, before.fps rp ∈ slots.map start.fps := fun rp member =>
    contents ▸ List.mem_map_of_mem member
  have sameAddrs : before.rwAddrs = summed.rwAddrs := between.rwAddrs.trans rwAddrs
  obtain ⟨last, copies, ran, run⟩ := calloutOutputRtn_emits isOffset le_rfl
    (by rw [first, between.rwSize]; omega)
    (fun rp member nonzero => isSized.findRwOff sameAddrs (held rp member) nonzero)
    (by rw [contents, first]; omega) distinct
  refine ⟨{ last with rwSize := roundSize last.rwSize }, roundSize last.rtnSize, copies, ?_,
    run.slots, ?_, ?_, (List.pairwise_map.mp run.laid.ordered).imp Blocks.disjoint_of_before,
    ?_, ?_, ?_, run.fps, run.others, run.code⟩
  · simp only [outputCallouts, bind, Except.bind, ran, Bool.false_eq_true, ↓reduceIte]
  · intro one member
    have inside := run.laid.inside (List.mem_map_of_mem member)
    rw [run.total, contents, first] at inside
    rw [isFirst]
    have block : codeBlock env one = ⟨one.rtnOff, (env.rtnAt one.rtn).rtnSize⟩ := rfl
    rw [block] at inside
    dsimp only at inside
    omega
  · rw [isFirst, spsize_eq fit]
    omega
  · intro one isOne other isOther hasArea same
    obtain ⟨rw, _, _, found, isOff⟩ := findRwOff_area hasArea (run.areas one isOne)
    obtain ⟨rw', _, _, found', isOff'⟩ :=
      findRwOff_area (same ▸ hasArea) (run.areas other isOther)
    rw [same, found'] at found
    cases found
    rw [isOff, isOff']
  · intro one isOne other isOther hasArea hasOther different
    obtain ⟨rw, member, isData, _, isOff⟩ := findRwOff_area hasArea (run.areas one isOne)
    obtain ⟨rw', member', isData', _, isOff'⟩ :=
      findRwOff_area hasOther (run.areas other isOther)
    rw [sameAddrs] at member member'
    have insideOne := isSized.inside member
    have insideOther := isSized.inside member'
    have ordered := isSized.apart member member' (by rw [isData, isData']; exact different)
    rw [isData, isData'] at ordered
    rw [isData] at insideOne
    rw [isData'] at insideOther
    rw [Word.add_of_lt (by omega)] at isOff isOff'
    rcases ordered with isBefore | isBehind
    · exact Blocks.disjoint_of_before (by simp only [rwBlock]; omega)
    · exact (Blocks.disjoint_of_before (by simp only [rwBlock]; omega)).symm
  · intro one isOne hasArea
    obtain ⟨rw, member, isData, _, isOff⟩ := findRwOff_area hasArea (run.areas one isOne)
    rw [sameAddrs] at member
    have inside := isSized.inside member
    rw [isData] at inside
    rw [Word.add_of_lt (by omega)] at isOff
    omega

end Agreement

/-! ## Small and huge routines -/

/-- One routine of 24 bytes with a read/write area of 12 bytes. -/
def smallEnv : CalloutEnv :=
  { rtnAt := fun _ => ⟨5, none, 24, fun _ => 1⟩, rwWord := fun _ => 12, pageShift := 12,
    syspagePaddr := 65536, kernSyspageptr := 1048576, pageShift_lt := by decide }

/-- Before the first pass, with two slots that share the routine and an empty one. -/
def smallCallouts : Callouts :=
  { memory := fun _ => 0, fps := fun rp => if rp = 24 then 0 else 7, rwAddrs := [], rwSize := 0,
    rtnSize := 0, coInfos := 20, totalSize := 4096, patchData := [] }

/-- After the first pass. -/
def smallSized : Callouts :=
  { smallCallouts with rwAddrs := [⟨0, 5⟩], rwSize := 16, coInfos := 19 }

theorem callouts_agree_small :
    ∃ after size copies,
      outputCallouts smallEnv false [16, 24, 32] smallSized = .ok (after, size, copies) ∧
        Emission smallEnv smallSized after [16, 24, 32] 16 48
          (spsize smallEnv 48 4096 16 48) copies :=
  @callouts_agree smallEnv 48 smallCallouts smallSized smallSized [16, 24, 32] [16, 24, 32] 48 []
    ⟨rfl, rfl, rfl⟩ (by decide) rfl
    ⟨rfl, rfl, rfl, rfl, le_rfl, Nat.le_add_right _ _⟩ (by decide)

/-- Two routines of two gibibytes each. -/
def hugeEnv : CalloutEnv := { smallEnv with rtnAt := fun _ => ⟨0, none, 2 ^ 31, fun _ => 1⟩ }

/-- The sizes of huge routines wrap: the first pass announces no space for them. -/
theorem callouts_size_wraps :
    ∃ sized after size copies,
      outputCallouts hugeEnv true [16, 32] smallCallouts = .ok (sized, 0, []) ∧
        outputCallouts hugeEnv false [16, 32] sized = .ok (after, size, copies) ∧
        ∃ one ∈ copies, ¬ one.rtnOff + (hugeEnv.rtnAt one.rtn).rtnSize ≤
          ROUNDPG hugeEnv (sized.totalSize + sized.rwSize) + 0 := by
  let copies : List Emitted := [⟨16, 7, 4096, 4096⟩, ⟨32, 7, 4096 + 2 ^ 31, 4096⟩]
  refine ⟨smallCallouts, _, _, copies, rfl, rfl, ⟨16, 7, 4096, 4096⟩, ?_, ?_⟩
  · exact List.mem_cons_self
  · decide

end Bcm2711.Startup
