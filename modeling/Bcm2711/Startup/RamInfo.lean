import Bcm2711.Startup.Types

/-! # Memory from the device tree

`init_raminfo_fdt` reads the `reg` property of every memory node in chunks of eight entries
and adds each entry as RAM.  `fdt_get_reg64_cells` extracts the entries, but returns how many
entries are left in the property and not how many it has extracted.
-/

namespace Bcm2711.Startup

/-! ## The device tree -/

/-- The errors of libfdt that the functions return. -/
inductive FdtError where
  | notFound
  | badOffset
  | badNCells
deriving DecidableEq, Repr

/-- A property: its length in bytes, and its 32-bit cells in the order of the processor. -/
structure FdtProp where
  len : Nat
  cell : Nat → Nat

/-- What libfdt tells of a node: its `reg` property, and the `#address-cells` and
`#size-cells` of its parent. -/
structure FdtNode where
  reg : Option FdtProp
  parentCells : Except FdtError (Int × Int)

/-- A device tree: the nodes whose `device_type` is `memory`, and the reserved ranges. -/
structure Fdt where
  memory : List FdtNode
  memRsv : List (Nat × Nat)

/-- How reading the device tree ends when it does not return. -/
inductive FdtHalt where
  /-- An access outside a local array. -/
  | outside
  /-- A loop that does not end. -/
  | stuck
deriving DecidableEq, Repr

/-- A store into a local array. -/
def storeAt (array : List Nat) (slot : Nat) (value : Option Nat) : Except FdtHalt (List Nat) :=
  match value with
  | none => .ok array
  | some value => if slot < array.length then .ok (array.set slot value) else .error .outside

/-- A load from a local array. -/
def loadAt (array : List Nat) (slot : Nat) : Except FdtHalt Nat :=
  match array[slot]? with
  | some value => .ok value
  | none => .error .outside

/-! ## Reading entries -/

/-- The value of one or two cells of a property; for another number of cells nothing is
read. -/
def FdtProp.value (prop : FdtProp) (cells : Nat) (place : Nat) : Option Nat :=
  match cells with
  | 1 => some (prop.cell place)
  | 2 => some (prop.cell place * 2 ^ 32 + prop.cell (place + 1))
  | _ => none

/-- The loop of `fdt_get_reg64_cells`, which fills the arrays from a slot on.  Without a
`size` array `regprop` moves on by the address only. -/
def readEntries (prop : FdtProp) (addrCells sizeCells : Nat) :
    (num : Nat) → (place slot : Nat) → (addr : List Nat) → (size : Option (List Nat)) →
      Except FdtHalt (List Nat × Option (List Nat))
  | 0, _, _, addr, size => .ok (addr, size)
  | num + 1, place, slot, addr, size => do
      let addr ← storeAt addr slot (prop.value addrCells place)
      match size with
      | none => readEntries prop addrCells sizeCells num (place + addrCells) (slot + 1) addr none
      | some size => do
          let size ← storeAt size slot (prop.value sizeCells (place + addrCells))
          readEntries prop addrCells sizeCells num (place + addrCells + sizeCells) (slot + 1) addr
            (some size)

/-- What `fdt_get_reg64_cells` returns, and the arrays it leaves. -/
structure RegRead where
  ret : Except FdtError Nat
  addr : List Nat
  size : Option (List Nat)

/-- `fdt_get_reg64_cells`; null arrays are `none`. -/
def fdtGetReg64Cells (node : FdtNode) (index num : Int) (addr size : Option (List Nat))
    (addrCells sizeCells : Int) : Except FdtHalt RegRead :=
  let failed (error : FdtError) : Except FdtHalt RegRead :=
    .ok ⟨.error error, addr.getD [], size⟩
  match node.reg with
  | none => failed .notFound
  | some prop =>
      match if addrCells = -1 then node.parentCells else .ok (addrCells, sizeCells) with
      | .error error => failed error
      | .ok (addrCells, sizeCells) =>
          if addrCells < 1 ∨ addrCells > 2 then failed .badNCells
          else if sizeCells < 0 ∨ sizeCells > 2 then failed .badNCells
          else
            let entCells := addrCells.toNat + sizeCells.toNat
            let entlen := entCells * 4
            if prop.len % entlen ≠ 0 then failed .badOffset
            else
              let len := prop.len / entlen
              if index < 0 ∨ index ≥ len then failed .notFound
              else
                let left := len - index.toNat
                match addr with
                | none => .ok ⟨.ok left, [], size⟩
                | some addr =>
                    if (sizeCells = 0) ≠ (size = none) then failed .badNCells
                    else do
                      let (addr, size) ← readEntries prop addrCells.toNat sizeCells.toNat
                        (min num left).toNat (index.toNat * entCells) 0 addr size
                      .ok ⟨.ok left, addr, size⟩

/-! ## Adding the memory -/

/-- A call that `init_raminfo_fdt` makes. -/
inductive RamInfoCall where
  | avoidRam (start size : Nat)
  | addRam (start size : Nat)
  | allocRam (start size align : Nat)
deriving DecidableEq, Repr

/-- `REG_CHUNK`. -/
def REG_CHUNK : Nat := 8

/-- The `add_ram` calls for the first `nreg` entries of the arrays. -/
def addChunk (addr size : List Nat) (nreg : Nat) : Except FdtHalt (List RamInfoCall) :=
  (List.range nreg).mapM fun i => do
    let start ← loadAt addr i
    let size ← loadAt size i
    .ok (.addRam start size)

/-- The loop over the chunks of one memory node. -/
def addNode (node : FdtNode) : (fuel idx : Nat) → Except FdtHalt (List RamInfoCall)
  | 0, _ => .error .stuck
  | fuel + 1, idx => do
      let zeroes := List.replicate REG_CHUNK 0
      let read ← fdtGetReg64Cells node idx REG_CHUNK (some zeroes) (some zeroes) (-1) (-1)
      match read.ret with
      | .error _ => .ok []
      | .ok 0 => .ok []
      | .ok nreg => do
          let calls ← addChunk read.addr (read.size.getD []) nreg
          let rest ← addNode node fuel (idx + nreg)
          .ok (calls ++ rest)

/-- The rounds a loop over the chunks can take: each but the last moves on in the property. -/
def FdtNode.rounds (node : FdtNode) : Nat :=
  match node.reg with
  | none => 1
  | some prop => prop.len + 2

/-- `init_raminfo_fdt`, with the calls it makes. -/
def initRaminfoFdt : Option Fdt → Except FdtHalt (List RamInfoCall × Nat)
  | none => .ok ([], 0)
  | some fdt => do
      let added ← fdt.memory.mapM fun node => addNode node node.rounds 0
      let avoided := fdt.memRsv.reverse.map fun (start, size) => .avoidRam start size
      let reserved := fdt.memRsv.reverse.map fun (start, size) => .allocRam start size 1
      .ok (avoided ++ added.flatten ++ reserved, 1)

/-! ## Entries -/

/-- The number of entries of the `reg` property. -/
def FdtNode.count (node : FdtNode) : Nat :=
  match node.reg, node.parentCells with
  | some prop, .ok (addrCells, sizeCells) => prop.len / ((addrCells.toNat + sizeCells.toNat) * 4)
  | _, _ => 0

/-- The address and the size of an entry of the `reg` property. -/
def FdtNode.entry (node : FdtNode) (index : Nat) : Nat × Nat :=
  match node.reg, node.parentCells with
  | some prop, .ok (addrCells, sizeCells) =>
      let place := index * (addrCells.toNat + sizeCells.toNat)
      ((prop.value addrCells.toNat place).getD 0,
        (prop.value sizeCells.toNat (place + addrCells.toNat)).getD 0)
  | _, _ => (0, 0)

/-- The entries of the `reg` property. -/
def FdtNode.entries (node : FdtNode) : List (Nat × Nat) :=
  (List.range node.count).map node.entry

/-- The node has no `reg` property, or a list of whole entries with valid cells. -/
def FdtNode.Valid (node : FdtNode) : Prop :=
  ∀ prop, node.reg = some prop → ∃ addrCells sizeCells,
    node.parentCells = .ok (addrCells, sizeCells) ∧ 1 ≤ addrCells ∧ addrCells ≤ 2 ∧
      0 ≤ sizeCells ∧ sizeCells ≤ 2 ∧ prop.len % ((addrCells.toNat + sizeCells.toNat) * 4) = 0

/-! ## One read -/

section Read

variable {prop : FdtProp} {addrCells sizeCells : Nat}

theorem value_isSome (positive : 1 ≤ addrCells) (small : addrCells ≤ 2) (place : Nat) :
    ∃ value, prop.value addrCells place = some value := by
  have cases : addrCells = 1 ∨ addrCells = 2 := by omega
  rcases cases with one | two
  · exact ⟨prop.cell place, by rw [one, FdtProp.value]⟩
  · exact ⟨prop.cell place * 2 ^ 32 + prop.cell (place + 1), by rw [two, FdtProp.value]⟩

theorem storeAt_some {array : List Nat} {slot value : Nat} (inside : slot < array.length) :
    storeAt array slot (some value) = .ok (array.set slot value) := if_pos inside

/-- Entries that fit into the arrays are stored behind what is there. -/
theorem readEntries_ok (addrSome : ∀ place, ∃ value, prop.value addrCells place = some value)
    (sizeSome : ∀ place, ∃ value, prop.value sizeCells place = some value) {num slot : Nat}
    (place : Nat) {addr size : List Nat} (addrFits : slot + num ≤ addr.length)
    (sizeFits : slot + num ≤ size.length) :
    ∃ addr' size',
      readEntries prop addrCells sizeCells num place slot addr (some size) =
        .ok (addr', some size') ∧
      addr'.length = addr.length ∧ size'.length = size.length ∧
      (∀ i < slot, addr'[i]? = addr[i]? ∧ size'[i]? = size[i]?) ∧
      ∀ i < num, addr'[slot + i]? = prop.value addrCells (place + i * (addrCells + sizeCells)) ∧
        size'[slot + i]? =
          prop.value sizeCells (place + i * (addrCells + sizeCells) + addrCells) := by
  induction num generalizing place slot addr size with
  | zero => exact ⟨addr, size, rfl, rfl, rfl, fun _ _ => ⟨rfl, rfl⟩, fun i none => by omega⟩
  | succ num ih =>
      obtain ⟨first, isFirst⟩ := addrSome place
      obtain ⟨second, isSecond⟩ := sizeSome (place + addrCells)
      obtain ⟨addr', size', ran, addrLength, sizeLength, kept, read⟩ :=
        @ih (slot + 1) (place + addrCells + sizeCells) (addr.set slot first)
          (size.set slot second) (by rw [List.length_set]; omega) (by rw [List.length_set]; omega)
      refine ⟨addr', size', ?_, ?_, ?_, ?_, ?_⟩
      · rw [readEntries, isFirst, storeAt_some (by omega)]
        dsimp only [bind, Except.bind]
        rw [isSecond, storeAt_some (by omega)]
        exact ran
      · rw [addrLength, List.length_set]
      · rw [sizeLength, List.length_set]
      · intro i before
        obtain ⟨addrKept, sizeKept⟩ := kept i (by omega)
        rw [addrKept, sizeKept, List.getElem?_set_ne (by omega), List.getElem?_set_ne (by omega)]
        exact ⟨rfl, rfl⟩
      · intro i inside
        cases i with
        | zero =>
            obtain ⟨addrKept, sizeKept⟩ := kept slot (by omega)
            rw [Nat.add_zero, addrKept, sizeKept, List.getElem?_set_self (by omega),
              List.getElem?_set_self (by omega), Nat.zero_mul, Nat.add_zero, isFirst, isSecond]
            exact ⟨rfl, rfl⟩
        | succ i =>
            obtain ⟨addrRead, sizeRead⟩ := read i (by omega)
            have next : slot + (i + 1) = slot + 1 + i := by omega
            have moved : place + (i + 1) * (addrCells + sizeCells) =
                place + addrCells + sizeCells + i * (addrCells + sizeCells) := by
              rw [Nat.succ_mul]
              omega
            rw [next, addrRead, sizeRead, moved]
            exact ⟨rfl, rfl⟩

end Read

/-! ## Adding in order -/

/-- Results found one by one belong to their arguments. -/
theorem forall₂_of_mapM_ok {α β ε : Type} {found : α → Except ε β} {indices : List α}
    {results : List β} (all : indices.mapM found = .ok results) :
    List.Forall₂ (fun index result => found index = .ok result) indices results := by
  induction indices generalizing results with
  | nil =>
      cases all
      exact List.Forall₂.nil
  | cons index rest ih =>
      rw [List.mapM_cons] at all
      cases first : found index with
      | error halt =>
          rw [first] at all
          cases all
      | ok result =>
          rw [first] at all
          cases others : rest.mapM found with
          | error halt =>
              rw [others] at all
              cases all
          | ok more =>
              rw [others] at all
              cases all
              exact List.Forall₂.cons first (ih others)

/-- Calls that all return are made one by one. -/
theorem mapM_ok {α β ε : Type} {found : α → Except ε β} {result : α → β} {indices : List α}
    (all : ∀ index ∈ indices, found index = .ok (result index)) :
    indices.mapM found = .ok (indices.map result) := by
  induction indices with
  | nil => rfl
  | cons index rest ih =>
      have others := ih fun other member => all other (List.mem_cons_of_mem _ member)
      rw [List.mapM_cons, all index List.mem_cons_self, others]
      rfl

/-- One call that fails makes the whole list of calls fail, if that is how calls fail. -/
theorem mapM_error {α β ε : Type} {found : α → Except ε β} {halt : ε} {indices : List α}
    (only : ∀ index ∈ indices, ∀ other, found index = .error other → other = halt)
    (fails : ∃ index ∈ indices, found index = .error halt) :
    indices.mapM found = .error halt := by
  induction indices with
  | nil =>
      obtain ⟨index, member, _⟩ := fails
      exact absurd member List.not_mem_nil
  | cons index rest ih =>
      rw [List.mapM_cons]
      cases first : found index with
      | error other =>
          have same := only index List.mem_cons_self other first
          rw [same]
          rfl
      | ok result =>
          have later : ∃ other ∈ rest, found other = .error halt := by
            obtain ⟨failing, member, failed⟩ := fails
            rcases List.mem_cons.mp member with same | there
            · rw [same, first] at failed
              cases failed
            · exact ⟨failing, there, failed⟩
          have failed := ih (fun other member => only other (List.mem_cons_of_mem _ member)) later
          dsimp only [bind, Except.bind]
          rw [failed]

/-! ## One node -/

section Node

variable {node : FdtNode}

/-- The arrays of one chunk, before anything is read. -/
def zeroes : List Nat := List.replicate REG_CHUNK 0

/-- The sizes of the entries are told, so that they can be read into an array. -/
def FdtNode.Sized (node : FdtNode) : Prop :=
  ∀ addrCells sizeCells, node.parentCells = .ok (addrCells, sizeCells) → sizeCells ≠ 0

/-- Behind the last entry nothing is read. -/
theorem chunk_behind (valid : node.Valid) {idx : Nat} (behind : node.count ≤ idx) :
    ∃ error, fdtGetReg64Cells node idx REG_CHUNK (some zeroes) (some zeroes) (-1) (-1) =
      .ok ⟨.error error, zeroes, some zeroes⟩ := by
  cases isReg : node.reg with
  | none => exact ⟨.notFound, by rw [fdtGetReg64Cells, isReg]; rfl⟩
  | some prop =>
      obtain ⟨addrCells, sizeCells, parent, addrLower, addrUpper, sizeLower, sizeUpper, whole⟩ :=
        valid prop isReg
      rw [FdtNode.count, isReg, parent] at behind
      dsimp only at behind
      have addrValid : ¬ (addrCells < 1 ∨ addrCells > 2) := by omega
      have sizeValid : ¬ (sizeCells < 0 ∨ sizeCells > 2) := by omega
      have past : (idx : Int) < 0 ∨
          (idx : Int) ≥ (prop.len / ((addrCells.toNat + sizeCells.toNat) * 4) : Nat) :=
        Or.inr (Int.ofNat_le.mpr behind)
      refine ⟨.notFound, ?_⟩
      unfold fdtGetReg64Cells
      simp only [isReg, parent, if_true, if_neg addrValid, if_neg sizeValid, whole, ne_eq,
        not_true_eq_false, if_false, if_pos past, Option.getD_some]

/-- Without sizes nothing is read into the array for them. -/
theorem chunk_unsized (valid : node.Valid) (unsized : ¬ node.Sized) {idx : Nat} :
    ∃ error, fdtGetReg64Cells node idx REG_CHUNK (some zeroes) (some zeroes) (-1) (-1) =
      .ok ⟨.error error, zeroes, some zeroes⟩ := by
  by_cases behind : node.count ≤ idx
  · exact chunk_behind valid behind
  · cases isReg : node.reg with
    | none =>
        rw [FdtNode.count, isReg] at behind
        exact absurd (Nat.zero_le idx) behind
    | some prop =>
        obtain ⟨addrCells, sizeCells, parent, addrLower, addrUpper, sizeLower, sizeUpper, whole⟩ :=
          valid prop isReg
        have noSize : sizeCells = 0 := by
          by_contra sized
          apply unsized
          intro otherAddr otherSize same
          rw [parent] at same
          cases same
          exact sized
        rw [FdtNode.count, isReg, parent] at behind
        dsimp only at behind
        have addrValid : ¬ (addrCells < 1 ∨ addrCells > 2) := by omega
        have sizeValid : ¬ (sizeCells < 0 ∨ sizeCells > 2) := by omega
        have notPast : ¬ ((idx : Int) < 0 ∨
            (idx : Int) ≥ (prop.len / ((addrCells.toNat + sizeCells.toNat) * 4) : Nat)) := by omega
        subst noSize
        refine ⟨.badNCells, ?_⟩
        unfold fdtGetReg64Cells
        simp only [isReg, parent, if_true, if_neg addrValid, if_neg sizeValid, whole, ne_eq,
          not_true_eq_false, if_false, if_neg notPast, reduceCtorEq, eq_iff_iff, iff_false,
          not_false_eq_true, Option.getD_some]

/-- A chunk holds the next entries, and as result the number of all entries that are left. -/
theorem chunk_read (valid : node.Valid) (sized : node.Sized) {idx : Nat}
    (inside : idx < node.count) :
    ∃ addr size, fdtGetReg64Cells node idx REG_CHUNK (some zeroes) (some zeroes) (-1) (-1) =
        .ok ⟨.ok (node.count - idx), addr, some size⟩ ∧
      addr.length = REG_CHUNK ∧ size.length = REG_CHUNK ∧
      ∀ i < min REG_CHUNK (node.count - idx), addr[i]? = some (node.entry (idx + i)).1 ∧
        size[i]? = some (node.entry (idx + i)).2 := by
  cases isReg : node.reg with
  | none =>
      rw [FdtNode.count, isReg] at inside
      exact absurd inside (Nat.not_lt_zero idx)
  | some prop =>
      obtain ⟨addrCells, sizeCells, parent, addrLower, addrUpper, sizeLower, sizeUpper, whole⟩ :=
        valid prop isReg
      have notZero := sized addrCells sizeCells parent
      have count : node.count = prop.len / ((addrCells.toNat + sizeCells.toNat) * 4) := by
        rw [FdtNode.count, isReg, parent]
      have addrValid : ¬ (addrCells < 1 ∨ addrCells > 2) := by omega
      have sizeValid : ¬ (sizeCells < 0 ∨ sizeCells > 2) := by omega
      have notPast : ¬ ((idx : Int) < 0 ∨ (idx : Int) ≥ (node.count : Nat)) := by omega
      have num : (min (REG_CHUNK : Int) ((node.count - idx : Nat) : Int)).toNat =
          min REG_CHUNK (node.count - idx) := by
        rw [← Nat.cast_min]
        exact Int.toNat_natCast _
      have addrSome := @value_isSome prop addrCells.toNat (by omega) (by omega)
      have sizeSome := @value_isSome prop sizeCells.toNat (by omega) (by omega)
      obtain ⟨addr, size, ran, addrLength, sizeLength, _, read⟩ :=
        @readEntries_ok prop addrCells.toNat sizeCells.toNat addrSome sizeSome
          (min REG_CHUNK (node.count - idx)) 0 (idx * (addrCells.toNat + sizeCells.toNat)) zeroes
          zeroes (by rw [zeroes, List.length_replicate]; omega)
          (by rw [zeroes, List.length_replicate]; omega)
      refine ⟨addr, size, ?_, addrLength, sizeLength, ?_⟩
      · unfold fdtGetReg64Cells
        simp only [isReg, parent, if_true, if_neg addrValid, if_neg sizeValid, whole, ne_eq,
          not_true_eq_false, if_false, ← count, if_neg notPast, notZero, reduceCtorEq, num,
          Int.toNat_natCast, ran, bind, Except.bind]
      · intro i bound
        obtain ⟨addrRead, sizeRead⟩ := read i bound
        have place : idx * (addrCells.toNat + sizeCells.toNat) +
            i * (addrCells.toNat + sizeCells.toNat) =
            (idx + i) * (addrCells.toNat + sizeCells.toNat) := (Nat.add_mul _ _ _).symm
        obtain ⟨first, isFirst⟩ := addrSome ((idx + i) * (addrCells.toNat + sizeCells.toNat))
        obtain ⟨second, isSecond⟩ :=
          sizeSome ((idx + i) * (addrCells.toNat + sizeCells.toNat) + addrCells.toNat)
        rw [Nat.zero_add, place] at addrRead sizeRead
        rw [addrRead, sizeRead, FdtNode.entry, isReg, parent]
        dsimp only
        rw [isFirst, isSecond]
        exact ⟨rfl, rfl⟩

theorem loadAt_error {array : List Nat} {slot : Nat} {halt : FdtHalt}
    (failed : loadAt array slot = .error halt) : halt = .outside := by
  unfold loadAt at failed
  split at failed
  · cases failed
  · cases failed
    rfl

/-- Reading more entries than the arrays hold leaves them. -/
theorem addChunk_outside {addr size : List Nat} {nreg : Nat} (length : addr.length < nreg) :
    addChunk addr size nreg = .error .outside := by
  apply mapM_error
  · intro i _ halt failed
    cases isStart : loadAt addr i with
    | error other =>
        rw [isStart] at failed
        cases failed
        exact loadAt_error isStart
    | ok start =>
        rw [isStart] at failed
        cases isSize : loadAt size i with
        | error other =>
            rw [isSize] at failed
            cases failed
            exact loadAt_error isSize
        | ok value =>
            rw [isSize] at failed
            cases failed
  · have outside : loadAt addr addr.length = .error .outside := by
      rw [loadAt, List.getElem?_eq_none le_rfl]
    refine ⟨addr.length, List.mem_range.mpr length, ?_⟩
    rw [outside]
    rfl

/-- The `add_ram` call for an entry. -/
def addEntry (entry : Nat × Nat) : RamInfoCall := .addRam entry.1 entry.2

theorem addChunk_ok {addr size : List Nat} {nreg : Nat} {entry : Nat → Nat × Nat}
    (read : ∀ i < nreg, addr[i]? = some (entry i).1 ∧ size[i]? = some (entry i).2) :
    addChunk addr size nreg = .ok ((List.range nreg).map fun i => addEntry (entry i)) := by
  apply mapM_ok
  intro i member
  obtain ⟨isAddr, isSize⟩ := read i (List.mem_range.mp member)
  simp only [loadAt, isAddr, isSize, bind, Except.bind, addEntry]

/-- A round that reads nothing ends the loop. -/
theorem addNode_end {fuel idx : Nat} {read : RegRead} {error : FdtError}
    (isRead : fdtGetReg64Cells node idx REG_CHUNK (some zeroes) (some zeroes) (-1) (-1) = .ok read)
    (nothing : read.ret = .error error) : addNode node (fuel + 1) idx = .ok [] := by
  rw [addNode, ← zeroes, isRead]
  dsimp only [bind, Except.bind]
  rw [nothing]

/-- A round that reads entries adds them and goes on behind those that are said to be read. -/
theorem addNode_next {fuel idx nreg : Nat} {read : RegRead}
    (isRead : fdtGetReg64Cells node idx REG_CHUNK (some zeroes) (some zeroes) (-1) (-1) = .ok read)
    (some_left : read.ret = .ok nreg) (positive : 0 < nreg) :
    addNode node (fuel + 1) idx = (do
      let calls ← addChunk read.addr (read.size.getD []) nreg
      let rest ← addNode node fuel (idx + nreg)
      .ok (calls ++ rest)) := by
  obtain ⟨before, isSucc⟩ : ∃ before, nreg = before + 1 := ⟨nreg - 1, by omega⟩
  rw [addNode, ← zeroes, isRead]
  dsimp only [bind, Except.bind]
  rw [some_left, isSucc]
  rfl

theorem FdtNode.two_rounds (some_left : 0 < node.count) :
    ∃ fuel, node.rounds = fuel + 1 + 1 := by
  cases isReg : node.reg with
  | none =>
      rw [FdtNode.count, isReg] at some_left
      exact absurd some_left (Nat.lt_irrefl 0)
  | some prop => exact ⟨prop.len, by rw [FdtNode.rounds, isReg]⟩

theorem FdtNode.one_round : ∃ fuel, node.rounds = fuel + 1 := by
  unfold FdtNode.rounds
  split
  · exact ⟨0, rfl⟩
  · next prop _ => exact ⟨prop.len + 1, rfl⟩

/-- Nodes without sizes are not added. -/
theorem addNode_unsized (valid : node.Valid) (unsized : ¬ node.Sized) :
    addNode node node.rounds 0 = .ok [] := by
  obtain ⟨error, isRead⟩ := @chunk_unsized node valid unsized 0
  obtain ⟨fuel, isRounds⟩ := @FdtNode.one_round node
  rw [isRounds]
  exact addNode_end isRead rfl

/-- A node is added when its entries fit into one chunk. -/
theorem addNode_ok (valid : node.Valid) (sized : node.Sized) (fits : node.count ≤ REG_CHUNK) :
    addNode node node.rounds 0 = .ok (node.entries.map addEntry) := by
  rcases Nat.eq_zero_or_pos node.count with none_left | positive
  · obtain ⟨error, isRead⟩ := chunk_behind valid none_left.le
    obtain ⟨fuel, isRounds⟩ := @FdtNode.one_round node
    rw [isRounds, FdtNode.entries, none_left]
    exact addNode_end isRead rfl
  · obtain ⟨addr, size, isRead, _, _, read⟩ := chunk_read valid sized positive
    obtain ⟨error, nothing⟩ := chunk_behind valid (le_refl node.count)
    obtain ⟨fuel, isRounds⟩ := FdtNode.two_rounds positive
    have whole : min REG_CHUNK (node.count - 0) = node.count := Nat.min_eq_right fits
    rw [whole] at read
    have added : addChunk addr size node.count =
        .ok ((List.range node.count).map fun i => addEntry (node.entry i)) := by
      apply addChunk_ok
      intro i inside
      obtain ⟨isAddr, isSize⟩ := read i inside
      rw [Nat.zero_add] at isAddr isSize
      exact ⟨isAddr, isSize⟩
    have ends : addNode node (fuel + 1) (0 + node.count) = .ok [] := by
      rw [Nat.zero_add]
      exact addNode_end nothing rfl
    rw [isRounds, addNode_next isRead rfl positive, Nat.sub_zero]
    dsimp only [bind, Except.bind, Option.getD_some]
    rw [added, ends, FdtNode.entries, List.map_map]
    dsimp only
    rw [List.append_nil]
    rfl

/-- More entries than one chunk has are read outside the arrays. -/
theorem addNode_outside (valid : node.Valid) (sized : node.Sized)
    (long : REG_CHUNK < node.count) : addNode node node.rounds 0 = .error .outside := by
  have positive : 0 < node.count := Nat.zero_lt_of_lt long
  obtain ⟨addr, size, isRead, addrLength, _, _⟩ := chunk_read valid sized positive
  obtain ⟨fuel, isRounds⟩ := FdtNode.two_rounds positive
  have outside : addChunk addr size node.count = .error .outside := by
    apply addChunk_outside
    rw [addrLength]
    exact long
  rw [isRounds, addNode_next isRead rfl positive, Nat.sub_zero]
  dsimp only [bind, Except.bind, Option.getD_some]
  rw [outside]

end Node

/-! ## The whole tree -/

section Tree

variable {fdt : Fdt}

/-- The entries of the `add_ram` calls. -/
def ramCalls (calls : List RamInfoCall) : List (Nat × Nat) :=
  calls.filterMap fun
    | .addRam start size => some (start, size)
    | _ => none

/-- A node whose entries are added as they are: no more than one chunk, with sizes. -/
def FdtNode.Added (node : FdtNode) : Prop :=
  node.count ≤ REG_CHUNK ∧ (node.count = 0 ∨ node.Sized)

theorem FdtNode.Added.ok {node : FdtNode} (valid : node.Valid) (isAdded : node.Added) :
    addNode node node.rounds 0 = .ok (node.entries.map addEntry) := by
  by_cases sized : node.Sized
  · exact addNode_ok valid sized isAdded.1
  · have none_left := isAdded.2.resolve_right sized
    rw [FdtNode.entries, none_left]
    exact addNode_unsized valid sized

theorem ramCalls_append (front back : List RamInfoCall) :
    ramCalls (front ++ back) = ramCalls front ++ ramCalls back := List.filterMap_append

theorem ramCalls_addEntry (entries : List (Nat × Nat)) :
    ramCalls (entries.map addEntry) = entries := by
  rw [ramCalls, List.filterMap_map]
  exact List.filterMap_some

theorem ramCalls_flatten (parts : List (List (Nat × Nat))) :
    ramCalls (parts.map (List.map addEntry)).flatten = parts.flatten := by
  induction parts with
  | nil => rfl
  | cons part rest ih =>
      rw [List.map_cons, List.flatten_cons, List.flatten_cons, ramCalls_append, ramCalls_addEntry,
        ih]

/-- The calls for the reserved ranges add nothing. -/
theorem ramCalls_others {ranges : List (Nat × Nat)} {call : Nat × Nat → RamInfoCall}
    (other : ∀ range, ramCalls [call range] = []) : ramCalls (ranges.map call) = [] := by
  induction ranges with
  | nil => rfl
  | cons range rest ih =>
      have split : call range :: rest.map call = [call range] ++ rest.map call := rfl
      rw [List.map_cons, split, ramCalls_append, other, ih]
      rfl

/-- What is added of the memory nodes, in order. -/
theorem initRaminfoFdt_eq {parts : List (List (Nat × Nat))}
    (added : (fdt.memory.mapM fun node => addNode node node.rounds 0) =
      .ok (parts.map (List.map addEntry))) :
    ∃ calls, initRaminfoFdt (some fdt) = .ok (calls, 1) ∧ ramCalls calls = parts.flatten := by
  refine ⟨_, by rw [initRaminfoFdt, added]; rfl, ?_⟩
  rw [ramCalls_append, ramCalls_append, ramCalls_flatten]
  rw [ramCalls_others fun _ => rfl, ramCalls_others fun _ => rfl]
  rw [List.nil_append, List.append_nil]

/-- The entries of all nodes are only added when none of them is left out. -/
theorem flatMap_entries_eq {nodes : List FdtNode} {part : FdtNode → List (Nat × Nat)}
    (shorter : ∀ node ∈ nodes, (part node).length ≤ node.entries.length)
    (same : nodes.flatMap part = nodes.flatMap FdtNode.entries) :
    ∀ node ∈ nodes, (part node).length = node.entries.length := by
  by_contra differ
  simp only [not_forall] at differ
  obtain ⟨node, member, less⟩ := differ
  have lengths := congrArg List.length same
  rw [List.length_flatMap, List.length_flatMap] at lengths
  have strictly : (nodes.map fun node => (part node).length).sum <
      (nodes.map fun node => node.entries.length).sum := by
    apply List.sum_lt_sum
    · exact shorter
    · exact ⟨node, member, Nat.lt_of_le_of_ne (shorter node member) less⟩
  exact Nat.ne_of_lt strictly lengths

/-- `init_raminfo_fdt` stays inside its arrays and adds each entry of each memory node once and
in order exactly when no node has more entries than one chunk, and those with entries have
sizes. -/
theorem initRaminfoFdt_adds (valid : ∀ node ∈ fdt.memory, node.Valid) :
    (∃ calls, initRaminfoFdt (some fdt) = .ok (calls, 1) ∧
      ramCalls calls = fdt.memory.flatMap FdtNode.entries) ↔
      ∀ node ∈ fdt.memory, node.Added := by
  classical
  constructor
  · rintro ⟨calls, ran, same⟩
    have short : ∀ node ∈ fdt.memory, node.Sized → node.count ≤ REG_CHUNK := by
      intro node member sized
      by_contra long
      have outside := addNode_outside (valid node member) sized (Nat.lt_of_not_le long)
      cases all : fdt.memory.mapM fun node => addNode node node.rounds 0 with
      | error halt =>
          rw [initRaminfoFdt, all] at ran
          cases ran
      | ok lists =>
          obtain ⟨index, inside, here⟩ := List.getElem_of_mem member
          have each := forall₂_of_mapM_ok all
          have found := each.get inside (each.length_eq ▸ inside)
          rw [List.get_eq_getElem, here, outside] at found
          cases found
    let part : FdtNode → List (Nat × Nat) := fun node => if node.Sized then node.entries else []
    have all : (fdt.memory.mapM fun node => addNode node node.rounds 0) =
        .ok ((fdt.memory.map part).map (List.map addEntry)) := by
      rw [List.map_map]
      apply mapM_ok
      intro node member
      by_cases sized : node.Sized
      · have isPart : part node = node.entries := if_pos sized
        rw [Function.comp_apply, isPart]
        exact addNode_ok (valid node member) sized (short node member sized)
      · have isPart : part node = [] := if_neg sized
        rw [Function.comp_apply, isPart]
        exact addNode_unsized (valid node member) sized
    obtain ⟨made, madeRan, madeSame⟩ := initRaminfoFdt_eq all
    have isMade : made = calls := by
      rw [madeRan] at ran
      cases ran
      rfl
    rw [isMade, same] at madeSame
    have shorter : ∀ node ∈ fdt.memory, (part node).length ≤ node.entries.length := by
      intro node member
      by_cases sized : node.Sized
      · have isPart : part node = node.entries := if_pos sized
        rw [isPart]
      · have isPart : part node = [] := if_neg sized
        rw [isPart]
        exact Nat.zero_le _
    intro node member
    by_cases sized : node.Sized
    · exact ⟨short node member sized, Or.inr sized⟩
    · have isPart : part node = [] := if_neg sized
      have none_left := flatMap_entries_eq shorter madeSame.symm node member
      rw [isPart, FdtNode.entries, List.length_map, List.length_range] at none_left
      have zero : node.count = 0 := none_left.symm
      exact ⟨zero ▸ Nat.zero_le REG_CHUNK, Or.inl zero⟩
  · intro added
    have all : (fdt.memory.mapM fun node => addNode node node.rounds 0) =
        .ok ((fdt.memory.map FdtNode.entries).map (List.map addEntry)) := by
      rw [List.map_map]
      exact mapM_ok fun node member => (added node member).ok (valid node member)
    obtain ⟨calls, ran, same⟩ := initRaminfoFdt_eq all
    exact ⟨calls, ran, same⟩

end Tree

/-- A tree with one memory node of so many entries, of one cell for the address and one for the
size. -/
def oneNode (entries : Nat) : Fdt :=
  { memory := [⟨some ⟨8 * entries, fun place => 0x1000 * place⟩, .ok (1, 1)⟩], memRsv := [] }

theorem oneNode_valid (entries : Nat) : ∀ node ∈ (oneNode entries).memory, node.Valid := by
  intro node member
  rw [List.mem_singleton.mp member]
  intro prop isReg
  cases isReg
  exact ⟨1, 1, rfl, le_rfl, by decide, by decide, by decide, Nat.mul_mod_right 8 entries⟩

theorem initRaminfoFdt_adds_two :
    (∃ calls, initRaminfoFdt (some (oneNode 2)) = .ok (calls, 1) ∧
      ramCalls calls = (oneNode 2).memory.flatMap FdtNode.entries) ↔
      ∀ node ∈ (oneNode 2).memory, node.Added :=
  initRaminfoFdt_adds (oneNode_valid 2)

/-- The ninth entry of a memory node is read behind the arrays. -/
theorem nine_entries_outside :
    (∀ node ∈ (oneNode 9).memory, node.Valid) ∧
      initRaminfoFdt (some (oneNode 9)) = .error .outside :=
  ⟨oneNode_valid 9, by rfl⟩

end Bcm2711.Startup
