import Bcm2711.Lib.Bytes
import Bcm2711.Lib.HeapSort

/-! # The EFI memory map in order

The memory map that the firmware leaves at `efi_map` is sorted in place by `efi_sort_map` at
the first call of `efi_walk_map`, and is then gone through by the addresses of its descriptors.
A descriptor is the 40 bytes of an `EFI_MEMORY_DESCRIPTOR`; the firmware may place the
descriptors further apart.
-/

namespace Bcm2711.Startup

open Bytes

/-- The bytes of an `EFI_MEMORY_DESCRIPTOR`. -/
abbrev DescriptorBytes := Fin 40 → UInt8

/-- The descriptor at an address. -/
def descriptorAt (memory : Memory) (address : Nat) : DescriptorBytes :=
  fun place => memory (address + place)

/-- A descriptor is assigned to the one at an address. -/
def putDescriptor (memory : Memory) (address : Nat) (desc : DescriptorBytes) : Memory :=
  fun byte =>
    if inside : address ≤ byte ∧ byte < address + 40 then desc ⟨byte - address, by omega⟩
    else memory byte

/-- The field `PhysicalStart`: the eight bytes behind `Type` and `Pad`. -/
def DescriptorBytes.physicalStart (desc : DescriptorBytes) : Nat :=
  load (fun place => if inside : place < 40 then desc ⟨place, inside⟩ else 0) 8 8

/-- Memory and the variables of the memory map; `sorted` is that of `efi_walk_map`. -/
structure EfiMap where
  memory : Memory
  efiMap : Nat
  efiMapSize : Nat
  efiMapDescSize : Nat
  sorted : Bool

namespace EfiMap

/-- `efi_map_entry`: the address of a descriptor. -/
def entry (efi : EfiMap) (idx : Nat) : Nat :=
  (efi.efiMap + idx * efi.efiMapDescSize % 2 ^ 64) % 2 ^ 64

/-- Two descriptors are exchanged through a third one. -/
def exchange (efi : EfiMap) (first second : Nat) : EfiMap :=
  let desc := descriptorAt efi.memory (efi.entry first)
  let memory := putDescriptor efi.memory (efi.entry first)
    (descriptorAt efi.memory (efi.entry second))
  { efi with memory := putDescriptor memory (efi.entry second) desc }

/-- `PhysicalStart` of a descriptor. -/
def startOf (efi : EfiMap) (idx : Nat) : Nat :=
  (descriptorAt efi.memory (efi.entry idx)).physicalStart

/-- The inner loop of `heapify`. -/
def siftUp (efi : EfiMap) : Nat → EfiMap
  | 0 => efi
  | child + 1 =>
      let parent := HeapSort.parent (child + 1)
      if efi.startOf parent ≥ efi.startOf (child + 1) then efi
      else siftUp (efi.exchange parent (child + 1)) parent
termination_by child => child
decreasing_by exact HeapSort.parent_lt (Nat.succ_pos child)

def heapify (efi : EfiMap) (count : Nat) : EfiMap :=
  (List.range' 1 (count - 1)).foldl siftUp efi

/-- The loop of `efi_sort_map`, from its value of `end` down. -/
def extract (efi : EfiMap) : Nat → EfiMap
  | 0 => efi
  | last + 1 => extract ((efi.exchange (last + 1) 0).heapify (last + 1)) last

/-- `efi_sort_map`. -/
def sortMap (efi : EfiMap) : EfiMap :=
  let ndescs := efi.efiMapSize / efi.efiMapDescSize
  (efi.heapify ndescs).extract (ndescs - 1)

/-- `efi_walk_map`; `NULL` is the address 0. -/
def walkMap (efi : EfiMap) (previous : Nat) : EfiMap × Nat :=
  if previous = 0 then
    let efi := if !efi.sorted then { efi.sortMap with sorted := true } else efi
    (efi, efi.efiMap)
  else
    let next := (previous + efi.efiMapDescSize) % 2 ^ 64
    let last := (efi.efiMap + efi.efiMapSize) % 2 ^ 64
    (efi, if next ≥ last then 0 else next)

/-- The calls of a walk, each with the result of the one before, and first with `NULL`: what
call number `calls` leaves and returns. -/
def walk (efi : EfiMap) : Nat → EfiMap × Nat
  | 0 => efi.walkMap 0
  | calls + 1 =>
      let (efi, previous) := walk efi calls
      efi.walkMap previous

/-! ## The descriptors of the map -/

/-- The map holds `count` descriptors that do not overlap, and lies inside the address space. -/
structure Holds (efi : EfiMap) (count : Nat) : Prop where
  positive : 0 < count
  size : efi.efiMapSize = count * efi.efiMapDescSize
  stride : 40 ≤ efi.efiMapDescSize
  allocated : 0 < efi.efiMap
  fits : efi.efiMap + efi.efiMapSize < 2 ^ 64

/-- The descriptors by their places. -/
def descriptor (efi : EfiMap) (place : Nat) : DescriptorBytes :=
  descriptorAt efi.memory (efi.efiMap + place * efi.efiMapDescSize)

/-- The list of the descriptors. -/
def descriptors (efi : EfiMap) (count : Nat) : List DescriptorBytes :=
  (List.range count).map efi.descriptor

theorem descriptorAt_put_same (memory : Memory) (address : Nat) (desc : DescriptorBytes) :
    descriptorAt (putDescriptor memory address desc) address = desc := by
  funext place
  have inside : address ≤ address + place ∧ address + (place : Nat) < address + 40 := by omega
  simp only [descriptorAt, putDescriptor, inside, and_self, ↓reduceDIte, Nat.add_sub_cancel_left]

theorem descriptorAt_put_other {memory : Memory} {address other : Nat} {desc : DescriptorBytes}
    (apart : address + 40 ≤ other ∨ other + 40 ≤ address) :
    descriptorAt (putDescriptor memory address desc) other = descriptorAt memory other := by
  funext place
  have outside : ¬ (address ≤ other + place ∧ other + (place : Nat) < address + 40) := by omega
  simp only [descriptorAt, putDescriptor, outside, ↓reduceDIte]

/-- Descriptors at different places do not overlap. -/
theorem apart {base stride first second : Nat} (wide : 40 ≤ stride) (ne : first ≠ second) :
    base + first * stride + 40 ≤ base + second * stride ∨
      base + second * stride + 40 ≤ base + first * stride := by
  rcases Nat.lt_or_gt_of_ne ne with below | above
  · have room := Nat.mul_le_mul_right stride (Nat.succ_le_of_lt below)
    rw [Nat.succ_mul] at room
    exact .inl (by omega)
  · have room := Nat.mul_le_mul_right stride (Nat.succ_le_of_lt above)
    rw [Nat.succ_mul] at room
    exact .inr (by omega)

variable {efi : EfiMap} {count : Nat}

theorem Holds.entry_eq (holds : efi.Holds count) {place : Nat} (inside : place < count) :
    efi.entry place = efi.efiMap + place * efi.efiMapDescSize := by
  have room := Nat.mul_le_mul_right efi.efiMapDescSize inside.le
  have fits := holds.fits
  rw [holds.size] at fits
  have low : place * efi.efiMapDescSize < 2 ^ 64 := by omega
  rw [entry, Nat.mod_eq_of_lt low, Nat.mod_eq_of_lt (by omega)]

theorem Holds.startOf_eq (holds : efi.Holds count) {place : Nat} (inside : place < count) :
    efi.startOf place = (efi.descriptor place).physicalStart := by
  rw [startOf, holds.entry_eq inside, descriptor]

/-- The map `other` is `efi` with its descriptors as `array` has them. -/
structure Becomes (efi other : EfiMap) (array : Nat → DescriptorBytes) : Prop where
  descriptor : other.descriptor = array
  efiMap : other.efiMap = efi.efiMap
  efiMapSize : other.efiMapSize = efi.efiMapSize
  efiMapDescSize : other.efiMapDescSize = efi.efiMapDescSize

theorem Becomes.refl : efi.Becomes efi efi.descriptor := ⟨rfl, rfl, rfl, rfl⟩

theorem Becomes.trans {middle last : EfiMap} {array final : Nat → DescriptorBytes}
    (first : efi.Becomes middle array) (second : middle.Becomes last final) :
    efi.Becomes last final where
  descriptor := second.descriptor
  efiMap := second.efiMap.trans first.efiMap
  efiMapSize := second.efiMapSize.trans first.efiMapSize
  efiMapDescSize := second.efiMapDescSize.trans first.efiMapDescSize

theorem Becomes.holds {other : EfiMap} {array : Nat → DescriptorBytes}
    (becomes : efi.Becomes other array) (holds : efi.Holds count) : other.Holds count where
  positive := holds.positive
  size := by
    rw [becomes.efiMapSize, becomes.efiMapDescSize]
    exact holds.size
  stride := by
    rw [becomes.efiMapDescSize]
    exact holds.stride
  allocated := by
    rw [becomes.efiMap]
    exact holds.allocated
  fits := by
    rw [becomes.efiMap, becomes.efiMapSize]
    exact holds.fits

/-! ## The sort is a heap sort of the descriptors -/

theorem Holds.exchange (holds : efi.Holds count) {first second : Nat} (inside : first < count)
    (inside' : second < count) (ne : first ≠ second) :
    efi.Becomes (efi.exchange first second) (HeapSort.exchange efi.descriptor first second) where
  descriptor := by
    funext place
    have wide := holds.stride
    simp only [EfiMap.exchange, holds.entry_eq inside, holds.entry_eq inside', descriptor]
    by_cases here : place = second
    · subst here
      rw [descriptorAt_put_same, HeapSort.exchange_right, descriptor]
    rw [descriptorAt_put_other (apart wide (Ne.symm here))]
    by_cases there : place = first
    · subst there
      rw [descriptorAt_put_same, HeapSort.exchange_left, descriptor]
    · rw [descriptorAt_put_other (apart wide (Ne.symm there)),
        HeapSort.exchange_other there here, descriptor]
  efiMap := rfl
  efiMapSize := rfl
  efiMapDescSize := rfl

theorem Holds.siftUp (holds : efi.Holds count) {child : Nat} (inside : child < count) :
    efi.Becomes (efi.siftUp child)
      (HeapSort.siftUp DescriptorBytes.physicalStart efi.descriptor child) := by
  induction child using Nat.strong_induction_on generalizing efi with
  | _ child ih =>
      cases child with
      | zero =>
          rw [EfiMap.siftUp, HeapSort.siftUp]
          exact Becomes.refl
      | succ child =>
          have above : HeapSort.parent (child + 1) < child + 1 :=
            HeapSort.parent_lt (Nat.succ_pos child)
          rw [EfiMap.siftUp, HeapSort.siftUp]
          rw [holds.startOf_eq inside, holds.startOf_eq (above.trans inside)]
          by_cases stopped : (efi.descriptor (child + 1)).physicalStart ≤
              (efi.descriptor (HeapSort.parent (child + 1))).physicalStart
          · rw [if_pos stopped, if_pos stopped]
            exact Becomes.refl
          · rw [if_neg stopped, if_neg stopped]
            have exchanged := holds.exchange (above.trans inside) inside above.ne
            have moved := ih _ above (exchanged.holds holds) (above.trans inside)
            rw [exchanged.descriptor] at moved
            exact exchanged.trans moved

theorem heapify_succ {count : Nat} (positive : 0 < count) :
    efi.heapify (count + 1) = (efi.heapify count).siftUp count := by
  unfold heapify
  rw [HeapSort.children_succ positive, List.foldl_append, List.foldl_cons, List.foldl_nil]

theorem Holds.heapify (holds : efi.Holds count) {prefixCount : Nat} (within : prefixCount ≤ count) :
    efi.Becomes (efi.heapify prefixCount)
      (HeapSort.heapify DescriptorBytes.physicalStart prefixCount efi.descriptor) := by
  induction prefixCount with
  | zero => exact Becomes.refl
  | succ prefixCount ih =>
      by_cases first : prefixCount = 0
      · subst first
        exact Becomes.refl
      · have positive := Nat.pos_of_ne_zero first
        have before := ih (by omega)
        rw [EfiMap.heapify_succ positive, HeapSort.heapify_succ positive, ← before.descriptor]
        exact before.trans ((before.holds holds).siftUp within)

theorem Holds.extract (holds : efi.Holds count) {last : Nat} (inside : last < count) :
    efi.Becomes (efi.extract last)
      (HeapSort.extract DescriptorBytes.physicalStart last efi.descriptor) := by
  induction last generalizing efi with
  | zero => exact Becomes.refl
  | succ last ih =>
      have exchanged := holds.exchange inside holds.positive (Nat.succ_ne_zero last)
      have heaped := (exchanged.holds holds).heapify inside.le
      have step := exchanged.trans heaped
      have rest := ih (step.holds holds) (by omega)
      rw [step.descriptor, exchanged.descriptor] at rest
      exact step.trans rest

/-- **`efi_sort_map` is the heap sort** of the descriptors by `PhysicalStart`. -/
theorem Holds.sortMap (holds : efi.Holds count) :
    efi.Becomes efi.sortMap
      (HeapSort.heapSort DescriptorBytes.physicalStart count efi.descriptor) := by
  have ndescs : efi.efiMapSize / efi.efiMapDescSize = count := by
    have wide := holds.stride
    rw [holds.size]
    exact Nat.mul_div_cancel count (by omega)
  have heaped := holds.heapify (le_refl count)
  have positive := holds.positive
  have rest := (heaped.holds holds).extract (by omega : count - 1 < count)
  rw [heaped.descriptor] at rest
  unfold EfiMap.sortMap HeapSort.heapSort
  simp only [ndescs]
  exact heaped.trans rest

theorem Holds.perm (holds : efi.Holds count) :
    (efi.sortMap.descriptors count).Perm (efi.descriptors count) := by
  unfold descriptors
  rw [holds.sortMap.descriptor]
  exact (HeapSort.heapSort_rearranged holds.positive).perm

theorem Holds.pairwise (holds : efi.Holds count) :
    (efi.sortMap.descriptors count).Pairwise fun lower upper =>
      lower.physicalStart ≤ upper.physicalStart := by
  unfold descriptors
  rw [holds.sortMap.descriptor, List.pairwise_map]
  refine List.Pairwise.imp_of_mem ?_ List.pairwise_lt_range
  intro lower upper _ inside ordered
  exact HeapSort.heapSort_sorted holds.positive ordered.le (List.mem_range.mp inside)

/-! ## The walk -/

/-- The map behind the first call of `efi_walk_map`. -/
def afterSort (efi : EfiMap) : EfiMap :=
  if !efi.sorted then { efi.sortMap with sorted := true } else efi

theorem Holds.afterSort (holds : efi.Holds count) : efi.afterSort.Holds count := by
  unfold EfiMap.afterSort
  split
  · have sorted := holds.sortMap.holds holds
    exact ⟨sorted.positive, sorted.size, sorted.stride, sorted.allocated, sorted.fits⟩
  · exact holds

theorem walkMap_first : efi.walkMap 0 = (efi.afterSort, efi.afterSort.efiMap) := rfl

/-- From a descriptor the walk goes to the next one, and behind the last one it ends. -/
theorem Holds.walkMap_next (holds : efi.Holds count) {place : Nat} (inside : place < count) :
    efi.walkMap (efi.efiMap + place * efi.efiMapDescSize) =
      (efi, if place + 1 < count then efi.efiMap + (place + 1) * efi.efiMapDescSize else 0) := by
  have room := Nat.mul_le_mul_right efi.efiMapDescSize (Nat.succ_le_of_lt inside)
  have fits := holds.fits
  have start := holds.allocated
  have wide := holds.stride
  rw [holds.size] at fits
  rw [Nat.succ_mul] at room
  have notFirst : efi.efiMap + place * efi.efiMapDescSize ≠ 0 := by omega
  have step : (efi.efiMap + place * efi.efiMapDescSize + efi.efiMapDescSize) % 2 ^ 64 =
      efi.efiMap + (place + 1) * efi.efiMapDescSize := by
    rw [Nat.succ_mul, ← Nat.add_assoc]
    exact Nat.mod_eq_of_lt (by omega)
  have bound : (efi.efiMap + efi.efiMapSize) % 2 ^ 64 =
      efi.efiMap + count * efi.efiMapDescSize := by
    rw [holds.size]
    exact Nat.mod_eq_of_lt fits
  unfold walkMap
  rw [if_neg notFirst]
  dsimp only
  rw [step, bound]
  by_cases more : place + 1 < count
  · have below := Nat.mul_le_mul_right efi.efiMapDescSize (Nat.succ_le_of_lt more)
    rw [Nat.succ_mul (place + 1)] at below
    rw [if_pos more, if_neg (by omega)]
  · have last : place + 1 = count := by omega
    rw [if_neg more, last, if_pos (le_refl _)]

theorem Holds.walk (holds : efi.Holds count) {place : Nat} (inside : place < count) :
    efi.walk place =
      (efi.afterSort, efi.afterSort.efiMap + place * efi.afterSort.efiMapDescSize) := by
  induction place with
  | zero => rw [EfiMap.walk, walkMap_first, Nat.zero_mul, Nat.add_zero]
  | succ place ih =>
      rw [EfiMap.walk, ih (by omega)]
      dsimp only
      rw [holds.afterSort.walkMap_next (by omega), if_pos inside]

theorem Holds.walk_end (holds : efi.Holds count) : efi.walk count = (efi.afterSort, 0) := by
  obtain ⟨last, rfl⟩ : ∃ last, count = last + 1 := ⟨count - 1, by have := holds.positive; omega⟩
  rw [EfiMap.walk, holds.walk (Nat.lt_succ_self last)]
  dsimp only
  rw [holds.afterSort.walkMap_next (Nat.lt_succ_self last), if_neg (lt_irrefl _)]

/-- **The memory map is sorted and fully walked.** The first call leaves the descriptors permuted
into the order of `PhysicalStart`; the calls return the addresses of the descriptors one after
the other, and then `NULL`. -/
theorem walk_sorted (efi : EfiMap) (count : Nat) (holds : efi.Holds count)
    (unsorted : efi.sorted = false) :
    ∃ sorted : EfiMap,
      (sorted.descriptors count).Perm (efi.descriptors count) ∧
      ((sorted.descriptors count).Pairwise fun lower upper =>
        lower.physicalStart ≤ upper.physicalStart) ∧
      (∀ place < count, efi.walk place = (sorted, efi.efiMap + place * efi.efiMapDescSize)) ∧
      ((List.range count).map fun place => descriptorAt sorted.memory (efi.walk place).2) =
        sorted.descriptors count ∧
      efi.walk count = (sorted, 0) := by
  have after : efi.afterSort = { efi.sortMap with sorted := true } := by
    simp only [afterSort, unsorted, Bool.not_false, ↓reduceIte]
  have base : efi.afterSort.efiMap = efi.efiMap := by
    rw [after]
    exact holds.sortMap.efiMap
  have stride : efi.afterSort.efiMapDescSize = efi.efiMapDescSize := by
    rw [after]
    exact holds.sortMap.efiMapDescSize
  have visited : ∀ place < count,
      efi.walk place = (efi.afterSort, efi.efiMap + place * efi.efiMapDescSize) := by
    intro place inside
    rw [holds.walk inside, base, stride]
  refine ⟨efi.afterSort, ?_, ?_, visited, ?_, holds.walk_end⟩
  · rw [after]
    exact holds.perm
  · rw [after]
    exact holds.pairwise
  · refine List.map_congr_left ?_
    intro place inside
    rw [visited place (List.mem_range.mp inside), descriptor, base, stride]

/-- Two descriptors that are 48 bytes apart. -/
theorem walk_sorted_two :
    ∃ efi : EfiMap, efi.Holds 2 ∧ ∃ sorted : EfiMap,
      (sorted.descriptors 2).Perm (efi.descriptors 2) ∧
      ((sorted.descriptors 2).Pairwise fun lower upper =>
        lower.physicalStart ≤ upper.physicalStart) ∧
      (∀ place < 2, efi.walk place = (sorted, efi.efiMap + place * efi.efiMapDescSize)) ∧
      ((List.range 2).map fun place => descriptorAt sorted.memory (efi.walk place).2) =
        sorted.descriptors 2 ∧
      efi.walk 2 = (sorted, 0) := by
  have holds : EfiMap.Holds ⟨fun byte => if byte = 4105 then 1 else 0, 4096, 96, 48, false⟩ 2 :=
    ⟨by decide, rfl, by decide, by decide, by decide⟩
  exact ⟨_, holds, walk_sorted _ 2 holds rfl⟩

end EfiMap

end Bcm2711.Startup
