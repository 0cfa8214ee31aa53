import Mathlib

/-! # Heap sort in place

A heap sort that builds every heap by sifting up (`heapify`), and that rebuilds the heap of
the shorter prefix from the start after each extraction (`heapSort`).  The array is a function
from places to elements, of which the first `count` places are sorted; the elements are
compared by a key.  The key of a parent is at least those of its children (`IsHeap`), so that
the first place holds the greatest element (`IsHeap.le_root`), and the extracted elements
stand sorted behind the heap (`Extracted`).
-/

namespace HeapSort

variable {α κ : Type*} [LinearOrder κ] {key : α → κ} {array other final : Nat → α} {count : Nat}

/-- The place above a place of the heap. -/
def parent (child : Nat) : Nat := (child - 1) / 2

theorem parent_lt {child : Nat} (positive : 0 < child) : parent child < child := by
  unfold parent
  omega

/-- Two places exchange their elements. -/
def exchange (array : Nat → α) (first second : Nat) : Nat → α :=
  array ∘ Equiv.swap first second

/-- The element of a place moves up until its parent is not smaller. -/
def siftUp (key : α → κ) (array : Nat → α) : Nat → Nat → α
  | 0 => array
  | child + 1 =>
      if key (array (child + 1)) ≤ key (array (parent (child + 1))) then array
      else siftUp key (exchange array (parent (child + 1)) (child + 1)) (parent (child + 1))
termination_by child => child
decreasing_by exact parent_lt (Nat.succ_pos child)

/-- The elements of the places up to `count` are sifted up one after the other. -/
def heapify (key : α → κ) (count : Nat) (array : Nat → α) : Nat → α :=
  (List.range' 1 (count - 1)).foldl (siftUp key) array

/-- The root goes behind the heap until only the first place is left. -/
def extract (key : α → κ) : Nat → (Nat → α) → Nat → α
  | 0, array => array
  | last + 1, array => extract key last (heapify key (last + 1) (exchange array (last + 1) 0))

def heapSort (key : α → κ) (count : Nat) (array : Nat → α) : Nat → α :=
  extract key (count - 1) (heapify key count array)

/-! ## Elements only change their places -/

/-- The elements of the first `count` places in another order, and the others as before. -/
def Rearranged (count : Nat) (array other : Nat → α) : Prop :=
  ∃ order : Equiv.Perm Nat, other = array ∘ order ∧ ∀ place, count ≤ place → order place = place

theorem Rearranged.refl : Rearranged count array array :=
  ⟨1, rfl, fun _ _ => rfl⟩

theorem Rearranged.trans (first : Rearranged count array other)
    (second : Rearranged count other final) : Rearranged count array final := by
  obtain ⟨order, rfl, kept⟩ := first
  obtain ⟨order', rfl, kept'⟩ := second
  refine ⟨order'.trans order, rfl, ?_⟩
  intro place behind
  rw [Equiv.trans_apply, kept' place behind, kept place behind]

theorem Rearranged.mono {more : Nat} (within : count ≤ more)
    (rearranged : Rearranged count array other) : Rearranged more array other := by
  obtain ⟨order, same, kept⟩ := rearranged
  exact ⟨order, same, fun place behind => kept place (within.trans behind)⟩

theorem rearranged_exchange (array : Nat → α) {first second : Nat} (inside : first < count)
    (inside' : second < count) : Rearranged count array (exchange array first second) := by
  refine ⟨Equiv.swap first second, rfl, ?_⟩
  intro place behind
  exact Equiv.swap_apply_of_ne_of_ne (by omega) (by omega)

/-- Behind the first places nothing changes. -/
theorem Rearranged.behind (rearranged : Rearranged count array other) {place : Nat}
    (behind : count ≤ place) : other place = array place := by
  obtain ⟨order, rfl, kept⟩ := rearranged
  rw [Function.comp_apply, kept place behind]

/-- Each element of the first places was in one of the first places. -/
theorem Rearranged.origin (rearranged : Rearranged count array other) {place : Nat}
    (inside : place < count) : ∃ from' < count, other place = array from' := by
  obtain ⟨order, rfl, kept⟩ := rearranged
  refine ⟨order place, ?_, rfl⟩
  by_contra outside
  have moved := kept (order place) (by omega)
  have still : order place = place := order.injective moved
  omega

/-- The list of the elements is permuted. -/
theorem Rearranged.perm (rearranged : Rearranged count array other) :
    ((List.range count).map other).Perm ((List.range count).map array) := by
  obtain ⟨order, rfl, kept⟩ := rearranged
  have places : ((List.range count).map order).Perm (List.range count) := by
    have distinct : ((List.range count).map order).Nodup :=
      List.nodup_range.map order.injective
    have within : ∀ place, order place < count ↔ place < count := by
      intro place
      constructor
      · intro inside
        by_contra outside
        have same := kept place (by omega)
        omega
      · intro inside
        by_contra outside
        have still : order place = place := order.injective (kept (order place) (by omega))
        omega
    refine (List.perm_ext_iff_of_nodup distinct List.nodup_range).mpr ?_
    intro place
    simp only [List.mem_map, List.mem_range]
    constructor
    · rintro ⟨origin, inside, rfl⟩
      exact (within origin).mpr inside
    · intro inside
      refine ⟨order.symm place, ?_, order.apply_symm_apply place⟩
      rw [← within, order.apply_symm_apply]
      exact inside
  rw [← List.map_map]
  exact places.map array

theorem siftUp_rearranged {child : Nat} (inside : child < count) :
    Rearranged count array (siftUp key array child) := by
  induction child using Nat.strong_induction_on generalizing array with
  | _ child ih =>
      cases child with
      | zero =>
          rw [siftUp]
          exact Rearranged.refl
      | succ child =>
          have above : parent (child + 1) < child + 1 := parent_lt (Nat.succ_pos child)
          rw [siftUp]
          split
          · exact Rearranged.refl
          · have exchanged :=
              rearranged_exchange array (by omega : parent (child + 1) < count) inside
            exact exchanged.trans (ih (parent (child + 1)) above (by omega))

/-- The places below the root, with one more. -/
theorem children_succ {count : Nat} (positive : 0 < count) :
    List.range' 1 (count + 1 - 1) = List.range' 1 (count - 1) ++ [count] := by
  obtain ⟨rest, rfl⟩ : ∃ rest, count = rest + 1 := ⟨count - 1, by omega⟩
  rw [Nat.add_sub_cancel, Nat.add_sub_cancel, List.range'_concat]
  simp [Nat.add_comm]

theorem heapify_succ {count : Nat} (positive : 0 < count) :
    heapify key (count + 1) array = siftUp key (heapify key count array) count := by
  unfold heapify
  rw [children_succ positive, List.foldl_append, List.foldl_cons, List.foldl_nil]

theorem heapify_rearranged (key : α → κ) (count : Nat) (array : Nat → α) :
    Rearranged count array (heapify key count array) := by
  induction count with
  | zero => exact Rearranged.refl
  | succ count ih =>
      by_cases first : count = 0
      · subst first
        exact Rearranged.refl
      · rw [heapify_succ (Nat.pos_of_ne_zero first)]
        exact (ih.mono (Nat.le_succ count)).trans (siftUp_rearranged (Nat.lt_succ_self count))

/-! ## The heap -/

/-- No element of the first places is greater than the one above it. -/
def IsHeap (key : α → κ) (array : Nat → α) (count : Nat) : Prop :=
  ∀ child, 0 < child → child < count → key (array child) ≤ key (array (parent child))

/-- A heap but for the element at one place, which may be greater than its parent; its
children are not greater than its parent. -/
structure Sifting (key : α → κ) (array : Nat → α) (count hole : Nat) : Prop where
  others : ∀ child, 0 < child → child < count → child ≠ hole →
    key (array child) ≤ key (array (parent child))
  across : ∀ child, 0 < child → child < count → parent child = hole → 0 < hole →
    key (array child) ≤ key (array (parent hole))

theorem exchange_left (first second : Nat) : exchange array first second first = array second := by
  rw [exchange, Function.comp_apply, Equiv.swap_apply_left]

theorem exchange_right (first second : Nat) :
    exchange array first second second = array first := by
  rw [exchange, Function.comp_apply, Equiv.swap_apply_right]

theorem exchange_other {first second place : Nat} (ne : place ≠ first) (ne' : place ≠ second) :
    exchange array first second place = array place := by
  rw [exchange, Function.comp_apply, Equiv.swap_apply_of_ne_of_ne ne ne']

theorem Sifting.isHeap {hole : Nat} (sifting : Sifting key array count hole)
    (stopped : 0 < hole → key (array hole) ≤ key (array (parent hole))) :
    IsHeap key array count := by
  intro child positive inside
  by_cases here : child = hole
  · subst here
    exact stopped positive
  · exact sifting.others child positive inside here

/-- A greater element exchanges its place with its parent. -/
theorem Sifting.up {hole : Nat} (sifting : Sifting key array count hole) (positive : 0 < hole)
    (greater : key (array (parent hole)) < key (array hole)) :
    Sifting key (exchange array (parent hole) hole) count (parent hole) where
  others := by
    have above := parent_lt positive
    intro child childPositive inside notParent
    by_cases here : child = hole
    · subst here
      rw [exchange_right, exchange_left]
      exact greater.le
    rw [exchange_other notParent here]
    by_cases below : parent child = hole
    · rw [below, exchange_right]
      exact sifting.across child childPositive inside below positive
    have smaller := sifting.others child childPositive inside here
    by_cases beside : parent child = parent hole
    · rw [beside, exchange_left]
      rw [beside] at smaller
      exact smaller.trans greater.le
    · rw [exchange_other beside below]
      exact smaller
  across := by
    have above := parent_lt positive
    intro child childPositive inside beside parentPositive
    have higher := parent_lt parentPositive
    have upper : key (array (parent hole)) ≤ key (array (parent (parent hole))) ∨
        count ≤ parent hole := by
      by_cases within : parent hole < count
      · exact .inl (sifting.others _ parentPositive within (by omega))
      · exact .inr (by omega)
    have below := parent_lt childPositive
    have upper := upper.resolve_right (by omega)
    rw [exchange_other (by omega : parent (parent hole) ≠ parent hole) (by omega)]
    by_cases here : child = hole
    · subst here
      rw [exchange_right]
      exact upper
    · rw [exchange_other (by omega) here]
      have smaller := sifting.others child childPositive inside here
      rw [beside] at smaller
      exact smaller.trans upper

theorem Sifting.siftUp {hole : Nat} (sifting : Sifting key array count hole) :
    IsHeap key (siftUp key array hole) count := by
  induction hole using Nat.strong_induction_on generalizing array with
  | _ hole ih =>
      cases hole with
      | zero =>
          rw [HeapSort.siftUp]
          exact sifting.isHeap (fun positive => absurd positive (lt_irrefl 0))
      | succ hole =>
          have positive := Nat.succ_pos hole
          rw [HeapSort.siftUp]
          split
          case isTrue stopped => exact sifting.isHeap (fun _ => stopped)
          case isFalse greater =>
            exact ih _ (parent_lt positive) (sifting.up positive (not_le.mp greater))

theorem heapify_isHeap : IsHeap key (heapify key count array) count := by
  induction count with
  | zero =>
      intro child positive inside
      omega
  | succ count ih =>
      by_cases first : count = 0
      · subst first
        intro child positive inside
        omega
      · rw [heapify_succ (Nat.pos_of_ne_zero first)]
        refine Sifting.siftUp ⟨?_, ?_⟩
        · intro child positive inside notLast
          exact ih child positive (by omega)
        · intro child positive inside below
          have above := parent_lt positive
          omega

/-- The first place holds a greatest element. -/
theorem IsHeap.le_root (heap : IsHeap key array count) {place : Nat} (inside : place < count) :
    key (array place) ≤ key (array 0) := by
  induction place using Nat.strong_induction_on with
  | _ place ih =>
      rcases Nat.eq_zero_or_pos place with rfl | positive
      · exact le_refl _
      · have above := parent_lt positive
        exact (heap place positive inside).trans (ih _ above (above.trans inside))

/-! ## The sorted elements behind the heap -/

/-- The first places up to `last` are a heap, and behind them stand the elements that are not
smaller than those of the heap, in order. -/
structure Extracted (key : α → κ) (array : Nat → α) (count last : Nat) : Prop where
  heap : IsHeap key array (last + 1)
  above : ∀ place behind, place ≤ last → last < behind → behind < count →
    key (array place) ≤ key (array behind)
  sorted : ∀ place behind, last < place → place ≤ behind → behind < count →
    key (array place) ≤ key (array behind)

theorem Extracted.step {last : Nat}
    (extracted : Extracted key array count (last + 1)) :
    Extracted key (heapify key (last + 1) (exchange array (last + 1) 0)) count last := by
  have same := heapify_rearranged key (last + 1) (exchange array (last + 1) 0)
  have root : heapify key (last + 1) (exchange array (last + 1) 0) (last + 1) = array 0 := by
    rw [same.behind (le_refl _), exchange_left]
  have rest : ∀ place, last + 1 < place →
      heapify key (last + 1) (exchange array (last + 1) 0) place = array place := by
    intro place behind
    rw [same.behind behind.le, exchange_other (by omega) (by omega)]
  have front : ∀ place, place ≤ last → ∃ origin ≤ last + 1,
      heapify key (last + 1) (exchange array (last + 1) 0) place = array origin := by
    intro place within
    obtain ⟨origin, below, found⟩ := same.origin (by omega : place < last + 1)
    rcases Nat.eq_zero_or_pos origin with rfl | positive
    · exact ⟨last + 1, le_refl _, by rw [found, exchange_right]⟩
    · refine ⟨origin, by omega, ?_⟩
      rw [found, exchange_other (by omega) (by omega)]
  have bounded : ∀ place, place ≤ last →
      key (heapify key (last + 1) (exchange array (last + 1) 0) place) ≤ key (array 0) := by
    intro place within
    obtain ⟨origin, below, found⟩ := front place within
    rw [found]
    exact extracted.heap.le_root (by omega)
  refine ⟨heapify_isHeap, ?_, ?_⟩
  · intro place behind within beyond below
    by_cases here : behind = last + 1
    · rw [here, root]
      exact bounded place within
    · obtain ⟨origin, originWithin, found⟩ := front place within
      rw [found, rest behind (by omega)]
      exact extracted.above origin behind originWithin (by omega) below
  · intro place behind beyond ordered below
    by_cases here : place = last + 1
    · by_cases also : behind = last + 1
      · rw [here, also]
      · rw [here, root, rest behind (by omega)]
        exact extracted.above 0 behind (by omega) (by omega) below
    · rw [rest place (by omega), rest behind (by omega)]
      exact extracted.sorted place behind (by omega) ordered below

theorem extract_rearranged {last : Nat} (inside : last < count) :
    Rearranged count array (extract key last array) := by
  induction last generalizing array with
  | zero => exact Rearranged.refl
  | succ last ih =>
      have exchanged := rearranged_exchange array inside (by omega : 0 < count)
      have heaped :=
        (heapify_rearranged key (last + 1) (exchange array (last + 1) 0)).mono inside.le
      exact (exchanged.trans heaped).trans (ih (by omega))

theorem Extracted.extract {last : Nat}
    (extracted : Extracted key array count last) :
    Extracted key (extract key last array) count 0 := by
  induction last generalizing array with
  | zero => exact extracted
  | succ last ih => exact ih extracted.step

/-- **The sort rearranges the elements.** -/
theorem heapSort_rearranged (positive : 0 < count) :
    Rearranged count array (heapSort key count array) :=
  (heapify_rearranged key count array).trans (extract_rearranged (by omega))

/-- **The sort puts the keys in order.** -/
theorem heapSort_sorted (positive : 0 < count) {place behind : Nat} (ordered : place ≤ behind)
    (below : behind < count) :
    key (heapSort key count array place) ≤ key (heapSort key count array behind) := by
  have started : Extracted key (heapify key count array) count (count - 1) := by
    refine ⟨?_, ?_, ?_⟩
    · rw [Nat.sub_add_cancel positive]
      exact heapify_isHeap
    · intro place behind within beyond
      omega
    · intro place behind beyond ordered inside
      omega
  have finished := started.extract
  rcases Nat.eq_zero_or_pos place with rfl | notFirst
  · rcases Nat.eq_zero_or_pos behind with rfl | later
    · exact le_refl _
    · exact finished.above 0 behind (le_refl 0) later below
  · exact finished.sorted place behind notFirst ordered below

end HeapSort
