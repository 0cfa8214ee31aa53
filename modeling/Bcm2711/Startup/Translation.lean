import Bcm2711.Startup.MapLoops

/-! # What has been mapped is translated

A call of `aarch64_map` changes the translation of its own pages only.  These are translated to
the addresses of the request, and the address that is returned is that of the first byte, unless
the caller has given an address with an offset: the offset is then added twice.
-/

namespace Bcm2711.Startup.PageTables

open Word

/-! ## One call -/

/-- Truncation to pages of any number, as a word. -/
theorem trunc_page (word : Nat) : trunc 64 word PAGESIZE = word / 2 ^ 12 % 2 ^ 52 * 2 ^ 12 :=
  and_field word 52 12

namespace Request

variable (mmu : Mmu) (system : System) (q : Request) (st : State)

/-- What the request maps. -/
def targetOf : Target where
  start := q.start st
  frame := q.frame
  last := q.last st
  bits := pteBits mmu system q.flags

/-- The pages of the request are not translated by a slot in which the tables map themselves. -/
def Avoids : Prop := ∀ v, q.start st ≤ v → v < q.last st → Open mmu v

theorem span_dvd : 2 ^ 12 ∣ q.span := by
  rw [span, Word.round, trunc_page]
  exact Nat.dvd_mul_left _ _

theorem span_lt : q.span < 2 ^ 64 := by
  rw [span, Word.round, trunc_page]
  omega

theorem start_dvd : 2 ^ 12 ∣ q.start st := by
  rw [start, trunc_page]
  exact Nat.dvd_mul_left _ _

theorem start_lt : q.start st < 2 ^ 64 := by
  rw [start, trunc_page]
  omega

theorem last_lt : q.last st < 2 ^ 64 := add_lt 64 _ _

theorem pages : (q.targetOf mmu system st).Pages where
  start := q.start_dvd st
  frame := Nat.dvd_mul_left _ _
  last := by
    have start := q.start_dvd st
    have span := q.span_dvd
    change 2 ^ 12 ∣ (q.start st + q.span) % 2 ^ 64
    omega
  bits := pteBits_attribute mmu system q.flags

/-- Where `end` is not below `va`, it is behind it by the size. -/
theorem last_eq (order : q.start st ≤ q.last st) : q.last st = q.start st + q.span := by
  have start := q.start_lt st
  have span := q.span_lt
  have wrapped : q.last st = (q.start st + q.span) % 2 ^ 64 := rfl
  omega

end Request

variable {mmu : Mmu} {frames : Frames} {system : System} {q : Request} {st st' : State}
  {vaddr : Nat}

/-- What a call that returns has checked and done. -/
theorem aarch64Map_cases (mapped : aarch64Map mmu frames system q st = some (vaddr, st')) :
    (q.vaddr = none ∨ q.target st % PAGESIZE = q.off) ∧
      q.start st ≤ q.last st ∧
      ((isKernel mmu (q.start st) = false ∧ q.start st < mmu.userEnd ∧ q.last st < mmu.userEnd) ∨
        (isKernel mmu (q.start st) = true ∧ mmu.userEnd ≤ q.start st ∧
          mmu.startupBase ≤ q.start st)) ∧
      vaddr = add 64 (q.target st) q.off ∧
      ∃ free, (free = st.freeVaddr ∨ free = add 64 st.freeVaddr q.span) ∧
        st' = (mapL1 mmu frames system (st.root (isKernel mmu (q.start st))) (q.last st) NPTE_PTBL
          (mmu.l1Idx (q.start st)) ⟨{ st with freeVaddr := free }, q.start st,
            setPte mmu system q.frame q.flags⟩).st ∧
        st'.taken ≤ frames.count := by
  have root : (if q.start st < mmu.userEnd then st.l1Ttbr0 else st.l1Ttbr1) =
      st.root (isKernel mmu (q.start st)) := by
    by_cases low : q.start st < mmu.userEnd <;> simp [isKernel, State.root, low]
  obtain ⟨free, isFree, chosen⟩ : ∃ free,
      (free = st.freeVaddr ∨ free = add 64 st.freeVaddr q.span) ∧
      (if q.vaddr = none then { st with freeVaddr := add 64 st.freeVaddr q.span } else st) =
        { st with freeVaddr := free } := by
    split
    · exact ⟨_, Or.inr rfl, rfl⟩
    · exact ⟨_, Or.inl rfl, rfl⟩
  unfold aarch64Map at mapped
  dsimp only at mapped
  rw [root, chosen] at mapped
  split at mapped
  case isTrue => cases mapped
  case isFalse offset =>
    split at mapped
    case isTrue => cases mapped
    case isFalse order =>
      split at mapped
      case isTrue => cases mapped
      case isFalse user =>
        split at mapped
        case isTrue => cases mapped
        case isFalse system' =>
          split at mapped
          case isTrue => cases mapped
          case isFalse left =>
            obtain ⟨rfl, rfl⟩ := Prod.mk.inj (Option.some.inj mapped)
            refine ⟨?_, Nat.le_of_not_lt order, ?_, rfl, ?_⟩
            · by_cases given : q.vaddr = none
              · exact Or.inl given
              · exact Or.inr (by_contra fun different => offset ⟨given, different⟩)
            · by_cases low : q.start st < mmu.userEnd
              · exact Or.inl ⟨by simp [isKernel, low], low, by omega⟩
              · exact Or.inr ⟨by simp [isKernel, low], by omega, by omega⟩
            · exact ⟨free, isFree, rfl, Nat.le_of_not_lt left⟩

/-- A call maps its pages and keeps the others. -/
structure Maps (mmu : Mmu) (frames : Frames) (m : Target) (st st' : State) : Prop where
  sound : Sound mmu frames st'
  kept : ∀ {v}, Addressable mmu v → Open mmu v → ¬(m.start ≤ v ∧ v < m.last) →
    st'.entryAt mmu v = st.entryAt mmu v
  written : m.Fits → ∀ {v}, m.start ≤ v → v < m.last →
    st'.entryAt mmu v = m.descriptor (v / 2 ^ 12 * 2 ^ 12)

theorem within_of_mapped (mapped : aarch64Map mmu frames system q st = some (vaddr, st'))
    (avoids : q.Avoids mmu st) :
    (q.targetOf mmu system st).Within mmu (isKernel mmu (q.start st)) := by
  obtain ⟨-, -, region, -⟩ := aarch64Map_cases mapped
  have fits := q.last_lt st
  have order := mmu.userEnd_le
  intro v low high
  change q.start st ≤ v at low
  change v < q.last st at high
  refine ⟨?_, ?_, avoids v low high⟩
  · rcases region with ⟨-, start, last⟩ | ⟨-, start, base⟩
    · exact Or.inl (high.trans last)
    · exact Or.inr ⟨base.trans low, high.trans fits⟩
  · rcases region with ⟨tree, start, last⟩ | ⟨tree, start, base⟩
    · rw [tree]
      simp [isKernel, high.trans last]
    · rw [tree]
      simp [isKernel, start.trans low]

theorem maps_of_mapped (sound : Sound mmu frames st)
    (mapped : aarch64Map mmu frames system q st = some (vaddr, st'))
    (avoids : q.Avoids mmu st) : Maps mmu frames (q.targetOf mmu system st) st st' := by
  have within := within_of_mapped mapped avoids
  obtain ⟨-, order, region, -, free, isFree, rfl, left⟩ := aarch64Map_cases mapped
  have span := q.span_dvd
  have freeAligned := sound.free_aligned
  have sound' : Sound mmu frames { st with freeVaddr := free } := by
    refine ⟨sound.forest, sound.upper, ?_⟩
    change 2 ^ 12 ∣ free
    rcases isFree with rfl | rfl
    · exact freeAligned
    · rw [add]
      omega
  have isAt : (q.targetOf mmu system st).At (q.start st) (setPte mmu system q.frame q.flags) := by
    refine ⟨Nat.le_refl _, order, q.start_dvd st, ?_, ?_⟩
    · intro fits
      have small : q.frame < 2 ^ 53 := by
        have bound : q.frame + (q.last st - q.start st) ≤ 2 ^ 48 := fits
        omega
      have page : 2 ^ 12 ∣ q.frame := Nat.dvd_mul_left _ _
      rw [setPte_eq_add mmu system q.flags page small]
      change _ = q.frame + (q.start st - q.start st) + pteBits mmu system q.flags
      rw [Nat.sub_self, Nat.add_zero]
    · intro _
      by_cases first : q.start st % 2 ^ 16 = 0
      · exact Or.inl first
      · right
        rintro ⟨inside, -⟩
        change q.start st ≤ q.start st / 2 ^ 16 * 2 ^ 16 at inside
        omega
  have l1Idx := mmu.l1Idx_eq (q.start st)
  have low := mmu.userEnd_le
  have high := mmu.le_startupBase
  have fits := q.last_lt st
  obtain ⟨advanced, ends⟩ := mapL1_advanced system (q.pages mmu system st) within
    (q.start st / 2 ^ 30 - q.start st / 2 ^ 30 % 512) (by omega) NPTE_PTBL
    (mmu.l1Idx (q.start st))
    ⟨{ st with freeVaddr := free }, q.start st, setPte mmu system q.frame q.flags⟩ sound' isAt
    (Nat.sub_le _ _) (by rw [NPTE_PTBL]; omega) (by dsimp only; omega) left
  have upTo := advanced.isAt.le_last
  rcases ends with done | next
  · refine ⟨advanced.sound, ?_, ?_⟩
    · intro v addressable isOpen outside
      refine advanced.kept addressable isOpen ?_
      rw [done]
      exact outside
    · intro fits v first last
      refine advanced.written fits first ?_
      rw [done]
      exact last
  · -- The last entry of a tree is behind every address of it.
    change _ ≤ q.last st at upTo
    exfalso
    rcases region with ⟨-, user, last⟩ | ⟨-, kernel, base⟩
    · omega
    · omega

/-! ## The tables at the start -/

section Init

variable (mmu : Mmu) (frames : Frames) (system : System)

/-- The descriptor of the n-th page. -/
def tableAt (n : Nat) : Nat := setPte mmu system (frames.page n) protRw

theorem ptpPaddr_tableAt {n : Nat} (left : n < frames.count) :
    ptpPaddr (tableAt mmu frames system n) = frames.page n :=
  ptpPaddr_setPte mmu system protRw (frames.aligned n left) (frames.small n left)

theorem aarch64MapInit_eq (left : 3 ≤ frames.count) : aarch64MapInit mmu frames system =
    { memory := Radix.write (Radix.write (Function.update (Radix.write
          (Function.update (fun _ _ => 0) (frames.page 1) fun _ => 0)
          (frames.page 1) mmu.l1L1Idx (tableAt mmu frames system 1))
          (frames.page 2) fun _ => 0)
          (frames.page 1) mmu.l1L2Idx (tableAt mmu frames system 2))
        (frames.page 2) mmu.l2L2Idx (tableAt mmu frames system 1)
      taken := 3
      l1Ttbr0 := frames.page 0
      l1Ttbr1 := frames.page 1
      freeVaddr := mmu.startupBase } := by
  have first := ptpPaddr_tableAt mmu frames system (n := 1) (Nat.lt_of_lt_of_le (by decide) left)
  have second := ptpPaddr_tableAt mmu frames system (n := 2) (Nat.lt_of_lt_of_le (by decide) left)
  unfold tableAt at first second
  simp only [aarch64MapInit, ptAlloc, tableAt, first, second]

variable {mmu frames system}

/-- The first three pages are three. -/
theorem page_ne (left : 3 ≤ frames.count) {m n : Nat} (pages : m < 3 ∧ n < 3 ∧ m ≠ n) :
    frames.page m ≠ frames.page n := by
  obtain ⟨first, second, different⟩ := pages
  intro same
  exact different (frames.distinct m (first.trans_le left) n (second.trans_le left) same)

theorem init_user (left : 3 ≤ frames.count) (index : Nat) :
    (aarch64MapInit mmu frames system).memory (frames.page 0) index = 0 := by
  rw [aarch64MapInit_eq mmu frames system left]
  dsimp only
  have second := page_ne left (m := 0) (n := 2) (by decide)
  have first := page_ne left (m := 0) (n := 1) (by decide)
  rw [Radix.write_of_table_ne second, Radix.write_of_table_ne first, Function.update_of_ne second,
    Radix.write_of_table_ne first, Function.update_of_ne first]

theorem init_l1 (left : 3 ≤ frames.count) {index : Nat} (other : index ≠ mmu.l1L1Idx) :
    (aarch64MapInit mmu frames system).memory (frames.page 1) index =
      if index = mmu.l1L2Idx then tableAt mmu frames system 2 else 0 := by
  rw [aarch64MapInit_eq mmu frames system left]
  dsimp only
  rw [Radix.write_of_table_ne (page_ne left (by decide))]
  by_cases slot : index = mmu.l1L2Idx
  · rw [if_pos slot, slot, Radix.write_same]
  · rw [if_neg slot, Radix.write_of_ne fun same => slot same.2,
      Function.update_of_ne (page_ne left (by decide)), Radix.write_of_ne fun same => other same.2,
      Function.update_self]

theorem init_l2 (left : 3 ≤ frames.count) {index : Nat} (other : index ≠ mmu.l2L2Idx) :
    (aarch64MapInit mmu frames system).memory (frames.page 2) index = 0 := by
  rw [aarch64MapInit_eq mmu frames system left]
  dsimp only
  rw [Radix.write_of_ne fun same => other same.2,
    Radix.write_of_table_ne (page_ne left (by decide)), Function.update_self]

/-- The ways that the first tables have. -/
theorem init_ways (left : 3 ≤ frames.count) {kernel : Bool} {path : List Nat} {table : Nat}
    (plain : Plain mmu kernel path)
    (way : Radix.descend child (aarch64MapInit mmu frames system).memory
      ((aarch64MapInit mmu frames system).root kernel) path = some table) :
    (kernel = false ∧ path = [] ∧ table = frames.page 0) ∨
      (kernel = true ∧ path = [] ∧ table = frames.page 1) ∨
      (kernel = true ∧ path = [mmu.l1L2Idx] ∧ table = frames.page 2) := by
  cases kernel with
  | false =>
      have root : (aarch64MapInit mmu frames system).root false = frames.page 0 := by
        rw [aarch64MapInit_eq mmu frames system left]
        rfl
      rw [root] at way
      cases path with
      | nil => exact Or.inl ⟨rfl, rfl, (Option.some.inj way).symm⟩
      | cons index path =>
          rw [Radix.descend_cons, init_user left] at way
          cases way
  | true =>
      have root : (aarch64MapInit mmu frames system).root true = frames.page 1 := by
        rw [aarch64MapInit_eq mmu frames system left]
        rfl
      rw [root] at way
      right
      cases path with
      | nil => exact Or.inl ⟨rfl, rfl, (Option.some.inj way).symm⟩
      | cons index path =>
          have other : index ≠ mmu.l1L1Idx := by
            rintro rfl
            exact (plain rfl).1 ⟨path, rfl⟩
          rw [Radix.descend_cons, init_l1 left other] at way
          by_cases slot : index = mmu.l1L2Idx
          · have points : child (tableAt mmu frames system 2) = some (frames.page 2) :=
              child_setPte mmu system left
            rw [if_pos slot, points, Option.bind_some] at way
            cases path with
            | nil => exact Or.inr ⟨rfl, by rw [slot], (Option.some.inj way).symm⟩
            | cons later path =>
                have other' : later ≠ mmu.l2L2Idx := by
                  rintro rfl
                  exact (plain rfl).2 ⟨path, by rw [slot]; rfl⟩
                rw [Radix.descend_cons, init_l2 left other'] at way
                cases way
          · rw [if_neg slot] at way
            cases way

theorem sound_init (left : 3 ≤ frames.count) :
    Sound mmu frames (aarch64MapInit mmu frames system) where
  forest := by
    have taken : (aarch64MapInit mmu frames system).taken = 3 := by
      rw [aarch64MapInit_eq mmu frames system left]
    rw [taken]
    constructor
    · intro kernel path table plain _ way
      rcases init_ways left plain way with ⟨-, -, rfl⟩ | ⟨-, -, rfl⟩ | ⟨-, -, rfl⟩
      · exact ⟨0, by decide, rfl⟩
      · exact ⟨1, by decide, rfl⟩
      · exact ⟨2, by decide, rfl⟩
    · intro kernel path kernel' path' table plain plain' _ _ way way'
      rcases init_ways left plain way with ⟨rfl, rfl, rfl⟩ | ⟨rfl, rfl, rfl⟩ | ⟨rfl, rfl, rfl⟩ <;>
        rcases init_ways left plain' way' with
          ⟨rfl, rfl, same⟩ | ⟨rfl, rfl, same⟩ | ⟨rfl, rfl, same⟩ <;>
        first
          | exact ⟨rfl, rfl⟩
          | exact absurd same (page_ne left (by decide))
  upper := by
    intro kernel path index table plain _ way
    rcases init_ways left ((plain_paths mmu).init plain) way with
      ⟨rfl, rfl, rfl⟩ | ⟨rfl, rfl, rfl⟩ | ⟨rfl, rfl, rfl⟩
    · exact Or.inl (init_user left index)
    · have other : index ≠ mmu.l1L1Idx := by
        rintro rfl
        exact (plain rfl).1 ⟨[], rfl⟩
      rw [init_l1 left other]
      split
      · exact Or.inr (setPte_isTable mmu system protRw _)
      · exact Or.inl rfl
    · have other : index ≠ mmu.l2L2Idx := by
        rintro rfl
        exact (plain rfl).2 ⟨[], rfl⟩
      exact Or.inl (init_l2 left other)
  free_aligned := by
    rw [aarch64MapInit_eq mmu frames system left]
    exact mmu.startupBase_aligned

end Init

/-- The states that calls of `aarch64_map` reach. -/
inductive Reaches (mmu : Mmu) (frames : Frames) : State → Prop where
  | init (system : System) (left : 3 ≤ frames.count) :
      Reaches mmu frames (aarch64MapInit mmu frames system)
  | map {system : System} {q : Request} {st st' : State} {vaddr : Nat}
      (before : Reaches mmu frames st) (avoids : q.Avoids mmu st)
      (mapped : aarch64Map mmu frames system q st = some (vaddr, st')) : Reaches mmu frames st'

theorem Reaches.sound (reaches : Reaches mmu frames st) : Sound mmu frames st := by
  induction reaches with
  | init system left => exact sound_init left
  | map before avoids mapped sound => exact (maps_of_mapped sound mapped avoids).sound

/-! ## The translation -/

instance (mmu : Mmu) (word : Nat) : Decidable (IsTable mmu word) :=
  inferInstanceAs (Decidable (_ = _))

/-- What the walk ends with at an entry of an L3 table. -/
def decode (mmu : Mmu) (entry vaddr : Nat) : Option Nat :=
  if IsTable mmu entry then some (ptpPaddr entry ||| mmu.l3Voff vaddr) else none

theorem not_isTable_zero (mmu : Mmu) : ¬ IsTable mmu 0 := fun isTable => isTable.ne_zero rfl

/-- The walk reads the entry of the address. -/
theorem elfVaddrToPaddr_eq (sound : Sound mmu frames st) {v : Nat}
    (addressable : Addressable mmu v) (isOpen : Open mmu v) :
    elfVaddrToPaddr mmu st v = some (decode mmu (st.entryAt mmu v) v) := by
  have paths := plain_paths mmu
  have inside : ¬(¬ v < mmu.userEnd ∧ v < mmu.startupBase) := by
    rcases addressable with user | ⟨system, -⟩ <;> omega
  have root : (if v < mmu.userEnd then st.l1Ttbr0 else st.l1Ttbr1) = st.root (isKernel mmu v) := by
    by_cases low : v < mmu.userEnd <;> simp [isKernel, State.root, low]
  have plain1 : Plain mmu (isKernel mmu v) ([] ++ [mmu.l1Idx v]) := paths.init isOpen
  have plain2 : Plain mmu (isKernel mmu v) ([mmu.l1Idx v] ++ [mmu.l2Idx v]) := isOpen
  unfold elfVaddrToPaddr
  rw [if_neg inside, root]
  dsimp only
  have way0 : Radix.descend child st.memory (st.root (isKernel mmu v)) [] =
      some (st.root (isKernel mmu v)) := rfl
  rcases sound.upper plain1 Nat.zero_lt_two way0 with empty | isTable
  · have noWay : Radix.descend child st.memory (st.root (isKernel mmu v)) (pathOf mmu v) =
        none := by
      rw [pathOf, Radix.descend_cons, child, if_pos empty]
      rfl
    have entry : st.entryAt mmu v = 0 := by
      rw [State.entryAt, State.leaf, Radix.Forest.leaf, noWay]
      rfl
    rw [empty, Nat.zero_and, if_pos rfl, entry, decode, if_neg (not_isTable_zero mmu)]
  · obtain ⟨valid, notBlock⟩ := mmu.valid_table _ isTable
    rw [if_neg valid, if_neg notBlock]
    have way1 : Radix.descend child st.memory (st.root (isKernel mmu v)) [mmu.l1Idx v] =
        some (ptpPaddr (st.memory (st.root (isKernel mmu v)) (mmu.l1Idx v))) := by
      rw [Radix.descend_cons, child, if_neg isTable.ne_zero]
      rfl
    generalize ptpPaddr (st.memory (st.root (isKernel mmu v)) (mmu.l1Idx v)) = l2 at way1 ⊢
    rcases sound.upper plain2 Nat.one_lt_two way1 with empty | isTable'
    · have noWay : Radix.descend child st.memory (st.root (isKernel mmu v)) (pathOf mmu v) =
          none := by
        refine (Radix.descend_concat way1).trans ?_
        rw [child, if_pos empty]
      have entry : st.entryAt mmu v = 0 := by
        rw [State.entryAt, State.leaf, Radix.Forest.leaf, noWay]
        rfl
      rw [empty, Nat.zero_and, if_pos rfl, entry, decode, if_neg (not_isTable_zero mmu)]
    · obtain ⟨valid', notBlock'⟩ := mmu.valid_table _ isTable'
      rw [if_neg valid', if_neg notBlock']
      have way2 : Radix.descend child st.memory (st.root (isKernel mmu v)) (pathOf mmu v) =
          some (ptpPaddr (st.memory l2 (mmu.l2Idx v))) := by
        refine (Radix.descend_concat way1).trans ?_
        rw [child, if_neg isTable'.ne_zero]
      have entry : st.entryAt mmu v =
          st.memory (ptpPaddr (st.memory l2 (mmu.l2Idx v))) (mmu.l3Idx v) :=
        Radix.Forest.leaf_of_reached way2
      rw [← entry, decode]
      by_cases isPage : IsTable mmu (st.entryAt mmu v)
      · have read : st.entryAt mmu v &&& mmu.pteValid = mmu.pteValid := isPage
        rw [if_neg (not_not.mpr read), if_pos isPage]
      · have read : st.entryAt mmu v &&& mmu.pteValid ≠ mmu.pteValid := isPage
        rw [if_pos read, if_neg isPage]

/-- What the walk returns is below the size of a physical address, and has the offset in the page
of the virtual one. -/
theorem elfVaddrToPaddr_bounds {v paddr : Nat}
    (returned : elfVaddrToPaddr mmu st v = some (some paddr)) :
    paddr < 2 ^ 48 ∧ paddr % 2 ^ 12 = v % 2 ^ 12 := by
  have bounds : ∀ descriptor bits, 12 ≤ bits → bits ≤ 48 →
      (ptpPaddr descriptor ||| v % 2 ^ bits) < 2 ^ 48 ∧
        (ptpPaddr descriptor ||| v % 2 ^ bits) % 2 ^ 12 = v % 2 ^ 12 := by
    intro descriptor bits low high
    have offset : v % 2 ^ bits < 2 ^ 48 :=
      (Nat.mod_lt _ (Nat.two_pow_pos bits)).trans_le (Nat.pow_le_pow_right (by decide) high)
    have page : ptpPaddr descriptor % 2 ^ 12 = 0 := Nat.mod_eq_zero_of_dvd (dvd_ptpPaddr descriptor)
    refine ⟨Nat.or_lt_two_pow (ptpPaddr_lt descriptor) offset, ?_⟩
    rw [Nat.or_mod_two_pow, page, Nat.zero_or,
      Nat.mod_mod_of_dvd v (Nat.pow_dvd_pow 2 low)]
  unfold elfVaddrToPaddr at returned
  dsimp only at returned
  rw [mmu.l1Voff_eq, mmu.l2Voff_eq, mmu.l3Voff_eq] at returned
  generalize (if v < mmu.userEnd then st.l1Ttbr0 else st.l1Ttbr1) = l1 at returned
  split at returned
  · cases returned
  split at returned
  · cases returned
  split at returned
  · obtain rfl := Option.some.inj (Option.some.inj returned)
    exact bounds _ 30 (by decide) (by decide)
  split at returned
  · cases returned
  split at returned
  · obtain rfl := Option.some.inj (Option.some.inj returned)
    exact bounds _ 21 (by decide) (by decide)
  split at returned
  · cases returned
  · obtain rfl := Option.some.inj (Option.some.inj returned)
    exact bounds _ 12 (by decide) (by decide)

/-! ## The whole call -/

/-- The bytes of the request are translated to its physical addresses, and no page that is not
of the call is translated otherwise than before. -/
def Translates (mmu : Mmu) (q : Request) (st st' : State) (vaddr : Nat) : Prop :=
  (∀ k < q.size, elfVaddrToPaddr mmu st' (vaddr + k) = some (some (q.paddr + k))) ∧
    ∀ v < 2 ^ 64, Open mmu v → ¬(q.start st ≤ v ∧ v < q.last st) →
      elfVaddrToPaddr mmu st' v = elfVaddrToPaddr mmu st v

/-- The descriptor of a page that fits is that of its frame. -/
theorem descriptor_spec {m : Target} (mmu : Mmu) (pages : m.Pages) (fits : m.Fits)
    (valid : m.bits &&& mmu.pteValid = mmu.pteValid) {page : Nat} (start : m.start ≤ page)
    (last : page < m.last) (aligned : 2 ^ 12 ∣ page) :
    IsTable mmu (m.descriptor page) ∧
      ptpPaddr (m.descriptor page) = m.frame + (page - m.start) := by
  have startPage := pages.start
  have framePage := pages.frame
  have bits := pages.bits.2
  have bound : m.frame + (m.last - m.start) ≤ 2 ^ 48 := fits
  obtain ⟨mark, small, descriptor⟩ : ∃ mark, (mark = 0 ∨ mark = 2 ^ 52) ∧
      m.descriptor page = m.frame + (page - m.start) + mark + m.bits := by
    unfold Target.descriptor
    split
    · exact ⟨2 ^ 52, Or.inr rfl, by omega⟩
    · exact ⟨0, Or.inl rfl, by omega⟩
  have frame : 2 ^ 12 ∣ m.frame + (page - m.start) + mark := by
    rcases small with rfl | rfl <;> omega
  have inside : m.frame + (page - m.start) + mark < 2 ^ 53 := by
    rcases small with rfl | rfl <;> omega
  constructor
  · rw [descriptor, ← pages.bits.or_address frame inside]
    apply Nat.eq_of_testBit_eq
    intro bit
    have set := congrArg (Nat.testBit · bit) valid
    simp only [Nat.testBit_and, Nat.testBit_or] at set ⊢
    cases read : mmu.pteValid.testBit bit <;> simp_all
  · rw [descriptor, ptpPaddr_eq]
    rcases small with rfl | rfl <;> omega

theorem pteBits_valid (mmu : Mmu) (system : System) (flags : Prot) :
    pteBits mmu system flags &&& mmu.pteValid = mmu.pteValid := by
  have isTable := setPte_isTable mmu system flags 0
  rw [setPte_eq_or, Nat.zero_or] at isTable
  exact isTable

/-- The other pages are translated as before. -/
theorem others_kept (sound : Sound mmu frames st)
    (mapped : aarch64Map mmu frames system q st = some (vaddr, st'))
    (avoids : q.Avoids mmu st) : ∀ v < 2 ^ 64, Open mmu v → ¬(q.start st ≤ v ∧ v < q.last st) →
      elfVaddrToPaddr mmu st' v = elfVaddrToPaddr mmu st v := by
  intro v fits isOpen outside
  have maps := maps_of_mapped sound mapped avoids
  by_cases hole : ¬ v < mmu.userEnd ∧ v < mmu.startupBase
  · unfold elfVaddrToPaddr
    rw [if_pos hole, if_pos hole]
  · have addressable : Addressable mmu v := by
      by_cases user : v < mmu.userEnd
      · exact Or.inl user
      · exact Or.inr ⟨Nat.le_of_not_lt fun below => hole ⟨user, below⟩, fits⟩
    rw [elfVaddrToPaddr_eq maps.sound addressable isOpen,
      elfVaddrToPaddr_eq sound addressable isOpen, maps.kept addressable isOpen outside]

/-- The bytes from the start of the pages are translated to those from the frame. -/
theorem pages_translated (sound : Sound mmu frames st)
    (mapped : aarch64Map mmu frames system q st = some (vaddr, st'))
    (avoids : q.Avoids mmu st) (fits : q.frame + q.span ≤ 2 ^ 48) {k : Nat} (inside : k < q.span) :
    elfVaddrToPaddr mmu st' (q.start st + k) = some (some (q.frame + k)) := by
  have maps := maps_of_mapped sound mapped avoids
  have within := within_of_mapped mapped avoids
  obtain ⟨-, order, -⟩ := aarch64Map_cases mapped
  have last := q.last_eq st order
  have startPage := q.start_dvd st
  have framePage : 2 ^ 12 ∣ q.frame := Nat.dvd_mul_left _ _
  have targetFits : (q.targetOf mmu system st).Fits := by
    change q.frame + (q.last st - q.start st) ≤ 2 ^ 48
    rw [last]
    omega
  have low : q.start st ≤ q.start st + k := Nat.le_add_right _ _
  have high : q.start st + k < q.last st := by omega
  obtain ⟨addressable, -, isOpen⟩ := within _ low high
  have entry := maps.written targetFits low high
  have page : (q.start st + k) / 2 ^ 12 * 2 ^ 12 = q.start st + k / 2 ^ 12 * 2 ^ 12 := by omega
  rw [page] at entry
  have pageLow : q.start st ≤ q.start st + k / 2 ^ 12 * 2 ^ 12 := Nat.le_add_right _ _
  have pageHigh : q.start st + k / 2 ^ 12 * 2 ^ 12 < q.last st := by omega
  have pageWhole : 2 ^ 12 ∣ q.start st + k / 2 ^ 12 * 2 ^ 12 :=
    (Nat.dvd_add_right startPage).mpr (Nat.dvd_mul_left _ _)
  obtain ⟨isTable, frame⟩ := descriptor_spec mmu (q.pages mmu system st) targetFits
    (pteBits_valid mmu system q.flags) pageLow pageHigh pageWhole
  have base : (q.targetOf mmu system st).frame = q.frame := rfl
  have first : (q.targetOf mmu system st).start = q.start st := rfl
  rw [base, first, Nat.add_sub_cancel_left] at frame
  have voff : mmu.l3Voff (q.start st + k) = k % 2 ^ 12 := by
    rw [mmu.l3Voff_eq]
    omega
  have offset : Attribute (k % 2 ^ 12) := ⟨by omega, by omega⟩
  have whole : 2 ^ 12 ∣ q.frame + k / 2 ^ 12 * 2 ^ 12 :=
    (Nat.dvd_add_right framePage).mpr (Nat.dvd_mul_left _ _)
  have total : q.frame + k / 2 ^ 12 * 2 ^ 12 + k % 2 ^ 12 = q.frame + k := by
    rw [Nat.add_assoc, Nat.div_add_mod']
  rw [elfVaddrToPaddr_eq maps.sound addressable isOpen, entry, decode, if_pos isTable, frame, voff,
    offset.or_address whole (by omega), total]

/-- A call translates what it was asked to map if and only if it was asked for nothing, or for
memory that a descriptor can hold, at an address of its own choice or at a page. -/
theorem translates_iff (reaches : Reaches mmu frames st) (avoids : q.Avoids mmu st)
    (mapped : aarch64Map mmu frames system q st = some (vaddr, st')) :
    Translates mmu q st st' vaddr ↔
      q.size = 0 ∨
        (q.paddr + q.size ≤ 2 ^ 48 ∧ (q.vaddr = none ∨ q.paddr % PAGESIZE = 0)) := by
  have sound := reaches.sound
  have others := others_kept sound mapped avoids
  obtain ⟨offset, order, -, address, -⟩ := aarch64Map_cases mapped
  have page : PAGESIZE = 2 ^ 12 := rfl
  have off : q.off = q.paddr % 2 ^ 12 := rfl
  rw [page] at offset ⊢
  constructor
  · rintro ⟨bytes, -⟩
    by_cases empty : q.size = 0
    · exact Or.inl empty
    right
    have fits : q.paddr + q.size ≤ 2 ^ 48 := by
      by_contra outside
      have bound := (elfVaddrToPaddr_bounds (bytes (2 ^ 48 - q.paddr) (by omega))).1
      omega
    refine ⟨fits, offset.imp_right fun given => ?_⟩
    have low := (elfVaddrToPaddr_bounds (bytes 0 (by omega))).2
    rw [Nat.add_zero, Nat.add_zero, address, add] at low
    omega
  · intro condition
    refine ⟨?_, others⟩
    intro k inside
    obtain ⟨fits, aligned⟩ := condition.resolve_left (Nat.ne_zero_of_lt inside)
    have target : 2 ^ 12 ∣ q.target st := by
      rcases aligned with chosen | whole
      · rw [Request.target, chosen]
        exact sound.free_aligned
      · rcases offset with chosen | given
        · rw [Request.target, chosen]
          exact sound.free_aligned
        · omega
    have start : q.start st = q.target st % 2 ^ 64 := by
      rw [Request.start, trunc_page]
      omega
    have span : q.span = (q.size + q.off + (2 ^ 12 - 1)) / 2 ^ 12 * 2 ^ 12 := by
      have sum : add 64 q.size q.off = q.size + q.off := add_of_lt (by omega)
      rw [Request.span, sum, page, round_two_pow (by decide) (by omega)]
    have frame : q.frame + q.off = q.paddr := by
      change q.paddr / 2 ^ 12 * 2 ^ 12 + q.paddr % 2 ^ 12 = q.paddr
      omega
    have framePage : 2 ^ 12 ∣ q.frame := Nat.dvd_mul_left _ _
    have last := q.last_eq st order
    have lastFits := q.last_lt st
    have returned : vaddr = q.start st + q.off := by
      rw [address, add]
      omega
    have translated := pages_translated sound mapped avoids (by omega)
      (show q.off + k < q.span by omega)
    rw [returned, Nat.add_assoc, translated]
    congr 2
    omega

/-! ## The values of the architecture -/

instance (word : Nat) : Decidable (Attribute word) := inferInstanceAs (Decidable (_ ∧ _))

/-- Descriptors of the long format, and an address space of 39 bits. -/
def Mmu.longFormat : Mmu where
  userEnd := 2 ^ 39
  startupBase := 0xffffff8060000000
  userEnd_le := Nat.le_refl _
  le_startupBase := by decide
  startupBase_aligned := by decide
  l1L1Idx := 511
  l1L2Idx := 510
  l2L2Idx := 511
  l1Slots_ne := by decide
  l1Idx vaddr := vaddr / 2 ^ 30 % 512
  l2Idx vaddr := vaddr / 2 ^ 21 % 512
  l3Idx vaddr := vaddr / 2 ^ 12 % 512
  l1Idx_eq _ := rfl
  l2Idx_eq _ := rfl
  l3Idx_eq _ := rfl
  l1Voff vaddr := vaddr % 2 ^ 30
  l2Voff vaddr := vaddr % 2 ^ 21
  l3Voff vaddr := vaddr % 2 ^ 12
  l1Voff_eq _ := rfl
  l2Voff_eq _ := rfl
  l3Voff_eq _ := rfl
  pteValid := 0x3
  pteAf := 0x400
  pteUrw := 0x40
  pteKrw := 0
  pteUro := 0xc0
  pteKro := 0x80
  pteUxn := 0x40000000000000
  ptePxn := 0x20000000000000
  pteSodev := 0
  pteDev := 0x4
  pteNc := 0x8
  pteWbwa := 0xc
  pteIsh := 0x300
  pteNg := 0x800
  bits_attribute := by decide
  pteValid_ne := by decide
  pteContig := 0x10000000000000
  pteContig_eq := by decide
  ptpValid := 1
  ptpType word := word &&& 3
  ptpBlock := 1
  valid_table := by
    intro word valid
    have two : word &&& 3 = word % 4 := Nat.and_two_pow_sub_one_eq_mod word 2
    have one : word &&& 1 = word % 2 := Nat.and_two_pow_sub_one_eq_mod word 1
    rw [two] at valid
    rw [two, one, valid]
    omega

/-- A run of pages from 1 GB on. -/
def Frames.fromGiga : Frames where
  page n := 0x40000000 + n * PAGESIZE
  count := 16
  aligned n _ := (Nat.dvd_add_right (by decide)).mpr (Nat.dvd_mul_left _ _)
  small n left := by
    rw [PAGESIZE]
    omega
  distinct m _ n _ same := by
    rw [PAGESIZE] at same
    omega

/-- One cpu, without the meltdown fix. -/
def System.single : System := ⟨false, false⟩

/-- The tables before the first call. -/
def State.first : State := aarch64MapInit Mmu.longFormat Frames.fromGiga System.single

theorem State.first_reached : Reaches Mmu.longFormat Frames.fromGiga State.first :=
  Reaches.init System.single (by decide)

/-- 32 bytes in the middle of a page, at any address. -/
def Request.anywhere : Request := ⟨none, 0x80000010, 0x20, protRw⟩

/-- The first 512 MB of the startup region are translated by slot 1 of the L1 table. -/
theorem open_startup {v : Nat} (low : 0xffffff8060000000 ≤ v) (high : v < 0xffffff8080000000) :
    Open Mmu.longFormat v := by
  intro _
  have index : Mmu.longFormat.l1Idx v = 1 := by
    rw [Mmu.l1Idx_eq]
    omega
  rw [pathOf, index]
  constructor
  · rw [List.cons_prefix_cons]
    rintro ⟨slot, -⟩
    exact absurd slot (by decide)
  · rw [List.cons_prefix_cons]
    rintro ⟨slot, -⟩
    exact absurd slot (by decide)

theorem anywhere_avoids : Request.anywhere.Avoids Mmu.longFormat State.first := by
  have start : Request.anywhere.start State.first = 0xffffff8060000000 := by decide
  have last : Request.anywhere.last State.first = 0xffffff8060001000 := by decide
  intro v low high
  rw [start] at low
  rw [last] at high
  exact open_startup low (high.trans (by decide))

theorem anywhere_translates : ∃ vaddr st',
    aarch64Map Mmu.longFormat Frames.fromGiga System.single Request.anywhere State.first =
        some (vaddr, st') ∧
      Translates Mmu.longFormat Request.anywhere State.first st' vaddr := by
  have returned : (aarch64Map Mmu.longFormat Frames.fromGiga System.single Request.anywhere
      State.first).map Prod.fst = some 0xffffff8060000010 := by decide
  obtain ⟨⟨vaddr, st'⟩, mapped, -⟩ := Option.map_eq_some_iff.mp returned
  refine ⟨vaddr, st', mapped, ?_⟩
  apply (translates_iff State.first_reached anywhere_avoids mapped).mpr
  exact Or.inr ⟨by decide, Or.inl rfl⟩

/-- The same bytes, at an address that has their offset in the page. -/
def Request.given : Request := ⟨some 0x1010, 0x80000010, 0x20, protRw⟩

/-- The address that is returned is 16 bytes behind the one that the bytes are mapped at. -/
theorem offset_added_twice : Reaches Mmu.longFormat Frames.fromGiga State.first ∧
    Request.given.Avoids Mmu.longFormat State.first ∧
    ∃ st', aarch64Map Mmu.longFormat Frames.fromGiga System.single Request.given State.first =
        some (0x1020, st') ∧
      ¬ Translates Mmu.longFormat Request.given State.first st' 0x1020 := by
  have returned : (aarch64Map Mmu.longFormat Frames.fromGiga System.single Request.given
      State.first).map Prod.fst = some 0x1020 := by decide
  obtain ⟨⟨vaddr, st'⟩, mapped, rfl⟩ := Option.map_eq_some_iff.mp returned
  refine ⟨State.first_reached, ?_, st', mapped, ?_⟩
  · have last : Request.given.last State.first = 0x2000 := by decide
    intro v _ high isKernel
    rw [last] at high
    have user : v < Mmu.longFormat.userEnd := high.trans (by decide)
    simp [PageTables.isKernel, user] at isKernel
  · rintro ⟨bytes, -⟩
    have offset := (elfVaddrToPaddr_bounds (bytes 0 (by decide))).2
    exact absurd offset (by decide)

end Bcm2711.Startup.PageTables
