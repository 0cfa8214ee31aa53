import Bcm2711.Startup.PageTables

/-! # What the loops of `aarch64_map` store

The loop over an L3 table, the loop over an L2 table and the one over the L1 table, from the
inside to the outside: each stores the descriptors of the pages that it passes, and changes no
other page.
-/

namespace Bcm2711.Startup.PageTables

open Word

/-! ## One L3 table -/

/-- What a call maps: the pages from `start` to `last`, on those from `frame`, with the bits of
their descriptors. -/
structure Target where
  start : Nat
  frame : Nat
  last : Nat
  bits : Nat

namespace Target

variable (m : Target)

/-- The first address of a run of 16 pages that can be marked as contiguous. -/
def group (vaddr : Nat) : Nat := vaddr / 2 ^ 16 * 2 ^ 16

/-- The run of the address is mapped as a whole, on an aligned run. -/
def Grouped (vaddr : Nat) : Prop :=
  m.start ≤ group vaddr ∧ group vaddr + 2 ^ 16 ≤ m.last ∧
    (m.frame + (group vaddr - m.start)) % 2 ^ 16 = 0

instance (vaddr : Nat) : Decidable (m.Grouped vaddr) := inferInstanceAs (Decidable (_ ∧ _ ∧ _))

/-- The descriptor of the page at an address. -/
def descriptor (vaddr : Nat) : Nat :=
  m.frame + (vaddr - m.start) + m.bits + if m.Grouped vaddr then 2 ^ 52 else 0

/-- The pages are in the physical addresses that a descriptor can hold. -/
def Fits : Prop := m.frame + (m.last - m.start) ≤ 2 ^ 48

/-- The target consists of pages. -/
structure Pages : Prop where
  start : 2 ^ 12 ∣ m.start
  frame : 2 ^ 12 ∣ m.frame
  last : 2 ^ 12 ∣ m.last
  bits : Attribute m.bits

/-- `va` and `pte` at an entry: `pte` is the descriptor of the page, and the loop is not inside
of a run that it should have marked. -/
structure At (va pte : Nat) : Prop where
  start_le : m.start ≤ va
  le_last : va ≤ m.last
  aligned : 2 ^ 12 ∣ va
  pte_eq : m.Fits → pte = m.frame + (va - m.start) + m.bits
  outside : m.Fits → va % 2 ^ 16 = 0 ∨ ¬ m.Grouped va

end Target

section Store

variable (l3 : Nat) (c : Cursor)

theorem storeEntries_l3i (n : Nat) : (storeEntries l3 n c).l3i = c.l3i + n := by
  induction n generalizing c with
  | zero => rfl
  | succ n ih =>
      rw [storeEntries, ih]
      dsimp only
      omega

theorem storeEntries_va (n : Nat) : (storeEntries l3 n c).va = c.va + PAGESIZE * n := by
  induction n generalizing c with
  | zero => rfl
  | succ n ih =>
      rw [storeEntries, ih, Nat.mul_succ]
      dsimp only
      omega

theorem storeEntries_memory_of_not (n : Nat) {table index : Nat}
    (outside : ¬(table = l3 ∧ c.l3i ≤ index ∧ index < c.l3i + n)) :
    (storeEntries l3 n c).memory table index = c.memory table index := by
  induction n generalizing c with
  | zero => rfl
  | succ n ih =>
      rw [storeEntries, ih]
      · apply Radix.write_of_ne
        rintro ⟨rfl, rfl⟩
        exact outside ⟨rfl, Nat.le_refl _, by omega⟩
      · rintro ⟨rfl, low, high⟩
        exact outside ⟨rfl, Nat.le_of_succ_le low, by dsimp only at high; omega⟩

theorem storeEntries_pte (n : Nat) (fits : c.pte + PAGESIZE * n < 2 ^ 64) :
    (storeEntries l3 n c).pte = c.pte + PAGESIZE * n := by
  induction n generalizing c with
  | zero => rfl
  | succ n ih =>
      rw [Nat.mul_succ] at fits
      have next : add 64 c.pte PAGESIZE = c.pte + PAGESIZE := add_of_lt (by omega)
      rw [storeEntries, ih]
      · dsimp only
        rw [next, Nat.mul_succ]
        omega
      · dsimp only
        rw [next]
        omega

theorem storeEntries_memory (n : Nat) (fits : c.pte + PAGESIZE * n < 2 ^ 64) {i : Nat}
    (inside : i < n) : (storeEntries l3 n c).memory l3 (c.l3i + i) = c.pte + PAGESIZE * i := by
  induction n generalizing c i with
  | zero => exact absurd inside (Nat.not_lt_zero i)
  | succ n ih =>
      rw [Nat.mul_succ] at fits
      have next : add 64 c.pte PAGESIZE = c.pte + PAGESIZE := add_of_lt (by omega)
      rw [storeEntries]
      cases i with
      | zero =>
          rw [storeEntries_memory_of_not]
          · exact Radix.write_same
          · rintro ⟨-, low, -⟩
            exact absurd low (Nat.not_succ_le_self c.l3i)
      | succ i =>
          have index : c.l3i + (i + 1) = c.l3i + 1 + i := by omega
          rw [index, ih ⟨c.l3i + 1, c.va + PAGESIZE, add 64 c.pte PAGESIZE, _⟩ _
            (Nat.lt_of_succ_lt_succ inside)]
          · dsimp only
            rw [next, Nat.mul_succ]
            omega
          · dsimp only
            rw [next]
            omega

end Store

/-- What a part of the loop over an L3 table has done: the entries between the two indices are
those of the pages between the two addresses. -/
structure Stored (m : Target) (l3 : Nat) (c c' : Cursor) : Prop where
  isAt : m.At c'.va c'.pte
  l3i_le : c.l3i ≤ c'.l3i
  l3i_le_size : c'.l3i ≤ NPTE_PTBL
  va_eq : c'.va = c.va + 2 ^ 12 * (c'.l3i - c.l3i)
  kept : ∀ {table index}, ¬(table = l3 ∧ c.l3i ≤ index ∧ index < c'.l3i) →
    c'.memory table index = c.memory table index
  written : m.Fits → ∀ {index}, c.l3i ≤ index → index < c'.l3i →
    c'.memory l3 index = m.descriptor (c.va + 2 ^ 12 * (index - c.l3i))

namespace Stored

variable {m : Target} {l3 : Nat} {c c' c'' : Cursor}

theorem refl (isAt : m.At c.va c.pte) (size : c.l3i ≤ NPTE_PTBL) : Stored m l3 c c where
  isAt := isAt
  l3i_le := Nat.le_refl _
  l3i_le_size := size
  va_eq := by rw [Nat.sub_self]; rfl
  kept _ := rfl
  written _ _ low high := absurd high (Nat.not_lt.mpr low)

theorem trans (first : Stored m l3 c c') (second : Stored m l3 c' c'') : Stored m l3 c c'' where
  isAt := second.isAt
  l3i_le := first.l3i_le.trans second.l3i_le
  l3i_le_size := second.l3i_le_size
  va_eq := by
    have one := first.l3i_le
    have two := second.l3i_le
    rw [second.va_eq, first.va_eq]
    omega
  kept := by
    intro table index outside
    rw [second.kept, first.kept]
    · rintro ⟨rfl, low, high⟩
      exact outside ⟨rfl, low, high.trans_le second.l3i_le⟩
    · rintro ⟨rfl, low, high⟩
      exact outside ⟨rfl, first.l3i_le.trans low, high⟩
  written := by
    intro fits index low high
    by_cases early : index < c'.l3i
    · rw [second.kept fun inside => absurd inside.2.1 (Nat.not_le.mpr early)]
      exact first.written fits low early
    · have late : c'.l3i ≤ index := Nat.le_of_not_lt early
      have shift : c'.va + 2 ^ 12 * (index - c'.l3i) = c.va + 2 ^ 12 * (index - c.l3i) := by
        have one := first.l3i_le
        rw [first.va_eq]
        omega
      rw [second.written fits late high, shift]

end Stored

section Steps

variable {m : Target} {c : Cursor}

/-- `USE_CONTIG` holds at the beginning of a run that lies in the target. -/
theorem useContig_spec {va pte size : Nat}
    (used : useContig va (trunc 64 pte PAGESIZE) size (CONTIG_PAGES * PAGESIZE)) :
    2 ^ 16 ≤ size ∧ va % 2 ^ 16 = 0 ∧ trunc 64 pte PAGESIZE % 2 ^ 16 = 0 := by
  have run : CONTIG_PAGES * PAGESIZE = 2 ^ 16 := rfl
  have mask : sub 64 (2 ^ 16) 1 = 2 ^ 16 - 1 := by decide
  rw [run, useContig, Bool.and_eq_true, decide_eq_true_eq, decide_eq_true_eq, mask,
    Nat.and_two_pow_sub_one_eq_mod, Nat.or_mod_two_pow, Nat.or_eq_zero_iff] at used
  exact ⟨used.1, used.2.1, used.2.2⟩

theorem useContig_of {va pte size : Nat} (whole : 2 ^ 16 ≤ size) (aligned : va % 2 ^ 16 = 0)
    (frame : trunc 64 pte PAGESIZE % 2 ^ 16 = 0) :
    useContig va (trunc 64 pte PAGESIZE) size (CONTIG_PAGES * PAGESIZE) = true := by
  have run : CONTIG_PAGES * PAGESIZE = 2 ^ 16 := rfl
  have mask : sub 64 (2 ^ 16) 1 = 2 ^ 16 - 1 := by decide
  rw [run, useContig, Bool.and_eq_true, decide_eq_true_eq, decide_eq_true_eq, mask,
    Nat.and_two_pow_sub_one_eq_mod, Nat.or_mod_two_pow, Nat.or_eq_zero_iff]
  exact ⟨whole, aligned, frame⟩

/-- The run of a `pte` is aligned when that of its page is. -/
theorem trunc_pte {page bits : Nat} (isAttribute : Attribute bits) (aligned : 2 ^ 12 ∣ page)
    (small : page ≤ 2 ^ 48) : trunc 64 (page + bits) PAGESIZE % 2 ^ 16 = page % 2 ^ 16 := by
  obtain ⟨fits, clear⟩ := isAttribute
  have size : PAGESIZE = 2 ^ 12 := rfl
  rw [size, trunc_two_pow (by omega) (by decide)]
  omega

/-- One page, that is not in a run. -/
theorem stored_one (l3 : Nat) (pages : m.Pages) (isAt : m.At c.va c.pte) (more : c.va < m.last)
    (room : c.l3i < NPTE_PTBL)
    (single : useContig c.va (trunc 64 c.pte PAGESIZE) (m.last - c.va)
      (CONTIG_PAGES * PAGESIZE) = false) : Stored m l3 c (storeEntries l3 1 c) := by
  have lastPage := pages.last
  have aligned := isAt.aligned
  have page : PAGESIZE = 2 ^ 12 := rfl
  have notGrouped : m.Fits → ¬ m.Grouped c.va := by
    intro fits
    rcases isAt.outside fits with first | outside
    · rintro ⟨inside, whole, frame⟩
      have same : Target.group c.va = c.va := by
        rw [Target.group]
        omega
      have bound := isAt.start_le
      have frames := pages.frame
      have starts := pages.start
      rw [same] at whole frame
      have truncated : trunc 64 c.pte PAGESIZE % 2 ^ 16 = 0 := by
        rw [isAt.pte_eq fits, trunc_pte pages.bits (by omega) (by rw [Target.Fits] at fits; omega)]
        exact frame
      have size : 2 ^ 16 ≤ m.last - c.va := by omega
      rw [useContig_of size first truncated] at single
      cases single
    · exact outside
  have va : (storeEntries l3 1 c).va = c.va + 2 ^ 12 := storeEntries_va l3 c 1
  have l3i : (storeEntries l3 1 c).l3i = c.l3i + 1 := storeEntries_l3i l3 c 1
  have noWrap : m.Fits → c.pte + PAGESIZE * 1 < 2 ^ 64 := by
    intro fits
    have bits := pages.bits.1
    have clear := pages.bits.2
    have pte := isAt.pte_eq fits
    rw [Target.Fits] at fits
    have start := isAt.start_le
    omega
  refine ⟨⟨?_, ?_, ?_, ?_, ?_⟩, ?_, ?_, ?_, ?_, ?_⟩
  · rw [va]
    exact isAt.start_le.trans (Nat.le_add_right _ _)
  · rw [va]
    omega
  · rw [va]
    exact Nat.dvd_add aligned (Nat.dvd_refl _)
  · intro fits
    have start := isAt.start_le
    rw [storeEntries_pte l3 c 1 (noWrap fits), isAt.pte_eq fits, va, page]
    omega
  · intro fits
    rw [va]
    by_cases next : (c.va + 2 ^ 12) % 2 ^ 16 = 0
    · exact Or.inl next
    · right
      have same : Target.group (c.va + 2 ^ 12) = Target.group c.va := by
        rw [Target.group, Target.group]
        omega
      rw [Target.Grouped, same]
      exact notGrouped fits
  · rw [l3i]
    exact Nat.le_succ _
  · rw [l3i]
    exact room
  · rw [va, l3i]
    omega
  · intro table index outside
    rw [l3i] at outside
    exact storeEntries_memory_of_not l3 c 1 outside
  · intro fits index low high
    rw [l3i] at high
    obtain rfl : index = c.l3i := by omega
    have entry := storeEntries_memory l3 c 1 (noWrap fits) Nat.zero_lt_one
    rw [Nat.add_zero] at entry
    rw [entry, isAt.pte_eq fits, Nat.sub_self, Nat.mul_zero, Nat.mul_zero, Nat.add_zero,
      Nat.add_zero, Target.descriptor, if_neg (notGrouped fits), Nat.add_zero]

/-- A run of 16 pages, marked as contiguous. -/
theorem stored_run (mmu : Mmu) (l3 : Nat) (pages : m.Pages) (isAt : m.At c.va c.pte)
    (index : c.va / 2 ^ 12 % 512 = c.l3i)
    (run : useContig c.va (trunc 64 c.pte PAGESIZE) (m.last - c.va) (CONTIG_PAGES * PAGESIZE) =
      true) :
    let marked := storeEntries l3 CONTIG_PAGES { c with pte := c.pte ||| mmu.pteContig }
    Stored m l3 c { marked with pte := marked.pte &&& Word.compl 64 mmu.pteContig } := by
  intro marked
  obtain ⟨whole, first, truncated⟩ := useContig_spec run
  have lastPage := pages.last
  have aligned := isAt.aligned
  have start := isAt.start_le
  have page : PAGESIZE = 2 ^ 12 := rfl
  have size : NPTE_PTBL = 512 := rfl
  have sixteen : CONTIG_PAGES = 16 := rfl
  have bytes : PAGESIZE * CONTIG_PAGES = 2 ^ 16 := rfl
  have va : marked.va = c.va + PAGESIZE * CONTIG_PAGES := storeEntries_va l3 _ CONTIG_PAGES
  have l3i : marked.l3i = c.l3i + CONTIG_PAGES := storeEntries_l3i l3 _ CONTIG_PAGES
  have kept : ∀ {table slot}, ¬(table = l3 ∧ c.l3i ≤ slot ∧ slot < c.l3i + CONTIG_PAGES) →
      marked.memory table slot = c.memory table slot :=
    storeEntries_memory_of_not l3 { c with pte := c.pte ||| mmu.pteContig } CONTIG_PAGES
  rw [bytes] at va
  have clear : m.Fits → c.pte % 2 ^ 53 < 2 ^ 52 ∧ (c.pte + 2 ^ 16) % 2 ^ 53 < 2 ^ 52 ∧
      c.pte + 2 ^ 16 + 2 ^ 52 < 2 ^ 64 := by
    intro fits
    have bits := pages.bits.1
    have low := pages.bits.2
    rw [Target.Fits] at fits
    rw [isAt.pte_eq fits]
    omega
  have set : m.Fits → c.pte ||| mmu.pteContig = c.pte + 2 ^ 52 := by
    intro fits
    rw [mmu.pteContig_eq]
    exact or_bit (testBit_eq_false (clear fits).1)
  have noWrap : m.Fits → (c.pte ||| mmu.pteContig) + PAGESIZE * CONTIG_PAGES < 2 ^ 64 := by
    intro fits
    rw [set fits, bytes, Nat.add_right_comm]
    exact (clear fits).2.2
  have pte : m.Fits → marked.pte = c.pte + 2 ^ 16 + 2 ^ 52 := by
    intro fits
    refine (storeEntries_pte l3 { c with pte := c.pte ||| mmu.pteContig } CONTIG_PAGES
      (noWrap fits)).trans ?_
    dsimp only
    rw [set fits, bytes]
    omega
  have entries : m.Fits → ∀ {n}, n < 16 →
      marked.memory l3 (c.l3i + n) = c.pte + 2 ^ 52 + PAGESIZE * n := by
    intro fits n inside
    rw [← set fits]
    exact storeEntries_memory l3 { c with pte := c.pte ||| mmu.pteContig } CONTIG_PAGES
      (noWrap fits) inside
  -- The rest needs of the run only what has been said of it.
  clear_value marked
  refine ⟨⟨?_, ?_, ?_, ?_, ?_⟩, ?_, ?_, ?_, ?_, ?_⟩
  · dsimp only
    rw [va]
    exact start.trans (Nat.le_add_right _ _)
  · dsimp only
    rw [va]
    omega
  · dsimp only
    rw [va]
    exact Nat.dvd_add aligned (by decide)
  · intro fits
    have bounds := clear fits
    dsimp only
    rw [pte fits, mmu.pteContig_eq, add_bit_and_compl (testBit_eq_false bounds.2.1) (by omega)
      (by decide), isAt.pte_eq fits, va]
    omega
  · intro fits
    left
    dsimp only
    rw [va]
    omega
  · dsimp only
    rw [l3i]
    exact Nat.le_add_right _ _
  · dsimp only
    rw [l3i]
    omega
  · dsimp only
    rw [va, l3i]
    omega
  · intro table slot outside
    dsimp only at outside
    rw [l3i] at outside
    exact kept outside
  · intro fits slot low high
    dsimp only at high
    rw [l3i] at high
    obtain ⟨n, rfl⟩ := Nat.exists_eq_add_of_le low
    have inside : n < 16 := by omega
    have offset : c.l3i + n - c.l3i = n := Nat.add_sub_cancel_left _ _
    have sameRun : Target.group (c.va + 2 ^ 12 * n) = c.va := by
      rw [Target.group]
      omega
    have frame : (m.frame + (c.va - m.start)) % 2 ^ 16 = 0 := by
      have frames := pages.frame
      have starts := pages.start
      rw [isAt.pte_eq fits, trunc_pte pages.bits (by omega) (by rw [Target.Fits] at fits; omega)]
        at truncated
      exact truncated
    have grouped : m.Grouped (c.va + 2 ^ 12 * n) := by
      rw [Target.Grouped, sameRun]
      exact ⟨start, by omega, frame⟩
    dsimp only
    rw [entries fits inside, offset, Target.descriptor, if_pos grouped, isAt.pte_eq fits, page]
    omega

/-- The loop over an L3 table stores the entries from its index on, up to the end of the table or
of the target. -/
theorem mapL3_stored (mmu : Mmu) (l3 : Nat) (pages : m.Pages) (rounds : Nat) (c : Cursor)
    (isAt : m.At c.va c.pte)
    (enough : NPTE_PTBL - c.l3i ≤ rounds) (size : c.l3i ≤ NPTE_PTBL)
    (index : c.va / 2 ^ 12 % 512 = c.l3i % 512) :
    Stored m l3 c (mapL3 mmu l3 m.last rounds c) ∧
      ((mapL3 mmu l3 m.last rounds c).l3i = NPTE_PTBL ∨
        (mapL3 mmu l3 m.last rounds c).va = m.last) := by
  have entries : NPTE_PTBL = 512 := rfl
  induction rounds generalizing c with
  | zero =>
      refine ⟨Stored.refl isAt size, Or.inl ?_⟩
      rw [mapL3]
      omega
  | succ rounds ih =>
      rw [mapL3]
      split
      case isFalse done =>
        refine ⟨Stored.refl isAt size, ?_⟩
        have upTo := isAt.le_last
        omega
      case isTrue more =>
        obtain ⟨room, more⟩ := more
        have here : c.va / 2 ^ 12 % 512 = c.l3i := index.trans (Nat.mod_eq_of_lt room)
        split
        case isTrue run =>
          have first := stored_run mmu l3 pages isAt here run
          have moved : c.l3i + 16 = _ := (storeEntries_l3i l3
            { c with pte := c.pte ||| mmu.pteContig } CONTIG_PAGES).symm
          have va := first.va_eq
          have aligned := isAt.aligned
          have next := first.l3i_le_size
          dsimp only at va next
          rw [← moved] at va next
          obtain ⟨rest, ends⟩ := ih _ first.isAt (by dsimp only; omega) first.l3i_le_size
            (by dsimp only; rw [va, ← moved]; omega)
          exact ⟨first.trans rest, ends⟩
        case isFalse single =>
          have first := stored_one l3 pages isAt more room (Bool.eq_false_iff.mpr single)
          have moved : c.l3i + 1 = _ := (storeEntries_l3i l3 c 1).symm
          have va := first.va_eq
          have aligned := isAt.aligned
          rw [← moved] at va
          obtain ⟨rest, ends⟩ := ih _ first.isAt (by omega) first.l3i_le_size
            (by rw [va, ← moved]; omega)
          exact ⟨first.trans rest, ends⟩

end Steps

/-! ## The outer loops -/

/-- The target lies in one of the two trees, and outside of the slots in which the tables map
themselves. -/
def Target.Within (m : Target) (mmu : Mmu) (kernel : Bool) : Prop :=
  ∀ v, m.start ≤ v → v < m.last → Addressable mmu v ∧ isKernel mmu v = kernel ∧ Open mmu v

/-- What a part of the outer loops has done: the pages between the two addresses are mapped, and
no other one is changed. -/
structure Advanced (mmu : Mmu) (frames : Frames) (m : Target) (p p' : Progress) : Prop where
  sound : Sound mmu frames p'.st
  grows : Grows mmu p.st p'.st
  isAt : m.At p'.va p'.pte
  va_le : p.va ≤ p'.va
  kept : ∀ {v}, Addressable mmu v → Open mmu v → ¬(p.va ≤ v ∧ v < p'.va) →
    p'.st.entryAt mmu v = p.st.entryAt mmu v
  written : m.Fits → ∀ {v}, p.va ≤ v → v < p'.va →
    p'.st.entryAt mmu v = m.descriptor (v / 2 ^ 12 * 2 ^ 12)

namespace Advanced

variable {mmu : Mmu} {frames : Frames} {m : Target} {p p' p'' : Progress}

theorem refl (sound : Sound mmu frames p.st) (isAt : m.At p.va p.pte) :
    Advanced mmu frames m p p where
  sound := sound
  grows := Grows.refl mmu p.st
  isAt := isAt
  va_le := Nat.le_refl _
  kept _ _ _ := rfl
  written _ _ low high := absurd high (Nat.not_lt.mpr low)

theorem trans {kernel : Bool} (within : m.Within mmu kernel) (start : m.At p.va p.pte)
    (first : Advanced mmu frames m p p') (second : Advanced mmu frames m p' p'') :
    Advanced mmu frames m p p'' where
  sound := second.sound
  grows := first.grows.trans second.grows
  isAt := second.isAt
  va_le := first.va_le.trans second.va_le
  kept := by
    intro v addressable isOpen outside
    rw [second.kept addressable isOpen, first.kept addressable isOpen]
    · rintro ⟨low, high⟩
      exact outside ⟨low, high.trans_le second.va_le⟩
    · rintro ⟨low, high⟩
      exact outside ⟨first.va_le.trans low, high⟩
  written := by
    intro fits v low high
    by_cases early : v < p'.va
    · obtain ⟨addressable, -, isOpen⟩ :=
        within v (start.start_le.trans low) (high.trans_le second.isAt.le_last)
      rw [second.kept addressable isOpen fun inside => absurd inside.1 (Nat.not_le.mpr early)]
      exact first.written fits low early
    · exact second.written fits (Nat.le_of_not_lt early) high

end Advanced

section Loops

variable {mmu : Mmu} {frames : Frames} (system : System) {m : Target} {kernel : Bool}

/-- The loop over one L3 table, that the walk of its addresses reaches. -/
theorem mapL3_advanced (pages : m.Pages) (within : m.Within mmu kernel) {p : Progress}
    (sound : Sound mmu frames p.st) (isAt : m.At p.va p.pte) (more : p.va < m.last) {l3 : Nat}
    (reached : Radix.descend child p.st.memory (p.st.root kernel) (pathOf mmu p.va) = some l3) :
    let c := mapL3 mmu l3 m.last NPTE_PTBL ⟨mmu.l3Idx p.va, p.va, p.pte, p.st.memory⟩
    Advanced mmu frames m p ⟨{ p.st with memory := c.memory }, c.va, c.pte⟩ ∧
      (c.va = m.last ∨ c.va = (p.va / 2 ^ 21 + 1) * 2 ^ 21) := by
  intro c
  obtain ⟨addressable, isTree, isOpen⟩ := within p.va isAt.start_le more
  have aligned := isAt.aligned
  have size : NPTE_PTBL = 512 := rfl
  have l3Idx := mmu.l3Idx_eq p.va
  obtain ⟨stored, ends⟩ := mapL3_stored mmu l3 pages NPTE_PTBL
    ⟨mmu.l3Idx p.va, p.va, p.pte, p.st.memory⟩ isAt (Nat.sub_le _ _) (by dsimp only; omega)
    (by dsimp only; omega)
  have l3i := stored.l3i_le
  have upTo := stored.l3i_le_size
  have va := stored.va_eq
  change c.l3i = NPTE_PTBL ∨ c.va = m.last at ends
  change mmu.l3Idx p.va ≤ c.l3i at l3i
  change c.l3i ≤ NPTE_PTBL at upTo
  change c.va = p.va + 2 ^ 12 * (c.l3i - mmu.l3Idx p.va) at va
  have plain : Plain mmu kernel (pathOf mmu p.va) := isTree ▸ isOpen
  have paths := plain_paths mmu
  have others : ∀ other, other ≠ l3 → c.memory other = p.st.memory other := by
    intro other different
    funext index
    exact stored.kept fun inside => different inside.1
  have after : Radix.descend child c.memory (p.st.root kernel) (pathOf mmu p.va) = some l3 :=
    (sound.forest.descend_bottom paths plain rfl reached others plain (Nat.le_refl 2)).trans
      reached
  refine ⟨⟨sound.store plain rfl reached others, ⟨rfl, ?_, rfl⟩, stored.isAt, ?_, ?_, ?_⟩, ?_⟩
  · intro kernel' path' table plain' short way
    exact (sound.forest.descend_bottom paths plain rfl reached others plain' short).trans way
  · dsimp only
    rw [va]
    exact Nat.le_add_right _ _
  · intro v addressable' isOpen' outside
    dsimp only at outside
    by_cases same : isKernel mmu v = kernel ∧ pathOf mmu v = pathOf mmu p.va
    · obtain ⟨tree, path⟩ := same
      have table := sameTable addressable' addressable (tree.trans isTree.symm) path
      have index := mmu.l3Idx_eq v
      have before : p.st.entryAt mmu v = p.st.memory l3 (mmu.l3Idx v) := by
        rw [State.entryAt, State.leaf, tree, path]
        exact Radix.Forest.leaf_of_reached reached
      have entry : State.entryAt mmu { p.st with memory := c.memory } v =
          c.memory l3 (mmu.l3Idx v) := by
        rw [State.entryAt, State.leaf, tree, path]
        exact Radix.Forest.leaf_of_reached after
      rw [entry, before]
      apply stored.kept
      rintro ⟨-, low, high⟩
      dsimp only at low
      change mmu.l3Idx v < c.l3i at high
      omega
    · exact sound.forest.leaf_bottom paths plain rfl reached others isOpen' rfl (mmu.l3Idx v) same
  · intro fits v low high
    dsimp only at high
    obtain ⟨addressable', tree, -⟩ :=
      within v (isAt.start_le.trans low) (high.trans_le stored.isAt.le_last)
    have table : v / 2 ^ 21 = p.va / 2 ^ 21 := by omega
    have index := mmu.l3Idx_eq v
    have entry : State.entryAt mmu { p.st with memory := c.memory } v =
        c.memory l3 (mmu.l3Idx v) := by
      rw [State.entryAt, State.leaf, tree, pathOf_congr table]
      exact Radix.Forest.leaf_of_reached after
    have page : p.va + 2 ^ 12 * (mmu.l3Idx v - mmu.l3Idx p.va) = v / 2 ^ 12 * 2 ^ 12 := by omega
    rw [entry, ← page]
    apply stored.written fits
    · change mmu.l3Idx p.va ≤ mmu.l3Idx v
      omega
    · change mmu.l3Idx v < c.l3i
      omega
  · rcases ends with whole | done
    · right
      omega
    · exact Or.inl done

/-- The loop over an L2 table takes tables, and gives none back. -/
theorem le_mapL2 (frames : Frames) (system : System) (l2 last rounds l2i : Nat) (p : Progress) :
    p.st.taken ≤ (mapL2 mmu frames system l2 last rounds l2i p).st.taken := by
  induction rounds generalizing l2i p with
  | zero => exact Nat.le_refl _
  | succ rounds ih =>
      rw [mapL2]
      split
      case isTrue =>
        refine (le_ensureTable mmu frames system l2 l2i p.st).trans ?_
        dsimp only
        generalize mapL3 mmu _ _ _ _ = c
        exact ih (l2i + 1)
          ⟨{ ensureTable mmu frames system l2 l2i p.st with memory := c.memory }, c.va, c.pte⟩
      case isFalse => exact Nat.le_refl _

/-- The loop over the L1 table takes tables, and gives none back. -/
theorem le_mapL1 (frames : Frames) (system : System) (l1 last rounds l1i : Nat) (p : Progress) :
    p.st.taken ≤ (mapL1 mmu frames system l1 last rounds l1i p).st.taken := by
  induction rounds generalizing l1i p with
  | zero => exact Nat.le_refl _
  | succ rounds ih =>
      rw [mapL1]
      split
      case isTrue =>
        have table : _ ≤ (mapL2 mmu _ _ _ _ _ _ _).st.taken := le_mapL2 frames system
          (ptpPaddr ((ensureTable mmu frames system l1 l1i p.st).memory l1 l1i)) last NPTE_PTBL
          (mmu.l2Idx p.va) { p with st := ensureTable mmu frames system l1 l1i p.st }
        exact ((le_ensureTable mmu frames system l1 l1i p.st).trans table).trans (ih _ _)
      case isFalse => exact Nat.le_refl _

/-- One entry of an L2 table, that the walk of the L1 table reaches. -/
theorem mapL2_entry (pages : m.Pages) (within : m.Within mmu kernel) {p : Progress}
    (sound : Sound mmu frames p.st) (isAt : m.At p.va p.pte) (more : p.va < m.last) {l2 : Nat}
    (reached : Radix.descend child p.st.memory (p.st.root kernel) [mmu.l1Idx p.va] = some l2)
    (left : (ensureTable mmu frames system l2 (mmu.l2Idx p.va) p.st).taken ≤ frames.count) :
    let st := ensureTable mmu frames system l2 (mmu.l2Idx p.va) p.st
    let c := mapL3 mmu (ptpPaddr (st.memory l2 (mmu.l2Idx p.va))) m.last NPTE_PTBL
      ⟨mmu.l3Idx p.va, p.va, p.pte, st.memory⟩
    Advanced mmu frames m p ⟨{ st with memory := c.memory }, c.va, c.pte⟩ ∧
      (c.va = m.last ∨ c.va = (p.va / 2 ^ 21 + 1) * 2 ^ 21) := by
  intro st c
  obtain ⟨-, isTree, isOpen⟩ := within p.va isAt.start_le more
  have plain : Plain mmu kernel ([mmu.l1Idx p.va] ++ [mmu.l2Idx p.va]) := isTree ▸ isOpen
  obtain ⟨sound', grows, way, kept⟩ := sound.ensure system plain Nat.one_lt_two reached left
  obtain ⟨stored, ends⟩ := mapL3_advanced (p := ⟨st, p.va, p.pte⟩) pages within sound' isAt more way
  have ensured : Advanced mmu frames m p ⟨st, p.va, p.pte⟩ := by
    refine ⟨sound', grows, isAt, Nat.le_refl _, ?_, ?_⟩
    · intro v _ isOpen' _
      exact kept (mmu.l3Idx v) isOpen' rfl
    · intro _ v low high
      exact absurd high (Nat.not_lt.mpr low)
  exact ⟨ensured.trans within isAt stored, ends⟩

/-- The loop over an L2 table: `part` is the number of its 1 GB. -/
theorem mapL2_advanced (pages : m.Pages) (within : m.Within mmu kernel) {l2 : Nat} (part : Nat)
    (rounds l2i : Nat) (p : Progress) (sound : Sound mmu frames p.st) (isAt : m.At p.va p.pte)
    (reached : Radix.descend child p.st.memory (p.st.root kernel) [part % 512] = some l2)
    (enough : NPTE_PTBL - l2i ≤ rounds) (size : l2i ≤ NPTE_PTBL)
    (here : p.va = m.last ∨ p.va / 2 ^ 21 = 512 * part + l2i)
    (left : (mapL2 mmu frames system l2 m.last rounds l2i p).st.taken ≤ frames.count) :
    let p' := mapL2 mmu frames system l2 m.last rounds l2i p
    Advanced mmu frames m p p' ∧ (p'.va = m.last ∨ p'.va / 2 ^ 30 = part + 1) := by
  have entries : NPTE_PTBL = 512 := rfl
  induction rounds generalizing l2i p with
  | zero =>
      refine ⟨Advanced.refl sound isAt, ?_⟩
      change p.va = m.last ∨ p.va / 2 ^ 30 = part + 1
      omega
  | succ rounds ih =>
      intro p'
      by_cases more : l2i < NPTE_PTBL ∧ p.va < m.last
      · have step : p' = _ := if_pos more
        obtain ⟨room, more⟩ := more
        have l1Idx := mmu.l1Idx_eq p.va
        have l2Idx := mmu.l2Idx_eq p.va
        have index1 : part % 512 = mmu.l1Idx p.va := by omega
        have index2 : l2i = mmu.l2Idx p.va := by omega
        rw [index1] at reached
        change p'.st.taken ≤ _ at left
        rw [step] at left
        have table := (le_mapL2 frames system _ _ _ _ _).trans left
        rw [index2] at table
        obtain ⟨first, ends⟩ := mapL2_entry system pages within sound isAt more reached table
        have plain : Plain mmu kernel [mmu.l1Idx p.va] := by
          obtain ⟨-, isTree, isOpen⟩ := within p.va isAt.start_le more
          have both : Plain mmu kernel ([mmu.l1Idx p.va] ++ [mmu.l2Idx p.va]) := isTree ▸ isOpen
          exact (plain_paths mmu).init both
        have way := first.grows.ways plain (Nat.le_succ 1) reached
        rw [← index1] at way
        rw [← index2] at first ends way
        obtain ⟨rest, done⟩ := ih (l2i + 1) _ first.sound first.isAt way (by omega) room
          (by dsimp only; omega) left
        rw [step]
        exact ⟨first.trans within isAt rest, done⟩
      · have step : p' = p := if_neg more
        have upTo := isAt.le_last
        rw [step]
        refine ⟨Advanced.refl sound isAt, ?_⟩
        omega

/-- The loop over the L1 table: `base` is the number of the first 1 GB of its tree. -/
theorem mapL1_advanced (pages : m.Pages) (within : m.Within mmu kernel) (base : Nat)
    (tree : base % 512 = 0) (rounds l1i : Nat) (p : Progress) (sound : Sound mmu frames p.st)
    (isAt : m.At p.va p.pte) (enough : NPTE_PTBL - l1i ≤ rounds) (size : l1i ≤ NPTE_PTBL)
    (here : p.va = m.last ∨ p.va / 2 ^ 30 = base + l1i)
    (left : (mapL1 mmu frames system (p.st.root kernel) m.last rounds l1i p).st.taken ≤
      frames.count) :
    let p' := mapL1 mmu frames system (p.st.root kernel) m.last rounds l1i p
    Advanced mmu frames m p p' ∧ (p'.va = m.last ∨ p'.va / 2 ^ 30 = base + 512) := by
  have entries : NPTE_PTBL = 512 := rfl
  induction rounds generalizing l1i p with
  | zero =>
      refine ⟨Advanced.refl sound isAt, ?_⟩
      change p.va = m.last ∨ p.va / 2 ^ 30 = base + 512
      omega
  | succ rounds ih =>
      intro p'
      by_cases more : l1i < NPTE_PTBL ∧ p.va < m.last
      · have step : p' = _ := if_pos more
        obtain ⟨room, more⟩ := more
        have l1Idx := mmu.l1Idx_eq p.va
        have l2Idx := mmu.l2Idx_eq p.va
        have index : l1i = mmu.l1Idx p.va := by omega
        obtain ⟨-, isTree, isOpen⟩ := within p.va isAt.start_le more
        have both : Plain mmu kernel ([mmu.l1Idx p.va] ++ [mmu.l2Idx p.va]) := isTree ▸ isOpen
        have plain : Plain mmu kernel ([] ++ [l1i]) := index ▸ (plain_paths mmu).init both
        have root : Radix.descend child p.st.memory (p.st.root kernel) [] =
            some (p.st.root kernel) := rfl
        change p'.st.taken ≤ _ at left
        rw [step] at left
        have below := (le_mapL1 frames system _ _ _ _ _).trans left
        obtain ⟨sound', grows, way, kept⟩ := sound.ensure system plain Nat.zero_lt_two root
          ((le_mapL2 frames system _ _ _ _ _).trans below)
        have ensured : Advanced mmu frames m p
            ⟨ensureTable mmu frames system (p.st.root kernel) l1i p.st, p.va, p.pte⟩ := by
          refine ⟨sound', grows, isAt, Nat.le_refl _, ?_, ?_⟩
          · intro v _ isOpen' _
            exact kept (mmu.l3Idx v) isOpen' rfl
          · intro _ v low high
            exact absurd high (Nat.not_lt.mpr low)
        have path : [] ++ [l1i] = [p.va / 2 ^ 30 % 512] := by
          rw [List.nil_append, ← l1Idx, index]
        rw [path] at way
        obtain ⟨table, ends⟩ := mapL2_advanced system pages within (p.va / 2 ^ 30) NPTE_PTBL
          (mmu.l2Idx p.va) ⟨ensureTable mmu frames system (p.st.root kernel) l1i p.st, p.va, p.pte⟩
          sound' isAt way (Nat.sub_le _ _) (by omega) (by dsimp only; omega) below
        have first := ensured.trans within isAt table
        have roots := first.grows.roots
        obtain ⟨rest, done⟩ := ih (l1i + 1) _ first.sound first.isAt (by omega) room (by omega)
          (by rw [roots]; exact left)
        rw [roots] at rest done
        rw [step]
        exact ⟨first.trans within isAt rest, done⟩
      · have step : p' = p := if_neg more
        have upTo := isAt.le_last
        rw [step]
        refine ⟨Advanced.refl sound isAt, ?_⟩
        omega

end Loops

end Bcm2711.Startup.PageTables
