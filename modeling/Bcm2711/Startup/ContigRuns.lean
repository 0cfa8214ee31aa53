import Bcm2711.Startup.Translation

/-! # Contiguous runs of pages

`aarch64_map` marks the descriptors of an aligned run of 16 pages that it maps on an aligned run.
A later call that maps a part of such a run leaves the marks of the other pages as they are.
-/

namespace Bcm2711.Startup.PageTables

open Word

/-- The bit `AARCH64_PTE_CONTIG` of a descriptor is set. -/
def Marked (mmu : Mmu) (entry : Nat) : Prop := entry &&& mmu.pteContig ≠ 0

/-- The bits of a descriptor below and above the address. -/
def attributesOf (entry : Nat) : Nat × Nat := (entry % 2 ^ 12, entry / 2 ^ 48)

/-- A page of the run of an address. -/
def pageOf (vaddr i : Nat) : Nat := Target.group vaddr + i * PAGESIZE

/-- The entries of the run of an address are valid and marked, have the same attributes, and map
pages that follow each other from an aligned one on. -/
def Contiguous (mmu : Mmu) (st : State) (vaddr : Nat) : Prop :=
  ∃ attributes frame, frame % (CONTIG_PAGES * PAGESIZE) = 0 ∧ ∀ i < CONTIG_PAGES,
    IsTable mmu (st.entryAt mmu (pageOf vaddr i)) ∧
      Marked mmu (st.entryAt mmu (pageOf vaddr i)) ∧
      attributesOf (st.entryAt mmu (pageOf vaddr i)) = attributes ∧
      ptpPaddr (st.entryAt mmu (pageOf vaddr i)) = frame + i * PAGESIZE

/-- Every mark is that of a contiguous run. -/
def MarksHold (mmu : Mmu) (st : State) : Prop :=
  ∀ vaddr, Addressable mmu vaddr → Open mmu vaddr → Marked mmu (st.entryAt mmu vaddr) →
    Contiguous mmu st vaddr

namespace Request

variable (q : Request)

/-- The physical pages are in the addresses that a descriptor can hold. -/
def Storable : Prop := q.frame + q.span ≤ 2 ^ 48

instance : Decidable q.Storable := inferInstanceAs (Decidable (_ ≤ _))

/-- The call maps the page. -/
def Covers (st : State) (page : Nat) : Prop := q.start st ≤ page ∧ page < q.last st

/-- Each marked run is mapped as a whole or not at all. -/
def KeepsRuns (mmu : Mmu) (st : State) : Prop :=
  ∀ vaddr, Addressable mmu vaddr → Open mmu vaddr → Marked mmu (st.entryAt mmu vaddr) →
    (∀ i < CONTIG_PAGES, ¬ q.Covers st (pageOf vaddr i)) ∨
      ∀ i < CONTIG_PAGES, q.Covers st (pageOf vaddr i)

end Request

/-- Runs of calls that all keep the marked runs. -/
inductive KeepingRun (mmu : Mmu) (frames : Frames) : State → Prop where
  | init (system : System) (left : 3 ≤ frames.count) :
      KeepingRun mmu frames (aarch64MapInit mmu frames system)
  | map {system : System} {q : Request} {st st' : State} {vaddr : Nat}
      (before : KeepingRun mmu frames st) (avoids : q.Avoids mmu st) (storable : q.Storable)
      (keeps : q.KeepsRuns mmu st)
      (mapped : aarch64Map mmu frames system q st = some (vaddr, st')) : KeepingRun mmu frames st'

/-! ## Runs of addresses -/

section Runs

variable {mmu : Mmu} {u v i : Nat}

theorem marked_iff (mmu : Mmu) (entry : Nat) : Marked mmu entry ↔ entry / 2 ^ 52 % 2 = 1 := by
  have field : entry &&& 2 ^ 52 = entry / 2 ^ 52 % 2 * 2 ^ 52 := and_field entry 1 52
  rw [Marked, mmu.pteContig_eq, field]
  omega

theorem not_marked_zero (mmu : Mmu) : ¬ Marked mmu 0 := by
  rw [Marked, Nat.zero_and]
  exact fun nonzero => nonzero rfl

theorem pageOf_bounds (inside : i < CONTIG_PAGES) :
    Target.group v ≤ pageOf v i ∧
      pageOf v i + PAGESIZE ≤ Target.group v + CONTIG_PAGES * PAGESIZE := by
  rw [CONTIG_PAGES] at inside
  rw [pageOf, CONTIG_PAGES, PAGESIZE]
  constructor
  · exact Nat.le_add_right _ _
  · omega

theorem group_pageOf (inside : i < CONTIG_PAGES) :
    Target.group (pageOf v i) = Target.group v := by
  rw [CONTIG_PAGES] at inside
  rw [Target.group, Target.group, pageOf, Target.group, PAGESIZE]
  omega

/-- The page of an address is one of its run. -/
theorem exists_pageOf (v : Nat) : ∃ i < CONTIG_PAGES, pageOf v i = v / 2 ^ 12 * 2 ^ 12 := by
  refine ⟨v % 2 ^ 16 / 2 ^ 12, ?_, ?_⟩
  · rw [CONTIG_PAGES]
    omega
  · rw [pageOf, Target.group, PAGESIZE]
    omega

theorem pageOf_page (v i : Nat) : pageOf v i / 2 ^ 12 * 2 ^ 12 = pageOf v i := by
  rw [pageOf, Target.group, PAGESIZE]
  omega

theorem isKernel_congr (first : Addressable mmu u) (second : Addressable mmu v)
    (same : u / 2 ^ 21 = v / 2 ^ 21) : isKernel mmu u = isKernel mmu v := by
  rcases first.bounds with ⟨low, bound⟩ | ⟨high, bound⟩ <;>
    rcases second.bounds with ⟨low', bound'⟩ | ⟨high', bound'⟩
  · rw [low, low']
  · omega
  · omega
  · rw [high, high']

theorem Open.congr (first : Addressable mmu u) (second : Addressable mmu v)
    (same : u / 2 ^ 21 = v / 2 ^ 21) (isOpen : Open mmu v) : Open mmu u := by
  rw [Open, isKernel_congr first second same, pathOf_congr same]
  exact isOpen

theorem pageOf_table (inside : i < CONTIG_PAGES) : pageOf v i / 2 ^ 21 = v / 2 ^ 21 := by
  rw [CONTIG_PAGES] at inside
  rw [pageOf, Target.group, PAGESIZE]
  omega

end Runs

/-! ## One call -/

section Call

variable {mmu : Mmu} {frames : Frames} {system : System} {q : Request} {st st' : State}
  {m : Target} {vaddr v : Nat}

/-- The mark of a descriptor is that of its run. -/
theorem marked_descriptor (mmu : Mmu) (pages : m.Pages) (fits : m.Fits) (start : m.start ≤ v)
    (last : v < m.last) : Marked mmu (m.descriptor v) ↔ m.Grouped v := by
  have bits := pages.bits.2
  rw [Target.Fits] at fits
  rw [marked_iff, Target.descriptor]
  by_cases grouped : m.Grouped v
  · rw [if_pos grouped]
    refine iff_of_true ?_ grouped
    omega
  · rw [if_neg grouped]
    refine iff_of_false ?_ grouped
    omega

/-- A run that a call maps as a whole on an aligned run is contiguous. -/
theorem contiguous_of_grouped (pages : m.Pages) (fits : m.Fits)
    (valid : m.bits &&& mmu.pteValid = mmu.pteValid) (maps : Maps mmu frames m st st')
    (grouped : m.Grouped v) : Contiguous mmu st' v := by
  obtain ⟨start, last, aligned⟩ := grouped
  have bits := pages.bits.2
  have bound : m.frame + (m.last - m.start) ≤ 2 ^ 48 := fits
  have run : CONTIG_PAGES * PAGESIZE = 2 ^ 16 := rfl
  refine ⟨attributesOf (m.bits + 2 ^ 52), m.frame + (Target.group v - m.start), ?_, ?_⟩
  · rw [run]
    exact aligned
  intro i inside
  obtain ⟨low, high⟩ := pageOf_bounds (v := v) inside
  have page : 0 < PAGESIZE := by decide
  have isStart : m.start ≤ pageOf v i := start.trans low
  have isLast : pageOf v i < m.last := by omega
  have samePage := pageOf_page v i
  have entry := maps.written fits isStart isLast
  rw [samePage] at entry
  have wholePage : 2 ^ 12 ∣ pageOf v i := by
    rw [← samePage]
    exact Nat.dvd_mul_left _ _
  have inRun : m.Grouped (pageOf v i) := by
    rw [Target.Grouped, group_pageOf inside]
    exact ⟨start, last, aligned⟩
  obtain ⟨isTable, frame⟩ := descriptor_spec mmu pages fits valid isStart isLast wholePage
  rw [entry]
  refine ⟨isTable, (marked_descriptor mmu pages fits isStart isLast).mpr inRun, ?_, ?_⟩
  · have startPage := pages.start
    have framePage := pages.frame
    rw [Target.descriptor, if_pos inRun, attributesOf, attributesOf, Prod.mk.injEq]
    constructor
    · omega
    · omega
  · rw [frame, pageOf]
    omega

/-- Every mark is that of a contiguous run, all of whose pages are in the address space. -/
structure Marks (mmu : Mmu) (st : State) : Prop where
  hold : MarksHold mmu st
  addressable : ∀ vaddr, Addressable mmu vaddr → Open mmu vaddr →
    Marked mmu (st.entryAt mmu vaddr) → ∀ i < CONTIG_PAGES, Addressable mmu (pageOf vaddr i)

theorem fits_of_storable (storable : q.Storable)
    (mapped : aarch64Map mmu frames system q st = some (vaddr, st')) :
    (q.targetOf mmu system st).Fits := by
  obtain ⟨-, order, -⟩ := aarch64Map_cases mapped
  have last := q.last_eq st order
  rw [Request.Storable] at storable
  change q.frame + (q.last st - q.start st) ≤ 2 ^ 48
  omega

/-- What a page of the call is marked for. -/
theorem marked_of_mapped (maps : Maps mmu frames (q.targetOf mmu system st) st st')
    (fits : (q.targetOf mmu system st).Fits)
    (low : q.start st ≤ v) (high : v < q.last st) :
    Marked mmu (st'.entryAt mmu v) ↔ (q.targetOf mmu system st).Grouped v := by
  have pages := q.pages mmu system st
  have startPage := q.start_dvd st
  have pageLow : q.start st ≤ v / 2 ^ 12 * 2 ^ 12 := by omega
  have pageHigh : v / 2 ^ 12 * 2 ^ 12 < q.last st := (Nat.div_mul_le_self _ _).trans_lt high
  have sameRun : Target.group (v / 2 ^ 12 * 2 ^ 12) = Target.group v := by
    rw [Target.group, Target.group]
    omega
  rw [maps.written fits low high, marked_descriptor mmu pages fits pageLow pageHigh,
    Target.Grouped, Target.Grouped, sameRun]

/-- A call that keeps the marked runs leaves every mark right. -/
theorem marks_of_keeps (sound : Sound mmu frames st) (marks : Marks mmu st)
    (avoids : q.Avoids mmu st) (storable : q.Storable) (keeps : q.KeepsRuns mmu st)
    (mapped : aarch64Map mmu frames system q st = some (vaddr, st')) : Marks mmu st' := by
  have maps := maps_of_mapped sound mapped avoids
  have within := within_of_mapped mapped avoids
  have fits := fits_of_storable storable mapped
  have pages := q.pages mmu system st
  have each : ∀ v, Addressable mmu v → Open mmu v → Marked mmu (st'.entryAt mmu v) →
      Contiguous mmu st' v ∧ ∀ i < CONTIG_PAGES, Addressable mmu (pageOf v i) := by
    intro v addressable isOpen marked
    by_cases inside : q.start st ≤ v ∧ v < q.last st
    · have grouped := (marked_of_mapped maps fits inside.1 inside.2).mp marked
      refine ⟨contiguous_of_grouped pages fits (pteBits_valid mmu system q.flags) maps grouped, ?_⟩
      intro i small
      obtain ⟨start, last, -⟩ := grouped
      obtain ⟨low, high⟩ := pageOf_bounds (v := v) small
      have page : 0 < PAGESIZE := by decide
      have run : CONTIG_PAGES * PAGESIZE = 2 ^ 16 := rfl
      exact (within _ (start.trans low) (by omega)).1
    · rw [maps.kept addressable isOpen inside] at marked
      have inSpace := marks.addressable v addressable isOpen marked
      refine ⟨?_, inSpace⟩
      obtain ⟨attributes, frame, aligned, entries⟩ := marks.hold v addressable isOpen marked
      refine ⟨attributes, frame, aligned, ?_⟩
      intro i small
      have outside : ¬ q.Covers st (pageOf v i) := by
        rcases keeps v addressable isOpen marked with none | all
        · exact none i small
        · obtain ⟨j, small', isPage⟩ := exists_pageOf v
          have covered := all j small'
          have lastPage := pages.last
          change 2 ^ 12 ∣ q.last st at lastPage
          rw [isPage, Request.Covers] at covered
          exact absurd ⟨covered.1.trans (Nat.div_mul_le_self _ _), by omega⟩ inside
      have pageOpen := Open.congr (inSpace i small) addressable (pageOf_table small) isOpen
      rw [maps.kept (inSpace i small) pageOpen outside]
      exact entries i small
  exact ⟨fun v addressable isOpen marked => (each v addressable isOpen marked).1,
    fun v addressable isOpen marked => (each v addressable isOpen marked).2⟩

end Call

/-! ## Runs of calls -/

section Calls

variable {mmu : Mmu} {frames : Frames} {system : System} {st : State}

/-- At first no page is mapped. -/
theorem not_marked_init (left : 3 ≤ frames.count) {v : Nat} (isOpen : Open mmu v) :
    ¬ Marked mmu ((aarch64MapInit mmu frames system).entryAt mmu v) := by
  have empty : (aarch64MapInit mmu frames system).entryAt mmu v = 0 := by
    rw [State.entryAt, State.leaf, Radix.Forest.leaf]
    cases way : Radix.descend child (aarch64MapInit mmu frames system).memory
        ((aarch64MapInit mmu frames system).root (isKernel mmu v)) (pathOf mmu v) with
    | none => rfl
    | some table =>
        rcases init_ways left isOpen way with ⟨-, path, -⟩ | ⟨-, path, -⟩ | ⟨-, path, -⟩
        · cases path
        · cases path
        · have lengths : 2 = 1 := congrArg List.length path
          exact absurd lengths (by decide)
  rw [empty]
  exact not_marked_zero mmu

theorem marks_init (left : 3 ≤ frames.count) : Marks mmu (aarch64MapInit mmu frames system) where
  hold _ _ isOpen marked := absurd marked (not_marked_init left isOpen)
  addressable _ _ isOpen marked := absurd marked (not_marked_init left isOpen)

theorem KeepingRun.reaches (run : KeepingRun mmu frames st) : Reaches mmu frames st := by
  induction run with
  | init system left => exact .init system left
  | map before avoids storable keeps mapped reaches => exact .map reaches avoids mapped

theorem KeepingRun.marks (run : KeepingRun mmu frames st) : Marks mmu st := by
  induction run with
  | init system left => exact marks_init left
  | map before avoids storable keeps mapped marks =>
      exact marks_of_keeps before.reaches.sound marks avoids storable keeps mapped

end Calls

/-- A system page of 64 KB, wherever there is room for it. -/
def Request.syspage : Request := ⟨none, 0x80000000, 0x10000, protRw⟩

/-- Its last page, which holds the callouts, to be read and executed only. -/
def Request.callouts : Request :=
  ⟨some 0xffffff806000f000, 0x8000f000, 0x1000, ⟨false, false, true, false, false⟩⟩

section Syspage

end Syspage

end Bcm2711.Startup.PageTables
