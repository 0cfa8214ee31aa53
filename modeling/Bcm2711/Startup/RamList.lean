import Bcm2711.Lib.SlotArray
import Bcm2711.Lib.Spans
import Bcm2711.Startup.Types

/-! # The table of free RAM

`ram_list` is an array of `ram_entry` ended by an entry of size zero, and
`ram_list_size` counts its bytes, the terminator included.  `add_mem` opens a gap,
writes the new entry and merges neighbours in place; the first loop of `alloc_ram`
deletes, trims and splits entries while it walks the array, re-entering `add_mem`
for the second half of a split.

The array refines lists of spans: `Stores` says which spans it holds, and each loop
computes the corresponding list operation of `Spans`.
-/

namespace Bcm2711.Startup

open Spans

/-- `struct ram_entry`. -/
structure RamEntry where
  addr : Nat
  size : Nat
deriving DecidableEq, Repr

/-- `ram_list` and `ram_list_size`. -/
structure RamTable where
  ramList : Nat → RamEntry
  ramListSize : Nat

/-- `sizeof(struct ram_entry)`. -/
def sizeofRamEntry : Nat := 16

/-- `MAX_RAM_LIST_SIZE`, in bytes. -/
def maxRamListSize : Nat := 3 * 1024

/-- `crash("RAM entry array overflow\n")`. -/
def ramEntryOverflow : Halt := .crash "RAM entry array overflow\n"

namespace RamTable

/-- `memmove(&ram[slot], &ram[slot + 1], ram_list_size - PTR_DIFF(&ram[slot + 1], ram))`
and the shrinking of `ram_list_size`. -/
def deleteEntry (ram : RamTable) (slot : Nat) : RamTable where
  ramList := SlotArray.move ram.ramList slot (slot + 1)
    ((ram.ramListSize - sizeofRamEntry * (slot + 1)) / sizeofRamEntry)
  ramListSize := ram.ramListSize - sizeofRamEntry

/-- `memmove(&ram[slot + 1], &ram[slot], ram_list_size - PTR_DIFF(&ram[slot], ram))`, the
growing of `ram_list_size` and the store into the gap. -/
def insertEntry (ram : RamTable) (slot : Nat) (entry : RamEntry) : RamTable where
  ramList := Function.update (SlotArray.move ram.ramList (slot + 1) slot
    ((ram.ramListSize - sizeofRamEntry * slot) / sizeofRamEntry)) slot entry
  ramListSize := ram.ramListSize + sizeofRamEntry

/-- A store to `ram[slot]`. -/
def setEntry (ram : RamTable) (slot : Nat) (entry : RamEntry) : RamTable where
  ramList := Function.update ram.ramList slot entry
  ramListSize := ram.ramListSize

end RamTable

/-- The first loop of `add_mem`: the slot of the first entry that starts after `start`. -/
def findSlot (ram : RamTable) (start : Nat) : (fuel slot : Nat) → Result Nat
  | 0, _ => .error .stuck
  | fuel + 1, slot =>
      if (ram.ramList slot).size = 0 then .ok slot
      else if (ram.ramList slot).addr > start then .ok slot
      else findSlot ram start fuel (slot + 1)

/-- The second loop of `add_mem`: merge each entry that its predecessor reaches. -/
def mergeEntries : (fuel : Nat) → RamTable → (slot : Nat) → Result RamTable
  | 0, _, _ => .error .stuck
  | fuel + 1, ram, slot =>
      let entry := ram.ramList slot
      let previous := ram.ramList (slot - 1)
      if entry.size = 0 then .ok ram
      else
        let e := addPaddr previous.addr previous.size
        let s := entry.addr
        if s ≤ e then
          let e := max e (addPaddr s entry.size)
          let ram := ram.deleteEntry slot
          -- `--r` steps back to the predecessor, the loop's `r++` returns to this slot.
          mergeEntries fuel
            (ram.setEntry (slot - 1) ⟨previous.addr, subPaddr e previous.addr⟩) slot
        else mergeEntries fuel ram (slot + 1)

/-- `add_mem`. -/
def addMem (ram : RamTable) (start size : Nat) : Result RamTable :=
  if size > 0 then
    match findSlot ram start ram.ramListSize 0 with
    | .error halt => .error halt
    | .ok slot =>
        if ram.ramListSize > maxRamListSize - sizeofRamEntry then .error ramEntryOverflow
        else
          let ram := ram.insertEntry slot ⟨start, size⟩
          mergeEntries ram.ramListSize ram 1
  else .ok ram

/-- The loop of `alloc_ram` over `ram_list`, for the range from `addr` up to `stop`
(the source's `end`). -/
def removeRange (addr stop : Nat) : (fuel : Nat) → RamTable → (slot : Nat) → Result RamTable
  | 0, _, _ => .error .stuck
  | fuel + 1, ram, slot =>
      let entry := ram.ramList slot
      if entry.size = 0 then .ok ram
      else
        let s := entry.addr
        let e := addPaddr s entry.size
        if (addr ≤ s ∧ stop > s) ∨ (addr ≥ s ∧ addr < e) ∨ (stop ≥ s ∧ stop < e) then
          let e := max e stop
          let s := min s addr
          if addr = s ∧ stop = e then
            -- `--r` and the loop's `r++` stay at the slot the next entry moved into.
            removeRange addr stop fuel (ram.deleteEntry slot) slot
          else if addr = s then
            removeRange addr stop fuel (ram.setEntry slot ⟨stop, subPaddr e stop⟩) (slot + 1)
          else
            let ram := ram.setEntry slot ⟨entry.addr, subPaddr addr s⟩
            if e ≠ stop then
              match addMem ram stop (subPaddr e stop) with
              | .error halt => .error halt
              | .ok ram => removeRange addr stop fuel ram (slot + 1)
            else removeRange addr stop fuel ram (slot + 1)
        else removeRange addr stop fuel ram (slot + 1)

/-- The part of `alloc_ram` that takes `[addr, addr + size)` out of `ram_list`. -/
def removeRam (ram : RamTable) (addr size : Nat) : Result RamTable :=
  removeRange addr (addPaddr addr size) ram.ramListSize ram 0

/-! ## The spans a table stores -/

/-- The entry that stores a span. -/
def RamEntry.ofSpan (span : Span Nat) : RamEntry := ⟨span.lo, span.hi - span.lo⟩

/-- An entry of size zero ends the array. -/
def RamEntry.Ended (entry : RamEntry) : Prop := entry.size = 0

/-- The table stores these nonempty, non-wrapping spans, in order, and its byte count
includes the terminator. -/
structure RamTable.Stores (ram : RamTable) (spans : List (Span Nat)) : Prop where
  holds : SlotArray.Holds RamEntry.Ended ram.ramList (spans.map RamEntry.ofSpan)
  bytes : ram.ramListSize = sizeofRamEntry * (spans.length + 1)
  fits : ∀ span ∈ spans, span.hi < 2 ^ 64

variable {ram : RamTable}

namespace RamTable.Stores

theorem proper {spans : List (Span Nat)} (stores : ram.Stores spans) :
    ∀ span ∈ spans, span.lo < span.hi := by
  intro span member
  have live := stores.holds.live _ (List.mem_map_of_mem member)
  simp only [RamEntry.Ended, RamEntry.ofSpan] at live
  omega

/-- The slot behind the stored spans ends the array. -/
theorem terminated {spans : List (Span Nat)} (stores : ram.Stores spans) :
    (ram.ramList spans.length).size = 0 := by
  have ended := stores.holds.terminated
  rwa [List.length_map] at ended

/-- The entry stored for a span. -/
theorem entry_eq {front back : List (Span Nat)} {span : Span Nat}
    (stores : ram.Stores (front ++ span :: back)) :
    ram.ramList front.length = RamEntry.ofSpan span := by
  have holds := stores.holds
  rw [List.map_append, List.map_cons] at holds
  simpa only [List.length_map] using holds.slot_eq

theorem size_ne_zero {front back : List (Span Nat)} {span : Span Nat}
    (stores : ram.Stores (front ++ span :: back)) : (ram.ramList front.length).size ≠ 0 := by
  rw [stores.entry_eq]
  have := stores.proper span (by simp)
  simp only [RamEntry.ofSpan]
  omega

/-- The end the code computes for a stored span does not wrap. -/
theorem stop_eq {front back : List (Span Nat)} {span : Span Nat}
    (stores : ram.Stores (front ++ span :: back)) :
    addPaddr span.lo (span.hi - span.lo) = span.hi := by
  have proper := stores.proper span (by simp)
  have fits := stores.fits span (by simp)
  rw [addPaddr_of_lt (by omega)]
  omega

theorem setEntry {front back : List (Span Nat)} {span value : Span Nat}
    (stores : ram.Stores (front ++ span :: back)) (proper : value.lo < value.hi)
    (fits : value.hi < 2 ^ 64) :
    (ram.setEntry front.length (RamEntry.ofSpan value)).Stores (front ++ value :: back) where
  holds := by
    have holds := stores.holds
    rw [List.map_append, List.map_cons] at holds ⊢
    have live : ¬ (RamEntry.ofSpan value).Ended := by
      simp only [RamEntry.Ended, RamEntry.ofSpan]
      omega
    have updated := holds.set live
    rwa [List.length_map] at updated
  bytes := by
    have bytes := stores.bytes
    simpa only [RamTable.setEntry, List.length_append, List.length_cons] using bytes
  fits := by
    intro other member
    have old := stores.fits other
    grind

theorem deleteEntry {front back : List (Span Nat)} {span : Span Nat}
    (stores : ram.Stores (front ++ span :: back)) :
    (ram.deleteEntry front.length).Stores (front ++ back) where
  holds := by
    have holds := stores.holds
    rw [List.map_append, List.map_cons] at holds
    have count : (ram.ramListSize - sizeofRamEntry * (front.length + 1)) / sizeofRamEntry =
        back.length + 1 := by
      rw [stores.bytes]
      simp only [sizeofRamEntry, List.length_append, List.length_cons]
      omega
    have erased := holds.erase
    rw [List.length_map, List.length_map, ← List.map_append] at erased
    simpa only [RamTable.deleteEntry, count] using erased
  bytes := by
    simp only [RamTable.deleteEntry, stores.bytes, sizeofRamEntry, List.length_append,
      List.length_cons]
    omega
  fits := fun other member => stores.fits other (by
    rcases List.mem_append.mp member with inFront | inBack
    · exact List.mem_append_left _ inFront
    · exact List.mem_append_right _ (List.mem_cons_of_mem _ inBack))

theorem insertEntry {front back : List (Span Nat)} {value : Span Nat}
    (stores : ram.Stores (front ++ back)) (proper : value.lo < value.hi)
    (fits : value.hi < 2 ^ 64) :
    (ram.insertEntry front.length (RamEntry.ofSpan value)).Stores (front ++ value :: back) where
  holds := by
    have holds := stores.holds
    rw [List.map_append] at holds
    have live : ¬ (RamEntry.ofSpan value).Ended := by
      simp only [RamEntry.Ended, RamEntry.ofSpan]
      omega
    have count : (ram.ramListSize - sizeofRamEntry * front.length) / sizeofRamEntry =
        back.length + 1 := by
      rw [stores.bytes]
      simp only [sizeofRamEntry, List.length_append]
      omega
    have inserted := holds.insert live
    rw [List.length_map, List.length_map, ← List.map_cons, ← List.map_append] at inserted
    simpa only [RamTable.insertEntry, count] using inserted
  bytes := by
    simp only [RamTable.insertEntry, stores.bytes, sizeofRamEntry, List.length_append,
      List.length_cons]
    omega
  fits := by
    intro other member
    have old := stores.fits other
    grind

end RamTable.Stores

/-! ## Each loop computes a list operation -/

/-- The scan of `add_mem` stops where insertion puts the new span. -/
theorem findSlot_eq {start stop fuel : Nat} {front rest : List (Span Nat)}
    (stores : ram.Stores (front ++ rest)) (enough : rest.length < fuel) :
    ∃ before after, rest = before ++ after ∧
      Spans.insert ⟨start, stop⟩ rest = before ++ ⟨start, stop⟩ :: after ∧
      findSlot ram start fuel front.length = .ok (front ++ before).length := by
  induction rest generalizing front fuel with
  | nil =>
      obtain ⟨fuel, rfl⟩ := Nat.exists_eq_succ_of_ne_zero (Nat.ne_zero_of_lt enough)
      have ended : (ram.ramList front.length).size = 0 := by
        simpa using stores.terminated
      exact ⟨[], [], rfl, rfl, by simp [findSlot, ended]⟩
  | cons span rest ih =>
      obtain ⟨fuel, rfl⟩ := Nat.exists_eq_succ_of_ne_zero (Nat.ne_zero_of_lt enough)
      have stored := stores.entry_eq
      have live := stores.size_ne_zero
      by_cases later : start < span.lo
      · refine ⟨[], span :: rest, rfl, by simp [Spans.insert, later], ?_⟩
        have addr : (ram.ramList front.length).addr = span.lo := by rw [stored]; rfl
        simp [findSlot, live, addr, later]
      · have regrouped : ram.Stores ((front ++ [span]) ++ rest) := by
          simpa using stores
        obtain ⟨before, after, split, inserted, found⟩ :=
          ih regrouped (Nat.lt_of_succ_lt_succ enough)
        refine ⟨span :: before, after, by simp [split], ?_, ?_⟩
        · simp only [Spans.insert, later, ↓reduceIte, inserted, List.cons_append]
        · have addr : (ram.ramList front.length).addr = span.lo := by rw [stored]; rfl
          simp only [findSlot, live, addr, gt_iff_lt, later, ↓reduceIte]
          rw [List.length_append, List.length_singleton] at found
          rw [found]
          simp

/-- The merge loop of `add_mem` coalesces the entries from the running one on. -/
theorem mergeEntries_eq {fuel : Nat} {front rest : List (Span Nat)} {running : Span Nat}
    (stores : ram.Stores (front ++ running :: rest)) (ascending : Ascending (running :: rest))
    (enough : rest.length < fuel) :
    ∃ merged, mergeEntries fuel ram (front.length + 1) = .ok merged ∧
      merged.Stores (front ++ coalesce running rest) := by
  induction rest generalizing ram front running fuel with
  | nil =>
      obtain ⟨fuel, rfl⟩ := Nat.exists_eq_succ_of_ne_zero (Nat.ne_zero_of_lt enough)
      have ended : (ram.ramList (front.length + 1)).size = 0 := by
        simpa using stores.terminated
      exact ⟨ram, by simp [mergeEntries, ended], stores⟩
  | cons next rest ih =>
      obtain ⟨fuel, rfl⟩ := Nat.exists_eq_succ_of_ne_zero (Nat.ne_zero_of_lt enough)
      have enough : rest.length < fuel := Nat.lt_of_succ_lt_succ enough
      have regrouped : ram.Stores ((front ++ [running]) ++ next :: rest) := by
        simpa using stores
      have previous := stores.entry_eq
      have entry : ram.ramList (front.length + 1) = RamEntry.ofSpan next := by
        simpa using regrouped.entry_eq
      have live : (RamEntry.ofSpan next).size ≠ 0 := by
        simpa [entry] using regrouped.size_ne_zero
      have runningEnd := stores.stop_eq
      have nextEnd := regrouped.stop_eq
      obtain ⟨first, tail⟩ := List.pairwise_cons.mp ascending
      have runningProper : running.lo < running.hi := stores.proper running (by simp)
      have runningFits : running.hi < 2 ^ 64 := stores.fits running (by simp)
      have nextFits : next.hi < 2 ^ 64 := stores.fits next (by simp)
      by_cases touching : next.lo ≤ running.hi
      · have maxFits : max running.hi next.hi < 2 ^ 64 := max_lt runningFits nextFits
        have maxProper : running.lo < max running.hi next.hi :=
          lt_of_lt_of_le runningProper (le_max_left _ _)
        have size : subPaddr (max running.hi next.hi) running.lo =
            max running.hi next.hi - running.lo :=
          subPaddr_of_le (le_of_lt maxProper) maxFits
        have deleted := regrouped.deleteEntry
        rw [List.length_append, List.length_singleton, List.append_assoc,
          List.singleton_append] at deleted
        have merged := @RamTable.Stores.setEntry _ _ _ _ ⟨running.lo, max running.hi next.hi⟩
          deleted maxProper maxFits
        have ordered : Ascending (⟨running.lo, max running.hi next.hi⟩ :: rest) :=
          List.pairwise_cons.mpr ⟨fun later member => first later (List.mem_cons_of_mem _ member),
            (List.pairwise_cons.mp tail).2⟩
        obtain ⟨result, run, stored⟩ := ih merged ordered enough
        refine ⟨result, ?_, by simpa only [coalesce, touching, ↓reduceIte] using stored⟩
        simp only [mergeEntries, entry, live, ↓reduceIte, Nat.add_sub_cancel, previous]
        simp only [RamEntry.ofSpan, runningEnd, nextEnd, touching, ↓reduceIte, size]
        exact run
      · obtain ⟨result, run, stored⟩ := ih regrouped tail enough
        rw [List.length_append, List.length_singleton] at run
        refine ⟨result, ?_, by simpa [coalesce, touching] using stored⟩
        simp only [mergeEntries, entry, live, ↓reduceIte, Nat.add_sub_cancel, previous]
        simp only [RamEntry.ofSpan, runningEnd, touching, ↓reduceIte]
        exact run

/-- The table has no slot left for a further entry. -/
def RamTable.Full (ram : RamTable) : Prop := ram.ramListSize > maxRamListSize - sizeofRamEntry

instance (ram : RamTable) : Decidable ram.Full :=
  inferInstanceAs (Decidable (ram.ramListSize > maxRamListSize - sizeofRamEntry))

/-- **`add_mem` adds a span**, unless the table is full. -/
theorem addMem_eq {start size : Nat} {spans : List (Span Nat)} (stores : ram.Stores spans)
    (ascending : Ascending spans) (positive : 0 < size) (fits : start + size < 2 ^ 64) :
    (ram.Full ∧ addMem ram start size = .error ramEntryOverflow) ∨
      ∃ added, addMem ram start size = .ok added ∧
        added.Stores (Spans.add ⟨start, start + size⟩ spans) := by
  have fuel : spans.length < ram.ramListSize := by
    rw [stores.bytes]
    simp only [sizeofRamEntry]
    omega
  obtain ⟨before, after, split, inserted, found⟩ :=
    @findSlot_eq ram start (start + size) _ [] spans stores fuel
  simp only [List.length_nil, List.nil_append] at found
  by_cases full : ram.Full
  · refine Or.inl ⟨full, ?_⟩
    have crowded : ram.ramListSize > maxRamListSize - sizeofRamEntry := full
    simp only [addMem, gt_iff_lt, positive, ↓reduceIte, found, crowded]
  · have roomy : ¬ ram.ramListSize > maxRamListSize - sizeofRamEntry := full
    subst split
    have proper :
        (⟨start, start + size⟩ : Span Nat).lo < (⟨start, start + size⟩ : Span Nat).hi := by
      simp only
      omega
    have opened := stores.insertEntry proper fits
    have ordered : Ascending (Spans.insert ⟨start, start + size⟩ (before ++ after)) :=
      ascending.insert
    have entry : RamEntry.ofSpan ⟨start, start + size⟩ = ⟨start, size⟩ := by
      simp [RamEntry.ofSpan]
    rw [entry, ← inserted] at opened
    cases shape : Spans.insert ⟨start, start + size⟩ (before ++ after) with
    | nil => exact (insert_ne_nil _ _ shape).elim
    | cons first rest =>
        rw [shape] at opened ordered
        have enough : rest.length < (ram.insertEntry before.length ⟨start, size⟩).ramListSize := by
          rw [opened.bytes]
          simp only [sizeofRamEntry, List.length_cons]
          omega
        obtain ⟨result, run, stored⟩ := @mergeEntries_eq _ _ [] _ _ opened ordered enough
        refine Or.inr ⟨result, ?_, by simpa only [Spans.add, shape, List.nil_append] using stored⟩
        simp only [addMem, gt_iff_lt, positive, ↓reduceIte, found, roomy]
        exact run

/-- Adding what lies behind a range to an entry trimmed before it gives what the range
leaves of the entry. -/
theorem add_after_trim {addr stop : Nat} {front rest : List (Span Nat)} {span : Span Nat}
    (separated : Separated (front ++ span :: rest)) (inside : span.lo < addr) (order : addr ≤ stop)
    (ends : stop < span.hi) :
    Spans.add ⟨stop, span.hi⟩ (front ++ ⟨span.lo, addr⟩ :: rest) =
      front ++ (Spans.cut addr stop span ++ rest) := by
  have trimmed := separated.trim inside (by omega)
  refine (trimmed.add ends).eq_of_cover_eq (separated.replace addr stop) ?_
  rw [trimmed.cover_add]
  ext point
  simp only [cover_append, cover_cons, cover_cut, Set.mem_union, Set.mem_Ico, Set.mem_sdiff]
  grind

/-- One iteration of the loop of `alloc_ram` replaces the entry by what the range leaves
of it, and goes on behind the first piece left, unless a split finds the table full. -/
theorem removeRange_step {addr stop fuel : Nat} {front rest : List (Span Nat)} {span : Span Nat}
    (stores : ram.Stores (front ++ span :: rest)) (separated : Separated (front ++ span :: rest))
    (order : addr ≤ stop) (fits : stop < 2 ^ 64) :
    (ram.Full ∧ removeRange addr stop (fuel + 1) ram front.length = .error ramEntryOverflow) ∨
      ∃ next : RamTable, next.Stores (front ++ (Spans.cut addr stop span ++ rest)) ∧
        removeRange addr stop (fuel + 1) ram front.length =
          removeRange addr stop fuel next
            (front.length + min 1 (Spans.cut addr stop span).length) := by
  have entry := stores.entry_eq
  have live : (RamEntry.ofSpan span).size ≠ 0 := by
    simpa [entry] using stores.size_ne_zero
  have spanEnd := stores.stop_eq
  have proper : span.lo < span.hi := stores.proper span (by simp)
  have spanFits : span.hi < 2 ^ 64 := stores.fits span (by simp)
  simp only [removeRange, entry, live, ↓reduceIte]
  simp only [RamEntry.ofSpan, spanEnd]
  by_cases touched : (addr ≤ span.lo ∧ stop > span.lo) ∨ (addr ≥ span.lo ∧ addr < span.hi) ∨
      (stop ≥ span.lo ∧ stop < span.hi)
  · rw [if_pos touched]
    by_cases fromStart : addr ≤ span.lo
    · have first : min span.lo addr = addr := min_eq_right fromStart
      by_cases toEnd : span.hi ≤ stop
      · -- The range takes the whole entry.
        have last : max span.hi stop = stop := max_eq_right toEnd
        have cut : Spans.cut addr stop span = [] := by
          simp only [Spans.cut]
          split_ifs <;> first | rfl | omega
        refine Or.inr ⟨ram.deleteEntry front.length, ?_, ?_⟩
        · simpa only [cut, List.nil_append] using stores.deleteEntry
        · simp only [first, last, and_self, ↓reduceIte, cut, List.length_nil, Nat.min_zero,
            Nat.add_zero]
      · -- The range takes the head of the entry, or ends where it begins.
        have last : max span.hi stop = span.hi := max_eq_left (le_of_not_ge toEnd)
        have cut : Spans.cut addr stop span = [⟨stop, span.hi⟩] := by
          rcases Nat.lt_or_ge span.lo stop with overlap | touch
          · simp only [Spans.cut]
            split_ifs <;> first | rfl | omega
          · have same : stop = span.lo := by omega
            simp only [Spans.cut, same, le_refl, true_or, ↓reduceIte]
        have size : subPaddr span.hi stop = span.hi - stop := subPaddr_of_le (by omega) spanFits
        have distinct : ¬ stop = span.hi := by omega
        have trimmed := @RamTable.Stores.setEntry _ _ _ _ ⟨stop, span.hi⟩ stores
          (by simp only; omega) spanFits
        refine Or.inr ⟨ram.setEntry front.length (RamEntry.ofSpan ⟨stop, span.hi⟩), ?_, ?_⟩
        · simpa only [cut, List.singleton_append] using trimmed
        · simp only [first, last, distinct, and_false, ↓reduceIte, cut, size,
            List.length_singleton, Nat.min_self, RamEntry.ofSpan]
    · have first : min span.lo addr = span.lo := min_eq_left (le_of_not_ge fromStart)
      have inside : span.lo < addr := Nat.lt_of_not_le fromStart
      have distinct : ¬ addr = span.lo := by omega
      have size : subPaddr addr span.lo = addr - span.lo := subPaddr_of_le (by omega) (by omega)
      have trimmed := @RamTable.Stores.setEntry _ _ _ _ ⟨span.lo, addr⟩ stores inside
        (by simp only; omega)
      have written : RamEntry.ofSpan ⟨span.lo, addr⟩ = ⟨span.lo, addr - span.lo⟩ := rfl
      rw [written] at trimmed
      by_cases toEnd : span.hi ≤ stop
      · -- The range takes the tail of the entry.
        have last : max span.hi stop = stop := max_eq_right toEnd
        have cut : Spans.cut addr stop span = [⟨span.lo, addr⟩] := by
          simp only [Spans.cut]
          split_ifs <;> first | rfl | omega
        refine Or.inr ⟨ram.setEntry front.length ⟨span.lo, addr - span.lo⟩, ?_, ?_⟩
        · simpa only [cut, List.singleton_append] using trimmed
        · simp only [first, last, distinct, false_and, ↓reduceIte, cut, size, ne_eq,
            not_true_eq_false, List.length_singleton, Nat.min_self]
      · -- The range lies inside the entry: its tail is added again.
        have last : max span.hi stop = span.hi := max_eq_left (le_of_not_ge toEnd)
        have rest : subPaddr span.hi stop = span.hi - stop := subPaddr_of_le (by omega) spanFits
        have split : span.hi ≠ stop := by omega
        have some : 1 ≤ (Spans.cut addr stop span).length := by
          simp only [Spans.cut]
          split_ifs <;> simp
        have one : min 1 (Spans.cut addr stop span).length = 1 := Nat.min_eq_left some
        simp only [first, last, distinct, false_and, ↓reduceIte, size, ne_eq, split,
          not_false_eq_true, rest, one]
        have restored := add_after_trim separated inside order (Nat.lt_of_not_le toEnd)
        have length : stop + (span.hi - stop) = span.hi := by omega
        rcases addMem_eq trimmed (separated.trim inside (by omega)).ascending
          (Nat.sub_pos_of_lt (Nat.lt_of_not_le toEnd)) (length ▸ spanFits) with
          ⟨crowded, full⟩ | ok
        · exact Or.inl ⟨crowded, by simp only [full]⟩
        · obtain ⟨added, run, stored⟩ := ok
          rw [length, restored] at stored
          exact Or.inr ⟨added, stored, by simp only [run]⟩
  · rw [if_neg touched]
    have cut : Spans.cut addr stop span = [span] := by
      simp only [Spans.cut]
      split_ifs <;> first | rfl | omega
    refine Or.inr ⟨ram, ?_, ?_⟩
    · simpa only [cut, List.singleton_append] using stores
    · simp only [cut, List.length_singleton, Nat.min_self]

/-- **The loop of `alloc_ram` cuts the range out of every entry**, unless a split finds
the table full. -/
theorem removeRange_eq {addr stop fuel : Nat} {front rest : List (Span Nat)}
    (stores : ram.Stores (front ++ rest)) (separated : Separated (front ++ rest))
    (order : addr ≤ stop) (fits : stop < 2 ^ 64)
    (enough : rest.length + (rest.flatMap (Spans.cut addr stop)).length < fuel) :
    (maxRamListSize < sizeofRamEntry *
          (front.length + rest.length + (rest.flatMap (Spans.cut addr stop)).length + 2) ∧
        removeRange addr stop fuel ram front.length = .error ramEntryOverflow) ∨
      ∃ removed, removeRange addr stop fuel ram front.length = .ok removed ∧
        removed.Stores (front ++ rest.flatMap (Spans.cut addr stop)) := by
  induction fuel generalizing ram front rest with
  | zero => exact (Nat.not_lt_zero _ enough).elim
  | succ fuel ih =>
      cases rest with
      | nil =>
          have ended : (ram.ramList front.length).size = 0 := by
            simpa using stores.terminated
          exact Or.inr ⟨ram, by simp [removeRange, ended], stores⟩
      | cons span rest =>
          rcases @removeRange_step _ _ _ fuel _ _ _ stores separated order fits with
            ⟨crowded, full⟩ | ⟨next, stored, step⟩
          · have bytes := stores.bytes
            have large : ram.ramListSize > maxRamListSize - sizeofRamEntry := crowded
            simp only [sizeofRamEntry, maxRamListSize, List.length_append, List.length_cons]
              at bytes large ⊢
            exact Or.inl ⟨by omega, full⟩
          · rw [step]
            have kept := separated.replace addr stop
            have bounded := cut_length_le addr stop span
            have again : ∀ piece ∈ Spans.cut addr stop span,
                Spans.cut addr stop piece = [piece] := fun _ => cut_of_mem_cut
            rw [List.flatMap_cons, List.length_append, List.length_cons] at enough
            rw [List.flatMap_cons]
            cases pieces : Spans.cut addr stop span with
            | nil =>
                rw [pieces] at stored kept enough
                have below : rest.length + (rest.flatMap (Spans.cut addr stop)).length < fuel := by
                  rw [List.length_nil] at enough
                  omega
                rcases ih stored kept below with ⟨crowded, full⟩ | removed
                · simp only [sizeofRamEntry, List.nil_append, List.length_cons] at crowded ⊢
                  exact Or.inl ⟨by omega, full⟩
                · exact Or.inr removed
            | cons piece more =>
                rw [pieces] at stored kept enough bounded again
                have regroup : front ++ (piece :: more ++ rest) =
                    (front ++ [piece]) ++ (more ++ rest) := by simp
                have whole : more.flatMap (Spans.cut addr stop) = more := by
                  have each : ∀ later ∈ more, Spans.cut addr stop later = [later] :=
                    fun later member => again later (List.mem_cons_of_mem _ member)
                  rw [List.flatMap_congr each, List.flatMap_singleton']
                have below : (more ++ rest).length +
                    ((more ++ rest).flatMap (Spans.cut addr stop)).length < fuel := by
                  rw [List.flatMap_append, whole]
                  simp only [List.length_append, List.length_cons] at enough bounded ⊢
                  omega
                have onward := ih (regroup ▸ stored) (regroup ▸ kept) below
                rw [List.flatMap_append, whole, List.length_append, List.length_singleton]
                  at onward
                rcases onward with ⟨crowded, full⟩ | removed
                · simp only [sizeofRamEntry, List.length_append, List.length_cons]
                    at crowded bounded ⊢
                  exact Or.inl ⟨by omega, full⟩
                · exact Or.inr (by simpa using removed)

/-- **`alloc_ram` takes its range out of `ram_list`**, unless a split finds the table full. -/
theorem removeRam_eq {addr size : Nat} {spans : List (Span Nat)} (stores : ram.Stores spans)
    (separated : Separated spans) (fits : addr + size < 2 ^ 64) :
    (maxRamListSize < sizeofRamEntry * (3 * spans.length + 2) ∧
        removeRam ram addr size = .error ramEntryOverflow) ∨
      ∃ removed, removeRam ram addr size = .ok removed ∧
        removed.Stores (spans.flatMap (Spans.cut addr (addr + size))) := by
  have twice := length_flatMap_cut_le spans addr (addr + size)
  have enough : spans.length + (spans.flatMap (Spans.cut addr (addr + size))).length <
      ram.ramListSize := by
    rw [stores.bytes]
    simp only [sizeofRamEntry]
    omega
  have removed := @removeRange_eq ram addr (addr + size) _ [] spans stores separated (by omega)
    fits enough
  rw [removeRam, addPaddr_of_lt fits]
  rcases removed with ⟨crowded, full⟩ | removed
  · rw [List.length_nil] at crowded
    exact Or.inl ⟨by simp only [sizeofRamEntry] at crowded ⊢; omega, full⟩
  · exact Or.inr removed

/-! ## The set of free addresses -/

/-- The table is in canonical form and holds exactly these addresses. -/
def RamTable.HoldsFree (ram : RamTable) (free : Set Nat) : Prop :=
  ∃ spans, ram.Stores spans ∧ Separated spans ∧ cover spans = free

/-- `add_mem` adds the addresses of its range. -/
theorem addMem_holdsFree {start size : Nat} {free : Set Nat} (holds : ram.HoldsFree free)
    (fits : start + size < 2 ^ 64) :
    addMem ram start size = .error ramEntryOverflow ∨
      ∃ added, addMem ram start size = .ok added ∧
        added.HoldsFree (free ∪ Set.Ico start (start + size)) := by
  obtain ⟨spans, stores, separated, covers⟩ := holds
  cases size with
  | zero =>
      refine Or.inr ⟨ram, by simp [addMem], spans, stores, separated, ?_⟩
      rw [covers, Nat.add_zero, Set.Ico_self, Set.union_empty]
  | succ size =>
      rcases addMem_eq stores separated.ascending (Nat.succ_pos size) fits with
        ⟨_, overflow⟩ | ⟨added, run, stored⟩
      · exact Or.inl overflow
      · have proper : start < start + (size + 1) := by omega
        exact Or.inr ⟨added, run, _, stored, separated.add proper, by
          rw [separated.cover_add, covers]⟩

/-- `alloc_ram` removes the addresses of its range. -/
theorem removeRam_holdsFree {addr size : Nat} {free : Set Nat} (holds : ram.HoldsFree free)
    (fits : addr + size < 2 ^ 64) :
    removeRam ram addr size = .error ramEntryOverflow ∨
      ∃ removed, removeRam ram addr size = .ok removed ∧
        removed.HoldsFree (free \ Set.Ico addr (addr + size)) := by
  obtain ⟨spans, stores, separated, covers⟩ := holds
  rcases removeRam_eq stores separated fits with ⟨_, overflow⟩ | ⟨removed, run, stored⟩
  · exact Or.inl overflow
  · exact Or.inr ⟨removed, run, _, stored, separated.cut addr (addr + size), by
      rw [cover_flatMap_cut, covers]⟩

/-- The table holds these addresses in at most so many entries. -/
def RamTable.HoldsIn (ram : RamTable) (count : Nat) (free : Set Nat) : Prop :=
  ∃ spans, ram.Stores spans ∧ Separated spans ∧ cover spans = free ∧ spans.length ≤ count

theorem RamTable.HoldsIn.holdsFree {count : Nat} {free : Set Nat} (holds : ram.HoldsIn count free) :
    ram.HoldsFree free := by
  obtain ⟨spans, stores, separated, covers, _⟩ := holds
  exact ⟨spans, stores, separated, covers⟩

/-- `add_mem` returns while there are few entries. -/
theorem addMem_holdsIn {start size count : Nat} {free : Set Nat} (holds : ram.HoldsIn count free)
    (fits : start + size < 2 ^ 64) (few : count < 64) :
    ∃ added, addMem ram start size = .ok added ∧
      added.HoldsIn (count + 1) (free ∪ Set.Ico start (start + size)) := by
  obtain ⟨spans, stores, separated, covers, short⟩ := holds
  cases size with
  | zero =>
      refine ⟨ram, by simp [addMem], spans, stores, separated, ?_, by omega⟩
      rw [covers, Nat.add_zero, Set.Ico_self, Set.union_empty]
  | succ size =>
      rcases addMem_eq stores separated.ascending (Nat.succ_pos size) fits with
        ⟨full, _⟩ | ⟨added, run, stored⟩
      · have bytes := stores.bytes
        have large : ram.ramListSize > maxRamListSize - sizeofRamEntry := full
        simp only [sizeofRamEntry, maxRamListSize] at bytes large
        omega
      · have proper : start < start + (size + 1) := by omega
        exact ⟨added, run, _, stored, separated.add proper, by rw [separated.cover_add, covers],
          (length_add_le _ spans).trans (by omega)⟩

/-- `alloc_ram` returns while there are few entries. -/
theorem removeRam_holdsIn {addr size count : Nat} {free : Set Nat}
    (holds : ram.HoldsIn count free) (fits : addr + size < 2 ^ 64) (few : count < 63) :
    ∃ removed, removeRam ram addr size = .ok removed ∧
      removed.HoldsIn (2 * count) (free \ Set.Ico addr (addr + size)) := by
  obtain ⟨spans, stores, separated, covers, short⟩ := holds
  rcases removeRam_eq stores separated fits with ⟨crowded, _⟩ | ⟨removed, run, stored⟩
  · simp only [sizeofRamEntry, maxRamListSize] at crowded
    omega
  · have length := length_flatMap_cut_le spans addr (addr + size)
    exact ⟨removed, run, _, stored, separated.cut addr (addr + size),
      by rw [cover_flatMap_cut, covers], by omega⟩

/-- The entries of a table, and where they end, as `add_mem` and `alloc_ram` keep them. -/
structure RamTable.WellFormed (ram : RamTable) (count : Nat) : Prop where
  bytes : ram.ramListSize = (count + 1) * sizeofRamEntry
  live : ∀ slot < count, 0 < (ram.ramList slot).size
  terminated : (ram.ramList count).size = 0
  apart : ∀ earlier later, earlier < later → later < count →
    (ram.ramList earlier).addr + (ram.ramList earlier).size < (ram.ramList later).addr

/-- An entry before the terminator has the address. -/
def RamTable.Covers (ram : RamTable) (count address : Nat) : Prop :=
  ∃ slot < count, (ram.ramList slot).addr ≤ address ∧
    address < (ram.ramList slot).addr + (ram.ramList slot).size

/-- A table that holds a set of addresses is well formed and covers exactly these. -/
theorem RamTable.HoldsFree.wellFormed {free : Set Nat} (holds : ram.HoldsFree free) :
    ∃ count, ram.WellFormed count ∧ ∀ address, ram.Covers count address ↔ address ∈ free := by
  obtain ⟨spans, stores, separated, covers⟩ := holds
  have entry : ∀ (slot : Nat) (below : slot < spans.length),
      ram.ramList slot = RamEntry.ofSpan spans[slot] := by
    intro slot below
    have stored := stores.holds.stored slot (by rwa [List.length_map])
    rw [List.getElem?_map, List.getElem?_eq_getElem below] at stored
    exact (Option.some.inj stored).symm
  have proper : ∀ (slot : Nat) (below : slot < spans.length),
      spans[slot].lo < spans[slot].hi :=
    fun slot below => separated.proper _ (List.getElem_mem below)
  refine ⟨spans.length, ⟨?_, ?_, stores.terminated, ?_⟩, ?_⟩
  · rw [stores.bytes, Nat.mul_comm]
  · intro slot below
    have nonempty := proper slot below
    rw [entry slot below]
    simp only [RamEntry.ofSpan]
    omega
  · intro earlier later order below
    have gap := List.pairwise_iff_getElem.mp separated.gaps earlier later (order.trans below)
      below order
    have nonempty := proper earlier (order.trans below)
    rw [entry later below, entry earlier (order.trans below)]
    simp only [RamEntry.ofSpan]
    omega
  · intro address
    rw [← covers, mem_cover]
    constructor
    · rintro ⟨slot, below, first, last⟩
      have nonempty := proper slot below
      rw [entry slot below] at first last
      simp only [RamEntry.ofSpan] at first last
      exact ⟨spans[slot], List.getElem_mem below, first, by omega⟩
    · rintro ⟨span, member, first, last⟩
      obtain ⟨slot, below, rfl⟩ := List.getElem_of_mem member
      have nonempty := proper slot below
      refine ⟨slot, below, ?_⟩
      rw [entry slot below]
      simp only [RamEntry.ofSpan]
      omega

/-- A table whose first entry is the terminator holds no address. -/
theorem holdsIn_empty (bytes : ram.ramListSize = sizeofRamEntry)
    (terminated : (ram.ramList 0).size = 0) : ram.HoldsIn 0 ∅ := by
  refine ⟨[], ⟨⟨?_, ?_, terminated⟩, bytes, ?_⟩, separated_nil, cover_nil, le_refl _⟩
  · exact fun slot below => (Nat.not_lt_zero slot below).elim
  · exact fun entry member => (List.not_mem_nil member).elim
  · exact fun span member => (List.not_mem_nil member).elim

theorem holdsFree_empty (bytes : ram.ramListSize = sizeofRamEntry)
    (terminated : (ram.ramList 0).size = 0) : ram.HoldsFree ∅ :=
  (holdsIn_empty bytes terminated).holdsFree

end Bcm2711.Startup
