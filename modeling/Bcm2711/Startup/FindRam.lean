import Bcm2711.Startup.RamList

/-! # The avoid list and the search for free RAM

`avoid_list` is an array of address ranges ended by an entry whose `end` is zero.
`find_ram` takes the entries of `ram_list` in order, narrows each candidate by every
avoided range in turn, and returns the aligned start of the first candidate that is
still large enough.
-/

namespace Bcm2711.Startup

open Spans

/-- `struct avoid_entry`; `stop` is the exclusive `end`. -/
structure AvoidEntry where
  start : Nat
  stop : Nat
deriving DecidableEq, Repr

/-- `avoid_list` and `avoid_list_size`. -/
structure AvoidTable where
  avoidList : Nat → AvoidEntry
  avoidListSize : Nat

/-- `sizeof(struct avoid_entry)`. -/
def sizeofAvoidEntry : Nat := 16

/-- `MAX_AVOID_LIST_SIZE`, in bytes. -/
def maxAvoidListSize : Nat := 1024

/-- `crash("Avoid RAM entry array overflow\n")`. -/
def avoidEntryOverflow : Halt := .crash "Avoid RAM entry array overflow\n"

/-- A store to `avoid_list[slot]`. -/
def AvoidTable.setEntry (avoid : AvoidTable) (slot : Nat) (entry : AvoidEntry) : AvoidTable :=
  { avoid with avoidList := Function.update avoid.avoidList slot entry }

/-- `avoid_ram` once the list exists.  `slots` is the place behind the terminator, which
the source calls `avoid`. -/
def addAvoid (avoid : AvoidTable) (start size : Nat) : Result AvoidTable :=
  let slots := avoid.avoidListSize / sizeofAvoidEntry
  let last := avoid.avoidList (slots - 2)
  let avoid :=
    if avoid.avoidListSize ≥ sizeofAvoidEntry ∧ last.stop = start then
      avoid.setEntry (slots - 2) { last with stop := addPaddr last.stop size }
    else
      let avoid := avoid.setEntry (slots - 1) ⟨start, addPaddr start size⟩
      let avoid := avoid.setEntry slots { avoid.avoidList slots with stop := 0 }
      { avoid with avoidListSize := avoid.avoidListSize + sizeofAvoidEntry }
  if avoid.avoidListSize > maxAvoidListSize then .error avoidEntryOverflow else .ok avoid

/-- `fix_size`: the candidate `[s, e)` narrowed by the avoided range `[lo, hi)`, or `none`
where the source returns zero. -/
def fixSize (s e lo hi : Nat) : Option (Nat × Nat) :=
  if s ≥ hi ∨ e ≤ lo then some (s, e)
  else if s ≥ lo then
    if e ≤ hi then none else some (hi, e)
  else if e < hi then some (s, lo)
  else if subPaddr lo s > subPaddr e hi then some (s, lo)
  else some (hi, e)

/-- The loop that narrows a candidate by every avoided range. -/
def fixAll (avoid : AvoidTable) : (fuel slot s e : Nat) → Result (Option (Nat × Nat))
  | 0, _, _, _ => .error .stuck
  | fuel + 1, slot, s, e =>
      let entry := avoid.avoidList slot
      if entry.stop = 0 then .ok (some (s, e))
      else
        match fixSize s e entry.start entry.stop with
        | none => .ok none
        | some (s, e) => fixAll avoid fuel (slot + 1) s e

/-- The parameters of `find_ram_in_range`; a range bound of zero is no bound. -/
structure RamRequest where
  rangeStart : Nat
  rangeEnd : Nat
  size : Nat
  align : Nat
  colour : Nat
  mask : Nat
deriving Repr

/-- The body of the loop of `find_ram_in_range` behind the avoid list: where the request
goes in a candidate, or `none` where the loop goes on. -/
def RamRequest.place (request : RamRequest) (s e : Nat) : Option Nat :=
  let addr := ROUND s request.align
  let addr :=
    if addr &&& request.mask ≠ request.colour then
      let incr := Word.add 32 (Word.sub 32 request.mask 1 ||| request.mask) 1
      (addPaddr addr incr &&& Word.compl 32 request.mask) ||| request.colour
    else addr
  let addr :=
    if request.rangeStart ≠ 0 ∧ addr < request.rangeStart then request.rangeStart else addr
  let e := if request.rangeEnd ≠ 0 ∧ e > request.rangeEnd then request.rangeEnd else e
  if addr ≥ e then none
  else if request.size ≤ subPaddr e addr then some addr
  else none

/-- The loop of `find_ram_in_range`. -/
def findRamFrom (ram : RamTable) (avoid : AvoidTable) (request : RamRequest) :
    (fuel slot : Nat) → Result Nat
  | 0, _ => .error .stuck
  | fuel + 1, slot =>
      let entry := ram.ramList slot
      if entry.size = 0 then .ok nullPaddr
      else
        let s := entry.addr
        let e := addPaddr s entry.size
        match fixAll avoid avoid.avoidListSize 0 s e with
        | .error halt => .error halt
        | .ok none => findRamFrom ram avoid request fuel (slot + 1)
        | .ok (some (s, e)) =>
            match request.place s e with
            | some addr => .ok addr
            | none => findRamFrom ram avoid request fuel (slot + 1)

/-- `find_ram_in_range`. -/
def findRamInRange (ram : RamTable) (avoid : AvoidTable) (request : RamRequest) : Result Nat :=
  findRamFrom ram avoid request ram.ramListSize 0

/-- `find_ram`. -/
def findRam (ram : RamTable) (avoid : AvoidTable) (size align colour mask : Nat) : Result Nat :=
  findRamInRange ram avoid ⟨0, nullPaddr, size, align, colour, mask⟩

/-! ## The ranges an avoid list stores -/

/-- The addresses of an avoided range. -/
def AvoidEntry.range (entry : AvoidEntry) : Set Nat := Set.Ico entry.start entry.stop

/-- The addresses of a list of avoided ranges. -/
def avoided (entries : List AvoidEntry) : Set Nat :=
  {address | ∃ entry ∈ entries, address ∈ entry.range}

/-- An entry whose end is zero ends the array. -/
def AvoidEntry.Ended (entry : AvoidEntry) : Prop := entry.stop = 0

/-- The table stores these ranges, in order, and its byte count includes the terminator. -/
structure AvoidTable.Stores (avoid : AvoidTable) (entries : List AvoidEntry) : Prop where
  holds : SlotArray.Holds AvoidEntry.Ended avoid.avoidList entries
  bytes : avoid.avoidListSize = sizeofAvoidEntry * (entries.length + 1)
  ordered : ∀ entry ∈ entries, entry.start ≤ entry.stop ∧ entry.stop < 2 ^ 64

theorem avoided_append (front back : List AvoidEntry) :
    avoided (front ++ back) = avoided front ∪ avoided back := by
  ext address
  simp only [avoided, List.mem_append, or_and_right, exists_or, Set.mem_ofPred_eq, Set.mem_union]

theorem avoided_singleton (entry : AvoidEntry) : avoided [entry] = entry.range := by
  simp [avoided]

variable {avoid : AvoidTable} {ram : RamTable}

/-- Adding a range to the avoid list avoids its addresses too, unless the list is full. -/
theorem addAvoid_eq {entries : List AvoidEntry} (stores : avoid.Stores entries)
    (some_entry : entries ≠ []) {start size : Nat} (ends : start + size ≠ 0)
    (fits : start + size < 2 ^ 64) :
    addAvoid avoid start size = .error avoidEntryOverflow ∨
      ∃ next more, addAvoid avoid start size = .ok next ∧ next.Stores more ∧ more ≠ [] ∧
        avoided more = avoided entries ∪ Set.Ico start (start + size) := by
  obtain ⟨front, last, rfl⟩ := List.eq_nil_or_concat' entries |>.resolve_left some_entry
  have slots : avoid.avoidListSize / sizeofAvoidEntry = front.length + 2 := by
    rw [stores.bytes]
    simp [sizeofAvoidEntry]
  have enough : avoid.avoidListSize ≥ sizeofAvoidEntry := by
    rw [stores.bytes]
    simp [sizeofAvoidEntry]
  have stored : avoid.avoidList front.length = last := stores.holds.slot_eq
  have lastOrdered := stores.ordered last (by simp)
  have newStop : addPaddr start size = start + size := addPaddr_of_lt fits
  unfold addAvoid
  simp only [slots, enough, true_and, Nat.add_sub_cancel, stored]
  by_cases touching : last.stop = start
  · let merged : AvoidEntry := { last with stop := start + size }
    have live : ¬ merged.Ended := ends
    have next : (avoid.setEntry front.length merged).Stores (front ++ [merged]) := by
      refine ⟨stores.holds.set live, ?_, ?_⟩
      · simpa [AvoidTable.setEntry] using stores.bytes
      · intro entry member
        rcases List.mem_append.mp member with old | new
        · exact stores.ordered entry (List.mem_append_left _ old)
        · rw [List.mem_singleton.mp new]
          exact ⟨by simp only [merged]; omega, fits⟩
    have covers : avoided (front ++ [merged]) =
        avoided (front ++ [last]) ∪ Set.Ico start (start + size) := by
      rw [avoided_append, avoided_append, avoided_singleton, avoided_singleton, Set.union_assoc]
      congr 1
      rw [AvoidEntry.range, AvoidEntry.range, touching]
      exact (Set.Ico_union_Ico_eq_Ico (touching ▸ lastOrdered.1) (Nat.le_add_right _ _)).symm
    rw [if_pos touching, touching, newStop]
    split
    · exact Or.inl rfl
    · exact Or.inr ⟨_, _, rfl, next, by simp, covers⟩
  · have live : ¬ (⟨start, start + size⟩ : AvoidEntry).Ended := ends
    rw [if_neg touching, newStop]
    split
    · exact Or.inl rfl
    · refine Or.inr ⟨_, front ++ [last] ++ [⟨start, start + size⟩], rfl, ?_, by simp, ?_⟩
      · refine ⟨?_, ?_, ?_⟩
        · have pushed := @SlotArray.Holds.push _ _ _ _ stores.holds ⟨start, start + size⟩
            { avoid.avoidList (front.length + 2) with stop := 0 } live rfl
          simpa [AvoidTable.setEntry] using pushed
        · simp [AvoidTable.setEntry, stores.bytes, sizeofAvoidEntry]
          omega
        · intro entry member
          rcases List.mem_append.mp member with old | new
          · exact stores.ordered entry old
          · rw [List.mem_singleton.mp new]
            exact ⟨Nat.le_add_right _ _, fits⟩
      · rw [avoided_append, avoided_singleton]
        rfl

/-! ## The search -/

/-- A candidate that `fix_size` leaves is a nonempty part of the one before and lies beside
the avoided range. -/
theorem fixSize_sound {s e lo hi s' e' : Nat} (nonempty : s < e)
    (fits : e < 2 ^ 64) (fixed : fixSize s e lo hi = some (s', e')) :
    s ≤ s' ∧ s' < e' ∧ e' ≤ e ∧ (hi ≤ s' ∨ e' ≤ lo) := by
  unfold fixSize at fixed
  split at fixed
  · next beside =>
      cases fixed
      omega
  · next overlap =>
      split at fixed
      · split at fixed
        · cases fixed
        · cases fixed
          omega
      · next before =>
          have below : subPaddr lo s = lo - s := subPaddr_of_le (by omega) (by omega)
          split at fixed
          · cases fixed
            omega
          · have above : subPaddr e hi = e - hi := subPaddr_of_le (by omega) fits
            rw [below, above] at fixed
            split at fixed
            · cases fixed
              omega
            · cases fixed
              omega

/-- What is left of a candidate after the loop over the avoid list. -/
theorem fixAll_sound {fuel s e : Nat} {front rest : List AvoidEntry}
    (stores : avoid.Stores (front ++ rest)) (enough : rest.length < fuel) (nonempty : s < e)
    (fits : e < 2 ^ 64) :
    ∃ left, fixAll avoid fuel front.length s e = .ok left ∧
      ∀ s' e', left = some (s', e') → s ≤ s' ∧ s' < e' ∧ e' ≤ e ∧
        Disjoint (Set.Ico s' e') (avoided rest) := by
  induction rest generalizing front fuel s e with
  | nil =>
      obtain ⟨fuel, rfl⟩ := Nat.exists_eq_succ_of_ne_zero (Nat.ne_zero_of_lt enough)
      have ended : (avoid.avoidList front.length).stop = 0 := by
        simpa [AvoidEntry.Ended] using stores.holds.terminated
      refine ⟨some (s, e), by simp [fixAll, ended], ?_⟩
      intro s' e' isLeft
      cases isLeft
      exact ⟨le_rfl, nonempty, le_rfl, by simp [avoided]⟩
  | cons entry rest ih =>
      obtain ⟨fuel, rfl⟩ := Nat.exists_eq_succ_of_ne_zero (Nat.ne_zero_of_lt enough)
      have stored : avoid.avoidList front.length = entry := stores.holds.slot_eq
      have live : entry.stop ≠ 0 := stores.holds.live entry (by simp)
      have ordered := stores.ordered entry (by simp)
      simp only [fixAll, stored, live, ↓reduceIte]
      cases fixed : fixSize s e entry.start entry.stop with
      | none => exact ⟨none, rfl, fun _ _ isLeft => by cases isLeft⟩
      | some candidate =>
          obtain ⟨s₁, e₁⟩ := candidate
          obtain ⟨later, nonempty₁, earlier, beside⟩ :=
            fixSize_sound nonempty fits fixed
          have regrouped : avoid.Stores ((front ++ [entry]) ++ rest) := by simpa using stores
          obtain ⟨left, run, sound⟩ := ih regrouped (Nat.lt_of_succ_lt_succ enough) nonempty₁
            (earlier.trans_lt fits)
          rw [List.length_append, List.length_singleton] at run
          refine ⟨left, run, ?_⟩
          intro s' e' isLeft
          obtain ⟨later₂, nonempty₂, earlier₂, disjoint⟩ := sound s' e' isLeft
          refine ⟨later.trans later₂, nonempty₂, earlier₂.trans earlier, ?_⟩
          rw [← List.singleton_append, avoided_append, avoided_singleton]
          refine Set.disjoint_union_right.mpr ⟨?_, disjoint⟩
          refine Set.disjoint_left.mpr fun address inside inEntry => ?_
          rw [Set.mem_Ico] at inside
          rw [AvoidEntry.range, Set.mem_Ico] at inEntry
          omega

/-- The last tests of `find_ram_in_range` keep the block inside the candidate. -/
theorem place_guard {addr e size result : Nat} (fits : e < 2 ^ 64)
    (placed : (if addr ≥ e then none else if size ≤ subPaddr e addr then some addr else none) =
      some result) : result = addr ∧ addr < e ∧ result + size ≤ e := by
  split at placed
  · cases placed
  · next before =>
      rw [subPaddr_of_le (by omega) fits] at placed
      split at placed
      · cases placed
        omega
      · cases placed

/-- A request for aligned RAM anywhere. -/
def anywhere (size align : Nat) : RamRequest := ⟨0, nullPaddr, size, align, 0, 0⟩

/-- A request for aligned RAM anywhere is placed inside the candidate. -/
theorem place_sound {s e size shift addr : Nat} (small : shift < 32)
    (room : s + (2 ^ shift - 1) < 2 ^ 64) (fits : e < 2 ^ 64)
    (placed : (anywhere size (2 ^ shift)).place s e = some addr) :
    2 ^ shift ∣ addr ∧ s ≤ addr ∧ addr < e ∧ addr + size ≤ e := by
  have aligned : 2 ^ shift ∣ ROUND s (2 ^ shift) := Word.dvd_round (by omega) room
  have above : s ≤ ROUND s (2 ^ shift) := Word.le_round (by omega) room
  have inRange : ¬ e > nullPaddr := by
    simp only [nullPaddr]
    omega
  simp only [anywhere, RamRequest.place, Nat.and_zero, ne_eq, not_true_eq_false, ↓reduceIte,
    inRange, and_false, false_and] at placed
  obtain ⟨rfl, before, whole⟩ := place_guard fits placed
  exact ⟨aligned, above, before, whole⟩

/-- An address `find_ram` may return: aligned, with the whole block in free RAM and clear of
what is taken. -/
structure RamFound (free taken : Set Nat) (size align addr : Nat) : Prop where
  aligned : align ∣ addr
  start_mem : addr ∈ free
  fits : addr + size < 2 ^ 64
  inside : Set.Ico addr (addr + size) ⊆ free
  clear : Disjoint (Set.Ico addr (addr + size)) taken

theorem RamFound.mono {free more taken : Set Nat} {size align addr : Nat}
    (found : RamFound free taken size align addr) (wider : free ⊆ more) :
    RamFound more taken size align addr :=
  ⟨found.aligned, wider found.start_mem, found.fits, found.inside.trans wider, found.clear⟩

theorem findRamFrom_sound {fuel size shift : Nat} {front rest : List (Span Nat)}
    {entries : List AvoidEntry} (stores : ram.Stores (front ++ rest))
    (avoids : avoid.Stores entries) (small : shift < 32)
    (room : ∀ address ∈ cover rest, address + (2 ^ shift - 1) < 2 ^ 64)
    (enough : rest.length < fuel) :
    ∃ addr, findRamFrom ram avoid (anywhere size (2 ^ shift)) fuel front.length = .ok addr ∧
      (addr = nullPaddr ∨ RamFound (cover rest) (avoided entries) size (2 ^ shift) addr) := by
  induction rest generalizing front fuel with
  | nil =>
      obtain ⟨fuel, rfl⟩ := Nat.exists_eq_succ_of_ne_zero (Nat.ne_zero_of_lt enough)
      have ended : (ram.ramList front.length).size = 0 := by
        simpa using stores.terminated
      exact ⟨nullPaddr, by simp [findRamFrom, ended], Or.inl rfl⟩
  | cons span rest ih =>
      obtain ⟨fuel, rfl⟩ := Nat.exists_eq_succ_of_ne_zero (Nat.ne_zero_of_lt enough)
      have stored := stores.entry_eq
      have live : span.hi - span.lo ≠ 0 := by
        have proper := stores.proper span (by simp)
        omega
      have stop := stores.stop_eq
      have proper := stores.proper span (by simp)
      have fits := stores.fits span (by simp)
      have regrouped : ram.Stores ((front ++ [span]) ++ rest) := by simpa using stores
      have wider : cover rest ⊆ cover (span :: rest) := by
        rw [cover_cons]
        exact Set.subset_union_right
      obtain ⟨addr, run, found⟩ := ih regrouped (fun address member => room address (wider member))
        (Nat.lt_of_succ_lt_succ enough)
      have onward : addr = nullPaddr ∨
          RamFound (cover (span :: rest)) (avoided entries) size (2 ^ shift) addr :=
        found.imp_right fun inRest => inRest.mono wider
      rw [List.length_append, List.length_singleton] at run
      have avoidFuel : entries.length < avoid.avoidListSize := by
        rw [avoids.bytes]
        simp only [sizeofAvoidEntry]
        omega
      obtain ⟨left, narrowed, sound⟩ := @fixAll_sound avoid avoid.avoidListSize span.lo span.hi []
        entries avoids avoidFuel proper fits
      rw [List.length_nil] at narrowed
      have entry : (RamEntry.ofSpan span).addr = span.lo := rfl
      have width : (RamEntry.ofSpan span).size = span.hi - span.lo := rfl
      simp only [findRamFrom, stored, entry, width, live, ↓reduceIte, stop, narrowed]
      cases left with
      | none => exact ⟨addr, run, onward⟩
      | some candidate =>
          obtain ⟨s, e⟩ := candidate
          obtain ⟨later, nonempty, earlier, disjoint⟩ := sound s e rfl
          have inSpan : Set.Ico s e ⊆ cover (span :: rest) := by
            intro address inside
            rw [cover_cons]
            exact Or.inl ⟨later.trans inside.1, inside.2.trans_le earlier⟩
          cases placed : (anywhere size (2 ^ shift)).place s e with
          | none => exact ⟨addr, by simpa only [placed] using run, onward⟩
          | some place =>
              obtain ⟨aligned, above, inside, whole⟩ := place_sound small
                (room s (inSpan ⟨le_rfl, nonempty⟩)) (earlier.trans_lt fits) placed
              have block : Set.Ico place (place + size) ⊆ Set.Ico s e :=
                Set.Ico_subset_Ico above whole
              refine ⟨place, by simp only [placed], Or.inr ⟨aligned, inSpan ⟨above, inside⟩, ?_,
                block.trans inSpan, disjoint.mono_left block⟩⟩
              omega

/-- The avoid list is not empty and avoids exactly these addresses. -/
def AvoidTable.Avoids (avoid : AvoidTable) (taken : Set Nat) : Prop :=
  ∃ entries, avoid.Stores entries ∧ entries ≠ [] ∧ avoided entries = taken

/-- `avoid_ram` adds the addresses of its range. -/
theorem addAvoid_avoids {taken : Set Nat} (avoids : avoid.Avoids taken) {start size : Nat}
    (ends : start + size ≠ 0) (fits : start + size < 2 ^ 64) :
    addAvoid avoid start size = .error avoidEntryOverflow ∨
      ∃ next, addAvoid avoid start size = .ok next ∧
        next.Avoids (taken ∪ Set.Ico start (start + size)) := by
  obtain ⟨entries, stores, some_entry, rfl⟩ := avoids
  rcases addAvoid_eq stores some_entry ends fits with
    overflow | ⟨next, more, run, stored, still_some, covers⟩
  · exact Or.inl overflow
  · exact Or.inr ⟨next, run, more, stored, still_some, covers⟩

/-- A range is added to the avoid list while there is room for another entry. -/
theorem addAvoid_returns {taken : Set Nat} (avoids : avoid.Avoids taken) {start size : Nat}
    (ends : start + size ≠ 0) (fits : start + size < 2 ^ 64)
    (room : avoid.avoidListSize + sizeofAvoidEntry ≤ maxAvoidListSize) :
    ∃ next, addAvoid avoid start size = .ok next ∧
      next.Avoids (taken ∪ Set.Ico start (start + size)) ∧
      next.avoidListSize ≤ avoid.avoidListSize + sizeofAvoidEntry := by
  rcases addAvoid_avoids avoids ends fits with overflow | ⟨next, run, more⟩
  · simp only [addAvoid] at overflow
    split_ifs at overflow with touching crowded crowded
    all_goals
      simp only [AvoidTable.setEntry] at crowded
      omega
  · refine ⟨next, run, more, ?_⟩
    simp only [addAvoid] at run
    split_ifs at run with touching crowded crowded
    all_goals
      cases run
      simp only [AvoidTable.setEntry]
      omega

/-- **`find_ram` returns free RAM**, aligned and clear of the avoid list, or `NULL_PADDR`. -/
theorem findRam_sound {size shift : Nat} {free taken : Set Nat} (holds : ram.HoldsFree free)
    (avoids : avoid.Avoids taken) (small : shift < 32)
    (room : ∀ address ∈ free, address + (2 ^ shift - 1) < 2 ^ 64) :
    ∃ addr, findRam ram avoid size (2 ^ shift) 0 0 = .ok addr ∧
      (addr = nullPaddr ∨ RamFound free taken size (2 ^ shift) addr) := by
  obtain ⟨spans, stores, _, rfl⟩ := holds
  obtain ⟨entries, avoidStores, _, rfl⟩ := avoids
  have enough : spans.length < ram.ramListSize := by
    rw [stores.bytes]
    simp only [sizeofRamEntry]
    omega
  exact @findRamFrom_sound avoid ram _ size shift [] spans entries stores avoidStores small room
    enough

/-! ## Whatever the tables hold, a block found ends below the top of memory -/

theorem fixSize_end_lt {s e lo hi s' e' : Nat} (fits : e < 2 ^ 64)
    (fixed : fixSize s e lo hi = some (s', e')) : e' < 2 ^ 64 := by
  unfold fixSize at fixed
  split_ifs at fixed with beside inside covered before larger
  all_goals
    cases fixed
    omega

theorem fixAll_end_lt {fuel slot s e s' e' : Nat} (fits : e < 2 ^ 64)
    (fixed : fixAll avoid fuel slot s e = .ok (some (s', e'))) : e' < 2 ^ 64 := by
  induction fuel generalizing slot s e with
  | zero => cases fixed
  | succ fuel ih =>
      simp only [fixAll] at fixed
      split at fixed
      · cases fixed
        exact fits
      · split at fixed
        · cases fixed
        · next narrowed => exact ih (fixSize_end_lt fits narrowed) fixed

theorem place_fits {request : RamRequest} {s e addr : Nat} (fits : e < 2 ^ 64)
    (placed : request.place s e = some addr) : addr + request.size < 2 ^ 64 := by
  have bounded : (if request.rangeEnd ≠ 0 ∧ e > request.rangeEnd then request.rangeEnd else e) ≤
      e := by
    split <;> omega
  exact (place_guard (bounded.trans_lt fits) placed).2.2.trans_lt (bounded.trans_lt fits)

/-- A block that `find_ram` found does not wrap. -/
theorem findRam_fits {size align colour mask addr : Nat}
    (found : findRam ram avoid size align colour mask = .ok addr) (some_ram : addr ≠ nullPaddr) :
    addr + size < 2 ^ 64 := by
  have search : ∀ fuel slot, findRamFrom ram avoid ⟨0, nullPaddr, size, align, colour, mask⟩ fuel
      slot = .ok addr → addr + size < 2 ^ 64 := by
    intro fuel
    induction fuel with
    | zero =>
        intro slot returned
        cases returned
    | succ fuel ih =>
        intro slot returned
        simp only [findRamFrom] at returned
        split at returned
        · cases returned
          exact (some_ram rfl).elim
        · split at returned
          · cases returned
          · exact ih (slot + 1) returned
          · next s e fixed =>
              split at returned
              · next placed =>
                  cases returned
                  exact place_fits (fixAll_end_lt (Word.add_lt 64 _ _) fixed) placed
              · exact ih (slot + 1) returned
  exact search _ _ found

end Bcm2711.Startup
