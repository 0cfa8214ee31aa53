import Bcm2711.Startup.NoDoubleAlloc
import Bcm2711.Startup.UefiRam

/-! # RAM from the sorted EFI memory map

`init_raminfo_efi` goes through the sorted memory map three times.  The first pass puts
everything but free memory on the avoid list, the second one adds the usable ranges as RAM,
joining those that follow each other, and the third one takes the ranges in use out of
`ram_list`.

The joined range begins as an empty one at the top of memory, and the first usable descriptor
adds that as RAM.
-/

namespace Bcm2711.Startup

open Fallible

/-- The types in use: the cases of the switch that fall through. -/
def EfiMemoryType.inUse : EfiMemoryType → Bool
  | .loaderCode | .loaderData | .bootServicesCode | .bootServicesData | .runtimeServicesCode
  | .runtimeServicesData | .acpiReclaimMemory => true
  | _ => false

/-- The types that become RAM. -/
def EfiMemoryType.becomesRam (type : EfiMemoryType) : Bool :=
  type.inUse || type = .conventionalMemory

/-- `cur_start` and `cur_size`, and the calls made so far. -/
structure EfiPass where
  curStart : Nat
  curSize : Nat
  calls : List RamInfoCall

/-- A call is made. -/
def EfiPass.call (state : EfiPass) (call : RamInfoCall) : EfiPass :=
  { state with calls := state.calls ++ [call] }

/-- The case of `EfiConventionalMemory`. -/
def EfiPass.conventional (state : EfiPass) (pass : Nat) (desc : EfiMemoryDescriptor) : EfiPass :=
  if pass = 1 then
    if desc.physicalStart = Word.add 64 state.curStart state.curSize then
      { state with curSize := Word.add 64 state.curSize desc.nbytes }
    else
      { state.call (.addRam state.curStart state.curSize) with
        curStart := desc.physicalStart, curSize := desc.nbytes }
  else state

/-- One round of the inner loop. -/
def EfiPass.descriptor (pass : Nat) (state : EfiPass) (desc : EfiMemoryDescriptor) : EfiPass :=
  if desc.type.inUse then
    let state := if pass = 0 then state.call (.avoidRam desc.physicalStart desc.nbytes) else state
    let state := if pass = 2 then state.call (.allocRam desc.physicalStart desc.nbytes 0) else state
    state.conventional pass desc
  else if desc.type = .conventionalMemory then state.conventional pass desc
  else if pass = 0 then state.call (.avoidRam desc.physicalStart desc.nbytes)
  else state

/-- One round of the outer loop: the calls of a pass. -/
def efiPass (descs : List EfiMemoryDescriptor) (pass : Nat) : List RamInfoCall :=
  let state := descs.foldl (EfiPass.descriptor pass) ⟨nullPaddr, 0, []⟩
  if pass = 1 ∧ state.curSize ≠ 0 then (state.call (.addRam state.curStart state.curSize)).calls
  else state.calls

/-- `init_raminfo_efi`, for the descriptors that `efi_walk_map` returns: the calls it makes. -/
def initRaminfoEfi (descs : List EfiMemoryDescriptor) : List RamInfoCall :=
  efiPass descs 0 ++ efiPass descs 1 ++ efiPass descs 2

/-- A call is carried out. -/
def ramInfoStep (boot : Boot) (state : RamState) : RamInfoCall → Result RamState
  | .avoidRam start size => avoidRam boot state start size
  | .addRam start size => addRam boot state start size
  | .allocRam start size align => do return (← allocRam state start size align).1

/-! ## What is to be done -/

/-- A sorted memory map of pages, whose descriptors do not overlap. -/
structure SortedMap (descs : List EfiMemoryDescriptor) : Prop where
  some_desc : descs ≠ []
  pages : ∀ desc ∈ descs, 1 ≤ desc.numberOfPages
  aligned : ∀ desc ∈ descs, 0x1000 ∣ desc.physicalStart
  inMemory : ∀ desc ∈ descs, desc.physicalStart + desc.numberOfPages * 0x1000 < 2 ^ 64
  sorted : descs.Pairwise fun lower upper =>
    lower.physicalStart + lower.numberOfPages * 0x1000 ≤ upper.physicalStart

/-- The ranges cover exactly the descriptors that become RAM, and are separate. -/
structure CoversRam (ranges : List (Nat × Nat)) (descs : List EfiMemoryDescriptor) : Prop where
  proper : ∀ range ∈ ranges, 0 < range.2 ∧ range.1 + range.2 < 2 ^ 64
  apart : ranges.Pairwise fun one other =>
    one.1 + one.2 < other.1 ∨ other.1 + other.2 < one.1
  union : ∀ address, (∃ range ∈ ranges, address ∈ Set.Ico range.1 (range.1 + range.2)) ↔
    ∃ desc ∈ descs, desc.type.becomesRam = true ∧ address ∈ desc.range

/-- The free memory of a map. -/
def conventionalRam (descs : List EfiMemoryDescriptor) : Set Nat :=
  {address | ∃ desc ∈ descs, desc.type = .conventionalMemory ∧ address ∈ desc.range}

/-- The tables after the import. -/
def ImportedTables (boot : Boot) (descs : List EfiMemoryDescriptor) (state : RamState) : Prop :=
  ∃ ram avoid taken, state.ram = some ram ∧ state.avoid = some avoid ∧ avoid.Avoids taken ∧
    ram.HoldsFree (conventionalRam descs \ imageRange boot) ∧
    ∀ desc ∈ descs, desc.type ≠ .conventionalMemory → desc.range ⊆ taken

/-- The map is imported: the right ranges are added, and the tables then hold the rest. -/
structure EfiImported (boot : Boot) (descs : List EfiMemoryDescriptor) : Prop where
  added : CoversRam (ramCalls (initRaminfoEfi descs)) descs
  tables : ∀ state, (initRaminfoEfi descs).foldlM (ramInfoStep boot) RamState.initial = .ok state →
    ImportedTables boot descs state

/-! ## The joined ranges -/

section Joined

variable {ranges front : List (Nat × Nat)} {passed descs : List EfiMemoryDescriptor}
  {desc : EfiMemoryDescriptor} {state : EfiPass}

/-- Each range ends before the next one begins. -/
def Increasing (ranges : List (Nat × Nat)) : Prop :=
  ranges.Pairwise fun one other => one.1 + one.2 < other.1

/-- A descriptor that does not become RAM is passed. -/
theorem CoversRam.skip (covers : CoversRam ranges passed) (notRam : desc.type.becomesRam = false) :
    CoversRam ranges (passed ++ [desc]) where
  proper := covers.proper
  apart := covers.apart
  union := by
    intro address
    rw [covers.union]
    simp only [List.mem_append, List.mem_singleton, or_and_right, exists_or, exists_eq_left,
      notRam, Bool.false_eq_true, false_and, or_false]

/-- The ranges end where the passed descriptors do. -/
theorem CoversRam.below (covers : CoversRam ranges passed) {bound : Nat}
    (ended : ∀ earlier ∈ passed,
      earlier.physicalStart + earlier.numberOfPages * 0x1000 ≤ bound) :
    ∀ range ∈ ranges, range.1 + range.2 ≤ bound := by
  intro range member
  have nonempty := (covers.proper range member).1
  have last : range.1 + range.2 - 1 ∈ Set.Ico range.1 (range.1 + range.2) :=
    Set.mem_Ico.mpr ⟨by omega, by omega⟩
  obtain ⟨earlier, isPassed, _, inside⟩ := (covers.union _).mp ⟨range, member, last⟩
  have stop := ended earlier isPassed
  have below : range.1 + range.2 - 1 < earlier.physicalStart + earlier.numberOfPages * 0x1000 :=
    inside.2
  omega

/-- A descriptor behind the ranges begins another one. -/
theorem CoversRam.push (covers : CoversRam ranges passed) (isRam : desc.type.becomesRam = true)
    (pages : 1 ≤ desc.numberOfPages)
    (inMemory : desc.physicalStart + desc.numberOfPages * 0x1000 < 2 ^ 64)
    (behind : ∀ range ∈ ranges, range.1 + range.2 < desc.physicalStart) :
    CoversRam (ranges ++ [(desc.physicalStart, desc.numberOfPages * 0x1000)])
      (passed ++ [desc]) where
  proper := by
    intro range member
    rcases List.mem_append.mp member with old | new
    · exact covers.proper range old
    · rw [List.mem_singleton.mp new]
      exact ⟨by dsimp only; omega, inMemory⟩
  apart := by
    refine List.pairwise_append.mpr ⟨covers.apart, List.pairwise_singleton _ _, ?_⟩
    intro range member last isLast
    rw [List.mem_singleton.mp isLast]
    exact .inl (behind range member)
  union := by
    intro address
    simp only [List.mem_append, List.mem_singleton, or_and_right, exists_or, exists_eq_left,
      covers.union, isRam, true_and]
    exact Iff.rfl

/-- A descriptor at the end of the last range extends it. -/
theorem CoversRam.extend {start size : Nat} (covers : CoversRam (front ++ [(start, size)]) passed)
    (isRam : desc.type.becomesRam = true)
    (inMemory : desc.physicalStart + desc.numberOfPages * 0x1000 < 2 ^ 64)
    (follows : desc.physicalStart = start + size)
    (ended : ∀ range ∈ front, range.1 + range.2 ≤ desc.physicalStart) :
    CoversRam (front ++ [(start, size + desc.numberOfPages * 0x1000)]) (passed ++ [desc]) where
  proper := by
    intro range member
    rcases List.mem_append.mp member with old | new
    · exact covers.proper range (List.mem_append_left _ old)
    · have proper := covers.proper (start, size) (by simp)
      rw [List.mem_singleton.mp new]
      dsimp only at proper ⊢
      omega
  apart := by
    obtain ⟨earlier, _, across⟩ := List.pairwise_append.mp covers.apart
    refine List.pairwise_append.mpr ⟨earlier, List.pairwise_singleton _ _, ?_⟩
    intro range member last isLast
    rw [List.mem_singleton.mp isLast]
    have proper := covers.proper range (List.mem_append_left _ member)
    have apart := across range member (start, size) (List.mem_singleton.mpr rfl)
    have stop := ended range member
    dsimp only at apart ⊢
    omega
  union := by
    intro address
    have old := covers.union address
    have split : address ∈ Set.Ico start (start + (size + desc.numberOfPages * 0x1000)) ↔
        address ∈ Set.Ico start (start + size) ∨ address ∈ desc.range := by
      unfold EfiMemoryDescriptor.range
      simp only [Set.mem_Ico]
      omega
    simp only [List.mem_append, List.mem_singleton, or_and_right, exists_or, exists_eq_left]
      at old ⊢
    rw [split, ← or_assoc, old, isRam]
    simp only [true_and]

/-- The second pass so far: nothing was usable yet, or the empty range was added first, and the
others with the joined one cover the usable descriptors. -/
def Joined (passed : List EfiMemoryDescriptor) (state : EfiPass) : Prop :=
  (state = ⟨nullPaddr, 0, []⟩ ∧ ∀ desc ∈ passed, desc.type.becomesRam = false) ∨
    ∃ front, ramCalls state.calls = (nullPaddr, 0) :: front ∧
      CoversRam (front ++ [(state.curStart, state.curSize)]) passed ∧
      Increasing (front ++ [(state.curStart, state.curSize)])

theorem descriptor_second (state : EfiPass) (desc : EfiMemoryDescriptor) :
    state.descriptor 1 desc =
      if desc.type.becomesRam then state.conventional 1 desc else state := by
  unfold EfiPass.descriptor EfiMemoryType.becomesRam
  by_cases conventional : desc.type = .conventionalMemory
  · simp [conventional]
  · by_cases inUse : desc.type.inUse = true
    · simp [inUse]
    · simp [inUse, conventional]

/-- One descriptor is joined. -/
theorem Joined.step (joined : Joined passed state) (map : SortedMap (passed ++ [desc])) :
    Joined (passed ++ [desc]) (state.descriptor 1 desc) := by
  have isLast : desc ∈ passed ++ [desc] := by simp
  have pages := map.pages desc isLast
  have aligned := map.aligned desc isLast
  have inMemory := map.inMemory desc isLast
  have ended : ∀ earlier ∈ passed,
      earlier.physicalStart + earlier.numberOfPages * 0x1000 ≤ desc.physicalStart := by
    intro earlier member
    exact (List.pairwise_append.mp map.sorted).2.2 earlier member desc (by simp)
  have bytes : desc.nbytes = desc.numberOfPages * 0x1000 :=
    Nat.mod_eq_of_lt (by omega)
  rw [descriptor_second]
  by_cases isRam : desc.type.becomesRam = true
  · rw [if_pos isRam]
    rcases joined with ⟨rfl, none_before⟩ | ⟨front, calls, covers, increasing⟩
    · have starts : desc.physicalStart ≠ Word.add 64 nullPaddr 0 := by
        have top : Word.add 64 nullPaddr 0 = 2 ^ 64 - 1 := by decide
        omega
      have first : CoversRam [] passed := by
        refine ⟨by simp, List.Pairwise.nil, ?_⟩
        intro address
        constructor
        · rintro ⟨range, member, _⟩
          exact absurd member List.not_mem_nil
        · rintro ⟨earlier, member, usable, _⟩
          rw [none_before earlier member] at usable
          exact absurd usable Bool.false_ne_true
      refine .inr ⟨[], ?_, ?_, ?_⟩
      · simp only [EfiPass.conventional, ↓reduceIte, starts, EfiPass.call]
        rfl
      · simp only [EfiPass.conventional, ↓reduceIte, starts, bytes]
        exact first.push isRam pages inMemory (by simp)
      · simp only [Increasing, List.nil_append, List.pairwise_singleton]
    · have stop := covers.below ended
      have proper := covers.proper (state.curStart, state.curSize) (by simp)
      dsimp only at proper
      have sum : Word.add 64 state.curStart state.curSize = state.curStart + state.curSize :=
        Word.add_of_lt proper.2
      by_cases follows : desc.physicalStart = state.curStart + state.curSize
      · have grown : Word.add 64 state.curSize desc.nbytes =
            state.curSize + desc.numberOfPages * 0x1000 := by
          rw [bytes]
          exact Word.add_of_lt (by omega)
        have same : state.conventional 1 desc =
            { state with curSize := state.curSize + desc.numberOfPages * 0x1000 } := by
          rw [EfiPass.conventional, if_pos rfl, sum, if_pos follows, grown]
        rw [same]
        refine .inr ⟨front, calls, covers.extend isRam inMemory follows ?_, ?_⟩
        · intro range member
          exact stop range (List.mem_append_left _ member)
        · obtain ⟨earlier, _, across⟩ := List.pairwise_append.mp increasing
          refine List.pairwise_append.mpr ⟨earlier, List.pairwise_singleton _ _, ?_⟩
          intro range member last isLast
          rw [List.mem_singleton.mp isLast]
          exact across range member (state.curStart, state.curSize) (List.mem_singleton.mpr rfl)
      · have same : state.conventional 1 desc =
            { state.call (.addRam state.curStart state.curSize) with
              curStart := desc.physicalStart, curSize := desc.numberOfPages * 0x1000 } := by
          rw [EfiPass.conventional, if_pos rfl, sum, if_neg follows, bytes]
        have behind : ∀ range ∈ front ++ [(state.curStart, state.curSize)],
            range.1 + range.2 < desc.physicalStart := by
          intro range member
          rcases List.mem_append.mp member with old | new
          · have across := (List.pairwise_append.mp increasing).2.2 range old
              (state.curStart, state.curSize) (List.mem_singleton.mpr rfl)
            have last := stop (state.curStart, state.curSize) (by simp)
            dsimp only at across last
            omega
          · have last := stop range member
            rw [List.mem_singleton.mp new] at last ⊢
            dsimp only at last ⊢
            omega
        rw [same]
        refine .inr ⟨front ++ [(state.curStart, state.curSize)], ?_,
          covers.push isRam pages inMemory behind, ?_⟩
        · simp only [EfiPass.call, ramCalls_append, calls, List.cons_append]
          rfl
        · refine List.pairwise_append.mpr ⟨increasing, List.pairwise_singleton _ _, ?_⟩
          intro range member last isLast
          rw [List.mem_singleton.mp isLast]
          exact behind range member
  · rw [if_neg isRam]
    have notRam : desc.type.becomesRam = false := by simpa using isRam
    rcases joined with ⟨rfl, none_before⟩ | ⟨front, calls, covers, increasing⟩
    · refine .inl ⟨rfl, ?_⟩
      intro other member
      rcases List.mem_append.mp member with old | new
      · exact none_before other old
      · rw [List.mem_singleton.mp new]
        exact notRam
    · exact .inr ⟨front, calls, covers.skip notRam, increasing⟩

/-- The second pass joins the descriptors in order. -/
theorem Joined.run {rest : List EfiMemoryDescriptor} (joined : Joined passed state)
    (map : SortedMap (passed ++ rest)) :
    Joined (passed ++ rest) (rest.foldl (EfiPass.descriptor 1) state) := by
  induction rest generalizing passed state with
  | nil =>
      rw [List.append_nil]
      exact joined
  | cons desc rest ih =>
      have split : passed ++ desc :: rest = (passed ++ [desc]) ++ rest := by simp
      rw [split] at map ⊢
      have before : SortedMap (passed ++ [desc]) := by
        refine ⟨by simp, ?_, ?_, ?_, (List.pairwise_append.mp map.sorted).1⟩
        · exact fun other member => map.pages other (List.mem_append_left _ member)
        · exact fun other member => map.aligned other (List.mem_append_left _ member)
        · exact fun other member => map.inMemory other (List.mem_append_left _ member)
      rw [List.foldl_cons]
      exact ih (joined.step before) map

/-- The passes besides the second one add no RAM. -/
theorem ramCalls_efiPass {pass : Nat} (notSecond : pass ≠ 1) (descs : List EfiMemoryDescriptor) :
    ramCalls (efiPass descs pass) = [] := by
  have each : ∀ (state : EfiPass), ramCalls state.calls = [] →
      ramCalls (descs.foldl (EfiPass.descriptor pass) state).calls = [] := by
    induction descs with
    | nil => exact fun state none_added => none_added
    | cons desc descs ih =>
        intro state none_added
        rw [List.foldl_cons]
        refine ih _ ?_
        unfold EfiPass.descriptor EfiPass.conventional EfiPass.call
        simp only [notSecond, ↓reduceIte]
        split
        · split <;> split <;> simp only [ramCalls_append, none_added] <;> rfl
        · split
          · exact none_added
          · split
            · simp only [ramCalls_append, none_added]
              rfl
            · exact none_added
  unfold efiPass
  simp only [notSecond, false_and, ↓reduceIte]
  exact each _ rfl

/-- What is added: the empty range at the top of memory, and then the usable ranges. -/
theorem ramCalls_initRaminfoEfi (map : SortedMap descs) {usable : EfiMemoryDescriptor}
    (member : usable ∈ descs) (isRam : usable.type.becomesRam = true) :
    ∃ ranges, ramCalls (initRaminfoEfi descs) = (nullPaddr, 0) :: ranges ∧
      CoversRam ranges descs := by
  have started : Joined [] ⟨nullPaddr, 0, []⟩ :=
    .inl ⟨rfl, fun desc member => absurd member List.not_mem_nil⟩
  have ended : Joined descs (descs.foldl (EfiPass.descriptor 1) ⟨nullPaddr, 0, []⟩) :=
    started.run map
  rcases ended with ⟨_, none_usable⟩ | ⟨front, calls, covers, _⟩
  · rw [none_usable usable member] at isRam
    exact absurd isRam Bool.false_ne_true
  · refine ⟨_, ?_, covers⟩
    have pending := (covers.proper _ (List.mem_append_right _ (List.mem_singleton.mpr rfl))).1
    have second : ramCalls (efiPass descs 1) = (nullPaddr, 0) :: (front ++
        [((descs.foldl (EfiPass.descriptor 1) ⟨nullPaddr, 0, []⟩).curStart,
          (descs.foldl (EfiPass.descriptor 1) ⟨nullPaddr, 0, []⟩).curSize)]) := by
      unfold efiPass
      dsimp only
      rw [if_pos ⟨rfl, pending.ne'⟩, EfiPass.call]
      dsimp only
      rw [ramCalls_append, calls]
      rfl
    rw [initRaminfoEfi, ramCalls_append, ramCalls_append, ramCalls_efiPass (by decide), second,
      ramCalls_efiPass (by decide), List.nil_append, List.append_nil]

end Joined

/-! ## A map without RAM -/

section Avoided

variable {boot : Boot} {descs : List EfiMemoryDescriptor}

/-- The call for a descriptor that does not become RAM. -/
def avoidDescriptor (desc : EfiMemoryDescriptor) : RamInfoCall :=
  .avoidRam desc.physicalStart desc.nbytes

/-- The event of that call. -/
def avoidEvent (desc : EfiMemoryDescriptor) : AllocEvent :=
  ⟨.avoidRam desc.physicalStart desc.nbytes, none⟩

/-- Without usable descriptors every range is avoided, and that is all. -/
theorem initRaminfoEfi_unusable (unusable : ∀ desc ∈ descs, desc.type.becomesRam = false) :
    initRaminfoEfi descs = descs.map avoidDescriptor := by
  have neither : ∀ desc ∈ descs, desc.type.inUse = false ∧ desc.type ≠ .conventionalMemory := by
    intro desc member
    have notRam := unusable desc member
    simp only [EfiMemoryType.becomesRam, Bool.or_eq_false_iff, decide_eq_false_iff_not] at notRam
    exact notRam
  have first : ∀ state : EfiPass, (descs.foldl (EfiPass.descriptor 0) state).calls =
      state.calls ++ descs.map avoidDescriptor := by
    clear unusable
    induction descs with
    | nil => exact fun state => (List.append_nil _).symm
    | cons desc rest ih =>
        intro state
        obtain ⟨notInUse, notConventional⟩ := neither desc List.mem_cons_self
        rw [List.foldl_cons, ih (fun other member => neither other (List.mem_cons_of_mem _ member)),
          List.map_cons]
        simp only [EfiPass.descriptor, notInUse, notConventional, ↓reduceIte, Bool.false_eq_true,
          EfiPass.call, List.append_assoc, List.singleton_append, avoidDescriptor]
  have later : ∀ pass, pass ≠ 0 → ∀ state : EfiPass,
      descs.foldl (EfiPass.descriptor pass) state = state := by
    intro pass notFirst
    clear unusable first
    induction descs with
    | nil => exact fun state => rfl
    | cons desc rest ih =>
        intro state
        obtain ⟨notInUse, notConventional⟩ := neither desc List.mem_cons_self
        rw [List.foldl_cons]
        have step : state.descriptor pass desc = state := by
          simp only [EfiPass.descriptor, notInUse, notConventional, ↓reduceIte,
            Bool.false_eq_true, notFirst]
        rw [step]
        exact ih (fun other member => neither other (List.mem_cons_of_mem _ member)) state
  have passes : efiPass descs 0 = descs.map avoidDescriptor ∧ efiPass descs 1 = [] ∧
      efiPass descs 2 = [] := by
    have passed := first ⟨nullPaddr, 0, []⟩
    unfold efiPass
    dsimp only
    rw [later 1 (by decide), later 2 (by decide)]
    exact ⟨passed, rfl, rfl⟩
  rw [initRaminfoEfi, passes.1, passes.2.1, passes.2.2, List.append_nil, List.append_nil]

/-- The avoided ranges go through the allocator one after the other. -/
theorem avoidRun {history : List AllocEvent} {state after : RamState}
    (invariant : RunState boot history state)
    (proper : ∀ desc ∈ descs, 0 < desc.nbytes ∧ desc.physicalStart + desc.nbytes < 2 ^ 64)
    (run : (descs.map avoidDescriptor).foldlM (ramInfoStep boot) state = .ok after) :
    RunState boot (history ++ descs.map avoidEvent) after := by
  induction descs generalizing history state with
  | nil =>
      cases run
      rw [List.map_nil, List.append_nil]
      exact invariant
  | cons desc rest ih =>
      rw [List.map_cons, List.foldlM_cons] at run
      obtain ⟨middle, stepped, run⟩ := bind_eq_ok.mp run
      have step := avoidRam_step invariant (proper desc List.mem_cons_self) stepped
      have final := ih (.inr step)
        (fun other member => proper other (List.mem_cons_of_mem _ member)) run
      rw [List.map_cons, ← List.singleton_append, ← List.append_assoc]
      exact final

/-- Avoiding adds no RAM. -/
theorem addedRam_avoidEvents (descs : List EfiMemoryDescriptor) :
    addedRam (descs.map avoidEvent) = ∅ := by
  refine Set.eq_empty_of_forall_notMem ?_
  rintro address ⟨event, member, inAdded⟩
  obtain ⟨desc, _, rfl⟩ := List.mem_map.mp member
  exact inAdded

/-- The tables after a map without usable descriptors. -/
theorem importedTables_unusable (map : SortedMap descs)
    (unusable : ∀ desc ∈ descs, desc.type.becomesRam = false) {state : RamState}
    (run : (descs.map avoidDescriptor).foldlM (ramInfoStep boot) RamState.initial = .ok state) :
    ImportedTables boot descs state := by
  have bytes : ∀ desc ∈ descs, desc.nbytes = desc.numberOfPages * 0x1000 := by
    intro desc member
    have inMemory := map.inMemory desc member
    exact Nat.mod_eq_of_lt (by omega)
  have proper : ∀ desc ∈ descs, 0 < desc.nbytes ∧ desc.physicalStart + desc.nbytes < 2 ^ 64 := by
    intro desc member
    have pages := map.pages desc member
    rw [bytes desc member]
    exact ⟨by omega, map.inMemory desc member⟩
  have ended : RunState boot ([] ++ descs.map avoidEvent) state :=
    avoidRun (.inl ⟨rfl, rfl⟩) proper run
  rw [List.nil_append] at ended
  rcases ended with ⟨none_made, _⟩ | ⟨_, ram, avoid, free, taken, isRam, isAvoid, guarded⟩
  · exact absurd (List.map_eq_nil_iff.mp none_made) map.some_desc
  · have nothing : free = ∅ := by
      have within := guarded.added
      rw [addedRam_avoidEvents] at within
      exact Set.subset_empty_iff.mp within
    have noConventional : conventionalRam descs = ∅ := by
      refine Set.eq_empty_of_forall_notMem ?_
      rintro address ⟨desc, member, conventional, _⟩
      have notRam := unusable desc member
      simp [EfiMemoryType.becomesRam, conventional] at notRam
    refine ⟨ram, avoid, taken, isRam, isAvoid, guarded.avoids, ?_, ?_⟩
    · rw [noConventional, Set.empty_sdiff, ← nothing]
      exact guarded.holds
    · intro desc member _ address inside
      refine guarded.listed (.inr ⟨avoidEvent desc, List.mem_map_of_mem member, ?_⟩)
      change address ∈ Set.Ico desc.physicalStart (desc.physicalStart + desc.nbytes)
      rw [bytes desc member]
      exact inside

end Avoided

/-- **A sorted map is imported as it should be exactly when nothing in it becomes RAM.** -/
theorem efiImported_iff (boot : Boot) (descs : List EfiMemoryDescriptor) (map : SortedMap descs) :
    EfiImported boot descs ↔ ∀ desc ∈ descs, desc.type.becomesRam = false := by
  constructor
  · intro imported desc member
    by_contra usable
    have isRam : desc.type.becomesRam = true := by simpa using usable
    obtain ⟨ranges, calls, _⟩ := ramCalls_initRaminfoEfi map member isRam
    have proper := imported.added.proper (nullPaddr, 0) (by rw [calls]; exact List.mem_cons_self)
    exact absurd proper.1 (Nat.lt_irrefl 0)
  · intro unusable
    have calls := initRaminfoEfi_unusable unusable
    refine ⟨?_, ?_⟩
    · have none_added : ramCalls (initRaminfoEfi descs) = [] := by
        rw [calls, ramCalls, List.filterMap_map]
        exact List.filterMap_eq_nil_iff.mpr fun desc _ => rfl
      rw [none_added]
      refine ⟨by simp, List.Pairwise.nil, ?_⟩
      intro address
      constructor
      · rintro ⟨range, member, _⟩
        exact absurd member List.not_mem_nil
      · rintro ⟨desc, member, isRam, _⟩
        rw [unusable desc member] at isRam
        exact absurd isRam Bool.false_ne_true
    · intro state run
      rw [calls] at run
      exact importedTables_unusable map unusable run

/-- A map with one reserved page. -/
theorem efiImported_reserved :
    EfiImported smallBoot [⟨.reservedMemoryType, 0x1000, 1⟩] ↔
      ∀ desc ∈ [(⟨.reservedMemoryType, 0x1000, 1⟩ : EfiMemoryDescriptor)],
        desc.type.becomesRam = false :=
  efiImported_iff smallBoot _
    ⟨by simp, by simp, by simp, by simp, List.pairwise_singleton _ _⟩

/-- Two pages of free memory: an empty range is added before them. -/
theorem conventional_adds_empty_range :
    SortedMap [⟨.conventionalMemory, 0x100000, 2⟩] ∧
      ramCalls (initRaminfoEfi [⟨.conventionalMemory, 0x100000, 2⟩]) =
        [(nullPaddr, 0), (0x100000, 0x2000)] ∧
      ¬ EfiImported smallBoot [⟨.conventionalMemory, 0x100000, 2⟩] := by
  refine ⟨⟨by simp, by simp, by simp, by simp, List.pairwise_singleton _ _⟩, rfl, ?_⟩
  intro imported
  have proper := imported.added.proper (nullPaddr, 0) (by decide)
  exact absurd proper.1 (Nat.lt_irrefl 0)

end Bcm2711.Startup
