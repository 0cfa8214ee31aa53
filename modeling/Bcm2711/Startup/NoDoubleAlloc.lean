import Bcm2711.Startup.RamRuns

/-! # No block is handed out twice

A block leaves free RAM in one of two ways: `alloc_ram` deletes it from `ram_list`, and
`ws_alloc` puts it on the avoid list.  `Guarded` is the joint invariant of the two tables
over the history of calls, and every block returned is found in free RAM that is not
avoided.

The exception is a `ws_alloc` that finds `ram_list` empty although RAM was added before:
it takes the memory at `ws_early_next` again, which nothing protects.
-/

namespace Bcm2711.Startup

open Fallible Runs Spans

/-- The calls of the startup allocator. -/
inductive AllocCall where
  | addRam (start size : Nat)
  | avoidRam (start size : Nat)
  | wsAlloc (size : Nat)
  /-- `alloc_ram(NULL_PADDR, size, align)`. -/
  | allocRam (size align : Nat)
deriving DecidableEq, Repr

/-- An allocator call that returned. -/
abbrev AllocEvent := Event AllocCall (Option Nat)

namespace AllocCall

/-- The RAM a call adds. -/
def added : AllocCall → Set Nat
  | addRam start size => Set.Ico start (start + size)
  | _ => ∅

/-- The size of the block a call returns. -/
def blockSize : AllocCall → Nat
  | wsAlloc size => ROUND size 8
  | allocRam size _ => size
  | _ => 0

/-- The alignment of the block a call returns. -/
def blockAlign : AllocCall → Nat
  | wsAlloc _ => 8
  | allocRam _ align => align
  | _ => 1

/-- The call is an `add_ram`. -/
def AddsRam : AllocCall → Prop
  | addRam _ _ => True
  | _ => False

/-- The call is a `ws_alloc`. -/
def IsWorkspace : AllocCall → Prop
  | wsAlloc _ => True
  | _ => False

end AllocCall

/-- The block an event returned. -/
def blockOf (event : AllocEvent) : Set Nat :=
  match event.returned with
  | none => ∅
  | some addr => Set.Ico addr (addr + event.call.blockSize)

/-- The addresses an event puts on the avoid list. -/
def avoidedBy (event : AllocEvent) : Set Nat :=
  match event.call with
  | .avoidRam start size => Set.Ico start (start + size)
  | .wsAlloc _ => blockOf event
  | _ => ∅

/-- The RAM added in a history. -/
def addedRam (history : List AllocEvent) : Set Nat :=
  {address | ∃ event ∈ history, address ∈ event.call.added}

/-- Some call of the history was an `add_ram`. -/
def RamAdded (history : List AllocEvent) : Prop := ∃ event ∈ history, event.call.AddsRam

/-- The memory of the boot image behind the startup program. -/
def imageRange (boot : Boot) : Set Nat :=
  Set.Ico (boot.fullRamPaddr + boot.startupSize) (boot.fullRamPaddr + boot.ramSize)

/-- The memory of the startup program. -/
def startupRange (boot : Boot) : Set Nat :=
  Set.Ico boot.fullRamPaddr (boot.fullRamPaddr + boot.startupSize)

/-- What was put on the avoid list in a history. -/
def onAvoidList (boot : Boot) (history : List AllocEvent) : Set Nat :=
  startupRange boot ∪ {address | ∃ event ∈ history, address ∈ avoidedBy event}

/-- What callers promise: ranges do not wrap, avoided ranges and requests are not empty,
added ranges are disjoint and alignments are powers of two. -/
def Legal (history : List AllocEvent) : AllocCall → Prop
  | .addRam start size => start + size < 2 ^ 64 ∧
      Disjoint (Set.Ico start (start + size)) (addedRam history)
  | .avoidRam start size => 0 < size ∧ start + size < 2 ^ 64
  | .wsAlloc _ => True
  | .allocRam size align => 0 < size ∧ size < 2 ^ 64 ∧ ∃ shift < 32, align = 2 ^ shift

/-- Where the allocator keeps its promise: once RAM was added workspace is requested only
while `ram_list` has an entry, and nothing rounds or adds up past the top of memory.  An
empty block at address zero would end the avoid list. -/
def Sound (boot : Boot) (history : List AllocEvent) (state : RamState) : AllocCall → Prop
  | .addRam start size => start + size + (2 ^ boot.pageShift - 1) ≤ 2 ^ 64
  | .avoidRam _ _ => True
  | .wsAlloc size => size + 7 < 2 ^ 64 ∧
      (RamAdded history → sizeofRamEntry < state.ramListSize ∧ (size = 0 → 0 ∉ addedRam history)) ∧
      (¬ RamAdded history → ∀ ready, ensureInit boot state = .ok ready →
        ready.wsEarlyNext + ROUND size 8 < 2 ^ 64)
  | .allocRam _ align => ∀ address ∈ addedRam history, address + (align - 1) < 2 ^ 64

/-- The joint invariant of `ram_list` and the avoid list. -/
structure Guarded (boot : Boot) (history : List AllocEvent) (ram : RamTable) (avoid : AvoidTable)
    (free taken : Set Nat) : Prop where
  holds : ram.HoldsFree free
  avoids : avoid.Avoids taken
  added : free ⊆ addedRam history
  image : Disjoint free (imageRange boot)
  listed : onAvoidList boot history ⊆ taken
  /-- Deleted blocks are not free, and were added, so that they are not added again. -/
  deleted : ∀ event ∈ history, ¬ event.call.IsWorkspace →
    Disjoint (blockOf event) free ∧ blockOf event ⊆ addedRam history
  room : ∀ address ∈ addedRam history, address + (2 ^ boot.pageShift - 1) < 2 ^ 64

/-- The tables of a state are guarded. -/
def GuardedState (boot : Boot) (history : List AllocEvent) (state : RamState) : Prop :=
  0 < state.wsEarlyNext ∧ ∃ ram avoid free taken, state.ram = some ram ∧
    state.avoid = some avoid ∧ Guarded boot history ram avoid free taken

variable {boot : Boot} {history : List AllocEvent}

theorem addedRam_append (event : AllocEvent) :
    addedRam (history ++ [event]) = addedRam history ∪ event.call.added := by
  ext address
  simp only [addedRam, List.mem_append, List.mem_singleton, or_and_right, exists_or,
    exists_eq_left, Set.mem_ofPred_eq, Set.mem_union]

theorem onAvoidList_append (event : AllocEvent) :
    onAvoidList boot (history ++ [event]) = onAvoidList boot history ∪ avoidedBy event := by
  ext address
  simp only [onAvoidList, List.mem_append, List.mem_singleton, or_and_right, exists_or,
    exists_eq_left, Set.mem_ofPred_eq, Set.mem_union, or_assoc]

theorem pageShift_bounds (boot : Boot) : 12 ≤ boot.pageShift ∧ boot.pageShift ≤ 16 := by
  have member := boot.pageShift_mem
  simp only [List.mem_cons, List.not_mem_nil, or_false] at member
  omega

/-! ## What each table operation keeps -/

namespace Guarded

variable {ram : RamTable} {avoid : AvoidTable} {free taken : Set Nat}

/-- Avoiding more keeps the tables guarded. -/
theorem avoid_more (guarded : Guarded boot history ram avoid free taken) {next : AvoidTable}
    {more : Set Nat} (avoids : next.Avoids (taken ∪ more)) :
    Guarded boot history ram next free (taken ∪ more) :=
  { guarded with
    avoids := avoids
    listed := guarded.listed.trans Set.subset_union_left }

/-- An event that adds no RAM and returns no block but workspace, once what it avoids is
on the list. -/
theorem append_avoid (guarded : Guarded boot history ram avoid free taken) {event : AllocEvent}
    (adds_none : event.call.added = ∅)
    (no_block : ¬ event.call.IsWorkspace → blockOf event = ∅) (listed : avoidedBy event ⊆ taken) :
    Guarded boot (history ++ [event]) ram avoid free taken := by
  have sameAdded : addedRam (history ++ [event]) = addedRam history := by
    rw [addedRam_append, adds_none, Set.union_empty]
  refine ⟨guarded.holds, guarded.avoids, sameAdded ▸ guarded.added, guarded.image, ?_, ?_,
    sameAdded ▸ guarded.room⟩
  · rw [onAvoidList_append]
    exact Set.union_subset guarded.listed listed
  · intro earlier member notWorkspace
    rw [sameAdded]
    rcases List.mem_append.mp member with old | new
    · exact guarded.deleted earlier old notWorkspace
    · rw [List.mem_singleton.mp new] at notWorkspace ⊢
      rw [no_block notWorkspace]
      exact ⟨Set.empty_disjoint _, Set.empty_subset _⟩

end Guarded

/-- What a returned block promises, given the calls made before. -/
structure FreshBlock (boot : Boot) (before : List AllocEvent) (event : AllocEvent) (addr : Nat) :
    Prop where
  aligned : event.call.blockAlign ∣ addr
  inside : blockOf event ⊆ addedRam before
  image : Disjoint (blockOf event) (imageRange boot)
  listed : Disjoint (blockOf event) (onAvoidList boot before)
  apart : ∀ earlier ∈ before, Disjoint (blockOf event) (blockOf earlier)

/-- A block found in guarded tables is fresh. -/
theorem Guarded.fresh {ram : RamTable} {avoid : AvoidTable} {free taken : Set Nat}
    (guarded : Guarded boot history ram avoid free taken) {call : AllocCall} {addr : Nat}
    (found : RamFound free taken call.blockSize call.blockAlign addr) :
    FreshBlock boot history ⟨call, some addr⟩ addr := by
  have inside : blockOf ⟨call, some addr⟩ ⊆ free := found.inside
  refine ⟨found.aligned, inside.trans guarded.added, guarded.image.mono_left inside,
    found.clear.mono_right guarded.listed, ?_⟩
  intro earlier member
  by_cases workspace : earlier.call.IsWorkspace
  · refine found.clear.mono_right ?_
    have avoids : blockOf earlier = avoidedBy earlier := by
      obtain ⟨call, returned⟩ := earlier
      cases call with
      | wsAlloc size => rfl
      | addRam start size => exact workspace.elim
      | avoidRam start size => exact workspace.elim
      | allocRam size align => exact workspace.elim
    rw [avoids]
    exact fun address inBlock => guarded.listed (Or.inr ⟨earlier, member, inBlock⟩)
  · exact ((guarded.deleted earlier member workspace).1.mono_right inside).symm

/-! ## What each call keeps -/

/-- Rounding up to eight bytes. -/
theorem round_eight {size : Nat} (fits : size + 7 < 2 ^ 64) :
    size ≤ ROUND size 8 ∧ ROUND size 8 < size + 8 :=
  ⟨@Word.le_round 64 size 3 (by decide) fits, @Word.round_lt_add 64 size 3 (by decide) fits⟩

/-- `ws_init` returns, with an empty `ram_list` and a short avoid list. -/
theorem wsInit_returns (boot : Boot) :
    ∃ ready avoid taken, wsInit boot RamState.initial = .ok ready ∧ 0 < ready.wsEarlyNext ∧
      ready.ram = some ⟨fun _ => ⟨0, 0⟩, sizeofRamEntry⟩ ∧ ready.avoid = some avoid ∧
      avoid.Avoids (taken ∪ startupRange boot) ∧ avoid.avoidListSize ≤ 4 * sizeofAvoidEntry ∧
      ready.asinfo = [] ∧ ready.sysramAdded = false := by
  have slack := boot.fits
  have nonempty := boot.startup_nonempty
  have contained := boot.startup_le_ram
  have sum : addPaddr boot.fullRamPaddr boot.ramSize = boot.fullRamPaddr + boot.ramSize :=
    addPaddr_of_lt (by omega)
  obtain ⟨above, below⟩ := @round_eight (boot.fullRamPaddr + boot.ramSize) (by omega)
  generalize isFirst : ROUND (boot.fullRamPaddr + boot.ramSize) 8 = first at above below
  have avoidBytes : ROUND maxAvoidListSize 8 = 1024 := by decide
  have ramBytes : ROUND maxRamListSize 8 = 3072 := by decide
  have second : addPaddr first 1024 = first + 1024 := addPaddr_of_lt (by omega)
  have third : addPaddr (first + 1024) 3072 = first + 4096 := addPaddr_of_lt (by omega)
  have avoids₀ : AvoidTable.Avoids ⟨fun slot =>
      if slot = 0 then ⟨first, first + 1024⟩ else ⟨0, 0⟩, 2 * sizeofAvoidEntry⟩
      (Set.Ico first (first + 1024)) := by
    refine ⟨[⟨first, first + 1024⟩], ⟨⟨?_, ?_, rfl⟩, rfl, ?_⟩, by simp, avoided_singleton _⟩
    · intro slot inside
      rw [Nat.lt_one_iff.mp inside]
      rfl
    · intro entry member
      rw [List.mem_singleton.mp member]
      simp [AvoidEntry.Ended]
    · intro entry member
      rw [List.mem_singleton.mp member]
      dsimp only
      omega
  have early : (0 : Nat) ≤ sizeofRamEntry := Nat.zero_le _
  obtain ⟨avoid₁, run₁, avoids₁, size₁⟩ := addAvoid_returns avoids₀
    (by omega : (first + 1024) + 3072 ≠ 0) (by omega)
    (by simp only [sizeofAvoidEntry, maxAvoidListSize]; omega)
  simp only [sizeofAvoidEntry] at size₁
  obtain ⟨avoid₂, run₂, avoids₂, size₂⟩ := addAvoid_returns avoids₁
    (by omega : boot.fullRamPaddr + boot.startupSize ≠ 0) (by omega)
    (by simp only [sizeofAvoidEntry, maxAvoidListSize]; omega)
  simp only [sizeofAvoidEntry] at size₂
  refine ⟨⟨some ⟨fun _ => ⟨0, 0⟩, sizeofRamEntry⟩, some avoid₂, first + 4096, nullPaddr, false, []⟩,
    avoid₂, _, ?_, by dsimp only; omega, rfl, rfl, avoids₂, ?_, rfl, rfl⟩
  · simp only [wsInit, sum, isFirst, avoidBytes, second, third, RamState.initial, wsTake,
      RamState.ramListSize, early, ↓reduceIte, ramBytes, deref, bind, Except.bind, run₁, pure,
      Except.pure, run₂]
  · simp only [sizeofAvoidEntry]
    omega

/-- `ws_init` leaves guarded tables. -/
theorem wsInit_guarded {ready : RamState} (run : wsInit boot RamState.initial = .ok ready) :
    GuardedState boot [] ready := by
  obtain ⟨other, avoid, taken, returns, positive, isRam, isAvoid, avoids, _⟩ := wsInit_returns boot
  rw [returns] at run
  cases run
  refine ⟨positive, _, avoid, ∅, _, isRam, isAvoid,
    ⟨holdsFree_empty rfl rfl, avoids, Set.empty_subset _, Set.empty_disjoint _, ?_, ?_, ?_⟩⟩
  · rintro address (inStartup | ⟨event, member, _⟩)
    · exact Or.inr inStartup
    · exact (List.not_mem_nil member).elim
  · exact fun event member => (List.not_mem_nil member).elim
  · rintro address ⟨event, member, _⟩
    exact (List.not_mem_nil member).elim

/-- The state of a run: nothing happened yet, or the tables are guarded. -/
def RunState (boot : Boot) (history : List AllocEvent) (state : RamState) : Prop :=
  (history = [] ∧ state = RamState.initial) ∨ GuardedState boot history state

/-- The tables are guarded once they exist. -/
theorem ensureInit_guarded {state ready : RamState} (invariant : RunState boot history state)
    (run : ensureInit boot state = .ok ready) : GuardedState boot history ready := by
  rcases invariant with ⟨rfl, rfl⟩ | guarded
  · exact wsInit_guarded run
  · obtain ⟨_, _, _, _, _, isAvoid, _⟩ := guarded.2
    simp only [ensureInit, isAvoid] at run
    cases run
    exact guarded

/-- `avoid_ram` keeps the tables guarded. -/
theorem avoidRam_step {state after : RamState} {start size : Nat}
    (invariant : RunState boot history state) (legal : Legal history (.avoidRam start size))
    (run : avoidRam boot state start size = .ok after) :
    GuardedState boot (history ++ [⟨.avoidRam start size, none⟩]) after := by
  obtain ⟨nonempty, fits⟩ := legal
  obtain ⟨ready, inited, rest⟩ := bind_eq_ok.mp run
  obtain ⟨positive, ram, avoid, free, taken, isRam, isAvoid, tables⟩ :=
    ensureInit_guarded invariant inited
  rcases addAvoid_avoids tables.avoids (by omega : start + size ≠ 0) fits with
    overflow | ⟨next, listed, avoids⟩
  · simp only [isAvoid, deref, bind, Except.bind, overflow, reduceCtorEq] at rest
  · simp only [isAvoid, deref, bind, Except.bind, listed, pure, Except.pure] at rest
    cases rest
    exact ⟨positive, ram, next, free, _, isRam, rfl,
      (tables.avoid_more avoids).append_avoid rfl (fun _ => rfl) Set.subset_union_right⟩

/-- The image is in memory. -/
theorem Boot.image_fits (boot : Boot) :
    boot.fullRamPaddr + boot.startupSize + (boot.ramSize - boot.startupSize) < 2 ^ 64 := by
  have slack := boot.fits
  have contained := boot.startup_le_ram
  omega

/-- The range that `add_ram` takes out at its end is the image. -/
theorem Boot.ico_image (boot : Boot) :
    Set.Ico (boot.fullRamPaddr + boot.startupSize)
      (boot.fullRamPaddr + boot.startupSize + (boot.ramSize - boot.startupSize)) =
        imageRange boot := by
  have contained := boot.startup_le_ram
  have stop : boot.fullRamPaddr + boot.startupSize + (boot.ramSize - boot.startupSize) =
      boot.fullRamPaddr + boot.ramSize := by omega
  rw [stop, imageRange]

/-- The call of `alloc_ram` at the end of `add_ram` takes the image. -/
theorem allocRam_image (boot : Boot) (state : RamState) (align : Nat) :
    allocRam state (addPaddr boot.fullRamPaddr boot.startupSize)
        (Word.sub 32 boot.ramSize boot.startupSize) align =
      takeRam state (boot.fullRamPaddr + boot.startupSize) (boot.ramSize - boot.startupSize) := by
  have slack := boot.fits
  have contained := boot.startup_le_ram
  have image : addPaddr boot.fullRamPaddr boot.startupSize =
      boot.fullRamPaddr + boot.startupSize := addPaddr_of_lt (by omega)
  have length : Word.sub 32 boot.ramSize boot.startupSize = boot.ramSize - boot.startupSize :=
    Word.sub_of_le contained boot.ramSize_lt
  have isExplicit : boot.fullRamPaddr + boot.startupSize ≠ nullPaddr := by
    simp only [nullPaddr]
    omega
  rw [image, length]
  exact if_neg isExplicit

/-- A boot image of 128 KiB at `0x80000`, half of it the startup program. -/
def smallBoot : Boot where
  fullRamPaddr := 0x80000
  startupSize := 0x10000
  ramSize := 0x20000
  paddrBits := 36
  pageShift := 12
  startup_nonempty := by decide
  startup_le_ram := by decide
  ramSize_lt := by decide
  fits := by decide
  paddrBits_mem := by decide
  pageShift_mem := by decide

end Bcm2711.Startup
