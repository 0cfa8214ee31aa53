import Bcm2711.Startup.Alloc

/-! # Runs of `add_mem` and `alloc_ram`

Whatever ranges are added and allocated by address, in whatever order, `ram_list` stays
a canonical table of the addresses that were last covered by an `add_mem`.
-/

namespace Bcm2711.Startup

open Fallible Runs Spans

/-- The calls that change `ram_list` at an address of the caller's choice. -/
inductive RamCall where
  | addMem (start size : Nat)
  | allocRam (addr size align : Nat)
deriving DecidableEq, Repr

/-- The addresses a call covers. -/
def RamCall.range : RamCall → Set Nat
  | .addMem start size => Set.Ico start (start + size)
  | .allocRam addr size _ => Set.Ico addr (addr + size)

/-- The call is an `add_mem`. -/
def RamCall.Adds : RamCall → Prop
  | .addMem _ _ => True
  | .allocRam _ _ _ => False

/-- The address is explicit and the range does not wrap. -/
def RamCall.Fits : RamCall → Prop
  | .addMem start size => start + size < 2 ^ 64
  | .allocRam addr size _ => addr ≠ nullPaddr ∧ addr + size < 2 ^ 64

instance (call : RamCall) : Decidable call.Fits :=
  match call with
  | .addMem _ _ => inferInstanceAs (Decidable (_ < _))
  | .allocRam _ _ _ => inferInstanceAs (Decidable (_ ∧ _))

/-- Make a call. -/
def ramStep (state : RamState) : RamCall → Result (RamState × Unit)
  | .addMem start size => do
      let ram ← addMem (← deref state.ram) start size
      return ({ state with ram := some ram }, ())
  | .allocRam addr size align => do
      let (state, _) ← allocRam state addr size align
      return (state, ())

/-- A call that changes `ram_list` and returned. -/
abbrev RamEvent := Event RamCall Unit

/-- The last call that covered the address was an `add_mem`. -/
def LastAdds (history : List RamEvent) (address : Nat) : Prop :=
  ∃ before event after, history = before ++ event :: after ∧ event.call.Adds ∧
    address ∈ event.call.range ∧ ∀ later ∈ after, address ∉ later.call.range

theorem not_lastAdds_nil (address : Nat) : ¬ LastAdds [] address := by
  rintro ⟨before, event, after, empty, _⟩
  cases before <;> cases empty

/-- One more call decides the addresses it covers and leaves the others. -/
theorem lastAdds_append {history : List RamEvent} {event : RamEvent} {address : Nat} :
    LastAdds (history ++ [event]) address ↔
      event.call.Adds ∧ address ∈ event.call.range ∨
        LastAdds history address ∧ address ∉ event.call.range := by
  constructor
  · rintro ⟨before, found, after, split, adds, covers, clear⟩
    cases after using List.reverseRecOn with
    | nil =>
        obtain ⟨_, last⟩ := List.append_inj' split rfl
        rw [List.singleton_inj.mp last]
        exact Or.inl ⟨adds, covers⟩
    | append_singleton rest last =>
        rw [← List.cons_append, ← List.append_assoc] at split
        obtain ⟨isHistory, isLast⟩ := List.append_inj' split rfl
        rw [List.singleton_inj.mp isLast]
        exact Or.inr ⟨⟨before, found, rest, isHistory, adds, covers,
          fun later member => clear later (List.mem_append_left _ member)⟩,
          clear last (by simp)⟩
  · rintro (⟨adds, covers⟩ | ⟨⟨before, found, after, rfl, adds, covers, clear⟩, outside⟩)
    · exact ⟨history, event, [], rfl, adds, covers, by simp⟩
    · refine ⟨before, found, after ++ [event], by simp, adds, covers, ?_⟩
      intro later member
      rcases List.mem_append.mp member with old | new
      · exact clear later old
      · rw [List.mem_singleton.mp new]
        exact outside

/-- `alloc_ram` at an address changes `ram_list` and, behind `add_sysram`, the table of
address ranges. -/
theorem takeRam_ok {state after : RamState} {ram : RamTable} {free : Set Nat}
    {addr size returned : Nat} (isRam : state.ram = some ram) (holds : ram.HoldsFree free)
    (fits : addr + size < 2 ^ 64) (taken : takeRam state addr size = .ok (after, returned)) :
    returned = addr ∧ ∃ removed, removed.HoldsFree (free \ Set.Ico addr (addr + size)) ∧
      after = { state with ram := some removed, asinfo := after.asinfo } := by
  rcases removeRam_holdsFree holds fits with overflow | ⟨removed, run, stored⟩
  · simp only [takeRam, isRam, deref, bind, Except.bind, overflow, reduceCtorEq] at taken
  · simp only [takeRam, isRam, deref, bind, Except.bind, run, pure, Except.pure] at taken
    split at taken
    · split at taken
      · cases taken
      · cases taken
        exact ⟨rfl, removed, stored, rfl⟩
    · cases taken
      exact ⟨rfl, removed, stored, rfl⟩

/-- Before `add_sysram`, `alloc_ram` at an address fails only when the table is full. -/
theorem takeRam_returns {state : RamState} {ram : RamTable} {free : Set Nat}
    {addr size : Nat} (isRam : state.ram = some ram) (holds : ram.HoldsFree free)
    (fits : addr + size < 2 ^ 64) (early : state.sysramAdded = false) :
    takeRam state addr size = .error ramEntryOverflow ∨
      ∃ after, takeRam state addr size = .ok (after, addr) := by
  rcases removeRam_holdsFree holds fits with overflow | ⟨removed, run, stored⟩
  · exact Or.inl (by
      simp only [takeRam, isRam, deref, bind, Except.bind, overflow])
  · exact Or.inr ⟨{ state with ram := some removed }, by
      simp only [takeRam, isRam, deref, bind, Except.bind, run, pure, Except.pure, early,
        Bool.false_eq_true, ↓reduceIte]⟩

/-- `ram_list` holds the addresses that were last added. -/
def RamListHolds (history : List RamEvent) (state : RamState) : Prop :=
  ∃ ram, state.ram = some ram ∧ ram.HoldsFree {address | LastAdds history address}

/-- Every call keeps what `ram_list` holds in step with the history. -/
theorem ramListHolds_step {history : List RamEvent} {state after : RamState} {call : RamCall}
    {returned : Unit} (holds : RamListHolds history state) (fits : call.Fits)
    (stepped : ramStep state call = .ok (after, returned)) :
    RamListHolds (history ++ [⟨call, returned⟩]) after := by
  obtain ⟨ram, isRam, free⟩ := holds
  cases call with
  | addMem start size =>
      rcases addMem_holdsFree free fits with overflow | ⟨added, run, stored⟩
      · simp only [ramStep, isRam, deref, bind, Except.bind, overflow, reduceCtorEq] at stepped
      · simp only [ramStep, isRam, deref, bind, Except.bind, run, pure, Except.pure] at stepped
        cases stepped
        refine ⟨added, rfl, ?_⟩
        convert stored using 1
        ext address
        simp only [Set.mem_ofPred_eq, lastAdds_append, RamCall.Adds, RamCall.range, true_and,
          Set.mem_union]
        tauto
  | allocRam addr size align =>
      obtain ⟨isExplicit, inMemory⟩ := fits
      simp only [ramStep, allocRam, isExplicit, ↓reduceIte] at stepped
      obtain ⟨⟨next, place⟩, taken, returns⟩ := bind_eq_ok.mp stepped
      cases returns
      obtain ⟨_, removed, stored, isAfter⟩ := takeRam_ok isRam free inMemory taken
      refine ⟨removed, by rw [isAfter], ?_⟩
      convert stored using 1
      ext address
      simp only [Set.mem_ofPred_eq, lastAdds_append, RamCall.Adds, RamCall.range, false_and,
        false_or, Set.mem_sdiff]

/-- Before `add_sysram`, a call fails only when the table is full. -/
theorem ramStep_returns {history : List RamEvent} {state : RamState} {call : RamCall}
    (holds : RamListHolds history state) (fits : call.Fits) (early : state.sysramAdded = false) :
    ramStep state call = .error ramEntryOverflow ∨
      ∃ after, ramStep state call = .ok (after, ()) := by
  obtain ⟨ram, isRam, free⟩ := holds
  cases call with
  | addMem start size =>
      rcases addMem_holdsFree free fits with overflow | ⟨added, run, _⟩
      · exact Or.inl (by simp only [ramStep, isRam, deref, bind, Except.bind, overflow])
      · exact Or.inr ⟨{ state with ram := some added }, by
          simp only [ramStep, isRam, deref, bind, Except.bind, run, pure, Except.pure]⟩
  | allocRam addr size align =>
      obtain ⟨isExplicit, inMemory⟩ := fits
      simp only [ramStep, allocRam, isExplicit, ↓reduceIte]
      rcases takeRam_returns isRam free inMemory early with overflow | ⟨after, taken⟩
      · exact Or.inl (by rw [overflow]; rfl)
      · exact Or.inr ⟨after, by rw [taken]; rfl⟩

/-- What is free in a run that starts with an empty table. -/
theorem ramListHolds_run {start : RamState} {empty : RamTable} (isEmpty : start.ram = some empty)
    (bytes : empty.ramListSize = sizeofRamEntry) (terminated : (empty.ramList 0).size = 0)
    {history : List RamEvent} {state : RamState}
    (run : Run ramStep (fun _ _ call => call.Fits) start history state) :
    RamListHolds history state := by
  refine run.invariant ?_ fun _ _ _ _ _ holds fits stepped => ramListHolds_step holds fits stepped
  refine ⟨empty, isEmpty, ?_⟩
  have none_added : {address | LastAdds [] address} = ∅ :=
    Set.eq_empty_of_forall_notMem not_lastAdds_nil
  rw [none_added]
  exact holdsFree_empty bytes terminated

/-- **`ram_list` over whole runs.** From an empty table, any sequence of `add_mem` and
explicit `alloc_ram` calls keeps the table well formed and covers an address exactly when
the last call that covered it was an `add_mem`; until `add_sysram` the only failure of a
next call is the overflow crash. -/
theorem ramList_run {start : RamState} {empty : RamTable} (isEmpty : start.ram = some empty)
    (bytes : empty.ramListSize = sizeofRamEntry) (terminated : (empty.ramList 0).size = 0)
    {history : List RamEvent} {state : RamState}
    (run : Run ramStep (fun _ _ call => call.Fits) start history state) :
    (∃ ram count, state.ram = some ram ∧ ram.WellFormed count ∧
      ∀ address, ram.Covers count address ↔ LastAdds history address) ∧
    (state.sysramAdded = false → ∀ call : RamCall, call.Fits →
      ramStep state call = .error ramEntryOverflow ∨
        ∃ after, ramStep state call = .ok (after, ())) := by
  have holds := ramListHolds_run isEmpty bytes terminated run
  refine ⟨?_, fun early call fits => ramStep_returns holds fits early⟩
  obtain ⟨ram, isRam, free⟩ := holds
  obtain ⟨count, wellFormed, covers⟩ := free.wellFormed
  exact ⟨ram, count, isRam, wellFormed, covers⟩

/-- The allocator with an empty table. -/
def emptyRamState : RamState :=
  { RamState.initial with ram := some ⟨fun _ => ⟨0, 0⟩, sizeofRamEntry⟩ }

theorem ramList_run_add_alloc : ∃ state ram count,
    Run ramStep (fun _ _ call => call.Fits) emptyRamState
      [⟨.addMem 0x1000 0x3000, ()⟩, ⟨.allocRam 0x2000 0x1000 1, ()⟩] state ∧
    state.ram = some ram ∧ ram.WellFormed count ∧
      ∀ address, ram.Covers count address ↔
        LastAdds [⟨.addMem 0x1000 0x3000, ()⟩, ⟨.allocRam 0x2000 0x1000 1, ()⟩] address := by
  have added : (RamCall.addMem 0x1000 0x3000).Fits := by decide
  have taken : (RamCall.allocRam 0x2000 0x1000 1).Fits := by decide
  have first := @Run.next _ _ _ _ ramStep (fun _ _ call => call.Fits) emptyRamState [] _ _
    (.addMem 0x1000 0x3000) () .start added rfl
  have run := first.next taken rfl
  obtain ⟨⟨ram, count, isRam, wellFormed, covers⟩, _⟩ := ramList_run rfl rfl rfl run
  exact ⟨_, ram, count, run, isRam, wellFormed, covers⟩

end Bcm2711.Startup
