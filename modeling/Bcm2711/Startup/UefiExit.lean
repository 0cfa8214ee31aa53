import Bcm2711.Startup.Types

/-! # Leaving the boot services

`_uefi_exit_boot_services` gets the memory map and leaves the boot services of the firmware
with its key.  A key that is no longer good is tried again with another map.  When the
last try allowed fails the loop ends like after a success, and what only a success should clear
is cleared.

The results of the firmware are given for each round of the outer loop: that of the first
query, those of the rounds that allocate a buffer and get the map, and that of the exit.
-/

namespace Bcm2711.Startup

/-- An `EFI_STATUS`. -/
inductive EfiStatus where
  | success
  | invalidParameter
  | bufferTooSmall
  | other (code : Nat)
deriving DecidableEq, Repr

/-- What `GetMemoryMap` returns and stores. -/
structure MapReply where
  status : EfiStatus
  mapSize : Nat
  mapKey : Nat
  descSize : Nat

/-- What `AllocatePool` returns and stores; `NULL` is the address 0. -/
structure PoolReply where
  status : EfiStatus
  desc : Nat

/-- The results of one round of the outer loop. -/
structure ExitAttempt where
  query : MapReply
  rounds : Nat → PoolReply × MapReply
  exit : EfiStatus

/-- The calls of the firmware that have been made. -/
inductive UefiCall where
  | getMemoryMap (mapSize desc : Nat) (reply : MapReply)
  | allocatePool (size : Nat) (reply : PoolReply)
  | freePool (desc : Nat)
  | exitBootServices (mapKey : Nat) (status : EfiStatus)

/-- The variables of the function, and the calls. -/
structure ExitState where
  mapKey : Nat
  descSize : Nat
  mapSize : Nat
  desc : Nat
  retryCnt : Nat
  trace : List UefiCall

/-- The variables at the start; those that are not initialised are zero here. -/
def ExitState.initial : ExitState := ⟨0, 0, 0, 0, 0, []⟩

/-- How the function goes on behind the loops. -/
inductive ExitEnd where
  | crashed (message : String)
  /-- It clears `efi_boot_services` and the console pointers. -/
  | cleared
deriving DecidableEq, Repr

/-- `UEFI_EXIT_RETRY_MAX`. -/
def UEFI_EXIT_RETRY_MAX : Nat := 2

namespace ExitState

def call (state : ExitState) (made : UefiCall) : ExitState :=
  { state with trace := state.trace ++ [made] }

/-- `GetMemoryMap(&map_size, desc, &map_key, &desc_size, &desc_version)`. -/
def getMemoryMap (state : ExitState) (reply : MapReply) : ExitState :=
  { state.call (.getMemoryMap state.mapSize state.desc reply) with
    mapSize := reply.mapSize, mapKey := reply.mapKey, descSize := reply.descSize }

/-- `AllocatePool(EfiLoaderData, map_size, (void **)&desc)`, for a larger size. -/
def allocatePool (state : ExitState) (reply : PoolReply) : ExitState :=
  let size := Word.add 64 state.mapSize state.descSize
  { state.call (.allocatePool size reply) with mapSize := size, desc := reply.desc }

/-- `FreePool(desc)`, and `desc = NULL`. -/
def freePool (state : ExitState) : ExitState :=
  { state.call (.freePool state.desc) with desc := 0 }

end ExitState

/-- The inner loop, from a round on; no result when the rounds do not suffice. -/
def mapLoop (attempt : ExitAttempt) : (fuel round : Nat) → ExitState →
    Option (Except (String × ExitState) (EfiStatus × ExitState))
  | 0, _, _ => none
  | fuel + 1, round, state =>
      let (pool, map) := attempt.rounds round
      let state := state.allocatePool pool
      if pool.desc = 0 ∨ pool.status ≠ .success then
        some (.error ("Fatal error while allocating the UEFI memory map buffer\n", state))
      else
        let state := state.getMemoryMap map
        let state := if map.status ≠ .success then state.freePool else state
        if map.status = .bufferTooSmall then mapLoop attempt fuel (round + 1) state
        else some (.ok (map.status, state))

/-- The outer loop up to `ExitBootServices`: the memory map is read. -/
def readMap (attempt : ExitAttempt) (fuel : Nat) (state : ExitState) :
    Option (Except (String × ExitState) ExitState) :=
  let state := state.getMemoryMap attempt.query
  if attempt.query.status ≠ .bufferTooSmall then
    some (.error ("Failed to query the UEFI memory map with error %l\n", state))
  else
    match mapLoop attempt fuel 0 state with
    | none => none
    | some (.error halted) => some (.error halted)
    | some (.ok (status, state)) =>
        if status ≠ .success then
          some (.error ("Failed to get the UEFI memory map with error %l\n", state))
        else some (.ok state)

/-- The outer loop, from a round on. -/
def exitLoop (firmware : Nat → ExitAttempt) : (fuel round : Nat) → ExitState →
    Option (ExitEnd × List UefiCall)
  | 0, _, _ => none
  | fuel + 1, round, state =>
      match readMap (firmware round) fuel state with
      | none => none
      | some (.error (message, state)) => some (.crashed message, state.trace)
      | some (.ok state) =>
          let status := (firmware round).exit
          let state := state.call (.exitBootServices state.mapKey status)
          if status = .invalidParameter ∧ state.retryCnt ≤ UEFI_EXIT_RETRY_MAX then
            let state := { state with retryCnt := state.retryCnt + 1 }
            let state := { state.freePool with mapSize := 0 }
            if state.retryCnt ≤ UEFI_EXIT_RETRY_MAX then exitLoop firmware fuel (round + 1) state
            else some (.cleared, state.trace)
          else if status ≠ .success then
            some (.crashed "Could not exit boot services\n", state.trace)
          else some (.cleared, state.trace)

/-- `_uefi_exit_boot_services`: only the last deferred call does anything. -/
def uefiExitBootServices (firmware : Nat → ExitAttempt) (fuel uefiInitCnt : Nat) :
    Option (Option (ExitEnd × List UefiCall)) :=
  if uefiInitCnt - 1 = 0 then
    (exitLoop firmware fuel 0 ExitState.initial).map some
  else some none

/-! ## What is to be done -/

/-- The exits that were tried, with the keys they used. -/
def exitsTried (trace : List UefiCall) : List (Nat × EfiStatus) :=
  trace.filterMap fun
    | .exitBootServices mapKey status => some (mapKey, status)
    | _ => none

/-- The keys of the maps that were read. -/
def keysRead (trace : List UefiCall) : List Nat :=
  trace.filterMap fun
    | .getMemoryMap _ _ reply => if reply.status = .success then some reply.mapKey else none
    | _ => none

/-- The last exit succeeded, with the key of the last map. -/
def ExitSucceeded (trace : List UefiCall) : Prop :=
  ∃ mapKey, (exitsTried trace).getLast? = some (mapKey, .success) ∧
    (keysRead trace).getLast? = some mapKey

/-- The function ends after a few exits at most, and clears nothing without a success. -/
def LeavesProperly (firmware : Nat → ExitAttempt) : Prop :=
  ∃ fuel ended trace, uefiExitBootServices firmware fuel 1 = some (some (ended, trace)) ∧
    (exitsTried trace).length ≤ UEFI_EXIT_RETRY_MAX + 1 ∧
    (ended = .cleared → ExitSucceeded trace)

namespace ExitAttempt

/-- A buffer is there, and is too small again. -/
def GoesOn (attempt : ExitAttempt) (round : Nat) : Prop :=
  (attempt.rounds round).1.desc ≠ 0 ∧ (attempt.rounds round).1.status = .success ∧
    (attempt.rounds round).2.status = .bufferTooSmall

/-- A buffer is there, and gets the map. -/
def Reads (attempt : ExitAttempt) (round : Nat) : Prop :=
  (attempt.rounds round).1.desc ≠ 0 ∧ (attempt.rounds round).1.status = .success ∧
    (attempt.rounds round).2.status = .success

/-- Every buffer is too small. -/
def Stuck (attempt : ExitAttempt) : Prop :=
  attempt.query.status = .bufferTooSmall ∧ ∀ round, attempt.GoesOn round

/-- The map is read, and its key is no longer good. -/
def Retries (attempt : ExitAttempt) : Prop :=
  attempt.query.status = .bufferTooSmall ∧
    (∃ stop, (∀ round < stop, attempt.GoesOn round) ∧ attempt.Reads stop) ∧
    attempt.exit = .invalidParameter

end ExitAttempt

/-- No round reached reads buffers that are too small for ever, and not all tries are in vain. -/
def ExitAllowed (firmware : Nat → ExitAttempt) : Prop :=
  (∀ round ≤ UEFI_EXIT_RETRY_MAX, (∀ earlier < round, (firmware earlier).Retries) →
    ¬ (firmware round).Stuck) ∧
  ¬ ∀ round ≤ UEFI_EXIT_RETRY_MAX, (firmware round).Retries

/-! ## Reading the map -/

section Read

variable {attempt : ExitAttempt} {state after : ExitState}

/-- No exit was tried in between. -/
structure Quiet (state after : ExitState) : Prop where
  exits : exitsTried after.trace = exitsTried state.trace
  retryCnt : after.retryCnt = state.retryCnt

theorem Quiet.trans {last : ExitState} (first : Quiet state after) (second : Quiet after last) :
    Quiet state last :=
  ⟨second.exits.trans first.exits, second.retryCnt.trans first.retryCnt⟩

theorem exitsTried_append (front back : List UefiCall) :
    exitsTried (front ++ back) = exitsTried front ++ exitsTried back := List.filterMap_append

theorem quiet_getMemoryMap (state : ExitState) (reply : MapReply) :
    Quiet state (state.getMemoryMap reply) := by
  refine ⟨?_, rfl⟩
  change exitsTried (state.trace ++ [_]) = _
  rw [exitsTried_append]
  exact List.append_nil _

theorem quiet_allocatePool (state : ExitState) (reply : PoolReply) :
    Quiet state (state.allocatePool reply) := by
  refine ⟨?_, rfl⟩
  change exitsTried (state.trace ++ [_]) = _
  rw [exitsTried_append]
  exact List.append_nil _

theorem quiet_freePool (state : ExitState) : Quiet state state.freePool := by
  refine ⟨?_, rfl⟩
  change exitsTried (state.trace ++ [_]) = _
  rw [exitsTried_append]
  exact List.append_nil _

/-- A buffer that is too small leads to the next round. -/
theorem mapLoop_goesOn {round : Nat} (goesOn : attempt.GoesOn round) (state : ExitState) :
    ∃ after, Quiet state after ∧
      ∀ fuel, mapLoop attempt (fuel + 1) round state = mapLoop attempt fuel (round + 1) after := by
  obtain ⟨some_desc, allocated, small⟩ := goesOn
  refine ⟨((state.allocatePool (attempt.rounds round).1).getMemoryMap
    (attempt.rounds round).2).freePool, ?_, ?_⟩
  · exact ((quiet_allocatePool _ _).trans (quiet_getMemoryMap _ _)).trans (quiet_freePool _)
  · intro fuel
    rw [mapLoop]
    simp only [some_desc, allocated, small, ne_eq, not_true_eq_false, or_self, ↓reduceIte,
      reduceCtorEq, not_false_eq_true]

/-- Too few rounds give no result. -/
theorem mapLoop_short {stop : Nat} (goOn : ∀ round < stop, attempt.GoesOn round) {fuel round : Nat}
    (few : round + fuel ≤ stop) (state : ExitState) : mapLoop attempt fuel round state = none := by
  induction fuel generalizing round state with
  | zero => rfl
  | succ fuel ih =>
      obtain ⟨after, -, next⟩ := mapLoop_goesOn (goOn round (by omega)) state
      rw [next]
      exact ih (by omega) after

/-- The rounds with buffers that are too small are passed. -/
theorem mapLoop_skip {stop : Nat} (goOn : ∀ round < stop, attempt.GoesOn round)
    (state : ExitState) :
    ∃ after, Quiet state after ∧
      ∀ fuel, mapLoop attempt (fuel + stop) 0 state = mapLoop attempt fuel stop after := by
  induction stop with
  | zero => exact ⟨state, ⟨rfl, rfl⟩, fun fuel => rfl⟩
  | succ stop ih =>
      obtain ⟨middle, quiet, skipped⟩ := ih fun round below => goOn round (by omega)
      obtain ⟨after, quiet', next⟩ := mapLoop_goesOn (goOn stop (Nat.lt_succ_self stop)) middle
      refine ⟨after, quiet.trans quiet', ?_⟩
      intro fuel
      have shift : fuel + (stop + 1) = fuel + 1 + stop := by omega
      rw [shift, skipped, next]

/-- Buffers that are too small for ever are tried for ever. -/
theorem readMap_stuck (stuck : attempt.Stuck) (fuel : Nat) (state : ExitState) :
    readMap attempt fuel state = none := by
  have looped := mapLoop_short (fun round _ => stuck.2 round) (Nat.le_of_eq (Nat.zero_add fuel))
    (state.getMemoryMap attempt.query)
  unfold readMap
  simp only [stuck.1, looped, ne_eq, not_true_eq_false, ↓reduceIte]

/-- Given enough rounds the map is read, and its key is the last one. -/
theorem readMap_reads (query : attempt.query.status = .bufferTooSmall) {stop : Nat}
    (goOn : ∀ round < stop, attempt.GoesOn round) (reads : attempt.Reads stop)
    (state : ExitState) :
    ∃ after, Quiet state after ∧ (keysRead after.trace).getLast? = some after.mapKey ∧
      ∀ fuel, readMap attempt fuel state = if fuel ≤ stop then none else some (.ok after) := by
  obtain ⟨some_desc, allocated, got⟩ := reads
  obtain ⟨middle, quiet, skipped⟩ := mapLoop_skip goOn (state.getMemoryMap attempt.query)
  refine ⟨(middle.allocatePool (attempt.rounds stop).1).getMemoryMap (attempt.rounds stop).2,
    ?_, ?_, ?_⟩
  · exact (((quiet_getMemoryMap _ _).trans quiet).trans (quiet_allocatePool _ _)).trans
      (quiet_getMemoryMap _ _)
  · simp only [ExitState.getMemoryMap, ExitState.call, keysRead, List.filterMap_append,
      List.filterMap_cons, got, ↓reduceIte, List.filterMap_nil, List.getLast?_concat]
  · intro fuel
    unfold readMap
    simp only [query, ne_eq, not_true_eq_false, ↓reduceIte]
    by_cases few : fuel ≤ stop
    · rw [mapLoop_short goOn (by omega), if_pos few]
    · obtain ⟨rest, rfl⟩ : ∃ rest, fuel = rest + 1 + stop := ⟨fuel - 1 - stop, by omega⟩
      rw [skipped, mapLoop, if_neg few]
      simp only [some_desc, allocated, got, ne_eq, not_true_eq_false, or_self, ↓reduceIte,
        reduceCtorEq]

/-- Otherwise the program crashes. -/
theorem readMap_fails (notStuck : ¬ attempt.Stuck)
    (notRead : ¬ (attempt.query.status = .bufferTooSmall ∧
      ∃ stop, (∀ round < stop, attempt.GoesOn round) ∧ attempt.Reads stop)) (state : ExitState) :
    ∃ bound message after, exitsTried after.trace = exitsTried state.trace ∧
      ∀ fuel, bound < fuel → readMap attempt fuel state = some (.error (message, after)) := by
  by_cases query : attempt.query.status = .bufferTooSmall
  · have ends : ∃ round, ¬ attempt.GoesOn round := by
      by_contra allGoOn
      exact notStuck ⟨query, by simpa using allGoOn⟩
    classical
    let stop := Nat.find ends
    have stopped : ¬ attempt.GoesOn stop := Nat.find_spec ends
    have goOn : ∀ round < stop, attempt.GoesOn round := fun round below => by
      simpa using Nat.find_min ends below
    have unread : ¬ attempt.Reads stop := fun reads => notRead ⟨query, stop, goOn, reads⟩
    obtain ⟨middle, quiet, skipped⟩ := mapLoop_skip goOn (state.getMemoryMap attempt.query)
    have before := ((quiet_getMemoryMap state attempt.query).trans quiet).trans
      (quiet_allocatePool middle (attempt.rounds stop).1)
    by_cases pool : (attempt.rounds stop).1.desc = 0 ∨ (attempt.rounds stop).1.status ≠ .success
    · refine
        ⟨stop, "Fatal error while allocating the UEFI memory map buffer\n", _, before.exits, ?_⟩
      intro fuel enough
      obtain ⟨rest, rfl⟩ : ∃ rest, fuel = rest + 1 + stop := ⟨fuel - 1 - stop, by omega⟩
      unfold readMap
      simp only [query, ne_eq, not_true_eq_false, ↓reduceIte]
      rw [skipped, mapLoop]
      dsimp only
      rw [if_pos pool]
    · obtain ⟨some_desc, allocated⟩ := not_or.mp pool
      have allocated := not_not.mp allocated
      have large : (attempt.rounds stop).2.status ≠ .bufferTooSmall := fun small =>
        stopped ⟨some_desc, allocated, small⟩
      have failed : (attempt.rounds stop).2.status ≠ .success := fun got =>
        unread ⟨some_desc, allocated, got⟩
      have quiet' := (before.trans (quiet_getMemoryMap _ (attempt.rounds stop).2)).trans
        (quiet_freePool _)
      refine ⟨stop, "Failed to get the UEFI memory map with error %l\n", _, quiet'.exits, ?_⟩
      intro fuel enough
      obtain ⟨rest, rfl⟩ : ∃ rest, fuel = rest + 1 + stop := ⟨fuel - 1 - stop, by omega⟩
      unfold readMap
      simp only [query, ne_eq, not_true_eq_false, ↓reduceIte]
      rw [skipped, mapLoop]
      simp only [some_desc, allocated, large, failed, ne_eq, not_true_eq_false, or_self,
        ↓reduceIte, not_false_eq_true]
  · refine ⟨0, "Failed to query the UEFI memory map with error %l\n", _,
      (quiet_getMemoryMap state attempt.query).exits, ?_⟩
    intro fuel enough
    unfold readMap
    simp only [query, ne_eq, not_false_eq_true, ↓reduceIte]

end Read

/-! ## The tries -/

section Tries

variable {firmware : Nat → ExitAttempt} {state : ExitState} {round : Nat}

/-- What a round does that reads the map. -/
theorem exitLoop_reads {fuel : Nat} {after : ExitState}
    (read : readMap (firmware round) fuel state = some (.ok after)) :
    exitLoop firmware (fuel + 1) round state =
      if (firmware round).exit = .invalidParameter ∧ after.retryCnt ≤ UEFI_EXIT_RETRY_MAX then
        if after.retryCnt + 1 ≤ UEFI_EXIT_RETRY_MAX then
          exitLoop firmware fuel (round + 1)
            { (after.call (.exitBootServices after.mapKey .invalidParameter)).freePool with
              mapSize := 0, retryCnt := after.retryCnt + 1 }
        else some (.cleared,
          (after.call (.exitBootServices after.mapKey .invalidParameter)).freePool.trace)
      else
        some (if (firmware round).exit = .success then .cleared
          else .crashed "Could not exit boot services\n",
          after.trace ++ [.exitBootServices after.mapKey (firmware round).exit]) := by
  rw [exitLoop, read]
  dsimp only
  by_cases retries : (firmware round).exit = .invalidParameter ∧
      after.retryCnt ≤ UEFI_EXIT_RETRY_MAX
  · rw [if_pos retries]
    have counted : (after.call (.exitBootServices after.mapKey (firmware round).exit)).retryCnt ≤
        UEFI_EXIT_RETRY_MAX := retries.2
    rw [if_pos ⟨retries.1, counted⟩, retries.1]
    rfl
  · rw [if_neg retries]
    have counted : ¬ ((firmware round).exit = .invalidParameter ∧
        (after.call (.exitBootServices after.mapKey (firmware round).exit)).retryCnt ≤
          UEFI_EXIT_RETRY_MAX) := retries
    rw [if_neg counted]
    by_cases succeeded : (firmware round).exit = .success
    · rw [if_neg (not_not.mpr succeeded), if_pos succeeded]
      rfl
    · rw [if_pos succeeded, if_neg succeeded]
      rfl

/-- A try whose key is no longer good: the next one follows, or what should not be is cleared. -/
theorem exitLoop_retries (retries : (firmware round).Retries)
    (counted : state.retryCnt = round) (allowed : round ≤ UEFI_EXIT_RETRY_MAX) :
    ∃ bound after mapKey, after.retryCnt = round + 1 ∧
      exitsTried after.trace = exitsTried state.trace ++ [(mapKey, .invalidParameter)] ∧
      ∀ fuel, exitLoop firmware (fuel + 1) round state =
        if fuel ≤ bound then none
        else if round + 1 ≤ UEFI_EXIT_RETRY_MAX then exitLoop firmware fuel (round + 1) after
        else some (.cleared, after.trace) := by
  obtain ⟨query, ⟨stop, goOn, reads⟩, invalid⟩ := retries
  obtain ⟨read, quiet, -, ran⟩ := readMap_reads query goOn reads state
  have sameCount : read.retryCnt = round := quiet.retryCnt.trans counted
  refine ⟨stop, { (read.call (.exitBootServices read.mapKey .invalidParameter)).freePool with
    mapSize := 0, retryCnt := read.retryCnt + 1 }, read.mapKey, ?_, ?_, ?_⟩
  · exact congrArg (· + 1) sameCount
  · change exitsTried ((read.trace ++ [_]) ++ [_]) = _
    rw [exitsTried_append, exitsTried_append, quiet.exits, List.append_assoc]
    rfl
  · intro fuel
    by_cases few : fuel ≤ stop
    · rw [if_pos few, exitLoop, ran, if_pos few]
    · have got : readMap (firmware round) fuel state = some (.ok read) := by
        rw [ran, if_neg few]
      rw [exitLoop_reads got, if_neg few, if_pos ⟨invalid, by omega⟩, sameCount]

/-- From a round that may be reached the function ends properly. -/
theorem exitLoop_proper (allowed : ExitAllowed firmware) (counted : state.retryCnt = round)
    (possible : round ≤ UEFI_EXIT_RETRY_MAX)
    (before : ∀ earlier < round, (firmware earlier).Retries)
    (exits : (exitsTried state.trace).length = round) :
    ∃ bound ended trace, (∀ fuel, bound < fuel →
        exitLoop firmware fuel round state = some (ended, trace)) ∧
      (exitsTried trace).length ≤ UEFI_EXIT_RETRY_MAX + 1 ∧
      (ended = .cleared → ExitSucceeded trace) := by
  induction left : UEFI_EXIT_RETRY_MAX - round using Nat.strong_induction_on
    generalizing round state with
  | _ left ih =>
      have notStuck := allowed.1 round possible before
      by_cases retries : (firmware round).Retries
      · have more : round + 1 ≤ UEFI_EXIT_RETRY_MAX := by
          by_contra last
          refine allowed.2 fun other below => ?_
          rcases Nat.lt_or_eq_of_le (show other ≤ round by omega) with earlier | same
          · exact before other earlier
          · exact same ▸ retries
        obtain ⟨bound, after, mapKey, count, tried, ran⟩ :=
          exitLoop_retries retries counted possible
        have beforeNext : ∀ earlier < round + 1, (firmware earlier).Retries := by
          intro earlier below
          rcases Nat.lt_succ_iff_lt_or_eq.mp below with earlier | same
          · exact before _ earlier
          · exact same ▸ retries
        have exitsNext : (exitsTried after.trace).length = round + 1 := by
          rw [tried, List.length_append, exits]
          rfl
        obtain ⟨bound', ended, trace, finished, few, proper⟩ :=
          ih (UEFI_EXIT_RETRY_MAX - (round + 1)) (by omega) count more beforeNext exitsNext rfl
        refine ⟨bound + bound' + 1, ended, trace, ?_, few, proper⟩
        intro fuel enough
        obtain ⟨fuel, rfl⟩ : ∃ rest, fuel = rest + 1 := ⟨fuel - 1, by omega⟩
        rw [ran, if_neg (by omega), if_pos more]
        exact finished fuel (by omega)
      · by_cases readable : (firmware round).query.status = .bufferTooSmall ∧
            ∃ stop, (∀ earlier < stop, (firmware round).GoesOn earlier) ∧
              (firmware round).Reads stop
        · obtain ⟨query, stop, goOn, reads⟩ := readable
          have valid : (firmware round).exit ≠ .invalidParameter := fun invalid =>
            retries ⟨query, ⟨stop, goOn, reads⟩, invalid⟩
          obtain ⟨read, quiet, lastKey, ran⟩ := readMap_reads query goOn reads state
          refine ⟨stop + 1, if (firmware round).exit = .success then .cleared
            else .crashed "Could not exit boot services\n",
            read.trace ++ [.exitBootServices read.mapKey (firmware round).exit], ?_, ?_, ?_⟩
          · intro fuel enough
            obtain ⟨fuel, rfl⟩ : ∃ rest, fuel = rest + 1 := ⟨fuel - 1, by omega⟩
            have got : readMap (firmware round) fuel state = some (.ok read) := by
              rw [ran, if_neg (by omega)]
            rw [exitLoop_reads got, if_neg fun both => valid both.1]
          · rw [exitsTried_append, quiet.exits, List.length_append, exits]
            exact Nat.succ_le_succ possible
          · intro cleared
            have succeeded : (firmware round).exit = .success := by
              by_contra failed
              rw [if_neg failed] at cleared
              cases cleared
            refine ⟨read.mapKey, ?_, ?_⟩
            · rw [exitsTried_append, succeeded]
              exact List.getLast?_concat
            · rw [keysRead, List.filterMap_append]
              exact (congrArg List.getLast? (List.append_nil _)).trans lastKey
        · obtain ⟨bound, message, after, tried, ran⟩ := readMap_fails notStuck readable state
          refine ⟨bound + 1, .crashed message, after.trace, ?_, ?_, ?_⟩
          · intro fuel enough
            obtain ⟨fuel, rfl⟩ : ∃ rest, fuel = rest + 1 := ⟨fuel - 1, by omega⟩
            rw [exitLoop, ran fuel (by omega)]
          · rw [tried, exits]
            exact Nat.le_succ_of_le possible
          · intro cleared
            cases cleared

/-- A round that is stuck is never left. -/
theorem exitLoop_stuck {stop : Nat} (stuck : (firmware stop).Stuck)
    (possible : stop ≤ UEFI_EXIT_RETRY_MAX)
    (before : ∀ earlier < stop, (firmware earlier).Retries) (counted : state.retryCnt = round)
    (reached : round ≤ stop) (fuel : Nat) : exitLoop firmware fuel round state = none := by
  induction fuel generalizing round state with
  | zero => rfl
  | succ fuel ih =>
      rcases Nat.lt_or_eq_of_le reached with below | rfl
      · obtain ⟨bound, after, mapKey, count, -, ran⟩ :=
          exitLoop_retries (before round below) counted (by omega)
        rw [ran]
        split
        · rfl
        · rw [if_pos (by omega)]
          exact ih count below
      · rw [exitLoop, readMap_stuck stuck]

/-- When all tries are in vain the last one has failed all the same. -/
theorem exitLoop_vain (vain : ∀ round ≤ UEFI_EXIT_RETRY_MAX, (firmware round).Retries)
    (counted : state.retryCnt = round) (possible : round ≤ UEFI_EXIT_RETRY_MAX) {fuel : Nat}
    {ended : ExitEnd} {trace : List UefiCall}
    (ran : exitLoop firmware fuel round state = some (ended, trace)) :
    ended = .cleared ∧
      ∃ mapKey, (exitsTried trace).getLast? = some (mapKey, .invalidParameter) := by
  induction fuel generalizing round state with
  | zero => cases ran
  | succ fuel ih =>
      obtain ⟨bound, after, mapKey, count, tried, step⟩ :=
        exitLoop_retries (vain round possible) counted possible
      rw [step] at ran
      split at ran
      · cases ran
      · split at ran
        · rename_i more
          exact ih count more ran
        · obtain ⟨rfl, rfl⟩ := Prod.mk.inj (Option.some.inj ran)
          refine ⟨rfl, mapKey, ?_⟩
          rw [tried]
          exact List.getLast?_concat

theorem initial_retryCnt : ExitState.initial.retryCnt = 0 := rfl

end Tries

/-- **Boot services are only abandoned after a successful exit, exactly when** the firmware lets
one of the tries end and no round reached is stuck. -/
theorem leavesProperly_iff (firmware : Nat → ExitAttempt) :
    LeavesProperly firmware ↔ ExitAllowed firmware := by
  constructor
  · rintro ⟨fuel, ended, trace, ran, few, proper⟩
    obtain ⟨result, looped, same⟩ := Option.map_eq_some_iff.mp ran
    cases Option.some.inj same
    constructor
    · intro round possible before stuck
      rw [exitLoop_stuck stuck possible before initial_retryCnt (Nat.zero_le round)] at looped
      cases looped
    · intro vain
      obtain ⟨cleared, mapKey, failed⟩ := exitLoop_vain vain initial_retryCnt (Nat.zero_le _) looped
      obtain ⟨lastKey, succeeded, -⟩ := proper cleared
      rw [failed] at succeeded
      cases succeeded
  · intro allowed
    obtain ⟨bound, ended, trace, ran, few, proper⟩ := exitLoop_proper allowed initial_retryCnt
      (Nat.zero_le _) (fun earlier below => absurd below (Nat.not_lt_zero _)) rfl
    refine ⟨bound + 1, ended, trace, ?_, few, proper⟩
    rw [uefiExitBootServices, if_pos (by decide), ran (bound + 1) (Nat.lt_succ_self bound)]
    rfl

/-- A firmware whose map never stays valid until the exit. -/
def staleFirmware : Nat → ExitAttempt := fun round =>
  ⟨⟨.bufferTooSmall, 480, 0, 48⟩, fun _ => (⟨.success, 4096⟩, ⟨.success, 480, round, 48⟩),
    .invalidParameter⟩

/-- Three exits fail, and the boot services are cleared. -/
theorem stale_keys_break :
    (∃ trace, uefiExitBootServices staleFirmware 5 1 = some (some (.cleared, trace)) ∧
      exitsTried trace =
        [(0, .invalidParameter), (1, .invalidParameter), (2, .invalidParameter)]) ∧
      ¬ LeavesProperly staleFirmware := by
  have vain : ∀ round ≤ UEFI_EXIT_RETRY_MAX, (staleFirmware round).Retries := by
    intro round _
    have reads : (staleFirmware round).Reads 0 := ⟨(by decide : (4096 : Nat) ≠ 0), rfl, rfl⟩
    exact ⟨rfl, ⟨0, fun earlier below => absurd below (Nat.not_lt_zero _), reads⟩, rfl⟩
  refine ⟨⟨_, rfl, rfl⟩, ?_⟩
  rintro ⟨fuel, ended, trace, ran, few, proper⟩
  obtain ⟨result, looped, same⟩ := Option.map_eq_some_iff.mp ran
  cases Option.some.inj same
  obtain ⟨cleared, mapKey, failed⟩ := exitLoop_vain vain initial_retryCnt (Nat.zero_le _) looped
  obtain ⟨lastKey, succeeded, -⟩ := proper cleared
  rw [failed] at succeeded
  cases succeeded

end Bcm2711.Startup
