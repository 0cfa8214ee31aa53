import Bcm2711.Lib.Run
import Bcm2711.Lib.Word

/-! # Users of the DMA library across processes

Every process counts its users; the first `dma_init` of a process maps the shared memory
object and counts the process there, and the last `dma_fini` takes both back.
-/

namespace Bcm2711.Dma

open Runs

/-! ## State -/

/-- The shared memory object of the library. -/
inductive ShmObject where
  | absent
  /-- Created, but `ftruncate` failed. -/
  | empty
  | sized
deriving DecidableEq, Repr

/-- What all processes share: the object with its `process_cnt`, and `DMA_ENABLE`. -/
structure Shared where
  object : ShmObject
  processCnt : Nat
  dmaEnable : Nat
deriving DecidableEq, Repr

/-- The static variables of the library in one process. -/
structure Process where
  /-- `n_users_in_process`. -/
  nUsers : Int
  /-- `init` of `bcm2711_dma_slog2_init`. -/
  slogInit : Bool
  /-- `shmem_ptr` is mapped. -/
  shmem : Bool
  /-- `bcm2711_dmac.vbase` is mapped. -/
  regs : Bool
deriving DecidableEq, Repr

/-- What goes wrong when memory is used that is not there. -/
inductive Fault where
  | nullAccess
  | busError
  | badUnmap
deriving DecidableEq, Repr

/-- The result of `rsrcdb_create_resources`. -/
inductive RsrcResult where
  | created
  | already
  | failed
deriving DecidableEq, Repr

/-- How the system answers the steps of one `dma_init`. -/
structure Answers where
  /-- `slog2_register` succeeds. -/
  slog : Bool
  /-- `shm_open` creates the object where there is none. -/
  create : Bool
  truncate : Bool
  /-- `shm_open` opens the object where there is one. -/
  open? : Bool
  mmap : Bool
  /-- `mmap_device_io` succeeds. -/
  mapRegs : Bool
  /-- `pthread_mutex_lock` on the shared mutex returns. -/
  lock : Bool
  rsrc : RsrcResult
deriving DecidableEq, Repr

/-- The step at which `dma_init` failed. -/
inductive InitStep where
  | slog
  | sync
  | regs
  | lock
  | resources
deriving DecidableEq, Repr

/-- What `dma_init` returns. -/
inductive InitRet where
  | ok
  | failed (step : InitStep)
deriving DecidableEq, Repr

/-- An `int`. -/
def toInt (value : Int) : Int := value.bmod (2 ^ 32)

theorem toInt_of_range {value : Int} (lower : -2 ^ 31 ≤ value) (upper : value < 2 ^ 31) :
    toInt value = value := by
  unfold toInt
  exact Int.bmod_eq_of_le (by omega) (by omega)

/-! ## Shared memory -/

/-- `shmem_ptr` may be dereferenced. -/
def access (shared : Shared) (process : Process) : Except Fault Unit :=
  if ¬ process.shmem then .error .nullAccess
  else if shared.object = .sized then .ok ()
  else .error .busError

/-- The first part of `bcm2711_dmac_sync_init`: the object is created or opened. -/
def shmOpen (answers : Answers) (shared : Shared) : Shared × Bool :=
  if shared.object = .absent then
    if ¬ answers.create then (shared, false)
    else if ¬ answers.truncate then ({ shared with object := .empty }, false)
    else ({ shared with object := .sized, processCnt := 0 }, true)
  else (shared, answers.open?)

/-- `bcm2711_dmac_sync_init`. -/
def dmacSyncInit (answers : Answers) (shared : Shared) (process : Process) :
    Shared × Process × Bool :=
  if process.shmem then (shared, process, true)
  else
    let opened := shmOpen answers shared
    if ¬ opened.2 then (opened.1, process, false)
    else (opened.1, { process with shmem := answers.mmap }, answers.mmap)

/-- `bcm2711_dmac_sync_dinit`. -/
def dmacSyncDinit (process : Process) : Except Fault Process :=
  if process.shmem then .ok { process with shmem := false } else .error .badUnmap

/-- `bcm2711_dmac_sync_process_cnt_incr`. -/
def processCntIncr (shared : Shared) (process : Process) : Except Fault Shared := do
  access shared process
  .ok { shared with processCnt := Word.add 32 shared.processCnt 1 }

/-- `bcm2711_dmac_sync_process_cnt_decr`. -/
def processCntDecr (shared : Shared) (process : Process) : Except Fault Shared := do
  access shared process
  .ok { shared with processCnt := Word.sub 32 shared.processCnt 1 }

/-! ## The calls -/

/-- `cleanup_resources`; its `pthread_mutex_lock` is on the mutex in the shared memory. -/
def cleanupResources (shared : Shared) (process : Process) : Except Fault (Shared × Process) := do
  access shared process
  let shared ← processCntDecr shared process
  let process ← dmacSyncDinit { process with regs := false }
  .ok (shared, process)

/-- `dma_init` from the label `fail1` on. -/
def dmaInitFail (shared : Shared) (process : Process) (step : InitStep) :
    Except Fault (Shared × Process × InitRet) := do
  let process := { process with nUsers := toInt (process.nUsers - 1) }
  if process.nUsers = 0 then
    let (shared, process) ← cleanupResources shared process
    .ok (shared, process, .failed step)
  else .ok (shared, process, .failed step)

/-- The part of `dma_init` that runs once in a process. -/
def dmaInitFirst (answers : Answers) (shared : Shared) (process : Process) :
    Except Fault (Shared × Process × InitRet) := do
  if ¬ (process.slogInit ∨ answers.slog) then dmaInitFail shared process .slog
  else
    let (shared, process, synced) :=
      dmacSyncInit answers shared { process with slogInit := true }
    if ¬ synced then dmaInitFail shared process .sync
    else if ¬ answers.mapRegs then
      let process ← dmacSyncDinit process
      dmaInitFail shared process .regs
    else
      let process := { process with regs := true }
      access shared process
      if ¬ answers.lock then
        let process ← dmacSyncDinit process
        dmaInitFail shared process .lock
      else
        let shared ← processCntIncr shared process
        let shared :=
          if shared.processCnt = 1 then { shared with dmaEnable := 0 } else shared
        if answers.rsrc = .failed then
          let process ← dmacSyncDinit { process with regs := false }
          dmaInitFail shared process .resources
        else .ok (shared, process, .ok)

/-- `dma_init`. -/
def dmaInit (answers : Answers) (shared : Shared) (process : Process) :
    Except Fault (Shared × Process × InitRet) :=
  let process := { process with nUsers := toInt (process.nUsers + 1) }
  if process.nUsers = 1 then dmaInitFirst answers shared process
  else .ok (shared, process, .ok)

/-- `dma_fini`. -/
def dmaFini (shared : Shared) (process : Process) : Except Fault (Shared × Process) :=
  let process := { process with nUsers := toInt (process.nUsers - 1) }
  if process.nUsers = 0 then cleanupResources shared process else .ok (shared, process)

/-! ## All processes -/

/-- The shared state and every process. -/
structure Dmac (ι : Type) where
  shared : Shared
  processes : ι → Process

/-- A call made by a process. -/
inductive DmacCall (ι : Type) where
  | init (process : ι) (answers : Answers)
  | fini (process : ι)

variable {ι : Type}

/-- One process makes a call. -/
def dmacStep [DecidableEq ι] (dmac : Dmac ι) : DmacCall ι → Except Fault (Dmac ι × InitRet)
  | .init process answers => do
      let (shared, after, ret) ← dmaInit answers dmac.shared (dmac.processes process)
      .ok (⟨shared, Function.update dmac.processes process after⟩, ret)
  | .fini process => do
      let (shared, after) ← dmaFini dmac.shared (dmac.processes process)
      .ok (⟨shared, Function.update dmac.processes process after⟩, .ok)

/-- Before any process uses the library. -/
def dmacStart (dmaEnable : Nat) : Dmac ι :=
  ⟨⟨.absent, 0, dmaEnable⟩, fun _ => ⟨0, false, false, false⟩⟩

/-- The processes with users. -/
def Dmac.using (dmac : Dmac ι) : Set ι := {process | (dmac.processes process).nUsers ≠ 0}

/-- No step of a first `dma_init` fails. -/
structure AllSucceed (answers : Answers) (shared : Shared) (process : Process) : Prop where
  slog : process.slogInit = true ∨ answers.slog = true
  object : if shared.object = .absent then answers.create = true ∧ answers.truncate = true
    else answers.open? = true
  mmap : answers.mmap = true
  mapRegs : answers.mapRegs = true
  lock : answers.lock = true
  rsrc : answers.rsrc ≠ .failed

/-- A first `dma_init` meets no failure, a `dma_fini` belongs to a user, and no count
overflows. -/
def DmacAllowed (_history : List (Event (DmacCall ι) InitRet)) (dmac : Dmac ι) :
    DmacCall ι → Prop
  | .init process answers =>
      (dmac.processes process).nUsers + 1 < 2 ^ 31 ∧ dmac.shared.processCnt + 1 < 2 ^ 32 ∧
        ((dmac.processes process).nUsers = 0 →
          AllSucceed answers dmac.shared (dmac.processes process))
  | .fini process => (dmac.processes process).nUsers ≠ 0

/-! ## One call -/

/-- Every process has its users and mappings together, and the shared count is right. -/
structure DmacInv (dmac : Dmac ι) : Prop where
  nonneg : ∀ process, 0 ≤ (dmac.processes process).nUsers
  bounded : ∀ process, (dmac.processes process).nUsers < 2 ^ 31
  shmem : ∀ process, (dmac.processes process).shmem = true ↔
    (dmac.processes process).nUsers ≠ 0
  sized : ∀ process, (dmac.processes process).nUsers ≠ 0 → dmac.shared.object = .sized
  notEmpty : dmac.shared.object ≠ .empty
  absent : dmac.shared.object = .absent → dmac.shared.processCnt = 0
  finite : dmac.using.Finite
  count : dmac.shared.processCnt = dmac.using.ncard
  count_lt : dmac.shared.processCnt < 2 ^ 32

theorem dmacStart_inv (dmaEnable : Nat) : DmacInv (dmacStart dmaEnable : Dmac ι) := by
  have unused : (dmacStart dmaEnable : Dmac ι).using = ∅ :=
    Set.eq_empty_of_forall_notMem fun process member => member rfl
  refine ⟨fun _ => le_rfl, fun _ => Int.pow_pos (by decide),
    fun _ => ⟨fun mapped => ?_, fun users => ?_⟩, fun _ users => absurd rfl users,
    ShmObject.noConfusion, fun _ => rfl, ?_, ?_, Nat.two_pow_pos 32⟩
  · cases mapped
  · exact absurd rfl users
  · rw [unused]
    exact Set.finite_empty
  · rw [unused, Set.ncard_empty]
    rfl

section Step

variable {dmac : Dmac ι} {process : ι} {answers : Answers}

/-- The shared memory is there after it was opened. -/
theorem shmOpen_ok {shared : Shared} (notEmpty : shared.object ≠ .empty)
    (absent : shared.object = .absent → shared.processCnt = 0)
    (object : if shared.object = .absent then answers.create = true ∧ answers.truncate = true
      else answers.open? = true) :
    shmOpen answers shared = (⟨.sized, shared.processCnt, shared.dmaEnable⟩, true) := by
  unfold shmOpen
  rcases shared with ⟨object', processCnt, dmaEnable⟩
  cases object' with
  | absent =>
      rw [if_pos rfl] at object ⊢
      rw [object.1, object.2, absent rfl]
      rfl
  | empty => exact absurd rfl notEmpty
  | sized =>
      rw [if_neg ShmObject.noConfusion] at object ⊢
      rw [object]

/-- A failure to open the object leaves it unsized only after a failed `ftruncate`. -/
theorem shmOpen_count (answers : Answers) {shared : Shared} (notEmpty : shared.object ≠ .empty)
    (opened : (shmOpen answers shared).2 = true) :
    (shmOpen answers shared).1.object = .sized := by
  unfold shmOpen at opened ⊢
  split at opened
  · next absent =>
      rw [if_pos absent]
      split at opened
      · cases opened
      · next created =>
          rw [if_neg created]
          split at opened
          · cases opened
          · next truncated => rw [if_neg truncated]
  · next there =>
      rw [if_neg there]
      cases isObject : shared.object with
      | absent => exact absurd isObject there
      | empty => exact absurd isObject notEmpty
      | sized => rfl

/-- A failed first `dma_init` ends in `cleanup_resources` without shared memory. -/
theorem dmaInitFail_faults {shared : Shared} {first : Process} (one : first.nUsers = 1)
    (unmapped : first.shmem = false) (step : InitStep) :
    dmaInitFail shared first step = .error .nullAccess := by
  have none_left : toInt (first.nUsers - 1) = 0 := by
    rw [one]
    decide
  unfold dmaInitFail
  dsimp only
  rw [none_left, if_pos rfl, cleanupResources, access, unmapped]
  rfl

/-- `bcm2711_dmac_sync_init` in a process that has not mapped the object yet. -/
theorem dmacSyncInit_unmapped {shared : Shared} {first : Process}
    (unmapped : first.shmem = false) :
    dmacSyncInit answers shared first =
      ((shmOpen answers shared).1,
        { first with shmem := (shmOpen answers shared).2 && answers.mmap },
        (shmOpen answers shared).2 && answers.mmap) := by
  unfold dmacSyncInit
  rw [unmapped, if_neg Bool.false_ne_true]
  dsimp only
  cases opened : (shmOpen answers shared).2 with
  | true => rfl
  | false =>
      rw [if_pos Bool.false_ne_true, Bool.false_and]
      rcases first with ⟨nUsers, slogInit, shmem, regs⟩
      cases unmapped
      rfl

/-- What the object needs to be opened is what `shm_open` and `ftruncate` answer. -/
theorem shmOpen_snd {shared : Shared} : (shmOpen answers shared).2 = true ↔
    if shared.object = .absent then answers.create = true ∧ answers.truncate = true
    else answers.open? = true := by
  unfold shmOpen
  split
  · cases answers.create with
    | false => simp
    | true =>
        cases answers.truncate with
        | false => simp
        | true => simp
  · rfl

/-- A first `dma_init` that meets a failure dereferences a null pointer. -/
theorem dmaInitFirst_faults {shared : Shared} {first : Process} (one : first.nUsers = 1)
    (unmapped : first.shmem = false) (notEmpty : shared.object ≠ .empty)
    (fails : ¬ AllSucceed answers shared first) :
    dmaInitFirst answers shared first = .error .nullAccess := by
  unfold dmaInitFirst
  by_cases slog : first.slogInit = true ∨ answers.slog = true
  · have sync := @dmacSyncInit_unmapped answers shared { first with slogInit := true } unmapped
    rw [if_neg (not_not.mpr slog), sync]
    dsimp only
    cases synced : (shmOpen answers shared).2 && answers.mmap with
    | false =>
        rw [if_pos Bool.false_ne_true]
        apply dmaInitFail_faults
        · exact one
        · rfl
    | true =>
        rw [if_neg (not_not.mpr rfl)]
        obtain ⟨opened, mmap⟩ := Bool.and_eq_true_iff.mp synced
        have sized := shmOpen_count answers notEmpty opened
        cases mapRegs : answers.mapRegs with
        | false =>
            rw [if_pos Bool.false_ne_true]
            apply dmaInitFail_faults
            · exact one
            · rfl
        | true =>
            rw [if_neg (not_not.mpr rfl)]
            have there : ∀ process : Process, process.shmem = true →
                access (shmOpen answers shared).1 process = .ok () := by
              intro process mapped
              rw [access, mapped, if_neg (not_not.mpr rfl), if_pos sized]
            rw [there _ rfl]
            cases lock : answers.lock with
            | false =>
                apply dmaInitFail_faults
                · exact one
                · rfl
            | true =>
                have failed : answers.rsrc = .failed := by
                  by_contra notFailed
                  exact fails ⟨slog, shmOpen_snd.mp opened, mmap, mapRegs, lock, notFailed⟩
                simp only [processCntIncr, there, bind, Except.bind, not_true_eq_false, ↓reduceIte,
                  failed]
                apply dmaInitFail_faults
                · exact one
                · rfl
  · rw [if_pos slog]
    exact dmaInitFail_faults one unmapped _

/-- A first `dma_init` without a failure maps the object and counts the process. -/
theorem dmaInitFirst_ok {shared : Shared} {first : Process} (unmapped : first.shmem = false)
    (notEmpty : shared.object ≠ .empty)
    (absent : shared.object = .absent → shared.processCnt = 0)
    (small : shared.processCnt + 1 < 2 ^ 32) (succeeds : AllSucceed answers shared first) :
    ∃ dmaEnable, dmaInitFirst answers shared first =
      .ok (⟨.sized, shared.processCnt + 1, dmaEnable⟩,
        ⟨first.nUsers, true, true, true⟩, .ok) := by
  have opened := shmOpen_ok notEmpty absent succeeds.object
  have counted : Word.add 32 shared.processCnt 1 = shared.processCnt + 1 := Word.add_of_lt small
  have there : ∀ process : Process, process.shmem = true →
      access ⟨.sized, shared.processCnt, shared.dmaEnable⟩ process = .ok () := by
    intro process mapped
    rw [access, mapped, if_neg (not_not.mpr rfl), if_pos rfl]
  refine ⟨if shared.processCnt + 1 = 1 then 0 else shared.dmaEnable, ?_⟩
  have sync := @dmacSyncInit_unmapped answers shared { first with slogInit := true } unmapped
  unfold dmaInitFirst
  rw [if_neg (not_not.mpr succeeds.slog), sync, opened, succeeds.mmap, succeeds.mapRegs,
    succeeds.lock]
  simp only [Bool.and_true, not_true_eq_false, ↓reduceIte, processCntIncr, there, bind,
    Except.bind, counted, succeeds.rsrc]
  split
  · rfl
  · rfl

end Step

section Update

variable [DecidableEq ι] {dmac : Dmac ι} {process : ι} {shared : Shared} {after : Process}

/-- The processes with users after one of them has changed. -/
theorem using_update (shared : Shared) (after : Process) :
    (⟨shared, Function.update dmac.processes process after⟩ : Dmac ι).using =
      if after.nUsers = 0 then dmac.using \ {process} else insert process dmac.using := by
  ext other
  rw [Dmac.using, Set.mem_ofPred_eq]
  dsimp only
  by_cases here : other = process
  · rw [here, Function.update_self]
    split
    · next unused => simp [unused]
    · next used => simp [used]
  · rw [Function.update_of_ne here]
    split
    · simp [Dmac.using, here]
    · simp [Dmac.using, here]

/-- The invariant after one process has changed. -/
theorem DmacInv.update (inv : DmacInv dmac) (lower : 0 ≤ after.nUsers)
    (upper : after.nUsers < 2 ^ 31) (shmem : after.shmem = true ↔ after.nUsers ≠ 0)
    (sized : shared.object = .sized) (small : shared.processCnt < 2 ^ 32)
    (count : shared.processCnt =
      (if after.nUsers = 0 then dmac.using \ {process} else insert process dmac.using).ncard) :
    DmacInv ⟨shared, Function.update dmac.processes process after⟩ := by
  refine ⟨fun other => ?_, fun other => ?_, fun other => ?_, fun _ _ => sized, ?_, ?_, ?_, ?_,
    small⟩
  · dsimp only
    by_cases here : other = process
    · rw [here, Function.update_self]
      exact lower
    · rw [Function.update_of_ne here]
      exact inv.nonneg other
  · dsimp only
    by_cases here : other = process
    · rw [here, Function.update_self]
      exact upper
    · rw [Function.update_of_ne here]
      exact inv.bounded other
  · dsimp only
    by_cases here : other = process
    · rw [here, Function.update_self]
      exact shmem
    · rw [Function.update_of_ne here]
      exact inv.shmem other
  · dsimp only
    rw [sized]
    exact ShmObject.noConfusion
  · dsimp only
    rw [sized]
    exact fun impossible => ShmObject.noConfusion impossible
  · rw [using_update]
    split
    · exact inv.finite.sdiff
    · exact inv.finite.insert process
  · rw [using_update]
    exact count

/-- A first `dma_init` that meets a failure faults. -/
theorem dmacStep_init_faults (inv : DmacInv dmac)
    (unused : (dmac.processes process).nUsers = 0) {answers : Answers}
    (fails : ¬ AllSucceed answers dmac.shared (dmac.processes process)) :
    dmacStep dmac (.init process answers) = .error .nullAccess := by
  have unmapped : (dmac.processes process).shmem = false :=
    Bool.eq_false_of_not_eq_true fun mapped => (inv.shmem process).mp mapped unused
  have first : toInt ((dmac.processes process).nUsers + 1) = 1 := by
    rw [unused]
    decide
  have faults : dmaInit answers dmac.shared (dmac.processes process) = .error .nullAccess := by
    unfold dmaInit
    dsimp only
    rw [if_pos first]
    refine dmaInitFirst_faults ?_ ?_ inv.notEmpty ?_
    · exact first
    · exact unmapped
    · exact fun succeeds => fails ⟨succeeds.slog, succeeds.object, succeeds.mmap,
        succeeds.mapRegs, succeeds.lock, succeeds.rsrc⟩
  rw [dmacStep, faults]
  rfl

/-- A `dma_fini` without a user takes the count of the process below zero. -/
theorem dmacStep_fini_unbalanced (inv : DmacInv dmac)
    (unused : (dmac.processes process).nUsers = 0) :
    ∃ after, dmacStep dmac (.fini process) = .ok (after, .ok) ∧
      after.shared.processCnt ≠ after.using.ncard := by
  have below : toInt ((dmac.processes process).nUsers - 1) = -1 := by
    rw [unused]
    decide
  have ran : dmaFini dmac.shared (dmac.processes process) =
      .ok (dmac.shared, { dmac.processes process with nUsers := -1 }) := by
    unfold dmaFini
    rw [below]
    rfl
  refine ⟨⟨dmac.shared, Function.update dmac.processes process
    { dmac.processes process with nUsers := -1 }⟩, ?_, ?_⟩
  · rw [dmacStep, ran]
    rfl
  · have notThere : process ∉ dmac.using := fun member => member unused
    have negative : (-1 : Int) ≠ 0 := by decide
    rw [using_update, if_neg negative, Set.ncard_insert_of_notMem notThere inv.finite,
      inv.count]
    exact Nat.ne_of_lt (Nat.lt_succ_self _)

/-- An allowed call returns and keeps the invariant. -/
theorem dmacStep_ok (inv : DmacInv dmac) {history : List (Event (DmacCall ι) InitRet)}
    {call : DmacCall ι} (isAllowed : DmacAllowed history dmac call) :
    ∃ after, dmacStep dmac call = .ok (after, .ok) ∧ DmacInv after := by
  cases call with
  | init process answers =>
      obtain ⟨upper, small, succeeds⟩ := isAllowed
      have lower := inv.nonneg process
      have next : toInt ((dmac.processes process).nUsers + 1) =
          (dmac.processes process).nUsers + 1 := toInt_of_range (by omega) upper
      by_cases unused : (dmac.processes process).nUsers = 0
      · have unmapped : (dmac.processes process).shmem = false :=
          Bool.eq_false_of_not_eq_true fun mapped => (inv.shmem process).mp mapped unused
        have first : (dmac.processes process).nUsers + 1 = 1 := by rw [unused]; rfl
        obtain ⟨slog, object, mmap, mapRegs, lock, rsrc⟩ := succeeds unused
        obtain ⟨dmaEnable, ran⟩ :=
          @dmaInitFirst_ok answers dmac.shared { dmac.processes process with nUsers := 1 }
            unmapped inv.notEmpty inv.absent small ⟨slog, object, mmap, mapRegs, lock, rsrc⟩
        have isInit : dmaInit answers dmac.shared (dmac.processes process) =
            .ok (⟨.sized, dmac.shared.processCnt + 1, dmaEnable⟩, ⟨1, true, true, true⟩, .ok) := by
          unfold dmaInit
          rw [next, first]
          exact ran
        have notThere : process ∉ dmac.using := fun member => member unused
        refine ⟨_, by rw [dmacStep, isInit]; rfl, inv.update (by decide) (by decide) ?_ rfl
          small ?_⟩
        · simp
        · rw [if_neg (by decide), Set.ncard_insert_of_notMem notThere inv.finite, inv.count]
      · have notFirst : (dmac.processes process).nUsers + 1 ≠ 1 := by omega
        have isInit : dmaInit answers dmac.shared (dmac.processes process) =
            .ok (dmac.shared, { dmac.processes process with
              nUsers := (dmac.processes process).nUsers + 1 }, .ok) := by
          unfold dmaInit
          rw [next]
          exact if_neg notFirst
        have there : process ∈ dmac.using := unused
        refine ⟨_, by rw [dmacStep, isInit]; rfl, inv.update ?_ upper ?_ (inv.sized process unused)
          inv.count_lt ?_⟩
        · dsimp only
          omega
        · dsimp only
          rw [inv.shmem process]
          omega
        · dsimp only
          rw [if_neg (by omega), Set.insert_eq_of_mem there]
          exact inv.count
  | fini process =>
      have used : (dmac.processes process).nUsers ≠ 0 := isAllowed
      have lower := inv.nonneg process
      have upper := inv.bounded process
      have mapped : (dmac.processes process).shmem = true := (inv.shmem process).mpr used
      have sized := inv.sized process used
      have there : process ∈ dmac.using := used
      have next : toInt ((dmac.processes process).nUsers - 1) =
          (dmac.processes process).nUsers - 1 := toInt_of_range (by omega) (by omega)
      by_cases last : (dmac.processes process).nUsers = 1
      · have positive : 0 < dmac.using.ncard :=
          (Set.ncard_pos inv.finite).mpr ⟨process, there⟩
        have count := inv.count
        have small := inv.count_lt
        have down : Word.sub 32 dmac.shared.processCnt 1 = dmac.shared.processCnt - 1 :=
          Word.sub_of_le (by omega) small
        have zeroFits : (0 : Int) < 2 ^ 31 := by decide
        have isFini : dmaFini dmac.shared (dmac.processes process) =
            .ok (⟨.sized, dmac.shared.processCnt - 1, dmac.shared.dmaEnable⟩,
              ⟨0, (dmac.processes process).slogInit, false, false⟩) := by
          unfold dmaFini
          rw [next, last]
          simp only [cleanupResources, processCntDecr, access, dmacSyncDinit, mapped, sized, down,
            bind, Except.bind, sub_self, not_true_eq_false, ↓reduceIte]
        refine ⟨_, by rw [dmacStep, isFini]; rfl, inv.update le_rfl zeroFits ?_ rfl ?_ ?_⟩
        · simp
        · dsimp only
          omega
        · rw [if_pos rfl, Set.ncard_sdiff_singleton_of_mem there]
          dsimp only
          omega
      · have notLast : (dmac.processes process).nUsers - 1 ≠ 0 := by omega
        have isFini : dmaFini dmac.shared (dmac.processes process) =
            .ok (dmac.shared, { dmac.processes process with
              nUsers := (dmac.processes process).nUsers - 1 }) := by
          unfold dmaFini
          rw [next]
          exact if_neg notLast
        refine ⟨_, by rw [dmacStep, isFini]; rfl, inv.update ?_ ?_ ?_ sized inv.count_lt ?_⟩
        · dsimp only
          omega
        · dsimp only
          omega
        · dsimp only
          rw [inv.shmem process]
          omega
        · dsimp only
          rw [if_neg notLast, Set.insert_eq_of_mem there]
          exact inv.count

end Update

/-! ## Runs -/

section Runs

variable [DecidableEq ι] {dmaEnable : Nat} {history : List (Event (DmacCall ι) InitRet)}
  {dmac : Dmac ι}

/-- The invariant holds in every state that allowed calls lead to. -/
theorem dmacInv_run (run : Run dmacStep DmacAllowed (dmacStart dmaEnable) history dmac) :
    DmacInv dmac := by
  refine @Run.invariant _ _ _ _ _ _ _ (fun _ dmac => DmacInv dmac) (dmacStart_inv dmaEnable) ?_
    _ _ run
  intro history state call after returned inv isAllowed stepped
  obtain ⟨next, ran, kept⟩ := dmacStep_ok inv isAllowed
  rw [ran] at stepped
  cases stepped
  exact kept

/-- Along every run of allowed calls the shared count is the number of processes with users
and every call returns; a first `dma_init` that meets a failure dereferences a null pointer,
and a `dma_fini` without a user leaves the count wrong. -/
theorem dmac_run (run : Run dmacStep DmacAllowed (dmacStart dmaEnable) history dmac) :
    (dmac.using.Finite ∧ dmac.shared.processCnt = dmac.using.ncard) ∧
    (∀ call, DmacAllowed history dmac call →
      ∃ after, dmacStep dmac call = .ok (after, .ok)) ∧
    (∀ process answers, (dmac.processes process).nUsers = 0 →
      ¬ AllSucceed answers dmac.shared (dmac.processes process) →
        dmacStep dmac (.init process answers) = .error .nullAccess) ∧
    (∀ process, (dmac.processes process).nUsers = 0 →
      ∃ after, dmacStep dmac (.fini process) = .ok (after, .ok) ∧
        after.shared.processCnt ≠ after.using.ncard) := by
  have inv := dmacInv_run run
  refine ⟨⟨inv.finite, inv.count⟩, ?_, ?_, ?_⟩
  · intro call isAllowed
    obtain ⟨after, ran, _⟩ := dmacStep_ok inv isAllowed
    exact ⟨after, ran⟩
  · intro process answers unused fails
    exact dmacStep_init_faults inv unused fails
  · intro process unused
    exact dmacStep_fini_unbalanced inv unused

end Runs

/-- Every step of a `dma_init` succeeds. -/
def smooth : Answers := ⟨true, true, true, true, true, true, true, .created⟩

/-- One of two processes has called `dma_init`. -/
def oneUser : Dmac Bool :=
  ⟨⟨.sized, 1, 0⟩,
    Function.update (fun _ => ⟨0, false, false, false⟩) true ⟨1, true, true, true⟩⟩

/-- The first `dma_init` is a run. -/
theorem run_oneUser :
    Run dmacStep DmacAllowed (dmacStart 0) [⟨.init true smooth, .ok⟩] oneUser := by
  apply @Run.next _ _ _ _ dmacStep DmacAllowed (dmacStart 0) [] (dmacStart 0) oneUser
  · exact .start
  · have succeeds : AllSucceed smooth (dmacStart 0 : Dmac Bool).shared
        ((dmacStart 0 : Dmac Bool).processes true) :=
      ⟨.inr rfl, ⟨rfl, rfl⟩, rfl, rfl, rfl, RsrcResult.noConfusion⟩
    exact ⟨by decide, by decide, fun _ => succeeds⟩
  · rfl

theorem dmac_run_oneUser :
    (oneUser.using.Finite ∧ oneUser.shared.processCnt = oneUser.using.ncard) ∧
    (∀ call, DmacAllowed [⟨.init true smooth, .ok⟩] oneUser call →
      ∃ after, dmacStep oneUser call = .ok (after, .ok)) ∧
    (∀ process answers, (oneUser.processes process).nUsers = 0 →
      ¬ AllSucceed answers oneUser.shared (oneUser.processes process) →
        dmacStep oneUser (.init process answers) = .error .nullAccess) ∧
    (∀ process, (oneUser.processes process).nUsers = 0 →
      ∃ after, dmacStep oneUser (.fini process) = .ok (after, .ok) ∧
        after.shared.processCnt ≠ after.using.ncard) :=
  dmac_run run_oneUser

/-- A first `dma_init` whose `slog2_register` fails dereferences the shared memory it has not
mapped. -/
theorem first_init_without_log_faults :
    dmacStep (dmacStart 0 : Dmac Bool) (.init true { smooth with slog := false }) =
      .error .nullAccess :=
  rfl

end Bcm2711.Dma
