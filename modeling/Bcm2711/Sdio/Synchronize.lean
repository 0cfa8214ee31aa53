import Bcm2711.Lib.Actions

/-! # Removal waits for the clients

Every entry point of the card layer counts itself in `device->usage` before its work and out
again after it; a call that is refused returns without work.  The thread that detects the
removal of the card marks the device and waits until nobody is counted.  All of this happens
under `sdio_ctrl.mutex`, but for the flag of a media change, which an event sets at any time.
-/

namespace Bcm2711.Sdio

open Actions

/-! ## One device -/

/-- What `_sdio_synchronize` returns. -/
inductive SyncStatus where
  | eok
  | ebusy
  | enxio
deriving DecidableEq, Repr

/-- The flags and the counter of `struct sdio_device` and of the card behind it. -/
structure Device where
  /-- `DEV_FLAG_RMV_PENDING` of the device. -/
  rmvPending : Bool
  /-- `DEV_FLAG_MEDIA_CHANGE` and `DEV_FLAG_PRESENT` of the card. -/
  mediaChange : Bool
  isPresent : Bool
  usage : Int
deriving DecidableEq, Repr

/-- `_sdio_synchronize` between the lock and the unlock; the last value tells whether it
signals `cd_cond`. -/
def sdioSynchronize (device : Device) (io : Bool) (ncmds : Int) : SyncStatus × Device × Bool :=
  if io = false then
    let marked := { device with rmvPending := true }
    if device.usage ≠ 0 then (.ebusy, marked, false) else (.eok, marked, false)
  else if 0 ≤ ncmds then
    if device.rmvPending ∨ device.mediaChange then (.enxio, device, false)
    else (.eok, { device with usage := device.usage + ncmds }, false)
  else
    let left := { device with usage := device.usage + ncmds }
    (.eok, left, left.usage = 0 ∧ left.rmvPending = true)

/-! ## Clients and the removal -/

/-- Who holds `sdio_ctrl.mutex`: a client operation, the card detect thread, or a thread that
does something else under it. -/
inductive Holder where
  | op (id : Nat)
  | cd
  | other
deriving DecidableEq, Repr

/-- Where a client operation is.  Operations that are nested in another have a number of their
own. -/
inductive OpAt where
  | outside
  /-- It holds the mutex to be counted. -/
  | entering
  /-- It knows the answer and still holds the mutex. -/
  | answered (status : SyncStatus)
  | working
  /-- It holds the mutex to be counted out. -/
  | leaving
  | left
deriving DecidableEq, Repr

/-- The operation has been counted and not yet counted out. -/
def OpAt.flying : OpAt → Bool
  | .answered .eok => true
  | .working => true
  | .leaving => true
  | _ => false

/-- The operation holds the mutex. -/
def OpAt.holds : OpAt → Bool
  | .outside => false
  | .working => false
  | _ => true

/-- Where `sdio_cd` is with the removal of the device. -/
inductive CdAt where
  | outside
  /-- It has cleared the flags of the card. -/
  | cleared
  | locked
  /-- It is at the test of the loop. -/
  | testing
  /-- It is in `pthread_cond_wait`. -/
  | waiting
  | woken
  /-- The loop has exited, the mutex is still held. -/
  | exited
  /-- It is in the client's removal function. -/
  | removing
  /-- `sdio_detach` has found the device unused. -/
  | detaching
  /-- `sdio_detach` has returned `EBUSY`. -/
  | kept
  | freed
deriving DecidableEq, Repr

/-- The card detect thread holds the mutex. -/
def CdAt.holds : CdAt → Bool
  | .locked => true
  | .testing => true
  | .exited => true
  | _ => false

/-- The device has been marked. -/
def CdAt.marked : CdAt → Bool
  | .outside => false
  | .cleared => false
  | .locked => false
  | _ => true

/-- The wait loop has exited. -/
def CdAt.waitedOut : CdAt → Bool
  | .exited => true
  | .removing => true
  | .detaching => true
  | .kept => true
  | .freed => true
  | _ => false

/-- The device, its clients and the card detect thread. -/
structure Removal where
  mutex : Option Holder
  device : Device
  ops : Nat → OpAt
  /-- The operations between their successful count and their count out. -/
  inFlight : Finset Nat
  cd : CdAt

/-- An attached device that nobody uses yet. -/
def Removal.initial : Removal :=
  ⟨none, ⟨false, false, true, 0⟩, fun _ => .outside, ∅, .outside⟩

/-- A step of a client operation, of the card detect thread, or of others. -/
inductive RemovalAction where
  | enter (id : Nat)
  /-- `_sdio_synchronize( device, !0, 1 )`. -/
  | count (id : Nat)
  | answer (id : Nat)
  | leave (id : Nat)
  /-- `_sdio_synchronize( device, !0, -1 )`. -/
  | countOut (id : Nat)
  | release (id : Nat)
  | otherLock
  | otherUnlock
  /-- `sdio_hc_event( hc, HC_EV_CD )`. -/
  | mediaEvent
  /-- `sdio_cd` reads whether a card is inserted. -/
  | detect (inserted : Bool)
  | cdLock
  | mark
  | test
  /-- `pthread_cond_wait` returns without a signal. -/
  | spurious
  | relock
  | cdUnlock
  /-- `sdio_detach` reads the counter. -/
  | detach
  | free
deriving DecidableEq, Repr

namespace Removal

/-- An operation moves on. -/
def move (state : Removal) (id : Nat) (place : OpAt) : Removal :=
  { state with ops := Function.update state.ops id place }

/-- The count of an operation. -/
def counted (state : Removal) (id : Nat) : Removal :=
  let (status, device, _) := sdioSynchronize state.device true 1
  { state.move id (.answered status) with
    device
    inFlight := if status = .eok then insert id state.inFlight else state.inFlight }

/-- The count out of an operation, which may wake the card detect thread. -/
def countedOut (state : Removal) (id : Nat) : Removal :=
  let (_, device, signal) := sdioSynchronize state.device true (-1)
  { state.move id .left with
    device
    inFlight := state.inFlight.erase id
    cd := if signal ∧ state.cd = .waiting then .woken else state.cd }

/-- The test of the loop.  A wait without the mutex would fail and leave the loop. -/
def tested (state : Removal) : Removal :=
  if state.device.usage ≠ 0 then
    if state.mutex = some .cd then { state with cd := .waiting, mutex := none }
    else { state with cd := .exited }
  else { state with cd := .exited }

/-- The flags that `sdio_cd` clears when the card has changed or gone. -/
def detected (state : Removal) (inserted : Bool) : Removal :=
  if state.device.mediaChange ∨ inserted = false then
    { state with
      device := { state.device with mediaChange := false, isPresent := false }
      cd := if state.device.isPresent then .cleared else .outside }
  else state

/-- One step.  Nothing is done to a device that has been freed. -/
def act (state : Removal) (action : RemovalAction) : Option Removal :=
  if state.cd = .freed then none
  else
    match action with
    | .enter id =>
        if state.ops id = .outside ∧ state.mutex = none then
          some { state.move id .entering with mutex := some (.op id) }
        else none
    | .count id => if state.ops id = .entering then some (state.counted id) else none
    | .answer id =>
        match state.ops id with
        | .answered .eok => some { state.move id .working with mutex := none }
        | .answered _ => some { state.move id .outside with mutex := none }
        | _ => none
    | .leave id =>
        if state.ops id = .working ∧ state.mutex = none then
          some { state.move id .leaving with mutex := some (.op id) }
        else none
    | .countOut id => if state.ops id = .leaving then some (state.countedOut id) else none
    | .release id =>
        if state.ops id = .left then some { state.move id .outside with mutex := none } else none
    | .otherLock => if state.mutex = none then some { state with mutex := some .other } else none
    | .otherUnlock =>
        if state.mutex = some .other then some { state with mutex := none } else none
    | .mediaEvent => some { state with device := { state.device with mediaChange := true } }
    | .detect inserted => if state.cd = .outside then some (state.detected inserted) else none
    | .cdLock =>
        if state.cd = .cleared ∧ state.mutex = none then
          some { state with cd := .locked, mutex := some .cd }
        else none
    | .mark =>
        if state.cd = .locked then
          some { state with cd := .testing, device := { state.device with rmvPending := true } }
        else none
    | .test => if state.cd = .testing then some state.tested else none
    | .spurious => if state.cd = .waiting then some { state with cd := .woken } else none
    | .relock =>
        if state.cd = .woken ∧ state.mutex = none then
          some { state with cd := .testing, mutex := some .cd }
        else none
    | .cdUnlock =>
        if state.cd = .exited then some { state with cd := .removing, mutex := none } else none
    | .detach =>
        if state.cd = .removing then
          some { state with cd := if state.device.usage ≠ 0 then .kept else .detaching }
        else none
    | .free =>
        if state.cd = .detaching ∧ state.mutex = none then some { state with cd := .freed }
        else none

end Removal

/-! ## What holds in every run -/

/-- The counter counts the operations in flight, the mutex has the holder that the threads
say, and a device whose removal has waited has none in flight. -/
structure Balanced (state : Removal) : Prop where
  usage : state.device.usage = state.inFlight.card
  inFlight : ∀ id, id ∈ state.inFlight ↔ (state.ops id).flying = true
  opMutex : ∀ id, (state.ops id).holds = true ↔ state.mutex = some (.op id)
  cdMutex : state.cd.holds = true ↔ state.mutex = some .cd
  marked : state.cd.marked = true → state.device.rmvPending = true
  drained : state.cd.waitedOut = true → state.inFlight = ∅

variable {state after : Removal} {id : Nat}

namespace Balanced

/-- Only the holder of the mutex is where the mutex is held. -/
theorem alone (balanced : Balanced state) (holds : (state.ops id).holds = true) {other : Nat}
    (different : other ≠ id) : (state.ops other).holds = false := by
  rw [Bool.eq_false_iff]
  intro both
  have first := (balanced.opMutex id).mp holds
  rw [(balanced.opMutex other).mp both] at first
  cases first
  exact different rfl

theorem notCd (balanced : Balanced state) (holds : (state.ops id).holds = true) :
    state.cd.holds = false := by
  rw [Bool.eq_false_iff]
  intro both
  have first := (balanced.opMutex id).mp holds
  rw [balanced.cdMutex.mp both] at first
  cases first

/-- Nobody is where the mutex is held while it is free. -/
theorem nobody (balanced : Balanced state) (free : state.mutex = none) (id : Nat) :
    (state.ops id).holds = false := by
  rw [Bool.eq_false_iff]
  intro holds
  rw [(balanced.opMutex id).mp holds] at free
  cases free

theorem notCd_of_free (balanced : Balanced state) (free : state.mutex = none) :
    state.cd.holds = false := by
  rw [Bool.eq_false_iff]
  intro holds
  rw [balanced.cdMutex.mp holds] at free
  cases free

theorem nobody_of_cd (balanced : Balanced state) (holds : state.cd.holds = true) (id : Nat) :
    (state.ops id).holds = false := by
  rw [Bool.eq_false_iff]
  intro both
  have first := balanced.cdMutex.mp holds
  rw [(balanced.opMutex id).mp both] at first
  cases first

/-- The operations in flight after one has moved. -/
theorem inFlight_move (balanced : Balanced state) {place : OpAt} {inFlight : Finset Nat}
    (own : id ∈ inFlight ↔ place.flying = true)
    (rest : ∀ other, other ≠ id → (other ∈ inFlight ↔ other ∈ state.inFlight)) (other : Nat) :
    other ∈ inFlight ↔ (Function.update state.ops id place other).flying = true := by
  have every := Function.forall_update_iff (a := id) (b := place) state.ops
    (fun other place => other ∈ inFlight ↔ place.flying = true)
  exact every.mpr ⟨own, fun other different =>
    (rest other different).trans (balanced.inFlight other)⟩ other

/-- The holder of the mutex after an operation has moved. -/
theorem opMutex_move {place : OpAt} {mutex : Option Holder}
    (own : place.holds = true ↔ mutex = some (.op id))
    (rest : ∀ other, other ≠ id → ((state.ops other).holds = true ↔ mutex = some (.op other)))
    (other : Nat) :
    (Function.update state.ops id place other).holds = true ↔ mutex = some (.op other) := by
  have every := Function.forall_update_iff (a := id) (b := place) state.ops
    (fun other place => place.holds = true ↔ mutex = some (.op other))
  exact every.mpr ⟨own, rest⟩ other

/-- An operation takes the free mutex. -/
theorem taken (balanced : Balanced state) (free : state.mutex = none) {place : OpAt}
    (same : place.flying = (state.ops id).flying) (holds : place.holds = true) :
    Balanced { state.move id place with mutex := some (.op id) } where
  usage := balanced.usage
  inFlight := balanced.inFlight_move (by rw [same]; exact balanced.inFlight id)
    fun _ _ => Iff.rfl
  opMutex := by
    refine opMutex_move (iff_of_true holds rfl) ?_
    intro other different
    rw [balanced.nobody free other]
    refine iff_of_false nofun ?_
    intro taken
    cases taken
    exact different rfl
  cdMutex := iff_of_false (by rw [Removal.move, balanced.notCd_of_free free]; exact nofun) nofun
  marked := balanced.marked
  drained := balanced.drained

/-- An operation gives the mutex back. -/
theorem released (balanced : Balanced state) {place : OpAt}
    (held : (state.ops id).holds = true) (same : place.flying = (state.ops id).flying)
    (outside : place.holds = false) :
    Balanced { state.move id place with mutex := none } where
  usage := balanced.usage
  inFlight := balanced.inFlight_move (by rw [same]; exact balanced.inFlight id)
    fun _ _ => Iff.rfl
  opMutex := by
    refine opMutex_move (iff_of_false (by rw [outside]; exact nofun) nofun) ?_
    intro other different
    rw [balanced.alone held different]
    exact iff_of_false nofun nofun
  cdMutex := iff_of_false (by rw [Removal.move, balanced.notCd held]; exact nofun) nofun
  marked := balanced.marked
  drained := balanced.drained

/-- A step of the card detect thread that neither takes nor gives the mutex. -/
theorem cdMoved (balanced : Balanced state) {cd : CdAt} (holds : cd.holds = state.cd.holds)
    (marked : cd.marked = true → state.device.rmvPending = true)
    (drained : cd.waitedOut = true → state.inFlight = ∅) :
    Balanced { state with cd } :=
  { balanced with
    cdMutex := by
      rw [holds]
      exact balanced.cdMutex
    marked := marked
    drained := drained }

/-- The card detect thread takes the free mutex. -/
theorem cdTook (balanced : Balanced state) (free : state.mutex = none) {cd : CdAt}
    (holds : cd.holds = true) (marked : cd.marked = true → state.device.rmvPending = true)
    (drained : cd.waitedOut = true → state.inFlight = ∅) :
    Balanced { state with cd, mutex := some .cd } :=
  { balanced with
    opMutex := by
      intro id
      rw [balanced.nobody free id]
      exact iff_of_false nofun nofun
    cdMutex := iff_of_true holds rfl
    marked := marked
    drained := drained }

/-- The card detect thread gives the mutex back. -/
theorem cdReleased (balanced : Balanced state) (held : state.cd.holds = true) {cd : CdAt}
    (outside : cd.holds = false) (marked : cd.marked = true → state.device.rmvPending = true)
    (drained : cd.waitedOut = true → state.inFlight = ∅) :
    Balanced { state with cd, mutex := none } :=
  { balanced with
    opMutex := by
      intro id
      rw [balanced.nobody_of_cd held id]
      exact iff_of_false nofun nofun
    cdMutex := by
      rw [outside]
      exact iff_of_false nofun nofun
    marked := marked
    drained := drained }

/-- A device that is not marked is still in use by the card. -/
theorem unmarked (balanced : Balanced state) (pending : state.device.rmvPending = false) :
    state.cd.waitedOut = false := by
  have notMarked : state.cd.marked ≠ true := by
    intro marked
    rw [balanced.marked marked] at pending
    cases pending
  cases place : state.cd <;> rw [place] at notMarked <;> first | rfl | exact absurd rfl notMarked

/-- An operation is counted, unless the device is marked or the media has changed. -/
theorem counted (balanced : Balanced state) (entering : state.ops id = .entering) :
    Balanced (state.counted id) := by
  have held : (state.ops id).holds = true := by
    rw [entering]
    rfl
  have outside : id ∉ state.inFlight := by
    rw [balanced.inFlight id, entering]
    exact nofun
  have opMutex : ∀ status other,
      (Function.update state.ops id (.answered status) other).holds = true ↔
        state.mutex = some (.op other) := by
    intro status
    exact opMutex_move (iff_of_true rfl ((balanced.opMutex id).mp held))
      fun other _ => balanced.opMutex other
  by_cases refused : state.device.rmvPending = true ∨ state.device.mediaChange = true
  · have same : state.counted id = state.move id (.answered .enxio) := by
      simp [Removal.counted, sdioSynchronize, refused, Removal.move]
    rw [same]
    exact
      { balanced with
        inFlight := balanced.inFlight_move (iff_of_false outside nofun) fun _ _ => Iff.rfl
        opMutex := opMutex .enxio }
  · have same : state.counted id =
        { state.move id (.answered .eok) with
          device := { state.device with usage := state.device.usage + 1 }
          inFlight := insert id state.inFlight } := by
      simp [Removal.counted, sdioSynchronize, refused]
    rw [same]
    have pending : state.device.rmvPending = false :=
      Bool.eq_false_iff.mpr fun marked => refused (Or.inl marked)
    refine
      { balanced with
        usage := ?_
        inFlight := ?_
        opMutex := opMutex .eok
        drained := ?_ }
    · rw [Finset.card_insert_of_notMem outside, Nat.cast_succ, ← balanced.usage]
    · refine balanced.inFlight_move (iff_of_true (Finset.mem_insert_self _ _) rfl) ?_
      intro other different
      rw [Finset.mem_insert, or_iff_right different]
    · intro waitedOut
      have notYet := balanced.unmarked pending
      rw [Removal.move] at waitedOut
      rw [waitedOut] at notYet
      cases notYet

/-- An operation is counted out. -/
theorem countedOut (balanced : Balanced state) (leaving : state.ops id = .leaving) :
    Balanced (state.countedOut id) := by
  have held : (state.ops id).holds = true := by
    rw [leaving]
    rfl
  have inside : id ∈ state.inFlight := by
    rw [balanced.inFlight id, leaving]
    rfl
  have same : state.countedOut id =
      { state.move id .left with
        device := { state.device with usage := state.device.usage + -1 }
        inFlight := state.inFlight.erase id
        cd := if (state.device.usage + -1 = 0 ∧ state.device.rmvPending = true) ∧
          state.cd = .waiting then .woken else state.cd } := by
    simp [Removal.countedOut, sdioSynchronize]
  rw [same]
  refine
    { usage := ?_
      inFlight := ?_
      opMutex := ?_
      cdMutex := ?_
      marked := ?_
      drained := ?_ }
  · rw [balanced.usage, ← Finset.card_erase_add_one inside, Nat.cast_succ, add_neg_cancel_right]
  · refine balanced.inFlight_move (iff_of_false (Finset.notMem_erase _ _) nofun) ?_
    intro other different
    rw [Finset.mem_erase, and_iff_right different]
  · exact opMutex_move (iff_of_true rfl ((balanced.opMutex id).mp held))
      fun other _ => balanced.opMutex other
  · refine iff_of_false ?_ ?_
    · dsimp only
      split
      · exact nofun
      · change state.cd.holds ≠ true
        rw [balanced.notCd held]
        exact nofun
    · change state.mutex ≠ some .cd
      rw [(balanced.opMutex id).mp held]
      exact nofun
  · dsimp only
    split
    · next waiting => exact fun _ => waiting.1.2
    · exact balanced.marked
  · dsimp only
    split
    · exact nofun
    · intro waitedOut
      have none : state.inFlight = ∅ := balanced.drained waitedOut
      rw [none, Finset.erase_empty]

/-- The test of the loop: the wait keeps going while somebody is counted. -/
theorem tested (balanced : Balanced state) (testing : state.cd = .testing) :
    Balanced state.tested := by
  have holds : state.cd.holds = true := by
    rw [testing]
    rfl
  have pending : state.device.rmvPending = true := by
    apply balanced.marked
    rw [testing]
    rfl
  rw [Removal.tested, if_pos (balanced.cdMutex.mp holds)]
  split
  · exact balanced.cdReleased holds rfl (fun _ => pending) nofun
  · next unused =>
      refine balanced.cdMoved holds.symm (fun _ => pending) ?_
      intro _
      have none : state.device.usage = 0 := not_not.mp unused
      rw [balanced.usage, Nat.cast_eq_zero] at none
      exact Finset.card_eq_zero.mp none

theorem detected (balanced : Balanced state) (outside : state.cd = .outside) (inserted : Bool) :
    Balanced (state.detected inserted) := by
  unfold Removal.detected
  split
  · have holds : state.cd.holds = false := by
      rw [outside]
      rfl
    refine { balanced with cdMutex := ?_, marked := ?_, drained := ?_ }
    · rw [← balanced.cdMutex, holds]
      split <;> exact Iff.rfl
    · split <;> exact nofun
    · split <;> exact nofun
  · exact balanced

/-- Every step keeps the invariant. -/
theorem act (balanced : Balanced state) {action : RemovalAction}
    (acted : state.act action = some after) : Balanced after := by
  obtain ⟨_, stepped⟩ := Option.ite_none_left_eq_some.mp acted
  cases action with
  | enter id =>
      obtain ⟨⟨outside, free⟩, same⟩ := Option.ite_none_right_eq_some.mp stepped
      cases same
      refine balanced.taken free ?_ rfl
      rw [outside]
      rfl
  | count id =>
      obtain ⟨entering, same⟩ := Option.ite_none_right_eq_some.mp stepped
      cases same
      exact balanced.counted entering
  | answer id =>
      cases place : state.ops id with
      | answered status =>
          have held : (state.ops id).holds = true := by
            rw [place]
            rfl
          cases status with
          | eok =>
              simp only [place] at stepped
              cases stepped
              exact balanced.released held (by rw [place]; rfl) rfl
          | ebusy =>
              simp only [place] at stepped
              cases stepped
              exact balanced.released held (by rw [place]; rfl) rfl
          | enxio =>
              simp only [place] at stepped
              cases stepped
              exact balanced.released held (by rw [place]; rfl) rfl
      | _ =>
          simp only [place] at stepped
          cases stepped
  | leave id =>
      obtain ⟨⟨working, free⟩, same⟩ := Option.ite_none_right_eq_some.mp stepped
      cases same
      refine balanced.taken free ?_ rfl
      rw [working]
      rfl
  | countOut id =>
      obtain ⟨leaving, same⟩ := Option.ite_none_right_eq_some.mp stepped
      cases same
      exact balanced.countedOut leaving
  | release id =>
      obtain ⟨left, same⟩ := Option.ite_none_right_eq_some.mp stepped
      cases same
      exact balanced.released (by rw [left]; rfl) (by rw [left]; rfl) rfl
  | otherLock =>
      obtain ⟨free, same⟩ := Option.ite_none_right_eq_some.mp stepped
      cases same
      refine { balanced with opMutex := ?_, cdMutex := ?_ }
      · intro id
        rw [balanced.nobody free id]
        exact iff_of_false nofun nofun
      · rw [balanced.notCd_of_free free]
        exact iff_of_false nofun nofun
  | otherUnlock =>
      obtain ⟨other, same⟩ := Option.ite_none_right_eq_some.mp stepped
      cases same
      refine { balanced with opMutex := ?_, cdMutex := ?_ }
      · intro id
        rw [balanced.opMutex id, other]
        exact iff_of_false nofun nofun
      · rw [balanced.cdMutex, other]
        exact iff_of_false nofun nofun
  | mediaEvent =>
      cases stepped
      exact { balanced with }
  | detect inserted =>
      obtain ⟨outside, same⟩ := Option.ite_none_right_eq_some.mp stepped
      cases same
      exact balanced.detected outside inserted
  | cdLock =>
      obtain ⟨⟨_, free⟩, same⟩ := Option.ite_none_right_eq_some.mp stepped
      cases same
      exact balanced.cdTook free rfl nofun nofun
  | mark =>
      obtain ⟨locked, same⟩ := Option.ite_none_right_eq_some.mp stepped
      cases same
      have holds : state.cd.holds = true := by
        rw [locked]
        rfl
      exact
        { balanced with
          cdMutex := iff_of_true rfl (balanced.cdMutex.mp holds)
          marked := fun _ => rfl
          drained := nofun }
  | test =>
      obtain ⟨testing, same⟩ := Option.ite_none_right_eq_some.mp stepped
      cases same
      exact balanced.tested testing
  | spurious =>
      obtain ⟨waiting, same⟩ := Option.ite_none_right_eq_some.mp stepped
      cases same
      refine balanced.cdMoved ?_ (fun _ => balanced.marked ?_) nofun
      · rw [waiting]
        rfl
      · rw [waiting]
        rfl
  | relock =>
      obtain ⟨⟨woken, free⟩, same⟩ := Option.ite_none_right_eq_some.mp stepped
      cases same
      refine balanced.cdTook free rfl (fun _ => balanced.marked ?_) nofun
      rw [woken]
      rfl
  | cdUnlock =>
      obtain ⟨exited, same⟩ := Option.ite_none_right_eq_some.mp stepped
      cases same
      refine balanced.cdReleased ?_ rfl (fun _ => balanced.marked ?_)
        (fun _ => balanced.drained ?_)
      · rw [exited]
        rfl
      · rw [exited]
        rfl
      · rw [exited]
        rfl
  | detach =>
      obtain ⟨removing, same⟩ := Option.ite_none_right_eq_some.mp stepped
      cases same
      have drained : state.inFlight = ∅ := by
        apply balanced.drained
        rw [removing]
        rfl
      have pending : state.device.rmvPending = true := by
        apply balanced.marked
        rw [removing]
        rfl
      refine balanced.cdMoved ?_ (fun _ => pending) (fun _ => drained)
      rw [removing]
      split <;> rfl
  | free =>
      obtain ⟨⟨detaching, _⟩, same⟩ := Option.ite_none_right_eq_some.mp stepped
      cases same
      refine balanced.cdMoved ?_ (fun _ => balanced.marked ?_) (fun _ => balanced.drained ?_)
      · rw [detaching]
        rfl
      · rw [detaching]
        rfl
      · rw [detaching]
        rfl

end Balanced

end Bcm2711.Sdio
