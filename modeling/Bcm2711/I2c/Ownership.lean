import Bcm2711.I2c.Handover

/-! # Who uses the buffer of an I2C call

A call leaves its buffer, its length and its direction in `dev`, where the interrupt thread
finds them until it sets `dev->txrx` back to `BCM2711_I2C_IDLE`.  Calls are numbered; the
pointer `dev->buf` is the number of the call whose buffer it is.  The interrupt line is
shared with the other controllers, so the interrupt thread can wake at any time.
-/

namespace Bcm2711.I2c

/-! ## Two threads -/

/-- The fields of `dev` that both threads use. -/
structure Shared where
  buf : Nat
  /-- None is `BCM2711_I2C_IDLE`. -/
  txrx : Option Direction
  status : BitVec 32
  curLen : Nat
  totLen : Nat
  txrxStatus : I2cStatus
deriving DecidableEq, Repr

/-- What `pthread_cond_timedwait` returns. -/
inductive WaitResult where
  | eok
  | timedOut
  | failed
deriving DecidableEq, Repr

/-- Where the client is: before its first call; with the lengths set, or the buffer too; in
`push_data` before the start; with its transfer started; holding the mutex; waiting; woken
and about to take the mutex again; returned. -/
inductive ClientAt where
  | outside
  | lengthSet (dir : Direction)
  | bufSet (dir : Direction)
  | pushing
  | started
  | locked
  | waiting
  | woken (result : WaitResult)
  | returned (status : I2cStatus)
deriving DecidableEq, Repr

/-- Where the interrupt thread is: in `InterruptWait`; before its test of `txrx`; before its
read of the status register; before its decision; in `read_data`; in `push_data`; before it
sets `txrx` to idle; and then on its way to the mutex, the signal and the release. -/
inductive HandlerAt where
  | asleep
  | awake
  | checking
  | dispatching
  | reading (last : Bool)
  | pushing
  | ending (status : I2cStatus)
  | idled (report : Report)
  | locked (report : Report)
  | stored (report : Report)
  | signalled
deriving DecidableEq, Repr

/-- An access of the interrupt thread to the buffer of a call, with the call that was running
then, if one was. -/
structure Access where
  buffer : Nat
  running : Option Nat
deriving DecidableEq, Repr

/-- The two threads and what they share. -/
structure Ownership where
  mutex : Option Thread
  client : ClientAt
  handler : HandlerAt
  /-- The number of the last call that started a transfer. -/
  current : Nat
  dev : Shared
  accesses : List Access
deriving DecidableEq, Repr

/-- Before any call: `dev` is cleared. -/
def Ownership.initial (status : I2cStatus) : Ownership :=
  ⟨none, .outside, .asleep, 0, ⟨0, none, 0, 0, 0, status⟩, []⟩

/-- The client is in a call. -/
def ClientAt.inCall : ClientAt → Bool
  | .outside => false
  | .returned _ => false
  | _ => true

/-- `bcm2711_wait_complete` on this result of the wait. -/
def WaitResult.status (txrxStatus : I2cStatus) : WaitResult → I2cStatus
  | .eok => txrxStatus
  | .timedOut => .abort
  | .failed => .error

/-! ## Steps -/

/-- A step of one of the threads. -/
inductive OwnershipAction where
  /-- A call of `bcm2711_send` or `bcm2711_recv` sets the lengths, or is refused. -/
  | call (dir : Direction) (slave : SlaveAddr) (buf : Bytes.Memory) (len : Nat)
  | setBuf
  /-- The client sets `txrx` and clears the status. -/
  | arm
  /-- A turn of the client in `push_data`, with the status word it reads. -/
  | push (raw : BitVec 32)
  | lock
  | wait
  /-- The wait ends without a signal. -/
  | wake (result : WaitResult)
  /-- The client has the mutex again and returns. -/
  | leave
  | interrupt
  /-- The interrupt thread tests `txrx`. -/
  | check
  | readStatus (raw : BitVec 32)
  | dispatch
  /-- A turn of the interrupt thread in `read_data` or `push_data`, with the status word it
  reads. -/
  | turn (raw : BitVec 32)
  | setIdle
  | istLock
  | store
  | signal
  | unlock

/-- The call, up to its first step that the interrupt thread can see. -/
def entry (dir : Direction) (slave : SlaveAddr) (buf : Bytes.Memory) (len : Nat) :
    I2cStatus ⊕ Transfer :=
  match dir with
  | .tx => bcm2711Send slave buf len
  | .rx => bcm2711Recv slave buf len

/-- What the interrupt thread does about a status word. -/
def Shared.handle (dev : Shared) : HandlerAt :=
  if has dev.status (STATREG_ERR ||| STATREG_CLKT) then .ending .nack
  else if has dev.status STATREG_DONE then .reading true
  else if dev.txrx = some .rx ∧ has dev.status STATREG_RXR then
    if has dev.status STATREG_RXD then .reading false else .asleep
  else if dev.txrx = some .tx ∧ has dev.status STATREG_TXW then
    if has dev.status STATREG_TXD then .pushing else .asleep
  else .asleep

namespace Ownership

/-- The call that is running. -/
def running (state : Ownership) : Option Nat :=
  if state.client.inCall then some state.current else none

/-- The interrupt thread moves a byte between the FIFO and the buffer. -/
def access (state : Ownership) (status : BitVec 32) : Ownership :=
  { state with
    dev := { state.dev with status := status, curLen := state.dev.curLen + 1 }
    accesses := state.accesses ++ [⟨state.dev.buf, state.running⟩] }

/-- A turn of the interrupt thread in `read_data`. -/
def readTurn (state : Ownership) (last : Bool) (raw : BitVec 32) : Ownership :=
  if state.dev.curLen < state.dev.totLen ∧ has state.dev.status STATREG_RXD then
    state.access (raw &&& STATREG_MASK)
  else { state with handler := if last then .ending .done else .asleep }

/-- A turn of the interrupt thread in `push_data`. -/
def pushTurn (state : Ownership) (raw : BitVec 32) : Ownership :=
  if state.dev.curLen < state.dev.totLen then
    if has (raw &&& STATREG_MASK) STATREG_TXD then state.access (raw &&& STATREG_MASK)
    else { state with
      dev := { state.dev with status := raw &&& STATREG_MASK }, handler := .asleep }
  else { state with handler := .asleep }

/-- A turn of the client in `push_data`. -/
def clientTurn (state : Ownership) (raw : BitVec 32) : Ownership :=
  if state.dev.curLen < state.dev.totLen then
    if has (raw &&& STATREG_MASK) STATREG_TXD then
      { state with
        dev := { state.dev with
          status := raw &&& STATREG_MASK, curLen := state.dev.curLen + 1 } }
    else { state with
      dev := { state.dev with status := raw &&& STATREG_MASK }, client := .started }
  else { state with client := .started }

/-- One step. -/
def act (state : Ownership) : OwnershipAction → Option Ownership
  | .call dir slave buf len =>
      if state.client.inCall then none
      else
        match entry dir slave buf len with
        | .inl status => some { state with client := .returned status }
        | .inr transfer => some { state with
            client := .lengthSet dir
            current := state.current + 1
            dev := { state.dev with totLen := transfer.totLen, curLen := transfer.curLen } }
  | .setBuf =>
      match state.client with
      | .lengthSet dir => some { state with
          client := .bufSet dir, dev := { state.dev with buf := state.current } }
      | _ => none
  | .arm =>
      match state.client with
      | .bufSet dir => some { state with
          client := if dir = .tx then .pushing else .started
          dev := { state.dev with txrx := some dir, status := 0 } }
      | _ => none
  | .push raw => if state.client = .pushing then some (state.clientTurn raw) else none
  | .lock =>
      if state.client = .started ∧ state.mutex = none then
        some { state with client := .locked, mutex := some .caller }
      else none
  | .wait =>
      if state.client = .locked then some { state with client := .waiting, mutex := none }
      else none
  | .wake result =>
      if state.client = .waiting then some { state with client := .woken result } else none
  | .leave =>
      match state.client with
      | .woken result =>
          if state.mutex = none then
            some { state with client := .returned (result.status state.dev.txrxStatus) }
          else none
      | _ => none
  | .interrupt =>
      if state.handler = .asleep then some { state with handler := .awake } else none
  | .check =>
      if state.handler = .awake then
        some { state with handler := if state.dev.txrx = none then .asleep else .checking }
      else none
  | .readStatus raw =>
      if state.handler = .checking then
        some { state with
          handler := .dispatching, dev := { state.dev with status := raw &&& STATREG_MASK } }
      else none
  | .dispatch =>
      if state.handler = .dispatching then some { state with handler := state.dev.handle }
      else none
  | .turn raw =>
      match state.handler with
      | .reading last => some (state.readTurn last raw)
      | .pushing => some (state.pushTurn raw)
      | _ => none
  | .setIdle =>
      match state.handler with
      | .ending status => some { state with
          handler := .idled ⟨status, state.current⟩, dev := { state.dev with txrx := none } }
      | _ => none
  | .istLock =>
      match state.handler with
      | .idled report =>
          if state.mutex = none then
            some { state with handler := .locked report, mutex := some .ist }
          else none
      | _ => none
  | .store =>
      match state.handler with
      | .locked report => some { state with
          handler := .stored report, dev := { state.dev with txrxStatus := report.status } }
      | _ => none
  | .signal =>
      match state.handler with
      | .stored _ => some { state with
          handler := .signalled
          client := if state.client = .waiting then .woken .eok else state.client }
      | _ => none
  | .unlock =>
      if state.handler = .signalled then some { state with handler := .asleep, mutex := none }
      else none

/-- The interrupt thread uses the buffer of a call only while the call is running, and `txrx`
is idle between calls. -/
def owned (state : Ownership) : Prop :=
  (∀ access ∈ state.accesses, access.running = some access.buffer) ∧
    (state.client.inCall = false → state.dev.txrx = none)

/-- The wait ends without a signal only after the interrupt thread is through with the
transfer, and a signal for one transfer does not wake the caller of another. -/
def orderly (state : Ownership) : OwnershipAction → Prop
  | .wake _ => state.dev.txrx = none
  | .signal => ∀ report, state.handler = .stored report → state.client = .waiting →
      report.transfer = state.current
  | _ => True

end Ownership

/-! ## What holds in orderly runs -/

/-- The client has armed its transfer and has not been woken. -/
def ClientAt.armed : ClientAt → Bool
  | .pushing => true
  | .started => true
  | .locked => true
  | .waiting => true
  | _ => false

/-- The client has yet to arm its transfer. -/
def ClientAt.settingUp : ClientAt → Bool
  | .lengthSet _ => true
  | .bufSet _ => true
  | _ => false

/-- The interrupt thread has found `txrx` active and not set it to idle yet. -/
def HandlerAt.uses : HandlerAt → Bool
  | .checking => true
  | .dispatching => true
  | .reading _ => true
  | .pushing => true
  | .ending _ => true
  | _ => false

/-- The interrupt thread is between taking and releasing the mutex. -/
def HandlerAt.holds : HandlerAt → Bool
  | .locked _ => true
  | .stored _ => true
  | .signalled => true
  | _ => false

/-- What the interrupt thread is about to signal. -/
def HandlerAt.report : HandlerAt → Option Report
  | .idled report => some report
  | .locked report => some report
  | .stored report => some report
  | _ => none

/-- Only the transfer of the running call is active, and the interrupt thread uses no other. -/
structure Owned (state : Ownership) : Prop where
  clientMutex : state.client = .locked ↔ state.mutex = some .caller
  handlerMutex : state.handler.holds = true ↔ state.mutex = some .ist
  inUse : state.handler.uses = true → state.dev.txrx ≠ none
  armed : state.dev.txrx ≠ none → state.client.armed = true ∧ state.dev.buf = state.current
  pointed : ∀ dir, state.client = .bufSet dir → state.dev.buf = state.current
  reported : ∀ report, state.handler.report = some report →
    report.transfer ≤ state.current ∧
      (report.transfer = state.current → state.dev.txrx = none ∧ state.client.settingUp = false)
  pending : ∀ report, state.handler.report = some report → report.transfer ≠ state.current →
    state.client.armed = true → state.dev.txrx ≠ none
  accesses : ∀ access ∈ state.accesses, access.running = some access.buffer

variable {state after : Ownership}

theorem owned_initial (status : I2cStatus) : Owned (.initial status) where
  clientMutex := iff_of_false nofun nofun
  handlerMutex := iff_of_false nofun nofun
  inUse := nofun
  armed active := absurd rfl active
  pointed := nofun
  reported := nofun
  pending := nofun
  accesses := nofun

/-- A client that has armed its transfer is in its call. -/
theorem ClientAt.inCall_of_armed {client : ClientAt} (armed : client.armed = true) :
    client.inCall = true := by
  cases client with
  | outside => cases armed
  | returned status => cases armed
  | _ => rfl

theorem ClientAt.ne_bufSet {client : ClientAt} (settled : client.settingUp = false)
    {dir : Direction} : client ≠ .bufSet dir := by
  rintro rfl
  cases settled

/-- A decision neither takes the mutex nor signals. -/
theorem Shared.handle_quiet (dev : Shared) :
    dev.handle.holds = false ∧ dev.handle.report = none := by
  unfold Shared.handle
  repeat' split
  all_goals exact ⟨rfl, rfl⟩

namespace Owned

theorem idle (owned : Owned state) (unarmed : state.client.armed = false) :
    state.dev.txrx = none := by
  by_contra active
  have armed := (owned.armed active).1
  rw [unarmed] at armed
  cases armed

theorem isOwned (owned : Owned state) : state.owned := by
  refine ⟨owned.accesses, fun outside => owned.idle ?_⟩
  cases armed : state.client.armed with
  | false => rfl
  | true =>
      rw [ClientAt.inCall_of_armed armed] at outside
      cases outside

/-! ### The client -/

/-- The client goes on in its call and leaves the mutex alone. -/
theorem goesOn (owned : Owned state) {client : ClientAt} (wasUnlocked : state.client ≠ .locked)
    (unlocked : client ≠ .locked) (armed : client.armed = state.client.armed)
    (settled : client.settingUp = false) : Owned { state with client := client } :=
  { owned with
    clientMutex := iff_of_false unlocked fun held => wasUnlocked (owned.clientMutex.mpr held)
    armed := fun active => ⟨armed.trans (owned.armed active).1, (owned.armed active).2⟩
    pointed := fun _ isSet => absurd isSet (ClientAt.ne_bufSet settled)
    reported := fun report reports => ⟨(owned.reported report reports).1,
      fun isCurrent => ⟨((owned.reported report reports).2 isCurrent).1, settled⟩⟩
    pending := fun report reports other isArmed =>
      owned.pending report reports other (armed.symm.trans isArmed) }

/-- The client stops waiting for its transfer, which has ended. -/
theorem stops (owned : Owned state) {client : ClientAt} (wasUnlocked : state.client ≠ .locked)
    (unlocked : client ≠ .locked) (unarmed : client.armed = false)
    (settled : client.settingUp = false) (ended : state.dev.txrx = none) :
    Owned { state with client := client } :=
  { owned with
    clientMutex := iff_of_false unlocked fun held => wasUnlocked (owned.clientMutex.mpr held)
    armed := fun active => absurd ended active
    pointed := fun _ isSet => absurd isSet (ClientAt.ne_bufSet settled)
    reported := fun report reports => ⟨(owned.reported report reports).1,
      fun _ => ⟨ended, settled⟩⟩
    pending := fun report reports other isArmed => by
      rw [unarmed] at isArmed
      cases isArmed }

theorem call (owned : Owned state) {dir : Direction} {slave : SlaveAddr} {buf : Bytes.Memory}
    {len : Nat} (acted : state.act (.call dir slave buf len) = some after) : Owned after := by
  obtain ⟨outside, acted⟩ := Option.ite_none_left_eq_some.mp acted
  have unarmed : state.client.armed = false := by
    cases armed : state.client.armed with
    | false => rfl
    | true => exact absurd (ClientAt.inCall_of_armed armed) outside
  have unlocked : state.client ≠ .locked := by
    intro locked
    rw [locked] at unarmed
    cases unarmed
  have ended := owned.idle unarmed
  cases entered : entry dir slave buf len with
  | inl status =>
      rw [entered] at acted
      cases acted
      exact owned.stops unlocked nofun rfl rfl ended
  | inr transfer =>
      rw [entered] at acted
      cases acted
      refine
        { owned with
          clientMutex := iff_of_false nofun fun held => unlocked (owned.clientMutex.mpr held)
          armed := fun active => absurd ended active
          pointed := nofun
          reported := fun report reports => ?_
          pending := nofun }
      have upTo := (owned.reported report reports).1
      exact ⟨upTo.trans (Nat.le_succ _), fun isNew => absurd upTo
        (Nat.not_le.mpr (isNew ▸ Nat.lt_succ_self _))⟩

theorem setBuf (owned : Owned state) (acted : state.act .setBuf = some after) :
    Owned after := by
  unfold Ownership.act at acted
  cases client : state.client with
  | lengthSet dir =>
      simp only [client] at acted
      cases acted
      have ended : state.dev.txrx = none := owned.idle (by rw [client]; rfl)
      refine
        { owned with
          clientMutex := iff_of_false nofun fun held => ?_
          armed := fun active => absurd ended active
          pointed := fun _ _ => rfl
          reported := fun report reports => ?_
          pending := nofun }
      · have locked := owned.clientMutex.mpr held
        rw [client] at locked
        cases locked
      · obtain ⟨upTo, settled⟩ := owned.reported report reports
        refine ⟨upTo, fun isCurrent => ?_⟩
        have settled := (settled isCurrent).2
        rw [client] at settled
        cases settled
  | _ =>
      simp only [client] at acted
      cases acted

theorem arm (owned : Owned state) (acted : state.act .arm = some after) : Owned after := by
  unfold Ownership.act at acted
  cases client : state.client with
  | bufSet dir =>
      simp only [client] at acted
      cases acted
      have isArmed : (if dir = .tx then ClientAt.pushing else .started).armed = true := by
        split <;> rfl
      refine
        { owned with
          clientMutex := iff_of_false (by split <;> exact nofun) fun held => ?_
          inUse := fun _ => nofun
          armed := fun _ => ⟨isArmed, owned.pointed dir client⟩
          pointed := fun other isSet => ?_
          reported := fun report reports => ?_
          pending := fun _ _ _ _ => nofun }
      · have locked := owned.clientMutex.mpr held
        rw [client] at locked
        cases locked
      · change (if dir = .tx then ClientAt.pushing else .started) = _ at isSet
        rw [isSet] at isArmed
        cases isArmed
      · obtain ⟨upTo, settled⟩ := owned.reported report reports
        refine ⟨upTo, fun isCurrent => ?_⟩
        have settled := (settled isCurrent).2
        rw [client] at settled
        cases settled
  | _ =>
      simp only [client] at acted
      cases acted

theorem push (owned : Owned state) {raw : BitVec 32}
    (acted : state.act (.push raw) = some after) : Owned after := by
  obtain ⟨pushing, same⟩ := Option.ite_none_right_eq_some.mp acted
  cases same
  have started : Owned { state with client := .started } :=
    owned.goesOn (by rw [pushing]; exact nofun) nofun (by rw [pushing]; rfl) rfl
  unfold Ownership.clientTurn
  split
  · split
    · exact { owned with }
    · exact { started with }
  · exact started

theorem lock (owned : Owned state) (acted : state.act .lock = some after) : Owned after := by
  obtain ⟨⟨started, free⟩, same⟩ := Option.ite_none_right_eq_some.mp acted
  cases same
  have isArmed : state.client.armed = true := by
    rw [started]
    rfl
  refine
    { owned with
      clientMutex := iff_of_true rfl rfl
      handlerMutex := iff_of_false (fun holds => ?_) nofun
      armed := fun active => ⟨rfl, (owned.armed active).2⟩
      pointed := nofun
      reported := fun report reports => ⟨(owned.reported report reports).1,
        fun isCurrent => ⟨((owned.reported report reports).2 isCurrent).1, rfl⟩⟩
      pending := fun report reports other _ => owned.pending report reports other isArmed }
  have held := owned.handlerMutex.mp holds
  rw [free] at held
  cases held

theorem wait (owned : Owned state) (acted : state.act .wait = some after) : Owned after := by
  obtain ⟨locked, same⟩ := Option.ite_none_right_eq_some.mp acted
  cases same
  have isArmed : state.client.armed = true := by
    rw [locked]
    rfl
  refine
    { owned with
      clientMutex := iff_of_false nofun nofun
      handlerMutex := iff_of_false (fun holds => ?_) nofun
      armed := fun active => ⟨rfl, (owned.armed active).2⟩
      pointed := nofun
      reported := fun report reports => ⟨(owned.reported report reports).1,
        fun isCurrent => ⟨((owned.reported report reports).2 isCurrent).1, rfl⟩⟩
      pending := fun report reports other _ => owned.pending report reports other isArmed }
  have held := owned.handlerMutex.mp holds
  rw [owned.clientMutex.mp locked] at held
  cases held

theorem wake (owned : Owned state) {result : WaitResult}
    (acted : state.act (.wake result) = some after) (ended : state.dev.txrx = none) :
    Owned after := by
  obtain ⟨waiting, same⟩ := Option.ite_none_right_eq_some.mp acted
  cases same
  exact owned.stops (by rw [waiting]; exact nofun) nofun rfl rfl ended

theorem leave (owned : Owned state) (acted : state.act .leave = some after) : Owned after := by
  unfold Ownership.act at acted
  cases client : state.client with
  | woken result =>
      simp only [client] at acted
      obtain ⟨_, same⟩ := Option.ite_none_right_eq_some.mp acted
      cases same
      have ended : state.dev.txrx = none := owned.idle (by rw [client]; rfl)
      exact owned.stops (by rw [client]; exact nofun) nofun rfl rfl ended
  | _ =>
      simp only [client] at acted
      cases acted

/-! ### The interrupt thread -/

/-- The interrupt thread goes on outside its use of the mutex and has nothing to signal. -/
theorem handles (owned : Owned state) {handler : HandlerAt}
    (heldNot : state.handler.holds = false) (holdsNot : handler.holds = false)
    (uses : handler.uses = true → state.dev.txrx ≠ none) (silent : handler.report = none) :
    Owned { state with handler := handler } :=
  { owned with
    handlerMutex := by
      refine iff_of_false (fun holds => ?_) fun held => ?_
      · rw [holdsNot] at holds
        cases holds
      · rw [owned.handlerMutex.mpr held] at heldNot
        cases heldNot
    inUse := uses
    reported := fun report reports => by
      rw [silent] at reports
      cases reports
    pending := fun report reports => by
      rw [silent] at reports
      cases reports }

theorem interrupt (owned : Owned state) (acted : state.act .interrupt = some after) :
    Owned after := by
  obtain ⟨asleep, same⟩ := Option.ite_none_right_eq_some.mp acted
  cases same
  exact owned.handles (by rw [asleep]; rfl) rfl nofun rfl

theorem check (owned : Owned state) (acted : state.act .check = some after) : Owned after := by
  obtain ⟨awake, same⟩ := Option.ite_none_right_eq_some.mp acted
  cases same
  have heldNot : state.handler.holds = false := by
    rw [awake]
    rfl
  split
  · exact owned.handles heldNot rfl nofun rfl
  · next active => exact owned.handles heldNot rfl (fun _ => active) rfl

theorem readStatus (owned : Owned state) {raw : BitVec 32}
    (acted : state.act (.readStatus raw) = some after) : Owned after := by
  obtain ⟨checking, same⟩ := Option.ite_none_right_eq_some.mp acted
  cases same
  have active : state.dev.txrx ≠ none := owned.inUse (by rw [checking]; rfl)
  have dispatching : Owned { state with handler := .dispatching } :=
    owned.handles (by rw [checking]; rfl) rfl (fun _ => active) rfl
  exact { dispatching with }

theorem dispatch (owned : Owned state) (acted : state.act .dispatch = some after) :
    Owned after := by
  obtain ⟨dispatching, same⟩ := Option.ite_none_right_eq_some.mp acted
  cases same
  obtain ⟨holdsNot, silent⟩ := state.dev.handle_quiet
  have active : state.dev.txrx ≠ none := owned.inUse (by rw [dispatching]; rfl)
  exact owned.handles (by rw [dispatching]; rfl) holdsNot (fun _ => active) silent

/-- The interrupt thread moves a byte of the call that is running. -/
theorem access (owned : Owned state) (uses : state.handler.uses = true) (status : BitVec 32) :
    Owned (state.access status) := by
  obtain ⟨armed, pointed⟩ := owned.armed (owned.inUse uses)
  have runs : state.running = some state.dev.buf := by
    rw [Ownership.running, if_pos (ClientAt.inCall_of_armed armed), pointed]
  refine { owned with accesses := fun access isAccess => ?_ }
  rcases List.mem_append.mp isAccess with earlier | new
  · exact owned.accesses access earlier
  · cases List.mem_singleton.mp new
    exact runs

theorem turn (owned : Owned state) {raw : BitVec 32}
    (acted : state.act (.turn raw) = some after) : Owned after := by
  unfold Ownership.act at acted
  cases handler : state.handler with
  | reading last =>
      simp only [handler] at acted
      cases acted
      have uses : state.handler.uses = true := by
        rw [handler]
        rfl
      unfold Ownership.readTurn
      split
      · exact owned.access uses _
      · refine owned.handles (by rw [handler]; rfl) ?_ (fun _ => owned.inUse uses) ?_
        · cases last <;> rfl
        · cases last <;> rfl
  | pushing =>
      simp only [handler] at acted
      cases acted
      have asleep : Owned { state with handler := .asleep } :=
        owned.handles (by rw [handler]; rfl) rfl nofun rfl
      unfold Ownership.pushTurn
      split
      · split
        · exact owned.access (by rw [handler]; rfl) _
        · exact { asleep with }
      · exact asleep
  | _ =>
      simp only [handler] at acted
      cases acted

theorem setIdle (owned : Owned state) (acted : state.act .setIdle = some after) :
    Owned after := by
  unfold Ownership.act at acted
  cases handler : state.handler with
  | ending status =>
      simp only [handler] at acted
      cases acted
      have armed := (owned.armed (owned.inUse (by rw [handler]; rfl))).1
      have settled : state.client.settingUp = false := by
        cases client : state.client with
        | lengthSet dir =>
            rw [client] at armed
            cases armed
        | bufSet dir =>
            rw [client] at armed
            cases armed
        | _ => rfl
      refine
        { owned with
          handlerMutex := iff_of_false nofun fun held => ?_
          inUse := nofun
          armed := fun active => absurd rfl active
          reported := fun report reports => ?_
          pending := fun report reports other => ?_ }
      · have holds := owned.handlerMutex.mpr held
        rw [handler] at holds
        cases holds
      · cases reports
        exact ⟨le_rfl, fun _ => ⟨rfl, settled⟩⟩
      · cases reports
        exact absurd rfl other
  | _ =>
      simp only [handler] at acted
      cases acted

theorem istLock (owned : Owned state) (acted : state.act .istLock = some after) :
    Owned after := by
  unfold Ownership.act at acted
  cases handler : state.handler with
  | idled report =>
      simp only [handler] at acted
      obtain ⟨free, same⟩ := Option.ite_none_right_eq_some.mp acted
      cases same
      have isReport : state.handler.report = some report := by
        rw [handler]
        rfl
      refine
        { owned with
          clientMutex := iff_of_false (fun locked => ?_) nofun
          handlerMutex := iff_of_true rfl rfl
          inUse := nofun
          reported := fun other reports => ?_
          pending := fun other reports => ?_ }
      · have held := owned.clientMutex.mp locked
        rw [free] at held
        cases held
      · cases reports
        exact owned.reported report isReport
      · cases reports
        exact owned.pending report isReport
  | _ =>
      simp only [handler] at acted
      cases acted

theorem store (owned : Owned state) (acted : state.act .store = some after) :
    Owned after := by
  unfold Ownership.act at acted
  cases handler : state.handler with
  | locked report =>
      simp only [handler] at acted
      cases acted
      have isReport : state.handler.report = some report := by
        rw [handler]
        rfl
      have held : state.mutex = some .ist := owned.handlerMutex.mp (by rw [handler]; rfl)
      refine
        { owned with
          handlerMutex := iff_of_true rfl held
          inUse := nofun
          reported := fun other reports => ?_
          pending := fun other reports => ?_ }
      · cases reports
        exact owned.reported report isReport
      · cases reports
        exact owned.pending report isReport
  | _ =>
      simp only [handler] at acted
      cases acted

theorem signal (owned : Owned state) (ordered : state.orderly .signal)
    (acted : state.act .signal = some after) : Owned after := by
  unfold Ownership.act at acted
  cases handler : state.handler with
  | stored report =>
      simp only [handler] at acted
      cases acted
      have held : state.mutex = some .ist := owned.handlerMutex.mp (by rw [handler]; rfl)
      have signalled : Owned { state with handler := .signalled } :=
        { owned with
          handlerMutex := iff_of_true rfl held
          inUse := nofun
          reported := nofun
          pending := nofun }
      split
      · next waiting =>
          have isReport : state.handler.report = some report := by
            rw [handler]
            rfl
          have isCurrent := ordered report handler waiting
          have ended := ((owned.reported report isReport).2 isCurrent).1
          have unlocked : state.client ≠ .locked := by
            rw [waiting]
            exact nofun
          exact signalled.stops unlocked nofun rfl rfl ended
      · exact signalled
  | _ =>
      simp only [handler] at acted
      cases acted

theorem unlock (owned : Owned state) (acted : state.act .unlock = some after) :
    Owned after := by
  obtain ⟨signalled, same⟩ := Option.ite_none_right_eq_some.mp acted
  cases same
  have held : state.mutex = some .ist := owned.handlerMutex.mp (by rw [signalled]; rfl)
  refine
    { owned with
      clientMutex := iff_of_false (fun locked => ?_) nofun
      handlerMutex := iff_of_false nofun nofun
      inUse := nofun
      reported := nofun
      pending := nofun }
  have heldByClient := owned.clientMutex.mp locked
  rw [held] at heldByClient
  cases heldByClient

theorem act (owned : Owned state) {action : OwnershipAction} (ordered : state.orderly action)
    (acted : state.act action = some after) : Owned after := by
  cases action with
  | call dir slave buf len => exact owned.call acted
  | setBuf => exact owned.setBuf acted
  | arm => exact owned.arm acted
  | push raw => exact owned.push acted
  | lock => exact owned.lock acted
  | wait => exact owned.wait acted
  | wake result => exact owned.wake acted ordered
  | leave => exact owned.leave acted
  | interrupt => exact owned.interrupt acted
  | check => exact owned.check acted
  | readStatus raw => exact owned.readStatus acted
  | dispatch => exact owned.dispatch acted
  | turn raw => exact owned.turn acted
  | setIdle => exact owned.setIdle acted
  | istLock => exact owned.istLock acted
  | store => exact owned.store acted
  | signal => exact owned.signal ordered acted
  | unlock => exact owned.unlock acted

end Owned

/-! ## What happens otherwise -/

open Actions

namespace Ownership

/-- A client that was woken with its transfer active takes the free mutex and returns. -/
theorem disowned_of_free {result : WaitResult} (woken : state.client = .woken result)
    (active : state.dev.txrx ≠ none) (free : state.mutex = none) :
    ∃ final, Reaches act always state final ∧ ¬ final.owned := by
  have acted : state.act .leave =
      some { state with client := .returned (result.status state.dev.txrxStatus) } := by
    unfold Ownership.act
    rw [woken]
    exact if_pos free
  exact ⟨_, Reaches.refl.next acted trivial, fun owned => active (owned.2 rfl)⟩

/-- A client that was woken with its transfer active returns, once the interrupt thread has
released the mutex. -/
theorem disowned_of_signalled {result : WaitResult} (woken : state.client = .woken result)
    (active : state.dev.txrx ≠ none) (signalled : state.handler = .signalled) :
    ∃ final, Reaches act always state final ∧ ¬ final.owned := by
  have acted : state.act .unlock = some { state with handler := .asleep, mutex := none } := by
    exact if_pos signalled
  have released : ∃ final,
      Reaches Ownership.act always { state with handler := .asleep, mutex := none } final ∧
        ¬ final.owned := disowned_of_free woken active rfl
  obtain ⟨final, reached, disowned⟩ := released
  exact ⟨final, (Reaches.refl.next acted trivial).trans reached, disowned⟩

/-- The same before the signal, which wakes nobody else. -/
theorem disowned_of_stored {result : WaitResult} {report : Report}
    (woken : state.client = .woken result) (active : state.dev.txrx ≠ none)
    (stored : state.handler = .stored report) :
    ∃ final, Reaches act always state final ∧ ¬ final.owned := by
  have acted : state.act .signal = some { state with handler := .signalled } := by
    unfold Ownership.act
    rw [stored]
    simp only [woken, reduceCtorEq, if_false]
  have signalled : ∃ final,
      Reaches Ownership.act always { state with handler := .signalled } final ∧ ¬ final.owned :=
    disowned_of_signalled woken active rfl
  obtain ⟨final, reached, disowned⟩ := signalled
  exact ⟨final, (Reaches.refl.next acted trivial).trans reached, disowned⟩

/-- The same before the status is stored. -/
theorem disowned_of_locked {result : WaitResult} {report : Report}
    (woken : state.client = .woken result) (active : state.dev.txrx ≠ none)
    (locked : state.handler = .locked report) :
    ∃ final, Reaches act always state final ∧ ¬ final.owned := by
  have acted : state.act .store = some { state with
      handler := .stored report, dev := { state.dev with txrxStatus := report.status } } := by
    unfold Ownership.act
    rw [locked]
  have stored : ∃ final, Reaches Ownership.act always { state with
      handler := .stored report, dev := { state.dev with txrxStatus := report.status } } final ∧
        ¬ final.owned := disowned_of_stored woken active rfl
  obtain ⟨final, reached, disowned⟩ := stored
  exact ⟨final, (Reaches.refl.next acted trivial).trans reached, disowned⟩

/-- A client that was woken with its transfer active returns so, whoever has the mutex. -/
theorem disowned_of_woken {result : WaitResult} (woken : state.client = .woken result)
    (active : state.dev.txrx ≠ none)
    (handlerMutex : state.handler.holds = true ↔ state.mutex = some .ist)
    (notClient : state.mutex ≠ some .caller) :
    ∃ final, Reaches act always state final ∧ ¬ final.owned := by
  cases mutex : state.mutex with
  | none => exact disowned_of_free woken active mutex
  | some holder =>
      cases holder with
      | caller => exact absurd mutex notClient
      | ist =>
          have holds := handlerMutex.mpr mutex
          cases handler : state.handler with
          | locked report => exact disowned_of_locked woken active handler
          | stored report => exact disowned_of_stored woken active handler
          | signalled => exact disowned_of_signalled woken active handler
          | _ =>
              rw [handler] at holds
              cases holds

/-- A wait that ends before the interrupt thread is through leaves the transfer active. -/
theorem wake_disowned (owned : Owned state) {result : WaitResult}
    (acted : state.act (.wake result) = some after)
    (disorderly : ¬ state.orderly (.wake result)) :
    ∃ final, Reaches act always after final ∧ ¬ final.owned := by
  obtain ⟨waiting, same⟩ := Option.ite_none_right_eq_some.mp acted
  cases same
  refine disowned_of_woken rfl disorderly owned.handlerMutex fun held => ?_
  have locked := owned.clientMutex.mpr held
  rw [waiting] at locked
  cases locked

/-- A signal for an earlier transfer wakes a client whose own transfer is active. -/
theorem signal_disowned (owned : Owned state) (acted : state.act .signal = some after)
    (disorderly : ¬ state.orderly .signal) :
    ∃ final, Reaches act always after final ∧ ¬ final.owned := by
  simp only [orderly, not_forall] at disorderly
  obtain ⟨report, stored, waiting, other⟩ := disorderly
  have isReport : state.handler.report = some report := by
    rw [stored]
    rfl
  have active : state.dev.txrx ≠ none := by
    refine owned.pending report isReport other ?_
    rw [waiting]
    rfl
  simp only [Ownership.act, stored, waiting, if_true] at acted
  cases acted
  exact disowned_of_signalled rfl active rfl

theorem owned_of_reaches {status : I2cStatus}
    (reached : Reaches act orderly (initial status) state) : Owned state :=
  reached.invariant Owned (owned_initial status) fun _ _ _ owned ordered acted =>
    owned.act ordered acted

/-- Buffers are owned in every run in which a client waits until the interrupt thread is
through with its transfer, and no weaker condition on the steps would do. -/
theorem owned_exactly (status : I2cStatus) :
    Exactly act orderly owned (initial status) := by
  constructor
  · intro state reached
    exact (owned_of_reaches reached).isOwned
  · intro state action after reached acted disorderly
    have owned := owned_of_reaches reached
    cases action with
    | wake result => exact wake_disowned owned acted disorderly
    | signal => exact signal_disowned owned acted disorderly
    | _ => exact absurd trivial disorderly

/-- A call of `bcm2711_recv` for four bytes times out; the bytes arrive later, and the
interrupt thread stores the first of them. -/
def lateBytes : List OwnershipAction :=
  [.call .rx ⟨0x20, true⟩ (fun _ => 0) 4, .setBuf, .arm, .lock, .wait, .wake .timedOut, .leave,
    .interrupt, .check, .readStatus 0x28, .dispatch, .turn 0]

/-- In this run the interrupt thread writes to the buffer of a call that has returned. -/
theorem written_after_timeout :
    ∃ state, Reaches act always (initial .done) state ∧ ¬ state.owned ∧
      state.client = .returned .abort ∧ state.accesses = [⟨1, none⟩] := by
  have performed : ∃ state, perform act (initial .done) lateBytes = some state ∧
      state.client = .returned .abort ∧ state.accesses = [⟨1, none⟩] :=
    ⟨_, rfl, rfl, rfl⟩
  obtain ⟨state, done, returned, accesses⟩ := performed
  refine ⟨state, reaches_of_perform done, fun owned => ?_, returned, accesses⟩
  have runs := owned.1 ⟨1, none⟩ (by rw [accesses]; exact List.mem_cons_self)
  cases runs

end Ownership

end Bcm2711.I2c
