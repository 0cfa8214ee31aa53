import Bcm2711.Lib.Actions
import Bcm2711.Sdmmc.Handlers

/-! # The queue and the driver thread

Clients put CCBs in the queue and wake the driver thread with a pulse; the driver thread
takes CCBs from the queue until it is empty or frozen, at most `start_ccb_max` in a row.
A client sends its pulse only when it sees no CCB in service, which the driver thread may
change at any moment, so every access to the queue, to `nexus` and to the pulses is a step
of its own.
-/

namespace Bcm2711.Sdmmc

open Actions

/-- A CCB in the queue. -/
structure Item where
  /-- Which CCB it is. -/
  name : Nat
  ccb : Ccb
  /-- `CAM_SIM_QFREEZE`, without `CAM_SIM_QFRZDIS`. -/
  qfreeze : Bool
  job : Job

/-- A call of `sdmmc_sim_action` that it accepts. -/
inductive Call where
  /-- `XPT_SCSI_IO`, `XPT_RESET_BUS`, `XPT_RESET_DEV`, `XPT_ABORT` or a devctl other than
  `DCMD_SDMMC_DRVR_STATE`, with `CAM_SIM_QHEAD` or without. -/
  | enqueue (item : Item) (head : Bool)
  /-- `DCMD_SDMMC_DRVR_STATE`; `none` is a state that does not exist. -/
  | drvrState (item : Item) (state : Option DrvrState)
  /-- `XPT_REL_SIMQ`. -/
  | relSimq
  /-- A function that the call answers by itself. -/
  | answer

/-- Where a client is in its call. -/
inductive ClientPc where
  /-- In no call. -/
  | idle
  /-- Before `simq_ccb_enqueue`, at the head or at the tail. -/
  | enqueue (item : Item) (head : Bool)
  /-- Before it looks at `pthread_self( )` and `nexus`. -/
  | look
  /-- Before the `simq_ccb_enqueue` of `SDMMC_DRVR_RUN`. -/
  | enqueueRun (item : Item)
  /-- Before the `simq_rel_simq` of `SDMMC_DRVR_RUN`. -/
  | releaseRun
  /-- Before the `simq_rel_simq` of `XPT_REL_SIMQ`. -/
  | release
  /-- Before `MsgSendPulse`. -/
  | pulse

/-- Which of the two calls of `sdmmc_start_ccb` it is, in one turn of the driver thread. -/
inductive Round where
  | first
  | second
deriving DecidableEq, Repr

/-- Where the driver thread is. -/
inductive DriverPc where
  /-- At `MsgReceivePulse`. -/
  | waiting
  /-- Before it looks at `nexus` after a pulse. -/
  | check
  /-- In `sdmmc_start_ccb`, before `simq_ccb_dequeue`. -/
  | dequeue (scnt : Int) (round : Round)
  /-- Before it sets `nexus`. -/
  | claim (item : Item) (scnt : Int) (round : Round)
  /-- Before the handler. -/
  | serve (item : Item) (scnt : Int) (round : Round)
  /-- Before it clears `nexus`. -/
  | clear (item : Item) (freezes : Bool) (scnt : Int) (round : Round)
  /-- Before `simq_post_ccb`. -/
  | post (item : Item) (freezes : Bool) (scnt : Int) (round : Round)
  /-- In the callback of the CCB. -/
  | callback (scnt : Int) (round : Round)
  /-- Before the test of the loop. -/
  | test (scnt : Int) (round : Round)
  /-- After the loop. -/
  | count (scnt : Int) (round : Round)
  /-- Before the `MsgSendPulse` after the loop. -/
  | rearm (round : Round)
  /-- The thread has returned. -/
  | exited

/-- The state of a bus with its clients. -/
structure Hba where
  sim : Sim
  queue : List Item
  frozen : Bool
  nexus : Option Item
  /-- `SIM_ENQUEUE` pulses that wait in the channel. -/
  pulses : Nat
  /-- Some `MsgSendPulse` has failed. -/
  lost : Bool
  driver : DriverPc
  /-- Client 0 is the driver thread, in a callback. -/
  clients : Nat → ClientPc
  enqueued : List Item
  dequeued : List Item
  posted : List Item

/-- What the driver thread does after a pulse other than `SIM_ENQUEUE`. -/
inductive OtherPulse where
  /-- `SIM_TIMER`; background operations are seen to when the bus is active. -/
  | timer (active : Bool) (reply : BkopsReply)
  /-- `SDMMC_PM_TIMER`, which may flush the cache. -/
  | pmTimer (flush : Option Nat)
  /-- A pulse that is ignored. -/
  | ignored

inductive HbaAction where
  /-- A client calls `sdmmc_sim_action`. -/
  | call (client : Nat) (call : Call)
  /-- A client takes its next step; a pulse that it sends arrives or not. -/
  | client (client : Nat) (arrives : Bool)
  /-- The driver thread receives a `SIM_ENQUEUE` pulse, or another one. -/
  | receive
  | other (pulse : OtherPulse)
  /-- The driver thread leaves its loop. -/
  | exit
  /-- The driver thread takes its next step: a pulse that it sends arrives or not, a CCB that is
  posted freezes the queue or not, and `sdio_retune` comes to this. -/
  | driver (arrives freezes : Bool) (retune : Nat) (reset : ResetReply)

namespace Hba

variable (hba : Hba)

/-- A client is there next. -/
def goes (client : Nat) (pc : ClientPc) : Hba :=
  { hba with clients := Function.update hba.clients client pc }

/-- `MsgSendPulse`. -/
def sendPulse (arrives : Bool) : Hba :=
  if arrives then { hba with pulses := hba.pulses + 1 } else { hba with lost := true }

/-- `simq_ccb_enqueue`. -/
def enqueue (item : Item) (head : Bool) : Hba :=
  { hba with
    queue := if head then item :: hba.queue else hba.queue ++ [item]
    enqueued := hba.enqueued ++ [item] }

/-- `sdmmc_sim_action`, up to the first access to the queue: `drvr_state` is read here, and
where nothing is to be queued the CCB is completed here. -/
def action (client : Nat) : Call → Hba
  | .enqueue item head => hba.goes client (.enqueue item head)
  | .relSimq => hba.goes client .release
  | .answer => hba
  | .drvrState item state =>
      match state with
      | none => hba
      | some .pause =>
          if hba.sim.paused then hba else hba.goes client (.enqueue item true)
      | some .run =>
          if hba.sim.paused then hba.goes client (.enqueueRun item) else hba

/-- The next step of a client. -/
def clientStep (client : Nat) (arrives : Bool) : Option Hba :=
  match hba.clients client with
  | .idle => none
  | .enqueue item head => some ((hba.enqueue item head).goes client .look)
  | .look =>
      if client ≠ 0 ∧ hba.nexus.isNone then some (hba.goes client .pulse)
      else some (hba.goes client .idle)
  | .enqueueRun item => some ((hba.enqueue item true).goes client .releaseRun)
  | .releaseRun => some ({ hba with frozen := false }.goes client .pulse)
  | .release => some ({ hba with frozen := false }.goes client .pulse)
  | .pulse => some ((hba.sendPulse arrives).goes client .idle)

/-- The driver thread runs its own calls only in a callback. -/
def mayRun (client : Nat) : Bool :=
  client ≠ 0 || match hba.driver with
    | .callback _ _ => true
    | _ => false

/-- The first call of `sdmmc_start_ccb` is followed by the second, and that by the next
pulse. -/
def leave (round : Round) : Hba :=
  { hba with driver := match round with
    | .first => .check
    | .second => .waiting }

/-- `simq_ccb_dequeue`. -/
def dequeue (scnt : Int) (round : Round) : Hba :=
  match hba.frozen, hba.queue with
  | false, item :: queue =>
      { hba with
        queue := queue, dequeued := hba.dequeued ++ [item], driver := .claim item scnt round }
  | _, _ => { hba with driver := .count scnt round }

/-- The handler; one that divides by zero or still runs gets nowhere. -/
def serve (item : Item) (scnt : Int) (round : Round) : Option Hba :=
  match hba.sim.handle item.ccb item.job with
  | some (sim, some status) =>
      some { hba with
        sim := sim
        driver := if status ≠ CAM_REQ_INPROG then
            .clear item (item.qfreeze || hba.sim.freezesQueue item.ccb item.job) scnt round
          else .test scnt round }
  | _ => none

/-- The test of the loop: `( ext->nexus == NULL ) && ( ++scnt < ext->start_ccb_max )`. -/
def test (startCcbMax scnt : Int) (round : Round) : Hba :=
  if hba.nexus.isNone then
    { hba with
      driver := if scnt + 1 < startCcbMax then .dequeue (scnt + 1) round
        else .count (scnt + 1) round }
  else { hba with driver := .count scnt round }

/-- The next step of the driver thread. -/
def driverStep (startCcbMax : Int) (arrives freezes : Bool) (retune : Nat) (reset : ResetReply) :
    Option Hba :=
  match hba.driver with
  | .waiting => none
  | .check =>
      some (if hba.nexus.isNone then { hba with driver := .dequeue 0 .second }
        else { hba with driver := .waiting })
  | .dequeue scnt round => some (hba.dequeue scnt round)
  | .claim item scnt round =>
      some { hba with nexus := some item, driver := .serve item scnt round }
  | .serve item scnt round => hba.serve item scnt round
  | .clear item qfreeze scnt round =>
      some { hba with nexus := none, driver := .post item qfreeze scnt round }
  | .post item qfreeze scnt round =>
      some { hba with
        posted := hba.posted ++ [item]
        frozen := hba.frozen || qfreeze || freezes
        driver := .callback scnt round }
  | .callback scnt round =>
      match hba.clients 0 with
      | .idle =>
          some { hba with sim := hba.sim.retuned retune reset, driver := .test scnt round }
      | _ => none
  | .test scnt round => some (hba.test startCcbMax scnt round)
  | .count scnt round =>
      some (if scnt = startCcbMax then { hba with driver := .rearm round } else hba.leave round)
  | .rearm round => some ((hba.sendPulse arrives).leave round)
  | .exited => none

/-- What a pulse other than `SIM_ENQUEUE` does. -/
def otherPulse : OtherPulse → Sim
  | .timer active reply => if active then hba.sim.sdmmcBkops true reply else hba.sim
  | .pmTimer flush =>
      match flush with
      | some status => if hba.nexus.isSome then hba.sim else (hba.sim.cacheFlush status).1
      | none => hba.sim
  | .ignored => hba.sim

/-- One action of a client or of the driver thread. -/
def act (startCcbMax : Int) : HbaAction → Option Hba
  | .call client call =>
      match hba.clients client with
      | .idle => if hba.mayRun client then some (hba.action client call) else none
      | _ => none
  | .client client arrives => if hba.mayRun client then hba.clientStep client arrives else none
  | .receive =>
      match hba.driver, hba.pulses with
      | .waiting, pulses + 1 => some { hba with pulses := pulses, driver := .dequeue 0 .first }
      | _, _ => none
  | .other pulse =>
      match hba.driver with
      | .waiting => some { hba with sim := hba.otherPulse pulse, driver := .check }
      | _ => none
  | .exit =>
      match hba.driver with
      | .waiting => some { hba with driver := .exited }
      | _ => none
  | .driver arrives freezes retune reset =>
      hba.driverStep startCcbMax arrives freezes retune reset

end Hba

/-! ## What holds in every state -/

/-- The CCB that the driver thread has taken and not yet posted. -/
def DriverPc.inService : DriverPc → List Item
  | .claim item _ _ | .serve item _ _ | .clear item _ _ _ | .post item _ _ _ => [item]
  | _ => []

/-- What `nexus` is. -/
def DriverPc.nexus : DriverPc → Option Item
  | .serve item _ _ | .clear item _ _ _ => some item
  | _ => none

/-- The loop has not yet started `start_ccb_max` CCBs. -/
def DriverPc.CountsBelow (startCcbMax : Int) : DriverPc → Prop
  | .dequeue scnt _ | .claim _ scnt _ | .serve _ scnt _ | .clear _ _ scnt _
  | .post _ _ scnt _ | .callback scnt _ | .test scnt _ => scnt < startCcbMax
  | _ => True

/-- The driver thread waits for a pulse, or is about to without sending itself one. -/
def DriverPc.Settles (startCcbMax : Int) : DriverPc → Prop
  | .waiting => True
  | .count scnt .second => scnt ≠ startCcbMax
  | _ => False

/-- A client between its last access to the queue and its pulse, or its decision not to send
one. -/
def ClientPc.Wakes : ClientPc → Prop
  | .look | .releaseRun | .pulse => True
  | _ => False

namespace Hba

/-- Nothing can be taken from the queue, or the driver thread will be woken, or a pulse was
lost. -/
def Woken (hba : Hba) : Prop :=
  hba.queue = [] ∨ hba.frozen = true ∨ 0 < hba.pulses ∨ hba.lost = true ∨
    ∃ client, (hba.clients client).Wakes

/-- What every action keeps. -/
structure Sound (startCcbMax : Int) (hba : Hba) : Prop where
  nexus : hba.nexus = hba.driver.nexus
  /-- Every CCB in the queue once, or taken from it. -/
  ledger : hba.enqueued.Perm (hba.dequeued ++ hba.queue)
  service : hba.dequeued = hba.posted ++ hba.driver.inService
  counts : hba.driver.CountsBelow startCcbMax
  /-- The driver thread is in no call of its own outside a callback. -/
  silent : hba.mayRun 0 = false → hba.clients 0 = .idle
  woken : hba.driver.Settles startCcbMax → hba.Woken

/-- The bus as `sdmmc_driver_thread` begins to wait. -/
def initial (sim : Sim) : Hba :=
  { sim, queue := [], frozen := false, nexus := none, pulses := 0, lost := false
    driver := .waiting, clients := fun _ => .idle, enqueued := [], dequeued := []
    posted := [] }

variable {hba after : Hba} {startCcbMax : Int}

theorem sound_initial (sim : Sim) : (initial sim).Sound startCcbMax :=
  { nexus := rfl, ledger := .refl _, service := rfl, counts := trivial
    silent := fun _ => rfl, woken := fun _ => .inl rfl }

/-! ### Clients -/

@[simp]
theorem goes_self (client : Nat) (pc : ClientPc) : (hba.goes client pc).clients client = pc := by
  simp [goes]

theorem goes_of_ne {client other : Nat} (differs : other ≠ client) (pc : ClientPc) :
    (hba.goes client pc).clients other = hba.clients other := by
  simp [goes, differs]

/-- A client that was not going to wake the driver thread may go anywhere. -/
theorem Woken.goes {client : Nat} {pc : ClientPc} (woken : hba.Woken)
    (rests : ¬ (hba.clients client).Wakes) : (hba.goes client pc).Woken := by
  rcases woken with isEmpty | isFrozen | isPending | isLost | ⟨waker, wakes⟩
  · exact .inl isEmpty
  · exact .inr (.inl isFrozen)
  · exact .inr (.inr (.inl isPending))
  · exact .inr (.inr (.inr (.inl isLost)))
  · have differs : waker ≠ client := by
      rintro rfl
      exact rests wakes
    refine .inr (.inr (.inr (.inr ⟨waker, ?_⟩)))
    rw [goes_of_ne differs]
    exact wakes

/-- A client that goes where it will wake the driver thread. -/
theorem woken_of_goes {client : Nat} {pc : ClientPc} (wakes : pc.Wakes) :
    (hba.goes client pc).Woken := by
  refine .inr (.inr (.inr (.inr ⟨client, ?_⟩)))
  rw [goes_self]
  exact wakes

/-- A driver thread that waits runs no call of its own. -/
theorem ne_zero_of_settles {client : Nat} (settles : hba.driver.Settles startCcbMax)
    (mayRun : hba.mayRun client = true) : client ≠ 0 := by
  rintro rfl
  revert settles mayRun
  unfold mayRun
  cases hba.driver with
  | callback scnt round => exact fun settles => settles.elim
  | _ => simp

/-- What a client leaves to the driver thread and to the other clients. -/
structure LeavesDriver (client : Nat) (hba after : Hba) : Prop where
  driver : after.driver = hba.driver
  nexus : after.nexus = hba.nexus
  dequeued : after.dequeued = hba.dequeued
  posted : after.posted = hba.posted
  others : ∀ other, other ≠ client → after.clients other = hba.clients other

theorem leavesDriver_goes (client : Nat) (pc : ClientPc) :
    LeavesDriver client hba (hba.goes client pc) :=
  ⟨rfl, rfl, rfl, rfl, fun _ differs => goes_of_ne differs pc⟩

theorem leavesDriver_clientStep {client : Nat} {arrives : Bool}
    (stepped : hba.clientStep client arrives = some after) : LeavesDriver client hba after := by
  unfold clientStep at stepped
  split at stepped
  · cases stepped
  · cases stepped
    exact ⟨rfl, rfl, rfl, rfl, fun _ differs => goes_of_ne differs _⟩
  · split at stepped
    · cases stepped
      exact leavesDriver_goes client _
    · cases stepped
      exact leavesDriver_goes client _
  · cases stepped
    exact ⟨rfl, rfl, rfl, rfl, fun _ differs => goes_of_ne differs _⟩
  · cases stepped
    exact ⟨rfl, rfl, rfl, rfl, fun _ differs => goes_of_ne differs _⟩
  · cases stepped
    exact ⟨rfl, rfl, rfl, rfl, fun _ differs => goes_of_ne differs _⟩
  · cases stepped
    cases arrives with
    | true => exact ⟨rfl, rfl, rfl, rfl, fun _ differs => goes_of_ne differs _⟩
    | false => exact ⟨rfl, rfl, rfl, rfl, fun _ differs => goes_of_ne differs _⟩

/-- A client keeps what holds when it keeps the ledger and lets the driver thread be woken. -/
theorem Sound.of_leavesDriver {client : Nat} (sound : hba.Sound startCcbMax)
    (mayRun : hba.mayRun client = true) (leaves : LeavesDriver client hba after)
    (ledger : after.enqueued.Perm (after.dequeued ++ after.queue))
    (woken : hba.driver.Settles startCcbMax → after.Woken) : after.Sound startCcbMax := by
  obtain ⟨driver, nexus, dequeued, posted, others⟩ := leaves
  have sameRuns : after.mayRun = hba.mayRun := by
    unfold Hba.mayRun
    rw [driver]
  refine ⟨?_, ledger, ?_, ?_, ?_, ?_⟩
  · rw [nexus, driver]
    exact sound.nexus
  · rw [dequeued, posted, driver]
    exact sound.service
  · rw [driver]
    exact sound.counts
  · intro isSilent
    rw [sameRuns] at isSilent
    have differs : 0 ≠ client := by
      rintro rfl
      exact absurd (isSilent.symm.trans mayRun) Bool.false_ne_true
    rw [others 0 differs]
    exact sound.silent isSilent
  · rw [driver]
    exact woken

theorem Sound.call {client : Nat} (sound : hba.Sound startCcbMax)
    (mayRun : hba.mayRun client = true) (isIdle : hba.clients client = .idle) (call : Call) :
    (hba.action client call).Sound startCcbMax := by
  have rests : ¬ (hba.clients client).Wakes := by
    rw [isIdle]
    exact id
  have goes (pc : ClientPc) : (hba.goes client pc).Sound startCcbMax :=
    sound.of_leavesDriver mayRun (leavesDriver_goes client pc) sound.ledger fun settles =>
      (sound.woken settles).goes rests
  cases call with
  | enqueue item head => exact goes _
  | relSimq => exact goes _
  | answer => exact sound
  | drvrState item state =>
      rcases state with _ | _ | _
      · exact sound
      · change Hba.Sound startCcbMax (if _ then _ else _)
        split
        · exact sound
        · exact goes _
      · change Hba.Sound startCcbMax (if _ then _ else _)
        split
        · exact goes _
        · exact sound

/-- A CCB that is put in the queue is in the ledger. -/
theorem ledger_enqueue (ledger : hba.enqueued.Perm (hba.dequeued ++ hba.queue)) (item : Item)
    (head : Bool) :
    (hba.enqueue item head).enqueued.Perm
      ((hba.enqueue item head).dequeued ++ (hba.enqueue item head).queue) := by
  have appended : (hba.enqueued ++ [item]).Perm (hba.dequeued ++ (hba.queue ++ [item])) := by
    rw [← List.append_assoc]
    exact ledger.append_right [item]
  cases head with
  | false => exact appended
  | true =>
      have moved : (hba.queue ++ [item]).Perm (item :: hba.queue) :=
        List.perm_append_singleton item hba.queue
      exact appended.trans (moved.append_left hba.dequeued)

theorem Sound.clientStep {client : Nat} {arrives : Bool} (sound : hba.Sound startCcbMax)
    (mayRun : hba.mayRun client = true) (stepped : hba.clientStep client arrives = some after) :
    after.Sound startCcbMax := by
  have leaves := leavesDriver_clientStep stepped
  unfold Hba.clientStep at stepped
  split at stepped
  · cases stepped
  · cases stepped
    exact sound.of_leavesDriver mayRun leaves (ledger_enqueue sound.ledger _ _) fun _ =>
      woken_of_goes trivial
  · next atLook =>
      split at stepped
      · cases stepped
        exact sound.of_leavesDriver mayRun leaves sound.ledger fun _ => woken_of_goes trivial
      · next sendsNone =>
          cases stepped
          refine sound.of_leavesDriver mayRun leaves sound.ledger fun settles => ?_
          -- a driver thread that waits has no CCB in service, so the client sends a pulse
          refine absurd ⟨ne_zero_of_settles settles mayRun, ?_⟩ sendsNone
          rw [sound.nexus]
          revert settles
          cases hba.driver with
          | serve => exact fun settles => settles.elim
          | clear => exact fun settles => settles.elim
          | _ => exact fun _ => rfl
  · cases stepped
    exact sound.of_leavesDriver mayRun leaves (ledger_enqueue sound.ledger _ true) fun _ =>
      woken_of_goes trivial
  · cases stepped
    exact sound.of_leavesDriver mayRun leaves sound.ledger fun _ => woken_of_goes trivial
  · cases stepped
    exact sound.of_leavesDriver mayRun leaves sound.ledger fun _ => woken_of_goes trivial
  · next atPulse =>
      cases stepped
      have sent : ((hba.sendPulse arrives).goes client .idle).enqueued = hba.enqueued ∧
          ((hba.sendPulse arrives).goes client .idle).queue = hba.queue := by
        cases arrives with
        | true => exact ⟨rfl, rfl⟩
        | false => exact ⟨rfl, rfl⟩
      refine sound.of_leavesDriver mayRun leaves ?_ fun _ => ?_
      · rw [sent.1, sent.2, leaves.dequeued]
        exact sound.ledger
      · cases arrives with
        | true => exact .inr (.inr (.inl (Nat.succ_pos _)))
        | false => exact .inr (.inr (.inr (.inl rfl)))

/-! ### The driver thread -/

/-- The driver thread takes a CCB from the queue, or stops with the queue empty or frozen. -/
theorem Sound.dequeue {scnt : Int} {round : Round} (sound : hba.Sound startCcbMax)
    (atDequeue : hba.driver = .dequeue scnt round) :
    (hba.dequeue scnt round).Sound startCcbMax := by
  obtain ⟨nexus, ledger, service, counts, silent, -⟩ := sound
  rw [atDequeue] at nexus service counts
  have isIdle : hba.clients 0 = .idle := silent (by simp [mayRun, atDequeue])
  unfold Hba.dequeue
  split
  · next item queue isFrozen isQueued =>
      refine ⟨nexus, ?_, ?_, counts, fun _ => isIdle, fun settles => settles.elim⟩
      · rw [isQueued] at ledger
        simpa using ledger
      · change hba.dequeued ++ [item] = hba.posted ++ [item]
        rw [service]
        exact congrArg (· ++ [item]) (List.append_nil hba.posted)
  · next notTaken =>
      refine ⟨nexus, ledger, service, trivial, fun _ => isIdle, fun _ => ?_⟩
      change hba.queue = [] ∨ hba.frozen = true ∨ _
      cases isQueued : hba.queue with
      | nil => exact .inl rfl
      | cons item queue =>
          cases isFrozen : hba.frozen with
          | true => exact .inr (.inl rfl)
          | false => exact absurd isQueued (notTaken item queue isFrozen)

/-- The handler returns a status that is posted. -/
theorem Sound.serve {item : Item} {scnt : Int} {round : Round} (sound : hba.Sound startCcbMax)
    (atServe : hba.driver = .serve item scnt round)
    (isServed : hba.serve item scnt round = some after) : after.Sound startCcbMax := by
  obtain ⟨nexus, ledger, service, counts, silent, -⟩ := sound
  rw [atServe] at nexus service counts
  have isIdle : hba.clients 0 = .idle := silent (by simp [mayRun, atServe])
  unfold Hba.serve at isServed
  split at isServed
  · next sim status isHandled =>
      have ends : status ≠ CAM_REQ_INPROG :=
        Sim.ends_handle hba.sim item.ccb item.job sim status isHandled
      rw [if_pos ends] at isServed
      cases isServed
      exact ⟨nexus, ledger, service, counts, fun _ => isIdle, fun settles => settles.elim⟩
  · cases isServed

/-- The loop ends for its count only when it has started `start_ccb_max` CCBs. -/
theorem Sound.test {scnt : Int} {round : Round} (sound : hba.Sound startCcbMax)
    (atTest : hba.driver = .test scnt round) :
    (hba.test startCcbMax scnt round).Sound startCcbMax := by
  obtain ⟨nexus, ledger, service, counts, silent, -⟩ := sound
  rw [atTest] at nexus service counts
  have isIdle : hba.clients 0 = .idle := silent (by simp [mayRun, atTest])
  change scnt < startCcbMax at counts
  change hba.nexus = none at nexus
  unfold Hba.test
  rw [if_pos (by rw [nexus]; rfl)]
  by_cases goesOn : scnt + 1 < startCcbMax
  · rw [if_pos goesOn]
    exact ⟨nexus, ledger, service, goesOn, fun _ => isIdle, fun settles => settles.elim⟩
  · rw [if_neg goesOn]
    refine ⟨nexus, ledger, service, trivial, fun _ => isIdle, ?_⟩
    intro settles
    have isMax : scnt + 1 = startCcbMax := le_antisymm counts (not_lt.mp goesOn)
    cases round with
    | first => exact settles.elim
    | second => exact absurd isMax settles

/-- A call of `sdmmc_start_ccb` returns. -/
theorem sound_leave {round : Round} (nexus : hba.nexus = none)
    (ledger : hba.enqueued.Perm (hba.dequeued ++ hba.queue)) (service : hba.dequeued = hba.posted)
    (isIdle : hba.clients 0 = .idle) (woken : round = .second → hba.Woken) :
    (hba.leave round).Sound startCcbMax := by
  have ends : hba.dequeued = hba.posted ++ [] := service.trans (List.append_nil _).symm
  cases round with
  | first =>
      exact ⟨nexus, ledger, ends, trivial, fun _ => isIdle, fun settles => settles.elim⟩
  | second =>
      exact ⟨nexus, ledger, ends, trivial, fun _ => isIdle, fun _ => woken rfl⟩

theorem Sound.driverStep {arrives freezes : Bool} {retune : Nat} {reset : ResetReply}
    (sound : hba.Sound startCcbMax) (isPositive : 1 ≤ startCcbMax)
    (stepped : hba.driverStep startCcbMax arrives freezes retune reset = some after) :
    after.Sound startCcbMax := by
  have ⟨nexus, ledger, service, counts, silent, woken⟩ := sound
  unfold Hba.driverStep at stepped
  cases atPc : hba.driver with
  | waiting =>
      rw [atPc] at stepped
      cases stepped
  | exited =>
      rw [atPc] at stepped
      cases stepped
  | dequeue scnt round =>
      rw [atPc] at stepped
      cases stepped
      exact sound.dequeue atPc
  | serve item scnt round =>
      rw [atPc] at stepped
      exact sound.serve atPc stepped
  | test scnt round =>
      rw [atPc] at stepped
      cases stepped
      exact sound.test atPc
  | check =>
      rw [atPc] at stepped nexus service counts
      have isIdle : hba.clients 0 = .idle := silent (by simp [mayRun, atPc])
      cases stepped
      rw [if_pos (by rw [nexus]; rfl)]
      exact ⟨nexus, ledger, service, isPositive, fun _ => isIdle, fun settles => settles.elim⟩
  | claim item scnt round =>
      rw [atPc] at stepped nexus service counts
      have isIdle : hba.clients 0 = .idle := silent (by simp [mayRun, atPc])
      cases stepped
      exact ⟨rfl, ledger, service, counts, fun _ => isIdle, fun settles => settles.elim⟩
  | clear item qfreeze scnt round =>
      rw [atPc] at stepped nexus service counts
      have isIdle : hba.clients 0 = .idle := silent (by simp [mayRun, atPc])
      cases stepped
      exact ⟨rfl, ledger, service, counts, fun _ => isIdle, fun settles => settles.elim⟩
  | post item qfreeze scnt round =>
      rw [atPc] at stepped nexus service counts
      have isIdle : hba.clients 0 = .idle := silent (by simp [mayRun, atPc])
      cases stepped
      refine ⟨nexus, ledger, ?_, counts, fun _ => isIdle, fun settles => settles.elim⟩
      exact service.trans (List.append_nil _).symm
  | callback scnt round =>
      rw [atPc] at stepped nexus service counts
      dsimp only at stepped
      split at stepped
      · next isIdle =>
          cases stepped
          exact ⟨nexus, ledger, service, counts, fun _ => isIdle, fun settles => settles.elim⟩
      · cases stepped
  | count scnt round =>
      rw [atPc] at stepped nexus service counts woken
      have isIdle : hba.clients 0 = .idle := silent (by simp [mayRun, atPc])
      cases stepped
      split
      · exact ⟨nexus, ledger, service, trivial, fun _ => isIdle, fun settles => settles.elim⟩
      · next isBelow =>
          refine sound_leave nexus ledger (service.trans (List.append_nil _)) isIdle ?_
          rintro rfl
          exact woken isBelow
  | rearm round =>
      rw [atPc] at stepped nexus service
      have isIdle : hba.clients 0 = .idle := silent (by simp [mayRun, atPc])
      have posted : hba.dequeued = hba.posted := service.trans (List.append_nil _)
      cases stepped
      cases arrives with
      | true =>
          refine sound_leave nexus ledger posted isIdle fun _ => ?_
          exact .inr (.inr (.inl (Nat.succ_pos _)))
      | false =>
          refine sound_leave nexus ledger posted isIdle fun _ => ?_
          exact .inr (.inr (.inr (.inl rfl)))

/-- Every action keeps what holds. -/
theorem Sound.act {action : HbaAction} (sound : hba.Sound startCcbMax)
    (isPositive : 1 ≤ startCcbMax) (acted : hba.act startCcbMax action = some after) :
    after.Sound startCcbMax := by
  have ⟨nexus, ledger, service, counts, silent, woken⟩ := sound
  cases action with
  | call client call =>
      unfold Hba.act at acted
      dsimp only at acted
      split at acted
      · next isIdle =>
          split at acted
          · next mayRun =>
              cases acted
              exact sound.call mayRun isIdle call
          · cases acted
      · cases acted
  | client client arrives =>
      change (if hba.mayRun client = true then hba.clientStep client arrives else none)
        = some after at acted
      split at acted
      · next mayRun => exact sound.clientStep mayRun acted
      · cases acted
  | receive =>
      unfold Hba.act at acted
      dsimp only at acted
      split at acted
      · next pulses isWaiting isPending =>
          rw [isWaiting] at nexus service
          have isIdle : hba.clients 0 = .idle := silent (by simp [mayRun, isWaiting])
          cases acted
          exact ⟨nexus, ledger, service, isPositive, fun _ => isIdle,
            fun settles => settles.elim⟩
      · cases acted
  | other pulse =>
      unfold Hba.act at acted
      dsimp only at acted
      split at acted
      · next isWaiting =>
          rw [isWaiting] at nexus service
          have isIdle : hba.clients 0 = .idle := silent (by simp [mayRun, isWaiting])
          cases acted
          exact ⟨nexus, ledger, service, trivial, fun _ => isIdle, fun settles => settles.elim⟩
      · cases acted
  | exit =>
      unfold Hba.act at acted
      dsimp only at acted
      split at acted
      · next isWaiting =>
          rw [isWaiting] at nexus service
          have isIdle : hba.clients 0 = .idle := silent (by simp [mayRun, isWaiting])
          cases acted
          exact ⟨nexus, ledger, service, trivial, fun _ => isIdle, fun settles => settles.elim⟩
      · cases acted
  | driver arrives freezes retune reset => exact sound.driverStep isPositive acted

/-- What holds in every state that is reached. -/
theorem sound_of_reaches {sim : Sim} (isPositive : 1 ≤ startCcbMax)
    (reached : Reaches (·.act startCcbMax) always (initial sim) hba) :
    hba.Sound startCcbMax :=
  reached.invariant (Sound startCcbMax) (sound_initial sim)
    fun _ _ _ sound _ acted => sound.act isPositive acted

/-- Every CCB is in the queue or was taken from it once, and every CCB that was taken is in
service or was posted once. While the driver thread waits none is in service, and the queue is
empty unless it is frozen, a pulse is pending or was lost, or a client is yet to send one. -/
theorem emptied_of_reaches (sim : Sim) {hba : Hba} {startCcbMax : Int}
    (isPositive : 1 ≤ startCcbMax)
    (reached : Reaches (·.act startCcbMax) always (initial sim) hba) :
    hba.enqueued.Perm (hba.dequeued ++ hba.queue) ∧
      hba.dequeued = hba.posted ++ hba.driver.inService ∧
      (hba.driver = .waiting → hba.nexus = none ∧ hba.dequeued = hba.posted ∧
        (hba.pulses = 0 → hba.frozen = false → hba.lost = false →
          (∀ client, ¬ (hba.clients client).Wakes) → hba.queue = [])) := by
  obtain ⟨nexus, ledger, service, -, -, woken⟩ := sound_of_reaches isPositive reached
  refine ⟨ledger, service, fun isWaiting => ?_⟩
  rw [isWaiting] at nexus service woken
  refine ⟨nexus, service.trans (List.append_nil _), ?_⟩
  intro noPulse notFrozen notLost noneWakes
  rcases woken trivial with isEmpty | isFrozen | isPending | isLost | ⟨client, wakes⟩
  · exact isEmpty
  · exact absurd (isFrozen.symm.trans notFrozen) Bool.true_eq_false.mp
  · exact absurd noPulse (Nat.pos_iff_ne_zero.mp isPending)
  · exact absurd (isLost.symm.trans notLost) Bool.true_eq_false.mp
  · exact absurd wakes (noneWakes client)

end Hba

/-! ## A CCB that is served and one that waits -/

def SDMMC_START_CCB_MAX : Int := 25

/-- A bus without a card. -/
def emptySim : Sim :=
  { isMmc := false, acmd12 := true, dma := true
    devInf :=
      { locked := false, cache := false, bkops := false, trim := false, secure := false
        secureTrim := false, discard := false, wrRel := false, wrRelEnh := false, cmd23 := false
        sectorSize := 512, eraseSize := 512, wpSize := 0, relWrSecC := 0 }
    present := false, cache := false, vcacheDirty := false, bkops := false, relwr := false
    paused := false, bkopsStatus := 0, bkopsTicks := 0
    tables := { ntargs := 0, targets := fun _ => ⟨0, 512, fun _ => ⟨0, 0, "uda", 0, 0, 0⟩⟩ }
    pactive := 0, access := 0, sent := [] }

/-- A devctl that the driver does not know. -/
def plainItem : Item :=
  { name := 0
    ccb :=
      { unit := ⟨0, 0⟩, isScsiIo := false, autosense := false, dataPhys := true, dxferLen := 0
        permitted := true }
    qfreeze := false, job := .devctl }

/-- The next step of the driver thread, in which nothing goes wrong. -/
def driverGoesOn : HbaAction := .driver true false EOK ⟨EOK, false, EOK⟩

/-- A client has put a CCB in the queue and sent a pulse, and the driver thread has served it. -/
def servedRun : List HbaAction :=
  [.call 1 (.enqueue plainItem false), .client 1 true, .client 1 true, .client 1 true, .receive] ++
    List.replicate 12 driverGoesOn

/-- After the CCB was served the queue is empty. -/
theorem servedRun_drained : 1 ≤ SDMMC_START_CCB_MAX ∧ ∃ hba : Hba,
    Reaches (·.act SDMMC_START_CCB_MAX) always (.initial emptySim) hba ∧
      hba.driver = .waiting ∧ hba.posted = [plainItem] ∧ hba.queue = [] := by
  have isPositive : 1 ≤ SDMMC_START_CCB_MAX := by decide
  obtain ⟨hba, performed, isWaiting, posted, noPulse, notFrozen, notLost, clients⟩ :
      ∃ hba : Hba, perform (·.act SDMMC_START_CCB_MAX) (.initial emptySim) servedRun = some hba ∧
        hba.driver = .waiting ∧ hba.posted = [plainItem] ∧ hba.pulses = 0 ∧ hba.frozen = false ∧
        hba.lost = false ∧ hba.clients =
          Function.update (Function.update (Function.update (Function.update
            (fun _ => .idle) 1 (.enqueue plainItem false)) 1 .look) 1 .pulse) 1 .idle :=
    ⟨_, rfl, rfl, rfl, rfl, rfl, rfl, rfl⟩
  have reached := reaches_of_perform performed
  have drained := ((Hba.emptied_of_reaches emptySim isPositive reached).2.2 isWaiting).2.2
  refine ⟨isPositive, hba, reached, isWaiting, posted, drained noPulse notFrozen notLost ?_⟩
  intro client wakes
  have isIdle : hba.clients client = .idle := by
    rw [clients]
    simp
  rw [isIdle] at wakes
  exact wakes

/-- While a client is between its `simq_ccb_enqueue` and its pulse, the driver thread waits with
a CCB in the queue and no pulse pending. -/
theorem queued_unwoken :
    ¬ ∀ hba : Hba, Reaches (·.act SDMMC_START_CCB_MAX) always (.initial emptySim) hba →
      hba.driver = .waiting → hba.pulses = 0 → hba.frozen = false → hba.queue = [] := by
  intro claim
  obtain ⟨hba, performed, isWaiting, noPulse, notFrozen, isQueued⟩ : ∃ hba : Hba,
      perform (·.act SDMMC_START_CCB_MAX) (.initial emptySim)
        [.call 1 (.enqueue plainItem false), .client 1 true] = some hba ∧
        hba.driver = .waiting ∧ hba.pulses = 0 ∧ hba.frozen = false ∧
        hba.queue = [plainItem] := ⟨_, rfl, rfl, rfl, rfl, rfl⟩
  have isEmpty := claim hba (reaches_of_perform performed) isWaiting noPulse notFrozen
  exact absurd (isQueued.symm.trans isEmpty) (List.cons_ne_nil _ _)

end Bcm2711.Sdmmc
