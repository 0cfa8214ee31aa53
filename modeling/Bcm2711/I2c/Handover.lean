import Bcm2711.I2c.Transfer

/-! # How the interrupt thread hands a result over

The caller starts a transfer, takes the mutex and waits on the condition variable, once and
without a predicate; the interrupt thread takes the mutex, stores the status and signals,
which wakes only a caller that already waits.  Calls are numbered, and a stored status
carries the number of the transfer it is for.
-/

namespace Bcm2711.I2c

/-! ## Two threads -/

/-- Who can hold the mutex. -/
inductive Thread where
  | caller
  | ist
deriving DecidableEq, Repr

/-- `dev->txrx_status`, with the transfer it was stored for. -/
structure Report where
  status : I2cStatus
  transfer : Nat
deriving DecidableEq, Repr

/-- Where the caller is: between calls; with its transfer started; holding the mutex;
in `pthread_cond_timedwait`; woken and about to take the mutex again; returned, with the
transfer whose status it read. -/
inductive CallerAt where
  | idle
  | started
  | locked
  | waiting
  | woken (timedOut : Bool)
  | returned (status : I2cStatus) (source : Option Nat)
deriving DecidableEq, Repr

/-- Where the interrupt thread is with what it found. -/
inductive IstAt where
  | idle
  | handling (report : Report)
  | idled (report : Report)
  | locked (report : Report)
  | stored (report : Report)
  | signalled
deriving DecidableEq, Repr

/-- The two threads and what they share. -/
structure Handover where
  mutex : Option Thread
  caller : CallerAt
  ist : IstAt
  /-- The number of the last call. -/
  current : Nat
  /-- `dev->txrx` is not `BCM2711_I2C_IDLE`. -/
  active : Bool
  /-- The deadline of the call has passed. -/
  expired : Bool
  txrxStatus : Report
  /-- What was signalled for the current call before its deadline. -/
  reported : Option I2cStatus
deriving DecidableEq, Repr

/-- Before any call, with the initial value of `txrx_status`. -/
def Handover.initial (status : I2cStatus) : Handover :=
  ⟨none, .idle, .idle, 0, false, false, ⟨status, 0⟩, none⟩

/-- The caller is between the start of its transfer and its return. -/
def CallerAt.inCall : CallerAt → Bool
  | .idle => false
  | .returned _ _ => false
  | _ => true

/-- The interrupt thread is between taking and releasing the mutex. -/
def IstAt.holds : IstAt → Bool
  | .locked _ => true
  | .stored _ => true
  | .signalled => true
  | _ => false

/-! ## Steps -/

/-- A step of one of the threads, or the deadline passing. -/
inductive HandoverAction where
  /-- `bcm2711_send` or `bcm2711_recv` starts a transfer with its interrupts enabled. -/
  | start
  | lock
  | wait
  | expire
  | timeout
  /-- A wake-up without a signal. -/
  | spurious
  /-- The caller has the mutex again, reads the status and returns. -/
  | leave
  /-- The interrupt thread reads a status register that ends the transfer. -/
  | interrupt (failed : Bool)
  | setIdle
  | istLock
  | store
  | signal
  | unlock
deriving DecidableEq, Repr

namespace Handover

/-- What a caller that was woken returns. -/
def result (state : Handover) (timedOut : Bool) : CallerAt :=
  if timedOut then .returned .abort none
  else .returned state.txrxStatus.status (some state.txrxStatus.transfer)

/-- The signal of a report. -/
def signalled (state : Handover) (report : Report) : Handover :=
  { state with
    ist := .signalled
    caller := if state.caller = .waiting then .woken false else state.caller
    reported := if report.transfer = state.current ∧ state.expired = false ∧
        state.caller.inCall = true then some report.status
      else state.reported }

/-- One step. -/
def act (state : Handover) : HandoverAction → Option Handover
  | .start =>
      if state.caller.inCall then none
      else some { state with
        caller := .started, current := state.current + 1, active := true, expired := false
        reported := none }
  | .lock =>
      if state.caller = .started ∧ state.mutex = none then
        some { state with caller := .locked, mutex := some .caller }
      else none
  | .wait =>
      if state.caller = .locked then some { state with caller := .waiting, mutex := none }
      else none
  | .expire => if state.caller.inCall then some { state with expired := true } else none
  | .timeout =>
      if state.caller = .waiting ∧ state.expired = true then
        some { state with caller := .woken true }
      else none
  | .spurious =>
      if state.caller = .waiting then some { state with caller := .woken false } else none
  | .leave =>
      match state.caller with
      | .woken timedOut =>
          if state.mutex = none then some { state with caller := state.result timedOut } else none
      | _ => none
  | .interrupt failed =>
      if state.ist = .idle ∧ state.active = true then
        some { state with ist := .handling ⟨if failed then .nack else .done, state.current⟩ }
      else none
  | .setIdle =>
      match state.ist with
      | .handling report => some { state with ist := .idled report, active := false }
      | _ => none
  | .istLock =>
      match state.ist with
      | .idled report =>
          if state.mutex = none then some { state with ist := .locked report, mutex := some .ist }
          else none
      | _ => none
  | .store =>
      match state.ist with
      | .locked report => some { state with ist := .stored report, txrxStatus := report }
      | _ => none
  | .signal =>
      match state.ist with
      | .stored report => some (state.signalled report)
      | _ => none
  | .unlock =>
      if state.ist = .signalled then some { state with ist := .idle, mutex := none } else none

/-- A call that returned gave the status signalled for it before its deadline, if one was,
and never that of another transfer. -/
def truthful (state : Handover) : Prop :=
  ∀ status source, state.caller = .returned status source →
    (∀ signalled, state.reported = some signalled → status = signalled) ∧
      ∀ transfer, source = some transfer → transfer = state.current

/-- The interrupt thread holds the mutex to report the current transfer, or has stored its
status. -/
def settled (state : Handover) : Prop :=
  state.txrxStatus.transfer = state.current ∨
    ∃ report, state.ist = .locked report ∧ report.transfer = state.current

/-- A signal wakes no caller of another transfer and is not lost on a caller that has time
left and does not wait yet; a caller wakes without a signal only when its result is
settled. -/
def prompt (state : Handover) : HandoverAction → Prop
  | .signal => ∀ report, state.ist = .stored report →
      (state.caller = .waiting → report.transfer = state.current) ∧
        (state.caller = .started → report.transfer = state.current → state.expired = true)
  | .spurious => state.settled
  | _ => True

end Handover

/-! ## What holds in every run -/

/-- The mutex has the holder the threads say, and a transfer is reported once. -/
structure Consistent (state : Handover) : Prop where
  callerMutex : state.caller = .locked ↔ state.mutex = some .caller
  istMutex : state.ist.holds = true ↔ state.mutex = some .ist
  stored : ∀ report, state.ist = .stored report → state.txrxStatus = report
  handled : ∀ report, state.ist = .handling report → report.transfer ≤ state.current ∧
    report.status ≠ .abort
  found : ∀ report, state.ist = .idled report ∨ state.ist = .locked report ∨
      state.ist = .stored report →
    report.transfer ≤ state.current ∧ report.status ≠ .abort ∧
      (report.transfer = state.current → state.active = false)
  upTo : state.txrxStatus.transfer ≤ state.current
  once : state.txrxStatus.transfer = state.current → state.active = false ∧
    (state.ist = .idle ∨ state.ist = .signalled ∨ state.ist = .stored state.txrxStatus)
  reported : ∀ status, state.reported = some status → state.txrxStatus = ⟨status, state.current⟩
  late : state.caller = .woken true → state.expired = true

variable {state after : Handover}

theorem consistent_initial (status : I2cStatus) : Consistent (.initial status) where
  callerMutex := by simp [Handover.initial]
  istMutex := by simp [Handover.initial, IstAt.holds]
  stored _ stored := by cases stored
  handled _ handling := by cases handling
  found _ found := by rcases found with found | found | found <;> cases found
  upTo := le_rfl
  once _ := ⟨rfl, .inl rfl⟩
  reported _ none := by cases none
  late woken := by cases woken

namespace Consistent

/-- The caller does not hold the mutex while the interrupt thread does. -/
theorem notLocked (consistent : Consistent state) (holds : state.ist.holds = true) :
    state.caller ≠ .locked := by
  intro locked
  have byCaller := consistent.callerMutex.mp locked
  rw [consistent.istMutex.mp holds] at byCaller
  cases byCaller

/-- The interrupt thread does not hold a free mutex. -/
theorem notHolds (consistent : Consistent state) (free : state.mutex ≠ some .ist) :
    state.ist.holds = false := by
  cases holds : state.ist.holds with
  | false => rfl
  | true => exact absurd (consistent.istMutex.mp holds) free

/-- Nothing is stored for the current call while the thread has yet to store. -/
theorem notStored (consistent : Consistent state) (busy : state.ist ≠ .idle)
    (unsignalled : state.ist ≠ .signalled) (unstored : ∀ report, state.ist ≠ .stored report) :
    state.txrxStatus.transfer ≠ state.current := by
  intro same
  rcases (consistent.once same).2 with idle | signalled | stored
  · exact busy idle
  · exact unsignalled signalled
  · exact unstored _ stored

/-- A caller in another place that neither takes nor releases the mutex changes nothing
else. -/
theorem moved (consistent : Consistent state) {caller : CallerAt}
    (wasUnlocked : state.caller ≠ .locked) (unlocked : caller ≠ .locked)
    (late : caller = .woken true → state.expired = true) :
    Consistent { state with caller := caller } :=
  { consistent with
    callerMutex := iff_of_false unlocked fun held => wasUnlocked (consistent.callerMutex.mpr held)
    late := late }

theorem start (consistent : Consistent state) (acted : state.act .start = some after) :
    Consistent after := by
  obtain ⟨outside, same⟩ := Option.ite_none_left_eq_some.mp acted
  cases same
  have unlocked : state.caller ≠ .locked := by
    intro locked
    rw [locked] at outside
    exact outside rfl
  refine
    { consistent with
      callerMutex := ?_
      handled := ?_
      found := ?_
      upTo := consistent.upTo.trans (Nat.le_succ _)
      once := ?_
      reported := fun _ none => by cases none
      late := fun woken => by cases woken }
  · exact iff_of_false (fun started => by cases started)
      fun held => unlocked (consistent.callerMutex.mpr held)
  · intro report handling
    obtain ⟨upTo, status⟩ := consistent.handled report handling
    exact ⟨upTo.trans (Nat.le_succ _), status⟩
  · intro report found
    obtain ⟨upTo, status, _⟩ := consistent.found report found
    refine ⟨upTo.trans (Nat.le_succ _), status, fun isNew => ?_⟩
    exact absurd upTo (Nat.not_le.mpr (isNew ▸ Nat.lt_succ_self _))
  · intro isNew
    exact absurd consistent.upTo (Nat.not_le.mpr (isNew ▸ Nat.lt_succ_self _))

theorem lock (consistent : Consistent state) (acted : state.act .lock = some after) :
    Consistent after := by
  obtain ⟨⟨_, free⟩, same⟩ := Option.ite_none_right_eq_some.mp acted
  cases same
  have holds : state.ist.holds = false := consistent.notHolds (by rw [free]; exact nofun)
  exact
    { consistent with
      callerMutex := iff_of_true rfl rfl
      istMutex := iff_of_false (by rw [holds]; exact nofun) nofun
      late := nofun }

theorem wait (consistent : Consistent state) (acted : state.act .wait = some after) :
    Consistent after := by
  obtain ⟨locked, same⟩ := Option.ite_none_right_eq_some.mp acted
  cases same
  have held := consistent.callerMutex.mp locked
  have holds : state.ist.holds = false := consistent.notHolds (by rw [held]; exact nofun)
  exact
    { consistent with
      callerMutex := iff_of_false nofun nofun
      istMutex := iff_of_false (by rw [holds]; exact nofun) nofun
      late := nofun }

theorem leave (consistent : Consistent state) (acted : state.act .leave = some after) :
    Consistent after := by
  unfold Handover.act at acted
  cases caller : state.caller with
  | woken timedOut =>
      rw [caller] at acted
      obtain ⟨_, same⟩ := Option.ite_none_right_eq_some.mp acted
      cases same
      refine consistent.moved (by rw [caller]; exact nofun) ?_ ?_
      · cases timedOut <;> exact nofun
      · cases timedOut <;> exact nofun
  | _ =>
      rw [caller] at acted
      cases acted

theorem interrupt (consistent : Consistent state) {failed : Bool}
    (acted : state.act (.interrupt failed) = some after) : Consistent after := by
  obtain ⟨⟨idle, active⟩, same⟩ := Option.ite_none_right_eq_some.mp acted
  cases same
  have free : state.mutex ≠ some .ist := by
    intro held
    have holds := consistent.istMutex.mpr held
    rw [idle] at holds
    cases holds
  refine
    { consistent with
      istMutex := iff_of_false nofun free
      stored := nofun
      handled := ?_
      found := fun report found => by rcases found with found | found | found <;> cases found
      once := fun current => ?_ }
  · intro report handling
    cases handling
    refine ⟨le_rfl, ?_⟩
    cases failed <;> exact nofun
  · have inactive := (consistent.once current).1
    rw [active] at inactive
    cases inactive

theorem setIdle (consistent : Consistent state) (acted : state.act .setIdle = some after) :
    Consistent after := by
  unfold Handover.act at acted
  cases ist : state.ist with
  | handling report =>
      simp only [ist] at acted
      cases acted
      obtain ⟨upTo, status⟩ := consistent.handled report ist
      have free : state.mutex ≠ some .ist := by
        intro held
        have holds := consistent.istMutex.mpr held
        rw [ist] at holds
        cases holds
      refine
        { consistent with
          istMutex := iff_of_false nofun free
          stored := nofun
          handled := nofun
          found := fun other found => ?_
          once := fun current => ?_ }
      · rcases found with found | found | found
        · cases found
          exact ⟨upTo, status, fun _ => rfl⟩
        · cases found
        · cases found
      · exact absurd current (consistent.notStored (by rw [ist]; exact nofun)
          (by rw [ist]; exact nofun) (by rw [ist]; exact nofun))
  | _ =>
      simp only [ist] at acted
      cases acted

theorem istLock (consistent : Consistent state) (acted : state.act .istLock = some after) :
    Consistent after := by
  unfold Handover.act at acted
  cases ist : state.ist with
  | idled report =>
      simp only [ist] at acted
      obtain ⟨free, same⟩ := Option.ite_none_right_eq_some.mp acted
      cases same
      have unlocked : state.caller ≠ .locked := by
        intro locked
        have held := consistent.callerMutex.mp locked
        rw [free] at held
        cases held
      refine
        { consistent with
          callerMutex := iff_of_false unlocked nofun
          istMutex := iff_of_true rfl rfl
          stored := nofun
          handled := nofun
          found := fun other found => ?_
          once := fun current => ?_ }
      · rcases found with found | found | found
        · cases found
        · cases found
          exact consistent.found report (.inl ist)
        · cases found
      · exact absurd current (consistent.notStored (by rw [ist]; exact nofun)
          (by rw [ist]; exact nofun) (by rw [ist]; exact nofun))
  | _ =>
      simp only [ist] at acted
      cases acted

theorem store (consistent : Consistent state) (acted : state.act .store = some after) :
    Consistent after := by
  unfold Handover.act at acted
  cases ist : state.ist with
  | locked report =>
      simp only [ist] at acted
      cases acted
      have found := consistent.found report (.inr (.inl ist))
      have holds : state.ist.holds = true := by
        rw [ist]
        rfl
      refine
        { consistent with
          istMutex := iff_of_true rfl (consistent.istMutex.mp holds)
          stored := fun other stored => by
            cases stored
            rfl
          handled := nofun
          found := fun other isFound => ?_
          upTo := found.1
          once := fun current => ⟨found.2.2 current, .inr (.inr rfl)⟩
          reported := fun status reported => ?_ }
      · rcases isFound with isFound | isFound | isFound
        · cases isFound
        · cases isFound
        · cases isFound
          exact found
      · have current := congrArg Report.transfer (consistent.reported status reported)
        exact absurd current (consistent.notStored (by rw [ist]; exact nofun)
          (by rw [ist]; exact nofun) (by rw [ist]; exact nofun))
  | _ =>
      simp only [ist] at acted
      cases acted

/-- The signal of a stored report. -/
theorem signalled (consistent : Consistent state) {report : Report}
    (ist : state.ist = .stored report) : Consistent (state.signalled report) := by
  have holds : state.ist.holds = true := by
    rw [ist]
    rfl
  have stored := consistent.stored report ist
  have unlocked := consistent.notLocked holds
  refine
    { consistent with
      callerMutex := iff_of_false ?_ fun held => unlocked (consistent.callerMutex.mpr held)
      istMutex := iff_of_true rfl (consistent.istMutex.mp holds)
      stored := nofun
      handled := nofun
      found := fun other found => by rcases found with found | found | found <;> cases found
      once := fun current => ⟨(consistent.once current).1, .inr (.inl rfl)⟩
      reported := fun status reported => ?_
      late := fun woken => ?_ }
  · show (if state.caller = .waiting then CallerAt.woken false else state.caller) ≠ .locked
    split
    · exact nofun
    · exact unlocked
  · have known : (if report.transfer = state.current ∧ state.expired = false ∧
        state.caller.inCall = true then some report.status else state.reported) = some status :=
      reported
    split at known
    · next counts =>
        cases known
        show state.txrxStatus = ⟨report.status, state.current⟩
        rw [stored, ← counts.1]
    · exact consistent.reported status known
  · have isWoken : (if state.caller = .waiting then CallerAt.woken false else state.caller) =
        .woken true := woken
    split at isWoken
    · cases isWoken
    · exact consistent.late isWoken

theorem unlock (consistent : Consistent state) (acted : state.act .unlock = some after) :
    Consistent after := by
  obtain ⟨ist, same⟩ := Option.ite_none_right_eq_some.mp acted
  cases same
  have holds : state.ist.holds = true := by
    rw [ist]
    rfl
  exact
    { consistent with
      callerMutex := iff_of_false (consistent.notLocked holds) nofun
      istMutex := iff_of_false nofun nofun
      stored := nofun
      handled := nofun
      found := fun other found => by rcases found with found | found | found <;> cases found
      once := fun current => ⟨(consistent.once current).1, .inl rfl⟩ }

/-- Every step keeps the threads consistent. -/
theorem act (consistent : Consistent state) {action : HandoverAction}
    (acted : state.act action = some after) : Consistent after := by
  cases action with
  | start => exact consistent.start acted
  | lock => exact consistent.lock acted
  | wait => exact consistent.wait acted
  | expire =>
      obtain ⟨_, same⟩ := Option.ite_none_right_eq_some.mp acted
      cases same
      exact { consistent with late := fun _ => rfl }
  | timeout =>
      obtain ⟨⟨waiting, expired⟩, same⟩ := Option.ite_none_right_eq_some.mp acted
      cases same
      exact consistent.moved (by rw [waiting]; exact nofun) nofun (fun _ => expired)
  | spurious =>
      obtain ⟨waiting, same⟩ := Option.ite_none_right_eq_some.mp acted
      cases same
      exact consistent.moved (by rw [waiting]; exact nofun) nofun nofun
  | leave => exact consistent.leave acted
  | interrupt failed => exact consistent.interrupt acted
  | setIdle => exact consistent.setIdle acted
  | istLock => exact consistent.istLock acted
  | store => exact consistent.store acted
  | signal =>
      unfold Handover.act at acted
      cases ist : state.ist with
      | stored report =>
          simp only [ist] at acted
          cases acted
          exact consistent.signalled ist
      | _ =>
          simp only [ist] at acted
          cases acted
  | unlock => exact consistent.unlock acted

end Consistent

/-! ## Runs of prompt steps -/

/-- The caller is in a call and has not been woken, but by its deadline. -/
def CallerAt.unwoken : CallerAt → Bool
  | .started => true
  | .locked => true
  | .waiting => true
  | .woken timedOut => timedOut
  | _ => false

/-- What holds in every run of prompt steps. -/
structure Prompt (state : Handover) : Prop where
  unreported : state.caller.unwoken = true → state.reported = none
  woken : state.caller = .woken false → state.settled
  truthful : state.truthful

theorem prompt_initial (status : I2cStatus) : Prompt (.initial status) where
  unreported unwoken := by cases unwoken
  woken woken := by cases woken
  truthful _ _ returned := by cases returned

namespace Prompt

/-- What is settled stays settled in the steps of the interrupt thread. -/
theorem settled_store (consistent : Consistent state) (settled : state.settled)
    (acted : state.act .store = some after) : after.settled := by
  unfold Handover.act at acted
  cases ist : state.ist with
  | locked report =>
      simp only [ist] at acted
      cases acted
      rcases settled with stored | ⟨other, locked, current⟩
      · exact absurd stored (consistent.notStored (by rw [ist]; exact nofun)
          (by rw [ist]; exact nofun) (by rw [ist]; exact nofun))
      · cases ist.symm.trans locked
        exact .inl current
  | _ =>
      simp only [ist] at acted
      cases acted

/-- A step that leaves the caller, its call and what was reported for it alone. -/
theorem beside (prompt : Prompt state) (sameCaller : after.caller = state.caller)
    (sameCurrent : after.current = state.current) (sameReported : after.reported = state.reported)
    (settled : state.settled → after.settled) : Prompt after where
  unreported unwoken := by
    rw [sameCaller] at unwoken
    exact sameReported.trans (prompt.unreported unwoken)
  woken woken := settled (prompt.woken (sameCaller ▸ woken))
  truthful := by
    unfold Handover.truthful
    rw [sameCaller, sameCurrent, sameReported]
    exact prompt.truthful

/-- A caller that goes on in its call without being woken. -/
theorem goesOn (prompt : Prompt state) (was : state.caller.unwoken = true)
    (still : after.caller.unwoken = true) (sameReported : after.reported = state.reported) :
    Prompt after where
  unreported _ := sameReported.trans (prompt.unreported was)
  woken woken := by
    rw [woken] at still
    cases still
  truthful _ _ returned := by
    rw [returned] at still
    cases still

/-- A caller that returns. -/
theorem leave (prompt : Prompt state) (consistent : Consistent state)
    (acted : state.act .leave = some after) : Prompt after := by
  unfold Handover.act at acted
  cases caller : state.caller with
  | woken timedOut =>
      rw [caller] at acted
      obtain ⟨free, same⟩ := Option.ite_none_right_eq_some.mp acted
      cases same
      have notUnwoken : (state.result timedOut).unwoken = false := by
        cases timedOut <;> rfl
      refine ⟨fun unwoken => ?_, fun woken => ?_, fun status source returned => ?_⟩
      · cases notUnwoken.symm.trans unwoken
      · have isWoken : state.result timedOut = .woken false := woken
        cases timedOut <;> cases isWoken
      · have result : state.result timedOut = .returned status source := returned
        cases timedOut with
        | true =>
            cases result
            have none := prompt.unreported (by rw [caller]; rfl)
            refine ⟨fun signalled reported => ?_, nofun⟩
            cases none.symm.trans reported
        | false =>
            cases result
            have stored : state.txrxStatus.transfer = state.current := by
              refine (prompt.woken caller).resolve_right fun ⟨report, locked, _⟩ => ?_
              have held := consistent.istMutex.mp (by rw [locked]; rfl)
              rw [free] at held
              cases held
            refine ⟨fun signalled reported => ?_, fun transfer source => ?_⟩
            · exact congrArg Report.status (consistent.reported signalled reported)
            · cases source
              exact stored
  | _ =>
      rw [caller] at acted
      cases acted

/-- A prompt signal. -/
theorem signalled (prompt : Prompt state) (consistent : Consistent state) {report : Report}
    (ist : state.ist = .stored report) (isPrompt : state.prompt .signal) :
    Prompt (state.signalled report) := by
  have holds : state.ist.holds = true := by
    rw [ist]
    rfl
  have stored := consistent.stored report ist
  obtain ⟨own, notLost⟩ := isPrompt report ist
  -- the caller of the current transfer has time left only where it waits
  have unreported (unwoken : state.caller.unwoken = true) (unwaiting : state.caller ≠ .waiting) :
      ¬ (report.transfer = state.current ∧ state.expired = false ∧
        state.caller.inCall = true) := by
    intro ⟨current, unexpired, _⟩
    cases caller : state.caller with
    | started =>
        rw [notLost caller current] at unexpired
        cases unexpired
    | locked => exact consistent.notLocked holds caller
    | waiting => exact unwaiting caller
    | woken timedOut =>
        rw [caller] at unwoken
        cases unwoken
        rw [consistent.late caller] at unexpired
        cases unexpired
    | _ =>
        rw [caller] at unwoken
        cases unwoken
  by_cases waiting : state.caller = .waiting
  · have woken : (state.signalled report).caller = .woken false := if_pos waiting
    have current : (state.signalled report).settled := .inl (stored ▸ own waiting)
    refine ⟨fun unwoken => ?_, fun _ => current, fun status source returned => ?_⟩
    · rw [woken] at unwoken
      cases unwoken
    · rw [woken] at returned
      cases returned
  · have sameCaller : (state.signalled report).caller = state.caller := if_neg waiting
    refine ⟨fun unwoken => ?_, fun woken => ?_, fun status source returned => ?_⟩
    · rw [sameCaller] at unwoken
      exact (if_neg (unreported unwoken waiting)).trans (prompt.unreported unwoken)
    · rw [sameCaller] at woken
      refine .inl ((prompt.woken woken).resolve_right fun ⟨other, locked, _⟩ => ?_)
      cases ist.symm.trans locked
    · rw [sameCaller] at returned
      have sameReported : (state.signalled report).reported = state.reported := by
        refine if_neg fun ⟨_, _, inCall⟩ => ?_
        rw [returned] at inCall
        cases inCall
      rw [sameReported]
      exact prompt.truthful status source returned

/-- Every prompt step. -/
theorem act (prompt : Prompt state) (consistent : Consistent state) {action : HandoverAction}
    (isPrompt : state.prompt action) (acted : state.act action = some after) :
    Prompt after := by
  cases action with
  | start =>
      obtain ⟨_, same⟩ := Option.ite_none_left_eq_some.mp acted
      cases same
      exact ⟨fun _ => rfl, nofun, nofun⟩
  | lock =>
      obtain ⟨⟨started, _⟩, same⟩ := Option.ite_none_right_eq_some.mp acted
      cases same
      exact prompt.goesOn (by rw [started]; rfl) rfl rfl
  | wait =>
      obtain ⟨locked, same⟩ := Option.ite_none_right_eq_some.mp acted
      cases same
      exact prompt.goesOn (by rw [locked]; rfl) rfl rfl
  | expire =>
      obtain ⟨_, same⟩ := Option.ite_none_right_eq_some.mp acted
      cases same
      exact prompt.beside rfl rfl rfl id
  | timeout =>
      obtain ⟨⟨waiting, _⟩, same⟩ := Option.ite_none_right_eq_some.mp acted
      cases same
      exact prompt.goesOn (by rw [waiting]; rfl) rfl rfl
  | spurious =>
      obtain ⟨_, same⟩ := Option.ite_none_right_eq_some.mp acted
      cases same
      exact ⟨nofun, fun _ => isPrompt, nofun⟩
  | leave => exact prompt.leave consistent acted
  | interrupt failed =>
      obtain ⟨⟨idle, _⟩, same⟩ := Option.ite_none_right_eq_some.mp acted
      cases same
      refine prompt.beside rfl rfl rfl fun settled => ?_
      refine settled.imp_right fun ⟨report, locked, _⟩ => ?_
      cases idle.symm.trans locked
  | setIdle =>
      unfold Handover.act at acted
      cases ist : state.ist with
      | handling report =>
          simp only [ist] at acted
          cases acted
          refine prompt.beside rfl rfl rfl fun settled => ?_
          refine settled.imp_right fun ⟨report, locked, _⟩ => ?_
          cases ist.symm.trans locked
      | _ =>
          simp only [ist] at acted
          cases acted
  | istLock =>
      unfold Handover.act at acted
      cases ist : state.ist with
      | idled report =>
          simp only [ist] at acted
          obtain ⟨_, same⟩ := Option.ite_none_right_eq_some.mp acted
          cases same
          refine prompt.beside rfl rfl rfl fun settled => ?_
          refine settled.imp_right fun ⟨report, locked, _⟩ => ?_
          cases ist.symm.trans locked
      | _ =>
          simp only [ist] at acted
          cases acted
  | store =>
      have settles := fun settled => settled_store consistent settled acted
      unfold Handover.act at acted
      cases ist : state.ist with
      | locked report =>
          simp only [ist] at acted
          cases acted
          exact prompt.beside rfl rfl rfl settles
      | _ =>
          simp only [ist] at acted
          cases acted
  | signal =>
      unfold Handover.act at acted
      cases ist : state.ist with
      | stored report =>
          simp only [ist] at acted
          cases acted
          exact prompt.signalled consistent ist isPrompt
      | _ =>
          simp only [ist] at acted
          cases acted
  | unlock =>
      obtain ⟨signalled, same⟩ := Option.ite_none_right_eq_some.mp acted
      cases same
      refine prompt.beside rfl rfl rfl fun settled => ?_
      refine settled.imp_right fun ⟨report, locked, _⟩ => ?_
      cases signalled.symm.trans locked

end Prompt

/-- In a run of prompt steps every call returns a truthful result. -/
theorem truthful_of_prompt {status : I2cStatus}
    (reached : Actions.Reaches Handover.act Handover.prompt (.initial status) state) :
    state.truthful := by
  have kept : Consistent state ∧ Prompt state := by
    refine reached.invariant (fun state => Consistent state ∧ Prompt state)
      ⟨consistent_initial status, prompt_initial status⟩ ?_
    intro _ _ _ kept isPrompt acted
    exact ⟨kept.1.act acted, kept.2.act kept.1 isPrompt acted⟩
  exact kept.2.truthful

/-! ## Steps that are not prompt -/

/-- The state can lead to a call whose result is not truthful. -/
def Handover.astray (state : Handover) : Prop :=
  ∃ final, Actions.Reaches Handover.act Actions.always state final ∧ ¬ final.truthful

/-- A step towards such a call. -/
theorem astray_of_act {action : HandoverAction} (acted : state.act action = some after)
    (astray : after.astray) : state.astray := by
  obtain ⟨final, reached, wrong⟩ := astray
  exact ⟨final, (Actions.Reaches.refl.next acted trivial).trans reached, wrong⟩

/-- A woken caller that can take the mutex returns what is stored, for whatever transfer. -/
theorem astray_of_woken (woken : state.caller = .woken false) (free : state.mutex = none)
    (stale : state.txrxStatus.transfer ≠ state.current) : state.astray := by
  have left : state.act .leave = some { state with caller := state.result false } := by
    unfold Handover.act
    rw [woken]
    exact if_pos free
  refine ⟨_, Actions.Reaches.refl.next left trivial, fun truthful => stale ?_⟩
  exact (truthful _ _ rfl).2 _ rfl

/-- The same once the interrupt thread has released the mutex. -/
theorem astray_of_signalled (woken : state.caller = .woken false) (ist : state.ist = .signalled)
    (stale : state.txrxStatus.transfer ≠ state.current) : state.astray := by
  have unlocked : state.act .unlock = some { state with ist := .idle, mutex := none } := if_pos ist
  exact astray_of_act unlocked (astray_of_woken woken rfl stale)

/-- The same once the interrupt thread has signalled. -/
theorem astray_of_stored {report : Report} (woken : state.caller = .woken false)
    (ist : state.ist = .stored report) (stale : state.txrxStatus.transfer ≠ state.current) :
    state.astray := by
  have signalled : state.act .signal = some (state.signalled report) := by
    unfold Handover.act
    rw [ist]
  refine astray_of_act signalled (astray_of_signalled ?_ rfl stale)
  show (if state.caller = .waiting then CallerAt.woken false else state.caller) = _
  rw [woken]
  rfl

/-- A caller woken without a signal before its result is settled. -/
theorem astray_of_unsettled (consistent : Consistent state)
    (woken : state.caller = .woken false) (unsettled : ¬ state.settled) : state.astray := by
  obtain ⟨stale, otherReport⟩ := not_or.mp unsettled
  cases ist : state.ist with
  | locked report =>
      have other : report.transfer ≠ state.current := fun same => otherReport ⟨report, ist, same⟩
      have stored : state.act .store =
          some { state with ist := .stored report, txrxStatus := report } := by
        unfold Handover.act
        rw [ist]
      exact astray_of_act stored (astray_of_stored woken rfl other)
  | stored report => exact astray_of_stored woken ist stale
  | signalled => exact astray_of_signalled woken ist stale
  | _ =>
      refine astray_of_woken woken ?_ stale
      cases mutex : state.mutex with
      | none => rfl
      | some thread =>
          cases thread with
          | caller =>
              have locked := consistent.callerMutex.mpr mutex
              rw [woken] at locked
              cases locked
          | ist =>
              have holds := consistent.istMutex.mpr mutex
              rw [ist] at holds
              cases holds

/-- A signal that finds the caller not yet waiting is lost, and the call times out. -/
theorem astray_of_lost {status : I2cStatus} (started : state.caller = .started)
    (ist : state.ist = .signalled) (reported : state.reported = some status)
    (found : status ≠ .abort) : state.astray := by
  have performed : Actions.perform Handover.act state
      [.unlock, .lock, .wait, .expire, .timeout, .leave] =
      some { state with
        ist := .idle, caller := .returned .abort none, mutex := none, expired := true } := by
    simp [Actions.perform, Handover.act, Handover.result, CallerAt.inCall, ist, started]
  refine ⟨_, Actions.reaches_of_perform performed, fun truthful => found ?_⟩
  exact ((truthful .abort none rfl).1 status reported).symm

/-- A step that is not prompt can lead to a call whose result is not truthful. -/
theorem astray_of_not_prompt (consistent : Consistent state) {action : HandoverAction}
    (acted : state.act action = some after) (late : ¬ state.prompt action) : after.astray := by
  have kept := consistent.act acted
  cases action with
  | signal =>
      unfold Handover.prompt at late
      simp only [not_forall] at late
      obtain ⟨report, ist, late⟩ := late
      have signalled : after = state.signalled report := by
        unfold Handover.act at acted
        rw [ist] at acted
        exact (Option.some.inj acted).symm
      subst signalled
      have stored := consistent.stored report ist
      rcases not_and_or.mp late with otherCall | lost
      · obtain ⟨waiting, other⟩ := Classical.not_imp.mp otherCall
        exact astray_of_signalled (if_pos waiting) rfl (stored ▸ other)
      · obtain ⟨started, lost⟩ := Classical.not_imp.mp lost
        obtain ⟨current, unexpired⟩ := Classical.not_imp.mp lost
        refine astray_of_lost ?_ rfl (if_pos ⟨current, ?_, ?_⟩)
          (consistent.found report (.inr (.inr ist))).2.1
        · show (if state.caller = .waiting then CallerAt.woken false else state.caller) = _
          rw [started]
          rfl
        · exact Bool.not_eq_true _ |>.mp unexpired
        · rw [started]
          rfl
  | spurious =>
      obtain ⟨_, same⟩ := Option.ite_none_right_eq_some.mp acted
      cases same
      exact astray_of_unsettled kept rfl late
  | _ => exact absurd trivial late

/-- **No completion is lost** in a run of prompt steps, and every step that is not prompt, in
any run, can lead to a call whose result is not truthful. -/
theorem wait_complete_truthful (status : I2cStatus) :
    (∀ state, Actions.Reaches Handover.act Handover.prompt (.initial status) state →
      state.truthful) ∧
    ∀ state action after, Actions.Reaches Handover.act Actions.always (.initial status) state →
      state.act action = some after → ¬ state.prompt action → after.astray := by
  refine ⟨fun state reached => truthful_of_prompt reached, ?_⟩
  intro state action after reached acted late
  have consistent : Consistent state := by
    refine reached.invariant Consistent (consistent_initial status) ?_
    intro _ _ _ consistent _ acted
    exact consistent.act acted
  exact astray_of_not_prompt consistent acted late

/-- The interrupt thread signals before the caller waits; and a caller is woken without a
signal and returns the status of the call before. -/
theorem lost_and_stale_results :
    (∃ state, Actions.Reaches Handover.act Actions.always (.initial .done) state ∧
      state.caller = .returned .abort none ∧ state.reported = some .done) ∧
    ∃ state, Actions.Reaches Handover.act Actions.always (.initial .done) state ∧
      state.caller = .returned .done (some 1) ∧ state.current = 2 := by
  constructor
  · have performed : (Actions.perform Handover.act (.initial .done)
        [.start, .interrupt false, .setIdle, .istLock, .store, .signal, .unlock, .lock, .wait,
          .expire, .timeout, .leave]).map (fun state => (state.caller, state.reported)) =
        some (.returned .abort none, some .done) := by decide
    obtain ⟨state, ended, facts⟩ := Option.map_eq_some_iff.mp performed
    exact ⟨state, Actions.reaches_of_perform ended, Prod.mk.inj facts⟩
  · have performed : (Actions.perform Handover.act (.initial .done)
        [.start, .lock, .wait, .interrupt false, .setIdle, .istLock, .store, .signal, .unlock,
          .leave, .start, .lock, .wait, .spurious, .leave]).map
          (fun state => (state.caller, state.current)) =
        some (.returned .done (some 1), 2) := by decide
    obtain ⟨state, ended, facts⟩ := Option.map_eq_some_iff.mp performed
    exact ⟨state, Actions.reaches_of_perform ended, Prod.mk.inj facts⟩

end Bcm2711.I2c
