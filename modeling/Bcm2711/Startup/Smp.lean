import Bcm2711.Lib.Actions

/-! # The start of the application processors

The boot CPU starts the other cores one after the other: each takes its number from
`cpu_starting`, initialises itself on a stack that all of them share, and reports by clearing the
word.  When the system page is finished the boot CPU lets them go, again one at a time, into the
`smp_spin` callout, where each waits for the kernel to store an address at which it continues.
The barriers of the source put the accesses of each core in the order of its program.
-/

namespace Bcm2711.Startup.Smp

open Actions

/-! ## The boot CPU and the cores -/

/-- Where the boot CPU is in `start_aps` and `transfer_aps`. -/
inductive Boot where
  /-- At the condition of the loop of `start_aps`. -/
  | startNext (i : Nat)
  /-- `cpu_starting` is set for this core, and `board_smp_start` is called next. -/
  | starting (i : Nat)
  /-- At the condition of the inner loop, after so many polls. -/
  | awaiting (i : Nat) (count : BitVec 32)
  /-- In `ap_fail`. -/
  | failed (i : Nat)
  /-- Between the two hooks. -/
  | between
  /-- At the condition of the loop of `transfer_aps`. -/
  | transferNext (i : Nat)
  /-- `pending` is set, and `syspage_available` is stored next. -/
  | offering (i : Nat)
  /-- At the condition of the inner loop. -/
  | transferring (i : Nat)
  | done
deriving DecidableEq, Repr

/-- Where a core is in the firmware's loop, in `smp_start` and in `smp_spin`. -/
inductive Core where
  /-- In the loop of the firmware. -/
  | parked
  | entered
  /-- The stack is set up, and the number is read next. -/
  | stacked
  /-- The number is known; `cpu_starting` is cleared next. -/
  | numbered (cpu : Int)
  /-- In the loop on `syspage_available`. -/
  | reported (cpu : Int)
  /-- In `cpu_startnext`. -/
  | leaving (cpu : Int)
  /-- At the load of the callout's loop. -/
  | spinning (cpu : Int)
  /-- An address was loaded, and the exchange is tried next. -/
  | loaded (cpu : Int) (addr : BitVec 64)
  /-- The address was -1, which is stored again next. -/
  | returning (cpu : Int)
  | running (cpu : Int) (addr : BitVec 64)
  | down (cpu : Int)
deriving DecidableEq, Repr

/-- The parties, and the words they share. -/
structure State where
  boot : Boot
  cores : Nat → Core
  /-- Whether `board_smp_start` has stored to the word that the parked core looks at. -/
  released : Nat → Bool
  cpuStarting : Int
  syspageAvailable : Int
  pending : Nat
  startAddr : BitVec 64
  /-- The exclusive monitors of the cores on `start_addr`. -/
  reserved : Nat → Bool
  /-- Whether the kernel has stored -1. -/
  shutdown : Bool

/-- Before `start_aps`. -/
def State.initial : State :=
  ⟨.startNext 1, fun _ => .parked, fun _ => false, 0, 0, 0, 0, fun _ => false, false⟩

/-- A core moves on. -/
def State.move (state : State) (cpu : Nat) (place : Core) : State :=
  { state with cores := Function.update state.cores cpu place }

/-! ## Steps -/

/-- A step of the boot CPU in `start_aps` or `transfer_aps`. -/
def bootStep (num : Nat) (state : State) : Option State :=
  match state.boot with
  | .startNext i =>
      if i < num then some { state with cpuStarting := i + 1, boot := .starting i }
      else some { state with boot := .between }
  | .starting i =>
      some { state with released := Function.update state.released i true, boot := .awaiting i 1 }
  | .awaiting i count =>
      if state.cpuStarting = 0 then some { state with boot := .startNext (i + 1) }
      else if count + 1 = 0 then some { state with boot := .failed i }
      else some { state with boot := .awaiting i (count + 1) }
  | .failed _ => none
  | .between => some { state with boot := .transferNext 1 }
  | .transferNext i =>
      if i < num then some { state with pending := 1, boot := .offering i }
      else some { state with boot := .done }
  | .offering i => some { state with syspageAvailable := i, boot := .transferring i }
  | .transferring i =>
      if state.pending = 0 then some { state with boot := .transferNext (i + 1) }
      else some state
  | .done => none

/-- A step of a core, other than an exchange that goes through. -/
def coreStep (state : State) (cpu : Nat) : State :=
  match state.cores cpu with
  | .parked => if state.released cpu then state.move cpu .entered else state
  | .entered => state.move cpu .stacked
  | .stacked => state.move cpu (.numbered (state.cpuStarting - 1))
  | .numbered number => { state.move cpu (.reported number) with cpuStarting := 0 }
  | .reported number =>
      if state.syspageAvailable = number then state.move cpu (.leaving number) else state
  | .leaving number => { state.move cpu (.spinning number) with pending := 0 }
  | .spinning number =>
      let monitored := { state with reserved := Function.update state.reserved cpu true }
      if state.startAddr = 0 then monitored
      else monitored.move cpu (.loaded number state.startAddr)
  | .loaded number _ =>
      { state.move cpu (.spinning number) with
        reserved := Function.update state.reserved cpu false }
  | .returning number =>
      { state.move cpu (.down number) with startAddr := -1, reserved := fun _ => false }
  | .running _ _ => state
  | .down _ => state

/-- The exclusive store of 0, which goes through when nothing was stored since the load. -/
def exchange (state : State) (cpu : Nat) : Option State :=
  match state.cores cpu with
  | .loaded number addr =>
      if state.reserved cpu then
        some { state.move cpu (if addr = -1 then .returning number else .running number addr) with
          startAddr := 0, reserved := fun _ => false }
      else none
  | _ => none

/-- The kernel stores an address when the last one was taken, and nothing more after -1. -/
def kernelStore (state : State) (addr : BitVec 64) : Option State :=
  if state.boot = .done ∧ state.startAddr = 0 ∧ addr ≠ 0 ∧ state.shutdown = false then
    some { state with startAddr := addr, reserved := fun _ => false, shutdown := addr = -1 }
  else none

/-- Whose step it is. -/
inductive Act where
  | boot
  | core (cpu : Nat)
  | exchange (cpu : Nat)
  | kernel (addr : BitVec 64)
deriving DecidableEq, Repr

/-- The steps of all parties. -/
def act (num : Nat) (state : State) : Act → Option State
  | .boot => bootStep num state
  | .core cpu => some (coreStep state cpu)
  | .exchange cpu => exchange state cpu
  | .kernel addr => kernelStore state addr

/-! ## What holds of the parties -/

/-- A core uses the stack that all cores share. -/
def Core.onStack : Core → Bool
  | .stacked => true
  | .numbered _ => true
  | .leaving _ => true
  | _ => false

/-- The number that a core goes by. -/
def Core.number : Core → Option Int
  | .parked => none
  | .entered => none
  | .stacked => none
  | .numbered cpu => some cpu
  | .reported cpu => some cpu
  | .leaving cpu => some cpu
  | .spinning cpu => some cpu
  | .loaded cpu _ => some cpu
  | .returning cpu => some cpu
  | .running cpu _ => some cpu
  | .down cpu => some cpu

/-- A core has entered `smp_spin`. -/
def Core.inSpin : Core → Bool
  | .spinning _ => true
  | .loaded _ _ => true
  | .returning _ => true
  | .running _ _ => true
  | .down _ => true
  | _ => false

/-- How far a core is. -/
inductive Stage where
  | parked | starting | reported | transferring | spinning
deriving DecidableEq, Repr

/-- The core that the boot CPU waits for. -/
def Boot.current : Boot → Option Nat
  | .awaiting i _ => some i
  | .failed i => some i
  | .transferring i => some i
  | _ => none

/-- What the core is doing that the boot CPU waits for. -/
def Boot.moving : Boot → Stage
  | .transferring _ => .transferring
  | _ => .starting

/-- The cores below this one have reported. -/
def Boot.reported (num : Nat) : Boot → Nat
  | .startNext i => i
  | .starting i => i
  | .awaiting i _ => i
  | .failed i => i
  | _ => num

/-- The cores below this one were let go. -/
def Boot.transferred (num : Nat) : Boot → Nat
  | .transferNext i => i
  | .offering i => i
  | .transferring i => i
  | .done => num
  | _ => 1

/-- How far each core is when the boot CPU is at a place. -/
def Boot.stage (num : Nat) (boot : Boot) (cpu : Nat) : Stage :=
  if cpu = 0 then .parked
  else if boot.current = some cpu then boot.moving
  else if cpu < boot.transferred num then .spinning
  else if cpu < boot.reported num then .reported
  else .parked

/-- A core is as far as its stage says. -/
def State.At (state : State) (cpu : Nat) : Stage → Prop
  | .parked => state.cores cpu = .parked ∧ state.released cpu = false
  | .starting =>
      (state.cores cpu = .parked ∨ state.cores cpu = .entered ∨ state.cores cpu = .stacked ∨
          state.cores cpu = .numbered cpu) ∧
          state.released cpu = true ∧ state.cpuStarting = cpu + 1 ∨
        state.cores cpu = .reported cpu ∧ state.cpuStarting = 0
  | .reported => state.cores cpu = .reported cpu
  | .transferring =>
      (state.cores cpu = .reported cpu ∨ state.cores cpu = .leaving cpu) ∧ state.pending = 1 ∨
        (state.cores cpu).inSpin = true ∧ (state.cores cpu).number = some (cpu : Int) ∧
          state.pending = 0
  | .spinning => (state.cores cpu).inSpin = true ∧ (state.cores cpu).number = some (cpu : Int)

/-- What the words hold when the boot CPU is at a place. -/
def State.Words (num : Nat) (state : State) : Prop :=
  match state.boot with
  | .startNext i =>
      1 ≤ i ∧ i ≤ max 1 num ∧ state.cpuStarting = 0 ∧ state.syspageAvailable = 0
  | .starting i => 1 ≤ i ∧ i < num ∧ state.cpuStarting = i + 1 ∧ state.syspageAvailable = 0
  | .awaiting i _ => 1 ≤ i ∧ i < num ∧ state.syspageAvailable = 0
  | .failed i => 1 ≤ i ∧ i < num ∧ state.syspageAvailable = 0
  | .between => state.syspageAvailable = 0
  | .transferNext i => 1 ≤ i ∧ i ≤ max 1 num ∧ state.syspageAvailable = i - 1
  | .offering i => 1 ≤ i ∧ i < num ∧ state.syspageAvailable = i - 1 ∧ state.pending = 1
  | .transferring i => 1 ≤ i ∧ i < num ∧ state.syspageAvailable = i
  | .done => state.syspageAvailable < max 1 num

/-- Every core is as far as the boot CPU has let it go. -/
structure State.Ordered (num : Nat) (state : State) : Prop where
  words : state.Words num
  cores : ∀ cpu, state.At cpu (state.boot.stage num cpu)

variable {num cpu other : Nat} {state after : State} {place : Core} {stage : Stage}

@[simp] theorem move_cores_self : (state.move cpu place).cores cpu = place :=
  Function.update_self ..

theorem move_cores_of_ne (different : other ≠ cpu) :
    (state.move cpu place).cores other = state.cores other := Function.update_of_ne different ..

/-- A stage looks at the core and at the word with which it ends. -/
theorem State.At.congr (isAt : state.At cpu stage) (core : after.cores cpu = state.cores cpu)
    (released : after.released cpu = state.released cpu)
    (starting : stage = .starting → after.cpuStarting = state.cpuStarting)
    (pending : stage = .transferring → after.pending = state.pending) : after.At cpu stage := by
  cases stage with
  | parked => exact ⟨core.trans isAt.1, released.trans isAt.2⟩
  | starting =>
      unfold State.At at isAt ⊢
      rw [core, released, starting rfl]
      exact isAt
  | reported => exact core.trans isAt
  | transferring =>
      unfold State.At at isAt ⊢
      rw [core, pending rfl]
      exact isAt
  | spinning =>
      unfold State.At at isAt ⊢
      rw [core]
      exact isAt

/-- The core that the boot CPU waits for is starting, or is let go. -/
theorem stage_current {boot : Boot} (positive : cpu ≠ 0) (isCurrent : boot.current = some cpu) :
    boot.stage num cpu = boot.moving := by
  rw [Boot.stage, if_neg positive, if_pos isCurrent]

/-- Any other core is as far as the counters of the boot CPU say. -/
theorem stage_spins {boot : Boot} (positive : cpu ≠ 0) (waits : boot.current ≠ some cpu)
    (less : cpu < boot.transferred num) : boot.stage num cpu = .spinning := by
  rw [Boot.stage, if_neg positive, if_neg waits, if_pos less]

theorem stage_reports {boot : Boot} (positive : cpu ≠ 0) (waits : boot.current ≠ some cpu)
    (least : boot.transferred num ≤ cpu) (less : cpu < boot.reported num) :
    boot.stage num cpu = .reported := by
  rw [Boot.stage, if_neg positive, if_neg waits, if_neg (Nat.not_lt.mpr least), if_pos less]

theorem stage_parks {boot : Boot} (positive : cpu ≠ 0) (waits : boot.current ≠ some cpu)
    (least : boot.transferred num ≤ cpu) (beyond : boot.reported num ≤ cpu) :
    boot.stage num cpu = .parked := by
  rw [Boot.stage, if_neg positive, if_neg waits, if_neg (Nat.not_lt.mpr least),
    if_neg (Nat.not_lt.mpr beyond)]

/-- A core is started or let go only while the boot CPU waits for it. -/
theorem stage_moving {boot : Boot}
    (moves : boot.stage num cpu = .starting ∨ boot.stage num cpu = .transferring) :
    boot.current = some cpu := by
  unfold Boot.stage at moves
  split_ifs at moves with boots isCurrent spins reports
  · simp at moves
  · exact isCurrent
  · simp at moves
  · simp at moves
  · simp at moves

/-- A core that has reported only was not let go. -/
theorem stage_reported {boot : Boot} (isReported : boot.stage num cpu = .reported) :
    cpu ≠ 0 ∧ boot.current ≠ some cpu ∧ boot.transferred num ≤ cpu ∧ cpu < boot.reported num := by
  unfold Boot.stage at isReported
  split_ifs at isReported with boots isCurrent spins reports
  · cases boot <;> cases isReported
  · exact ⟨boots, isCurrent, Nat.le_of_not_lt spins, reports⟩

/-- A core that has a number in `smp_start` is the one that is being started. -/
theorem State.At.starting_of_numbered {number : Int} (isAt : state.At cpu stage)
    (place : state.cores cpu = .numbered number) : stage = .starting := by
  cases stage with
  | parked => cases place.symm.trans isAt.1
  | starting => rfl
  | reported => cases place.symm.trans isAt
  | transferring =>
      rcases isAt with ⟨isReported | isLeaving, _⟩ | ⟨inSpin, _⟩
      · cases place.symm.trans isReported
      · cases place.symm.trans isLeaving
      · rw [place] at inSpin
        cases inSpin
  | spinning =>
      have inSpin := isAt.1
      rw [place] at inSpin
      cases inSpin

/-- A core that leaves is the one that is being let go. -/
theorem State.At.transferring_of_leaving {number : Int} (isAt : state.At cpu stage)
    (place : state.cores cpu = .leaving number) : stage = .transferring := by
  cases stage with
  | parked => cases place.symm.trans isAt.1
  | starting =>
      rcases isAt with ⟨early, _⟩ | ⟨isReported, _⟩
      · rw [place] at early
        simp at early
      · cases place.symm.trans isReported
  | reported => cases place.symm.trans isAt
  | transferring => rfl
  | spinning =>
      have inSpin := isAt.1
      rw [place] at inSpin
      cases inSpin

/-! ## What a core's step leaves -/

@[simp] theorem coreStep_boot (state : State) (cpu : Nat) :
    (coreStep state cpu).boot = state.boot := by
  unfold coreStep
  split <;> (try split) <;> rfl

@[simp] theorem coreStep_released (state : State) (cpu : Nat) :
    (coreStep state cpu).released = state.released := by
  unfold coreStep
  split <;> (try split) <;> rfl

@[simp] theorem coreStep_available (state : State) (cpu : Nat) :
    (coreStep state cpu).syspageAvailable = state.syspageAvailable := by
  unfold coreStep
  split <;> (try split) <;> rfl

@[simp] theorem coreStep_shutdown (state : State) (cpu : Nat) :
    (coreStep state cpu).shutdown = state.shutdown := by
  unfold coreStep
  split <;> (try split) <;> rfl

theorem coreStep_other (state : State) (different : other ≠ cpu) :
    (coreStep state cpu).cores other = state.cores other := by
  unfold coreStep
  split <;> (try split) <;> first | rfl | exact Function.update_of_ne different ..

/-- `cpu_starting` is cleared by a core that is numbered, and by no other. -/
theorem coreStep_starting (state : State) (cpu : Nat) :
    (coreStep state cpu).cpuStarting = state.cpuStarting ∨
      ∃ number, state.cores cpu = .numbered number := by
  unfold coreStep
  split
  case h_4 number isNumbered => exact Or.inr ⟨number, isNumbered⟩
  all_goals
    left
    (try split) <;> rfl

/-- `pending` is cleared by a core that leaves, and by no other. -/
theorem coreStep_pending (state : State) (cpu : Nat) :
    (coreStep state cpu).pending = state.pending ∨
      ∃ number, state.cores cpu = .leaving number := by
  unfold coreStep
  split
  case h_6 number isLeaving => exact Or.inr ⟨number, isLeaving⟩
  all_goals
    left
    (try split) <;> rfl

/-- In `smp_spin` a core stays, under its number. -/
theorem coreStep_inSpin (inSpin : (state.cores cpu).inSpin = true) :
    ((coreStep state cpu).cores cpu).inSpin = true ∧
      ((coreStep state cpu).cores cpu).number = (state.cores cpu).number := by
  unfold coreStep
  split
  case h_7 number isSpinning =>
    dsimp only
    split
    · exact ⟨inSpin, rfl⟩
    · rw [isSpinning, move_cores_self]
      exact ⟨rfl, rfl⟩
  case h_8 number addr isLoaded =>
    dsimp only
    rw [isLoaded, move_cores_self]
    exact ⟨rfl, rfl⟩
  case h_9 number isReturning =>
    dsimp only
    rw [isReturning, move_cores_self]
    exact ⟨rfl, rfl⟩
  case h_10 => exact ⟨inSpin, rfl⟩
  case h_11 => exact ⟨inSpin, rfl⟩
  all_goals
    rename_i place
    rw [place] at inSpin
    cases inSpin

/-- The word `syspage_available` names no core that has reported only. -/
theorem State.Words.available_ne (words : state.Words num)
    (isReported : state.boot.stage num cpu = .reported) : state.syspageAvailable ≠ cpu := by
  obtain ⟨positive, other, least, most⟩ := stage_reported isReported
  unfold State.Words at words
  intro same
  cases place : state.boot with
  | startNext i | starting i | awaiting i count | failed i | between | transferNext i
  | offering i =>
      rw [place] at words least
      simp only [Boot.transferred] at words least
      omega
  | transferring i =>
      rw [place] at words other
      have isCurrent : i = cpu := Int.ofNat.inj (words.2.2.symm.trans same)
      exact other (congrArg some isCurrent)
  | done =>
      rw [place] at least most
      exact absurd most (Nat.not_lt.mpr least)

/-- No core is let go while one is started. -/
theorem State.Words.available_zero (words : state.Words num)
    (isStarting : state.boot.stage num cpu = .starting) : state.syspageAvailable = 0 := by
  have isCurrent := stage_moving (Or.inl isStarting)
  unfold State.Words at words
  cases place : state.boot with
  | awaiting i count | failed i =>
      rw [place] at words
      exact words.2.2
  | transferring i =>
      rw [place] at isCurrent
      cases isCurrent
      rw [place] at words isStarting
      have positive : cpu ≠ 0 := by omega
      rw [stage_current positive rfl] at isStarting
      cases isStarting
  | startNext i | starting i | between | transferNext i | offering i | done =>
      rw [place] at isCurrent
      cases isCurrent

/-! ## Every step keeps the order -/

/-- The core that makes a step stays at its stage. -/
theorem State.Ordered.core_self (ordered : state.Ordered num) (cpu : Nat) :
    (coreStep state cpu).At cpu (state.boot.stage num cpu) := by
  have isAt := ordered.cores cpu
  cases isStage : state.boot.stage num cpu with
  | parked =>
      rw [isStage] at isAt
      have stays : coreStep state cpu = state := by
        unfold coreStep
        rw [isAt.1]
        dsimp only
        rw [isAt.2, if_neg Bool.false_ne_true]
      rw [stays]
      exact isAt
  | starting =>
      rw [isStage] at isAt
      rcases isAt with ⟨isParked | isEntered | isStacked | isNumbered, released, starting⟩ |
        ⟨isReported, cleared⟩
      · left
        unfold coreStep
        rw [isParked]
        dsimp only
        rw [released, if_pos rfl]
        exact ⟨Or.inr (Or.inl move_cores_self), released, starting⟩
      · left
        unfold coreStep
        rw [isEntered]
        exact ⟨Or.inr (Or.inr (Or.inl move_cores_self)), released, starting⟩
      · left
        unfold coreStep
        rw [isStacked, starting, add_sub_cancel_right]
        exact ⟨Or.inr (Or.inr (Or.inr move_cores_self)), released, starting⟩
      · right
        unfold coreStep
        rw [isNumbered]
        exact ⟨move_cores_self, rfl⟩
      · right
        have positive : cpu ≠ 0 := by
          rintro rfl
          cases isStage
        have unequal : state.syspageAvailable ≠ cpu := by
          rw [ordered.words.available_zero isStage]
          exact (Int.natCast_ne_zero.mpr positive).symm
        unfold coreStep
        rw [isReported]
        dsimp only
        rw [if_neg unequal]
        exact ⟨isReported, cleared⟩
  | reported =>
      rw [isStage] at isAt
      have isReported : state.cores cpu = .reported cpu := isAt
      unfold coreStep
      rw [isReported]
      dsimp only
      rw [if_neg (ordered.words.available_ne isStage)]
      exact isAt
  | transferring =>
      rw [isStage] at isAt
      rcases isAt with ⟨isReported | isLeaving, pending⟩ | ⟨inSpin, number, pending⟩
      · left
        unfold coreStep
        rw [isReported]
        dsimp only
        split
        · exact ⟨Or.inr move_cores_self, pending⟩
        · exact ⟨Or.inl isReported, pending⟩
      · right
        unfold coreStep
        rw [isLeaving]
        exact ⟨congrArg Core.inSpin move_cores_self, congrArg Core.number move_cores_self, rfl⟩
      · right
        obtain ⟨stays, same⟩ := coreStep_inSpin inSpin
        refine ⟨stays, same.trans number, ?_⟩
        rcases coreStep_pending state cpu with same | ⟨_, isLeaving⟩
        · exact same.trans pending
        · rw [isLeaving] at inSpin
          cases inSpin
  | spinning =>
      rw [isStage] at isAt
      obtain ⟨stays, same⟩ := coreStep_inSpin isAt.1
      exact ⟨stays, same.trans isAt.2⟩

/-- A core that is numbered, or leaves, is the one that the boot CPU waits for. -/
theorem State.Ordered.current (ordered : state.Ordered num)
    (onStack : ∃ number, state.cores cpu = .numbered number ∨ state.cores cpu = .leaving number) :
    state.boot.current = some cpu := by
  obtain ⟨number, isNumbered | isLeaving⟩ := onStack
  · exact stage_moving (Or.inl ((ordered.cores cpu).starting_of_numbered isNumbered))
  · exact stage_moving (Or.inr ((ordered.cores cpu).transferring_of_leaving isLeaving))

/-- A core's step leaves the other cores at their stages. -/
theorem State.Ordered.core_other (ordered : state.Ordered num) (different : other ≠ cpu) :
    (coreStep state cpu).At other (state.boot.stage num other) := by
  apply (ordered.cores other).congr
  · exact coreStep_other state different
  · rw [coreStep_released]
  · intro isStarting
    rcases coreStep_starting state cpu with same | ⟨number, isNumbered⟩
    · exact same
    · have mover := ordered.current ⟨number, Or.inl isNumbered⟩
      have waits := stage_moving (Or.inl isStarting)
      exact absurd (Option.some.inj (waits.symm.trans mover)) different
  · intro isTransferring
    rcases coreStep_pending state cpu with same | ⟨number, isLeaving⟩
    · exact same
    · have mover := ordered.current ⟨number, Or.inr isLeaving⟩
      have waits := stage_moving (Or.inr isTransferring)
      exact absurd (Option.some.inj (waits.symm.trans mover)) different

/-- Words that the boot CPU relies on are not changed by a core in another's turn. -/
theorem State.Ordered.core_words (ordered : state.Ordered num) (cpu : Nat) :
    (coreStep state cpu).Words num := by
  have words := ordered.words
  have starting := coreStep_starting state cpu
  have pending := coreStep_pending state cpu
  unfold State.Words at words ⊢
  rw [coreStep_boot, coreStep_available]
  cases place : state.boot with
  | startNext i | starting i =>
      rw [place] at words
      rcases starting with same | ⟨number, isNumbered⟩
      · rw [same]
        exact words
      · have isCurrent := ordered.current ⟨number, Or.inl isNumbered⟩
        rw [place] at isCurrent
        cases isCurrent
  | offering i =>
      rw [place] at words
      rcases pending with same | ⟨number, isLeaving⟩
      · rw [same]
        exact words
      · have isCurrent := ordered.current ⟨number, Or.inr isLeaving⟩
        rw [place] at isCurrent
        cases isCurrent
  | awaiting | failed | between | transferNext | transferring | done =>
      rw [place] at words
      exact words

theorem State.Ordered.core (ordered : state.Ordered num) (cpu : Nat) :
    (coreStep state cpu).Ordered num where
  words := ordered.core_words cpu
  cores other := by
    rw [coreStep_boot]
    by_cases same : other = cpu
    · rw [same]
      exact ordered.core_self cpu
    · exact ordered.core_other same

/-- Two places of the boot CPU at which a core is equally far. -/
theorem stage_eq {boot next : Boot} (waits : boot.current ≠ some cpu)
    (alsoWaits : next.current ≠ some cpu)
    (transferred : cpu ≠ 0 → (cpu < next.transferred num ↔ cpu < boot.transferred num))
    (reported : cpu ≠ 0 → (cpu < next.reported num ↔ cpu < boot.reported num)) :
    next.stage num cpu = boot.stage num cpu := by
  unfold Boot.stage
  by_cases boots : cpu = 0
  · rw [if_pos boots, if_pos boots]
  · simp only [if_neg boots, if_neg waits, if_neg alsoWaits, transferred boots, reported boots]

/-- A core that the boot CPU does not wait for stays at its stage. -/
theorem State.Ordered.at_of_eq (ordered : state.Ordered num)
    (stages : after.boot.stage num cpu = state.boot.stage num cpu)
    (waits : state.boot.current ≠ some cpu) (core : after.cores cpu = state.cores cpu)
    (released : after.released cpu = state.released cpu) :
    after.At cpu (after.boot.stage num cpu) := by
  rw [stages]
  apply (ordered.cores cpu).congr core released
  · exact fun isStarting => absurd (stage_moving (Or.inl isStarting)) waits
  · exact fun isTransferring => absurd (stage_moving (Or.inr isTransferring)) waits

/-! ### The boot CPU -/

section Boot

variable {i : Nat} (ordered : state.Ordered num)
include ordered

theorem startNext_ordered (place : state.boot = .startNext i)
    (stepped : bootStep num state = some after) : after.Ordered num := by
  have words := ordered.words
  rw [State.Words, place] at words
  obtain ⟨least, most, cleared, available⟩ := words
  have waits : ∀ cpu, state.boot.current ≠ some cpu := by
    rw [place]
    exact fun _ => nofun
  unfold bootStep at stepped
  rw [place] at stepped
  dsimp only at stepped
  split_ifs at stepped with more
  · cases stepped
    refine ⟨⟨least, more, rfl, available⟩, fun cpu => ?_⟩
    apply ordered.at_of_eq
    · rw [place]
      rfl
    · exact waits cpu
    · rfl
    · rfl
  · cases stepped
    refine ⟨available, fun cpu => ?_⟩
    apply ordered.at_of_eq
    · apply stage_eq (waits cpu)
      · exact (Option.some_ne_none cpu).symm
      · rw [place]
        exact fun _ => Iff.rfl
      · rw [place]
        intro positive
        simp only [Boot.reported]
        omega
    · exact waits cpu
    · rfl
    · rfl

theorem starting_ordered (place : state.boot = .starting i)
    (stepped : bootStep num state = some after) : after.Ordered num := by
  have words := ordered.words
  rw [State.Words, place] at words
  obtain ⟨least, more, isStarting, available⟩ := words
  have waits : ∀ cpu, state.boot.current ≠ some cpu := by
    rw [place]
    exact fun _ => nofun
  unfold bootStep at stepped
  rw [place] at stepped
  cases stepped
  refine ⟨⟨least, more, available⟩, fun cpu => ?_⟩
  by_cases same : cpu = i
  · subst same
    have positive : cpu ≠ 0 := by omega
    have isAt := ordered.cores cpu
    have isParked : state.boot.stage num cpu = .parked := by
      apply stage_parks positive (waits cpu)
      · rw [place]
        exact least
      · rw [place]
        exact le_rfl
    rw [isParked] at isAt
    rw [stage_current positive rfl]
    exact Or.inl ⟨Or.inl isAt.1, Function.update_self .., isStarting⟩
  · apply ordered.at_of_eq
    · apply stage_eq (waits cpu)
      · exact fun current => same (Option.some.inj current).symm
      · rw [place]
        exact fun _ => Iff.rfl
      · rw [place]
        exact fun _ => Iff.rfl
    · exact waits cpu
    · rfl
    · exact Function.update_of_ne same ..

theorem awaiting_ordered {count : BitVec 32} (place : state.boot = .awaiting i count)
    (stepped : bootStep num state = some after) : after.Ordered num := by
  have words := ordered.words
  rw [State.Words, place] at words
  obtain ⟨least, more, available⟩ := words
  unfold bootStep at stepped
  rw [place] at stepped
  dsimp only at stepped
  split_ifs at stepped with cleared wrapped
  · cases stepped
    refine ⟨⟨by omega, by omega, cleared, available⟩, fun cpu => ?_⟩
    by_cases same : cpu = i
    · subst same
      have positive : cpu ≠ 0 := by omega
      have isAt := ordered.cores cpu
      rw [place, stage_current positive rfl] at isAt
      have isReported : Boot.stage num (.startNext (cpu + 1)) cpu = .reported :=
        stage_reports positive (Option.some_ne_none cpu).symm least (Nat.lt_succ_self cpu)
      rw [isReported]
      rcases isAt with ⟨_, _, starting⟩ | ⟨reported, _⟩
      · omega
      · exact reported
    · have waits : state.boot.current ≠ some cpu := by
        rw [place]
        exact fun current => same (Option.some.inj current).symm
      apply ordered.at_of_eq
      · apply stage_eq waits
        · exact (Option.some_ne_none cpu).symm
        · rw [place]
          exact fun _ => Iff.rfl
        · rw [place]
          simp only [Boot.reported]
          omega
      · exact waits
      · rfl
      · rfl
  · cases stepped
    refine ⟨⟨least, more, available⟩, fun cpu => ?_⟩
    have isAt := ordered.cores cpu
    rw [place] at isAt
    exact isAt.congr rfl rfl (fun _ => rfl) fun _ => rfl
  · cases stepped
    refine ⟨⟨least, more, available⟩, fun cpu => ?_⟩
    have isAt := ordered.cores cpu
    rw [place] at isAt
    exact isAt.congr rfl rfl (fun _ => rfl) fun _ => rfl

theorem between_ordered (place : state.boot = .between)
    (stepped : bootStep num state = some after) : after.Ordered num := by
  have words := ordered.words
  rw [State.Words, place] at words
  unfold bootStep at stepped
  rw [place] at stepped
  cases stepped
  refine ⟨⟨le_rfl, le_max_left .., words⟩, fun cpu => ?_⟩
  have isAt := ordered.cores cpu
  rw [place] at isAt
  exact isAt.congr rfl rfl (fun _ => rfl) fun _ => rfl

theorem transferNext_ordered (place : state.boot = .transferNext i)
    (stepped : bootStep num state = some after) : after.Ordered num := by
  have words := ordered.words
  rw [State.Words, place] at words
  obtain ⟨least, most, available⟩ := words
  have waits : ∀ cpu, state.boot.current ≠ some cpu := by
    rw [place]
    exact fun _ => nofun
  unfold bootStep at stepped
  rw [place] at stepped
  dsimp only at stepped
  split_ifs at stepped with more
  · cases stepped
    refine ⟨⟨least, more, available, rfl⟩, fun cpu => ?_⟩
    apply ordered.at_of_eq
    · rw [place]
      rfl
    · exact waits cpu
    · rfl
    · rfl
  · cases stepped
    refine ⟨?_, fun cpu => ?_⟩
    · change state.syspageAvailable < max 1 num
      omega
    apply ordered.at_of_eq
    · apply stage_eq (waits cpu)
      · exact (Option.some_ne_none cpu).symm
      · rw [place]
        intro positive
        simp only [Boot.transferred]
        omega
      · rw [place]
        exact fun _ => Iff.rfl
    · exact waits cpu
    · rfl
    · rfl

theorem offering_ordered (place : state.boot = .offering i)
    (stepped : bootStep num state = some after) : after.Ordered num := by
  have words := ordered.words
  rw [State.Words, place] at words
  obtain ⟨least, more, available, pending⟩ := words
  have waits : ∀ cpu, state.boot.current ≠ some cpu := by
    rw [place]
    exact fun _ => nofun
  unfold bootStep at stepped
  rw [place] at stepped
  cases stepped
  refine ⟨⟨least, more, rfl⟩, fun cpu => ?_⟩
  by_cases same : cpu = i
  · subst same
    have positive : cpu ≠ 0 := by omega
    have isAt := ordered.cores cpu
    have isReported : state.boot.stage num cpu = .reported := by
      apply stage_reports positive (waits cpu)
      · rw [place]
        exact le_rfl
      · rw [place]
        exact more
    rw [isReported] at isAt
    rw [stage_current positive rfl]
    exact Or.inl ⟨Or.inl isAt, pending⟩
  · apply ordered.at_of_eq
    · apply stage_eq (waits cpu)
      · exact fun current => same (Option.some.inj current).symm
      · rw [place]
        exact fun _ => Iff.rfl
      · rw [place]
        exact fun _ => Iff.rfl
    · exact waits cpu
    · rfl
    · rfl

theorem transferring_ordered (place : state.boot = .transferring i)
    (stepped : bootStep num state = some after) : after.Ordered num := by
  have words := ordered.words
  rw [State.Words, place] at words
  obtain ⟨least, more, available⟩ := words
  unfold bootStep at stepped
  rw [place] at stepped
  dsimp only at stepped
  split_ifs at stepped with cleared
  · cases stepped
    refine ⟨⟨by omega, by omega, ?_⟩, fun cpu => ?_⟩
    · rw [available]
      push_cast
      omega
    by_cases same : cpu = i
    · subst same
      have positive : cpu ≠ 0 := by omega
      have isAt := ordered.cores cpu
      rw [place, stage_current positive rfl] at isAt
      have spins : Boot.stage num (.transferNext (cpu + 1)) cpu = .spinning :=
        stage_spins positive (Option.some_ne_none cpu).symm (Nat.lt_succ_self cpu)
      rw [spins]
      rcases isAt with ⟨_, pending⟩ | ⟨inSpin, number, _⟩
      · omega
      · exact ⟨inSpin, number⟩
    · have waits : state.boot.current ≠ some cpu := by
        rw [place]
        exact fun current => same (Option.some.inj current).symm
      apply ordered.at_of_eq
      · apply stage_eq waits
        · exact (Option.some_ne_none cpu).symm
        · rw [place]
          simp only [Boot.transferred]
          omega
        · rw [place]
          exact fun _ => Iff.rfl
      · exact waits
      · rfl
      · rfl
  · cases stepped
    exact ordered

/-- Every step of the boot CPU keeps the order. -/
theorem State.Ordered.boot (stepped : bootStep num state = some after) : after.Ordered num := by
  cases place : state.boot with
  | startNext i => exact startNext_ordered ordered place stepped
  | starting i => exact starting_ordered ordered place stepped
  | awaiting i count => exact awaiting_ordered ordered place stepped
  | failed i =>
      rw [bootStep, place] at stepped
      cases stepped
  | between => exact between_ordered ordered place stepped
  | transferNext i => exact transferNext_ordered ordered place stepped
  | offering i => exact offering_ordered ordered place stepped
  | transferring i => exact transferring_ordered ordered place stepped
  | done =>
      rw [bootStep, place] at stepped
      cases stepped

end Boot

/-! ### The callout and the kernel -/

/-- A core that moves within `smp_spin` stays at its stage. -/
theorem State.At.within_spin (isAt : state.At cpu stage) (was : (state.cores cpu).inSpin = true)
    (stays : (after.cores cpu).inSpin = true)
    (number : (after.cores cpu).number = (state.cores cpu).number)
    (pending : after.pending = state.pending) : after.At cpu stage := by
  cases stage with
  | parked =>
      rw [isAt.1] at was
      cases was
  | starting =>
      rcases isAt with ⟨isParked | isEntered | isStacked | isNumbered, _⟩ | ⟨isReported, _⟩
      · rw [isParked] at was
        cases was
      · rw [isEntered] at was
        cases was
      · rw [isStacked] at was
        cases was
      · rw [isNumbered] at was
        cases was
      · rw [isReported] at was
        cases was
  | reported =>
      have isReported : state.cores cpu = .reported cpu := isAt
      rw [isReported] at was
      cases was
  | transferring =>
      rcases isAt with ⟨isReported | isLeaving, _⟩ | ⟨_, same, cleared⟩
      · rw [isReported] at was
        cases was
      · rw [isLeaving] at was
        cases was
      · exact Or.inr ⟨stays, number.trans same, pending.trans cleared⟩
  | spinning => exact ⟨stays, number.trans isAt.2⟩

/-- An exchange that goes through takes the address that was loaded. -/
theorem exchange_eq_some (stepped : exchange state cpu = some after) :
    ∃ number addr, state.cores cpu = .loaded number addr ∧ state.reserved cpu = true ∧
      after = { state.move cpu (if addr = -1 then .returning number else .running number addr) with
        startAddr := 0, reserved := fun _ => false } := by
  unfold exchange at stepped
  split at stepped
  case h_1 number addr isLoaded =>
    split at stepped
    · next isReserved => exact ⟨number, addr, isLoaded, isReserved, (Option.some.inj stepped).symm⟩
    · cases stepped
  case h_2 => cases stepped

theorem State.Ordered.exchange (ordered : state.Ordered num)
    (stepped : exchange state cpu = some after) : after.Ordered num := by
  obtain ⟨number, addr, isLoaded, _, rfl⟩ := exchange_eq_some stepped
  refine ⟨ordered.words, fun other => ?_⟩
  by_cases same : other = cpu
  · subst same
    apply (ordered.cores other).within_spin
    · rw [isLoaded]
      rfl
    · dsimp only
      rw [move_cores_self]
      split <;> rfl
    · dsimp only
      rw [move_cores_self, isLoaded]
      split <;> rfl
    · rfl
  · exact (ordered.cores other).congr (move_cores_of_ne same) rfl (fun _ => rfl) fun _ => rfl

/-- What the kernel stores, and when. -/
theorem kernelStore_eq_some {addr : BitVec 64} (stepped : kernelStore state addr = some after) :
    (state.boot = .done ∧ state.startAddr = 0 ∧ addr ≠ 0 ∧ state.shutdown = false) ∧
      after = { state with
        startAddr := addr, reserved := fun _ => false, shutdown := addr = -1 } := by
  unfold kernelStore at stepped
  split at stepped
  · next given => exact ⟨given, (Option.some.inj stepped).symm⟩
  · cases stepped

theorem State.Ordered.kernel {addr : BitVec 64} (ordered : state.Ordered num)
    (stepped : kernelStore state addr = some after) : after.Ordered num := by
  obtain ⟨_, rfl⟩ := kernelStore_eq_some stepped
  exact ⟨ordered.words, fun cpu =>
    (ordered.cores cpu).congr rfl rfl (fun _ => rfl) fun _ => rfl⟩

theorem initial_ordered (num : Nat) : State.initial.Ordered num where
  words := ⟨le_rfl, le_max_left .., rfl, rfl⟩
  cores cpu := by
    have isParked : State.initial.boot.stage num cpu = .parked := by
      by_cases boots : cpu = 0
      · rw [Boot.stage, if_pos boots]
      · have least : 1 ≤ cpu := Nat.pos_of_ne_zero boots
        exact @stage_parks num cpu (.startNext 1) boots (Option.some_ne_none cpu).symm least least
    rw [isParked]
    exact ⟨rfl, rfl⟩

theorem State.Ordered.keeps {action : Act} (ordered : state.Ordered num)
    (stepped : act num state action = some after) : after.Ordered num := by
  cases action with
  | boot => exact ordered.boot stepped
  | core cpu =>
      cases stepped
      exact ordered.core cpu
  | exchange cpu => exact ordered.exchange stepped
  | kernel addr => exact ordered.kernel stepped

/-- Every state that the parties reach is in order. -/
theorem ordered_of_reaches (reached : Reaches (act num) always .initial state) :
    state.Ordered num :=
  reached.invariant (State.Ordered num) (initial_ordered num)
    fun _ _ _ ordered _ stepped => ordered.keeps stepped

/-! ## One core at a time -/

theorem onStack_of_inSpin {core : Core} (inSpin : core.inSpin = true) : core.onStack = false := by
  cases core <;> first | rfl | cases inSpin

/-- A core on the shared stack is the one that the boot CPU waits for. -/
theorem State.Ordered.current_of_onStack (ordered : state.Ordered num)
    (onStack : (state.cores cpu).onStack = true) : state.boot.current = some cpu := by
  have isAt := ordered.cores cpu
  apply stage_moving
  cases isStage : state.boot.stage num cpu with
  | parked =>
      rw [isStage] at isAt
      rw [isAt.1] at onStack
      cases onStack
  | starting => exact Or.inl rfl
  | reported =>
      rw [isStage] at isAt
      have isReported : state.cores cpu = .reported cpu := isAt
      rw [isReported] at onStack
      cases onStack
  | transferring => exact Or.inr rfl
  | spinning =>
      rw [isStage] at isAt
      rw [onStack_of_inSpin isAt.1] at onStack
      cases onStack

/-- A core goes by its own number. -/
theorem State.Ordered.number_eq {number : Int} (ordered : state.Ordered num)
    (known : (state.cores cpu).number = some number) : number = cpu := by
  have isAt := ordered.cores cpu
  cases isStage : state.boot.stage num cpu with
  | parked =>
      rw [isStage] at isAt
      rw [isAt.1] at known
      cases known
  | starting =>
      rw [isStage] at isAt
      rcases isAt with ⟨isParked | isEntered | isStacked | isNumbered, _⟩ | ⟨isReported, _⟩
      · rw [isParked] at known
        cases known
      · rw [isEntered] at known
        cases known
      · rw [isStacked] at known
        cases known
      · rw [isNumbered] at known
        exact (Option.some.inj known).symm
      · rw [isReported] at known
        exact (Option.some.inj known).symm
  | reported =>
      rw [isStage] at isAt
      have isReported : state.cores cpu = .reported cpu := isAt
      rw [isReported] at known
      exact (Option.some.inj known).symm
  | transferring =>
      rw [isStage] at isAt
      rcases isAt with ⟨isReported | isLeaving, _⟩ | ⟨_, same, _⟩
      · rw [isReported] at known
        exact (Option.some.inj known).symm
      · rw [isLeaving] at known
        exact (Option.some.inj known).symm
      · exact Option.some.inj (known.symm.trans same)
  | spinning =>
      rw [isStage] at isAt
      exact Option.some.inj (known.symm.trans isAt.2)

/-- What the order of the start promises of a state. -/
structure State.Serial (num : Nat) (state : State) : Prop where
  /-- No two cores use the shared stack. -/
  stack : ∀ first second, (state.cores first).onStack = true →
    (state.cores second).onStack = true → first = second
  /-- No core uses it when the next one is started. -/
  free : ∀ i cpu, state.boot = .starting i → (state.cores cpu).onStack = false
  /-- A core initialises the entry of its own number. -/
  number : ∀ cpu number, (state.cores cpu).number = some number → number = cpu
  /-- Every core has been initialised when the start is over. -/
  reported : state.boot = .between →
    ∀ cpu, 1 ≤ cpu → cpu < num → state.cores cpu = .reported cpu
  /-- Every core waits for the kernel when the transfer is over. -/
  spinning : state.boot = .done →
    ∀ cpu, 1 ≤ cpu → cpu < num → (state.cores cpu).inSpin = true

/-- **The application processors are started and let go one at a time.** -/
theorem aps_serial (num : Nat) {state : State}
    (reached : Reaches (act num) always .initial state) : state.Serial num := by
  have ordered := ordered_of_reaches reached
  refine ⟨?_, ?_, ?_, ?_, ?_⟩
  · intro first second onStack alsoOnStack
    have waits := ordered.current_of_onStack onStack
    have alsoWaits := ordered.current_of_onStack alsoOnStack
    exact Option.some.inj (waits.symm.trans alsoWaits)
  · intro i cpu place
    by_contra onStack
    have waits := ordered.current_of_onStack (Bool.eq_true_of_not_eq_false onStack)
    rw [place] at waits
    cases waits
  · exact fun cpu number => ordered.number_eq
  · intro place cpu least most
    have isAt := ordered.cores cpu
    have reports : Boot.stage num .between cpu = .reported :=
      stage_reports (Nat.one_le_iff_ne_zero.mp least) (Option.some_ne_none cpu).symm least most
    rw [place, reports] at isAt
    exact isAt
  · intro place cpu least most
    have isAt := ordered.cores cpu
    have spins : Boot.stage num .done cpu = .spinning :=
      stage_spins (Nat.one_le_iff_ne_zero.mp least) (Option.some_ne_none cpu).symm most
    rw [place, spins] at isAt
    exact isAt.1

/-- The boot CPU waits for core 1, which has set up its stack. -/
theorem aps_serial_two :
    ∃ state, Reaches (act 2) always .initial state ∧ state.cores 1 = .stacked ∧ state.Serial 2 := by
  have reached : Reaches (act 2) always .initial _ :=
    @reaches_of_perform _ _ _ _ _ [.boot, .boot, .core 1, .core 1] rfl
  exact ⟨_, reached, rfl, aps_serial 2 reached⟩

/-! ## The start can always be finished -/

/-- Steps lead from a state to one with a property. -/
def Continues (num : Nat) (goal : State → Prop) (state : State) : Prop :=
  ∃ final, Reaches (act num) always state final ∧ goal final

theorem Continues.of_step {goal : State → Prop} {action : Act} (rest : Continues num goal after)
    (stepped : act num state action = some after) : Continues num goal state := by
  obtain ⟨final, reached, isGoal⟩ := rest
  exact ⟨final, (Reaches.refl.next stepped trivial).trans reached, isGoal⟩

theorem Continues.core {goal : State → Prop} (cpu : Nat)
    (rest : Continues num goal (coreStep state cpu)) : Continues num goal state :=
  @Continues.of_step num state _ goal (.core cpu) rest rfl

theorem Continues.trans {goal middle : State → Prop} (first : Continues num middle state)
    (ordered : state.Ordered num)
    (rest : ∀ between : State, between.Ordered num → middle between → Continues num goal between) :
    Continues num goal state := by
  obtain ⟨between, reached, isMiddle⟩ := first
  have isOrdered := reached.invariant (State.Ordered num) ordered
    fun _ _ _ isOrdered _ stepped => isOrdered.keeps stepped
  obtain ⟨final, further, isGoal⟩ := rest between isOrdered isMiddle
  exact ⟨final, reached.trans further, isGoal⟩

section Finish

variable {i : Nat} {count : BitVec 32}

/-- The boot CPU sees that a core has reported. -/
theorem continues_reported (place : state.boot = .awaiting i count)
    (cleared : state.cpuStarting = 0) :
    Continues num (fun final => final.boot = .startNext (i + 1)) state := by
  have stepped : act num state .boot = some { state with boot := .startNext (i + 1) } := by
    rw [act, bootStep, place]
    exact if_pos cleared
  exact Continues.of_step ⟨_, .refl, rfl⟩ stepped

theorem continues_numbered {number : Int} (place : state.boot = .awaiting i count)
    (isNumbered : state.cores i = .numbered number) :
    Continues num (fun final => final.boot = .startNext (i + 1)) state := by
  apply Continues.core i
  apply continues_reported (by rw [coreStep_boot, place])
  simp only [coreStep, isNumbered]

theorem continues_stacked (place : state.boot = .awaiting i count)
    (isStacked : state.cores i = .stacked) :
    Continues num (fun final => final.boot = .startNext (i + 1)) state := by
  apply Continues.core i
  apply continues_numbered (by rw [coreStep_boot, place])
  simp only [coreStep, isStacked, move_cores_self]
  rfl

theorem continues_entered (place : state.boot = .awaiting i count)
    (isEntered : state.cores i = .entered) :
    Continues num (fun final => final.boot = .startNext (i + 1)) state := by
  apply Continues.core i
  apply continues_stacked (by rw [coreStep_boot, place])
  simp only [coreStep, isEntered, move_cores_self]

theorem continues_parked (place : state.boot = .awaiting i count)
    (isParked : state.cores i = .parked) (released : state.released i = true) :
    Continues num (fun final => final.boot = .startNext (i + 1)) state := by
  apply Continues.core i
  apply continues_entered (by rw [coreStep_boot, place])
  simp only [coreStep, isParked, released, if_true, move_cores_self]

/-- The core that is being started can report. -/
theorem State.Ordered.finishes_core (ordered : state.Ordered num)
    (place : state.boot = .awaiting i count) :
    Continues num (fun final => final.boot = .startNext (i + 1)) state := by
  have words := ordered.words
  rw [State.Words, place] at words
  have isAt := ordered.cores i
  rw [place, stage_current (Nat.one_le_iff_ne_zero.mp words.1) rfl] at isAt
  rcases isAt with ⟨isParked | isEntered | isStacked | isNumbered, released, _⟩ | ⟨_, cleared⟩
  · exact continues_parked place isParked released
  · exact continues_entered place isEntered
  · exact continues_stacked place isStacked
  · exact continues_numbered place isNumbered
  · exact continues_reported place cleared

/-- All cores that are left can be started. -/
theorem State.Ordered.finishes_start (ordered : state.Ordered num)
    (place : state.boot = .startNext i) :
    Continues num (fun final => final.boot = .between) state := by
  induction remaining : num - i generalizing state i with
  | zero =>
      have last : ¬ i < num := by omega
      have stepped : act num state .boot = some { state with boot := .between } := by
        rw [act, bootStep, place]
        exact if_neg last
      exact Continues.of_step ⟨_, .refl, rfl⟩ stepped
  | succ left ih =>
      have more : i < num := by omega
      have stepped : act num state .boot =
          some { state with cpuStarting := i + 1, boot := .starting i } := by
        rw [act, bootStep, place]
        exact if_pos more
      have isStarting := ordered.keeps stepped
      have calls :
          act num { state with cpuStarting := i + 1, boot := .starting i } .boot = some _ := rfl
      have isAwaiting := isStarting.keeps calls
      apply Continues.of_step _ stepped
      apply Continues.of_step _ calls
      apply (isAwaiting.finishes_core rfl).trans isAwaiting
      intro between isOrdered isNext
      exact ih isOrdered isNext (by omega)

/-- The boot CPU sees that a core waits for the kernel. -/
theorem continues_waiting (place : state.boot = .transferring i) (cleared : state.pending = 0) :
    Continues num (fun final => final.boot = .transferNext (i + 1)) state := by
  have stepped : act num state .boot = some { state with boot := .transferNext (i + 1) } := by
    rw [act, bootStep, place]
    exact if_pos cleared
  exact Continues.of_step ⟨_, .refl, rfl⟩ stepped

theorem continues_leaving {number : Int} (place : state.boot = .transferring i)
    (isLeaving : state.cores i = .leaving number) :
    Continues num (fun final => final.boot = .transferNext (i + 1)) state := by
  apply Continues.core i
  apply continues_waiting (by rw [coreStep_boot, place])
  simp only [coreStep, isLeaving]

/-- The core that is let go can enter the callout. -/
theorem State.Ordered.finishes_transfer (ordered : state.Ordered num)
    (place : state.boot = .transferring i) :
    Continues num (fun final => final.boot = .transferNext (i + 1)) state := by
  have words := ordered.words
  rw [State.Words, place] at words
  have isAt := ordered.cores i
  rw [place, stage_current (Nat.one_le_iff_ne_zero.mp words.1) rfl] at isAt
  rcases isAt with ⟨isReported | isLeaving, _⟩ | ⟨_, _, cleared⟩
  · apply Continues.core i
    apply continues_leaving (by rw [coreStep_boot, place])
    simp only [coreStep, isReported, words.2.2, if_true, move_cores_self]
    rfl
  · exact continues_leaving place isLeaving
  · exact continues_waiting place cleared

/-- All cores that are left can be let go. -/
theorem State.Ordered.finishes_transfers (ordered : state.Ordered num)
    (place : state.boot = .transferNext i) :
    Continues num (fun final => final.boot = .done) state := by
  induction remaining : num - i generalizing state i with
  | zero =>
      have last : ¬ i < num := by omega
      have stepped : act num state .boot = some { state with boot := .done } := by
        rw [act, bootStep, place]
        exact if_neg last
      exact Continues.of_step ⟨_, .refl, rfl⟩ stepped
  | succ left ih =>
      have more : i < num := by omega
      have stepped : act num state .boot =
          some { state with pending := 1, boot := .offering i } := by
        rw [act, bootStep, place]
        exact if_pos more
      have isOffering := ordered.keeps stepped
      have offers : act num { state with pending := 1, boot := .offering i } .boot = some _ := rfl
      have isTransferring := isOffering.keeps offers
      apply Continues.of_step _ stepped
      apply Continues.of_step _ offers
      apply (isTransferring.finishes_transfer rfl).trans isTransferring
      intro between isOrdered isNext
      exact ih isOrdered isNext (by omega)

end Finish

/-- **From every state reached the start can be finished**, unless a core has failed to report
within 2^32 polls. -/
theorem aps_finish (num : Nat) {state : State}
    (reached : Reaches (act num) always .initial state) (alive : ∀ i, state.boot ≠ .failed i) :
    ∃ final, Reaches (act num) always state final ∧ final.boot = .done ∧ final.Serial num := by
  have ordered := ordered_of_reaches reached
  have fromTransfer : ∀ (between : State) (i : Nat), between.Ordered num →
      between.boot = .transferNext i → Continues num (fun final => final.boot = .done) between :=
    fun _ _ isOrdered isNext => isOrdered.finishes_transfers isNext
  have fromBetween : ∀ between : State, between.Ordered num → between.boot = .between →
      Continues num (fun final => final.boot = .done) between := by
    intro between isOrdered place
    have stepped : act num between .boot = some { between with boot := .transferNext 1 } := by
      rw [act, bootStep, place]
    exact (fromTransfer _ 1 (isOrdered.keeps stepped) rfl).of_step stepped
  have fromStart : ∀ (between : State) (i : Nat), between.Ordered num →
      between.boot = .startNext i → Continues num (fun final => final.boot = .done) between :=
    fun _ _ isOrdered isNext => (isOrdered.finishes_start isNext).trans isOrdered fromBetween
  have done : Continues num (fun final => final.boot = .done) state := by
    cases place : state.boot with
    | startNext i => exact fromStart state i ordered place
    | starting i =>
        have stepped : act num state .boot = some { state with
            released := Function.update state.released i true, boot := .awaiting i 1 } := by
          rw [act, bootStep, place]
        have isOrdered := ordered.keeps stepped
        apply Continues.of_step _ stepped
        exact (isOrdered.finishes_core rfl).trans isOrdered fun between => fromStart between (i + 1)
    | awaiting i count =>
        exact (ordered.finishes_core place).trans ordered fun between => fromStart between (i + 1)
    | failed i => exact absurd place (alive i)
    | between => exact fromBetween state ordered place
    | transferNext i => exact fromTransfer state i ordered place
    | offering i =>
        have stepped : act num state .boot =
            some { state with syspageAvailable := i, boot := .transferring i } := by
          rw [act, bootStep, place]
        have isOrdered := ordered.keeps stepped
        apply Continues.of_step _ stepped
        exact (isOrdered.finishes_transfer rfl).trans isOrdered
          fun between => fromTransfer between (i + 1)
    | transferring i =>
        exact (ordered.finishes_transfer place).trans ordered
          fun between => fromTransfer between (i + 1)
    | done => exact ⟨state, .refl, place⟩
  obtain ⟨final, further, isDone⟩ := done
  exact ⟨final, further, isDone, aps_serial num (reached.trans further)⟩

/-- From where core 1 has set up its stack. -/
theorem aps_finish_two :
    ∃ state final, state.cores 1 = .stacked ∧ Reaches (act 2) always state final ∧
      final.boot = .done ∧ final.Serial 2 := by
  have reached : Reaches (act 2) always .initial _ :=
    @reaches_of_perform _ _ _ _ _ [.boot, .boot, .core 1, .core 1] rfl
  obtain ⟨final, finished⟩ := aps_finish 2 reached fun _ => nofun
  exact ⟨_, final, rfl, finished⟩

/-! ## Every address is taken once -/

/-- A core runs at an address. -/
def Core.runsAt (addr : BitVec 64) : Core → Bool
  | .running _ taken => taken = addr
  | _ => false

/-- How many of the cores run at an address. -/
def State.running (num : Nat) (state : State) (addr : BitVec 64) : Nat :=
  ((Finset.range num).filter fun cpu => (state.cores cpu).runsAt addr = true).card

/-- Whether an address waits in the word to be taken. -/
def State.waiting (state : State) (addr : BitVec 64) : Nat :=
  if state.startAddr = addr then 1 else 0

/-- What holds of `start_addr`. -/
structure State.Monitored (state : State) : Prop where
  /-- An exclusive monitor that is left stands for the address that was loaded. -/
  monitor : ∀ cpu number addr, state.cores cpu = .loaded number addr →
    state.reserved cpu = true → state.startAddr = addr
  /-- Before the shutdown no core takes -1. -/
  before : state.shutdown = false →
    state.startAddr ≠ -1 ∧ ∀ cpu number, state.cores cpu ≠ .returning number
  /-- After it -1 is in the word, or a core is about to store it there. -/
  later : state.shutdown = true → state.startAddr = -1 ∨
    state.startAddr = 0 ∧ ∃ cpu number, state.cores cpu = .returning number

/-- The boot CPU's steps leave the callout alone. -/
theorem bootStep_frame (stepped : bootStep num state = some after) :
    after.cores = state.cores ∧ after.startAddr = state.startAddr ∧
      after.reserved = state.reserved ∧ after.shutdown = state.shutdown := by
  unfold bootStep at stepped
  split at stepped
  case h_1 => split at stepped <;> cases stepped <;> exact ⟨rfl, rfl, rfl, rfl⟩
  case h_2 => cases stepped; exact ⟨rfl, rfl, rfl, rfl⟩
  case h_3 => split_ifs at stepped <;> cases stepped <;> exact ⟨rfl, rfl, rfl, rfl⟩
  case h_4 => cases stepped
  case h_5 => cases stepped; exact ⟨rfl, rfl, rfl, rfl⟩
  case h_6 => split at stepped <;> cases stepped <;> exact ⟨rfl, rfl, rfl, rfl⟩
  case h_7 => cases stepped; exact ⟨rfl, rfl, rfl, rfl⟩
  case h_8 => split at stepped <;> cases stepped <;> exact ⟨rfl, rfl, rfl, rfl⟩
  case h_9 => cases stepped

/-- A core that has put -1 back. -/
theorem coreStep_returning {number : Int} (isReturning : state.cores cpu = .returning number) :
    coreStep state cpu =
      { state.move cpu (.down number) with startAddr := -1, reserved := fun _ => false } := by
  unfold coreStep
  rw [isReturning]

/-- `start_addr` is stored by a core that puts -1 back, and by no other step of a core. -/
theorem coreStep_startAddr (state : State) (cpu : Nat) :
    (coreStep state cpu).startAddr = state.startAddr ∨
      ∃ number, state.cores cpu = .returning number := by
  unfold coreStep
  split
  case h_9 number isReturning => exact Or.inr ⟨number, isReturning⟩
  case h_7 =>
    left
    dsimp only
    split <;> rfl
  all_goals
    left
    (try split) <;> rfl

/-- A core's step leaves the monitors of the others. -/
theorem coreStep_reserved (state : State) (different : other ≠ cpu) :
    (coreStep state cpu).reserved other = state.reserved other ∨
      ∃ number, state.cores cpu = .returning number := by
  unfold coreStep
  split
  case h_9 number isReturning => exact Or.inr ⟨number, isReturning⟩
  case h_7 =>
    left
    dsimp only
    split <;> exact Function.update_of_ne different ..
  case h_8 =>
    left
    exact Function.update_of_ne different ..
  all_goals
    left
    (try split) <;> rfl

/-- No core is about to put -1 back after a step of its own. -/
theorem coreStep_ne_returning (state : State) (cpu : Nat) (number : Int) :
    (coreStep state cpu).cores cpu ≠ .returning number := by
  unfold coreStep
  cases place : state.cores cpu <;> dsimp only <;> (try split) <;> simp [place]

/-- A core that holds an address after a step of its own has loaded it just now. -/
theorem coreStep_loaded {number : Int} {addr : BitVec 64}
    (isLoaded : (coreStep state cpu).cores cpu = .loaded number addr) : state.startAddr = addr := by
  unfold coreStep at isLoaded
  cases place : state.cores cpu <;> rw [place] at isLoaded <;> dsimp only at isLoaded <;>
    (try split at isLoaded) <;> simp [place] at isLoaded
  exact isLoaded.2

/-- A core's step takes no address. -/
theorem coreStep_runsAt (state : State) (cpu other : Nat) (addr : BitVec 64) :
    ((coreStep state cpu).cores other).runsAt addr = (state.cores other).runsAt addr := by
  by_cases same : other = cpu
  · subst same
    unfold coreStep
    cases place : state.cores other <;> dsimp only <;> (try split) <;> simp [place, Core.runsAt]
  · rw [coreStep_other state same]

theorem zero_ne_down : (0 : BitVec 64) ≠ -1 := by decide

theorem State.Monitored.core (monitored : state.Monitored) (cpu : Nat) :
    (coreStep state cpu).Monitored := by
  by_cases returns : ∃ number, state.cores cpu = .returning number
  · obtain ⟨number, isReturning⟩ := returns
    have isShutdown : state.shutdown = true := by
      by_contra notShutdown
      exact (monitored.before (Bool.eq_false_of_not_eq_true notShutdown)).2 cpu number isReturning
    rw [coreStep_returning isReturning]
    exact ⟨fun _ _ _ _ isReserved => absurd isReserved Bool.false_ne_true,
      fun notShutdown => absurd (isShutdown.symm.trans notShutdown) (by decide),
      fun _ => Or.inl rfl⟩
  · have startAddr := (coreStep_startAddr state cpu).resolve_right returns
    refine ⟨?_, ?_, ?_⟩
    · intro other number addr isLoaded isReserved
      rw [startAddr]
      by_cases same : other = cpu
      · subst same
        exact coreStep_loaded isLoaded
      · rw [coreStep_other state same] at isLoaded
        rw [(coreStep_reserved state same).resolve_right returns] at isReserved
        exact monitored.monitor other number addr isLoaded isReserved
    · intro notShutdown
      rw [coreStep_shutdown] at notShutdown
      obtain ⟨notDown, noneReturns⟩ := monitored.before notShutdown
      refine ⟨by rw [startAddr]; exact notDown, fun other number => ?_⟩
      by_cases same : other = cpu
      · subst same
        exact coreStep_ne_returning state other number
      · rw [coreStep_other state same]
        exact noneReturns other number
    · intro isShutdown
      rw [coreStep_shutdown] at isShutdown
      rw [startAddr]
      refine (monitored.later isShutdown).imp_right fun ⟨isZero, other, number, isReturning⟩ => ?_
      have different : other ≠ cpu := by
        rintro rfl
        exact returns ⟨number, isReturning⟩
      exact ⟨isZero, other, number, (coreStep_other state different).trans isReturning⟩

theorem State.Monitored.exchange (monitored : state.Monitored)
    (stepped : exchange state cpu = some after) : after.Monitored := by
  obtain ⟨number, addr, isLoaded, isReserved, rfl⟩ := exchange_eq_some stepped
  have isWord := monitored.monitor cpu number addr isLoaded isReserved
  refine ⟨fun _ _ _ _ isReserved => absurd isReserved Bool.false_ne_true, ?_, ?_⟩
  · intro notShutdown
    obtain ⟨notDown, noneReturns⟩ := monitored.before notShutdown
    rw [isWord] at notDown
    refine ⟨zero_ne_down, fun other returned => ?_⟩
    dsimp only
    rw [if_neg notDown]
    by_cases same : other = cpu
    · subst same
      rw [move_cores_self]
      exact nofun
    · rw [move_cores_of_ne same]
      exact noneReturns other returned
  · intro isShutdown
    rcases monitored.later isShutdown with isDown | ⟨isZero, other, returned, isReturning⟩
    · rw [isWord] at isDown
      refine Or.inr ⟨rfl, cpu, number, ?_⟩
      dsimp only
      rw [if_pos isDown, move_cores_self]
    · have different : other ≠ cpu := by
        rintro rfl
        cases isLoaded.symm.trans isReturning
      exact Or.inr ⟨rfl, other, returned, (move_cores_of_ne different).trans isReturning⟩

theorem State.Monitored.kernel {addr : BitVec 64} (monitored : state.Monitored)
    (stepped : kernelStore state addr = some after) : after.Monitored := by
  obtain ⟨⟨_, _, _, notShutdown⟩, rfl⟩ := kernelStore_eq_some stepped
  refine ⟨fun _ _ _ _ isReserved => absurd isReserved Bool.false_ne_true, ?_, ?_⟩
  · intro still
    exact ⟨of_decide_eq_false still, (monitored.before notShutdown).2⟩
  · intro isDown
    exact Or.inl (of_decide_eq_true isDown)

theorem State.Monitored.keeps {action : Act} (monitored : state.Monitored)
    (stepped : act num state action = some after) : after.Monitored := by
  cases action with
  | boot =>
      obtain ⟨cores, startAddr, reserved, shutdown⟩ := bootStep_frame stepped
      refine ⟨?_, ?_, ?_⟩
      · rw [cores, startAddr, reserved]
        exact monitored.monitor
      · rw [cores, startAddr, shutdown]
        exact monitored.before
      · rw [cores, startAddr, shutdown]
        exact monitored.later
  | core cpu =>
      cases stepped
      exact monitored.core cpu
  | exchange cpu => exact monitored.exchange stepped
  | kernel addr => exact monitored.kernel stepped

theorem initial_monitored : State.initial.Monitored where
  monitor _ _ _ _ isReserved := absurd isReserved Bool.false_ne_true
  before _ := ⟨zero_ne_down, fun _ _ => nofun⟩
  later isShutdown := absurd isShutdown Bool.false_ne_true

/-! ### Addresses stored and taken -/

/-- The boot CPU waits for a core that there is. -/
theorem State.Words.current_lt (words : state.Words num)
    (isCurrent : state.boot.current = some cpu) : cpu < num := by
  unfold State.Words at words
  cases place : state.boot with
  | awaiting i count | failed i | transferring i =>
      rw [place] at isCurrent words
      cases isCurrent
      exact words.2.1
  | startNext i | starting i | between | transferNext i | offering i | done =>
      rw [place] at isCurrent
      cases isCurrent

/-- The boot CPU lets no core go that is not there. -/
theorem State.Words.transferred_le (words : state.Words num) :
    state.boot.transferred num ≤ max 1 num := by
  unfold State.Words at words
  cases place : state.boot with
  | transferNext i =>
      rw [place] at words
      exact words.2.1
  | offering i | transferring i =>
      rw [place] at words
      exact words.2.1.le.trans (le_max_right ..)
  | done => exact le_max_right ..
  | startNext i | starting i | awaiting i count | failed i | between => exact le_max_left ..

/-- A core in `smp_spin` is one of those that were started. -/
theorem State.Ordered.lt_of_inSpin (ordered : state.Ordered num)
    (inSpin : (state.cores cpu).inSpin = true) : cpu < num := by
  have isAt := ordered.cores cpu
  cases isStage : state.boot.stage num cpu with
  | parked =>
      rw [isStage] at isAt
      rw [isAt.1] at inSpin
      cases inSpin
  | starting => exact ordered.words.current_lt (stage_moving (Or.inl isStage))
  | reported =>
      rw [isStage] at isAt
      have isReported : state.cores cpu = .reported cpu := isAt
      rw [isReported] at inSpin
      cases inSpin
  | transferring => exact ordered.words.current_lt (stage_moving (Or.inr isStage))
  | spinning =>
      by_cases moves : state.boot.current = some cpu
      · exact ordered.words.current_lt moves
      · have most := ordered.words.transferred_le
        unfold Boot.stage at isStage
        split_ifs at isStage with boots less
        omega

/-- A core that takes an address runs there. -/
theorem running_move {number : Int} {addr : BitVec 64} {word : BitVec 64} {monitors : Nat → Bool}
    (started : cpu < num) (waits : (state.cores cpu).runsAt addr = false) :
    State.running num { state.move cpu (.running number addr) with
      startAddr := word, reserved := monitors } addr = state.running num addr + 1 := by
  have others : ((Finset.range num).filter fun core =>
      ((state.move cpu (.running number addr)).cores core).runsAt addr = true) =
        insert cpu
          ((Finset.range num).filter fun core => (state.cores core).runsAt addr = true) := by
    ext core
    simp only [Finset.mem_filter, Finset.mem_insert, Finset.mem_range]
    by_cases same : core = cpu
    · subst same
      rw [move_cores_self]
      exact iff_of_true ⟨started, decide_eq_true rfl⟩ (Or.inl rfl)
    · rw [move_cores_of_ne same, or_iff_right same]
  have missing : cpu ∉ (Finset.range num).filter fun core =>
      (state.cores core).runsAt addr = true := by
    intro member
    exact Bool.false_ne_true (waits.symm.trans (Finset.mem_filter.mp member).2)
  exact (congrArg Finset.card others).trans (Finset.card_insert_of_notMem missing)

/-- A core that does not run at an address and goes elsewhere. -/
theorem running_move_of_not {addr : BitVec 64} {word : BitVec 64} {monitors : Nat → Bool}
    (waits : (state.cores cpu).runsAt addr = false) (elsewhere : place.runsAt addr = false) :
    State.running num { state.move cpu place with startAddr := word, reserved := monitors } addr =
      state.running num addr := by
  apply congrArg Finset.card
  apply Finset.filter_congr
  intro core _
  by_cases same : core = cpu
  · subst same
    dsimp only
    rw [move_cores_self, waits, elsewhere]
  · dsimp only
    rw [move_cores_of_ne same]

/-- An address is neither lost nor doubled by a step. -/
theorem held_step {action : Act} {addr : BitVec 64} (ordered : state.Ordered num)
    (monitored : state.Monitored) (stepped : act num state action = some after)
    (nonzero : addr ≠ 0) (isAddress : addr ≠ -1) :
    after.running num addr + after.waiting addr =
      state.running num addr + state.waiting addr + if action = .kernel addr then 1 else 0 := by
  cases action with
  | boot =>
      obtain ⟨cores, startAddr, _⟩ := bootStep_frame stepped
      have other : Act.boot ≠ .kernel addr := nofun
      rw [if_neg other, State.running, State.waiting, cores, startAddr]
      rfl
  | core cpu =>
      cases stepped
      have other : Act.core cpu ≠ .kernel addr := nofun
      rw [if_neg other, State.running, State.running, Nat.add_zero]
      simp only [coreStep_runsAt]
      congr 1
      rcases coreStep_startAddr state cpu with same | ⟨number, isReturning⟩
      · rw [State.waiting, same]
        rfl
      · have isShutdown : state.shutdown = true := by
          by_contra notShutdown
          exact (monitored.before (Bool.eq_false_of_not_eq_true notShutdown)).2 cpu number
            isReturning
        rw [coreStep_returning isReturning, State.waiting, State.waiting, if_neg isAddress.symm]
        rcases monitored.later isShutdown with isDown | ⟨isZero, _⟩
        · rw [isDown, if_neg isAddress.symm]
        · rw [isZero, if_neg nonzero.symm]
  | exchange cpu =>
      obtain ⟨number, taken, isLoaded, isReserved, rfl⟩ := exchange_eq_some stepped
      have isWord := monitored.monitor cpu number taken isLoaded isReserved
      have other : Act.exchange cpu ≠ .kernel addr := nofun
      have emptied : ∀ place : Core, State.waiting
          { state.move cpu place with startAddr := 0, reserved := fun _ => false } addr = 0 :=
        fun _ => if_neg nonzero.symm
      rw [if_neg other, Nat.add_zero, emptied, Nat.add_zero]
      by_cases isTaken : taken = addr
      · subst isTaken
        rw [if_neg isAddress, State.waiting, if_pos isWord]
        exact running_move (ordered.lt_of_inSpin (by rw [isLoaded]; rfl)) (by rw [isLoaded]; rfl)
      · rw [State.waiting, isWord, if_neg isTaken, Nat.add_zero]
        apply running_move_of_not
        · rw [isLoaded]
          rfl
        · split
          · rfl
          · exact decide_eq_false isTaken
  | kernel stored =>
      obtain ⟨⟨_, isZero, _, _⟩, rfl⟩ := kernelStore_eq_some stepped
      have empty : state.waiting addr = 0 := by
        rw [State.waiting, isZero, if_neg nonzero.symm]
      rw [empty, Nat.add_zero, State.waiting]
      congr 1
      by_cases same : stored = addr
      · rw [if_pos same, if_pos (congrArg Act.kernel same)]
      · rw [if_neg same, if_neg fun isAct => same (Act.kernel.inj isAct)]

/-- A run neither loses nor doubles an address. -/
theorem held_perform {actions : List Act} {addr : BitVec 64} (ordered : state.Ordered num)
    (monitored : state.Monitored) (performed : perform (act num) state actions = some after)
    (nonzero : addr ≠ 0) (isAddress : addr ≠ -1) :
    after.running num addr + after.waiting addr =
      state.running num addr + state.waiting addr + actions.count (.kernel addr) := by
  induction actions generalizing state with
  | nil =>
      cases performed
      rfl
  | cons action actions ih =>
      obtain ⟨middle, stepped, rest⟩ := Option.bind_eq_some_iff.mp performed
      rw [ih (ordered.keeps stepped) (monitored.keeps stepped) rest,
        held_step ordered monitored stepped nonzero isAddress, List.count_cons]
      simp only [beq_iff_eq]
      omega

/-- The kernel shuts down when it stores -1. -/
theorem shutdown_step {action : Act} (stepped : act num state action = some after) :
    after.shutdown = true ↔ state.shutdown = true ∨ action = .kernel (-1) := by
  cases action with
  | boot =>
      rw [(bootStep_frame stepped).2.2.2]
      exact (or_iff_left nofun).symm
  | core cpu =>
      cases stepped
      rw [coreStep_shutdown]
      exact (or_iff_left nofun).symm
  | exchange cpu =>
      obtain ⟨_, _, _, _, rfl⟩ := exchange_eq_some stepped
      exact (or_iff_left nofun).symm
  | kernel stored =>
      obtain ⟨⟨_, _, _, notShutdown⟩, rfl⟩ := kernelStore_eq_some stepped
      rw [notShutdown, or_iff_right Bool.false_ne_true, Act.kernel.injEq]
      exact decide_eq_true_iff

theorem shutdown_perform {actions : List Act}
    (performed : perform (act num) state actions = some after) :
    after.shutdown = true ↔ state.shutdown = true ∨ Act.kernel (-1) ∈ actions := by
  induction actions generalizing state with
  | nil =>
      cases performed
      exact (or_iff_left List.not_mem_nil).symm
  | cons action actions ih =>
      obtain ⟨middle, stepped, rest⟩ := Option.bind_eq_some_iff.mp performed
      rw [ih rest, shutdown_step stepped, List.mem_cons, or_assoc, @eq_comm _ action]

theorem monitored_of_reaches (reached : Reaches (act num) always .initial state) :
    state.Monitored :=
  reached.invariant State.Monitored initial_monitored
    fun _ _ _ monitored _ stepped => monitored.keeps stepped

/-- **Every address that the kernel stores is taken by one core**, and its request to shut down
stays for all of them. -/
theorem start_addr_once (num : Nat) {actions : List Act} {state : State}
    (performed : perform (act num) .initial actions = some state) :
    (∀ addr, addr ≠ 0 → addr ≠ -1 →
        state.running num addr + state.waiting addr = actions.count (.kernel addr)) ∧
      (Act.kernel (-1) ∈ actions →
        state.startAddr = -1 ∨ ∃ cpu number, state.cores cpu = .returning number) := by
  refine ⟨fun addr nonzero isAddress => ?_, fun isStored => ?_⟩
  · have held := held_perform (initial_ordered num) initial_monitored performed nonzero isAddress
    have none_runs : State.initial.running num addr = 0 := by
      rw [State.running, Finset.card_eq_zero]
      exact Finset.filter_false_of_mem fun _ _ => nofun
    have none_waits : State.initial.waiting addr = 0 := if_neg nonzero.symm
    rw [held, none_runs, none_waits, Nat.zero_add]
  · have isShutdown := (shutdown_perform performed).mpr (Or.inr isStored)
    have monitored := monitored_of_reaches (reaches_of_perform performed)
    exact (monitored.later isShutdown).imp_right And.right

/-- The start of one core, to which the kernel then gives an address. -/
def oneStart : List Act :=
  [.boot, .boot, .core 1, .core 1, .core 1, .core 1, .boot, .boot, .boot, .boot, .boot, .core 1,
    .core 1, .boot, .boot, .kernel 0x80000, .core 1, .exchange 1]

theorem start_addr_once_one :
    ∃ state, perform (act 2) .initial oneStart = some state ∧
      state.running 2 0x80000 + state.waiting 0x80000 = 1 := by
  have performed : perform (act 2) .initial oneStart = some _ := rfl
  have held := (start_addr_once 2 performed).1 0x80000 (by decide) (by decide)
  exact ⟨_, performed, held.trans (by decide)⟩

end Bcm2711.Startup.Smp
