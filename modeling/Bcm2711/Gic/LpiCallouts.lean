import Bcm2711.Lib.Actions
import Bcm2711.Lib.Exclusive
import Bcm2711.Lib.Ring

/-! # Masking LPIs from several CPUs

The mask and unmask callouts for LPIs change the table of the configurations and queue commands to
the ITS, so that the redistributors look at the table again.  A spin lock keeps them apart; they do
not look at `GITS_CREADR`, so that it is up to the ITS to leave room in the queue.
-/

namespace Bcm2711.Gic.Lpi

open Actions Exclusive

/-! ## The callouts and the ITS -/

/-- The four words of a command. -/
structure Command where
  first : BitVec 64
  second : BitVec 64
  third : BitVec 64
  fourth : BitVec 64
deriving DecidableEq, Repr

/-- INVALL for a collection. -/
def invall (icid : BitVec 64) : Command := ⟨0xD, 0, icid, 0⟩

/-- SYNC for a redistributor. -/
def sync (rdbase : BitVec 64) : Command := ⟨0x5, 0, rdbase, 0⟩

/-- What the callouts are patched with, and the collections of the LPIs. -/
structure Its where
  /-- The slots of the queue. -/
  slots : Nat
  /-- `cmd_q_last_offset`. -/
  lastOffset : Nat
  lastSlot : lastOffset + 32 = 32 * slots
  rdbase : BitVec 64
  rdbaseOffset : BitVec 64
  numCollections : Nat
  oneAtLeast : 0 < numCollections
  vecOff : Nat
  collection : Nat → BitVec 64

/-- A call: whether it masks, and the vector. -/
structure Op where
  mask : Bool
  vector : Nat
deriving DecidableEq, Repr

/-- Where a CPU is in a callout. -/
inductive Place where
  | out
  /-- At the `ldaxr`. -/
  | locking (op : Op)
  /-- The lock was read, and is tested and taken next. -/
  | loaded (op : Op) (w1 : BitVec 32)
  /-- The lock is held, and the byte of the table is read next. -/
  | locked (op : Op)
  | byteRead (op : Op) (w2 : BitVec 8)
  /-- The byte is stored, and `GITS_CWRITER` is read next. -/
  | configured
  /-- At the INVALL of a round. -/
  | invall (x3 x5 : Nat) (x11 : BitVec 64)
  /-- At the SYNC of a round. -/
  | sync (x3 x5 : Nat) (x11 : BitVec 64)
  /-- All commands are stored, and `GITS_CWRITER` is written next. -/
  | queued (x3 : Nat)
  /-- The lock is released next. -/
  | published
deriving DecidableEq, Repr

/-- The CPUs, what they share, and the ITS with what it has done. -/
structure State where
  cores : Nat → Place
  lock : Word Nat (BitVec 32)
  /-- The table of the configurations. -/
  config : Nat → BitVec 8
  /-- The commands, by the offsets at which they begin. -/
  queue : Nat → Command
  cwriter : Nat
  creadr : Nat
  /-- The configurations as the redistributors have them. -/
  cached : Nat → BitVec 8
  /-- The commands that were executed. -/
  executed : List Command
  /-- The changes of the table. -/
  changes : List Op

/-- A CPU moves on. -/
def State.move (state : State) (cpu : Nat) (place : Place) : State :=
  { state with cores := Function.update state.cores cpu place }

/-- The byte of a configuration when its interrupt is masked or unmasked. -/
def Op.byte (op : Op) (w2 : BitVec 8) : BitVec 8 := if op.mask then w2 &&& 0xfe else w2 ||| 1

namespace Its

/-- The byte of a vector in the table. -/
def index (its : Its) (op : Op) : Nat := op.vector + its.vecOff

/-- The offset behind a command. -/
def advance (its : Its) (x3 : Nat) : Nat := if x3 + 32 ≤ its.lastOffset then x3 + 32 else 0

/-- A step of a callout, other than the exclusive store that takes the lock. -/
def coreStep (its : Its) (state : State) (cpu : Nat) : Option State :=
  match state.cores cpu with
  | .out => none
  | .locking op =>
      some { state.move cpu (.loaded op state.lock.value) with lock := state.lock.load cpu }
  | .loaded op w1 =>
      if w1 ≠ 0 then some (state.move cpu (.locking op))
      else some { state.move cpu (.locking op) with lock := state.lock.lose cpu }
  | .locked op => some (state.move cpu (.byteRead op (state.config (its.index op))))
  | .byteRead op w2 =>
      some { state.move cpu .configured with
        config := Function.update state.config (its.index op) (op.byte w2)
        changes := state.changes ++ [op] }
  | .configured => some (state.move cpu (.invall state.cwriter its.numCollections its.rdbase))
  | .invall x3 x5 x11 =>
      some { state.move cpu (.sync (its.advance x3) x5 x11) with
        queue := Function.update state.queue x3
          (Lpi.invall (BitVec.ofNat 64 (its.numCollections - x5))) }
  | .sync x3 x5 x11 =>
      let next := its.advance x3
      let place : Place :=
        if x5 - 1 ≠ 0 then .invall next (x5 - 1) (x11 + its.rdbaseOffset) else .queued next
      some { state.move cpu place with
        queue := Function.update state.queue x3 (Lpi.sync x11) }
  | .queued x3 => some { state.move cpu .published with cwriter := x3 }
  | .published => some { state.move cpu .out with lock := state.lock.store 0 }

/-- The exclusive store of 1 to the lock goes through. -/
def acquire (state : State) (cpu : Nat) : Option State :=
  match state.cores cpu with
  | .loaded op w1 =>
      if w1 = 0 ∧ state.lock.monitored cpu then
        some { state.move cpu (.locked op) with lock := state.lock.store 1 }
      else none
  | _ => none

/-- A command is executed: after INVALL the redistributors have the configurations of the collection
as they are in the table. -/
def executeOne (its : Its) (state : State) : State :=
  let command := state.queue state.creadr
  { state with
    creadr := its.advance state.creadr
    executed := state.executed ++ [command]
    cached := fun lpi =>
      if command.first = 0xD ∧ its.collection lpi = command.third then state.config lpi
      else state.cached lpi }

/-- The ITS executes a command if there is one. -/
def execute (its : Its) (state : State) : Option State :=
  if state.creadr = state.cwriter then none else some (its.executeOne state)

/-- Whose step it is. -/
inductive Act where
  | call (cpu : Nat) (op : Op)
  | core (cpu : Nat)
  | acquire (cpu : Nat)
  /-- The monitor of a CPU is cleared. -/
  | lose (cpu : Nat)
  | execute
  /-- A redistributor reads a configuration by itself. -/
  | fetch (lpi : Nat)
deriving DecidableEq, Repr

/-- The steps of the CPUs and of the ITS. -/
def act (its : Its) (state : State) : Act → Option State
  | .call cpu op =>
      if state.cores cpu = .out then some (state.move cpu (.locking op)) else none
  | .core cpu => its.coreStep state cpu
  | .acquire cpu => acquire state cpu
  | .lose cpu => some { state with lock := state.lock.lose cpu }
  | .execute => its.execute state
  | .fetch lpi =>
      some { state with cached := Function.update state.cached lpi (state.config lpi) }

end Its

/-- The offset of the slot that a CPU stores to. -/
def Place.storesAt : Place → Option Nat
  | .invall x3 _ _ => some x3
  | .sync x3 _ _ => some x3
  | _ => none

/-- The ITS has left room for the command that is stored. -/
def Its.Room (its : Its) (state : State) : Its.Act → Prop
  | .core cpu => ∀ x3 ∈ (state.cores cpu).storesAt, its.advance x3 ≠ state.creadr
  | _ => True

/-- Nobody is in a callout, and the queue is empty. -/
structure State.Idle (its : Its) (state : State) : Prop where
  cores : ∀ cpu, state.cores cpu = .out
  lock : state.lock = Word.fresh 0
  empty : state.creadr = state.cwriter
  slot : ∃ slot < its.slots, state.cwriter = 32 * slot
  executed : state.executed = []
  changes : state.changes = []
  cached : state.cached = state.config

/-! ## What the callouts keep -/

/-- The lock is held. -/
def Place.inside : Place → Bool
  | .out => false
  | .locking _ => false
  | .loaded _ _ => false
  | _ => true

/-- The table is changed, and the commands are not queued. -/
def Place.writing : Place → Bool
  | .configured => true
  | .invall _ _ _ => true
  | .sync _ _ _ => true
  | .queued _ => true
  | _ => false

/-- The offset behind the commands that are stored. -/
def Place.behind : Place → Option Nat
  | .invall x3 _ _ => some x3
  | .sync x3 _ _ => some x3
  | .queued x3 => some x3
  | _ => none

/-- What was read of the lock. -/
def Place.seen : Place → Option (BitVec 32)
  | .loaded _ w1 => some w1
  | _ => none

/-- The commands for the last so many collections. -/
def Its.batch (its : Its) : Nat → BitVec 64 → List Command
  | 0, _ => []
  | x5 + 1, x11 =>
      invall (BitVec.ofNat 64 (its.numCollections - (x5 + 1))) :: sync x11 ::
        its.batch x5 (x11 + its.rdbaseOffset)

/-- The commands of one callout. -/
def Its.commands (its : Its) : List Command := its.batch its.numCollections its.rdbase

/-- The commands that a CPU is still to store. -/
def Its.rest (its : Its) : Place → List Command
  | .invall _ x5 x11 => its.batch x5 x11
  | .sync _ x5 x11 => sync x11 :: its.batch (x5 - 1) (x11 + its.rdbaseOffset)
  | _ => []

/-- The commands from one slot on. -/
def State.commandsFrom (its : Its) (state : State) (slot count : Nat) : List Command :=
  Ring.contents (fun slot => state.queue (32 * slot)) its.slots slot count

/-- One byte of the table changes. -/
def Its.apply (its : Its) (config : Nat → BitVec 8) (op : Op) : Nat → BitVec 8 :=
  Function.update config (its.index op) (op.byte (config (its.index op)))

/-- What holds in every state: the ITS is to read so many commands from a slot on. -/
structure State.Keeps (its : Its) (first : Nat → BitVec 8) (state : State) (slot count : Nat) :
    Prop where
  excluded : state.lock.value = 0 ∧ (∀ cpu, (state.cores cpu).inside = false) ∨
    state.lock.value = 1 ∧ ∃ holder, ∀ cpu, (state.cores cpu).inside = true ↔ cpu = holder
  agrees : state.lock.Agrees fun cpu => (state.cores cpu).seen
  read : ∀ cpu op w2, state.cores cpu = .byteRead op w2 → w2 = state.config (its.index op)
  config : state.config = state.changes.foldl its.apply first
  slotInside : slot < its.slots
  countInside : count < its.slots
  creadr : state.creadr = 32 * slot
  cwriter : state.cwriter = 32 * Ring.slot its.slots slot count
  whole : ∃ calls, state.executed ++ state.commandsFrom its slot count =
    (List.replicate calls its.commands).flatten
  rounds : ∀ cpu x3 x5 x11, state.cores cpu = .invall x3 x5 x11 → x5 ≠ 0
  storing : ∀ cpu, ∀ x3 ∈ (state.cores cpu).behind, ∃ stored, count + stored < its.slots ∧
    x3 = 32 * Ring.slot its.slots slot (count + stored) ∧
    state.commandsFrom its (Ring.slot its.slots slot count) stored ++ its.rest (state.cores cpu) =
      its.commands
  cached : ∀ lpi, (its.collection lpi).toNat < its.numCollections →
    state.cached lpi = state.config lpi ∨
      invall (its.collection lpi) ∈ state.commandsFrom its slot count ∨
      ∃ cpu, (state.cores cpu).writing = true

variable {its : Its} {first : Nat → BitVec 8} {state after : State} {slot count cpu other : Nat}
  {place : Place} {op : Op}

@[simp] theorem move_cores_self : (state.move cpu place).cores cpu = place :=
  Function.update_self ..

theorem move_cores_of_ne (different : other ≠ cpu) :
    (state.move cpu place).cores other = state.cores other := Function.update_of_ne different ..

/-! ### Offsets -/

/-- Behind a slot comes the next one. -/
theorem advance_slot (inside : slot < its.slots) :
    its.advance (32 * slot) = 32 * Ring.slot its.slots slot 1 := by
  have lastSlot := its.lastSlot
  rw [Its.advance, Ring.slot_one_eq inside]
  split_ifs <;> omega

theorem advance_place (inside : slot < its.slots) (count : Nat) :
    its.advance (32 * Ring.slot its.slots slot count) =
      32 * Ring.slot its.slots slot (count + 1) := by
  rw [advance_slot (Ring.slot_lt (Nat.zero_lt_of_lt inside)), Ring.slot_slot]

/-- The commands behind a change of one slot. -/
theorem update_slots (queue : Nat → Command) (slot : Nat) (command : Command) :
    (fun place => Function.update queue (32 * slot) command (32 * place)) =
      Function.update (fun place => queue (32 * place)) slot command := by
  funext place
  by_cases same : place = slot
  · subst same
    rw [Function.update_self, Function.update_self]
  · rw [Function.update_of_ne same, Function.update_of_ne]
    omega

/-! ### Places -/

theorem behind_of_outside (outside : place.inside = false) : place.behind = none := by
  cases place <;> first | rfl | cases outside

theorem writing_of_outside (outside : place.inside = false) : place.writing = false := by
  cases place <;> first | rfl | cases outside

/-- Where a CPU has the lock, the others are outside. -/
theorem State.Keeps.alone (keeps : state.Keeps its first slot count)
    (inside : (state.cores cpu).inside = true) (different : other ≠ cpu) :
    (state.cores other).inside = false := by
  rcases keeps.excluded with ⟨_, free⟩ | ⟨_, holder, only⟩
  · exact free other
  · by_contra otherInside
    have here := (only cpu).mp inside
    have there := (only other).mp (Bool.eq_true_of_not_eq_false otherInside)
    exact different (there.trans here.symm)

/-- The lock is held where a CPU is inside. -/
theorem State.Keeps.held (keeps : state.Keeps its first slot count)
    (inside : (state.cores cpu).inside = true) :
    state.lock.value = 1 ∧ ∀ other, (state.cores other).inside = true ↔ other = cpu := by
  rcases keeps.excluded with ⟨_, free⟩ | ⟨held, holder, only⟩
  · exact absurd ((free cpu).symm.trans inside) Bool.false_ne_true
  · obtain rfl := (only cpu).mp inside
    exact ⟨held, only⟩

/-- What holds of a place holds of the places when a CPU has moved there. -/
theorem forall_move {holds : Nat → Place → Prop} (here : holds cpu place)
    (others : ∀ other, other ≠ cpu → holds other (state.cores other)) (other : Nat) :
    holds other ((state.move cpu place).cores other) :=
  (Function.forall_update_iff state.cores holds).mpr ⟨here, others⟩ other

/-- A CPU moves on at the lock, with nothing read of the table and nothing stored in the queue. -/
theorem State.Keeps.at_lock (keeps : state.Keeps its first slot count)
    {lock : Word Nat (BitVec 32)} (before : (state.cores cpu).writing = false)
    (behind : place.behind = none) (notRead : ∀ op w2, place ≠ .byteRead op w2)
    (excluded : lock.value = 0 ∧ (∀ other, ((state.move cpu place).cores other).inside = false) ∨
      lock.value = 1 ∧ ∃ holder, ∀ other,
        ((state.move cpu place).cores other).inside = true ↔ other = holder)
    (agrees : lock.Agrees fun other => ((state.move cpu place).cores other).seen) :
    ({ state.move cpu place with lock := lock } : State).Keeps its first slot count where
  excluded := excluded
  agrees := agrees
  read := @forall_move state cpu place (fun _ place => ∀ op w2, place = .byteRead op w2 →
      w2 = state.config (its.index op)) (fun op w2 same => absurd same (notRead op w2))
      fun other _ => keeps.read other
  config := keeps.config
  slotInside := keeps.slotInside
  countInside := keeps.countInside
  creadr := keeps.creadr
  cwriter := keeps.cwriter
  whole := keeps.whole
  rounds := by
    refine @forall_move state cpu place (fun _ place => ∀ x3 x5 x11, place = .invall x3 x5 x11 →
      x5 ≠ 0) ?_ fun other _ => keeps.rounds other
    rintro x3 x5 x11 rfl
    cases behind
  storing := by
    refine @forall_move state cpu place (fun _ place => ∀ x3 ∈ place.behind, ∃ stored,
      count + stored < its.slots ∧ x3 = 32 * Ring.slot its.slots slot (count + stored) ∧
      state.commandsFrom its (Ring.slot its.slots slot count) stored ++ its.rest place =
        its.commands) ?_ fun other _ => keeps.storing other
    rw [behind]
    rintro x3 none
    cases none
  cached := by
    intro lpi covered
    rcases keeps.cached lpi covered with same | queued | ⟨writer, writing⟩
    · exact Or.inl same
    · exact Or.inr (Or.inl queued)
    · refine Or.inr (Or.inr ⟨writer, ?_⟩)
      have different : writer ≠ cpu := by
        rintro rfl
        rw [before] at writing
        cases writing
      change ((state.move cpu place).cores writer).writing = true
      rw [move_cores_of_ne different]
      exact writing

/-- A CPU moves on outside of the lock. -/
theorem State.Keeps.outside (keeps : state.Keeps its first slot count)
    (before : (state.cores cpu).inside = false) (behind : place.inside = false)
    {lock : Word Nat (BitVec 32)} (value : lock.value = state.lock.value)
    (agrees : lock.Agrees fun other => ((state.move cpu place).cores other).seen) :
    ({ state.move cpu place with lock := lock } : State).Keeps its first slot count := by
  refine keeps.at_lock (writing_of_outside before) (behind_of_outside behind) ?_ ?_ agrees
  · rintro op w2 rfl
    cases behind
  · rcases keeps.excluded with ⟨zero, free⟩ | ⟨one, holder, only⟩
    · exact Or.inl ⟨value.trans zero, @forall_move state cpu place
        (fun _ place => place.inside = false) behind fun other _ => free other⟩
    · refine Or.inr ⟨value.trans one, holder, @forall_move state cpu place
        (fun other place => place.inside = true ↔ other = holder) ?_ fun other _ => only other⟩
      refine iff_of_false (by rw [behind]; exact Bool.false_ne_true) ?_
      rintro rfl
      exact Bool.false_ne_true (before.symm.trans ((only cpu).mpr rfl))

/-- The CPU that has the lock moves on and keeps it: what is left to show is about this CPU and the
words it stores. -/
theorem State.Keeps.within {later : Nat} (keeps : state.Keeps its first slot count)
    (before : (state.cores cpu).inside = true) (inside : place.inside = true)
    (cores : after.cores = (state.move cpu place).cores) (lock : after.lock = state.lock)
    (read : ∀ op w2, place = .byteRead op w2 → w2 = after.config (its.index op))
    (config : after.config = after.changes.foldl its.apply first)
    (creadr : after.creadr = state.creadr) (laterInside : later < its.slots)
    (cwriter : after.cwriter = 32 * Ring.slot its.slots slot later)
    (whole : ∃ calls, after.executed ++ after.commandsFrom its slot later =
      (List.replicate calls its.commands).flatten)
    (rounds : ∀ x3 x5 x11, place = .invall x3 x5 x11 → x5 ≠ 0)
    (storing : ∀ x3 ∈ place.behind, ∃ stored, later + stored < its.slots ∧
      x3 = 32 * Ring.slot its.slots slot (later + stored) ∧
      after.commandsFrom its (Ring.slot its.slots slot later) stored ++ its.rest place =
        its.commands)
    (cached : ∀ lpi, (its.collection lpi).toNat < its.numCollections →
      after.cached lpi = after.config lpi ∨
        invall (its.collection lpi) ∈ after.commandsFrom its slot later ∨
        place.writing = true) :
    after.Keeps its first slot later where
  excluded := by
    obtain ⟨held, only⟩ := keeps.held before
    rw [cores, lock]
    exact Or.inr ⟨held, cpu, @forall_move state cpu place
      (fun other place => place.inside = true ↔ other = cpu) (iff_of_true inside rfl)
      fun other _ => only other⟩
  agrees := by
    rw [cores, lock]
    refine keeps.agrees.forget ?_
    refine @forall_move state cpu place
      (fun other place => place.seen = none ∨ place.seen = (state.cores other).seen) (Or.inl ?_)
      fun other _ => Or.inr rfl
    cases place <;> first | rfl | cases inside
  read := by
    rw [cores]
    refine @forall_move state cpu place (fun _ place => ∀ op w2, place = .byteRead op w2 →
      w2 = after.config (its.index op)) read ?_
    intro other different op w2 isRead
    have outside := keeps.alone before different
    rw [isRead] at outside
    cases outside
  config := config
  slotInside := keeps.slotInside
  countInside := laterInside
  creadr := creadr.trans keeps.creadr
  cwriter := cwriter
  whole := whole
  rounds := by
    rw [cores]
    exact @forall_move state cpu place (fun _ place => ∀ x3 x5 x11, place = .invall x3 x5 x11 →
      x5 ≠ 0) rounds fun other _ => keeps.rounds other
  storing := by
    rw [cores]
    refine @forall_move state cpu place (fun _ place => ∀ x3 ∈ place.behind, ∃ stored,
      later + stored < its.slots ∧ x3 = 32 * Ring.slot its.slots slot (later + stored) ∧
      after.commandsFrom its (Ring.slot its.slots slot later) stored ++ its.rest place =
        its.commands) storing ?_
    intro other different
    rw [behind_of_outside (keeps.alone before different)]
    rintro x3 none
    cases none
  cached := by
    intro lpi covered
    rcases cached lpi covered with same | queued | writing
    · exact Or.inl same
    · exact Or.inr (Or.inl queued)
    · refine Or.inr (Or.inr ⟨cpu, ?_⟩)
      rw [cores, move_cores_self]
      exact writing

/-- Where the table does not change, an LPI that waits for the CPU that has the lock goes on waiting
for it. -/
theorem State.Keeps.cached_here (keeps : state.Keeps its first slot count)
    (inside : (state.cores cpu).inside = true) {lpi : Nat}
    (covered : (its.collection lpi).toNat < its.numCollections) :
    state.cached lpi = state.config lpi ∨
      invall (its.collection lpi) ∈ state.commandsFrom its slot count ∨
      (state.cores cpu).writing = true := by
  rcases keeps.cached lpi covered with same | queued | ⟨writer, writing⟩
  · exact Or.inl same
  · exact Or.inr (Or.inl queued)
  · by_cases here : writer = cpu
    · exact Or.inr (Or.inr (here ▸ writing))
    · rw [writing_of_outside (keeps.alone inside here)] at writing
      cases writing

/-- The byte is read. -/
theorem State.Keeps.locked (keeps : state.Keeps its first slot count)
    (isLocked : state.cores cpu = .locked op) :
    (state.move cpu (.byteRead op (state.config (its.index op)))).Keeps its first slot count := by
  have inside : (state.cores cpu).inside = true := by rw [isLocked]; rfl
  refine keeps.within inside rfl rfl rfl ?_ keeps.config rfl keeps.countInside keeps.cwriter
    keeps.whole ?_ ?_ ?_
  · intro op w2 same
    cases same
    rfl
  · intro x3 x5 x11 same
    cases same
  · intro x3 none
    cases none
  · intro lpi covered
    have here := keeps.cached_here inside covered
    rw [isLocked] at here
    exact here

/-- The byte is stored. -/
theorem State.Keeps.byteRead {w2 : BitVec 8} (keeps : state.Keeps its first slot count)
    (isRead : state.cores cpu = .byteRead op w2) :
    ({ state.move cpu .configured with
      config := Function.update state.config (its.index op) (op.byte w2)
      changes := state.changes ++ [op] } : State).Keeps its first slot count := by
  have inside : (state.cores cpu).inside = true := by rw [isRead]; rfl
  refine keeps.within inside rfl rfl rfl ?_ ?_ rfl keeps.countInside keeps.cwriter
    keeps.whole ?_ ?_ ?_
  · intro op w2 same
    cases same
  · rw [List.foldl_append, ← keeps.config, keeps.read cpu op w2 isRead]
    rfl
  · intro x3 x5 x11 same
    cases same
  · intro x3 none
    cases none
  · exact fun lpi _ => Or.inr (Or.inr rfl)

/-- `GITS_CWRITER` is read. -/
theorem State.Keeps.configured (keeps : state.Keeps its first slot count)
    (isConfigured : state.cores cpu = .configured) :
    (state.move cpu (.invall state.cwriter its.numCollections its.rdbase)).Keeps its first slot
      count := by
  have inside : (state.cores cpu).inside = true := by rw [isConfigured]; rfl
  refine keeps.within inside rfl rfl rfl ?_ keeps.config rfl keeps.countInside keeps.cwriter
    keeps.whole ?_ ?_ ?_
  · intro op w2 same
    cases same
  · intro x3 x5 x11 same
    cases same
    exact its.oneAtLeast.ne'
  · intro x3 isBehind
    obtain rfl := Option.some.inj isBehind
    exact ⟨0, keeps.countInside, keeps.cwriter, rfl⟩
  · exact fun lpi _ => Or.inr (Or.inr rfl)

/-- The slot behind those that are stored is none of the ITS and none of them. -/
theorem State.Keeps.room {stored : Nat} (keeps : state.Keeps its first slot count)
    (inside : count + stored < its.slots)
    (room : its.advance (32 * Ring.slot its.slots slot (count + stored)) ≠ state.creadr) :
    count + (stored + 1) < its.slots := by
  rw [advance_place keeps.slotInside, keeps.creadr] at room
  rcases Nat.lt_or_eq_of_le (Nat.succ_le_of_lt inside) with less | round
  · exact less
  · refine absurd ?_ room
    rw [(Ring.slot_eq_self_iff keeps.slotInside round.le).mpr (Or.inr round)]

/-- A command is stored behind the others: the ITS still reads what it would have read, and the CPU
has stored one more. -/
theorem State.Keeps.store {stored : Nat} (keeps : state.Keeps its first slot count)
    (inside : count + stored < its.slots) (command : Command) (cores : Nat → Place) :
    let after : State := { state with
      cores := cores
      queue :=
        Function.update state.queue (32 * Ring.slot its.slots slot (count + stored)) command }
    after.commandsFrom its slot count = state.commandsFrom its slot count ∧
      after.commandsFrom its (Ring.slot its.slots slot count) (stored + 1) =
        state.commandsFrom its (Ring.slot its.slots slot count) stored ++ [command] := by
  have positive : 0 < its.slots := Nat.zero_lt_of_lt keeps.slotInside
  have less : stored < its.slots := Nat.lt_of_le_of_lt (Nat.le_add_left ..) inside
  unfold State.commandsFrom
  dsimp only
  rw [update_slots]
  constructor
  · refine Ring.contents_update keeps.slotInside keeps.countInside.le ?_
    intro place before same
    have places := Ring.slot_inj (before.trans keeps.countInside) inside same
    omega
  · rw [← Ring.slot_slot, Ring.contents_push (Ring.slot_lt positive) less]

/-- An INVALL is stored. -/
theorem State.Keeps.invall {x3 x5 : Nat} {x11 : BitVec 64}
    (keeps : state.Keeps its first slot count) (isInvall : state.cores cpu = .invall x3 x5 x11)
    (room : its.advance x3 ≠ state.creadr) :
    ({ state.move cpu (.sync (its.advance x3) x5 x11) with
      queue := Function.update state.queue x3
        (Lpi.invall (BitVec.ofNat 64 (its.numCollections - x5))) } : State).Keeps its first slot
      count := by
  have inside : (state.cores cpu).inside = true := by rw [isInvall]; rfl
  obtain ⟨stored, less, rfl, written⟩ := keeps.storing cpu x3 (by rw [isInvall]; rfl)
  rw [isInvall] at written
  have next := keeps.room less room
  obtain ⟨reads, stores⟩ := keeps.store less
    (Lpi.invall (BitVec.ofNat 64 (its.numCollections - x5))) (state.move cpu
      (.sync (its.advance (32 * Ring.slot its.slots slot (count + stored))) x5 x11)).cores
  refine keeps.within inside rfl rfl rfl ?_ keeps.config rfl keeps.countInside keeps.cwriter ?_ ?_
    ?_ ?_
  · intro op w2 same
    cases same
  · obtain ⟨calls, whole⟩ := keeps.whole
    exact ⟨calls, (congrArg (state.executed ++ ·) reads).trans whole⟩
  · intro x3 x5 x11 same
    cases same
  · intro x3 isBehind
    obtain rfl := Option.some.inj isBehind
    refine ⟨stored + 1, next, advance_place keeps.slotInside _, ?_⟩
    have rest : its.rest (.invall (32 * Ring.slot its.slots slot (count + stored)) x5 x11) =
        Lpi.invall (BitVec.ofNat 64 (its.numCollections - x5)) ::
          its.rest
            (.sync (its.advance (32 * Ring.slot its.slots slot (count + stored))) x5 x11) := by
      cases x5 with
      | zero => exact absurd rfl (keeps.rounds cpu _ _ _ isInvall)
      | succ x5 => rfl
    refine (congrArg (· ++ _) stores).trans ?_
    rw [List.append_assoc, ← written, rest]
    rfl
  · exact fun lpi _ => Or.inr (Or.inr rfl)

/-- A SYNC is stored. -/
theorem State.Keeps.sync {x3 x5 : Nat} {x11 : BitVec 64}
    (keeps : state.Keeps its first slot count) (isSync : state.cores cpu = .sync x3 x5 x11)
    (room : its.advance x3 ≠ state.creadr) :
    ({ state.move cpu (if x5 - 1 ≠ 0 then
          .invall (its.advance x3) (x5 - 1) (x11 + its.rdbaseOffset)
        else .queued (its.advance x3)) with
      queue := Function.update state.queue x3 (Lpi.sync x11) } : State).Keeps its first slot
      count := by
  have inside : (state.cores cpu).inside = true := by rw [isSync]; rfl
  obtain ⟨stored, less, rfl, written⟩ := keeps.storing cpu x3 (by rw [isSync]; rfl)
  rw [isSync] at written
  have next := keeps.room less room
  generalize rounds : (if x5 - 1 ≠ 0 then Place.invall
    (its.advance (32 * Ring.slot its.slots slot (count + stored))) (x5 - 1) (x11 + its.rdbaseOffset)
    else .queued (its.advance (32 * Ring.slot its.slots slot (count + stored)))) = place
  obtain ⟨reads, stores⟩ := keeps.store less (Lpi.sync x11) (state.move cpu place).cores
  have behind : place.behind =
      some (its.advance (32 * Ring.slot its.slots slot (count + stored))) := by
    rw [← rounds]
    split <;> rfl
  have rest : its.rest place = its.batch (x5 - 1) (x11 + its.rdbaseOffset) := by
    rw [← rounds]
    split
    · rfl
    · next last =>
        rw [not_not.mp last]
        rfl
  have placeInside : place.inside = true := by
    rw [← rounds]
    split <;> rfl
  have writes : place.writing = true := by
    rw [← rounds]
    split <;> rfl
  refine keeps.within inside placeInside rfl rfl ?_ keeps.config rfl keeps.countInside
    keeps.cwriter ?_ ?_ ?_ ?_
  · rintro op w2 rfl
    cases behind
  · obtain ⟨calls, whole⟩ := keeps.whole
    exact ⟨calls, (congrArg (state.executed ++ ·) reads).trans whole⟩
  · rintro x3 x5 x11 rfl
    split at rounds
    · next more =>
        cases rounds
        exact more
    · cases rounds
  · intro x3 isBehind
    rw [behind] at isBehind
    obtain rfl := Option.some.inj isBehind
    refine ⟨stored + 1, next, advance_place keeps.slotInside _, ?_⟩
    refine (congrArg (· ++ _) stores).trans ?_
    rw [List.append_assoc, ← written, rest]
    rfl
  · exact fun lpi _ => Or.inr (Or.inr writes)

/-- Among the commands for the last collections is the INVALL of each of them. -/
theorem invall_mem_batch {icid : BitVec 64} {x5 : Nat} (most : x5 ≤ its.numCollections)
    (least : its.numCollections - x5 ≤ icid.toNat) (less : icid.toNat < its.numCollections)
    (x11 : BitVec 64) : invall icid ∈ its.batch x5 x11 := by
  induction x5 generalizing x11 with
  | zero => omega
  | succ x5 ih =>
      rw [Its.batch]
      by_cases here : icid.toNat = its.numCollections - (x5 + 1)
      · rw [← here, BitVec.ofNat_toNat, BitVec.setWidth_eq]
        exact List.mem_cons_self
      · have later := ih (Nat.le_of_succ_le most) (by omega) (x11 + its.rdbaseOffset)
        exact List.mem_cons_of_mem _ (List.mem_cons_of_mem _ later)

/-- Every collection has its INVALL among the commands of a callout. -/
theorem invall_mem_commands {icid : BitVec 64} (less : icid.toNat < its.numCollections) :
    invall icid ∈ its.commands :=
  invall_mem_batch le_rfl (by omega) less its.rdbase

/-- `GITS_CWRITER` is written: all the commands are there for the ITS to read. -/
theorem State.Keeps.queued {x3 : Nat} (keeps : state.Keeps its first slot count)
    (isQueued : state.cores cpu = .queued x3) :
    ∃ later, ({ state.move cpu .published with cwriter := x3 } : State).Keeps its first slot
      later := by
  have inside : (state.cores cpu).inside = true := by rw [isQueued]; rfl
  obtain ⟨stored, less, rfl, written⟩ := keeps.storing cpu x3 (by rw [isQueued]; rfl)
  have all : state.commandsFrom its slot (count + stored) =
      state.commandsFrom its slot count ++ its.commands := by
    rw [isQueued] at written
    rw [← written]
    exact (Ring.contents_add keeps.slotInside).trans
      (congrArg (_ ++ ·) (List.append_nil _).symm)
  refine ⟨count + stored, keeps.within inside rfl rfl rfl ?_ keeps.config rfl less rfl ?_ ?_ ?_ ?_⟩
  · intro op w2 same
    cases same
  · obtain ⟨calls, whole⟩ := keeps.whole
    refine ⟨calls + 1, ?_⟩
    rw [List.replicate_succ', List.flatten_append, ← whole, List.append_assoc]
    refine congrArg (state.executed ++ ·) (all.trans ?_)
    rw [List.flatten_cons, List.flatten_nil, List.append_nil]
  · intro x3 x5 x11 same
    cases same
  · intro x3 none
    cases none
  · intro lpi covered
    refine Or.inr (Or.inl ?_)
    change _ ∈ state.commandsFrom its slot (count + stored)
    rw [all]
    exact List.mem_append_right _ (invall_mem_commands covered)

/-- The lock is released. -/
theorem State.Keeps.published (keeps : state.Keeps its first slot count)
    (isPublished : state.cores cpu = .published) :
    ({ state.move cpu .out with lock := state.lock.store 0 } : State).Keeps its first slot
      count := by
  have inside : (state.cores cpu).inside = true := by rw [isPublished]; rfl
  refine keeps.at_lock (by rw [isPublished]; rfl) rfl (fun _ _ same => by cases same) ?_
    (state.lock.store_agrees _ _)
  exact Or.inl ⟨rfl, @forall_move state cpu .out (fun _ place => place.inside = false) rfl
    fun other different => keeps.alone inside different⟩

/-- The lock is taken. -/
theorem State.Keeps.acquire (keeps : state.Keeps its first slot count)
    (isLoaded : state.cores cpu = .loaded op 0) (monitored : state.lock.monitored cpu = true) :
    ({ state.move cpu (.locked op) with lock := state.lock.store 1 } : State).Keeps its first slot
      count := by
  have seen : (0 : BitVec 32) ∈ (state.cores cpu).seen := by rw [isLoaded]; rfl
  have zero : state.lock.value = 0 := (keeps.agrees cpu monitored 0 seen).symm
  have free : ∀ other, (state.cores other).inside = false := by
    rcases keeps.excluded with ⟨_, free⟩ | ⟨one, _⟩
    · exact free
    · rw [zero] at one
      cases one
  refine keeps.at_lock (writing_of_outside (free cpu)) rfl (fun _ _ same => by cases same) ?_
    (state.lock.store_agrees _ _)
  refine Or.inr ⟨rfl, cpu, @forall_move state cpu (.locked op)
    (fun other place => place.inside = true ↔ other = cpu) (iff_of_true rfl rfl) ?_⟩
  intro other different
  rw [free other]
  exact iff_of_false Bool.false_ne_true different

/-- The ITS executes a command. -/
theorem State.Keeps.executeOne (keeps : state.Keeps its first slot (count + 1)) :
    (its.executeOne state).Keeps its first (Ring.slot its.slots slot 1) count := by
  have positive : 0 < its.slots := Nat.zero_lt_of_lt keeps.slotInside
  have here : state.commandsFrom its slot (count + 1) =
      state.queue state.creadr :: state.commandsFrom its (Ring.slot its.slots slot 1) count := by
    rw [keeps.creadr]
    rfl
  have places : ∀ more, Ring.slot its.slots (Ring.slot its.slots slot 1) (count + more) =
      Ring.slot its.slots slot (count + 1 + more) := by
    intro more
    rw [Ring.slot_slot, Nat.add_comm 1, Nat.add_right_comm]
  exact {
    excluded := keeps.excluded
    agrees := keeps.agrees
    read := keeps.read
    config := keeps.config
    slotInside := Ring.slot_lt positive
    countInside := Nat.lt_of_succ_lt keeps.countInside
    creadr := by
      change its.advance state.creadr = _
      rw [keeps.creadr, advance_slot keeps.slotInside]
    cwriter := keeps.cwriter.trans (congrArg (32 * ·) (places 0).symm)
    whole := by
      obtain ⟨calls, whole⟩ := keeps.whole
      refine ⟨calls, ?_⟩
      rw [← whole, here]
      exact List.append_assoc ..
    rounds := keeps.rounds
    storing := by
      intro other x3 isBehind
      obtain ⟨stored, less, same, written⟩ := keeps.storing other x3 isBehind
      refine ⟨stored, by omega, ?_, ?_⟩
      · rw [places, same]
      · rw [← written]
        exact congrArg (fun place => state.commandsFrom its place stored ++ _) (places 0)
    cached := by
      intro lpi covered
      unfold Its.executeOne
      dsimp only
      by_cases fetched : (state.queue state.creadr).first = 0xD ∧
          its.collection lpi = (state.queue state.creadr).third
      · exact Or.inl (if_pos fetched)
      · rw [if_neg fetched]
        rcases keeps.cached lpi covered with same | queued | writing
        · exact Or.inl same
        · rw [here] at queued
          rcases List.mem_cons.mp queued with next | later
          · refine absurd ?_ fetched
            rw [← next]
            exact ⟨rfl, rfl⟩
          · exact Or.inr (Or.inl later)
        · exact Or.inr (Or.inr writing) }

/-- The queue is empty when the ITS has read all commands. -/
theorem State.Keeps.empty_iff (keeps : state.Keeps its first slot count) :
    state.creadr = state.cwriter ↔ count = 0 := by
  rw [keeps.creadr, keeps.cwriter]
  constructor
  · intro empty
    have same : Ring.slot its.slots slot count = slot := by omega
    rcases (Ring.slot_eq_self_iff keeps.slotInside keeps.countInside.le).mp same with none | round
    · exact none
    · exact absurd round keeps.countInside.ne
  · rintro rfl
    rw [Ring.slot_zero keeps.slotInside]

/-- A step of a callout. -/
theorem State.Keeps.coreStep (keeps : state.Keeps its first slot count)
    (room : its.Room state (.core cpu)) (stepped : its.coreStep state cpu = some after) :
    ∃ slot count, after.Keeps its first slot count := by
  unfold Its.coreStep at stepped
  change ∀ x3 ∈ (state.cores cpu).storesAt, its.advance x3 ≠ state.creadr at room
  cases isAt : state.cores cpu with
  | out =>
      rw [isAt] at stepped
      cases stepped
  | locking op =>
      rw [isAt] at stepped
      obtain rfl := Option.some.inj stepped
      refine ⟨slot, count, keeps.outside (by rw [isAt]; rfl) rfl rfl ?_⟩
      refine keeps.agrees.load (fun other different => ?_) fun value isSeen => ?_
      · rw [move_cores_of_ne different]
      · rw [move_cores_self] at isSeen
        exact (Option.some.inj isSeen).symm
  | loaded op w1 =>
      rw [isAt] at stepped
      dsimp only at stepped
      split at stepped
      · obtain rfl := Option.some.inj stepped
        refine ⟨slot, count, keeps.outside (by rw [isAt]; rfl) rfl rfl ?_⟩
        refine keeps.agrees.forget fun other => ?_
        exact @forall_move state cpu (.locking op)
          (fun other place => place.seen = none ∨ place.seen = (state.cores other).seen)
          (Or.inl rfl) (fun _ _ => Or.inr rfl) other
      · obtain rfl := Option.some.inj stepped
        refine ⟨slot, count, keeps.outside (by rw [isAt]; rfl) rfl rfl ?_⟩
        refine keeps.agrees.lose fun other different => Or.inr ?_
        rw [move_cores_of_ne different]
  | locked op =>
      rw [isAt] at stepped
      obtain rfl := Option.some.inj stepped
      exact ⟨slot, count, keeps.locked isAt⟩
  | byteRead op w2 =>
      rw [isAt] at stepped
      obtain rfl := Option.some.inj stepped
      exact ⟨slot, count, keeps.byteRead isAt⟩
  | configured =>
      rw [isAt] at stepped
      obtain rfl := Option.some.inj stepped
      exact ⟨slot, count, keeps.configured isAt⟩
  | invall x3 x5 x11 =>
      rw [isAt] at stepped room
      obtain rfl := Option.some.inj stepped
      exact ⟨slot, count, keeps.invall isAt (room x3 rfl)⟩
  | sync x3 x5 x11 =>
      rw [isAt] at stepped room
      obtain rfl := Option.some.inj stepped
      exact ⟨slot, count, keeps.sync isAt (room x3 rfl)⟩
  | queued x3 =>
      rw [isAt] at stepped
      obtain rfl := Option.some.inj stepped
      exact ⟨slot, keeps.queued isAt⟩
  | published =>
      rw [isAt] at stepped
      obtain rfl := Option.some.inj stepped
      exact ⟨slot, count, keeps.published isAt⟩

/-- A redistributor reads a configuration by itself. -/
theorem State.Keeps.fetch (keeps : state.Keeps its first slot count) (lpi : Nat) :
    ({ state with cached := Function.update state.cached lpi (state.config lpi) } : State).Keeps
      its first slot count :=
  { keeps with
    cached := by
      intro other covered
      dsimp only
      by_cases same : other = lpi
      · subst same
        exact Or.inl (Function.update_self ..)
      · rw [Function.update_of_ne same]
        exact keeps.cached other covered }

/-- Every step keeps it. -/
theorem State.Keeps.act {action : Its.Act} (keeps : state.Keeps its first slot count)
    (room : its.Room state action) (acted : its.act state action = some after) :
    ∃ slot count, after.Keeps its first slot count := by
  cases action with
  | call cpu op =>
      rw [Its.act] at acted
      split at acted
      · next isOut =>
          obtain rfl := Option.some.inj acted
          refine ⟨slot, count, keeps.outside (by rw [isOut]; rfl) rfl rfl ?_⟩
          refine keeps.agrees.forget fun other => ?_
          exact @forall_move state cpu (.locking op)
            (fun other place => place.seen = none ∨ place.seen = (state.cores other).seen)
            (Or.inl rfl) (fun _ _ => Or.inr rfl) other
      · cases acted
  | core cpu => exact keeps.coreStep room acted
  | acquire cpu =>
      rw [Its.act, Its.acquire] at acted
      split at acted
      · next op w1 isLoaded =>
          split at acted
          · next taken =>
              obtain ⟨rfl, monitored⟩ := taken
              obtain rfl := Option.some.inj acted
              exact ⟨slot, count, keeps.acquire isLoaded monitored⟩
          · cases acted
      · cases acted
  | lose cpu =>
      obtain rfl := Option.some.inj acted
      refine ⟨slot, count, { keeps with
        excluded := keeps.excluded
        agrees := keeps.agrees.lose fun _ _ => Or.inr rfl }⟩
  | execute =>
      rw [Its.act, Its.execute] at acted
      split at acted
      · cases acted
      · next some =>
          obtain rfl := Option.some.inj acted
          cases count with
          | zero => exact absurd (keeps.empty_iff.mpr rfl) some
          | succ count => exact ⟨_, count, keeps.executeOne⟩
  | fetch lpi =>
      obtain rfl := Option.some.inj acted
      exact ⟨slot, count, keeps.fetch lpi⟩

/-- It holds at the beginning. -/
theorem State.Idle.keeps (idle : state.Idle its) :
    ∃ slot count, state.Keeps its state.config slot count := by
  obtain ⟨slot, inside, place⟩ := idle.slot
  have outside : ∀ cpu, (state.cores cpu).inside = false := fun cpu => by rw [idle.cores]; rfl
  refine ⟨slot, 0, ?_⟩
  exact {
    excluded := Or.inl ⟨by rw [idle.lock]; rfl, outside⟩
    agrees := by
      rw [idle.lock]
      exact Word.fresh_agrees _ _
    read := by
      intro cpu op w2 isRead
      cases (idle.cores cpu).symm.trans isRead
    config := by rw [idle.changes]; rfl
    slotInside := inside
    countInside := Nat.zero_lt_of_lt inside
    creadr := idle.empty.trans place
    cwriter := by rw [Ring.slot_zero inside, place]
    whole := ⟨0, by rw [idle.executed]; rfl⟩
    rounds := by
      intro cpu x3 x5 x11 isInvall
      cases (idle.cores cpu).symm.trans isInvall
    storing := by
      intro cpu x3 isBehind
      rw [idle.cores] at isBehind
      cases isBehind
    cached := fun lpi _ => Or.inl (congrFun idle.cached lpi) }

theorem State.Idle.reached {start : State} (idle : start.Idle its)
    (reached : Reaches its.act its.Room start state) :
    ∃ slot count, state.Keeps its start.config slot count :=
  reached.invariant (fun state => ∃ slot count, state.Keeps its start.config slot count) idle.keeps
    fun _ _ _ keeps room acted => by
      obtain ⟨slot, count, keeps⟩ := keeps
      exact keeps.act room acted

/-- The last change of a byte is what counts. -/
theorem byte_byte (op later : Op) (w2 : BitVec 8) : later.byte (op.byte w2) = later.byte w2 := by
  have bytes : ∀ (w2 : BitVec 8) (mask laterMask : Bool),
      (if laterMask then (if mask then w2 &&& 0xfe else w2 ||| 1) &&& 0xfe
        else (if mask then w2 &&& 0xfe else w2 ||| 1) ||| 1) =
      if laterMask then w2 &&& 0xfe else w2 ||| 1 := by decide
  exact bytes w2 op.mask later.mask

/-- The byte of an LPI after some changes of the table. -/
def Its.changed (its : Its) (changes : List Op) (lpi : Nat) (byte : BitVec 8) : BitVec 8 :=
  match changes.reverse.find? fun op => its.index op = lpi with
  | some op => op.byte byte
  | none => byte

theorem foldl_apply (config : Nat → BitVec 8) (changes : List Op) (lpi : Nat) :
    changes.foldl its.apply config lpi = its.changed changes lpi (config lpi) := by
  induction changes using List.reverseRecOn with
  | nil => rfl
  | append_singleton changes last ih =>
      rw [List.foldl_append, List.foldl_cons, List.foldl_nil, Its.changed, List.reverse_append,
        List.reverse_singleton, List.singleton_append, List.find?_cons, Its.apply]
      by_cases here : its.index last = lpi
      · subst here
        rw [Function.update_self, ih, decide_eq_true rfl, Its.changed]
        split
        · exact byte_byte ..
        · rfl
      · rw [Function.update_of_ne (Ne.symm here), ih, decide_eq_false here]
        rfl

/-- However the CPUs and the ITS take turns, as long as the ITS leaves room: one CPU at a time is
behind the lock, and each byte of the table is what its last change made of it; the ITS executes the
commands of whole callouts, in order; and when it has executed all of them and no change is without
its commands, the redistributors have the configurations of the table. -/
theorem lpi_callouts_safe {start : State} (idle : start.Idle its)
    (reached : Reaches its.act its.Room start state) :
    (∀ cpu other, (state.cores cpu).inside = true → (state.cores other).inside = true →
        cpu = other) ∧
      (∀ lpi, state.config lpi = its.changed state.changes lpi (start.config lpi)) ∧
      (∃ calls, state.executed <+: (List.replicate calls its.commands).flatten ∧
        (state.creadr = state.cwriter →
          state.executed = (List.replicate calls its.commands).flatten)) ∧
      (state.creadr = state.cwriter → (∀ cpu, (state.cores cpu).writing = false) →
        ∀ lpi, (its.collection lpi).toNat < its.numCollections →
          state.cached lpi = state.config lpi) := by
  obtain ⟨slot, count, keeps⟩ := idle.reached reached
  refine ⟨?_, fun lpi => ?_, ?_, ?_⟩
  · intro cpu other inside otherInside
    by_contra different
    have outside := keeps.alone inside (Ne.symm different)
    rw [outside] at otherInside
    cases otherInside
  · rw [keeps.config, foldl_apply]
  · obtain ⟨calls, whole⟩ := keeps.whole
    refine ⟨calls, ⟨_, whole⟩, fun empty => ?_⟩
    obtain rfl := keeps.empty_iff.mp empty
    rw [← whole]
    exact (List.append_nil _).symm
  · intro empty settled lpi covered
    obtain rfl := keeps.empty_iff.mp empty
    rcases keeps.cached lpi covered with same | queued | ⟨writer, writing⟩
    · exact same
    · cases queued
    · rw [settled writer] at writing
      cases writing

/-- A queue of one page, and one collection. -/
def onePage : Its :=
  ⟨128, 4064, rfl, 0, 1, 1, Nat.one_pos, 0, fun _ => 0⟩

/-- Nothing was masked yet. -/
def fresh : State :=
  ⟨fun _ => .out, Word.fresh 0, fun _ => 0xa1, fun _ => sync 0, 0, 0, fun _ => 0xa1, [], []⟩

theorem fresh_idle : fresh.Idle onePage :=
  ⟨fun _ => rfl, rfl, rfl, ⟨0, by decide, rfl⟩, rfl, rfl, rfl⟩

/-- A CPU has masked an LPI in the table, and is to queue the commands. -/
theorem masked_reached : ∃ state, Reaches onePage.act onePage.Room fresh state ∧
    state.changes = [⟨true, 3⟩] ∧ state.cores 0 = .configured := by
  refine ⟨_, ((((Reaches.refl.next
    (show onePage.act _ (.call 0 ⟨true, 3⟩) = some _ from rfl) trivial).next
    (show onePage.act _ (.core 0) = some _ from rfl) nofun).next
    (show onePage.act _ (.acquire 0) = some _ from rfl) trivial).next
    (show onePage.act _ (.core 0) = some _ from rfl) nofun).next
    (show onePage.act _ (.core 0) = some _ from rfl) nofun, rfl, rfl⟩

/-- The LPI is masked in the table, with the rest of its byte as it was. -/
theorem lpi_callouts_safe_masked : ∃ state, Reaches onePage.act onePage.Room fresh state ∧
    state.config 3 = 0xa0 := by
  obtain ⟨state, reached, changes, -⟩ := masked_reached
  refine ⟨state, reached, ?_⟩
  rw [(lpi_callouts_safe fresh_idle reached).2.1 3, changes]
  decide

/-! ## The callouts come to an end -/

/-- The ITS can execute all the commands that are queued. -/
theorem State.Keeps.drain (keeps : state.Keeps its first slot count) :
    ∃ after slot, Reaches its.act its.Room state after ∧ after.Keeps its first slot 0 ∧
      after.cores = state.cores ∧ after.lock = state.lock := by
  induction count generalizing state slot with
  | zero => exact ⟨state, slot, .refl, keeps, rfl, rfl⟩
  | succ count ih =>
      have executed : its.act state .execute = some (its.executeOne state) :=
        if_neg fun empty => Nat.succ_ne_zero count (keeps.empty_iff.mp empty)
      obtain ⟨after, slot, reached, drained, cores, lock⟩ := ih keeps.executeOne
      exact ⟨after, slot, (Reaches.refl.next executed trivial).trans reached, drained, cores, lock⟩

theorem length_batch (x5 : Nat) (x11 : BitVec 64) : (its.batch x5 x11).length = 2 * x5 := by
  induction x5 generalizing x11 with
  | zero => rfl
  | succ x5 ih =>
      rw [Its.batch, List.length_cons, List.length_cons, ih]
      omega

/-- Where the queue is empty, there is room for the commands of a callout. -/
theorem State.Keeps.room_of_empty (keeps : state.Keeps its first slot 0)
    (fits : 2 * its.numCollections < its.slots) {x3 : Nat}
    (behind : x3 ∈ (state.cores cpu).behind) (more : 0 < (its.rest (state.cores cpu)).length) :
    its.advance x3 ≠ state.creadr := by
  obtain ⟨stored, less, rfl, written⟩ := keeps.storing cpu x3 behind
  have total := congrArg List.length written
  rw [List.length_append, Its.commands, length_batch, State.commandsFrom, Ring.length_contents]
    at total
  rw [advance_place keeps.slotInside, keeps.creadr]
  intro same
  have round : Ring.slot its.slots slot (0 + stored + 1) = slot := by omega
  have places := (Ring.slot_eq_self_iff keeps.slotInside (by omega)).mp round
  omega

/-- The steps that are left behind the lock. -/
def Its.left (its : Its) : Place → Nat
  | .locked _ => 2 * its.numCollections + 5
  | .byteRead _ _ => 2 * its.numCollections + 4
  | .configured => 2 * its.numCollections + 3
  | .invall _ x5 _ => 2 * x5 + 2
  | .sync _ x5 _ => 2 * (x5 - 1) + 3
  | .queued _ => 2
  | .published => 1
  | _ => 0

/-- Where the queue is empty, the CPU that has the lock goes on. -/
theorem State.Keeps.go_on (keeps : state.Keeps its first slot count)
    (fits : 2 * its.numCollections < its.slots) (inside : (state.cores cpu).inside = true)
    (empty : state.cores cpu ≠ .published → count = 0) :
    ∃ after slot count, Reaches its.act its.Room state after ∧ after.Keeps its first slot count ∧
      ((after.cores cpu).inside = true ∧ its.left (after.cores cpu) < its.left (state.cores cpu) ∧
          (after.cores cpu ≠ .published → count = 0) ∨
        ∀ other, (after.cores other).inside = false) := by
  have step : ∀ after, its.coreStep state cpu = some after → its.Room state (.core cpu) →
      Reaches its.act its.Room state after :=
    fun after stepped room =>
      Reaches.refl.next (show its.act state (.core cpu) = _ from stepped) room
  have noRoom : (state.cores cpu).storesAt = none → its.Room state (.core cpu) := by
    intro none x3 isAt
    rw [none] at isAt
    cases isAt
  unfold Its.coreStep at step
  cases isAt : state.cores cpu with
  | out => rw [isAt] at inside; cases inside
  | locking op => rw [isAt] at inside; cases inside
  | loaded op w1 => rw [isAt] at inside; cases inside
  | locked op =>
      rw [isAt] at step empty
      refine ⟨_, slot, count, step _ rfl (noRoom (by rw [isAt]; rfl)), keeps.locked isAt, ?_⟩
      rw [move_cores_self]
      exact Or.inl ⟨rfl, Nat.lt_succ_self _, fun _ => empty nofun⟩
  | byteRead op w2 =>
      rw [isAt] at step empty
      refine ⟨_, slot, count, step _ rfl (noRoom (by rw [isAt]; rfl)), keeps.byteRead isAt, ?_⟩
      dsimp only
      rw [move_cores_self]
      exact Or.inl ⟨rfl, Nat.lt_succ_self _, fun _ => empty nofun⟩
  | configured =>
      rw [isAt] at step empty
      refine ⟨_, slot, count, step _ rfl (noRoom (by rw [isAt]; rfl)), keeps.configured isAt, ?_⟩
      rw [move_cores_self]
      exact Or.inl ⟨rfl, Nat.lt_succ_self _, fun _ => empty nofun⟩
  | invall x3 x5 x11 =>
      rw [isAt] at step empty
      obtain rfl : count = 0 := empty nofun
      have positive := Nat.pos_of_ne_zero (keeps.rounds cpu x3 x5 x11 isAt)
      have room : its.advance x3 ≠ state.creadr := by
        refine @State.Keeps.room_of_empty _ _ _ _ cpu keeps fits x3 (by rw [isAt]; rfl) ?_
        rw [isAt, Its.rest, length_batch]
        omega
      have allowed : its.Room state (.core cpu) := by
        intro at_ isStored
        rw [isAt] at isStored
        obtain rfl := Option.some.inj isStored
        exact room
      refine ⟨_, slot, 0, step _ rfl allowed, keeps.invall isAt room, ?_⟩
      dsimp only
      rw [move_cores_self]
      refine Or.inl ⟨rfl, ?_, fun _ => rfl⟩
      unfold Its.left
      dsimp only
      omega
  | sync x3 x5 x11 =>
      rw [isAt] at step empty
      obtain rfl : count = 0 := empty nofun
      have room : its.advance x3 ≠ state.creadr := by
        refine @State.Keeps.room_of_empty _ _ _ _ cpu keeps fits x3 (by rw [isAt]; rfl) ?_
        rw [isAt, Its.rest, List.length_cons]
        exact Nat.succ_pos _
      have allowed : its.Room state (.core cpu) := by
        intro at_ isStored
        rw [isAt] at isStored
        obtain rfl := Option.some.inj isStored
        exact room
      refine ⟨_, slot, 0, step _ rfl allowed, keeps.sync isAt room, ?_⟩
      dsimp only
      rw [move_cores_self]
      refine Or.inl ⟨?_, ?_, fun _ => rfl⟩
      · split <;> rfl
      · unfold Its.left
        split_ifs <;> dsimp only <;> omega
  | queued x3 =>
      rw [isAt] at step
      obtain ⟨later, keepsLater⟩ := keeps.queued isAt
      refine ⟨_, slot, later, step _ rfl (noRoom (by rw [isAt]; rfl)), keepsLater, ?_⟩
      dsimp only
      rw [move_cores_self]
      exact Or.inl ⟨rfl, Nat.lt_succ_self _, fun other => absurd rfl other⟩
  | published =>
      rw [isAt] at step
      have keepsLater := keeps.published isAt
      refine ⟨_, slot, count, step _ rfl (noRoom (by rw [isAt]; rfl)), keepsLater, Or.inr ?_⟩
      rcases keepsLater.excluded with ⟨_, free⟩ | ⟨held, _⟩
      · exact free
      · cases held

/-- Where the queue is empty, the CPU that has the lock goes on until it has released it. -/
theorem State.Keeps.release (keeps : state.Keeps its first slot count)
    (fits : 2 * its.numCollections < its.slots) (inside : (state.cores cpu).inside = true)
    (empty : state.cores cpu ≠ .published → count = 0) :
    ∃ after slot count, Reaches its.act its.Room state after ∧ after.Keeps its first slot count ∧
      ∀ other, (after.cores other).inside = false := by
  induction left : its.left (state.cores cpu) using Nat.strong_induction_on
    generalizing state slot count with
  | _ steps ih =>
      subst left
      obtain ⟨next, slot, count, reached, keepsNext, stays | free⟩ := keeps.go_on fits inside empty
      · obtain ⟨stillInside, fewer, stillEmpty⟩ := stays
        obtain ⟨after, slot, count, more, keepsAfter, free⟩ :=
          ih _ fewer keepsNext stillInside stillEmpty rfl
        exact ⟨after, slot, count, reached.trans more, keepsAfter, free⟩
      · exact ⟨next, slot, count, reached, keepsNext, free⟩

/-- From every state that is reached, the CPUs and the ITS can go on to one in which the lock is
free, all commands are executed, and the redistributors have the configurations of the table. -/
theorem lpi_callouts_settle {start : State} (idle : start.Idle its)
    (fits : 2 * its.numCollections < its.slots) (reached : Reaches its.act its.Room start state) :
    ∃ after, Reaches its.act its.Room state after ∧ after.lock.value = 0 ∧
      after.creadr = after.cwriter ∧
      ∀ lpi, (its.collection lpi).toNat < its.numCollections →
        after.cached lpi = after.config lpi := by
  obtain ⟨slot, count, keeps⟩ := idle.reached reached
  obtain ⟨drained, slot, toDrained, keepsDrained, -, -⟩ := keeps.drain
  have released : ∃ after slot count, Reaches its.act its.Room drained after ∧
      after.Keeps its start.config slot count ∧ ∀ other, (after.cores other).inside = false := by
    rcases keepsDrained.excluded with ⟨_, free⟩ | ⟨_, holder, only⟩
    · exact ⟨drained, slot, 0, .refl, keepsDrained, free⟩
    · exact keepsDrained.release fits ((only holder).mpr rfl) fun _ => rfl
  obtain ⟨free, slot, count, toFree, keepsFree, outside⟩ := released
  obtain ⟨after, slot, toAfter, keepsAfter, cores, lock⟩ := keepsFree.drain
  have outsideAfter : ∀ other, (after.cores other).inside = false := by
    rw [cores]
    exact outside
  refine ⟨after, (toDrained.trans toFree).trans toAfter, ?_, keepsAfter.empty_iff.mpr rfl, ?_⟩
  · rcases keepsAfter.excluded with ⟨zero, _⟩ | ⟨_, holder, only⟩
    · exact zero
    · cases (outsideAfter holder).symm.trans ((only holder).mpr rfl)
  · intro lpi covered
    rcases keepsAfter.cached lpi covered with same | queued | ⟨writer, writing⟩
    · exact same
    · cases queued
    · cases (writing_of_outside (outsideAfter writer)).symm.trans writing

/-- The CPU that has masked the LPI can queue its commands, and the ITS can execute them. -/
theorem lpi_callouts_settle_masked : ∃ state after,
    state.cores 0 = .configured ∧ Reaches onePage.act onePage.Room state after ∧
      after.lock.value = 0 ∧ ∀ lpi, after.cached lpi = after.config lpi := by
  obtain ⟨state, reached, -, place⟩ := masked_reached
  obtain ⟨after, settles, free, -, fetched⟩ :=
    lpi_callouts_settle fresh_idle (by decide) reached
  exact ⟨state, after, place, settles, free, fun lpi => fetched lpi Nat.one_pos⟩

end Bcm2711.Gic.Lpi
