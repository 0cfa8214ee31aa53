import Bcm2711.Lib.Actions
import Bcm2711.Lib.Exclusive

/-! # Commands from CPU to CPU

A CPU leaves a command in the word of its target and interrupts the target if the word was empty.
The kernel of the target takes all commands of the word when it has taken the interrupt.  Whatever
the CPUs do meanwhile, no command is left in a word that nobody looks at.
-/

namespace Bcm2711.Gic.Ipi

open Actions Exclusive

/-! ## The callouts -/

/-- The callouts for the two controllers. -/
inductive Version where
  | v2
  | v3
deriving DecidableEq, Repr

/-- Where a CPU is in the callout. -/
inductive Place where
  | out
  /-- At the `ldxr`. -/
  | loading (target : Nat) (cmd : BitVec 32)
  /-- The word was read, and the exclusive store is tried next. -/
  | loaded (target : Nat) (cmd w7 : BitVec 32)
  /-- The command is stored, and the old value is tested next. -/
  | stored (target : Nat) (w7 : BitVec 32)
deriving DecidableEq, Repr

/-- What happened to the word of a target. -/
inductive Entry where
  | sent (cmd : BitVec 32)
  | taken (cmds : BitVec 32)
deriving DecidableEq, Repr

/-- The CPUs, the words `ipicmds`, and the interrupts. -/
structure State where
  cores : Nat → Place
  ipicmds : Nat → Word Nat (BitVec 32)
  /-- SGI 0 is pending at a target, from a source. -/
  pending : Nat → Nat → Bool
  /-- The kernel of a target has taken SGI 0, and takes the commands next. -/
  handling : Nat → Bool
  /-- What happened to each word, the earliest first. -/
  log : Nat → List Entry

/-- Nothing was sent. -/
def State.initial : State :=
  ⟨fun _ => .out, fun _ => Word.fresh 0, fun _ _ => false, fun _ => false, fun _ => []⟩

/-- A CPU moves on. -/
def State.move (state : State) (cpu : Nat) (place : Place) : State :=
  { state with cores := Function.update state.cores cpu place }

/-- The word of a target changes. -/
def State.setWord (state : State) (target : Nat) (word : Word Nat (BitVec 32)) : State :=
  { state with ipicmds := Function.update state.ipicmds target word }

/-- Something is added to the log of a target. -/
def State.record (state : State) (target : Nat) (entry : Entry) : State :=
  { state with log := Function.update state.log target (state.log target ++ [entry]) }

/-- A target for which a value of `ARM_GICD_SGIR` makes SGI 0 pending. -/
def sgirTarget (value : BitVec 32) (target : Nat) : Bool := target < 8 ∧ value.getLsbD (16 + target)

/-- The interrupt is triggered: on GICv2 by a write to the distributor, which keeps the sources
apart. -/
def State.trigger (version : Version) (state : State) (cpu target : Nat) : State :=
  match version with
  | .v2 =>
      { state with
        pending := fun other source =>
          sgirTarget (0x10000 <<< target) other ∧ source = cpu ∨ state.pending other source }
  | .v3 =>
      { state with
        pending := Function.update state.pending target
          (Function.update (state.pending target) 0 true) }

/-- A step of the callout, other than an exclusive store that goes through. -/
def coreStep (version : Version) (state : State) (cpu : Nat) : Option State :=
  match state.cores cpu with
  | .out => none
  | .loading target cmd =>
      some ((state.setWord target ((state.ipicmds target).load cpu)).move cpu
        (.loaded target cmd (state.ipicmds target).value))
  | .loaded target cmd _ =>
      some ((state.setWord target ((state.ipicmds target).lose cpu)).move cpu
        (.loading target cmd))
  | .stored target w7 =>
      if w7 ≠ 0 then some (state.move cpu .out)
      else some ((state.trigger version cpu target).move cpu .out)

/-- The exclusive store goes through. -/
def exchange (state : State) (cpu : Nat) : Option State :=
  match state.cores cpu with
  | .loaded target cmd w7 =>
      if (state.ipicmds target).monitored cpu then
        some (((state.setWord target ((state.ipicmds target).store (w7 ||| cmd))).record target
          (.sent cmd)).move cpu (.stored target w7))
      else none
  | _ => none

/-- Whose step it is. -/
inductive Act where
  | send (cpu target : Nat) (cmd : BitVec 32)
  | core (cpu : Nat)
  | exchange (cpu : Nat)
  /-- The monitor of a CPU on the word of a target is cleared. -/
  | lose (cpu target : Nat)
  /-- The kernel of the target takes the interrupt. -/
  | take (target source : Nat)
  /-- The kernel takes all the commands. -/
  | empty (target : Nat)
deriving DecidableEq, Repr

/-- The steps of the CPUs, in the callout and in the kernel. -/
def act (version : Version) (state : State) : Act → Option State
  | .send cpu target cmd =>
      if state.cores cpu = .out then some (state.move cpu (.loading target cmd)) else none
  | .core cpu => coreStep version state cpu
  | .exchange cpu => exchange state cpu
  | .lose cpu target => some (state.setWord target ((state.ipicmds target).lose cpu))
  | .take target source =>
      if state.pending target source ∧ ¬state.handling target then
        some { state with
          pending := Function.update state.pending target
            (Function.update (state.pending target) source false)
          handling := Function.update state.handling target true }
      else none
  | .empty target =>
      if state.handling target then
        some { (state.setWord target ((state.ipicmds target).store 0)).record target
            (.taken (state.ipicmds target).value) with
          handling := Function.update state.handling target false }
      else none

/-- On GICv2 there are eight targets. -/
def Known (version : Version) (_ : State) : Act → Prop
  | .send _ target _ => version = .v2 → target < 8
  | _ => True

/-! ## What holds of the words -/

/-- The commands in a word, as far as the log is right. -/
def account (cmds : BitVec 32) : Entry → Option (BitVec 32)
  | .sent cmd => some (cmds ||| cmd)
  | .taken taken => if taken = cmds then some 0 else none

/-- What a CPU has read of the word of a target. -/
def Place.seen (target : Nat) : Place → Option (BitVec 32)
  | .loaded other _ w7 => if other = target then some w7 else none
  | _ => none

/-- A CPU is about to interrupt a target. -/
def Place.Raises (target : Nat) (place : Place) : Prop := place = .stored target 0

/-- The target of a CPU. -/
def Place.target : Place → Option Nat
  | .out => none
  | .loading target _ => some target
  | .loaded target _ _ => some target
  | .stored target _ => some target

/-- The words hold what was sent and not taken, and where there is something, the target is or will
be interrupted. -/
structure State.Heard (version : Version) (state : State) : Prop where
  agrees : ∀ target, (state.ipicmds target).Agrees fun cpu => (state.cores cpu).seen target
  ledger : ∀ target, (state.log target).foldlM account 0 = some (state.ipicmds target).value
  known : version = .v2 → ∀ cpu, ∀ target ∈ (state.cores cpu).target, target < 8
  heard : ∀ target, (state.ipicmds target).value ≠ 0 →
    (∃ source, state.pending target source = true) ∨ state.handling target = true ∨
      ∃ cpu, (state.cores cpu).Raises target

variable {version : Version} {state after : State} {cpu other target : Nat} {place : Place}
  {cmd w7 : BitVec 32}

@[simp] theorem move_cores_self : (state.move cpu place).cores cpu = place :=
  Function.update_self ..

theorem move_cores_of_ne (different : other ≠ cpu) :
    (state.move cpu place).cores other = state.cores other := Function.update_of_ne different ..

/-- What holds of a place holds of the places when a CPU has moved there. -/
theorem forall_move {holds : Nat → Place → Prop} (here : holds cpu place)
    (others : ∀ other, other ≠ cpu → holds other (state.cores other)) (other : Nat) :
    holds other ((state.move cpu place).cores other) :=
  (Function.forall_update_iff state.cores holds).mpr ⟨here, others⟩ other

/-- A write to the distributor for a target reaches this target. -/
theorem sgirTarget_iff (less : target < 8) (other : Nat) :
    sgirTarget (0x10000 <<< target) other = true ↔ other = target := by
  unfold sgirTarget
  rw [decide_eq_true_iff]
  constructor
  · rintro ⟨otherLess, bit⟩
    revert target other
    decide
  · rintro rfl
    refine ⟨less, ?_⟩
    revert other
    decide

/-- What is triggered is pending. -/
theorem trigger_pending (known : version = .v2 → target < 8) :
    ∃ source, (state.trigger version cpu target).pending target source = true := by
  cases version with
  | v2 => exact ⟨cpu, decide_eq_true (Or.inl ⟨(sgirTarget_iff (known rfl) target).mpr rfl, rfl⟩)⟩
  | v3 =>
      refine ⟨0, ?_⟩
      rw [State.trigger]
      dsimp only
      rw [Function.update_self, Function.update_self]

/-- What was pending stays so when something is triggered. -/
theorem pending_trigger {source : Nat} (isPending : state.pending target source = true) :
    (state.trigger version cpu other).pending target source = true := by
  cases version with
  | v2 => exact decide_eq_true (Or.inr isPending)
  | v3 =>
      change Function.update state.pending other _ target source = true
      by_cases same : target = other
      · subst same
        rw [Function.update_self]
        by_cases first : source = 0
        · subst first
          rw [Function.update_self]
        · rw [Function.update_of_ne first]
          exact isPending
      · rw [Function.update_of_ne same]
        exact isPending

/-- What was read of a word is known until the CPU moves on. -/
theorem agrees_move (heard : state.Heard version)
    (seen : ∀ target, ∀ value ∈ place.seen target, value = (state.ipicmds target).value)
    (target : Nat) :
    (state.ipicmds target).Agrees fun other => ((state.move cpu place).cores other).seen target :=
  @forall_move state cpu place (fun other place => (state.ipicmds target).monitored other = true →
    ∀ value ∈ place.seen target, value = (state.ipicmds target).value)
    (fun _ => seen target) fun other _ => heard.agrees target other

/-- A CPU moves on to something for a target that there is. -/
theorem known_move (heard : state.Heard version)
    (known : version = .v2 → ∀ target ∈ place.target, target < 8) (isV2 : version = .v2) :
    ∀ other, ∀ target ∈ ((state.move cpu place).cores other).target, target < 8 :=
  @forall_move state cpu place (fun _ place => ∀ target ∈ place.target, target < 8) (known isV2)
    fun other _ => heard.known isV2 other

/-- A CPU that does not raise an interrupt moves on, and whoever does still does. -/
theorem heard_move (heard : state.Heard version) (notRaises : ¬(state.cores cpu).Raises target)
    (waiting : (state.ipicmds target).value ≠ 0) :
    (∃ source, state.pending target source = true) ∨ state.handling target = true ∨
      ∃ raiser, ((state.move cpu place).cores raiser).Raises target := by
  rcases heard.heard target waiting with pending | handling | ⟨raiser, raises⟩
  · exact Or.inl pending
  · exact Or.inr (Or.inl handling)
  · refine Or.inr (Or.inr ⟨raiser, ?_⟩)
    have different : raiser ≠ cpu := by
      rintro rfl
      exact notRaises raises
    rw [move_cores_of_ne different]
    exact raises

/-- A CPU moves on without a change of the words. -/
theorem State.Heard.move (heard : state.Heard version)
    (notRaises : ∀ target, ¬(state.cores cpu).Raises target)
    (seen : ∀ target, ∀ value ∈ place.seen target, value = (state.ipicmds target).value)
    (known : version = .v2 → ∀ target ∈ place.target, target < 8) :
    (state.move cpu place).Heard version where
  agrees := agrees_move heard seen
  ledger := heard.ledger
  known := known_move heard known
  heard := fun target waiting => heard_move heard (notRaises target) waiting

/-- The monitors of a word change. -/
theorem State.Heard.setMonitors (heard : state.Heard version) {word : Word Nat (BitVec 32)}
    (value : word.value = (state.ipicmds target).value)
    (agrees : word.Agrees fun other => (state.cores other).seen target) :
    (state.setWord target word).Heard version := by
  have values : ∀ other, ((state.setWord target word).ipicmds other).value =
      (state.ipicmds other).value := by
    intro other
    change Word.value (Function.update state.ipicmds target word other) = _
    by_cases same : other = target
    · subst same
      rw [Function.update_self, value]
    · rw [Function.update_of_ne same]
  exact {
    agrees := by
      intro other
      change Word.Agrees (Function.update state.ipicmds target word other) _
      by_cases same : other = target
      · subst same
        rw [Function.update_self]
        exact agrees
      · rw [Function.update_of_ne same]
        exact heard.agrees other
    ledger := fun other => by rw [values]; exact heard.ledger other
    known := heard.known
    heard := fun other waiting => heard.heard other (values other ▸ waiting) }

/-- The exclusive store goes through: the command is in the word, with those that were there. -/
theorem State.Heard.exchange (heard : state.Heard version)
    (isLoaded : state.cores cpu = .loaded target cmd w7)
    (monitored : (state.ipicmds target).monitored cpu = true) :
    (((state.setWord target ((state.ipicmds target).store (w7 ||| cmd))).record target
      (.sent cmd)).move cpu (.stored target w7)).Heard version := by
  have isSeen : w7 ∈ (state.cores cpu).seen target := by
    rw [isLoaded]
    exact if_pos rfl
  have value : w7 = (state.ipicmds target).value := heard.agrees target cpu monitored w7 isSeen
  exact {
    agrees := by
      intro other
      change Word.Agrees (Function.update state.ipicmds target _ other)
        fun party => ((state.move cpu (.stored target w7)).cores party).seen other
      by_cases same : other = target
      · subst same
        rw [Function.update_self]
        exact Word.store_agrees _ _ _
      · rw [Function.update_of_ne same]
        exact agrees_move heard (fun _ _ none => by cases none) other
    ledger := by
      intro other
      change (Function.update state.log target (state.log target ++ [Entry.sent cmd]) other).foldlM
        account 0 = some (Word.value (Function.update state.ipicmds target _ other))
      by_cases same : other = target
      · subst same
        rw [Function.update_self, Function.update_self, List.foldlM_append, heard.ledger, value]
        rfl
      · rw [Function.update_of_ne same, Function.update_of_ne same]
        exact heard.ledger other
    known := by
      refine @known_move version state cpu (.stored target w7) heard fun isV2 other isTarget => ?_
      obtain rfl := Option.some.inj isTarget
      exact heard.known isV2 cpu target (by rw [isLoaded]; rfl)
    heard := by
      intro other waiting
      by_cases same : other = target
      · subst same
        by_cases empty : w7 = 0
        · refine Or.inr (Or.inr ⟨cpu, ?_⟩)
          rw [move_cores_self, empty]
          rfl
        · refine heard_move heard ?_ (value ▸ empty)
          rw [isLoaded]
          nofun
      · refine heard_move heard ?_ ?_
        · rw [isLoaded]
          nofun
        · change Word.value (Function.update state.ipicmds target _ other) ≠ 0 at waiting
          rw [Function.update_of_ne same] at waiting
          exact waiting }

/-- The interrupt is triggered. -/
theorem State.Heard.trigger (heard : state.Heard version)
    (isStored : state.cores cpu = .stored target w7) :
    ((state.trigger version cpu target).move cpu .out).Heard version := by
  have isTarget : target ∈ (state.cores cpu).target := by rw [isStored]; rfl
  have words : (state.trigger version cpu target).ipicmds = state.ipicmds := by
    cases version <;> rfl
  have log : (state.trigger version cpu target).log = state.log := by cases version <;> rfl
  have handles : (state.trigger version cpu target).handling = state.handling := by
    cases version <;> rfl
  have moved : ((state.trigger version cpu target).move cpu .out).cores =
      (state.move cpu .out).cores := by cases version <;> rfl
  exact {
    agrees := by
      rw [moved]
      change ∀ other, ((state.trigger version cpu target).ipicmds other).Agrees _
      rw [words]
      exact agrees_move heard fun _ _ none => by cases none
    ledger := by
      change ∀ other, ((state.trigger version cpu target).log other).foldlM account 0 =
        some ((state.trigger version cpu target).ipicmds other).value
      rw [words, log]
      exact heard.ledger
    known := by
      rw [moved]
      exact @known_move version state cpu .out heard (fun _ _ none => by cases none)
    heard := by
      intro other waiting
      change ((state.trigger version cpu target).ipicmds other).value ≠ 0 at waiting
      rw [words] at waiting
      rw [moved]
      change (∃ source, (state.trigger version cpu target).pending other source = true) ∨
        (state.trigger version cpu target).handling other = true ∨ _
      rw [handles]
      by_cases same : other = target
      · subst same
        exact Or.inl (trigger_pending fun isV2 => heard.known isV2 cpu other isTarget)
      · have others : ¬(state.cores cpu).Raises other := by
          rw [isStored]
          rintro ⟨⟩
          exact same rfl
        rcases @heard_move version state cpu other .out heard others waiting with
          ⟨source, pending⟩ | later
        · exact Or.inl ⟨source, pending_trigger pending⟩
        · exact Or.inr later }

/-- The kernel takes the interrupt. -/
theorem State.Heard.take {source : Nat} (heard : state.Heard version) :
    ({ state with
      pending := Function.update state.pending target
        (Function.update (state.pending target) source false)
      handling := Function.update state.handling target true } : State).Heard version :=
  { heard with
    heard := by
      intro other waiting
      dsimp only
      by_cases same : other = target
      · subst same
        exact Or.inr (Or.inl (Function.update_self ..))
      · rw [Function.update_of_ne same, Function.update_of_ne same]
        exact heard.heard other waiting }

/-- The kernel takes the commands. -/
theorem State.Heard.empty (heard : state.Heard version) :
    ({ (state.setWord target ((state.ipicmds target).store 0)).record target
        (.taken (state.ipicmds target).value) with
      handling := Function.update state.handling target false } : State).Heard version where
  agrees := by
    intro other
    change Word.Agrees (Function.update state.ipicmds target _ other) _
    by_cases same : other = target
    · subst same
      rw [Function.update_self]
      exact Word.store_agrees _ _ _
    · rw [Function.update_of_ne same]
      exact heard.agrees other
  ledger := by
    intro other
    change (Function.update state.log target (state.log target ++ [Entry.taken _]) other).foldlM
      account 0 = some (Word.value (Function.update state.ipicmds target _ other))
    by_cases same : other = target
    · subst same
      rw [Function.update_self, Function.update_self, List.foldlM_append, heard.ledger]
      change (account _ (.taken _)).bind some = _
      rw [account, if_pos rfl]
      rfl
    · rw [Function.update_of_ne same, Function.update_of_ne same]
      exact heard.ledger other
  known := heard.known
  heard := by
    intro other waiting
    change Word.value (Function.update state.ipicmds target _ other) ≠ 0 at waiting
    by_cases same : other = target
    · subst same
      rw [Function.update_self] at waiting
      exact absurd rfl waiting
    · rw [Function.update_of_ne same] at waiting
      dsimp only
      rw [Function.update_of_ne same]
      exact heard.heard other waiting

/-- A step of the callout. -/
theorem State.Heard.coreStep (heard : state.Heard version)
    (stepped : coreStep version state cpu = some after) : after.Heard version := by
  unfold Ipi.coreStep at stepped
  cases isAt : state.cores cpu with
  | out =>
      rw [isAt] at stepped
      cases stepped
  | loading target cmd =>
      rw [isAt] at stepped
      obtain rfl := Option.some.inj stepped
      have read : (state.setWord target ((state.ipicmds target).load cpu)).Heard version := by
        refine heard.setMonitors rfl ((heard.agrees target).load (fun _ _ => rfl) ?_)
        rw [isAt]
        exact fun _ none => by cases none
      have same : (state.ipicmds target).value =
          ((state.setWord target ((state.ipicmds target).load cpu)).ipicmds target).value := by
        change _ = Word.value (Function.update state.ipicmds target _ target)
        rw [Function.update_self]
        rfl
      refine read.move ?_ (fun other value isSeen => ?_) fun isV2 other isTarget => ?_
      · intro other raises
        cases isAt.symm.trans raises
      · unfold Place.seen at isSeen
        dsimp only at isSeen
        split at isSeen
        · next here =>
            subst here
            exact (Option.some.inj isSeen).symm.trans same
        · cases isSeen
      · obtain rfl := Option.some.inj isTarget
        exact heard.known isV2 cpu target (by rw [isAt]; rfl)
  | loaded target cmd w7 =>
      rw [isAt] at stepped
      obtain rfl := Option.some.inj stepped
      have lost : (state.setWord target ((state.ipicmds target).lose cpu)).Heard version :=
        heard.setMonitors rfl ((heard.agrees target).lose fun _ _ => Or.inr rfl)
      refine lost.move ?_ (fun _ _ none => by cases none) fun isV2 other isTarget => ?_
      · intro other raises
        cases isAt.symm.trans raises
      · obtain rfl := Option.some.inj isTarget
        exact heard.known isV2 cpu target (by rw [isAt]; rfl)
  | stored target w7 =>
      rw [isAt] at stepped
      dsimp only at stepped
      split at stepped
      · next filled =>
          obtain rfl := Option.some.inj stepped
          refine heard.move ?_ (fun _ _ none => by cases none) (fun _ _ none => by cases none)
          intro other raises
          rw [isAt] at raises
          cases raises
          exact filled rfl
      · obtain rfl := Option.some.inj stepped
        exact heard.trigger isAt

/-- Every step keeps it. -/
theorem State.Heard.act {action : Act} (heard : state.Heard version)
    (known : Known version state action) (acted : act version state action = some after) :
    after.Heard version := by
  cases action with
  | send cpu target cmd =>
      rw [Ipi.act] at acted
      split at acted
      · next isOut =>
          obtain rfl := Option.some.inj acted
          refine heard.move (by rw [isOut]; nofun) (fun _ _ none => by cases none)
            fun isV2 other isTarget => ?_
          obtain rfl := Option.some.inj isTarget
          exact known isV2
      · cases acted
  | core cpu => exact heard.coreStep acted
  | exchange cpu =>
      rw [Ipi.act, Ipi.exchange] at acted
      split at acted
      · next target cmd w7 isLoaded =>
          split at acted
          · next monitored =>
              obtain rfl := Option.some.inj acted
              exact heard.exchange isLoaded monitored
          · cases acted
      · cases acted
  | lose cpu target =>
      obtain rfl := Option.some.inj acted
      exact heard.setMonitors rfl ((heard.agrees target).lose fun _ _ => Or.inr rfl)
  | take target source =>
      rw [Ipi.act] at acted
      split at acted
      · obtain rfl := Option.some.inj acted
        exact heard.take
      · cases acted
  | empty target =>
      rw [Ipi.act] at acted
      split at acted
      · obtain rfl := Option.some.inj acted
        exact heard.empty
      · cases acted

theorem State.initial_heard : State.initial.Heard version where
  agrees := fun _ => Word.fresh_agrees _ _
  ledger := fun _ => rfl
  known := fun _ _ _ none => by cases none
  heard := fun _ waiting => absurd rfl waiting

theorem heard_of_reaches (reached : Reaches (act version) (Known version) .initial state) :
    state.Heard version :=
  reached.invariant (State.Heard version) State.initial_heard
    fun _ _ _ heard known acted => heard.act known acted

/-- However the CPUs take turns, what the kernel of a target takes out of its word each time is what
was sent since the time before, and the rest is still in the word; and as long as there is
something in the word, an interrupt for the target is pending, or is being handled, or the CPU that
found the word empty is about to trigger it. -/
theorem no_command_lost (reached : Reaches (act version) (Known version) .initial state)
    (target : Nat) :
    (state.log target).foldlM account 0 = some (state.ipicmds target).value ∧
      ((state.ipicmds target).value ≠ 0 →
        (∃ source, state.pending target source = true) ∨ state.handling target = true ∨
          ∃ cpu, state.cores cpu = .stored target 0) :=
  have heard := heard_of_reaches reached
  ⟨heard.ledger target, heard.heard target⟩

/-- Two CPUs have sent commands to the first one, and the interrupt is still to be triggered. -/
theorem both_sent : ∃ state, Reaches (act .v2) (Known .v2) .initial state ∧
    (state.ipicmds 0).value = 3 ∧ state.log 0 = [.sent 1, .sent 2] ∧
    state.cores 1 = .stored 0 0 := by
  refine ⟨_, ((((((Reaches.refl.next
    (show act .v2 _ (.send 1 0 1) = some _ from rfl) (fun _ => by decide)).next
    (show act .v2 _ (.send 2 0 2) = some _ from rfl) (fun _ => by decide)).next
    (show act .v2 _ (.core 1) = some _ from rfl) trivial).next
    (show act .v2 _ (.exchange 1) = some _ from rfl) trivial).next
    (show act .v2 _ (.core 2) = some _ from rfl) trivial).next
    (show act .v2 _ (.exchange 2) = some _ from rfl) trivial), ?_, ?_, rfl⟩
  · decide
  · decide

/-- Both commands are in the word, and its target will be interrupted. -/
theorem no_command_lost_two : ∃ state, Reaches (act .v2) (Known .v2) .initial state ∧
    state.log 0 = [.sent 1, .sent 2] ∧
    ((∃ source, state.pending 0 source = true) ∨ state.handling 0 = true ∨
      ∃ cpu, state.cores cpu = .stored 0 0) := by
  obtain ⟨state, reached, value, log, -⟩ := both_sent
  refine ⟨state, reached, log, (no_command_lost reached 0).2 ?_⟩
  rw [value]
  decide

end Bcm2711.Gic.Ipi
