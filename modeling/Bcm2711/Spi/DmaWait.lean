import Bcm2711.Spi.Transfer
import Bcm2711.Lib.Actions
import Bcm2711.Dma.Completion

/-! # Waiting for a transfer moved by DMA

Interrupt events of the controller and of the receive channel all post the semaphore of the
bus, possibly late.  `bcm2711spi_wait` takes one post for the completion of whatever
transfer is under way; nothing takes back the posts an earlier transfer left.
-/

namespace Bcm2711.Spi

/-! ## Transfers and the semaphore -/

/-- A transfer, with the bytes its channels have moved, and the status it returned. -/
structure Transfer where
  path : Path
  lengths : Lengths
  sent : Nat
  stored : Nat
  status : Option Status
deriving DecidableEq, Repr

/-- A bus: the posts in its semaphore, the events raised that have not posted yet, and the
last transfer. -/
structure SemBus where
  sem : Nat
  late : Nat
  transfer : Option Transfer
deriving DecidableEq, Repr

/-- A bus before any transfer. -/
def SemBus.fresh : SemBus := ⟨0, 0, none⟩

/-- The transfer under way on one path. -/
def SemBus.underWay (bus : SemBus) (path : Path) : Option Transfer :=
  bus.transfer.filter fun transfer => transfer.path = path ∧ transfer.status = none

/-- No transfer is under way. -/
def SemBus.free (bus : SemBus) : Bool := bus.transfer.all fun transfer => transfer.status.isSome

/-- A channel with what `xfer_complete` reads of its registers. -/
structure Channel where
  chan : Dma.DmaChannel
  registers : Dma.Registers

/-- The status of a completed DMA transfer: `xfer_complete` of both channels. -/
def completeStatus (rx tx : Channel) : Status :=
  match (Dma.xferComplete rx.chan rx.registers).ret,
      (Dma.xferComplete tx.chan tx.registers).ret with
  | .ok, .ok => .EOK
  | _, _ => Status.EIO

/-! ## Actions -/

/-- What can happen on a bus. -/
inductive BusAction where
  /-- A call gets as far as waiting for its transfer. -/
  | start (path : Path) (tnbytes rnbytes : Nat)
  /-- The controller raises an interrupt event. -/
  | spiEvent
  /-- The transmit channel sends a byte. -/
  | sendByte
  /-- The receive channel stores a byte. -/
  | storeByte
  /-- An event that was raised posts the semaphore. -/
  | post
  /-- The caller takes a post for a transfer moved by interrupts. -/
  | wakePio (complete : Bool)
  /-- The caller takes a post for a transfer moved by DMA. -/
  | wakeDma (rx tx : Channel)
  /-- The caller's wait times out. -/
  | timeout

/-- The bus when a transfer has just been started. -/
def SemBus.started (bus : SemBus) (path : Path) (tnbytes rnbytes : Nat) : SemBus :=
  { bus with transfer := some ⟨path, effective tnbytes rnbytes, 0, 0, none⟩ }

/-- One action on a bus. -/
def SemBus.act (bus : SemBus) : BusAction → Option SemBus
  | .start path tnbytes rnbytes =>
      if bus.free then some (bus.started path tnbytes rnbytes) else none
  | .spiEvent => (bus.underWay .pio).map fun _ => { bus with late := bus.late + 1 }
  | .sendByte =>
      match bus.underWay .dma with
      | some transfer =>
          if transfer.sent < transfer.lengths.tnbytes then
            some { bus with transfer := some { transfer with sent := transfer.sent + 1 } }
          else none
      | none => none
  | .storeByte =>
      match bus.underWay .dma with
      | some transfer =>
          if transfer.stored < transfer.lengths.rnbytes ∧ transfer.stored < transfer.sent then
            -- the last byte completes the receive channel, which raises its event
            some { bus with
              late := if transfer.stored + 1 = transfer.lengths.rnbytes then bus.late + 1
                else bus.late
              transfer := some { transfer with stored := transfer.stored + 1 } }
          else none
      | none => none
  | .post =>
      if 0 < bus.late then some { bus with late := bus.late - 1, sem := bus.sem + 1 } else none
  | .wakePio complete =>
      match bus.underWay .pio with
      | some transfer =>
          if 0 < bus.sem then
            some { bus with
              sem := bus.sem - 1
              transfer := some { transfer with status := if complete then some .EOK else none } }
          else none
      | none => none
  | .wakeDma rx tx =>
      match bus.underWay .dma with
      | some transfer =>
          if 0 < bus.sem then
            some { bus with
              sem := bus.sem - 1
              transfer := some { transfer with status := some (completeStatus rx tx) } }
          else none
      | none => none
  | .timeout =>
      match bus.transfer with
      | some transfer =>
          if transfer.status = none ∧ bus.sem = 0 then
            some { bus with transfer := some { transfer with status := some .ETIMEDOUT } }
          else none
      | none => none

/-- The transfer did everything its channels were set up for. -/
def Transfer.moved (transfer : Transfer) : Prop :=
  transfer.sent = transfer.lengths.tnbytes ∧ transfer.stored = transfer.lengths.rnbytes

/-- A DMA transfer that returned with success has moved all its bytes. -/
def SemBus.truthful (bus : SemBus) : Prop :=
  ∀ transfer, bus.transfer = some transfer → transfer.path = .dma →
    transfer.status = some .EOK → transfer.moved

/-- Nothing is left of earlier events when the transfer starts, and it has no more bytes to
send than to receive. -/
def SemBus.quiet (bus : SemBus) (tnbytes rnbytes : Nat) : Prop :=
  (tnbytes = 0 ∧ rnbytes = 0) ∨
    (bus.sem = 0 ∧ bus.late = 0 ∧ (tnbytes = 0 ∨ rnbytes = 0 ∨ tnbytes ≤ rnbytes))

/-- Every DMA transfer starts quietly. -/
def quietStarts (bus : SemBus) : BusAction → Prop
  | .start .dma tnbytes rnbytes => bus.quiet tnbytes rnbytes
  | _ => True

/-- The actions of one call after its start. -/
def duringCall (_ : SemBus) : BusAction → Prop
  | .start _ _ _ => False
  | _ => True

/-! ## Quiet starts -/

variable {bus after : SemBus}

/-- What is under way on a path. -/
theorem underWay_eq_some {path : Path} {transfer : Transfer}
    (under : bus.underWay path = some transfer) :
    bus.transfer = some transfer ∧ transfer.path = path ∧ transfer.status = none := by
  obtain ⟨isLast, waits⟩ := Option.filter_eq_some_iff.mp under
  exact ⟨isLast, of_decide_eq_true waits⟩

/-- Both effective lengths of a request that asks for something are positive. -/
theorem effective_pos {tnbytes rnbytes : Nat} (some : ¬ (tnbytes = 0 ∧ rnbytes = 0)) :
    0 < (effective tnbytes rnbytes).tnbytes ∧ 0 < (effective tnbytes rnbytes).rnbytes := by
  unfold effective
  split
  · next none =>
      have positive : 0 < rnbytes := Nat.pos_of_ne_zero fun empty => some ⟨none, empty⟩
      exact ⟨positive, positive⟩
  · next sends =>
      have positive := Nat.pos_of_ne_zero sends
      split
      · exact ⟨positive, positive⟩
      · next stores => exact ⟨positive, Nat.pos_of_ne_zero stores⟩

theorem effective_le_iff {tnbytes rnbytes : Nat} :
    (effective tnbytes rnbytes).tnbytes ≤ (effective tnbytes rnbytes).rnbytes ↔
      tnbytes = 0 ∨ rnbytes = 0 ∨ tnbytes ≤ rnbytes := by
  unfold effective
  split
  · next none => simp [none]
  · next some =>
      split
      · next none => simp [none]
      · next other => simp [some, other]

/-- A transfer whose start was quiet: the only post it can see is that of its own receive
channel, raised when that has stored everything. -/
structure Transfer.Sound (posts : Nat) (transfer : Transfer) : Prop where
  order : transfer.stored ≤ transfer.sent
  sentUpTo : transfer.sent ≤ transfer.lengths.tnbytes
  storedUpTo : transfer.stored ≤ transfer.lengths.rnbytes
  own : transfer.path = .dma → transfer.status = none →
    (transfer.lengths.tnbytes = 0 ∧ transfer.lengths.rnbytes = 0) ∨
      (transfer.lengths.tnbytes ≤ transfer.lengths.rnbytes ∧
        posts = if transfer.stored = transfer.lengths.rnbytes then 1 else 0)
  done : transfer.path = .dma → transfer.status = some .EOK → transfer.moved

/-- The last transfer on a bus is sound. -/
def SemBus.Sound (bus : SemBus) : Prop :=
  ∀ transfer, bus.transfer = some transfer → transfer.Sound (bus.sem + bus.late)

/-- A quiet start is sound. -/
theorem sound_started {path : Path} {tnbytes rnbytes : Nat}
    (quiet : path = .dma → bus.quiet tnbytes rnbytes) :
    (bus.started path tnbytes rnbytes).Sound := by
  intro transfer same
  cases same
  refine ⟨le_rfl, Nat.zero_le _, Nat.zero_le _, ?_, ?_⟩
  · intro isDma _
    by_cases nothing : tnbytes = 0 ∧ rnbytes = 0
    · obtain ⟨rfl, rfl⟩ := nothing
      exact .inl ⟨rfl, rfl⟩
    · obtain ⟨sem, late, order⟩ := (quiet isDma).resolve_left nothing
      refine .inr ⟨effective_le_iff.mpr order, ?_⟩
      have positive := (effective_pos nothing).2
      rw [if_neg positive.ne]
      show bus.sem + bus.late = 0
      rw [sem, late]
  · intro _ returned
    cases returned

/-- A transfer that returned without a false success is sound whatever is posted. -/
theorem Transfer.Sound.ended {posts postsAfter : Nat} {transfer : Transfer}
    (sound : transfer.Sound posts) {status : Status}
    (earned : transfer.path = .dma → status = .EOK → transfer.moved) :
    Transfer.Sound postsAfter { transfer with status := some status } where
  order := sound.order
  sentUpTo := sound.sentUpTo
  storedUpTo := sound.storedUpTo
  own _ waits := by cases waits
  done isDma returned := earned isDma (Option.some.inj returned)

/-- A sound transfer has moved everything when there is a post to take. -/
theorem Transfer.Sound.moved {posts : Nat} {transfer : Transfer} (sound : transfer.Sound posts)
    (isDma : transfer.path = .dma) (waits : transfer.status = none) (posted : 0 < posts) :
    transfer.moved := by
  obtain ⟨order, sentUpTo, storedUpTo, own, _⟩ := sound
  rcases own isDma waits with ⟨noneToSend, noneToStore⟩ | ⟨balanced, counted⟩
  · exact ⟨by omega, by omega⟩
  · have all : transfer.stored = transfer.lengths.rnbytes := by
      by_contra missing
      rw [if_neg missing] at counted
      omega
    exact ⟨by omega, all⟩

/-- Every action keeps the bus sound while DMA transfers start quietly. -/
theorem SemBus.Sound.act (sound : bus.Sound) {action : BusAction}
    (quiet : quietStarts bus action) (acted : bus.act action = some after) : after.Sound := by
  cases action with
  | start path tnbytes rnbytes =>
      obtain ⟨_, same⟩ := Option.ite_none_right_eq_some.mp acted
      cases same
      refine sound_started fun isDma => ?_
      subst isDma
      exact quiet
  | spiEvent =>
      obtain ⟨transfer, under, rfl⟩ := Option.map_eq_some_iff.mp acted
      obtain ⟨isLast, isPio, _⟩ := underWay_eq_some under
      intro other same
      cases isLast.symm.trans same
      have before := sound transfer isLast
      exact
        { before with
          own := fun isDma => by
            rw [isPio] at isDma
            cases isDma }
  | sendByte =>
      simp only [SemBus.act] at acted
      split at acted
      · next transfer under =>
          obtain ⟨more, same⟩ := Option.ite_none_right_eq_some.mp acted
          cases same
          obtain ⟨isLast, isDma, waits⟩ := underWay_eq_some under
          have before := sound transfer isLast
          intro other same
          cases same
          exact
            { before with
              order := before.order.trans (Nat.le_succ _)
              sentUpTo := more
              done := fun _ returned => by
                rw [waits] at returned
                cases returned }
      · cases acted
  | storeByte =>
      simp only [SemBus.act] at acted
      split at acted
      · next transfer under =>
          obtain ⟨⟨more, available⟩, same⟩ := Option.ite_none_right_eq_some.mp acted
          cases same
          obtain ⟨isLast, isDma, waits⟩ := underWay_eq_some under
          have before := sound transfer isLast
          intro other same
          cases same
          refine ⟨available, before.sentUpTo, more, ?_, ?_⟩
          · intro _ _
            refine (before.own isDma waits).imp_right fun ⟨balanced, counted⟩ => ⟨balanced, ?_⟩
            rw [if_neg more.ne] at counted
            show bus.sem + (if transfer.stored + 1 = _ then _ else _) = _
            split
            · omega
            · exact counted
          · intro _ returned
            rw [waits] at returned
            cases returned
      · cases acted
  | post =>
      obtain ⟨some, same⟩ := Option.ite_none_right_eq_some.mp acted
      cases same
      intro transfer isLast
      have posts : bus.sem + 1 + (bus.late - 1) = bus.sem + bus.late := by omega
      show transfer.Sound (bus.sem + 1 + (bus.late - 1))
      rw [posts]
      exact sound transfer isLast
  | wakePio complete =>
      simp only [SemBus.act] at acted
      split at acted
      · next transfer under =>
          obtain ⟨_, same⟩ := Option.ite_none_right_eq_some.mp acted
          cases same
          obtain ⟨isLast, isPio, _⟩ := underWay_eq_some under
          have before := sound transfer isLast
          intro other same
          cases same
          exact
            { before with
              own := fun isDma => by
                rw [isPio] at isDma
                cases isDma
              done := fun isDma => by
                rw [isPio] at isDma
                cases isDma }
      · cases acted
  | wakeDma rx tx =>
      simp only [SemBus.act] at acted
      split at acted
      · next transfer under =>
          obtain ⟨posted, same⟩ := Option.ite_none_right_eq_some.mp acted
          cases same
          obtain ⟨isLast, isDma, waits⟩ := underWay_eq_some under
          have before := sound transfer isLast
          intro other same
          cases same
          exact before.ended fun _ _ =>
            before.moved isDma waits (posted.trans_le (Nat.le_add_right _ _))
      · cases acted
  | timeout =>
      simp only [SemBus.act] at acted
      split at acted
      · next transfer isLast =>
          obtain ⟨_, same⟩ := Option.ite_none_right_eq_some.mp acted
          cases same
          intro other same
          cases same
          refine (sound transfer isLast).ended fun _ returned => ?_
          cases returned
      · cases acted

theorem SemBus.Sound.truthful (sound : bus.Sound) : bus.truthful :=
  fun transfer isLast isDma returned => (sound transfer isLast).done isDma returned

/-- With quiet starts no transfer returns a false success. -/
theorem truthful_of_quiet (reached : Actions.Reaches SemBus.act quietStarts .fresh bus) :
    bus.truthful := by
  have sound : bus.Sound := by
    refine reached.invariant SemBus.Sound ?_ fun _ _ _ sound quiet acted => sound.act quiet acted
    intro transfer none
    cases none
  exact sound.truthful

/-- A call that started quietly returns no false success. -/
theorem truthful_of_quiet_call {tnbytes rnbytes : Nat} (quiet : bus.quiet tnbytes rnbytes)
    (reached : Actions.Reaches SemBus.act duringCall (bus.started .dma tnbytes rnbytes) after) :
    after.truthful := by
  have sound : after.Sound := by
    refine reached.invariant SemBus.Sound (sound_started fun _ => quiet) ?_
    intro _ action _ sound during acted
    refine sound.act ?_ acted
    cases action with
    | start path tnbytes rnbytes => exact during.elim
    | _ => trivial
  exact sound.truthful

/-! ## Starts that are not quiet -/

/-- A channel whose engine reports no error. -/
def calmChannel : Channel where
  chan :=
    { chanIdx := Dma.firstChannel, status := 0, xferUnitSize := 4, numCbs := 0, frgsNum := 1,
      frgCount := 1, mflags := 0, aflags := Dma.DMA_ATTACH_EVENT_ON_COMPLETE,
      cb := ⟨0, 0, Nat.two_pow_pos 32⟩, cbs := [], xferType := .ioToIo,
      numCbs_lt := Nat.two_pow_pos 32 }
  registers := ⟨0, 0, true⟩

/-- Two channels without an error complete. -/
theorem completeStatus_calm : completeStatus calmChannel calmChannel = .EOK := by
  have ret := @Dma.xferComplete_ret calmChannel.chan calmChannel.registers rfl
  unfold completeStatus
  rw [ret]

/-- A DMA transfer under way that has moved this much, with these posts and late events. -/
def moving (lengths : Lengths) (moved sem late : Nat) : SemBus :=
  ⟨sem, late, some ⟨.dma, lengths, moved, moved, none⟩⟩

theorem underWay_moving (lengths : Lengths) (moved sem late : Nat) :
    (moving lengths moved sem late).underWay .dma =
      some ⟨.dma, lengths, moved, moved, none⟩ := rfl

/-- A post in the semaphore ends a transfer that has not moved everything. -/
theorem exists_false_success {start : SemBus} {lengths : Lengths} {moved sem late : Nat}
    (reached : Actions.Reaches SemBus.act duringCall start (moving lengths moved sem late))
    (posted : 0 < sem) (short : moved < lengths.tnbytes) :
    ∃ after, Actions.Reaches SemBus.act duringCall start after ∧ ¬ after.truthful := by
  have woken : (moving lengths moved sem late).act (.wakeDma calmChannel calmChannel) =
      some ⟨sem - 1, late, some ⟨.dma, lengths, moved, moved, some .EOK⟩⟩ := by
    simp only [SemBus.act, underWay_moving, completeStatus_calm]
    exact if_pos posted
  refine ⟨_, reached.next woken trivial, fun truthful => ?_⟩
  exact short.ne (truthful _ rfl rfl rfl).1

/-- A late event posts the semaphore. -/
theorem reaches_post {start : SemBus} {lengths : Lengths} {moved sem late : Nat}
    (reached : Actions.Reaches SemBus.act duringCall start (moving lengths moved sem late))
    (raised : 0 < late) :
    Actions.Reaches SemBus.act duringCall start (moving lengths moved (sem + 1) (late - 1)) := by
  have posted : (moving lengths moved sem late).act .post =
      some (moving lengths moved (sem + 1) (late - 1)) := if_pos raised
  exact reached.next posted trivial

/-- Every byte sent is stored, up to the last one to store. -/
theorem reaches_moved (lengths : Lengths) (sem late count : Nat)
    (sends : count ≤ lengths.tnbytes) (stores : count < lengths.rnbytes) :
    Actions.Reaches SemBus.act duringCall (moving lengths 0 sem late)
      (moving lengths count sem late) := by
  induction count with
  | zero => exact .refl
  | succ count ih =>
      have sent : (moving lengths count sem late).act .sendByte =
          some ⟨sem, late, some ⟨.dma, lengths, count + 1, count, none⟩⟩ := if_pos sends
      have stored : (⟨sem, late, some ⟨.dma, lengths, count + 1, count, none⟩⟩ : SemBus).act
          .storeByte = some (moving lengths (count + 1) sem late) := by
        refine (if_pos ⟨Nat.lt_of_succ_lt stores, Nat.lt_succ_self count⟩).trans ?_
        rw [if_neg stores.ne]
        rfl
      have before := ih (Nat.le_of_succ_le sends) (Nat.lt_of_succ_lt stores)
      exact (before.next sent trivial).next stored trivial

/-- The receive channel stores its last byte and raises its event. -/
theorem reaches_event (lengths : Lengths) (sem late : Nat)
    (sends : lengths.rnbytes ≤ lengths.tnbytes) (stores : 0 < lengths.rnbytes) :
    Actions.Reaches SemBus.act duringCall (moving lengths 0 sem late)
      (moving lengths lengths.rnbytes sem (late + 1)) := by
  obtain ⟨tnbytes, rnbytes⟩ := lengths
  obtain ⟨last, rfl⟩ := Nat.exists_eq_succ_of_ne_zero stores.ne'
  have before := reaches_moved ⟨tnbytes, last + 1⟩ sem late last (Nat.le_of_succ_le sends)
    (Nat.lt_succ_self last)
  have sent : (moving ⟨tnbytes, last + 1⟩ last sem late).act .sendByte =
      some ⟨sem, late, some ⟨.dma, ⟨tnbytes, last + 1⟩, last + 1, last, none⟩⟩ :=
    if_pos sends
  have stored : (⟨sem, late, some ⟨.dma, ⟨tnbytes, last + 1⟩, last + 1, last, none⟩⟩ :
      SemBus).act .storeByte = some (moving ⟨tnbytes, last + 1⟩ (last + 1) sem (late + 1)) := by
    refine (if_pos ⟨Nat.lt_succ_self last, Nat.lt_succ_self last⟩).trans ?_
    rw [if_pos rfl]
    rfl
  exact (before.next sent trivial).next stored trivial

/-- A start that is not quiet can end in a false success. -/
theorem exists_false_success_of_not_quiet {tnbytes rnbytes : Nat}
    (loud : ¬ bus.quiet tnbytes rnbytes) :
    ∃ after, Actions.Reaches SemBus.act duringCall (bus.started .dma tnbytes rnbytes) after ∧
      ¬ after.truthful := by
  obtain ⟨something, unclean⟩ := not_or.mp loud
  obtain ⟨sends, stores⟩ := effective_pos something
  have begun : Actions.Reaches SemBus.act duringCall (bus.started .dma tnbytes rnbytes)
      (moving (effective tnbytes rnbytes) 0 bus.sem bus.late) := .refl
  by_cases posted : 0 < bus.sem
  · exact exists_false_success begun posted sends
  · by_cases raised : 0 < bus.late
    · exact exists_false_success (reaches_post begun raised) (Nat.succ_pos _) sends
    · have more : (effective tnbytes rnbytes).rnbytes < (effective tnbytes rnbytes).tnbytes := by
        refine Nat.not_le.mp fun balanced => unclean ?_
        exact ⟨Nat.eq_zero_of_not_pos posted, Nat.eq_zero_of_not_pos raised,
          effective_le_iff.mp balanced⟩
      have stored := begun.trans (reaches_event _ _ _ more.le stores)
      exact exists_false_success (reaches_post stored (Nat.succ_pos _)) (Nat.succ_pos _) more

/-- **A DMA transfer returns no false success** in any run whose DMA transfers start
quietly, and a start from which no call returns one is quiet. -/
theorem dmaxfer_truthful (bus : SemBus) (tnbytes rnbytes : Nat) :
    (Actions.Reaches SemBus.act quietStarts .fresh bus → bus.truthful) ∧
      ((∀ after, Actions.Reaches SemBus.act duringCall (bus.started .dma tnbytes rnbytes) after →
        after.truthful) ↔ bus.quiet tnbytes rnbytes) := by
  refine ⟨fun reached => truthful_of_quiet reached, ⟨?_, ?_⟩⟩
  · intro truthful
    by_contra loud
    obtain ⟨after, reached, wrong⟩ := exists_false_success_of_not_quiet loud
    exact wrong (truthful after reached)
  · intro quiet after reached
    exact truthful_of_quiet_call quiet reached

/-- The event of a transfer that timed out completes the next one, which has moved
nothing. -/
theorem late_event_false_success :
    ∃ bus, Actions.Reaches SemBus.act Actions.always .fresh bus ∧ ¬ bus.truthful := by
  have performed : Actions.perform SemBus.act .fresh
      [.start .pio 1 1, .spiEvent, .timeout, .start .dma 4 4, .post,
        .wakeDma calmChannel calmChannel] =
      some ⟨0, 0, some ⟨.dma, ⟨4, 4⟩, 0, 0, some .EOK⟩⟩ := by decide
  refine ⟨_, Actions.reaches_of_perform performed, fun truthful => ?_⟩
  exact absurd (truthful _ rfl rfl rfl).1 (by decide)

end Bcm2711.Spi
