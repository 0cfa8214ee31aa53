import Bcm2711.I2c.Transfer

/-! # When the results of I2C transfers are truthful

A transfer reported as done has moved all its bytes without an error exactly when its length
fits DLEN, no status word showed a clock stretch timeout, which the driver masks, and none
read in the loops showed an error, which they do not look at.
-/

namespace Bcm2711.I2c

open Bytes (firstBytes length_firstBytes firstBytes_succ firstBytes_update)

/-! ## Status words -/

/-- The mask keeps a bit below it. -/
theorem has_masked {raw : BitVec 32} (bits : BitVec 32) (inside : STATREG_MASK &&& bits = bits) :
    has (raw &&& STATREG_MASK) bits = has raw bits := by
  unfold has
  rw [BitVec.and_assoc, inside]

/-- Of the two error bits only one is left by the mask. -/
theorem has_masked_error (raw : BitVec 32) :
    has (raw &&& STATREG_MASK) (STATREG_ERR ||| STATREG_CLKT) = has raw STATREG_ERR := by
  have left : STATREG_MASK &&& (STATREG_ERR ||| STATREG_CLKT) = STATREG_ERR := by decide
  unfold has
  rw [BitVec.and_assoc, left]

namespace Transfer

/-- What an interrupt leads to: an error, the last read, or more of the transfer. -/
theorem dispatch_cases (dir : Direction) (raw : BitVec 32) :
    (has raw STATREG_ERR = true ∧ dispatch dir (raw &&& STATREG_MASK) = .ended .nack) ∨
      (has raw STATREG_ERR = false ∧ has raw STATREG_DONE = true ∧
        dispatch dir (raw &&& STATREG_MASK) = .reading true) ∨
      (has raw STATREG_ERR = false ∧
        (dispatch dir (raw &&& STATREG_MASK) = .waiting ∨
          (dir = .rx ∧ dispatch dir (raw &&& STATREG_MASK) = .reading false) ∨
          (dir = .tx ∧ dispatch dir (raw &&& STATREG_MASK) = .pushing true))) := by
  unfold dispatch
  rw [has_masked_error, has_masked STATREG_DONE (by decide)]
  cases has raw STATREG_ERR with
  | true => exact .inl ⟨rfl, rfl⟩
  | false =>
      refine .inr ?_
      cases has raw STATREG_DONE with
      | true => exact .inl ⟨rfl, rfl, rfl⟩
      | false =>
          refine .inr ⟨rfl, ?_⟩
          cases dir with
          | tx =>
              simp only [Bool.false_eq_true, if_false, reduceCtorEq, false_and, true_and]
              split
              · split
                · exact .inr (.inr rfl)
                · exact .inl rfl
              · exact .inl rfl
          | rx =>
              simp only [Bool.false_eq_true, if_false, reduceCtorEq, false_and, true_and]
              split
              · split
                · exact .inr (.inl rfl)
                · exact .inl rfl
              · exact .inl rfl

end Transfer

/-! ## What is counted -/

/-- `push_data` may run before the transfer ends. -/
def Phase.refills : Phase → Bool
  | .pushing _ => true
  | .waiting => true
  | _ => false

/-- In `push_data`. -/
def Phase.pushes : Phase → Bool
  | .pushing _ => true
  | _ => false

/-- In `read_data` with the transfer not found done. -/
def Phase.partWay : Phase → Bool
  | .reading last => !last
  | .refreshing last => !last
  | _ => false

/-- The transfer was found done. -/
def Phase.afterDone : Phase → Bool
  | .reading last => last
  | .refreshing last => last
  | .ended status => status = .done
  | _ => false

/-- What holds of a transfer that sends. -/
structure TxCounted (buffer : Bytes.Memory) (transfer : Transfer) : Prop where
  written : transfer.written = firstBytes buffer transfer.written.length
  balance : transfer.written.length =
    transfer.moved + transfer.fifo.length + transfer.taken.length
  depth : transfer.fifo.length + transfer.taken.length ≤ fifoDepth
  untouched : transfer.taken = [] → transfer.buf = buffer
  untaken : transfer.phase.refills = true → transfer.taken = []
  whole : transfer.phase.partWay = false

/-- What holds of a transfer that receives. -/
structure RxCounted (transfer : Transfer) : Prop where
  written : transfer.written = []
  taken : transfer.taken = firstBytes transfer.buf transfer.taken.length
  balance : transfer.moved = transfer.taken.length + transfer.fifo.length
  reads : transfer.phase.pushes = false

/-- What is counted during a transfer of this buffer and length. -/
structure Counted (buffer : Bytes.Memory) (len : Nat) (transfer : Transfer) : Prop where
  totLen : transfer.totLen = len
  dlen : transfer.dlen = len % dlenRange
  movedUpTo : transfer.moved ≤ transfer.dlen
  counted : transfer.curLen = transfer.written.length + transfer.taken.length
  curLenUpTo : transfer.curLen ≤ transfer.totLen
  tx : transfer.dir = .tx → TxCounted buffer transfer
  rx : transfer.dir = .rx → RxCounted transfer

variable {buffer : Bytes.Memory} {len : Nat} {transfer after : Transfer}

/-- A transfer that begins has nothing counted. -/
theorem counted_begin {dir : Direction} {phase : Phase} (whole : phase.partWay = false)
    (reads : dir = .rx → phase.pushes = false) :
    Counted buffer len (.begin dir phase buffer len) where
  totLen := rfl
  dlen := rfl
  movedUpTo := Nat.zero_le _
  counted := rfl
  curLenUpTo := Nat.zero_le _
  tx _ :=
    { written := rfl
      balance := rfl
      depth := Nat.zero_le _
      untouched := fun _ => rfl
      untaken := fun _ => rfl
      whole := whole }
  rx isRx :=
    { written := rfl
      taken := rfl
      balance := rfl
      reads := reads isRx }

namespace Counted

/-- Another place of the driver, and other status words, count the same. -/
theorem elsewhere (counted : Counted buffer len transfer) {phase : Phase} {status : BitVec 32}
    {seen seenInLoops : List (BitVec 32)}
    (untaken : transfer.dir = .tx → phase.refills = true → transfer.taken = [])
    (whole : transfer.dir = .tx → phase.partWay = false)
    (reads : transfer.dir = .rx → phase.pushes = false) :
    Counted buffer len
      { transfer with
        phase := phase, status := status, seen := seen, seenInLoops := seenInLoops } :=
  { counted with
    tx := fun isTx =>
      { counted.tx isTx with
        untaken := untaken isTx
        whole := whole isTx }
    rx := fun isRx =>
      { counted.rx isRx with
        reads := reads isRx } }

/-- Only a transfer that sends is in `push_data`. -/
theorem isTx (counted : Counted buffer len transfer) (pushes : transfer.phase.pushes = true) :
    transfer.dir = .tx := by
  cases dir : transfer.dir with
  | tx => rfl
  | rx =>
      have reads := (counted.rx dir).reads
      rw [pushes] at reads
      cases reads

/-- A byte pushed into a FIFO with room is counted. -/
theorem push (counted : Counted buffer len transfer) (pushes : transfer.phase.pushes = true)
    (more : transfer.curLen < transfer.totLen) (room : transfer.fifo.length < fifoDepth) :
    Counted buffer len transfer.push := by
  have isTx := counted.isTx pushes
  have tx := counted.tx isTx
  have untaken : transfer.taken = [] := by
    refine tx.untaken ?_
    cases phase : transfer.phase with
    | pushing started => rfl
    | _ =>
        rw [phase] at pushes
        cases pushes
  have place : transfer.curLen = transfer.written.length := by
    rw [counted.counted, untaken]
    rfl
  refine
    { totLen := counted.totLen
      dlen := counted.dlen
      movedUpTo := counted.movedUpTo
      counted := ?_
      curLenUpTo := more
      tx := fun _ => ?_
      rx := fun isRx => ?_ }
  · show transfer.curLen + 1 = (transfer.written ++ [_]).length + transfer.taken.length
    rw [counted.counted, List.length_append, List.length_singleton]
    omega
  · refine
      { written := ?_
        balance := ?_
        depth := ?_
        untouched := tx.untouched
        untaken := fun _ => untaken
        whole := tx.whole }
    · show transfer.written ++ [transfer.buf transfer.curLen] =
        firstBytes buffer (transfer.written ++ [_]).length
      rw [List.length_append, List.length_singleton, firstBytes_succ, ← tx.written,
        tx.untouched untaken, place]
    · show (transfer.written ++ [_]).length =
        transfer.moved + (transfer.fifo ++ [_]).length + transfer.taken.length
      have balance := tx.balance
      rw [List.length_append, List.length_append, List.length_singleton]
      omega
    · show (transfer.fifo ++ [_]).length + transfer.taken.length ≤ fifoDepth
      rw [untaken, List.length_append, List.length_singleton]
      exact room
  · have isRx : transfer.dir = .rx := isRx
    rw [isTx] at isRx
    cases isRx

/-- A byte taken from the FIFO is counted. -/
theorem take (counted : Counted buffer len transfer) {last : Bool}
    (reading : transfer.phase = .reading last) (more : transfer.curLen < transfer.totLen) :
    Counted buffer len (transfer.take.goto (.refreshing last)) := by
  have sameHalf : transfer.dir = .tx → (Phase.refreshing last).partWay = false := by
    intro isTx
    have whole := (counted.tx isTx).whole
    rw [reading] at whole
    exact whole
  cases fifo : transfer.fifo with
  | nil =>
      have same : transfer.take = transfer := by
        unfold Transfer.take
        rw [fifo]
      rw [same]
      exact counted.elsewhere (fun _ refills => by cases refills) sameHalf (fun _ => rfl)
  | cons byte rest =>
      have taken : transfer.take =
          { transfer with
            buf := Function.update transfer.buf transfer.curLen byte
            curLen := transfer.curLen + 1
            fifo := rest
            taken := transfer.taken ++ [byte] } := by
        unfold Transfer.take
        rw [fifo]
      rw [taken]
      refine
        { totLen := counted.totLen
          dlen := counted.dlen
          movedUpTo := counted.movedUpTo
          counted := ?_
          curLenUpTo := more
          tx := fun isTx => ?_
          rx := fun isRx => ?_ }
      · show transfer.curLen + 1 = transfer.written.length + (transfer.taken ++ [byte]).length
        rw [counted.counted, List.length_append, List.length_singleton, Nat.add_assoc]
      · have tx := counted.tx isTx
        have balance := tx.balance
        have depth := tx.depth
        rw [fifo, List.length_cons] at balance depth
        refine
          { written := tx.written
            balance := ?_
            depth := ?_
            untouched := fun none => ?_
            untaken := fun refills => by cases refills
            whole := sameHalf isTx }
        · show transfer.written.length =
            transfer.moved + rest.length + (transfer.taken ++ [byte]).length
          rw [List.length_append, List.length_singleton]
          omega
        · show rest.length + (transfer.taken ++ [byte]).length ≤ fifoDepth
          rw [List.length_append, List.length_singleton]
          omega
        · exact absurd none (List.append_ne_nil_of_right_ne_nil _ (List.cons_ne_nil _ _))
      · have rx := counted.rx isRx
        have balance := rx.balance
        rw [fifo, List.length_cons] at balance
        have place : transfer.curLen = transfer.taken.length := by
          rw [counted.counted, rx.written, List.length_nil, Nat.zero_add]
        refine
          { written := rx.written
            taken := ?_
            balance := ?_
            reads := rfl }
        · show transfer.taken ++ [byte] =
            firstBytes (Function.update transfer.buf transfer.curLen byte)
              (transfer.taken ++ [byte]).length
          rw [List.length_append, List.length_singleton, firstBytes_succ, place,
            firstBytes_update, ← rx.taken, Function.update_self]
        · show transfer.moved = (transfer.taken ++ [byte]).length + rest.length
          rw [List.length_append, List.length_singleton]
          omega

/-- A byte moved on the bus is counted. -/
theorem move (counted : Counted buffer len transfer) {incoming : UInt8}
    (moved : transfer.move incoming = some after) : Counted buffer len after := by
  obtain ⟨⟨_, more⟩, byDir⟩ := Option.ite_none_right_eq_some.mp moved
  cases dir : transfer.dir with
  | tx =>
      have tx := counted.tx dir
      have balance := tx.balance
      have depth := tx.depth
      rw [dir] at byDir
      cases fifo : transfer.fifo with
      | nil =>
          simp only [fifo] at byDir
          cases byDir
      | cons byte rest =>
          simp only [fifo] at byDir
          cases byDir
          rw [fifo, List.length_cons] at balance depth
          refine
            { counted with
              movedUpTo := more
              tx := fun _ =>
                { tx with
                  balance := ?_
                  depth := ?_ }
              rx := fun isRx => ?_ }
          · show transfer.written.length =
              transfer.moved + 1 + rest.length + transfer.taken.length
            omega
          · show rest.length + transfer.taken.length ≤ fifoDepth
            omega
          · cases isRx
  | rx =>
      have rx := counted.rx dir
      have balance := rx.balance
      rw [dir] at byDir
      obtain ⟨_, same⟩ := Option.ite_none_right_eq_some.mp byDir
      cases same
      refine
        { counted with
          movedUpTo := more
          tx := fun isTx => ?_
          rx := fun _ => { rx with balance := ?_ } }
      · cases isTx
      · show transfer.moved + 1 = transfer.taken.length + (transfer.fifo ++ [incoming]).length
        rw [List.length_append, List.length_singleton]
        omega

/-- An interrupt leads to no place of the other direction. -/
theorem dispatch_side (dir : Direction) (raw : BitVec 32) :
    (dir = .tx → (Transfer.dispatch dir (raw &&& STATREG_MASK)).partWay = false) ∧
      (dir = .rx → (Transfer.dispatch dir (raw &&& STATREG_MASK)).pushes = false) := by
  rcases Transfer.dispatch_cases dir raw with ⟨_, next⟩ | ⟨_, _, next⟩ |
    ⟨_, next | ⟨rfl, next⟩ | ⟨rfl, next⟩⟩
  · simp [next, Phase.partWay, Phase.pushes]
  · simp [next, Phase.partWay, Phase.pushes]
  · simp [next, Phase.partWay, Phase.pushes]
  · simp [next, Phase.pushes]
  · simp [next, Phase.partWay]

/-- An interrupt counts the same. -/
theorem interrupt (counted : Counted buffer len transfer) (waits : transfer.phase = .waiting)
    (raw : BitVec 32) : Counted buffer len (transfer.interrupt raw) := by
  refine counted.elsewhere ?_ (dispatch_side transfer.dir raw).1 (dispatch_side transfer.dir raw).2
  intro isTx _
  refine (counted.tx isTx).untaken ?_
  rw [waits]
  rfl

/-- A turn of `push_data` is counted. -/
theorem pushTurn (counted : Counted buffer len transfer) {started : Bool} {raw : BitVec 32}
    (pushing : transfer.phase = .pushing started) (more : transfer.curLen < transfer.totLen)
    (shown : transfer.shows raw) : Counted buffer len (transfer.pushTurn raw) := by
  have pushes : transfer.phase.pushes = true := by
    rw [pushing]
    rfl
  have refills : transfer.phase.refills = true := by
    rw [pushing]
    rfl
  have isTx := counted.isTx pushes
  have read : Counted buffer len
      { transfer with
        status := raw &&& STATREG_MASK
        seenInLoops := transfer.seenInLoops ++ [raw] } :=
    counted.elsewhere (fun isTx _ => (counted.tx isTx).untaken refills)
      (fun isTx => (counted.tx isTx).whole) (fun isRx => by cases isTx.symm.trans isRx)
  unfold Transfer.pushTurn
  dsimp only
  split
  · next mayPush =>
      rw [has_masked STATREG_TXD (by decide)] at mayPush
      exact read.push pushes more (shown.1 mayPush)
  · exact read.elsewhere (fun isTx _ => (counted.tx isTx).untaken refills) (fun _ => rfl)
      (fun _ => rfl)

/-- Every action is counted. -/
theorem act (counted : Counted buffer len transfer) {action : Transfer.Action}
    (acted : transfer.act action = some after) : Counted buffer len after := by
  cases action with
  | read raw =>
      obtain ⟨shown, read⟩ := Option.ite_none_right_eq_some.mp acted
      cases phase : transfer.phase with
      | pushing started =>
          rw [phase] at read
          obtain ⟨more, same⟩ := Option.ite_none_right_eq_some.mp read
          cases same
          exact counted.pushTurn phase more shown
      | waiting =>
          rw [phase] at read
          cases read
          exact counted.interrupt phase raw
      | reading last =>
          rw [phase] at read
          cases read
      | refreshing last =>
          rw [phase] at read
          cases read
          refine counted.elsewhere (fun _ refills => by cases refills) ?_ (fun _ => rfl)
          intro isTx
          have whole := (counted.tx isTx).whole
          rw [phase] at whole
          exact whole
      | ended status =>
          rw [phase] at read
          cases read
  | turn =>
      cases phase : transfer.phase with
      | pushing started =>
          simp only [Transfer.act, phase] at acted
          obtain ⟨_, same⟩ := Option.ite_none_left_eq_some.mp acted
          cases same
          refine counted.elsewhere (fun isTx _ => (counted.tx isTx).untaken ?_) (fun _ => rfl)
            (fun _ => rfl)
          rw [phase]
          rfl
      | waiting =>
          simp only [Transfer.act, phase] at acted
          cases acted
      | reading last =>
          simp only [Transfer.act, phase] at acted
          split at acted
          · next more =>
              cases acted
              exact counted.take phase more.1
          · cases acted
            refine counted.elsewhere ?_ ?_ ?_
            · intro isTx refills
              have whole := (counted.tx isTx).whole
              rw [phase] at whole
              cases last with
              | true => cases refills
              | false => cases whole
            · intro _
              cases last <;> rfl
            · intro _
              cases last <;> rfl
      | refreshing last =>
          simp only [Transfer.act, phase] at acted
          cases acted
      | ended status =>
          simp only [Transfer.act, phase] at acted
          cases acted
  | move incoming => exact counted.move acted
  | timeout =>
      obtain ⟨_, same⟩ := Option.ite_none_right_eq_some.mp acted
      cases same
      exact counted.elsewhere (fun _ refills => by cases refills) (fun _ => rfl) (fun _ => rfl)

end Counted

/-! ## What the driver saw -/

/-- No status word read at an interrupt showed a clock stretch timeout. -/
def Transfer.unstretched (transfer : Transfer) : Prop :=
  ∀ raw ∈ transfer.seen, has raw STATREG_CLKT = false

/-- What follows from the status words seen. -/
structure Seen (transfer : Transfer) : Prop where
  error : ∀ raw ∈ transfer.seen, has raw STATREG_ERR = true → transfer.phase = .ended .nack
  moved : transfer.phase.afterDone = true → transfer.unstretched →
    transfer.moved = transfer.dlen
  drained : transfer.phase = .reading true → transfer.unstretched →
    has transfer.status STATREG_RXD = false → transfer.fifo = []
  finished : transfer.phase = .ended .done → transfer.unstretched →
    transfer.curLen = transfer.totLen ∨ transfer.fifo = []

/-- A transfer that begins has seen nothing. -/
theorem seen_begin {dir : Direction} {phase : Phase} (early : phase.afterDone = false) :
    Seen (.begin dir phase buffer len) where
  error _ seen := by cases seen
  moved done := by
    have atStart : phase.afterDone = true := done
    rw [early] at atStart
    cases atStart
  drained reading := by
    have atStart : phase = .reading true := reading
    rw [atStart] at early
    cases early
  finished ended := by
    have atStart : phase = .ended .done := ended
    rw [atStart] at early
    cases early

namespace Seen

/-- A transfer that goes on before it is found done has seen what it saw. -/
theorem early (seen : Seen transfer) (sameSeen : after.seen = transfer.seen)
    (unended : transfer.phase ≠ .ended .nack) (early : after.phase.afterDone = false) :
    Seen after where
  error raw member isError := absurd (seen.error raw (sameSeen ▸ member) isError) unended
  moved done := by
    rw [early] at done
    cases done
  drained reading := by
    rw [reading] at early
    cases early
  finished ended := by
    rw [ended] at early
    cases early

/-- An interrupt sees its status word. -/
theorem interrupt (seen : Seen transfer) (waits : transfer.phase = .waiting) {raw : BitVec 32}
    (shown : transfer.shows raw) : Seen (transfer.interrupt raw) := by
  have old (word : BitVec 32) (member : word ∈ transfer.seen) : has word STATREG_ERR = false := by
    by_contra isError
    have ended := seen.error word member (Bool.not_eq_false _ |>.mp isError)
    rw [waits] at ended
    cases ended
  have member : raw ∈ (transfer.interrupt raw).seen :=
    List.mem_append_right _ (List.mem_singleton_self raw)
  have error (clean : has raw STATREG_ERR = false) (word : BitVec 32)
      (isSeen : word ∈ (transfer.interrupt raw).seen) (isError : has word STATREG_ERR = true) :
      (transfer.interrupt raw).phase = .ended .nack := by
    rcases List.mem_append.mp isSeen with before | now
    · rw [old word before] at isError
      cases isError
    · rw [List.mem_singleton.mp now, clean] at isError
      cases isError
  rcases Transfer.dispatch_cases transfer.dir raw with ⟨_, next⟩ | ⟨clean, done, next⟩ |
    ⟨clean, next⟩
  · have phase : (transfer.interrupt raw).phase = .ended .nack := next
    refine ⟨fun _ _ _ => phase, fun done => ?_, fun reading => ?_, fun ended => ?_⟩
    · rw [phase] at done
      cases done
    · rw [phase] at reading
      cases reading
    · rw [phase] at ended
      cases ended
  · have phase : (transfer.interrupt raw).phase = .reading true := next
    refine ⟨error clean, fun _ unstretched => ?_, fun _ _ empty => ?_, fun ended => ?_⟩
    · exact shown.2.2 done clean (unstretched raw member)
    · have noByte : has (raw &&& STATREG_MASK) STATREG_RXD = false := empty
      rw [has_masked STATREG_RXD (by decide)] at noByte
      by_contra some
      rw [shown.2.1.mpr some] at noByte
      cases noByte
    · rw [phase] at ended
      cases ended
  · have early : (transfer.interrupt raw).phase.afterDone = false := by
      rcases next with next | ⟨_, next⟩ | ⟨_, next⟩
      · exact congrArg Phase.afterDone next
      · exact congrArg Phase.afterDone next
      · exact congrArg Phase.afterDone next
    refine ⟨error clean, fun done => ?_, fun reading => ?_, fun ended => ?_⟩
    · rw [early] at done
      cases done
    · rw [reading] at early
      cases early
    · rw [ended] at early
      cases early

/-- A turn of `read_data` after the transfer was found done has seen what it saw. -/
theorem late (seen : Seen transfer) (sameSeen : after.seen = transfer.seen)
    (done : transfer.phase.afterDone = true) (sameMoved : after.moved = transfer.moved)
    (sameDlen : after.dlen = transfer.dlen) (unended : transfer.phase ≠ .ended .nack)
    (drained : after.phase = .reading true → has after.status STATREG_RXD = false →
      after.fifo = [])
    (finished : after.phase = .ended .done → transfer.unstretched →
      after.curLen = after.totLen ∨ after.fifo = []) : Seen after where
  error raw member isError := absurd (seen.error raw (sameSeen ▸ member) isError) unended
  moved _ unstretched := by
    rw [sameMoved, sameDlen]
    refine seen.moved done fun raw member => ?_
    exact unstretched raw (sameSeen.symm ▸ member)
  drained reading _ empty := drained reading empty
  finished ended unstretched := by
    refine finished ended fun raw member => ?_
    exact unstretched raw (sameSeen.symm ▸ member)

/-- Moving a byte on the bus lets the driver see the same. -/
theorem move (seen : Seen transfer) {incoming : UInt8}
    (moved : transfer.move incoming = some after) : Seen after := by
  obtain ⟨⟨onBus, more⟩, byDir⟩ := Option.ite_none_right_eq_some.mp moved
  have kept : after.seen = transfer.seen ∧ after.phase = transfer.phase := by
    cases dir : transfer.dir with
    | tx =>
        rw [dir] at byDir
        cases fifo : transfer.fifo with
        | nil =>
            simp only [fifo] at byDir
            cases byDir
        | cons byte rest =>
            simp only [fifo] at byDir
            cases byDir
            exact ⟨rfl, rfl⟩
    | rx =>
        rw [dir] at byDir
        obtain ⟨_, same⟩ := Option.ite_none_right_eq_some.mp byDir
        cases same
        exact ⟨rfl, rfl⟩
  -- once found done without a timeout, no byte is left to move
  have unfinished (done : after.phase.afterDone = true) : ¬ after.unstretched := by
    intro unstretched
    rw [kept.2] at done
    refine more.ne (seen.moved done fun raw member => ?_)
    exact unstretched raw (kept.1.symm ▸ member)
  exact
    { error := fun raw member isError => kept.2.trans (seen.error raw (kept.1 ▸ member) isError)
      moved := fun done unstretched => absurd unstretched (unfinished done)
      drained := fun reading unstretched => by
        refine absurd unstretched (unfinished ?_)
        rw [reading]
        rfl
      finished := fun ended unstretched => by
        refine absurd unstretched (unfinished ?_)
        rw [ended]
        rfl }

/-- A turn of `read_data` at its test. -/
theorem reading (seen : Seen transfer) (counted : Counted buffer len transfer) {last : Bool}
    (phase : transfer.phase = .reading last) (acted : transfer.act .turn = some after) :
    Seen after := by
  have unended : transfer.phase ≠ .ended .nack := by
    rw [phase]
    exact Phase.noConfusion
  simp only [Transfer.act, phase] at acted
  split at acted
  · cases acted
    have kept : transfer.take.seen = transfer.seen ∧ transfer.take.moved = transfer.moved ∧
        transfer.take.dlen = transfer.dlen := by
      unfold Transfer.take
      split <;> exact ⟨rfl, rfl, rfl⟩
    cases last with
    | false => exact seen.early kept.1 unended rfl
    | true =>
        exact seen.late kept.1 (by rw [phase]; rfl) kept.2.1 kept.2.2 unended
          (fun reading => by cases reading) (fun ended => by cases ended)
  · next stops =>
      cases acted
      cases last with
      | false => exact seen.early rfl unended rfl
      | true =>
          refine seen.late rfl (by rw [phase]; rfl) rfl rfl unended
                (fun reading => by cases reading) ?_
          intro _ unstretched
          rcases not_and_or.mp stops with all | empty
          · exact .inl (le_antisymm counted.curLenUpTo (Nat.not_lt.mp all))
          · exact .inr (seen.drained phase unstretched (Bool.not_eq_true _ |>.mp empty))

/-- Every action lets the driver see what follows. -/
theorem act (seen : Seen transfer) (counted : Counted buffer len transfer)
    {action : Transfer.Action} (acted : transfer.act action = some after) : Seen after := by
  cases action with
  | read raw =>
      obtain ⟨shown, read⟩ := Option.ite_none_right_eq_some.mp acted
      cases phase : transfer.phase with
      | pushing started =>
          have unended : transfer.phase ≠ .ended .nack := by
            rw [phase]
            exact Phase.noConfusion
          rw [phase] at read
          obtain ⟨_, same⟩ := Option.ite_none_right_eq_some.mp read
          cases same
          unfold Transfer.pushTurn
          dsimp only
          split
          · refine seen.early rfl unended ?_
            show transfer.phase.afterDone = false
            rw [phase]
            rfl
          · exact seen.early rfl unended rfl
      | waiting =>
          rw [phase] at read
          cases read
          exact seen.interrupt phase shown
      | reading last =>
          rw [phase] at read
          cases read
      | refreshing last =>
          have unended : transfer.phase ≠ .ended .nack := by
            rw [phase]
            exact Phase.noConfusion
          rw [phase] at read
          cases read
          cases last with
          | false => exact seen.early rfl unended rfl
          | true =>
              refine seen.late rfl (by rw [phase]; rfl) rfl rfl unended ?_
                (fun ended => by cases ended)
              intro _ empty
              have noByte : has (raw &&& STATREG_MASK) STATREG_RXD = false := empty
              rw [has_masked STATREG_RXD (by decide)] at noByte
              by_contra some
              rw [shown.2.1.mpr some] at noByte
              cases noByte
      | ended status =>
          rw [phase] at read
          cases read
  | turn =>
      cases phase : transfer.phase with
      | pushing started =>
          simp only [Transfer.act, phase] at acted
          obtain ⟨_, same⟩ := Option.ite_none_left_eq_some.mp acted
          cases same
          refine seen.early rfl ?_ rfl
          rw [phase]
          exact Phase.noConfusion
      | waiting =>
          simp only [Transfer.act, phase] at acted
          cases acted
      | reading last => exact seen.reading counted phase acted
      | refreshing last =>
          simp only [Transfer.act, phase] at acted
          cases acted
      | ended status =>
          simp only [Transfer.act, phase] at acted
          cases acted
  | move incoming => exact seen.move acted
  | timeout =>
      obtain ⟨onBus, same⟩ := Option.ite_none_right_eq_some.mp acted
      cases same
      refine seen.early rfl ?_ rfl
      intro ended
      unfold Transfer.onBus at onBus
      rw [ended] at onBus
      cases onBus

end Seen

/-! ## Results -/

/-- What the calls begin with, when they begin a transfer. -/
theorem begins {slave : SlaveAddr}
    (begun : bcm2711Send slave buffer len = .inr transfer ∨
      bcm2711Recv slave buffer len = .inr transfer) :
    Counted buffer len transfer ∧ Seen transfer := by
  rcases begun with begun | begun
  · unfold bcm2711Send at begun
    split at begun
    · cases begun
    · split at begun
      · cases begun
      · cases begun
        exact ⟨counted_begin rfl (fun isRx => by cases isRx), seen_begin rfl⟩
  · unfold bcm2711Recv at begun
    split at begun
    · cases begun
    · split at begun
      · cases begun
      · split at begun
        · cases begun
        · cases begun
          exact ⟨counted_begin rfl (fun _ => rfl), seen_begin rfl⟩

/-- Without a transfer no call reports one done, but for length 0. -/
theorem not_done_early {slave : SlaveAddr} (some : 0 < len) :
    bcm2711Send slave buffer len ≠ .inl .done ∧ bcm2711Recv slave buffer len ≠ .inl .done := by
  unfold bcm2711Send bcm2711Recv
  rw [if_neg some.ne', if_neg some.ne']
  constructor
  · split <;> exact fun same => by cases same
  · split
    · exact fun same => by cases same
    · split <;> exact fun same => by cases same

/-- What is counted and seen holds in every state of a transfer. -/
theorem counted_and_seen {start : Transfer}
    (begun : Counted buffer len start ∧ Seen start)
    (reached : Actions.Reaches Transfer.act Actions.always start transfer) :
    Counted buffer len transfer ∧ Seen transfer := by
  refine reached.invariant (fun transfer => Counted buffer len transfer ∧ Seen transfer) begun ?_
  intro _ _ _ kept _ acted
  exact ⟨kept.1.act acted, kept.2.act kept.1 acted⟩

/-- All bytes moved means no more of them than DLEN holds. -/
theorem fits_of_allMoved (counted : Counted buffer len transfer)
    (allMoved : transfer.allMoved buffer len) : len < dlenRange := by
  have movedUpTo := counted.movedUpTo
  rw [counted.dlen] at movedUpTo
  unfold Transfer.allMoved at allMoved
  cases dir : transfer.dir with
  | tx =>
      have tx := counted.tx dir
      have balance := tx.balance
      have depth := tx.depth
      rw [dir] at allMoved
      have whole := congrArg List.length allMoved
      rw [length_firstBytes] at whole
      by_contra long
      have few : len % dlenRange + fifoDepth < len := by
        unfold dlenRange fifoDepth at *
        omega
      omega
  | rx =>
      have balance := (counted.rx dir).balance
      rw [dir] at allMoved
      have whole := congrArg List.length allMoved
      rw [length_firstBytes] at whole
      refine lt_of_le_of_lt ?_ (Nat.mod_lt len (Nat.two_pow_pos 16))
      have moved : len ≤ transfer.moved := by omega
      exact moved.trans movedUpTo

/-- A transfer of a length that fits, found done without a timeout, moved all bytes. -/
theorem allMoved_of_fits (counted : Counted buffer len transfer) (seen : Seen transfer)
    (done : transfer.phase = .ended .done) (fits : len < dlenRange)
    (unstretched : transfer.unstretched) : transfer.allMoved buffer len := by
  have moved : transfer.moved = len := by
    rw [seen.moved (by rw [done]; rfl) unstretched, counted.dlen, Nat.mod_eq_of_lt fits]
  have upTo := counted.curLenUpTo
  rw [counted.counted, counted.totLen] at upTo
  unfold Transfer.allMoved
  cases dir : transfer.dir with
  | tx =>
      have tx := counted.tx dir
      have balance := tx.balance
      have whole : transfer.written.length = len := by omega
      exact tx.written.trans (congrArg (firstBytes buffer) whole)
  | rx =>
      have rx := counted.rx dir
      have balance := rx.balance
      have whole : transfer.taken.length = len := by
        rcases seen.finished done unstretched with all | empty
        · rw [counted.counted, counted.totLen, rx.written, List.length_nil, Nat.zero_add] at all
          exact all
        · rw [empty, List.length_nil, Nat.add_zero] at balance
          exact balance.symm.trans moved
      exact rx.taken.trans (congrArg (firstBytes transfer.buf) whole)

/-- No status word of a transfer found done showed an error at an interrupt. -/
theorem noError_of_done (seen : Seen transfer) (done : transfer.phase = .ended .done)
    {raw : BitVec 32} (member : raw ∈ transfer.seen) : has raw STATREG_ERR = false := by
  by_contra isError
  have failed := seen.error raw member (Bool.not_eq_false _ |>.mp isError)
  rw [done] at failed
  cases failed

/-- **A result is truthful** exactly when the length fits DLEN, no status word showed a clock
stretch timeout, and none read in a loop showed an error. -/
theorem done_truthful_iff (slave : SlaveAddr) (buffer : Bytes.Memory) (len : Nat)
    (some : 0 < len) :
    (bcm2711Send slave buffer len ≠ .inl .done ∧ bcm2711Recv slave buffer len ≠ .inl .done) ∧
      ∀ start transfer, bcm2711Send slave buffer len = .inr start ∨
          bcm2711Recv slave buffer len = .inr start →
        Actions.Reaches Transfer.act Actions.always start transfer →
        transfer.phase = .ended .done →
        (transfer.truthful buffer len ↔ len < dlenRange ∧
          (∀ raw ∈ transfer.seen ++ transfer.seenInLoops, has raw STATREG_CLKT = false) ∧
          ∀ raw ∈ transfer.seenInLoops, has raw STATREG_ERR = false) := by
  refine ⟨not_done_early some, fun start transfer begun reached done => ?_⟩
  obtain ⟨counted, seen⟩ := counted_and_seen (begins begun) reached
  constructor
  · intro ⟨clean, allMoved⟩
    refine ⟨fits_of_allMoved counted allMoved, fun raw member => (clean raw member).2, ?_⟩
    intro raw member
    exact (clean raw (List.mem_append_right _ member)).1
  · intro ⟨fits, unstretched, noErrors⟩
    refine ⟨fun raw member => ⟨?_, unstretched raw member⟩, ?_⟩
    · rcases List.mem_append.mp member with atInterrupt | inLoop
      · exact noError_of_done seen done atInterrupt
      · exact noErrors raw inLoop
    · exact allMoved_of_fits counted seen done fits fun raw member =>
        unstretched raw (List.mem_append_left _ member)

/-! ### Transfers of one byte -/

def device : SlaveAddr := ⟨0x50, true⟩

/-- The transfer a receiving call begins. -/
def receiving (len : Nat) : Transfer := .begin .rx .waiting (fun _ => 0) len

theorem recv_receiving {len : Nat} (some : 0 < len) :
    bcm2711Recv device (fun _ => 0) len = .inr (receiving len) := by
  unfold bcm2711Recv
  rw [if_neg some.ne']
  rfl

/-- What these actions on a receiving call end with. -/
theorem reaches_receiving {len : Nat} {actions : List Transfer.Action}
    {phase : Phase} {taken : List UInt8} {words : List (BitVec 32)}
    (performed : (Actions.perform Transfer.act (receiving len) actions).map
      (fun transfer => (transfer.dir, transfer.phase, transfer.taken,
        transfer.seen ++ transfer.seenInLoops)) = some (.rx, phase, taken, words)) :
    ∃ transfer, Actions.Reaches Transfer.act Actions.always (receiving len) transfer ∧
      transfer.dir = .rx ∧ transfer.phase = phase ∧ transfer.taken = taken ∧
      transfer.seen ++ transfer.seenInLoops = words := by
  obtain ⟨transfer, ended, facts⟩ := Option.map_eq_some_iff.mp performed
  simp only [Prod.mk.injEq] at facts
  exact ⟨transfer, Actions.reaches_of_perform ended, facts⟩

/-- One byte received without an error is a truthful result. -/
theorem done_truthful_iff_byte :
    ∃ transfer, Actions.Reaches Transfer.act Actions.always (receiving 1) transfer ∧
      transfer.phase = .ended .done ∧ transfer.truthful (fun _ => 0) 1 := by
  have performed : (Actions.perform Transfer.act (receiving 1)
      [.move 7, .read 0x22, .turn, .read 0x2, .turn]).map
      (fun transfer => (transfer.dir, transfer.phase, transfer.taken,
        transfer.seen ++ transfer.seenInLoops)) =
      some (.rx, .ended .done, [7], [0x22, 0x2]) := by decide
  obtain ⟨transfer, reached, _, done, _, words⟩ := reaches_receiving performed
  have result := (done_truthful_iff device (fun _ => 0) 1 Nat.one_pos).2 (receiving 1) transfer
    (.inr (recv_receiving Nat.one_pos)) reached done
  have clean : ∀ raw ∈ transfer.seen ++ transfer.seenInLoops,
      has raw STATREG_ERR = false ∧ has raw STATREG_CLKT = false := by
    rw [words]
    intro raw member
    rcases List.mem_cons.mp member with rfl | second
    · exact ⟨by decide, by decide⟩
    · rw [List.mem_singleton.mp second]
      exact ⟨by decide, by decide⟩
  have fits : 1 < dlenRange := Nat.one_lt_two_pow (Nat.succ_ne_zero 15)
  refine ⟨transfer, reached, done, result.mpr ⟨fits, fun raw member => (clean raw member).2, ?_⟩⟩
  intro raw member
  exact (clean raw (List.mem_append_right _ member)).1

/-- A masked timeout, an error read in a loop, and a length that does not fit DLEN: each
time the transfer is reported done. -/
theorem done_not_truthful :
    (∃ transfer, Actions.Reaches Transfer.act Actions.always (receiving 1) transfer ∧
      transfer.phase = .ended .done ∧ transfer.taken = [] ∧
      ¬ transfer.truthful (fun _ => 0) 1) ∧
    (∃ transfer, Actions.Reaches Transfer.act Actions.always (receiving 1) transfer ∧
      transfer.phase = .ended .done ∧ ¬ transfer.truthful (fun _ => 0) 1) ∧
    (∃ transfer, Actions.Reaches Transfer.act Actions.always (receiving 65537) transfer ∧
      transfer.phase = .ended .done ∧ transfer.taken.length = 1 ∧
      ¬ transfer.truthful (fun _ => 0) 65537) := by
  refine ⟨?_, ?_, ?_⟩
  · have performed : (Actions.perform Transfer.act (receiving 1) [.read 0x202, .turn]).map
        (fun transfer => (transfer.dir, transfer.phase, transfer.taken,
          transfer.seen ++ transfer.seenInLoops)) =
        some (.rx, .ended .done, [], [0x202]) := by decide
    obtain ⟨transfer, reached, _, done, taken, words⟩ := reaches_receiving performed
    have member : (0x202 : BitVec 32) ∈ transfer.seen ++ transfer.seenInLoops := by
      rw [words]
      exact List.mem_singleton_self _
    refine ⟨transfer, reached, done, taken, fun ⟨clean, _⟩ => ?_⟩
    have stretched := (clean 0x202 member).2
    exact absurd stretched (by decide)
  · have performed : (Actions.perform Transfer.act (receiving 1)
        [.move 7, .read 0x22, .turn, .read 0x102, .turn]).map
        (fun transfer => (transfer.dir, transfer.phase, transfer.taken,
          transfer.seen ++ transfer.seenInLoops)) =
        some (.rx, .ended .done, [7], [0x22, 0x102]) := by decide
    obtain ⟨transfer, reached, _, done, _, words⟩ := reaches_receiving performed
    have member : (0x102 : BitVec 32) ∈ transfer.seen ++ transfer.seenInLoops := by
      rw [words]
      exact List.mem_cons_of_mem _ (List.mem_singleton_self _)
    refine ⟨transfer, reached, done, fun ⟨clean, _⟩ => ?_⟩
    have isError := (clean 0x102 member).1
    exact absurd isError (by decide)
  · have performed : (Actions.perform Transfer.act (receiving 65537)
        [.move 7, .read 0x22, .turn, .read 0x2, .turn]).map
        (fun transfer => (transfer.dir, transfer.phase, transfer.taken,
          transfer.seen ++ transfer.seenInLoops)) =
        some (.rx, .ended .done, [7], [0x22, 0x2]) := by decide
    obtain ⟨transfer, reached, dir, done, taken, _⟩ := reaches_receiving performed
    refine ⟨transfer, reached, done, by rw [taken]; rfl, fun ⟨_, allMoved⟩ => ?_⟩
    unfold Transfer.allMoved at allMoved
    rw [dir] at allMoved
    have whole := congrArg List.length allMoved
    rw [length_firstBytes, taken, List.length_singleton] at whole
    exact absurd whole (by decide)

end Bcm2711.I2c
