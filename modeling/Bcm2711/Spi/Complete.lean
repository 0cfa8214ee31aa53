import Bcm2711.Spi.Exchange

/-! # When an exchange moved by interrupts is complete

The return of `bcm2711spi_xfer` is decided by the receive counter alone.  That is enough
when no more bytes go out than come in, or when the prefill loop already writes them all;
for every other pair of lengths a transfer can return with transmit bytes left.
-/

namespace Bcm2711.Spi

open Bytes (firstBytes length_firstBytes firstBytes_succ firstBytes_update)

/-! ## The FIFOs -/

namespace Fifos

/-- A write with room appends to what was written. -/
theorem written_write {fifos : Fifos} {byte : UInt8} (room : fifos.tx.length < fifoDepth) :
    (fifos.write byte).written = fifos.written ++ [byte] := by
  unfold write written
  rw [dif_pos room]
  exact (List.append_assoc _ _ _).symm

/-- A write leaves the receiving side and the bus alone. -/
theorem write_other (fifos : Fifos) (byte : UInt8) :
    (fifos.write byte).rx = fifos.rx ∧ (fifos.write byte).clocked = fifos.clocked ∧
      (fifos.write byte).taken = fifos.taken := by
  unfold write
  split <;> exact ⟨rfl, rfl, rfl⟩

/-- What a read of the FIFO register takes. -/
theorem read_some {fifos after : Fifos} {byte : UInt8}
    (taken : fifos.read = some (byte, after)) :
    fifos.rx = byte :: after.rx ∧ after.tx = fifos.tx ∧ after.clocked = fifos.clocked ∧
      after.taken = fifos.taken ++ [byte] := by
  unfold read at taken
  split at taken
  · cases taken
  · next rx =>
      cases taken
      exact ⟨rx, rfl, rfl, rfl⟩

theorem read_none {fifos : Fifos} (empty : fifos.read = none) : fifos.rx = [] := by
  unfold read at empty
  split at empty
  · next rx => exact rx
  · cases empty

/-- What one byte exchanged on the bus does. -/
theorem shift_some {fifos after : Fifos} {incoming : UInt8}
    (shifted : fifos.shift incoming = some after) :
    ∃ byte, fifos.tx = byte :: after.tx ∧ after.rx = fifos.rx ++ [incoming] ∧
      after.clocked = fifos.clocked ++ [(byte, incoming)] ∧ after.taken = fifos.taken := by
  obtain ⟨tx, rx, clocked, taken, arrived, txFits, rxFits⟩ := fifos
  cases tx with
  | nil => cases shifted
  | cons byte rest =>
      simp only [shift] at shifted
      split at shifted
      · cases shifted
        exact ⟨byte, rfl, rfl, rfl, rfl⟩
      · cases shifted

/-- A byte in the TX FIFO can go out when the RX FIFO has room. -/
theorem exists_shift {fifos : Fifos} (byte : UInt8) (rest : List UInt8) (incoming : UInt8)
    (waiting : fifos.tx = byte :: rest) (room : fifos.rx.length < fifoDepth) :
    ∃ after, fifos.shift incoming = some after := by
  obtain ⟨tx, rx, clocked, taken, arrived, txFits, rxFits⟩ := fifos
  cases waiting
  simp only [shift, dif_pos room]
  exact ⟨_, rfl⟩

/-- Shifting moves bytes from the TX FIFO to the bus. -/
theorem written_shift {fifos after : Fifos} {incoming : UInt8}
    (shifted : fifos.shift incoming = some after) : after.written = fifos.written := by
  obtain ⟨byte, tx, _, clocked, _⟩ := shift_some shifted
  unfold written
  rw [tx, clocked, List.map_append, List.append_assoc]
  rfl

/-- A read takes nothing from the transmitting side. -/
theorem written_read {fifos after : Fifos} {byte : UInt8}
    (taken : fifos.read = some (byte, after)) : after.written = fifos.written := by
  obtain ⟨_, tx, clocked, _⟩ := read_some taken
  unfold written
  rw [tx, clocked]

/-- Bytes written are on the bus or waiting. -/
theorem length_written (fifos : Fifos) :
    fifos.written.length = fifos.clocked.length + fifos.tx.length := by
  unfold written
  rw [List.length_append, List.length_map]

/-- Bytes that came in were taken or are waiting. -/
theorem length_clocked (fifos : Fifos) :
    fifos.clocked.length = fifos.taken.length + fifos.rx.length := by
  have arrived := congrArg List.length fifos.arrived
  rwa [List.length_map, List.length_append] at arrived

end Fifos

/-! ## What holds during a transfer -/

/-- The driver found the TX FIFO empty and has not waited again. -/
def Phase.afterDone : Phase → Prop
  | .pushing => True
  | .reading => True
  | .finishing => True
  | .returned status => status = .EOK
  | _ => False

/-- All bytes asked for were stored. -/
def Phase.afterRead : Phase → Prop
  | .finishing => True
  | .returned status => status = .EOK
  | _ => False

/-- What holds in every state of a transfer. -/
structure Sound (lengths : Lengths) (buffer : Nat → UInt8) (exchange : Exchange) : Prop where
  sent : exchange.fifos.written = firstBytes buffer exchange.tcnt
  sentUpTo : exchange.tcnt ≤ lengths.tnbytes
  stored : exchange.fifos.taken = firstBytes exchange.buf exchange.rcnt
  storedUpTo : exchange.rcnt ≤ lengths.rnbytes
  untouched : ∀ place, exchange.rcnt ≤ place → exchange.buf place = buffer place
  prefilled : exchange.phase ≠ .prefill → min lengths.tnbytes BCM2711_SPI_FIFOLEN ≤ exchange.tcnt
  drained : lengths.tnbytes ≤ BCM2711_SPI_FIFOLEN → exchange.phase.afterDone →
    exchange.fifos.tx = []
  done : exchange.phase.afterRead → exchange.rcnt = lengths.rnbytes

variable {lengths : Lengths} {buffer : Nat → UInt8} {exchange after : Exchange}

/-- A transfer starts sound. -/
theorem sound_start : Sound lengths buffer (.start buffer) where
  sent := rfl
  sentUpTo := Nat.zero_le _
  stored := rfl
  storedUpTo := Nat.zero_le _
  untouched _ _ := rfl
  prefilled moved := absurd rfl moved
  drained _ done := done.elim
  done done := done.elim

namespace Sound

/-- Bytes stored came in, and bytes that came in were paid for with bytes sent. -/
theorem counters (sound : Sound lengths buffer exchange) :
    exchange.rcnt + exchange.fifos.rx.length = exchange.fifos.clocked.length ∧
      exchange.fifos.clocked.length + exchange.fifos.tx.length = exchange.tcnt := by
  have sent := congrArg List.length sound.sent
  have stored := congrArg List.length sound.stored
  rw [exchange.fifos.length_written, length_firstBytes] at sent
  rw [length_firstBytes] at stored
  exact ⟨stored ▸ exchange.fifos.length_clocked.symm, sent⟩

/-- A byte sent with room in the FIFO keeps the transfer sound, while the TX FIFO was not
found empty with all bytes written. -/
theorem send (sound : Sound lengths buffer exchange) (more : exchange.tcnt < lengths.tnbytes)
    (room : exchange.fifos.tx.length < fifoDepth)
    (early : exchange.phase = .prefill ∨ exchange.phase = .pushing) :
    Sound lengths buffer exchange.send where
  sent := by
    have own : exchange.buf exchange.tcnt = buffer exchange.tcnt := by
      refine sound.untouched _ ?_
      have counters := sound.counters
      omega
    show (exchange.fifos.write _).written = firstBytes buffer (exchange.tcnt + 1)
    rw [Fifos.written_write room, sound.sent, firstBytes_succ, own]
  sentUpTo := more
  stored := (exchange.fifos.write_other _).2.2.trans sound.stored
  storedUpTo := sound.storedUpTo
  untouched := sound.untouched
  prefilled moved := (sound.prefilled moved).trans (Nat.le_succ _)
  drained small done := by
    rcases early with phase | phase
    · have moved : exchange.phase.afterDone := done
      rw [phase] at moved
      exact moved.elim
    · have filled := sound.prefilled (by rw [phase]; exact Phase.noConfusion)
      rw [min_eq_left small] at filled
      exact absurd more (Nat.not_lt.mpr filled)
  done done := sound.done done

/-- A byte stored keeps the transfer sound. -/
theorem store (sound : Sound lengths buffer exchange) {byte : UInt8} {fifos : Fifos}
    (more : exchange.rcnt < lengths.rnbytes) (reading : exchange.phase = .reading)
    (taken : exchange.fifos.read = some (byte, fifos)) :
    Sound lengths buffer (exchange.store byte fifos) := by
  obtain ⟨_, tx, _, takenAfter⟩ := Fifos.read_some taken
  exact
    { sent := (Fifos.written_read taken).trans sound.sent
      sentUpTo := sound.sentUpTo
      stored := by
        show fifos.taken = firstBytes (Function.update exchange.buf exchange.rcnt byte)
          (exchange.rcnt + 1)
        rw [takenAfter, sound.stored, firstBytes_succ, firstBytes_update, Function.update_self]
      storedUpTo := more
      untouched := fun place past => by
        have later : exchange.rcnt < place := past
        exact (Function.update_of_ne later.ne' _ _).trans (sound.untouched place later.le)
      prefilled := sound.prefilled
      drained := fun small done => tx.trans (sound.drained small done)
      done := fun done => by
        have moved : exchange.phase.afterRead := done
        rw [reading] at moved
        exact moved.elim }

/-- A byte exchanged on the bus keeps the transfer sound. -/
theorem shift (sound : Sound lengths buffer exchange) {incoming : UInt8} {fifos : Fifos}
    (shifted : exchange.fifos.shift incoming = some fifos) :
    Sound lengths buffer { exchange with fifos := fifos } := by
  obtain ⟨byte, tx, _, _, taken⟩ := Fifos.shift_some shifted
  exact
    { sent := (Fifos.written_shift shifted).trans sound.sent
      sentUpTo := sound.sentUpTo
      stored := taken.trans sound.stored
      storedUpTo := sound.storedUpTo
      untouched := sound.untouched
      prefilled := sound.prefilled
      drained := fun small done => by
        have empty := sound.drained small done
        rw [tx] at empty
        cases empty
      done := sound.done }

/-- Going on in another place needs what that place promises. -/
theorem goto (sound : Sound lengths buffer exchange) {phase : Phase}
    (prefilled : phase ≠ .prefill → min lengths.tnbytes BCM2711_SPI_FIFOLEN ≤ exchange.tcnt)
    (drained : lengths.tnbytes ≤ BCM2711_SPI_FIFOLEN → phase.afterDone → exchange.fifos.tx = [])
    (done : phase.afterRead → exchange.rcnt = lengths.rnbytes) :
    Sound lengths buffer (exchange.goto phase) where
  sent := sound.sent
  sentUpTo := sound.sentUpTo
  stored := sound.stored
  storedUpTo := sound.storedUpTo
  untouched := sound.untouched
  prefilled := prefilled
  drained := drained
  done := done

/-- One turn of the driver keeps the transfer sound. -/
theorem driver (sound : Sound lengths buffer exchange) :
    Sound lengths buffer (driverStep lengths exchange) := by
  cases phase : exchange.phase with
  | prefill =>
      simp only [driverStep, phase]
      split
      · next more =>
          have room : exchange.fifos.tx.length < fifoDepth := by
            have counters := sound.counters
            have few := more.2
            unfold BCM2711_SPI_FIFOLEN at few
            unfold fifoDepth
            omega
          exact sound.send more.1 room (.inl phase)
      · next full =>
          refine sound.goto ?_ (fun _ done => done.elim) (fun done => done.elim)
          intro _
          rcases not_and_or.mp full with all | all
          · exact (min_le_left _ _).trans (Nat.not_lt.mp all)
          · exact (min_le_right _ _).trans (Nat.not_lt.mp all)
  | waiting =>
      have filled := sound.prefilled (by rw [phase]; exact Phase.noConfusion)
      simp only [driverStep, phase]
      split
      · next empty => exact sound.goto (fun _ => filled) (fun _ _ => empty) (fun done => done.elim)
      · exact sound
  | pushing =>
      have filled := sound.prefilled (by rw [phase]; exact Phase.noConfusion)
      have drained : lengths.tnbytes ≤ BCM2711_SPI_FIFOLEN → exchange.fifos.tx = [] :=
        fun small => sound.drained small (by rw [phase]; trivial)
      simp only [driverStep, phase]
      split
      · next more => exact sound.send more.1 more.2 (.inr phase)
      · exact sound.goto (fun _ => filled) (fun small _ => drained small) (fun done => done.elim)
  | reading =>
      have filled := sound.prefilled (by rw [phase]; exact Phase.noConfusion)
      have drained : lengths.tnbytes ≤ BCM2711_SPI_FIFOLEN → exchange.fifos.tx = [] :=
        fun small => sound.drained small (by rw [phase]; trivial)
      have finish (all : ¬ exchange.rcnt < lengths.rnbytes) :
          Sound lengths buffer (exchange.goto .finishing) :=
        sound.goto (fun _ => filled) (fun small _ => drained small)
          (fun _ => le_antisymm sound.storedUpTo (Nat.not_lt.mp all))
      simp only [driverStep, phase]
      split
      · next byte fifos taken =>
          split
          · next more => exact sound.store more phase taken
          · next all => exact finish all
      · split
        · exact sound.goto (fun _ => filled) (fun _ done => done.elim) (fun done => done.elim)
        · next all => exact finish all
  | finishing =>
      have filled := sound.prefilled (by rw [phase]; exact Phase.noConfusion)
      simp only [driverStep, phase]
      exact sound.goto (fun _ => filled)
        (fun small _ => sound.drained small (by rw [phase]; trivial))
        (fun _ => sound.done (by rw [phase]; trivial))
  | returned status =>
      simp only [driverStep, phase]
      exact sound

/-- Every action keeps the transfer sound. -/
theorem act (sound : Sound lengths buffer exchange) {action : Action}
    (acted : exchange.act lengths action = some after) : Sound lengths buffer after := by
  cases action with
  | driver =>
      obtain ⟨_, same⟩ := Option.ite_none_right_eq_some.mp acted
      cases same
      exact sound.driver
  | shift incoming =>
      obtain ⟨_, moved⟩ := Option.ite_none_right_eq_some.mp acted
      obtain ⟨fifos, shifted, rfl⟩ := Option.map_eq_some_iff.mp moved
      exact sound.shift shifted
  | timeout =>
      obtain ⟨phase, same⟩ := Option.ite_none_right_eq_some.mp acted
      cases same
      have filled := sound.prefilled (by rw [phase]; exact Phase.noConfusion)
      refine sound.goto (fun _ => filled) ?_ ?_
      · intro _ done
        cases done
      · intro done
        cases done

/-- What holds at the start holds in every state a transfer reaches. -/
theorem run (reached : Reaches lengths (.start buffer) exchange) :
    Sound lengths buffer exchange :=
  Actions.Reaches.invariant reached (Sound lengths buffer) sound_start
    fun _ _ _ sound _ acted => sound.act acted

/-- A transfer that returned and left no byte behind is complete. -/
theorem complete (sound : Sound lengths buffer exchange)
    (returned : exchange.phase = .returned .EOK) (allSent : exchange.tcnt = lengths.tnbytes)
    (emptied : exchange.fifos.tx = []) : Complete lengths buffer exchange := by
  have allStored : exchange.rcnt = lengths.rnbytes := sound.done (by rw [returned]; trivial)
  obtain ⟨received, transmitted⟩ := sound.counters
  rw [emptied, List.length_nil, Nat.add_zero, allSent] at transmitted
  exact
    { written := allSent ▸ sound.sent
      stored := by
        rw [exchange.fifos.arrived, ← allStored, ← sound.stored]
        refine (List.take_left' ?_).symm
        rw [sound.stored, length_firstBytes]
      clocked := by
        unfold Lengths.xlen
        omega }

end Sound

/-- The lengths for which every return is a complete exchange: no more bytes to send than to
receive, or all of them sent by the prefill loop. -/
def Lengths.safe (lengths : Lengths) : Prop :=
  lengths.tnbytes ≤ lengths.rnbytes ∨ lengths.tnbytes ≤ BCM2711_SPI_FIFOLEN

/-- A return with safe lengths is a complete exchange. -/
theorem complete_of_safe (safe : lengths.safe)
    (reached : Reaches lengths (.start buffer) exchange)
    (returned : exchange.phase = .returned .EOK) : Complete lengths buffer exchange := by
  have sound := Sound.run reached
  have allStored : exchange.rcnt = lengths.rnbytes := sound.done (by rw [returned]; trivial)
  obtain ⟨received, transmitted⟩ := sound.counters
  have upTo := sound.sentUpTo
  rcases safe with balanced | small
  · have emptied : exchange.fifos.tx.length = 0 := by omega
    have allSent : exchange.tcnt = lengths.tnbytes := by omega
    exact sound.complete returned allSent (List.length_eq_zero_iff.mp emptied)
  · have filled := sound.prefilled (by rw [returned]; exact Phase.noConfusion)
    rw [min_eq_left small] at filled
    exact sound.complete returned (le_antisymm upTo filled)
      (sound.drained small (by rw [returned]; trivial))

/-! ## Returns that come too early -/

/-- A transfer of these lengths can be in this place with these counters, and this many
bytes clocked. -/
def CanReach (lengths : Lengths) (buffer : Nat → UInt8) (phase : Phase)
    (tcnt rcnt clocked : Nat) : Prop :=
  ∃ exchange, Reaches lengths (.start buffer) exchange ∧ exchange.phase = phase ∧
    exchange.tcnt = tcnt ∧ exchange.rcnt = rcnt ∧ exchange.fifos.clocked.length = clocked

namespace CanReach

variable {phase : Phase} {tcnt rcnt clocked : Nat}

theorem start : CanReach lengths buffer .prefill 0 0 0 :=
  ⟨.start buffer, .refl, rfl, rfl, rfl, rfl⟩

/-- A turn of the driver from here. -/
theorem driver {phaseAfter : Phase} {tcntAfter rcntAfter : Nat}
    (reach : CanReach lengths buffer phase tcnt rcnt clocked) (active : phase.active = true)
    (turn : ∀ exchange, Sound lengths buffer exchange → exchange.phase = phase →
      exchange.tcnt = tcnt → exchange.rcnt = rcnt → exchange.fifos.clocked.length = clocked →
      (driverStep lengths exchange).phase = phaseAfter ∧
        (driverStep lengths exchange).tcnt = tcntAfter ∧
        (driverStep lengths exchange).rcnt = rcntAfter ∧
        (driverStep lengths exchange).fifos.clocked = exchange.fifos.clocked) :
    CanReach lengths buffer phaseAfter tcntAfter rcntAfter clocked := by
  obtain ⟨exchange, reached, rfl, sent, stored, exchanged⟩ := reach
  obtain ⟨phaseIs, tcntIs, rcntIs, clockedIs⟩ :=
    turn exchange (Sound.run reached) rfl sent stored exchanged
  exact ⟨driverStep lengths exchange, reached.tail ⟨.driver, trivial, if_pos active⟩, phaseIs,
    tcntIs,
    rcntIs, clockedIs ▸ exchanged⟩

/-- A byte may be exchanged while one is in the TX FIFO and the RX FIFO has room. -/
theorem shift (reach : CanReach lengths buffer phase tcnt rcnt clocked)
    (active : phase.active = true) (more : clocked < tcnt) (room : clocked - rcnt < fifoDepth) :
    CanReach lengths buffer phase tcnt rcnt (clocked + 1) := by
  obtain ⟨exchange, reached, rfl, sent, stored, exchanged⟩ := reach
  obtain ⟨received, transmitted⟩ := (Sound.run reached).counters
  obtain ⟨byte, rest, waiting⟩ : ∃ byte rest, exchange.fifos.tx = byte :: rest := by
    refine List.exists_cons_of_length_pos ?_
    omega
  obtain ⟨fifos, shifted⟩ := Fifos.exists_shift byte rest 0 waiting (by omega)
  obtain ⟨_, _, _, clockedAfter, _⟩ := Fifos.shift_some shifted
  have acted : exchange.act lengths (.shift 0) = some { exchange with fifos := fifos } := by
    simp only [Exchange.act, active, if_true, shifted, Option.map_some]
  refine ⟨_, reached.tail ⟨.shift 0, trivial, acted⟩, rfl, sent, stored, ?_⟩
  rw [clockedAfter, List.length_append, exchanged]
  rfl

/-- The prefill loop writes another byte. -/
theorem prefill (reach : CanReach lengths buffer .prefill tcnt rcnt clocked)
    (more : tcnt < lengths.tnbytes) (few : tcnt < BCM2711_SPI_FIFOLEN) :
    CanReach lengths buffer .prefill (tcnt + 1) rcnt clocked := by
  refine reach.driver rfl fun exchange _ phase sent stored _ => ?_
  have turn : driverStep lengths exchange = exchange.send := by
    simp only [driverStep, phase, sent, more, few, and_self, if_true]
  rw [turn]
  exact ⟨phase, congrArg (· + 1) sent, stored, (exchange.fifos.write_other _).2.1⟩

/-- The prefill loop ends. -/
theorem wait (reach : CanReach lengths buffer .prefill tcnt rcnt clocked)
    (full : ¬ (tcnt < lengths.tnbytes ∧ tcnt < BCM2711_SPI_FIFOLEN)) :
    CanReach lengths buffer .waiting tcnt rcnt clocked := by
  refine reach.driver rfl fun exchange _ phase sent stored _ => ?_
  simp only [driverStep, phase, sent, full, if_false]
  exact ⟨rfl, sent, stored, rfl⟩

/-- A completion event is taken when all bytes written went out. -/
theorem wake (reach : CanReach lengths buffer .waiting tcnt rcnt tcnt) :
    CanReach lengths buffer .pushing tcnt rcnt tcnt := by
  refine reach.driver rfl fun exchange sound phase sent stored exchanged => ?_
  have empty : exchange.fifos.tx = [] := by
    obtain ⟨_, transmitted⟩ := sound.counters
    refine List.length_eq_zero_iff.mp ?_
    omega
  simp only [driverStep, phase, empty, if_true]
  exact ⟨rfl, sent, stored, rfl⟩

/-- The handler writes another byte. -/
theorem push (reach : CanReach lengths buffer .pushing tcnt rcnt clocked)
    (more : tcnt < lengths.tnbytes) (room : tcnt < clocked + fifoDepth) :
    CanReach lengths buffer .pushing (tcnt + 1) rcnt clocked := by
  refine reach.driver rfl fun exchange sound phase sent stored exchanged => ?_
  have hasRoom : exchange.fifos.tx.length < fifoDepth := by
    obtain ⟨_, transmitted⟩ := sound.counters
    omega
  have turn : driverStep lengths exchange = exchange.send := by
    simp only [driverStep, phase, sent, more, hasRoom, and_self, if_true]
  rw [turn]
  exact ⟨phase, congrArg (· + 1) sent, stored, (exchange.fifos.write_other _).2.1⟩

/-- The handler goes on to read when it wrote all bytes or as many as fit. -/
theorem startReading (reach : CanReach lengths buffer .pushing tcnt rcnt clocked)
    (full : ¬ (tcnt < lengths.tnbytes ∧ tcnt < clocked + fifoDepth)) :
    CanReach lengths buffer .reading tcnt rcnt clocked := by
  refine reach.driver rfl fun exchange sound phase sent stored exchanged => ?_
  have noRoom : ¬ (tcnt < lengths.tnbytes ∧ exchange.fifos.tx.length < fifoDepth) := by
    obtain ⟨_, transmitted⟩ := sound.counters
    omega
  simp only [driverStep, phase, sent, noRoom, if_false]
  exact ⟨rfl, sent, stored, rfl⟩

/-- The handler stores another byte. -/
theorem read (reach : CanReach lengths buffer .reading tcnt rcnt clocked)
    (more : rcnt < lengths.rnbytes) (available : rcnt < clocked) :
    CanReach lengths buffer .reading tcnt (rcnt + 1) clocked := by
  refine reach.driver rfl fun exchange sound phase sent stored exchanged => ?_
  obtain ⟨received, _⟩ := sound.counters
  cases taken : exchange.fifos.read with
  | none =>
      have empty := congrArg List.length (Fifos.read_none taken)
      rw [List.length_nil] at empty
      omega
  | some pair =>
      obtain ⟨_, _, clockedAfter, _⟩ := Fifos.read_some taken
      have turn : driverStep lengths exchange = exchange.store pair.1 pair.2 := by
        simp only [driverStep, phase, taken, stored, more, if_true]
      rw [turn]
      exact ⟨phase, sent, congrArg (· + 1) stored, clockedAfter⟩

/-- The handler waits again when the RX FIFO is empty too early. -/
theorem waitAgain (reach : CanReach lengths buffer .reading tcnt clocked clocked)
    (more : clocked < lengths.rnbytes) :
    CanReach lengths buffer .waiting tcnt clocked clocked := by
  refine reach.driver rfl fun exchange sound phase sent stored exchanged => ?_
  obtain ⟨received, _⟩ := sound.counters
  cases taken : exchange.fifos.read with
  | none =>
      simp only [driverStep, phase, taken, stored, more, if_true]
      exact ⟨rfl, sent, stored, rfl⟩
  | some pair =>
      have some := congrArg List.length (Fifos.read_some taken).1
      rw [List.length_cons] at some
      omega

/-- The transfer returns once all bytes asked for are stored. -/
theorem leave (reach : CanReach lengths buffer .reading tcnt lengths.rnbytes clocked) :
    CanReach lengths buffer (.returned .EOK) tcnt lengths.rnbytes clocked := by
  have finishing : CanReach lengths buffer .finishing tcnt lengths.rnbytes clocked := by
    refine reach.driver rfl fun exchange _ phase sent stored _ => ?_
    simp only [driverStep, phase, stored, lt_irrefl, if_false]
    split <;> exact ⟨rfl, sent, stored, rfl⟩
  refine finishing.driver rfl fun exchange _ phase sent stored _ => ?_
  simp only [driverStep, phase]
  exact ⟨rfl, sent, stored, rfl⟩

/-- The prefill loop writes bytes up to any number it may. -/
theorem prefillTo (count : Nat) (within : count ≤ lengths.tnbytes)
    (few : count ≤ BCM2711_SPI_FIFOLEN) : CanReach lengths buffer .prefill count 0 0 := by
  induction count with
  | zero => exact start
  | succ count ih =>
      exact (ih (Nat.le_of_succ_le within) (Nat.le_of_succ_le few)).prefill within few

/-- Bytes are exchanged up to any number written. -/
theorem shiftTo {later : Nat} (reach : CanReach lengths buffer phase tcnt rcnt clocked)
    (active : phase.active = true) (more : clocked ≤ later) (within : later ≤ tcnt)
    (room : later - rcnt ≤ fifoDepth) : CanReach lengths buffer phase tcnt rcnt later := by
  induction later, more using Nat.le_induction with
  | base => exact reach
  | succ later _ ih =>
      have depth : 0 < fifoDepth := Nat.zero_lt_succ _
      exact (ih (Nat.le_of_succ_le within) (by omega)).shift active within (by omega)

/-- The handler writes bytes up to any number that fits. -/
theorem pushTo {later : Nat} (reach : CanReach lengths buffer .pushing tcnt rcnt clocked)
    (more : tcnt ≤ later) (within : later ≤ lengths.tnbytes)
    (room : later ≤ clocked + fifoDepth) :
    CanReach lengths buffer .pushing later rcnt clocked := by
  induction later, more using Nat.le_induction with
  | base => exact reach
  | succ later _ ih =>
      exact (ih (Nat.le_of_succ_le within) (Nat.le_of_succ_le room)).push within room

/-- The handler stores bytes up to any number that came in. -/
theorem readTo {later : Nat} (reach : CanReach lengths buffer .reading tcnt rcnt clocked)
    (more : rcnt ≤ later) (within : later ≤ lengths.rnbytes) (available : later ≤ clocked) :
    CanReach lengths buffer .reading tcnt later clocked := by
  induction later, more using Nat.le_induction with
  | base => exact reach
  | succ later _ ih =>
      exact (ih (Nat.le_of_succ_le within) (Nat.le_of_succ_le available)).read within available

/-- Bytes are stored as they come in, up to any number written. -/
theorem readShiftingTo {later : Nat}
    (reach : CanReach lengths buffer .reading tcnt clocked clocked) (more : clocked ≤ later)
    (within : later ≤ lengths.rnbytes) (written : later ≤ tcnt) :
    CanReach lengths buffer .reading tcnt later later := by
  induction later, more using Nat.le_induction with
  | base => exact reach
  | succ later _ ih =>
      have before := ih (Nat.le_of_succ_le within) (Nat.le_of_succ_le written)
      have room : later - later < fifoDepth := by
        rw [Nat.sub_self]
        exact Nat.zero_lt_succ _
      exact (before.shift rfl written room).read within (Nat.lt_succ_self later)

/-- From a completion event with bytes left to write, a handler that stores each byte as it
comes in returns before the last byte goes out. -/
theorem early (fewer : lengths.rnbytes < lengths.tnbytes)
    (reach : CanReach lengths buffer .waiting tcnt rcnt tcnt) (left : tcnt < lengths.tnbytes)
    (order : rcnt ≤ tcnt) (stored : rcnt ≤ lengths.rnbytes) :
    ∃ written clocked, CanReach lengths buffer (.returned .EOK) written lengths.rnbytes clocked ∧
      clocked < lengths.tnbytes := by
  -- each further event finds more bytes written
  induction gap : lengths.tnbytes - tcnt using Nat.strong_induction_on
    generalizing tcnt rcnt with
  | _ gap ih =>
      have refilled : CanReach lengths buffer .reading (min lengths.tnbytes (tcnt + fifoDepth))
          rcnt tcnt := by
        refine (reach.wake.pushTo ?_ (min_le_left _ _) (min_le_right _ _)).startReading ?_
        · exact le_min left.le (Nat.le_add_right _ _)
        · omega
      have grown : tcnt < min lengths.tnbytes (tcnt + fifoDepth) := by
        have depth : 0 < fifoDepth := Nat.zero_lt_succ _
        omega
      by_cases enough : lengths.rnbytes ≤ tcnt
      · exact ⟨_, tcnt, (refilled.readTo stored le_rfl enough).leave, left⟩
      · have caughtUp := refilled.readTo order (Nat.not_le.mp enough).le le_rfl
        by_cases within : lengths.rnbytes ≤ min lengths.tnbytes (tcnt + fifoDepth)
        · exact ⟨_, lengths.rnbytes,
            (caughtUp.readShiftingTo (Nat.not_le.mp enough).le le_rfl within).leave, fewer⟩
        · have short := Nat.not_le.mp within
          have again := (caughtUp.readShiftingTo grown.le short.le le_rfl).waitAgain short
          exact ih _ (by omega) again (by omega) le_rfl short.le rfl

/-- With more bytes to send than to receive, and more than the prefill loop writes, a
transfer can return before the last byte goes out. -/
theorem returns_early (fewer : lengths.rnbytes < lengths.tnbytes)
    (many : BCM2711_SPI_FIFOLEN < lengths.tnbytes) :
    ∃ written clocked, CanReach lengths buffer (.returned .EOK) written lengths.rnbytes clocked ∧
      clocked < lengths.tnbytes := by
  have filled : CanReach lengths buffer .prefill BCM2711_SPI_FIFOLEN 0 0 :=
    prefillTo _ many.le le_rfl
  have waiting := filled.wait fun more => lt_irrefl _ more.2
  have exchanged : CanReach lengths buffer .waiting BCM2711_SPI_FIFOLEN 0 BCM2711_SPI_FIFOLEN :=
    waiting.shiftTo rfl (Nat.zero_le _) le_rfl (by decide)
  exact exchanged.early fewer many (Nat.zero_le _) (Nat.zero_le _)

end CanReach

/-! ## The exchange of a call -/

/-- **Every return of `bcm2711spi_xfer` is a complete exchange** exactly when no more bytes
are to be sent than received, or the prefill loop writes them all. -/
theorem xfer_complete_iff (tnbytes rnbytes : Nat) :
    (∀ buffer exchange, Reaches (effective tnbytes rnbytes) (.start buffer) exchange →
      exchange.phase = .returned .EOK → Complete (effective tnbytes rnbytes) buffer exchange) ↔
      tnbytes = 0 ∨ rnbytes = 0 ∨ tnbytes ≤ rnbytes ∨ tnbytes ≤ BCM2711_SPI_FIFOLEN := by
  have safe_iff : (effective tnbytes rnbytes).safe ↔
      tnbytes = 0 ∨ rnbytes = 0 ∨ tnbytes ≤ rnbytes ∨ tnbytes ≤ BCM2711_SPI_FIFOLEN := by
    unfold effective Lengths.safe
    split
    · next none => simp [none]
    · next some =>
        split
        · next none => simp [none]
        · next other => simp [some, other]
  rw [← safe_iff]
  constructor
  · intro complete
    by_contra risky
    obtain ⟨more, many⟩ := not_or.mp risky
    obtain ⟨written, clocked, ⟨exchange, reached, returned, _, _, exchanged⟩, short⟩ :=
      @CanReach.returns_early _ (fun _ => 0) (Nat.not_le.mp more) (Nat.not_le.mp many)
    have whole := (complete _ exchange reached returned).clocked
    rw [exchanged] at whole
    exact absurd (le_max_left _ _) (Nat.not_le.mpr (whole ▸ short))
  · intro safe buffer exchange reached returned
    exact complete_of_safe safe reached returned

/-- Seventeen bytes sent for one received: the call can return with the last one unsent. -/
theorem seventeen_for_one_incomplete :
    ∃ buffer exchange, Reaches (effective 17 1) (.start buffer) exchange ∧
      exchange.phase = .returned .EOK ∧ ¬ Complete (effective 17 1) buffer exchange := by
  obtain ⟨written, clocked, ⟨exchange, reached, returned, _, _, exchanged⟩, short⟩ :=
    @CanReach.returns_early (effective 17 1) (fun _ => 0) (by decide) (by decide)
  refine ⟨fun _ => 0, exchange, reached, returned, fun complete => ?_⟩
  have whole := complete.clocked
  rw [exchanged] at whole
  exact absurd (le_max_left _ _) (Nat.not_le.mpr (whole ▸ short))

end Bcm2711.Spi
