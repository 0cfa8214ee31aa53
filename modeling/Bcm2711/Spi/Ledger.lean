import Bcm2711.Spi.Transfer

/-! # What the calls so far amount to

The ledger of a bus follows the calls alone, without registers: for each device the rate
and the mode word of its last accepted configuration, the mode word last asked for, and
whether a DMA transfer was started since; and for the bus the device that last had the
clock programmed.  The driver's state follows the ledger along every run.
-/

namespace Bcm2711.Spi

/-! ## The ledger -/

/-- How a device stands after some calls. -/
structure Standing where
  /-- The rate its last accepted configuration got. -/
  rate : UInt32
  /-- The mode word of its last accepted configuration. -/
  accepted : Option (BitVec 32)
  /-- The mode word it was last given, accepted or not. -/
  asked : BitVec 32
  /-- A DMA transfer of it was started since. -/
  dmaSince : Bool
deriving DecidableEq, Repr

/-- What the calls on a bus amount to. -/
structure Ledger (ι : Type) where
  standing : ι → Standing
  /-- The device for which the clock was last programmed. -/
  clockOwner : Option ι

variable {ι : Type}

/-- The ledger of a bus before any call. -/
def Ledger.fresh (reset : Bus ι) : Ledger ι where
  standing dev := ⟨(reset.devs dev).currentClkrate, none, (reset.devs dev).cfg.mode, false⟩
  clockOwner := none

/-- Record one device's standing. -/
def Ledger.record [DecidableEq ι] (ledger : Ledger ι) (dev : ι) (standing : Standing) :
    Ledger ι :=
  { ledger with standing := Function.update ledger.standing dev standing }

/-- The ledger after a call. -/
def Ledger.next [DecidableEq ι] (io : ModeBits) (reset : Bus ι) (ledger : Ledger ι) :
    Call ι → Ledger ι
  | .setcfg dev cfg =>
      let before := ledger.standing dev
      if accepts io cfg.mode (reset.devs dev).devno then
        if before.rate = cfg.clockRate then
          ledger.record dev ⟨before.rate, some cfg.mode, cfg.mode, false⟩
        else
          { ledger.record dev ⟨bestRate reset.inputClk cfg.clockRate, some cfg.mode, cfg.mode,
              false⟩ with clockOwner := some dev }
      else ledger.record dev { before with asked := cfg.mode }
  | .xfer _ _ _ _ => ledger
  | .dmaxfer dev tnbytes rnbytes answers =>
      let before := ledger.standing dev
      if dmaStarts io before.asked tnbytes rnbytes answers then
        ledger.record dev { before with dmaSince := true }
      else ledger

/-- The ledger after a history of calls. -/
def ledgerAfter [DecidableEq ι] (io : ModeBits) (reset : Bus ι)
    (history : List (Runs.Event (Call ι) Returned)) : Ledger ι :=
  history.foldl (fun ledger event => ledger.next io reset event.call) (Ledger.fresh reset)

/-- The divider in the CLK register by the ledger. -/
def Ledger.clk (reset : Bus ι) (ledger : Ledger ι) : UInt32 :=
  match ledger.clockOwner with
  | none => reset.clk
  | some owner => cdivOf reset.inputClk (ledger.standing owner).rate

/-- Devices are configured before they are used. -/
def configuredFirst [DecidableEq ι] (io : ModeBits) (reset : Bus ι)
    (history : List (Runs.Event (Call ι) Returned)) (_ : Bus ι) (call : Call ι) : Prop :=
  call.transfers = true → ((ledgerAfter io reset history).standing call.dev).accepted ≠ none

instance configuredFirstDecidable [DecidableEq ι] (io : ModeBits) (reset : Bus ι)
    (history : List (Runs.Event (Call ι) Returned)) (bus : Bus ι) (call : Call ι) :
    Decidable (configuredFirst io reset history bus call) :=
  inferInstanceAs (Decidable (_ → _))

/-! ## The driver follows the ledger -/

/-- One device agrees with its standing. -/
structure Agrees (io : ModeBits) (select : BitVec 32) (standing : Standing) (dev : SpiDev) :
    Prop where
  devno : dev.devno = select
  rate : dev.currentClkrate = standing.rate
  asked : dev.cfg.mode = standing.asked
  accepts : ∀ mode, standing.accepted = some mode → accepts io mode select = true
  devctrl : ∀ mode, standing.accepted = some mode →
    dev.devctrl = ctrlOf io mode select ||| if standing.dmaSince then dmaStartBits else 0

/-- The state of the driver agrees with the ledger. -/
structure Follows (io : ModeBits) (reset : Bus ι) (ledger : Ledger ι) (bus : Bus ι) :
    Prop where
  inputClk : bus.inputClk = reset.inputClk
  devs : ∀ dev, Agrees io (reset.devs dev).devno (ledger.standing dev) (bus.devs dev)
  clk : bus.clk = ledger.clk reset

variable {io : ModeBits} {reset : Bus ι} {ledger : Ledger ι} {bus : Bus ι}

/-- A bus follows its ledger before any call. -/
theorem follows_fresh : Follows io reset (Ledger.fresh reset) reset where
  inputClk := rfl
  devs _ :=
    { devno := rfl
      rate := rfl
      asked := rfl
      accepts := fun _ none => by cases none
      devctrl := fun _ none => by cases none }
  clk := rfl

variable [DecidableEq ι]

/-- Recording one device keeps the agreement of all. -/
theorem Follows.devs_record (follows : Follows io reset ledger bus) {dev : ι}
    {standing : Standing} {after : SpiDev}
    (agrees : Agrees io (reset.devs dev).devno standing after) (other : ι) :
    Agrees io (reset.devs other).devno ((ledger.record dev standing).standing other)
      (Function.update bus.devs dev after other) := by
  by_cases same : other = dev
  · subst same
    simpa only [Ledger.record, Function.update_self] using agrees
  · simpa only [Ledger.record, Function.update_of_ne same] using follows.devs other

/-- Recording a device at its old rate leaves the clock as it is. -/
theorem clk_record {dev : ι} {standing : Standing}
    (same : standing.rate = (ledger.standing dev).rate) :
    (ledger.record dev standing).clk reset = ledger.clk reset := by
  unfold Ledger.clk
  show (match ledger.clockOwner with
    | none => reset.clk
    | some owner => cdivOf reset.inputClk
        (Function.update ledger.standing dev standing owner).rate) = _
  cases ledger.clockOwner with
  | none => rfl
  | some owner =>
      by_cases own : owner = dev
      · subst own
        simp only [Function.update_self, same]
      · simp only [Function.update_of_ne own]

/-- Recording what a transfer left behind keeps the bus following. -/
theorem Follows.transferred (follows : Follows io reset ledger bus) {dev : ι}
    {standing : Standing} {after : SpiDev}
    (agrees : Agrees io (reset.devs dev).devno standing after)
    (same : standing.rate = (ledger.standing dev).rate) :
    Follows io reset (ledger.record dev standing)
      { bus with devs := Function.update bus.devs dev after } where
  inputClk := follows.inputClk
  devs := follows.devs_record agrees
  clk := follows.clk.trans (clk_record same).symm

/-- A configuration call keeps the bus following its ledger. -/
theorem Follows.setcfg (follows : Follows io reset ledger bus) {dev : ι} {cfg : SpiCfg}
    {done : Configured}
    (returned : bcm2711spiSetcfg io bus.inputClk bus.clk (bus.devs dev) cfg = .ok done) :
    Follows io reset (ledger.next io reset (.setcfg dev cfg))
      ⟨bus.inputClk, done.clk, Function.update bus.devs dev done.dev⟩ := by
  have agrees := follows.devs dev
  rcases bcm2711Cfg_ok returned with ⟨rejected, rfl⟩ | ⟨accepted, rate, clkAfter, programmed, rfl⟩
  · simp only [agrees.devno] at rejected
    simp only [Ledger.next, rejected, Bool.false_eq_true, if_false]
    refine follows.transferred ?_ rfl
    exact { agrees with asked := rfl }
  · simp only [agrees.devno] at accepted
    simp only [Ledger.next, accepted, if_true]
    have after (rate : UInt32) : Agrees io (reset.devs dev).devno
        ⟨rate, some cfg.mode, cfg.mode, false⟩
        { bus.devs dev with
          cfg := { cfg with clockRate := rate }
          currentClkrate := rate
          devctrl := ctrlOf io cfg.mode (bus.devs dev).devno } :=
      { devno := agrees.devno
        rate := rfl
        asked := rfl
        accepts := fun mode known => by
          cases known
          exact accepted
        devctrl := fun mode known => by
          cases known
          simp [agrees.devno] }
    rcases programClock_ok programmed with ⟨same, rfl, rfl⟩ | ⟨differs, rfl, rfl⟩
    · have known : (ledger.standing dev).rate = cfg.clockRate := agrees.rate.symm.trans same
      rw [if_pos known]
      rw [← agrees.rate]
      exact follows.transferred (after (bus.devs dev).currentClkrate) agrees.rate
    · have unknown : (ledger.standing dev).rate ≠ cfg.clockRate :=
        fun same => differs (agrees.rate.trans same)
      rw [if_neg unknown]
      simp only [follows.inputClk]
      refine ⟨rfl, follows.devs_record (after _), ?_⟩
      simp only [Ledger.clk, Ledger.record, Function.update_self]

/-- A started DMA transfer leaves its bits in the control word. -/
theorem Agrees.dmaStarted {select : BitVec 32} {standing : Standing} {dev : SpiDev}
    (agrees : Agrees io select standing dev) :
    Agrees io select { standing with dmaSince := true }
      { dev with devctrl := dev.devctrl ||| dmaStartBits } :=
  { agrees with
    devctrl := fun mode known => by
      show dev.devctrl ||| dmaStartBits = _
      rw [agrees.devctrl mode known, BitVec.or_assoc]
      cases standing.dmaSince <;> simp }

/-- Writing back an unchanged device changes nothing. -/
theorem update_same {dev : ι} {after : SpiDev} (same : after = bus.devs dev) :
    { bus with devs := Function.update bus.devs dev after } = bus := by
  rw [same, Function.update_eq_self]

/-- Every call keeps the bus following its ledger. -/
theorem Follows.step (follows : Follows io reset ledger bus) {call : Call ι} {after : Bus ι}
    {returned : Returned} (stepped : step io bus call = .ok (after, returned)) :
    Follows io reset (ledger.next io reset call) after := by
  cases call with
  | setcfg dev cfg =>
      simp only [Spi.step] at stepped
      split at stepped
      · cases stepped
      · next done configured =>
          cases stepped
          exact follows.setcfg configured
  | xfer dev tnbytes rnbytes waited =>
      simp only [Spi.step] at stepped
      split at stepped
      · cases stepped
      · next done transferred =>
          cases stepped
          obtain ⟨dtime, rfl⟩ := bcm2711spiXfer_ok transferred
          rw [update_same rfl]
          exact follows
  | dmaxfer dev tnbytes rnbytes answers =>
      have agrees := follows.devs dev
      simp only [Spi.step] at stepped
      split at stepped
      · cases stepped
      · next done transferred =>
          cases stepped
          rcases bcm2711spiDmaxfer_ok transferred with ⟨byteWide, fallback⟩ | ⟨starts, dtime, rfl⟩ |
            ⟨_, stays, same, _⟩
          · obtain ⟨dtime, rfl⟩ := bcm2711spiXfer_ok fallback
            rw [agrees.asked] at byteWide
            simp only [Ledger.next, dmaStarts, byteWide]
            rw [update_same rfl]
            simpa using follows
          · rw [agrees.asked] at starts
            simp only [Ledger.next, starts, if_true]
            exact follows.transferred agrees.dmaStarted rfl
          · rw [agrees.asked] at stays
            simp only [Ledger.next, stays, Bool.false_eq_true, if_false]
            rw [update_same same]
            exact follows

/-- Along every run the driver follows the ledger of its calls. -/
theorem follows_run {history : List (Runs.Event (Call ι) Returned)}
    (run : Runs.Run (step io) (configuredFirst io reset) reset history bus) :
    Follows io reset (ledgerAfter io reset history) bus := by
  refine @Runs.Run.invariant _ _ _ _ _ _ _
    (fun history bus => Follows io reset (ledgerAfter io reset history) bus) follows_fresh ?_
    _ _ run
  intro history state call after returned follows _ stepped
  simp only [ledgerAfter, List.foldl_append, List.foldl_cons, List.foldl_nil]
  exact follows.step stepped

/-- Storing the configuration a device has is what `init_device` does. -/
theorem setcfg_stored {dev : SpiDev} {inputClk : UInt64} {clk : UInt32} :
    bcm2711spiSetcfg io inputClk clk dev dev.cfg = bcm2711Cfg io inputClk clk dev := rfl

/-- The loop of `init_device` is a run that configures the listed devices in turn. -/
theorem initDevices_run {devlist : List ι} {history : List (Runs.Event (Call ι) Returned)}
    {after : Bus ι}
    (run : Runs.Run (step io) (configuredFirst io reset) reset history bus)
    (done : initDevices io bus devlist = .ok (after, .EOK)) :
    ∃ configured, Runs.Run (step io) (configuredFirst io reset) reset (history ++ configured)
      after ∧ configured.map (fun event => event.call.dev) = devlist ∧
      ∀ event ∈ configured, event.returned = ⟨.EOK, none⟩ := by
  induction devlist generalizing history bus with
  | nil =>
      cases done
      refine ⟨[], ?_, rfl, by simp⟩
      rw [List.append_nil]
      exact run
  | cons dev devlist ih =>
      simp only [initDevices] at done
      split at done
      · cases done
      · next first returned =>
          split at done
          · next failed => exact absurd (congrArg Prod.snd (Except.ok.inj done)) failed
          · next accepted =>
              rw [not_not] at accepted
              have stepped : step io bus (.setcfg dev (bus.devs dev).cfg) = .ok
                  (⟨bus.inputClk, first.clk, Function.update bus.devs dev first.dev⟩,
                    ⟨.EOK, none⟩) := by
                simp only [step, setcfg_stored, returned, accepted]
              obtain ⟨rest, ran, devs, statuses⟩ :=
                ih (run.next (fun transfers => by cases transfers) stepped) done
              refine ⟨⟨.setcfg dev (bus.devs dev).cfg, ⟨.EOK, none⟩⟩ :: rest, ?_, ?_, ?_⟩
              · rwa [List.append_assoc] at ran
              · exact congrArg (dev :: ·) devs
              · intro event member
                rcases List.mem_cons.mp member with rfl | later
                · rfl
                · exact statuses event later

end Bcm2711.Spi
