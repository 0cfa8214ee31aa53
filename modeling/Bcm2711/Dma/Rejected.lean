import Bcm2711.Dma.Channel

/-! # Rejected transfers

`dma_setup_xfer` divides by the unit size before it looks at it, and finds out that the engine
cannot encode it only while it builds the first control block.  What it has stored in the channel
by then stays there when it returns -1.
-/

namespace Bcm2711.Dma

/-- A channel with its `cb_params`; `burst_len` of these is never used. -/
structure PreparedChannel where
  chan : DmaChannel
  cbParams : DmaCbParams
  burstLen : Nat

/-- How a call of `dma_setup_xfer` ends. -/
inductive SetupOutcome where
  /-- A remainder by a unit size of zero is computed. -/
  | dividesByZero
  | returns (after : PreparedChannel) (ret : Ret)

/-- The transfer type is one that `check_tinfo_params` refuses. -/
def DmaTransfer.Refused (tinfo : DmaTransfer) : Prop :=
  getXferType tinfo.srcFlags tinfo.dstFlags = .unknown ∨
    getXferType tinfo.srcFlags tinfo.dstFlags = .deviceToDevice

instance (tinfo : DmaTransfer) : Decidable tinfo.Refused :=
  inferInstanceAs (Decidable (_ ∨ _))

/-- `check_tinfo_params`; `none` when it divides by zero. -/
def checkTinfo (chan : DmaChannel) (tinfo : DmaTransfer) : Option Bool :=
  if tinfo.Refused then some false
  else if tinfo.xferUnitSize = 0 then none
  else some (checkTinfoParams chan tinfo)

/-- `cb_params` in front of the loop of `dma_setup_cbs`. -/
def startParams (tinfo : DmaTransfer) : DmaCbParams where
  info := (setupInfo tinfo).1
  len := 0
  dreq := (setupInfo tinfo).2
  srcPaddr := 0
  dstPaddr := 0
  nextcb := 0

/-- The loop of `dma_setup_cbs` over the control blocks left: the blocks set, `cb_params`, and
whether all are set. -/
def setupBlocks (chan : DmaChannel) (tinfo : DmaTransfer) :
    List Nat → List ControlBlock → DmaCbParams → List ControlBlock × DmaCbParams × Bool
  | [], done, params => (done, params, true)
  | sgi :: rest, done, _ =>
      let params := cbParams chan tinfo sgi
      match setcb chan params with
      | none => (done, params, false)
      | some cb => setupBlocks chan tinfo rest (done ++ [cb]) params

theorem cbSize_lt (numCbs : Nat) : numCbs * DMA_CB_SIZE % 2 ^ 32 < 2 ^ 32 :=
  Nat.mod_lt _ (Nat.two_pow_pos 32)

/-- A buffer for so many control blocks. -/
def newBuffer (numCbs paddr : Nat) : DmaAddr :=
  ⟨paddr, numCbs * DMA_CB_SIZE % 2 ^ 32, cbSize_lt numCbs⟩

/-- The buffer of the control blocks, unless none is found. -/
def cbBuffer (alloc : Nat → Option Nat) (chan : DmaChannel) : Option DmaAddr :=
  if chan.cb.len = 0 then
    (alloc (chan.numCbs * DMA_CB_SIZE % 2 ^ 32)).map (newBuffer chan.numCbs)
  else some chan.cb

/-- `dma_setup_cbs`. -/
def setupCbs (alloc : Nat → Option Nat) (state : PreparedChannel) (tinfo : DmaTransfer) :
    PreparedChannel × Ret :=
  if tinfo.sgs > state.chan.numCbs then (state, .fail .EINVAL)
  else
    match cbBuffer alloc state.chan with
    | none => (state, .fail .alloc)
    | some cb =>
        let chan := { state.chan with cb := cb, frgsNum := tinfo.sgs, frgCount := tinfo.sgs }
        let (done, params, complete) :=
          setupBlocks chan tinfo (List.range tinfo.sgs) [] state.cbParams
        if complete then
          ({ state with chan := { chan with cbs := done }, cbParams := params }, .ok)
        else
          ({ state with
              chan := { chan with cbs := done ++ chan.cbs.drop done.length }, cbParams := params },
            .fail .EINVAL)

/-- The channel and `cb_params` with which `dma_setup_cbs` is called. -/
def PreparedChannel.begun (state : PreparedChannel) (tinfo : DmaTransfer) : PreparedChannel where
  chan := { state.chan with
    xferType := getXferType tinfo.srcFlags tinfo.dstFlags
    mflags := tinfo.modeFlags
    xferUnitSize := tinfo.xferUnitSize }
  cbParams := startParams tinfo
  burstLen := 0

/-- `dma_setup_xfer`. -/
def setupXfer (alloc : Nat → Option Nat) (state : PreparedChannel) (tinfo : DmaTransfer) :
    SetupOutcome :=
  match checkTinfo state.chan tinfo with
  | none => .dividesByZero
  | some false => .returns state (.fail .EINVAL)
  | some true =>
      if flagged state.chan.status DMACH_BUSY then .returns state (.fail .EBUSY)
      else
        let (after, ret) := setupCbs alloc (state.begun tinfo) tinfo
        .returns after ret

/-! ## What a rejected transfer is to leave -/

/-- The engine can encode a unit size. -/
def Encodes (info : DmaChInfo) (unit : Nat) : Prop :=
  if info.isDma4 then unit = 4 ∨ unit = 8 ∨ unit = 16 else unit = 4 ∨ unit = 16

instance (info : DmaChInfo) (unit : Nat) : Decidable (Encodes info unit) :=
  inferInstanceAs (Decidable
    (if info.isDma4 then unit = 4 ∨ unit = 8 ∨ unit = 16 else unit = 4 ∨ unit = 16))

/-- The transfer that was prepared is as before. -/
structure SamePrepared (state after : PreparedChannel) : Prop where
  cbParams : after.cbParams = state.cbParams
  burstLen : after.burstLen = state.burstLen
  xferType : after.chan.xferType = state.chan.xferType
  frgsNum : after.chan.frgsNum = state.chan.frgsNum
  frgCount : after.chan.frgCount = state.chan.frgCount
  cb : after.chan.cb = state.chan.cb
  cbs : after.chan.cbs = state.chan.cbs

/-- A call that fails changes nothing of the transfer prepared before, and a unit size that the
engine cannot encode makes it fail. -/
structure RejectsCleanly (alloc : Nat → Option Nat) (state : PreparedChannel)
    (tinfo : DmaTransfer) : Prop where
  returns : setupXfer alloc state tinfo ≠ .dividesByZero
  keeps : ∀ after errno, setupXfer alloc state tinfo = .returns after (.fail errno) →
    SamePrepared state after
  rejects : ¬ Encodes state.chan.info tinfo.xferUnitSize →
    ∃ after errno, setupXfer alloc state tinfo = .returns after (.fail errno)

/-- The channel holds the transfer type and `cb_params` with which `dma_setup_cbs` begins. -/
structure BegunBefore (state : PreparedChannel) (tinfo : DmaTransfer) : Prop where
  cbParams : state.cbParams = startParams tinfo
  burstLen : state.burstLen = 0
  xferType : state.chan.xferType = getXferType tinfo.srcFlags tinfo.dstFlags

/-- The channel holds what is stored up to the first control block, with a buffer. -/
structure FirstBefore (state : PreparedChannel) (tinfo : DmaTransfer) (cb : DmaAddr) : Prop where
  cbParams : state.cbParams = Dma.cbParams { state.chan with cb := cb } tinfo 0
  burstLen : state.burstLen = 0
  xferType : state.chan.xferType = getXferType tinfo.srcFlags tinfo.dstFlags
  frgsNum : state.chan.frgsNum = tinfo.sgs
  frgCount : state.chan.frgCount = tinfo.sgs
  cb : state.chan.cb = cb

/-- When a transfer is accepted or rejected cleanly: the type is refused, or the unit size is not
zero and the transfer is rejected by the checks or because the channel is busy, or is encodable with
control blocks for it; or the channel happens to hold what is stored before the failure. -/
def CleanWhen (alloc : Nat → Option Nat) (state : PreparedChannel) (tinfo : DmaTransfer) : Prop :=
  tinfo.Refused ∨ tinfo.xferUnitSize ≠ 0 ∧
    (checkTinfoParams state.chan tinfo = false ∨ flagged state.chan.status DMACH_BUSY = true ∨
      if tinfo.sgs > state.chan.numCbs then BegunBefore state tinfo
      else
        match cbBuffer alloc state.chan with
        | none => BegunBefore state tinfo
        | some cb => Encodes state.chan.info tinfo.xferUnitSize ∨
            0 < tinfo.sgs ∧ FirstBefore state tinfo cb)

/-! ## The control blocks -/

section Blocks

variable {chan : DmaChannel} {tinfo : DmaTransfer}

/-- A control block is set when the engine can encode the unit size. -/
theorem setcb_isSome_iff (params : DmaCbParams) :
    (setcb chan params).isSome ↔ Encodes chan.info chan.xferUnitSize := by
  rw [setcb, Encodes]
  by_cases dma4 : chan.info.isDma4 = true
  · rw [if_pos dma4, if_pos dma4, Option.isSome_map, dma4Setcb, Option.isSome_map]
    generalize chan.xferUnitSize = unit
    unfold dma4Size
    split <;> simp_all
  · rw [if_neg dma4, if_neg dma4, Option.isSome_map, dmaSetcb, Option.isSome_map]
    generalize chan.xferUnitSize = unit
    unfold dmaWidth
    split <;> simp_all

/-- With an encodable unit size all control blocks are set. -/
theorem setupBlocks_encodes (chan : DmaChannel) (tinfo : DmaTransfer)
    (encodes : Encodes chan.info chan.xferUnitSize) (sgis : List Nat) (done : List ControlBlock)
    (params : DmaCbParams) :
    ∃ cbs, (sgis.mapM fun sgi => setcb chan (cbParams chan tinfo sgi)) = some cbs ∧
      (setupBlocks chan tinfo sgis done params).1 = done ++ cbs ∧
      (setupBlocks chan tinfo sgis done params).2.2 = true := by
  induction sgis generalizing done params with
  | nil => exact ⟨[], rfl, (List.append_nil done).symm, rfl⟩
  | cons sgi rest ih =>
      obtain ⟨cb, built⟩ := Option.isSome_iff_exists.mp
        ((setcb_isSome_iff (cbParams chan tinfo sgi)).mpr encodes)
      obtain ⟨cbs, later, set, complete⟩ := ih (done ++ [cb]) (cbParams chan tinfo sgi)
      refine ⟨cb :: cbs, ?_, ?_, ?_⟩
      · rw [List.mapM_cons, built, later]
        rfl
      · rw [setupBlocks, built]
        exact set.trans (List.append_assoc done [cb] cbs)
      · rw [setupBlocks, built]
        exact complete

/-- Else none is. -/
theorem setcb_eq_none (chan : DmaChannel) (fails : ¬ Encodes chan.info chan.xferUnitSize)
    (params : DmaCbParams) :
    setcb chan params = none := by
  rw [← Option.not_isSome_iff_eq_none, setcb_isSome_iff]
  exact fails

/-- Then the loop ends at the first one. -/
theorem setupBlocks_fails (chan : DmaChannel) (tinfo : DmaTransfer)
    (fails : ¬ Encodes chan.info chan.xferUnitSize) (sgi : Nat) (rest : List Nat)
    (done : List ControlBlock) (params : DmaCbParams) :
    setupBlocks chan tinfo (sgi :: rest) done params = (done, cbParams chan tinfo sgi, false) := by
  rw [setupBlocks, setcb_eq_none chan fails]

end Blocks

/-! ## When a transfer is rejected cleanly -/

section Clean

variable {alloc : Nat → Option Nat} {state : PreparedChannel} {tinfo : DmaTransfer}

theorem SamePrepared.refl (state : PreparedChannel) : SamePrepared state state :=
  ⟨rfl, rfl, rfl, rfl, rfl, rfl, rfl⟩

/-- A call that rejects without a change is clean. -/
theorem rejectsCleanly_of_same {after : PreparedChannel} {errno : Errno}
    (call : setupXfer alloc state tinfo = .returns after (.fail errno)) :
    RejectsCleanly alloc state tinfo ↔ SamePrepared state after := by
  constructor
  · intro clean
    exact clean.keeps after errno call
  · intro same
    refine ⟨by rw [call]; exact nofun, fun other errno again => ?_, fun _ => ⟨_, _, call⟩⟩
    rw [call] at again
    cases again
    exact same

/-- A call that accepts is clean when the engine can encode the unit size. -/
theorem rejectsCleanly_of_accepted {after : PreparedChannel}
    (call : setupXfer alloc state tinfo = .returns after .ok) :
    RejectsCleanly alloc state tinfo ↔ Encodes state.chan.info tinfo.xferUnitSize := by
  constructor
  · intro clean
    by_contra fails
    obtain ⟨other, errno, again⟩ := clean.rejects fails
    rw [call] at again
    cases again
  · intro encodes
    refine ⟨by rw [call]; exact nofun, fun other errno again => ?_,
      fun fails => absurd encodes fails⟩
    rw [call] at again
    cases again

/-- The channel with which the loop of `dma_setup_cbs` begins. -/
def DmaChannel.counted (chan : DmaChannel) (tinfo : DmaTransfer) (cb : DmaAddr) : DmaChannel :=
  { chan with cb := cb, frgsNum := tinfo.sgs, frgCount := tinfo.sgs }

/-- With a buffer `dma_setup_cbs` succeeds when its loop does. -/
theorem setupCbs_complete {cb : DmaAddr} {done : List ControlBlock} {params : DmaCbParams}
    (fits : ¬ tinfo.sgs > state.chan.numCbs) (found : cbBuffer alloc state.chan = some cb)
    (loop : setupBlocks (state.chan.counted tinfo cb) tinfo (List.range tinfo.sgs) []
      state.cbParams = (done, params, true)) :
    setupCbs alloc state tinfo =
      ({ state with
          chan := { state.chan.counted tinfo cb with cbs := done }, cbParams := params }, .ok) := by
  rw [DmaChannel.counted] at loop
  rw [setupCbs, if_neg fits, found]
  simp only [loop, ↓reduceIte]
  rfl

/-- Else it fails with what the loop has left. -/
theorem setupCbs_incomplete {cb : DmaAddr} {done : List ControlBlock} {params : DmaCbParams}
    (fits : ¬ tinfo.sgs > state.chan.numCbs) (found : cbBuffer alloc state.chan = some cb)
    (loop : setupBlocks (state.chan.counted tinfo cb) tinfo (List.range tinfo.sgs) []
      state.cbParams = (done, params, false)) :
    setupCbs alloc state tinfo =
      ({ state with
          chan := { state.chan.counted tinfo cb with
            cbs := done ++ state.chan.cbs.drop done.length }
          cbParams := params }, .fail .EINVAL) := by
  rw [DmaChannel.counted] at loop
  rw [setupCbs, if_neg fits, found]
  simp only [loop, Bool.false_eq_true, ↓reduceIte]
  rfl

/-- With a buffer and an encodable unit size, or no fragment, the control blocks are set. -/
theorem setupCbs_accepts {cb : DmaAddr} (fits : ¬ tinfo.sgs > state.chan.numCbs)
    (found : cbBuffer alloc state.chan = some cb)
    (complete : Encodes state.chan.info state.chan.xferUnitSize ∨ tinfo.sgs = 0) :
    ∃ cbs params, setupLoop (state.chan.counted tinfo cb) tinfo = some cbs ∧
      setupCbs alloc state tinfo =
        ({ state with
            chan := { state.chan.counted tinfo cb with cbs := cbs }
            cbParams := params }, .ok) := by
  rcases complete with encodes | none
  · obtain ⟨cbs, built, set, all⟩ := setupBlocks_encodes (state.chan.counted tinfo cb) tinfo encodes
      (List.range tinfo.sgs) [] state.cbParams
    exact ⟨cbs, _, built, setupCbs_complete fits found (Prod.ext set (Prod.ext rfl all))⟩
  · refine ⟨[], state.cbParams, ?_, setupCbs_complete fits found ?_⟩
    · rw [setupLoop, none]
      rfl
    · rw [none]
      rfl

/-- With another unit size the first control block fails. -/
theorem setupCbs_rejects {cb : DmaAddr} (fits : ¬ tinfo.sgs > state.chan.numCbs)
    (found : cbBuffer alloc state.chan = some cb)
    (fails : ¬ Encodes state.chan.info state.chan.xferUnitSize) (some_block : 0 < tinfo.sgs) :
    setupLoop (state.chan.counted tinfo cb) tinfo = none ∧
      setupCbs alloc state tinfo =
        ({ state with
            chan := state.chan.counted tinfo cb
            cbParams := cbParams { state.chan with cb := cb } tinfo 0 }, .fail .EINVAL) := by
  obtain ⟨count, more⟩ := Nat.exists_eq_add_of_le' some_block
  have first : List.range tinfo.sgs = 0 :: (List.range count).map Nat.succ := by
    rw [more, List.range_succ_eq_map]
  have missing := setcb_eq_none (state.chan.counted tinfo cb) fails
    (cbParams (state.chan.counted tinfo cb) tinfo 0)
  constructor
  · rw [setupLoop, first, List.mapM_cons, missing]
    rfl
  · have loop := setupBlocks_fails (state.chan.counted tinfo cb) tinfo fails 0
      ((List.range count).map Nat.succ) [] state.cbParams
    rw [← first] at loop
    exact setupCbs_incomplete fits found loop

/-- On the channel `dma_setup_cbs` does the same whether `cb_params` are watched or not. -/
theorem setupCbs_chan (alloc : Nat → Option Nat) (state : PreparedChannel) (tinfo : DmaTransfer) :
    dmaSetupCbs alloc state.chan tinfo =
      ((setupCbs alloc state tinfo).1.chan, (setupCbs alloc state tinfo).2) := by
  by_cases many : tinfo.sgs > state.chan.numCbs
  · rw [dmaSetupCbs, setupCbs, if_pos many, if_pos many]
  · cases found : cbBuffer alloc state.chan with
    | none =>
        rw [setupCbs, if_neg many, found]
        unfold cbBuffer newBuffer at found
        rw [dmaSetupCbs, if_neg many]
        simp only [found]
    | some cb =>
        have buffer := found
        unfold cbBuffer newBuffer at buffer
        rw [dmaSetupCbs, if_neg many]
        simp only [buffer]
        by_cases complete : Encodes state.chan.info state.chan.xferUnitSize ∨ tinfo.sgs = 0
        · obtain ⟨cbs, params, built, call⟩ := setupCbs_accepts many found complete
          rw [DmaChannel.counted] at built
          rw [built, call]
          rfl
        · obtain ⟨fails, some_block⟩ := not_or.mp complete
          obtain ⟨unbuilt, call⟩ :=
            setupCbs_rejects many found fails (Nat.pos_of_ne_zero some_block)
          rw [DmaChannel.counted] at unbuilt
          rw [unbuilt, call]
          rfl

/-- How a call of `dma_setup_xfer` goes, with the conditions. -/
theorem setupXfer_cases (alloc : Nat → Option Nat) (state : PreparedChannel)
    (tinfo : DmaTransfer) :
    ((tinfo.Refused ∨ tinfo.xferUnitSize ≠ 0 ∧ checkTinfoParams state.chan tinfo = false) ∧
        checkTinfoParams state.chan tinfo = false ∧
        setupXfer alloc state tinfo = .returns state (.fail .EINVAL)) ∨
      (¬ tinfo.Refused ∧ tinfo.xferUnitSize = 0 ∧ setupXfer alloc state tinfo = .dividesByZero) ∨
      (¬ tinfo.Refused ∧ tinfo.xferUnitSize ≠ 0 ∧ checkTinfoParams state.chan tinfo = true ∧
        flagged state.chan.status DMACH_BUSY = true ∧
        setupXfer alloc state tinfo = .returns state (.fail .EBUSY)) ∨
      (¬ tinfo.Refused ∧ tinfo.xferUnitSize ≠ 0 ∧ checkTinfoParams state.chan tinfo = true ∧
        flagged state.chan.status DMACH_BUSY = false ∧
        setupXfer alloc state tinfo = .returns (setupCbs alloc (state.begun tinfo) tinfo).1
          (setupCbs alloc (state.begun tinfo) tinfo).2) := by
  rw [setupXfer, checkTinfo]
  by_cases refused : tinfo.Refused
  · have checked : checkTinfoParams state.chan tinfo = false := if_pos refused
    rw [if_pos refused]
    exact Or.inl ⟨Or.inl refused, checked, rfl⟩
  · rw [if_neg refused]
    by_cases zero : tinfo.xferUnitSize = 0
    · rw [if_pos zero]
      exact Or.inr (Or.inl ⟨refused, zero, rfl⟩)
    · rw [if_neg zero]
      cases checked : checkTinfoParams state.chan tinfo with
      | false => exact Or.inl ⟨Or.inr ⟨zero, rfl⟩, rfl, rfl⟩
      | true =>
          refine Or.inr (Or.inr ?_)
          cases busy : flagged state.chan.status DMACH_BUSY with
          | true => exact Or.inl ⟨refused, zero, rfl, rfl, rfl⟩
          | false => exact Or.inr ⟨refused, zero, rfl, rfl, rfl⟩

/-- **A call that returns does to the channel what `dma_setup_xfer` does.** -/
theorem dmaSetupXfer_eq {after : PreparedChannel} {ret : Ret}
    (call : setupXfer alloc state tinfo = .returns after ret) :
    dmaSetupXfer alloc state.chan tinfo = (after.chan, ret) := by
  rw [dmaSetupXfer]
  rcases setupXfer_cases alloc state tinfo with ⟨-, checked, same⟩ | ⟨-, -, same⟩ |
    ⟨-, -, checked, busy, same⟩ | ⟨-, -, checked, idle, same⟩
  · rw [same] at call
    cases call
    rw [checked]
    rfl
  · rw [same] at call
    cases call
  · rw [same] at call
    cases call
    rw [checked, busy]
    rfl
  · rw [same] at call
    cases call
    rw [checked, idle]
    exact setupCbs_chan alloc (state.begun tinfo) tinfo

/-- A type that is refused, a failing check and a busy channel change nothing. -/
theorem setupXfer_refused {errno : Errno} (call : setupXfer alloc state tinfo =
    .returns state (.fail errno)) : RejectsCleanly alloc state tinfo :=
  (rejectsCleanly_of_same call).mpr (SamePrepared.refl state)

/-- Without control blocks for the transfer what `dma_setup_xfer` stored before stays. -/
theorem samePrepared_begun_iff :
    SamePrepared state (state.begun tinfo) ↔ BegunBefore state tinfo := by
  constructor
  · rintro ⟨params, burst, xferType, _⟩
    exact ⟨params.symm, burst.symm, xferType.symm⟩
  · rintro ⟨params, burst, xferType⟩
    exact ⟨params.symm, burst.symm, xferType.symm, rfl, rfl, rfl, rfl⟩

theorem rejectsCleanly_of_begun {errno : Errno}
    (whole : setupXfer alloc state tinfo = .returns (setupCbs alloc (state.begun tinfo) tinfo).1
      (setupCbs alloc (state.begun tinfo) tinfo).2)
    (call : setupCbs alloc (state.begun tinfo) tinfo = (state.begun tinfo, .fail errno)) :
    RejectsCleanly alloc state tinfo ↔ BegunBefore state tinfo := by
  rw [call] at whole
  rw [rejectsCleanly_of_same whole, samePrepared_begun_iff]

/-- With control blocks a transfer is accepted, or its first control block fails. -/
theorem rejectsCleanly_of_buffer {cb : DmaAddr}
    (whole : setupXfer alloc state tinfo = .returns (setupCbs alloc (state.begun tinfo) tinfo).1
      (setupCbs alloc (state.begun tinfo) tinfo).2)
    (fits : ¬ tinfo.sgs > state.chan.numCbs) (found : cbBuffer alloc state.chan = some cb) :
    RejectsCleanly alloc state tinfo ↔ Encodes state.chan.info tinfo.xferUnitSize ∨
      0 < tinfo.sgs ∧ FirstBefore state tinfo cb := by
  have begun_fits : ¬ tinfo.sgs > (state.begun tinfo).chan.numCbs := fits
  have begun_found : cbBuffer alloc (state.begun tinfo).chan = some cb := found
  by_cases encodes : Encodes state.chan.info tinfo.xferUnitSize
  · obtain ⟨cbs, params, -, call⟩ := setupCbs_accepts begun_fits begun_found (Or.inl encodes)
    rw [call] at whole
    rw [rejectsCleanly_of_accepted whole]
    exact iff_of_true encodes (Or.inl encodes)
  · by_cases none : tinfo.sgs = 0
    · obtain ⟨cbs, params, -, call⟩ := setupCbs_accepts begun_fits begun_found (Or.inr none)
      rw [call] at whole
      rw [rejectsCleanly_of_accepted whole]
      refine iff_of_false encodes ?_
      rintro (other | ⟨some_block, _⟩)
      · exact encodes other
      · omega
    · have some_block := Nat.pos_of_ne_zero none
      rw [(setupCbs_rejects begun_fits begun_found encodes some_block).2] at whole
      rw [rejectsCleanly_of_same whole]
      constructor
      · rintro ⟨params, burst, xferType, frgsNum, frgCount, buffer, _⟩
        exact Or.inr ⟨some_block, params.symm, burst.symm, xferType.symm, frgsNum.symm,
          frgCount.symm, buffer.symm⟩
      · rintro (other | ⟨-, params, burst, xferType, frgsNum, frgCount, buffer⟩)
        · exact absurd other encodes
        · exact ⟨params.symm, burst.symm, xferType.symm, frgsNum.symm, frgCount.symm, buffer.symm,
            rfl⟩

/-- **A transfer is accepted or rejected cleanly just then.** -/
theorem rejectsCleanly_iff (alloc : Nat → Option Nat) (state : PreparedChannel)
    (tinfo : DmaTransfer) : RejectsCleanly alloc state tinfo ↔ CleanWhen alloc state tinfo := by
  rw [CleanWhen]
  rcases setupXfer_cases alloc state tinfo with ⟨refused, -, call⟩ | ⟨allowed, zero, call⟩ |
    ⟨-, positive, -, busy, call⟩ | ⟨allowed, positive, checked, idle, call⟩
  · refine iff_of_true (setupXfer_refused call) ?_
    rcases refused with refused | ⟨positive, failing⟩
    · exact Or.inl refused
    · exact Or.inr ⟨positive, Or.inl failing⟩
  · refine iff_of_false (fun clean => clean.returns call) ?_
    intro accepted
    rcases accepted with refused | ⟨positive, -⟩
    · exact allowed refused
    · exact positive zero
  · exact iff_of_true (setupXfer_refused call) (Or.inr ⟨positive, Or.inr (Or.inl busy)⟩)
  · rw [or_iff_right allowed, and_iff_right positive, checked, idle,
      or_iff_right Bool.true_eq_false.mp, or_iff_right Bool.false_eq_true.mp]
    by_cases many : tinfo.sgs > state.chan.numCbs
    · rw [if_pos many]
      exact rejectsCleanly_of_begun call (if_pos many)
    · rw [if_neg many]
      cases found : cbBuffer alloc state.chan with
      | none =>
          have fails : setupCbs alloc (state.begun tinfo) tinfo =
              (state.begun tinfo, .fail .alloc) := by
            have same : cbBuffer alloc (state.begun tinfo).chan = none := found
            rw [setupCbs, same]
            exact if_neg many
          exact rejectsCleanly_of_begun call fails
      | some cb => exact rejectsCleanly_of_buffer call many found

end Clean

/-- A transfer in memory of 64 bytes in one fragment, from 4096 to 8192. -/
def sixtyFour (unit : Nat) : DmaTransfer where
  srcAddrs := fun _ => ⟨4096, 64, by decide⟩
  dstAddrs := fun _ => ⟨8192, 64, by decide⟩
  srcFragments := 1
  dstFragments := 1
  srcFlags := DMA_ADDR_FLAG_MEMORY
  dstFlags := DMA_ADDR_FLAG_MEMORY
  xferUnitSize := unit
  xferBytes := 64
  modeFlags := 0
  reqId := 0

/-- The first channel with its buffer at 65536, and nothing prepared. -/
def quietChannel : PreparedChannel where
  chan := ⟨firstChannel, 0, 4, 128, 0, 0, 0, 0, ⟨65536, 4096, by decide⟩, [], .unknown, by decide⟩
  cbParams := ⟨0, 0, 0, 0, 0, 0⟩
  burstLen := 0

/-- A unit of eight bytes, which a legacy channel has not, is rejected over what was prepared, and
a unit of none divides by zero. -/
theorem unit_eight_overwrites :
    ¬ RejectsCleanly (fun _ => none) quietChannel (sixtyFour 8) ∧
      setupXfer (fun _ => none) quietChannel (sixtyFour 0) = .dividesByZero := by
  constructor
  · have call : setupXfer (fun _ => none) quietChannel (sixtyFour 8) = .returns
        { chan := (quietChannel.begun (sixtyFour 8)).chan.counted (sixtyFour 8) quietChannel.chan.cb
          cbParams := cbParams quietChannel.chan (sixtyFour 8) 0
          burstLen := 0 } (.fail .EINVAL) := rfl
    rw [rejectsCleanly_of_same call]
    intro same
    exact absurd same.frgCount (by decide)
  · rfl

end Bcm2711.Dma
