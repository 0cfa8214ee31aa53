import Bcm2711.Dma.Channel

/-! # Starting and completing transfers

`dma_start` marks a channel busy, `xfer_complete` counts down the fragments and, where the
transfer is over, aborts the channel, which is then no longer busy.
-/

namespace Bcm2711.Dma

/-! ## The registers -/

/-- A write to a channel register. -/
structure RegWrite where
  offset : Nat
  value : Nat
deriving DecidableEq, Repr

/-- What a call reads from the registers of its channel. -/
structure Registers where
  /-- `DMA_CS` or `DMA4_CS`. -/
  cs : Nat
  /-- `DMA_CONBLK_AD` or `DMA4_CB`, zero while the channel is idle. -/
  conblkAd : Nat
  /-- The outstanding writes of an aborted transfer complete in time. -/
  writesDone : Bool
deriving DecidableEq, Repr

def DMA_CS : Nat := 0x000

def DMA_CONBLK_AD : Nat := 0x004

def DMA4_DEBUG : Nat := 0x00c

def DMA_CS_RESET : Nat := 2 ^ 31

def DMA4_DEBUG_RESET : Nat := 2 ^ 23

/-- `DMA_CS_ERROR` or `DMA4_CS_ERROR`. -/
def csError (info : DmaChInfo) : Nat := if info.isDma4 then 2 ^ 10 else 2 ^ 8

/-- `DMA_CS_FLAGS_MEMCPY` or `DMA_CS_FLAGS_DEVICE`, which DMA4 engines share. -/
def csFlags (xferType : DmaXferType) : Nat :=
  if xferType = .memoryToMemory then 2 ^ 28 else 15 <<< 16 ||| 15 <<< 20 ||| 2 ^ 28

/-! ## The calls -/

/-- `dma_start`. -/
def dmaStart (chan : DmaChannel) : DmaChannel × Ret × List RegWrite :=
  let busy := { chan with status := chan.status ||| DMACH_BUSY }
  if flagged chan.status DMACH_BUSY then (busy, .fail .EBUSY, [])
  else
    let conblkAd :=
      if chan.info.isDma4 then (dma4FullAddr chan.cb.paddr >>> 5) % 2 ^ 32
      else dmaLegacyAddr (chan.cb.paddr % 2 ^ 32)
    (busy, .ok, [⟨DMA_CONBLK_AD, conblkAd⟩, ⟨DMA_CS, csFlags chan.xferType ||| 1⟩])

/-- `dma_abort` and `dma4_abort`, which reset the engine in different registers. -/
def abortChannel (chan : DmaChannel) (registers : Registers) : Ret × List RegWrite :=
  if registers.conblkAd = 0 then (.ok, [])
  else
    let reset := if chan.info.isDma4 then ⟨DMA4_DEBUG, DMA4_DEBUG_RESET⟩ else
      ⟨DMA_CS, DMA_CS_RESET⟩
    (if registers.writesDone then .ok else .fail Errno.EIO, [⟨DMA_CS, 0⟩, reset])

/-- `dma_xfer_abort`. -/
def dmaXferAbort (chan : DmaChannel) (registers : Registers) : DmaChannel × Ret × List RegWrite :=
  let aborted := abortChannel chan registers
  ({ chan with status := chan.status &&& Word.compl 32 DMACH_BUSY }, aborted.1, aborted.2)

/-- What `xfer_complete` did. -/
structure Completed where
  chan : DmaChannel
  ret : Ret
  /-- The call ended in `dma_xfer_abort`. -/
  aborted : Bool
  writes : List RegWrite

/-- Whether `xfer_complete` goes to `abort`, by the count it found. -/
def toAbort (chan : DmaChannel) (failed : Bool) : Bool :=
  if failed then true
  else if flagged chan.aflags DMA_ATTACH_EVENT_PER_SEGMENT then chan.frgCount = 1
  else !flagged chan.mflags DMA_MODE_FLAG_REPEAT

/-- `xfer_complete`. -/
def xferComplete (chan : DmaChannel) (registers : Registers) : Completed :=
  let counted := { chan with frgCount := Word.sub 32 chan.frgCount 1 }
  let failed := flagged registers.cs (csError chan.info)
  let clear : RegWrite := ⟨DMA_CS, csFlags chan.xferType ||| 2 ^ 2 ||| 2 ^ 1 ||| 2 ^ 0⟩
  if toAbort chan failed then
    let aborted := dmaXferAbort counted registers
    ⟨aborted.1, if failed then .fail Errno.EIO else .ok, true, clear :: aborted.2.2⟩
  else ⟨counted, .ok, false, [clear]⟩

/-- A completion without an error of the engine. -/
def ErrorFree (chan : DmaChannel) (registers : Registers) : Prop :=
  flagged registers.cs (csError chan.info) = false

/-- The channel is busy. -/
def DmaChannel.busy (chan : DmaChannel) : Bool := flagged chan.status DMACH_BUSY

/-! ## The busy flag -/

section Busy

variable {chan : DmaChannel}

theorem flagged_busy (status : Nat) : flagged status DMACH_BUSY = status.testBit 0 := by
  rw [flagged, DMACH_BUSY, Nat.and_one_is_mod, Nat.testBit_zero]
  rcases Nat.mod_two_eq_zero_or_one status with even | odd
  · rw [even]
    rfl
  · rw [odd]
    rfl

theorem busy_set (status : Nat) : flagged (status ||| DMACH_BUSY) DMACH_BUSY = true := by
  rw [flagged_busy, Nat.testBit_or]
  exact Bool.or_true _

theorem busy_cleared (status : Nat) :
    flagged (status &&& Word.compl 32 DMACH_BUSY) DMACH_BUSY = false := by
  rw [flagged_busy, Nat.testBit_and]
  exact Bool.and_false _

/-- A channel that is not busy starts. -/
theorem dmaStart_ok (idle : chan.busy = false) :
    (dmaStart chan).1.busy = true ∧ (dmaStart chan).2.1 = .ok := by
  have notBusy : flagged chan.status DMACH_BUSY = false := idle
  unfold dmaStart
  simp only [notBusy, Bool.false_eq_true, ↓reduceIte, and_true]
  exact busy_set chan.status

/-- Starting changes nothing but the status. -/
theorem dmaStart_chan (chan : DmaChannel) :
    (dmaStart chan).1 = { chan with status := chan.status ||| DMACH_BUSY } := by
  unfold dmaStart
  split
  · rfl
  · rfl

end Busy

/-! ## One completion -/

section Complete

variable {chan : DmaChannel} {registers : Registers}

/-- A completion counts one fragment down, and ends in an abort where the transfer is over. -/
theorem xferComplete_errorFree (errorFree : ErrorFree chan registers) :
    (xferComplete chan registers).chan =
        { chan with
          frgCount := Word.sub 32 chan.frgCount 1
          status := if toAbort chan false then
            chan.status &&& Word.compl 32 DMACH_BUSY else chan.status } ∧
      (xferComplete chan registers).ret = .ok ∧
      (xferComplete chan registers).aborted = toAbort chan false := by
  unfold xferComplete
  rw [errorFree]
  dsimp only
  cases isOver : toAbort chan false with
  | true => exact ⟨rfl, rfl, rfl⟩
  | false => exact ⟨rfl, rfl, rfl⟩

theorem xferComplete_aborted (errorFree : ErrorFree chan registers) :
    (xferComplete chan registers).aborted = toAbort chan false :=
  (xferComplete_errorFree errorFree).2.2

theorem xferComplete_ret (errorFree : ErrorFree chan registers) :
    (xferComplete chan registers).ret = .ok :=
  (xferComplete_errorFree errorFree).2.1

/-- A completion counts one fragment down, and clears the busy flag if it aborts. -/
theorem xferComplete_chan (errorFree : ErrorFree chan registers) :
    (xferComplete chan registers).chan =
      { chan with
        frgCount := Word.sub 32 chan.frgCount 1
        status := if toAbort chan false then
          chan.status &&& Word.compl 32 DMACH_BUSY else chan.status } :=
  (xferComplete_errorFree errorFree).1

theorem xferComplete_busy (errorFree : ErrorFree chan registers) :
    (xferComplete chan registers).chan.busy = (chan.busy && !toAbort chan false) := by
  rw [DmaChannel.busy, xferComplete_chan errorFree]
  cases isOver : toAbort chan false with
  | true =>
      rw [if_pos rfl, Bool.not_true, Bool.and_false]
      exact busy_cleared chan.status
  | false =>
      rw [if_neg Bool.false_ne_true, Bool.not_false, Bool.and_true]
      rfl

/-- The results of completing again and again. -/
def completions : DmaChannel → List Registers → List Completed
  | _, [] => []
  | chan, registers :: rest =>
      let completed := xferComplete chan registers
      completed :: completions completed.chan rest

/-- The completions left the channel running. -/
def RunsOn (chan : DmaChannel) (registers : List Registers) : Prop :=
  ∀ completed ∈ completions chan registers,
    completed.aborted = false ∧ completed.chan.busy = true

theorem runsOn_cons {rest : List Registers} : RunsOn chan (registers :: rest) ↔
    ((xferComplete chan registers).aborted = false ∧
      (xferComplete chan registers).chan.busy = true) ∧
        RunsOn (xferComplete chan registers).chan rest := by
  rw [RunsOn, completions, List.forall_mem_cons]
  rfl

/-- How many completions it takes until one finds the count at one. -/
def untilOne (count : Nat) : Nat := if count = 0 then 2 ^ 32 else count

theorem untilOne_pos (count : Nat) : 0 < untilOne count := by
  unfold untilOne
  split
  · exact Nat.two_pow_pos 32
  · omega

theorem untilOne_step {count : Nat} (small : count < 2 ^ 32) (notOne : count ≠ 1) :
    untilOne count = untilOne (Word.sub 32 count 1) + 1 := by
  unfold untilOne
  by_cases zero : count = 0
  · rw [zero]
    decide
  · rw [Word.sub_of_le (by omega) small, if_neg zero, if_neg (by omega)]
    omega

/-- With an event per segment the channel runs until the count reaches one. -/
theorem runsOn_perSegment
    (perSegment : flagged chan.aflags DMA_ATTACH_EVENT_PER_SEGMENT = true)
    (busy : chan.busy = true) (small : chan.frgCount < 2 ^ 32) {all : List Registers}
    (errorFree : ∀ registers ∈ all, ErrorFree chan registers) :
    RunsOn chan all ↔ all.length < untilOne chan.frgCount := by
  induction all generalizing chan with
  | nil =>
      exact ⟨fun _ => untilOne_pos _, fun _ completed member => absurd member List.not_mem_nil⟩
  | cons registers rest ih =>
      obtain ⟨here, later⟩ := List.forall_mem_cons.mp errorFree
      have isOver : toAbort chan false = decide (chan.frgCount = 1) := by
        rw [toAbort, if_neg Bool.false_ne_true, if_pos perSegment]
      have next := xferComplete_chan here
      rw [runsOn_cons, xferComplete_aborted here, xferComplete_busy here, isOver, busy,
        List.length_cons]
      by_cases isOne : chan.frgCount = 1
      · have last : untilOne 1 = 1 := rfl
        rw [isOne, last]
        constructor
        · rintro ⟨⟨impossible, _⟩, _⟩
          exact absurd impossible (by decide)
        · intro impossible
          omega
      · have step := untilOne_step small isOne
        have notOver : decide (chan.frgCount = 1) = false := decide_eq_false isOne
        have count : (xferComplete chan registers).chan.frgCount =
            Word.sub 32 chan.frgCount 1 := by rw [next]
        have running : (xferComplete chan registers).chan.busy = true := by
          rw [xferComplete_busy here, isOver, busy, notOver]
          rfl
        have rest := ih (by rw [next]; exact perSegment) running
          (by rw [count]; exact Word.sub_lt 32 _ _) (by rw [next]; exact later)
        rw [rest, count, notOver, step]
        simp

/-- In repeat mode without events per segment the channel runs on. -/
theorem runsOn_repeat
    (perTransfer : flagged chan.aflags DMA_ATTACH_EVENT_PER_SEGMENT = false)
    (repeats : flagged chan.mflags DMA_MODE_FLAG_REPEAT = true)
    (busy : chan.busy = true) {all : List Registers}
    (errorFree : ∀ registers ∈ all, ErrorFree chan registers) : RunsOn chan all := by
  induction all generalizing chan with
  | nil => exact fun completed member => absurd member List.not_mem_nil
  | cons registers rest ih =>
      obtain ⟨here, later⟩ := List.forall_mem_cons.mp errorFree
      have next := xferComplete_chan here
      have notOver : toAbort chan false = false := by
        rw [toAbort, perTransfer, if_neg Bool.false_ne_true, if_neg Bool.false_ne_true, repeats]
        rfl
      have running : (xferComplete chan registers).chan.busy = true := by
        rw [xferComplete_busy here, notOver, busy]
        rfl
      rw [runsOn_cons, xferComplete_aborted here]
      refine ⟨⟨notOver, running⟩, ih ?_ ?_ running ?_⟩
      · rw [next]
        exact perTransfer
      · rw [next]
        exact repeats
      · rw [next]
        exact later

end Complete

/-! ## Repeat mode -/

section Repeat

variable {alloc : Nat → Option Nat} {chan ready : DmaChannel} {tinfo : DmaTransfer}

/-- A transfer in repeat mode runs on exactly if the channel does not report segments, or as
long as fewer completions than fragments have been counted. -/
theorem repeat_runsOn (setup : dmaSetupXfer alloc chan tinfo = (ready, .ok))
    (repeats : flagged tinfo.modeFlags DMA_MODE_FLAG_REPEAT = true) (all : List Registers)
    (errorFree : ∀ registers ∈ all, ErrorFree chan registers) :
    (dmaStart ready).2.1 = .ok ∧ (dmaStart ready).1.busy = true ∧
      (RunsOn (dmaStart ready).1 all ↔
        flagged chan.aflags DMA_ATTACH_EVENT_PER_SEGMENT = false ∨
          all.length < untilOne tinfo.sgs) := by
  have isSetUp := setUp_of_accepted setup
  obtain ⟨busy, started⟩ := dmaStart_ok isSetUp.idle
  have isStarted := dmaStart_chan ready
  have sgs := isSetUp.sgs_le
  have numCbs := ready.numCbs_lt
  have sameInfo : (dmaStart ready).1.info = chan.info := by
    rw [isStarted]
    exact congrArg chsInfo isSetUp.chanIdx
  have errorFree : ∀ registers ∈ all, ErrorFree (dmaStart ready).1 registers := by
    intro registers member
    rw [ErrorFree, sameInfo]
    exact errorFree registers member
  have aflags : (dmaStart ready).1.aflags = chan.aflags := by
    rw [isStarted]
    exact isSetUp.aflags
  have frgCount : (dmaStart ready).1.frgCount = tinfo.sgs := by
    rw [isStarted]
    exact isSetUp.frgCount
  refine ⟨started, busy, ?_⟩
  cases mode : flagged chan.aflags DMA_ATTACH_EVENT_PER_SEGMENT with
  | true =>
      rw [← aflags] at mode
      have counted := runsOn_perSegment mode busy (by omega) errorFree
      rw [frgCount] at counted
      rw [counted]
      simp
  | false =>
      rw [← aflags] at mode
      have mflags : flagged (dmaStart ready).1.mflags DMA_MODE_FLAG_REPEAT = true := by
        rw [isStarted]
        exact isSetUp.mflags ▸ repeats
      exact ⟨fun _ => Or.inl rfl, fun _ => runsOn_repeat mode mflags busy errorFree⟩

end Repeat

/-- A channel that reports segments, on channel 0. -/
def segmentChannel : DmaChannel :=
  { chanIdx := firstChannel, status := 0, xferUnitSize := 0, numCbs := 32, frgsNum := 0,
    frgCount := 0, mflags := 0, aflags := DMA_ATTACH_EVENT_PER_SEGMENT,
    cb := ⟨0x10000, 1024, by decide⟩,
    cbs := [], xferType := .ioToIo, numCbs_lt := by decide }

/-- A copy of two fragments of 16 bytes each, in this mode. -/
def twoFragments (modeFlags : Nat) : DmaTransfer :=
  { srcAddrs := fun sgi => ⟨0x20000 + 0x100 * sgi, 16, by decide⟩
    dstAddrs := fun sgi => ⟨0x30000 + 0x100 * sgi, 16, by decide⟩
    srcFragments := 2, dstFragments := 2, srcFlags := DMA_ADDR_FLAG_MEMORY,
    dstFlags := DMA_ADDR_FLAG_MEMORY, xferUnitSize := 16, xferBytes := 32, modeFlags := modeFlags,
    reqId := 0 }

/-- Reads without an error. -/
def quiet : Registers := ⟨0, 0, true⟩

/-- The channel after setting up two fragments. -/
def segmentReady (modeFlags : Nat) : DmaChannel :=
  (dmaSetupXfer (fun _ => none) segmentChannel (twoFragments modeFlags)).1

theorem segmentReady_setup (modeFlags : Nat) (known : modeFlags = 0 ∨ modeFlags = 1) :
    dmaSetupXfer (fun _ => none) segmentChannel (twoFragments modeFlags) =
      (segmentReady modeFlags, .ok) := by
  rcases known with rfl | rfl
  · exact Prod.ext rfl (by decide)
  · exact Prod.ext rfl (by decide)

theorem repeat_runsOn_segments :
    (dmaStart (segmentReady 1)).2.1 = .ok ∧ (dmaStart (segmentReady 1)).1.busy = true ∧
      (RunsOn (dmaStart (segmentReady 1)).1 [quiet] ↔
        flagged segmentChannel.aflags DMA_ATTACH_EVENT_PER_SEGMENT = false ∨
          [quiet].length < untilOne (twoFragments 1).sgs) :=
  repeat_runsOn (segmentReady_setup 1 (Or.inr rfl)) (by decide) [quiet]
    fun registers member => by
      rw [List.mem_singleton.mp member]
      exact rfl

/-- The second completion of two repeated fragments aborts the channel. -/
theorem repeat_stops_by_itself :
    dmaSetupXfer (fun _ => none) segmentChannel (twoFragments 1) = (segmentReady 1, .ok) ∧
      flagged (twoFragments 1).modeFlags DMA_MODE_FLAG_REPEAT = true ∧
      (∀ registers ∈ [quiet, quiet], ErrorFree segmentChannel registers) ∧
      ¬ RunsOn (dmaStart (segmentReady 1)).1 [quiet, quiet] := by
  refine ⟨segmentReady_setup 1 (Or.inr rfl), by decide, ?_, ?_⟩
  · intro registers member
    have isQuiet : registers = quiet := by simpa using member
    rw [isQuiet]
    exact rfl
  · intro runsOn
    have stopped : ((completions (dmaStart (segmentReady 1)).1 [quiet, quiet]).map
        Completed.aborted) = [false, true] := by decide
    have aborted : true ∈ (completions (dmaStart (segmentReady 1)).1 [quiet, quiet]).map
        Completed.aborted := by
      rw [stopped]
      decide
    obtain ⟨completed, member, isAborted⟩ := List.mem_map.mp aborted
    rw [(runsOn completed member).1] at isAborted
    cases isAborted

/-! ## Restarting a transfer -/

section Rounds

variable {alloc : Nat → Option Nat} {chan ready : DmaChannel} {tinfo : DmaTransfer}

/-- The channel after these completions. -/
def completeAll (chan : DmaChannel) (all : List Registers) : DmaChannel :=
  all.foldl (fun chan registers => (xferComplete chan registers).chan) chan

/-- Start the channel and complete it for each interrupt; none if it does not start or is
still busy at the end. -/
def round (chan : DmaChannel) (all : List Registers) : Option DmaChannel :=
  match dmaStart chan with
  | (started, .ok, _) =>
      let final := completeAll started all
      if final.busy then none else some final
  | (_, .fail _, _) => none

/-- Round after round. -/
def rounds : DmaChannel → List (List Registers) → Option DmaChannel
  | chan, [] => some chan
  | chan, all :: rest =>
      match round chan all with
      | some final => rounds final rest
      | none => none

/-- The interrupts of one round: one for each fragment, or one at the end. -/
def interrupts (chan : DmaChannel) (tinfo : DmaTransfer) : Nat :=
  if flagged chan.aflags DMA_ATTACH_EVENT_PER_SEGMENT then tinfo.sgs else 1

/-- What completions leave as it was. -/
structure SameMode (before after : DmaChannel) : Prop where
  chanIdx : after.chanIdx = before.chanIdx
  aflags : after.aflags = before.aflags
  mflags : after.mflags = before.mflags

theorem SameMode.trans {before middle after : DmaChannel} (first : SameMode before middle)
    (second : SameMode middle after) : SameMode before after :=
  ⟨second.chanIdx.trans first.chanIdx, second.aflags.trans first.aflags,
    second.mflags.trans first.mflags⟩

theorem SameMode.errorFree {before after : DmaChannel} (same : SameMode before after)
    {registers : Registers} : ErrorFree after registers ↔ ErrorFree before registers := by
  rw [ErrorFree, ErrorFree, DmaChannel.info, DmaChannel.info, same.chanIdx]

theorem dmaStart_mode (chan : DmaChannel) : SameMode chan (dmaStart chan).1 := by
  rw [dmaStart_chan]
  exact ⟨rfl, rfl, rfl⟩

theorem xferComplete_mode {registers : Registers} (errorFree : ErrorFree chan registers) :
    SameMode chan (xferComplete chan registers).chan := by
  rw [xferComplete_chan errorFree]
  exact ⟨rfl, rfl, rfl⟩

/-- Completions count down, and leave the channel busy only while the transfer goes on. -/
theorem completeAll_spec {all : List Registers}
    (errorFree : ∀ registers ∈ all, ErrorFree chan registers) :
    SameMode chan (completeAll chan all) ∧
      (chan.frgCount < 2 ^ 32 → all.length ≤ chan.frgCount →
        (completeAll chan all).frgCount = chan.frgCount - all.length) ∧
      (chan.busy = false → (completeAll chan all).busy = false) := by
  induction all generalizing chan with
  | nil => exact ⟨⟨rfl, rfl, rfl⟩, fun _ _ => rfl, id⟩
  | cons registers rest ih =>
      obtain ⟨here, later⟩ := List.forall_mem_cons.mp errorFree
      have next := xferComplete_chan here
      have mode := xferComplete_mode here
      obtain ⟨same, count, idle⟩ := ih fun registers member =>
        mode.errorFree.mpr (later registers member)
      refine ⟨mode.trans same, ?_, ?_⟩
      · intro small enough
        rw [List.length_cons] at enough ⊢
        have counted : (xferComplete chan registers).chan.frgCount = chan.frgCount - 1 := by
          rw [next]
          exact Word.sub_of_le (by omega) small
        have rest := count (by omega) (by omega)
        rw [counted] at rest
        rw [completeAll, List.foldl_cons, ← completeAll, rest]
        omega
      · intro isIdle
        refine idle ?_
        rw [xferComplete_busy here, isIdle]
        rfl

/-- With an event per segment the channel is idle again once the count has reached one. -/
theorem completeAll_perSegment
    (perSegment : flagged chan.aflags DMA_ATTACH_EVENT_PER_SEGMENT = true)
    (busy : chan.busy = true) (small : chan.frgCount < 2 ^ 32) {all : List Registers}
    (errorFree : ∀ registers ∈ all, ErrorFree chan registers) :
    (completeAll chan all).busy = true ↔ all.length < untilOne chan.frgCount := by
  induction all generalizing chan with
  | nil => exact ⟨fun _ => untilOne_pos _, fun _ => busy⟩
  | cons registers rest ih =>
      obtain ⟨here, later⟩ := List.forall_mem_cons.mp errorFree
      have isOver : toAbort chan false = decide (chan.frgCount = 1) := by
        rw [toAbort, if_neg Bool.false_ne_true, if_pos perSegment]
      have next := xferComplete_chan here
      have mode := xferComplete_mode here
      have later : ∀ registers' ∈ rest,
          ErrorFree (xferComplete chan registers).chan registers' :=
        fun registers' member => mode.errorFree.mpr (later registers' member)
      have running := xferComplete_busy here
      rw [completeAll, List.foldl_cons, ← completeAll, List.length_cons]
      rw [isOver, busy] at running
      by_cases isOne : chan.frgCount = 1
      · have stopped : (xferComplete chan registers).chan.busy = false := by
          rw [running, decide_eq_true isOne]
          rfl
        have last : untilOne 1 = 1 := rfl
        rw [(completeAll_spec later).2.2 stopped, isOne, last]
        constructor
        · intro impossible
          cases impossible
        · intro impossible
          omega
      · have step := untilOne_step small isOne
        have count : (xferComplete chan registers).chan.frgCount =
            Word.sub 32 chan.frgCount 1 := by rw [next]
        have goesOn : (xferComplete chan registers).chan.busy = true := by
          rw [running, decide_eq_false isOne]
          rfl
        have rest := ih (mode.aflags ▸ perSegment) goesOn
          (by rw [count]; exact Word.sub_lt 32 _ _) later
        rw [rest, count, step]
        exact Nat.add_lt_add_iff_right.symm

theorem round_of_idle (idle : chan.busy = false) (all : List Registers) :
    round chan all =
      if (completeAll (dmaStart chan).1 all).busy then none
      else some (completeAll (dmaStart chan).1 all) := by
  have started := (dmaStart_ok idle).2
  unfold round
  rcases result : dmaStart chan with ⟨chan', ret, writes⟩
  rw [result] at started
  cases started
  rfl

/-- A round of a transfer that is reported at its end. -/
theorem round_perTransfer (idle : chan.busy = false)
    (perTransfer : flagged chan.aflags DMA_ATTACH_EVENT_PER_SEGMENT = false)
    (single : flagged chan.mflags DMA_MODE_FLAG_REPEAT = false) {registers : Registers}
    (errorFree : ErrorFree chan registers) :
    ∃ final, round chan [registers] = some final ∧ SameMode chan final ∧
      final.busy = false := by
  have start := dmaStart_mode chan
  have here : ErrorFree (dmaStart chan).1 registers := start.errorFree.mpr errorFree
  have isOver : toAbort (dmaStart chan).1 false = true := by
    rw [toAbort, start.aflags, start.mflags, perTransfer, single]
    rfl
  have stopped : (completeAll (dmaStart chan).1 [registers]).busy = false := by
    rw [completeAll, List.foldl_cons, List.foldl_nil, xferComplete_busy here, isOver,
      Bool.not_true, Bool.and_false]
  refine ⟨_, ?_, start.trans (xferComplete_mode here), stopped⟩
  rw [round_of_idle idle, stopped, if_neg Bool.false_ne_true]
  rfl

theorem rounds_perTransfer (idle : chan.busy = false)
    (perTransfer : flagged chan.aflags DMA_ATTACH_EVENT_PER_SEGMENT = false)
    (single : flagged chan.mflags DMA_MODE_FLAG_REPEAT = false) {all : List (List Registers)}
    (lengths : ∀ registers ∈ all, registers.length = 1)
    (errorFree : ∀ registers ∈ all, ∀ one ∈ registers, ErrorFree chan one) :
    (rounds chan all).isSome = true := by
  induction all generalizing chan with
  | nil => rfl
  | cons registers rest ih =>
      obtain ⟨length, others⟩ := List.forall_mem_cons.mp lengths
      obtain ⟨here, later⟩ := List.forall_mem_cons.mp errorFree
      obtain ⟨one, rfl⟩ := List.length_eq_one_iff.mp length
      obtain ⟨final, ran, mode, stopped⟩ := round_perTransfer idle perTransfer single
        (here one (List.mem_singleton.mpr rfl))
      rw [rounds, ran]
      exact ih stopped (mode.aflags ▸ perTransfer) (mode.mflags ▸ single) others
        fun registers' member one' isOne => mode.errorFree.mpr (later registers' member one' isOne)

/-- A round of a transfer that reports each segment ends idle exactly if the count starts
with at least one fragment; it then ends with the count at zero. -/
theorem round_perSegment (idle : chan.busy = false)
    (perSegment : flagged chan.aflags DMA_ATTACH_EVENT_PER_SEGMENT = true)
    (small : chan.frgCount < 2 ^ 32) {registers : List Registers}
    (errorFree : ∀ one ∈ registers, ErrorFree chan one) :
    if registers.length < untilOne chan.frgCount then round chan registers = none
    else ∃ final, round chan registers = some final ∧ SameMode chan final ∧
      final.busy = false ∧
      (registers.length ≤ chan.frgCount → final.frgCount = chan.frgCount - registers.length) := by
  have start := dmaStart_mode chan
  have started := (dmaStart_ok idle).1
  have count : (dmaStart chan).1.frgCount = chan.frgCount := by rw [dmaStart_chan]
  have errorFree : ∀ one ∈ registers, ErrorFree (dmaStart chan).1 one :=
    fun one member => start.errorFree.mpr (errorFree one member)
  have ends := completeAll_perSegment (start.aflags ▸ perSegment) started
    (count.symm ▸ small) errorFree
  obtain ⟨mode, counted, _⟩ := completeAll_spec errorFree
  rw [count] at ends counted
  rw [round_of_idle idle]
  split
  · next goesOn => rw [if_pos (ends.mpr goesOn)]
  · next reached =>
      have stopped : ¬ (completeAll (dmaStart chan).1 registers).busy = true :=
        fun busy => reached (ends.mp busy)
      refine ⟨_, if_neg stopped, start.trans mode, ?_, counted small⟩
      exact Bool.eq_false_of_not_eq_true stopped

/-- A transfer that is set up once can be started round after round exactly if it is reported
at its end; where each segment is reported, one round is all it does. -/
theorem rounds_restart (setup : dmaSetupXfer alloc chan tinfo = (ready, .ok))
    (single : flagged tinfo.modeFlags DMA_MODE_FLAG_REPEAT = false)
    (all : List (List Registers))
    (lengths : ∀ registers ∈ all, registers.length = interrupts chan tinfo)
    (errorFree : ∀ registers ∈ all, ∀ one ∈ registers, ErrorFree chan one) :
    (rounds ready all).isSome = true ↔
      flagged chan.aflags DMA_ATTACH_EVENT_PER_SEGMENT = false ∨ all = [] ∨
        all.length = 1 ∧ 0 < tinfo.sgs := by
  have isSetUp := setUp_of_accepted setup
  have sgs := isSetUp.sgs_le
  have numCbs := ready.numCbs_lt
  have frgCount := isSetUp.frgCount
  have errorFree : ∀ registers ∈ all, ∀ one ∈ registers, ErrorFree ready one := by
    intro registers member one isOne
    rw [ErrorFree, DmaChannel.info, isSetUp.chanIdx]
    exact errorFree registers member one isOne
  cases mode : flagged chan.aflags DMA_ATTACH_EVENT_PER_SEGMENT with
  | false =>
      rw [interrupts, mode, if_neg Bool.false_ne_true] at lengths
      exact ⟨fun _ => Or.inl rfl, fun _ => rounds_perTransfer isSetUp.idle
        (isSetUp.aflags ▸ mode) (isSetUp.mflags ▸ single) lengths errorFree⟩
  | true =>
      rw [interrupts, mode, if_pos rfl] at lengths
      cases all with
      | nil => exact ⟨fun _ => Or.inr (Or.inl rfl), fun _ => rfl⟩
      | cons first rest =>
          obtain ⟨length, lengths⟩ := List.forall_mem_cons.mp lengths
          obtain ⟨here, later⟩ := List.forall_mem_cons.mp errorFree
          have ran := round_perSegment isSetUp.idle (isSetUp.aflags ▸ mode)
            (by omega) here
          rw [frgCount, length] at ran
          by_cases empty : tinfo.sgs = 0
          · rw [empty, if_pos (untilOne_pos 0)] at ran
            rw [rounds, ran, empty]
            simp
          · have isCount : untilOne tinfo.sgs = tinfo.sgs := if_neg empty
            rw [isCount, if_neg (lt_irrefl _)] at ran
            obtain ⟨final, ran, same, stopped, counted⟩ := ran
            have zero : final.frgCount = 0 := by
              rw [counted le_rfl, Nat.sub_self]
            rw [rounds, ran]
            cases rest with
            | nil =>
                have positive : 0 < tinfo.sgs := Nat.pos_of_ne_zero empty
                exact ⟨fun _ => Or.inr (Or.inr ⟨rfl, positive⟩), fun _ => rfl⟩
            | cons second rest =>
                obtain ⟨length, _⟩ := List.forall_mem_cons.mp lengths
                obtain ⟨here, _⟩ := List.forall_mem_cons.mp later
                have perSegment :
                    flagged final.aflags DMA_ATTACH_EVENT_PER_SEGMENT = true := by
                  rw [same.aflags, isSetUp.aflags]
                  exact mode
                have again := round_perSegment stopped perSegment (by omega)
                  fun one member => same.errorFree.mpr (here one member)
                have far : untilOne 0 = 2 ^ 32 := rfl
                rw [zero, length, far, if_pos (by omega)] at again
                dsimp only
                rw [rounds, again]
                simp

end Rounds

theorem rounds_restart_segments :
    (rounds (segmentReady 0) [[quiet, quiet]]).isSome = true ↔
      flagged segmentChannel.aflags DMA_ATTACH_EVENT_PER_SEGMENT = false ∨
        [[quiet, quiet]] = [] ∨ [[quiet, quiet]].length = 1 ∧ 0 < (twoFragments 0).sgs :=
  rounds_restart (segmentReady_setup 0 (Or.inl rfl)) (by decide) [[quiet, quiet]]
    (fun registers member => by
      rw [List.mem_singleton.mp member]
      decide)
    fun registers member one isOne => by
      rw [List.mem_singleton.mp member] at isOne
      have isQuiet : one = quiet := by simpa using isOne
      rw [isQuiet]
      exact rfl

/-- The second round of two fragments never ends. -/
theorem second_round_stays_busy :
    dmaSetupXfer (fun _ => none) segmentChannel (twoFragments 0) = (segmentReady 0, .ok) ∧
      flagged (twoFragments 0).modeFlags DMA_MODE_FLAG_REPEAT = false ∧
      (∀ registers ∈ [[quiet, quiet], [quiet, quiet]],
        registers.length = interrupts segmentChannel (twoFragments 0)) ∧
      rounds (segmentReady 0) [[quiet, quiet], [quiet, quiet]] = none := by
  refine ⟨segmentReady_setup 0 (Or.inl rfl), by decide, ?_, ?_⟩
  · intro registers member
    have isTwo : registers = [quiet, quiet] := by simpa using member
    rw [isTwo]
    decide
  · have ends : (rounds (segmentReady 0) [[quiet, quiet], [quiet, quiet]]).isNone = true := by
      decide
    exact Option.isNone_iff_eq_none.mp ends

end Bcm2711.Dma
