import Bcm2711.Sdhci.Adma

/-! # The end of a command

`sdhci_intr_event` reads the interrupt status once and derives from it, test by test, one
completion status for the active command.  The value `EOK` that the transfer by programmed
I/O returns is the value of `CS_CMD_INPROG`, the status of a command that goes on.
-/

namespace Bcm2711.Sdhci

/-! ## Registers and commands -/

def SDHCI_PSTATE_BRE : Nat := 1 <<< 11
def SDHCI_PSTATE_BWE : Nat := 1 <<< 10
def SDHCI_SYSCTL_SRC : Nat := 1 <<< 25
def SDHCI_SYSCTL_SRD : Nat := 1 <<< 26

def SDHCI_INTR_CC : Nat := 1 <<< 0
def SDHCI_INTR_TC : Nat := 1 <<< 1
def SDHCI_INTR_DMA : Nat := 1 <<< 3
def SDHCI_INTR_BWR : Nat := 1 <<< 4
def SDHCI_INTR_BRR : Nat := 1 <<< 5
def SDHCI_INTR_CINS : Nat := 1 <<< 6
def SDHCI_INTR_CREM : Nat := 1 <<< 7
def SDCHI_INTR_RETUNE : Nat := 1 <<< 12
def SDHCI_INTR_ERRI : Nat := 1 <<< 15
def SDHCI_INTR_CTO : Nat := 1 <<< 16
def SDHCI_INTR_CCRC : Nat := 1 <<< 17
def SDHCI_INTR_CEB : Nat := 1 <<< 18
def SDHCI_INTR_CIE : Nat := 1 <<< 19
def SDHCI_INTR_DTO : Nat := 1 <<< 20
def SDHCI_INTR_DCRC : Nat := 1 <<< 21
def SDHCI_INTR_DEB : Nat := 1 <<< 22
def SDHCI_INTR_ACE : Nat := 1 <<< 24
def SDHCI_INTR_ADMAE : Nat := 1 <<< 25

def SCF_RSP_PRESENT : Nat := 1 <<< 4
def SCF_RSP_136 : Nat := 1 <<< 5
def SCF_DIR_IN : Nat := 1 <<< 9

def SD_SEND_TUNING_BLOCK : Nat := 19
def MMC_SEND_TUNING_BLOCK : Nat := 21

def EOK : Nat := 0
def CS_CMD_INPROG : Nat := 0x00
def CS_CMD_CMP : Nat := 0x01
def CS_CMD_CMP_ERR : Nat := 0x03
def CS_CMD_IDX_ERR : Nat := 0x04
def CS_CMD_TO_ERR : Nat := 0x05
def CS_CMD_CRC_ERR : Nat := 0x06
def CS_CMD_END_ERR : Nat := 0x07
def CS_DATA_TO_ERR : Nat := 0x08
def CS_DATA_CRC_ERR : Nat := 0x09
def CS_DATA_END_ERR : Nat := 0x0a
def CS_CARD_REMOVED : Nat := 0x0b

/-- What the event uses of `sdio_cmd_t`. -/
structure SdioCmd where
  opcode : Nat
  flags : Nat
  blksz : Nat
  rsp : List Nat
  status : Nat
deriving DecidableEq, Repr

/-- The place in the list of the transfer, `sdio_wspc_t`: how many entries are left, the
entries from `sge` on, and what is left of the current one. -/
structure Wspc where
  nsg : Nat
  sge : List SdioSge
  sgc : Nat
  sga : Nat
deriving DecidableEq, Repr

/-- The pulses for the host controller's thread. -/
inductive HcEvent where
  | cd
  | tune
deriving DecidableEq, Repr

/-- The controller and its active command. -/
structure Controller where
  /-- `SDHCI_IS` and `SDHCI_IE`. -/
  isReg : Nat
  ieReg : Nat
  /-- What `SDHCI_PSTATE` reads as, one value for each read. -/
  pstate : List Nat
  /-- `SDHCI_RESP0` to `SDHCI_RESP3`. -/
  resp : Nat → Nat
  sdmaArg2 : Nat
  cmd : SdioCmd
  /-- `hc->wspc.cmd` points to the command. -/
  active : Bool
  wspc : Wspc
  /-- The memory moved through `SDHCI_DATA`: an address and a number of words. -/
  moved : List (Nat × Nat)
  /-- Bytes of `SDHCI_SYSCTL` that were reset. -/
  resets : List Nat
  pulses : List HcEvent
  /-- The statuses with which `sdio_cmd_cmplt` was called. -/
  completed : List Nat

/-! ## Programmed I/O -/

/-- What `sdio_sg_nxt` finds: the list is at its end, or the next memory and its length. -/
inductive SgNxt where
  | complete
  | more (addr len : Nat) (wspc : Wspc)
deriving DecidableEq, Repr

/-- `sdio_sg_nxt`; there is no result where it reads an entry behind the list. -/
def sdioSgNxt (wspc : Wspc) (blksz : Nat) : Option SgNxt :=
  if wspc.nsg = 0 ∧ wspc.sgc = 0 then some .complete
  else
    let advanced : Option Wspc :=
      if wspc.sgc = 0 then
        match wspc.sge.tail with
        | [] => none
        | next :: rest => some ⟨wspc.nsg - 1, next :: rest, next.sgCount, next.sgAddress⟩
      else some wspc
    advanced.map fun wspc =>
      let len := min wspc.sgc blksz
      .more wspc.sga len { wspc with sga := wspc.sga + len, sgc := wspc.sgc - len }

/-- The inner loop: move one block.  A round takes a byte or an entry, which bounds the
rounds. -/
def pioBlock : (rounds blksz : Nat) → Wspc → List (Nat × Nat) → Option (Wspc × List (Nat × Nat))
  | 0, _, _, _ => none
  | rounds + 1, blksz, wspc, moved =>
      if blksz = 0 then some (wspc, moved)
      else
        match sdioSgNxt wspc blksz with
        | none => none
        | some .complete => some (wspc, moved)
        | some (.more addr len next) =>
            pioBlock rounds (blksz - len) next (moved ++ [(addr, len / 4)])

/-- The outer loop, for as long as the controller has a block; there is no result while it
goes on. -/
def pioBlocks (mask blksz : Nat) :
    List Nat → Wspc → List (Nat × Nat) → Option (List Nat × Wspc × List (Nat × Nat))
  | [], _, _ => none
  | read :: reads, wspc, moved =>
      if Word.test read mask then
        match pioBlock (blksz + wspc.sge.length + 1) blksz wspc moved with
        | none => none
        | some (next, further) => pioBlocks mask blksz reads next further
      else some (reads, wspc, moved)

/-- `sdhci_pio_xfer`. -/
def sdhciPioXfer (hc : Controller) : Option (Nat × Controller) :=
  let mask := if Word.test hc.cmd.flags SCF_DIR_IN then SDHCI_PSTATE_BRE else SDHCI_PSTATE_BWE
  match pioBlocks mask hc.cmd.blksz hc.pstate hc.wspc hc.moved with
  | none => none
  | some (pstate, wspc, moved) => some (EOK, { hc with pstate, wspc, moved })

/-! ## The interrupt event -/

/-- The status the event handles: the enabled bits, and the error bit. -/
def Controller.sts (hc : Controller) : Nat := hc.isReg &&& (hc.ieReg ||| SDHCI_INTR_ERRI)

/-- The status of a failed command; the last test that applies decides. -/
def errorStatus (sts : Nat) : Nat :=
  let cs := CS_CMD_INPROG
  let cs := if Word.test sts SDHCI_INTR_DTO then CS_DATA_TO_ERR else cs
  let cs := if Word.test sts SDHCI_INTR_DCRC then CS_DATA_CRC_ERR else cs
  let cs := if Word.test sts SDHCI_INTR_DEB then CS_DATA_END_ERR else cs
  let cs := if Word.test sts SDHCI_INTR_CTO then CS_CMD_TO_ERR else cs
  let cs := if Word.test sts SDHCI_INTR_CCRC then CS_CMD_CRC_ERR else cs
  let cs := if Word.test sts SDHCI_INTR_CEB then CS_CMD_END_ERR else cs
  let cs := if Word.test sts SDHCI_INTR_CIE then CS_CMD_IDX_ERR else cs
  let cs := if Word.test sts SDHCI_INTR_ADMAE then CS_DATA_TO_ERR else cs
  let cs := if Word.test sts SDHCI_INTR_ACE then CS_DATA_TO_ERR else cs
  if cs = 0 then CS_CMD_CMP_ERR else cs

/-- A 136 bit response, which the controller stores without its checksum: each word is
shifted by the high byte of the word below. -/
def longResponse (resp : Nat → Nat) : List Nat :=
  [Word.add 32 (resp 3 * 2 ^ 8 % 2 ^ 32) (resp 2 / 2 ^ 24),
    Word.add 32 (resp 2 * 2 ^ 8 % 2 ^ 32) (resp 1 / 2 ^ 24),
    Word.add 32 (resp 1 * 2 ^ 8 % 2 ^ 32) (resp 0 / 2 ^ 24), resp 0 * 2 ^ 8 % 2 ^ 32]

/-- Command complete: take the response. -/
def onCommandComplete (sts : Nat) (cs : Nat) (hc : Controller) : Nat × Controller :=
  if Word.test sts SDHCI_INTR_CC then
    let rsp :=
      if Word.test hc.cmd.flags SCF_RSP_136 then longResponse hc.resp
      else if Word.test hc.cmd.flags SCF_RSP_PRESENT then hc.cmd.rsp.set 0 (hc.resp 0)
      else hc.cmd.rsp
    (CS_CMD_CMP, { hc with cmd := { hc.cmd with rsp } })
  else (cs, hc)

/-- Transfer complete, or else a DMA boundary where the transfer is restarted. -/
def onTransferComplete (sts : Nat) (cs : Nat) (hc : Controller) : Nat × Controller :=
  if Word.test sts SDHCI_INTR_TC then
    (CS_CMD_CMP, { hc with cmd := { hc.cmd with rsp := hc.cmd.rsp.set 0 (hc.resp 0) } })
  else if Word.test sts SDHCI_INTR_DMA then (cs, { hc with sdmaArg2 := hc.sdmaArg2 })
  else (cs, hc)

/-- The command is a tuning command, which ends with its block ready. -/
def SdioCmd.isTuning (cmd : SdioCmd) : Bool :=
  cmd.opcode = SD_SEND_TUNING_BLOCK ∨ cmd.opcode = MMC_SEND_TUNING_BLOCK

/-- The buffer is ready. -/
def onBufferReady (sts : Nat) (cs : Nat) (hc : Controller) : Option (Nat × Controller) :=
  if Word.test sts (SDHCI_INTR_BWR ||| SDHCI_INTR_BRR) then
    if hc.cmd.isTuning then some (CS_CMD_CMP, hc) else sdhciPioXfer hc
  else some (cs, hc)

/-- The tests of the status for the active command. -/
def completionStatus (sts : Nat) (hc : Controller) : Option (Nat × Controller) :=
  if Word.test sts SDHCI_INTR_ERRI then
    some (errorStatus sts, { hc with resets := hc.resets ++ [SDHCI_SYSCTL_SRD, SDHCI_SYSCTL_SRC] })
  else
    let (cs, hc) := onCommandComplete sts CS_CMD_INPROG hc
    let (cs, hc) := onTransferComplete sts cs hc
    onBufferReady sts cs hc

/-- `sdio_cmd_cmplt`. -/
def sdioCmdCmplt (hc : Controller) (status : Nat) : Controller :=
  { hc with
    active := false
    cmd := { hc.cmd with status }
    completed := hc.completed ++ [status] }

/-- Acknowledge the status and wake the thread for the card and for tuning. -/
def acknowledge (hc : Controller) : Controller :=
  { hc with
    isReg := Nat.ldiff hc.isReg hc.sts
    pulses := hc.pulses
      ++ (if Word.test hc.sts (SDHCI_INTR_CINS ||| SDHCI_INTR_CREM) then [.cd] else [])
      ++ (if Word.test hc.sts SDCHI_INTR_RETUNE then [.tune] else []) }

/-- `sdhci_intr_event`; there is no result while it moves data. -/
def sdhciIntrEvent (hc : Controller) : Option Controller :=
  if hc.isReg = 0 then some hc
  else if hc.active = false then some (acknowledge hc)
  else
    match completionStatus hc.sts (acknowledge hc) with
    | none => none
    | some (cs, after) =>
        let cs := if Word.test hc.sts SDHCI_INTR_CREM then CS_CARD_REMOVED else cs
        if cs ≠ CS_CMD_INPROG then some (sdioCmdCmplt after cs) else some after

/-! ## The waiting caller -/

/-- What `pthread_cond_timedwait` returns. -/
inductive Wake where
  | eok
  | etimedout
deriving DecidableEq, Repr

/-- The loop of `sdio_wait_cmd`, given what each test of `cmd->status` finds and how the wait
after it would end.  There is no result while it waits. -/
def sdioWaitCmd : Wake → List (Nat × Wake) → Option Wake
  | _, [] => none
  | status, (found, woken) :: rounds =>
      if found = CS_CMD_INPROG then
        match woken with
        | .etimedout => some .etimedout
        | .eok => sdioWaitCmd .eok rounds
      else some status

/-- Rounds of a wait that go on. -/
def Waiting (rounds : List (Nat × Wake)) : Prop :=
  ∀ round ∈ rounds, round = (CS_CMD_INPROG, .eok)

/-- The event completes the command, once and with `CS_CMD_CMP`, and a caller that waits for
the command finds it completed, so that its wait does not end with a timeout. -/
structure CompletesOnce (hc after : Controller) : Prop where
  completed : after.completed = hc.completed ++ [CS_CMD_CMP]
  status : after.cmd.status = CS_CMD_CMP
  inactive : after.active = false
  returns : ∀ waited, Waiting waited → ∀ woken rounds,
    sdioWaitCmd .eok (waited ++ (after.cmd.status, woken) :: rounds) = some .eok

/-! ## What the tests derive -/

section Tests

variable {sts cs : Nat} {hc after : Controller}

/-- The status of an active command without an error. -/
def quietStatus (sts : Nat) (cmd : SdioCmd) : Nat :=
  if Word.test sts (SDHCI_INTR_BWR ||| SDHCI_INTR_BRR) then
    if cmd.isTuning then CS_CMD_CMP else EOK
  else if Word.test sts SDHCI_INTR_TC then CS_CMD_CMP
  else if Word.test sts SDHCI_INTR_CC then CS_CMD_CMP
  else CS_CMD_INPROG

/-- What no test of the status changes. -/
structure SameCommand (hc after : Controller) : Prop where
  opcode : after.cmd.opcode = hc.cmd.opcode
  completed : after.completed = hc.completed

theorem SameCommand.trans {middle : Controller} (first : SameCommand hc middle)
    (second : SameCommand middle after) : SameCommand hc after where
  opcode := second.opcode.trans first.opcode
  completed := second.completed.trans first.completed

theorem SameCommand.isTuning (same : SameCommand hc after) :
    after.cmd.isTuning = hc.cmd.isTuning := by
  rw [SdioCmd.isTuning, SdioCmd.isTuning, same.opcode]

theorem acknowledge_same (hc : Controller) : SameCommand hc (acknowledge hc) := ⟨rfl, rfl⟩

theorem onCommandComplete_same : SameCommand hc (onCommandComplete sts cs hc).2 := by
  unfold onCommandComplete
  split
  · exact ⟨rfl, rfl⟩
  · exact ⟨rfl, rfl⟩

theorem onCommandComplete_status :
    (onCommandComplete sts cs hc).1 = if Word.test sts SDHCI_INTR_CC then CS_CMD_CMP else cs := by
  unfold onCommandComplete
  split <;> rfl

theorem onTransferComplete_same : SameCommand hc (onTransferComplete sts cs hc).2 := by
  unfold onTransferComplete
  split
  · exact ⟨rfl, rfl⟩
  · split
    · exact ⟨rfl, rfl⟩
    · exact ⟨rfl, rfl⟩

theorem onTransferComplete_status :
    (onTransferComplete sts cs hc).1 = if Word.test sts SDHCI_INTR_TC then CS_CMD_CMP else cs := by
  unfold onTransferComplete
  split
  · rfl
  · split <;> rfl

/-- Programmed I/O always ends with the value of a command that goes on. -/
theorem sdhciPioXfer_status (moved : sdhciPioXfer hc = some (cs, after)) :
    cs = CS_CMD_INPROG ∧ SameCommand hc after := by
  unfold sdhciPioXfer at moved
  dsimp only at moved
  split at moved
  · cases moved
  · cases moved
    exact ⟨rfl, rfl, rfl⟩

theorem completionStatus_quiet (noError : Word.test sts SDHCI_INTR_ERRI = false)
    (found : completionStatus sts hc = some (cs, after)) :
    cs = quietStatus sts hc.cmd ∧ SameCommand hc after := by
  have tested : SameCommand hc
      (onTransferComplete sts (onCommandComplete sts CS_CMD_INPROG hc).1
        (onCommandComplete sts CS_CMD_INPROG hc).2).2 :=
    onCommandComplete_same.trans onTransferComplete_same
  rw [completionStatus, noError] at found
  simp only [Bool.false_eq_true, if_false, onBufferReady] at found
  rw [quietStatus]
  split at found
  · next ready =>
      rw [if_pos ready]
      rw [tested.isTuning] at found
      split at found
      · next tuning =>
          cases found
          exact ⟨(if_pos tuning).symm, tested⟩
      · next transfer =>
          obtain ⟨status, same⟩ := sdhciPioXfer_status found
          exact ⟨status.trans (if_neg transfer).symm, tested.trans same⟩
  · next idle =>
      cases found
      refine ⟨?_, tested⟩
      rw [if_neg idle, onTransferComplete_status, onCommandComplete_status]

/-- The tests come to an end unless data is moved. -/
theorem completionStatus_total (noError : Word.test sts SDHCI_INTR_ERRI = false)
    (noTransfer : Word.test sts (SDHCI_INTR_BWR ||| SDHCI_INTR_BRR) = true →
      hc.cmd.isTuning = true) : ∃ result, completionStatus sts hc = some result := by
  have tested : SameCommand hc
      (onTransferComplete sts (onCommandComplete sts CS_CMD_INPROG hc).1
        (onCommandComplete sts CS_CMD_INPROG hc).2).2 :=
    onCommandComplete_same.trans onTransferComplete_same
  rw [completionStatus, noError]
  simp only [Bool.false_eq_true, if_false, onBufferReady]
  split
  · next ready =>
      rw [tested.isTuning, if_pos (noTransfer ready)]
      exact ⟨_, rfl⟩
  · exact ⟨_, rfl⟩

theorem sts_error (hc : Controller) :
    Word.test hc.sts SDHCI_INTR_ERRI = Word.test hc.isReg SDHCI_INTR_ERRI := by
  have whole : (hc.ieReg ||| SDHCI_INTR_ERRI) &&& SDHCI_INTR_ERRI = SDHCI_INTR_ERRI := by
    apply Nat.eq_of_testBit_eq
    intro bit
    rw [Nat.testBit_and, Nat.testBit_or]
    cases hc.ieReg.testBit bit <;> cases SDHCI_INTR_ERRI.testBit bit <;> rfl
  rw [Word.test, Word.test, Controller.sts, Nat.and_assoc, whole]

end Tests

/-! ## Completions that get lost -/

section Completion

variable {hc after : Controller}

/-- No removal of the card is reported with the completion, and either no buffer is ready and
the completion of the transfer or of the command is enabled, or the buffer is that of a tuning
command. -/
def Undisturbed (hc : Controller) : Prop :=
  Word.test hc.sts SDHCI_INTR_CREM = false ∧
    if Word.test hc.sts (SDHCI_INTR_BWR ||| SDHCI_INTR_BRR) then hc.cmd.isTuning = true
    else Word.test hc.sts SDHCI_INTR_TC = true ∨ Word.test hc.sts SDHCI_INTR_CC = true

instance Undisturbed.decidable (hc : Controller) : Decidable (Undisturbed hc) :=
  inferInstanceAs (Decidable (_ ∧ ite _ _ _))

theorem quietStatus_complete_iff :
    quietStatus hc.sts hc.cmd = CS_CMD_CMP ↔
      if Word.test hc.sts (SDHCI_INTR_BWR ||| SDHCI_INTR_BRR) then hc.cmd.isTuning = true
      else Word.test hc.sts SDHCI_INTR_TC = true ∨ Word.test hc.sts SDHCI_INTR_CC = true := by
  have different : EOK ≠ CS_CMD_CMP := Nat.zero_ne_one
  have goesOn : CS_CMD_INPROG ≠ CS_CMD_CMP := Nat.zero_ne_one
  unfold quietStatus
  split
  · split
    · next tuning => exact iff_of_true rfl tuning
    · next transfer => exact iff_of_false different transfer
  · split
    · next complete => exact iff_of_true rfl (Or.inl complete)
    · next noTransfer =>
        split
        · next complete => exact iff_of_true rfl (Or.inr complete)
        · next noCommand => exact iff_of_false goesOn (not_or.mpr ⟨noTransfer, noCommand⟩)

/-- A caller that waits returns once it finds the command completed. -/
theorem sdioWaitCmd_completed {status : Nat} (completed : status ≠ CS_CMD_INPROG)
    {waited : List (Nat × Wake)} (waiting : Waiting waited) (woken : Wake)
    (rounds : List (Nat × Wake)) :
    sdioWaitCmd .eok (waited ++ (status, woken) :: rounds) = some .eok := by
  induction waited with
  | nil => exact if_neg completed
  | cons round rest ih =>
      rw [waiting round (List.mem_cons_self ..)]
      exact ih fun other member => waiting other (List.mem_cons_of_mem _ member)

/-- The status that an event without an error ends with. -/
def finalStatus (hc : Controller) : Nat :=
  if Word.test hc.sts SDHCI_INTR_CREM then CS_CARD_REMOVED else quietStatus hc.sts hc.cmd

theorem finalStatus_complete_iff :
    finalStatus hc = CS_CMD_CMP ↔
      Word.test hc.sts SDHCI_INTR_CREM = false ∧ quietStatus hc.sts hc.cmd = CS_CMD_CMP := by
  have removed : CS_CARD_REMOVED ≠ CS_CMD_CMP := by decide
  unfold finalStatus
  split
  · next gone =>
      apply iff_of_false removed
      rintro ⟨present, _⟩
      rw [gone] at present
      cases present
  · next present => exact ⟨fun status => ⟨Bool.eq_false_iff.mpr present, status⟩, And.right⟩

/-- An event without an error that comes to its end. -/
theorem sdhciIntrEvent_some (active : hc.active = true) (reported : hc.isReg ≠ 0)
    (noError : Word.test hc.isReg SDHCI_INTR_ERRI = false) {found : Nat} {tested : Controller}
    (total : completionStatus hc.sts (acknowledge hc) = some (found, tested)) :
    tested.completed = hc.completed ∧
      sdhciIntrEvent hc =
        some (if finalStatus hc ≠ CS_CMD_INPROG then sdioCmdCmplt tested (finalStatus hc)
          else tested) := by
  obtain ⟨status, kept⟩ := completionStatus_quiet ((sts_error hc).trans noError) total
  have same : quietStatus hc.sts (acknowledge hc).cmd = quietStatus hc.sts hc.cmd := rfl
  refine ⟨((acknowledge_same hc).trans kept).completed, ?_⟩
  rw [sdhciIntrEvent, if_neg reported, active, if_neg Bool.noConfusion, total]
  dsimp only
  rw [status, same, ← finalStatus, apply_ite some]

/-- An event that does not end with success adds no success to the completions. -/
theorem sdhciIntrEvent_once (active : hc.active = true) (reported : hc.isReg ≠ 0)
    (noError : Word.test hc.isReg SDHCI_INTR_ERRI = false)
    (handled : sdhciIntrEvent hc = some after)
    (once : after.completed = hc.completed ++ [CS_CMD_CMP]) : finalStatus hc = CS_CMD_CMP := by
  cases total : completionStatus hc.sts (acknowledge hc) with
  | none =>
      rw [sdhciIntrEvent, if_neg reported, active, if_neg Bool.noConfusion, total] at handled
      cases handled
  | some result =>
      obtain ⟨kept, ends⟩ := sdhciIntrEvent_some active reported noError total
      rw [ends] at handled
      cases handled
      split at once
      · have last : finalStatus hc :: [] = [CS_CMD_CMP] := by
          apply @List.append_cancel_left _ hc.completed
          rw [← once, ← kept]
          rfl
        exact List.singleton_inj.mp last
      · rw [kept] at once
        exact absurd (List.self_eq_append_right.mp once) (List.cons_ne_nil _ _)

/-- The completion of a transfer ends the command, once and with success, exactly when nothing
in the same status takes its place. -/
theorem sdhciIntrEvent_completes_iff (hc : Controller) (active : hc.active = true)
    (noError : Word.test hc.isReg SDHCI_INTR_ERRI = false)
    (complete : Word.test hc.isReg SDHCI_INTR_TC = true) :
    (∃ after, sdhciIntrEvent hc = some after ∧ CompletesOnce hc after) ↔ Undisturbed hc := by
  have reported : hc.isReg ≠ 0 := by
    intro nothing
    rw [nothing, Word.test, Nat.zero_and] at complete
    cases complete
  have ends : CS_CMD_CMP ≠ CS_CMD_INPROG := Nat.one_ne_zero
  rw [Undisturbed, ← quietStatus_complete_iff, ← finalStatus_complete_iff]
  constructor
  · rintro ⟨after, handled, once⟩
    exact sdhciIntrEvent_once active reported noError handled once.completed
  · intro final
    obtain ⟨present, status⟩ := finalStatus_complete_iff.mp final
    have noTransfer : Word.test hc.sts (SDHCI_INTR_BWR ||| SDHCI_INTR_BRR) = true →
        (acknowledge hc).cmd.isTuning = true := by
      intro ready
      have both := quietStatus_complete_iff.mp status
      rw [if_pos ready] at both
      exact both
    obtain ⟨⟨found, tested⟩, total⟩ :=
      completionStatus_total ((sts_error hc).trans noError) noTransfer
    obtain ⟨kept, handled⟩ := sdhciIntrEvent_some active reported noError total
    rw [final, if_pos ends] at handled
    refine ⟨_, handled, ?_, rfl, rfl, ?_⟩
    · rw [← kept]
      rfl
    · intro waited waiting woken rounds
      exact sdioWaitCmd_completed ends waiting woken rounds

/-- A single block that is read by programmed I/O, with the enabled interrupts that `sdhci_cmd`
stores, where the last data and the completion of the transfer are reported together. -/
def readByPio : Controller where
  isReg := SDHCI_INTR_TC ||| SDHCI_INTR_BRR
  ieReg := 0x037f8022
  pstate := [SDHCI_PSTATE_BRE, 0]
  resp := fun _ => 0x900
  sdmaArg2 := 0
  cmd := ⟨17, SCF_RSP_PRESENT ||| SCF_DIR_IN, 512, [0, 0, 0, 0], CS_CMD_INPROG⟩
  active := true
  wspc := ⟨1, [⟨0x1000, 512⟩], 512, 0x1000⟩
  moved := []
  resets := []
  pulses := []
  completed := []

/-- The completion of this transfer is lost. -/
theorem readByPio_lost :
    ¬ ∃ after, sdhciIntrEvent readByPio = some after ∧ CompletesOnce readByPio after := by
  rintro ⟨after, handled, once⟩
  have final : finalStatus readByPio = CS_CMD_CMP :=
    sdhciIntrEvent_once rfl (by decide) (by decide) handled once.completed
  exact absurd final (by decide)

/-- The same transfer by DMA, where the buffer interrupt is not enabled. -/
def readByDma : Controller := { readByPio with ieReg := 0x037f8002 }

/-- The completion of the transfer by DMA is seen. -/
theorem readByDma_completes :
    ∃ after, sdhciIntrEvent readByDma = some after ∧ CompletesOnce readByDma after :=
  (sdhciIntrEvent_completes_iff readByDma rfl (by decide) (by decide)).mpr (by decide)

end Completion

end Bcm2711.Sdhci
