import Bcm2711.Sdmmc.Termination

/-! # The capabilities that a reliable write takes away

`_sdio_send_cmd` clears `HC_CAP_ACMD12` and `HC_CAP_ACMD23` for the time of a reliable write, and
`mmc_rpmb_rw` for the time of a transfer of frames.  The first has an exit between clearing them
and setting them again.
-/

namespace Bcm2711.Sdmmc

def HC_CAP_ACMD12 : BitVec 64 := 1 <<< 6
def HC_CAP_ACMD23 : BitVec 64 := 1 <<< 7
def HC_CAP_BSY : BitVec 64 := 1 <<< 33

def CS_DATA_CRC_ERR : Nat := 0x09
def CDS_ILLEGAL_COMMAND : Nat := 1 <<< 22
def CDS_ERROR_MSK : Nat := 0xfff90080
def SDIO_CMD_RETRIES : Nat := 3

/-- `HC_CAP_ACMD23 | HC_CAP_ACMD12`. -/
def acmdMask : BitVec 64 := HC_CAP_ACMD23 ||| HC_CAP_ACMD12

/-- What a command can change of the host controller. -/
structure CapsHost where
  caps : BitVec 64
  /-- `HC_FLAG_TUNE`. -/
  isTune : Bool
deriving DecidableEq, Repr

/-! ## Commands -/

/-- What issuing a command comes to. -/
structure IssueReply where
  /-- `sdio_issue_cmd`. -/
  issue : Nat
  cstatus : Nat
  rsp : Nat
  /-- The card is present, not in reset, and in a mode that is tuned. -/
  isTunable : Bool

/-- How a turn of the loop of `_sdio_send_cmd` ends. -/
inductive Attempt where
  /-- With the early return. -/
  | removed
  | leaves (status : Nat)
  | retries (status : Nat)
deriving DecidableEq, Repr

/-- From `sdio_issue_cmd` to the end of a turn, for a command that is not waited for. -/
def issueCmd (reply : IssueReply) (hc : CapsHost) : Attempt × CapsHost :=
  if reply.issue ≠ EOK then (.leaves reply.issue, hc)
  else
    match completion reply.cstatus with
    | none => (.removed, hc)
    | some status =>
        let tuned := { hc with
          isTune := hc.isTune || reply.cstatus = CS_DATA_CRC_ERR && reply.isTunable }
        if status = EOK then (.leaves EOK, tuned)
        else if reply.rsp &&& CDS_ILLEGAL_COMMAND ≠ 0 then (.leaves status, tuned)
        else (.retries status, tuned)

/-- The loop; what an attempt does is told by the retries that are left.  A negative count goes
through all of them. -/
def sendLoop (attempt : Nat → CapsHost → Attempt × CapsHost) :
    Nat → CapsHost → Option Nat × CapsHost
  | 0, hc =>
      match attempt 0 hc with
      | (.removed, hc) => (none, hc)
      | (.leaves status, hc) => (some status, hc)
      | (.retries status, hc) => (some status, hc)
  | left + 1, hc =>
      match attempt (left + 1) hc with
      | (.removed, hc) => (none, hc)
      | (.leaves status, hc) => (some status, hc)
      | (.retries _, hc) => sendLoop attempt left hc

/-- `_sdio_send_cmd` around its loop; `pm` is what `_sdio_pwrmgnt` comes to. -/
def sendAround (isReliable : Bool) (pm : Nat) (attempt : Nat → CapsHost → Attempt × CapsHost)
    (retries : Nat) (hc : CapsHost) : Nat × CapsHost :=
  if pm ≠ EOK then (pm, hc)
  else
    let acmdCaps := if isReliable then hc.caps &&& acmdMask else 0
    let hc := if isReliable then { hc with caps := hc.caps &&& ~~~acmdMask } else hc
    match sendLoop attempt retries hc with
    | (none, hc) => ( ENXIO, hc)
    | (some status, hc) =>
        (status, if acmdCaps ≠ 0 then { hc with caps := hc.caps ||| acmdCaps } else hc)

/-- What the steps of a command without flags come to, by the retries that are left. -/
structure PlainReply where
  /-- `sdio_alloc_cmd` returns a command. -/
  hasCmd : Bool
  pm : Nat
  replies : Nat → IssueReply

/-- A command without flags, as `sd_app_cmd`, `_sdio_set_block_count` and `_sdio_send_status` send
it. -/
def sendPlain (retries : Nat) (reply : PlainReply) (hc : CapsHost) : Nat × CapsHost :=
  if reply.hasCmd then
    sendAround false reply.pm (fun left => issueCmd (reply.replies left)) retries hc
  else (ENOMEM, hc)

/-- `_sdio_wait_card_status` until the card can take data; the second part of a reply is the
response. -/
def waitCardStatus (replies : Nat → PlainReply × Nat) : (msec : Nat) → CapsHost → Nat × CapsHost
  | 0, hc => (ETIMEDOUT, hc)
  | msec + 1, hc =>
      let sent := sendPlain SDIO_CMD_RETRIES (replies msec).1 hc
      let rsp := (replies msec).2
      if sent.1 ≠ EOK then sent
      else if rsp &&& CDS_ERROR_MSK ≠ 0 then ( EIO, sent.2)
      else if rsp &&& (CDS_READY_FOR_DATA ||| CDS_CUR_STATE_MSK) =
          CDS_READY_FOR_DATA ||| CDS_CUR_STATE_TRAN then (EOK, sent.2)
      else waitCardStatus replies msec sent.2

/-- The flags of a command that `_sdio_send_cmd` reads. -/
structure SendFlags extends CmdFlags where
  /-- `SCF_APP_CMD`. -/
  appCmd : Bool
  /-- `SCF_WAIT_DRDY`. -/
  waitDrdy : Bool
deriving DecidableEq, Repr

/-- What the steps of an attempt come to. -/
structure AttemptReply extends IssueReply where
  appCmd : PlainReply
  setBlockCount : PlainReply
  wait : Nat → PlainReply × Nat

/-- `sd_app_cmd` before an application command. -/
def appBefore (flags : SendFlags) (reply : AttemptReply) (hc : CapsHost) : Nat × CapsHost :=
  if flags.appCmd then sendPlain 0 reply.appCmd hc else (EOK, hc)

/-- `_sdio_set_block_count`, unless the host controller does it. -/
def countBefore (flags : SendFlags) (reply : AttemptReply) (hc : CapsHost) : Nat × CapsHost :=
  if flags.sbc ∧ hc.caps &&& HC_CAP_ACMD23 = 0 then sendPlain 0 reply.setBlockCount hc
  else (EOK, hc)

/-- One turn of the loop. -/
def attemptCmd (flags : SendFlags) (timeout : Nat) (reply : AttemptReply) (hc : CapsHost) :
    Attempt × CapsHost :=
  let app := appBefore flags reply hc
  if app.1 ≠ EOK then (.leaves app.1, app.2)
  else
    let counted := countBefore flags reply app.2
    if counted.1 ≠ EOK then (.leaves counted.1, counted.2)
    else
      let issued := issueCmd reply.toIssueReply counted.2
      if issued.1 = .leaves EOK ∧ flags.waitDrdy ∧ issued.2.caps &&& HC_CAP_BSY = 0 then
        let waited := waitCardStatus reply.wait (max timeout 1) issued.2
        (.leaves waited.1, waited.2)
      else issued

/-- What the steps of `_sdio_send_cmd` come to. -/
structure CommandReply where
  pm : Nat
  replies : Nat → AttemptReply

/-- `_sdio_send_cmd`. -/
def sendCmd (flags : SendFlags) (timeout retries : Nat) (reply : CommandReply) (hc : CapsHost) :
    Nat × CapsHost :=
  sendAround flags.sbcRlw reply.pm (fun left => attemptCmd flags timeout (reply.replies left))
    retries hc

/-- What the steps of `mmc_rpmb_rw` come to. -/
structure RpmbReply where
  hasCmd : Bool
  hasBuf : Bool
  setBlockCount : PlainReply
  command : PlainReply

/-- `mmc_rpmb_rw`. -/
def mmcRpmbRw (reply : RpmbReply) (hc : CapsHost) : Nat × CapsHost :=
  if ¬ reply.hasCmd then (ENOMEM, hc)
  else if ¬ reply.hasBuf then (ENOMEM, hc)
  else
    let counted := sendPlain 0 reply.setBlockCount hc
    if counted.1 = EOK then
      let acmdCaps := counted.2.caps &&& acmdMask
      let cleared := { counted.2 with caps := counted.2.caps &&& ~~~acmdMask }
      let sent := sendAround false reply.command.pm
        (fun left => issueCmd (reply.command.replies left)) 0 cleared
      (sent.1, { sent.2 with caps := sent.2.caps ||| acmdCaps })
    else counted

/-! ## What is kept -/

section Kept

variable {hc : CapsHost} {retries : Nat}

/-- What is cleared and set again is as it was. -/
theorem clear_set (caps mask : BitVec 64) : caps &&& ~~~mask ||| caps &&& mask = caps := by
  have all : ~~~mask ||| mask = BitVec.allOnes 64 := by
    rw [BitVec.or_comm, BitVec.or_not_self]
  rw [← BitVec.and_or_distrib_left, all, BitVec.and_allOnes]

/-- Clearing changes nothing only where nothing is set. -/
theorem clear_same_iff (caps mask : BitVec 64) :
    caps &&& ~~~mask = caps ↔ caps &&& mask = 0#64 := by
  constructor
  · intro same
    rw [← same, BitVec.and_assoc, BitVec.and_comm (~~~mask), BitVec.and_not_self]
    exact BitVec.and_zero
  · intro none
    have restored := clear_set caps mask
    rw [none, BitVec.or_zero] at restored
    exact restored

theorem issueCmd_caps (reply : IssueReply) : (issueCmd reply hc).2.caps = hc.caps := by
  unfold issueCmd
  split
  · rfl
  · split
    · rfl
    · dsimp only
      split
      · rfl
      · split
        · rfl
        · rfl

/-- Attempts that keep the capabilities make a loop that does. -/
theorem sendLoop_caps {attempt : Nat → CapsHost → Attempt × CapsHost}
    (kept : ∀ left hc, (attempt left hc).2.caps = hc.caps) :
    (sendLoop attempt retries hc).2.caps = hc.caps := by
  induction retries generalizing hc with
  | zero =>
      have once := kept 0 hc
      rw [sendLoop]
      split
      · next tried => rw [tried] at once; exact once
      · next tried => rw [tried] at once; exact once
      · next tried => rw [tried] at once; exact once
  | succ left ih =>
      have once := kept (left + 1) hc
      rw [sendLoop]
      split
      · next tried => rw [tried] at once; exact once
      · next tried => rw [tried] at once; exact once
      · next tried =>
          rw [tried] at once
          exact ih.trans once

/-- A command that is no reliable write keeps the capabilities. -/
theorem sendAround_plain {pm : Nat} {attempt : Nat → CapsHost → Attempt × CapsHost}
    (kept : ∀ left hc, (attempt left hc).2.caps = hc.caps) :
    (sendAround false pm attempt retries hc).2.caps = hc.caps := by
  unfold sendAround
  split
  · rfl
  · have loop : (sendLoop attempt retries hc).2.caps = hc.caps := sendLoop_caps kept
    simp only [Bool.false_eq_true, if_false, ne_eq, not_true]
    split
    · next sent =>
        rw [sent] at loop
        exact loop
    · next sent =>
        rw [sent] at loop
        exact loop

theorem sendPlain_caps (retries : Nat) (reply : PlainReply) (hc : CapsHost) :
    (sendPlain retries reply hc).2.caps = hc.caps := by
  unfold sendPlain
  split
  · exact sendAround_plain fun left hc => issueCmd_caps _
  · rfl

theorem waitCardStatus_caps (replies : Nat → PlainReply × Nat) (msec : Nat) (hc : CapsHost) :
    (waitCardStatus replies msec hc).2.caps = hc.caps := by
  induction msec generalizing hc with
  | zero => rfl
  | succ msec ih =>
      have sent := sendPlain_caps SDIO_CMD_RETRIES (replies msec).1 hc
      rw [waitCardStatus]
      split
      · exact sent
      · split
        · exact sent
        · split
          · exact sent
          · exact (ih _).trans sent

theorem appBefore_caps (flags : SendFlags) (reply : AttemptReply) (hc : CapsHost) :
    (appBefore flags reply hc).2.caps = hc.caps := by
  unfold appBefore
  split
  · exact sendPlain_caps _ _ _
  · rfl

theorem countBefore_caps (flags : SendFlags) (reply : AttemptReply) (hc : CapsHost) :
    (countBefore flags reply hc).2.caps = hc.caps := by
  unfold countBefore
  split
  · exact sendPlain_caps _ _ _
  · rfl

theorem attemptCmd_caps (flags : SendFlags) (timeout : Nat) (reply : AttemptReply)
    (hc : CapsHost) : (attemptCmd flags timeout reply hc).2.caps = hc.caps := by
  have app := appBefore_caps flags reply hc
  have counted := (countBefore_caps flags reply _).trans app
  have issued := (@issueCmd_caps _ reply.toIssueReply).trans counted
  unfold attemptCmd
  dsimp only
  split
  · exact app
  · split
    · exact counted
    · split
      · exact (waitCardStatus_caps _ _ _).trans issued
      · exact issued

/-- The frames of a replay protected block leave the capabilities as they were. -/
theorem mmcRpmbRw_caps (reply : RpmbReply) (hc : CapsHost) :
    (mmcRpmbRw reply hc).2.caps = hc.caps := by
  unfold mmcRpmbRw
  split
  · rfl
  · split
    · rfl
    · have counted := sendPlain_caps 0 reply.setBlockCount hc
      dsimp only
      split
      · have sent := @sendAround_plain
          { (sendPlain 0 reply.setBlockCount hc).2 with
            caps := (sendPlain 0 reply.setBlockCount hc).2.caps &&& ~~~acmdMask }
          0 reply.command.pm (fun left => issueCmd (reply.command.replies left))
          fun left hc => issueCmd_caps _
        dsimp only
        rw [sent, clear_set]
        exact counted
      · exact counted

/-- A reliable write leaves them as they were unless its loop returns early. -/
theorem sendAround_reliable {pm : Nat} {attempt : Nat → CapsHost → Attempt × CapsHost}
    (kept : ∀ left hc, (attempt left hc).2.caps = hc.caps) :
    (sendAround true pm attempt retries hc).2.caps = hc.caps ↔
      ¬ (pm = EOK ∧ hc.caps &&& acmdMask ≠ 0 ∧
        (sendLoop attempt retries { hc with caps := hc.caps &&& ~~~acmdMask }).1 = none) := by
  have loop := @sendLoop_caps { hc with caps := hc.caps &&& ~~~acmdMask } retries attempt kept
  have restored := clear_set hc.caps acmdMask
  unfold sendAround
  by_cases awake : pm = EOK
  · rw [if_neg (not_not.mpr awake)]
    simp only [if_true]
    split
    · next removed =>
        rw [removed] at loop
        dsimp only at loop ⊢
        rw [loop, clear_same_iff, removed]
        constructor
        · rintro none ⟨_, some, _⟩
          exact some none
        · intro kept
          by_contra some
          exact kept ⟨awake, some, rfl⟩
    · next sent =>
        rw [sent] at loop
        dsimp only at loop
        have unreturned : ¬ (pm = EOK ∧ hc.caps &&& acmdMask ≠ 0 ∧
            (sendLoop attempt retries { hc with caps := hc.caps &&& ~~~acmdMask }).1 = none) := by
          rintro ⟨_, _, returned⟩
          rw [sent] at returned
          cases returned
        refine iff_of_true ?_ unreturned
        split
        · rw [loop]
          exact restored
        · next none => exact loop.trans ((clear_same_iff _ _).mpr (not_not.mp none))
  · rw [if_pos awake]
    exact ⟨fun _ removed => awake removed.1, fun _ => rfl⟩

end Kept

/-! ## Where the loop returns early -/

/-- A command without flags and retries is complete. -/
def PlainReply.Completes (reply : PlainReply) : Prop :=
  reply.hasCmd ∧ reply.pm = EOK ∧ (reply.replies 0).issue = EOK ∧
    (reply.replies 0).cstatus = CS_CMD_CMP

/-- The command of the attempt is issued, and the commands before it are complete. -/
def AttemptReply.Issued (flags : SendFlags) (reply : AttemptReply) : Prop :=
  (flags.appCmd → reply.appCmd.Completes) ∧ (flags.sbc → reply.setBlockCount.Completes) ∧
    reply.issue = EOK

/-- The card is removed while the command is under way. -/
def AttemptReply.Removes (flags : SendFlags) (reply : AttemptReply) : Prop :=
  reply.Issued flags ∧ reply.cstatus = CS_CARD_REMOVED

/-- The command fails in a way that is tried again. -/
def AttemptReply.Fails (flags : SendFlags) (reply : AttemptReply) : Prop :=
  reply.Issued flags ∧ reply.cstatus ≠ CS_CARD_REMOVED ∧ reply.cstatus ≠ CS_CMD_CMP ∧
    reply.rsp &&& CDS_ILLEGAL_COMMAND = 0

/-- The card is removed under one of the attempts that are made. -/
def CommandReply.Removes (flags : SendFlags) (retries : Nat) (reply : CommandReply) : Prop :=
  ∃ left ≤ retries, (reply.replies left).Removes flags ∧
    ∀ earlier, left < earlier → earlier ≤ retries → (reply.replies earlier).Fails flags

section Removed

variable {hc : CapsHost} {retries : Nat}

theorem completion_none_iff (cstatus : Nat) :
    completion cstatus = none ↔ cstatus = CS_CARD_REMOVED := by
  unfold completion
  constructor
  · intro none
    split at none
    · cases none
    · split at none
      · cases none
      · split at none
        · next removed => exact removed
        · cases none
  · rintro rfl
    rfl

theorem completion_eok_iff (cstatus : Nat) :
    completion cstatus = some EOK ↔ cstatus = CS_CMD_CMP := by
  unfold completion
  constructor
  · intro complete
    split at complete
    · next same => exact same
    · split at complete
      · cases complete
      · split at complete
        · cases complete
        · cases complete
  · rintro rfl
    rfl

theorem issueCmd_unissued {reply : IssueReply} (unissued : reply.issue ≠ EOK) :
    (issueCmd reply hc).1 = .leaves reply.issue := by
  rw [issueCmd, if_pos unissued]

theorem issueCmd_removed {reply : IssueReply} (issued : reply.issue = EOK)
    (removed : reply.cstatus = CS_CARD_REMOVED) : (issueCmd reply hc).1 = .removed := by
  rw [issueCmd, if_neg (not_not.mpr issued), (completion_none_iff _).mpr removed]

theorem issueCmd_complete {reply : IssueReply} (issued : reply.issue = EOK)
    (complete : reply.cstatus = CS_CMD_CMP) : (issueCmd reply hc).1 = .leaves EOK := by
  rw [issueCmd, if_neg (not_not.mpr issued), (completion_eok_iff _).mpr complete]
  rfl

/-- Any other completion is an error, which is tried again unless the command is illegal. -/
theorem issueCmd_error {reply : IssueReply} (issued : reply.issue = EOK)
    (present : reply.cstatus ≠ CS_CARD_REMOVED) (incomplete : reply.cstatus ≠ CS_CMD_CMP) :
    ∃ status, status ≠ EOK ∧ (issueCmd reply hc).1 =
      if reply.rsp &&& CDS_ILLEGAL_COMMAND = 0 then .retries status else .leaves status := by
  obtain ⟨status, completed⟩ :=
    Option.ne_none_iff_exists'.mp fun none => present ((completion_none_iff _).mp none)
  have failed : status ≠ EOK := by
    rintro rfl
    exact incomplete ((completion_eok_iff _).mp completed)
  refine ⟨status, failed, ?_⟩
  rw [issueCmd, if_neg (not_not.mpr issued), completed]
  dsimp only
  rw [if_neg failed]
  by_cases legal : reply.rsp &&& CDS_ILLEGAL_COMMAND = 0
  · rw [if_neg (not_not.mpr legal), if_pos legal]
  · rw [if_pos legal, if_neg legal]

/-- The status of a command that is not tried again. -/
theorem sendAround_once {attempt : Nat → CapsHost → Attempt × CapsHost} {pm : Nat}
    (awake : pm = EOK) :
    (sendAround false pm attempt 0 hc).1 =
      match (attempt 0 hc).1 with
      | .removed => ENXIO
      | .leaves status => status
      | .retries status => status := by
  unfold sendAround
  rw [if_neg (not_not.mpr awake)]
  simp only [Bool.false_eq_true, if_false, ne_eq, not_true, sendLoop]
  rcases attempt 0 hc with ⟨attempted, left⟩
  cases attempted with
  | removed => rfl
  | leaves status => rfl
  | retries status => rfl

theorem sendPlain_complete_iff (reply : PlainReply) :
    (sendPlain 0 reply hc).1 = EOK ↔ reply.Completes := by
  unfold sendPlain PlainReply.Completes
  by_cases hasCmd : reply.hasCmd = true
  · rw [if_pos hasCmd]
    by_cases awake : reply.pm = EOK
    · rw [sendAround_once awake]
      by_cases issued : (reply.replies 0).issue = EOK
      · by_cases removed : (reply.replies 0).cstatus = CS_CARD_REMOVED
        · rw [issueCmd_removed issued removed, removed]
          exact ⟨nofun, fun all => absurd all.2.2.2 (by decide)⟩
        · by_cases complete : (reply.replies 0).cstatus = CS_CMD_CMP
          · rw [issueCmd_complete issued complete]
            exact ⟨fun _ => ⟨hasCmd, awake, issued, complete⟩, fun _ => rfl⟩
          · obtain ⟨status, failed, ended⟩ := @issueCmd_error hc _ issued removed complete
            rw [ended]
            refine iff_of_false ?_ fun all => complete all.2.2.2
            split
            · next left => split at left <;> cases left
            · next left =>
                split at left
                · cases left
                · cases left
                  exact failed
            · next left =>
                split at left
                · cases left
                  exact failed
                · cases left
      · rw [issueCmd_unissued issued]
        exact ⟨fun ended => absurd ended issued, fun all => absurd all.2.2.1 issued⟩
    · rw [sendAround, if_pos awake]
      exact ⟨fun ended => absurd ended awake, fun all => absurd all.2.1 awake⟩
  · rw [if_neg hasCmd]
    exact ⟨nofun, fun all => absurd all.1 hasCmd⟩

theorem appBefore_complete_iff (flags : SendFlags) (reply : AttemptReply) :
    (appBefore flags reply hc).1 = EOK ↔ (flags.appCmd → reply.appCmd.Completes) := by
  unfold appBefore
  split
  · next asked => rw [sendPlain_complete_iff, imp_iff_right asked]
  · next unasked => exact iff_of_true rfl fun asked => absurd asked unasked

theorem countBefore_complete_iff (flags : SendFlags) (reply : AttemptReply)
    (manual : hc.caps &&& HC_CAP_ACMD23 = 0) :
    (countBefore flags reply hc).1 = EOK ↔ (flags.sbc → reply.setBlockCount.Completes) := by
  unfold countBefore
  split
  · next asked => rw [sendPlain_complete_iff, imp_iff_right asked.1]
  · next unasked => exact iff_of_true rfl fun asked => absurd ⟨asked, manual⟩ unasked

variable {flags : SendFlags} {timeout : Nat} {reply : AttemptReply}

/-- An attempt whose command is not issued is the last. -/
theorem attemptCmd_unissued (manual : hc.caps &&& HC_CAP_ACMD23 = 0)
    (unissued : ¬ reply.Issued flags) :
    ∃ status, (attemptCmd flags timeout reply hc).1 = .leaves status := by
  unfold attemptCmd
  dsimp only
  by_cases app : (appBefore flags reply hc).1 = EOK
  · rw [if_neg (not_not.mpr app)]
    have still := manual
    rw [← appBefore_caps flags reply hc] at still
    by_cases counted : (countBefore flags reply (appBefore flags reply hc).2).1 = EOK
    · rw [if_neg (not_not.mpr counted)]
      have failed : reply.issue ≠ EOK := fun issued => unissued
        ⟨(appBefore_complete_iff _ _).mp app, (countBefore_complete_iff _ _ still).mp counted,
          issued⟩
      split
      · exact ⟨_, rfl⟩
      · exact ⟨_, issueCmd_unissued failed⟩
    · rw [if_pos counted]
      exact ⟨_, rfl⟩
  · rw [if_pos app]
    exact ⟨_, rfl⟩

/-- An attempt whose command is issued ends as the command does, or with the wait for the card. -/
theorem attemptCmd_issued (manual : hc.caps &&& HC_CAP_ACMD23 = 0) (issued : reply.Issued flags) :
    ∃ before : CapsHost,
      (attemptCmd flags timeout reply hc).1 = (issueCmd reply.toIssueReply before).1 ∨
        (issueCmd reply.toIssueReply before).1 = .leaves EOK ∧
          ∃ status, (attemptCmd flags timeout reply hc).1 = .leaves status := by
  have still := manual
  rw [← appBefore_caps flags reply hc] at still
  have app := (@appBefore_complete_iff hc flags reply).mpr issued.1
  have counted := (countBefore_complete_iff flags reply still).mpr issued.2.1
  refine ⟨(countBefore flags reply (appBefore flags reply hc).2).2, ?_⟩
  unfold attemptCmd
  dsimp only
  rw [if_neg (not_not.mpr app), if_neg (not_not.mpr counted)]
  split
  · next waits => exact .inr ⟨waits.1, _, rfl⟩
  · exact .inl rfl

/-- An attempt returns early when it removes the card, is tried again when it fails, and is the
last otherwise. -/
theorem attemptCmd_cases (manual : hc.caps &&& HC_CAP_ACMD23 = 0) :
    (reply.Removes flags ∧ (attemptCmd flags timeout reply hc).1 = .removed) ∨
    (reply.Fails flags ∧ ∃ status, (attemptCmd flags timeout reply hc).1 = .retries status) ∨
    (¬ reply.Removes flags ∧ ¬ reply.Fails flags ∧
      ∃ status, (attemptCmd flags timeout reply hc).1 = .leaves status) := by
  by_cases issued : reply.Issued flags
  · obtain ⟨before, ended⟩ := @attemptCmd_issued hc flags timeout reply manual issued
    by_cases removed : reply.cstatus = CS_CARD_REMOVED
    · have early := @issueCmd_removed before _ issued.2.2 removed
      rw [early] at ended
      rcases ended with ended | ⟨left, _⟩
      · exact .inl ⟨⟨issued, removed⟩, ended⟩
      · cases left
    · have stays : ¬ reply.Removes flags := fun removes => removed removes.2
      by_cases complete : reply.cstatus = CS_CMD_CMP
      · have done : ∃ status, (attemptCmd flags timeout reply hc).1 = .leaves status := by
          rcases ended with ended | ⟨_, left⟩
          · exact ⟨EOK, ended.trans (issueCmd_complete issued.2.2 complete)⟩
          · exact left
        exact .inr (.inr ⟨stays, fun fails => fails.2.2.1 complete, done⟩)
      · obtain ⟨status, failed, error⟩ :=
          @issueCmd_error before _ issued.2.2 removed complete
        rw [error] at ended
        by_cases legal : reply.rsp &&& CDS_ILLEGAL_COMMAND = 0
        · rw [if_pos legal] at ended
          rcases ended with ended | ⟨left, _⟩
          · exact .inr (.inl ⟨⟨issued, removed, complete, legal⟩, status, ended⟩)
          · cases left
        · rw [if_neg legal] at ended
          have last : ∃ status, (attemptCmd flags timeout reply hc).1 = .leaves status := by
            rcases ended with ended | ⟨_, left⟩
            · exact ⟨status, ended⟩
            · exact left
          exact .inr (.inr ⟨stays, fun fails => legal fails.2.2.2, last⟩)
  · exact .inr (.inr ⟨fun removes => issued removes.1, fun fails => issued fails.1,
      attemptCmd_unissued manual issued⟩)

variable {attempt : Nat → CapsHost → Attempt × CapsHost} {status : Nat}

theorem sendLoop_of_removed (ended : (attempt retries hc).1 = .removed) :
    (sendLoop attempt retries hc).1 = none := by
  cases retries with
  | zero => rw [sendLoop, ← Prod.mk.eta (p := attempt 0 hc), ended]
  | succ left => rw [sendLoop, ← Prod.mk.eta (p := attempt (left + 1) hc), ended]

theorem sendLoop_of_leaves (ended : (attempt retries hc).1 = .leaves status) :
    (sendLoop attempt retries hc).1 = some status := by
  cases retries with
  | zero => rw [sendLoop, ← Prod.mk.eta (p := attempt 0 hc), ended]
  | succ left => rw [sendLoop, ← Prod.mk.eta (p := attempt (left + 1) hc), ended]

theorem sendLoop_last (ended : (attempt 0 hc).1 = .retries status) :
    (sendLoop attempt 0 hc).1 = some status := by
  rw [sendLoop, ← Prod.mk.eta (p := attempt 0 hc), ended]

theorem sendLoop_again (ended : (attempt (retries + 1) hc).1 = .retries status) :
    sendLoop attempt (retries + 1) hc =
      sendLoop attempt retries (attempt (retries + 1) hc).2 := by
  conv_lhs => rw [sendLoop, ← Prod.mk.eta (p := attempt (retries + 1) hc), ended]

/-- Under an attempt that does not remove the card, nor fails, nothing is removed. -/
theorem CommandReply.not_removes {command : CommandReply}
    (stays : ¬ (command.replies retries).Removes flags)
    (last : ¬ (command.replies retries).Fails flags) : ¬ command.Removes flags retries := by
  rintro ⟨left, few, removes, earlier⟩
  rcases few.eq_or_lt with rfl | fewer
  · exact stays removes
  · exact last (earlier retries fewer le_rfl)

/-- The loop returns early exactly when the card is removed under an attempt that it makes. -/
theorem sendLoop_removed_iff (manual : hc.caps &&& HC_CAP_ACMD23 = 0) (command : CommandReply) :
    (sendLoop (fun left => attemptCmd flags timeout (command.replies left)) retries hc).1 = none ↔
      command.Removes flags retries := by
  induction retries generalizing hc with
  | zero =>
      rcases @attemptCmd_cases hc flags timeout (command.replies 0) manual with
        ⟨removes, ended⟩ | ⟨⟨fails, present, _⟩, status, ended⟩ | ⟨stays, last, status, ended⟩
      · refine iff_of_true (sendLoop_of_removed ended) ⟨0, le_rfl, removes, ?_⟩
        intro earlier above below
        exact absurd (above.trans_le below) (lt_irrefl 0)
      · rw [sendLoop_last ended]
        refine iff_of_false nofun ?_
        rintro ⟨left, few, removes, _⟩
        obtain rfl := Nat.le_zero.mp few
        exact present removes.2
      · rw [sendLoop_of_leaves ended]
        exact iff_of_false nofun (CommandReply.not_removes stays last)
  | succ retries ih =>
      rcases @attemptCmd_cases hc flags timeout (command.replies (retries + 1)) manual with
        ⟨removes, ended⟩ | ⟨fails, status, ended⟩ | ⟨stays, last, status, ended⟩
      · refine iff_of_true (sendLoop_of_removed ended) ⟨retries + 1, le_rfl, removes, ?_⟩
        intro earlier above below
        exact absurd (above.trans_le below) (lt_irrefl _)
      · have kept := attemptCmd_caps flags timeout (command.replies (retries + 1)) hc
        rw [sendLoop_again ended, ih (by rw [kept]; exact manual)]
        constructor
        · rintro ⟨left, few, removes, earlier⟩
          refine ⟨left, few.trans (Nat.le_succ _), removes, fun other above below => ?_⟩
          rcases below.eq_or_lt with rfl | less
          · exact fails
          · exact earlier other above (Nat.le_of_lt_succ less)
        · rintro ⟨left, few, removes, earlier⟩
          rcases few.eq_or_lt with rfl | fewer
          · exact absurd removes.2 fails.2.1
          · exact ⟨left, Nat.le_of_lt_succ fewer, removes, fun other above below =>
              earlier other above (below.trans (Nat.le_succ _))⟩
      · rw [sendLoop_of_leaves ended]
        exact iff_of_false nofun (CommandReply.not_removes stays last)

end Removed

/-! ## The capabilities afterwards -/

/-- The capabilities of the host controller are what they were, after a command and after a
transfer of frames. -/
def CapsKept (flags : SendFlags) (timeout retries : Nat) (command : CommandReply)
    (frames : RpmbReply) (hc : CapsHost) : Prop :=
  (sendCmd flags timeout retries command hc).2.caps = hc.caps ∧
    (mmcRpmbRw frames hc).2.caps = hc.caps

/-- The capabilities are kept, unless a card is removed under a reliable write to a host controller
that can send one of the commands by itself. -/
theorem capsKept_iff (flags : SendFlags) (timeout retries : Nat) (command : CommandReply)
    (frames : RpmbReply) (hc : CapsHost) :
    CapsKept flags timeout retries command frames hc ↔
      ¬ (flags.sbcRlw ∧ command.pm = EOK ∧ hc.caps &&& acmdMask ≠ 0 ∧
        command.Removes flags retries) := by
  have attempts : ∀ left hc,
      (attemptCmd flags timeout (command.replies left) hc).2.caps = hc.caps :=
    fun left hc => attemptCmd_caps _ _ _ _
  unfold CapsKept sendCmd
  rw [and_iff_left (mmcRpmbRw_caps frames hc)]
  cases reliable : flags.sbcRlw with
  | false =>
      exact iff_of_true (sendAround_plain attempts) fun removed => Bool.false_ne_true removed.1
  | true =>
      have manual : (hc.caps &&& ~~~acmdMask) &&& HC_CAP_ACMD23 = 0 := by
        rw [BitVec.and_assoc]
        exact BitVec.and_zero
      rw [sendAround_reliable attempts, sendLoop_removed_iff manual]
      simp only [true_and]

/-- Every step of a command comes to an end without error, but the card is removed under it. -/
def removedUnder : CommandReply where
  pm := EOK
  replies _ :=
    { issue := EOK, cstatus := CS_CARD_REMOVED, rsp := 0, isTunable := false
      appCmd := ⟨true, EOK, fun _ => ⟨EOK, CS_CMD_CMP, 0, false⟩⟩
      setBlockCount := ⟨true, EOK, fun _ => ⟨EOK, CS_CMD_CMP, 0, false⟩⟩
      wait := fun _ => (⟨true, EOK, fun _ => ⟨EOK, CS_CMD_CMP, 0, false⟩⟩, 0) }

/-- A removal under a reliable write takes away the automatic stop command. -/
theorem reliableWrite_removed :
    ¬ CapsKept ⟨⟨true, true⟩, false, false⟩ 1000 0 removedUnder
      ⟨false, false, ⟨false, EOK, fun _ => ⟨EOK, CS_CMD_CMP, 0, false⟩⟩,
        ⟨false, EOK, fun _ => ⟨EOK, CS_CMD_CMP, 0, false⟩⟩⟩ ⟨HC_CAP_ACMD12, false⟩ := by
  rintro ⟨kept, _⟩
  have cleared : (sendCmd ⟨⟨true, true⟩, false, false⟩ 1000 0 removedUnder
      ⟨HC_CAP_ACMD12, false⟩).2.caps = 0 := by decide
  rw [cleared] at kept
  exact absurd kept (by decide)

end Bcm2711.Sdmmc
