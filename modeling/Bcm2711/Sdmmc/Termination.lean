import Bcm2711.Sdio.Synchronize
import Bcm2711.Sdmmc.Requests

/-! # The end of a transfer

A card must be told where a transfer of several blocks ends: by a block count before it, or by a
stop command behind it, and the host controller can send either by itself.  `sdmmc_rw` decides
by the capabilities that it noted when the card was attached; `_sdio_send_cmd` and the host
driver decide by those of the host controller, which a reliable write takes away for the time of
its command.  A removal leaves them taken away until the next card is attached.
-/

namespace Bcm2711.Sdmmc

open Actions Sdio

def CS_CARD_REMOVED : Nat := 0x0b
def CS_CMD_TO_ERR : Nat := 0x05

/-! ## Commands -/

/-- `HC_CAP_ACMD12` and `HC_CAP_ACMD23`. -/
structure HcCaps where
  acmd12 : Bool
  acmd23 : Bool
deriving DecidableEq, Repr

/-- `caps &= ~mask`. -/
def HcCaps.clear (caps mask : HcCaps) : HcCaps :=
  ⟨caps.acmd12 && !mask.acmd12, caps.acmd23 && !mask.acmd23⟩

/-- `caps |= mask`. -/
def HcCaps.set (caps mask : HcCaps) : HcCaps :=
  ⟨caps.acmd12 || mask.acmd12, caps.acmd23 || mask.acmd23⟩

/-- What the host controller is told to send. -/
inductive BusCommand where
  /-- `MMC_SET_BLOCK_COUNT`, with `SBC_RL_WRITE` or without. -/
  | setBlockCount (blks : Nat) (reliable : Bool)
  /-- A data command, with `SDHCI_CMD_ACMD12` or `SDHCI_CMD_ACMD23`. -/
  | transfer (blks : Nat) (acmd12 acmd23 : Bool)
  | stopTransmission
  /-- A command that neither begins nor ends a transfer. -/
  | other
deriving DecidableEq, Repr

/-- How often a command tells the card where the transfer ends. -/
def BusCommand.ends : BusCommand → Nat
  | .setBlockCount _ _ => 1
  | .transfer _ acmd12 acmd23 => acmd12.toNat + acmd23.toNat
  | .stopTransmission => 1
  | .other => 0

/-- How often the commands of a call tell the card where the transfer ends. -/
def endings (bus : List BusCommand) : Nat := (bus.map BusCommand.ends).sum

/-- The flags of a command that concern the block count. -/
structure CmdFlags where
  /-- `SCF_SBC`. -/
  sbc : Bool
  /-- `SCF_SBC_RLW`. -/
  sbcRlw : Bool
deriving DecidableEq, Repr

/-- What the steps of `_sdio_send_cmd` come to. -/
structure SendReply where
  /-- `_sdio_pwrmgnt`. -/
  pm : Nat
  setBlockCount : Nat
  /-- `sdio_set_upper_addr`, where the address has an upper part. -/
  upperAddr : Option Nat
  /-- `sdio_issue_cmd`. -/
  issue : Nat
  /-- `cmd->status` and `cmd->rsp`, when the command is complete. -/
  cstatus : Nat
  rsp : Nat
deriving DecidableEq, Repr

/-- `sdhci_xfer_setup`: the automatic commands of a transfer. -/
def xferSetup (caps : HcCaps) (flags : CmdFlags) (blks : Nat) : BusCommand :=
  if 1 < blks then
    if caps.acmd23 && flags.sbc then .transfer blks false true
    else if caps.acmd12 then .transfer blks true false
    else .transfer blks false false
  else .transfer blks false false

/-- The status that the completion of a command comes to; `none` is the early return. -/
def completion (cstatus : Nat) : Option Nat :=
  if cstatus = CS_CMD_CMP then some EOK
  else if cstatus = CS_CMD_TO_ERR then some ETIMEDOUT
  else if cstatus = CS_CARD_REMOVED then none
  else some EIO

/-- The loop of `_sdio_send_cmd`, which runs once for a command without retries. -/
def sendOnce (caps : HcCaps) (flags : CmdFlags) (blks : Nat) (reply : SendReply) :
    List BusCommand × Option Nat :=
  let isExplicit := flags.sbc && !caps.acmd23
  let counted := if isExplicit then [BusCommand.setBlockCount blks flags.sbcRlw] else []
  if isExplicit ∧ reply.setBlockCount ≠ EOK then (counted, some reply.setBlockCount)
  else
    let addressed := counted ++ reply.upperAddr.toList.map fun _ => .other
    let upper := reply.upperAddr.getD EOK
    if upper ≠ EOK then (addressed, some upper)
    else
      let issued := addressed ++ [xferSetup caps flags blks]
      if reply.issue ≠ EOK then (issued, some reply.issue)
      else (issued, completion reply.cstatus)

/-- What `_sdio_send_cmd` leaves. -/
structure SendOutcome where
  /-- `hc->caps`. -/
  caps : HcCaps
  status : Nat
  bus : List BusCommand
  isRemoved : Bool
deriving DecidableEq, Repr

/-- `_sdio_send_cmd`, without retries.  The capabilities that a reliable write takes away come
back at its end, but not where the removal of the card returns early. -/
def sdioSendCmd (caps : HcCaps) (flags : CmdFlags) (blks : Nat) (reply : SendReply) :
    SendOutcome :=
  if reply.pm ≠ EOK then ⟨caps, reply.pm, [], false⟩
  else
    let acmdCaps := if flags.sbcRlw then caps else ⟨false, false⟩
    let left := caps.clear acmdCaps
    let sent := sendOnce left flags blks reply
    match sent.2 with
    | none => ⟨left, ENXIO, sent.1, true⟩
    | some status => ⟨left.set acmdCaps, status, sent.1, false⟩

/-! ## Transfers -/

/-- What the steps of `sdmmc_rw` come to. -/
structure TransferReply where
  /-- `sdio_alloc_cmd` returns a command. -/
  hasCmd : Bool
  send : SendReply
  /-- `sdio_send_status` after a failure, and its response. -/
  sendStatus : Nat × Nat
  /-- `sdio_stop_transmission`. -/
  stop : Nat
  /-- `sdio_wait_card_status`, and its response. -/
  wait : Nat × Nat
  /-- `DEV_CAP_CMD23`, as `sdio_dev_info` reads it after a failure. -/
  cmd23 : Bool
deriving DecidableEq, Repr

/-- A call of `sdmmc_rw` that sent its command. -/
structure RwCall where
  blks : Nat
  status : Nat
  bus : List BusCommand
deriving DecidableEq, Repr

/-- Where `sdio_cd` is with the removal of a card. -/
inductive RemovalAt where
  | outside
  /-- It has cleared the flags of the card. -/
  | cleared
  /-- It has marked the device and waits for its clients. -/
  | marked
deriving DecidableEq, Repr

/-- A host controller, the card in its slot, and what the driver knows of both. -/
structure Host where
  /-- `hc->caps`. -/
  caps : HcCaps
  /-- `ext->hc_inf.caps`. -/
  hcInf : HcCaps
  /-- `DEV_CAP_CMD23` of `ext->dev_inf`. -/
  cmd23 : Bool
  sectorSize : Nat
  /-- The card is of type `DEV_TYPE_SD`. -/
  isSd : Bool
  /-- The driver is attached to a device. -/
  isAttached : Bool
  device : Device
  removal : RemovalAt
  calls : List RwCall
deriving DecidableEq, Repr

namespace Host

/-- A host controller with an empty slot. -/
def initial (caps : HcCaps) : Host :=
  ⟨caps, ⟨false, false⟩, false, 0, false, false, ⟨false, false, false, 0⟩, .outside, []⟩

variable (host : Host)

/-- The flags of the command of a transfer. -/
def cmdFlags (flgs : Sim.RwFlags) (dlen : Nat) : CmdFlags where
  sbc := flgs.sbcRlw ||
    (decide (host.sectorSize < dlen) && !host.hcInf.acmd12 && host.cmd23)
  sbcRlw := flgs.sbcRlw

/-- `sdmmc_rw`, after a command that failed. -/
def afterFailure (status : Nat) (reply : TransferReply) : Nat × List BusCommand :=
  if reply.sendStatus.1 ≠ EOK || !readyInTran reply.sendStatus.2 then
    (if reply.stop ≠ EOK then ETIMEDOUT else status, [.other, .stopTransmission])
  else (status, [.other])

/-- `sdmmc_rw`, after a command that succeeded: the stop that nobody else sends, and the wait
after a write. -/
def afterSuccess (flgs : Sim.RwFlags) (dlen : Nat) (reply : TransferReply) :
    Nat × Nat × List BusCommand :=
  let stops := !(host.cmdFlags flgs dlen).sbc && decide (host.sectorSize < dlen) &&
    !host.hcInf.acmd12
  let stop := if stops then [BusCommand.stopTransmission] else []
  if stops && reply.stop ≠ EOK then (ETIMEDOUT, reply.send.rsp, stop)
  else if flgs.dirOut then
    (reply.wait.1, reply.wait.2,
      stop ++ BusCommand.other ::
        if reply.wait.1 ≠ EOK then [BusCommand.stopTransmission] else [])
  else (EOK, reply.send.rsp, stop)

/-- The end of `sdmmc_rw`, with the response and the commands so far. -/
def finishRw (flgs : Sim.RwFlags) (dlen : Nat) (reply : TransferReply) (status rsp : Nat)
    (bus : List BusCommand) : Host :=
  let last := Sim.judged status reply.send.cstatus rsp
  let disable := last = ETIMEDOUT ∧ (host.cmdFlags flgs dlen).sbc = true ∧ host.isSd = true
  { host with
    cmd23 := if last = EOK then host.cmd23 else if disable then false else reply.cmd23
    calls := ⟨dlen / host.sectorSize, last, bus⟩ :: host.calls }

/-- `sdmmc_rw`.  The event of a removal comes before the command is complete. -/
def sdmmcRw (flgs : Sim.RwFlags) (dlen : Nat) (reply : TransferReply) : Host :=
  if !reply.hasCmd then host
  else if (sdioSynchronize host.device true 1).1 ≠ .eok then host
  else
    let sent := sdioSendCmd host.caps (host.cmdFlags flgs dlen) (dlen / host.sectorSize) reply.send
    let after := { host with
      caps := sent.caps
      device := { host.device with mediaChange := host.device.mediaChange || sent.isRemoved } }
    if sent.status = ENXIO then
      { after with calls := ⟨dlen / host.sectorSize, ENXIO, sent.bus⟩ :: host.calls }
    else if sent.status ≠ EOK then
      let failed := afterFailure sent.status reply
      after.finishRw flgs dlen reply failed.1 reply.sendStatus.2 (sent.bus ++ failed.2)
    else
      let done := host.afterSuccess flgs dlen reply
      after.finishRw flgs dlen reply done.1 done.2.1 (sent.bus ++ done.2.2)

/-- The flags that `sdio_cd` clears when the card has changed or gone. -/
def detected (inserted : Bool) : Host :=
  if host.device.mediaChange ∨ inserted = false then
    { host with
      device := { host.device with mediaChange := false, isPresent := false }
      removal := if host.device.isPresent then .cleared else .outside }
  else host

/-- `_sdio_attach` and `sdmmc_attach`: the errata of the card may take `HC_CAP_ACMD12` away
before the driver notes the capabilities. -/
def attached (noAcmd12 cmd23 isSd : Bool) (sectorSize : Nat) : Host :=
  let caps : HcCaps := { host.caps with acmd12 := host.caps.acmd12 && !noAcmd12 }
  { host with
    caps
    hcInf := caps
    cmd23
    sectorSize
    isSd
    isAttached := true
    device := ⟨false, false, true, 0⟩ }

end Host

/-- What happens to a host controller.  The removal of a device joins the thread that makes the
transfers, so that no card is attached in the middle of one. -/
inductive HostAction where
  /-- `sdmmc_rw`, with a positive number of whole blocks. -/
  | rw (flgs : Sim.RwFlags) (dlen : Nat) (reply : TransferReply)
  /-- `sdio_hc_event( hc, HC_EV_CD )`. -/
  | mediaEvent
  /-- `sdio_cd` reads whether a card is inserted. -/
  | detect (inserted : Bool)
  /-- `sdio_cd` sets `DEV_FLAG_RMV_PENDING`. -/
  | mark
  /-- `sdmmc_detach`. -/
  | detach
  | attach (noAcmd12 cmd23 isSd : Bool) (sectorSize : Nat)
deriving DecidableEq, Repr

namespace Host

/-- One action. -/
def act (host : Host) : HostAction → Option Host
  | .rw flgs dlen reply =>
      if host.isAttached ∧ 0 < dlen ∧ dlen % host.sectorSize = 0 then
        some (host.sdmmcRw flgs dlen reply)
      else none
  | .mediaEvent => some { host with device := { host.device with mediaChange := true } }
  | .detect inserted =>
      if host.removal = .outside then some (host.detected inserted) else none
  | .mark =>
      if host.removal = .cleared then
        some { host with
          removal := .marked, device := { host.device with rmvPending := true } }
      else none
  | .detach =>
      if host.removal = .marked then
        some { host with removal := .outside, isAttached := false }
      else none
  | .attach noAcmd12 cmd23 isSd sectorSize =>
      if host.removal = .outside ∧ host.isAttached = false then
        some (host.attached noAcmd12 cmd23 isSd sectorSize)
      else none

/-- Every transfer of several blocks that returned without an error was ended exactly once. -/
def EndsOnce (host : Host) : Prop :=
  ∀ call ∈ host.calls, call.status = EOK → 1 < call.blks → endings call.bus = 1

/-- No transfer starts between the two steps of `sdio_cd` while the driver's note of
`HC_CAP_ACMD12` is out of date. -/
def upToDate (host : Host) : HostAction → Prop
  | .rw _ _ _ => host.removal = .cleared → host.caps.acmd12 = host.hcInf.acmd12
  | _ => True

/-- What holds between the actions: the note is out of date only while the card layer refuses
the driver's calls or `sdio_cd` is between its two steps. -/
structure Tracked (host : Host) : Prop where
  noted : host.isAttached = true → host.caps.acmd12 = host.hcInf.acmd12 ∨
    host.device.mediaChange = true ∨ host.device.rmvPending = true ∨ host.removal = .cleared
  present : host.isAttached = true → host.removal = .outside → host.device.isPresent = true
  marked : host.removal = .marked → host.device.rmvPending = true
  ends : host.EndsOnce

end Host

/-! ## One transfer -/

theorem endings_append (first second : List BusCommand) :
    endings (first ++ second) = endings first + endings second := by
  rw [endings, List.map_append, List.sum_append]
  rfl

section Command

variable {caps : HcCaps} {flags : CmdFlags} {blks : Nat} {reply : SendReply}

/-- A command that went through sent a block count where the host controller does not, and its
transfer. -/
theorem sendOnce_success (succeeded : (sendOnce caps flags blks reply).2 = some EOK) :
    endings (sendOnce caps flags blks reply).1 =
      (flags.sbc && !caps.acmd23).toNat + (xferSetup caps flags blks).ends := by
  unfold sendOnce at succeeded ⊢
  dsimp only at succeeded ⊢
  split at succeeded
  · next refused => exact absurd (Option.some.inj succeeded) refused.2
  · next counted =>
      rw [if_neg counted]
      split at succeeded
      · next refused => exact absurd (Option.some.inj succeeded) refused
      · next addressed =>
          rw [if_neg addressed]
          have upper : endings (reply.upperAddr.toList.map fun _ => BusCommand.other) = 0 := by
            cases reply.upperAddr <;> rfl
          have count : endings (if flags.sbc && !caps.acmd23 then
              [BusCommand.setBlockCount blks flags.sbcRlw] else []) =
                (flags.sbc && !caps.acmd23).toNat := by
            cases flags.sbc && !caps.acmd23 <;> rfl
          have data : endings [xferSetup caps flags blks] = (xferSetup caps flags blks).ends :=
            Nat.add_zero _
          split at succeeded
          · next failed => exact absurd (Option.some.inj succeeded) failed
          · next issued =>
              rw [if_neg issued, endings_append, endings_append, count, upper, data, Nat.add_zero]

/-- The capabilities that were taken away come back. -/
theorem HcCaps.restored (caps : HcCaps) (reliable : Bool) :
    let acmdCaps : HcCaps := if reliable then caps else ⟨false, false⟩
    (caps.clear acmdCaps).set acmdCaps = caps := by
  obtain ⟨acmd12, acmd23⟩ := caps
  cases reliable <;> cases acmd12 <;> cases acmd23 <;> rfl

/-- The capabilities are the same behind a command, unless the card was removed. -/
theorem sdioSendCmd_caps (stays : (sdioSendCmd caps flags blks reply).isRemoved = false) :
    (sdioSendCmd caps flags blks reply).caps = caps := by
  unfold sdioSendCmd at stays ⊢
  split
  · rfl
  · next powered =>
      rw [if_neg powered] at stays
      dsimp only at stays ⊢
      split
      · next sent =>
          rw [sent] at stays
          cases stays
      · exact caps.restored flags.sbcRlw

/-- The command layer and the host controller together tell the end of a transfer of several
blocks once, or leave it to the caller. -/
theorem ends_several (several : 1 < blks) (reliable : flags.sbcRlw = true → flags.sbc = true)
    (plain : flags.sbc = true → flags.sbcRlw = true ∨ caps.acmd12 = false) :
    let left := caps.clear (if flags.sbcRlw then caps else ⟨false, false⟩)
    (flags.sbc && !left.acmd23).toNat + (xferSetup left flags blks).ends =
      (flags.sbc || caps.acmd12).toNat := by
  obtain ⟨acmd12, acmd23⟩ := caps
  obtain ⟨sbc, sbcRlw⟩ := flags
  intro left
  rw [xferSetup, if_pos several]
  cases sbcRlw with
  | true =>
      cases reliable rfl
      have none : left = ⟨false, false⟩ := by
        cases acmd12 <;> cases acmd23 <;> rfl
      rw [none]
      rfl
  | false =>
      have all : left = ⟨acmd12, acmd23⟩ := by
        cases acmd12 <;> cases acmd23 <;> rfl
      rw [all]
      cases sbc with
      | true =>
          have noStop : acmd12 = false := (plain rfl).resolve_left nofun
          rw [noStop]
          cases acmd23 <;> rfl
      | false => cases acmd12 <;> cases acmd23 <;> rfl

/-- The end of a transfer of several blocks that went through was told exactly where it has a
block count or the host controller stops it. -/
theorem sdioSendCmd_success (several : 1 < blks)
    (reliable : flags.sbcRlw = true → flags.sbc = true)
    (plain : flags.sbc = true → flags.sbcRlw = true ∨ caps.acmd12 = false)
    (succeeded : (sdioSendCmd caps flags blks reply).status = EOK) :
    endings (sdioSendCmd caps flags blks reply).bus = (flags.sbc || caps.acmd12).toNat := by
  unfold sdioSendCmd at succeeded ⊢
  split at succeeded
  · next off => exact absurd succeeded off
  · next powered =>
      rw [if_neg powered]
      dsimp only at succeeded ⊢
      split at succeeded
      · cases succeeded
      · next status sent =>
          refine (sendOnce_success ?_).trans (ends_several several reliable plain)
          rw [sent]
          exact congrArg some succeeded

end Command

/-- The flags of a response never make a failure a success. -/
theorem judged_eq_EOK {status cstatus rsp : Nat} (succeeded : Sim.judged status cstatus rsp = EOK) :
    status = EOK := by
  unfold Sim.judged at succeeded
  split at succeeded
  · cases succeeded
  · split at succeeded
    · cases succeeded
    · split at succeeded
      · cases succeeded
      · split at succeeded
        · cases succeeded
        · split at succeeded
          · cases succeeded
          · exact succeeded

namespace Host

section Transfer

variable {host : Host} {flgs : Sim.RwFlags} {dlen : Nat} {reply : TransferReply}

/-- A transfer that ended well was stopped by `sdmmc_rw` where it noted that nobody else does. -/
theorem afterSuccess_ends (several : host.sectorSize < dlen)
    (succeeded : (host.afterSuccess flgs dlen reply).1 = EOK) :
    endings (host.afterSuccess flgs dlen reply).2.2 =
      (!(host.cmdFlags flgs dlen).sbc && !host.hcInf.acmd12).toNat := by
  have longer : decide (host.sectorSize < dlen) = true := decide_eq_true several
  unfold afterSuccess at succeeded ⊢
  dsimp only at succeeded ⊢
  rw [longer, Bool.and_true] at succeeded ⊢
  have stop : ∀ stops : Bool,
      endings (if stops then [BusCommand.stopTransmission] else []) = stops.toNat := by
    intro stops
    cases stops <;> rfl
  split at succeeded
  · cases succeeded
  · next stopped =>
      rw [if_neg stopped]
      split at succeeded
      · next writes =>
          dsimp only at succeeded
          rw [if_pos writes, succeeded, if_neg (not_not.mpr rfl), endings_append, stop]
          rfl
      · next reads =>
          rw [if_neg reads]
          exact stop _

/-- An error-free transfer of several blocks is ended once while the note is up to date. -/
theorem ended_once (several : 1 < dlen / host.sectorSize)
    (noted : host.caps.acmd12 = host.hcInf.acmd12)
    (sent : (sdioSendCmd host.caps (host.cmdFlags flgs dlen) (dlen / host.sectorSize)
      reply.send).status = EOK)
    (done : (host.afterSuccess flgs dlen reply).1 = EOK) :
    endings ((sdioSendCmd host.caps (host.cmdFlags flgs dlen) (dlen / host.sectorSize)
      reply.send).bus ++ (host.afterSuccess flgs dlen reply).2.2) = 1 := by
  have longer : host.sectorSize < dlen := by
    by_contra short
    refine absurd several (not_lt.mpr (Nat.div_le_of_le_mul ?_))
    rw [Nat.mul_one]
    exact not_lt.mp short
  have reliable : (host.cmdFlags flgs dlen).sbcRlw = true →
      (host.cmdFlags flgs dlen).sbc = true := by
    intro isReliable
    exact Bool.or_eq_true_iff.mpr (.inl isReliable)
  have plain : (host.cmdFlags flgs dlen).sbc = true →
      (host.cmdFlags flgs dlen).sbcRlw = true ∨ host.caps.acmd12 = false := by
    intro counted
    refine (Bool.or_eq_true_iff.mp counted).imp id fun noStop => ?_
    rw [noted]
    have both := (Bool.and_eq_true_iff.mp noStop).1
    exact Bool.eq_false_of_not_eq_true' (Bool.and_eq_true_iff.mp both).2
  rw [endings_append, sdioSendCmd_success several reliable plain sent,
    afterSuccess_ends longer done, ← noted]
  cases (host.cmdFlags flgs dlen).sbc <;> cases host.caps.acmd12 <;> rfl

/-- What a transfer that sent its command leaves. -/
structure Sent (host : Host) (flgs : Sim.RwFlags) (dlen : Nat) (reply : TransferReply)
    (after : Host) : Prop where
  quiet : host.device.mediaChange = false ∧ host.device.rmvPending = false
  caps : after.caps = host.caps ∨ after.device.mediaChange = true
  hcInf : after.hcInf = host.hcInf
  isAttached : after.isAttached = host.isAttached
  removal : after.removal = host.removal
  isPresent : after.device.isPresent = host.device.isPresent
  rmvPending : after.device.rmvPending = host.device.rmvPending
  calls : ∃ call, after.calls = call :: host.calls ∧ call.blks = dlen / host.sectorSize ∧
    (call.status = EOK →
      (sdioSendCmd host.caps (host.cmdFlags flgs dlen) (dlen / host.sectorSize)
        reply.send).status = EOK ∧ (host.afterSuccess flgs dlen reply).1 = EOK ∧
      call.bus = (sdioSendCmd host.caps (host.cmdFlags flgs dlen) (dlen / host.sectorSize)
        reply.send).bus ++ (host.afterSuccess flgs dlen reply).2.2)

/-- The card layer refuses the calls of a device whose removal it has seen. -/
theorem quiet_of_eok (answered : (sdioSynchronize host.device true 1).1 = .eok) :
    host.device.mediaChange = false ∧ host.device.rmvPending = false := by
  unfold sdioSynchronize at answered
  rw [if_neg nofun, if_pos Int.one_nonneg] at answered
  split at answered
  · cases answered
  · next idle =>
      rw [not_or, Bool.not_eq_true, Bool.not_eq_true] at idle
      exact idle.symm

/-- A failure stays a failure. -/
theorem afterFailure_ne {status : Nat} (failed : status ≠ EOK) :
    (afterFailure status reply).1 ≠ EOK := by
  unfold afterFailure
  split
  · dsimp only
    split
    · exact nofun
    · exact failed
  · exact failed

/-- `sdmmc_rw` sends its command or does nothing. -/
theorem sdmmcRw_cases :
    host.sdmmcRw flgs dlen reply = host ∨
      Sent host flgs dlen reply (host.sdmmcRw flgs dlen reply) := by
  unfold sdmmcRw
  split
  · exact .inl rfl
  · split
    · exact .inl rfl
    · next opened =>
        right
        have quiet := quiet_of_eok (not_not.mp opened)
        have caps : (sdioSendCmd host.caps (host.cmdFlags flgs dlen) (dlen / host.sectorSize)
              reply.send).caps = host.caps ∨
            (host.device.mediaChange || (sdioSendCmd host.caps (host.cmdFlags flgs dlen)
              (dlen / host.sectorSize) reply.send).isRemoved) = true := by
          cases removed : (sdioSendCmd host.caps (host.cmdFlags flgs dlen)
              (dlen / host.sectorSize) reply.send).isRemoved with
          | false => exact .inl (sdioSendCmd_caps removed)
          | true => exact .inr (Bool.or_true _)
        dsimp only
        split
        · exact ⟨quiet, caps, rfl, rfl, rfl, rfl, rfl, _, rfl, rfl, nofun⟩
        · split
          · next failed =>
              refine ⟨quiet, caps, rfl, rfl, rfl, rfl, rfl, _, rfl, rfl, fun succeeded => ?_⟩
              exact absurd (judged_eq_EOK succeeded) (afterFailure_ne failed)
          · next succeeded =>
              refine ⟨quiet, caps, rfl, rfl, rfl, rfl, rfl, _, rfl, rfl, fun fine => ?_⟩
              exact ⟨not_not.mp succeeded, judged_eq_EOK fine, rfl⟩

end Transfer

/-! ## Whole runs -/

section Runs

variable {caps : HcCaps} {host after : Host} {action : HostAction}

theorem tracked_initial : (initial caps).Tracked where
  noted := nofun
  present := nofun
  marked := nofun
  ends := nofun

/-- A transfer keeps what holds between the actions. -/
theorem Tracked.rw {flgs : Sim.RwFlags} {dlen : Nat} {reply : TransferReply}
    (tracked : host.Tracked) (isAttached : host.isAttached = true)
    (noted : host.removal = .cleared → host.caps.acmd12 = host.hcInf.acmd12) :
    (host.sdmmcRw flgs dlen reply).Tracked := by
  rcases sdmmcRw_cases with same | sent
  · rw [same]
    exact tracked
  · obtain ⟨noChange, notPending⟩ := sent.quiet
    have agrees : host.caps.acmd12 = host.hcInf.acmd12 := by
      rcases tracked.noted isAttached with agrees | changed | pending | cleared
      · exact agrees
      · rw [noChange] at changed
        cases changed
      · rw [notPending] at pending
        cases pending
      · exact noted cleared
    refine ⟨fun _ => ?_, fun still outside => ?_, fun marked => ?_, ?_⟩
    · rcases sent.caps with same | changed
      · rw [same, sent.hcInf]
        exact .inl agrees
      · exact .inr (.inl changed)
    · rw [sent.isPresent]
      exact tracked.present isAttached (sent.removal.symm.trans outside)
    · rw [sent.rmvPending]
      exact tracked.marked (sent.removal.symm.trans marked)
    · obtain ⟨call, isCalls, isBlks, ended⟩ := sent.calls
      intro other member succeeded several
      rw [isCalls] at member
      rcases List.mem_cons.mp member with rfl | earlier
      · obtain ⟨sends, done, isBus⟩ := ended succeeded
        rw [isBlks] at several
        rw [isBus]
        exact ended_once several agrees sends done
      · exact tracked.ends other earlier succeeded several

/-- Every action keeps what holds between the actions. -/
theorem Tracked.act (tracked : host.Tracked) (isUpToDate : host.upToDate action)
    (acted : host.act action = some after) : after.Tracked := by
  cases action with
  | rw flgs dlen reply =>
      obtain ⟨possible, ⟨⟩⟩ := Option.ite_none_right_eq_some.mp acted
      exact tracked.rw possible.1 isUpToDate
  | mediaEvent =>
      cases acted
      exact ⟨fun _ => .inr (.inl rfl), tracked.present, tracked.marked, tracked.ends⟩
  | detect inserted =>
      obtain ⟨outside, ⟨⟩⟩ := Option.ite_none_right_eq_some.mp acted
      unfold detected
      split
      · refine ⟨fun isAttached => ?_, fun isAttached isOutside => ?_, fun marked => ?_,
          tracked.ends⟩
        · rw [if_pos (tracked.present isAttached outside)]
          exact .inr (.inr (.inr rfl))
        · rw [if_pos (tracked.present isAttached outside)] at isOutside
          cases isOutside
        · dsimp only at marked
          split at marked
          · cases marked
          · cases marked
      · exact tracked
  | mark =>
      obtain ⟨_, ⟨⟩⟩ := Option.ite_none_right_eq_some.mp acted
      exact ⟨fun _ => .inr (.inr (.inl rfl)), fun _ => nofun, fun _ => rfl, tracked.ends⟩
  | detach =>
      obtain ⟨_, ⟨⟩⟩ := Option.ite_none_right_eq_some.mp acted
      exact ⟨nofun, nofun, nofun, tracked.ends⟩
  | attach noAcmd12 cmd23 isSd sectorSize =>
      obtain ⟨possible, ⟨⟩⟩ := Option.ite_none_right_eq_some.mp acted
      refine ⟨fun _ => .inl rfl, fun _ _ => rfl, fun marked => ?_, tracked.ends⟩
      rw [attached, possible.1] at marked
      cases marked

/-- In every run without a transfer between the two steps of `sdio_cd` while the note is out of
date, every error-free transfer of several blocks was ended exactly once. -/
theorem transfers_end_once (reached : Reaches Host.act Host.upToDate (initial caps) host) :
    host.EndsOnce := by
  have tracked : host.Tracked := reached.invariant Tracked tracked_initial
    fun _ _ _ tracked isUpToDate acted => tracked.act isUpToDate acted
  exact tracked.ends

/-- What the steps of a transfer of two blocks come to when its command completes so. -/
def completes (cstatus : Nat) : TransferReply :=
  ⟨true, ⟨EOK, EOK, none, EOK, cstatus, 0⟩, (EOK, 0), EOK, (EOK, 0), true⟩

/-- A host controller with both automatic commands, and a card with `CMD23`. -/
def withCard : Host := (initial ⟨true, true⟩).attached false true true 512

/-- A reliable write has seen the removal of the card. -/
def removedInWrite : Host := withCard.sdmmcRw ⟨true, true⟩ 1024 (completes CS_CARD_REMOVED)

theorem reaches_removedInWrite :
    Reaches Host.act Host.upToDate (initial ⟨true, true⟩) removedInWrite := by
  have attaches : (initial ⟨true, true⟩).act (.attach false true true 512) = some withCard := rfl
  have writes : withCard.act (.rw ⟨true, true⟩ 1024 (completes CS_CARD_REMOVED)) =
      some removedInWrite := rfl
  exact (Reaches.refl.next attaches trivial).next writes nofun

/-- The card has been taken off and attached again. -/
def insertedAgain : Host :=
  { removedInWrite.detected true with removal := .outside, isAttached := false }.attached
    false true true 512

theorem reaches_insertedAgain :
    Reaches Host.act Host.upToDate (initial ⟨true, true⟩) insertedAgain := by
  have detects : removedInWrite.act (.detect true) = some (removedInWrite.detected true) := rfl
  have marks : (removedInWrite.detected true).act .mark = some { removedInWrite.detected true with
    removal := .marked, device := ⟨true, false, false, 0⟩ } := rfl
  have detaches : Host.act { removedInWrite.detected true with
      removal := .marked, device := ⟨true, false, false, 0⟩ } .detach =
        some { removedInWrite.detected true with
          removal := .outside, isAttached := false, device := ⟨true, false, false, 0⟩ } := rfl
  have attaches : Host.act { removedInWrite.detected true with
      removal := .outside, isAttached := false, device := ⟨true, false, false, 0⟩ }
        (.attach false true true 512) = some insertedAgain := rfl
  have cleared := reaches_removedInWrite.next detects trivial
  have marked := cleared.next marks trivial
  exact (marked.next detaches trivial).next attaches trivial

/-- After the card was removed in a reliable write and attached again, a read of two blocks goes
through with a block count before it. -/
theorem insertedAgain_endsOnce :
    (insertedAgain.sdmmcRw ⟨false, false⟩ 1024 (completes CS_CMD_CMP)).EndsOnce ∧
      (insertedAgain.sdmmcRw ⟨false, false⟩ 1024 (completes CS_CMD_CMP)).calls.head? =
        some ⟨2, EOK, [.setBlockCount 2 false, .transfer 2 false false]⟩ := by
  have reads : insertedAgain.act (.rw ⟨false, false⟩ 1024 (completes CS_CMD_CMP)) =
      some (insertedAgain.sdmmcRw ⟨false, false⟩ 1024 (completes CS_CMD_CMP)) := rfl
  exact ⟨transfers_end_once (reaches_insertedAgain.next reads nofun), rfl⟩

/-- A read of two blocks between the two steps of `sdio_cd`, after a reliable write has seen the
removal, goes through and is not ended. -/
theorem read_never_ended : ¬ ∀ host : Host,
    Reaches Host.act always (initial ⟨true, true⟩) host → host.EndsOnce := by
  intro endsOnce
  have attaches : (initial ⟨true, true⟩).act (.attach false true true 512) = some withCard := rfl
  have writes : withCard.act (.rw ⟨true, true⟩ 1024 (completes CS_CARD_REMOVED)) =
      some removedInWrite := rfl
  have detects : removedInWrite.act (.detect true) = some (removedInWrite.detected true) := rfl
  have reads : (removedInWrite.detected true).act
      (.rw ⟨false, false⟩ 1024 (completes CS_CMD_CMP)) =
        some ((removedInWrite.detected true).sdmmcRw ⟨false, false⟩ 1024
          (completes CS_CMD_CMP)) := rfl
  have attached : Reaches Host.act always (initial ⟨true, true⟩) withCard :=
    Reaches.refl.next attaches trivial
  have cleared := (attached.next writes trivial).next detects trivial
  have never : (0 : Nat) = 1 :=
    endsOnce _ (cleared.next reads trivial) _ List.mem_cons_self rfl Nat.one_lt_two
  exact Nat.zero_ne_one never

end Runs

end Host

end Bcm2711.Sdmmc
