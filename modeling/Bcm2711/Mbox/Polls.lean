import Bcm2711.Lib.Walk
import Bcm2711.Mbox.Replies

/-! # The waits of a mailbox message

`mbox_msg` of the utility waits for room, for the send to be accepted and for its reply, and counts
the polls of each wait.  The second wait sets its count back with each poll.
-/

namespace Bcm2711.Mbox

open Walks

def MBOX_STATUS_FULL : Nat := 0x80000000
def MBOX_STATUS_EMPTY : Nat := 0x40000000

/-- The most polls of a wait that do not end it. -/
def WAIT_POLLS : Nat := 5000

/-- What the device answers: each read of the status of either mailbox, each read of a word, and the
buffer of the message at that read. -/
structure Device where
  /-- `mbox[1].status`. -/
  sendStatus : Nat → Nat
  /-- `mbox[0].status`. -/
  replyStatus : Nat → Nat
  word : Nat → Nat
  buffer : Nat → Buffer

/-- A poll finds room to send. -/
def Device.HasRoom (device : Device) (poll : Nat) : Prop :=
  device.sendStatus poll &&& MBOX_STATUS_FULL = 0

instance (device : Device) (poll : Nat) : Decidable (device.HasRoom poll) :=
  inferInstanceAs (Decidable (_ = _))

/-- The waits of `mbox_msg`, each with `wait_cnt`. -/
inductive Wait where
  | space (waitCnt : Nat)
  | sent (waitCnt : Nat)
  | reply (waitCnt : Nat)
deriving DecidableEq, Repr

/-- A wait before a poll, with the reads of the registers before and the word that is sent. -/
structure Point where
  wait : Wait
  sendPolls : Nat
  replyPolls : Nat
  reads : Nat
  posted : Option Nat
deriving DecidableEq, Repr

/-- A poll that does not end its wait: one more, or the wait is given up. -/
def pollAgain (waitCnt : Nat) (error : Int) (again : Nat → Point) :
    Turn Point (Int × List UInt8) :=
  if WAIT_POLLS < waitCnt + 1 then .ends (error, []) else .goes (again (waitCnt + 1))

/-- `mbox_msg` from one poll to the next. -/
def msgTurn (tag : Nat) (buf : List UInt8) (physaddr : Nat) (device : Device) (point : Point) :
    Turn Point (Int × List UInt8) :=
  match point.wait with
  | .space waitCnt =>
      let next := { point with sendPolls := point.sendPolls + 1 }
      if device.HasRoom point.sendPolls then
        .goes { next with wait := .sent waitCnt, posted := some (sendWord physaddr) }
      else pollAgain waitCnt (-1) fun waitCnt => { next with wait := .space waitCnt }
  | .sent _ =>
      let waitCnt := 0
      let next := { point with sendPolls := point.sendPolls + 1 }
      if device.HasRoom point.sendPolls then
        .goes { next with wait := .reply 0 }
      else pollAgain waitCnt (-2) fun waitCnt => { next with wait := .sent waitCnt }
  | .reply waitCnt =>
      let next := { point with replyPolls := point.replyPolls + 1 }
      if device.replyStatus point.replyPolls &&& MBOX_STATUS_EMPTY = 0 then
        if channel (device.word point.reads) = MBOX_SEND_CHANNEL then
          .ends ((Request.message tag buf).finish (device.buffer point.reads))
        else .goes { next with wait := .reply 0, reads := point.reads + 1 }
      else pollAgain waitCnt (-3) fun waitCnt => { next with wait := .reply waitCnt }

/-- `mbox_msg` behind the message. -/
def msgStart : Point := ⟨.space 0, 0, 0, 0, none⟩

/-- The call comes to a poll. -/
def ComesTo (tag : Nat) (buf : List UInt8) (physaddr : Nat) (device : Device) (point : Point) :
    Prop :=
  Relation.ReflTransGen (Leads (msgTurn tag buf physaddr device)) msgStart point

/-- There is a bound on the polls for each word that is read. -/
def PollsBounded (tag : Nat) (buf : List UInt8) (physaddr : Nat) (device : Device) : Prop :=
  ∃ bound, ∀ point, ComesTo tag buf physaddr device point →
    point.sendPolls + point.replyPolls ≤ bound * (point.reads + 1)

variable {tag physaddr : Nat} {buf : List UInt8} {device : Device} {point next : Point}

/-! ## Waits that end -/

/-- Where the call is when the wait for the send ends with a poll at the latest. -/
def Ending (device : Device) (last : Nat) (point : Point) : Prop :=
  match point.wait with
  | .space waitCnt =>
      point.sendPolls = waitCnt ∧ waitCnt ≤ WAIT_POLLS ∧ point.replyPolls = 0 ∧
        ∀ poll < waitCnt, ¬ device.HasRoom poll
  | .sent _ => point.sendPolls ≤ last ∧ device.HasRoom last ∧ point.replyPolls = 0
  | .reply waitCnt =>
      point.sendPolls ≤ last + 1 ∧ waitCnt ≤ WAIT_POLLS ∧
        point.replyPolls ≤ (WAIT_POLLS + 1) * point.reads + waitCnt

theorem pollAgain_goes {waitCnt : Nat} {error : Int} {again : Nat → Point}
    (goes : pollAgain waitCnt error again = .goes next) :
    waitCnt + 1 ≤ WAIT_POLLS ∧ next = again (waitCnt + 1) := by
  unfold pollAgain at goes
  split at goes
  · cases goes
  · next more =>
    cases goes
    exact ⟨not_lt.mp more, rfl⟩

/-- A poll keeps it, where the first poll with room leads to a later one. -/
theorem ending_step {last : Nat}
    (leads : ∀ first ≤ WAIT_POLLS, device.HasRoom first →
      (∀ poll < first, ¬ device.HasRoom poll) → first < last ∧ device.HasRoom last)
    (ending : Ending device last point)
    (goes : msgTurn tag buf physaddr device point = .goes next) : Ending device last next := by
  obtain ⟨wait, sendPolls, replyPolls, reads, posted⟩ := point
  unfold msgTurn at goes
  cases wait with
  | space waitCnt =>
      obtain ⟨same, few, none, full⟩ := ending
      dsimp only at goes same few none full
      subst same
      split at goes
      · next room =>
        cases goes
        obtain ⟨later, lastRoom⟩ := leads _ few room full
        exact ⟨later, lastRoom, none⟩
      · next noRoom =>
        obtain ⟨more, rfl⟩ := pollAgain_goes goes
        refine ⟨rfl, more, none, ?_⟩
        intro poll before
        rcases Nat.lt_succ_iff_lt_or_eq.mp before with earlier | rfl
        · exact full poll earlier
        · exact noRoom
  | sent waitCnt =>
      obtain ⟨upTo, lastRoom, none⟩ := ending
      dsimp only at goes upTo none
      split at goes
      · cases goes
        refine ⟨Nat.succ_le_succ upTo, Nat.zero_le _, ?_⟩
        dsimp only
        omega
      · next noRoom =>
        obtain ⟨_, rfl⟩ := pollAgain_goes goes
        have other : sendPolls ≠ last := by
          rintro rfl
          exact noRoom lastRoom
        exact ⟨lt_of_le_of_ne upTo other, lastRoom, none⟩
  | reply waitCnt =>
      obtain ⟨upTo, few, polls⟩ := ending
      dsimp only at goes upTo polls
      split at goes
      · split at goes
        · cases goes
        · cases goes
          refine ⟨upTo, Nat.zero_le _, ?_⟩
          dsimp only
          rw [Nat.mul_succ]
          omega
      · obtain ⟨more, rfl⟩ := pollAgain_goes goes
        refine ⟨upTo, more, ?_⟩
        dsimp only
        omega

/-- Where the waits end there is a bound. -/
theorem bounded_of_leads {last : Nat}
    (leads : ∀ first ≤ WAIT_POLLS, device.HasRoom first →
      (∀ poll < first, ¬ device.HasRoom poll) → first < last ∧ device.HasRoom last) :
    PollsBounded tag buf physaddr device := by
  refine ⟨last + 2 * WAIT_POLLS + 2, ?_⟩
  intro point comes
  have ending : Ending device last point := by
    induction comes with
    | refl => exact ⟨rfl, Nat.zero_le _, rfl, nofun⟩
    | tail _ goes ih => exact ending_step leads ih goes
  have once : last + 2 * WAIT_POLLS + 2 ≤ (last + 2 * WAIT_POLLS + 2) * (point.reads + 1) :=
    Nat.le_mul_of_pos_right _ (Nat.succ_pos _)
  have each : (WAIT_POLLS + 1) * point.reads ≤ (last + 2 * WAIT_POLLS + 2) * point.reads :=
    Nat.mul_le_mul_right _ (by omega)
  obtain ⟨wait, sendPolls, replyPolls, reads, posted⟩ := point
  cases wait with
  | space waitCnt =>
      obtain ⟨same, few, none, _⟩ := ending
      dsimp only at *
      omega
  | sent waitCnt =>
      obtain ⟨upTo, _, none⟩ := ending
      dsimp only at *
      omega
  | reply waitCnt =>
      obtain ⟨upTo, few, polls⟩ := ending
      dsimp only at *
      rw [Nat.mul_succ]
      omega

/-! ## A wait that does not end -/

/-- Without room the call comes to each poll of the first wait. -/
theorem comesTo_space {count : Nat} (few : count ≤ WAIT_POLLS)
    (full : ∀ poll < count, ¬ device.HasRoom poll) :
    ComesTo tag buf physaddr device ⟨.space count, count, 0, 0, none⟩ := by
  induction count with
  | zero => exact Relation.ReflTransGen.refl
  | succ count ih =>
      have before := ih (Nat.le_of_succ_le few) fun poll below =>
        full poll (below.trans (Nat.lt_succ_self _))
      refine before.tail ?_
      unfold Leads msgTurn
      dsimp only
      rw [if_neg (full count (Nat.lt_succ_self _)), pollAgain, if_neg (not_lt.mpr few)]

/-- Behind a send the call comes to each poll of the second wait, as long as there is no room. -/
theorem comesTo_sent {first : Nat} (few : first ≤ WAIT_POLLS) (room : device.HasRoom first)
    (full : ∀ poll < first, ¬ device.HasRoom poll)
    (stuck : ∀ poll, first < poll → ¬ device.HasRoom poll) (more : Nat) :
    ∃ waitCnt, ComesTo tag buf physaddr device
      ⟨.sent waitCnt, first + 1 + more, 0, 0, some (sendWord physaddr)⟩ := by
  induction more with
  | zero =>
      refine ⟨first, (comesTo_space few full).tail ?_⟩
      unfold Leads msgTurn
      dsimp only
      rw [if_pos room]
  | succ more ih =>
      obtain ⟨waitCnt, before⟩ := ih
      refine ⟨1, before.tail ?_⟩
      have noRoom : ¬ device.HasRoom (first + 1 + more) := stuck _ (by omega)
      unfold Leads msgTurn
      dsimp only
      rw [if_neg noRoom, pollAgain, if_neg (by decide)]
      rfl

/-- The call polls without an end where the only polls with room are the first ones. -/
theorem unbounded_of_stuck {first : Nat} (few : first ≤ WAIT_POLLS) (room : device.HasRoom first)
    (full : ∀ poll < first, ¬ device.HasRoom poll)
    (stuck : ∀ poll, first < poll → ¬ device.HasRoom poll) :
    ¬ PollsBounded tag buf physaddr device := by
  rintro ⟨bound, bounded⟩
  obtain ⟨waitCnt, comes⟩ := @comesTo_sent tag physaddr buf _ _ few room full stuck bound
  have polls := bounded _ comes
  dsimp only at polls
  omega

/-- For every device the polls for each word that is read are bounded exactly when there is no room
in the first wait, or a poll of it finds room and a later poll does as well. -/
theorem pollsBounded_iff (tag : Nat) (buf : List UInt8) (physaddr : Nat) (device : Device) :
    PollsBounded tag buf physaddr device ↔
      (∀ poll ≤ WAIT_POLLS, ¬ device.HasRoom poll) ∨
        ∃ first ≤ WAIT_POLLS, device.HasRoom first ∧
          ∃ last, first < last ∧ device.HasRoom last := by
  classical
  constructor
  · intro bounded
    by_contra neither
    obtain ⟨someRoom, noMore⟩ := not_or.mp neither
    push Not at someRoom noMore
    have found : ∃ poll, device.HasRoom poll := by
      obtain ⟨poll, _, room⟩ := someRoom
      exact ⟨poll, room⟩
    have few : Nat.find found ≤ WAIT_POLLS := by
      obtain ⟨poll, inTime, room⟩ := someRoom
      exact (Nat.find_min' found room).trans inTime
    refine unbounded_of_stuck few (Nat.find_spec found) ?_ ?_ bounded
    · intro poll before
      exact Nat.find_min found before
    · intro poll behind
      exact noMore _ few (Nat.find_spec found) poll behind
  · rintro (noRoom | ⟨earlier, inTime, room, last, behind, lastRoom⟩)
    · apply @bounded_of_leads _ _ _ _ 0
      intro first few firstRoom _
      exact absurd firstRoom (noRoom first few)
    · apply bounded_of_leads
      intro first _ _ full
      have order : first ≤ earlier := by
        by_contra later
        exact full earlier (not_le.mp later) room
      exact ⟨order.trans_lt behind, lastRoom⟩

/-- The device has room once, and then the bit is stuck. -/
def stuckDevice : Device where
  sendStatus poll := if poll = 0 then 0 else MBOX_STATUS_FULL
  replyStatus _ := MBOX_STATUS_EMPTY
  word _ := 0
  buffer _ := ⟨MBOX_PROCESS_REQUEST, MBOX_TAG_REQUEST, []⟩

/-- The wait for the send polls for ever. -/
theorem stuck_polls : ¬ PollsBounded MBOX_TAG_GET_FIRMWAREHASH [] 0 stuckDevice := by
  have stuck : ∀ poll, 0 < poll → ¬ stuckDevice.HasRoom poll := by
    intro poll later
    unfold Device.HasRoom stuckDevice
    dsimp only
    rw [if_neg later.ne']
    decide
  exact unbounded_of_stuck (Nat.zero_le _) (by decide : stuckDevice.HasRoom 0) nofun stuck

end Bcm2711.Mbox
