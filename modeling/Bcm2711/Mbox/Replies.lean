import Bcm2711.Lib.Actions

/-! # Replies of the firmware

The SD driver and the mailbox utility write requests into buffers of their own and post the
addresses to the firmware, which writes its response into each buffer and pushes the address
to one reply queue that all callers share.  A caller that finds a reply for its channel takes
it for its own and reads the response from its own buffer.
-/

namespace Bcm2711.Mbox

open Actions

/-! ## Messages -/

def MBOX_SEND_CHANNEL : Nat := 8
def MBOX_SEND_CHANNEL_MASK : Nat := 0xf
def MBOX_PROCESS_REQUEST : Nat := 0
def MBOX_PROCESS_RESP_OK : Nat := 0x80000000
def MBOX_PROCESS_RESP_ERROR : Nat := 0x80000001
def MBOX_TAG_REQUEST : Nat := 0
def MBOX_TAG_GET_FIRMWAREHASH : Nat := 0x00000003
/-- The complement of `MBOX_TAG_RESPONSE`. -/
def MBOX_TAG_LENGTH : Nat := 0x7fffffff
/-- `sizeof(struct gpio_state)`. -/
def GPIO_STATE_SIZE : Nat := 8

/-- What the callers read of a buffer: `header.code`, `tag.code` and the body. -/
structure Buffer where
  hdrcode : Nat
  tagcode : Nat
  body : List UInt8
deriving DecidableEq, Repr

/-- A call of `mbox_send_msg_gpio_state` by the SD driver, or of `mbox_msg` by the utility. -/
inductive Request where
  | gpioState (set : Bool) (state : List UInt8)
  | message (tag : Nat) (buf : List UInt8)
deriving DecidableEq, Repr

/-- The body with which a request is posted. -/
def Request.body : Request → List UInt8
  | .gpioState _ state => state
  | .message _ buf => buf

/-- What a caller returns that reads its buffer after it has taken a reply, and the bytes it
hands on. -/
def Request.finish : Request → Buffer → Int × List UInt8
  | .gpioState true _, _ => (GPIO_STATE_SIZE, [])
  | .gpioState false _, buffer =>
      if buffer.tagcode &&& MBOX_TAG_LENGTH ≠ GPIO_STATE_SIZE then (-4, [])
      else (GPIO_STATE_SIZE, buffer.body.take GPIO_STATE_SIZE)
  | .message tag buf, buffer =>
      if buffer.hdrcode = MBOX_PROCESS_RESP_OK then
        let len := min (buffer.tagcode &&& MBOX_TAG_LENGTH) buf.length
        if tag ≠ MBOX_TAG_GET_FIRMWAREHASH then (len, buffer.body.take len)
        else (buf.length, buffer.body.take buf.length)
      else if buffer.hdrcode = MBOX_PROCESS_RESP_ERROR then (-4, [])
      else (-5, [])

/-- The SD driver does not look at the response code, and at the length only for a read. -/
def Request.ignoresCode : Request → Buffer → Bool
  | .gpioState true _, _ => true
  | .gpioState false _, buffer => buffer.tagcode &&& MBOX_TAG_LENGTH = GPIO_STATE_SIZE
  | .message _ _, _ => false

/-- What a call returns whose wait times out. -/
def Request.timeout : Request → (sending : Bool) → Option Int
  | .gpioState _ _, true => none
  | .gpioState _ _, false => some (-2)
  | .message _ _, true => some (-2)
  | .message _ _, false => some (-3)

/-- The channel of a word of the mailbox. -/
def channel (rd : Nat) : Nat := rd &&& MBOX_SEND_CHANNEL_MASK

/-- The word that posts a buffer. -/
def sendWord (physaddr : Nat) : Nat := physaddr / 16 * 16 + MBOX_SEND_CHANNEL

/-- The buffer that a word posts. -/
def bufferOf (rd : Nat) : Nat := rd / 16 * 16

/-! ## Callers, firmware and queue -/

/-- A posted buffer that the firmware has yet to answer, with the call it is from. -/
structure Posting where
  owner : Nat
  rd : Nat
deriving DecidableEq, Repr

/-- An answer, with the call whose buffer it is for and the response code in it. -/
structure Reply where
  owner : Nat
  rd : Nat
  hdrcode : Nat
deriving DecidableEq, Repr

/-- Where a call is: not made yet, polling for its reply, or returned with a value, the bytes
it hands on and the reply it has taken. -/
inductive CallAt where
  | idle
  | waiting (request : Request) (physaddr : Nat)
  | returned (result : Int) (data : List UInt8) (reply : Option Reply)
deriving DecidableEq, Repr

/-- The calls, the memory of the buffers, and what is under way at the firmware. -/
structure Mailbox where
  calls : Nat → CallAt
  /-- The buffers that are in use. -/
  live : Finset Nat
  memory : Nat → Buffer
  posted : List Posting
  /-- Answers in their buffers that are not in the queue yet. -/
  written : List Reply
  fifo : List Reply

/-- Before any call. -/
def Mailbox.initial (memory : Nat → Buffer) : Mailbox := ⟨fun _ => .idle, ∅, memory, [], [], []⟩

/-- A step of a call or of the firmware. -/
inductive MailboxAction where
  /-- The call fills a buffer and writes its address to the mailbox. -/
  | post (id : Nat) (request : Request) (physaddr : Nat)
  /-- There was no room to post. -/
  | refuse (id : Nat)
  /-- The firmware writes a response. -/
  | answer (posting : Posting) (buffer : Buffer)
  | push (reply : Reply)
  /-- The firmware pushes a word for another channel. -/
  | foreign (rd : Nat)
  /-- The call reads a word from the queue. -/
  | pop (id : Nat)
  /-- A wait of the call times out: for room behind its own request, which only the utility
  waits for, or for a reply. -/
  | giveUp (id : Nat) (sending : Bool)
deriving DecidableEq, Repr

namespace Mailbox

/-- A call moves on. -/
def move (state : Mailbox) (id : Nat) (place : CallAt) : Mailbox :=
  { state with calls := Function.update state.calls id place }

/-- A call has taken a reply for its channel and returns. -/
def finish (state : Mailbox) (id : Nat) (request : Request) (physaddr : Nat) (reply : Reply) :
    Mailbox :=
  let (result, data) := request.finish (state.memory physaddr)
  { state.move id (.returned result data (some reply)) with live := state.live.erase physaddr }

/-- One step. -/
def act (state : Mailbox) : MailboxAction → Option Mailbox
  | .post id request physaddr =>
      if state.calls id = .idle ∧ physaddr ∉ state.live ∧ physaddr % 16 = 0 then
        some { state.move id (.waiting request physaddr) with
          live := insert physaddr state.live
          memory := Function.update state.memory physaddr
            ⟨MBOX_PROCESS_REQUEST, MBOX_TAG_REQUEST, request.body⟩
          posted := state.posted ++ [⟨id, sendWord physaddr⟩] }
      else none
  | .refuse id =>
      if state.calls id = .idle then some (state.move id (.returned (-1) [] none)) else none
  | .answer posting buffer =>
      if posting ∈ state.posted then
        some { state with
          posted := state.posted.erase posting
          memory := Function.update state.memory (bufferOf posting.rd) buffer
          written := state.written ++ [⟨posting.owner, posting.rd, buffer.hdrcode⟩] }
      else none
  | .push reply =>
      if reply ∈ state.written then
        some { state with
          written := state.written.erase reply
          fifo := state.fifo ++ [reply] }
      else none
  | .foreign rd =>
      if channel rd ≠ MBOX_SEND_CHANNEL then
        some { state with fifo := state.fifo ++ [⟨0, rd, 0⟩] }
      else none
  | .pop id =>
      match state.calls id, state.fifo with
      | .waiting request physaddr, reply :: rest =>
          let popped := { state with fifo := rest }
          if channel reply.rd = MBOX_SEND_CHANNEL then
            some (popped.finish id request physaddr reply)
          else some popped
      | _, _ => none
  | .giveUp id sending =>
      match state.calls id with
      | .waiting request physaddr =>
          match request.timeout sending with
          | none => none
          | some result =>
              if sending ∨ state.fifo = [] then
                some { state.move id (.returned result [] none) with
                  live := state.live.erase physaddr }
              else none
      | _ => none

/-- A call that took a reply took its own, and reports success for a success code only; a call
that took none reports a failure. -/
def truthful (state : Mailbox) : Prop :=
  ∀ id result data reply, state.calls id = .returned result data reply →
    (reply = none → result < 0) ∧
      ∀ taken, reply = some taken →
        taken.owner = id ∧ (0 ≤ result → taken.hdrcode = MBOX_PROCESS_RESP_OK)

/-- A call is posted only when no other is unanswered and no reply is left in the queue; a call
that does not look at the response code gets the one for success. -/
def orderly (state : Mailbox) : MailboxAction → Prop
  | .post _ _ _ => state.posted = [] ∧ state.written = [] ∧
      ∀ reply ∈ state.fifo, channel reply.rd ≠ MBOX_SEND_CHANNEL
  | .answer posting buffer => ∀ request physaddr,
      state.calls posting.owner = .waiting request physaddr →
        request.ignoresCode buffer = true → buffer.hdrcode = MBOX_PROCESS_RESP_OK
  | _ => True

end Mailbox

/-! ## Words -/

theorem channel_eq (rd : Nat) : channel rd = rd % 16 := Nat.and_two_pow_sub_one_eq_mod rd 4

theorem channel_sendWord (physaddr : Nat) : channel (sendWord physaddr) = MBOX_SEND_CHANNEL := by
  rw [channel_eq, sendWord, MBOX_SEND_CHANNEL]
  omega

theorem bufferOf_sendWord {physaddr : Nat} (aligned : physaddr % 16 = 0) :
    bufferOf (sendWord physaddr) = physaddr := by
  rw [bufferOf, sendWord, MBOX_SEND_CHANNEL]
  omega

theorem timeout_neg {request : Request} {sending : Bool} {result : Int}
    (timesOut : request.timeout sending = some result) : result < 0 := by
  cases request <;> cases sending <;> cases timesOut <;> decide

/-- A caller that ignores the response code reports success. -/
theorem finish_ignored {request : Request} {buffer : Buffer}
    (ignored : request.ignoresCode buffer = true) : 0 ≤ (request.finish buffer).1 := by
  cases request with
  | gpioState set state =>
      cases set with
      | true => exact Int.natCast_nonneg _
      | false =>
          rw [Request.finish, if_neg (not_not.mpr (of_decide_eq_true ignored))]
          exact Int.natCast_nonneg _
  | message tag buf => cases ignored

/-- Success is reported for the success code, or by a caller that ignores the code. -/
theorem finish_success {request : Request} {buffer : Buffer}
    (success : 0 ≤ (request.finish buffer).1) :
    buffer.hdrcode = MBOX_PROCESS_RESP_OK ∨ request.ignoresCode buffer = true := by
  cases request with
  | gpioState set state =>
      cases set with
      | true => exact Or.inr rfl
      | false =>
          rw [Request.finish] at success
          split at success
          · exact absurd success (by decide)
          · next same => exact Or.inr (decide_eq_true (not_not.mp same))
  | message tag buf =>
      rw [Request.finish] at success
      split at success
      · next isOk => exact Or.inl isOk
      · split at success <;> exact absurd success (by decide)

/-! ## Orderly runs -/

namespace Mailbox

/-- The replies in a queue that a call takes. -/
def ofChannel (fifo : List Reply) : List Reply :=
  fifo.filter fun reply => channel reply.rd = MBOX_SEND_CHANNEL

theorem ofChannel_cons {reply : Reply} (ours : channel reply.rd = MBOX_SEND_CHANNEL)
    (rest : List Reply) : ofChannel (reply :: rest) = reply :: ofChannel rest :=
  List.filter_cons_of_pos (decide_eq_true ours)

theorem ofChannel_cons_foreign {reply : Reply} (foreign : channel reply.rd ≠ MBOX_SEND_CHANNEL)
    (rest : List Reply) : ofChannel (reply :: rest) = ofChannel rest :=
  List.filter_cons_of_neg (by rw [decide_eq_false foreign]; exact nofun)

theorem ofChannel_append (front back : List Reply) :
    ofChannel (front ++ back) = ofChannel front ++ ofChannel back := List.filter_append ..

/-- The replies in the queue that a call takes. -/
def ready (state : Mailbox) : List Reply := ofChannel state.fifo

/-- Where the requests under way are. -/
def underWay (state : Mailbox) : List Posting × List Reply × List Reply :=
  (state.posted, state.written, state.ready)

/-- One call has been made, no other waits, and if it does then with these facts about its
request and its buffer. -/
structure Waits (state : Mailbox) (owner : Nat) (facts : Request → Nat → Prop) : Prop where
  made : state.calls owner ≠ .idle
  only : ∀ id request physaddr, state.calls id = .waiting request physaddr →
    id = owner ∧ facts request physaddr

/-- The buffer of a call holds what its reply says. -/
def Answers (memory : Nat → Buffer) (reply : Reply) (request : Request) (physaddr : Nat) : Prop :=
  (memory physaddr).hdrcode = reply.hdrcode ∧
    (request.ignoresCode (memory physaddr) = true → reply.hdrcode = MBOX_PROCESS_RESP_OK)

/-- At most one request is under way, and it is the one of the call that waits. -/
inductive Serial (state : Mailbox) : Prop
  | none (nothing : state.underWay = ([], [], []))
      (nobody : ∀ id request physaddr, state.calls id ≠ .waiting request physaddr)
  | posted {posting : Posting} (there : state.underWay = ([posting], [], []))
      (ours : channel posting.rd = MBOX_SEND_CHANNEL)
      (waits : state.Waits posting.owner fun _ physaddr => bufferOf posting.rd = physaddr)
  | written {reply : Reply} (there : state.underWay = ([], [reply], []))
      (ours : channel reply.rd = MBOX_SEND_CHANNEL)
      (waits : state.Waits reply.owner (Answers state.memory reply))
  | ready {reply : Reply} (there : state.underWay = ([], [], [reply]))
      (waits : state.Waits reply.owner (Answers state.memory reply))

variable {state after : Mailbox} {id : Nat}

@[simp] theorem move_calls_self (state : Mailbox) (id : Nat) (place : CallAt) :
    (state.move id place).calls id = place := Function.update_self ..

theorem move_calls_of_ne {other : Nat} (different : other ≠ id) (place : CallAt) :
    (state.move id place).calls other = state.calls other := Function.update_of_ne different ..

/-- A call that has returned waits no more. -/
theorem Waits.returned {owner : Nat} {facts : Request → Nat → Prop}
    (waits : state.Waits owner facts) (id : Nat) {result : Int} {data : List UInt8}
    {taken : Option Reply} :
    (state.move id (.returned result data taken)).Waits owner facts where
  made := by
    by_cases isCall : owner = id
    · rw [isCall, move_calls_self]
      exact nofun
    · rw [move_calls_of_ne isCall]
      exact waits.made
  only := by
    intro other request physaddr waiting
    by_cases isCall : other = id
    · rw [isCall, move_calls_self] at waiting
      cases waiting
    · rw [move_calls_of_ne isCall] at waiting
      exact waits.only other request physaddr waiting

/-- A call that returns without a reply leaves the request under way. -/
theorem Serial.returned (serial : state.Serial) (id : Nat) {result : Int} {data : List UInt8}
    {taken : Option Reply} : (state.move id (.returned result data taken)).Serial := by
  cases serial with
  | none nothing nobody =>
      refine .none nothing ?_
      intro other request physaddr
      by_cases isCall : other = id
      · rw [isCall, move_calls_self]
        exact nofun
      · rw [move_calls_of_ne isCall]
        exact nobody other request physaddr
  | posted there ours waits => exact .posted there ours (waits.returned id)
  | written there ours waits => exact .written there ours (waits.returned id)
  | ready there waits => exact .ready there (waits.returned id)

/-- Which buffers are in use does not matter. -/
theorem Serial.live (serial : state.Serial) (live : Finset Nat) : { state with live }.Serial := by
  cases serial with
  | none nothing nobody => exact .none nothing nobody
  | posted there ours waits => exact .posted there ours ⟨waits.made, waits.only⟩
  | written there ours waits => exact .written there ours ⟨waits.made, waits.only⟩
  | ready there waits => exact .ready there ⟨waits.made, waits.only⟩

/-- Words for other channels do not matter. -/
theorem Serial.refilled (serial : state.Serial) {fifo : List Reply}
    (same : { state with fifo }.ready = state.ready) : { state with fifo }.Serial := by
  have under : { state with fifo }.underWay = state.underWay := by
    rw [underWay, same]
    rfl
  cases serial with
  | none nothing nobody => exact .none (under.trans nothing) nobody
  | posted there ours waits => exact .posted (under.trans there) ours ⟨waits.made, waits.only⟩
  | written there ours waits => exact .written (under.trans there) ours ⟨waits.made, waits.only⟩
  | ready there waits => exact .ready (under.trans there) ⟨waits.made, waits.only⟩

/-- The request that a list with one entry names is that entry. -/
theorem under_eq {posted : List Posting} {written ready : List Reply}
    (there : state.underWay = (posted, written, ready)) :
    state.posted = posted ∧ state.written = written ∧ state.ready = ready :=
  ⟨congrArg Prod.fst there, congrArg (fun under => under.2.1) there,
    congrArg (fun under => under.2.2) there⟩

/-- An orderly post makes the posted request the only one. -/
theorem Serial.post (serial : state.Serial) {request : Request} {physaddr : Nat}
    (ordered : state.orderly (.post id request physaddr))
    (acted : state.act (.post id request physaddr) = some after) : after.Serial := by
  obtain ⟨⟨_, _, aligned⟩, same⟩ := Option.ite_none_right_eq_some.mp acted
  cases same
  obtain ⟨noPosted, noWritten, foreign⟩ := ordered
  have noReady : state.ready = [] := by
    apply List.filter_eq_nil_iff.mpr
    intro reply member ours
    exact foreign reply member (of_decide_eq_true ours)
  have nobody : ∀ other earlier place, state.calls other ≠ .waiting earlier place := by
    intro other earlier place waiting
    cases serial with
    | none _ nobody => exact nobody other earlier place waiting
    | posted there _ _ =>
        rw [(under_eq there).1] at noPosted
        cases noPosted
    | written there _ _ =>
        rw [(under_eq there).2.1] at noWritten
        cases noWritten
    | ready there _ =>
        rw [(under_eq there).2.2] at noReady
        cases noReady
  refine @Serial.posted _ ⟨id, sendWord physaddr⟩ ?_ (channel_sendWord physaddr) ⟨?_, ?_⟩
  · change (state.posted ++ [⟨id, sendWord physaddr⟩], state.written, state.ready) = _
    rw [noPosted, noWritten, noReady]
    rfl
  · change (state.move id _).calls id ≠ _
    rw [move_calls_self]
    exact nofun
  · intro other earlier place waiting
    change (state.move id _).calls other = _ at waiting
    by_cases isCall : other = id
    · rw [isCall, move_calls_self] at waiting
      cases waiting
      exact ⟨isCall, bufferOf_sendWord aligned⟩
    · rw [move_calls_of_ne isCall] at waiting
      exact absurd waiting (nobody other earlier place)

theorem Serial.answer (serial : state.Serial) {posting : Posting} {buffer : Buffer}
    (ordered : state.orderly (.answer posting buffer))
    (acted : state.act (.answer posting buffer) = some after) : after.Serial := by
  obtain ⟨member, same⟩ := Option.ite_none_right_eq_some.mp acted
  cases same
  cases serial with
  | posted there ours waits =>
      obtain ⟨isPosted, isWritten, isReady⟩ := under_eq there
      rw [isPosted] at member
      cases List.mem_singleton.mp member
      refine @Serial.written _ ⟨posting.owner, posting.rd, buffer.hdrcode⟩ ?_ ours ⟨waits.made, ?_⟩
      · change (state.posted.erase posting, state.written ++ [_], state.ready) = _
        rw [isPosted, isWritten, isReady, List.erase_cons_head]
        rfl
      · intro other request physaddr waiting
        obtain ⟨isOwner, isBuffer⟩ := waits.only other request physaddr waiting
        refine ⟨isOwner, ?_⟩
        rw [isOwner] at waiting
        have filled :
            Function.update state.memory (bufferOf posting.rd) buffer physaddr = buffer := by
          rw [isBuffer, Function.update_self]
        change
          Answers (Function.update state.memory (bufferOf posting.rd) buffer) _ request physaddr
        rw [Answers, filled]
        exact ⟨rfl, ordered request physaddr waiting⟩
  | none there _ =>
      rw [(under_eq there).1] at member
      cases member
  | written there _ _ =>
      rw [(under_eq there).1] at member
      cases member
  | ready there _ =>
      rw [(under_eq there).1] at member
      cases member

theorem Serial.push (serial : state.Serial) {reply : Reply}
    (acted : state.act (.push reply) = some after) : after.Serial := by
  obtain ⟨member, same⟩ := Option.ite_none_right_eq_some.mp acted
  cases same
  cases serial with
  | written there ours waits =>
      obtain ⟨isPosted, isWritten, isReady⟩ := under_eq there
      rw [isWritten] at member
      cases List.mem_singleton.mp member
      refine @Serial.ready _ reply ?_ ⟨waits.made, waits.only⟩
      change (state.posted, state.written.erase reply, ofChannel (state.fifo ++ [reply])) = _
      rw [ofChannel_append, ← Mailbox.ready, isPosted, isWritten, isReady, List.erase_cons_head,
        ofChannel_cons ours]
      rfl
  | none there _ =>
      rw [(under_eq there).2.1] at member
      cases member
  | posted there _ _ =>
      rw [(under_eq there).2.1] at member
      cases member
  | ready there _ =>
      rw [(under_eq there).2.1] at member
      cases member

/-- A reply that a waiting call takes is its own. -/
theorem Serial.taken (serial : state.Serial) {request : Request} {physaddr : Nat}
    (waiting : state.calls id = .waiting request physaddr) {reply : Reply} {rest : List Reply}
    (head : state.fifo = reply :: rest) (ours : channel reply.rd = MBOX_SEND_CHANNEL) :
    reply.owner = id ∧ Answers state.memory reply request physaddr ∧
      state.underWay = ([], [], [reply]) := by
  have front : state.ready = reply :: ofChannel rest := by
    rw [Mailbox.ready, head, ofChannel_cons ours]
  cases serial with
  | ready there waits =>
      have last := (under_eq there).2.2
      rw [front] at last
      obtain ⟨rfl, _⟩ := List.cons.inj last
      obtain ⟨isOwner, answers⟩ := waits.only id request physaddr waiting
      exact ⟨isOwner.symm, answers, there⟩
  | none there _ =>
      rw [(under_eq there).2.2] at front
      cases front
  | posted there _ _ =>
      rw [(under_eq there).2.2] at front
      cases front
  | written there _ _ =>
      rw [(under_eq there).2.2] at front
      cases front

/-- What a call returns that takes its own reply. -/
theorem truthful_finish {request : Request} {memory : Nat → Buffer} {physaddr : Nat}
    {reply : Reply} (answers : Answers memory reply request physaddr)
    (success : 0 ≤ (request.finish (memory physaddr)).1) :
    reply.hdrcode = MBOX_PROCESS_RESP_OK := by
  rcases finish_success success with isOk | ignored
  · exact answers.1.symm.trans isOk
  · exact answers.2 ignored

/-- A state in which another call has returned truthfully. -/
theorem truthful_returned (before : state.truthful) {result : Int} {data : List UInt8}
    {taken : Option Reply} (failed : taken = none → result < 0)
    (own : ∀ reply, taken = some reply →
      reply.owner = id ∧ (0 ≤ result → reply.hdrcode = MBOX_PROCESS_RESP_OK)) :
    (state.move id (.returned result data taken)).truthful := by
  intro other otherResult otherData otherReply returned
  by_cases isCall : other = id
  · rw [isCall, move_calls_self] at returned
    cases returned
    rw [isCall]
    exact ⟨failed, own⟩
  · rw [move_calls_of_ne isCall] at returned
    exact before other otherResult otherData otherReply returned

/-- At most one request is under way, and every call that has returned was truthful. -/
structure Sound (state : Mailbox) : Prop where
  serial : state.Serial
  truthful : state.truthful

theorem sound_initial (memory : Nat → Buffer) : (initial memory).Sound where
  serial := .none rfl nofun
  truthful := nofun

theorem Sound.pop (sound : state.Sound) (acted : state.act (.pop id) = some after) :
    after.Sound := by
  unfold act at acted
  dsimp only at acted
  split at acted
  · next request physaddr reply rest waiting head =>
      split at acted
      · next ours =>
          cases acted
          obtain ⟨isOwner, answers, there⟩ := sound.serial.taken waiting head ours
          obtain ⟨isPosted, isWritten, isReady⟩ := under_eq there
          have noReady : ofChannel rest = [] := by
            rw [Mailbox.ready, head, ofChannel_cons ours] at isReady
            exact (List.cons.inj isReady).2
          have nobody : ∀ other earlier place, state.calls other = .waiting earlier place →
              other = id := by
            intro other earlier place waits
            rw [← isOwner]
            exact (sound.serial.taken waits head ours).1.symm
          constructor
          · refine Serial.live (.none ?_ ?_) _
            · change (state.posted, state.written, ofChannel rest) = _
              rw [isPosted, isWritten, noReady]
            · intro other earlier place waits
              by_cases isCall : other = id
              · rw [isCall, move_calls_self] at waits
                cases waits
              · rw [move_calls_of_ne isCall] at waits
                exact isCall (nobody other earlier place waits)
          · have before : Mailbox.truthful { state with fifo := rest } := sound.truthful
            refine truthful_returned before nofun ?_
            intro taken isTaken
            cases isTaken
            exact ⟨isOwner, truthful_finish answers⟩
      · next foreign =>
          cases acted
          refine ⟨sound.serial.refilled ?_, sound.truthful⟩
          rw [Mailbox.ready, Mailbox.ready, head, ofChannel_cons_foreign foreign]
  · cases acted

theorem Sound.giveUp (sound : state.Sound) {sending : Bool}
    (acted : state.act (.giveUp id sending) = some after) : after.Sound := by
  unfold act at acted
  dsimp only at acted
  split at acted
  · split at acted
    · cases acted
    · next result timesOut =>
        obtain ⟨_, same⟩ := Option.ite_none_right_eq_some.mp acted
        cases same
        exact ⟨(sound.serial.returned id).live _,
          truthful_returned sound.truthful (fun _ => timeout_neg timesOut) nofun⟩
  · cases acted

/-- A step that makes nobody return leaves every returned call truthful. -/
theorem Sound.of_calls (sound : state.Sound) (serial : after.Serial)
    (same : ∀ other result data reply, after.calls other = .returned result data reply →
      state.calls other = .returned result data reply) : after.Sound :=
  ⟨serial, fun other result data reply returned =>
    sound.truthful other result data reply (same other result data reply returned)⟩

/-- Every orderly step keeps the calls truthful. -/
theorem Sound.act (sound : state.Sound) {action : MailboxAction}
    (ordered : state.orderly action) (acted : state.act action = some after) : after.Sound := by
  cases action with
  | post id request physaddr =>
      refine sound.of_calls (sound.serial.post ordered acted) ?_
      obtain ⟨_, same⟩ := Option.ite_none_right_eq_some.mp acted
      cases same
      intro other result data reply returned
      change (state.move id _).calls other = _ at returned
      by_cases isCall : other = id
      · rw [isCall, move_calls_self] at returned
        cases returned
      · rw [move_calls_of_ne isCall] at returned
        exact returned
  | refuse id =>
      obtain ⟨_, same⟩ := Option.ite_none_right_eq_some.mp acted
      cases same
      exact ⟨sound.serial.returned id,
        truthful_returned sound.truthful (fun _ => Int.negSucc_lt_zero 0) nofun⟩
  | answer posting buffer =>
      refine sound.of_calls (sound.serial.answer ordered acted) ?_
      obtain ⟨_, same⟩ := Option.ite_none_right_eq_some.mp acted
      cases same
      exact fun _ _ _ _ returned => returned
  | push reply =>
      refine sound.of_calls (sound.serial.push acted) ?_
      obtain ⟨_, same⟩ := Option.ite_none_right_eq_some.mp acted
      cases same
      exact fun _ _ _ _ returned => returned
  | foreign rd =>
      obtain ⟨other, same⟩ := Option.ite_none_right_eq_some.mp acted
      cases same
      refine ⟨sound.serial.refilled ?_, sound.truthful⟩
      rw [Mailbox.ready, ofChannel_append, ofChannel_cons_foreign other]
      exact List.append_nil _
  | pop id => exact sound.pop acted
  | giveUp id sending => exact sound.giveUp acted

/-! ## Replies that get confused -/

/-- A waiting call comes to the first reply for its channel. -/
theorem fetch {request : Request} {physaddr : Nat} {front rest : List Reply} {reply : Reply}
    (waiting : state.calls id = .waiting request physaddr)
    (queue : state.fifo = front ++ reply :: rest) (foreign : ofChannel front = [])
    (ours : channel reply.rd = MBOX_SEND_CHANNEL) :
    ∃ final, Reaches act always state final ∧
      final.calls id = .returned (request.finish (state.memory physaddr)).1
        (request.finish (state.memory physaddr)).2 (some reply) := by
  induction front generalizing state with
  | nil =>
      have acted : state.act (.pop id) =
          some ({ state with fifo := rest }.finish id request physaddr reply) := by
        unfold act
        simp only [waiting, queue, List.nil_append, ours, if_true]
      exact ⟨_, Reaches.refl.next acted trivial, move_calls_self _ _ _⟩
  | cons other front ih =>
      have notOurs : channel other.rd ≠ MBOX_SEND_CHANNEL := by
        intro same
        rw [ofChannel_cons same] at foreign
        cases foreign
      have acted : state.act (.pop id) = some { state with fifo := front ++ reply :: rest } := by
        unfold act
        simp only [waiting, queue, List.cons_append, notOurs, if_false]
      rw [ofChannel_cons_foreign notOurs] at foreign
      obtain ⟨final, reached, returned⟩ :=
        @ih { state with fifo := front ++ reply :: rest } waiting rfl foreign
      exact ⟨final, (Reaches.refl.next acted trivial).trans reached, returned⟩

/-- The queue up to its first reply. -/
theorem first_reply {fifo ours : List Reply} {reply : Reply}
    (there : ofChannel fifo = reply :: ours) :
    ∃ front rest, fifo = front ++ reply :: rest ∧ ofChannel front = [] ∧
      channel reply.rd = MBOX_SEND_CHANNEL := by
  obtain ⟨front, rest, queue, foreign, isOurs, _⟩ := List.filter_eq_cons_iff.mp there
  refine ⟨front, rest, queue, ?_, of_decide_eq_true isOurs⟩
  exact List.filter_eq_nil_iff.mpr foreign

/-- A call that waits while the next reply is not its own, or has not its success, can be led
astray. -/
theorem astray {request : Request} {physaddr : Nat} {reply : Reply} {ours : List Reply}
    (waiting : state.calls id = .waiting request physaddr)
    (there : ofChannel state.fifo = reply :: ours)
    (bad : reply.owner = id → reply.hdrcode ≠ MBOX_PROCESS_RESP_OK ∧
      request.ignoresCode (state.memory physaddr) = true) :
    ∃ final, Reaches act always state final ∧ ¬ final.truthful := by
  obtain ⟨front, rest, queue, foreign, isOurs⟩ := first_reply there
  obtain ⟨final, reached, returned⟩ := fetch waiting queue foreign isOurs
  refine ⟨final, reached, fun truthful => ?_⟩
  obtain ⟨own, success⟩ := (truthful _ _ _ _ returned).2 reply rfl
  obtain ⟨failure, ignored⟩ := bad own
  exact failure (success (finish_ignored ignored))

/-- The same with a reply that has yet to be pushed. -/
theorem astray_written {request : Request} {physaddr : Nat} {reply : Reply}
    (waiting : state.calls id = .waiting request physaddr) (there : state.written = [reply])
    (noReady : ofChannel state.fifo = []) (ours : channel reply.rd = MBOX_SEND_CHANNEL)
    (bad : reply.owner = id → reply.hdrcode ≠ MBOX_PROCESS_RESP_OK ∧
      request.ignoresCode (state.memory physaddr) = true) :
    ∃ final, Reaches act always state final ∧ ¬ final.truthful := by
  have member : reply ∈ state.written := by
    rw [there]
    exact List.mem_cons_self ..
  have pushed : state.act (.push reply) = some { state with
      written := state.written.erase reply
      fifo := state.fifo ++ [reply] } := if_pos member
  have next : ofChannel (state.fifo ++ [reply]) = [reply] := by
    rw [ofChannel_append, noReady, ofChannel_cons ours]
    rfl
  obtain ⟨final, reached, untruthful⟩ := @astray { state with
    written := state.written.erase reply
    fifo := state.fifo ++ [reply] } id request physaddr reply [] waiting next bad
  exact ⟨final, (Reaches.refl.next pushed trivial).trans reached, untruthful⟩

/-- The same with a request of another call that has yet to be answered. -/
theorem astray_posted {request : Request} {physaddr : Nat} {posting : Posting}
    (waiting : state.calls id = .waiting request physaddr) (there : posting ∈ state.posted)
    (noWritten : state.written = []) (noReady : ofChannel state.fifo = [])
    (ours : channel posting.rd = MBOX_SEND_CHANNEL) (other : posting.owner ≠ id) :
    ∃ final, Reaches act always state final ∧ ¬ final.truthful := by
  have answered : state.act (.answer posting ⟨0, 0, []⟩) = some { state with
      posted := state.posted.erase posting
      memory := Function.update state.memory (bufferOf posting.rd) ⟨0, 0, []⟩
      written := state.written ++ [⟨posting.owner, posting.rd, 0⟩] } := if_pos there
  have written : state.written ++ [⟨posting.owner, posting.rd, 0⟩] =
      [⟨posting.owner, posting.rd, 0⟩] := by
    rw [noWritten, List.nil_append]
  obtain ⟨final, reached, untruthful⟩ := @astray_written { state with
    posted := state.posted.erase posting
    memory := Function.update state.memory (bufferOf posting.rd) ⟨0, 0, []⟩
    written := state.written ++ [⟨posting.owner, posting.rd, 0⟩] } id request physaddr
      ⟨posting.owner, posting.rd, 0⟩ waiting written noReady ours fun own => absurd own other
  exact ⟨final, (Reaches.refl.next answered trivial).trans reached, untruthful⟩

/-- A call that is posted while another is unanswered, or its reply is left, can be led
astray. -/
theorem post_astray (serial : state.Serial) {request : Request} {physaddr : Nat}
    (acted : state.act (.post id request physaddr) = some after)
    (disorderly : ¬ state.orderly (.post id request physaddr)) :
    ∃ final, Reaches act always after final ∧ ¬ final.truthful := by
  obtain ⟨⟨idle, _, _⟩, same⟩ := Option.ite_none_right_eq_some.mp acted
  cases same
  have waiting : ∀ fifo posted written memory live,
      (Mailbox.mk (state.move id (.waiting request physaddr)).calls live memory posted written
        fifo).calls id = .waiting request physaddr := fun _ _ _ _ _ => move_calls_self _ _ _
  have notOwner : ∀ {owner facts}, state.Waits owner facts → owner ≠ id := by
    intro owner facts waits isCall
    rw [isCall] at waits
    exact waits.made idle
  cases serial with
  | none nothing _ =>
      obtain ⟨isPosted, isWritten, isReady⟩ := under_eq nothing
      refine absurd ⟨isPosted, isWritten, ?_⟩ disorderly
      intro reply member ours
      have inReady : reply ∈ state.ready := List.mem_filter.mpr ⟨member, decide_eq_true ours⟩
      rw [isReady] at inReady
      cases inReady
  | @posted posting there ours waits =>
      obtain ⟨isPosted, isWritten, isReady⟩ := under_eq there
      refine astray_posted (waiting _ _ _ _ _) ?_ isWritten isReady ours (notOwner waits)
      apply List.mem_append_left
      rw [isPosted]
      exact List.mem_cons_self ..
  | @written reply there ours waits =>
      obtain ⟨isPosted, isWritten, isReady⟩ := under_eq there
      refine astray_written (waiting _ _ _ _ _) isWritten isReady ours ?_
      exact fun own => absurd own (notOwner waits)
  | @ready reply there waits =>
      obtain ⟨isPosted, isWritten, isReady⟩ := under_eq there
      exact astray (waiting _ _ _ _ _) isReady fun own => absurd own (notOwner waits)

/-- A call that gets a failure and does not look at the response code is led astray. -/
theorem answer_astray (serial : state.Serial) {posting : Posting} {buffer : Buffer}
    (acted : state.act (.answer posting buffer) = some after)
    (disorderly : ¬ state.orderly (.answer posting buffer)) :
    ∃ final, Reaches act always after final ∧ ¬ final.truthful := by
  obtain ⟨member, same⟩ := Option.ite_none_right_eq_some.mp acted
  cases same
  simp only [orderly, not_forall] at disorderly
  obtain ⟨request, physaddr, waiting, ignored, failure⟩ := disorderly
  cases serial with
  | posted there ours waits =>
      obtain ⟨isPosted, isWritten, isReady⟩ := under_eq there
      rw [isPosted] at member
      cases List.mem_singleton.mp member
      obtain ⟨_, isBuffer⟩ := waits.only _ request physaddr waiting
      refine @astray_written _ _ request physaddr ⟨posting.owner, posting.rd, buffer.hdrcode⟩
        waiting ?_ isReady ours fun _ => ⟨failure, ?_⟩
      · rw [isWritten, List.nil_append]
      · have filled :
            Function.update state.memory (bufferOf posting.rd) buffer physaddr = buffer := by
          rw [isBuffer, Function.update_self]
        change request.ignoresCode
          (Function.update state.memory (bufferOf posting.rd) buffer physaddr) = true
        rw [filled]
        exact ignored
  | none there _ =>
      rw [(under_eq there).1] at member
      cases member
  | written there _ _ =>
      rw [(under_eq there).1] at member
      cases member
  | ready there _ =>
      rw [(under_eq there).1] at member
      cases member

theorem sound_of_reaches {memory : Nat → Buffer}
    (reached : Reaches act orderly (initial memory) state) : state.Sound :=
  reached.invariant Sound (sound_initial memory) fun _ _ _ sound ordered acted =>
    sound.act ordered acted

/-- Calls are truthful in every run in which each is posted alone and those that ignore the
response code get no failure, and no weaker condition on the steps would do. -/
theorem mailbox_exactly (memory : Nat → Buffer) :
    Exactly act orderly truthful (initial memory) := by
  constructor
  · intro state reached
    exact (sound_of_reaches reached).truthful
  · intro state action after reached acted disorderly
    have serial := (sound_of_reaches reached).serial
    cases action with
    | post id request physaddr => exact post_astray serial acted disorderly
    | answer posting buffer => exact answer_astray serial acted disorderly
    | _ => exact absurd trivial disorderly

/-- The SD driver sets the voltage pin while the utility asks for a temperature; the firmware
answers the utility first, and the driver takes that reply for its own success. -/
def crossedActions : List MailboxAction :=
  [.post 0 (.message 0x00030006 (List.replicate 8 0)) 0x1000,
    .post 1 (.gpioState true (List.replicate 8 0)) 0x2000,
    .answer ⟨0, sendWord 0x1000⟩ ⟨MBOX_PROCESS_RESP_OK, 0x80000008, List.replicate 8 1⟩,
    .push ⟨0, sendWord 0x1000, MBOX_PROCESS_RESP_OK⟩, .pop 1]

/-- In this run the driver consumes the reply of the utility. -/
theorem crossed_replies :
    ∃ state, Reaches act always (initial fun _ => ⟨0, 0, []⟩) state ∧ ¬ state.truthful := by
  have performed : ∃ state,
      perform act (initial fun _ => ⟨0, 0, []⟩) crossedActions = some state ∧
        state.calls 1 = .returned 8 [] (some ⟨0, sendWord 0x1000, MBOX_PROCESS_RESP_OK⟩) :=
    ⟨_, rfl, rfl⟩
  obtain ⟨state, done, returned⟩ := performed
  refine ⟨state, reaches_of_perform done, fun truthful => ?_⟩
  have own := ((truthful _ _ _ _ returned).2 _ rfl).1
  cases own

end Mailbox

end Bcm2711.Mbox
