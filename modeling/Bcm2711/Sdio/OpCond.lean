import Bcm2711.Lib.Walk
import Bcm2711.Lib.Word

/-! # The operating conditions of an SD card

`sd_init_device` asks the card for its operating conditions until it has switched the signal
voltage, or need not do so.  Where the switch fails it withdraws the request for 1.8 V and asks
again; what the card answers then is up to the card.
-/

namespace Bcm2711.Sdio.OpCond

open Walks

def EOK : Nat := 0
def ENOMEM : Nat := 12
def EIO : Nat := 5
def ETIMEDOUT : Nat := 260

def OCR_S18R : Nat := 0x01000000
def OCR_S18A : Nat := 0x01000000
def OCR_HCS : Nat := 0x40000000
def OCR_PWRUP_CMP : Nat := 0x80000000

def OCR_BUSY_RETRIES : Nat := 500

/-- The outcome of `_sdio_send_cmd`, and `rsp[0]`. -/
structure Reply where
  status : Nat
  ocr : Nat
deriving DecidableEq, Repr

/-- What the calls of one iteration of the loop meet. -/
structure Attempt where
  /-- `sdio_alloc_cmd` returns a command. -/
  hasCmd : Bool
  /-- The replies to `SD_AC_SEND_OP_COND`, one after the other. -/
  reply : Nat → Reply
  /-- `sd_voltage_switch`. -/
  switch : Nat
  /-- `sdio_signal_voltage`. -/
  signal : Nat

/-- The loop of `sd_app_send_op_cond`: its status and the last `rsp[0]`. -/
def opCondTries (ocr : Nat) (reply : Nat → Reply) : Nat → Nat → Nat × Nat
  | 0, tried => (ETIMEDOUT, (reply (tried - 1)).ocr)
  | retry + 1, tried =>
      if (reply tried).status ≠ EOK then ((reply tried).status, (reply tried).ocr)
      else if ocr = 0 then (EOK, (reply tried).ocr)
      else if (reply tried).ocr &&& OCR_PWRUP_CMP ≠ 0 then (EOK, (reply tried).ocr)
      else opCondTries ocr reply retry (tried + 1)

/-- `sd_app_send_op_cond`. -/
def sdAppSendOpCond (ocr : Nat) (attempt : Attempt) : Nat × Nat :=
  if !attempt.hasCmd then (ENOMEM, 0)
  else opCondTries ocr attempt.reply OCR_BUSY_RETRIES 0

/-- How the loop of `sd_init_device` ends: its status, and whether it sets `DEV_FLAG_SIG_ERR`. -/
structure Outcome where
  status : Nat
  sigErr : Bool
deriving DecidableEq, Repr

/-- One iteration of the loop of `sd_init_device`, by its number and `ocr`. -/
def opCondTurn (card : Nat → Attempt) (point : Nat × Nat) : Turn (Nat × Nat) Outcome :=
  let (turn, ocr) := point
  let (status, rocr) := sdAppSendOpCond ocr (card turn)
  if status ≠ EOK then .ends ⟨status, false⟩
  else if rocr &&& (OCR_HCS ||| OCR_S18A) = OCR_HCS ||| OCR_S18A then
    if (card turn).switch ≠ EOK then .goes (turn + 1, ocr &&& Word.compl 32 OCR_S18R)
    else if (card turn).signal ≠ EOK then .ends ⟨(card turn).signal, true⟩
    else .ends ⟨EOK, false⟩
  else .ends ⟨EOK, false⟩

/-! ## What the card answers -/

/-- The card is ready at this reply, and has been busy before. -/
structure Ready (attempt : Attempt) (ocr tried : Nat) : Prop where
  inTime : tried < OCR_BUSY_RETRIES
  answers : ∀ before ≤ tried, (attempt.reply before).status = EOK
  busy : ∀ before < tried, ocr ≠ 0 ∧ (attempt.reply before).ocr &&& OCR_PWRUP_CMP = 0
  ready : ocr = 0 ∨ (attempt.reply tried).ocr &&& OCR_PWRUP_CMP ≠ 0

/-- The card accepts 1.8 V, and then does not switch. -/
def Unswitched (attempt : Attempt) (ocr : Nat) : Prop :=
  attempt.hasCmd = true ∧
    (∃ tried, Ready attempt ocr tried ∧
      (attempt.reply tried).ocr &&& (OCR_HCS ||| OCR_S18A) = OCR_HCS ||| OCR_S18A) ∧
    attempt.switch ≠ EOK

/-- What is asked of the card: the request for 1.8 V is made once. -/
def requested (ocr turn : Nat) : Nat := if turn = 0 then ocr else ocr &&& Word.compl 32 OCR_S18R

section Tries

variable {ocr rocr : Nat} {reply : Nat → Reply}

/-- The tries end with a status of `EOK` at the first reply at which the card is ready. -/
theorem opCondTries_eq_iff (retry tried : Nat) :
    opCondTries ocr reply retry tried = (EOK, rocr) ↔
      ∃ last, tried ≤ last ∧ last < tried + retry ∧
        (∀ before, tried ≤ before → before ≤ last → (reply before).status = EOK) ∧
        (∀ before, tried ≤ before → before < last →
          ocr ≠ 0 ∧ (reply before).ocr &&& OCR_PWRUP_CMP = 0) ∧
        (ocr = 0 ∨ (reply last).ocr &&& OCR_PWRUP_CMP ≠ 0) ∧ (reply last).ocr = rocr := by
  induction retry generalizing tried with
  | zero =>
      constructor
      · intro ended
        cases ended
      · rintro ⟨last, low, high, -⟩
        exact absurd high (Nat.not_lt.mpr low)
  | succ retry ih =>
      rw [opCondTries]
      by_cases failed : (reply tried).status ≠ EOK
      · rw [if_pos failed]
        constructor
        · intro ended
          exact absurd (congrArg Prod.fst ended) failed
        · rintro ⟨last, low, -, answers, -⟩
          exact absurd (answers tried (Nat.le_refl _) low) failed
      rw [if_neg failed]
      rw [not_not] at failed
      have alone : ∀ before, tried ≤ before → before ≤ tried → (reply before).status = EOK := by
        intro before low high
        rw [Nat.le_antisymm high low]
        exact failed
      have none : ∀ before, tried ≤ before → before < tried →
          ocr ≠ 0 ∧ (reply before).ocr &&& OCR_PWRUP_CMP = 0 :=
        fun before low high => absurd high (Nat.not_lt.mpr low)
      by_cases ready : ocr = 0 ∨ (reply tried).ocr &&& OCR_PWRUP_CMP ≠ 0
      · have ends : (if ocr = 0 then (EOK, (reply tried).ocr)
            else if (reply tried).ocr &&& OCR_PWRUP_CMP ≠ 0 then (EOK, (reply tried).ocr)
            else opCondTries ocr reply retry (tried + 1)) = (EOK, (reply tried).ocr) := by
          by_cases unasked : ocr = 0
          · exact if_pos unasked
          · rw [if_neg unasked, if_pos (ready.resolve_left unasked)]
        rw [ends]
        constructor
        · intro same
          exact ⟨tried, Nat.le_refl _, Nat.lt_add_of_pos_right (Nat.succ_pos retry), alone, none,
            ready, congrArg Prod.snd same⟩
        · rintro ⟨last, low, -, -, busy, -, rfl⟩
          rcases Nat.eq_or_lt_of_le low with rfl | later
          · rfl
          · obtain ⟨asked, notReady⟩ := busy tried (Nat.le_refl _) later
            rcases ready with unasked | isReady
            · exact absurd unasked asked
            · exact absurd notReady isReady
      · obtain ⟨asked, notReady⟩ := not_or.mp ready
        rw [if_neg asked, if_neg notReady, ih (tried + 1)]
        constructor
        · rintro ⟨last, low, high, answers, busy, isReady, same⟩
          refine ⟨last, Nat.le_of_succ_le low, by omega, ?_, ?_, isReady, same⟩
          · intro before first upTo
            rcases Nat.eq_or_lt_of_le first with rfl | later
            · exact failed
            · exact answers before later upTo
          · intro before first upTo
            rcases Nat.eq_or_lt_of_le first with rfl | later
            · exact ⟨asked, not_not.mp notReady⟩
            · exact busy before later upTo
        · rintro ⟨last, low, high, answers, busy, isReady, same⟩
          have later : tried + 1 ≤ last := by
            rcases Nat.eq_or_lt_of_le low with rfl | later
            · exact absurd isReady ready
            · exact later
          exact ⟨last, later, by omega,
            fun before first => answers before (Nat.le_of_succ_le first),
            fun before first => busy before (Nat.le_of_succ_le first), isReady, same⟩

theorem sdAppSendOpCond_eq_iff {attempt : Attempt} :
    sdAppSendOpCond ocr attempt = (EOK, rocr) ↔
      attempt.hasCmd = true ∧
        ∃ tried, Ready attempt ocr tried ∧ (attempt.reply tried).ocr = rocr := by
  rw [sdAppSendOpCond]
  cases attempt.hasCmd with
  | false =>
      constructor
      · intro ended
        cases ended
      · rintro ⟨hasCmd, -⟩
        cases hasCmd
  | true =>
      have taken : ¬ (!true) = true := by decide
      rw [if_neg taken, opCondTries_eq_iff]
      constructor
      · rintro ⟨last, -, high, answers, busy, isReady, same⟩
        rw [Nat.zero_add] at high
        exact ⟨rfl, last, ⟨high, fun before => answers before (Nat.zero_le _),
          fun before => busy before (Nat.zero_le _), isReady⟩, same⟩
      · rintro ⟨-, last, isReady, same⟩
        refine ⟨last, Nat.zero_le _, ?_, fun before _ => isReady.answers before,
          fun before _ => isReady.busy before, isReady.ready, same⟩
        rw [Nat.zero_add]
        exact isReady.inTime

end Tries

/-! ## The loop -/

section Loop

variable {card : Nat → Attempt} {ocr turn : Nat}

/-- The loop goes on where the card does not switch. -/
theorem opCondTurn_goes (unswitched : Unswitched (card turn) ocr) :
    opCondTurn card (turn, ocr) = .goes (turn + 1, ocr &&& Word.compl 32 OCR_S18R) := by
  obtain ⟨hasCmd, ⟨tried, isReady, accepts⟩, fails⟩ := unswitched
  have sent : sdAppSendOpCond ocr (card turn) = (EOK, ((card turn).reply tried).ocr) :=
    sdAppSendOpCond_eq_iff.mpr ⟨hasCmd, tried, isReady, rfl⟩
  rw [opCondTurn]
  dsimp only
  rw [sent]
  dsimp only
  rw [if_neg (not_not.mpr rfl), if_pos accepts, if_pos fails]

/-- It ends everywhere else. -/
theorem opCondTurn_ends (switched : ¬ Unswitched (card turn) ocr) :
    ∃ outcome, opCondTurn card (turn, ocr) = .ends outcome := by
  rw [opCondTurn]
  dsimp only
  generalize sent : sdAppSendOpCond ocr (card turn) = answer
  obtain ⟨status, rocr⟩ := answer
  dsimp only
  by_cases failed : status ≠ EOK
  · exact ⟨_, if_pos failed⟩
  rw [if_neg failed]
  by_cases accepts : rocr &&& (OCR_HCS ||| OCR_S18A) = OCR_HCS ||| OCR_S18A
  · rw [if_pos accepts]
    rw [not_not] at failed
    have switches : ¬ (card turn).switch ≠ EOK := by
      intro fails
      rw [failed] at sent
      obtain ⟨hasCmd, tried, isReady, rfl⟩ := sdAppSendOpCond_eq_iff.mp sent
      exact switched ⟨hasCmd, ⟨tried, isReady, accepts⟩, fails⟩
    rw [if_neg switches]
    split
    · exact ⟨_, rfl⟩
    · exact ⟨_, rfl⟩
  · exact ⟨_, if_neg accepts⟩

theorem requested_succ (ocr turn : Nat) :
    requested ocr turn &&& Word.compl 32 OCR_S18R = requested ocr (turn + 1) := by
  rw [requested, requested, if_neg (Nat.succ_ne_zero turn)]
  split
  · rfl
  · rw [Nat.and_assoc, Nat.and_self]

/-- The loop ends if and only if at some attempt the card does not accept 1.8 V, or switches to
it. -/
theorem opCondLoop_returns_iff (card : Nat → Attempt) (ocr : Nat) :
    (∃ outcome, Returns (opCondTurn card) (0, ocr) outcome) ↔
      ∃ turn, ¬ Unswitched (card turn) (requested ocr turn) := by
  have start : ocr = requested ocr 0 := rfl
  constructor
  · rintro ⟨outcome, turns, walked⟩
    by_contra never
    have goes : ∀ turns turn,
        walk (opCondTurn card) turns (turn, requested ocr turn) = none := by
      intro turns
      induction turns with
      | zero => exact fun _ => rfl
      | succ turns ih =>
          intro turn
          have unswitched : Unswitched (card turn) (requested ocr turn) :=
            by_contra fun switched => never ⟨turn, switched⟩
          rw [walk, opCondTurn_goes unswitched, requested_succ]
          exact ih (turn + 1)
    rw [start, goes turns 0] at walked
    cases walked
  · intro ends
    obtain ⟨last, switched, first⟩ : ∃ last, ¬ Unswitched (card last) (requested ocr last) ∧
        ∀ turn < last, Unswitched (card turn) (requested ocr turn) := by
      classical
      exact ⟨Nat.find ends, Nat.find_spec ends,
        fun turn before => by_contra (Nat.find_min ends before)⟩
    obtain ⟨outcome, ended⟩ := opCondTurn_ends switched
    have returns : ∀ back ≤ last,
        Returns (opCondTurn card) (last - back, requested ocr (last - back)) outcome := by
      intro back
      induction back with
      | zero => exact fun _ => returns_of_ends ended
      | succ back ih =>
          intro inside
          have next : last - (back + 1) + 1 = last - back := by omega
          have goes := opCondTurn_goes (first (last - (back + 1)) (by omega))
          rw [requested_succ, next] at goes
          exact returns_of_goes goes (ih (Nat.le_of_succ_le inside))
    have whole := returns last (Nat.le_refl _)
    rw [Nat.sub_self, ← start] at whole
    exact ⟨outcome, whole⟩

/-- A card that does not accept 1.8 V when it is not asked for it is asked twice at the most. -/
theorem opCondLoop_honours
    (honours : ∀ tried, ((card 1).reply tried).ocr &&& OCR_S18A = 0) :
    ∃ outcome, walk (opCondTurn card) 2 (0, ocr) = some outcome := by
  have switched : ¬ Unswitched (card 1) (ocr &&& Word.compl 32 OCR_S18R) := by
    rintro ⟨-, ⟨tried, -, accepts⟩, -⟩
    have bit := congrArg (fun word => word &&& OCR_S18A) accepts
    have both : (OCR_HCS ||| OCR_S18A) &&& OCR_S18A = OCR_S18A := by decide
    rw [Nat.and_assoc, both, honours] at bit
    cases bit
  by_cases unswitched : Unswitched (card 0) ocr
  · obtain ⟨outcome, ended⟩ := opCondTurn_ends switched
    refine ⟨outcome, ?_⟩
    rw [walk, opCondTurn_goes unswitched]
    dsimp only
    rw [walk, ended]
  · obtain ⟨outcome, ended⟩ := opCondTurn_ends unswitched
    exact ⟨outcome, by rw [walk, ended]⟩

/-- A card that accepts 1.8 V whether it is asked or not, and never switches. -/
def stubborn : Nat → Attempt := fun _ =>
  { hasCmd := true
    reply := fun _ => ⟨EOK, OCR_PWRUP_CMP ||| OCR_HCS ||| OCR_S18A⟩
    switch := EIO
    signal := EOK }

/-- The loop does not end. -/
theorem stubborn_diverges :
    ¬ ∃ outcome, Returns (opCondTurn stubborn) (0, 0x41ff8000) outcome := by
  have goes (turn ocr : Nat) : opCondTurn stubborn (turn, ocr) =
      .goes (turn + 1, ocr &&& Word.compl 32 OCR_S18R) := by
    apply opCondTurn_goes
    refine ⟨rfl, ⟨0, ⟨by decide, fun _ _ => rfl, ?_, Or.inr ?_⟩, ?_⟩, ?_⟩
    · exact fun before none => absurd none (Nat.not_lt_zero before)
    · change (OCR_PWRUP_CMP ||| OCR_HCS ||| OCR_S18A) &&& OCR_PWRUP_CMP ≠ 0
      decide
    · change (OCR_PWRUP_CMP ||| OCR_HCS ||| OCR_S18A) &&& (OCR_HCS ||| OCR_S18A) = _
      decide
    · change EIO ≠ EOK
      decide
  have none : ∀ turns turn ocr, walk (opCondTurn stubborn) turns (turn, ocr) = none := by
    intro turns
    induction turns with
    | zero => exact fun _ _ => rfl
    | succ turns ih =>
        intro turn ocr
        rw [walk, goes]
        exact ih _ _
  rintro ⟨outcome, turns, walked⟩
  rw [none turns 0 _] at walked
  cases walked

end Loop

end Bcm2711.Sdio.OpCond
