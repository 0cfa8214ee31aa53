import Mathlib

/-! # Message signalled interrupts

The controller latches the messages of the PCIe bridge in a word of 32 bits, beside a word of masks.
The callouts of the board identify the lowest message that is not masked, and mask and clear it; the
end of the interrupt unmasks it unless it is masked otherwise.  Each message that is raised is
identified once.
-/

namespace Bcm2711.Startup.Msi

/-! ## The callouts -/

def BCM2711_MAX_MSI : Int := 32

/-- The registers: `STATUS`, `MASK_STATUS`, and how often `EOI` was written. -/
structure Registers where
  status : BitVec 32
  maskStatus : BitVec 32
  eois : Nat
deriving DecidableEq, Repr

/-- The result of `lsl` for a one: the lowest five bits of the number count. -/
def bit (vector : BitVec 32) : BitVec 32 := 1#32 <<< (vector.toNat % 32)

namespace Registers

/-- A write to `INTR_CLR`. -/
def intrClr (msi : Registers) (ones : BitVec 32) : Registers :=
  { msi with status := msi.status &&& ~~~ones }

/-- A write to `MASK_SET`. -/
def maskSet (msi : Registers) (ones : BitVec 32) : Registers :=
  { msi with maskStatus := msi.maskStatus ||| ones }

/-- A write to `MASK_CLR`. -/
def maskClr (msi : Registers) (ones : BitVec 32) : Registers :=
  { msi with maskStatus := msi.maskStatus &&& ~~~ones }

/-- The bridge has received a message. -/
def raise (msi : Registers) (vector : BitVec 32) : Registers :=
  { msi with status := msi.status ||| bit vector }

/-- `interrupt_id_bcm2711_msi`: the id in `x19`. -/
def interruptId (msi : Registers) : Int × Registers :=
  let w1 := msi.status &&& ~~~msi.maskStatus
  if w1 = 0 then (-1, msi)
  else
    let w1 := w1.reverse.clz
    if w1.toInt ≥ BCM2711_MAX_MSI then (-1, msi)
    else (w1.toNat, (msi.maskSet (bit w1)).intrClr (bit w1))

/-- `interrupt_eoi_bcm2711_msi`. -/
def interruptEoi (msi : Registers) (x22 : BitVec 64) (w19 : BitVec 32) : Registers :=
  if x22 ≠ 0 then msi
  else if w19.toInt ≥ BCM2711_MAX_MSI then msi
  else { msi.maskClr (bit w19) with eois := msi.eois + 1 }

/-- `interrupt_mask_bcm2711_msi`. -/
def interruptMask (msi : Registers) (w1 : BitVec 32) : Int × Registers :=
  if w1.toInt ≥ BCM2711_MAX_MSI then (-1, msi) else (0, msi.maskSet (bit w1))

/-- `interrupt_unmask_bcm2711_msi`. -/
def interruptUnmask (msi : Registers) (w1 : BitVec 32) : Int × Registers :=
  if w1.toInt ≥ BCM2711_MAX_MSI then (-1, msi) else (0, msi.maskClr (bit w1))

end Registers

/-- What the bridge and the kernel do. -/
inductive Act where
  | raise (vector : BitVec 32)
  | id
  | eoi (x22 : BitVec 64) (w19 : BitVec 32)
  | mask (w1 : BitVec 32)
  | unmask (w1 : BitVec 32)
deriving DecidableEq, Repr

/-- The controller after that. -/
def Act.next (msi : Registers) : Act → Registers
  | raise vector => msi.raise vector
  | id => msi.interruptId.2
  | eoi x22 w19 => msi.interruptEoi x22 w19
  | mask w1 => (msi.interruptMask w1).2
  | unmask w1 => (msi.interruptUnmask w1).2

/-! ## One vector -/

/-- A vector: whether a message waits, and whether it is masked. -/
structure Line where
  pending : Bool
  masked : Bool
deriving DecidableEq, Repr

/-- What happens to one vector. -/
inductive Event where
  | raised
  | identified
  | masked
  | unmasked
deriving DecidableEq, Repr

/-- A vector is identified when a message waits and it is not masked, and is masked then. -/
def Line.step (line : Line) : Event → Option Line
  | .raised => some { line with pending := true }
  | .identified => if line.pending ∧ ¬line.masked then some ⟨false, true⟩ else none
  | .masked => some { line with masked := true }
  | .unmasked => some { line with masked := false }

/-- A vector of the controller. -/
def Registers.line (msi : Registers) (vector : Nat) : Line :=
  ⟨msi.status.getLsbD vector, msi.maskStatus.getLsbD vector⟩

/-- What an action does to a vector. -/
def Act.event (msi : Registers) (vector : Nat) : Act → Option Event
  | raise raised => if vector = raised.toNat % 32 then some .raised else none
  | id => if msi.interruptId.1 = vector then some .identified else none
  | eoi x22 w19 =>
      if x22 = 0 ∧ w19.toInt < BCM2711_MAX_MSI ∧ vector = w19.toNat % 32 then some .unmasked
      else none
  | mask w1 =>
      if w1.toInt < BCM2711_MAX_MSI ∧ vector = w1.toNat % 32 then some .masked else none
  | unmask w1 =>
      if w1.toInt < BCM2711_MAX_MSI ∧ vector = w1.toNat % 32 then some .unmasked else none

variable {msi : Registers} {vector : Nat} {w1 : BitVec 32}

theorem bit_getLsbD (w1 : BitVec 32) (vector : Nat) :
    (bit w1).getLsbD vector = decide (vector = w1.toNat % 32) := by
  rw [bit, BitVec.getLsbD_shiftLeft, BitVec.getLsbD_one]
  have shift : w1.toNat % 32 < 32 := Nat.mod_lt _ (by decide)
  by_cases same : vector = w1.toNat % 32
  · rw [same]
    simp [shift]
  · rw [decide_eq_false same]
    by_cases below : vector < w1.toNat % 32
    · simp [below]
    · have behind : vector - w1.toNat % 32 ≠ 0 := by omega
      simp [behind]

/-- A word with a bit set. -/
theorem or_bit (word w1 : BitVec 32) (vector : Nat) :
    (word ||| bit w1).getLsbD vector =
      if vector = w1.toNat % 32 then true else word.getLsbD vector := by
  rw [BitVec.getLsbD_or, bit_getLsbD]
  split
  · next same => rw [decide_eq_true same, Bool.or_true]
  · next other => rw [decide_eq_false other, Bool.or_false]

/-- A word with a bit cleared. -/
theorem and_not_bit (word w1 : BitVec 32) (inside : vector < 32) :
    (word &&& ~~~bit w1).getLsbD vector =
      if vector = w1.toNat % 32 then false else word.getLsbD vector := by
  rw [BitVec.getLsbD_and, BitVec.getLsbD_not, bit_getLsbD, decide_eq_true inside, Bool.true_and]
  split
  · next same => rw [decide_eq_true same, Bool.not_true, Bool.and_false]
  · next other => rw [decide_eq_false other, Bool.not_false, Bool.and_true]

/-! A write of a one changes the line of its own vector only. -/

theorem maskSet_line (vector : Nat) :
    (msi.maskSet (bit w1)).line vector =
      if vector = w1.toNat % 32 then { msi.line vector with masked := true }
      else msi.line vector := by
  unfold Registers.line Registers.maskSet
  dsimp only
  rw [or_bit]
  split <;> rfl

theorem maskClr_line (inside : vector < 32) :
    (msi.maskClr (bit w1)).line vector =
      if vector = w1.toNat % 32 then { msi.line vector with masked := false }
      else msi.line vector := by
  unfold Registers.line Registers.maskClr
  dsimp only
  rw [and_not_bit msi.maskStatus w1 inside]
  split <;> rfl

theorem intrClr_line (inside : vector < 32) :
    (msi.intrClr (bit w1)).line vector =
      if vector = w1.toNat % 32 then { msi.line vector with pending := false }
      else msi.line vector := by
  unfold Registers.line Registers.intrClr
  dsimp only
  rw [and_not_bit msi.status w1 inside]
  split <;> rfl

theorem raise_line (vector : Nat) :
    (msi.raise w1).line vector =
      if vector = w1.toNat % 32 then { msi.line vector with pending := true }
      else msi.line vector := by
  unfold Registers.line Registers.raise
  dsimp only
  rw [or_bit]
  split <;> rfl

/-! ## The lowest vector -/

/-- A message waits and is not masked. -/
def Line.ready (line : Line) : Bool := line.pending && !line.masked

theorem ready_getLsbD (msi : Registers) (inside : vector < 32) :
    (msi.status &&& ~~~msi.maskStatus).getLsbD vector = (msi.line vector).ready := by
  rw [BitVec.getLsbD_and, BitVec.getLsbD_not, decide_eq_true inside, Bool.true_and]
  rfl

/-- Where nothing is ready, -1 is returned and nothing changes. -/
theorem interruptId_none (none : ∀ vector < 32, (msi.line vector).ready = false) :
    msi.interruptId = (-1, msi) := by
  have zero : msi.status &&& ~~~msi.maskStatus = 0 := by
    apply BitVec.eq_of_getLsbD_eq
    intro vector inside
    rw [ready_getLsbD msi inside, none vector inside]
    exact BitVec.getLsbD_zero.symm
  exact if_pos zero

/-- The lowest vector that is ready is identified, masked and cleared. -/
theorem interruptId_some (some : ∃ vector < 32, (msi.line vector).ready = true) :
    ∃ vector < 32, (msi.line vector).ready = true ∧
      (∀ lower < vector, (msi.line lower).ready = false) ∧
      msi.interruptId = ((vector : Int),
        (msi.maskSet (bit (BitVec.ofNat 32 vector))).intrClr (bit (BitVec.ofNat 32 vector))) := by
  have nonzero : msi.status &&& ~~~msi.maskStatus ≠ 0 := by
    intro zero
    obtain ⟨vector, inside, ready⟩ := some
    rw [← ready_getLsbD msi inside, zero] at ready
    exact Bool.false_ne_true (BitVec.getLsbD_zero.symm.trans ready)
  obtain ⟨lowest, isLowest⟩ : ∃ lowest, lowest = (msi.status &&& ~~~msi.maskStatus).ctz := ⟨_, rfl⟩
  have less : lowest.toNat < 32 := by
    have below := BitVec.ctz_lt_iff_ne_zero.mpr nonzero
    rw [← isLowest, BitVec.lt_def] at below
    exact below
  have ready := BitVec.getLsbD_true_ctz_of_ne_zero nonzero
  have lower : ∀ other < lowest.toNat,
      (msi.status &&& ~~~msi.maskStatus).getLsbD other = false := by
    intro other below
    rw [isLowest] at below
    exact BitVec.getLsbD_false_of_lt_ctz below
  rw [← isLowest] at ready
  refine ⟨lowest.toNat, less, (ready_getLsbD msi less).symm.trans ready, ?_, ?_⟩
  · intro other below
    rw [← ready_getLsbD msi (below.trans less)]
    exact lower other below
  · have found : (msi.status &&& ~~~msi.maskStatus).reverse.clz = lowest := isLowest.symm
    have signed : ¬lowest.toInt ≥ BCM2711_MAX_MSI := by
      rw [BitVec.toInt_eq_toNat_of_lt (by omega)]
      unfold BCM2711_MAX_MSI
      omega
    rw [Registers.interruptId]
    dsimp only
    rw [if_neg nonzero, found, if_neg signed, BitVec.ofNat_toNat, BitVec.setWidth_eq]

/-! ## Runs -/

/-- The line of a vector when it is identified. -/
theorem identified_line {found : Nat} (foundInside : found < 32) (inside : vector < 32) :
    ((msi.maskSet (bit (BitVec.ofNat 32 found))).intrClr
        (bit (BitVec.ofNat 32 found))).line vector =
      if vector = found then ⟨false, true⟩ else msi.line vector := by
  have number : (BitVec.ofNat 32 found).toNat % 32 = found := by
    rw [BitVec.toNat_ofNat]
    omega
  rw [intrClr_line inside, maskSet_line, number]
  split <;> rfl

/-- What an action does to the lines. -/
theorem next_line (action : Act) (inside : vector < 32) :
    (action.event msi vector).elim (some (msi.line vector)) (msi.line vector).step =
      some ((action.next msi).line vector) := by
  cases action with
  | raise raised =>
      rw [Act.event, Act.next, raise_line]
      split <;> rfl
  | id =>
      rw [Act.event, Act.next]
      by_cases ready : ∃ vector < 32, (msi.line vector).ready = true
      · obtain ⟨found, foundInside, isReady, -, identified⟩ := interruptId_some ready
        rw [identified]
        dsimp only
        rw [identified_line foundInside inside]
        by_cases same : vector = found
        · subst same
          rw [if_pos rfl, if_pos rfl]
          have both := Bool.and_eq_true_iff.mp isReady
          exact if_pos ⟨both.1, by simpa using both.2⟩
        · have different : ¬(found : Int) = vector := by omega
          rw [if_neg same, if_neg different]
          rfl
      · have none : ∀ vector < 32, (msi.line vector).ready = false := by
          intro vector inside
          by_contra isReady
          exact ready ⟨vector, inside, Bool.eq_true_of_not_eq_false isReady⟩
        rw [interruptId_none none]
        dsimp only
        rw [if_neg (by omega)]
        rfl
  | eoi x22 w19 =>
      rw [Act.event, Act.next, Registers.interruptEoi]
      by_cases counted : x22 ≠ 0
      · rw [if_neg fun all => counted all.1, if_pos counted]
        rfl
      · by_cases outside : w19.toInt ≥ BCM2711_MAX_MSI
        · rw [if_neg fun all => absurd all.2.1 (not_lt.mpr outside), if_neg counted, if_pos outside]
          rfl
        · have line :
               ({ msi.maskClr (bit w19) with eois := msi.eois + 1 } : Registers).line vector =
            (msi.maskClr (bit w19)).line vector := rfl
          rw [if_neg counted, if_neg outside, line, maskClr_line inside]
          by_cases same : vector = w19.toNat % 32
          · rw [if_pos ⟨not_not.mp counted, not_le.mp outside, same⟩, if_pos same]
            rfl
          · rw [if_neg fun all => same all.2.2, if_neg same]
            rfl
  | mask w1 =>
      rw [Act.event, Act.next, Registers.interruptMask]
      by_cases outside : w1.toInt ≥ BCM2711_MAX_MSI
      · rw [if_neg fun all => absurd all.1 (not_lt.mpr outside), if_pos outside]
        rfl
      · rw [if_neg outside, maskSet_line]
        by_cases same : vector = w1.toNat % 32
        · rw [if_pos ⟨not_le.mp outside, same⟩, if_pos same]
          rfl
        · rw [if_neg fun all => same all.2, if_neg same]
          rfl
  | unmask w1 =>
      rw [Act.event, Act.next, Registers.interruptUnmask]
      by_cases outside : w1.toInt ≥ BCM2711_MAX_MSI
      · rw [if_neg fun all => absurd all.1 (not_lt.mpr outside), if_pos outside]
        rfl
      · rw [if_neg outside, maskClr_line inside]
        by_cases same : vector = w1.toNat % 32
        · rw [if_pos ⟨not_le.mp outside, same⟩, if_pos same]
          rfl
        · rw [if_neg fun all => same all.2, if_neg same]
          rfl

/-- The controller after some actions. -/
def run (msi : Registers) (actions : List Act) : Registers := actions.foldl Act.next msi

/-- What some actions do to a vector. -/
def events (vector : Nat) : Registers → List Act → List Event
  | _, [] => []
  | msi, action :: actions =>
      (action.event msi vector).toList ++ events vector (action.next msi) actions

/-- Whatever the bridge and the kernel do, each vector goes through what happens to it: a message
that is raised waits until it is identified, a vector is identified only when a message waits and it
is not masked, and it is masked then until it is unmasked. -/
theorem events_run (msi : Registers) (actions : List Act) (vector : Nat) (inside : vector < 32) :
    (events vector msi actions).foldlM Line.step (msi.line vector) =
      some ((run msi actions).line vector) := by
  induction actions generalizing msi with
  | nil => rfl
  | cons action actions ih =>
      have stepped := @next_line msi vector action inside
      rw [events, List.foldlM_append]
      cases happened : action.event msi vector with
      | none =>
          rw [happened] at stepped
          have same : msi.line vector = (action.next msi).line vector := Option.some.inj stepped
          change (some (msi.line vector)).bind _ = _
          rw [Option.bind_some, same]
          exact ih (action.next msi)
      | some event =>
          rw [happened] at stepped
          have one : (msi.line vector).step event = some ((action.next msi).line vector) := stepped
          change (((msi.line vector).step event).bind some).bind _ = _
          rw [one]
          exact ih (action.next msi)

set_option maxRecDepth 8000 in
/-- A message that comes while its vector is masked waits. -/
theorem events_run_waits :
    (events 3 ⟨0, 0, 0⟩ [.raise 3, .id, .raise 3, .id]).foldlM Line.step ⟨false, false⟩ =
        some ⟨true, true⟩ ∧
      events 3 ⟨0, 0, 0⟩ [.raise 3, .id, .raise 3, .id] = [.raised, .identified, .raised] :=
  ⟨(events_run ⟨0, 0, 0⟩ [.raise 3, .id, .raise 3, .id] 3 (by decide)).trans (by decide),
    by decide⟩

/-! ## The kernel asks until there is nothing -/

/-- The ids that are returned one after the other, as long as there are any, and the controller
then. -/
def identifyAll : (rounds : Nat) → Registers → List Int × Registers
  | 0, msi => ([], msi)
  | rounds + 1, msi =>
      let (found, after) := msi.interruptId
      if found = -1 then ([], after)
      else
        let (others, last) := identifyAll rounds after
        (found :: others, last)

/-- The vectors that are ready, from the lowest. -/
def readyLines (msi : Registers) : List Nat :=
  (List.range 32).filter fun vector => (msi.line vector).ready

/-- The list of the numbers that are chosen begins with the lowest of them. -/
theorem filter_range_eq_cons {chosen left : Nat → Bool} {lowest bound : Nat}
    (inside : lowest < bound) (isChosen : chosen lowest = true)
    (lower : ∀ other < lowest, chosen other = false) (lowestLeft : left lowest = false)
    (others : ∀ other < bound, other ≠ lowest → left other = chosen other) :
    (List.range bound).filter chosen = lowest :: (List.range bound).filter left := by
  induction bound with
  | zero => exact absurd inside (Nat.not_lt_zero _)
  | succ bound ih =>
      rw [List.range_succ, List.filter_append, List.filter_append]
      rcases Nat.lt_or_eq_of_le (Nat.le_of_lt_succ inside) with before | last
      · rw [ih before fun other less => others other (Nat.lt_succ_of_lt less), List.cons_append]
        congr 2
        apply List.filter_congr
        intro other member
        obtain rfl := List.mem_singleton.mp member
        exact (others other (Nat.lt_succ_self other) before.ne').symm
      · subst last
        have none : ∀ selected : Nat → Bool, (∀ other < lowest, selected other = false) →
            (List.range lowest).filter selected = [] := by
          intro selected unselected
          rw [List.filter_eq_nil_iff]
          intro other member
          rw [unselected other (List.mem_range.mp member)]
          exact Bool.false_ne_true
        have leftNone : ∀ other < lowest, left other = false := fun other less =>
          (others other (Nat.lt_succ_of_lt less) less.ne).trans (lower other less)
        rw [none chosen lower, none left leftNone, List.filter_cons_of_pos isChosen,
          List.filter_cons_of_neg (by rw [lowestLeft]; exact Bool.false_ne_true)]
        rfl

/-- The kernel that asks until it gets -1 gets every vector that is ready, once and from the lowest,
and leaves none; the other vectors are as they were. -/
theorem identifyAll_eq (msi : Registers) {rounds : Nat}
    (enough : (readyLines msi).length < rounds) :
    (identifyAll rounds msi).1 = (readyLines msi).map Int.ofNat ∧
      readyLines (identifyAll rounds msi).2 = [] ∧
      ∀ vector < 32, (identifyAll rounds msi).2.line vector =
        if (msi.line vector).ready then ⟨false, true⟩ else msi.line vector := by
  induction rounds generalizing msi with
  | zero => exact absurd enough (Nat.not_lt_zero _)
  | succ rounds ih =>
      rw [identifyAll]
      by_cases ready : ∃ vector < 32, (msi.line vector).ready = true
      · obtain ⟨found, foundInside, isReady, lower, identified⟩ := interruptId_some ready
        have lines := fun vector inside => @identified_line msi vector found foundInside inside
        rw [identified]
        generalize (msi.maskSet (bit (BitVec.ofNat 32 found))).intrClr
          (bit (BitVec.ofNat 32 found)) = after at lines
        have split : readyLines msi = found :: readyLines after := by
          refine filter_range_eq_cons foundInside isReady lower ?_ fun other inside different => ?_
          · rw [lines found foundInside, if_pos rfl]
            rfl
          · rw [lines other inside, if_neg different]
        rw [split, List.length_cons] at enough
        obtain ⟨ids, nothing, untouched⟩ := ih after (by omega)
        have number : ¬(found : Int) = -1 := by omega
        dsimp only
        rw [if_neg number]
        refine ⟨?_, nothing, fun vector inside => ?_⟩
        · rw [split, ids]
          rfl
        · refine (untouched vector inside).trans ?_
          rw [lines vector inside]
          by_cases same : vector = found
          · subst same
            rw [if_pos rfl, if_pos isReady]
            rfl
          · rw [if_neg same]
      · have none : ∀ vector < 32, (msi.line vector).ready = false := by
          intro vector inside
          by_contra isReady
          exact ready ⟨vector, inside, Bool.eq_true_of_not_eq_false isReady⟩
        have empty : readyLines msi = [] := by
          rw [readyLines, List.filter_eq_nil_iff]
          intro vector member
          rw [none vector (List.mem_range.mp member)]
          exact Bool.false_ne_true
        rw [interruptId_none none]
        dsimp only
        rw [if_pos rfl, empty]
        refine ⟨rfl, rfl, fun vector inside => ?_⟩
        rw [none vector inside]
        rfl

/-- Two of three messages are not masked. -/
theorem identifyAll_three :
    (identifyAll 33 ⟨0x29, 0x8, 0⟩).1 = [0, 5] ∧
      readyLines (identifyAll 33 ⟨0x29, 0x8, 0⟩).2 = [] := by
  have all := identifyAll_eq ⟨0x29, 0x8, 0⟩ (show (readyLines ⟨0x29, 0x8, 0⟩).length < 33 by decide)
  exact ⟨all.1.trans (by decide), all.2.1⟩

end Bcm2711.Startup.Msi
