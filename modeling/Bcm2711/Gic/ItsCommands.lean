import Bcm2711.Lib.Word

/-! # Commands of the interrupt translation service

`gic_v3_its_mapc` queues MAPC, SYNC and INVALL for a CPU at the position that `GITS_CWRITER` tells,
flushes them from the cache and has them executed.  The length of the flush is the difference of
two pointers, one of which is reset where the queue wraps.
-/

namespace Bcm2711.Gic

/-- What the function reads: the ITS, its parameters, and the redistributors. -/
structure ItsQueue where
  typer : BitVec 64
  cbaser : BitVec 64
  cwriter : BitVec 64
  /-- `GITS_CREADR` at each try. -/
  creadr : Nat → BitVec 64
  /-- The retry bit of `GITS_CWRITER` reads as it was written, or as zero. -/
  retryReads : Bool
  num4kPages : BitVec 32
  /-- `shdr->paddr_bias`. -/
  paddrBias : BitVec 32
  /-- `in64` of the redistributors' registers. -/
  in64 : BitVec 64 → BitVec 64

/-- The position in the queue, where the next word goes, and the words that went before it. -/
structure Cursor where
  curSlot : Nat
  cmdQ : BitVec 64
  stores : List (BitVec 64 × BitVec 64)

/-- `*tmp_its_cmd_q++ = word`. -/
def Cursor.put (cursor : Cursor) (word : BitVec 64) : Cursor :=
  { cursor with cmdQ := cursor.cmdQ + 8, stores := cursor.stores ++ [(cursor.cmdQ, word)] }

/-- The four words of a command. -/
def Cursor.command (cursor : Cursor) (first third : BitVec 64) : Cursor :=
  (((cursor.put first).put 0).put third).put 0

/-- `next_cmd_q_slot`. -/
def Cursor.next (cursor : Cursor) (numSlots : Nat) (base : BitVec 64) : Cursor :=
  let nextSlot := (cursor.curSlot + 1) % numSlots
  { cursor with curSlot := nextSlot, cmdQ := if nextSlot = 0 then base else cursor.cmdQ }

namespace ItsQueue

/-- `MAKE_1TO1_PTR`. -/
def ptr (its : ItsQueue) (paddr : BitVec 64) : BitVec 64 := paddr + its.paddrBias.setWidth 64

/-- `its_cmd_q_num_slots`. -/
def numSlots (its : ItsQueue) : Nat := its.num4kPages.toNat * 4096 % 2 ^ 32 / 32

/-- `tmp_its_cmd_q_base`. -/
def base (its : ItsQueue) : BitVec 64 := its.ptr (its.cbaser &&& 0xFFFFFFFFFF000)

/-- The slot that `GITS_CWRITER` tells. -/
def startSlot (its : ItsQueue) : Nat := its.cwriter.toNat / 32 % 2 ^ 32

/-- The number of bits in the ID of a collection. -/
def icidBits (its : ItsQueue) : Nat :=
  if its.typer >>> 36 &&& 1 = 1 then (its.typer >>> 32 &&& 0xf).toNat + 1 else 16

/-- `icid & icid_mask`. -/
def icid (its : ItsQueue) (cpu : BitVec 32) : BitVec 64 :=
  cpu.setWidth 64 &&& ((1#64 <<< its.icidBits) - 1)

/-- Redistributors are named by their addresses. -/
def pta (its : ItsQueue) : Bool := its.typer >>> 19 &&& 1 = 1

/-- `RDbase_mask`. -/
def rdbaseMask : BitVec 64 := ((1#64 <<< 52) - 1) ^^^ 0xffff

/-- The number of the processor in `GICR_TYPER`. -/
def processorNum (its : ItsQueue) (typer : BitVec 64) : BitVec 32 :=
  (its.in64 typer >>> 8 &&& 0xffff).setWidth 32

/-- `RDbase`, from the parameter of 32 bits. -/
def rdbase (its : ItsQueue) (gicrBaseForCpu : BitVec 32) : BitVec 64 :=
  if its.pta then gicrBaseForCpu.setWidth 64
  else
    (its.processorNum ((gicrBaseForCpu + 8).setWidth 64) <<< max 16 its.icidBits).setWidth 64

/-- What a read of `GITS_CWRITER` returns. -/
def readCwriter (its : ItsQueue) (written : BitVec 64) : BitVec 64 :=
  if its.retryReads then written else written &&& ~~~1

/-- The loop that waits for the ITS, with so many rounds left: what `GITS_CWRITER` was written
last, or `none` when the assertion fails. -/
def await (its : ItsQueue) : (rounds loop : Nat) → BitVec 64 → Option (BitVec 64)
  | 0, _, _ => none
  | rounds + 1, loop, written =>
      let creader := its.creadr loop
      let cwriter := its.readCwriter written
      if creader = cwriter then some written
      else if creader &&& 1 ≠ 0 then its.await rounds (loop + 1) (cwriter ||| 1)
      else its.await rounds (loop + 1) written

/-- What the function does: the words it stores, the range it flushes, and `GITS_CWRITER`. -/
structure Outcome where
  stores : List (BitVec 64 × BitVec 64)
  flush : Option (BitVec 64 × BitVec 64)
  cwriter : BitVec 64

/-- The cursor at the slot that `GITS_CWRITER` tells. -/
def start (its : ItsQueue) : Cursor :=
  ⟨its.startSlot, its.base + BitVec.ofNat 64 (its.startSlot * 32 % 2 ^ 32), []⟩

/-- `gic_v3_its_mapc` of an ITS that is enabled; `none` when an assertion fails. -/
def mapc (its : ItsQueue) (cpu gicrBaseForCpu : BitVec 32) : Option Outcome :=
  if ¬ its.startSlot < its.numSlots then none
  else
    let rdbase := its.rdbase gicrBaseForCpu &&& rdbaseMask
    let addrForFlush := its.ptr its.start.cmdQ
    let cursor := its.start.command 0x9 (its.icid cpu ||| rdbase ||| 1#64 <<< 63)
    let cursor := cursor.next its.numSlots its.base
    let cursor := cursor.command 0x5 rdbase
    let cursor := cursor.next its.numSlots its.base
    let cursor := cursor.command 0xD (its.icid cpu)
    let len := cursor.cmdQ - addrForFlush
    let flush := if len > 0 then some (addrForFlush, len) else none
    let executed := cursor.next its.numSlots its.base
    (its.await 255 1 (BitVec.ofNat 64 (executed.curSlot * 32 % 2 ^ 32 ||| 1))).map fun cwriter =>
      { stores := executed.stores, flush := flush, cwriter := cwriter }

/-- The call in `gic_v3_gicc_init`, with the address of the CPU's redistributor. -/
def giccMapc (its : ItsQueue) (cpu : BitVec 32) (gicCoreGicr : BitVec 64) : Option Outcome :=
  its.mapc cpu (gicCoreGicr.setWidth 32)

/-! ## The commands of a CPU -/

/-- The address of a slot. -/
def slotAddr (its : ItsQueue) (slot : Nat) : BitVec 64 := its.base + BitVec.ofNat 64 (slot * 32)

/-- The stores of a command to a slot. -/
def slotStores (its : ItsQueue) (slot : Nat) (first third : BitVec 64) :
    List (BitVec 64 × BitVec 64) :=
  [(its.slotAddr slot, first), (its.slotAddr slot + 8, 0), (its.slotAddr slot + 16, third),
    (its.slotAddr slot + 24, 0)]

/-- The bytes of a slot. -/
def slotBytes (its : ItsQueue) (slot : Nat) : Set (BitVec 64) :=
  {address | (address - its.slotAddr slot).toNat < 32}

/-- The bytes that are flushed. -/
def Outcome.flushed (outcome : Outcome) : Set (BitVec 64) :=
  {address | ∃ start len, outcome.flush = some (start, len) ∧ address - start < len}

/-- The `RDbase` of a redistributor: its address, or the number of its processor. -/
def rdbaseOf (its : ItsQueue) (gicr : BitVec 64) : BitVec 64 :=
  if its.pta then gicr &&& rdbaseMask else (its.processorNum (gicr + 8)).setWidth 64 <<< 16

/-- The commands are in three slots, which are flushed, and `GITS_CWRITER` is behind them. -/
structure Queued (its : ItsQueue) (cpu : BitVec 32) (gicr : BitVec 64) (outcome : Outcome) :
    Prop where
  stores : outcome.stores =
    its.slotStores its.startSlot 0x9 (its.icid cpu ||| its.rdbaseOf gicr ||| 1#64 <<< 63) ++
      its.slotStores ((its.startSlot + 1) % its.numSlots) 0x5 (its.rdbaseOf gicr) ++
      its.slotStores ((its.startSlot + 2) % its.numSlots) 0xD (its.icid cpu)
  flushed : outcome.flushed =
    its.slotBytes its.startSlot ∪ its.slotBytes ((its.startSlot + 1) % its.numSlots) ∪
      its.slotBytes ((its.startSlot + 2) % its.numSlots)
  cwriter : outcome.cwriter.toNat / 32 = (its.startSlot + 3) % its.numSlots

/-- The three slots are not behind the end of the queue, pointers are addresses, and the
redistributor is the one at the low half of its address. -/
structure InLine (its : ItsQueue) (gicr : BitVec 64) : Prop where
  slots : its.startSlot + 3 ≤ its.numSlots
  paddrBias : its.paddrBias = 0
  redistributor : if its.pta then gicr.toNat / 2 ^ 32 % 2 ^ 20 = 0
    else its.processorNum ((gicr.setWidth 32 + 8).setWidth 64) = its.processorNum (gicr + 8)

variable {its : ItsQueue} {cursor : Cursor} {cpu : BitVec 32} {gicr : BitVec 64}
  {outcome : Outcome} {slot : Nat}

/-! ## The cursor goes from slot to slot -/

/-- The cursor is at a slot. -/
structure At (its : ItsQueue) (slot : Nat) (cursor : Cursor) : Prop where
  curSlot : cursor.curSlot = slot
  cmdQ : cursor.cmdQ = its.slotAddr slot

theorem command_cmdQ (cursor : Cursor) (first third : BitVec 64) :
    (cursor.command first third).cmdQ = cursor.cmdQ + 32 := by
  change cursor.cmdQ + 8 + 8 + 8 + 8 = _
  rw [BitVec.add_assoc, BitVec.add_assoc, BitVec.add_assoc]
  rfl

theorem At.command_stores (isAt : At its slot cursor) (first third : BitVec 64) :
    (cursor.command first third).stores = cursor.stores ++ its.slotStores slot first third := by
  change cursor.stores ++ [_] ++ [_] ++ [_] ++ [_] = _
  rw [slotStores, ← isAt.cmdQ]
  change _ = cursor.stores ++ ([_] ++ [_] ++ [_] ++ [_])
  simp only [List.append_assoc]
  congr 4
  · change ([(cursor.cmdQ + 8 + 8, third)] : List (BitVec 64 × BitVec 64)) = _
    rw [BitVec.add_assoc]
    rfl
  · change ([(cursor.cmdQ + 8 + 8 + 8, 0)] : List (BitVec 64 × BitVec 64)) = _
    rw [BitVec.add_assoc, BitVec.add_assoc]
    rfl

theorem slotAddr_succ (its : ItsQueue) (slot : Nat) :
    its.slotAddr slot + 32 = its.slotAddr (slot + 1) := by
  unfold slotAddr
  rw [BitVec.add_assoc, Nat.succ_mul, BitVec.ofNat_add]
  rfl

theorem slotAddr_zero (its : ItsQueue) : its.slotAddr 0 = its.base := by
  rw [slotAddr, Nat.zero_mul]
  exact BitVec.add_zero _

/-- Behind a command the cursor goes on to the next slot. -/
theorem At.next (isAt : At its slot cursor) (inside : slot < its.numSlots)
    (first third : BitVec 64) :
    At its ((slot + 1) % its.numSlots)
      ((cursor.command first third).next its.numSlots its.base) := by
  have same : cursor.curSlot = slot := isAt.curSlot
  refine ⟨?_, ?_⟩
  · change (cursor.curSlot + 1) % its.numSlots = _
    rw [same]
  · change (if (cursor.curSlot + 1) % its.numSlots = 0 then its.base
      else (cursor.command first third).cmdQ) = _
    rw [same]
    by_cases wraps : (slot + 1) % its.numSlots = 0
    · rw [if_pos wraps, wraps, slotAddr_zero]
    · have within : slot + 1 < its.numSlots := by
        rcases Nat.lt_or_eq_of_le inside with below | last
        · exact below
        · exact absurd (last ▸ Nat.mod_self (slot + 1)) wraps
      rw [if_neg wraps, command_cmdQ, isAt.cmdQ, slotAddr_succ, Nat.mod_eq_of_lt within]

theorem numSlots_le (its : ItsQueue) : its.numSlots * 32 ≤ 2 ^ 32 := by
  have small := Nat.mod_lt (its.num4kPages.toNat * 4096) (Nat.two_pow_pos 32)
  unfold numSlots
  omega

theorem at_start (inside : its.startSlot < its.numSlots) : At its its.startSlot its.start := by
  have few := its.numSlots_le
  refine ⟨rfl, ?_⟩
  change its.base + BitVec.ofNat 64 (its.startSlot * 32 % 2 ^ 32) = _
  rw [Nat.mod_eq_of_lt (by omega)]
  rfl

/-! ## `GITS_CWRITER` -/

theorem readCwriter_retry (its : ItsQueue) (word : BitVec 64) :
    its.readCwriter (word ||| 1) ||| 1 = word ||| 1 := by
  unfold readCwriter
  split
  · rw [BitVec.or_assoc]
    rfl
  · ext bit inside
    simp only [BitVec.getElem_or, BitVec.getElem_and, BitVec.getElem_not]
    cases (1#64)[bit] <;> simp

/-- While it waits, the function writes again what it wrote. -/
theorem await_eq {rounds loop : Nat} {word written : BitVec 64}
    (done : its.await rounds loop (word ||| 1) = some written) : written = word ||| 1 := by
  induction rounds generalizing loop with
  | zero => cases done
  | succ rounds ih =>
      rw [await] at done
      split_ifs at done
      · exact (Option.some.inj done).symm
      · rw [readCwriter_retry] at done
        exact ih done
      · exact ih done

theorem cwriter_slot {slot : Nat} (small : slot * 32 < 2 ^ 32) :
    (BitVec.ofNat 64 (slot * 32 % 2 ^ 32 ||| 1)).toNat / 32 = slot := by
  have even : slot * 32 &&& 1 = 0 := by
    rw [Nat.and_one_is_mod]
    omega
  rw [Nat.mod_eq_of_lt small, Word.or_eq_add even, BitVec.toNat_ofNat]
  omega

/-! ## What a call does -/

/-- The commands, the pointer behind them, and `GITS_CWRITER`. -/
theorem mapc_cases {g : BitVec 32} (done : its.mapc cpu g = some outcome) :
    its.startSlot < its.numSlots ∧
      outcome.stores =
        its.slotStores its.startSlot 0x9
            (its.icid cpu ||| (its.rdbase g &&& rdbaseMask) ||| 1#64 <<< 63) ++
          its.slotStores ((its.startSlot + 1) % its.numSlots) 0x5 (its.rdbase g &&& rdbaseMask) ++
          its.slotStores ((its.startSlot + 2) % its.numSlots) 0xD (its.icid cpu) ∧
      outcome.flush =
        (let start := its.ptr (its.slotAddr its.startSlot)
         let len := its.slotAddr ((its.startSlot + 2) % its.numSlots) + 32 - start
         if len > 0 then some (start, len) else none) ∧
      outcome.cwriter.toNat / 32 = (its.startSlot + 3) % its.numSlots := by
  unfold mapc at done
  split at done
  · cases done
  next inside =>
    have inside := not_not.mp inside
    have positive : 0 < its.numSlots := Nat.zero_lt_of_lt inside
    have first := at_start inside
    extract_lets rdbase addrForFlush mapped afterMapped synced afterSynced invalidated len flush
      executed at done
    have second : At its ((its.startSlot + 1) % its.numSlots) afterMapped :=
      first.next inside _ _
    have third : At its ((its.startSlot + 2) % its.numSlots) afterSynced := by
      have step := second.next (Nat.mod_lt _ positive) 0x5 rdbase
      rw [Nat.mod_add_mod] at step
      exact step
    have last : At its ((its.startSlot + 3) % its.numSlots) executed := by
      have step := third.next (Nat.mod_lt _ positive) 0xD (its.icid cpu)
      rw [Nat.mod_add_mod] at step
      exact step
    obtain ⟨cwriter, awaited, same⟩ := Option.map_eq_some_iff.mp done
    subst same
    refine ⟨inside, ?_, ?_, ?_⟩
    · have three : executed.stores = afterSynced.stores ++ _ :=
        third.command_stores 0xD (its.icid cpu)
      have two : afterSynced.stores = afterMapped.stores ++ _ := second.command_stores 0x5 rdbase
      have one : afterMapped.stores = _ := first.command_stores 0x9 _
      exact three.trans (by rw [two, one]; rfl)
    · have starts : addrForFlush = its.ptr (its.slotAddr its.startSlot) :=
        congrArg its.ptr first.cmdQ
      have ends : invalidated.cmdQ = its.slotAddr ((its.startSlot + 2) % its.numSlots) + 32 := by
        rw [← third.cmdQ]
        exact command_cmdQ afterSynced _ _
      have length : len = its.slotAddr ((its.startSlot + 2) % its.numSlots) + 32 -
          its.ptr (its.slotAddr its.startSlot) := congrArg₂ (· - ·) ends starts
      have flushes : flush = if len > 0 then some (addrForFlush, len) else none := rfl
      dsimp only
      rw [flushes, length, starts]
    · have limit := its.numSlots_le
      have slotLt : (its.startSlot + 3) % its.numSlots < its.numSlots := Nat.mod_lt _ positive
      have written := cwriter_slot (show (its.startSlot + 3) % its.numSlots * 32 < 2 ^ 32 by omega)
      rw [last.curSlot, BitVec.ofNat_or] at awaited
      rw [BitVec.ofNat_or] at written
      rw [await_eq awaited]
      exact written

/-! ## The redistributor -/

theorem icidBits_le (its : ItsQueue) : its.icidBits ≤ 16 := by
  unfold icidBits
  split
  · have small : (its.typer >>> 32 &&& 0xf).toNat < 16 := by
      rw [BitVec.toNat_and]
      exact (Nat.and_two_pow_sub_one_eq_mod _ 4).trans_lt (Nat.mod_lt _ (by decide))
    omega
  · exact le_refl 16

theorem and_rdbaseMask (word : BitVec 64) :
    (word &&& rdbaseMask).toNat = word.toNat / 2 ^ 16 % 2 ^ 36 * 2 ^ 16 := by
  rw [BitVec.toNat_and]
  exact Word.and_field word.toNat 36 16

theorem processorNum_lt (its : ItsQueue) (typer : BitVec 64) :
    (its.processorNum typer).toNat < 2 ^ 16 := by
  have small : (its.in64 typer >>> 8 &&& 0xffff).toNat < 2 ^ 16 := by
    rw [BitVec.toNat_and]
    exact (Nat.and_two_pow_sub_one_eq_mod _ 16).trans_lt (Nat.mod_lt _ (by decide))
  unfold processorNum
  rw [BitVec.toNat_setWidth]
  omega

theorem shifted_processorNum (its : ItsQueue) (typer : BitVec 64) :
    (its.processorNum typer <<< max 16 its.icidBits).setWidth 64 &&& rdbaseMask =
      (its.processorNum typer).setWidth 64 <<< 16 := by
  have small := its.processorNum_lt typer
  rw [max_eq_left its.icidBits_le]
  apply BitVec.eq_of_toNat_eq
  rw [and_rdbaseMask, BitVec.toNat_setWidth, BitVec.toNat_shiftLeft, BitVec.toNat_shiftLeft,
    BitVec.toNat_setWidth, Nat.shiftLeft_eq, Nat.shiftLeft_eq]
  omega

/-- The parameter of 32 bits names the redistributor. -/
theorem rdbase_iff :
    its.rdbase (gicr.setWidth 32) &&& rdbaseMask = its.rdbaseOf gicr ↔
      if its.pta then gicr.toNat / 2 ^ 32 % 2 ^ 20 = 0
      else its.processorNum ((gicr.setWidth 32 + 8).setWidth 64) =
        its.processorNum (gicr + 8) := by
  unfold rdbase rdbaseOf
  cases its.pta with
  | true =>
      rw [if_pos rfl, if_pos rfl, if_pos rfl, ← BitVec.toNat_inj, and_rdbaseMask, and_rdbaseMask,
        BitVec.toNat_setWidth, BitVec.toNat_setWidth]
      omega
  | false =>
      rw [if_neg Bool.false_ne_true, if_neg Bool.false_ne_true, if_neg Bool.false_ne_true,
        shifted_processorNum]
      have one := its.processorNum_lt ((gicr.setWidth 32 + 8).setWidth 64)
      have other := its.processorNum_lt (gicr + 8)
      rw [← BitVec.toNat_inj, ← BitVec.toNat_inj, BitVec.toNat_shiftLeft, BitVec.toNat_shiftLeft,
        BitVec.toNat_setWidth, BitVec.toNat_setWidth, Nat.shiftLeft_eq, Nat.shiftLeft_eq]
      omega

/-! ## The flush -/

theorem slotAddr_sub (its : ItsQueue) (address : BitVec 64) {slot : Nat} (count : Nat) :
    address - its.slotAddr (slot + count) =
      address - its.slotAddr slot - BitVec.ofNat 64 (count * 32) := by
  unfold slotAddr
  rw [Nat.add_mul, BitVec.ofNat_add]
  bv_omega

/-- Three slots in a row are flushed as one range. -/
theorem three_slots (its : ItsQueue) (slot : Nat) :
    {address | address - its.slotAddr slot < 96} =
      its.slotBytes slot ∪ its.slotBytes (slot + 1) ∪ its.slotBytes (slot + 2) := by
  ext address
  change address - its.slotAddr slot < 96 ↔ ((address - its.slotAddr slot).toNat < 32 ∨
    (address - its.slotAddr (slot + 1)).toNat < 32) ∨
      (address - its.slotAddr (slot + 2)).toNat < 32
  rw [slotAddr_sub, slotAddr_sub]
  generalize address - its.slotAddr slot = offset
  rw [BitVec.lt_def]
  bv_omega

theorem offset_sub (base : BitVec 64) {one other : Nat} (oneSmall : one < 2 ^ 64)
    (otherSmall : other < 2 ^ 64) :
    (base + BitVec.ofNat 64 one - (base + BitVec.ofNat 64 other)).toNat =
      (one + 2 ^ 64 - other) % 2 ^ 64 := by
  bv_omega

/-- The range of a flush, by its offsets in the queue. -/
theorem flushed_offset {first last : Nat} (firstSmall : first < 2 ^ 64) (lastSmall : last < 2 ^ 64)
    (flush : outcome.flush =
      (let start := its.base + BitVec.ofNat 64 first
       let len := its.base + BitVec.ofNat 64 last - start
       if len > 0 then some (start, len) else none))
    {offset : Nat} (small : offset < 2 ^ 64) :
    its.base + BitVec.ofNat 64 offset ∈ outcome.flushed ↔
      (offset + 2 ^ 64 - first) % 2 ^ 64 < (last + 2 ^ 64 - first) % 2 ^ 64 := by
  rw [← offset_sub its.base small firstSmall, ← offset_sub its.base lastSmall firstSmall]
  change (∃ start len, outcome.flush = some (start, len) ∧
    its.base + BitVec.ofNat 64 offset - start < len) ↔ _
  rw [flush]
  dsimp only
  constructor
  · rintro ⟨start, len, isFlush, inside⟩
    split at isFlush
    · cases isFlush
      exact inside
    · cases isFlush
  · intro inside
    have positive : its.base + BitVec.ofNat 64 last - (its.base + BitVec.ofNat 64 first) > 0 :=
      BitVec.lt_def.mpr (Nat.zero_lt_of_lt inside)
    rw [if_pos positive]
    exact ⟨_, _, rfl, inside⟩

theorem slotBytes_offset {slot offset : Nat} (slotSmall : slot * 32 < 2 ^ 64)
    (small : offset < 2 ^ 64) :
    its.base + BitVec.ofNat 64 offset ∈ its.slotBytes slot ↔
      (offset + 2 ^ 64 - slot * 32) % 2 ^ 64 < 32 := by
  rw [← offset_sub its.base small slotSmall]
  rfl

/-- The three slots are flushed exactly when the queue does not wrap between them and pointers are
addresses. -/
theorem flushed_iff (size : 4 ≤ its.numSlots) (inside : its.startSlot < its.numSlots)
    (flush : outcome.flush =
      (let start := its.ptr (its.slotAddr its.startSlot)
       let len := its.slotAddr ((its.startSlot + 2) % its.numSlots) + 32 - start
       if len > 0 then some (start, len) else none)) :
    outcome.flushed = its.slotBytes its.startSlot ∪
        its.slotBytes ((its.startSlot + 1) % its.numSlots) ∪
        its.slotBytes ((its.startSlot + 2) % its.numSlots) ↔
      its.startSlot + 3 ≤ its.numSlots ∧ its.paddrBias = 0 := by
  have few := its.numSlots_le
  have second : (its.startSlot + 1) % its.numSlots < its.numSlots := Nat.mod_lt _ (by omega)
  have third : (its.startSlot + 2) % its.numSlots < its.numSlots := Nat.mod_lt _ (by omega)
  have bias := its.paddrBias.isLt
  have starts : its.ptr (its.slotAddr its.startSlot) =
      its.base + BitVec.ofNat 64 (its.startSlot * 32 + its.paddrBias.toNat) := by
    rw [ptr, slotAddr, BitVec.add_assoc, BitVec.ofNat_add, BitVec.ofNat_toNat]
  have ends : its.slotAddr ((its.startSlot + 2) % its.numSlots) + 32 =
      its.base + BitVec.ofNat 64 (((its.startSlot + 2) % its.numSlots + 1) * 32) :=
    its.slotAddr_succ _
  constructor
  · intro same
    rw [starts, ends] at flush
    have range := fun offset small =>
      @flushed_offset its outcome _ _ (by omega) (by omega) flush offset small
    -- the first byte of the first slot is flushed, and none far behind the queue
    have begins : its.base + BitVec.ofNat 64 (its.startSlot * 32) ∈ outcome.flushed := by
      rw [same]
      exact .inl (.inl ((slotBytes_offset (by omega) (by omega)).mpr (by omega)))
    have far : its.base + BitVec.ofNat 64
        (its.startSlot * 32 + its.paddrBias.toNat + 2 ^ 40) ∉ outcome.flushed := by
      rw [same]
      rintro ((first | second) | third)
      · have offset := (slotBytes_offset (by omega) (by omega)).mp first
        omega
      · have offset := (slotBytes_offset (by omega) (by omega)).mp second
        omega
      · have offset := (slotBytes_offset (by omega) (by omega)).mp third
        omega
    rw [range _ (by omega)] at begins far
    have row : its.startSlot + 3 ≤ its.numSlots := by
      by_contra wraps
      have third : (its.startSlot + 2) % its.numSlots = its.startSlot + 2 - its.numSlots := by
        rw [Nat.mod_eq_sub_mod (by omega), Nat.mod_eq_of_lt (by omega)]
      rw [third] at begins far
      omega
    have third : (its.startSlot + 2) % its.numSlots = its.startSlot + 2 :=
      Nat.mod_eq_of_lt (by omega)
    rw [third] at begins far
    have zero : its.paddrBias.toNat = 0 := by omega
    exact ⟨row, BitVec.eq_of_toNat_eq zero⟩
  · rintro ⟨row, paddrBias⟩
    have start : its.ptr (its.slotAddr its.startSlot) = its.slotAddr its.startSlot := by
      rw [ptr, paddrBias]
      exact BitVec.add_zero _
    have next : (its.startSlot + 1) % its.numSlots = its.startSlot + 1 :=
      Nat.mod_eq_of_lt (by omega)
    have last : (its.startSlot + 2) % its.numSlots = its.startSlot + 2 :=
      Nat.mod_eq_of_lt (by omega)
    have len : its.slotAddr (its.startSlot + 2) + 32 - its.slotAddr its.startSlot = 96 := by
      unfold slotAddr
      rw [Nat.add_mul, BitVec.ofNat_add]
      bv_omega
    rw [next, last, ← three_slots]
    rw [start, last] at flush
    dsimp only at flush
    rw [len, if_pos (by decide)] at flush
    ext address
    constructor
    · rintro ⟨begin, count, isFlush, within⟩
      rw [flush] at isFlush
      cases isFlush
      exact within
    · intro within
      exact ⟨_, _, flush, within⟩

/-- The commands of a CPU are queued as they should be exactly when the queue does not wrap between
them, pointers are addresses, and the redistributor is at the low half of its address. -/
theorem queued_iff (size : 4 ≤ its.numSlots) (done : its.giccMapc cpu gicr = some outcome) :
    Queued its cpu gicr outcome ↔ InLine its gicr := by
  obtain ⟨inside, stores, flush, cwriter⟩ := mapc_cases done
  have flushes := flushed_iff size inside flush
  constructor
  · intro queued
    obtain ⟨slots, paddrBias⟩ := flushes.mp queued.flushed
    refine ⟨slots, paddrBias, rdbase_iff.mp ?_⟩
    have same := stores.symm.trans queued.stores
    -- the third word of the SYNC command is the redistributor alone
    have sync := congrArg (fun list : List (BitVec 64 × BitVec 64) => (list[6]?).map Prod.snd) same
    exact Option.some.inj sync
  · intro inLine
    refine ⟨?_, flushes.mpr ⟨inLine.slots, inLine.paddrBias⟩, cwriter⟩
    rw [stores, rdbase_iff.mpr inLine.redistributor]

/-- An ITS with the default queue of 256 slots, whose commands are all executed. -/
def smallQueue (startSlot : BitVec 64) : ItsQueue where
  typer := 0
  cbaser := 0x80050000
  cwriter := startSlot * 32
  creadr := fun _ => (startSlot + 3) % 256 * 32
  retryReads := false
  num4kPages := 2
  paddrBias := 0
  in64 := fun _ => 0x300

/-- A call returns when the commands are executed at once. -/
theorem mapc_returns {g : BitVec 32} (inside : its.startSlot < its.numSlots)
    (executed : its.creadr 1 = its.readCwriter
      (BitVec.ofNat 64 ((its.startSlot + 3) % its.numSlots * 32 % 2 ^ 32 ||| 1))) :
    ∃ outcome, its.mapc cpu g = some outcome := by
  have slot : (((its.startSlot + 1) % its.numSlots + 1) % its.numSlots + 1) % its.numSlots =
      (its.startSlot + 3) % its.numSlots := by
    rw [Nat.mod_add_mod, Nat.add_assoc, Nat.mod_add_mod]
  have awaited : its.await 255 1
      (BitVec.ofNat 64 ((its.startSlot + 3) % its.numSlots * 32 % 2 ^ 32 ||| 1)) = some _ :=
    if_pos executed
  rw [← slot] at awaited
  rw [mapc, if_neg (not_not.mpr inside)]
  exact ⟨_, congrArg (Option.map _) awaited⟩

theorem queued_third : ∃ outcome, (smallQueue 2).giccMapc 1 0x80e0000 = some outcome ∧
    Queued (smallQueue 2) 1 0x80e0000 outcome := by
  obtain ⟨outcome, done⟩ : ∃ outcome, (smallQueue 2).giccMapc 1 0x80e0000 = some outcome :=
    mapc_returns (by decide) (by decide)
  exact ⟨outcome, done, (queued_iff (by decide) done).mpr ⟨by decide, rfl, by decide⟩⟩

/-- In the last slot but one the queue wraps before INVALL, and a flush of nearly all memory
follows. -/
theorem wrapped_not_queued : ∃ outcome, (smallQueue 254).giccMapc 1 0x80e0000 = some outcome ∧
    outcome.flush = some (0x80051fc0, 0xffffffffffffe060) ∧
    ¬ Queued (smallQueue 254) 1 0x80e0000 outcome := by
  obtain ⟨outcome, done⟩ : ∃ outcome, (smallQueue 254).giccMapc 1 0x80e0000 = some outcome :=
    mapc_returns (by decide) (by decide)
  obtain ⟨_, _, flush, _⟩ := mapc_cases done
  have huge : outcome.flush = some (0x80051fc0, 0xffffffffffffe060) := flush.trans (by decide)
  refine ⟨outcome, done, huge, ?_⟩
  intro queued
  have far : (0 : BitVec 64) ∈ outcome.flushed := ⟨_, _, huge, by decide⟩
  rw [queued.flushed] at far
  rcases far with (first | second) | third
  · exact absurd (show _ < 32 from first) (by decide)
  · exact absurd (show _ < 32 from second) (by decide)
  · exact absurd (show _ < 32 from third) (by decide)

end ItsQueue

end Bcm2711.Gic
