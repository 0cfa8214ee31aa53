import Bcm2711.Dma.Channel
import Bcm2711.Lib.SeqCopy

/-! # The DMA engines

An engine loads a control block, copies the bytes it tells, and goes on with the block it
points to.  The control blocks hold bus addresses, in which the memory and the main
peripherals stand elsewhere than the ARM cores see them; both are taken here to the one
system address of the byte.
-/

namespace Bcm2711.Dma

open SeqCopy

/-! ## Addresses -/

/-- The system address of an ARM address; the main peripherals stand behind the memory. -/
def armCell (phys : Nat) : Nat :=
  if 0xfc000000 ≤ phys ∧ phys < 2 ^ 32 then phys + 0x380000000 else phys

/-- The system address of a bus address of a legacy engine, which sees the main peripherals
in a window and otherwise the first gigabyte of memory. -/
def legacyCell (bus : Nat) : Nat :=
  if 0x7c000000 ≤ bus ∧ bus < 0x80000000 then bus + 0x400000000 else bus % 2 ^ 30

/-- The ranges of ARM addresses in which an engine counts on as the ARM cores do. -/
def DmaChInfo.windows (info : DmaChInfo) : List (Nat × Nat) :=
  if info.isDma4 then [(0, 0xfc000000), (0xfc000000, 2 ^ 32), (2 ^ 32, 2 ^ 40)]
  else [(0, 2 ^ 30), (0xfc000000, 2 ^ 32)]

/-- A piece of memory lies inside one of the ranges. -/
def InReach (info : DmaChInfo) (paddr len : Nat) : Prop :=
  ∃ window ∈ info.windows, window.1 ≤ paddr ∧ paddr + len ≤ window.2

instance (info : DmaChInfo) (paddr len : Nat) : Decidable (InReach info paddr len) :=
  inferInstanceAs (Decidable (∃ window ∈ info.windows, _))

/-- The byte an engine comes to from an address, some bytes on. -/
def DmaChInfo.cell (info : DmaChInfo) (phys offset : Nat) : Nat :=
  if info.isDma4 then (dma4FullAddr phys + offset) % 2 ^ 40
  else legacyCell ((dmaLegacyAddr (phys % 2 ^ 32) + offset) % 2 ^ 32)

theorem dmaLegacyAddr_memory {phys : Nat} (small : phys < 2 ^ 30) :
    dmaLegacyAddr phys = 0xc0000000 + phys := by
  have notPeripheral : phys &&& 0xfc000000 ≠ 0xfc000000 := by
    have upper := @Nat.and_le_left phys 0xfc000000
    omega
  have low : 2 ^ 30 * 3 + phys = 2 ^ 30 * 3 ||| phys := Nat.two_pow_add_eq_or_of_lt small 3
  rw [dmaLegacyAddr, if_neg notPeripheral, Nat.or_comm]
  exact low.symm

theorem dmaLegacyAddr_peripheral {phys : Nat} (lower : 0xfc000000 ≤ phys)
    (upper : phys < 2 ^ 32) : dmaLegacyAddr phys = phys - 0x80000000 := by
  have isPeripheral : phys &&& 0xfc000000 = 0xfc000000 := by
    have down : Word.trunc 32 phys (2 ^ 26) = phys / 2 ^ 26 * 2 ^ 26 :=
      Word.trunc_two_pow upper (by decide)
    have page : phys / 2 ^ 26 = 63 := by omega
    rw [page] at down
    exact down
  have cut : phys &&& 0x7fffffff = phys % 2 ^ 31 := Nat.and_two_pow_sub_one_eq_mod phys 31
  rw [dmaLegacyAddr, if_pos isPeripheral]
  omega

/-- Up to the top of its bus, a DMA4 engine takes the system address. -/
theorem dma4FullAddr_eq {phys : Nat} (small : phys < 2 ^ 40) :
    dma4FullAddr phys = armCell phys := by
  have down : Word.trunc 64 phys (2 ^ 26) = phys / 2 ^ 26 * 2 ^ 26 :=
    Word.trunc_two_pow (small.trans (by decide)) (by decide)
  have mask : phys &&& 0xfffffffffc000000 = phys / 2 ^ 26 * 2 ^ 26 := down
  unfold dma4FullAddr armCell
  rw [mask]
  by_cases peripheral : 0xfc000000 ≤ phys ∧ phys < 2 ^ 32
  · have page : phys / 2 ^ 26 * 2 ^ 26 = 0xfc000000 := by omega
    have below : phys &&& Word.compl 64 0x80000000 < 2 ^ 32 :=
      Nat.and_le_left.trans_lt peripheral.2
    have cut : phys &&& Word.compl 64 0x80000000 = phys % 2 ^ 31 := by
      rw [← Nat.mod_eq_of_lt below, Nat.and_mod_two_pow, Nat.mod_eq_of_lt peripheral.2]
      exact Nat.and_two_pow_sub_one_eq_mod phys 31
    have short : phys % 2 ^ 31 < 2 ^ 34 := by omega
    have joined : 0x400000000 + phys % 2 ^ 31 = 0x400000000 ||| phys % 2 ^ 31 :=
      Nat.two_pow_add_eq_or_of_lt short 1
    rw [if_pos page, if_pos peripheral, cut, ← joined]
    omega
  · have page : phys / 2 ^ 26 * 2 ^ 26 ≠ 0xfc000000 := by omega
    have cut : phys &&& 0xffffffffff = phys % 2 ^ 40 := Nat.and_two_pow_sub_one_eq_mod phys 40
    rw [if_neg page, if_neg peripheral]
    omega

/-- In reach, system addresses count on as ARM addresses do. -/
theorem armCell_add {info : DmaChInfo} {paddr len offset : Nat} (reach : InReach info paddr len)
    (inside : offset < len) : armCell (paddr + offset) = armCell paddr + offset := by
  obtain ⟨window, member, lower, upper⟩ := reach
  unfold DmaChInfo.windows at member
  unfold armCell
  split at member
  · rcases List.mem_cons.mp member with rfl | member
    · rw [if_neg (by omega), if_neg (by omega)]
    · rcases List.mem_cons.mp member with rfl | member
      · rw [if_pos (by omega), if_pos (by omega)]
        omega
      · obtain rfl := List.mem_singleton.mp member
        rw [if_neg (by omega), if_neg (by omega)]
  · rcases List.mem_cons.mp member with rfl | member
    · rw [if_neg (by omega), if_neg (by omega)]
    · obtain rfl := List.mem_singleton.mp member
      rw [if_pos (by omega), if_pos (by omega)]
      omega

/-- In reach, an engine comes to the byte the ARM cores mean. -/
theorem cell_of_inReach {info : DmaChInfo} {paddr len offset : Nat}
    (reach : InReach info paddr len) (inside : offset < len) :
    info.cell paddr offset = armCell (paddr + offset) := by
  have counts := armCell_add reach inside
  obtain ⟨window, member, lower, upper⟩ := reach
  unfold DmaChInfo.windows at member
  unfold DmaChInfo.cell
  split at member
  · next isDma4 =>
      have bounds : paddr + len ≤ 2 ^ 40 := by
        simp only [List.mem_cons, List.not_mem_nil, or_false] at member
        rcases member with rfl | rfl | rfl
        · omega
        · omega
        · exact upper
      have small : armCell (paddr + offset) < 2 ^ 40 := by
        unfold armCell
        split
        · omega
        · omega
      rw [if_pos isDma4, dma4FullAddr_eq (by omega), ← counts, Nat.mod_eq_of_lt small]
  · next isLegacy =>
      rw [if_neg isLegacy]
      simp only [List.mem_cons, List.not_mem_nil, or_false] at member
      rcases member with rfl | rfl
      · have small : paddr % 2 ^ 32 = paddr := Nat.mod_eq_of_lt (by omega)
        rw [small, dmaLegacyAddr_memory (by omega), legacyCell, if_neg (by omega), armCell,
          if_neg (by omega)]
        omega
      · have small : paddr % 2 ^ 32 = paddr := Nat.mod_eq_of_lt (by omega)
        rw [small, dmaLegacyAddr_peripheral (by omega) (by omega), legacyCell, if_pos (by omega),
          armCell, if_pos (by omega)]
        omega

/-! ## Control blocks -/

/-- The byte a block reads, some bytes on. -/
def ControlBlock.srcCell : ControlBlock → Nat → Nat
  | .legacy cb, offset =>
      legacyCell ((cb.sourceAd + if flagged cb.ti (2 ^ 8) then offset else 0) % 2 ^ 32)
  | .dma4 scb, offset =>
      (scb.src + 2 ^ 32 * (scb.srci % 2 ^ 8) +
        if flagged scb.srci (2 ^ 12) then offset else 0) % 2 ^ 40

/-- The byte a block writes, some bytes on. -/
def ControlBlock.dstCell : ControlBlock → Nat → Nat
  | .legacy cb, offset =>
      legacyCell ((cb.destAd + if flagged cb.ti (2 ^ 4) then offset else 0) % 2 ^ 32)
  | .dma4 scb, offset =>
      (scb.dest + 2 ^ 32 * (scb.desti % 2 ^ 8) +
        if flagged scb.desti (2 ^ 12) then offset else 0) % 2 ^ 40

/-- The number of bytes a block copies. -/
def ControlBlock.len : ControlBlock → Nat
  | .legacy cb => cb.txfrLen
  | .dma4 scb => scb.len

/-- Where the next block is loaded from; a null address ends the chain. -/
def ControlBlock.next : ControlBlock → Option Nat
  | .legacy cb => if cb.nextconbk = 0 then none else some (legacyCell cb.nextconbk)
  | .dma4 scb => if scb.nextCb = 0 then none else some (32 * scb.nextCb % 2 ^ 40)

/-- What a block copies. -/
def ControlBlock.moves (cb : ControlBlock) : List (Move Nat) :=
  (List.range cb.len).map fun offset => ⟨cb.srcCell offset, cb.dstCell offset⟩

/-- Where the chain starts, as `dma_start` writes it to the engine. -/
def DmaChannel.firstCell (chan : DmaChannel) : Nat :=
  if chan.info.isDma4 then 32 * ((dma4FullAddr chan.cb.paddr >>> 5) % 2 ^ 32) % 2 ^ 40
  else legacyCell (dmaLegacyAddr (chan.cb.paddr % 2 ^ 32))

/-- The control block at a system address. -/
def DmaChannel.fetch (chan : DmaChannel) (cell : Nat) : Option ControlBlock :=
  if armCell chan.cb.paddr ≤ cell ∧ (cell - armCell chan.cb.paddr) % DMA_CB_SIZE = 0 then
    chan.cbs[(cell - armCell chan.cb.paddr) / DMA_CB_SIZE]?
  else none

/-- The blocks an engine goes through from a place on, so many at most. -/
def DmaChannel.chain (chan : DmaChannel) : Nat → Nat → List ControlBlock
  | 0, _ => []
  | count + 1, cell =>
      match chan.fetch cell with
      | none => []
      | some cb =>
          match cb.next with
          | none => [cb]
          | some next => cb :: chan.chain count next

/-- What an engine copies that goes through so many blocks at most. -/
def DmaChannel.moves (chan : DmaChannel) (count : Nat) : List (Move Nat) :=
  (chan.chain count chan.firstCell).flatMap ControlBlock.moves

theorem flagged_two_pow (flags bit : Nat) : flagged flags (2 ^ bit) = flags.testBit bit := by
  unfold flagged
  rw [Nat.and_two_pow]
  cases flags.testBit bit with
  | true => simp
  | false => simp

@[simp] theorem flagged_or (flags more bit : Nat) :
    flagged (flags ||| more) (2 ^ bit) = (flagged flags (2 ^ bit) || flagged more (2 ^ bit)) := by
  rw [flagged_two_pow, flagged_two_pow, flagged_two_pow, Nat.testBit_or]

theorem flagged_bitIf (condition : Bool) (bit : Nat) :
    flagged (bitIf condition (2 ^ bit)) (2 ^ bit) = condition := by
  rw [flagged_two_pow]
  cases condition with
  | true => exact Nat.testBit_two_pow_self
  | false => exact Nat.zero_testBit bit

section Blocks

variable {chan : DmaChannel} {params : DmaCbParams} {cb : ControlBlock}

/-- The high address bits in a DMA4 register stand below all its flags. -/
theorem dma4_high {size : Nat} (isSize : dma4Size chan.xferUnitSize = some size)
    (inc burst : Bool) (high : Nat) :
    (size ||| bitIf inc (2 ^ 12) ||| bitIf burst DMA4_BURST_LEN_16 ||| (high &&& 0xff)) % 2 ^ 8 =
      high % 2 ^ 8 := by
  have sizeBits : size % 2 ^ 8 = 0 := by
    unfold dma4Size at isSize
    split at isSize
    · cases isSize
      rfl
    · cases isSize
      rfl
    · cases isSize
      rfl
    · cases isSize
  have incBits : bitIf inc (2 ^ 12) % 2 ^ 8 = 0 := by
    cases inc with
    | true => rfl
    | false => rfl
  have burstBits : bitIf burst DMA4_BURST_LEN_16 % 2 ^ 8 = 0 := by
    cases burst with
    | true => rfl
    | false => rfl
  have highBits : high &&& 0xff = high % 2 ^ 8 := Nat.and_two_pow_sub_one_eq_mod high 8
  rw [Nat.or_mod_two_pow, Nat.or_mod_two_pow, Nat.or_mod_two_pow, sizeBits, incBits, burstBits,
    highBits, Nat.mod_mod, Nat.or_zero, Nat.or_zero, Nat.zero_or]

/-- A DMA4 address is put together from its two registers. -/
theorem dma4_joined (full offset : Nat) :
    (full % 2 ^ 32 + 2 ^ 32 * (full >>> 32 % 2 ^ 8) + offset) % 2 ^ 40 =
      (full + offset) % 2 ^ 40 := by
  have joined : full % 2 ^ 40 = full % 2 ^ 32 + 2 ^ 32 * (full >>> 32 % 2 ^ 8) := by
    have split : 2 ^ 40 = 2 ^ 32 * 2 ^ 8 := by decide
    rw [Nat.shiftRight_eq_div_pow, split]
    exact Nat.mod_mul
  rw [← joined, Nat.mod_add_mod]

/-- A block with incrementing addresses copies byte by byte from the one address to the
other. -/
theorem setcb_cells (built : setcb chan params = some cb)
    (srcInc : flagged params.info SRC_INC = true) (dstInc : flagged params.info DST_INC = true) :
    cb.len = params.len ∧ (∀ offset, cb.srcCell offset = chan.info.cell params.srcPaddr offset) ∧
      ∀ offset, cb.dstCell offset = chan.info.cell params.dstPaddr offset := by
  unfold setcb at built
  unfold DmaChInfo.cell
  split at built
  · next isDma4 =>
      obtain ⟨scb, isSet, rfl⟩ := Option.map_eq_some_iff.mp built
      obtain ⟨size, isSize, rfl⟩ := Option.map_eq_some_iff.mp isSet
      refine ⟨rfl, fun offset => ?_, fun offset => ?_⟩
      · simp only [ControlBlock.srcCell, dma4_high isSize, flagged_or, flagged_bitIf, srcInc,
          Bool.or_true, Bool.true_or, if_true, isDma4]
        exact dma4_joined _ _
      · simp only [ControlBlock.dstCell, dma4_high isSize, flagged_or, flagged_bitIf, dstInc,
          Bool.or_true, Bool.true_or, if_true, isDma4]
        exact dma4_joined _ _
  · next isLegacy =>
      obtain ⟨legacy, isSet, rfl⟩ := Option.map_eq_some_iff.mp built
      obtain ⟨width, isWidth, rfl⟩ := Option.map_eq_some_iff.mp isSet
      refine ⟨rfl, fun offset => ?_, fun offset => ?_⟩
      · simp only [ControlBlock.srcCell, flagged_or, flagged_bitIf, srcInc,
          Bool.or_true, Bool.true_or, if_true, isLegacy, if_false, Bool.false_eq_true]
      · simp only [ControlBlock.dstCell, flagged_or, flagged_bitIf, dstInc,
          Bool.or_true, Bool.true_or, if_true, isLegacy, if_false, Bool.false_eq_true]

theorem setcb_moves (built : setcb chan params = some cb)
    (srcInc : flagged params.info SRC_INC = true) (dstInc : flagged params.info DST_INC = true) :
    cb.moves = (List.range params.len).map fun offset =>
      ⟨chan.info.cell params.srcPaddr offset, chan.info.cell params.dstPaddr offset⟩ := by
  obtain ⟨len, src, dst⟩ := setcb_cells built srcInc dstInc
  unfold ControlBlock.moves
  rw [len]
  apply List.map_congr_left
  intro offset _
  rw [src, dst]

/-- A legacy bus address is a word and never null. -/
theorem dmaLegacyAddr_pos {phys : Nat} (small : phys < 2 ^ 32) :
    0 < dmaLegacyAddr phys ∧ dmaLegacyAddr phys < 2 ^ 32 := by
  unfold dmaLegacyAddr
  split
  · next peripheral =>
      have lower : 0xfc000000 ≤ phys := by
        rw [← peripheral]
        exact Nat.and_le_left
      have same := dmaLegacyAddr_peripheral lower small
      rw [dmaLegacyAddr, if_pos peripheral] at same
      rw [same]
      omega
  · have lower : 0xc0000000 ≤ phys ||| 0xc0000000 := Nat.right_le_or
    have upper : phys ||| 0xc0000000 < 2 ^ 32 := Nat.or_lt_two_pow small (by decide)
    omega

/-- A block without a next one ends the chain. -/
theorem setcb_next_none (built : setcb chan params = some cb) (ends : params.nextcb = 0) :
    cb.next = none := by
  unfold setcb at built
  split at built
  · obtain ⟨scb, isSet, rfl⟩ := Option.map_eq_some_iff.mp built
    obtain ⟨size, isSize, rfl⟩ := Option.map_eq_some_iff.mp isSet
    simp [ControlBlock.next, ends]
  · obtain ⟨legacy, isSet, rfl⟩ := Option.map_eq_some_iff.mp built
    obtain ⟨width, isWidth, rfl⟩ := Option.map_eq_some_iff.mp isSet
    simp [ControlBlock.next, ends]

/-- The addresses at which control blocks can be found by an engine. -/
structure BlockAddr (info : DmaChInfo) (paddr : Nat) : Prop where
  aligned : paddr % DMA_CB_SIZE = 0
  reach : InReach info paddr 1
  small : paddr < 2 ^ 37

/-- An engine that discards the low five bits of a pointer still has the whole address. -/
theorem BlockAddr.dma4 {info : DmaChInfo} {paddr : Nat} (place : BlockAddr info paddr) :
    32 * ((dma4FullAddr paddr >>> 5) % 2 ^ 32) % 2 ^ 40 = armCell paddr ∧
      (0 < paddr → 0 < (dma4FullAddr paddr >>> 5) % 2 ^ 32) := by
  have small := place.small
  have aligned : paddr % 32 = 0 := place.aligned
  have upper : armCell paddr < 2 ^ 37 := by
    unfold armCell
    split
    · omega
    · exact small
  have whole : armCell paddr % 32 = 0 := by
    unfold armCell
    split
    · omega
    · exact aligned
  have positive : 0 < paddr → 0 < armCell paddr := by
    intro notNull
    unfold armCell
    split
    · omega
    · exact notNull
  rw [dma4FullAddr_eq (by omega), Nat.shiftRight_eq_div_pow]
  refine ⟨by omega, fun notNull => ?_⟩
  have := positive notNull
  omega

/-- A legacy engine finds a block where its pointer tells. -/
theorem BlockAddr.legacy {info : DmaChInfo} {paddr : Nat} (place : BlockAddr info paddr)
    (isLegacy : ¬ info.isDma4) :
    legacyCell (dmaLegacyAddr (paddr % 2 ^ 32)) = armCell paddr := by
  have reached := cell_of_inReach place.reach Nat.zero_lt_one
  have small : paddr % 2 ^ 32 < 2 ^ 32 := Nat.mod_lt _ (Nat.two_pow_pos 32)
  rw [DmaChInfo.cell, if_neg isLegacy, Nat.add_zero, Nat.add_zero,
    Nat.mod_eq_of_lt (dmaLegacyAddr_pos small).2] at reached
  exact reached

/-- A block points to the next one. -/
theorem setcb_next_some (built : setcb chan params = some cb) (positive : 0 < params.nextcb)
    (place : BlockAddr chan.info params.nextcb) : cb.next = some (armCell params.nextcb) := by
  have goesOn : params.nextcb ≠ 0 := Nat.ne_of_gt positive
  unfold setcb at built
  split at built
  · obtain ⟨scb, isSet, rfl⟩ := Option.map_eq_some_iff.mp built
    obtain ⟨size, isSize, rfl⟩ := Option.map_eq_some_iff.mp isSet
    obtain ⟨found, notNull⟩ := place.dma4
    have pointer := Nat.ne_of_gt (notNull positive)
    simp only [ControlBlock.next, if_pos goesOn, if_neg pointer, found]
  · next isLegacy =>
      obtain ⟨legacy, isSet, rfl⟩ := Option.map_eq_some_iff.mp built
      obtain ⟨width, isWidth, rfl⟩ := Option.map_eq_some_iff.mp isSet
      have small : params.nextcb % 2 ^ 32 < 2 ^ 32 := Nat.mod_lt _ (Nat.two_pow_pos 32)
      have pointer := Nat.ne_of_gt (dmaLegacyAddr_pos small).1
      simp only [ControlBlock.next, if_pos goesOn, if_neg pointer, place.legacy isLegacy]

end Blocks

/-! ## The chain -/

section Chain

variable {chan ready : DmaChannel} {tinfo : DmaTransfer}

/-- The buffer of control blocks is an aligned piece of memory that the engine reaches. -/
structure BufferPlaced (chan : DmaChannel) : Prop where
  aligned : chan.cb.paddr % DMA_CB_SIZE = 0
  reach : InReach chan.info chan.cb.paddr (DMA_CB_SIZE * chan.frgsNum)
  small : chan.cb.paddr + DMA_CB_SIZE * chan.frgsNum ≤ 2 ^ 37

theorem InReach.mono {info : DmaChInfo} {paddr len inner short : Nat}
    (reach : InReach info paddr len) (lower : paddr ≤ inner)
    (upper : inner + short ≤ paddr + len) : InReach info inner short := by
  obtain ⟨window, member, first, last⟩ := reach
  exact ⟨window, member, first.trans lower, upper.trans last⟩

/-- Results found one by one belong to their arguments. -/
theorem forall₂_of_mapM {α β : Type} {found : α → Option β} {indices : List α} {results : List β}
    (all : indices.mapM found = some results) :
    List.Forall₂ (fun index result => found index = some result) indices results := by
  induction indices generalizing results with
  | nil =>
      cases all
      exact List.Forall₂.nil
  | cons index rest ih =>
      rw [List.mapM_cons] at all
      obtain ⟨first, isFirst, all⟩ := Option.bind_eq_some_iff.mp all
      obtain ⟨others, areOthers, all⟩ := Option.bind_eq_some_iff.mp all
      cases all
      exact List.Forall₂.cons isFirst (ih areOthers)

/-- Every control block that was set up was set for its fragments. -/
theorem SetUp.blocks (isSetUp : SetUp chan tinfo ready) :
    ready.cbs.length = tinfo.sgs ∧ ∀ sgi cb, ready.cbs[sgi]? = some cb →
      setcb ready (cbParams ready tinfo sgi) = some cb := by
  have all := forall₂_of_mapM isSetUp.cbs
  have length : ready.cbs.length = tinfo.sgs := by
    rw [← all.length_eq, List.length_range]
  refine ⟨length, fun sgi cb there => ?_⟩
  obtain ⟨inside, isBlock⟩ := List.getElem?_eq_some_iff.mp there
  have found := all.get (by rw [List.length_range, ← length]; exact inside) inside
  simp only [List.get_eq_getElem, List.getElem_range, isBlock] at found
  exact found

/-- The place of a control block in the buffer. -/
theorem BufferPlaced.block (placed : BufferPlaced ready) {sgi : Nat}
    (inside : sgi < ready.frgsNum) :
    BlockAddr ready.info (ready.cb.paddr + DMA_CB_SIZE * sgi) ∧
      armCell (ready.cb.paddr + DMA_CB_SIZE * sgi) =
        armCell ready.cb.paddr + DMA_CB_SIZE * sgi := by
  have aligned := placed.aligned
  have small := placed.small
  have room : DMA_CB_SIZE * sgi < DMA_CB_SIZE * ready.frgsNum :=
    Nat.mul_lt_mul_of_pos_left inside (by decide)
  refine ⟨⟨?_, placed.reach.mono (Nat.le_add_right _ _) (by omega), by omega⟩,
    armCell_add placed.reach room⟩
  rw [Nat.add_mul_mod_self_left]
  exact aligned

/-- An engine loads a control block from its place. -/
theorem BufferPlaced.fetch (placed : BufferPlaced ready) {sgi : Nat}
    (inside : sgi < ready.frgsNum) :
    ready.fetch (armCell (ready.cb.paddr + DMA_CB_SIZE * sgi)) = ready.cbs[sgi]? := by
  have distance : armCell ready.cb.paddr + DMA_CB_SIZE * sgi - armCell ready.cb.paddr =
      DMA_CB_SIZE * sgi := Nat.add_sub_cancel_left _ _
  have found : armCell ready.cb.paddr ≤ armCell ready.cb.paddr + DMA_CB_SIZE * sgi ∧
      DMA_CB_SIZE * sgi % DMA_CB_SIZE = 0 := ⟨Nat.le_add_right _ _, Nat.mul_mod_right _ _⟩
  rw [(placed.block inside).2, DmaChannel.fetch, distance, if_pos found,
    Nat.mul_div_cancel_left _ (by decide)]

/-- The chain starts at the first block. -/
theorem BufferPlaced.firstCell (placed : BufferPlaced ready) (someBlock : 0 < ready.frgsNum) :
    ready.firstCell = armCell ready.cb.paddr := by
  have place := (placed.block someBlock).1
  rw [Nat.mul_zero, Nat.add_zero] at place
  unfold DmaChannel.firstCell
  split
  · exact place.dma4.1
  · next isLegacy => exact place.legacy isLegacy

/-- From a block on, an engine goes through the blocks in order. -/
theorem chain_from (isSetUp : SetUp chan tinfo ready) (placed : BufferPlaced ready)
    {count sgi : Nat} (inside : sgi < tinfo.sgs)
    (once : sgi + count ≤ tinfo.sgs ∨ flagged tinfo.modeFlags DMA_MODE_FLAG_REPEAT = false) :
    ready.chain count (armCell (ready.cb.paddr + DMA_CB_SIZE * sgi)) =
      (ready.cbs.drop sgi).take count := by
  obtain ⟨length, blocks⟩ := isSetUp.blocks
  induction count generalizing sgi with
  | zero => rfl
  | succ count ih =>
      have bound : sgi < ready.cbs.length := by
        rw [length]
        exact inside
      have there : ready.cbs[sgi]? = some ready.cbs[sgi] := List.getElem?_eq_getElem bound
      have built := blocks sgi _ there
      have fetched : ready.fetch (armCell (ready.cb.paddr + DMA_CB_SIZE * sgi)) =
          some ready.cbs[sgi] := by
        rw [placed.fetch (by rw [isSetUp.frgsNum]; exact inside)]
        exact there
      rw [DmaChannel.chain, fetched, List.drop_eq_getElem_cons bound, List.take_succ_cons]
      dsimp only
      by_cases last : sgi = tinfo.sgs - 1
      · have rest : ready.cbs.drop (sgi + 1) = [] := List.drop_eq_nil_of_le (by omega)
        rw [rest, List.take_nil]
        cases repeats : flagged tinfo.modeFlags DMA_MODE_FLAG_REPEAT with
        | true =>
            have stops : count = 0 := by
              rcases once with few | never
              · omega
              · rw [repeats] at never
                cases never
            rw [stops]
            cases ready.cbs[sgi].next with
            | none => rfl
            | some next => rfl
        | false =>
            have ends : (cbParams ready tinfo sgi).nextcb = 0 := by
              simp [cbParams, last, repeats]
            rw [setcb_next_none built ends]
      · have more : sgi + 1 < tinfo.sgs := by omega
        have place := (placed.block (by rw [isSetUp.frgsNum]; exact more)).1
        have pointer : (cbParams ready tinfo sgi).nextcb =
            ready.cb.paddr + DMA_CB_SIZE * (sgi + 1) := by
          simp [cbParams, last, Nat.mul_comm]
        have positive : 0 < (cbParams ready tinfo sgi).nextcb := by
          rw [pointer]
          exact Nat.lt_of_lt_of_le (Nat.mul_pos (by decide) (Nat.succ_pos sgi))
            (Nat.le_add_left _ _)
        rw [← pointer] at place
        rw [setcb_next_some built positive place, pointer]
        dsimp only
        rw [ih more]
        rcases once with few | never
        · exact Or.inl (by omega)
        · exact Or.inr never

/-- One pass of the chain: as many blocks as there are fragments, or any larger number when
the chain has an end. -/
def OnePass (tinfo : DmaTransfer) (count : Nat) : Prop :=
  count = tinfo.sgs ∨
    tinfo.sgs ≤ count ∧ flagged tinfo.modeFlags DMA_MODE_FLAG_REPEAT = false

/-- In one pass, an engine goes through exactly the blocks that were set up. -/
theorem chain_onePass (isSetUp : SetUp chan tinfo ready) (placed : BufferPlaced ready)
    {count : Nat} (onePass : OnePass tinfo count) :
    ready.chain count ready.firstCell = ready.cbs := by
  have length := isSetUp.blocks.1
  have enough : ready.cbs.length ≤ count := by
    rw [length]
    rcases onePass with same | ⟨more, _⟩
    · exact le_of_eq same.symm
    · exact more
  by_cases empty : tinfo.sgs = 0
  · have noBlock : ready.cbs = [] := List.eq_nil_of_length_eq_zero (length.trans empty)
    cases count with
    | zero => rw [noBlock, DmaChannel.chain]
    | succ count =>
        have nothing : ready.fetch ready.firstCell = none := by
          unfold DmaChannel.fetch
          rw [noBlock]
          split
          · rfl
          · rfl
        rw [DmaChannel.chain, nothing, noBlock]
  · have positive : 0 < tinfo.sgs := Nat.pos_of_ne_zero empty
    have someBlock : 0 < ready.frgsNum := by
      rw [isSetUp.frgsNum]
      exact positive
    have once : 0 + count ≤ tinfo.sgs ∨
        flagged tinfo.modeFlags DMA_MODE_FLAG_REPEAT = false := by
      rcases onePass with same | ⟨_, never⟩
      · exact Or.inl (by omega)
      · exact Or.inr never
    have whole := chain_from isSetUp placed positive once
    rw [Nat.mul_zero, Nat.add_zero, List.drop_zero, List.take_of_length_le enough] at whole
    rw [placed.firstCell someBlock]
    exact whole

end Chain

end Bcm2711.Dma
