import Bcm2711.Dma.Scatter

/-! # The bytes that are left

`dma_bytes_left` finds the number of the current control block from the address the engine
reports, adds up the lengths of the blocks from that one on, and adds the outstanding
writes.  The first block is taken for no block at all.
-/

namespace Bcm2711.Dma

/-! ## The calls -/

/-- `DMA_DEBUG_OUTSTANDING_WRITES`. -/
def DMA_DEBUG_OUTSTANDING_WRITES : Nat := 0xf <<< 4

/-- `DMA4_DEBUG2_OUTSTANDING_WRITES_MSK`. -/
def DMA4_DEBUG2_OUTSTANDING_WRITES_MSK : Nat := 0x1ff

/-- `len_mask`. -/
def DmaChInfo.lenMask (info : DmaChInfo) : Nat := if info.isDmalite then 0xffff else 0x3fffffff

/-- The length of a control block in the buffer. -/
def DmaChannel.blockLen (chan : DmaChannel) (frg : Nat) : Nat :=
  (chan.cbs[frg]?).elim 0 ControlBlock.len

/-- The loop over the control blocks, from `next_frg` up to `frgs_num`. -/
def bytesNxtcbs (chan : DmaChannel) (lenMask : Nat) : (fuel nextFrg bytes : Nat) → Nat
  | 0, _, bytes => bytes
  | fuel + 1, nextFrg, bytes =>
      if nextFrg < chan.frgsNum then
        bytesNxtcbs chan lenMask fuel (nextFrg + 1)
          (Word.add 32 bytes (chan.blockLen nextFrg &&& lenMask))
      else bytes

/-- What `bytes_left_dma` and `bytes_left_dma4` share, from the number of the current block. -/
def bytesLeftFrom (chan : DmaChannel) (lenMask xferCount nextFrg : Nat) : Nat :=
  let bytes :=
    if chan.frgsNum ≠ 0 ∧ nextFrg ≠ 0 then bytesNxtcbs chan lenMask chan.frgsNum nextFrg 0 else 0
  Word.add 32 (xferCount * chan.xferUnitSize % 2 ^ 32) bytes

/-- `bytes_left_dma`, from `DMA_CONBLK_AD` and `DMA_DEBUG`. -/
def bytesLeftDma (chan : DmaChannel) (conblkAd debug : Nat) : Nat :=
  let nextFrg := Word.sub 32 conblkAd (dmaLegacyAddr (chan.cb.paddr % 2 ^ 32)) / DMA_CB_SIZE
  bytesLeftFrom chan chan.info.lenMask ((debug &&& DMA_DEBUG_OUTSTANDING_WRITES) >>> 4) nextFrg

/-- `bytes_left_dma4`, from `DMA4_CB` and `DMA4_DEBUG2`. -/
def bytesLeftDma4 (chan : DmaChannel) (cb debug : Nat) : Nat :=
  let nextFrg := Word.sub 64 (cb <<< 5) (dma4FullAddr chan.cb.paddr) % 2 ^ 32 / DMA_CB_SIZE
  bytesLeftFrom chan 0x3fffffff (debug &&& DMA4_DEBUG2_OUTSTANDING_WRITES_MSK) nextFrg

/-- `dma_bytes_left`. -/
def dmaBytesLeft (chan : DmaChannel) (cbReg debugReg : Nat) : Nat :=
  if chan.info.isDma4 then bytesLeftDma4 chan cbReg debugReg else bytesLeftDma chan cbReg debugReg

/-! ## The current block -/

/-- What the engine reports while it is at a control block. -/
def DmaChannel.currentCb (chan : DmaChannel) (frg : Nat) : Nat :=
  if chan.info.isDma4 then
    (dma4FullAddr (chan.cb.paddr + DMA_CB_SIZE * frg) >>> 5) % 2 ^ 32
  else dmaLegacyAddr ((chan.cb.paddr + DMA_CB_SIZE * frg) % 2 ^ 32)

/-- The number of outstanding writes that the engine reports. -/
def DmaChInfo.xferCount (info : DmaChInfo) (debugReg : Nat) : Nat :=
  if info.isDma4 then debugReg &&& DMA4_DEBUG2_OUTSTANDING_WRITES_MSK
  else (debugReg &&& DMA_DEBUG_OUTSTANDING_WRITES) >>> 4

variable {chan ready : DmaChannel} {tinfo : DmaTransfer}

theorem dma4_lenMask {info : DmaChInfo} {chanIdx : Fin 15} (isInfo : info = chsInfo chanIdx)
    (isDma4 : info.isDma4 = true) : info.lenMask = 0x3fffffff := by
  subst isInfo
  revert isDma4
  revert chanIdx
  decide

/-- The address of a block tells its number. -/
theorem nextFrg_legacy (placed : BufferPlaced ready) (isLegacy : ¬ ready.info.isDma4) {frg : Nat}
    (inside : frg < ready.frgsNum) :
    Word.sub 32 (ready.currentCb frg) (dmaLegacyAddr (ready.cb.paddr % 2 ^ 32)) / DMA_CB_SIZE =
      frg := by
  have room : DMA_CB_SIZE * frg < DMA_CB_SIZE * ready.frgsNum :=
    Nat.mul_lt_mul_of_pos_left inside (by decide)
  have distance : ready.currentCb frg =
      dmaLegacyAddr (ready.cb.paddr % 2 ^ 32) + DMA_CB_SIZE * frg ∧
        ready.currentCb frg < 2 ^ 32 := by
    obtain ⟨window, member, lower, upper⟩ := placed.reach
    rw [DmaChannel.currentCb, if_neg isLegacy]
    rw [DmaChInfo.windows, if_neg isLegacy] at member
    rcases List.mem_cons.mp member with rfl | member
    · dsimp only at upper
      rw [Nat.mod_eq_of_lt (by omega), Nat.mod_eq_of_lt (by omega), dmaLegacyAddr_memory (by omega),
        dmaLegacyAddr_memory (by omega)]
      omega
    · obtain rfl := List.mem_singleton.mp member
      dsimp only at lower upper
      rw [Nat.mod_eq_of_lt (by omega), Nat.mod_eq_of_lt (by omega),
        dmaLegacyAddr_peripheral (by omega) (by omega),
        dmaLegacyAddr_peripheral (by omega) (by omega)]
      omega
  rw [Word.sub_of_le (by omega) distance.2, distance.1, Nat.add_sub_cancel_left,
    Nat.mul_div_cancel_left _ (by decide)]

theorem nextFrg_dma4 (placed : BufferPlaced ready) (isDma4 : ready.info.isDma4)
    (buffered : DMA_CB_SIZE * ready.frgsNum ≤ ready.cb.len) {frg : Nat}
    (inside : frg < ready.frgsNum) :
    Word.sub 64 (ready.currentCb frg <<< 5) (dma4FullAddr ready.cb.paddr) % 2 ^ 32 / DMA_CB_SIZE =
      frg := by
  obtain ⟨place, same⟩ := placed.block inside
  have room : DMA_CB_SIZE * frg < 2 ^ 32 :=
    (Nat.mul_lt_mul_of_pos_left inside (by decide)).trans (buffered.trans_lt ready.cb.len_lt)
  have base : dma4FullAddr ready.cb.paddr = armCell ready.cb.paddr :=
    dma4FullAddr_eq (by have := place.small; omega)
  have small : armCell ready.cb.paddr + DMA_CB_SIZE * frg < 2 ^ 40 := by
    rw [← same]
    have bound := place.small
    unfold armCell
    split
    · omega
    · omega
  have current : ready.currentCb frg <<< 5 = armCell ready.cb.paddr + DMA_CB_SIZE * frg := by
    have found := place.dma4.1
    have shifted : 32 * ready.currentCb frg < 2 ^ 40 := by
      rw [DmaChannel.currentCb, if_pos isDma4]
      omega
    rw [DmaChannel.currentCb, if_pos isDma4] at shifted ⊢
    rw [Nat.mod_eq_of_lt shifted, same] at found
    rw [Nat.shiftLeft_eq, Nat.mul_comm]
    exact found
  rw [current, base, Word.sub_of_le (Nat.le_add_right _ _) (by omega), Nat.add_sub_cancel_left,
    Nat.mod_eq_of_lt room, Nat.mul_div_cancel_left _ (by decide)]

/-- The result, from the number of the block that the engine reports. -/
theorem dmaBytesLeft_eq (placed : BufferPlaced ready)
    (buffered : DMA_CB_SIZE * ready.frgsNum ≤ ready.cb.len) {frg : Nat}
    (inside : frg < ready.frgsNum) (debugReg : Nat) :
    dmaBytesLeft ready (ready.currentCb frg) debugReg =
      bytesLeftFrom ready ready.info.lenMask (ready.info.xferCount debugReg) frg := by
  unfold dmaBytesLeft DmaChInfo.xferCount
  by_cases isDma4 : ready.info.isDma4
  · have mask : ready.info.lenMask = 0x3fffffff := dma4_lenMask rfl isDma4
    rw [if_pos isDma4, if_pos isDma4, bytesLeftDma4, nextFrg_dma4 placed isDma4 buffered inside,
      mask]
  · rw [if_neg isDma4, if_neg isDma4, bytesLeftDma, nextFrg_legacy placed isDma4 inside]

/-! ## What is counted -/

/-- The lengths of the blocks from a number on. -/
def DmaChannel.lensFrom (chan : DmaChannel) (frg : Nat) : List Nat :=
  (chan.cbs.drop frg).map ControlBlock.len

/-- The lengths as they are counted. -/
def DmaChannel.maskedFrom (chan : DmaChannel) (frg : Nat) : List Nat :=
  (chan.lensFrom frg).map fun len => len &&& chan.info.lenMask

/-- The bytes of the outstanding writes. -/
def DmaChannel.outstanding (chan : DmaChannel) (debugReg : Nat) : Nat :=
  chan.info.xferCount debugReg * chan.xferUnitSize

/-- What the mask cuts off the lengths of the blocks from a number on: all of a block of
exactly a gigabyte, and nothing of a shorter one. -/
def DmaChannel.cutOffFrom (chan : DmaChannel) (frg : Nat) : Nat :=
  ((chan.lensFrom frg).map fun len => len - (len &&& chan.info.lenMask)).sum

/-- The block at a number and the blocks behind it. -/
theorem maskedFrom_cons (counted : ready.cbs.length = ready.frgsNum) {frg : Nat}
    (inside : frg < ready.frgsNum) :
    ready.maskedFrom frg = (ready.blockLen frg &&& ready.info.lenMask) ::
      ready.maskedFrom (frg + 1) := by
  have bound : frg < ready.cbs.length := by omega
  rw [DmaChannel.maskedFrom, DmaChannel.lensFrom, List.drop_eq_getElem_cons bound,
    DmaChannel.blockLen, List.getElem?_eq_getElem bound]
  rfl

/-- The loop adds up the lengths of the blocks it comes to. -/
theorem bytesNxtcbs_eq (counted : ready.cbs.length = ready.frgsNum) {fuel frg : Nat}
    (enough : ready.frgsNum ≤ fuel + frg) (bytes : Nat) (small : bytes < 2 ^ 32) :
    bytesNxtcbs ready ready.info.lenMask fuel frg bytes =
      (bytes + (ready.maskedFrom frg).sum) % 2 ^ 32 := by
  induction fuel generalizing frg bytes with
  | zero =>
      have noBlock : ready.cbs.drop frg = [] := List.drop_eq_nil_of_le (by omega)
      rw [bytesNxtcbs, DmaChannel.maskedFrom, DmaChannel.lensFrom, noBlock]
      exact (Nat.mod_eq_of_lt small).symm
  | succ fuel ih =>
      rw [bytesNxtcbs]
      by_cases inside : frg < ready.frgsNum
      · rw [if_pos inside, ih (by omega) _ (Word.add_lt 32 _ _), maskedFrom_cons counted inside,
          List.sum_cons, Word.add, Nat.mod_add_mod, Nat.add_assoc]
      · have noBlock : ready.cbs.drop frg = [] := List.drop_eq_nil_of_le (by omega)
        rw [if_neg inside, DmaChannel.maskedFrom, DmaChannel.lensFrom, noBlock]
        exact (Nat.mod_eq_of_lt small).symm

/-- What is counted and what is cut off are the lengths. -/
theorem masked_add_cutOff (chan : DmaChannel) (frg : Nat) :
    (chan.maskedFrom frg).sum + chan.cutOffFrom frg = (chan.lensFrom frg).sum := by
  unfold DmaChannel.maskedFrom DmaChannel.cutOffFrom
  induction chan.lensFrom frg with
  | nil => rfl
  | cons len rest ih =>
      have less : len &&& chan.info.lenMask ≤ len := Nat.and_le_left
      simp only [List.map_cons, List.sum_cons] at ih ⊢
      omega

/-- An accepted transfer has units of at most 16 bytes. -/
theorem SetUp.unit_le (isSetUp : SetUp chan tinfo ready) (someBlock : 0 < tinfo.sgs) :
    ready.xferUnitSize ≤ 16 := by
  obtain ⟨length, blocks⟩ := isSetUp.blocks
  have bound : 0 < ready.cbs.length := by omega
  have built := blocks 0 _ (List.getElem?_eq_getElem bound)
  unfold setcb at built
  split at built
  · obtain ⟨_, isSet, _⟩ := Option.map_eq_some_iff.mp built
    obtain ⟨size, isSize, _⟩ := Option.map_eq_some_iff.mp isSet
    unfold dma4Size at isSize
    split at isSize
    · next is4 => rw [is4]; decide
    · next is8 => rw [is8]; decide
    · next is16 => rw [is16]
    · cases isSize
  · obtain ⟨_, isSet, _⟩ := Option.map_eq_some_iff.mp built
    obtain ⟨width, isWidth, _⟩ := Option.map_eq_some_iff.mp isSet
    unfold dmaWidth at isWidth
    split at isWidth
    · next is4 => rw [is4]; decide
    · next is16 => rw [is16]
    · cases isWidth

/-- The engine reports a few outstanding writes at most. -/
theorem xferCount_le (info : DmaChInfo) (debugReg : Nat) : info.xferCount debugReg ≤ 0x1ff := by
  unfold DmaChInfo.xferCount
  split
  · exact Nat.and_le_right
  · have few : debugReg &&& DMA_DEBUG_OUTSTANDING_WRITES ≤ 0xf0 := Nat.and_le_right
    have less : (debugReg &&& DMA_DEBUG_OUTSTANDING_WRITES) >>> 4 ≤
        debugReg &&& DMA_DEBUG_OUTSTANDING_WRITES := by
      rw [Nat.shiftRight_eq_div_pow]
      exact Nat.div_le_self _ _
    exact less.trans (few.trans (by decide))

/-- When the later blocks are counted: the current one is not the first, what the mask cuts off
the later ones is made up for, and the sum does not wrap; behind the first block, the outstanding
writes alone are counted. -/
def LaterCounted (ready : DmaChannel) (frg debugReg : Nat) : Prop :=
  if frg = 0 then (ready.lensFrom 1).sum ≤ ready.outstanding debugReg
  else
    ready.cutOffFrom (frg + 1) ≤
        ready.outstanding debugReg + (ready.blockLen frg &&& ready.info.lenMask) ∧
      ready.outstanding debugReg + (ready.maskedFrom frg).sum < 2 ^ 32

/-- **The later blocks are counted**: while the engine is at a block, `dma_bytes_left` returns at
least the lengths of the blocks behind it exactly when these are counted. -/
theorem dmaBytesLeft_covers_iff (isSetUp : SetUp chan tinfo ready) (placed : BufferPlaced ready)
    (buffered : DMA_CB_SIZE * ready.frgsNum ≤ ready.cb.len) {frg : Nat} (inside : frg < tinfo.sgs)
    (debugReg : Nat) :
    (ready.lensFrom (frg + 1)).sum ≤ dmaBytesLeft ready (ready.currentCb frg) debugReg ↔
      LaterCounted ready frg debugReg := by
  have counted : ready.cbs.length = ready.frgsNum := by
    rw [isSetUp.blocks.1, isSetUp.frgsNum]
  have bound : frg < ready.frgsNum := by
    rw [isSetUp.frgsNum]
    exact inside
  have some_block : ready.frgsNum ≠ 0 := Nat.ne_zero_of_lt bound
  have few : ready.outstanding debugReg ≤ 0x1ff * 16 :=
    Nat.mul_le_mul (xferCount_le _ _) (isSetUp.unit_le (Nat.zero_lt_of_lt inside))
  have pending : ready.info.xferCount debugReg * ready.xferUnitSize % 2 ^ 32 =
      ready.outstanding debugReg := by
    apply Nat.mod_eq_of_lt
    change ready.outstanding debugReg < 2 ^ 32
    omega
  rw [dmaBytesLeft_eq placed buffered bound, bytesLeftFrom, LaterCounted, pending]
  by_cases first : frg = 0
  · subst first
    rw [if_neg (fun notFirst => notFirst.2 rfl), if_pos rfl, Word.add, Nat.mod_eq_of_lt (by omega)]
    exact Iff.rfl
  · have current : ready.blockLen frg &&& ready.info.lenMask ≤ 0x3fffffff := by
      refine Nat.and_le_right.trans ?_
      unfold DmaChInfo.lenMask
      split
      · decide
      · exact le_rfl
    have later := masked_add_cutOff ready (frg + 1)
    have parts := congrArg List.sum (maskedFrom_cons counted bound)
    rw [List.sum_cons] at parts
    rw [if_pos ⟨some_block, first⟩, if_neg first, bytesNxtcbs_eq counted (by omega) 0 (by decide),
      Nat.zero_add, Word.add, Nat.add_mod_mod]
    by_cases wraps : ready.outstanding debugReg + (ready.maskedFrom frg).sum < 2 ^ 32
    · rw [Nat.mod_eq_of_lt wraps]
      omega
    · have less : (ready.outstanding debugReg + (ready.maskedFrom frg).sum) % 2 ^ 32 + 2 ^ 32 ≤
          ready.outstanding debugReg + (ready.maskedFrom frg).sum := by omega
      omega

/-! ## Two blocks -/

theorem halves_setUp : SetUp plainChannel (toHalves 2 16) (halvesReady 2 16) :=
  @setUp_of_accepted (fun _ => none) _ _ _ (Prod.ext rfl (by decide))

theorem halves_placed : BufferPlaced (halvesReady 2 16) := ⟨by decide, by decide, by decide⟩

/-- At the second of two blocks nothing is left behind it. -/
theorem secondHalf_counted :
    1 < (toHalves 2 16).sgs ∧ ((halvesReady 2 16).lensFrom 2).sum ≤
      dmaBytesLeft (halvesReady 2 16) ((halvesReady 2 16).currentCb 1) 0 := by
  have inside : 1 < (toHalves 2 16).sgs := by decide
  refine ⟨inside, (dmaBytesLeft_covers_iff halves_setUp halves_placed (by decide) inside 0).mpr ?_⟩
  exact ⟨by decide, by decide⟩

/-- At the first of two blocks no byte is said to be left. -/
theorem firstHalf_uncounted :
    dmaBytesLeft (halvesReady 2 16) ((halvesReady 2 16).currentCb 0) 0 = 0 ∧
      ((halvesReady 2 16).lensFrom 1).sum = 16 ∧
      ¬ ((halvesReady 2 16).lensFrom 1).sum ≤
        dmaBytesLeft (halvesReady 2 16) ((halvesReady 2 16).currentCb 0) 0 := by
  have none_left : dmaBytesLeft (halvesReady 2 16) ((halvesReady 2 16).currentCb 0) 0 = 0 := by
    decide
  have later : ((halvesReady 2 16).lensFrom 1).sum = 16 := by decide
  refine ⟨none_left, later, ?_⟩
  rw [none_left, later]
  decide

end Bcm2711.Dma
