import Bcm2711.Dma.Engine

/-! # Copies between fragments

A copy from memory to memory brings the source fragments, joined, to the destination
fragments.  The control blocks pair the fragments by their number, and a side with a single
fragment is started anew by every block.
-/

namespace Bcm2711.Dma

open SeqCopy

/-! ## Fragments -/

/-- The bytes from an address on. -/
def cellsFrom (paddr len : Nat) : List Nat :=
  (List.range len).map fun offset => armCell (paddr + offset)

/-- The bytes of fragments, joined. -/
def cells (frags : List DmaAddr) : List Nat :=
  frags.flatMap fun addr => cellsFrom addr.paddr addr.len

/-- Moves read and write the fragments only, and leave in the joined destination fragments
what was in the joined source fragments. -/
structure Copies (moves : List (Move Nat)) (tinfo : DmaTransfer) : Prop where
  reads : ∀ move ∈ moves, move.src ∈ cells tinfo.src
  writes : ∀ move ∈ moves, move.dst ∈ cells tinfo.dst
  copied : ∀ memory : Nat → UInt8,
    (cells tinfo.dst).map (run moves memory) = (cells tinfo.src).map memory

/-- The engine reaches all fragments, and the destination fragments overlap neither each other
nor the source. -/
structure FragmentsApart (info : DmaChInfo) (tinfo : DmaTransfer) : Prop where
  src : ∀ addr ∈ tinfo.src, InReach info addr.paddr addr.len
  dst : ∀ addr ∈ tinfo.dst, InReach info addr.paddr addr.len
  distinct : (cells tinfo.dst).Nodup
  apart : ∀ cell ∈ cells tinfo.src, cell ∉ cells tinfo.dst

/-- The lengths of the fragments of one side. -/
def lengths (frags : List DmaAddr) : List Nat := frags.map DmaAddr.len

/-- Fragments of the same number have the same length, or one side is a single fragment and
the other has no more than that, but for empty fragments. -/
def PairsUp (tinfo : DmaTransfer) : Prop :=
  lengths tinfo.src = lengths tinfo.dst ∨
    (tinfo.srcFragments = 1 ∨ tinfo.dstFragments = 1) ∧
      (lengths tinfo.src).filter (0 < ·) = (lengths tinfo.dst).filter (0 < ·)

theorem length_cellsFrom (paddr len : Nat) : (cellsFrom paddr len).length = len := by
  rw [cellsFrom, List.length_map, List.length_range]

theorem length_cells (frags : List DmaAddr) : (cells frags).length = (lengths frags).sum := by
  rw [cells, List.length_flatMap, lengths]
  simp only [length_cellsFrom]

/-- The first byte of a fragment stands behind the bytes of the fragments before it. -/
theorem cells_first {frags : List DmaAddr} {index : Nat} {addr : DmaAddr}
    (there : frags[index]? = some addr) (positive : 0 < addr.len) :
    (cells frags)[((lengths frags).take index).sum]? = some (armCell addr.paddr) := by
  obtain ⟨bound, isAddr⟩ := List.getElem?_eq_some_iff.mp there
  have parts : frags = frags.take index ++ addr :: frags.drop (index + 1) := by
    rw [← isAddr, List.getElem_cons_drop, List.take_append_drop]
  have before : ((lengths frags).take index).sum = (cells (frags.take index)).length := by
    rw [length_cells, lengths, lengths, List.map_take]
  have joined : cells frags =
      cells (frags.take index) ++
        (cellsFrom addr.paddr addr.len ++ cells (frags.drop (index + 1))) := by
    conv_lhs => rw [parts]
    rw [cells, List.flatMap_append, List.flatMap_cons]
    rfl
  have first : 0 < (cellsFrom addr.paddr addr.len).length := by
    rw [length_cellsFrom]
    exact positive
  rw [before, joined, List.getElem?_append_right le_rfl, Nat.sub_self,
    List.getElem?_append_left first, cellsFrom, List.getElem?_map, List.getElem?_range positive]
  rfl

/-! ## What an accepted copy is -/

section Accepted

variable {alloc : Nat → Option Nat} {chan ready : DmaChannel} {tinfo : DmaTransfer}

/-- A copy from memory to memory with incrementing addresses. -/
structure MemoryCopy (tinfo : DmaTransfer) : Prop where
  xferType : getXferType tinfo.srcFlags tinfo.dstFlags = .memoryToMemory
  srcInc : flagged tinfo.srcFlags DMA_ADDR_FLAG_NO_INCREMENT = false
  dstInc : flagged tinfo.dstFlags DMA_ADDR_FLAG_NO_INCREMENT = false

/-- Of the type flags only the one for memory is set on both sides. -/
theorem getXferType_memory {srcFlags dstFlags : Nat}
    (isCopy : getXferType srcFlags dstFlags = .memoryToMemory) :
    srcFlags &&& DMA_XFER_TYPE_FLAG = DMA_ADDR_FLAG_MEMORY ∧
      dstFlags &&& DMA_XFER_TYPE_FLAG = DMA_ADDR_FLAG_MEMORY := by
  have srcSmall : srcFlags &&& DMA_XFER_TYPE_FLAG < 8 :=
    Nat.and_le_right.trans_lt (by decide)
  have dstSmall : dstFlags &&& DMA_XFER_TYPE_FLAG < 8 :=
    Nat.and_le_right.trans_lt (by decide)
  have table : ∀ src < 8, ∀ dst < 8,
      (if popcount src ≠ 1 ∨ popcount dst ≠ 1 ∨ 3 ≤ src >>> 1 ∨ 3 ≤ dst >>> 1 then
        DmaXferType.unknown
      else (xferTypes.getD (src >>> 1) []).getD (dst >>> 1) .unknown) = .memoryToMemory →
      src = DMA_ADDR_FLAG_MEMORY ∧ dst = DMA_ADDR_FLAG_MEMORY := by decide
  exact table _ srcSmall _ dstSmall isCopy

theorem notDevice {flags : Nat} (memory : flags &&& DMA_XFER_TYPE_FLAG = DMA_ADDR_FLAG_MEMORY) :
    flagged flags DMA_ADDR_FLAG_DEVICE = false := by
  have masked : flags &&& DMA_ADDR_FLAG_DEVICE =
      flags &&& DMA_XFER_TYPE_FLAG &&& DMA_ADDR_FLAG_DEVICE := by
    rw [Nat.and_assoc]
    rfl
  rw [flagged, masked, memory]
  rfl

/-- The total length found by the loop over the fragments wraps. -/
theorem checkFragments_total {info : DmaChInfo} {unit flags total result : Nat}
    {frags : List DmaAddr} (small : total < 2 ^ 32)
    (found : checkFragments info unit flags frags total = some result) :
    result = (total + (lengths frags).sum) % 2 ^ 32 := by
  induction frags generalizing total with
  | nil =>
      cases found
      exact (Nat.mod_eq_of_lt small).symm
  | cons addr rest ih =>
      rw [checkFragments] at found
      split at found
      · cases found
      · split at found
        · cases found
        · rw [ih (Word.add_lt 32 total addr.len) found, Word.add, Nat.mod_add_mod, lengths, lengths,
            List.map_cons, List.sum_cons, Nat.add_assoc]

/-- What the comparison of lengths leaves of a copy from memory to memory. -/
theorem accepted_lengths (checked : checkTinfoParams chan tinfo = true)
    (memory : MemoryCopy tinfo) :
    if tinfo.srcFragments = tinfo.dstFragments then
      (lengths tinfo.src).sum % 2 ^ 32 = tinfo.xferBytes ∧
        (lengths tinfo.dst).sum % 2 ^ 32 = tinfo.xferBytes
    else if tinfo.srcFragments = 1 then (lengths tinfo.dst).sum % 2 ^ 32 = tinfo.xferBytes
    else if tinfo.dstFragments = 1 then (lengths tinfo.src).sum % 2 ^ 32 = tinfo.xferBytes
    else False := by
  obtain ⟨srcMemory, dstMemory⟩ := getXferType_memory memory.xferType
  have srcDevice := notDevice srcMemory
  have dstDevice := notDevice dstMemory
  unfold checkTinfoParams at checked
  dsimp only at checked
  split at checked
  · cases checked
  · split at checked
    · cases checked
    · split at checked
      · next srcTotal dstTotal src dst =>
          have srcSum := checkFragments_total (Nat.two_pow_pos 32) src
          have dstSum := checkFragments_total (Nat.two_pow_pos 32) dst
          rw [Nat.zero_add] at srcSum dstSum
          rw [← srcSum, ← dstSum]
          split at checked
          · cases checked
          · next agree =>
              simp only [checkLengths, srcDevice, dstDevice, Bool.false_eq_true, if_false,
                not_not] at agree
              split at agree
              · next same =>
                  rw [if_pos same]
                  simpa using agree
              · next differ =>
                  rw [if_neg differ]
                  split at agree
                  · next single =>
                      rw [if_pos single]
                      simpa using agree
                  · next several =>
                      rw [if_neg several]
                      split at agree
                      · next single =>
                          rw [if_pos single]
                          simpa using agree
                      · cases agree
      · cases checked

end Accepted

/-! ## Blocks -/

section Blocks

variable {chan ready : DmaChannel} {tinfo : DmaTransfer} {count : Nat}

theorem cells_range (addrs : Nat → DmaAddr) (fragments : Nat) :
    cells ((List.range fragments).map addrs) =
      (List.range fragments).flatMap fun sgi => cellsFrom (addrs sgi).paddr (addrs sgi).len := by
  rw [cells, List.flatMap_map]

theorem lengths_range (addrs : Nat → DmaAddr) (fragments : Nat) :
    lengths ((List.range fragments).map addrs) =
      (List.range fragments).map fun sgi => (addrs sgi).len := by
  rw [lengths, List.map_map]
  rfl

/-- What a block with these parameters copies. -/
def blockMoves (info : DmaChInfo) (params : DmaCbParams) : List (Move Nat) :=
  (List.range params.len).map fun offset =>
    ⟨info.cell params.srcPaddr offset, info.cell params.dstPaddr offset⟩

/-- In reach, a block copies the bytes from the one address on to the other. -/
theorem blockMoves_eq {info : DmaChInfo} {params : DmaCbParams}
    (src : InReach info params.srcPaddr params.len)
    (dst : InReach info params.dstPaddr params.len) :
    blockMoves info params =
      pair (cellsFrom params.srcPaddr params.len) (cellsFrom params.dstPaddr params.len) := by
  rw [pair, cellsFrom, cellsFrom, List.zipWith_map, List.zipWith_self, blockMoves]
  apply List.map_congr_left
  intro offset member
  have inside := List.mem_range.mp member
  rw [cell_of_inReach src inside, cell_of_inReach dst inside]

/-- Every block is set up with incrementing addresses. -/
theorem cbParams_inc (memory : MemoryCopy tinfo) (sgi : Nat) :
    flagged (cbParams ready tinfo sgi).info SRC_INC = true ∧
      flagged (cbParams ready tinfo sgi).info DST_INC = true := by
  obtain ⟨srcMemory, dstMemory⟩ := getXferType_memory memory.xferType
  simp only [cbParams, setupInfo, notDevice srcMemory, notDevice dstMemory, memory.srcInc,
    memory.dstInc, SRC_INC, DST_INC, flagged_or, Bool.false_eq_true, if_false, Bool.not_false]
  exact ⟨rfl, rfl⟩

/-- Joined lists of results are joined lists of arguments. -/
theorem flatMap_of_forall₂ {α β γ : Type} {related : α → β → Prop} {indices : List α}
    {results : List β} (all : List.Forall₂ related indices results) {one : β → List γ}
    {other : α → List γ} (same : ∀ index result, related index result → one result = other index) :
    results.flatMap one = indices.flatMap other := by
  induction all with
  | nil => rfl
  | cons first _ ih => rw [List.flatMap_cons, List.flatMap_cons, same _ _ first, ih]

/-- In one pass, the engine copies block after block. -/
theorem moves_onePass (isSetUp : SetUp chan tinfo ready) (placed : BufferPlaced ready)
    (onePass : OnePass tinfo count) (memory : MemoryCopy tinfo) :
    ready.moves count = (List.range tinfo.sgs).flatMap fun sgi =>
      blockMoves ready.info (cbParams ready tinfo sgi) := by
  rw [DmaChannel.moves, chain_onePass isSetUp placed onePass]
  apply flatMap_of_forall₂ (forall₂_of_mapM isSetUp.cbs)
  intro sgi cb built
  obtain ⟨srcInc, dstInc⟩ := @cbParams_inc ready tinfo memory sgi
  exact setcb_moves built srcInc dstInc

end Blocks

/-! ## Pairing -/

section Pairing

variable {chan ready : DmaChannel} {tinfo : DmaTransfer} {count : Nat}

/-- Parts that are empty can be left out of a joined list. -/
theorem flatMap_filter {ι γ : Type} {indices : List ι} {parts : ι → List γ} {keep : ι → Bool}
    (nothing : ∀ index ∈ indices, keep index = false → parts index = []) :
    (indices.filter keep).flatMap parts = indices.flatMap parts := by
  induction indices with
  | nil => rfl
  | cons index rest ih =>
      have others := ih fun other member => nothing other (List.mem_cons_of_mem _ member)
      rw [List.flatMap_cons, ← others]
      cases kept : keep index with
      | true => rw [List.filter_cons_of_pos kept, List.flatMap_cons]
      | false =>
          have dropped : ¬ keep index = true := by
            rw [kept]
            exact Bool.false_ne_true
          rw [List.filter_cons_of_neg dropped, nothing index List.mem_cons_self kept,
            List.nil_append]

/-- Where all fragments of one side but one as long as the single fragment of the other are
empty, that one makes up the side. -/
theorem only_pair {addrs : Nat → DmaAddr} {fragments : Nat} {single : DmaAddr}
    {parts : Nat → List (Move Nat)} {join : List Nat → List Nat → List (Move Nat)}
    (only : (lengths ((List.range fragments).map addrs)).filter (0 < ·) =
      (lengths [single]).filter (0 < ·))
    (nothing : join [] [] = [])
    (empty : ∀ sgi < fragments, (addrs sgi).len = 0 → parts sgi = [])
    (full : ∀ sgi < fragments, (addrs sgi).len = single.len →
      parts sgi = join (cellsFrom single.paddr single.len)
        (cellsFrom (addrs sgi).paddr (addrs sgi).len)) :
    (List.range fragments).flatMap parts =
      join (cells [single]) (cells ((List.range fragments).map addrs)) := by
  have emptyParts : ∀ sgi ∈ List.range fragments, decide (0 < (addrs sgi).len) = false →
      parts sgi = [] := by
    intro sgi member noLength
    exact empty sgi (List.mem_range.mp member) (by simpa using noLength)
  have emptyCells : ∀ sgi ∈ List.range fragments, decide (0 < (addrs sgi).len) = false →
      cellsFrom (addrs sgi).paddr (addrs sgi).len = [] := by
    intro sgi _ noLength
    have zero : (addrs sgi).len = 0 := by simpa using noLength
    rw [zero]
    rfl
  have joined : cells [single] = cellsFrom single.paddr single.len := by
    rw [cells, List.flatMap_singleton]
  rw [lengths_range, List.filter_map, lengths, List.map_singleton] at only
  rw [joined, cells_range, ← flatMap_filter emptyParts, ← flatMap_filter emptyCells]
  rcases Nat.eq_zero_or_pos single.len with zero | positive
  · have noPart : (List.range fragments).filter (fun sgi => 0 < (addrs sgi).len) = [] := by
      rw [zero] at only
      exact List.map_eq_nil_iff.mp only
    rw [noPart, zero]
    exact nothing.symm
  · have onePart : [single.len].filter (0 < ·) = [single.len] := by simp [positive]
    rw [onePart] at only
    obtain ⟨sgi, isOnly, long⟩ := List.map_eq_singleton_iff.mp only
    have isOnly : (List.range fragments).filter (fun sgi => 0 < (addrs sgi).len) = [sgi] := isOnly
    have member : sgi ∈ List.range fragments := by
      apply List.mem_of_mem_filter
      rw [isOnly]
      exact List.mem_singleton_self sgi
    rw [isOnly, List.flatMap_singleton, List.flatMap_singleton]
    exact full sgi (List.mem_range.mp member) long

/-- A fragment that a number tells. -/
theorem reach_of_lt {info : DmaChInfo} {addrs : Nat → DmaAddr} {fragments sgi : Nat}
    (reach : ∀ addr ∈ (List.range fragments).map addrs, InReach info addr.paddr addr.len)
    (inside : sgi < fragments) : InReach info (addrs sgi).paddr (addrs sgi).len :=
  reach _ (List.mem_map_of_mem (List.mem_range.mpr inside))

theorem single_fragment (addrs : Nat → DmaAddr) : (List.range 1).map addrs = [addrs 0] := rfl

/-- A single fragment on both sides is as long as the transfer. -/
theorem single_len (checked : checkTinfoParams chan tinfo = true) (memory : MemoryCopy tinfo)
    (src : tinfo.srcFragments = 1) (dst : tinfo.dstFragments = 1) :
    (tinfo.srcAddrs 0).len = tinfo.xferBytes ∧ (tinfo.dstAddrs 0).len = tinfo.xferBytes := by
  have agree := accepted_lengths checked memory
  rw [if_pos (src.trans dst.symm), DmaTransfer.src, DmaTransfer.dst, src, dst, single_fragment,
    single_fragment] at agree
  simp only [lengths, List.map_cons, List.map_nil, List.sum_cons, List.sum_nil, Nat.add_zero,
    Nat.mod_eq_of_lt (DmaAddr.len_lt _)] at agree
  exact agree

/-- Fragments of equal lengths are copied one by one. -/
theorem blocks_of_equal (checked : checkTinfoParams chan tinfo = true) (memory : MemoryCopy tinfo)
    {info : DmaChInfo} (apart : FragmentsApart info tinfo)
    (equal : lengths tinfo.src = lengths tinfo.dst) :
    ((List.range tinfo.sgs).flatMap fun sgi => blockMoves info (cbParams ready tinfo sgi)) =
      pair (cells tinfo.src) (cells tinfo.dst) := by
  have fragments : tinfo.srcFragments = tinfo.dstFragments := by
    have same := congrArg List.length equal
    simpa [DmaTransfer.src, DmaTransfer.dst, lengths] using same
  have sgs : tinfo.sgs = tinfo.srcFragments := by
    rw [DmaTransfer.sgs, fragments, Nat.max_self]
  have eachEqual : ∀ sgi < tinfo.srcFragments,
      (tinfo.srcAddrs sgi).len = (tinfo.dstAddrs sgi).len := by
    intro sgi inside
    have here := congrArg (fun list : List Nat => list[sgi]?) equal
    rw [DmaTransfer.src, DmaTransfer.dst, lengths_range, lengths_range, ← fragments] at here
    simpa [inside] using here
  have eachBlock : ∀ sgi ∈ List.range tinfo.sgs, blockMoves info (cbParams ready tinfo sgi) =
      pair (cellsFrom (tinfo.srcAddrs sgi).paddr (tinfo.srcAddrs sgi).len)
        (cellsFrom (tinfo.dstAddrs sgi).paddr (tinfo.dstAddrs sgi).len) := by
    intro sgi member
    rw [sgs] at member
    have srcInside := List.mem_range.mp member
    have dstInside : sgi < tinfo.dstFragments := by
      rw [← fragments]
      exact srcInside
    have srcPaddr : (cbParams ready tinfo sgi).srcPaddr = (tinfo.srcAddrs sgi).paddr := by
      simp only [cbParams, if_pos srcInside]
    have dstPaddr : (cbParams ready tinfo sgi).dstPaddr = (tinfo.dstAddrs sgi).paddr := by
      simp only [cbParams, if_pos dstInside]
    have len : (cbParams ready tinfo sgi).len = (tinfo.srcAddrs sgi).len := by
      by_cases several : 1 < tinfo.srcFragments
      · simp only [cbParams, if_pos several, if_pos srcInside]
      · have one : tinfo.srcFragments = 1 := by omega
        have first : sgi = 0 := by omega
        have single := (single_len checked memory one (fragments ▸ one)).1
        have notDst : ¬ 1 < tinfo.dstFragments := by
          rw [← fragments]
          exact several
        simp only [cbParams, if_neg several, if_neg notDst, first, single]
    have srcReach := reach_of_lt apart.src srcInside
    have dstReach := reach_of_lt apart.dst dstInside
    rw [← eachEqual sgi srcInside] at dstReach
    rw [blockMoves_eq, srcPaddr, dstPaddr, len, eachEqual sgi srcInside]
    · rw [srcPaddr, len]
      exact srcReach
    · rw [dstPaddr, len]
      exact dstReach
  rw [DmaTransfer.src, DmaTransfer.dst, cells_range, cells_range, ← fragments, ← sgs,
    ← flatMap_pair]
  · exact List.flatMap_congr eachBlock
  · intro sgi member
    rw [sgs] at member
    rw [length_cellsFrom, length_cellsFrom, eachEqual sgi (List.mem_range.mp member)]

theorem blockMoves_empty {info : DmaChInfo} {params : DmaCbParams} (empty : params.len = 0) :
    blockMoves info params = [] := by
  rw [blockMoves, empty]
  rfl

/-- A transfer without fragments on one side has no bytes. -/
theorem xferBytes_zero (checked : checkTinfoParams chan tinfo = true) (memory : MemoryCopy tinfo)
    (none_left : tinfo.srcFragments = 0 ∧ tinfo.dstFragments = 1 ∨
      tinfo.srcFragments = 1 ∧ tinfo.dstFragments = 0) : tinfo.xferBytes = 0 := by
  have agree := accepted_lengths checked memory
  rcases none_left with ⟨src, dst⟩ | ⟨src, dst⟩
  · rw [DmaTransfer.src, src, dst, if_neg Nat.zero_ne_one, if_neg Nat.zero_ne_one,
      if_pos rfl] at agree
    exact agree.symm
  · rw [DmaTransfer.dst, src, dst, if_neg Nat.one_ne_zero, if_pos rfl] at agree
    exact agree.symm

/-- A single source fragment is copied to the only destination fragment that is not empty. -/
theorem blocks_of_singleSrc (checked : checkTinfoParams chan tinfo = true)
    (memory : MemoryCopy tinfo) {info : DmaChInfo} (apart : FragmentsApart info tinfo)
    (src : tinfo.srcFragments = 1) (dst : tinfo.dstFragments ≠ 1)
    (only : (lengths tinfo.src).filter (0 < ·) = (lengths tinfo.dst).filter (0 < ·)) :
    ((List.range tinfo.sgs).flatMap fun sgi => blockMoves info (cbParams ready tinfo sgi)) =
      pair (cells tinfo.src) (cells tinfo.dst) := by
  have isSrc : tinfo.src = [tinfo.srcAddrs 0] := by
    rw [DmaTransfer.src, src]
    rfl
  have notSrc : ¬ 1 < tinfo.srcFragments := by
    rw [src]
    exact lt_irrefl 1
  rcases Nat.eq_zero_or_pos tinfo.dstFragments with nothing | positive
  · have sgs : tinfo.sgs = 1 := by rw [DmaTransfer.sgs, src, nothing]; rfl
    have noDst : tinfo.dst = [] := by
      rw [DmaTransfer.dst, nothing]
      rfl
    have noBytes := xferBytes_zero checked memory (Or.inr ⟨src, nothing⟩)
    have empty : (cbParams ready tinfo 0).len = 0 := by
      have notDst : ¬ 1 < tinfo.dstFragments := by
        rw [nothing]
        exact Nat.not_lt_zero 1
      simp only [cbParams, if_neg notSrc, if_neg notDst, noBytes]
    rw [sgs, noDst, List.range_one, List.flatMap_singleton, blockMoves_empty empty]
    simp [pair, cells]
  · have several : 1 < tinfo.dstFragments := by omega
    have sgs : tinfo.sgs = tinfo.dstFragments := by
      rw [DmaTransfer.sgs, src]
      exact Nat.max_eq_right positive
    have srcPaddr : ∀ sgi, (cbParams ready tinfo sgi).srcPaddr = (tinfo.srcAddrs 0).paddr := by
      intro sgi
      by_cases first : sgi = 0
      · simp [cbParams, first]
      · have notFirst : ¬ sgi < 1 := by omega
        simp only [cbParams, src, if_neg notFirst]
    have dstPaddr : ∀ sgi < tinfo.dstFragments,
        (cbParams ready tinfo sgi).dstPaddr = (tinfo.dstAddrs sgi).paddr := by
      intro sgi inside
      simp only [cbParams, if_pos inside]
    have len : ∀ sgi < tinfo.dstFragments,
        (cbParams ready tinfo sgi).len = (tinfo.dstAddrs sgi).len := by
      intro sgi inside
      simp only [cbParams, if_neg notSrc, if_pos several, if_pos inside]
    rw [isSrc] at only
    rw [sgs, isSrc]
    apply only_pair only.symm
    · rfl
    · intro sgi inside empty
      apply blockMoves_empty
      rw [len sgi inside]
      exact empty
    · intro sgi inside full
      have srcReach := reach_of_lt apart.src (by rw [src]; exact Nat.one_pos)
      have dstReach := reach_of_lt apart.dst inside
      rw [blockMoves_eq, srcPaddr, dstPaddr sgi inside, len sgi inside, full]
      · rw [srcPaddr, len sgi inside, full]
        exact srcReach
      · rw [dstPaddr sgi inside, len sgi inside]
        exact dstReach

/-- A single destination fragment takes the only source fragment that is not empty. -/
theorem blocks_of_singleDst (checked : checkTinfoParams chan tinfo = true)
    (memory : MemoryCopy tinfo) {info : DmaChInfo} (apart : FragmentsApart info tinfo)
    (dst : tinfo.dstFragments = 1) (src : tinfo.srcFragments ≠ 1)
    (only : (lengths tinfo.src).filter (0 < ·) = (lengths tinfo.dst).filter (0 < ·)) :
    ((List.range tinfo.sgs).flatMap fun sgi => blockMoves info (cbParams ready tinfo sgi)) =
      pair (cells tinfo.src) (cells tinfo.dst) := by
  have isDst : tinfo.dst = [tinfo.dstAddrs 0] := by
    rw [DmaTransfer.dst, dst]
    rfl
  rcases Nat.eq_zero_or_pos tinfo.srcFragments with nothing | positive
  · have sgs : tinfo.sgs = 1 := by rw [DmaTransfer.sgs, dst, nothing]; rfl
    have noSrc : tinfo.src = [] := by
      rw [DmaTransfer.src, nothing]
      rfl
    have noBytes := xferBytes_zero checked memory (Or.inl ⟨nothing, dst⟩)
    have empty : (cbParams ready tinfo 0).len = 0 := by
      have notSrc : ¬ 1 < tinfo.srcFragments := by
        rw [nothing]
        exact Nat.not_lt_zero 1
      have notDst : ¬ 1 < tinfo.dstFragments := by
        rw [dst]
        exact lt_irrefl 1
      simp only [cbParams, if_neg notSrc, if_neg notDst, noBytes]
    rw [sgs, noSrc, List.range_one, List.flatMap_singleton, blockMoves_empty empty]
    rfl
  · have several : 1 < tinfo.srcFragments := by omega
    have sgs : tinfo.sgs = tinfo.srcFragments := by
      rw [DmaTransfer.sgs, dst]
      exact Nat.max_eq_left positive
    have dstPaddr : ∀ sgi, (cbParams ready tinfo sgi).dstPaddr = (tinfo.dstAddrs 0).paddr := by
      intro sgi
      by_cases first : sgi = 0
      · simp [cbParams, first]
      · have notFirst : ¬ sgi < 1 := by omega
        simp only [cbParams, dst, if_neg notFirst]
    have srcPaddr : ∀ sgi < tinfo.srcFragments,
        (cbParams ready tinfo sgi).srcPaddr = (tinfo.srcAddrs sgi).paddr := by
      intro sgi inside
      simp only [cbParams, if_pos inside]
    have len : ∀ sgi < tinfo.srcFragments,
        (cbParams ready tinfo sgi).len = (tinfo.srcAddrs sgi).len := by
      intro sgi inside
      simp only [cbParams, if_pos several, if_pos inside]
    rw [isDst] at only
    rw [sgs, isDst]
    apply @only_pair _ _ _ _ (fun one other => pair other one) only
    · rfl
    · intro sgi inside empty
      apply blockMoves_empty
      rw [len sgi inside]
      exact empty
    · intro sgi inside full
      have dstReach := reach_of_lt apart.dst (by rw [dst]; exact Nat.one_pos)
      have srcReach := reach_of_lt apart.src inside
      rw [blockMoves_eq, dstPaddr, srcPaddr sgi inside, len sgi inside, full]
      · rw [srcPaddr sgi inside, len sgi inside]
        exact srcReach
      · rw [dstPaddr, len sgi inside, full]
        exact dstReach

/-- Moves between fragments that pair up are the moves from the joined source fragments to
the joined destination fragments. -/
theorem moves_of_pairsUp (isSetUp : SetUp chan tinfo ready) (placed : BufferPlaced ready)
    (onePass : OnePass tinfo count) (memory : MemoryCopy tinfo)
    (apart : FragmentsApart ready.info tinfo) (pairsUp : PairsUp tinfo) :
    ready.moves count = pair (cells tinfo.src) (cells tinfo.dst) := by
  rw [moves_onePass isSetUp placed onePass memory]
  rcases pairsUp with equal | ⟨single, only⟩
  · exact blocks_of_equal isSetUp.checked memory apart equal
  · by_cases src : tinfo.srcFragments = 1
    · by_cases dst : tinfo.dstFragments = 1
      · obtain ⟨srcLen, dstLen⟩ := single_len isSetUp.checked memory src dst
        have equal : lengths tinfo.src = lengths tinfo.dst := by
          rw [DmaTransfer.src, DmaTransfer.dst, src, dst, single_fragment, single_fragment, lengths,
            lengths, List.map_singleton, List.map_singleton, srcLen, dstLen]
        exact blocks_of_equal isSetUp.checked memory apart equal
      · exact blocks_of_singleSrc isSetUp.checked memory apart src dst only
    · have dst : tinfo.dstFragments = 1 := single.resolve_left src
      exact blocks_of_singleDst isSetUp.checked memory apart dst src only

theorem sum_filter_pos (lens : List Nat) : (lens.filter (0 < ·)).sum = lens.sum := by
  induction lens with
  | nil => rfl
  | cons len rest ih =>
      rcases Nat.eq_zero_or_pos len with zero | positive
      · rw [List.filter_cons_of_neg (by simp [zero]), ih, zero, List.sum_cons, Nat.zero_add]
      · rw [List.filter_cons_of_pos (by simp [positive]), List.sum_cons, List.sum_cons, ih]

/-- Both sides of fragments that pair up have the same number of bytes. -/
theorem PairsUp.length (pairsUp : PairsUp tinfo) :
    (cells tinfo.src).length = (cells tinfo.dst).length := by
  rw [length_cells, length_cells]
  rcases pairsUp with equal | ⟨_, only⟩
  · rw [equal]
  · rw [← sum_filter_pos, only, sum_filter_pos]

/-- Fragments that pair up are copied. -/
theorem copies_of_pairsUp (isSetUp : SetUp chan tinfo ready) (placed : BufferPlaced ready)
    (onePass : OnePass tinfo count) (memory : MemoryCopy tinfo)
    (apart : FragmentsApart ready.info tinfo) (pairsUp : PairsUp tinfo) :
    Copies (ready.moves count) tinfo := by
  rw [moves_of_pairsUp isSetUp placed onePass memory apart pairsUp]
  refine ⟨fun move member => (mem_pair member).1, fun move member => (mem_pair member).2, ?_⟩
  exact run_pair pairsUp.length apart.distinct apart.apart

end Pairing

/-! ## What a copy requires -/

/-- Bytes can differ. -/
instance byteNontrivial : Nontrivial UInt8 := ⟨0, 1, by decide⟩

section Required

variable {chan ready : DmaChannel} {tinfo : DmaTransfer} {count : Nat}

/-- The number of the source fragment of a block. -/
def srcFrag (tinfo : DmaTransfer) (sgi : Nat) : Nat := if sgi < tinfo.srcFragments then sgi else 0

/-- The number of the destination fragment of a block. -/
def dstFrag (tinfo : DmaTransfer) (sgi : Nat) : Nat := if sgi < tinfo.dstFragments then sgi else 0

/-- Where every block starts, the fragments it is set up for stand behind as many bytes on
both sides. -/
theorem offsets_of_copies {moves : List (Move Nat)} {info : DmaChInfo}
    (apart : FragmentsApart info tinfo) (srcDistinct : (cells tinfo.src).Nodup)
    (copies : Copies moves tinfo) (few : moves.length ≤ (cells tinfo.dst).length)
    {srcIndex dstIndex : Nat} {srcAddr dstAddr : DmaAddr}
    (isSrc : tinfo.src[srcIndex]? = some srcAddr) (isDst : tinfo.dst[dstIndex]? = some dstAddr)
    (srcPositive : 0 < srcAddr.len) (dstPositive : 0 < dstAddr.len)
    (member : ⟨armCell srcAddr.paddr, armCell dstAddr.paddr⟩ ∈ moves) :
    ((lengths tinfo.src).take srcIndex).sum = ((lengths tinfo.dst).take dstIndex).sum := by
  have paired := mem_pair_of_copied apart.distinct apart.apart copies.reads
    (map_origin_of_run copies.copied) few member
  obtain ⟨index, src, dst⟩ := getElem?_of_mem_pair paired
  have srcFirst := cells_first isSrc srcPositive
  have dstFirst := cells_first isDst dstPositive
  have srcBound := (List.getElem?_eq_some_iff.mp srcFirst).1
  have dstBound := (List.getElem?_eq_some_iff.mp dstFirst).1
  have srcSame := (List.getElem?_inj srcBound srcDistinct).mp (srcFirst.trans src.symm)
  have dstSame := (List.getElem?_inj dstBound apart.distinct).mp (dstFirst.trans dst.symm)
  exact srcSame.trans dstSame.symm

/-- The first byte of a block that is not empty is copied from the first byte of its source
fragment to the first byte of its destination fragment. -/
theorem first_move {info : DmaChInfo} (apart : FragmentsApart info tinfo) {sgi : Nat}
    (inside : sgi < tinfo.sgs) (positive : 0 < (cbParams ready tinfo sgi).len)
    {srcAddr dstAddr : DmaAddr} (isSrc : tinfo.src[srcFrag tinfo sgi]? = some srcAddr)
    (isDst : tinfo.dst[dstFrag tinfo sgi]? = some dstAddr)
    (srcPositive : 0 < srcAddr.len) (dstPositive : 0 < dstAddr.len) :
    (⟨armCell srcAddr.paddr, armCell dstAddr.paddr⟩ : Move Nat) ∈
      (List.range tinfo.sgs).flatMap fun sgi => blockMoves info (cbParams ready tinfo sgi) := by
  have srcReach := apart.src srcAddr (List.mem_of_getElem? isSrc)
  have dstReach := apart.dst dstAddr (List.mem_of_getElem? isDst)
  have srcPaddr : (cbParams ready tinfo sgi).srcPaddr = srcAddr.paddr := by
    have same : tinfo.srcAddrs (srcFrag tinfo sgi) = srcAddr := by
      obtain ⟨_, found⟩ := List.getElem?_eq_some_iff.mp isSrc
      simpa [DmaTransfer.src] using found
    rw [← same]
    rfl
  have dstPaddr : (cbParams ready tinfo sgi).dstPaddr = dstAddr.paddr := by
    have same : tinfo.dstAddrs (dstFrag tinfo sgi) = dstAddr := by
      obtain ⟨_, found⟩ := List.getElem?_eq_some_iff.mp isDst
      simpa [DmaTransfer.dst] using found
    rw [← same]
    rfl
  apply List.mem_flatMap.mpr
  refine ⟨sgi, List.mem_range.mpr inside, List.mem_map.mpr ⟨0, List.mem_range.mpr positive, ?_⟩⟩
  rw [srcPaddr, dstPaddr, cell_of_inReach srcReach srcPositive,
    cell_of_inReach dstReach dstPositive, Nat.add_zero, Nat.add_zero]

theorem length_blocks (info : DmaChInfo) :
    ((List.range tinfo.sgs).flatMap fun sgi => blockMoves info (cbParams ready tinfo sgi)).length =
      ((List.range tinfo.sgs).map fun sgi => (cbParams ready tinfo sgi).len).sum := by
  rw [List.length_flatMap]
  simp only [blockMoves, List.length_map, List.length_range]

/-- Lists with the same sums of their beginnings are the same. -/
theorem eq_of_sums {left right : List Nat} (long : left.length = right.length)
    (sums : ∀ index < left.length, (left.take index).sum = (right.take index).sum)
    (whole : left.sum = right.sum) : left = right := by
  apply List.ext_getElem long
  intro index inLeft inRight
  have upTo : (left.take (index + 1)).sum = (right.take (index + 1)).sum := by
    rcases Nat.lt_or_ge (index + 1) left.length with inside | beyond
    · exact sums (index + 1) inside
    · rw [List.take_of_length_le beyond, List.take_of_length_le (by omega)]
      exact whole
  rw [List.take_succ_eq_append_getElem inLeft, List.take_succ_eq_append_getElem inRight,
    List.sum_append, List.sum_append, List.sum_singleton, List.sum_singleton,
    sums index inLeft] at upTo
  exact Nat.add_left_cancel upTo

theorem src_getElem? {sgi : Nat} (inside : sgi < tinfo.srcFragments) :
    tinfo.src[sgi]? = some (tinfo.srcAddrs sgi) := by
  simp [DmaTransfer.src, inside]

theorem dst_getElem? {sgi : Nat} (inside : sgi < tinfo.dstFragments) :
    tinfo.dst[sgi]? = some (tinfo.dstAddrs sgi) := by
  simp [DmaTransfer.dst, inside]

/-- No fragment is empty. -/
def NoneEmpty (frags : List DmaAddr) : Prop := ∀ addr ∈ frags, 0 < addr.len

/-- Where several blocks copy no more bytes than there are, the fragments of each block stand
behind as many bytes on both sides. -/
theorem offsets_of_blocks {info : DmaChInfo} (apart : FragmentsApart info tinfo)
    (srcDistinct : (cells tinfo.src).Nodup) (srcFull : NoneEmpty tinfo.src)
    (dstFull : NoneEmpty tinfo.dst)
    (copies : Copies ((List.range tinfo.sgs).flatMap fun sgi =>
      blockMoves info (cbParams ready tinfo sgi)) tinfo)
    (few : ((List.range tinfo.sgs).map fun sgi => (cbParams ready tinfo sgi).len).sum ≤
      (cells tinfo.dst).length)
    {sgi : Nat} (inside : sgi < tinfo.sgs) (positive : 0 < (cbParams ready tinfo sgi).len)
    (src : srcFrag tinfo sgi < tinfo.srcFragments) (dst : dstFrag tinfo sgi < tinfo.dstFragments) :
    ((lengths tinfo.src).take (srcFrag tinfo sgi)).sum =
      ((lengths tinfo.dst).take (dstFrag tinfo sgi)).sum := by
  have isSrc := src_getElem? src
  have isDst := dst_getElem? dst
  have srcPositive := srcFull _ (List.mem_of_getElem? isSrc)
  have dstPositive := dstFull _ (List.mem_of_getElem? isDst)
  have member := first_move apart inside positive isSrc isDst srcPositive dstPositive
  rw [← length_blocks info] at few
  exact offsets_of_copies apart srcDistinct copies few isSrc isDst srcPositive dstPositive member

/-- Blocks as long as the fragments of one side copy as many bytes as there are on that side. -/
theorem sum_len {addrs : Nat → DmaAddr} {fragments : Nat} (sgs : tinfo.sgs = fragments)
    (len : ∀ sgi < fragments, (cbParams ready tinfo sgi).len = (addrs sgi).len) :
    ((List.range tinfo.sgs).map fun sgi => (cbParams ready tinfo sgi).len).sum =
      (lengths ((List.range fragments).map addrs)).sum := by
  rw [lengths_range, sgs]
  congr 1
  apply List.map_congr_left
  intro sgi member
  exact len sgi (List.mem_range.mp member)

theorem take_one_lengths {addrs : Nat → DmaAddr} {fragments : Nat} (several : 1 < fragments) :
    (lengths ((List.range fragments).map addrs)).take 1 = [(addrs 0).len] := by
  rw [lengths_range, ← List.map_take, List.take_range, Nat.min_eq_left several.le]
  rfl

/-- Several fragments on each side have equal lengths where they are copied. -/
theorem equal_of_several {info : DmaChInfo} (apart : FragmentsApart info tinfo)
    (srcDistinct : (cells tinfo.src).Nodup) (srcFull : NoneEmpty tinfo.src)
    (dstFull : NoneEmpty tinfo.dst)
    (copies : Copies ((List.range tinfo.sgs).flatMap fun sgi =>
      blockMoves info (cbParams ready tinfo sgi)) tinfo)
    (total : (lengths tinfo.src).sum = (lengths tinfo.dst).sum)
    (fragments : tinfo.srcFragments = tinfo.dstFragments) (several : 1 < tinfo.srcFragments) :
    lengths tinfo.src = lengths tinfo.dst := by
  have sgs : tinfo.sgs = tinfo.srcFragments := by
    rw [DmaTransfer.sgs, fragments, Nat.max_self]
  have len : ∀ sgi < tinfo.srcFragments,
      (cbParams ready tinfo sgi).len = (tinfo.srcAddrs sgi).len := by
    intro sgi inside
    simp only [cbParams, if_pos several, if_pos inside]
  have few : ((List.range tinfo.sgs).map fun sgi => (cbParams ready tinfo sgi).len).sum ≤
      (cells tinfo.dst).length := by
    rw [length_cells, ← total]
    exact le_of_eq (sum_len sgs len)
  have long : (lengths tinfo.src).length = tinfo.srcFragments := by
    simp [lengths, DmaTransfer.src]
  apply eq_of_sums
  · simp [lengths, DmaTransfer.src, DmaTransfer.dst, fragments]
  · intro sgi bound
    rw [long] at bound
    have dstBound : sgi < tinfo.dstFragments := by
      rw [← fragments]
      exact bound
    have src : srcFrag tinfo sgi = sgi := if_pos bound
    have dst : dstFrag tinfo sgi = sgi := if_pos dstBound
    have positive : 0 < (cbParams ready tinfo sgi).len := by
      rw [len sgi bound]
      exact srcFull _ (List.mem_of_getElem? (src_getElem? bound))
    have inside : sgi < tinfo.sgs := by
      rw [sgs]
      exact bound
    have offsets := offsets_of_blocks apart srcDistinct srcFull dstFull copies few inside positive
      (by rw [src]; exact bound) (by rw [dst]; exact dstBound)
    rw [src, dst] at offsets
    exact offsets
  · exact total

/-- A single source fragment is not copied to several destination fragments. -/
theorem not_copied_of_singleSrc {info : DmaChInfo} (apart : FragmentsApart info tinfo)
    (srcDistinct : (cells tinfo.src).Nodup) (srcFull : NoneEmpty tinfo.src)
    (dstFull : NoneEmpty tinfo.dst) (src : tinfo.srcFragments = 1)
    (several : 1 < tinfo.dstFragments) :
    ¬ Copies ((List.range tinfo.sgs).flatMap fun sgi =>
      blockMoves info (cbParams ready tinfo sgi)) tinfo := by
  intro copies
  have sgs : tinfo.sgs = tinfo.dstFragments := by
    rw [DmaTransfer.sgs, src]
    exact Nat.max_eq_right several.le
  have notSrc : ¬ 1 < tinfo.srcFragments := by
    rw [src]
    exact lt_irrefl 1
  have len : ∀ sgi < tinfo.dstFragments,
      (cbParams ready tinfo sgi).len = (tinfo.dstAddrs sgi).len := by
    intro sgi inside
    simp only [cbParams, if_neg notSrc, if_pos several, if_pos inside]
  have few : ((List.range tinfo.sgs).map fun sgi => (cbParams ready tinfo sgi).len).sum ≤
      (cells tinfo.dst).length := by
    rw [length_cells]
    exact le_of_eq (sum_len sgs len)
  have srcZero : srcFrag tinfo 1 = 0 := if_neg notSrc
  have dstOne : dstFrag tinfo 1 = 1 := if_pos several
  have second : 0 < (cbParams ready tinfo 1).len := by
    rw [len 1 several]
    exact dstFull _ (List.mem_of_getElem? (dst_getElem? several))
  have first : 0 < (tinfo.dstAddrs 0).len :=
    dstFull _ (List.mem_of_getElem? (dst_getElem? (Nat.zero_lt_of_lt several)))
  have offsets := offsets_of_blocks apart srcDistinct srcFull dstFull copies few
    (by rw [sgs]; exact several) second (by rw [srcZero, src]; exact Nat.one_pos)
    (by rw [dstOne]; exact several)
  rw [srcZero, dstOne, DmaTransfer.dst, take_one_lengths several, List.take_zero, List.sum_nil,
    List.sum_singleton] at offsets
  exact absurd offsets (Nat.ne_of_lt first)

/-- Several source fragments are not copied to a single destination fragment. -/
theorem not_copied_of_singleDst {info : DmaChInfo} (apart : FragmentsApart info tinfo)
    (srcDistinct : (cells tinfo.src).Nodup) (srcFull : NoneEmpty tinfo.src)
    (dstFull : NoneEmpty tinfo.dst) (dst : tinfo.dstFragments = 1)
    (several : 1 < tinfo.srcFragments) :
    ¬ Copies ((List.range tinfo.sgs).flatMap fun sgi =>
      blockMoves info (cbParams ready tinfo sgi)) tinfo := by
  intro copies
  have sgs : tinfo.sgs = tinfo.srcFragments := by
    rw [DmaTransfer.sgs, dst]
    exact Nat.max_eq_left several.le
  have len : ∀ sgi < tinfo.srcFragments,
      (cbParams ready tinfo sgi).len = (tinfo.srcAddrs sgi).len := by
    intro sgi inside
    simp only [cbParams, if_pos several, if_pos inside]
  have few : ((List.range tinfo.sgs).map fun sgi => (cbParams ready tinfo sgi).len).sum ≤
      (cells tinfo.dst).length := by
    have total := congrArg List.length (map_origin_of_run copies.copied)
    rw [List.length_map, length_cells tinfo.src] at total
    rw [total]
    exact le_of_eq (sum_len sgs len)
  have dstZero : dstFrag tinfo 1 = 0 := by
    apply if_neg
    rw [dst]
    exact lt_irrefl 1
  have srcOne : srcFrag tinfo 1 = 1 := if_pos several
  have second : 0 < (cbParams ready tinfo 1).len := by
    rw [len 1 several]
    exact srcFull _ (List.mem_of_getElem? (src_getElem? several))
  have first : 0 < (tinfo.srcAddrs 0).len :=
    srcFull _ (List.mem_of_getElem? (src_getElem? (Nat.zero_lt_of_lt several)))
  have offsets := offsets_of_blocks apart srcDistinct srcFull dstFull copies few
    (by rw [sgs]; exact several) second (by rw [srcOne]; exact several)
    (by rw [dstZero, dst]; exact Nat.one_pos)
  rw [dstZero, srcOne, DmaTransfer.src, take_one_lengths several, List.take_zero, List.sum_nil,
    List.sum_singleton] at offsets
  exact absurd offsets (Nat.ne_of_gt first)

theorem lengths_single (addrs : Nat → DmaAddr) :
    lengths ((List.range 1).map addrs) = [(addrs 0).len] := rfl

/-- Without empty and overlapping fragments, only fragments that pair up are copied. -/
theorem pairsUp_of_copies (isSetUp : SetUp chan tinfo ready) (placed : BufferPlaced ready)
    (onePass : OnePass tinfo count) (memory : MemoryCopy tinfo)
    (apart : FragmentsApart ready.info tinfo) (srcDistinct : (cells tinfo.src).Nodup)
    (srcFull : NoneEmpty tinfo.src) (dstFull : NoneEmpty tinfo.dst)
    (copies : Copies (ready.moves count) tinfo) : PairsUp tinfo := by
  rw [moves_onePass isSetUp placed onePass memory] at copies
  have total : (lengths tinfo.src).sum = (lengths tinfo.dst).sum := by
    have same := congrArg List.length (map_origin_of_run copies.copied)
    rw [List.length_map, length_cells, length_cells] at same
    exact same.symm
  have agree := accepted_lengths isSetUp.checked memory
  by_cases fragments : tinfo.srcFragments = tinfo.dstFragments
  · apply Or.inl
    rcases Nat.lt_trichotomy tinfo.srcFragments 1 with none_left | one | several
    · have src : tinfo.srcFragments = 0 := Nat.lt_one_iff.mp none_left
      rw [DmaTransfer.src, DmaTransfer.dst, ← fragments, src]
      rfl
    · have dst : tinfo.dstFragments = 1 := fragments ▸ one
      obtain ⟨srcLen, dstLen⟩ := single_len isSetUp.checked memory one dst
      rw [DmaTransfer.src, DmaTransfer.dst, one, dst, lengths_single, lengths_single, srcLen,
        dstLen]
    · exact equal_of_several apart srcDistinct srcFull dstFull copies total fragments several
  · rw [if_neg fragments] at agree
    by_cases src : tinfo.srcFragments = 1
    · rcases Nat.eq_zero_or_pos tinfo.dstFragments with nothing | positive
      · have bytes := srcFull _ (List.mem_of_getElem? (@src_getElem? tinfo 0 (by omega)))
        rw [DmaTransfer.src, DmaTransfer.dst, src, nothing, lengths_single,
          List.sum_singleton] at total
        exact absurd total (Nat.ne_of_gt bytes)
      · exact absurd copies
          (not_copied_of_singleSrc apart srcDistinct srcFull dstFull src (by omega))
    · rw [if_neg src] at agree
      by_cases dst : tinfo.dstFragments = 1
      · rcases Nat.eq_zero_or_pos tinfo.srcFragments with nothing | positive
        · have bytes := dstFull _ (List.mem_of_getElem? (@dst_getElem? tinfo 0 (by omega)))
          rw [DmaTransfer.src, DmaTransfer.dst, dst, nothing, lengths_single,
            List.sum_singleton] at total
          exact absurd total (Nat.ne_of_lt bytes)
        · exact absurd copies
            (not_copied_of_singleDst apart srcDistinct srcFull dstFull dst (by omega))
      · rw [if_neg dst] at agree
        exact agree.elim

/-- One pass of an accepted copy from memory to memory copies fragments that pair up; where
no fragment is empty and none overlap, it copies no others. -/
theorem scatter_gather {alloc : Nat → Option Nat}
    (accepted : dmaSetupXfer alloc chan tinfo = (ready, .ok)) (memory : MemoryCopy tinfo)
    (placed : BufferPlaced ready) (onePass : OnePass tinfo count)
    (apart : FragmentsApart ready.info tinfo) :
    (PairsUp tinfo → Copies (ready.moves count) tinfo) ∧
      ((cells tinfo.src).Nodup → NoneEmpty tinfo.src → NoneEmpty tinfo.dst →
        (Copies (ready.moves count) tinfo ↔ PairsUp tinfo)) := by
  have isSetUp := setUp_of_accepted accepted
  have copied : PairsUp tinfo → Copies (ready.moves count) tinfo :=
    copies_of_pairsUp isSetUp placed onePass memory apart
  refine ⟨copied, fun srcDistinct srcFull dstFull => ⟨fun copies => ?_, copied⟩⟩
  exact pairsUp_of_copies isSetUp placed onePass memory apart srcDistinct srcFull dstFull copies

end Required

theorem kibibyte_lt : 1024 < 2 ^ 32 := by decide

theorem half_lt : 16 < 2 ^ 32 := by decide

theorem blocks_lt : 32 < 2 ^ 32 := by decide

/-- A legacy channel that reports the end of a transfer. -/
def plainChannel : DmaChannel :=
  { chanIdx := firstChannel, status := 0, xferUnitSize := 0, numCbs := 32, frgsNum := 0,
    frgCount := 0, mflags := 0, aflags := DMA_ATTACH_EVENT_ON_COMPLETE,
    cb := ⟨0x10000, 1024, kibibyte_lt⟩,
    cbs := [], xferType := .ioToIo, numCbs_lt := blocks_lt }

/-- A copy of 32 bytes to two fragments of 16 bytes, from so many fragments of this length. -/
def toHalves (srcFragments : Nat) (len : Fin 64) : DmaTransfer :=
  { srcAddrs := fun sgi => ⟨0x20000 + 0x100 * sgi, len, len.isLt.trans (by decide)⟩
    dstAddrs := fun sgi => ⟨0x30000 + 0x100 * sgi, 16, half_lt⟩
    srcFragments := srcFragments, dstFragments := 2, srcFlags := DMA_ADDR_FLAG_MEMORY,
    dstFlags := DMA_ADDR_FLAG_MEMORY, xferUnitSize := 16, xferBytes := 32, modeFlags := 0,
    reqId := 0 }

/-- The channel after setting up such a copy. -/
def halvesReady (srcFragments : Nat) (len : Fin 64) : DmaChannel :=
  (dmaSetupXfer (fun _ => none) plainChannel (toHalves srcFragments len)).1

theorem toHalves_memory (srcFragments : Nat) (len : Fin 64) :
    MemoryCopy (toHalves srcFragments len) := by
  refine ⟨?_, ?_, ?_⟩
  · show getXferType DMA_ADDR_FLAG_MEMORY DMA_ADDR_FLAG_MEMORY = .memoryToMemory
    decide
  · show flagged DMA_ADDR_FLAG_MEMORY DMA_ADDR_FLAG_NO_INCREMENT = false
    decide
  · show flagged DMA_ADDR_FLAG_MEMORY DMA_ADDR_FLAG_NO_INCREMENT = false
    decide

theorem twoHalves_apart : FragmentsApart (halvesReady 2 16).info (toHalves 2 16) :=
  ⟨by decide, by decide, by decide, by decide⟩

theorem scatter_gather_halves :
    (PairsUp (toHalves 2 16) → Copies ((halvesReady 2 16).moves 2) (toHalves 2 16)) ∧
      ((cells (toHalves 2 16).src).Nodup → NoneEmpty (toHalves 2 16).src →
        NoneEmpty (toHalves 2 16).dst →
          (Copies ((halvesReady 2 16).moves 2) (toHalves 2 16) ↔ PairsUp (toHalves 2 16))) :=
  @scatter_gather plainChannel (halvesReady 2 16) (toHalves 2 16) 2 (fun _ => none)
    (Prod.ext rfl (by decide)) (toHalves_memory 2 16) ⟨by decide, by decide, by decide⟩
    (Or.inl rfl) twoHalves_apart

/-- Both halves of a copy are taken from the beginning of its single source fragment. -/
theorem second_half_not_copied :
    dmaSetupXfer (fun _ => none) plainChannel (toHalves 1 32) = (halvesReady 1 32, .ok) ∧
      MemoryCopy (toHalves 1 32) ∧ BufferPlaced (halvesReady 1 32) ∧ OnePass (toHalves 1 32) 2 ∧
      FragmentsApart (halvesReady 1 32).info (toHalves 1 32) ∧
      ¬ Copies ((halvesReady 1 32).moves 2) (toHalves 1 32) := by
  refine ⟨Prod.ext rfl (by decide), toHalves_memory 1 32,
    ⟨by decide, by decide, by decide⟩, Or.inl rfl,
    ⟨by decide, by decide, by decide, by decide⟩, ?_⟩
  intro copies
  let marked : Nat → UInt8 := fun cell => if cell = 0x20010 then 1 else 0
  have differ : (cells (toHalves 1 32).dst).map (run ((halvesReady 1 32).moves 2) marked) ≠
      (cells (toHalves 1 32).src).map marked := by decide
  exact differ (copies.copied marked)

end Bcm2711.Dma
