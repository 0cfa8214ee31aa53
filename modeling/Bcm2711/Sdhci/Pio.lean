import Bcm2711.Lib.Gather
import Bcm2711.Sdhci.Intr

/-! # Transfers without DMA

`sdio_sg_start` and `sdio_sg_nxt` hand out the entries of a scatter-gather list in chunks, and
`sdhci_pio_xfer` moves each chunk through the data port in words.  The count of entries is that
of those left, with the one that is loaded.
-/

namespace Bcm2711.Sdhci

open Gather

/-- `sdio_sg_start` of a list of at least one entry. -/
def sdioSgStart : List SdioSge → Option Wspc
  | [] => none
  | sge :: rest => some ⟨rest.length + 1, sge :: rest, sge.sgCount, sge.sgAddress⟩

/-- `sdio_sg_nxt` with one limit after the other: the chunks, and `none` where the list is
complete.  There is no result where an entry is read behind the list. -/
def sgCalls : (limits : List Nat) → Wspc → Option (List (Option Piece))
  | [], _ => some []
  | limit :: limits, wspc =>
      match sdioSgNxt wspc limit with
      | none => none
      | some .complete => (sgCalls limits wspc).map (none :: ·)
      | some (.more addr len next) => (sgCalls limits next).map (some ⟨addr, len⟩ :: ·)

/-- What the port tells in one call of `sdhci_pio_xfer`: it is ready for some blocks, and then it
is not. -/
structure PortReads (mask : Nat) where
  ready : List Nat
  last : Nat
  isReady : ∀ read ∈ ready, Word.test read mask = true
  notReady : Word.test last mask = false

/-- The loop of `sdhci_pio_xfer`, call after call. -/
def pioCalls {mask : Nat} (blksz : Nat) :
    List (PortReads mask) → Wspc → List (Nat × Nat) → Option (Wspc × List (Nat × Nat))
  | [], wspc, moved => some (wspc, moved)
  | port :: ports, wspc, moved =>
      match pioBlocks mask blksz (port.ready ++ [port.last]) wspc moved with
      | none => none
      | some (_, next, further) => pioCalls blksz ports next further

/-- The blocks that the port takes in all calls. -/
def readyBlocks {mask : Nat} (ports : List (PortReads mask)) : Nat :=
  (ports.map fun port => port.ready.length).sum

/-- The memory that has been moved, by its words. -/
def movedPieces (moved : List (Nat × Nat)) : List Piece :=
  moved.map fun words => ⟨words.1, 4 * words.2⟩

/-- A scatter-gather list of at least one entry, none of them empty. -/
structure SgList where
  entries : List SdioSge
  nonempty : entries ≠ []
  proper : ∀ entry ∈ entries, 0 < entry.sgCount

namespace SgList

variable (list : SgList)

/-- The buffers of entries. -/
def buffers (entries : List SdioSge) : List Piece :=
  entries.map fun entry => ⟨entry.sgAddress, entry.sgCount⟩

/-- The buffers of the list. -/
def pieces : List Piece := buffers list.entries

/-- The calls after `sdio_sg_start` hand the list out, and read none but its entries. -/
def WalksExactly (limits : List Nat) : Prop :=
  ∃ wspc returned, sdioSgStart list.entries = some wspc ∧
    sgCalls limits wspc = some returned ∧ Doled list.pieces limits returned

/-- The blocks that the port takes are moved, word by word, and none but the entries are read. -/
def MovesExactly {mask : Nat} (blksz : Nat) (ports : List (PortReads mask)) : Prop :=
  ∃ wspc left moved, sdioSgStart list.entries = some wspc ∧
    pioCalls blksz ports wspc [] = some (left, moved) ∧
    cells (movedPieces moved) = (cells list.pieces).take (readyBlocks ports * blksz)

end SgList

/-! ## The calls -/

/-- These pieces are left of the entry that is loaded and of those behind it. -/
structure Stands (wspc : Wspc) (pieces : List Piece) : Prop where
  loaded : wspc.sge ≠ []
  count : wspc.nsg = wspc.sge.length
  left : pieces = (if wspc.sgc = 0 then [] else [⟨wspc.sga, wspc.sgc⟩]) ++
    SgList.buffers wspc.sge.tail
  proper : ∀ entry ∈ wspc.sge, 0 < entry.sgCount

variable {wspc : Wspc} {pieces : List Piece} {piece : Piece}

/-- With nothing left of the entry that is loaded, the pieces are those of the other entries. -/
theorem Stands.left_of_used (stands : Stands wspc pieces) (used : wspc.sgc = 0) :
    pieces = SgList.buffers wspc.sge.tail := by
  have left := stands.left
  rw [if_pos used, List.nil_append] at left
  exact left

/-- Otherwise the first is what is left of it. -/
theorem Stands.left_of_loaded (stands : Stands wspc pieces) (some : wspc.sgc ≠ 0) :
    pieces = ⟨wspc.sga, wspc.sgc⟩ :: SgList.buffers wspc.sge.tail := by
  have left := stands.left
  rw [if_neg some] at left
  exact left

/-- The list is not at its end while an entry is loaded. -/
theorem Stands.incomplete (stands : Stands wspc pieces) : ¬ (wspc.nsg = 0 ∧ wspc.sgc = 0) := by
  rintro ⟨none, _⟩
  rw [stands.count, List.length_eq_zero_iff] at none
  exact stands.loaded none

/-- No piece that is left is empty. -/
theorem Stands.proper_pieces (stands : Stands wspc pieces) : Proper pieces := by
  have others : Proper (SgList.buffers wspc.sge.tail) := by
    intro piece member
    obtain ⟨entry, inside, rfl⟩ := List.mem_map.mp member
    exact stands.proper entry (List.mem_of_mem_tail inside)
  by_cases used : wspc.sgc = 0
  · rw [stands.left_of_used used]
    exact others
  · rw [stands.left_of_loaded used]
    exact proper_cons.mpr ⟨Nat.pos_of_ne_zero used, others⟩

/-- At first all entries are left. -/
theorem stands_start (list : SgList) :
    ∃ wspc, sdioSgStart list.entries = some wspc ∧ Stands wspc list.pieces := by
  obtain ⟨sge, rest, entries⟩ := List.exists_cons_of_ne_nil list.nonempty
  have proper := list.proper
  rw [SgList.pieces, entries]
  rw [entries] at proper
  have some : sge.sgCount ≠ 0 := (proper sge List.mem_cons_self).ne'
  refine ⟨_, rfl, List.cons_ne_nil _ _, rfl, ?_, proper⟩
  rw [if_neg some]
  rfl

/-- From an entry that has something left, a call takes the chunk at its front. -/
theorem Stands.take (stands : Stands wspc (piece :: pieces)) (some : wspc.sgc ≠ 0) (limit : Nat) :
    piece = ⟨wspc.sga, wspc.sgc⟩ ∧
      Stands { wspc with
        sga := wspc.sga + min wspc.sgc limit, sgc := wspc.sgc - min wspc.sgc limit }
        (Gather.left limit (piece :: pieces)) := by
  obtain ⟨rfl, rfl⟩ := List.cons.inj (stands.left_of_loaded some)
  refine ⟨rfl, stands.loaded, stands.count, ?_, stands.proper⟩
  dsimp only
  rw [Gather.left]
  by_cases short : wspc.sgc ≤ limit
  · rw [if_pos short, min_eq_left short, Nat.sub_self, if_pos rfl, List.nil_append]
  · have more : wspc.sgc - limit ≠ 0 := Nat.sub_ne_zero_of_lt (not_le.mp short)
    rw [if_neg short, min_eq_right (not_le.mp short).le, if_neg more]
    rfl

/-- While something is left a call hands out the chunk at the front. -/
theorem Stands.nxt (stands : Stands wspc (piece :: pieces)) (limit : Nat) :
    ∃ after, sdioSgNxt wspc limit = some (.more piece.start (min piece.size limit) after) ∧
      Stands after (Gather.left limit (piece :: pieces)) := by
  rw [sdioSgNxt, if_neg stands.incomplete]
  by_cases used : wspc.sgc = 0
  · rw [if_pos used]
    have left := stands.left_of_used used
    cases behind : wspc.sge.tail with
    | nil =>
        rw [behind] at left
        cases left
    | cons next rest =>
        rw [behind] at left
        have inside : ∀ entry ∈ next :: rest, 0 < entry.sgCount := by
          rw [← behind]
          exact fun entry member => stands.proper entry (List.mem_of_mem_tail member)
        have positive : next.sgCount ≠ 0 := (inside next List.mem_cons_self).ne'
        have count : wspc.nsg - 1 = (next :: rest).length := by
          rw [stands.count, ← behind, List.length_tail]
        have advanced : Stands ⟨wspc.nsg - 1, next :: rest, next.sgCount, next.sgAddress⟩
            (piece :: pieces) := by
          refine ⟨List.cons_ne_nil _ _, count, ?_, inside⟩
          rw [if_neg positive, left]
          rfl
        obtain ⟨front, later⟩ := advanced.take positive limit
        rw [front]
        rw [front] at later
        exact ⟨_, rfl, later⟩
  · rw [if_neg used]
    obtain ⟨front, later⟩ := stands.take used limit
    rw [front]
    rw [front] at later
    exact ⟨_, rfl, later⟩

/-- Where nothing is left a call reads behind the list. -/
theorem Stands.overrun (stands : Stands wspc []) (limit : Nat) : sdioSgNxt wspc limit = none := by
  have used : wspc.sgc = 0 := by
    by_contra some
    cases stands.left_of_loaded some
  have last : wspc.sge.tail = [] := List.map_eq_nil_iff.mp (stands.left_of_used used).symm
  rw [sdioSgNxt, if_neg stands.incomplete, if_pos used, last]
  rfl

/-- The calls stay in the list exactly while something is left, and then hand out its chunks. -/
theorem Stands.calls (stands : Stands wspc pieces) (limits : List Nat) :
    (Lasts limits pieces → sgCalls limits wspc = some (chunks limits pieces)) ∧
      (¬ Lasts limits pieces → sgCalls limits wspc = none) := by
  induction limits generalizing wspc pieces with
  | nil => exact ⟨fun _ => rfl, fun none => absurd trivial none⟩
  | cons limit limits ih =>
      rw [sgCalls]
      cases pieces with
      | nil =>
          rw [stands.overrun limit]
          exact ⟨fun lasts => absurd rfl lasts.1, fun _ => rfl⟩
      | cons piece pieces =>
          obtain ⟨after, called, later⟩ := stands.nxt limit
          obtain ⟨same, behind⟩ := ih later
          rw [called]
          dsimp only
          constructor
          · intro lasts
            rw [same lasts.2]
            rfl
          · intro ends
            rw [behind fun lasts => ends ⟨List.cons_ne_nil _ _, lasts⟩]
            rfl

/-- The list is walked exactly when no call is made after the last byte. -/
theorem walksExactly_iff (list : SgList) (limits : List Nat) :
    list.WalksExactly limits ↔ Lasts limits list.pieces := by
  obtain ⟨wspc, started, stands⟩ := stands_start list
  obtain ⟨same, behind⟩ := stands.calls limits
  constructor
  · rintro ⟨other, returned, otherStarted, called, _⟩
    rw [started] at otherStarted
    obtain rfl := Option.some.inj otherStarted
    by_contra ends
    rw [behind ends] at called
    cases called
  · intro lasts
    exact ⟨wspc, _, started, same lasts, Doled.of_chunks stands.proper_pieces limits⟩

/-! ## The blocks -/

/-- The words that are moved of chunks. -/
def wordsOf (chunks : List Piece) : List (Nat × Nat) :=
  chunks.map fun chunk => (chunk.start, chunk.size / 4)

theorem wordsOf_append (front back : List Piece) :
    wordsOf (front ++ back) = wordsOf front ++ wordsOf back := List.map_append

/-- A chunk is moved without the bytes behind its last word. -/
theorem movedPieces_wordsOf (chunks : List Piece) :
    movedPieces (wordsOf chunks) = chunks.map (trimmed 4) := by
  rw [movedPieces, wordsOf, List.map_map]
  rfl

variable {size : Nat}

/-- A block that the pieces hold is cut off their front. -/
theorem Stands.block (stands : Stands wspc pieces) (enough : size ≤ total pieces) {rounds : Nat}
    (enoughRounds : size < rounds) (moved : List (Nat × Nat)) :
    ∃ after, pioBlock rounds size wspc moved =
        some (after, moved ++ wordsOf (cut size pieces).1) ∧
      Stands after (cut size pieces).2 := by
  induction rounds generalizing wspc pieces size moved with
  | zero => exact absurd enoughRounds (Nat.not_lt_zero _)
  | succ rounds ih =>
      rw [pioBlock]
      by_cases none : size = 0
      · have whole : cut size pieces = ([], pieces) := by
          cases pieces with
          | nil => rfl
          | cons piece pieces => rw [cut, if_pos none]
        rw [if_pos none, whole]
        refine ⟨wspc, ?_, stands⟩
        rw [wordsOf, List.map_nil, List.append_nil]
      · rw [if_neg none]
        cases pieces with
        | nil => exact absurd (Nat.le_zero.mp enough) none
        | cons piece pieces =>
            have positive := (proper_cons.mp stands.proper_pieces).1
            obtain ⟨next, called, later⟩ := stands.nxt size
            rw [called]
            dsimp only
            rw [cut, if_neg none]
            rw [Gather.left] at later
            by_cases short : piece.size ≤ size
            · rw [if_pos short] at later
              rw [if_pos short, min_eq_left short]
              have fewer : size - piece.size ≤ total pieces := by
                apply Nat.sub_le_of_le_add
                rw [Nat.add_comm]
                exact enough
              have less : size - piece.size < rounds :=
                (Nat.sub_lt (Nat.pos_of_ne_zero none) positive).trans_le
                  (Nat.le_of_lt_succ enoughRounds)
              obtain ⟨after, rest, last⟩ :=
                ih later fewer less (moved ++ [(piece.start, piece.size / 4)])
              refine ⟨after, ?_, last⟩
              rw [rest, List.append_assoc]
              rfl
            · rw [if_neg short] at later
              rw [if_neg short, min_eq_right (not_le.mp short).le, Nat.sub_self]
              obtain ⟨once, rfl⟩ := Nat.exists_eq_succ_of_ne_zero
                ((Nat.pos_of_ne_zero none).trans_le (Nat.le_of_lt_succ enoughRounds)).ne'
              exact ⟨next, rfl, later⟩

/-- With a block that they do not hold, an entry behind the list is read. -/
theorem Stands.block_overrun (stands : Stands wspc pieces) (beyond : total pieces < size)
    (rounds : Nat) (moved : List (Nat × Nat)) : pioBlock rounds size wspc moved = none := by
  induction rounds generalizing wspc pieces size moved with
  | zero => rfl
  | succ rounds ih =>
      have some : size ≠ 0 := (Nat.zero_le _).trans_lt beyond |>.ne'
      rw [pioBlock, if_neg some]
      cases pieces with
      | nil => rw [stands.overrun size]
      | cons piece pieces =>
          obtain ⟨next, called, later⟩ := stands.nxt size
          have short : piece.size ≤ size := (Nat.le_add_right _ _).trans beyond.le
          rw [Gather.left, if_pos short] at later
          have less : total pieces < size - piece.size := by
            apply Nat.lt_sub_of_add_lt
            rw [Nat.add_comm]
            exact beyond
          rw [called, min_eq_left short]
          exact ih later less _

variable {mask blksz : Nat}

/-- The blocks that the port takes in a call are cut off one after the other. -/
theorem Stands.blocks (stands : Stands wspc pieces) (port : PortReads mask)
    (enough : port.ready.length * blksz ≤ total pieces) (moved : List (Nat × Nat)) :
    ∃ after, pioBlocks mask blksz (port.ready ++ [port.last]) wspc moved =
        some ([], after, moved ++ wordsOf (cuts blksz port.ready.length pieces).1) ∧
      Stands after (cuts blksz port.ready.length pieces).2 := by
  obtain ⟨ready, last, isReady, notReady⟩ := port
  dsimp only at enough ⊢
  induction ready generalizing wspc pieces moved with
  | nil =>
      refine ⟨wspc, ?_, stands⟩
      rw [List.nil_append, pioBlocks, notReady, if_neg Bool.false_ne_true]
      rw [List.length_nil, cuts, wordsOf, List.map_nil, List.append_nil]
  | cons read ready ih =>
      rw [List.length_cons, Nat.succ_mul] at enough
      have one : blksz ≤ total pieces := (Nat.le_add_left _ _).trans enough
      have others : ready.length * blksz ≤ total (cut blksz pieces).2 := by
        rw [cut_left one]
        exact Nat.le_sub_of_add_le enough
      obtain ⟨next, block, later⟩ := stands.block one
        (Nat.lt_succ_of_le (Nat.le_add_right blksz wspc.sge.length)) moved
      obtain ⟨after, rest, left⟩ := ih later (moved ++ wordsOf (cut blksz pieces).1)
        (fun read member => isReady read (List.mem_cons_of_mem _ member)) others
      refine ⟨after, ?_, left⟩
      rw [List.cons_append, pioBlocks, if_pos (isReady read List.mem_cons_self), block]
      dsimp only
      rw [rest, List.length_cons, cuts, wordsOf_append, List.append_assoc]

/-- With more blocks than they hold, an entry behind the list is read. -/
theorem Stands.blocks_overrun (stands : Stands wspc pieces) (port : PortReads mask)
    (beyond : total pieces < port.ready.length * blksz) (moved : List (Nat × Nat)) :
    pioBlocks mask blksz (port.ready ++ [port.last]) wspc moved = none := by
  obtain ⟨ready, last, isReady, notReady⟩ := port
  dsimp only at beyond ⊢
  induction ready generalizing wspc pieces moved with
  | nil =>
      rw [List.length_nil, Nat.zero_mul] at beyond
      exact absurd beyond (Nat.not_lt_zero _)
  | cons read ready ih =>
      rw [List.length_cons, Nat.succ_mul] at beyond
      rw [List.cons_append, pioBlocks, if_pos (isReady read List.mem_cons_self)]
      by_cases one : blksz ≤ total pieces
      · obtain ⟨next, block, later⟩ := stands.block one
          (Nat.lt_succ_of_le (Nat.le_add_right blksz wspc.sge.length)) moved
        have others : total (cut blksz pieces).2 < ready.length * blksz := by
          rw [cut_left one]
          exact Nat.sub_lt_right_of_lt_add one beyond
        rw [block]
        exact ih later _ (fun read member => isReady read (List.mem_cons_of_mem _ member)) others
      · rw [stands.block_overrun (not_le.mp one)]

theorem readyBlocks_cons (port : PortReads mask) (ports : List (PortReads mask)) :
    readyBlocks (port :: ports) = port.ready.length + readyBlocks ports := rfl

/-- The blocks of all calls are cut off one after the other. -/
theorem Stands.allBlocks (stands : Stands wspc pieces) (ports : List (PortReads mask))
    (enough : readyBlocks ports * blksz ≤ total pieces) (moved : List (Nat × Nat)) :
    ∃ after, pioCalls blksz ports wspc moved =
        some (after, moved ++ wordsOf (cuts blksz (readyBlocks ports) pieces).1) := by
  induction ports generalizing wspc pieces moved with
  | nil =>
      refine ⟨wspc, ?_⟩
      rw [pioCalls, readyBlocks, List.map_nil, List.sum_nil, cuts, wordsOf, List.map_nil,
        List.append_nil]
  | cons port ports ih =>
      rw [readyBlocks_cons, Nat.add_mul] at enough
      have one : port.ready.length * blksz ≤ total pieces := (Nat.le_add_right _ _).trans enough
      have others : readyBlocks ports * blksz ≤
          total (cuts blksz port.ready.length pieces).2 := by
        rw [cuts_left _ one]
        apply Nat.le_sub_of_add_le
        rw [Nat.add_comm]
        exact enough
      obtain ⟨next, first, later⟩ := stands.blocks port one moved
      obtain ⟨after, rest⟩ := ih later others
        (moved ++ wordsOf (cuts blksz port.ready.length pieces).1)
      refine ⟨after, ?_⟩
      rw [pioCalls, first]
      dsimp only
      rw [rest, readyBlocks_cons, cuts_add, wordsOf_append, List.append_assoc]

/-- With more blocks in all calls than the pieces hold, an entry behind the list is read. -/
theorem Stands.allBlocks_overrun (stands : Stands wspc pieces) (ports : List (PortReads mask))
    (beyond : total pieces < readyBlocks ports * blksz) (moved : List (Nat × Nat)) :
    pioCalls blksz ports wspc moved = none := by
  induction ports generalizing wspc pieces moved with
  | nil =>
      rw [readyBlocks, List.map_nil, List.sum_nil, Nat.zero_mul] at beyond
      exact absurd beyond (Nat.not_lt_zero _)
  | cons port ports ih =>
      rw [readyBlocks_cons, Nat.add_mul] at beyond
      rw [pioCalls]
      by_cases one : port.ready.length * blksz ≤ total pieces
      · obtain ⟨next, first, later⟩ := stands.blocks port one moved
        have others : total (cuts blksz port.ready.length pieces).2 <
            readyBlocks ports * blksz := by
          rw [cuts_left _ one]
          exact Nat.sub_lt_left_of_lt_add one beyond
        rw [first]
        exact ih later others _
      · rw [stands.blocks_overrun port (not_le.mp one)]

namespace SgList

/-- The port moves exactly the bytes of the blocks where the entries hold them, the blocks are
of whole words, and the entries that end within them end at a word. -/
theorem movesExactly_iff (list : SgList) (ports : List (PortReads mask)) :
    list.MovesExactly blksz ports ↔
      readyBlocks ports * blksz ≤ total list.pieces ∧
        (0 < readyBlocks ports → 4 ∣ blksz) ∧
        EndsAligned 4 (readyBlocks ports * blksz) list.pieces := by
  obtain ⟨wspc, started, stands⟩ := stands_start list
  by_cases enough : readyBlocks ports * blksz ≤ total list.pieces
  · rw [and_iff_right enough, ← cuts_dvd_iff _ enough, ← cells_trimmed_iff,
      cuts_cells _ enough, ← movedPieces_wordsOf]
    obtain ⟨after, called⟩ := stands.allBlocks ports enough []
    constructor
    · rintro ⟨other, left, moved, otherStarted, otherCalled, same⟩
      obtain rfl := Option.some.inj (started.symm.trans otherStarted)
      obtain ⟨rfl, rfl⟩ := Prod.mk.inj (Option.some.inj (called.symm.trans otherCalled))
      exact same
    · intro same
      exact ⟨wspc, after, _, started, called, same⟩
  · refine iff_of_false ?_ fun holds => enough holds.1
    rintro ⟨other, left, moved, otherStarted, otherCalled, _⟩
    obtain rfl := Option.some.inj (started.symm.trans otherStarted)
    rw [stands.allBlocks_overrun ports (not_le.mp enough)] at otherCalled
    cases otherCalled

/-- The list is walked exactly, and moved exactly through the port. -/
def Exact (list : SgList) (limits : List Nat) (blksz : Nat) (ports : List (PortReads mask)) :
    Prop :=
  list.WalksExactly limits ∧ list.MovesExactly blksz ports

/-- The walk is exact as long as no call is made after the last byte, and the port takes no more
than the entries hold, in whole words of each. -/
theorem exact_iff (list : SgList) (limits : List Nat) (ports : List (PortReads mask)) :
    list.Exact limits blksz ports ↔
      Lasts limits list.pieces ∧
        readyBlocks ports * blksz ≤ total list.pieces ∧
        (0 < readyBlocks ports → 4 ∣ blksz) ∧
        EndsAligned 4 (readyBlocks ports * blksz) list.pieces := by
  rw [Exact, walksExactly_iff, movesExactly_iff]

/-- One entry of a sector. -/
def oneSector : SgList where
  entries := [⟨0x1000, 512⟩]
  nonempty := List.cons_ne_nil _ _
  proper := by
    intro entry member
    obtain rfl := List.mem_singleton.mp member
    decide

/-- The call after the sector reads an entry behind the list. -/
theorem oneSector_overrun :
    ¬ oneSector.Exact [512, 512] 512 ([] : List (PortReads SDHCI_PSTATE_BRE)) := by
  rintro ⟨⟨wspc, returned, started, called, _⟩, _⟩
  obtain rfl := Option.some.inj started
  cases called

end SgList

end Bcm2711.Sdhci
