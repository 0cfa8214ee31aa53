import Bcm2711.Lib.Word

/-! # The ADMA descriptor table

`sdhci_adma_setup` splits each entry of a scatter-gather list into pieces that one descriptor
can carry and writes them behind each other.  The table has room for `ADMA_DESC_MAX`
descriptors, and the number written is compared with this room after each of them.
-/

namespace Bcm2711.Sdhci

/-! ## Descriptors -/

def SF_USE_ADMA64 : Nat := 0x08
def SF_V4_MODE : Nat := 0x20
def SDHCI_ADMA2_MAX_XFER : Nat := 1024 * 60
def ADMA_DESC_MAX : Nat := 256
def SDHCI_ADMA2_VALID : Nat := 1
def SDHCI_ADMA2_END : Nat := 2
def SDHCI_ADMA2_TRAN : Nat := 2 <<< 4

/-- An entry of a scatter-gather list, `sdio_sge_t`. -/
structure SdioSge where
  sgAddress : Nat
  sgCount : Nat
deriving DecidableEq, Repr

/-- The fields of the largest descriptor, `sdhci_v4_adma64_t`. -/
structure AdmaDesc where
  attr : Nat
  len : Nat
  addrLo : Nat
  addrHi : Nat
  reserved : Nat
deriving DecidableEq, Repr

/-- `desc_sz`: the size of a descriptor in the addressing mode. -/
def descSz (flags : Nat) : Nat :=
  if Word.test flags SF_USE_ADMA64 then if Word.test flags SF_V4_MODE then 16 else 12 else 8

/-- The bits of an address in the addressing mode. -/
def addrWidth (flags : Nat) : Nat := if Word.test flags SF_USE_ADMA64 then 64 else 32

/-- The memory at `sdhc->adma` by byte offset, where the function's pointer stands in it, its
count of descriptors, and the offsets at which it has written descriptors. -/
structure AdmaTable where
  mem : Int → AdmaDesc
  adma : Int
  acnt : Nat
  written : List Int

/-! ## The source's loops -/

/-- The fields of the descriptor that are stored for a piece. -/
def AdmaDesc.store (desc : AdmaDesc) (flags paddr alen : Nat) : AdmaDesc where
  attr := SDHCI_ADMA2_VALID ||| SDHCI_ADMA2_TRAN
  len := alen % 2 ^ 16
  addrLo := paddr % 2 ^ 32
  addrHi := if Word.test flags SF_USE_ADMA64 then paddr / 2 ^ 32 % 2 ^ 32 else desc.addrHi
  reserved :=
    if Word.test flags SF_USE_ADMA64 ∧ Word.test flags SF_V4_MODE then 0 else desc.reserved

/-- Write the descriptor of a piece and step to the next. -/
def AdmaTable.put (table : AdmaTable) (flags paddr alen : Nat) : AdmaTable where
  mem := Function.update table.mem table.adma ((table.mem table.adma).store flags paddr alen)
  adma := table.adma + descSz flags
  acnt := Word.add 32 table.acnt 1
  written := table.written ++ [table.adma]

/-- The `while` loop over what is left of an entry.  A round takes at least one byte, so the
count bounds the rounds.  `.error` is the return of `ENOTSUP`. -/
def splitEntry (flags : Nat) : (rounds paddr sgCount : Nat) → AdmaTable → Except AdmaTable AdmaTable
  | 0, _, _, table => .ok table
  | rounds + 1, paddr, sgCount, table =>
      if sgCount = 0 then .ok table
      else
        let alen := min sgCount SDHCI_ADMA2_MAX_XFER
        let next := table.put flags paddr alen
        if ADMA_DESC_MAX < next.acnt then .error next
        else splitEntry flags rounds (Word.add 64 paddr alen) (sgCount - alen) next

/-- The `for` loop over the list. -/
def splitList (flags bmstrXlat : Nat) : List SdioSge → AdmaTable → Except AdmaTable AdmaTable
  | [], table => .ok table
  | sge :: rest, table =>
      match splitEntry flags sge.sgCount (Word.add 64 sge.sgAddress bmstrXlat) sge.sgCount
          table with
      | .error full => .error full
      | .ok next => splitList flags bmstrXlat rest next

/-- The values the function returns. -/
inductive SetupStatus where
  | eok
  | enotsup
deriving DecidableEq, Repr

/-- What the function uses of the controller: `sdhc->flags`, `cfg->bmstr_xlat`, `sdhc->admap`
and the memory at `sdhc->adma`. -/
structure AdmaHc where
  flags : Nat
  bmstrXlat : Nat
  admap : Nat
  mem : Int → AdmaDesc

/-- What the function uses of the command: whether `SCF_DATA_PHYS` is set, and its list. -/
structure AdmaCmd where
  dataPhys : Bool
  sgl : List SdioSge

/-- A return with the table and the values stored to `SDHCI_ADMA_ADDRL` and
`SDHCI_ADMA_ADDRH`. -/
structure AdmaSetup where
  status : SetupStatus
  table : AdmaTable
  addrL : Option Nat
  addrH : Option Nat

/-- The list with physical addresses; `sdio_vtop_sg` hands the translation to a library. -/
def AdmaCmd.physical (cmd : AdmaCmd) (vtopSg : List SdioSge → List SdioSge) : List SdioSge :=
  if cmd.dataPhys then cmd.sgl else vtopSg cmd.sgl

/-- The table at the start. -/
def AdmaHc.table (hc : AdmaHc) : AdmaTable := ⟨hc.mem, 0, 0, []⟩

/-- Step back to the last descriptor and set `SDHCI_ADMA2_END` in it. -/
def AdmaTable.close (table : AdmaTable) (flags : Nat) : AdmaTable :=
  let last := table.adma - descSz flags
  { table with
    mem := Function.update table.mem last
      { table.mem last with attr := (table.mem last).attr ||| SDHCI_ADMA2_END }
    adma := last
    written := table.written ++ [last] }

/-- `sdhci_adma_setup`. -/
def sdhciAdmaSetup (vtopSg : List SdioSge → List SdioSge) (hc : AdmaHc) (cmd : AdmaCmd) :
    AdmaSetup :=
  match splitList hc.flags hc.bmstrXlat (cmd.physical vtopSg) hc.table with
  | .error full => ⟨.enotsup, full, none, none⟩
  | .ok table =>
      let base := Word.add 64 hc.admap hc.bmstrXlat
      ⟨.eok, table.close hc.flags, some (base % 2 ^ 32),
        if Word.test hc.flags SF_USE_ADMA64 then some (base / 2 ^ 32) else none⟩

/-! ## What the controller reads -/

/-- A descriptor as the controller reads it. -/
structure Entry where
  attr : Nat
  len : Nat
  addr : Nat
deriving DecidableEq, Repr

/-- The controller reads the high half of the address in the 64 bit modes only. -/
def AdmaDesc.entry (flags : Nat) (desc : AdmaDesc) : Entry where
  attr := desc.attr
  len := desc.len
  addr := if Word.test flags SF_USE_ADMA64 then desc.addrHi * 2 ^ 32 + desc.addrLo
    else desc.addrLo

/-- The byte offset of a descriptor. -/
def offset (flags index : Nat) : Int := (index : Int) * descSz flags

/-- The first descriptors of a table. -/
def AdmaTable.entries (table : AdmaTable) (flags count : Nat) : List Entry :=
  (List.range count).map fun index => (table.mem (offset flags index)).entry flags

/-- The bytes from a bus address on. -/
def busBytes (width addr len : Nat) : List Nat :=
  (List.range len).map fun index => (addr + index) % 2 ^ width

/-- The bytes of a list as the controller addresses them. -/
def listBytes (flags bmstrXlat : Nat) (sgl : List SdioSge) : List Nat :=
  sgl.flatMap fun sge => busBytes (addrWidth flags) (sge.sgAddress + bmstrXlat) sge.sgCount

/-- The attributes of the descriptor with this index among `count`. -/
def attrAt (count index : Nat) : Nat :=
  SDHCI_ADMA2_VALID ||| SDHCI_ADMA2_TRAN ||| if index + 1 = count then SDHCI_ADMA2_END else 0

/-- Descriptors that describe a list: all valid, with `SDHCI_ADMA2_END` in the last alone, none
empty or too long, and joined they cover the bytes of the list in order. -/
structure Describes (flags bmstrXlat : Nat) (sgl : List SdioSge) (entries : List Entry) :
    Prop where
  attr : entries.map Entry.attr = (List.range entries.length).map (attrAt entries.length)
  len : ∀ entry ∈ entries, 1 ≤ entry.len ∧ entry.len ≤ SDHCI_ADMA2_MAX_XFER
  covers : entries.flatMap (fun entry => busBytes (addrWidth flags) entry.addr entry.len) =
    listBytes flags bmstrXlat sgl

/-- The setup either succeeds with a table that describes the list or returns `ENOTSUP`, and
it writes no descriptor behind the table. -/
def SetsUp (hc : AdmaHc) (sgl : List SdioSge) (result : AdmaSetup) : Prop :=
  (result.status = .eok ∧
      Describes hc.flags hc.bmstrXlat sgl (result.table.entries hc.flags result.table.acnt) ∨
    result.status = .enotsup) ∧
  ∀ index, ADMA_DESC_MAX ≤ index → offset hc.flags index ∉ result.table.written

/-! ## Pieces of an entry -/

section Pieces

variable {flags : Nat}

/-- The descriptors that the loop over an entry writes, however many. -/
def pieces (flags : Nat) : (rounds paddr sgCount : Nat) → List Entry
  | 0, _, _ => []
  | rounds + 1, paddr, sgCount =>
      if sgCount = 0 then []
      else
        let alen := min sgCount SDHCI_ADMA2_MAX_XFER
        ⟨SDHCI_ADMA2_VALID ||| SDHCI_ADMA2_TRAN, alen, paddr % 2 ^ addrWidth flags⟩ ::
          pieces flags rounds (Word.add 64 paddr alen) (sgCount - alen)

theorem pieces_succ (flags rounds paddr sgCount : Nat) :
    pieces flags (rounds + 1) paddr sgCount =
      if sgCount = 0 then []
      else
        ⟨SDHCI_ADMA2_VALID ||| SDHCI_ADMA2_TRAN, min sgCount SDHCI_ADMA2_MAX_XFER,
            paddr % 2 ^ addrWidth flags⟩ ::
          pieces flags rounds (Word.add 64 paddr (min sgCount SDHCI_ADMA2_MAX_XFER))
            (sgCount - min sgCount SDHCI_ADMA2_MAX_XFER) := rfl

/-- The descriptors of a whole list. -/
def listPieces (flags bmstrXlat : Nat) (sgl : List SdioSge) : List Entry :=
  sgl.flatMap fun sge =>
    pieces flags sge.sgCount (Word.add 64 sge.sgAddress bmstrXlat) sge.sgCount

/-- How many descriptors a list needs. -/
def descsNeeded (sgl : List SdioSge) : Nat :=
  (sgl.map fun sge => (sge.sgCount + (SDHCI_ADMA2_MAX_XFER - 1)) / SDHCI_ADMA2_MAX_XFER).sum

theorem busBytes_add (width addr first second : Nat) :
    busBytes width addr (first + second) =
      busBytes width addr first ++ busBytes width (addr + first) second := by
  rw [busBytes, List.range_add, List.map_append, List.map_map]
  congr 1
  apply List.map_congr_left
  intro index _
  rw [Function.comp_apply, Nat.add_assoc]

/-- Only the low bits of the address count. -/
theorem busBytes_mod {width bits : Nat} (narrow : width ≤ bits) (addr len : Nat) :
    busBytes width (addr % 2 ^ bits) len = busBytes width addr len := by
  apply List.map_congr_left
  intro index _
  have divides : 2 ^ width ∣ 2 ^ bits := Nat.pow_dvd_pow 2 narrow
  rw [Nat.add_mod, Nat.mod_mod_of_dvd _ divides, ← Nat.add_mod]

theorem addrWidth_le (flags : Nat) : addrWidth flags ≤ 64 := by
  unfold addrWidth
  split
  · exact le_rfl
  · exact Nat.le_of_ble_eq_true rfl

theorem alen_pos {sgCount : Nat} (left : sgCount ≠ 0) :
    1 ≤ min sgCount SDHCI_ADMA2_MAX_XFER :=
  le_min (Nat.one_le_iff_ne_zero.mpr left) (Nat.le_of_ble_eq_true rfl)

theorem plain_of_mem_pieces {rounds paddr sgCount : Nat} :
    ∀ entry ∈ pieces flags rounds paddr sgCount,
      entry.attr = SDHCI_ADMA2_VALID ||| SDHCI_ADMA2_TRAN ∧
        1 ≤ entry.len ∧ entry.len ≤ SDHCI_ADMA2_MAX_XFER := by
  induction rounds generalizing paddr sgCount with
  | zero =>
      intro entry member
      cases member
  | succ rounds ih =>
      intro entry member
      rw [pieces_succ] at member
      split at member
      · cases member
      · next left =>
          rcases List.mem_cons.mp member with rfl | later
          · exact ⟨rfl, alen_pos left, Nat.min_le_right _ _⟩
          · exact ih entry later

/-- The pieces of an entry cover its bytes. -/
theorem pieces_cover {rounds paddr sgCount : Nat} (enough : sgCount ≤ rounds) :
    (pieces flags rounds paddr sgCount).flatMap
        (fun entry => busBytes (addrWidth flags) entry.addr entry.len) =
      busBytes (addrWidth flags) paddr sgCount := by
  induction rounds generalizing paddr sgCount with
  | zero =>
      rw [Nat.le_zero.mp enough]
      rfl
  | succ rounds ih =>
      rw [pieces_succ]
      split
      · next nothing =>
          rw [nothing]
          rfl
      · next left =>
          have positive := alen_pos left
          have within : min sgCount SDHCI_ADMA2_MAX_XFER ≤ sgCount := Nat.min_le_left _ _
          have fewer : sgCount - min sgCount SDHCI_ADMA2_MAX_XFER ≤ rounds := by omega
          rw [List.flatMap_cons, ih fewer, busBytes_mod le_rfl, Word.add,
            busBytes_mod (addrWidth_le flags), ← busBytes_add, Nat.add_sub_cancel' within]

/-- The number of pieces of an entry, rounded up. -/
theorem length_pieces {rounds paddr sgCount : Nat} (enough : sgCount ≤ rounds) :
    (pieces flags rounds paddr sgCount).length =
      (sgCount + (SDHCI_ADMA2_MAX_XFER - 1)) / SDHCI_ADMA2_MAX_XFER := by
  induction rounds generalizing paddr sgCount with
  | zero =>
      rw [Nat.le_zero.mp enough]
      rfl
  | succ rounds ih =>
      rw [pieces_succ]
      split
      · next nothing =>
          rw [nothing]
          rfl
      · next left =>
          have positive := alen_pos left
          have fewer : sgCount - min sgCount SDHCI_ADMA2_MAX_XFER ≤ rounds := by omega
          rw [List.length_cons, ih fewer]
          simp only [SDHCI_ADMA2_MAX_XFER]
          omega

variable {bmstrXlat : Nat} {sgl : List SdioSge}

theorem listPieces_cover :
    (listPieces flags bmstrXlat sgl).flatMap
        (fun entry => busBytes (addrWidth flags) entry.addr entry.len) =
      listBytes flags bmstrXlat sgl := by
  rw [listPieces, List.flatMap_assoc, listBytes]
  congr 1
  funext sge
  rw [pieces_cover le_rfl, Word.add, busBytes_mod (addrWidth_le flags)]

theorem length_listPieces : (listPieces flags bmstrXlat sgl).length = descsNeeded sgl := by
  rw [listPieces, List.length_flatMap, descsNeeded]
  congr 1
  apply List.map_congr_left
  intro sge _
  exact length_pieces le_rfl

end Pieces

/-! ## The loops write the pieces -/

section Loops

variable {flags bmstrXlat : Nat} {table : AdmaTable} {entries : List Entry}

/-- The table holds these descriptors, one behind the other, and nothing else was written. -/
structure AdmaTable.Holds (table : AdmaTable) (flags : Nat) (entries : List Entry) : Prop where
  few : entries.length ≤ ADMA_DESC_MAX + 1
  adma : table.adma = offset flags entries.length
  acnt : table.acnt = entries.length
  stored : table.entries flags entries.length = entries
  written : table.written = (List.range entries.length).map (offset flags)

theorem descSz_pos (flags : Nat) : 0 < descSz flags := by
  unfold descSz
  split
  · split <;> exact Nat.succ_pos _
  · exact Nat.succ_pos _

theorem offset_succ (flags index : Nat) :
    offset flags (index + 1) = offset flags index + descSz flags := by
  rw [offset, offset, Nat.cast_add, Nat.cast_one, add_one_mul]

theorem offset_lt_iff {flags first second : Nat} :
    offset flags first < offset flags second ↔ first < second := by
  rw [offset, offset, mul_lt_mul_iff_left₀ (Int.natCast_pos.mpr (descSz_pos flags)), Nat.cast_lt]

theorem offset_injective (flags : Nat) : Function.Injective (offset flags) := by
  intro first second same
  rcases Nat.lt_trichotomy first second with before | equal | behind
  · exact absurd same (offset_lt_iff.mpr before).ne
  · exact equal
  · exact absurd same (offset_lt_iff.mpr behind).ne'

theorem addr_halves {paddr : Nat} (small : paddr < 2 ^ 64) :
    paddr / 2 ^ 32 % 2 ^ 32 * 2 ^ 32 + paddr % 2 ^ 32 = paddr % 2 ^ 64 := by
  omega

/-- What was stored for a piece is read back. -/
theorem entry_store (desc : AdmaDesc) {paddr alen : Nat} (small : paddr < 2 ^ 64)
    (short : alen ≤ SDHCI_ADMA2_MAX_XFER) :
    (desc.store flags paddr alen).entry flags =
      ⟨SDHCI_ADMA2_VALID ||| SDHCI_ADMA2_TRAN, alen, paddr % 2 ^ addrWidth flags⟩ := by
  have fits : alen % 2 ^ 16 = alen :=
    Nat.mod_eq_of_lt (short.trans_lt (by decide))
  unfold AdmaDesc.entry AdmaDesc.store addrWidth
  split
  · simp only [fits, addr_halves small]
  · simp only [fits]

/-- Descriptors that are not written keep what they hold. -/
theorem entries_update {mem : Int → AdmaDesc} {count : Nat} {place : Int} {desc : AdmaDesc}
    (outside : ∀ index < count, offset flags index ≠ place) :
    (List.range count).map (fun index =>
        (Function.update mem place desc (offset flags index)).entry flags) =
      (List.range count).map fun index => (mem (offset flags index)).entry flags := by
  apply List.map_congr_left
  intro index member
  rw [Function.update_of_ne (outside index (List.mem_range.mp member))]

/-- One round of the inner loop adds one descriptor. -/
theorem AdmaTable.Holds.put (holds : table.Holds flags entries)
    (room : entries.length ≤ ADMA_DESC_MAX) {paddr alen : Nat} (small : paddr < 2 ^ 64)
    (short : alen ≤ SDHCI_ADMA2_MAX_XFER) :
    (table.put flags paddr alen).Holds flags
      (entries ++
        [⟨SDHCI_ADMA2_VALID ||| SDHCI_ADMA2_TRAN, alen, paddr % 2 ^ addrWidth flags⟩]) where
  few := by
    rw [List.length_append]
    exact Nat.succ_le_succ room
  adma := by
    rw [List.length_append, List.length_singleton, offset_succ, ← holds.adma]
    rfl
  acnt := by
    have fits : table.acnt + 1 < 2 ^ 32 := by
      rw [holds.acnt]
      exact (Nat.succ_le_succ room).trans_lt (by decide)
    rw [List.length_append, List.length_singleton, ← holds.acnt]
    exact Word.add_of_lt fits
  stored := by
    have before : ∀ index < entries.length, offset flags index ≠ table.adma := by
      intro index below
      rw [holds.adma]
      exact (offset_lt_iff.mpr below).ne
    rw [List.length_append, List.length_singleton, AdmaTable.entries, List.range_succ,
      List.map_append]
    congr 1
    · exact (entries_update before).trans holds.stored
    · rw [List.map_singleton, ← holds.adma]
      simp only [AdmaTable.put, Function.update_self, entry_store _ small short]
  written := by
    rw [List.length_append, List.length_singleton, List.range_succ, List.map_append,
      ← holds.written, List.map_singleton, ← holds.adma]
    rfl

/-- The loops go to the end while the table has room, and stop one descriptor too late
otherwise. -/
def Outcome (flags : Nat) (entries : List Entry) : Except AdmaTable AdmaTable → Prop
  | .ok table => entries.length ≤ ADMA_DESC_MAX ∧ table.Holds flags entries
  | .error table =>
      ADMA_DESC_MAX < entries.length ∧ table.Holds flags (entries.take (ADMA_DESC_MAX + 1))

theorem splitEntry_outcome {rounds paddr sgCount : Nat} (small : paddr < 2 ^ 64)
    (holds : table.Holds flags entries) (room : entries.length ≤ ADMA_DESC_MAX) :
    Outcome flags (entries ++ pieces flags rounds paddr sgCount)
      (splitEntry flags rounds paddr sgCount table) := by
  induction rounds generalizing paddr sgCount table entries with
  | zero =>
      rw [pieces, List.append_nil]
      exact ⟨room, holds⟩
  | succ rounds ih =>
      rw [splitEntry, pieces_succ]
      split
      · rw [List.append_nil]
        exact ⟨room, holds⟩
      · have next := holds.put room small (Nat.min_le_right sgCount SDHCI_ADMA2_MAX_XFER)
        have count := next.acnt
        rw [List.append_cons]
        dsimp only
        split
        · next full =>
            rw [count] at full
            refine ⟨full.trans_le (List.sublist_append_left _ _).length_le, ?_⟩
            rw [List.take_append_of_le_length full, List.take_of_length_le next.few]
            exact next
        · next roomLeft =>
            rw [count] at roomLeft
            exact ih (Word.add_lt 64 _ _) next (Nat.le_of_not_lt roomLeft)

theorem splitList_outcome {sgl : List SdioSge} (holds : table.Holds flags entries)
    (room : entries.length ≤ ADMA_DESC_MAX) :
    Outcome flags (entries ++ listPieces flags bmstrXlat sgl)
      (splitList flags bmstrXlat sgl table) := by
  induction sgl generalizing table entries with
  | nil =>
      rw [listPieces, List.flatMap_nil, List.append_nil]
      exact ⟨room, holds⟩
  | cons sge rest ih =>
      have first : Outcome flags
          (entries ++ pieces flags sge.sgCount (Word.add 64 sge.sgAddress bmstrXlat) sge.sgCount)
          (splitEntry flags sge.sgCount (Word.add 64 sge.sgAddress bmstrXlat) sge.sgCount table) :=
        splitEntry_outcome (Word.add_lt 64 sge.sgAddress bmstrXlat) holds room
      rw [listPieces, List.flatMap_cons, ← List.append_assoc, splitList]
      split
      · next full stopped =>
          rw [stopped] at first
          obtain ⟨many, held⟩ := first
          refine ⟨many.trans_le (List.sublist_append_left _ _).length_le, ?_⟩
          rw [List.take_append_of_le_length many]
          exact held
      · next table' went =>
          rw [went] at first
          exact ih first.2 first.1

end Loops

/-! ## The whole setup -/

section Setup

variable {flags bmstrXlat : Nat} {table : AdmaTable} {entries : List Entry}

/-- Setting the end bit in the last descriptor leaves the others as they are. -/
theorem AdmaTable.Holds.close {front : List Entry} {last : Entry}
    (holds : table.Holds flags (front ++ [last])) :
    (table.close flags).entries flags (table.close flags).acnt =
      front ++ [{ last with attr := last.attr ||| SDHCI_ADMA2_END }] := by
  have count : (table.close flags).acnt = front.length + 1 := by
    rw [← List.length_singleton (a := last), ← List.length_append]
    exact holds.acnt
  have place : table.adma - descSz flags = offset flags front.length := by
    rw [holds.adma, List.length_append, List.length_singleton, offset_succ, add_sub_cancel_right]
  have stored := holds.stored
  rw [List.length_append, List.length_singleton, AdmaTable.entries, List.range_succ,
    List.map_append, List.map_singleton] at stored
  obtain ⟨before, final⟩ := List.append_inj' stored rfl
  rw [count, AdmaTable.entries, List.range_succ, List.map_append]
  unfold AdmaTable.close
  rw [place]
  dsimp only
  congr 1
  · exact (entries_update fun index below => (offset_lt_iff.mpr below).ne).trans before
  · rw [List.map_singleton, Function.update_self, ← List.singleton_inj.mp final]
    rfl

/-- The attributes with the end bit set in the last descriptor. -/
theorem attr_close {front : List Entry} {last : Entry}
    (plain : ∀ entry ∈ front ++ [last],
      entry.attr = SDHCI_ADMA2_VALID ||| SDHCI_ADMA2_TRAN) :
    (front ++ [{ last with attr := last.attr ||| SDHCI_ADMA2_END }]).map Entry.attr =
      (List.range (front.length + 1)).map (attrAt (front.length + 1)) := by
  rw [List.range_succ, List.map_append, List.map_append, List.map_singleton, List.map_singleton]
  congr 1
  · apply List.ext_getElem
    · rw [List.length_map, List.length_map, List.length_range]
    · intro index inFront inRange
      rw [List.length_map] at inFront
      have notLast : ¬ index + 1 = front.length + 1 := by
        intro same
        exact inFront.ne (Nat.succ_injective same)
      rw [List.getElem_map, List.getElem_map, List.getElem_range, attrAt, if_neg notLast,
        Nat.or_zero]
      exact plain _ (List.mem_append_left _ (List.getElem_mem inFront))
  · rw [plain last (List.mem_append_right _ (List.mem_singleton_self last)), attrAt, if_pos rfl]

theorem Describes.close {front : List Entry} {last : Entry} {sgl : List SdioSge}
    (whole : listPieces flags bmstrXlat sgl = front ++ [last]) :
    Describes flags bmstrXlat sgl
      (front ++ [{ last with attr := last.attr ||| SDHCI_ADMA2_END }]) where
  attr := by
    rw [List.length_append, List.length_singleton]
    apply attr_close
    intro entry member
    rw [← whole] at member
    obtain ⟨sge, _, piece⟩ := List.mem_flatMap.mp member
    exact (plain_of_mem_pieces entry piece).1
  len := by
    have lens : ∀ entry ∈ front ++ [last],
        1 ≤ entry.len ∧ entry.len ≤ SDHCI_ADMA2_MAX_XFER := by
      intro entry member
      rw [← whole] at member
      obtain ⟨sge, _, piece⟩ := List.mem_flatMap.mp member
      exact (plain_of_mem_pieces entry piece).2
    intro entry member
    rcases List.mem_append.mp member with inFront | isLast
    · exact lens entry (List.mem_append_left _ inFront)
    · rw [List.mem_singleton.mp isLast]
      exact lens last (List.mem_append_right _ (List.mem_singleton_self last))
  covers := by
    rw [← listPieces_cover, whole, List.flatMap_append, List.flatMap_append]
    rfl

theorem Describes.nil {sgl : List SdioSge} (whole : listPieces flags bmstrXlat sgl = []) :
    Describes flags bmstrXlat sgl [] where
  attr := rfl
  len := fun entry member => nomatch member
  covers := by
    rw [← listPieces_cover, whole]

variable {vtopSg : List SdioSge → List SdioSge} {hc : AdmaHc} {cmd : AdmaCmd}

theorem AdmaHc.table_holds (hc : AdmaHc) : hc.table.Holds hc.flags [] where
  few := Nat.zero_le _
  adma := by
    rw [offset, List.length_nil, Nat.cast_zero, zero_mul]
    rfl
  acnt := rfl
  stored := rfl
  written := rfl

/-- What the loops leave of the list of a command. -/
theorem setup_outcome :
    Outcome hc.flags (listPieces hc.flags hc.bmstrXlat (cmd.physical vtopSg))
      (splitList hc.flags hc.bmstrXlat (cmd.physical vtopSg) hc.table) :=
  splitList_outcome hc.table_holds (Nat.zero_le _)

/-- A list that needs no more descriptors than there are is set up. -/
theorem setup_fits (fits : descsNeeded (cmd.physical vtopSg) ≤ ADMA_DESC_MAX) :
    SetsUp hc (cmd.physical vtopSg) (sdhciAdmaSetup vtopSg hc cmd) := by
  have outcome := @setup_outcome vtopSg hc cmd
  rw [← @length_listPieces hc.flags hc.bmstrXlat] at fits
  unfold sdhciAdmaSetup
  split
  · next full stopped =>
      rw [stopped] at outcome
      exact absurd outcome.1 (Nat.not_lt.mpr fits)
  · next table went =>
      rw [went] at outcome
      obtain ⟨_, holds⟩ := outcome
      have inside : ∀ index, ADMA_DESC_MAX ≤ index →
          offset hc.flags index ∉ table.written ++ [table.adma - descSz hc.flags] := by
        intro index behind member
        rcases List.mem_append.mp member with early | final
        · rw [holds.written] at early
          obtain ⟨earlier, below, same⟩ := List.mem_map.mp early
          rw [offset_injective _ same] at below
          exact absurd ((List.mem_range.mp below).trans_le fits) (Nat.not_lt.mpr behind)
        · rw [List.mem_singleton, holds.adma] at final
          have small : offset hc.flags index < offset hc.flags (index + 1) :=
            offset_lt_iff.mpr (Nat.lt_succ_self index)
          have lower : offset hc.flags index <
              offset hc.flags
                (listPieces hc.flags hc.bmstrXlat (cmd.physical vtopSg)).length := by
            rw [final]
            exact sub_lt_self _ (Int.natCast_pos.mpr (descSz_pos _))
          exact absurd ((offset_lt_iff.mp lower).trans_le fits) (Nat.not_lt.mpr behind)
      refine ⟨Or.inl ⟨rfl, ?_⟩, inside⟩
      rcases List.eq_nil_or_concat' (listPieces hc.flags hc.bmstrXlat (cmd.physical vtopSg))
        with nothing | ⟨front, last, whole⟩
      · rw [nothing] at holds
        have empty : (table.close hc.flags).acnt = 0 := holds.acnt
        rw [empty]
        exact Describes.nil nothing
      · rw [whole] at holds
        rw [holds.close]
        exact Describes.close whole

/-- A list that needs more is refused, after a descriptor was written behind the table. -/
theorem setup_overflows (many : ADMA_DESC_MAX < descsNeeded (cmd.physical vtopSg)) :
    (sdhciAdmaSetup vtopSg hc cmd).status = .enotsup ∧
      offset hc.flags ADMA_DESC_MAX ∈ (sdhciAdmaSetup vtopSg hc cmd).table.written := by
  have outcome := @setup_outcome vtopSg hc cmd
  rw [← @length_listPieces hc.flags hc.bmstrXlat] at many
  unfold sdhciAdmaSetup
  split
  · next full stopped =>
      rw [stopped] at outcome
      obtain ⟨_, holds⟩ := outcome
      refine ⟨rfl, ?_⟩
      rw [holds.written, List.length_take_of_le many]
      exact List.mem_map_of_mem List.self_mem_range_succ
  · next table went =>
      rw [went] at outcome
      exact absurd many (Nat.not_lt.mpr outcome.1)

/-- The setup keeps to its table exactly when the list needs no more than `ADMA_DESC_MAX`
descriptors. -/
theorem sdhciAdmaSetup_iff (vtopSg : List SdioSge → List SdioSge) (hc : AdmaHc)
    (cmd : AdmaCmd) :
    SetsUp hc (cmd.physical vtopSg) (sdhciAdmaSetup vtopSg hc cmd) ↔
      descsNeeded (cmd.physical vtopSg) ≤ ADMA_DESC_MAX := by
  constructor
  · intro setsUp
    apply Nat.le_of_not_lt
    intro many
    exact setsUp.2 ADMA_DESC_MAX le_rfl (setup_overflows many).2
  · exact setup_fits

/-- One physically contiguous buffer, a byte longer than the table can describe. -/
def longBuffer : AdmaCmd := ⟨true, [⟨0x100000, ADMA_DESC_MAX * SDHCI_ADMA2_MAX_XFER + 1⟩]⟩

/-- In the 32 bit mode the setup of this buffer writes a descriptor behind the table. -/
theorem longBuffer_overflows :
    ¬ SetsUp ⟨0x02, 0, 0x200000, fun _ => ⟨0, 0, 0, 0, 0⟩⟩ (longBuffer.physical id)
      (sdhciAdmaSetup id ⟨0x02, 0, 0x200000, fun _ => ⟨0, 0, 0, 0, 0⟩⟩ longBuffer) := by
  intro setsUp
  have many : ADMA_DESC_MAX < descsNeeded (longBuffer.physical id) := by decide
  exact setsUp.2 ADMA_DESC_MAX le_rfl (setup_overflows many).2

end Setup

end Bcm2711.Sdhci
