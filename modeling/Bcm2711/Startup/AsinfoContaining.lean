import Bcm2711.Startup.Asinfo

/-! # Adding a range under its containers

The ranges `as_add_containing` collects are the pieces of a window painted with the
matching entries in table order, so they partition what the entries contain of the
range, each under the last entry that contains it.
-/

namespace Bcm2711.Startup

open Paint

variable {table : List AsinfoEntry} {container : String} {start stop : Nat}

/-- Among the entries with a name, every later one is contained in or disjoint from each
earlier one. -/
def Laminar (table : List AsinfoEntry) (container : String) : Prop :=
  ∀ earlier later, earlier < later → Named table container earlier →
    Named table container later →
      rangeAt table later ⊆ rangeAt table earlier ∨
        Disjoint (rangeAt table later) (rangeAt table earlier)

/-- The range tests of `as_find_containing` pass when the ranges share an address. -/
theorem AsinfoEntry.meets_iff {entry : AsinfoEntry} (proper : entry.start ≤ entry.stop)
    (order : start ≤ stop) :
    entry.Meets start stop ↔ max start entry.start ≤ min stop entry.stop := by
  unfold AsinfoEntry.Meets
  omega

/-- The offsets `as_find_containing` stops at. -/
theorem hit_iff (ownersFirst : OwnersFirst table) {off : Nat} :
    hit table start stop container off = true ↔
      Named table container off ∧ ∃ entry, table[off]? = some entry ∧ entry.Meets start stop := by
  unfold hit
  cases found : table[off]? with
  | none =>
      simp only [Bool.false_eq_true, false_iff]
      rintro ⟨_, entry, isEntry, _⟩
      cases isEntry
  | some entry =>
      have below : off < table.length := (List.getElem?_eq_some_iff.mp found).1
      simp only [Bool.and_eq_true, decide_eq_true_eq, matchName_iff ownersFirst below,
        Option.some.injEq, exists_eq_left']

/-- The piece of a range under the entry at an offset. -/
def pieceAt (table : List AsinfoEntry) (start stop off : Nat) : AsRange :=
  match table[off]? with
  | none => ⟨start, stop, off⟩
  | some entry => entry.clip start stop off

/-- The hits from an offset on, in table order. -/
def hitsFrom (table : List AsinfoEntry) (start stop : Nat) (container : String) (first : Nat) :
    List Nat :=
  (List.range' first (table.length - first)).filter (hit table start stop container)

theorem hitsFrom_length_lt :
    (hitsFrom table start stop container (searchFrom none)).length < table.length + 1 := by
  have bound := List.length_filter_le (hit table start stop container)
    (List.range' 0 (table.length - 0))
  rw [List.length_range'] at bound
  exact Nat.lt_succ_of_le bound

/-- Searching on behind each hit meets every hit once, in table order. -/
theorem hitsFrom_eq (first : Nat) :
    hitsFrom table start stop container first =
      match (List.range' first (table.length - first)).find? (hit table start stop container) with
      | none => []
      | some off => off :: hitsFrom table start stop container (off + 1) := by
  unfold hitsFrom
  cases found : (List.range' first (table.length - first)).find?
      (hit table start stop container) with
  | none =>
      rw [List.find?_eq_none] at found
      exact List.filter_eq_nil_iff.mpr found
  | some off =>
      obtain ⟨isHit, before, after, split, missed⟩ := List.find?_eq_some_iff_append.mp found
      obtain ⟨count, within, isBefore, isAfter⟩ := List.range'_eq_append_iff.mp split
      obtain ⟨isOff, more, rest⟩ := List.range'_eq_cons_iff.mp isAfter.symm
      have skipped : before.filter (hit table start stop container) = [] := by
        refine List.filter_eq_nil_iff.mpr fun index member => ?_
        simpa using missed index member
      have remaining : table.length - (off + 1) = table.length - first - count - 1 := by omega
      rw [split, List.filter_append, skipped, List.nil_append, List.filter_cons_of_pos isHit]
      dsimp only
      rw [remaining, rest]

/-- The outer loop of `as_add_containing` places the piece of every hit in turn. -/
theorem collectRanges_eq {fuel : Nat} {owner : Option Nat} {ranges : List AsRange}
    (enough : (hitsFrom table start stop container (searchFrom owner)).length < fuel) :
    collectRanges table start stop container fuel owner ranges =
      .ok ((hitsFrom table start stop container (searchFrom owner)).foldl
        (fun ranges off => placeRange (pieceAt table start stop off) ranges) ranges) := by
  induction fuel generalizing owner ranges with
  | zero => exact (Nat.not_lt_zero _ enough).elim
  | succ fuel ih =>
      rw [hitsFrom_eq] at enough ⊢
      unfold collectRanges asFindContaining
      cases found : (List.range' (searchFrom owner) (table.length - searchFrom owner)).find?
          (hit table start stop container) with
      | none => rfl
      | some off =>
          rw [found] at enough
          have isHit : hit table start stop container off = true := List.find?_some found
          cases entryAt : table[off]? with
          | none => simp [hit, entryAt] at isHit
          | some entry =>
              have shorter := Nat.lt_of_succ_lt_succ enough
              have onward := @ih (some off) (placeRange (entry.clip start stop off) ranges) shorter
              simp only [entryAt, onward, List.foldl_cons, pieceAt]
              rfl

/-- A piece that starts in no range is appended. -/
theorem placeRange_of_unpainted {piece : AsRange} {ranges : List AsRange}
    (unpainted : ∀ range ∈ ranges, piece.first ∉ range.toSet) :
    placeRange piece ranges = ranges ++ [piece] := by
  induction ranges with
  | nil => rfl
  | cons current rest ih =>
      have outside : ¬ (current.first ≤ piece.first ∧ current.last ≥ piece.first) :=
        unpainted current List.mem_cons_self
      simp only [placeRange, outside, ↓reduceIte, List.cons_append]
      rw [ih fun range member => unpainted range (List.mem_cons_of_mem _ member)]

/-- A piece inside a range replaces it by the head, the piece and the tail. -/
theorem placeRange_of_painted {piece current : AsRange} {front back : List AsRange}
    (unpainted : ∀ range ∈ front, piece.first ∉ range.toSet) (starts : piece.first ∈ current.toSet)
    (ends : piece.last ≤ current.last) (fits : current.last < 2 ^ 64) :
    placeRange piece (front ++ current :: back) = front ++ (overlaid piece current ++ back) := by
  induction front with
  | nil =>
      have inside : current.first ≤ piece.first ∧ current.last ≥ piece.first := starts
      simp only [List.nil_append, placeRange, inside, and_self, ↓reduceIte]
      by_cases sameFirst : current.first = piece.first
      · have notBefore : ¬ current.first < piece.first := by omega
        by_cases sameLast : current.last = piece.last
        · have notAfter : ¬ piece.last < current.last := by omega
          have whole : ({ current with owner := piece.owner } : AsRange) = piece :=
            Piece.ext sameFirst sameLast rfl
          rw [if_pos ⟨sameFirst, sameLast⟩, whole]
          simp only [overlaid, notBefore, notAfter, ↓reduceIte, List.nil_append,
            List.singleton_append]
        · have after : piece.last < current.last := by omega
          have next : addPaddr piece.last 1 = piece.last + 1 := addPaddr_of_lt (by omega)
          simp only [sameFirst, sameLast, and_false, ↓reduceIte, overlaid, lt_irrefl, after,
            List.nil_append, List.cons_append, next]
      · have before : current.first < piece.first := by omega
        have previous : subPaddr piece.first 1 = piece.first - 1 :=
          subPaddr_of_le (by omega) (by omega)
        by_cases sameLast : current.last = piece.last
        · have notAfter : ¬ piece.last < current.last := by omega
          simp only [sameFirst, false_and, ↓reduceIte, sameLast, ne_eq, not_true_eq_false, overlaid,
            before, lt_irrefl, List.cons_append, List.nil_append, previous]
        · have after : piece.last < current.last := by omega
          have next : addPaddr piece.last 1 = piece.last + 1 := addPaddr_of_lt (by omega)
          simp only [sameFirst, false_and, ↓reduceIte, sameLast, ne_eq, not_false_eq_true, overlaid,
            before, after, List.cons_append, List.nil_append, next, previous]
  | cons range rest ih =>
      have outside : ¬ (range.first ≤ piece.first ∧ range.last ≥ piece.first) :=
        unpainted range List.mem_cons_self
      simp only [List.cons_append, placeRange, outside, ↓reduceIte]
      rw [ih fun other member => unpainted other (List.mem_cons_of_mem _ member)]

/-- Placing the piece of the next entry paints it. -/
theorem painted_placeRange {window : Set Nat} {family : Nat → Set Nat} {seen : Set Nat}
    {ranges : List AsRange} {piece : AsRange} (painted : Painted window family seen ranges)
    (following : Painted.Next window family seen piece)
    (bounded : ∀ address ∈ window, address < 2 ^ 64) :
    Painted window family (insert piece.owner seen) (placeRange piece ranges) := by
  cases found : ranges.find? fun range => decide (piece.first ∈ range.toSet) with
  | none =>
      have unpainted : ∀ range ∈ ranges, piece.first ∉ range.toSet := by
        intro range member
        simpa using List.find?_eq_none.mp found range member
      rw [placeRange_of_unpainted unpainted]
      exact painted.append following unpainted
  | some current =>
      obtain ⟨starts, front, back, rfl, missed⟩ := List.find?_eq_some_iff_append.mp found
      have starts : piece.first ∈ current.toSet := by simpa using starts
      have member : current ∈ front ++ current :: back := by simp
      have unpainted : ∀ range ∈ front, piece.first ∉ range.toSet := by
        intro range inFront
        simpa using missed range inFront
      have last : current.last ∈ current.toSet := ⟨painted.nonempty current member, le_rfl⟩
      rw [placeRange_of_painted unpainted starts
        (painted.subset_of_first_mem following member starts)
        (bounded _ (painted.subset_window member last))]
      exact painted.split following starts

/-- Placing the pieces of hits in table order paints them. -/
theorem painted_foldl (ownersFirst : OwnersFirst table) (proper : ProperRanges table)
    (laminar : Laminar table container) (order : start ≤ stop) (fits : stop < 2 ^ 64)
    {hits : List Nat} {seen : Set Nat} {ranges : List AsRange}
    (painted : Painted (Set.Icc start stop) (rangeAt table) seen ranges)
    (ascending : hits.Pairwise (· < ·))
    (isHit : ∀ off ∈ hits, hit table start stop container off = true)
    (before : ∀ earlier ∈ seen, Named table container earlier ∧ ∀ off ∈ hits, earlier < off) :
    Painted (Set.Icc start stop) (rangeAt table) (seen ∪ {off | off ∈ hits})
      (hits.foldl (fun ranges off => placeRange (pieceAt table start stop off) ranges) ranges) := by
  induction hits generalizing seen ranges with
  | nil => simpa using painted
  | cons off rest ih =>
      obtain ⟨named, entry, entryAt, meets⟩ := (hit_iff ownersFirst).mp (isHit off (by simp))
      obtain ⟨behind, ascending⟩ := List.pairwise_cons.mp ascending
      have properEntry := proper entry (List.mem_of_getElem? entryAt)
      have range : rangeAt table off = Set.Icc entry.start entry.stop := by
        simp only [rangeAt, entryAt, AsinfoEntry.range]
      have piece : pieceAt table start stop off = entry.clip start stop off := by
        simp only [pieceAt, entryAt]
      have following : Painted.Next (Set.Icc start stop) (rangeAt table) seen
          (pieceAt table start stop off) := by
        rw [piece]
        refine ⟨(AsinfoEntry.meets_iff properEntry.1 order).mp meets, ?_, ?_, ?_⟩
        · exact fun earlier inSeen => (before earlier inSeen).2 off (by simp)
        · simp only [AsinfoEntry.clip, Piece.toSet, range, Set.Icc_inter_Icc]
        · exact fun earlier inSeen => laminar earlier off ((before earlier inSeen).2 off (by simp))
            (before earlier inSeen).1 named
      have owner : (pieceAt table start stop off).owner = off := by
        rw [piece]
        rfl
      have next := painted_placeRange painted following fun address inside =>
        lt_of_le_of_lt inside.2 fits
      rw [owner] at next
      have onward := ih next ascending (fun later member => isHit later (by simp [member])) (by
        intro earlier inSeen
        rcases inSeen with rfl | old
        · exact ⟨named, behind⟩
        · exact ⟨(before earlier old).1,
            fun later member => (before earlier old).2 later (by simp [member])⟩)
      have same : insert off seen ∪ {later | later ∈ rest} =
          seen ∪ {later | later ∈ off :: rest} := by
        ext later
        simp only [Set.mem_union, Set.mem_insert_iff, Set.mem_ofPred_eq, List.mem_cons]
        tauto
      rw [same] at onward
      exact onward

/-- **The ranges `as_add_containing` collects** paint the matching entries. -/
theorem collectRanges_painted (ownersFirst : OwnersFirst table) (proper : ProperRanges table)
    (laminar : Laminar table container) (order : start ≤ stop) (fits : stop < 2 ^ 64) :
    ∃ ranges, collectRanges table start stop container (table.length + 1) none [] = .ok ranges ∧
      Painted (Set.Icc start stop) (rangeAt table)
        {off | hit table start stop container off = true} ranges := by
  refine ⟨_, collectRanges_eq hitsFrom_length_lt, ?_⟩
  have ascending : (hitsFrom table start stop container 0).Pairwise (· < ·) :=
    List.Pairwise.filter _ List.pairwise_lt_range'
  have painted := painted_foldl ownersFirst proper laminar order fits
    (Painted.empty : Painted (Set.Icc start stop) (rangeAt table) ∅ []) ascending
    (fun off member => (List.mem_filter.mp member).2) (fun _ member => member.elim)
  have hits : (∅ : Set Nat) ∪ {off | off ∈ hitsFrom table start stop container 0} =
      {off | hit table start stop container off = true} := by
    ext off
    simp only [Set.empty_union, Set.mem_ofPred_eq, hitsFrom, List.mem_filter, List.mem_range'_1]
    constructor
    · exact fun member => member.2
    · intro isHit
      have named := ((hit_iff ownersFirst).mp isHit).1.lt_length
      exact ⟨⟨Nat.zero_le _, by omega⟩, isHit⟩
  rwa [hits] at painted

/-! ## The entries added -/

/-- The entry added for a range. -/
def rangeEntry (attr : AsAttr) (name : String) (range : AsRange) : AsinfoEntry :=
  ⟨range.first, range.last, some range.owner, name, attr.stored⟩

/-- The entries added for a list of ranges: all but the last are continued. -/
def addedEntries (attr : AsAttr) (name : String) : List AsRange → List AsinfoEntry
  | [] => []
  | [last] => [rangeEntry { attr with continued := false } name last]
  | range :: next :: rest =>
      rangeEntry { attr with continued := true } name range ::
        addedEntries attr name (next :: rest)

/-- `as->attr &= ~AS_ATTR_CONTINUED`. -/
def AsinfoEntry.finish (entry : AsinfoEntry) : AsinfoEntry :=
  { entry with attr.continued := false }

theorem addedEntries_eq (attr : AsAttr) (name : String) (ranges : List AsRange) :
    addedEntries attr name ranges =
      (ranges.map (rangeEntry { attr with continued := true } name)).modify (ranges.length - 1)
        AsinfoEntry.finish := by
  induction ranges with
  | nil => rfl
  | cons range rest ih =>
      cases rest with
      | nil => rfl
      | cons next rest =>
          simp only [addedEntries, ih, List.map_cons, List.length_cons, Nat.add_sub_cancel,
            List.modify_succ_cons]

/-- The second loop of `as_add_containing` appends an entry for every range. -/
theorem addRanges_eq {attr : AsAttr} (plain : attr.overlayIo = false) (name : String)
    {ranges : List AsRange} (nonempty : ∀ range ∈ ranges, range.first ≤ range.last)
    (off : Nat) (startOff : Option Nat) :
    ∃ added, addRanges attr name ranges table off startOff =
        (added, if ranges = [] then off else table.length + (ranges.length - 1),
          startOff.or (if ranges = [] then none else some table.length)) ∧
      SameButKids added (table ++ ranges.map (rangeEntry attr name)) := by
  induction ranges generalizing table off startOff with
  | nil => exact ⟨table, by simp [addRanges], by simp [SameButKids]⟩
  | cons range rest ih =>
      have proper := nonempty range List.mem_cons_self
      obtain ⟨added, run, same⟩ := @ih
        (asAppend table range.first range.last attr name (some range.owner))
        (fun later member => nonempty later (List.mem_cons_of_mem _ member)) table.length
        (startOff.or (some table.length))
      refine ⟨added, ?_, ?_⟩
      · simp only [addRanges, proper, ↓reduceIte, asAdd_of_not_overlay plain, run, length_asAppend,
          List.length_cons, Nat.add_sub_cancel, reduceCtorEq]
        cases rest with
        | nil => cases startOff <;> rfl
        | cons next rest =>
            have count : table.length + 1 + ((next :: rest).length - 1) =
                table.length + (next :: rest).length := by
              simp only [List.length_cons]
              omega
            rw [count]
            cases startOff <;> rfl
      · unfold SameButKids at same ⊢
        rw [same, List.map_append, map_forgetKids_asAppend]
        simp [rangeEntry]

theorem modify_append_right {α : Type} (front back : List α) (off : Nat) (change : α → α) :
    (front ++ back).modify (front.length + off) change = front ++ back.modify off change := by
  induction front with
  | nil => simp
  | cons head tail ih => simp [Nat.succ_add, ih]

/-- Clearing the flag of the last range appended leaves the added entries. -/
theorem sameButKids_finish {attr : AsAttr} {name : String} {ranges : List AsRange}
    {painted : List AsinfoEntry}
    (same : SameButKids painted
      (table ++ ranges.map (rangeEntry { attr with continued := true } name))) :
    SameButKids (painted.modify (table.length + (ranges.length - 1)) AsinfoEntry.finish)
      (table ++ addedEntries attr name ranges) := by
  have finish : ∀ entry : AsinfoEntry, entry.finish.forgetKids = entry.forgetKids.finish :=
    fun _ => rfl
  unfold SameButKids at same ⊢
  rw [map_forgetKids_modify finish, same, ← map_forgetKids_modify finish, addedEntries_eq,
    modify_append_right]

/-! ## The entries partition the range -/

/-- The entries added for a range and a container partition what the container's entries
have of the range. -/
structure Partition (table : List AsinfoEntry) (start stop : Nat) (attr : AsAttr)
    (name container : String) (added : List AsinfoEntry) : Prop where
  nonempty : ∀ entry ∈ added, entry.start ≤ entry.stop
  apart : added.Pairwise fun left right => Disjoint left.range right.range
  covered : ∀ address, (∃ entry ∈ added, address ∈ entry.range) ↔
    address ∈ Set.Icc start stop ∧ address ∈ contained table container
  owned : ∀ entry ∈ added, ∃ owner, entry.owner = some owner ∧ Named table container owner ∧
    entry.range ⊆ rangeAt table owner ∧
      ∀ off, Named table container off → entry.range ⊆ rangeAt table off → off ≤ owner
  aligned : ∀ entry ∈ added, ∀ off, Named table container off →
    entry.range ⊆ rangeAt table off ∨ Disjoint entry.range (rangeAt table off)
  labelled : ∀ entry ∈ added, entry.name = name ∧
    entry.attr = { attr.stored with continued := entry.attr.continued }
  continued : ∀ slot entry, added[slot]? = some entry →
    (entry.attr.continued = true ↔ slot + 1 < added.length)

theorem Partition.owner_lt {start stop : Nat} {attr : AsAttr} {name container : String}
    {added : List AsinfoEntry}
    (partition : Partition table start stop attr name container added) :
    ∀ entry ∈ added, ∀ owner, entry.owner = some owner → owner < table.length := by
  intro entry member owner isOwner
  obtain ⟨found, isFound, named, _⟩ := partition.owned entry member
  rw [isFound] at isOwner
  rw [← Option.some.inj isOwner]
  exact named.lt_length

/-- An added entry is the entry of its range, continued or not. -/
theorem eq_rangeEntry_of_mem {attr : AsAttr} {name : String} {ranges : List AsRange}
    {entry : AsinfoEntry} (member : entry ∈ addedEntries attr name ranges) :
    ∃ range ∈ ranges, ∃ continued,
      entry = rangeEntry { attr with continued := continued } name range := by
  induction ranges with
  | nil => cases member
  | cons range rest ih =>
      cases rest with
      | nil =>
          rw [addedEntries, List.mem_singleton] at member
          exact ⟨range, by simp, false, member⟩
      | cons next rest =>
          rw [addedEntries, List.mem_cons] at member
          rcases member with isFirst | later
          · exact ⟨range, by simp, true, isFirst⟩
          · obtain ⟨found, inRest, same⟩ := ih later
            exact ⟨found, List.mem_cons_of_mem _ inRest, same⟩

/-- The ranges of the added entries are the ranges they were added for. -/
theorem map_range_addedEntries (attr : AsAttr) (name : String) (ranges : List AsRange) :
    (addedEntries attr name ranges).map AsinfoEntry.range = ranges.map Piece.toSet := by
  induction ranges with
  | nil => rfl
  | cons range rest ih =>
      cases rest with
      | nil => rfl
      | cons next rest =>
          rw [addedEntries, List.map_cons, ih]
          rfl

@[simp] theorem length_addedEntries (attr : AsAttr) (name : String) (ranges : List AsRange) :
    (addedEntries attr name ranges).length = ranges.length := by
  rw [addedEntries_eq, List.length_modify, List.length_map]

/-- All added entries but the last are continued. -/
theorem continued_addedEntries {attr : AsAttr} {name : String} {ranges : List AsRange}
    {slot : Nat} {entry : AsinfoEntry}
    (at_slot : (addedEntries attr name ranges)[slot]? = some entry) :
    entry.attr.continued = true ↔ slot + 1 < (addedEntries attr name ranges).length := by
  rw [addedEntries_eq, List.getElem?_modify, List.getElem?_map] at at_slot
  rw [length_addedEntries]
  cases found : ranges[slot]? with
  | none =>
      rw [found] at at_slot
      cases at_slot
  | some range =>
      have inside : slot < ranges.length := (List.getElem?_eq_some_iff.mp found).1
      rw [found] at at_slot
      have isEntry := Option.some.inj at_slot
      by_cases isLast : ranges.length - 1 = slot
      · have notBefore : ¬ slot + 1 < ranges.length := by omega
        simp only [isLast, ↓reduceIte] at isEntry
        rw [← isEntry]
        simp only [AsinfoEntry.finish, Bool.false_eq_true, notBefore]
      · have before : slot + 1 < ranges.length := by omega
        simp only [isLast, ↓reduceIte] at isEntry
        rw [← isEntry]
        simp only [rangeEntry, AsAttr.stored, before]

/-- An entry with the name that shares an address with the range is a hit. -/
theorem hit_of_mem (ownersFirst : OwnersFirst table) (proper : ProperRanges table)
    {off address : Nat} (named : Named table container off) (inside : address ∈ rangeAt table off)
    (inWindow : address ∈ Set.Icc start stop) : hit table start stop container off = true := by
  have below := named.lt_length
  have found : table[off]? = some table[off] := List.getElem?_eq_getElem below
  have properEntry := proper table[off] (List.getElem_mem below)
  simp only [rangeAt, found, AsinfoEntry.range] at inside
  refine (hit_iff ownersFirst).mpr ⟨named, _, found, ?_⟩
  rw [AsinfoEntry.meets_iff properEntry.1 (inWindow.1.trans inWindow.2)]
  exact (max_le inWindow.1 inside.1).trans (le_min inWindow.2 inside.2)

/-- Ranges painted with the hits give a partition. -/
theorem partition_of_painted (ownersFirst : OwnersFirst table) (proper : ProperRanges table)
    (attr : AsAttr) (name : String) {ranges : List AsRange}
    (painted : Painted (Set.Icc start stop) (rangeAt table)
      {off | hit table start stop container off = true} ranges) :
    Partition table start stop attr name container (addedEntries attr name ranges) := by
  refine ⟨?_, ?_, ?_, ?_, ?_, ?_, fun slot entry => continued_addedEntries⟩
  · intro entry member
    obtain ⟨range, inRanges, continued, rfl⟩ := eq_rangeEntry_of_mem member
    exact painted.nonempty range inRanges
  · have apart : (ranges.map Piece.toSet).Pairwise Disjoint :=
      List.pairwise_map.mpr (painted.apart.imp Apart.disjoint)
    rw [← map_range_addedEntries attr name] at apart
    exact List.pairwise_map.mp apart
  · intro address
    have pieces : (∃ entry ∈ addedEntries attr name ranges, address ∈ entry.range) ↔
        ∃ range ∈ ranges, address ∈ range.toSet := by
      have mapped : (∃ addresses ∈ (addedEntries attr name ranges).map AsinfoEntry.range,
          address ∈ addresses) ↔ ∃ addresses ∈ ranges.map Piece.toSet, address ∈ addresses := by
        rw [map_range_addedEntries]
      simpa only [List.mem_map, exists_exists_and_eq_and] using mapped
    rw [pieces, painted.covered]
    refine and_congr_right fun inWindow => ?_
    constructor
    · rintro ⟨off, isHit, inside⟩
      exact ⟨off, ((hit_iff ownersFirst).mp isHit).1, inside⟩
    · rintro ⟨off, named, inside⟩
      exact ⟨off, hit_of_mem ownersFirst proper named inside inWindow, inside⟩
  · intro entry member
    obtain ⟨range, inRanges, continued, rfl⟩ := eq_rangeEntry_of_mem member
    obtain ⟨isHit, within⟩ := painted.owned range inRanges
    refine ⟨range.owner, rfl, ((hit_iff ownersFirst).mp isHit).1, within, ?_⟩
    intro off named inOff
    have first := painted.first_mem inRanges
    exact painted.latest range inRanges off
      (hit_of_mem ownersFirst proper named (inOff first) (painted.subset_window inRanges first))
      inOff
  · intro entry member off named
    obtain ⟨range, inRanges, continued, rfl⟩ := eq_rangeEntry_of_mem member
    by_cases isHit : hit table start stop container off = true
    · exact painted.aligned range inRanges off isHit
    · refine Or.inr (Set.disjoint_left.mpr fun address inRange inOff => isHit ?_)
      exact hit_of_mem ownersFirst proper named inOff (painted.subset_window inRanges inRange)
  · intro entry member
    obtain ⟨range, inRanges, continued, rfl⟩ := eq_rangeEntry_of_mem member
    exact ⟨rfl, rfl⟩

/-- Changing kids flags keeps a table laminar. -/
theorem SameButKids.laminar {left right : List AsinfoEntry} (same : SameButKids left right)
    (laminar : Laminar left container) : Laminar right container := by
  intro earlier later order namedEarlier namedLater
  rw [← same.rangeAt_eq, ← same.rangeAt_eq]
  exact laminar earlier later order (same.named_iff.mpr namedEarlier)
    (same.named_iff.mpr namedLater)

/-- Pairwise disjoint entries that are aligned with a laminar table keep it laminar. -/
theorem Laminar.append {added : List AsinfoEntry} (laminar : Laminar table container)
    (ownersFirst : OwnersFirst table)
    (apart : added.Pairwise fun left right => Disjoint left.range right.range)
    (aligned : ∀ entry ∈ added, ∀ off, Named table container off →
      entry.range ⊆ rangeAt table off ∨ Disjoint entry.range (rangeAt table off)) :
    Laminar (table ++ added) container := by
  intro earlier later order namedEarlier namedLater
  by_cases oldLater : later < table.length
  · have oldEarlier : earlier < table.length := order.trans oldLater
    rw [rangeAt_append_of_lt oldEarlier, rangeAt_append_of_lt oldLater]
    exact laminar earlier later order ((named_append_of_lt ownersFirst oldEarlier).mp namedEarlier)
      ((named_append_of_lt ownersFirst oldLater).mp namedLater)
  · obtain ⟨slot, rfl⟩ := Nat.exists_eq_add_of_le (Nat.le_of_not_lt oldLater)
    have inside : slot < added.length := by
      have below := namedLater.lt_length
      rw [List.length_append] at below
      omega
    have at_slot : added[slot]? = some added[slot] := List.getElem?_eq_getElem inside
    rw [rangeAt_append_of_mem at_slot]
    by_cases oldEarlier : earlier < table.length
    · rw [rangeAt_append_of_lt oldEarlier]
      exact aligned added[slot] (List.getElem_mem inside) earlier
        ((named_append_of_lt ownersFirst oldEarlier).mp namedEarlier)
    · obtain ⟨before, rfl⟩ := Nat.exists_eq_add_of_le (Nat.le_of_not_lt oldEarlier)
      have isBefore : before < slot := by omega
      have at_before : added[before]? = some added[before] :=
        List.getElem?_eq_getElem (isBefore.trans inside)
      rw [rangeAt_append_of_mem at_before]
      exact Or.inr (List.pairwise_iff_getElem.mp apart before slot _ inside isBefore).symm

namespace Partition

variable {attr : AsAttr} {name : String} {added : List AsinfoEntry}

/-- A partition of a range extends the table by well-formed entries. -/
theorem wellFormed (partition : Partition table start stop attr name container added)
    (ownersFirst : OwnersFirst table) (proper : ProperRanges table)
    (laminar : Laminar table container) (fits : stop < 2 ^ 64) :
    OwnersFirst (table ++ added) ∧ ProperRanges (table ++ added) ∧
      Laminar (table ++ added) container := by
  refine ⟨ownersFirst.append ?_, proper.append ?_,
    laminar.append ownersFirst partition.apart partition.aligned⟩
  · intro entry member owner isOwner
    obtain ⟨found, isFound, named, _⟩ := partition.owned entry member
    rw [isFound] at isOwner
    rw [← Option.some.inj isOwner]
    exact named.lt_length
  · intro entry member
    have order := partition.nonempty entry member
    have last : entry.stop ∈ entry.range := ⟨order, le_rfl⟩
    have inWindow := ((partition.covered entry.stop).mp ⟨entry, member, last⟩).1
    exact ⟨order, lt_of_le_of_lt inWindow.2 fits⟩

end Partition

/-- A call of `as_add_containing` without an overlay appends a partition of the range. -/
theorem asAddContaining_eq (ownersFirst : OwnersFirst table) (proper : ProperRanges table)
    (laminar : Laminar table container) (order : start ≤ stop) (fits : stop < 2 ^ 64)
    {attr : AsAttr} (plain : attr.overlayIo = false) (name : String) :
    ∃ result added, asAddContaining table start stop attr name container =
        .ok (result, if added = [] then none else some table.length) ∧
      SameButKids result (table ++ added) ∧
      Partition table start stop attr name container added := by
  obtain ⟨ranges, collected, painted⟩ :=
    collectRanges_painted ownersFirst proper laminar order fits
  have pieceAttr : ({ attr with overlayIo := false, continued := true } : AsAttr) =
      { attr with continued := true } := by
    rw [← plain]
  obtain ⟨appended, run, same⟩ := @addRanges_eq table { attr with continued := true } plain name
    ranges painted.nonempty 0 none
  have isPartition := partition_of_painted ownersFirst proper attr name painted
  cases ranges with
  | nil =>
      refine ⟨appended, [], ?_, ?_, isPartition⟩
      · simp only [asAddContaining, collected, pieceAttr, run, Option.or_none, ↓reduceIte]
      · simpa using same
  | cons range rest =>
      have some_range : range :: rest ≠ [] := List.cons_ne_nil range rest
      have some_entry : addedEntries attr name (range :: rest) ≠ [] := by
        intro empty
        have lengths := congrArg List.length empty
        rw [length_addedEntries, List.length_cons, List.length_nil] at lengths
        omega
      refine ⟨_, addedEntries attr name (range :: rest), ?_, sameButKids_finish same, isPartition⟩
      simp only [asAddContaining, collected, pieceAttr, run, some_range, some_entry, ↓reduceIte,
        Option.none_or, plain, Bool.false_eq_true]
      rfl

/-- Pieces of a range that starts behind its end start behind their ends too. -/
theorem foldl_placeRange_backward (ownersFirst : OwnersFirst table) (empty : stop < start)
    {hits : List Nat} (isHit : ∀ off ∈ hits, hit table start stop container off = true)
    {ranges : List AsRange}
    (backward : ∀ range ∈ ranges, start ≤ range.first ∧ range.last ≤ stop) :
    ∀ range ∈ hits.foldl (fun ranges off => placeRange (pieceAt table start stop off) ranges)
      ranges, range.last < range.first := by
  induction hits generalizing ranges with
  | nil =>
      intro range member
      have bounds := backward range member
      omega
  | cons off rest ih =>
      obtain ⟨_, entry, at_off, _⟩ := (hit_iff ownersFirst).mp (isHit off (by simp))
      have bounds : start ≤ (pieceAt table start stop off).first ∧
          (pieceAt table start stop off).last ≤ stop := by
        simp only [pieceAt, at_off]
        exact ⟨le_max_left _ _, min_le_left _ _⟩
      have placed : placeRange (pieceAt table start stop off) ranges =
          ranges ++ [pieceAt table start stop off] := by
        refine placeRange_of_unpainted fun range member inside => ?_
        have wide := backward range member
        rw [Piece.mem_toSet] at inside
        omega
      rw [List.foldl_cons, placed]
      refine ih (fun later member => isHit later (by simp [member])) ?_
      intro range member
      rcases List.mem_append.mp member with old | new
      · exact backward range old
      · rw [List.mem_singleton.mp new]
        exact bounds

/-- Ranges that start behind their ends are not added. -/
theorem addRanges_of_backward (attr : AsAttr) (name : String) {ranges : List AsRange}
    (backward : ∀ range ∈ ranges, range.last < range.first) (off : Nat) (startOff : Option Nat) :
    addRanges attr name ranges table off startOff = (table, off, startOff) := by
  induction ranges with
  | nil => rfl
  | cons range rest ih =>
      have notAdded : ¬ range.first ≤ range.last := Nat.not_le.mpr (backward range (by simp))
      simp only [addRanges, notAdded, ↓reduceIte]
      exact ih fun later member => backward later (List.mem_cons_of_mem _ member)

/-- A range that starts behind its end adds nothing. -/
theorem asAddContaining_of_backward (ownersFirst : OwnersFirst table) (empty : stop < start)
    {attr : AsAttr} (name : String) :
    asAddContaining table start stop attr name container = .ok (table, none) := by
  have backward := @foldl_placeRange_backward table container start stop ownersFirst empty
    (hitsFrom table start stop container 0) (fun off member => (List.mem_filter.mp member).2) []
    (by simp)
  have collected := @collectRanges_eq table container start stop _ none [] hitsFrom_length_lt
  simp only [asAddContaining, collected, searchFrom, addRanges_of_backward _ _ backward]

/-- A table of proper ranges in which owners come first. -/
structure AsinfoTable where
  entries : List AsinfoEntry
  ownersFirst : OwnersFirst entries
  proper : ProperRanges entries

/-- **`as_add_containing` adds a partition** of what the container's entries have of the
range, and leaves a table that is laminar again. -/
theorem asAddContaining_partitions (table : AsinfoTable) {container : String}
    (laminar : Laminar table.entries container) {start stop : Nat} (order : start ≤ stop)
    (fits : stop < 2 ^ 64) {attr : AsAttr} (plain : attr.overlayIo = false) (name : String) :
    ∃ (result : AsinfoTable) (added : List AsinfoEntry),
      asAddContaining table.entries start stop attr name container =
        .ok (result.entries, if added = [] then none else some table.entries.length) ∧
      SameButKids result.entries (table.entries ++ added) ∧
      Partition table.entries start stop attr name container added ∧
      Laminar result.entries container := by
  obtain ⟨result, added, run, same, isPartition⟩ :=
    asAddContaining_eq table.ownersFirst table.proper laminar order fits plain name
  obtain ⟨ownersFirst, proper, stillLaminar⟩ :=
    isPartition.wellFormed table.ownersFirst table.proper laminar fits
  exact ⟨⟨result, same.symm.ownersFirst ownersFirst, same.symm.properRanges proper⟩, added, run,
    same, isPartition, same.symm.laminar stillLaminar⟩

/-- A root entry over the addresses up to `0x7fffffff`. -/
def memoryTable : AsinfoTable where
  entries := [⟨0, 0x7fffffff, none, "memory", asAttrRam⟩]
  ownersFirst := by
    intro off entry owner at_off owned
    rw [List.getElem?_singleton] at at_off
    split at at_off
    · rw [← Option.some.inj at_off] at owned
      cases owned
    · cases at_off
  proper := by
    intro entry member
    rw [List.mem_singleton.mp member]
    decide

theorem memoryTable_laminar : Laminar memoryTable.entries "memory" := by
  intro earlier later order _ namedLater
  have below : later < 1 := namedLater.lt_length
  omega

theorem asAddContaining_partitions_memory :
    ∃ (result : AsinfoTable) (added : List AsinfoEntry),
      asAddContaining memoryTable.entries 0x1000 0x1fff asAttrRam "ram" "memory" =
        .ok (result.entries, if added = [] then none else some memoryTable.entries.length) ∧
      SameButKids result.entries (memoryTable.entries ++ added) ∧
      Partition memoryTable.entries 0x1000 0x1fff asAttrRam "ram" "memory" added ∧
      Laminar result.entries "memory" :=
  asAddContaining_partitions memoryTable memoryTable_laminar (by decide) (by decide) rfl "ram"

/-- A table with an entry that has no address. -/
def emptyEntryTable : List AsinfoEntry :=
  [⟨0, 100, none, "memory", asAttrRam⟩, ⟨50, 49, some 0, "x", asAttrRam⟩,
    ⟨40, 60, some 0, "y", asAttrRam⟩]

/-- An entry that starts behind its end is empty and so laminar, but its two tail pieces
make later pieces overlap. -/
theorem asAddContaining_overlaps_empty_entry :
    Laminar emptyEntryTable "memory" ∧ OwnersFirst emptyEntryTable ∧
      ∃ result first second, asAddContaining emptyEntryTable 0 100 asAttrRam "ram" "memory" =
          .ok (result, some 3) ∧
        result[4]? = some first ∧ result[5]? = some second ∧
        ¬ Disjoint first.range second.range := by
  refine ⟨?_, ?_, _, _, _, rfl, rfl, rfl, ?_⟩
  · intro earlier later order namedEarlier namedLater
    have below : later < 3 := namedLater.lt_length
    obtain rfl | rfl : later = 1 ∨ later = 2 := by omega
    · exact Or.inr (Set.disjoint_left.mpr fun address inside _ => by
        have bounds : 50 ≤ address ∧ address ≤ 49 := inside
        omega)
    · obtain rfl | rfl : earlier = 0 ∨ earlier = 1 := by omega
      · refine Or.inl fun address inside => ?_
        have bounds : 40 ≤ address ∧ address ≤ 60 := inside
        have wider : 0 ≤ address ∧ address ≤ 100 := by omega
        exact wider
      · exact Or.inr (Set.disjoint_left.mpr fun address _ inside => by
          have bounds : 50 ≤ address ∧ address ≤ 49 := inside
          omega)
  · intro off entry owner at_off owned
    have below := (List.getElem?_eq_some_iff.mp at_off).1
    have isThree : emptyEntryTable.length = 3 := rfl
    rw [isThree] at below
    obtain rfl | rfl | rfl : off = 0 ∨ off = 1 ∨ off = 2 := by omega
    · rw [← Option.some.inj at_off] at owned
      cases owned
    · rw [← Option.some.inj at_off] at owned
      cases owned
      decide
    · rw [← Option.some.inj at_off] at owned
      cases owned
      decide
  · exact Set.not_disjoint_iff.mpr ⟨50, ⟨by decide, by decide⟩, ⟨by decide, by decide⟩⟩

end Bcm2711.Startup
