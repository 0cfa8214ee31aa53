import Bcm2711.Startup.NoDoubleAlloc

/-! # The free RAM the kernel is told about

`add_sysram` copies `ram_list` into `sysram` entries of the address space table, and from
then on `alloc_ram` takes each block out of both.  The entries are inclusive ranges,
clipped against every `ram` entry, and grow in number while `alloc_ram` scans them; they
still cover, once each, exactly the addresses of `ram_list`.
-/

namespace Bcm2711.Startup

open Fallible Runs Spans

/-- The `sysram` entries of a well-formed table are pairwise disjoint and own the name. -/
structure SysramTable (table : List AsinfoEntry) : Prop where
  ownersFirst : OwnersFirst table
  proper : ProperRanges table
  own : ∀ off, Named table "sysram" off →
    ∃ entry, table[off]? = some entry ∧ entry.name = "sysram"
  apart : ∀ first second, first < second → Named table "sysram" first →
    Named table "sysram" second → Disjoint (rangeAt table first) (rangeAt table second)

variable {table : List AsinfoEntry}

theorem rangeAt_eq {off : Nat} {entry : AsinfoEntry} (at_off : table[off]? = some entry) :
    rangeAt table off = entry.range := by
  simp only [rangeAt, at_off]

/-- A store to an entry that keeps its name and owner. -/
theorem map_label_set {off : Nat} {entry value : AsinfoEntry} (at_off : table[off]? = some entry)
    (label : value.label = entry.label) :
    (table.set off value).map AsinfoEntry.label = table.map AsinfoEntry.label := by
  refine List.ext_getElem? fun slot => ?_
  rw [List.getElem?_map, List.getElem?_map, List.getElem?_set]
  by_cases here : off = slot
  · subst here
    have below : off < table.length := (List.getElem?_eq_some_iff.mp at_off).1
    simp only [↓reduceIte, below, Option.map_some, label, at_off]
  · simp only [here, ↓reduceIte]

theorem rangeAt_set_self {off : Nat} {value : AsinfoEntry} (below : off < table.length) :
    rangeAt (table.set off value) off = value.range := by
  simp only [rangeAt, List.getElem?_set_self below]

theorem rangeAt_set_ne {off other : Nat} {value : AsinfoEntry} (different : off ≠ other) :
    rangeAt (table.set off value) other = rangeAt table other := by
  simp only [rangeAt, List.getElem?_set_ne different]

namespace SysramTable

/-- Changing kids flags keeps the `sysram` entries. -/
theorem of_sameButKids {left right : List AsinfoEntry} (valid : SysramTable left)
    (same : SameButKids left right) : SysramTable right where
  ownersFirst := same.ownersFirst valid.ownersFirst
  proper := same.properRanges valid.proper
  own := by
    intro off named
    obtain ⟨entry, at_off, isName⟩ := valid.own off (same.named_iff.mpr named)
    obtain ⟨other, isOther, forgotten⟩ := same.entry at_off
    obtain ⟨_, _, _, sameName⟩ := AsinfoEntry.fields_eq forgotten
    exact ⟨other, isOther, sameName.trans isName⟩
  apart := by
    intro first second order namedFirst namedSecond
    rw [← same.rangeAt_eq, ← same.rangeAt_eq]
    exact valid.apart first second order (same.named_iff.mpr namedFirst)
      (same.named_iff.mpr namedSecond)

/-- Shrinking a `sysram` entry. -/
theorem set {off : Nat} {entry value : AsinfoEntry} (valid : SysramTable table)
    (at_off : table[off]? = some entry) (isName : entry.name = "sysram")
    (label : value.label = entry.label) (proper : value.start ≤ value.stop)
    (smaller : value.range ⊆ entry.range) :
    SysramTable (table.set off value) ∧ contained (table.set off value) "sysram" =
      contained table "sysram" \ entry.range ∪ value.range := by
  have below : off < table.length := (List.getElem?_eq_some_iff.mp at_off).1
  have labels := map_label_set at_off label
  have named_iff : ∀ other, Named (table.set off value) "sysram" other ↔
      Named table "sysram" other :=
    fun other => ⟨fun named => named.of_labels labels, fun named => named.of_labels labels.symm⟩
  have within : ∀ other, rangeAt (table.set off value) other ⊆ rangeAt table other := by
    intro other
    by_cases here : off = other
    · subst here
      rw [rangeAt_set_self below, rangeAt_eq at_off]
      exact smaller
    · rw [rangeAt_set_ne here]
  have member := List.mem_of_getElem? at_off
  have fits : value.stop < 2 ^ 64 := by
    have last : value.stop ∈ entry.range := smaller ⟨proper, le_rfl⟩
    exact last.2.trans_lt (valid.proper entry member).2
  refine ⟨⟨?_, ?_, ?_, ?_⟩, ?_⟩
  · intro other found owner at_other isOwner
    by_cases here : off = other
    · subst here
      rw [List.getElem?_set_self below] at at_other
      have sameOwner : value.owner = entry.owner := congrArg Prod.fst label
      rw [← Option.some.inj at_other, sameOwner] at isOwner
      exact valid.ownersFirst off entry owner at_off isOwner
    · rw [List.getElem?_set_ne here] at at_other
      exact valid.ownersFirst other found owner at_other isOwner
  · intro found inSet
    rcases List.mem_or_eq_of_mem_set inSet with old | rfl
    · exact valid.proper found old
    · exact ⟨proper, fits⟩
  · intro other named
    by_cases here : off = other
    · subst here
      have sameName : value.name = entry.name := congrArg Prod.snd label
      exact ⟨value, List.getElem?_set_self below, sameName.trans isName⟩
    · rw [List.getElem?_set_ne here]
      exact valid.own other ((named_iff other).mp named)
  · intro first second order namedFirst namedSecond
    exact (valid.apart first second order ((named_iff first).mp namedFirst)
      ((named_iff second).mp namedSecond)).mono (within first) (within second)
  · have named : Named table "sysram" off := .own at_off isName
    ext address
    constructor
    · rintro ⟨other, namedOther, inside⟩
      by_cases here : off = other
      · subst here
        rw [rangeAt_set_self below] at inside
        exact Or.inr inside
      · have namedOld := (named_iff other).mp namedOther
        rw [rangeAt_set_ne here] at inside
        refine Or.inl ⟨⟨other, namedOld, inside⟩, fun inEntry => ?_⟩
        rw [← rangeAt_eq at_off] at inEntry
        rcases Nat.lt_or_gt_of_ne here with before | after
        · exact Set.disjoint_left.mp (valid.apart off other before named namedOld) inEntry inside
        · exact Set.disjoint_left.mp (valid.apart other off after namedOld named) inside inEntry
    · rintro (⟨⟨other, namedOther, inside⟩, outside⟩ | inside)
      · have different : off ≠ other := by
          rintro rfl
          exact outside (rangeAt_eq at_off ▸ inside)
        exact ⟨other, (named_iff other).mpr namedOther, (rangeAt_set_ne different).symm ▸ inside⟩
      · exact ⟨off, (named_iff off).mpr named, (rangeAt_set_self below).symm ▸ inside⟩

/-- Appending `sysram` entries that are disjoint from each other and from the old ones. -/
theorem append {added : List AsinfoEntry} (valid : SysramTable table)
    (before : ∀ entry ∈ added, ∀ owner, entry.owner = some owner → owner < table.length)
    (isName : ∀ entry ∈ added, entry.name = "sysram")
    (proper : ∀ entry ∈ added, entry.start ≤ entry.stop ∧ entry.stop < 2 ^ 64)
    (apart : added.Pairwise fun left right => Disjoint left.range right.range)
    (clear : ∀ entry ∈ added, Disjoint (contained table "sysram") entry.range) :
    SysramTable (table ++ added) ∧ contained (table ++ added) "sysram" =
      contained table "sysram" ∪ {address | ∃ entry ∈ added, address ∈ entry.range} := by
  refine ⟨⟨valid.ownersFirst.append before, valid.proper.append proper, ?_, ?_⟩, ?_⟩
  · intro off named
    by_cases old : off < table.length
    · rw [List.getElem?_append_left old]
      exact valid.own off ((named_append_of_lt valid.ownersFirst old).mp named)
    · obtain ⟨slot, rfl⟩ := Nat.exists_eq_add_of_le (Nat.le_of_not_lt old)
      have inside : slot < added.length := by
        have := named.lt_length
        rw [List.length_append] at this
        omega
      rw [List.getElem?_append_right (Nat.le_add_right _ _), Nat.add_sub_cancel_left]
      exact ⟨added[slot], List.getElem?_eq_getElem inside, isName _ (List.getElem_mem inside)⟩
  · intro first second order namedFirst namedSecond
    by_cases oldSecond : second < table.length
    · have oldFirst : first < table.length := order.trans oldSecond
      rw [rangeAt_append_of_lt oldFirst, rangeAt_append_of_lt oldSecond]
      exact valid.apart first second order
        ((named_append_of_lt valid.ownersFirst oldFirst).mp namedFirst)
        ((named_append_of_lt valid.ownersFirst oldSecond).mp namedSecond)
    · obtain ⟨slot, rfl⟩ := Nat.exists_eq_add_of_le (Nat.le_of_not_lt oldSecond)
      have inside : slot < added.length := by
        have := namedSecond.lt_length
        rw [List.length_append] at this
        omega
      have at_slot : added[slot]? = some added[slot] := List.getElem?_eq_getElem inside
      rw [rangeAt_append_of_mem at_slot]
      by_cases oldFirst : first < table.length
      · rw [rangeAt_append_of_lt oldFirst]
        have namedOld := (named_append_of_lt valid.ownersFirst oldFirst).mp namedFirst
        have covered : rangeAt table first ⊆ contained table "sysram" :=
          fun address member => ⟨first, namedOld, member⟩
        exact (clear _ (List.getElem_mem inside)).mono_left covered
      · obtain ⟨earlier, rfl⟩ := Nat.exists_eq_add_of_le (Nat.le_of_not_lt oldFirst)
        have isBefore : earlier < slot := by omega
        have at_earlier : added[earlier]? = some added[earlier] :=
          List.getElem?_eq_getElem (isBefore.trans inside)
        rw [rangeAt_append_of_mem at_earlier]
        exact List.pairwise_iff_getElem.mp apart earlier slot _ inside isBefore
  · ext address
    rw [mem_contained_append valid.ownersFirst before]
    refine or_congr_right ?_
    constructor
    · rintro ⟨entry, member, _, inside⟩
      exact ⟨entry, member, inside⟩
    · rintro ⟨entry, member, inside⟩
      exact ⟨entry, member, Or.inl (isName entry member), inside⟩

end SysramTable

/-! ## Taking a block out of the entries -/

/-- `crash("Can't remove whole sysram entry.\n")`. -/
def wholeSysramEntry : Halt := .crash "Can't remove whole sysram entry.\n"

/-- The steps the loop of `alloc_ram` can take from a place on: two for an entry it can
split, whose second half it meets again. -/
def stepsLeft (table : List AsinfoEntry) (addr first : Nat) : Nat :=
  (((table.map AsinfoEntry.start).drop first).map fun start => if start < addr then 2 else 1).sum

theorem stepsLeft_le (table : List AsinfoEntry) (addr first : Nat) :
    stepsLeft table addr first ≤ 2 * table.length := by
  have bound : stepsLeft table addr first ≤
      (((table.map AsinfoEntry.start).drop first).map fun _ => 2).sum := by
    refine List.sum_le_sum fun start _ => ?_
    split <;> omega
  rw [List.map_const', List.sum_replicate_nat, List.length_drop, List.length_map] at bound
  omega

theorem stepsLeft_anti (table : List AsinfoEntry) (addr : Nat) {first later : Nat}
    (order : first ≤ later) : stepsLeft table addr later ≤ stepsLeft table addr first := by
  obtain ⟨gap, rfl⟩ := Nat.exists_eq_add_of_le order
  unfold stepsLeft
  rw [← List.drop_drop]
  exact ((List.drop_sublist gap _).map _).sum_le_sum fun _ _ => Nat.zero_le _

theorem stepsLeft_at {addr off : Nat} {entry : AsinfoEntry} (at_off : table[off]? = some entry) :
    stepsLeft table addr off =
      (if entry.start < addr then 2 else 1) + stepsLeft table addr (off + 1) := by
  obtain ⟨below, isEntry⟩ := List.getElem?_eq_some_iff.mp at_off
  have inMap : off < (table.map AsinfoEntry.start).length := by rwa [List.length_map]
  unfold stepsLeft
  rw [List.drop_eq_getElem_cons inMap, List.map_cons, List.sum_cons, List.getElem_map, isEntry]

theorem SameButKids.stepsLeft_eq {left right : List AsinfoEntry} (same : SameButKids left right)
    (addr first : Nat) : stepsLeft left addr first = stepsLeft right addr first := by
  have starts := congrArg (List.map AsinfoEntry.start) same
  rw [List.map_map, List.map_map] at starts
  have starts : left.map AsinfoEntry.start = right.map AsinfoEntry.start := starts
  rw [stepsLeft, stepsLeft, starts]

theorem stepsLeft_set {addr off : Nat} {value : AsinfoEntry} (added : List AsinfoEntry)
    (below : off < table.length) :
    stepsLeft (table.set off value ++ added) addr (off + 1) =
      stepsLeft table addr (off + 1) + stepsLeft added addr 0 := by
  unfold stepsLeft
  have behind : off + 1 ≤ ((table.set off value).map AsinfoEntry.start).length := by
    rw [List.length_map, List.length_set]
    exact below
  rw [List.map_append, List.drop_append_of_le_length behind, List.map_set,
    List.drop_set_of_lt (Nat.lt_succ_self off), List.map_append, List.sum_append, List.drop_zero]

/-- What an entry keeps of its range when a block is taken out: its first part, and an
entry appended for the second part. -/
structure Trimmed (table : List AsinfoEntry) (off : Nat) (entry : AsinfoEntry) (addr size : Nat)
    (next : List AsinfoEntry) : Prop where
  valid : SysramTable next
  covers : contained next "sysram" =
    contained table "sysram" \ entry.range ∪ entry.range \ Set.Ico addr (addr + size)
  here : Disjoint (rangeAt next off) (Set.Ico addr (addr + size))
  elsewhere : ∀ other < off, (Named next "sysram" other → Named table "sysram" other) ∧
    rangeAt next other = rangeAt table other
  fewer : stepsLeft next addr (off + 1) < stepsLeft table addr off

/-- Taking a block out of an entry that the loop meets, unless it is the whole entry. -/
theorem trimmed_of_meets {addr size off : Nat} {entry value : AsinfoEntry}
    {pieces next : List AsinfoEntry} (valid : SysramTable table)
    (at_off : table[off]? = some entry) (isName : entry.name = "sysram")
    (label : value.label = entry.label) (proper : value.start ≤ value.stop)
    (smaller : value.range ⊆ entry.range)
    (isPiece : ∀ piece ∈ pieces, piece.name = "sysram" ∧ piece.owner = entry.owner ∧
      piece.start ≤ piece.stop ∧ piece.range ⊆ entry.range ∧ Disjoint value.range piece.range)
    (single : pieces.length ≤ 1)
    (parts : value.range ∪ {address | ∃ piece ∈ pieces, address ∈ piece.range} =
      entry.range \ Set.Ico addr (addr + size))
    (same : SameButKids next (table.set off value ++ pieces))
    (fewer : stepsLeft pieces addr 0 < if entry.start < addr then 2 else 1) :
    Trimmed table off entry addr size next := by
  have below : off < table.length := (List.getElem?_eq_some_iff.mp at_off).1
  have named : Named table "sysram" off := .own at_off isName
  have inside : entry.range ⊆ contained table "sysram" := by
    intro address member
    exact ⟨off, named, (rangeAt_eq at_off).symm ▸ member⟩
  obtain ⟨validSet, coversSet⟩ := valid.set at_off isName label proper smaller
  have lengthSet : (table.set off value).length = table.length := List.length_set
  have apart : pieces.Pairwise fun left right => Disjoint left.range right.range := by
    cases pieces with
    | nil => exact List.Pairwise.nil
    | cons piece rest =>
        cases rest with
        | nil => exact List.pairwise_singleton _ _
        | cons other rest =>
            simp only [List.length_cons] at single
            omega
  have clear : ∀ piece ∈ pieces,
      Disjoint (contained (table.set off value) "sysram") piece.range := by
    intro piece member
    obtain ⟨_, _, _, within, beside⟩ := isPiece piece member
    rw [coversSet]
    exact Set.disjoint_union_left.mpr
      ⟨Set.disjoint_sdiff_left.mono_right within, beside⟩
  obtain ⟨validNext, coversNext⟩ := validSet.append
    (fun piece member owner isOwner => by
      obtain ⟨_, sameOwner, _⟩ := isPiece piece member
      rw [lengthSet]
      exact (valid.ownersFirst off entry owner at_off (sameOwner ▸ isOwner)).trans below)
    (fun piece member => (isPiece piece member).1)
    (fun piece member => by
      obtain ⟨_, _, properPiece, within, _⟩ := isPiece piece member
      have last : piece.stop ∈ entry.range := within ⟨properPiece, le_rfl⟩
      have fits := (valid.proper entry (List.mem_of_getElem? at_off)).2
      exact ⟨properPiece, last.2.trans_lt fits⟩) apart clear
  have labels := map_label_set at_off label
  refine ⟨validNext.of_sameButKids same.symm, ?_, ?_, ?_, ?_⟩
  · rw [same.contained_eq, coversNext, coversSet, Set.union_assoc, parts]
  · rw [same.rangeAt_eq, rangeAt_append_of_lt (lengthSet.symm ▸ below), rangeAt_set_self below]
    have left : value.range ⊆ entry.range \ Set.Ico addr (addr + size) := by
      rw [← parts]
      exact Set.subset_union_left
    exact Set.disjoint_sdiff_left.mono_left left
  · intro other before
    have oldOther : other < (table.set off value).length := by
      rw [lengthSet]
      exact before.trans below
    refine ⟨fun namedNext => ?_, ?_⟩
    · have namedAppend := same.named_iff.mp namedNext
      exact ((named_append_of_lt validSet.ownersFirst oldOther).mp namedAppend).of_labels labels
    · rw [same.rangeAt_eq, rangeAt_append_of_lt oldOther, rangeAt_set_ne before.ne']
  · rw [same.stepsLeft_eq, stepsLeft_set pieces below, stepsLeft_at at_off]
    omega

/-- An entry of one step can be appended without an overlay. -/
theorem asAdd_sysram (table : List AsinfoEntry) (start stop : Nat) (owner : Option Nat) :
    SameButKids (asAdd table start stop asAttrRam "sysram" owner).1
      (table ++ [⟨start, stop, owner, "sysram", asAttrRam.stored⟩]) := by
  rw [asAdd_of_not_overlay rfl]
  unfold SameButKids
  rw [map_forgetKids_asAppend, List.map_append, List.map_singleton]

/-- One turn of the loop of `alloc_ram` takes the block out of the entry it meets. -/
theorem removeSysram_step {addr size fuel off : Nat} {from_ : Option Nat} {entry : AsinfoEntry}
    (valid : SysramTable table) (positive : 0 < addr + size) (fits : addr + size < 2 ^ 64)
    (found : asFindContaining table from_ addr (addr + size - 1) "sysram" = some off)
    (at_off : table[off]? = some entry) (isName : entry.name = "sysram")
    (meets : entry.Meets addr (addr + size - 1)) :
    removeSysram addr (addr + size - 1) (fuel + 1) table from_ = .error wholeSysramEntry ∨
      ∃ next, Trimmed table off entry addr size next ∧
        removeSysram addr (addr + size - 1) (fuel + 1) table from_ =
          removeSysram addr (addr + size - 1) fuel next (some off) := by
  obtain ⟨proper, entryFits⟩ := valid.proper entry (List.mem_of_getElem? at_off)
  have behind : addPaddr (addr + size - 1) 1 = addr + size := by
    rw [addPaddr_of_lt (by omega)]
    omega
  unfold AsinfoEntry.Meets at meets
  simp only [removeSysram, found, at_off]
  by_cases before : entry.start < addr
  · have notHead : ¬ addr = min entry.start addr := by omega
    have previous : subPaddr addr 1 = addr - 1 := subPaddr_of_le (by omega) (by omega)
    simp only [notHead, false_and, ↓reduceIte, previous]
    by_cases after : entry.stop ≤ addr + size - 1
    · have whole : max entry.stop (addr + size - 1) = addr + size - 1 := max_eq_right after
      simp only [whole, ne_eq, not_true_eq_false, ↓reduceIte]
      refine Or.inr ⟨_, ?_, rfl⟩
      refine @trimmed_of_meets _ _ _ _ _ { entry with stop := addr - 1 } [] _ valid at_off isName
        rfl (by dsimp only; omega) ?_ (by simp) (by simp) ?_ (by simp [SameButKids])
        (by simp [stepsLeft, before])
      · intro address inside
        rw [AsinfoEntry.range, Set.mem_Icc] at inside ⊢
        dsimp only at inside
        omega
      · ext address
        simp only [AsinfoEntry.range, Set.mem_union, Set.mem_Icc, Set.mem_sdiff, Set.mem_Ico,
          List.not_mem_nil, false_and, exists_false, Set.mem_ofPred_eq, or_false]
        omega
    · have tail : max entry.stop (addr + size - 1) = entry.stop := by omega
      have notTail : entry.stop ≠ addr + size - 1 := by omega
      simp only [tail, notTail, ne_eq, not_false_eq_true, ↓reduceIte, behind]
      refine Or.inr ⟨_, ?_, rfl⟩
      refine @trimmed_of_meets _ _ _ _ _ { entry with stop := addr - 1 }
        [⟨addr + size, entry.stop, entry.owner, "sysram", asAttrRam.stored⟩] _ valid at_off isName
        rfl (by dsimp only; omega) ?_ ?_ (by simp) ?_ (asAdd_sysram _ _ _ _) ?_
      · intro address inside
        rw [AsinfoEntry.range, Set.mem_Icc] at inside ⊢
        dsimp only at inside
        omega
      · intro piece member
        rw [List.mem_singleton.mp member]
        refine ⟨rfl, rfl, by dsimp only; omega, ?_, ?_⟩
        · intro address inside
          rw [AsinfoEntry.range, Set.mem_Icc] at inside ⊢
          dsimp only at inside
          omega
        · refine Set.disjoint_left.mpr fun address first second => ?_
          rw [AsinfoEntry.range, Set.mem_Icc] at first second
          dsimp only at first second
          omega
      · ext address
        simp only [AsinfoEntry.range, Set.mem_union, Set.mem_Icc, Set.mem_sdiff, Set.mem_Ico,
          List.mem_singleton, exists_eq_left, Set.mem_ofPred_eq]
        omega
      · have notBefore : ¬ addr + size < addr := by omega
        simp [stepsLeft, before, notBefore]
  · have head : addr = min entry.start addr := by omega
    by_cases after : entry.stop ≤ addr + size - 1
    · have whole : addr + size - 1 = max entry.stop (addr + size - 1) := (max_eq_right after).symm
      rw [if_pos ⟨head, whole⟩]
      exact Or.inl rfl
    · have notWhole : ¬ addr + size - 1 = max entry.stop (addr + size - 1) := by omega
      rw [if_neg (fun both => notWhole both.2), if_pos head, behind]
      refine Or.inr ⟨_, ?_, rfl⟩
      refine @trimmed_of_meets _ _ _ _ _ { entry with start := addr + size } [] _ valid at_off
        isName rfl (by dsimp only; omega) ?_ (by simp) (by simp) ?_ (by simp [SameButKids])
        (by simp [stepsLeft, before])
      · intro address inside
        rw [AsinfoEntry.range, Set.mem_Icc] at inside ⊢
        dsimp only at inside
        omega
      · ext address
        simp only [AsinfoEntry.range, Set.mem_union, Set.mem_Icc, Set.mem_sdiff, Set.mem_Ico,
          List.not_mem_nil, false_and, exists_false, Set.mem_ofPred_eq, or_false]
        omega

/-- Entries that share an address with a block meet it. -/
theorem meets_of_mem {entry : AsinfoEntry} {addr size address : Nat}
    (inEntry : address ∈ entry.range) (inBlock : address ∈ Set.Ico addr (addr + size)) :
    entry.Meets addr (addr + size - 1) := by
  rw [AsinfoEntry.range, Set.mem_Icc] at inEntry
  rw [Set.mem_Ico] at inBlock
  unfold AsinfoEntry.Meets
  omega

/-- **The loop of `alloc_ram` takes its block out of the `sysram` entries**, unless it is
the whole of one of them. -/
theorem removeSysram_eq {addr size fuel : Nat} {from_ : Option Nat} (valid : SysramTable table)
    (positive : 0 < addr + size) (fits : addr + size < 2 ^ 64)
    (done : ∀ off < searchFrom from_, Named table "sysram" off →
      Disjoint (rangeAt table off) (Set.Ico addr (addr + size)))
    (enough : stepsLeft table addr (searchFrom from_) < fuel) :
    removeSysram addr (addr + size - 1) fuel table from_ = .error wholeSysramEntry ∨
      ∃ next, removeSysram addr (addr + size - 1) fuel table from_ = .ok next ∧
        SysramTable next ∧
        contained next "sysram" = contained table "sysram" \ Set.Ico addr (addr + size) := by
  induction fuel generalizing table from_ with
  | zero => exact (Nat.not_lt_zero _ enough).elim
  | succ fuel ih =>
      cases found : asFindContaining table from_ addr (addr + size - 1) "sysram" with
      | none =>
          refine Or.inr ⟨table, by simp only [removeSysram, found], valid, ?_⟩
          refine (sdiff_eq_left.mpr (Set.disjoint_left.mpr ?_)).symm
          rintro address ⟨off, named, inside⟩ inBlock
          by_cases before : off < searchFrom from_
          · exact Set.disjoint_left.mp (done off before named) inside inBlock
          · have below := named.lt_length
            have searched : off ∈ List.range' (searchFrom from_)
                (table.length - searchFrom from_) := by
              rw [List.mem_range'_1]
              omega
            have missed := List.find?_eq_none.mp found off searched
            have at_off : table[off]? = some table[off] := List.getElem?_eq_getElem below
            rw [rangeAt_eq at_off] at inside
            exact missed ((hit_iff valid.ownersFirst).mpr
              ⟨named, _, at_off, meets_of_mem inside inBlock⟩)
      | some off =>
          obtain ⟨isHit, before, after, split, missed⟩ :=
            List.find?_eq_some_iff_append.mp found
          obtain ⟨count, _, isBefore, isAfter⟩ := List.range'_eq_append_iff.mp split
          obtain ⟨isOff, _, _⟩ := List.range'_eq_cons_iff.mp isAfter.symm
          obtain ⟨named, entry, at_off, meets⟩ := (hit_iff valid.ownersFirst).mp isHit
          obtain ⟨sameEntry, sameAt, isName⟩ := valid.own off named
          rw [at_off] at sameAt
          cases sameAt
          rcases @removeSysram_step table addr size fuel off from_ entry valid positive fits found
            at_off isName meets with crashed | ⟨next, trimmed, step⟩
          · exact Or.inl crashed
          · have skipped : stepsLeft table addr off ≤ stepsLeft table addr (searchFrom from_) :=
              stepsLeft_anti table addr (by omega)
            have fewer := trimmed.fewer
            have clear : ∀ other < searchFrom (some off), Named next "sysram" other →
                Disjoint (rangeAt next other) (Set.Ico addr (addr + size)) := by
              intro other earlier namedNext
              rcases Nat.lt_or_eq_of_le (Nat.lt_succ_iff.mp earlier) with strictly | rfl
              · obtain ⟨namedOld, sameRange⟩ := trimmed.elsewhere other strictly
                rw [sameRange]
                by_cases old : other < searchFrom from_
                · exact done other old (namedOld namedNext)
                · have inBefore : other ∈ before := by
                    rw [isBefore, List.mem_range'_1]
                    omega
                  have notHit : hit table addr (addr + size - 1) "sysram" other = false := by
                    simpa using missed other inBefore
                  refine Set.disjoint_left.mpr fun address inside inBlock => ?_
                  have below := (namedOld namedNext).lt_length
                  have at_other : table[other]? = some table[other] :=
                    List.getElem?_eq_getElem below
                  rw [rangeAt_eq at_other] at inside
                  rw [(hit_iff valid.ownersFirst).mpr ⟨namedOld namedNext, _, at_other,
                    meets_of_mem inside inBlock⟩] at notHit
                  cases notHit
              · exact trimmed.here
            have shorter : stepsLeft next addr (searchFrom (some off)) < fuel := by
              simp only [searchFrom]
              omega
            rw [step]
            rcases @ih next (some off) trimmed.valid clear shorter with
              crashed | ⟨result, run, stillValid, covers⟩
            · exact Or.inl crashed
            · refine Or.inr ⟨result, run, stillValid, ?_⟩
              have inside : entry.range ⊆ contained table "sysram" := fun address member =>
                ⟨off, named, (rangeAt_eq at_off).symm ▸ member⟩
              rw [covers, trimmed.covers]
              ext address
              simp only [Set.mem_sdiff, Set.mem_union]
              have whole := @inside address
              tauto

/-! ## Adding RAM -/

/-- The table while RAM is added: the RAM added lies in `ram` entries under a `memory`
that covers it, and no entry is `sysram`. -/
structure MemoryTable (table : List AsinfoEntry) (memory free : Set Nat) : Prop where
  some_entry : table.length ≠ 0
  ownersFirst : OwnersFirst table
  proper : ProperRanges table
  laminar : Laminar table "memory"
  covers : memory ⊆ contained table "memory"
  below : ∀ off, Named table "ram" off → Named table "memory" off
  listed : free ⊆ contained table "ram"
  none_sysram : ∀ off, ¬ Named table "sysram" off

namespace Partition

variable {start stop : Nat} {attr : AsAttr} {name container : String} {added : List AsinfoEntry}

/-- What an entry of the table after a partition is named: what its place was named before,
or the new name or one of the owner's. -/
theorem named_cases (partition : Partition table start stop attr name container added)
    (ownersFirst : OwnersFirst table) {other : String} {off : Nat}
    (named : Named (table ++ added) other off) :
    Named table other off ∨ ∃ owner, table.length ≤ off ∧ Named table container owner ∧
      Named (table ++ added) container off ∧ (name = other ∨ Named table other owner) := by
  by_cases old : off < table.length
  · exact Or.inl ((named_append_of_lt ownersFirst old).mp named)
  · obtain ⟨slot, rfl⟩ := Nat.exists_eq_add_of_le (Nat.le_of_not_lt old)
    have inside : slot < added.length := by
      have := named.lt_length
      rw [List.length_append] at this
      omega
    have member := List.getElem_mem inside
    have at_slot : added[slot]? = some added[slot] := List.getElem?_eq_getElem inside
    obtain ⟨owner, isOwner, above, _⟩ := partition.owned _ member
    have names := fun other => @named_append_of_mem table other added ownersFirst slot _ at_slot
      (partition.owner_lt _ member)
    refine Or.inr ⟨owner, Nat.le_add_right _ _, above,
      (names container).mpr (Or.inr ⟨owner, isOwner, above⟩), ?_⟩
    rcases (names other).mp named with isName | ⟨found, isFound, inherited⟩
    · exact Or.inl ((partition.labelled _ member).1.symm.trans isName)
    · rw [isOwner] at isFound
      exact Or.inr (Option.some.inj isFound ▸ inherited)

/-- The new entries add what they partition to the addresses of their name. -/
theorem contained_superset (partition : Partition table start stop attr name container added)
    (ownersFirst : OwnersFirst table) :
    contained table name ∪ (Set.Icc start stop ∩ contained table container) ⊆
      contained (table ++ added) name := by
  rintro address (old | new)
  · exact (mem_contained_append ownersFirst partition.owner_lt).mpr (Or.inl old)
  · obtain ⟨entry, member, inside⟩ := (partition.covered address).mpr new
    exact (mem_contained_append ownersFirst partition.owner_lt).mpr
      (Or.inr ⟨entry, member, Or.inl (partition.labelled entry member).1, inside⟩)

end Partition

/-- The inclusive end of a range that does not wrap. -/
theorem last_eq {start size : Nat} (positive : 0 < start + size) (fits : start + size < 2 ^ 64) :
    subPaddr (addPaddr start size) 1 = start + size - 1 := by
  rw [addPaddr_of_lt fits, subPaddr_of_le positive fits]

/-- Appending a partition under `memory` keeps the table, with more RAM listed. -/
theorem MemoryTable.append {memory free : Set Nat} (valid : MemoryTable table memory free)
    {start stop : Nat} {attr : AsAttr} {added result : List AsinfoEntry}
    (partition : Partition table start stop attr "ram" "memory" added) (fits : stop < 2 ^ 64)
    (same : SameButKids result (table ++ added)) :
    MemoryTable result memory (free ∪ (Set.Icc start stop ∩ memory)) := by
  obtain ⟨ownersFirst, proper, laminar⟩ :=
    partition.wellFormed valid.ownersFirst valid.proper valid.laminar fits
  have superset := partition.contained_superset valid.ownersFirst
  refine ⟨?_, same.symm.ownersFirst ownersFirst, same.symm.properRanges proper,
    same.symm.laminar laminar, ?_, ?_, ?_, ?_⟩
  · have nonempty := valid.some_entry
    rw [same.length_eq, List.length_append]
    omega
  · rw [same.contained_eq]
    exact valid.covers.trans fun address member =>
      (mem_contained_append valid.ownersFirst partition.owner_lt).mpr (Or.inl member)
  · intro off named
    refine same.named_iff.mpr ?_
    rcases partition.named_cases valid.ownersFirst (same.named_iff.mp named) with
      old | ⟨_, _, _, isMemory, _⟩
    · exact (named_append_of_lt valid.ownersFirst old.lt_length).mpr (valid.below off old)
    · exact isMemory
  · rw [same.contained_eq]
    refine (Set.union_subset_union valid.listed ?_).trans superset
    exact Set.inter_subset_inter_right _ valid.covers
  · intro off named
    rcases partition.named_cases valid.ownersFirst (same.named_iff.mp named) with
      old | ⟨owner, _, _, _, isName | inherited⟩
    · exact valid.none_sysram off old
    · exact absurd isName (by decide)
    · exact valid.none_sysram owner inherited

theorem MemoryTable.mono {memory free less : Set Nat} (valid : MemoryTable table memory free)
    (fewer : less ⊆ free) : MemoryTable table memory less :=
  { valid with listed := fewer.trans valid.listed }

/-- `add_ram` lists the RAM it adds under `memory`. -/
theorem MemoryTable.add_ram {memory free : Set Nat} (valid : MemoryTable table memory free)
    {start size : Nat} (fits : start + size < 2 ^ 64)
    (inside : Set.Ico start (start + size) ⊆ memory) :
    ∃ result startOff,
      asAddContaining table start (subPaddr (addPaddr start size) 1) asAttrRam "ram" "memory" =
        .ok (result, startOff) ∧
      MemoryTable result memory (free ∪ Set.Ico start (start + size)) := by
  by_cases backward : subPaddr (addPaddr start size) 1 < start
  · have noSize : size = 0 := by
      by_contra positive
      rw [last_eq (by omega) fits] at backward
      omega
    refine ⟨table, none, asAddContaining_of_backward valid.ownersFirst backward "ram", ?_⟩
    rw [noSize, Nat.add_zero, Set.Ico_self, Set.union_empty]
    exact valid
  · have lastFits : subPaddr (addPaddr start size) 1 < 2 ^ 64 := Word.sub_lt 64 _ _
    obtain ⟨result, added, run, same, partition⟩ := asAddContaining_eq valid.ownersFirst
      valid.proper valid.laminar (Nat.le_of_not_lt backward) lastFits asAttrRam_plain "ram"
    refine ⟨result, _, run, (valid.append partition lastFits same).mono ?_⟩
    refine Set.union_subset_union_right _ fun address member => ⟨⟨member.1, ?_⟩, inside member⟩
    rw [Set.mem_Ico] at member
    rw [last_eq (by omega) fits]
    omega

/-! ## Telling the kernel -/

/-- `add_sysram` adds the entries of one span. -/
theorem SysramTable.add_span (valid : SysramTable table) (laminar : Laminar table "ram")
    {span : Span Nat} (proper : span.lo < span.hi) (fits : span.hi < 2 ^ 64)
    (listed : span.toSet ⊆ contained table "ram")
    (new : Disjoint (contained table "sysram") span.toSet) :
    ∃ result startOff,
      asAddContaining table span.lo (span.hi - 1) asAttrRam "sysram" "ram" =
        .ok (result, startOff) ∧
      SysramTable result ∧ Laminar result "ram" ∧
      contained table "ram" ⊆ contained result "ram" ∧
      contained result "sysram" = contained table "sysram" ∪ span.toSet := by
  obtain ⟨result, added, run, same, partition⟩ := asAddContaining_eq valid.ownersFirst
    valid.proper laminar (by omega : span.lo ≤ span.hi - 1) (by omega) asAttrRam_plain "sysram"
  obtain ⟨_, properAll, laminarAll⟩ :=
    partition.wellFormed valid.ownersFirst valid.proper laminar (by omega)
  have pieces : {address | ∃ entry ∈ added, address ∈ entry.range} = span.toSet := by
    ext address
    rw [Set.mem_ofPred_eq, partition.covered]
    constructor
    · rintro ⟨⟨first, last⟩, _⟩
      exact ⟨first, by omega⟩
    · intro member
      refine ⟨⟨member.1, ?_⟩, listed member⟩
      have below := member.2
      omega
  have within : ∀ entry ∈ added, entry.range ⊆ span.toSet := by
    intro entry member address inside
    rw [← pieces]
    exact ⟨entry, member, inside⟩
  obtain ⟨validAll, coversAll⟩ := valid.append partition.owner_lt
    (fun entry member => (partition.labelled entry member).1)
    (fun entry member => properAll entry (List.mem_append_right _ member)) partition.apart
    (fun entry member => new.mono_right (within entry member))
  refine ⟨result, _, run, validAll.of_sameButKids same.symm, same.symm.laminar laminarAll, ?_, ?_⟩
  · rw [same.contained_eq]
    exact fun address member =>
      (mem_contained_append valid.ownersFirst partition.owner_lt).mpr (Or.inl member)
  · rw [same.contained_eq, coversAll, pieces]

/-- The loop of `add_sysram` adds the entries of the spans that are left. -/
theorem sysramEntries_eq {ram : RamTable} {fuel : Nat} {front rest : List (Span Nat)}
    (stores : ram.Stores (front ++ rest)) (separated : Separated (front ++ rest))
    (enough : rest.length < fuel) (valid : SysramTable table) (laminar : Laminar table "ram")
    (listed : cover (front ++ rest) ⊆ contained table "ram")
    (done : contained table "sysram" = cover front) :
    ∃ result, sysramEntries ram fuel front.length table = .ok result ∧ SysramTable result ∧
      contained result "sysram" = cover (front ++ rest) := by
  induction rest generalizing front table fuel with
  | nil =>
      obtain ⟨fuel, rfl⟩ := Nat.exists_eq_succ_of_ne_zero (Nat.ne_zero_of_lt enough)
      have ended : (ram.ramList front.length).size = 0 := by
        simpa using stores.terminated
      exact ⟨table, by simp [sysramEntries, ended], valid, by rw [List.append_nil, done]⟩
  | cons span rest ih =>
      obtain ⟨fuel, rfl⟩ := Nat.exists_eq_succ_of_ne_zero (Nat.ne_zero_of_lt enough)
      have stored := stores.entry_eq
      have stop := stores.stop_eq
      have proper := stores.proper span (by simp)
      have fits := stores.fits span (by simp)
      have live : span.hi - span.lo ≠ 0 := by omega
      have last : subPaddr span.hi 1 = span.hi - 1 := subPaddr_of_le (by omega) fits
      have inCover : span.toSet ⊆ cover (front ++ span :: rest) := by
        intro address member
        exact ⟨span, by simp, member⟩
      have new : Disjoint (contained table "sysram") span.toSet := by
        rw [done]
        refine Set.disjoint_left.mpr ?_
        rintro address ⟨other, member, inOther⟩ inSpan
        have gap := (List.pairwise_append.mp separated.gaps).2.2 other member span (by simp)
        have below := inOther.2
        have above := inSpan.1
        omega
      obtain ⟨next, startOff, run, validNext, laminarNext, more, covers⟩ :=
        valid.add_span laminar proper fits (inCover.trans listed) new
      have regroup : front ++ span :: rest = (front ++ [span]) ++ rest := by simp
      rw [regroup] at stores separated listed ⊢
      obtain ⟨result, runs, validResult, whole⟩ := ih stores separated
        (Nat.lt_of_succ_lt_succ enough) validNext laminarNext (listed.trans more) (by
          rw [covers, done, cover_append, cover_cons, cover_nil, Set.union_empty]
          rfl)
      rw [List.length_append, List.length_singleton] at runs
      refine ⟨result, ?_, validResult, whole⟩
      have addr : (RamEntry.ofSpan span).addr = span.lo := rfl
      have size : (RamEntry.ofSpan span).size = span.hi - span.lo := rfl
      simp only [sysramEntries, stored, addr, size, live, ↓reduceIte, stop, last, run, bind,
        Except.bind, runs]

/-- A table without `sysram` entries. -/
theorem MemoryTable.sysramTable {memory free : Set Nat} (valid : MemoryTable table memory free) :
    SysramTable table ∧ Laminar table "ram" ∧ contained table "sysram" = ∅ := by
  refine ⟨⟨valid.ownersFirst, valid.proper, ?_, ?_⟩, ?_, ?_⟩
  · exact fun off named => (valid.none_sysram off named).elim
  · exact fun first _ _ named _ => (valid.none_sysram first named).elim
  · exact fun earlier later order first second =>
      valid.laminar earlier later order (valid.below earlier first) (valid.below later second)
  · refine Set.eq_empty_of_forall_notMem ?_
    rintro address ⟨off, named, _⟩
    exact valid.none_sysram off named

/-- `add_sysram` tells the kernel about exactly the free RAM. -/
theorem MemoryTable.add_sysram {memory free : Set Nat} {ram : RamTable}
    (valid : MemoryTable table memory free) (holds : ram.HoldsFree free) :
    ∃ result, sysramEntries ram ram.ramListSize 0 table = .ok result ∧ SysramTable result ∧
      contained result "sysram" = free := by
  obtain ⟨spans, stores, separated, rfl⟩ := holds
  obtain ⟨validTable, laminar, none_yet⟩ := valid.sysramTable
  have enough : spans.length < ram.ramListSize := by
    rw [stores.bytes]
    simp only [sizeofRamEntry]
    omega
  exact @sysramEntries_eq table ram _ [] spans stores separated enough validTable laminar
    valid.listed (by rw [none_yet, cover_nil])

/-! ## Whole runs -/

/-- The calls that change the free RAM the kernel is told about. -/
inductive SysramCall where
  | addRam (start size : Nat)
  | addSysram
  | allocRam (addr size align : Nat)
deriving DecidableEq, Repr

/-- Make a call. -/
def sysramStep (boot : Boot) (state : RamState) : SysramCall → Result (RamState × Unit)
  | .addRam start size => do return (← addRam boot state start size, ())
  | .addSysram => do return (← addSysram state, ())
  | .allocRam addr size align => do
      let (state, _) ← allocRam state addr size align
      return (state, ())

/-- RAM is added, under the root entry, before the kernel is told about it; no range
reaches the top of memory. -/
def SysramCall.Allowed (memory : Set Nat) (state : RamState) : SysramCall → Prop
  | .addRam start size => state.sysramAdded = false ∧ start + size < 2 ^ 64 ∧
      Set.Ico start (start + size) ⊆ memory
  | .addSysram => state.sysramAdded = false
  | .allocRam addr size _ => addr = nullPaddr ∨ addr + size < 2 ^ 64

/-- What `ram_list` holds and what the table of address ranges says about it. -/
def SysramAgrees (memory : Set Nat) (state : RamState) : Prop :=
  ∃ ram free, state.ram = some ram ∧ ram.HoldsFree free ∧
    (state.sysramAdded = false → MemoryTable state.asinfo memory free) ∧
    (state.sysramAdded = true →
      SysramTable state.asinfo ∧ contained state.asinfo "sysram" = free)

/-- With nothing to take out of them `alloc_ram(0, 0, _)` leaves the entries, or crashes. -/
theorem removeSysram_everywhere {fuel : Nat} {next : List AsinfoEntry}
    (valid : SysramTable table)
    (run : removeSysram 0 (2 ^ 64 - 1) (fuel + 1) table none = .ok next) : next = table := by
  simp only [removeSysram] at run
  split at run
  · cases run
    rfl
  · split at run
    · cases run
    · next entry at_off =>
        have fits := (valid.proper entry (List.mem_of_getElem? at_off)).2
        have whole : max entry.stop (2 ^ 64 - 1) = 2 ^ 64 - 1 := by omega
        simp only [Nat.min_zero, whole, and_self, ↓reduceIte, reduceCtorEq] at run

/-- Taking a block keeps the agreement. -/
theorem takeRam_agrees {memory : Set Nat} {state after : RamState} {addr size returned : Nat}
    (agrees : SysramAgrees memory state) (fits : addr + size < 2 ^ 64)
    (run : takeRam state addr size = .ok (after, returned)) : SysramAgrees memory after := by
  obtain ⟨ram, free, isRam, holds, early, late⟩ := agrees
  rcases removeRam_holdsFree holds fits with overflow | ⟨removed, removes, stored⟩
  · simp only [takeRam, isRam, deref, bind, Except.bind, overflow, reduceCtorEq] at run
  · simp only [takeRam, isRam, deref, bind, Except.bind, removes, pure, Except.pure] at run
    cases added : state.sysramAdded with
    | false =>
        simp only [added, Bool.false_eq_true, ↓reduceIte] at run
        cases run
        refine ⟨removed, _, rfl, stored, fun _ => (early added).mono Set.sdiff_subset, ?_⟩
        intro isAdded
        cases isAdded
    | true =>
        obtain ⟨valid, covers⟩ := late added
        simp only [added, ↓reduceIte] at run
        have told : ∀ next, removeSysram addr (subPaddr (addPaddr addr size) 1)
            (2 * state.asinfo.length + 1) state.asinfo none = .ok next →
            SysramTable next ∧ contained next "sysram" = free \ Set.Ico addr (addr + size) := by
          intro next removesToo
          by_cases positive : 0 < addr + size
          · rw [last_eq positive fits] at removesToo
            have enough : stepsLeft state.asinfo addr (searchFrom none) <
                2 * state.asinfo.length + 1 := Nat.lt_succ_of_le (stepsLeft_le _ _ _)
            rcases @removeSysram_eq state.asinfo addr size _ none valid positive fits
              (fun off before => (Nat.not_lt_zero off before).elim) enough with
              crashed | ⟨result, runs, stillValid, fewer⟩
            · rw [crashed] at removesToo
              cases removesToo
            · rw [runs] at removesToo
              cases removesToo
              exact ⟨stillValid, by rw [fewer, covers]⟩
          · obtain ⟨rfl, rfl⟩ : addr = 0 ∧ size = 0 := by omega
            have isTable := removeSysram_everywhere valid removesToo
            rw [isTable, Nat.add_zero, Set.Ico_self, Set.sdiff_empty]
            exact ⟨valid, covers⟩
        split at run
        · cases run
        · next next removesToo =>
            cases run
            refine ⟨removed, _, rfl, stored, ?_, fun _ => told next removesToo⟩
            intro notAdded
            cases notAdded

/-- `alloc_ram` keeps the agreement. -/
theorem allocRam_agrees {memory : Set Nat} {state after : RamState}
    {addr size align returned : Nat} (agrees : SysramAgrees memory state)
    (fits : addr = nullPaddr ∨ addr + size < 2 ^ 64)
    (run : allocRam state addr size align = .ok (after, returned)) :
    SysramAgrees memory after := by
  unfold allocRam at run
  by_cases anywhere : addr = nullPaddr
  · rw [if_pos anywhere] at run
    obtain ⟨ram, _, run⟩ := bind_eq_ok.mp run
    obtain ⟨avoid, _, run⟩ := bind_eq_ok.mp run
    obtain ⟨place, found, run⟩ := bind_eq_ok.mp run
    by_cases isNull : place = nullPaddr
    · rw [if_pos isNull] at run
      cases run
      exact agrees
    · rw [if_neg isNull] at run
      exact takeRam_agrees agrees (findRam_fits found isNull) run
  · rw [if_neg anywhere] at run
    exact takeRam_agrees agrees (fits.resolve_left anywhere) run

/-- The search for the temporary system page changes the avoid list only. -/
theorem findTempSyspage_frame {boot : Boot} {state after : RamState}
    (run : findTempSyspage boot state = .ok after) :
    after = { state with avoid := after.avoid, tempSyspage := after.tempSyspage } := by
  unfold findTempSyspage at run
  split at run
  · obtain ⟨ram, _, run⟩ := bind_eq_ok.mp run
    obtain ⟨avoid, accessed, run⟩ := bind_eq_ok.mp run
    obtain ⟨place, _, run⟩ := bind_eq_ok.mp run
    cases isAvoid : state.avoid with
    | none =>
        rw [isAvoid] at accessed
        cases accessed
    | some table =>
        dsimp only at run
        split at run
        · obtain ⟨ready, inited, run⟩ := bind_eq_ok.mp run
          simp only [ensureInit, isAvoid] at inited
          cases inited
          obtain ⟨_, _, run⟩ := bind_eq_ok.mp run
          obtain ⟨_, _, run⟩ := bind_eq_ok.mp run
          cases run
          rfl
        · cases run
          rfl
  · cases run
    rfl

/-- `add_ram` keeps the agreement while the kernel is not told yet. -/
theorem addRam_agrees {boot : Boot} {memory : Set Nat} {state after : RamState}
    {start size : Nat} (agrees : SysramAgrees memory state)
    (allowed : (SysramCall.addRam start size).Allowed memory state)
    (run : addRam boot state start size = .ok after) : SysramAgrees memory after := by
  obtain ⟨untold, fits, inside⟩ := allowed
  obtain ⟨ram, free, isRam, holds, early, _⟩ := agrees
  have valid := early untold
  obtain ⟨result, startOff, adds, more⟩ := valid.add_ram fits inside
  simp only [addRam, valid.some_entry, ↓reduceIte, adds] at run
  obtain ⟨_, isResult, run⟩ := bind_eq_ok.mp run
  cases isResult
  obtain ⟨table, accessed, run⟩ := bind_eq_ok.mp run
  rw [isRam] at accessed
  cases accessed
  obtain ⟨added, addsMem, run⟩ := bind_eq_ok.mp run
  obtain ⟨⟨cleared, place⟩, removes, finds⟩ := bind_eq_ok.mp run
  have image : addPaddr boot.fullRamPaddr boot.startupSize = nullPaddr ∨
      addPaddr boot.fullRamPaddr boot.startupSize +
        Word.sub 32 boot.ramSize boot.startupSize < 2 ^ 64 := by
    have slack := boot.fits
    have contained := boot.startup_le_ram
    rw [addPaddr_of_lt (by omega), Word.sub_of_le contained boot.ramSize_lt]
    omega
  rcases addMem_holdsFree holds fits with overflow | ⟨next, runs, stored⟩
  · rw [overflow] at addsMem
    cases addsMem
  · rw [runs] at addsMem
    cases addsMem
    have agreesAdded : SysramAgrees memory { state with asinfo := result, ram := some added } := by
      refine ⟨added, _, rfl, stored, fun _ => more, ?_⟩
      intro told
      dsimp only at told
      rw [untold] at told
      cases told
    have agreesCleared := allocRam_agrees agreesAdded image removes
    rw [findTempSyspage_frame finds]
    exact agreesCleared

/-- `add_sysram` makes the table agree with `ram_list`. -/
theorem addSysram_agrees {memory : Set Nat} {state after : RamState}
    (agrees : SysramAgrees memory state) (untold : state.sysramAdded = false)
    (run : addSysram state = .ok after) : SysramAgrees memory after := by
  obtain ⟨ram, free, isRam, holds, early, _⟩ := agrees
  obtain ⟨result, entries, valid, covers⟩ := (early untold).add_sysram holds
  simp only [addSysram, isRam, deref, bind, Except.bind, entries, pure, Except.pure] at run
  cases run
  refine ⟨ram, free, rfl, holds, ?_, fun _ => ⟨valid, covers⟩⟩
  intro notAdded
  cases notAdded

/-- Every allowed call keeps the agreement. -/
theorem sysramStep_agrees {boot : Boot} {memory : Set Nat} {state after : RamState}
    {call : SysramCall} {returned : Unit} (agrees : SysramAgrees memory state)
    (allowed : call.Allowed memory state)
    (run : sysramStep boot state call = .ok (after, returned)) : SysramAgrees memory after := by
  cases call with
  | addRam start size =>
      obtain ⟨next, adds, returns⟩ := bind_eq_ok.mp run
      cases returns
      exact addRam_agrees agrees allowed adds
  | addSysram =>
      obtain ⟨next, adds, returns⟩ := bind_eq_ok.mp run
      cases returns
      exact addSysram_agrees agrees allowed adds
  | allocRam addr size align =>
      obtain ⟨⟨next, place⟩, takes, returns⟩ := bind_eq_ok.mp run
      cases returns
      exact allocRam_agrees agrees allowed takes

/-- The table that RAM is added to: a root `memory` entry and a `below4G` inside it. -/
structure RootTable (memory below4G : AsinfoEntry) : Prop where
  memory_name : memory.name = "memory"
  memory_root : memory.owner = none
  memory_proper : memory.start ≤ memory.stop ∧ memory.stop < 2 ^ 64
  below4G_name : below4G.name = "below4G"
  below4G_owner : below4G.owner = some 0
  below4G_proper : below4G.start ≤ below4G.stop ∧ below4G.stop < 2 ^ 64
  nested : below4G.range ⊆ memory.range

namespace RootTable

variable {memory below4G : AsinfoEntry}

/-- The names of the two entries. -/
theorem name_of_named (root : RootTable memory below4G) {name : String} {off : Nat}
    (named : Named [memory, below4G] name off) : name = "memory" ∨ name = "below4G" := by
  induction named with
  | @own off entry at_off isName =>
      rcases List.mem_pair.mp (List.mem_of_getElem? at_off) with rfl | rfl
      · exact Or.inl (isName.symm.trans root.memory_name)
      · exact Or.inr (isName.symm.trans root.below4G_name)
  | inherited _ _ _ ih => exact ih

/-- No RAM is added to the table yet. -/
theorem memoryTable (root : RootTable memory below4G) :
    MemoryTable [memory, below4G] memory.range ∅ := by
  have isMemory : Named [memory, below4G] "memory" 0 := .own rfl root.memory_name
  refine ⟨Nat.succ_ne_zero _, ?_, ?_, ?_, ?_, ?_, Set.empty_subset _, ?_⟩
  · intro off entry owner at_off isOwner
    have below := (List.getElem?_eq_some_iff.mp at_off).1
    rw [List.length_cons, List.length_singleton] at below
    obtain rfl | rfl : off = 0 ∨ off = 1 := by omega
    · cases at_off
      rw [root.memory_root] at isOwner
      cases isOwner
    · cases at_off
      rw [root.below4G_owner] at isOwner
      cases isOwner
      exact Nat.zero_lt_one
  · intro entry member
    rcases List.mem_pair.mp member with rfl | rfl
    · exact root.memory_proper
    · exact root.below4G_proper
  · intro earlier later order namedEarlier namedLater
    have below := namedLater.lt_length
    rw [List.length_cons, List.length_singleton] at below
    obtain ⟨rfl, rfl⟩ : earlier = 0 ∧ later = 1 := by omega
    exact Or.inl root.nested
  · exact fun address inside => ⟨0, isMemory, inside⟩
  · intro off named
    rcases root.name_of_named named with other | other
    · exact absurd other (by decide)
    · exact absurd other (by decide)
  · intro off named
    rcases root.name_of_named named with other | other
    · exact absurd other (by decide)
    · exact absurd other (by decide)

end RootTable

/-- **`sysram` agrees with the allocator.** From a root table, after any sequence of
`add_ram` and `alloc_ram` calls and `add_sysram`, in which no range reaches the top of
memory, the `sysram` entries are pairwise disjoint and cover exactly the addresses of
`ram_list`. -/
theorem sysram_run {boot : Boot} {memory below4G : AsinfoEntry}
    (root : RootTable memory below4G) {start : RamState} {empty : RamTable}
    (isEmpty : start.ram = some empty) (bytes : empty.ramListSize = sizeofRamEntry)
    (terminated : (empty.ramList 0).size = 0) (untold : start.sysramAdded = false)
    (isRoot : start.asinfo = [memory, below4G]) {history : List (Event SysramCall Unit)}
    {state : RamState} (run : Run (sysramStep boot)
      (fun _ state call => call.Allowed memory.range state) start history state)
    (told : state.sysramAdded = true) :
    ∃ ram count, state.ram = some ram ∧ ram.WellFormed count ∧
      (∀ (first second : Nat) (one other : AsinfoEntry), first < second →
        state.asinfo[first]? = some one → state.asinfo[second]? = some other →
          one.name = "sysram" → other.name = "sysram" → Disjoint one.range other.range) ∧
      ∀ address, (∃ entry ∈ state.asinfo, entry.name = "sysram" ∧ address ∈ entry.range) ↔
        ram.Covers count address := by
  have starts : SysramAgrees memory.range start := by
    refine ⟨empty, ∅, isEmpty, holdsFree_empty bytes terminated, ?_, ?_⟩
    · intro _
      rw [isRoot]
      exact root.memoryTable
    · intro already
      rw [untold] at already
      cases already
  have agrees : SysramAgrees memory.range state := by
    refine @Run.invariant _ _ _ _ _ _ _ (fun _ state => SysramAgrees memory.range state) starts
      ?_ _ _ run
    intro _ _ call _ returned agrees allowed stepped
    exact sysramStep_agrees agrees allowed stepped
  obtain ⟨ram, free, isRam, holds, _, late⟩ := agrees
  obtain ⟨valid, covers⟩ := late told
  obtain ⟨count, wellFormed, isFree⟩ := holds.wellFormed
  refine ⟨ram, count, isRam, wellFormed, ?_, ?_⟩
  · intro first second one other order isOne isOther oneName otherName
    have apart := valid.apart first second order (.own isOne oneName) (.own isOther otherName)
    rwa [rangeAt_eq isOne, rangeAt_eq isOther] at apart
  · intro address
    rw [isFree, ← covers]
    constructor
    · rintro ⟨entry, member, isName, inside⟩
      obtain ⟨off, at_off⟩ := List.getElem?_of_mem member
      exact ⟨off, .own at_off isName, (rangeAt_eq at_off).symm ▸ inside⟩
    · rintro ⟨off, named, inside⟩
      obtain ⟨entry, at_off, isName⟩ := valid.own off named
      rw [rangeAt_eq at_off] at inside
      exact ⟨entry, List.mem_of_getElem? at_off, isName, inside⟩

/-- The tables of `smallBoot` before any RAM is added. -/
def rootState : RamState where
  ram := some ⟨fun _ => ⟨0, 0⟩, sizeofRamEntry⟩
  avoid := some ⟨fun slot => if slot = 0 then ⟨0x80000, 0x90000⟩ else ⟨0, 0⟩, 32⟩
  wsEarlyNext := 0xA1000
  tempSyspage := nullPaddr
  sysramAdded := false
  asinfo := [⟨0, 2 ^ 36 - 1, none, "memory", asAttrRam⟩,
    ⟨0, 2 ^ 32 - 1, some 0, "below4G", asAttrRam⟩]

theorem rootState_root : RootTable ⟨0, 2 ^ 36 - 1, none, "memory", asAttrRam⟩
    ⟨0, 2 ^ 32 - 1, some 0, "below4G", asAttrRam⟩ where
  memory_name := rfl
  memory_root := rfl
  memory_proper := by decide
  below4G_name := rfl
  below4G_owner := rfl
  below4G_proper := by decide
  nested := Set.Icc_subset_Icc_right (by decide)

theorem sysram_run_root : ∃ state ram count,
    Run (sysramStep smallBoot) (fun _ state call => call.Allowed
      (AsinfoEntry.range ⟨0, 2 ^ 36 - 1, none, "memory", asAttrRam⟩) state) rootState
      [⟨.addRam 0x1000 0x3000, ()⟩, ⟨.addSysram, ()⟩, ⟨.allocRam 0x2000 0x1000 1, ()⟩] state ∧
    state.ram = some ram ∧ ram.WellFormed count ∧
      ∀ address, (∃ entry ∈ state.asinfo, entry.name = "sysram" ∧ address ∈ entry.range) ↔
        ram.Covers count address := by
  have inside : Set.Ico 0x1000 (0x1000 + 0x3000) ⊆
      AsinfoEntry.range ⟨0, 2 ^ 36 - 1, none, "memory", asAttrRam⟩ := by
    intro address member
    have below := member.2
    exact ⟨Nat.zero_le _, by dsimp only; omega⟩
  have first := @Run.next _ _ _ _ (sysramStep smallBoot) (fun _ state call => call.Allowed
    (AsinfoEntry.range ⟨0, 2 ^ 36 - 1, none, "memory", asAttrRam⟩) state) rootState [] _ _
    (.addRam 0x1000 0x3000) () .start ⟨rfl, by decide, inside⟩ rfl
  have second := @Run.next _ _ _ _ (sysramStep smallBoot) (fun _ state call => call.Allowed
    (AsinfoEntry.range ⟨0, 2 ^ 36 - 1, none, "memory", asAttrRam⟩) state) rootState _ _ _
    .addSysram () first rfl rfl
  have third := @Run.next _ _ _ _ (sysramStep smallBoot) (fun _ state call => call.Allowed
    (AsinfoEntry.range ⟨0, 2 ^ 36 - 1, none, "memory", asAttrRam⟩) state) rootState _ _ _
    (.allocRam 0x2000 0x1000 1) () second (Or.inr (by decide)) rfl
  obtain ⟨ram, count, isRam, wellFormed, _, agrees⟩ :=
    sysram_run rootState_root rfl rfl rfl rfl rfl third rfl
  exact ⟨_, ram, count, third, isRam, wellFormed, agrees⟩

/-- Allocating up to the very top of memory leaves an address in `ram_list` that the
kernel is not told about. -/
theorem allocRam_to_top_disagrees : ∃ state ram,
    Run (sysramStep smallBoot) (fun _ _ _ => True) rootState
      [⟨.addRam 0 0x2000, ()⟩, ⟨.addSysram, ()⟩,
        ⟨.allocRam 0x1800 (2 ^ 64 - 0x1800) 1, ()⟩] state ∧
    state.ram = some ram ∧ ram.ramList 0 = ⟨0, 0x2000⟩ ∧
    state.asinfo.filter (fun entry => entry.name = "sysram") =
      [⟨0, 0x17ff, some 2, "sysram", asAttrRam⟩] := by
  have first := @Run.next _ _ _ _ (sysramStep smallBoot) (fun _ _ _ => True) rootState [] _ _
    (.addRam 0 0x2000) () .start trivial rfl
  have second := @Run.next _ _ _ _ (sysramStep smallBoot) (fun _ _ _ => True) rootState _ _ _
    .addSysram () first trivial rfl
  have third := @Run.next _ _ _ _ (sysramStep smallBoot) (fun _ _ _ => True) rootState _ _ _
    (.allocRam 0x1800 (2 ^ 64 - 0x1800) 1) () second trivial rfl
  exact ⟨_, _, third, rfl, rfl, rfl⟩

end Bcm2711.Startup
