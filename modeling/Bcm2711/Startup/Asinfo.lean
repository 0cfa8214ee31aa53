import Bcm2711.Lib.Paint
import Bcm2711.Startup.Types

/-! # The address space table

`asinfo` is a growing table of inclusive address ranges.  An entry names its owner by
its place in the table, and its ancestors are the owners up to a root.
`as_add_containing` adds a range under every entry with a given name among its own
and its ancestors' names, split so that each piece lies under the last such entry that
contains it.

Growing the system page section behind the table can end in `crash`; the table itself
is modelled as unbounded.
-/

namespace Bcm2711.Startup

/-- The attribute word of an entry, and of the calls that add one. -/
structure AsAttr where
  /-- The bits without a flag of their own. -/
  bits : Nat
  /-- `AS_ATTR_KIDS`. -/
  kids : Bool
  /-- `AS_ATTR_CONTINUED`. -/
  continued : Bool
  /-- `AS_OVERLAY_IO`, outside the 16 bits an entry keeps. -/
  overlayIo : Bool
deriving DecidableEq, Repr

/-- `AS_ATTR_RAM`, which is `AS_ATTR_NONE`. -/
def asAttrRam : AsAttr := ⟨0, false, false, false⟩

theorem asAttrRam_plain : asAttrRam.overlayIo = false := rfl

/-- `attr & 0xffff`, the part of the attribute word that an entry keeps. -/
def AsAttr.stored (attr : AsAttr) : AsAttr :=
  { attr with bits := attr.bits % 2 ^ 16, overlayIo := false }

/-- `struct asinfo_entry`; `stop` is the inclusive `end`, an owner of `AS_NULL_OFF` is
`none`, and offsets count entries. -/
structure AsinfoEntry where
  start : Nat
  stop : Nat
  owner : Option Nat
  name : String
  attr : AsAttr
deriving DecidableEq, Repr

/-- `own_as->attr |= AS_ATTR_KIDS`. -/
def markKids (owner : Option Nat) (table : List AsinfoEntry) : List AsinfoEntry :=
  match owner with
  | none => table
  | some off => table.modify off fun entry => { entry with attr.kids := true }

/-- `as_add64` without its overlay. -/
def asAppend (table : List AsinfoEntry) (start stop : Nat) (attr : AsAttr) (name : String)
    (owner : Option Nat) : List AsinfoEntry :=
  markKids owner
    (table ++ [⟨start, stop, owner, name, attr.stored⟩])

/-- `as_add64`, which `as_add` calls: the new table and the offset of the new entry. -/
def asAdd (table : List AsinfoEntry) (start stop : Nat) (attr : AsAttr) (name : String)
    (owner : Option Nat) : List AsinfoEntry × Nat :=
  let off := table.length
  let table := asAppend table start stop attr name owner
  if attr.overlayIo then
    (asAppend table start stop { attr with overlayIo := false } "io" (some off), off)
  else (table, off)

/-- `match_name`: the entry or one of its ancestors has the name. -/
def matchName (table : List AsinfoEntry) (name : String) : (fuel off : Nat) → Bool
  | 0, _ => false
  | fuel + 1, off =>
      match table[off]? with
      | none => false
      | some entry =>
          if entry.name = name then true
          else
            match entry.owner with
            | none => false
            | some owner => matchName table name fuel owner

/-- The range tests of `as_find_containing`. -/
def AsinfoEntry.Meets (entry : AsinfoEntry) (start stop : Nat) : Prop :=
  (start ≥ entry.start ∧ start ≤ entry.stop) ∨ (stop ≥ entry.start ∧ stop ≤ entry.stop) ∨
    (start ≤ entry.start ∧ stop ≥ entry.stop)

instance (entry : AsinfoEntry) (start stop : Nat) : Decidable (entry.Meets start stop) :=
  inferInstanceAs (Decidable (_ ∨ _ ∨ _))

/-- The entry at an offset is one `as_find_containing` stops at. -/
def hit (table : List AsinfoEntry) (start stop : Nat) (container : String) (off : Nat) : Bool :=
  match table[off]? with
  | none => false
  | some entry => matchName table container table.length off && decide (entry.Meets start stop)

/-- Where a search behind an offset begins; `AS_NULL_OFF` begins at the first entry. -/
def searchFrom : Option Nat → Nat
  | none => 0
  | some off => off + 1

/-- `as_find_containing`: the first hit behind an offset. -/
def asFindContaining (table : List AsinfoEntry) (off : Option Nat) (start stop : Nat)
    (container : String) : Option Nat :=
  (List.range' (searchFrom off) (table.length - searchFrom off)).find?
    (hit table start stop container)

/-- `struct as_range`, whose `start` and `end` are `first` and `last`. -/
abbrev AsRange := Paint.Piece

/-- The inner loop of `as_add_containing`: place a piece in the list of ranges. -/
def placeRange (piece : AsRange) : List AsRange → List AsRange
  | [] => [piece]
  | current :: rest =>
      if current.first ≤ piece.first ∧ current.last ≥ piece.first then
        if current.first = piece.first ∧ current.last = piece.last then
          { current with owner := piece.owner } :: rest
        else if current.first = piece.first then
          piece :: { current with first := addPaddr piece.last 1 } :: rest
        else if current.last ≠ piece.last then
          { current with last := subPaddr piece.first 1 } :: piece ::
            ⟨addPaddr piece.last 1, current.last, current.owner⟩ :: rest
        else { current with last := subPaddr piece.first 1 } :: piece :: rest
      else current :: placeRange piece rest

/-- The part of an entry inside a range. -/
def AsinfoEntry.clip (entry : AsinfoEntry) (start stop owner : Nat) : AsRange :=
  ⟨max start entry.start, min stop entry.stop, owner⟩

/-- The outer loop of `as_add_containing`: the ranges under each matching owner. -/
def collectRanges (table : List AsinfoEntry) (start stop : Nat) (container : String) :
    (fuel : Nat) → Option Nat → List AsRange → Result (List AsRange)
  | 0, _, _ => .error .stuck
  | fuel + 1, owner, ranges =>
      match asFindContaining table owner start stop container with
      | none => .ok ranges
      | some owner =>
          match table[owner]? with
          | none => .error .stuck
          | some entry =>
              collectRanges table start stop container fuel (some owner)
                (placeRange (entry.clip start stop owner) ranges)

/-- The second loop of `as_add_containing`: add the ranges that are not empty. -/
def addRanges (attr : AsAttr) (name : String) :
    List AsRange → List AsinfoEntry → (off : Nat) → (startOff : Option Nat) →
      List AsinfoEntry × Nat × Option Nat
  | [], table, off, startOff => (table, off, startOff)
  | range :: rest, table, off, startOff =>
      if range.first ≤ range.last then
        let (table, off) := asAdd table range.first range.last attr name (some range.owner)
        addRanges attr name rest table off (startOff.or (some off))
      else addRanges attr name rest table off startOff

/-- The loop of `as_add_containing` that overlays the added entries. -/
def overlayRanges (attr : AsAttr) (name : String) :
    (fuel : Nat) → List AsinfoEntry → (off : Nat) → List AsinfoEntry
  | 0, table, _ => table
  | fuel + 1, table, off =>
      match table[off]? with
      | none => table
      | some entry =>
          let table := (asAdd table entry.start entry.stop attr name (some off)).1
          if entry.attr.continued then overlayRanges attr name fuel table (off + 1) else table

/-- `as_add_containing`: the new table and the offset of the first entry added. -/
def asAddContaining (table : List AsinfoEntry) (start stop : Nat) (attr : AsAttr)
    (name container : String) : Result (List AsinfoEntry × Option Nat) :=
  match collectRanges table start stop container (table.length + 1) none [] with
  | .error halt => .error halt
  | .ok ranges =>
      let pieceAttr := { attr with overlayIo := false, continued := true }
      let (table, off, startOff) := addRanges pieceAttr name ranges table 0 none
      match startOff with
      | none => .ok (table, none)
      | some startOff =>
          let table := table.modify off fun entry => { entry with attr.continued := false }
          if attr.overlayIo then
            .ok (overlayRanges { attr with overlayIo := false } name table.length table startOff,
              some startOff)
          else .ok (table, some startOff)

/-! ## Names, owners and ranges -/

/-- The addresses of an entry. -/
def AsinfoEntry.range (entry : AsinfoEntry) : Set Nat := Set.Icc entry.start entry.stop

/-- The addresses of the entry at an offset. -/
def rangeAt (table : List AsinfoEntry) (off : Nat) : Set Nat :=
  match table[off]? with
  | none => ∅
  | some entry => entry.range

/-- The entry at an offset has a name, or one of its ancestors has. -/
inductive Named (table : List AsinfoEntry) (name : String) : Nat → Prop
  | own {off : Nat} {entry : AsinfoEntry} (at_off : table[off]? = some entry)
      (same : entry.name = name) : Named table name off
  | inherited {off owner : Nat} {entry : AsinfoEntry} (at_off : table[off]? = some entry)
      (owned : entry.owner = some owner) (above : Named table name owner) : Named table name off

/-- Every entry was added under an owner that was in the table before it. -/
def OwnersFirst (table : List AsinfoEntry) : Prop :=
  ∀ (off : Nat) (entry : AsinfoEntry) (owner : Nat),
    table[off]? = some entry → entry.owner = some owner → owner < off

/-- Every range is a nonempty range of 64-bit addresses. -/
def ProperRanges (table : List AsinfoEntry) : Prop :=
  ∀ entry ∈ table, entry.start ≤ entry.stop ∧ entry.stop < 2 ^ 64

variable {table : List AsinfoEntry} {name : String}

theorem Named.lt_length {off : Nat} (named : Named table name off) : off < table.length := by
  cases named with
  | own at_off _ => exact (List.getElem?_eq_some_iff.mp at_off).1
  | inherited at_off _ _ => exact (List.getElem?_eq_some_iff.mp at_off).1

/-- `match_name` decides whether an entry or one of its ancestors has the name. -/
theorem matchName_iff (ownersFirst : OwnersFirst table) {fuel off : Nat} (enough : off < fuel) :
    matchName table name fuel off = true ↔ Named table name off := by
  induction fuel generalizing off with
  | zero => exact (Nat.not_lt_zero _ enough).elim
  | succ fuel ih =>
      cases found : table[off]? with
      | none =>
          simp only [matchName, found, Bool.false_eq_true, false_iff]
          intro named
          exact (List.getElem?_eq_none_iff.mp found).not_gt named.lt_length
      | some entry =>
          by_cases same : entry.name = name
          · simp only [matchName, found, same, ↓reduceIte, true_iff]
            exact .own found same
          · cases owned : entry.owner with
            | none =>
                simp only [matchName, found, same, owned, ↓reduceIte, Bool.false_eq_true, false_iff]
                intro named
                cases named with
                | own at_off isName =>
                    rw [found] at at_off
                    exact same (Option.some.inj at_off ▸ isName)
                | inherited at_off isOwner _ =>
                    rw [found] at at_off
                    rw [← Option.some.inj at_off, owned] at isOwner
                    cases isOwner
            | some owner =>
                have earlier := ownersFirst off entry owner found owned
                simp only [matchName, found, same, owned, ↓reduceIte]
                rw [ih (by omega)]
                constructor
                · intro above
                  exact .inherited found owned above
                · intro named
                  cases named with
                  | own at_off isName =>
                      rw [found] at at_off
                      exact (same (Option.some.inj at_off ▸ isName)).elim
                  | inherited at_off isOwner above =>
                      rw [found] at at_off
                      rw [← Option.some.inj at_off, owned] at isOwner
                      rw [Option.some.inj isOwner]
                      exact above

/-- The addresses of the entries with a name, their own or an ancestor's. -/
def contained (table : List AsinfoEntry) (name : String) : Set Nat :=
  {address | ∃ off, Named table name off ∧ address ∈ rangeAt table off}

/-- What decides the names of an entry. -/
def AsinfoEntry.label (entry : AsinfoEntry) : Option Nat × String := (entry.owner, entry.name)

/-- Names depend on the owners and the entries' own names only. -/
theorem Named.of_labels {left right : List AsinfoEntry}
    (same : left.map AsinfoEntry.label = right.map AsinfoEntry.label) {off : Nat}
    (named : Named left name off) : Named right name off := by
  have entry : ∀ {off : Nat} {entry : AsinfoEntry}, left[off]? = some entry →
      ∃ other, right[off]? = some other ∧ other.label = entry.label := by
    intro off entry at_off
    have mapped := congrArg (fun labels => labels[off]?) same
    simp only [List.getElem?_map, at_off, Option.map_some] at mapped
    exact Option.map_eq_some_iff.mp mapped.symm
  induction named with
  | own at_off isName =>
      obtain ⟨other, isOther, labels⟩ := entry at_off
      exact .own isOther ((congrArg Prod.snd labels).trans isName)
  | inherited at_off isOwner _ ih =>
      obtain ⟨other, isOther, labels⟩ := entry at_off
      exact .inherited isOther ((congrArg Prod.fst labels).trans isOwner) ih

/-- An entry without its `AS_ATTR_KIDS` flag. -/
def AsinfoEntry.forgetKids (entry : AsinfoEntry) : AsinfoEntry :=
  { entry with attr.kids := false }

/-- Entries equal but for their kids flags have the same range, owner and name. -/
theorem AsinfoEntry.fields_eq {left right : AsinfoEntry}
    (same : left.forgetKids = right.forgetKids) :
    left.start = right.start ∧ left.stop = right.stop ∧ left.owner = right.owner ∧
      left.name = right.name := by
  unfold forgetKids at same
  injection same with start stop owner name _
  exact ⟨start, stop, owner, name⟩

/-- Two tables that differ in `AS_ATTR_KIDS` only. -/
def SameButKids (left right : List AsinfoEntry) : Prop :=
  left.map AsinfoEntry.forgetKids = right.map AsinfoEntry.forgetKids

theorem map_forgetKids_markKids (owner : Option Nat) (table : List AsinfoEntry) :
    (markKids owner table).map AsinfoEntry.forgetKids = table.map AsinfoEntry.forgetKids := by
  cases owner with
  | none => rfl
  | some off =>
      refine List.ext_getElem? fun slot => ?_
      simp only [markKids, List.getElem?_map, List.getElem?_modify]
      cases table[slot]? with
      | none => rfl
      | some entry =>
          by_cases here : off = slot
          · simp [here, AsinfoEntry.forgetKids]
          · simp [here]

@[simp] theorem length_markKids (owner : Option Nat) (table : List AsinfoEntry) :
    (markKids owner table).length = table.length := by
  cases owner with
  | none => rfl
  | some off => exact List.length_modify _ _ _

@[simp] theorem length_asAppend (table : List AsinfoEntry) (start stop : Nat) (attr : AsAttr)
    (name : String) (owner : Option Nat) :
    (asAppend table start stop attr name owner).length = table.length + 1 := by
  rw [asAppend, length_markKids, List.length_append, List.length_singleton]

theorem map_forgetKids_asAppend (table : List AsinfoEntry) (start stop : Nat) (attr : AsAttr)
    (name : String) (owner : Option Nat) :
    (asAppend table start stop attr name owner).map AsinfoEntry.forgetKids =
      table.map AsinfoEntry.forgetKids ++
        [(⟨start, stop, owner, name, attr.stored⟩ : AsinfoEntry).forgetKids] := by
  rw [asAppend, map_forgetKids_markKids, List.map_append, List.map_singleton]

/-- Without an overlay `as_add` appends one entry. -/
theorem asAdd_of_not_overlay {attr : AsAttr} (plain : attr.overlayIo = false)
    (table : List AsinfoEntry) (start stop : Nat) (name : String) (owner : Option Nat) :
    asAdd table start stop attr name owner =
      (asAppend table start stop attr name owner, table.length) := by
  simp only [asAdd, plain, Bool.false_eq_true, ↓reduceIte]

/-- A change of an entry that keeps apart from the kids flag maps over the table. -/
theorem map_forgetKids_modify {change : AsinfoEntry → AsinfoEntry}
    (apart : ∀ entry, (change entry).forgetKids = change entry.forgetKids)
    (table : List AsinfoEntry) (off : Nat) :
    (table.modify off change).map AsinfoEntry.forgetKids =
      (table.map AsinfoEntry.forgetKids).modify off change := by
  refine List.ext_getElem? fun slot => ?_
  simp only [List.getElem?_map, List.getElem?_modify]
  cases table[slot]? with
  | none => rfl
  | some entry =>
      by_cases here : off = slot
      · simp [here, apart]
      · simp [here]

namespace SameButKids

variable {left right : List AsinfoEntry}

theorem getElem? (same : SameButKids left right) (off : Nat) :
    left[off]?.map AsinfoEntry.forgetKids = right[off]?.map AsinfoEntry.forgetKids := by
  rw [← List.getElem?_map, ← List.getElem?_map, same]

theorem length_eq (same : SameButKids left right) : left.length = right.length := by
  have lengths := congrArg List.length same
  rwa [List.length_map, List.length_map] at lengths

/-- An entry of one table has the same fields, its kids flag apart, in the other. -/
theorem entry (same : SameButKids left right) {off : Nat} {entry : AsinfoEntry}
    (at_off : left[off]? = some entry) :
    ∃ other, right[off]? = some other ∧ other.forgetKids = entry.forgetKids := by
  have mapped := same.getElem? off
  rw [at_off, Option.map_some] at mapped
  obtain ⟨other, isOther, forgotten⟩ := Option.map_eq_some_iff.mp mapped.symm
  exact ⟨other, isOther, forgotten⟩

theorem rangeAt_eq (same : SameButKids left right) (off : Nat) :
    rangeAt left off = rangeAt right off := by
  have mapped := same.getElem? off
  unfold rangeAt
  cases inLeft : left[off]? with
  | none =>
      rw [inLeft, Option.map_none] at mapped
      rw [Option.map_eq_none_iff.mp mapped.symm]
  | some entry =>
      obtain ⟨other, isOther, forgotten⟩ := same.entry inLeft
      rw [isOther]
      obtain ⟨start, stop, _, _⟩ := AsinfoEntry.fields_eq forgotten
      simp only [AsinfoEntry.range, start, stop]

theorem labels (same : SameButKids left right) :
    left.map AsinfoEntry.label = right.map AsinfoEntry.label := by
  have mapped := congrArg (List.map AsinfoEntry.label) same
  rwa [List.map_map, List.map_map] at mapped

theorem named (same : SameButKids left right) {off : Nat} (named : Named left name off) :
    Named right name off :=
  named.of_labels same.labels

theorem symm (same : SameButKids left right) : SameButKids right left :=
  Eq.symm same

theorem named_iff (same : SameButKids left right) {off : Nat} :
    Named left name off ↔ Named right name off :=
  ⟨same.named, same.symm.named⟩

theorem contained_eq (same : SameButKids left right) (name : String) :
    contained left name = contained right name := by
  ext address
  simp only [contained, same.named_iff, same.rangeAt_eq]

theorem ownersFirst (same : SameButKids left right) (ownersFirst : OwnersFirst left) :
    OwnersFirst right := by
  intro off entry owner at_off owned
  obtain ⟨other, isOther, forgotten⟩ := same.symm.entry at_off
  obtain ⟨_, _, sameOwner, _⟩ := AsinfoEntry.fields_eq forgotten
  exact ownersFirst off other owner isOther (sameOwner.trans owned)

theorem properRanges (same : SameButKids left right) (proper : ProperRanges left) :
    ProperRanges right := by
  intro entry member
  obtain ⟨off, at_off⟩ := List.getElem?_of_mem member
  obtain ⟨other, isOther, forgotten⟩ := same.symm.entry at_off
  obtain ⟨start, stop, _, _⟩ := AsinfoEntry.fields_eq forgotten
  rw [← start, ← stop]
  exact proper other (List.mem_of_getElem? isOther)

end SameButKids

/-! ## Appending entries -/

variable {added : List AsinfoEntry}

theorem rangeAt_append_of_lt {off : Nat} (old : off < table.length) :
    rangeAt (table ++ added) off = rangeAt table off := by
  simp only [rangeAt, List.getElem?_append_left old]

theorem rangeAt_append_of_mem {slot : Nat} {entry : AsinfoEntry}
    (at_slot : added[slot]? = some entry) :
    rangeAt (table ++ added) (table.length + slot) = entry.range := by
  simp only [rangeAt, List.getElem?_append_right (Nat.le_add_right _ _), Nat.add_sub_cancel_left,
    at_slot]

/-- New entries do not change the names of the entries before them. -/
theorem named_append_of_lt (ownersFirst : OwnersFirst table) {off : Nat}
    (old : off < table.length) : Named (table ++ added) name off ↔ Named table name off := by
  constructor
  · intro named
    induction named with
    | own at_off isName =>
        rw [List.getElem?_append_left old] at at_off
        exact .own at_off isName
    | inherited at_off isOwner _ ih =>
        rw [List.getElem?_append_left old] at at_off
        exact .inherited at_off isOwner (ih ((ownersFirst _ _ _ at_off isOwner).trans old))
  · intro named
    induction named with
    | own at_off isName => exact .own (List.getElem?_append_left old ▸ at_off) isName
    | inherited at_off isOwner _ ih =>
        exact .inherited (List.getElem?_append_left old ▸ at_off) isOwner
          (ih ((ownersFirst _ _ _ at_off isOwner).trans old))

/-- A new entry has its own name and the names of its owner. -/
theorem named_append_of_mem (ownersFirst : OwnersFirst table) {slot : Nat} {entry : AsinfoEntry}
    (at_slot : added[slot]? = some entry)
    (before : ∀ owner, entry.owner = some owner → owner < table.length) :
    Named (table ++ added) name (table.length + slot) ↔
      entry.name = name ∨ ∃ owner, entry.owner = some owner ∧ Named table name owner := by
  have at_off : (table ++ added)[table.length + slot]? = some entry := by
    rw [List.getElem?_append_right (Nat.le_add_right _ _), Nat.add_sub_cancel_left, at_slot]
  constructor
  · intro named
    cases named with
    | own found isName =>
        rw [at_off] at found
        exact Or.inl (Option.some.inj found ▸ isName)
    | inherited found owned above =>
        rw [at_off] at found
        rw [← Option.some.inj found] at owned
        exact Or.inr ⟨_, owned, (named_append_of_lt ownersFirst (before _ owned)).mp above⟩
  · rintro (isName | ⟨owner, isOwner, above⟩)
    · exact .own at_off isName
    · exact .inherited at_off isOwner
        ((named_append_of_lt ownersFirst (before owner isOwner)).mpr above)

/-- New entries add the addresses of those of them that have the name. -/
theorem mem_contained_append (ownersFirst : OwnersFirst table)
    (before : ∀ entry ∈ added, ∀ owner, entry.owner = some owner → owner < table.length)
    {address : Nat} :
    address ∈ contained (table ++ added) name ↔ address ∈ contained table name ∨
      ∃ entry ∈ added, (entry.name = name ∨
        ∃ owner, entry.owner = some owner ∧ Named table name owner) ∧ address ∈ entry.range := by
  constructor
  · rintro ⟨off, named, inside⟩
    by_cases old : off < table.length
    · rw [rangeAt_append_of_lt old] at inside
      exact Or.inl ⟨off, (named_append_of_lt ownersFirst old).mp named, inside⟩
    · obtain ⟨slot, rfl⟩ := Nat.exists_eq_add_of_le (Nat.le_of_not_lt old)
      have below : slot < added.length := by
        have := named.lt_length
        rw [List.length_append] at this
        omega
      have at_slot : added[slot]? = some added[slot] := List.getElem?_eq_getElem below
      have member := List.getElem_mem below
      rw [rangeAt_append_of_mem at_slot] at inside
      exact Or.inr ⟨added[slot], member,
        (named_append_of_mem ownersFirst at_slot (before _ member)).mp named, inside⟩
  · rintro (⟨off, named, inside⟩ | ⟨entry, member, named, inside⟩)
    · have old := named.lt_length
      exact ⟨off, (named_append_of_lt ownersFirst old).mpr named,
        (rangeAt_append_of_lt old).symm ▸ inside⟩
    · obtain ⟨slot, at_slot⟩ := List.getElem?_of_mem member
      exact ⟨table.length + slot,
        (named_append_of_mem ownersFirst at_slot (before entry member)).mpr named,
        (rangeAt_append_of_mem at_slot).symm ▸ inside⟩

/-- Appending entries owned by entries of the table keeps owners first. -/
theorem OwnersFirst.append (ownersFirst : OwnersFirst table)
    (before : ∀ entry ∈ added, ∀ owner, entry.owner = some owner → owner < table.length) :
    OwnersFirst (table ++ added) := by
  intro off entry owner at_off isOwner
  by_cases old : off < table.length
  · rw [List.getElem?_append_left old] at at_off
    exact ownersFirst off entry owner at_off isOwner
  · rw [List.getElem?_append_right (Nat.le_of_not_lt old)] at at_off
    have inTable := before entry (List.mem_of_getElem? at_off) owner isOwner
    omega

theorem ProperRanges.append (proper : ProperRanges table)
    (new : ∀ entry ∈ added, entry.start ≤ entry.stop ∧ entry.stop < 2 ^ 64) :
    ProperRanges (table ++ added) := by
  intro entry member
  rcases List.mem_append.mp member with old | isNew
  · exact proper entry old
  · exact new entry isNew

end Bcm2711.Startup
