import Bcm2711.Startup.AsinfoContaining

/-! # What the entries with a name cover

A call of `as_add_containing` adds what the container has of the range to the addresses of its
name, be the range empty or not.
-/

namespace Bcm2711.Startup

variable {table : List AsinfoEntry} {container name : String} {start stop : Nat}

/-- The addresses of the entries with a name of their own. -/
def namedRange (table : List AsinfoEntry) (name : String) : Set Nat :=
  {address | ∃ entry ∈ table, entry.name = name ∧ address ∈ entry.range}

/-- Owners first, proper ranges. -/
structure SoundTable (table : List AsinfoEntry) : Prop where
  ownersFirst : OwnersFirst table
  proper : ProperRanges table

theorem SameButKids.namedRange_subset {left right : List AsinfoEntry}
    (same : SameButKids left right) (name : String) :
    namedRange left name ⊆ namedRange right name := by
  rintro address ⟨entry, member, named, inside⟩
  obtain ⟨off, at_off⟩ := List.getElem?_of_mem member
  obtain ⟨other, isOther, forgotten⟩ := same.entry at_off
  obtain ⟨start, stop, _, sameName⟩ := AsinfoEntry.fields_eq forgotten
  refine ⟨other, List.mem_of_getElem? isOther, sameName.trans named, ?_⟩
  rw [AsinfoEntry.range, start, stop]
  exact inside

theorem SameButKids.namedRange_eq {left right : List AsinfoEntry}
    (same : SameButKids left right) (name : String) :
    namedRange left name = namedRange right name :=
  Set.Subset.antisymm (same.namedRange_subset name) (same.symm.namedRange_subset name)

theorem namedRange_append (front back : List AsinfoEntry) (name : String) :
    namedRange (front ++ back) name = namedRange front name ∪ namedRange back name := by
  ext address
  simp only [namedRange, List.mem_append, or_and_right, exists_or, Set.mem_ofPred_eq, Set.mem_union]

/-- What a call adds to the addresses of a name. -/
def addedRange (table : List AsinfoEntry) (container name : String) (start stop : Nat)
    (other : String) : Set Nat :=
  {address | name = other ∧ address ∈ Set.Icc start stop ∧ address ∈ contained table container}

namespace Partition

variable {attr : AsAttr} {added : List AsinfoEntry}

theorem namedRange_eq (partition : Partition table start stop attr name container added)
    (other : String) :
    namedRange added other = addedRange table container name start stop other := by
  ext address
  constructor
  · rintro ⟨entry, member, named, inside⟩
    exact ⟨(partition.labelled entry member).1.symm.trans named,
      (partition.covered address).mp ⟨entry, member, inside⟩⟩
  · rintro ⟨rfl, covered⟩
    obtain ⟨entry, member, inside⟩ := (partition.covered address).mpr covered
    exact ⟨entry, member, (partition.labelled entry member).1, inside⟩

/-- The new entries are under a name that they have themselves or in what is under it before. -/
theorem contained_append (partition : Partition table start stop attr name container added)
    (ownersFirst : OwnersFirst table) (other : String) :
    contained (table ++ added) other =
      contained table other ∪ addedRange table container name start stop other := by
  ext address
  rw [mem_contained_append ownersFirst partition.owner_lt, Set.mem_union,
    ← partition.namedRange_eq other]
  constructor
  · rintro (old | ⟨entry, member, own | ⟨owner, isOwner, above⟩, inside⟩)
    · exact Or.inl old
    · exact Or.inr ⟨entry, member, own, inside⟩
    · obtain ⟨found, isFound, _, within, _⟩ := partition.owned entry member
      rw [isFound] at isOwner
      rw [Option.some.inj isOwner] at within
      exact Or.inl ⟨owner, above, within inside⟩
  · rintro (old | ⟨entry, member, own, inside⟩)
    · exact Or.inl old
    · exact Or.inr ⟨entry, member, Or.inl own, inside⟩

/-- Entries beside what is under their name keep that laminar. -/
theorem laminar_append (partition : Partition table start stop attr name container added)
    (ownersFirst : OwnersFirst table) (laminar : Laminar table name)
    (beside : Disjoint (Set.Icc start stop) (contained table name)) :
    Laminar (table ++ added) name := by
  intro earlier later order namedEarlier namedLater
  by_cases old : later < table.length
  · have older : earlier < table.length := order.trans old
    rw [rangeAt_append_of_lt old, rangeAt_append_of_lt older]
    exact laminar earlier later order ((named_append_of_lt ownersFirst older).mp namedEarlier)
      ((named_append_of_lt ownersFirst old).mp namedLater)
  · right
    obtain ⟨slot, rfl⟩ := Nat.exists_eq_add_of_le (Nat.le_of_not_lt old)
    have below := namedLater.lt_length
    rw [List.length_append] at below
    have inside : slot < added.length := by omega
    have at_slot : added[slot]? = some added[slot] := List.getElem?_eq_getElem inside
    rw [rangeAt_append_of_mem at_slot]
    by_cases older : earlier < table.length
    · rw [rangeAt_append_of_lt older]
      refine Set.disjoint_of_subset ?_ ?_ beside
      · intro address member
        exact ((partition.covered address).mp ⟨_, List.getElem_mem inside, member⟩).1
      · intro address member
        exact ⟨earlier, (named_append_of_lt ownersFirst older).mp namedEarlier, member⟩
    · obtain ⟨first, rfl⟩ := Nat.exists_eq_add_of_le (Nat.le_of_not_lt older)
      have before : first < added.length := by omega
      have at_first : added[first]? = some added[first] := List.getElem?_eq_getElem before
      rw [rangeAt_append_of_mem at_first]
      exact (List.pairwise_iff_getElem.mp partition.apart first slot before inside
        (by omega)).symm

end Partition

/-- The table behind a call: sound, laminar in the container, with what is added to each name. -/
structure AddedUnder (table : List AsinfoEntry) (container name : String) (start stop : Nat)
    (result : List AsinfoEntry) : Prop where
  sound : SoundTable result
  laminar : Laminar result container
  named : ∀ other, namedRange result other =
    namedRange table other ∪ addedRange table container name start stop other
  contained : ∀ other, contained result other =
    contained table other ∪ addedRange table container name start stop other
  /-- The name stays laminar when the range is beside it. -/
  beside : Laminar table name → Disjoint (Set.Icc start stop) (Startup.contained table name) →
    Laminar result name

/-- **A call adds to a name what the container has of the range.** -/
theorem asAddContaining_added (sound : SoundTable table) (laminar : Laminar table container)
    (start : Nat) (fits : stop < 2 ^ 64) (name : String) :
    ∃ result off, asAddContaining table start stop asAttrRam name container =
        .ok (result, off) ∧ AddedUnder table container name start stop result := by
  obtain ⟨ownersFirst, proper⟩ := sound
  by_cases order : start ≤ stop
  · obtain ⟨result, added, run, same, partition⟩ :=
      asAddContaining_eq ownersFirst proper laminar order fits asAttrRam_plain name
    obtain ⟨stillFirst, stillProper, stillLaminar⟩ :=
      partition.wellFormed ownersFirst proper laminar fits
    refine ⟨result, _, run, ⟨same.symm.ownersFirst stillFirst, same.symm.properRanges stillProper⟩,
      same.symm.laminar stillLaminar, ?_, ?_, ?_⟩
    · intro other
      rw [same.namedRange_eq, namedRange_append, partition.namedRange_eq]
    · intro other
      rw [same.contained_eq, partition.contained_append ownersFirst]
    · exact fun before beside =>
        same.symm.laminar (partition.laminar_append ownersFirst before beside)
  · have empty : ∀ other, addedRange table container name start stop other = ∅ := by
      intro other
      rw [Set.eq_empty_iff_forall_notMem]
      rintro address ⟨-, inside, -⟩
      exact order (inside.1.trans inside.2)
    refine ⟨table, none, asAddContaining_of_backward ownersFirst (Nat.lt_of_not_le order) name,
      ⟨ownersFirst, proper⟩, laminar, ?_, ?_, fun before _ => before⟩
    · intro other
      rw [empty, Set.union_empty]
    · intro other
      rw [empty, Set.union_empty]

end Bcm2711.Startup
