import Bcm2711.Startup.HwinfoTags

/-! # Allocating tags and items

An allocation aligns the end of the tags, with a pad tag where that takes one, and places the
tag there.  It keeps the chain whole as long as no tag has grown: the end of the tags is not
moved when one grows, so that the next tag would be placed over it.
-/

namespace Bcm2711.Startup

open Blocks Fallible

variable {layout : HwiLayout}

/-- The section holds these items, counts the children among some of them, and the end of the
tags is this much behind. -/
structure HwiInv (layout : HwiLayout) (hwi : Hwinfo) (items counted : List HwiItem)
    (grown : Nat) : Prop where
  holds : hwi.Holds layout items
  counts : hwi.Counts layout items counted
  owners : ∀ item ∈ items, item.owner = layout.nullOff ∨
    ∃ parent ∈ items, parent.head.start = layout.off2tag item.owner
  zeros : ∀ place, stop items ≤ place → place < hwi.size → hwi.data place = 0
  room : stop items + layout.prefixSize ≤ hwi.size
  offset : hwi.offset + grown = stop items
  lastItem : ∀ front last, items = front ++ [last] → hwi.lastItem = last.head.start

section Step

variable {hwi after : Hwinfo} {items front counted : List HwiItem} {last : HwiItem}

theorem HwiInv.clear (inv : HwiInv layout hwi items counted 0) : hwi.Clear := by
  have ends : hwi.offset = stop items := inv.offset
  have room := inv.room
  refine ⟨by omega, fun place above below => inv.zeros place ?_ below⟩
  rwa [← ends]

/-- The extent of the last item, by the statics. -/
theorem HwiInv.extent {grown : Nat} (inv : HwiInv layout hwi (front ++ [last]) counted grown) :
    last.extent.size = hwi.offset + grown - hwi.lastItem := by
  have start := inv.holds.arranged.last_start
  have ends := inv.offset
  rw [inv.lastItem front last rfl, start, ends, stop_append, stop_singleton,
    Nat.add_sub_cancel_left]

/-- An item that is at the same place in another list, with the same owner. -/
theorem exists_twin {source target : List HwiItem}
    (same : target.map (fun item => (item.head.start, item.owner)) =
      source.map fun item => (item.head.start, item.owner)) {item : HwiItem}
    (member : item ∈ target) :
    ∃ twin ∈ source, twin.head.start = item.head.start ∧ twin.owner = item.owner := by
  have inMap :=
    List.mem_map_of_mem (f := fun item : HwiItem => (item.head.start, item.owner)) member
  rw [same] at inMap
  obtain ⟨twin, twinMember, equal⟩ := List.mem_map.mp inMap
  exact ⟨twin, twinMember, (Prod.mk.inj equal).1, (Prod.mk.inj equal).2⟩

/-- Owners stay where they are when items keep their places. -/
theorem owners_map {items more : List HwiItem}
    (same : more.map (fun item => (item.head.start, item.owner)) =
      items.map fun item => (item.head.start, item.owner))
    (owners : ∀ item ∈ items, item.owner = layout.nullOff ∨
      ∃ parent ∈ items, parent.head.start = layout.off2tag item.owner) :
    ∀ item ∈ more, item.owner = layout.nullOff ∨
      ∃ parent ∈ more, parent.head.start = layout.off2tag item.owner := by
  intro item member
  obtain ⟨twin, twinMember, _, sameOwner⟩ := exists_twin same member
  rcases owners twin twinMember with none | ⟨parent, parentMember, isParent⟩
  · exact .inl (sameOwner.symm.trans none)
  · obtain ⟨other, otherMember, sameStart, _⟩ := exists_twin same.symm parentMember
    right
    refine ⟨other, otherMember, ?_⟩
    rw [sameStart, isParent, sameOwner]

/-- Pad tags change neither the places of the items nor their owners. -/
theorem places_of_withoutPads {items more : List HwiItem}
    (same : more.map HwiItem.withoutPads = items.map HwiItem.withoutPads) :
    more.map (fun item => (item.head.start, item.owner)) =
      items.map fun item => (item.head.start, item.owner) := by
  have mapped := congrArg (List.map fun item : HwiItem => (item.head.start, item.owner)) same
  rw [List.map_map, List.map_map] at mapped
  exact mapped

/-- Placing a tag behind the last item. -/
theorem HwiInv.placeTag (inv : HwiInv layout hwi (front ++ [last]) (front ++ [last]) 0)
    {name : AddedString}
    {size align place : Nat} {isPad : Bool} (words : 4 ∣ size ∧ layout.prefixSize ≤ size)
    (aligned : align ∣ hwi.offset) (small : hwi.size + size + 256 < 2 ^ 32)
    (fits : hwi.offset - hwi.lastItem + size < 4 * 256 ^ layout.fieldBytes)
    (padSize : isPad = true → size = layout.padSize)
    (ran : placeTag layout hwi name size = .ok (after, place)) :
    place = hwi.offset ∧ after.lastItem = hwi.lastItem ∧ after.offset = hwi.offset + size ∧
      after.size ≤ hwi.size + size + 140 ∧
      HwiInv layout after (front ++ [last.withTag ⟨hwi.offset, size, align, isPad⟩])
        (front ++ [last.withTag ⟨hwi.offset, size, align, isPad⟩]) 0 := by
  let tag : HwiTag := ⟨hwi.offset, size, align, isPad⟩
  have ends : hwi.offset = stop (front ++ [last]) := inv.offset
  have sound : tag.Sound layout := ⟨words, aligned, padSize⟩
  have arranged := inv.holds.arranged.withTag ends sound
  have tags := allTags_withTag front last tag
  have isStop : stop (front ++ [last.withTag tag]) = hwi.offset + size := by
    rw [stop_withTag, ← ends]
  have isLast := inv.lastItem front last rfl
  have hasItem : HasField layout (front ++ [last.withTag tag]) hwi.lastItem .itemsize := by
    rw [isLast]
    exact arranged.itemField (List.mem_append_right _ (List.mem_singleton_self _)) _
  have member : tag ∈ allTags (front ++ [last.withTag tag]) := by
    rw [tags]
    exact List.mem_append_right _ (List.mem_singleton_self _)
  obtain ⟨isPlace, placed⟩ := placeTag_ok arranged member rfl isStop hasItem inv.clear small ran
  have isExtent : last.extent.size = hwi.offset - hwi.lastItem := inv.extent
  rw [← isExtent] at fits
  have heads : (front ++ [last.withTag tag]).map (fun item => (item.head.start, item.owner)) =
      (front ++ [last]).map fun item => (item.head.start, item.owner) := by
    rw [List.map_append, List.map_append]
    rfl
  have sameOwners : (front ++ [last.withTag tag]).map HwiItem.owner =
      (front ++ [last]).map HwiItem.owner := by
    rw [List.map_append, List.map_append]
    rfl
  refine ⟨isPlace, placed.lastItem, placed.offset, placed.grew, ?_, ?_, ?_, ?_, ?_, ?_, ?_⟩
  · exact inv.holds.withTag ends isLast ends sound fits placed
  · have kept := placed.counts inv.holds.arranged tags ends inv.counts
    intro item itemMember
    rw [children_congr sameOwners]
    rw [List.mem_append, List.mem_singleton] at itemMember
    rcases itemMember with old | rfl
    · exact kept item (List.mem_append_left _ old)
    · exact kept last (List.mem_append_right _ (List.mem_singleton_self _))
  · exact owners_map heads inv.owners
  · intro byte above below
    exact placed.clear.zeros byte (by rw [placed.offset, ← isStop]; exact above) below
  · rw [isStop, ← placed.offset]
    exact placed.room
  · rw [isStop]
    exact placed.offset
  · intro others final same
    obtain ⟨-, isFinal⟩ := List.append_inj' same rfl
    rw [← List.singleton_inj.mp isFinal, placed.lastItem, isLast]
    rfl

/-- The gap `align_tag` sees, for alignments of four or eight. -/
theorem alignGap_eq {offset align : Nat} (power : align = 4 ∨ align = 8)
    (small : offset + 8 < 2 ^ 32) : alignGap offset align = (align - offset % align) % align := by
  unfold alignGap
  rcases power with rfl | rfl
  · have rounded : ROUND offset (2 ^ 2) = (offset + (2 ^ 2 - 1)) / 2 ^ 2 * 2 ^ 2 :=
      Word.round_two_pow (by decide) (by omega)
    have rounded : ROUND offset 4 = (offset + (2 ^ 2 - 1)) / 2 ^ 2 * 2 ^ 2 := rounded
    rw [rounded, subPaddr_of_le (by omega) (by omega), Nat.mod_eq_of_lt (by omega)]
    omega
  · have rounded : ROUND offset (2 ^ 3) = (offset + (2 ^ 3 - 1)) / 2 ^ 3 * 2 ^ 3 :=
      Word.round_two_pow (by decide) (by omega)
    have rounded : ROUND offset 8 = (offset + (2 ^ 3 - 1)) / 2 ^ 3 * 2 ^ 3 := rounded
    rw [rounded, subPaddr_of_le (by omega) (by omega), Nat.mod_eq_of_lt (by omega)]
    omega

theorem four_dvd_total {blocks : List Block} (words : ∀ block ∈ blocks, 4 ∣ block.size) :
    4 ∣ total blocks := by
  refine List.dvd_sum fun size member => ?_
  obtain ⟨block, inBlocks, rfl⟩ := List.mem_map.mp member
  exact words block inBlocks

/-- The tags end at a word. -/
theorem Arranged.four_dvd_stop (arranged : Arranged layout items) : 4 ∣ stop items := by
  refine four_dvd_total fun block member => ?_
  obtain ⟨tag, inTags, rfl⟩ := List.mem_map.mp member
  exact (arranged.words tag inTags).1

/-- What `align_tag` leaves: the end aligned, behind a pad tag where it was not. -/
structure Aligned (layout : HwiLayout) (before after : Hwinfo) (items : List HwiItem)
    (align : Nat) (padded : List HwiItem) : Prop where
  inv : HwiInv layout after padded padded 0
  aligned : align ∣ after.offset
  same : padded.map HwiItem.withoutPads = items.map HwiItem.withoutPads
  lastItem : after.lastItem = before.lastItem
  offset : after.offset = before.offset + (align - before.offset % align) % align
  grew : after.size ≤ before.size + 144

theorem withoutPads_withPad (item : HwiItem) {tag : HwiTag} (isPad : tag.isPad = true) :
    (item.withTag tag).withoutPads = item.withoutPads := by
  have dropped : (item.tags ++ [tag]).filter (fun other => !other.isPad) =
      item.tags.filter fun other => !other.isPad := by
    rw [List.filter_append]
    simp [isPad]
  simp only [HwiItem.withTag, HwiItem.withoutPads, dropped]

/-- `align_tag` on a section that holds items. -/
theorem alignTag_ok (inv : HwiInv layout hwi items items 0) {pad : AddedString} {align : Nat}
    (power : align = 4 ∨ align = 8) (small : hwi.size + 264 < 2 ^ 32)
    (fits : items ≠ [] → hwi.offset - hwi.lastItem + layout.padSize < 4 * 256 ^ layout.fieldBytes)
    (ran : alignTag layout hwi pad align = .ok after) :
    ∃ padded, Aligned layout hwi after items align padded := by
  have inside := inv.clear.inside
  have words := inv.holds.arranged.four_dvd_stop
  have ends : hwi.offset = stop items := inv.offset
  rw [← ends] at words
  unfold alignTag at ran
  rw [alignGap_eq power (by omega), layout.padAlign_four,
    alignGap_eq (.inl rfl) (by omega)] at ran
  split at ran
  · next gap =>
      rw [if_neg (by omega)] at ran
      obtain ⟨⟨_, place⟩, padPlaced, rest⟩ := bind_eq_ok.mp ran
      cases rest
      -- There is an item: without one the end is at zero, where no pad is needed.
      rcases List.eq_nil_or_concat' items with rfl | ⟨front, last, rfl⟩
      · have zero : hwi.offset = 0 := ends
        rw [zero] at gap
        rcases power with rfl | rfl <;> exact absurd rfl gap
      · have some := fits (by simp)
        have four := layout.pad_four
        have prefixFour := layout.prefix_four
        obtain ⟨-, lastItem, offset, grew, padInv⟩ :=
          @HwiInv.placeTag layout hwi after front last inv pad layout.padSize layout.padAlign place
            true (by omega) (by rw [layout.padAlign_four]; exact words) (by omega) some
            (fun _ => rfl) padPlaced
        have isOffset : after.offset =
            hwi.offset + (align - hwi.offset % align) % align := by
          rw [offset, four]
          rcases power with rfl | rfl
          · omega
          · omega
        refine ⟨_, padInv, ?_, ?_, lastItem, isOffset, by omega⟩
        · rw [offset, four]
          rcases power with rfl | rfl
          · omega
          · omega
        · rw [List.map_append, List.map_append, List.map_singleton, List.map_singleton,
            withoutPads_withPad last rfl]
  · next noGap =>
      cases ran
      rw [not_not] at noGap
      refine ⟨items, inv, ?_, rfl, rfl, by rw [noGap, Nat.add_zero], by omega⟩
      rcases power with rfl | rfl
      · omega
      · omega

theorem withoutPads_withTag (item : HwiItem) {tag : HwiTag} (notPad : tag.isPad = false) :
    (item.withTag tag).withoutPads = item.withoutPads.withTag tag := by
  have kept : (item.tags ++ [tag]).filter (fun other => !other.isPad) =
      (item.tags.filter fun other => !other.isPad) ++ [tag] := by
    rw [List.filter_append]
    simp [notPad]
  simp only [HwiItem.withTag, HwiItem.withoutPads, kept]

/-- What an allocation leaves: the tag at the next aligned place, behind all others. -/
structure Allocated (layout : HwiLayout) (before after : Hwinfo) (more : List HwiItem)
    (size align place : Nat) : Prop where
  inv : HwiInv layout after more more 0
  behind : place = before.offset + (align - before.offset % align) % align
  ends : after.offset = place + size
  grew : after.size ≤ before.size + size + 284
  last : ∃ front, allTags more = front ++ [⟨place, size, align, false⟩]

/-- `hwi_alloc_tag` on a section that holds items. -/
theorem hwiAllocTag_ok (inv : HwiInv layout hwi items items 0) (nonempty : items ≠ [])
    {name pad : AddedString} {size align place : Nat} (power : align = 4 ∨ align = 8)
    (words : 4 ∣ size ∧ layout.prefixSize ≤ size) (small : hwi.size + size + 512 < 2 ^ 32)
    (fits : hwi.offset - hwi.lastItem + layout.padSize + size < 4 * 256 ^ layout.fieldBytes)
    (ran : hwiAllocTag layout hwi name pad size align = .ok (after, place)) :
    ∃ more, Allocated layout hwi after more size align place ∧
      more.map HwiItem.withoutPads =
        (items.map HwiItem.withoutPads).modifyLast (·.withTag ⟨place, size, align, false⟩) := by
  obtain ⟨aligned, alignRan, placeRan⟩ := bind_eq_ok.mp ran
  obtain ⟨padded, isAligned⟩ := alignTag_ok inv power (by omega) (fun _ => by omega) alignRan
  have paddedNonempty : padded ≠ [] := by
    rintro rfl
    exact nonempty (List.map_eq_nil_iff.mp isAligned.same.symm)
  obtain ⟨front, last, rfl⟩ := (List.eq_nil_or_concat' padded).resolve_left paddedNonempty
  have four := layout.pad_four
  have offset := isAligned.offset
  have grew := isAligned.grew
  have lastItem := isAligned.lastItem
  have gap : (align - hwi.offset % align) % align ≤ 4 := by
    have stopWords := inv.holds.arranged.four_dvd_stop
    have ends : hwi.offset = stop items := inv.offset
    rcases power with rfl | rfl
    · omega
    · omega
  obtain ⟨rfl, -, placedEnds, placedGrew, placedInv⟩ :=
    @HwiInv.placeTag layout aligned after front last isAligned.inv name size align place false words
      isAligned.aligned (by omega) (by omega) (fun isPad => absurd isPad Bool.false_ne_true)
      placeRan
  refine ⟨_, ⟨placedInv, offset, placedEnds, by omega, _, allTags_withTag _ _ _⟩, ?_⟩
  rw [← isAligned.same, List.map_append, List.map_append, List.map_singleton, List.map_singleton,
    List.modifyLast_concat, withoutPads_withTag last rfl]

/-- Nobody names the end of the tags as an owner. -/
theorem children_stop (arranged : Arranged layout items)
    (owners : ∀ item ∈ items, item.owner = layout.nullOff ∨
      ∃ parent ∈ items, parent.head.start = layout.off2tag item.owner) :
    children layout items (stop items) = 0 := by
  refine List.countP_eq_zero.mpr fun item member counted => ?_
  obtain ⟨owned, isOwner⟩ := of_decide_eq_true counted
  rcases owners item member with none | ⟨parent, parentMember, isParent⟩
  · exact owned none
  · have before := arranged.start_lt (head_mem parentMember)
    omega

/-- Placing an item behind the others; its owner does not count it yet. -/
theorem HwiInv.placeItem (inv : HwiInv layout hwi items items 0) {name : AddedString}
    {size align place owner : Nat} (words : 4 ∣ size ∧ layout.prefixSize ≤ size)
    (isItem : layout.itemSize ≤ size) (aligned : align ∣ hwi.offset)
    (small : hwi.size + size + 256 < 2 ^ 32) (fits : size < 4 * 256 ^ layout.fieldBytes)
    (owned : owner = layout.nullOff ∨
      ∃ parent ∈ items, parent.head.start = layout.off2tag owner)
    (ran : Startup.placeTag layout { hwi with lastItem := hwi.offset } name size =
      .ok (after, place)) :
    place = hwi.offset ∧ after.offset = hwi.offset + size ∧
      after.size ≤ hwi.size + size + 140 ∧ HwiInv layout after
      (items ++ [⟨⟨hwi.offset, size, align, false⟩, owner, []⟩]) items 0 := by
  let tag : HwiTag := ⟨hwi.offset, size, align, false⟩
  let item : HwiItem := ⟨tag, owner, []⟩
  have ends : hwi.offset = stop items := inv.offset
  have sound : tag.Sound layout :=
    ⟨words, aligned, fun isPad => absurd isPad Bool.false_ne_true⟩
  have arranged := inv.holds.arranged.withItem ends sound rfl isItem owner
  have tags := allTags_withItem items tag owner
  have isExtent : item.extent.size = size := Nat.add_zero _
  have isStop : stop (items ++ [item]) = hwi.offset + size := by
    rw [stop_append, stop_singleton, isExtent, ends]
  have itemMember : item ∈ items ++ [item] := List.mem_append_right _ (List.mem_singleton_self _)
  let moved : Hwinfo := { hwi with lastItem := hwi.offset }
  have clear : moved.Clear := ⟨inv.clear.inside, inv.clear.zeros⟩
  have samePlaces : moved.Holds layout items :=
    ⟨inv.holds.arranged, inv.holds.sizes, inv.holds.extents⟩
  obtain ⟨isPlace, placed⟩ := @placeTag_ok layout _ arranged tag (head_mem itemMember) moved after
    name size place rfl isStop (arranged.itemField itemMember _) clear small ran
  refine ⟨isPlace, placed.offset, placed.grew, ?_, ?_, ?_, ?_, ?_, ?_, ?_⟩
  · exact samePlaces.withItem ends rfl ends sound rfl isItem fits placed
  · intro other member
    rw [List.mem_append, List.mem_singleton] at member
    rcases member with old | rfl
    · exact placed.counts inv.holds.arranged tags ends inv.counts other old
    · rw [placed.others _ _ (arranged.itemField itemMember _) (by simp) (by simp)]
      have none : children layout items item.head.start = 0 := by
        show children layout items hwi.offset = 0
        rw [ends]
        exact children_stop inv.holds.arranged inv.owners
      rw [none]
      exact written_zero _ (Nat.le_add_right _ _)
  · intro other member
    rw [List.mem_append, List.mem_singleton] at member
    have stillOwned : other.owner = layout.nullOff ∨
        ∃ parent ∈ items, parent.head.start = layout.off2tag other.owner := by
      rcases member with old | rfl
      · exact inv.owners other old
      · exact owned
    exact stillOwned.imp_right fun ⟨parent, parentMember, isParent⟩ =>
      ⟨parent, List.mem_append_left _ parentMember, isParent⟩
  · intro byte above below
    exact placed.clear.zeros byte (by rw [placed.offset, ← isStop]; exact above) below
  · rw [isStop]
    exact placed.offset ▸ placed.room
  · rw [isStop]
    exact placed.offset
  · intro others final same
    obtain ⟨-, isFinal⟩ := List.append_inj' same rfl
    rw [← List.singleton_inj.mp isFinal]
    exact placed.lastItem

/-- Zeros added to the section change nothing it holds. -/
theorem HwiInv.extends {grown added : Nat} (inv : HwiInv layout hwi items counted grown)
    (grew : Extends hwi after added) : HwiInv layout after items counted grown := by
  have arranged := inv.holds.arranged
  have room := inv.room
  have same : ∀ {place field}, HasField layout items place field →
      after.getField layout place field = hwi.getField layout place field := by
    intro place field isField
    have inside := arranged.field_inside isField
    exact Bytes.load_congr fun byte below => grew.kept _ (by omega)
  refine ⟨⟨arranged, fun tag member => ?_, fun item member => ?_⟩, fun item member => ?_,
    inv.owners, fun place above below => ?_, ?_, ?_, ?_⟩
  · rw [same (arranged.hasSize member)]
    exact inv.holds.sizes tag member
  · rw [same (arranged.itemField member _)]
    exact inv.holds.extents item member
  · rw [same (arranged.itemField member _)]
    exact inv.counts item member
  · by_cases inBefore : place < hwi.size
    · rw [grew.kept place inBefore, inv.zeros place above inBefore]
    · exact grew.zeros place (Nat.not_lt.mp inBefore) below
  · rw [grew.size]
    exact room.trans (Nat.le_add_right _ _)
  · rw [grew.offset]
    exact inv.offset
  · intro others final isLast
    rw [grew.lastItem]
    exact inv.lastItem others final isLast

/-- Assigning to a field that says neither a size nor a count. -/
theorem HwiInv.setField {grown other : Nat} {field : HwiField}
    (inv : HwiInv layout hwi items counted grown) (isOther : HasField layout items other field)
    (notSize : field ≠ .size) (notItemsize : field ≠ .itemsize) (notKids : field ≠ .kids)
    (value : Nat) : HwiInv layout (hwi.setField layout other field value) items counted grown := by
  refine ⟨inv.holds.setField isOther notSize notItemsize value,
    inv.counts.setField inv.holds.arranged isOther notKids value, inv.owners,
    fun place above below => ?_, inv.room, inv.offset, inv.lastItem⟩
  rw [inv.holds.arranged.setField_behind hwi isOther value above]
  exact inv.zeros place above below

/-- Counting a child of an item, by its owner field. -/
theorem HwiInv.child {grown : Nat} {child parent : HwiItem}
    (inv : HwiInv layout hwi items counted grown) (member : parent ∈ items)
    (owned : child.owner ≠ layout.nullOff)
    (isParent : parent.head.start = layout.off2tag child.owner)
    (fits : children layout counted (layout.off2tag child.owner) + 1 < 256 ^ layout.fieldBytes) :
    HwiInv layout (hwi.setField layout (layout.off2tag child.owner) .kids
      (hwi.getField layout (layout.off2tag child.owner) .kids + 1)) items (counted ++ [child])
      grown := by
  have isOther := inv.holds.arranged.itemField member .kids
  rw [isParent] at isOther
  refine ⟨inv.holds.setField isOther (by decide) (by decide) _,
    inv.counts.child inv.holds.arranged member owned isParent (isParent ▸ fits), inv.owners,
    fun place above below => ?_, inv.room, inv.offset, inv.lastItem⟩
  rw [inv.holds.arranged.setField_behind hwi isOther _ above]
  exact inv.zeros place above below

/-- An aligned section is left alone. -/
theorem alignTag_aligned {pad : AddedString} {align : Nat} (power : align = 4 ∨ align = 8)
    (small : hwi.offset + 8 < 2 ^ 32) (aligned : align ∣ hwi.offset) :
    alignTag layout hwi pad align = .ok hwi := by
  have noGap : alignGap hwi.offset align = 0 := by
    rw [alignGap_eq power small, Nat.mod_eq_zero_of_dvd aligned, Nat.sub_zero, Nat.mod_self]
  rw [alignTag, noGap, if_neg (not_not.mpr rfl)]

/-- An owner that may count one more child. -/
def OwnerFits (layout : HwiLayout) (items : List HwiItem) (owner : Nat) : Prop :=
  owner = layout.nullOff ∨ ∃ parent ∈ items, parent.head.start = layout.off2tag owner ∧
    children layout items (layout.off2tag owner) + 1 < 256 ^ layout.fieldBytes

theorem OwnerFits.congr {more : List HwiItem} {owner : Nat} (fits : OwnerFits layout items owner)
    (same : more.map (fun item => (item.head.start, item.owner)) =
      items.map fun item => (item.head.start, item.owner)) : OwnerFits layout more owner := by
  have sameOwners := congrArg (List.map Prod.snd) same
  rw [List.map_map, List.map_map] at sameOwners
  refine fits.imp_right fun ⟨parent, member, isParent, room⟩ => ?_
  obtain ⟨twin, twinMember, sameStart, -⟩ := exists_twin same.symm member
  exact ⟨twin, twinMember, sameStart.trans isParent, (children_congr sameOwners _).symm ▸ room⟩

/-- `hwi_alloc_item`. -/
theorem hwiAllocItem_ok (inv : HwiInv layout hwi items items 0) {name pad itemname : AddedString}
    {size align place owner : Nat} (power : align = 4 ∨ align = 8) (words : 4 ∣ size)
    (isItem : layout.itemSize ≤ size) (small : hwi.size + size + 512 < 2 ^ 32)
    (padFits : items ≠ [] →
      hwi.offset - hwi.lastItem + layout.padSize < 4 * 256 ^ layout.fieldBytes)
    (fits : size < 4 * 256 ^ layout.fieldBytes) (ownerFits : OwnerFits layout items owner)
    (ran : hwiAllocItem layout hwi name pad size align itemname owner = .ok (after, place)) :
    ∃ more, Allocated layout hwi after more size align place ∧
      more.map HwiItem.withoutPads =
        items.map HwiItem.withoutPads ++ [⟨⟨place, size, align, false⟩, owner, []⟩] := by
  unfold hwiAllocItem at ran
  obtain ⟨⟨named, savedIn⟩, added, ran⟩ := bind_eq_ok.mp ran
  obtain ⟨aligned, alignRan, ran⟩ := bind_eq_ok.mp ran
  obtain ⟨⟨written, tag⟩, allocRan, ran⟩ := bind_eq_ok.mp ran
  have same := addString_ok added
  have namedInv := inv.extends same
  have sameSize : named.size = hwi.size := same.size
  rw [← sameSize] at small
  rw [← same.offset, ← same.lastItem] at padFits
  obtain ⟨padded, isAligned⟩ := alignTag_ok namedInv power (by omega) padFits alignRan
  have samePlaces := places_of_withoutPads isAligned.same
  have grew := isAligned.grew
  have inside := isAligned.inv.clear.inside
  -- The end is aligned already when `hwi_alloc_tag` aligns it again.
  have again : alignTag layout { aligned with lastItem := aligned.offset } pad align =
      .ok { aligned with lastItem := aligned.offset } :=
    @alignTag_aligned layout { aligned with lastItem := aligned.offset } pad align power
      (by dsimp only; omega) isAligned.aligned
  have placeRan : Startup.placeTag layout { aligned with lastItem := aligned.offset } name size =
      .ok (written, tag) := by
    rw [hwiAllocTag, again] at allocRan
    exact allocRan
  have paddedFits := ownerFits.congr samePlaces
  have owned := paddedFits.imp_right fun ⟨parent, member, isParent, _⟩ =>
    (⟨parent, member, isParent⟩ :
      ∃ parent ∈ padded, parent.head.start = layout.off2tag owner)
  have prefixLe := layout.prefix_le_item
  obtain ⟨isTag, placedEnds, placedGrew, placedInv⟩ := isAligned.inv.placeItem
    ⟨words, prefixLe.trans isItem⟩ isItem isAligned.aligned (by omega) fits owned placeRan
  let item : HwiItem := ⟨⟨aligned.offset, size, align, false⟩, owner, []⟩
  have itemMember : item ∈ padded ++ [item] := List.mem_append_right _ (List.mem_singleton_self _)
  have hasFields := placedInv.holds.arranged.itemField itemMember
  rw [isTag] at ran
  have fieldsInv := (placedInv.setField (hasFields .itemname) (by decide) (by decide) (by decide)
    savedIn).setField (hasFields .owner) (by decide) (by decide) (by decide) owner
  have isPlace : aligned.offset = hwi.offset + (align - hwi.offset % align) % align := by
    rw [isAligned.offset, same.offset]
  have largest : written.size ≤ hwi.size + size + 284 := by omega
  have isMore : (padded ++ [item]).map HwiItem.withoutPads =
      items.map HwiItem.withoutPads ++ [item] := by
    rw [List.map_append, isAligned.same]
    rfl
  dsimp only at ran
  by_cases hasOwner : owner ≠ layout.nullOff
  · rw [if_pos hasOwner] at ran
    cases ran
    obtain ⟨parent, member, isParent, room⟩ := paddedFits.resolve_left hasOwner
    have counted := @HwiInv.child layout _ _ _ 0 item parent fieldsInv
      (List.mem_append_left _ member) hasOwner isParent room
    exact ⟨_, ⟨counted, isPlace, placedEnds, largest, _, allTags_withItem _ _ _⟩, isMore⟩
  · rw [if_neg hasOwner] at ran
    cases ran
    have orphan : Hwinfo.Counts layout _ _ (padded ++ [item]) :=
      fieldsInv.counts.orphan (not_not.mp hasOwner)
    exact ⟨_, ⟨⟨fieldsInv.holds, orphan, fieldsInv.owners, fieldsInv.zeros, fieldsInv.room,
      fieldsInv.offset, fieldsInv.lastItem⟩, isPlace, placedEnds, largest, _,
      allTags_withItem _ _ _⟩, isMore⟩

/-- `hwi_grow_tag` on the last tag; the end of the tags is then behind by so much more. -/
theorem hwiGrowTag_ok {grown size offset place : Nat} {before : List HwiTag} {tag : HwiTag}
    (inv : HwiInv layout hwi (front ++ [last]) (front ++ [last]) grown)
    (isLast : allTags (front ++ [last]) = before ++ [tag]) (notPad : tag.isPad = false)
    (isOffset : tag.start = offset) (words : 4 ∣ size) (small : hwi.size + size + 512 < 2 ^ 32)
    (fits : hwi.offset + grown - hwi.lastItem + size < 4 * 256 ^ layout.fieldBytes)
    (ran : hwiGrowTag layout hwi offset size = .ok (after, place)) :
    HwiInv layout after (front ++ [last.longer size]) (front ++ [last.longer size])
      (grown + size) := by
  unfold hwiGrowTag at ran
  obtain ⟨larger, grew, ran⟩ := bind_eq_ok.mp ran
  have least : roundedUp size ≤ size + 7 := by
    unfold roundedUp
    omega
  have enough := le_roundedUp size
  have extended := growHwinfo_ok (by omega) grew
  have largerInv := inv.extends extended
  have isLastItem := largerInv.lastItem front last rfl
  have isExtent := inv.extent
  have room := inv.room
  have isSize := extended.size
  have holds := largerInv.holds.longer isLastItem isLast words notPad (by omega)
  have counts := largerInv.counts.longer largerInv.holds isLastItem isLast size
  have behind := @lengthenTag_behind layout front last larger before tag largerInv.holds isLastItem
    isLast size
  obtain ⟨sameOwner, sameStart, -, -⟩ := last.longer_head size
  have heads : (front ++ [last.longer size]).map (fun item => (item.head.start, item.owner)) =
      (front ++ [last]).map fun item => (item.head.start, item.owner) := by
    rw [List.map_append, List.map_append, List.map_singleton, List.map_singleton, sameOwner,
      sameStart]
  have sameOwners : (front ++ [last.longer size]).map HwiItem.owner =
      (front ++ [last]).map HwiItem.owner := by
    rw [List.map_append, List.map_append, List.map_singleton, List.map_singleton, sameOwner]
  have isStop := stop_longer front last size
  cases ran
  rw [isOffset] at holds counts behind
  refine ⟨holds, fun item member => ?_, owners_map heads inv.owners, fun byte above below => ?_,
    ?_, ?_, ?_⟩
  · rw [children_congr sameOwners]
    exact counts item member
  · rw [isStop] at above
    have aboveOld : stop (front ++ [last]) ≤ byte := (Nat.le_add_right _ _).trans above
    rw [behind aboveOld]
    exact largerInv.zeros byte aboveOld below
  · show stop (front ++ [last.longer size]) + layout.prefixSize ≤ larger.size
    omega
  · have ends := largerInv.offset
    show larger.offset + (grown + size) = stop (front ++ [last.longer size])
    omega
  · intro others final same
    rw [← List.singleton_inj.mp (List.append_inj' same rfl).2, sameStart]
    exact isLastItem

end Step

end Bcm2711.Startup
