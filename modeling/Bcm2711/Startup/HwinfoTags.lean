import Bcm2711.Startup.Hwinfo

/-! # What the section holds

The tags stand one behind the other from the start of the section, and behind them it is all
zeros.  Placing a tag at the end writes its prefix and counts its words in the last item;
everything else stays as it was.
-/

namespace Bcm2711.Startup

open Blocks Fallible

variable {layout : HwiLayout}

/-! ## Tags one behind the other -/

@[simp] theorem allTags_append (front back : List HwiItem) :
    allTags (front ++ back) = allTags front ++ allTags back := List.flatMap_append

@[simp] theorem allTags_singleton (item : HwiItem) : allTags [item] = item.all :=
  List.flatMap_singleton _ _

theorem total_append (front back : List Block) :
    total (front ++ back) = total front + total back := by
  simp [total]

/-- The tags from the start of the section on, each long enough for its fields. -/
structure Arranged (layout : HwiLayout) (items : List HwiItem) : Prop where
  laid : Laid 0 ((allTags items).map HwiTag.block)
  words : ∀ tag ∈ allTags items, 4 ∣ tag.size ∧ layout.prefixSize ≤ tag.size
  aligned : ∀ tag ∈ allTags items, tag.align ∣ tag.start
  pads : ∀ tag ∈ allTags items, tag.isPad = true → tag.size = layout.padSize
  heads : ∀ item ∈ items, layout.itemSize ≤ item.head.size ∧ item.head.isPad = false

/-- A field of one of the tags. -/
def HasField (layout : HwiLayout) (items : List HwiItem) (place : Nat) (field : HwiField) : Prop :=
  ∃ tag ∈ allTags items, tag.start = place ∧ layout.fieldOff field + layout.fieldBytes ≤ tag.size

section Fields

variable {items : List HwiItem} (arranged : Arranged layout items)
include arranged

theorem Arranged.prefixField {tag : HwiTag} (member : tag ∈ allTags items) {field : HwiField}
    (inPrefix : field.InPrefix) : HasField layout items tag.start field :=
  ⟨tag, member, rfl, (layout.prefix_inside field inPrefix).trans (arranged.words tag member).2⟩

theorem Arranged.hasSize {tag : HwiTag} (member : tag ∈ allTags items) :
    HasField layout items tag.start .size := arranged.prefixField member trivial

theorem Arranged.hasName {tag : HwiTag} (member : tag ∈ allTags items) :
    HasField layout items tag.start .name := arranged.prefixField member trivial

theorem Arranged.itemField {item : HwiItem} (member : item ∈ items) (field : HwiField) :
    HasField layout items item.head.start field := by
  refine ⟨item.head, ?_, rfl, (layout.item_inside field).trans (arranged.heads item member).1⟩
  exact List.mem_flatMap.mpr ⟨item, member, List.mem_cons_self⟩

theorem Arranged.tag_inside {tag : HwiTag} (member : tag ∈ allTags items) :
    tag.start + tag.size ≤ stop items := by
  have inside := (arranged.laid.inside (List.mem_map_of_mem member)).2
  rwa [Nat.zero_add] at inside

/-- The fields of all tags are before the end of the tags. -/
theorem Arranged.field_inside {place : Nat} {field : HwiField}
    (isField : HasField layout items place field) :
    place + layout.fieldOff field + layout.fieldBytes ≤ stop items := by
  obtain ⟨tag, member, rfl, inside⟩ := isField
  have tagInside := arranged.tag_inside member
  omega

/-- Two fields are the same, or beside each other. -/
theorem Arranged.fields_beside {place other : Nat} {field otherField : HwiField}
    (isField : HasField layout items place field)
    (isOther : HasField layout items other otherField)
    (different : ¬ (place = other ∧ field = otherField)) :
    place + layout.fieldOff field + layout.fieldBytes ≤ other + layout.fieldOff otherField ∨
      other + layout.fieldOff otherField + layout.fieldBytes ≤ place + layout.fieldOff field := by
  obtain ⟨tag, member, rfl, inside⟩ := isField
  obtain ⟨otherTag, otherMember, rfl, otherInside⟩ := isOther
  have beside := arranged.laid.beside (List.mem_map_of_mem (f := HwiTag.block) member)
    (List.mem_map_of_mem (f := HwiTag.block) otherMember)
  simp only [HwiTag.block] at beside
  rcases beside with same | before | behind
  · have distinct : field ≠ otherField := fun sameField => different ⟨same, sameField⟩
    rcases layout.fields_apart field otherField distinct with first | second
    · left
      omega
    · right
      omega
  · left
    omega
  · right
    omega

/-- Assigning to a field changes that field only. -/
theorem Arranged.getField_setField (hwi : Hwinfo) {place other : Nat}
    {field otherField : HwiField} (isField : HasField layout items place field)
    (isOther : HasField layout items other otherField) (value : Nat) :
    (hwi.setField layout other otherField value).getField layout place field =
      if place = other ∧ field = otherField then value % 256 ^ layout.fieldBytes
      else hwi.getField layout place field := by
  by_cases same : place = other ∧ field = otherField
  · rw [if_pos same, same.1, same.2]
    exact Bytes.load_store
  · rw [if_neg same]
    exact Bytes.load_store_of_disjoint (arranged.fields_beside isField isOther same)

/-- Assigning to a field leaves what is behind the tags. -/
theorem Arranged.setField_behind (hwi : Hwinfo) {other : Nat} {otherField : HwiField}
    (isOther : HasField layout items other otherField) (value : Nat) {place : Nat}
    (behind : stop items ≤ place) :
    (hwi.setField layout other otherField value).data place = hwi.data place := by
  have inside := arranged.field_inside isOther
  exact Bytes.store_of_not_mem (.inr (inside.trans behind))

end Fields

/-! ## Growing the section -/

/-- The section behind zeros that were added to it. -/
structure Extends (before after : Hwinfo) (added : Nat) : Prop where
  size : after.size = before.size + added
  offset : after.offset = before.offset
  lastItem : after.lastItem = before.lastItem
  kept : ∀ place < before.size, after.data place = before.data place
  zeros : ∀ place, before.size ≤ place → place < after.size → after.data place = 0

theorem Extends.refl (hwi : Hwinfo) : Extends hwi hwi 0 :=
  ⟨rfl, rfl, rfl, fun _ _ => rfl, fun _ above below => absurd below (Nat.not_lt.mpr above)⟩

theorem Extends.trans {first second third : Hwinfo} {one other : Nat}
    (grew : Extends first second one) (grewOn : Extends second third other) :
    Extends first third (one + other) := by
  refine ⟨?_, grewOn.offset.trans grew.offset, grewOn.lastItem.trans grew.lastItem, ?_, ?_⟩
  · rw [grewOn.size, grew.size, Nat.add_assoc]
  · intro place below
    have inSecond : place < second.size := by
      rw [grew.size]
      exact Nat.lt_add_right one below
    rw [grewOn.kept place inSecond, grew.kept place below]
  · intro place above below
    by_cases inSecond : place < second.size
    · rw [grewOn.kept place inSecond, grew.zeros place above inSecond]
    · exact grewOn.zeros place (Nat.not_lt.mp inSecond) below

theorem growTotal_ok {hwi after : Hwinfo} {add : Nat} (ran : growTotal hwi add = .ok after) :
    ∃ totalSize, after = { hwi with totalSize := totalSize } := by
  unfold growTotal at ran
  dsimp only at ran
  split at ran
  · cases ran
  · cases ran
    exact ⟨_, rfl⟩

/-- `add_string` leaves the section as it is. -/
theorem addString_ok {hwi after : Hwinfo} {name : AddedString} {off : Nat}
    (ran : addString hwi name = .ok (after, off)) : Extends hwi after 0 := by
  unfold addString at ran
  split at ran
  · obtain ⟨middle, grew, rest⟩ := bind_eq_ok.mp ran
    obtain ⟨totalSize, rfl⟩ := growTotal_ok grew
    cases rest
    exact ⟨rfl, rfl, rfl, fun _ _ => rfl, fun _ above below => absurd below (Nat.not_lt.mpr above)⟩
  · cases ran
    exact .refl hwi

theorem growHwinfo_ok {hwi after : Hwinfo} {add : Nat} (small : hwi.size + roundedUp add < 2 ^ 32)
    (ran : growHwinfo hwi add = .ok after) : Extends hwi after (roundedUp add) := by
  unfold growHwinfo at ran
  split at ran
  · obtain ⟨middle, grew, rest⟩ := bind_eq_ok.mp ran
    obtain ⟨totalSize, rfl⟩ := growTotal_ok grew
    cases rest
    have rounded : roundSize add = roundedUp add := roundSize_eq (by omega)
    have sum : Word.add 32 hwi.size (roundSize add) = hwi.size + roundedUp add := by
      rw [rounded]
      exact Word.add_of_lt small
    refine ⟨sum, rfl, rfl, fun place below => ?_, fun place above below => ?_⟩
    · exact Bytes.fill_of_not_mem (.inl below)
    · dsimp only at below
      rw [sum] at below
      refine Bytes.fill_of_mem ⟨above, ?_⟩
      rwa [rounded]
  · next nothing =>
      cases ran
      have none_added : add = 0 := Nat.eq_zero_of_not_pos nothing
      rw [none_added]
      exact .refl hwi

/-! ## Placing a tag -/

/-- The bytes before the end of the tags, with zeros behind. -/
def Hwinfo.written (hwi : Hwinfo) : Bytes.Memory :=
  fun place => if place < hwi.offset then hwi.data place else 0

/-- The end of the tags is inside the section, and behind it is all zeros. -/
structure Hwinfo.Clear (hwi : Hwinfo) : Prop where
  inside : hwi.offset ≤ hwi.size
  zeros : ∀ place, hwi.offset ≤ place → place < hwi.size → hwi.data place = 0

/-- A clear section stays clear when it grows, and has the same bytes written. -/
theorem Extends.clear {before after : Hwinfo} {added : Nat} (grew : Extends before after added)
    (clear : before.Clear) :
    after.Clear ∧ ∀ place < after.size, after.data place = before.written place := by
  have larger : before.size ≤ after.size := by
    rw [grew.size]
    exact Nat.le_add_right _ _
  have bytes : ∀ place < after.size, after.data place = before.written place := by
    intro place below
    unfold Hwinfo.written
    by_cases isWritten : place < before.offset
    · rw [if_pos isWritten, grew.kept place (isWritten.trans_le clear.inside)]
    · rw [if_neg isWritten]
      by_cases inBefore : place < before.size
      · rw [grew.kept place inBefore, clear.zeros place (Nat.not_lt.mp isWritten) inBefore]
      · exact grew.zeros place (Nat.not_lt.mp inBefore) below
  refine ⟨⟨?_, fun place above below => ?_⟩, bytes⟩
  · rw [grew.offset]
    exact clear.inside.trans larger
  · rw [grew.offset] at above
    rw [bytes place below, Hwinfo.written, if_neg (Nat.not_lt.mpr above)]

/-- The room `hwi_alloc_tag` makes for a tag and a terminator behind it. -/
theorem makeRoom_ok {hwi after : Hwinfo} {size : Nat} (inside : hwi.offset ≤ hwi.size)
    (small : hwi.size + size + 256 < 2 ^ 32) (ran : makeRoom layout hwi size = .ok after) :
    ∃ added ≤ size + 140, Extends hwi after added ∧
      hwi.offset + size + layout.prefixSize ≤ after.size := by
  have prefixFour := layout.prefix_four
  have need : Word.add 32 size layout.prefixSize = size + 4 := by
    rw [prefixFour]
    exact Word.add_of_lt (by omega)
  have spare : Word.sub 32 hwi.size hwi.offset = hwi.size - hwi.offset :=
    Word.sub_of_le inside (by omega)
  unfold makeRoom at ran
  dsimp only at ran
  rw [need, spare] at ran
  by_cases more : size + 4 > hwi.size - hwi.offset
  · rw [if_pos more] at ran
    have lacking : Word.sub 32 (size + 4) (hwi.size - hwi.offset) =
        size + 4 - (hwi.size - hwi.offset) := Word.sub_of_le (by omega) (by omega)
    have chunk : ROUND (size + 4 - (hwi.size - hwi.offset)) (2 ^ 7) =
        (size + 4 - (hwi.size - hwi.offset) + (2 ^ 7 - 1)) / 2 ^ 7 * 2 ^ 7 :=
      Word.round_two_pow (by decide) (by omega)
    have chunk : ROUND (size + 4 - (hwi.size - hwi.offset)) 128 =
        (size + 4 - (hwi.size - hwi.offset) + (2 ^ 7 - 1)) / 2 ^ 7 * 2 ^ 7 := chunk
    rw [lacking, chunk, Nat.mod_eq_of_lt (by omega)] at ran
    have bounds : size + 4 - (hwi.size - hwi.offset) ≤
          (size + 4 - (hwi.size - hwi.offset) + (2 ^ 7 - 1)) / 2 ^ 7 * 2 ^ 7 ∧
        (size + 4 - (hwi.size - hwi.offset) + (2 ^ 7 - 1)) / 2 ^ 7 * 2 ^ 7 ≤ size + 131 := by
      omega
    have rounded := le_roundedUp
      ((size + 4 - (hwi.size - hwi.offset) + (2 ^ 7 - 1)) / 2 ^ 7 * 2 ^ 7)
    have least : roundedUp ((size + 4 - (hwi.size - hwi.offset) + (2 ^ 7 - 1)) / 2 ^ 7 * 2 ^ 7) ≤
        size + 140 := by
      unfold roundedUp
      omega
    have grew := growHwinfo_ok (by omega) ran
    refine ⟨_, least, grew, ?_⟩
    rw [grew.size]
    omega
  · rw [if_neg more] at ran
    cases ran
    exact ⟨0, Nat.zero_le _, .refl hwi, by omega⟩

/-- What `hwi_alloc_tag` leaves in the fields of the tags, behind `align_tag`. -/
structure TagPlaced (layout : HwiLayout) (before after : Hwinfo) (items : List HwiItem)
    (size : Nat) : Prop where
  offset : after.offset = before.offset + size
  lastItem : after.lastItem = before.lastItem
  clear : after.Clear
  room : after.offset + layout.prefixSize ≤ after.size
  grew : after.size ≤ before.size + size + 140
  words : after.getField layout before.offset .size = size / 4 % 256 ^ layout.fieldBytes
  itemsize : after.getField layout before.lastItem .itemsize =
    (Bytes.load before.written layout.fieldBytes
      (before.lastItem + layout.fieldOff .itemsize) + size / 4) % 256 ^ layout.fieldBytes
  others : ∀ place field, HasField layout items place field →
    ¬ (place = before.offset ∧ (field = .size ∨ field = .name)) →
    ¬ (place = before.lastItem ∧ field = .itemsize) →
      after.getField layout place field =
        Bytes.load before.written layout.fieldBytes (place + layout.fieldOff field)

section Placing

variable {items : List HwiItem} (arranged : Arranged layout items) {tag : HwiTag}
  (member : tag ∈ allTags items)
include arranged member

/-- The fields of the tags behind `writeTag`. -/
theorem writeTag_fields {hwi : Hwinfo} (starts : tag.start = hwi.offset)
    (hasItem : HasField layout items hwi.lastItem .itemsize) (nameOff size : Nat) {place : Nat}
    {field : HwiField} (isField : HasField layout items place field) :
    (writeTag layout hwi nameOff size).getField layout place field =
      if place = hwi.offset ∧ field = .name then nameOff % 256 ^ layout.fieldBytes
      else if place = hwi.offset ∧ field = .size then size / 4 % 256 ^ layout.fieldBytes
      else if place = hwi.lastItem ∧ field = .itemsize then
        (hwi.getField layout hwi.lastItem .itemsize + size / 4) % 256 ^ layout.fieldBytes
      else hwi.getField layout place field := by
  have hasSize := arranged.hasSize member
  have hasName := arranged.hasName member
  rw [starts] at hasSize hasName
  let counted := hwi.setField layout hwi.lastItem .itemsize
    (hwi.getField layout hwi.lastItem .itemsize + size / 4)
  let sized := counted.setField layout hwi.offset .size (size / 4)
  have isWritten : (writeTag layout hwi nameOff size).getField layout place field =
      (sized.setField layout hwi.offset .name nameOff).getField layout place field := rfl
  rw [isWritten, arranged.getField_setField _ isField hasName,
    arranged.getField_setField _ isField hasSize, arranged.getField_setField _ isField hasItem]

/-- Behind the tags `writeTag` changes nothing. -/
theorem writeTag_behind {hwi : Hwinfo} (starts : tag.start = hwi.offset)
    (hasItem : HasField layout items hwi.lastItem .itemsize) (nameOff size : Nat) {place : Nat}
    (behind : stop items ≤ place) :
    (writeTag layout hwi nameOff size).data place = hwi.data place := by
  have hasSize := arranged.hasSize member
  have hasName := arranged.hasName member
  rw [starts] at hasSize hasName
  let counted := hwi.setField layout hwi.lastItem .itemsize
    (hwi.getField layout hwi.lastItem .itemsize + size / 4)
  let sized := counted.setField layout hwi.offset .size (size / 4)
  have isWritten : (writeTag layout hwi nameOff size).data place =
      (sized.setField layout hwi.offset .name nameOff).data place := rfl
  rw [isWritten, arranged.setField_behind _ hasName _ behind,
    arranged.setField_behind _ hasSize _ behind, arranged.setField_behind _ hasItem _ behind]

/-- Placing a tag writes its prefix and counts it in the last item. -/
theorem placeTag_ok {hwi after : Hwinfo} {name : AddedString} {size place : Nat}
    (starts : tag.start = hwi.offset) (ends : stop items = hwi.offset + size)
    (hasItem : HasField layout items hwi.lastItem .itemsize) (clear : hwi.Clear)
    (small : hwi.size + size + 256 < 2 ^ 32)
    (ran : placeTag layout hwi name size = .ok (after, place)) :
    place = hwi.offset ∧ TagPlaced layout hwi after items size := by
  unfold placeTag at ran
  obtain ⟨⟨named, nameOff⟩, added, ran⟩ := bind_eq_ok.mp ran
  obtain ⟨grown, roomMade, ran⟩ := bind_eq_ok.mp ran
  have same := addString_ok added
  have sameOffset := same.offset
  have sameSize : named.size = hwi.size := same.size
  rw [← sameSize] at small
  have inside : named.offset ≤ named.size := by
    rw [sameOffset, sameSize]
    exact clear.inside
  obtain ⟨more, least, grew, enough⟩ := makeRoom_ok inside small roomMade
  have extended := same.trans grew
  obtain ⟨grownClear, bytes⟩ := extended.clear clear
  have isOffset : grown.offset = hwi.offset := extended.offset
  have isLastItem : grown.lastItem = hwi.lastItem := extended.lastItem
  have isSize : grown.size = hwi.size + more := by
    rw [extended.size, Nat.zero_add]
  rw [sameOffset] at enough
  rw [sameSize] at small
  have advanced : Word.add 32 grown.offset size = hwi.offset + size := by
    rw [isOffset]
    exact Word.add_of_lt (by omega)
  have fieldsBefore : ∀ {other field}, HasField layout items other field →
      grown.getField layout other field =
        Bytes.load hwi.written layout.fieldBytes (other + layout.fieldOff field) := by
    intro other field isField
    refine Bytes.load_congr fun byte below => bytes _ ?_
    have before := arranged.field_inside isField
    omega
  rw [← isLastItem] at hasItem
  have startsGrown : tag.start = grown.offset := starts.trans isOffset.symm
  have fields := @writeTag_fields layout items arranged tag member grown startsGrown hasItem
  have behind := @writeTag_behind layout items arranged tag member grown startsGrown hasItem
  cases ran
  refine ⟨isOffset, advanced, isLastItem, ⟨?_, ?_⟩, ?_, ?_, ?_, ?_, ?_⟩
  · show Word.add 32 grown.offset size ≤ grown.size
    omega
  · intro byte above below
    have above : hwi.offset + size ≤ byte := advanced.symm.le.trans above
    rw [behind nameOff size (ends.le.trans above)]
    exact grownClear.zeros byte (by omega) below
  · show Word.add 32 grown.offset size + layout.prefixSize ≤ grown.size
    omega
  · show grown.size ≤ hwi.size + size + 140
    omega
  · rw [← starts, fields nameOff size (arranged.hasSize member), startsGrown,
      if_neg (by simp), if_pos ⟨rfl, rfl⟩]
  · rw [← isLastItem, fields nameOff size hasItem, if_neg (by simp), if_neg (by simp),
      if_pos ⟨rfl, rfl⟩, fieldsBefore hasItem]
  · intro other field isField notPrefix notItemsize
    rw [fields nameOff size isField, isOffset, isLastItem,
      if_neg fun both => notPrefix ⟨both.1, .inr both.2⟩,
      if_neg fun both => notPrefix ⟨both.1, .inl both.2⟩, if_neg notItemsize, fieldsBefore isField]

end Placing

/-! ## What the section holds -/

theorem stop_append (front back : List HwiItem) :
    stop (front ++ back) = stop front + stop back := by
  rw [stop, allTags_append, List.map_append, total_append]
  rfl

theorem stop_singleton (item : HwiItem) : stop [item] = item.extent.size := by
  rw [stop, allTags_singleton]
  rfl

theorem Arranged.left {front back : List HwiItem} (arranged : Arranged layout (front ++ back)) :
    Arranged layout front := by
  obtain ⟨laid, words, aligned, pads, heads⟩ := arranged
  rw [allTags_append] at laid words aligned pads
  rw [List.map_append, laid_append] at laid
  exact ⟨laid.1, fun tag member => words tag (List.mem_append_left _ member),
    fun tag member => aligned tag (List.mem_append_left _ member),
    fun tag member => pads tag (List.mem_append_left _ member),
    fun item member => heads item (List.mem_append_left _ member)⟩

/-- The last item starts behind the tags of the others. -/
theorem Arranged.last_start {front : List HwiItem} {last : HwiItem}
    (arranged : Arranged layout (front ++ [last])) : last.head.start = stop front := by
  have laid := arranged.laid
  rw [allTags_append, List.map_append, laid_append, Nat.zero_add] at laid
  rw [allTags_singleton] at laid
  exact laid.2.1

/-- Another item starts before the last one. -/
theorem Arranged.start_lt {items : List HwiItem} (arranged : Arranged layout items)
    {tag : HwiTag} (member : tag ∈ allTags items) : tag.start < stop items := by
  have inside := arranged.tag_inside member
  have size := (arranged.words tag member).2
  have four := layout.prefix_four
  omega

theorem head_mem {items : List HwiItem} {item : HwiItem} (member : item ∈ items) :
    item.head ∈ allTags items := List.mem_flatMap.mpr ⟨item, member, List.mem_cons_self⟩

/-- The fields of the tags say what the items are. -/
structure Hwinfo.Holds (layout : HwiLayout) (hwi : Hwinfo) (items : List HwiItem) : Prop where
  arranged : Arranged layout items
  sizes : ∀ tag ∈ allTags items, 4 * hwi.getField layout tag.start .size = tag.size
  extents : ∀ item ∈ items,
    4 * hwi.getField layout item.head.start .itemsize = item.extent.size

/-- Every item counts those that name it as their owner. -/
def Hwinfo.Counts (layout : HwiLayout) (hwi : Hwinfo) (items counted : List HwiItem) : Prop :=
  ∀ item ∈ items,
    hwi.getField layout item.head.start .kids = children layout counted item.head.start

/-- Fields that are before the end of the tags are written. -/
theorem Arranged.written_field {items : List HwiItem} (arranged : Arranged layout items)
    {hwi : Hwinfo} (ends : stop items ≤ hwi.offset) {place : Nat} {field : HwiField}
    (isField : HasField layout items place field) :
    Bytes.load hwi.written layout.fieldBytes (place + layout.fieldOff field) =
      hwi.getField layout place field := by
  have inside := arranged.field_inside isField
  refine Bytes.load_congr fun byte below => ?_
  exact if_pos (by omega)

/-- Behind the end nothing is written. -/
theorem written_zero (hwi : Hwinfo) {place width : Nat} (behind : hwi.offset ≤ place) :
    Bytes.load hwi.written width place = 0 :=
  Bytes.load_zeros fun _ _ => if_neg (Nat.not_lt.mpr (behind.trans (Nat.le_add_right _ _)))

section Placed

variable {front : List HwiItem} {last : HwiItem} {hwi after : Hwinfo} {tag : HwiTag}

theorem allTags_withTag (front : List HwiItem) (last : HwiItem) (tag : HwiTag) :
    allTags (front ++ [last.withTag tag]) = allTags (front ++ [last]) ++ [tag] := by
  rw [allTags_append, allTags_append, allTags_singleton, allTags_singleton, List.append_assoc]
  rfl

theorem extent_withTag (item : HwiItem) (tag : HwiTag) :
    (item.withTag tag).extent = ⟨item.head.start, item.extent.size + tag.size⟩ := by
  have tags : (item.withTag tag).all = item.all ++ [tag] := rfl
  rw [HwiItem.extent, tags, List.map_append, total_append]
  rfl

theorem stop_withTag (front : List HwiItem) (last : HwiItem) (tag : HwiTag) :
    stop (front ++ [last.withTag tag]) = stop (front ++ [last]) + tag.size := by
  rw [stop, allTags_withTag, List.map_append, total_append]
  rfl

/-- A tag whose size is in words, placed where it is aligned. -/
structure HwiTag.Sound (layout : HwiLayout) (tag : HwiTag) : Prop where
  words : 4 ∣ tag.size ∧ layout.prefixSize ≤ tag.size
  aligned : tag.align ∣ tag.start
  pad : tag.isPad = true → tag.size = layout.padSize

/-- One more tag behind the others. -/
theorem Arranged.more {items more : List HwiItem} (arranged : Arranged layout items)
    (tags : allTags more = allTags items ++ [tag]) (starts : tag.start = stop items)
    (sound : tag.Sound layout)
    (heads : ∀ item ∈ more, layout.itemSize ≤ item.head.size ∧ item.head.isPad = false) :
    Arranged layout more := by
  refine ⟨?_, ?_, ?_, ?_, heads⟩
  · rw [tags, List.map_append, laid_append]
    refine ⟨arranged.laid, ?_, trivial⟩
    rw [Nat.zero_add]
    exact starts
  · intro other member
    rw [tags, List.mem_append, List.mem_singleton] at member
    rcases member with old | rfl
    · exact arranged.words other old
    · exact sound.words
  · intro other member
    rw [tags, List.mem_append, List.mem_singleton] at member
    rcases member with old | rfl
    · exact arranged.aligned other old
    · exact sound.aligned
  · intro other member
    rw [tags, List.mem_append, List.mem_singleton] at member
    rcases member with old | rfl
    · exact arranged.pads other old
    · exact sound.pad

theorem Arranged.withTag (arranged : Arranged layout (front ++ [last]))
    (starts : tag.start = stop (front ++ [last])) (sound : tag.Sound layout) :
    Arranged layout (front ++ [last.withTag tag]) := by
  refine arranged.more (allTags_withTag front last tag) starts sound fun item member => ?_
  rw [List.mem_append, List.mem_singleton] at member
  rcases member with old | rfl
  · exact arranged.heads item (List.mem_append_left _ old)
  · exact arranged.heads last (List.mem_append_right _ (List.mem_singleton_self _))

theorem allTags_withItem (items : List HwiItem) (tag : HwiTag) (owner : Nat) :
    allTags (items ++ [⟨tag, owner, []⟩]) = allTags items ++ [tag] := by
  rw [allTags_append, allTags_singleton]
  rfl

theorem Arranged.withItem {items : List HwiItem} (arranged : Arranged layout items)
    (starts : tag.start = stop items) (sound : tag.Sound layout) (notPad : tag.isPad = false)
    (isItem : layout.itemSize ≤ tag.size) (owner : Nat) :
    Arranged layout (items ++ [⟨tag, owner, []⟩]) := by
  refine arranged.more (allTags_withItem items tag owner) starts sound fun item member => ?_
  rw [List.mem_append, List.mem_singleton] at member
  rcases member with old | rfl
  · exact arranged.heads item old
  · exact ⟨isItem, notPad⟩

/-- A tag that is placed leaves the fields of the others, but for the extent of the last
item. -/
theorem TagPlaced.old_field {items more : List HwiItem} {size : Nat}
    (placed : TagPlaced layout hwi after more size) (arranged : Arranged layout items)
    (tags : allTags more = allTags items ++ [tag]) (ends : hwi.offset = stop items)
    {place : Nat} {field : HwiField} (isField : HasField layout items place field)
    (notItemsize : ¬ (place = hwi.lastItem ∧ field = .itemsize)) :
    after.getField layout place field = hwi.getField layout place field := by
  obtain ⟨other, member, rfl, inside⟩ := isField
  have before := arranged.start_lt member
  have stillField : HasField layout more other.start field := by
    refine ⟨other, ?_, rfl, inside⟩
    rw [tags]
    exact List.mem_append_left _ member
  rw [placed.others _ _ stillField (fun both => by omega) notItemsize]
  exact arranged.written_field ends.ge ⟨other, member, rfl, inside⟩

/-- The sizes of the tags behind a tag that is placed. -/
theorem TagPlaced.sizes {items more : List HwiItem}
    (placed : TagPlaced layout hwi after more tag.size) (holds : hwi.Holds layout items)
    (tags : allTags more = allTags items ++ [tag]) (ends : hwi.offset = stop items)
    (starts : tag.start = stop items) (sound : tag.Sound layout)
    (fits : tag.size < 4 * 256 ^ layout.fieldBytes) :
    ∀ other ∈ allTags more, 4 * after.getField layout other.start .size = other.size := by
  intro other member
  rw [tags, List.mem_append, List.mem_singleton] at member
  rcases member with old | rfl
  · rw [placed.old_field holds.arranged tags ends (holds.arranged.hasSize old) (by simp)]
    exact holds.sizes other old
  · have whole := sound.words.1
    rw [starts, ← ends, placed.words, Nat.mod_eq_of_lt (by omega)]
    omega

/-- The last item with one more tag. -/
theorem Hwinfo.Holds.withTag (holds : hwi.Holds layout (front ++ [last]))
    (ends : hwi.offset = stop (front ++ [last])) (lastItem : hwi.lastItem = last.head.start)
    (starts : tag.start = stop (front ++ [last])) (sound : tag.Sound layout)
    (fits : last.extent.size + tag.size < 4 * 256 ^ layout.fieldBytes)
    (placed : TagPlaced layout hwi after (front ++ [last.withTag tag]) tag.size) :
    after.Holds layout (front ++ [last.withTag tag]) := by
  have tags := allTags_withTag front last tag
  have lastMember : last ∈ front ++ [last] := List.mem_append_right _ (List.mem_singleton_self _)
  refine ⟨holds.arranged.withTag starts sound, ?_, ?_⟩
  · exact placed.sizes holds tags ends starts sound (by omega)
  · intro item member
    rw [List.mem_append, List.mem_singleton] at member
    rcases member with old | rfl
    · have oldMember : item ∈ front ++ [last] := List.mem_append_left _ old
      have before := holds.arranged.left.start_lt (head_mem old)
      have lastStart := holds.arranged.last_start
      rw [placed.old_field holds.arranged tags ends (holds.arranged.itemField oldMember _)
        fun both => by omega]
      exact holds.extents item oldMember
    · have whole := sound.words.1
      have isExtent := holds.extents last lastMember
      have isField := holds.arranged.itemField lastMember .itemsize
      have counted := placed.itemsize
      rw [lastItem, holds.arranged.written_field ends.ge isField,
        Nat.mod_eq_of_lt (by omega)] at counted
      have sameStart : (last.withTag tag).head.start = last.head.start := rfl
      rw [sameStart, counted, extent_withTag]
      dsimp only
      omega

/-- One more item behind the others. -/
theorem Hwinfo.Holds.withItem {items : List HwiItem} {owner : Nat}
    (holds : hwi.Holds layout items) (ends : hwi.offset = stop items)
    (lastItem : hwi.lastItem = hwi.offset) (starts : tag.start = stop items)
    (sound : tag.Sound layout) (notPad : tag.isPad = false) (isItem : layout.itemSize ≤ tag.size)
    (fits : tag.size < 4 * 256 ^ layout.fieldBytes)
    (placed : TagPlaced layout hwi after (items ++ [⟨tag, owner, []⟩]) tag.size) :
    after.Holds layout (items ++ [⟨tag, owner, []⟩]) := by
  have tags := allTags_withItem items tag owner
  refine ⟨holds.arranged.withItem starts sound notPad isItem owner, ?_, ?_⟩
  · exact placed.sizes holds tags ends starts sound fits
  · intro item member
    rw [List.mem_append, List.mem_singleton] at member
    rcases member with old | rfl
    · have before := holds.arranged.start_lt (head_mem old)
      rw [placed.old_field holds.arranged tags ends (holds.arranged.itemField old _)
        fun both => by omega]
      exact holds.extents item old
    · have whole := sound.words.1
      have counted := placed.itemsize
      rw [lastItem, written_zero hwi (Nat.le_add_right _ _), Nat.zero_add,
        Nat.mod_eq_of_lt (by omega)] at counted
      have isExtent : (⟨tag, owner, []⟩ : HwiItem).extent.size = tag.size := by
        rw [HwiItem.extent]
        exact Nat.add_zero _
      dsimp only at isExtent ⊢
      rw [isExtent, starts, ← ends, counted]
      omega

/-- A tag that is placed leaves the counts of the items. -/
theorem TagPlaced.counts {items more counted : List HwiItem} {size : Nat}
    (placed : TagPlaced layout hwi after more size) (arranged : Arranged layout items)
    (tags : allTags more = allTags items ++ [tag]) (ends : hwi.offset = stop items)
    (counts : hwi.Counts layout items counted) : after.Counts layout items counted := by
  intro item member
  rw [placed.old_field arranged tags ends (arranged.itemField member _) (by simp)]
  exact counts item member

end Placed

/-! ## A tag that has grown -/

section Longer

variable {front : List HwiItem} {last : HwiItem} {hwi : Hwinfo} {size : Nat}

/-- The last tag of an item, and the item when that tag has grown. -/
theorem HwiItem.exists_last (item : HwiItem) (size : Nat) :
    ∃ before tag, item.all = before ++ [tag] ∧
      (item.longer size).all = before ++ [tag.longer size] := by
  rcases List.eq_nil_or_concat' item.tags with none | ⟨before, tag, some⟩
  · refine ⟨[], item.head, ?_, ?_⟩
    · rw [HwiItem.all, none]
      rfl
    · rw [HwiItem.longer, if_pos none, HwiItem.all, none]
      rfl
  · refine ⟨item.head :: before, tag, ?_, ?_⟩
    · rw [HwiItem.all, some]
      rfl
    · have nonempty : item.tags ≠ [] := by simp [some]
      rw [HwiItem.longer, if_neg nonempty, HwiItem.all, some, List.modifyLast_concat]
      rfl

/-- An item keeps its place and its owner when its last tag grows. -/
theorem HwiItem.longer_head (item : HwiItem) (size : Nat) :
    (item.longer size).owner = item.owner ∧ (item.longer size).head.start = item.head.start ∧
      (item.longer size).head.isPad = item.head.isPad ∧
      item.head.size ≤ (item.longer size).head.size := by
  unfold HwiItem.longer
  split
  · exact ⟨rfl, rfl, rfl, Nat.le_add_right _ _⟩
  · exact ⟨rfl, rfl, rfl, le_refl _⟩

theorem allTags_longer (front : List HwiItem) (last : HwiItem) (size : Nat) :
    ∃ before tag, allTags (front ++ [last]) = before ++ [tag] ∧
      allTags (front ++ [last.longer size]) = before ++ [tag.longer size] := by
  obtain ⟨before, tag, all, allLonger⟩ := last.exists_last size
  refine ⟨allTags front ++ before, tag, ?_, ?_⟩
  · rw [allTags_append, allTags_singleton, all, List.append_assoc]
  · rw [allTags_append, allTags_singleton, allLonger, List.append_assoc]

theorem extent_longer (item : HwiItem) (size : Nat) :
    (item.longer size).extent.size = item.extent.size + size := by
  obtain ⟨before, tag, all, allLonger⟩ := item.exists_last size
  simp only [HwiItem.extent, all, allLonger, List.map_append, total_append, List.map_singleton,
    total_cons, total_nil, HwiTag.block, HwiTag.longer]
  omega

theorem stop_longer (front : List HwiItem) (last : HwiItem) (size : Nat) :
    stop (front ++ [last.longer size]) = stop (front ++ [last]) + size := by
  rw [stop_append, stop_append, stop_singleton, stop_singleton, extent_longer, Nat.add_assoc]

theorem Arranged.longer (arranged : Arranged layout (front ++ [last])) (words : 4 ∣ size)
    (notPad : ∀ before tag, allTags (front ++ [last]) = before ++ [tag] → tag.isPad = false) :
    Arranged layout (front ++ [last.longer size]) := by
  obtain ⟨before, tag, tags, tagsLonger⟩ := allTags_longer front last size
  have lastNotPad := notPad before tag tags
  obtain ⟨laid, isWords, aligned, pads, heads⟩ := arranged
  rw [tags] at laid isWords aligned pads
  rw [List.map_append, laid_append] at laid
  have lastWords := isWords tag (List.mem_append_right _ (List.mem_singleton_self _))
  refine ⟨?_, ?_, ?_, ?_, ?_⟩
  · rw [tagsLonger, List.map_append, laid_append]
    exact ⟨laid.1, laid.2.1, trivial⟩
  · intro other member
    rw [tagsLonger, List.mem_append, List.mem_singleton] at member
    rcases member with old | rfl
    · exact isWords other (List.mem_append_left _ old)
    · exact ⟨dvd_add lastWords.1 words, lastWords.2.trans (Nat.le_add_right _ _)⟩
  · intro other member
    rw [tagsLonger, List.mem_append, List.mem_singleton] at member
    rcases member with old | rfl
    · exact aligned other (List.mem_append_left _ old)
    · exact aligned tag (List.mem_append_right _ (List.mem_singleton_self _))
  · intro other member
    rw [tagsLonger, List.mem_append, List.mem_singleton] at member
    rcases member with old | rfl
    · exact pads other (List.mem_append_left _ old)
    · intro isPad
      exact absurd (lastNotPad.symm.trans isPad) Bool.false_ne_true
  · intro item member
    rw [List.mem_append, List.mem_singleton] at member
    rcases member with old | rfl
    · exact heads item (List.mem_append_left _ old)
    · obtain ⟨isItem, headNotPad⟩ :=
        heads last (List.mem_append_right _ (List.mem_singleton_self _))
      obtain ⟨-, -, samePad, larger⟩ := last.longer_head size
      exact ⟨isItem.trans larger, samePad.trans headNotPad⟩

section Lengthened

variable {before : List HwiTag} {tag : HwiTag} (holds : hwi.Holds layout (front ++ [last]))
  (lastItem : hwi.lastItem = last.head.start)
  (isLast : allTags (front ++ [last]) = before ++ [tag])
include holds lastItem isLast

/-- The fields behind `lengthenTag`. -/
theorem lengthenTag_fields (size : Nat) {place : Nat} {field : HwiField}
    (isField : HasField layout (front ++ [last]) place field) :
    (lengthenTag layout hwi tag.start size).getField layout place field =
      if place = tag.start ∧ field = .size then
        (hwi.getField layout tag.start .size + size / 4) % 256 ^ layout.fieldBytes
      else if place = last.head.start ∧ field = .itemsize then
        (hwi.getField layout last.head.start .itemsize + size / 4) % 256 ^ layout.fieldBytes
      else hwi.getField layout place field := by
  have arranged := holds.arranged
  have tagMember : tag ∈ allTags (front ++ [last]) := by
    rw [isLast]
    exact List.mem_append_right _ (List.mem_singleton_self _)
  have lastMember : last ∈ front ++ [last] := List.mem_append_right _ (List.mem_singleton_self _)
  have hasSize := arranged.hasSize tagMember
  have hasItem := arranged.itemField lastMember .itemsize
  have sizeKept : ∀ value, (hwi.setField layout last.head.start .itemsize value).getField layout
      tag.start .size = hwi.getField layout tag.start .size := by
    intro value
    rw [arranged.getField_setField _ hasSize hasItem, if_neg (by simp)]
  unfold lengthenTag
  rw [lastItem, arranged.getField_setField _ isField hasSize,
    arranged.getField_setField _ isField hasItem, sizeKept]

theorem lengthenTag_behind (size : Nat) {place : Nat} (behind : stop (front ++ [last]) ≤ place) :
    (lengthenTag layout hwi tag.start size).data place = hwi.data place := by
  have arranged := holds.arranged
  have tagMember : tag ∈ allTags (front ++ [last]) := by
    rw [isLast]
    exact List.mem_append_right _ (List.mem_singleton_self _)
  have lastMember : last ∈ front ++ [last] := List.mem_append_right _ (List.mem_singleton_self _)
  have hasItem := arranged.itemField lastMember .itemsize
  rw [← lastItem] at hasItem
  unfold lengthenTag
  rw [arranged.setField_behind _ (arranged.hasSize tagMember) _ behind,
    arranged.setField_behind _ hasItem _ behind]

/-- `lengthenTag` makes the last tag longer. -/
theorem Hwinfo.Holds.longer (words : 4 ∣ size) (notPad : tag.isPad = false)
    (fits : last.extent.size + size < 4 * 256 ^ layout.fieldBytes) :
    (lengthenTag layout hwi tag.start size).Holds layout (front ++ [last.longer size]) := by
  have arranged := holds.arranged
  have fields := @lengthenTag_fields layout front last hwi before tag holds lastItem isLast size
  have lastMember : last ∈ front ++ [last] := List.mem_append_right _ (List.mem_singleton_self _)
  obtain ⟨sameBefore, sameTag, tags, tagsLonger⟩ := allTags_longer front last size
  obtain ⟨rfl, sameLast⟩ := List.append_inj' (isLast.symm.trans tags) rfl
  obtain rfl := List.singleton_inj.mp sameLast
  refine ⟨arranged.longer words ?_, fun other member => ?_, fun item member => ?_⟩
  · intro others final same
    have isFinal := List.singleton_inj.mp (List.append_inj' (isLast.symm.trans same) rfl).2
    exact isFinal ▸ notPad
  · rw [tagsLonger, List.mem_append, List.mem_singleton] at member
    rcases member with old | rfl
    · have oldMember : other ∈ allTags (front ++ [last]) := by
        rw [isLast]
        exact List.mem_append_left _ old
      have elsewhere : other.start ≠ tag.start := by
        have laid := arranged.laid
        rw [isLast, List.map_append, laid_append] at laid
        have inside := (laid.1.inside (List.mem_map_of_mem (f := HwiTag.block) old)).2
        have startsThere : tag.start = 0 + total (before.map HwiTag.block) := laid.2.1
        have nonempty := (arranged.words other oldMember).2
        have four := layout.prefix_four
        simp only [HwiTag.block] at inside
        omega
      rw [fields (arranged.hasSize oldMember), if_neg fun both => elsewhere both.1,
        if_neg (by simp)]
      exact holds.sizes other oldMember
    · have tagMember : tag ∈ allTags (front ++ [last]) := by
        rw [isLast]
        exact List.mem_append_right _ (List.mem_singleton_self _)
      have isSize := holds.sizes tag tagMember
      -- The tag is part of the last item, so that its size fits where the extent does.
      have inExtent : tag.size ≤ last.extent.size := by
        obtain ⟨itemBefore, itemTag, all, -⟩ := last.exists_last size
        have same : allTags front ++ itemBefore ++ [itemTag] = before ++ [tag] := by
          rw [← isLast, allTags_append, allTags_singleton, all, List.append_assoc]
        have isTag := List.singleton_inj.mp (List.append_inj' same rfl).2
        simp only [HwiItem.extent, all, List.map_append, total_append, List.map_singleton,
          total_cons, total_nil, HwiTag.block, isTag]
        omega
      show 4 * (lengthenTag layout hwi tag.start size).getField layout tag.start .size =
        tag.size + size
      rw [fields (arranged.hasSize tagMember), if_pos ⟨rfl, rfl⟩, Nat.mod_eq_of_lt (by omega)]
      omega
  · rw [List.mem_append, List.mem_singleton] at member
    rcases member with old | rfl
    · have oldMember : item ∈ front ++ [last] := List.mem_append_left _ old
      have before := arranged.left.start_lt (head_mem old)
      have lastStart := arranged.last_start
      rw [fields (arranged.itemField oldMember _), if_neg (by simp),
        if_neg fun both => by omega]
      exact holds.extents item oldMember
    · have isExtent := holds.extents last lastMember
      rw [(last.longer_head size).2.1, extent_longer, fields (arranged.itemField lastMember _),
        if_neg (by simp), if_pos ⟨rfl, rfl⟩,
        Nat.mod_eq_of_lt (by omega)]
      omega

/-- `lengthenTag` leaves the counts of the items. -/
theorem Hwinfo.Counts.longer {counted : List HwiItem} (size : Nat)
    (counts : hwi.Counts layout (front ++ [last]) counted) :
    (lengthenTag layout hwi tag.start size).Counts layout (front ++ [last.longer size])
      counted := by
  have fields := @lengthenTag_fields layout front last hwi before tag holds lastItem isLast size
  have same : ∀ item ∈ front ++ [last],
      (lengthenTag layout hwi tag.start size).getField layout item.head.start .kids =
        children layout counted item.head.start := by
    intro item member
    rw [fields (holds.arranged.itemField member _), if_neg (by simp),
      if_neg (by simp)]
    exact counts item member
  intro item member
  rw [List.mem_append, List.mem_singleton] at member
  rcases member with old | rfl
  · exact same item (List.mem_append_left _ old)
  · rw [(last.longer_head size).2.1]
    exact same last (List.mem_append_right _ (List.mem_singleton_self _))

end Lengthened

end Longer

/-! ## The other fields of an item -/

section Assigned

variable {items : List HwiItem} {hwi : Hwinfo} {other : Nat} {field : HwiField}

/-- The other fields do not change what the section holds. -/
theorem Hwinfo.Holds.setField (holds : hwi.Holds layout items)
    (isOther : HasField layout items other field) (notSize : field ≠ .size)
    (notItemsize : field ≠ .itemsize) (value : Nat) :
    (hwi.setField layout other field value).Holds layout items := by
  refine ⟨holds.arranged, fun tag member => ?_, fun item member => ?_⟩
  · rw [holds.arranged.getField_setField hwi (holds.arranged.hasSize member) isOther,
      if_neg fun both => notSize both.2.symm]
    exact holds.sizes tag member
  · rw [holds.arranged.getField_setField hwi (holds.arranged.itemField member _) isOther,
      if_neg fun both => notItemsize both.2.symm]
    exact holds.extents item member

theorem Hwinfo.Counts.setField {counted : List HwiItem} (counts : hwi.Counts layout items counted)
    (arranged : Arranged layout items) (isOther : HasField layout items other field)
    (notKids : field ≠ .kids) (value : Nat) :
    (hwi.setField layout other field value).Counts layout items counted := by
  intro item member
  rw [arranged.getField_setField hwi (arranged.itemField member _) isOther,
    if_neg fun both => notKids both.2.symm]
  exact counts item member

/-- The count of children depends on the owners alone. -/
theorem children_congr {one other : List HwiItem}
    (same : one.map HwiItem.owner = other.map HwiItem.owner) (place : Nat) :
    children layout one place = children layout other place := by
  have byOwner : ∀ items : List HwiItem, children layout items place =
      (items.map HwiItem.owner).countP fun owner =>
        owner ≠ layout.nullOff ∧ layout.off2tag owner = place := by
    intro items
    rw [List.countP_map]
    rfl
  rw [byOwner, byOwner, same]

theorem children_concat (items : List HwiItem) (item : HwiItem) (place : Nat) :
    children layout (items ++ [item]) place = children layout items place +
      if item.owner ≠ layout.nullOff ∧ layout.off2tag item.owner = place then 1 else 0 := by
  rw [children, List.countP_append, List.countP_singleton]
  simp only [decide_eq_true_eq]
  rfl

/-- Counting a child of an item. -/
theorem Hwinfo.Counts.child {counted : List HwiItem} {child : HwiItem}
    (counts : hwi.Counts layout items counted)
    (arranged : Arranged layout items) {parent : HwiItem} (member : parent ∈ items)
    (owned : child.owner ≠ layout.nullOff)
    (isParent : parent.head.start = layout.off2tag child.owner)
    (fits : children layout counted parent.head.start + 1 < 256 ^ layout.fieldBytes) :
    (hwi.setField layout (layout.off2tag child.owner) .kids
      (hwi.getField layout (layout.off2tag child.owner) .kids + 1)).Counts layout items
        (counted ++ [child]) := by
  intro item itemMember
  have isOther := arranged.itemField member .kids
  rw [isParent] at isOther
  rw [arranged.getField_setField hwi (arranged.itemField itemMember _) isOther, children_concat]
  by_cases here : item.head.start = layout.off2tag child.owner
  · rw [if_pos ⟨here, rfl⟩, if_pos ⟨owned, here.symm⟩, ← here, counts item itemMember, here,
      ← isParent, Nat.mod_eq_of_lt fits]
  · rw [if_neg fun both => here both.1, if_neg fun both => here both.2.symm]
    exact counts item itemMember

/-- An item without an owner is nobody's child. -/
theorem Hwinfo.Counts.orphan {counted : List HwiItem} {child : HwiItem}
    (counts : hwi.Counts layout items counted)
    (orphan : child.owner = layout.nullOff) : hwi.Counts layout items (counted ++ [child]) := by
  intro item member
  rw [children_concat, if_neg fun both => both.1 orphan]
  exact counts item member

end Assigned

end Bcm2711.Startup
