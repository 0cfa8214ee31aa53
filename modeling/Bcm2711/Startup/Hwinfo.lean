import Bcm2711.Lib.Chain
import Bcm2711.Startup.Syspage

/-! # The hardware information section

`hwinfo` is a chain of tags.  Every tag starts with its size in words and its name; a tag of
size zero ends the chain.  Some tags are items: they count the words up to the next item, and
name the item that owns them.

The declarations in `hw/sysinfo.h` are not part of the repository; what the code needs of
them is a `HwiLayout`.
-/

namespace Bcm2711.Startup

open Blocks

/-- The fields of `hwi_prefix` and of the rest of `hwi_item`. -/
inductive HwiField where
  | size
  | name
  | itemsize
  | itemname
  | owner
  | kids
deriving DecidableEq, Repr

/-- The fields every tag has. -/
def HwiField.InPrefix : HwiField → Prop
  | .size | .name => True
  | _ => False

/-- What the code needs to know of the declarations in `hw/sysinfo.h`. -/
structure HwiLayout where
  /-- The bytes of each field. -/
  fieldBytes : Nat
  fieldOff : HwiField → Nat
  /-- `sizeof(struct hwi_prefix)`. -/
  prefixSize : Nat
  /-- `sizeof(struct hwi_item)`. -/
  itemSize : Nat
  /-- `sizeof(struct hwi_pad)` and `HWI_TAG_ALIGN_pad`. -/
  padSize : Nat
  padAlign : Nat
  groupSize : Nat
  groupAlign : Nat
  busSize : Nat
  busAlign : Nat
  /-- `HWI_NULL_OFF`. -/
  nullOff : Nat
  /-- `hwi_off2tag` and `hwi_tag2off`, with places from the start of the section. -/
  off2tag : Nat → Nat
  tag2off : Nat → Nat
  prefix_four : prefixSize = 4
  pad_four : padSize = 4
  padAlign_four : padAlign = 4
  prefix_inside : ∀ field : HwiField, field.InPrefix → fieldOff field + fieldBytes ≤ prefixSize
  item_inside : ∀ field, fieldOff field + fieldBytes ≤ itemSize
  fields_apart : ∀ one other, one ≠ other →
    fieldOff one + fieldBytes ≤ fieldOff other ∨ fieldOff other + fieldBytes ≤ fieldOff one
  prefix_le_item : prefixSize ≤ itemSize
  group_item : itemSize ≤ groupSize
  group_words : 4 ∣ groupSize
  group_aligned : groupAlign = 4 ∨ groupAlign = 8
  bus_item : itemSize ≤ busSize
  bus_words : 4 ∣ busSize
  bus_aligned : busAlign = 4 ∨ busAlign = 8
  items_fit : groupSize + busSize + padSize < 4 * 256 ^ fieldBytes
  items_lt : groupSize + busSize < 2 ^ 31
  off2tag_tag2off : off2tag (tag2off 0) = 0

/-- The bytes and the size of the section, the size of the system page and its maximum, and
the statics of `hwi_alloc.c`. -/
structure Hwinfo where
  data : Bytes.Memory
  size : Nat
  totalSize : Nat
  maxSize : Nat
  offset : Nat
  lastItem : Nat

/-- What `add_string` does for a name: where it is, and what the strings grow by for it. -/
structure AddedString where
  off : Nat
  grown : Nat
deriving DecidableEq, Repr

/-- The system page grows within its maximum: the check in `grow_syspage_section`. -/
def growTotal (hwi : Hwinfo) (add : Nat) : Result Hwinfo :=
  let newSize := Word.add 32 hwi.totalSize (roundSize add)
  if newSize > hwi.maxSize then
    .error (.crash
      s!"Syspage memory request of {newSize} exceeds maximum of {hwi.maxSize} bytes.\n")
  else .ok { hwi with totalSize := newSize }

/-- `grow_syspage_section(&lsp.hwinfo, add)`. -/
def growHwinfo (hwi : Hwinfo) (add : Nat) : Result Hwinfo :=
  if add > 0 then do
    let hwi ← growTotal hwi add
    .ok { hwi with
      data := Bytes.fill hwi.data hwi.size 0 (roundSize add)
      size := Word.add 32 hwi.size (roundSize add) }
  else .ok hwi

/-- `add_string`; the strings stand behind the section or before it, but not in it. -/
def addString (hwi : Hwinfo) (name : AddedString) : Result (Hwinfo × Nat) :=
  if name.grown > 0 then do
    let hwi ← growTotal hwi name.grown
    .ok (hwi, name.off)
  else .ok (hwi, name.off)

section Tags

variable (layout : HwiLayout)

/-- A field of the tag at a place. -/
def Hwinfo.getField (hwi : Hwinfo) (place : Nat) (field : HwiField) : Nat :=
  Bytes.load hwi.data layout.fieldBytes (place + layout.fieldOff field)

/-- Assign to a field of the tag at a place. -/
def Hwinfo.setField (hwi : Hwinfo) (place : Nat) (field : HwiField) (value : Nat) : Hwinfo :=
  { hwi with
    data := Bytes.store hwi.data layout.fieldBytes (place + layout.fieldOff field) value }

/-- The part of `hwi_alloc_tag` that makes room for a tag and the prefix behind it. -/
def makeRoom (hwi : Hwinfo) (size : Nat) : Result Hwinfo :=
  let need := Word.add 32 size layout.prefixSize
  let spare := Word.sub 32 hwi.size hwi.offset
  if need > spare then
    -- grow by chunk of 128 bytes.
    growHwinfo hwi (ROUND (Word.sub 32 need spare) 128 % 2 ^ 32)
  else .ok hwi

/-- The rest of `hwi_alloc_tag`: count the tag in the last item, and write its prefix. -/
def writeTag (hwi : Hwinfo) (nameOff size : Nat) : Hwinfo :=
  let itemsize := hwi.getField layout hwi.lastItem .itemsize
  let hwi := hwi.setField layout hwi.lastItem .itemsize (itemsize + size / 4)
  let hwi := hwi.setField layout hwi.offset .size (size / 4)
  let hwi := hwi.setField layout hwi.offset .name nameOff
  { hwi with offset := Word.add 32 hwi.offset size }

/-- `hwi_alloc_tag` behind its `align_tag`. -/
def placeTag (hwi : Hwinfo) (name : AddedString) (size : Nat) : Result (Hwinfo × Nat) := do
  let (hwi, nameOff) ← addString hwi name
  let hwi ← makeRoom layout hwi size
  .ok (writeTag layout hwi nameOff size, hwi.offset)

/-- The bytes from a place to the next one of this alignment. -/
def alignGap (offset align : Nat) : Nat := subPaddr (ROUND offset align) offset % 2 ^ 32

/-- `align_tag`; a pad tag that is not aligned itself asks for pad tags without end. -/
def alignTag (hwi : Hwinfo) (pad : AddedString) (align : Nat) : Result Hwinfo :=
  if alignGap hwi.offset align ≠ 0 then
    if alignGap hwi.offset layout.padAlign ≠ 0 then .error .stuck
    else do
      let (hwi, _) ← placeTag layout hwi pad layout.padSize
      .ok hwi
  else .ok hwi

/-- `hwi_alloc_tag`. -/
def hwiAllocTag (hwi : Hwinfo) (name pad : AddedString) (size align : Nat) :
    Result (Hwinfo × Nat) := do
  let hwi ← alignTag layout hwi pad align
  placeTag layout hwi name size

/-- `hwi_alloc_item`. -/
def hwiAllocItem (hwi : Hwinfo) (name pad : AddedString) (size align : Nat)
    (itemname : AddedString) (owner : Nat) : Result (Hwinfo × Nat) := do
  let (hwi, savedIn) ← addString hwi itemname
  let hwi ← alignTag layout hwi pad align
  let hwi := { hwi with lastItem := hwi.offset }
  let (hwi, tag) ← hwiAllocTag layout hwi name pad size align
  let hwi := hwi.setField layout tag .itemname savedIn
  let hwi := hwi.setField layout tag .owner owner
  if owner ≠ layout.nullOff then
    let ownerTag := layout.off2tag owner
    let kids := hwi.getField layout ownerTag .kids
    .ok (hwi.setField layout ownerTag .kids (kids + 1), tag)
  else .ok (hwi, tag)

/-- The part of `hwi_grow_tag` that counts the words, in the last item and in the tag. -/
def lengthenTag (hwi : Hwinfo) (offset size : Nat) : Hwinfo :=
  let itemsize := hwi.getField layout hwi.lastItem .itemsize
  let hwi := hwi.setField layout hwi.lastItem .itemsize (itemsize + size / 4)
  let words := hwi.getField layout offset .size
  hwi.setField layout offset .size (words + size / 4)

/-- `hwi_grow_tag`; the `offset` it advances at its end is its own parameter. -/
def hwiGrowTag (hwi : Hwinfo) (offset size : Nat) : Result (Hwinfo × Nat) := do
  let hwi ← growHwinfo hwi size
  .ok (lengthenTag layout hwi offset size, offset)

/-- The names `hwi_default` adds. -/
structure DefaultNames where
  group : AddedString
  rootHw : AddedString
  bus : AddedString
  busUnknown : AddedString
  pad : AddedString

/-- `hwi_default`. -/
def hwiDefault (hwi : Hwinfo) (names : DefaultNames) : Result Hwinfo := do
  let (hwi, tag) ← hwiAllocItem layout hwi names.group names.pad layout.groupSize
    layout.groupAlign names.rootHw layout.nullOff
  let (hwi, _) ← hwiAllocItem layout hwi names.bus names.pad layout.busSize layout.busAlign
    names.busUnknown (layout.tag2off tag)
  .ok hwi

/-- A call that adds to the section. -/
inductive HwiCall where
  | allocTag (name pad : AddedString) (size align : Nat)
  | allocItem (name pad : AddedString) (size align : Nat) (itemname : AddedString) (owner : Nat)
  | growTag (offset size : Nat)
deriving DecidableEq, Repr

/-- A call, with the place of the tag it returns. -/
def hwiStep (hwi : Hwinfo) : HwiCall → Result (Hwinfo × Nat)
  | .allocTag name pad size align => hwiAllocTag layout hwi name pad size align
  | .allocItem name pad size align itemname owner =>
      hwiAllocItem layout hwi name pad size align itemname owner
  | .growTag offset size => hwiGrowTag layout hwi offset size

/-! ## Walking the section -/

/-- A prefix may be read at a place. -/
def Hwinfo.readable (hwi : Hwinfo) (place : Nat) : Bool := place + layout.prefixSize ≤ hwi.size

/-- The tag at a place ends the chain. -/
def Hwinfo.ends (hwi : Hwinfo) (place : Nat) : Bool := hwi.getField layout place .size = 0

/-- The places of the tags from the start of the section, and of the terminator. -/
def Hwinfo.walkTags (hwi : Hwinfo) : Option (List Nat × Nat) :=
  Chain.walk (hwi.readable layout) (hwi.ends layout)
    (fun place => 4 * hwi.getField layout place .size) (hwi.size + 1) 0

/-- The places of the items from the start of the section, and of the terminator. -/
def Hwinfo.walkItems (hwi : Hwinfo) : Option (List Nat × Nat) :=
  Chain.walk (hwi.readable layout) (hwi.ends layout)
    (fun place => 4 * hwi.getField layout place .itemsize) (hwi.size + 1) 0

end Tags

/-! ## Items with their tags -/

/-- A tag, with the alignment it was asked for. -/
structure HwiTag where
  start : Nat
  size : Nat
  align : Nat
  isPad : Bool
deriving DecidableEq, Repr

/-- The bytes of a tag. -/
def HwiTag.block (tag : HwiTag) : Block := ⟨tag.start, tag.size⟩

/-- An item: its own tag, its owner, and the tags up to the next item. -/
structure HwiItem where
  head : HwiTag
  owner : Nat
  tags : List HwiTag
deriving DecidableEq, Repr

/-- All tags of an item. -/
def HwiItem.all (item : HwiItem) : List HwiTag := item.head :: item.tags

/-- All tags of all items. -/
def allTags (items : List HwiItem) : List HwiTag := items.flatMap HwiItem.all

/-- The bytes up to the next item. -/
def HwiItem.extent (item : HwiItem) : Block :=
  ⟨item.head.start, total (item.all.map HwiTag.block)⟩

/-- An item without its pad tags. -/
def HwiItem.withoutPads (item : HwiItem) : HwiItem :=
  { item with tags := item.tags.filter fun tag => !tag.isPad }

/-- The number of items that name the one at a place as their owner. -/
def children (layout : HwiLayout) (items : List HwiItem) (place : Nat) : Nat :=
  items.countP fun item => item.owner ≠ layout.nullOff ∧ layout.off2tag item.owner = place

/-- The place behind all tags. -/
def stop (items : List HwiItem) : Nat := total ((allTags items).map HwiTag.block)

/-- An item with one more tag. -/
def HwiItem.withTag (item : HwiItem) (tag : HwiTag) : HwiItem :=
  { item with tags := item.tags ++ [tag] }

/-- A longer tag. -/
def HwiTag.longer (size : Nat) (tag : HwiTag) : HwiTag := { tag with size := tag.size + size }

/-- An item whose last tag has grown; its own tag, when it has no other. -/
def HwiItem.longer (size : Nat) (item : HwiItem) : HwiItem :=
  if item.tags = [] then { item with head := item.head.longer size }
  else { item with tags := item.tags.modifyLast (HwiTag.longer size) }

/-- The items and tags that were asked for. -/
def recordCall (items : List HwiItem) (event : Runs.Event HwiCall Nat) : List HwiItem :=
  match event.call with
  | .allocTag _ _ size align => items.modifyLast (·.withTag ⟨event.returned, size, align, false⟩)
  | .allocItem _ _ size align _ owner =>
      items ++ [⟨⟨event.returned, size, align, false⟩, owner, []⟩]
  | .growTag _ size => items.modifyLast (HwiItem.longer size)

end Bcm2711.Startup
