import Bcm2711.Lib.Run
import Bcm2711.Startup.HwinfoAlloc

/-! # The chain along every run

Walking the section visits the tags that were asked for, with pad tags between them, and
walking it by items visits the items.  This holds along every run in which nothing is
allocated any more once a tag has grown.
-/

namespace Bcm2711.Startup

open Blocks Fallible Runs

variable {layout : HwiLayout}

/-- Walking the section gives these items with these tags. -/
structure Hwinfo.Chained (layout : HwiLayout) (hwi : Hwinfo) (items : List HwiItem) : Prop where
  /-- The walk reads the terminator behind the last tag, inside the section. -/
  tagsWalked : hwi.walkTags layout = some ((allTags items).map HwiTag.start, stop items)
  sizes : ∀ tag ∈ allTags items, 4 * hwi.getField layout tag.start .size = tag.size
  apart : (allTags items).Pairwise fun one other => Disjoint one.block.range other.block.range
  aligned : ∀ tag ∈ allTags items, tag.align ∣ tag.start
  pads : ∀ tag ∈ allTags items, tag.isPad = true → tag.size = layout.padSize
  itemsWalked : hwi.walkItems layout = some (items.map (·.head.start), stop items)
  extents : ∀ item ∈ items, ∀ tag ∈ item.all, tag.block.range ⊆ Set.Ico item.head.start
    (item.head.start + 4 * hwi.getField layout item.head.start .itemsize)
  kids : ∀ item ∈ items,
    hwi.getField layout item.head.start .kids = children layout items item.head.start

/-- The section is a chain of the items and tags that were asked for, with pad tags. -/
def Hwinfo.WellFormed (layout : HwiLayout) (hwi : Hwinfo) (asked : List HwiItem) : Prop :=
  ∃ items, items.map HwiItem.withoutPads = asked ∧ hwi.Chained layout items

/-! ## What is held can be walked -/

section Walks

variable {hwi : Hwinfo} {items counted : List HwiItem} {grown : Nat}

/-- The tags of an item stand one behind the other from its start on. -/
theorem Arranged.item_laid (arranged : Arranged layout items) {item : HwiItem}
    (member : item ∈ items) : Laid item.head.start (item.all.map HwiTag.block) := by
  obtain ⟨front, back, rfl⟩ := List.append_of_mem member
  have laid := arranged.laid
  have split : allTags (front ++ item :: back) = allTags front ++ (item.all ++ allTags back) := by
    rw [allTags_append]
    rfl
  rw [split, List.map_append, List.map_append, laid_append, laid_append] at laid
  have itemLaid := laid.2.1
  have starts : item.head.start = 0 + total ((allTags front).map HwiTag.block) := itemLaid.1
  rwa [← starts] at itemLaid

/-- Items stand one behind the other when their tags do. -/
theorem extents_laid {first : Nat} (laid : Laid first ((allTags items).map HwiTag.block)) :
    Laid first (items.map HwiItem.extent) ∧
      total (items.map HwiItem.extent) = total ((allTags items).map HwiTag.block) := by
  induction items generalizing first with
  | nil => exact ⟨trivial, rfl⟩
  | cons item items ih =>
      have split : allTags (item :: items) = item.all ++ allTags items := rfl
      rw [split, List.map_append, laid_append] at laid
      obtain ⟨restLaid, restTotal⟩ := ih laid.2
      rw [List.map_cons, total_cons, split, List.map_append, total_append, restTotal]
      exact ⟨⟨laid.1.1, restLaid⟩, rfl⟩

variable (inv : HwiInv layout hwi items counted grown)
include inv

theorem HwiInv.readable_of_le {place : Nat} (inside : place ≤ stop items) :
    hwi.readable layout place = true :=
  decide_eq_true ((Nat.add_le_add_right inside _).trans inv.room)

/-- The chain goes on at every tag. -/
theorem HwiInv.goesOn {tag : HwiTag} (member : tag ∈ allTags items) :
    hwi.ends layout tag.start = false := by
  have isSize := inv.holds.sizes tag member
  have nonempty := (inv.holds.arranged.words tag member).2
  have four := layout.prefix_four
  refine decide_eq_false fun none => ?_
  rw [none] at isSize
  omega

/-- The chain ends behind the last tag. -/
theorem HwiInv.ends_stop : hwi.ends layout (stop items) = true := by
  have room := inv.room
  have inside := layout.prefix_inside .size trivial
  refine decide_eq_true (Bytes.load_zeros fun byte below => inv.zeros _ ?_ ?_)
  · omega
  · omega

theorem HwiInv.walkTags :
    hwi.walkTags layout = some ((allTags items).map HwiTag.start, stop items) := by
  have arranged := inv.holds.arranged
  have isBlock : ∀ {block}, block ∈ (allTags items).map HwiTag.block →
      ∃ tag ∈ allTags items, tag.block = block := fun member => List.mem_map.mp member
  have nonempty : ∀ block ∈ (allTags items).map HwiTag.block, 0 < block.size := by
    intro block member
    obtain ⟨tag, inTags, rfl⟩ := isBlock member
    have least := (arranged.words tag inTags).2
    have four := layout.prefix_four
    exact Nat.lt_of_lt_of_le (by omega) least
  have steps := Chain.length_le_total nonempty
  have room := inv.room
  have isStop : total ((allTags items).map HwiTag.block) = stop items := rfl
  have walked := @Chain.walk_laid (hwi.readable layout) (hwi.ends layout)
    (fun place => 4 * hwi.getField layout place .size) 0 (hwi.size + 1) _ arranged.laid
    (fun block member => ?_) (fun block member => ?_) (fun block member => ?_) ?_ ?_ (by omega)
  · rw [List.map_map, Nat.zero_add] at walked
    exact walked
  · obtain ⟨tag, inTags, rfl⟩ := isBlock member
    exact inv.holds.sizes tag inTags
  · obtain ⟨tag, inTags, rfl⟩ := isBlock member
    exact inv.readable_of_le (arranged.start_lt inTags).le
  · obtain ⟨tag, inTags, rfl⟩ := isBlock member
    exact inv.goesOn inTags
  · rw [Nat.zero_add]
    exact inv.readable_of_le (le_refl _)
  · rw [Nat.zero_add]
    exact inv.ends_stop

theorem HwiInv.walkItems :
    hwi.walkItems layout = some (items.map (·.head.start), stop items) := by
  have arranged := inv.holds.arranged
  obtain ⟨laid, isTotal⟩ := extents_laid arranged.laid
  have isStop : total (items.map HwiItem.extent) = stop items := isTotal
  have isBlock : ∀ {block}, block ∈ items.map HwiItem.extent →
      ∃ item ∈ items, item.extent = block := fun member => List.mem_map.mp member
  have nonempty : ∀ block ∈ items.map HwiItem.extent, 0 < block.size := by
    intro block member
    obtain ⟨item, inItems, rfl⟩ := isBlock member
    have least := (arranged.words item.head (head_mem inItems)).2
    have four := layout.prefix_four
    have inExtent : item.head.size ≤ item.extent.size := Nat.le_add_right _ _
    omega
  have steps := Chain.length_le_total nonempty
  have room := inv.room
  have walked := @Chain.walk_laid (hwi.readable layout) (hwi.ends layout)
    (fun place => 4 * hwi.getField layout place .itemsize) 0 (hwi.size + 1) _ laid
    (fun block member => ?_) (fun block member => ?_) (fun block member => ?_) ?_ ?_ (by omega)
  · rw [List.map_map, isStop, Nat.zero_add] at walked
    exact walked
  · obtain ⟨item, inItems, rfl⟩ := isBlock member
    exact inv.holds.extents item inItems
  · obtain ⟨item, inItems, rfl⟩ := isBlock member
    exact inv.readable_of_le (arranged.start_lt (head_mem inItems)).le
  · obtain ⟨item, inItems, rfl⟩ := isBlock member
    exact inv.goesOn (head_mem inItems)
  · rw [isStop, Nat.zero_add]
    exact inv.readable_of_le (le_refl _)
  · rw [isStop, Nat.zero_add]
    exact inv.ends_stop

end Walks

/-- What the section holds is what walking it gives. -/
theorem HwiInv.chained {hwi : Hwinfo} {items : List HwiItem} {grown : Nat}
    (inv : HwiInv layout hwi items items grown) : hwi.Chained layout items := by
  have arranged := inv.holds.arranged
  have blocksApart := arranged.laid.disjoint
  rw [List.pairwise_map] at blocksApart
  refine ⟨inv.walkTags, inv.holds.sizes, blocksApart, arranged.aligned, arranged.pads,
    inv.walkItems, ?_, inv.counts⟩
  intro item member tag inItem byte inTag
  have inside := (arranged.item_laid member).inside (List.mem_map_of_mem (f := HwiTag.block) inItem)
  rw [inv.holds.extents item member]
  exact ⟨inside.1.trans inTag.1, inTag.2.trans_le inside.2⟩

/-! ## Runs after `hwi_default` -/

/-- The section `init_syspage_memory` makes, before `hwi_default`. -/
structure Hwinfo.Fresh (layout : HwiLayout) (hwi : Hwinfo) : Prop where
  size : hwi.size = roundedUp layout.prefixSize
  zeros : ∀ place < hwi.size, hwi.data place = 0
  offset : hwi.offset = 0
  lastItem : hwi.lastItem = 0

/-- The items of `hwi_default`. -/
def defaultItems (layout : HwiLayout) : List HwiItem :=
  [⟨⟨0, layout.groupSize, layout.groupAlign, false⟩, layout.nullOff, []⟩,
    ⟨⟨layout.groupSize + (layout.busAlign - layout.groupSize % layout.busAlign) % layout.busAlign,
      layout.busSize, layout.busAlign, false⟩, layout.tag2off 0, []⟩]

/-- The items and tags asked for along a history, with the places that were returned. -/
def asked (layout : HwiLayout) (history : List (Event HwiCall Nat)) : List HwiItem :=
  history.foldl recordCall (defaultItems layout)

/-- The bytes tags have grown by along a history. -/
def grownBytes (history : List (Event HwiCall Nat)) : Nat :=
  (history.map fun event => match event.call with
    | .growTag _ size => size
    | _ => 0).sum

/-- The place of the tag allocated last. -/
def lastPlace (items : List HwiItem) : Option Nat :=
  (allTags items).getLast?.map HwiTag.start

/-- A tag with a prefix, in words, aligned as tags are, in a section below 4 GiB. -/
structure TagFits (layout : HwiLayout) (hwi : Hwinfo) (size align : Nat) : Prop where
  words : 4 ∣ size
  nonempty : 0 < size
  power : align = 4 ∨ align = 8
  section_lt : hwi.size + size + 512 < 2 ^ 32

/-- The tag that grows is the last one, and what is counted fits the fields. -/
def HwiFits (layout : HwiLayout) (history : List (Event HwiCall Nat)) (hwi : Hwinfo) :
    HwiCall → Prop
  | .allocTag _ _ size align => TagFits layout hwi size align ∧
      hwi.offset - hwi.lastItem + layout.padSize + size < 4 * 256 ^ layout.fieldBytes
  | .allocItem _ _ size align _ owner => TagFits layout hwi size align ∧
      layout.itemSize ≤ size ∧
      hwi.offset - hwi.lastItem + layout.padSize < 4 * 256 ^ layout.fieldBytes ∧
      size < 4 * 256 ^ layout.fieldBytes ∧ OwnerFits layout (asked layout history) owner
  | .growTag offset size => lastPlace (asked layout history) = some offset ∧ 4 ∣ size ∧
      hwi.size + size + 512 < 2 ^ 32 ∧
      hwi.offset + grownBytes history - hwi.lastItem + size < 4 * 256 ^ layout.fieldBytes

/-- The call allocates a tag. -/
def HwiCall.Allocates : HwiCall → Prop
  | .growTag _ _ => False
  | _ => True

/-- A call that fits, and nothing is allocated once a tag has grown. -/
def HwiAllowed (layout : HwiLayout) (history : List (Event HwiCall Nat)) (hwi : Hwinfo)
    (call : HwiCall) : Prop :=
  HwiFits layout history hwi call ∧ (call.Allocates → grownBytes history = 0)

instance TagFits.decidable (layout : HwiLayout) (hwi : Hwinfo) (size align : Nat) :
    Decidable (TagFits layout hwi size align) :=
  decidable_of_iff (4 ∣ size ∧ 0 < size ∧ (align = 4 ∨ align = 8) ∧
    hwi.size + size + 512 < 2 ^ 32)
    ⟨fun fits => ⟨fits.1, fits.2.1, fits.2.2.1, fits.2.2.2⟩,
      fun fits => ⟨fits.words, fits.nonempty, fits.power, fits.section_lt⟩⟩

instance OwnerFits.decidable (layout : HwiLayout) (items : List HwiItem) (owner : Nat) :
    Decidable (OwnerFits layout items owner) :=
  inferInstanceAs (Decidable (_ ∨ _))

instance HwiFits.decidable (layout : HwiLayout) (history : List (Event HwiCall Nat))
    (hwi : Hwinfo) : ∀ call, Decidable (HwiFits layout history hwi call)
  | .allocTag _ _ _ _ => inferInstanceAs (Decidable (_ ∧ _))
  | .allocItem _ _ _ _ _ _ => inferInstanceAs (Decidable (_ ∧ _))
  | .growTag _ _ => inferInstanceAs (Decidable (_ ∧ _))

instance HwiCall.decidableAllocates : ∀ call : HwiCall, Decidable call.Allocates
  | .allocTag _ _ _ _ => isTrue trivial
  | .allocItem _ _ _ _ _ _ => isTrue trivial
  | .growTag _ _ => isFalse id

instance HwiAllowed.decidable (layout : HwiLayout) (history : List (Event HwiCall Nat))
    (hwi : Hwinfo) (call : HwiCall) : Decidable (HwiAllowed layout history hwi call) :=
  inferInstanceAs (Decidable (_ ∧ _))

theorem asked_append (history : List (Event HwiCall Nat)) (event : Event HwiCall Nat) :
    asked layout (history ++ [event]) = recordCall (asked layout history) event := by
  rw [asked, List.foldl_append]
  rfl

theorem grownBytes_append (history : List (Event HwiCall Nat)) (event : Event HwiCall Nat) :
    grownBytes (history ++ [event]) = grownBytes history + grownBytes [event] := by
  simp [grownBytes]

/-- The items held along a run, the last tag no pad. -/
structure HwiRunInv (layout : HwiLayout) (history : List (Event HwiCall Nat)) (hwi : Hwinfo)
    (items : List HwiItem) : Prop where
  inv : HwiInv layout hwi items items (grownBytes history)
  same : items.map HwiItem.withoutPads = asked layout history
  last : ∃ before tag, allTags items = before ++ [tag] ∧ tag.isPad = false

theorem HwiRunInv.nonempty {history : List (Event HwiCall Nat)} {hwi : Hwinfo}
    {items : List HwiItem} (inv : HwiRunInv layout history hwi items) : items ≠ [] := by
  rintro rfl
  obtain ⟨before, tag, tags, -⟩ := inv.last
  cases before <;> cases tags

/-- Dropping pads drops them from the tags. -/
theorem allTags_withoutPads {items : List HwiItem}
    (heads : ∀ item ∈ items, item.head.isPad = false) :
    allTags (items.map HwiItem.withoutPads) = (allTags items).filter fun tag => !tag.isPad := by
  induction items with
  | nil => rfl
  | cons item items ih =>
      have notPad := heads item List.mem_cons_self
      have others := ih fun other member => heads other (List.mem_cons_of_mem _ member)
      have split : allTags (item :: items) = item.all ++ allTags items := rfl
      have splitMap : allTags ((item :: items).map HwiItem.withoutPads) =
          item.withoutPads.all ++ allTags (items.map HwiItem.withoutPads) := rfl
      rw [split, splitMap, List.filter_append, others, HwiItem.all, HwiItem.all,
        List.filter_cons_of_pos (by simp [notPad])]
      rfl

/-- The tag that was asked for last is the last tag. -/
theorem HwiRunInv.lastPlace_eq {history : List (Event HwiCall Nat)} {hwi : Hwinfo}
    {items : List HwiItem} (inv : HwiRunInv layout history hwi items) {before : List HwiTag}
    {tag : HwiTag} (tags : allTags items = before ++ [tag]) (notPad : tag.isPad = false) :
    lastPlace (asked layout history) = some tag.start := by
  have heads := fun item member => (inv.inv.holds.arranged.heads item member).2
  rw [lastPlace, ← inv.same, allTags_withoutPads heads, tags, List.filter_append,
    List.filter_cons_of_pos (by simp [notPad]), List.filter_nil, List.getLast?_concat]
  rfl

/-- An item without pads has grown as the item has. -/
theorem withoutPads_longer {item : HwiItem} {before : List HwiTag} {tag : HwiTag} (size : Nat)
    (all : item.all = before ++ [tag]) (notPad : tag.isPad = false) :
    (item.longer size).withoutPads = item.withoutPads.longer size := by
  rcases List.eq_nil_or_concat' item.tags with none | ⟨others, last, some⟩
  · have noneLeft : item.withoutPads.tags = [] := by
      rw [HwiItem.withoutPads, none]
      rfl
    rw [HwiItem.longer, if_pos none, HwiItem.longer, if_pos noneLeft]
    rfl
  · have isLast : last = tag := by
      rw [HwiItem.all, some, ← List.cons_append] at all
      exact List.singleton_inj.mp (List.append_inj' all rfl).2
    have kept : item.withoutPads.tags = (others.filter fun tag => !tag.isPad) ++ [tag] := by
      rw [HwiItem.withoutPads, some, isLast, List.filter_append,
        List.filter_cons_of_pos (by simp [notPad]), List.filter_nil]
    have nonempty : item.tags ≠ [] := by simp [some]
    have nonemptyLeft : item.withoutPads.tags ≠ [] := by simp [kept]
    have dropped : (others ++ [tag.longer size]).filter (fun tag => !tag.isPad) =
        (others.filter fun tag => !tag.isPad) ++ [tag.longer size] := by
      have longerNotPad : (tag.longer size).isPad = false := notPad
      rw [List.filter_append, List.filter_cons_of_pos (by simp [longerNotPad]), List.filter_nil]
    rw [HwiItem.longer, if_neg nonempty, HwiItem.longer, if_neg nonemptyLeft, kept, some,
      List.modifyLast_concat, List.modifyLast_concat, isLast, HwiItem.withoutPads, dropped]
    rfl

/-- Every allowed call keeps the items. -/
theorem hwiStep_keeps {history : List (Event HwiCall Nat)} {hwi after : Hwinfo}
    {items : List HwiItem} {call : HwiCall} {place : Nat}
    (inv : HwiRunInv layout history hwi items) (isAllowed : HwiAllowed layout history hwi call)
    (stepped : hwiStep layout hwi call = .ok (after, place)) :
    ∃ more, HwiRunInv layout (history ++ [⟨call, place⟩]) after more := by
  have prefixFour := layout.prefix_four
  cases call with
  | allocTag name pad size align =>
      obtain ⟨⟨fits, extentFits⟩, ungrown⟩ := isAllowed
      have ungrown := ungrown trivial
      have words := fits.words
      have nonempty := fits.nonempty
      have noneGrown := inv.inv
      rw [ungrown] at noneGrown
      obtain ⟨more, allocated, isMore⟩ := hwiAllocTag_ok noneGrown inv.nonempty fits.power
        ⟨words, by omega⟩ fits.section_lt extentFits stepped
      obtain ⟨before, tags⟩ := allocated.last
      refine ⟨more, ?_, ?_, before, _, tags, rfl⟩
      · rw [grownBytes_append, ungrown]
        exact allocated.inv
      · rw [asked_append, isMore, inv.same]
        rfl
  | allocItem name pad size align itemname owner =>
      obtain ⟨⟨fits, isItem, padFits, sizeFits, ownerFits⟩, ungrown⟩ := isAllowed
      have ungrown := ungrown trivial
      have noneGrown := inv.inv
      rw [ungrown] at noneGrown
      rw [← inv.same] at ownerFits
      have owner_places : items.map (fun item => (item.head.start, item.owner)) =
          (items.map HwiItem.withoutPads).map fun item => (item.head.start, item.owner) := by
        rw [List.map_map]
        rfl
      obtain ⟨more, allocated, isMore⟩ := hwiAllocItem_ok noneGrown fits.power fits.words isItem
        fits.section_lt (fun _ => padFits) sizeFits (ownerFits.congr owner_places) stepped
      obtain ⟨before, tags⟩ := allocated.last
      refine ⟨more, ?_, ?_, before, _, tags, rfl⟩
      · rw [grownBytes_append, ungrown]
        exact allocated.inv
      · rw [asked_append, isMore, inv.same]
        rfl
  | growTag offset size =>
      obtain ⟨⟨isLast, words, small, fits⟩, -⟩ := isAllowed
      obtain ⟨before, tag, tags, notPad⟩ := inv.last
      rw [inv.lastPlace_eq tags notPad] at isLast
      obtain ⟨front, last, rfl⟩ := (List.eq_nil_or_concat' items).resolve_left inv.nonempty
      have grewInv := hwiGrowTag_ok inv.inv tags notPad (Option.some_inj.mp isLast) words small fits
        stepped
      obtain ⟨itemBefore, itemTag, all, allLonger⟩ := last.exists_last size
      have sameTags : allTags front ++ itemBefore ++ [itemTag] = before ++ [tag] := by
        rw [← tags, allTags_append, allTags_singleton, all, List.append_assoc]
      have isTag := List.singleton_inj.mp (List.append_inj' sameTags rfl).2
      have longerTags : allTags (front ++ [last.longer size]) =
          allTags front ++ itemBefore ++ [itemTag.longer size] := by
        rw [allTags_append, allTags_singleton, allLonger, List.append_assoc]
      refine ⟨front ++ [last.longer size], ?_, ?_, _, _, longerTags, isTag ▸ notPad⟩
      · rw [grownBytes_append]
        exact grewInv
      · have isAsked := inv.same
        rw [List.map_append, List.map_singleton] at isAsked
        have recorded : recordCall (asked layout history) ⟨.growTag offset size, place⟩ =
            (asked layout history).modifyLast (HwiItem.longer size) := rfl
        rw [asked_append, recorded, ← isAsked, List.modifyLast_concat, List.map_append,
          List.map_singleton, withoutPads_longer size all (isTag ▸ notPad)]

/-- `hwi_default` leaves its two items. -/
theorem hwiDefault_ok {fresh start : Hwinfo} {names : DefaultNames} (isFresh : fresh.Fresh layout)
    (ran : hwiDefault layout fresh names = .ok start) :
    ∃ items, HwiRunInv layout [] start items := by
  unfold hwiDefault at ran
  obtain ⟨⟨middle, group⟩, groupRan, ran⟩ := bind_eq_ok.mp ran
  obtain ⟨⟨final, bus⟩, busRan, ran⟩ := bind_eq_ok.mp ran
  have prefixFour := layout.prefix_four
  have padFour := layout.pad_four
  have sizes := layout.items_lt
  have fits := layout.items_fit
  have isSize := isFresh.size
  have rounded : roundedUp layout.prefixSize = 8 := by rw [prefixFour]; rfl
  have empty : HwiInv layout fresh [] [] 0 := by
    refine ⟨⟨⟨trivial, ?_, ?_, ?_, ?_⟩, ?_, ?_⟩, ?_, ?_, ?_, ?_, isFresh.offset, ?_⟩
    all_goals try exact fun _ member => absurd member List.not_mem_nil
    · exact fun place _ below => isFresh.zeros place below
    · show 0 + layout.prefixSize ≤ fresh.size
      omega
    · intro front last same
      cases front <;> cases same
  obtain ⟨one, allocatedGroup, isOne⟩ := hwiAllocItem_ok empty layout.group_aligned
    layout.group_words layout.group_item (by omega) (fun nonempty => absurd rfl nonempty)
    (by omega) (.inl rfl) groupRan
  have atStart : group = 0 := by
    rw [allocatedGroup.behind, isFresh.offset]
    rcases layout.group_aligned with four | eight
    · rw [four]
    · rw [eight]
  rw [List.map_nil, List.nil_append, atStart] at isOne
  obtain ⟨item, rfl, isItem⟩ := List.map_eq_singleton_iff.mp isOne
  have isHead : item.head.start = 0 := congrArg (fun item => item.head.start) isItem
  have isOwner : item.owner = layout.nullOff := congrArg HwiItem.owner isItem
  have isLastItem : middle.lastItem = 0 := (allocatedGroup.inv.lastItem [] item rfl).trans isHead
  have ends := allocatedGroup.ends
  have grew := allocatedGroup.grew
  rw [atStart] at busRan ends
  have noChildren : children layout [item] (layout.off2tag (layout.tag2off 0)) = 0 := by
    refine List.countP_eq_zero.mpr fun other member counted => ?_
    rw [List.mem_singleton.mp member] at counted
    exact (of_decide_eq_true counted).1 isOwner
  have byteFits : 1 < 256 ^ layout.fieldBytes := by omega
  obtain ⟨two, allocatedBus, isTwo⟩ := hwiAllocItem_ok allocatedGroup.inv layout.bus_aligned
    layout.bus_words layout.bus_item (by omega) (fun _ => by omega) (by omega)
    (.inr ⟨item, List.mem_singleton_self _, isHead.trans layout.off2tag_tag2off.symm,
      by rw [noChildren]; exact byteFits⟩) busRan
  obtain ⟨before, tags⟩ := allocatedBus.last
  have isBus := allocatedBus.behind
  rw [ends, Nat.zero_add] at isBus
  cases ran
  refine ⟨two, allocatedBus.inv, ?_, before, _, tags, rfl⟩
  rw [isTwo, isBus, List.map_singleton, isItem]
  rfl

/-! ## The section in the system page -/

section Page

variable {pageLayout : SyspageLayout} {page : Syspage} {offset lastItem : Nat}

/-- The section in a system page. -/
def Syspage.hwinfo (pageLayout : SyspageLayout) (page : Syspage) (offset lastItem : Nat) :
    Hwinfo :=
  ⟨fun place => page.memory ((page.lsp .hwinfo).p + place), (page.lsp .hwinfo).size,
    page.totalSize pageLayout, page.maxSize pageLayout, offset, lastItem⟩

/-- The same bytes in sections of the same size. -/
structure SameSection (one other : Hwinfo) : Prop where
  size : one.size = other.size
  totalSize : one.totalSize = other.totalSize
  maxSize : one.maxSize = other.maxSize
  offset : one.offset = other.offset
  lastItem : one.lastItem = other.lastItem
  data : ∀ place < other.size, one.data place = other.data place

theorem growTotal_page (valid : page.Valid pageLayout) {add : Nat}
    (fits : page.totalSize pageLayout + roundedUp add ≤ page.maxSize pageLayout) :
    growTotal (page.hwinfo pageLayout offset lastItem) add =
      .ok { page.hwinfo pageLayout offset lastItem with
        totalSize := page.totalSize pageLayout + roundedUp add } := by
  have bounded := valid.maxSize_lt
  have rounded : roundSize add = roundedUp add := roundSize_eq (by omega)
  have sum : Word.add 32 (page.totalSize pageLayout) (roundedUp add) =
      page.totalSize pageLayout + roundedUp add := Word.add_of_lt (by omega)
  have isSum : Word.add 32 (page.hwinfo pageLayout offset lastItem).totalSize (roundSize add) =
      page.totalSize pageLayout + roundedUp add := by
    rw [rounded]
    exact sum
  unfold growTotal
  dsimp only
  rw [isSum]
  exact if_neg (Nat.not_lt.mpr fits)

/-- `growHwinfo` is what `grow_syspage_section` does to the section. -/
theorem growHwinfo_page (valid : page.Valid pageLayout) {add : Nat}
    (fits : page.totalSize pageLayout + roundedUp add ≤ page.maxSize pageLayout) :
    ∃ after hwi, growSyspageSection pageLayout page .hwinfo add = .ok after ∧
      growHwinfo (page.hwinfo pageLayout offset lastItem) add = .ok hwi ∧
      SameSection hwi (after.hwinfo pageLayout offset lastItem) := by
  obtain ⟨after, ran, grew⟩ := growSyspageSection_ok valid .hwinfo fits
  have bounded := valid.maxSize_lt
  have inside := valid.inside .hwinfo
  have lowest := valid.base_le .hwinfo
  have isSize := grew.kept.size .hwinfo
  rw [if_pos rfl] at isSize
  have rounded : roundSize add = roundedUp add := roundSize_eq (by omega)
  have sum : Word.add 32 (page.lsp .hwinfo).size (roundedUp add) =
      (page.lsp .hwinfo).size + roundedUp add := Word.add_of_lt (by omega)
  refine ⟨after, { page.hwinfo pageLayout offset lastItem with
    data := Bytes.fill (page.hwinfo pageLayout offset lastItem).data (page.lsp .hwinfo).size 0
      (roundedUp add)
    size := (page.lsp .hwinfo).size + roundedUp add
    totalSize := page.totalSize pageLayout + roundedUp add }, ran, ?_, ?_⟩
  · by_cases positive : add > 0
    · rw [growHwinfo, if_pos positive, growTotal_page valid fits]
      show Except.ok _ = _
      rw [rounded]
      dsimp only [Syspage.hwinfo]
      rw [sum]
    · have none_added : add = 0 := Nat.eq_zero_of_not_pos positive
      have nothing : ∀ memory : Bytes.Memory, ∀ dst, Bytes.fill memory dst 0 0 = memory := by
        intro memory dst
        funext place
        exact Bytes.fill_of_not_mem (Nat.lt_or_ge place dst)
      rw [growHwinfo, if_neg positive, none_added]
      have roundedZero : roundedUp 0 = 0 := rfl
      rw [roundedZero, nothing]
      rfl
  · refine ⟨isSize.symm, grew.total.symm, grew.maximum.symm, rfl, rfl, fun place below => ?_⟩
    by_cases inBefore : place < (page.lsp .hwinfo).size
    · have kept := grew.kept.contents .hwinfo place inBefore (fun header => by cases header)
      exact (Bytes.fill_of_not_mem (.inl inBefore)).trans kept.symm
    · have above := Nat.not_lt.mp inBefore
      have below : place < (page.lsp .hwinfo).size + roundedUp add := isSize ▸ below
      exact (Bytes.fill_of_mem ⟨above, below⟩).trans (grew.kept.zeros place above below).symm

/-- Growing another section, as `add_string` does, is what `growTotal` does. -/
theorem growTotal_otherSection (valid : page.Valid pageLayout) {sect : Section}
    (other : sect ≠ .hwinfo) {add : Nat}
    (fits : page.totalSize pageLayout + roundedUp add ≤ page.maxSize pageLayout) :
    ∃ after hwi, growSyspageSection pageLayout page sect add = .ok after ∧
      growTotal (page.hwinfo pageLayout offset lastItem) add = .ok hwi ∧
      SameSection hwi (after.hwinfo pageLayout offset lastItem) := by
  obtain ⟨after, ran, grew⟩ := growSyspageSection_ok valid sect fits
  have isSize := grew.kept.size .hwinfo
  rw [if_neg other.symm, Nat.add_zero] at isSize
  refine ⟨after, _, ran, growTotal_page valid fits, isSize.symm, grew.total.symm,
    grew.maximum.symm, rfl, rfl, fun place below => ?_⟩
  have inBefore : place < (page.lsp .hwinfo).size := isSize ▸ below
  exact (grew.kept.contents .hwinfo place inBefore (fun header => by cases header)).symm

end Page

/-- **The hardware information is a whole chain** along every run of allowed calls after
`hwi_default`. -/
theorem hwinfo_run {fresh start : Hwinfo} {names : DefaultNames} (isFresh : fresh.Fresh layout)
    (ran : hwiDefault layout fresh names = .ok start) {history : List (Event HwiCall Nat)}
    {state : Hwinfo} (run : Run (hwiStep layout) (HwiAllowed layout) start history state) :
    state.WellFormed layout (asked layout history) := by
  have starts := hwiDefault_ok isFresh ran
  have along : ∃ items, HwiRunInv layout history state items := by
    refine @Run.invariant _ _ _ _ _ _ _
      (fun history state => ∃ items, HwiRunInv layout history state items) starts ?_ _ _ run
    intro history state call after place ⟨items, inv⟩ isAllowed stepped
    exact hwiStep_keeps inv isAllowed stepped
  obtain ⟨items, inv⟩ := along
  exact ⟨items, inv.same, inv.inv.chained⟩

/-! ## A small section -/

/-- Two-byte fields, and items of six of them. -/
def smallFieldOff : HwiField → Nat
  | .size => 0
  | .name => 2
  | .itemsize => 4
  | .itemname => 6
  | .owner => 8
  | .kids => 10

theorem smallFields_prefix (field : HwiField) (inPrefix : field.InPrefix) :
    smallFieldOff field + 2 ≤ 4 := by
  cases field
  · decide
  · decide
  all_goals exact inPrefix.elim

theorem smallFields_item (field : HwiField) : smallFieldOff field + 2 ≤ 12 := by
  cases field <;> decide

theorem smallFields_apart (one other : HwiField) (different : one ≠ other) :
    smallFieldOff one + 2 ≤ smallFieldOff other ∨ smallFieldOff other + 2 ≤ smallFieldOff one := by
  cases one <;> cases other <;> first | exact absurd rfl different | decide

theorem three_words : 4 ∣ 12 := ⟨3, rfl⟩

theorem twelve_le : 12 ≤ 12 := le_refl 12

theorem four_le_twelve : 4 ≤ 12 := by decide

theorem small_items_fit : 12 + 12 + 4 < 4 * 256 ^ 2 := by decide

theorem small_items_lt : 12 + 12 < 2 ^ 31 := by decide

/-- Items of twelve bytes, with offsets in bytes. -/
def smallHwi : HwiLayout :=
  { fieldBytes := 2, fieldOff := smallFieldOff, prefixSize := 4, itemSize := 12, padSize := 4,
    padAlign := 4, groupSize := 12, groupAlign := 4, busSize := 12, busAlign := 4,
    nullOff := 0xFFFF, off2tag := id, tag2off := id, prefix_four := rfl, pad_four := rfl,
    padAlign_four := rfl, prefix_inside := smallFields_prefix, item_inside := smallFields_item,
    fields_apart := smallFields_apart, prefix_le_item := four_le_twelve, group_item := twelve_le,
    group_words := three_words, group_aligned := Or.inl rfl, bus_item := twelve_le,
    bus_words := three_words, bus_aligned := Or.inl rfl, items_fit := small_items_fit,
    items_lt := small_items_lt, off2tag_tag2off := rfl }

/-- A section of eight zeros in a system page with room. -/
def smallFresh : Hwinfo := ⟨fun _ => 0, 8, 1024, 4096, 0, 0⟩

/-- A name that is there already. -/
def knownName : AddedString := ⟨1, 0⟩

/-- Names that are there already. -/
def smallNames : DefaultNames := ⟨knownName, knownName, knownName, knownName, knownName⟩

theorem smallFresh_fresh : smallFresh.Fresh smallHwi := ⟨rfl, fun _ _ => rfl, rfl, rfl⟩

section SmallRuns

variable {allowed : List (Event HwiCall Nat) → Hwinfo → HwiCall → Prop}
  [∀ history state call, Decidable (allowed history state call)]

/-- The history of these calls, where all of them are allowed and return. -/
def smallRun (allowed : List (Event HwiCall Nat) → Hwinfo → HwiCall → Prop)
    [∀ history state call, Decidable (allowed history state call)] (calls : List HwiCall) :
    Option (List (Event HwiCall Nat)) :=
  match hwiDefault smallHwi smallFresh smallNames with
  | .ok start => (Run.execute (hwiStep smallHwi) allowed [] start calls).map Prod.fst
  | .error _ => none

theorem run_of_smallRun {calls : List HwiCall} {history : List (Event HwiCall Nat)}
    (ran : smallRun allowed calls = some history) :
    ∃ start state, hwiDefault smallHwi smallFresh smallNames = .ok start ∧
      Run (hwiStep smallHwi) allowed start history state := by
  unfold smallRun at ran
  split at ran
  · next start started =>
      obtain ⟨⟨found, state⟩, executed, rfl⟩ := Option.map_eq_some_iff.mp ran
      exact ⟨start, state, started, Run.of_execute .start executed⟩
  · cases ran

end SmallRuns

/-- An item below the bus with one tag, which needs a pad tag, and grows. -/
def smallHistory : List (Event HwiCall Nat) :=
  [⟨.allocItem knownName knownName 12 4 knownName 12, 24⟩,
    ⟨.allocTag knownName knownName 8 8, 40⟩, ⟨.growTag 40 4, 40⟩]

theorem hwinfo_run_small :
    ∃ start state, hwiDefault smallHwi smallFresh smallNames = .ok start ∧
      Run (hwiStep smallHwi) (HwiAllowed smallHwi) start smallHistory state ∧
      state.WellFormed smallHwi (asked smallHwi smallHistory) := by
  have ran : smallRun (HwiAllowed smallHwi) (smallHistory.map Event.call) = some smallHistory := by
    decide
  obtain ⟨start, state, started, run⟩ := run_of_smallRun ran
  exact ⟨start, state, started, run, hwinfo_run smallFresh_fresh started run⟩

theorem allTags_withoutPads_sublist (items : List HwiItem) :
    (allTags (items.map HwiItem.withoutPads)).Sublist (allTags items) := by
  induction items with
  | nil => exact List.Sublist.refl _
  | cons item items ih =>
      have tags : item.withoutPads.all.Sublist item.all :=
        List.filter_sublist.cons_cons item.head
      exact tags.append ih

/-- The tags that were asked for are apart in a well-formed section. -/
theorem Hwinfo.WellFormed.apart {hwi : Hwinfo} {items : List HwiItem}
    (wellFormed : hwi.WellFormed layout items) :
    (allTags items).Pairwise fun one other => Disjoint one.block.range other.block.range := by
  obtain ⟨padded, rfl, chained⟩ := wellFormed
  exact chained.apart.sublist (allTags_withoutPads_sublist padded)

/-- A tag that is allocated after another has grown is placed over it. -/
theorem grown_tag_overwritten :
    ∃ start state history, hwiDefault smallHwi smallFresh smallNames = .ok start ∧
      Run (hwiStep smallHwi) (HwiFits smallHwi) start history state ∧
      ¬ state.WellFormed smallHwi (asked smallHwi history) := by
  let history : List (Event HwiCall Nat) :=
    [⟨.allocTag knownName knownName 8 4, 24⟩, ⟨.growTag 24 4, 24⟩,
      ⟨.allocTag knownName knownName 8 4, 32⟩]
  have ran : smallRun (HwiFits smallHwi) (history.map Event.call) = some history := by
    decide
  obtain ⟨start, state, started, run⟩ := run_of_smallRun ran
  refine ⟨start, state, history, started, run, fun wellFormed => ?_⟩
  have tags : allTags (asked smallHwi history) = [⟨0, 12, 4, false⟩, ⟨12, 12, 4, false⟩,
      ⟨24, 12, 4, false⟩, ⟨32, 8, 4, false⟩] := by decide
  have apart := wellFormed.apart
  rw [tags] at apart
  have grownApart := (List.pairwise_cons.mp (List.pairwise_cons.mp
    (List.pairwise_cons.mp apart).2).2).1 _ (List.mem_singleton_self _)
  have inGrown : 32 ∈ (⟨24, 12, 4, false⟩ : HwiTag).block.range := ⟨by decide, by decide⟩
  have inPlaced : 32 ∈ (⟨32, 8, 4, false⟩ : HwiTag).block.range := ⟨by decide, by decide⟩
  exact Set.disjoint_left.mp grownApart inGrown inPlaced

end Bcm2711.Startup
