import Mathlib

/-! # The kick table of the watchdog

`wd_parse_hwinfo` reads the registers of a kick from the tags of a device.  The value of a register
stands behind its offset or in front of it, and may come in two halves, each with the offset.
-/

namespace Bcm2711.Wdtkick

def MAX_NUM_REG : Nat := 5
def DEFAULT_REG_LEN : Nat := 0x1000

/-- `operation_id_t`. -/
inductive Operation where
  | bitswap
  | write
deriving DecidableEq, Repr

/-- A `regname` tag: the string of its name, and its `offset`, which may be a value. -/
structure Regname where
  name : List Char
  offset : BitVec 32
deriving DecidableEq, Repr

/-- What `wdtkick` reads and writes of `wdt_init_t`. -/
structure Wdi where
  physbase : BitVec 64
  kickTime : Int
  len : Nat
  priority : Int
  operation : Option Operation
  verbose : Nat
  writeWidth : BitVec 32
  enableWidth : BitVec 32
  enableMask : BitVec 32
  enableCondition : BitVec 32
  enableRegOffset : BitVec 32
  writeReg : Fin MAX_NUM_REG → BitVec 32 × BitVec 32
  numWrites : Nat
  incrementIndex : Bool
deriving DecidableEq

/-- How a function stops: with `EXIT_FAILURE`, or where it writes outside `write_reg`. -/
inductive Stop where
  | failure
  | outOfBounds
deriving DecidableEq, Repr

/-- The device "wdog", where its attributes are found. -/
structure Wdog where
  len : Nat
  base : BitVec 64
  clkfreq : Int
deriving DecidableEq, Repr

/-- The devices of the hwinfo section, each with its `regname` tags. -/
structure Hwinfo where
  wdog : Option Wdog
  options : Option (List Regname)
  bitswap : Option (List Regname)
  regwrite : Option (List Regname)
deriving DecidableEq, Repr

namespace Wdi

/-- The mapping is at least as long as an offset. -/
def raise (wdi : Wdi) (offset : BitVec 32) : Wdi :=
  { wdi with len := if wdi.len < offset.toNat then offset.toNat else wdi.len }

/-- A write to the current entry of `write_reg`. -/
def store (wdi : Wdi) (change : BitVec 32 × BitVec 32 → BitVec 32 × BitVec 32) : Except Stop Wdi :=
  if inside : wdi.numWrites < MAX_NUM_REG then
    .ok { wdi with
      writeReg := Function.update wdi.writeReg ⟨wdi.numWrites, inside⟩
        (change (wdi.writeReg ⟨wdi.numWrites, inside⟩)) }
  else .error .outOfBounds

def storeOffset (wdi : Wdi) (offset : BitVec 32) : Except Stop Wdi :=
  (wdi.store fun entry => (offset, entry.2)).map (raise · offset)

def storeValue (wdi : Wdi) (value : BitVec 32) : Except Stop Wdi :=
  wdi.store fun entry => (entry.1, value)

def orValue (wdi : Wdi) (value : BitVec 32) : Except Stop Wdi :=
  wdi.store fun entry => (entry.1, entry.2 ||| value)

end Wdi

/-! ## The devices -/

/-- `parse_hwinfo_init`. -/
def parseHwinfoInit (hwinfo : Hwinfo) (wdi : Wdi) : Wdi :=
  match hwinfo.wdog with
  | none => wdi
  | some wdog =>
      let wdi := { wdi with len := if wdi.len < wdog.len then wdog.len else wdi.len }
      let wdi := { wdi with physbase := if 0 < wdog.base then wdog.base else wdi.physbase }
      { wdi with kickTime := wdog.clkfreq }

/-- The loop of `parse_hwinfo_opt`, which ends at a name that it does not know. -/
def readOptions : List Regname → Wdi → Wdi
  | [], wdi => wdi
  | tag :: tags, wdi =>
      if tag.name = "write_width".toList then
        readOptions tags { wdi with writeWidth := tag.offset }
      else if tag.name = "enable_width".toList then
        readOptions tags { wdi with enableWidth := tag.offset }
      else if tag.name = "enable_mask".toList then
        readOptions tags { wdi with enableMask := tag.offset }
      else if tag.name = "enable_condition".toList then
        readOptions tags { wdi with enableCondition := tag.offset }
      else if tag.name = "enable_offset".toList then
        readOptions tags ({ wdi with enableRegOffset := tag.offset }.raise tag.offset)
      else wdi

/-- `parse_hwinfo_opt`. -/
def parseHwinfoOpt (hwinfo : Hwinfo) (wdi : Wdi) : Wdi := readOptions (hwinfo.options.getD []) wdi

/-- `parse_hwinfo_bitswap`: the operation, and the tags of the device that is left in `hwi_off`,
where a device that is not there has none. -/
def parseHwinfoBitswap (hwinfo : Hwinfo) (wdi : Wdi) : Wdi × List Regname :=
  match hwinfo.bitswap, hwinfo.regwrite with
  | some tags, _ => ({ wdi with operation := some .bitswap }, tags)
  | none, some tags => ({ wdi with operation := some .write }, tags)
  | none, none => (wdi, [])

/-- The tags of the kick device. -/
def kickTags (hwinfo : Hwinfo) : List Regname :=
  (hwinfo.bitswap.orElse fun _ => hwinfo.regwrite).getD []

/-! ## The loop over the tags -/

/-- Which part of a register's value a tag gives. -/
inductive Part where
  | whole
  | low
  | high
deriving DecidableEq, Repr

/-- What the name of a tag says. -/
inductive Kind where
  | offset
  | value (part : Part)
  | other
deriving DecidableEq, Repr

/-- The comparisons of a tag's name. -/
def Regname.kind (tag : Regname) : Kind :=
  if tag.name = "offset".toList then .offset
  else if tag.name = "value".toList then .value .whole
  else if tag.name = "value32_lo".toList then .value .low
  else if tag.name = "value32_hi".toList then .value .high
  else .other

/-- A value that stands behind its offset. -/
def takeValue (wdi : Wdi) (part : Part) (value : BitVec 32) : Except Stop Wdi :=
  match part with
  | .whole => wdi.storeValue value
  | .low => (wdi.storeValue value).map fun wdi => { wdi with incrementIndex := false }
  | .high => wdi.orValue (value <<< 16)

/-- `parse_hwinfo_value` up to its `hwi_tag_find`: a value that stands in front of its offset. -/
def parseHwinfoValue (wdi : Wdi) (part : Part) (value : BitVec 32) : Except Stop Wdi :=
  (takeValue wdi part value).bind (·.storeValue value)

/-- The end of the loop's body. -/
def Wdi.advance (wdi : Wdi) : Wdi :=
  if wdi.incrementIndex then { wdi with numWrites := wdi.numWrites + 1 }
  else { wdi with incrementIndex := true }

/-- Where `hwi_tag_find` is called: at the head of the loop, behind an offset, or behind a value in
`parse_hwinfo_value`. -/
inductive Point where
  | head
  | behindOffset
  | behindValue
deriving DecidableEq, Repr

/-- The loop of `wd_parse_hwinfo`, from a call of `hwi_tag_find`. -/
def parseTags : List Regname → Point → Wdi → Except Stop Wdi
  | [], .head, wdi => .ok wdi
  | [], .behindOffset, wdi =>
      if wdi.operation = some .bitswap then
        (wdi.storeValue 0xFFFFFFFF).map fun wdi => { wdi with numWrites := wdi.numWrites + 1 }
      else .error .failure
  | [], .behindValue, _ => .error .failure
  | tag :: tags, .head, wdi =>
      if MAX_NUM_REG ≤ wdi.numWrites then .error .failure
      else
        match tag.kind with
        | .offset => (wdi.storeOffset tag.offset).bind (parseTags tags .behindOffset)
        | .value part => (parseHwinfoValue wdi part tag.offset).bind (parseTags tags .behindValue)
        | .other => .error .failure
  | tag :: tags, .behindOffset, wdi =>
      match tag.kind with
      | .value part =>
          (takeValue wdi part tag.offset).bind fun wdi => parseTags tags .head wdi.advance
      | .offset =>
          if wdi.operation = some .bitswap then
            (wdi.storeValue 0xFFFFFFFF).bind fun wdi =>
              let wdi := { wdi with numWrites := wdi.numWrites + 1 }
              if MAX_NUM_REG ≤ wdi.numWrites then .error .failure
              else (wdi.storeOffset tag.offset).bind (parseTags tags .behindOffset)
          else .error .failure
      | .other => .error .failure
  | tag :: tags, .behindValue, wdi =>
      match tag.kind with
      | .offset => (wdi.storeOffset tag.offset).bind fun wdi => parseTags tags .head wdi.advance
      | .value _ | .other => .error .failure

/-- `wd_parse_hwinfo`. -/
def wdParseHwinfo (hwinfo : Hwinfo) (wdi : Wdi) : Except Stop Wdi :=
  let wdi := parseHwinfoOpt hwinfo (parseHwinfoInit hwinfo wdi)
  let (wdi, tags) := parseHwinfoBitswap hwinfo wdi
  parseTags tags .head wdi

/-- What `main` sets before; the other fields are what is on the stack. -/
def start (stack : Wdi) : Wdi :=
  { stack with
    priority := 10
    kickTime := -1
    len := DEFAULT_REG_LEN
    physbase := 0
    writeWidth := 32
    enableWidth := 32
    enableMask := 0
    enableRegOffset := 0
    numWrites := 0
    incrementIndex := true
    operation := none
    verbose := 0 }

/-! ## What the tags list -/

/-- An offset with a part of the value, which may stand in front of it. -/
structure Group where
  offset : BitVec 32
  value : BitVec 32
  part : Part
  early : Bool
deriving DecidableEq, Repr

/-- The tags in groups of an offset and a value; an offset without a value has all bits in
bit-swap mode. -/
def groups (bitswap : Bool) : List Regname → Option (List Group)
  | [] => some []
  | [tag] =>
      if bitswap ∧ tag.kind = .offset then some [⟨tag.offset, 0xFFFFFFFF, .whole, false⟩] else none
  | first :: second :: tags =>
      match first.kind, second.kind with
      | .offset, .value part =>
          (groups bitswap tags).map (⟨first.offset, second.offset, part, false⟩ :: ·)
      | .value part, .offset =>
          (groups bitswap tags).map (⟨second.offset, first.offset, part, true⟩ :: ·)
      | .offset, .offset =>
          if bitswap then
            (groups bitswap (second :: tags)).map (⟨first.offset, 0xFFFFFFFF, .whole, false⟩ :: ·)
          else none
      | _, _ => none

/-- The registers with their values; two halves belong to one register. -/
def listed : List Group → Option (List (BitVec 32 × BitVec 32))
  | [] => some []
  | ⟨offset, value, .whole, _⟩ :: rest => (listed rest).map ((offset, value) :: ·)
  | ⟨offset, lo, .low, _⟩ :: ⟨other, hi, .high, _⟩ :: rest =>
      if offset = other then (listed rest).map ((offset, lo ||| hi <<< 16) :: ·) else none
  | _ => none

/-- The entries of `write_reg` that are in use. -/
def Wdi.table (wdi : Wdi) : List (BitVec 32 × BitVec 32) :=
  (List.ofFn wdi.writeReg).take wdi.numWrites

/-- The registers that the tags list are the table, where there is room for them; other tags are
rejected. -/
def ReadsTable (bitswap : Bool) (tags : List Regname) (outcome : Except Stop Wdi) : Prop :=
  match (groups bitswap tags).bind listed with
  | some pairs =>
      if pairs.length ≤ MAX_NUM_REG then
        ∃ after, outcome = .ok after ∧ after.table = pairs ∧ after.numWrites = pairs.length
      else outcome = .error .failure
  | none => outcome = .error .failure

/-- The number of the registers of groups, each counted where it is complete. -/
def registers (list : List Group) : Nat := (list.filter (·.part ≠ .low)).length

/-- The tags are no groups, or too many registers are complete before the last group. -/
def Refused (bitswap : Bool) (tags : List Regname) : Prop :=
  match groups bitswap tags with
  | some list => MAX_NUM_REG ≤ registers list.dropLast
  | none => True

/-- Every low half is followed by the high half of its register, and that one stands behind its
offset, or the low half and the shift make no difference. -/
def JoinsHalves : List Group → Prop
  | [] => True
  | ⟨_, _, .whole, _⟩ :: rest => JoinsHalves rest
  | ⟨offset, lo, .low, _⟩ :: ⟨other, hi, .high, early⟩ :: rest =>
      offset = other ∧ (early → lo ||| hi <<< 16 = hi) ∧ JoinsHalves rest
  | _ => False

variable {wdi after : Wdi} {first second tag : Regname} {tags : List Regname} {part : Part}

/-! ## One group -/

/-- The current entry changed. -/
def Wdi.modify (wdi : Wdi) (change : BitVec 32 × BitVec 32 → BitVec 32 × BitVec 32) : Wdi :=
  { wdi with
    writeReg := fun place =>
      if place.val = wdi.numWrites then change (wdi.writeReg place) else wdi.writeReg place }

theorem Wdi.modify_modify (wdi : Wdi)
    (before behind : BitVec 32 × BitVec 32 → BitVec 32 × BitVec 32) :
    (wdi.modify before).modify behind = wdi.modify fun entry => behind (before entry) := by
  unfold Wdi.modify
  dsimp only
  congr 1
  funext place
  by_cases current : place.val = wdi.numWrites
  · rw [if_pos current, if_pos current, if_pos current]
  · rw [if_neg current, if_neg current, if_neg current]

/-- A write to an entry that is there changes the entry. -/
theorem Wdi.store_eq (inside : wdi.numWrites < MAX_NUM_REG)
    (change : BitVec 32 × BitVec 32 → BitVec 32 × BitVec 32) :
    wdi.store change = .ok (wdi.modify change) := by
  unfold Wdi.store Wdi.modify
  rw [dif_pos inside]
  congr 2
  funext place
  by_cases current : place.val = wdi.numWrites
  · have same : place = ⟨wdi.numWrites, inside⟩ := Fin.ext current
    rw [if_pos current, same, Function.update_self]
  · rw [if_neg current, Function.update_of_ne]
    intro same
    exact current (congrArg Fin.val same)

theorem Wdi.storeOffset_eq (inside : wdi.numWrites < MAX_NUM_REG) (offset : BitVec 32) :
    wdi.storeOffset offset = .ok ((wdi.modify fun entry => (offset, entry.2)).raise offset) := by
  rw [storeOffset, store_eq inside]
  rfl

/-- The value of an entry behind a part of it. -/
def written : (part : Part) → (early : Bool) → (value old : BitVec 32) → BitVec 32
  | .high, false, value, old => old ||| value <<< 16
  | .high, true, value, _ | .whole, _, value, _ | .low, _, value, _ => value

/-- The next step of the loop stays at the entry behind a low half. -/
def Wdi.stays (wdi : Wdi) : Part → Wdi
  | .low => { wdi with incrementIndex := false }
  | .whole | .high => wdi

/-- The entry is complete unless it is a low half. -/
def Wdi.counts (wdi : Wdi) : Part → Wdi
  | .low => wdi
  | .whole | .high => { wdi with numWrites := wdi.numWrites + 1 }

theorem takeValue_eq (inside : wdi.numWrites < MAX_NUM_REG) (part : Part) (value : BitVec 32) :
    takeValue wdi part value =
      .ok ((wdi.modify fun entry => (entry.1, written part false value entry.2)).stays part) := by
  have stored := fun change => @Wdi.store_eq wdi inside change
  cases part with
  | whole => exact stored fun entry => (entry.1, value)
  | low =>
      rw [takeValue, Wdi.storeValue, stored]
      rfl
  | high => exact stored fun entry => (entry.1, entry.2 ||| value <<< 16)

/-- The value is stored once more as it is. -/
theorem parseHwinfoValue_eq (inside : wdi.numWrites < MAX_NUM_REG) (part : Part)
    (value : BitVec 32) :
    parseHwinfoValue wdi part value =
      .ok ((wdi.modify fun entry => (entry.1, written part true value entry.2)).stays part) := by
  have again : ∀ change, (wdi.modify change).modify (fun entry => (entry.1, value)) =
      wdi.modify fun entry => ((change entry).1, value) :=
    fun change => wdi.modify_modify change _
  rw [parseHwinfoValue, takeValue_eq inside]
  change Wdi.store _ (fun entry => (entry.1, value)) = _
  cases part with
  | whole =>
      rw [Wdi.store_eq]
      · exact congrArg Except.ok (again fun entry => (entry.1, value))
      · exact inside
  | low =>
      rw [Wdi.store_eq]
      · exact congrArg (fun state => Except.ok { state with incrementIndex := false })
          (again fun entry => (entry.1, value))
      · exact inside
  | high =>
      rw [Wdi.store_eq]
      · exact congrArg Except.ok (again fun entry => (entry.1, entry.2 ||| value <<< 16))
      · exact inside

/-- The state behind a group. -/
def Wdi.enter (wdi : Wdi) (group : Group) : Wdi :=
  ((wdi.modify fun entry =>
    (group.offset, written group.part group.early group.value entry.2)).raise group.offset).counts
      group.part

theorem Wdi.advance_stays (counting : wdi.incrementIndex = true) (part : Part) :
    (wdi.stays part).advance = wdi.counts part := by
  cases part with
  | low => exact congrArg (fun increment => { wdi with incrementIndex := increment }) counting.symm
  | whole | high => exact if_pos counting

theorem parseTags_head (tag : Regname) (tags : List Regname) (wdi : Wdi) :
    parseTags (tag :: tags) .head wdi =
      if MAX_NUM_REG ≤ wdi.numWrites then .error .failure
      else
        match tag.kind with
        | .offset => (wdi.storeOffset tag.offset).bind (parseTags tags .behindOffset)
        | .value part => (parseHwinfoValue wdi part tag.offset).bind (parseTags tags .behindValue)
        | .other => .error .failure :=
  rfl

theorem parseTags_behindOffset (tag : Regname) (tags : List Regname) (wdi : Wdi) :
    parseTags (tag :: tags) .behindOffset wdi =
      match tag.kind with
      | .value part =>
          (takeValue wdi part tag.offset).bind fun wdi => parseTags tags .head wdi.advance
      | .offset =>
          if wdi.operation = some .bitswap then
            (wdi.storeValue 0xFFFFFFFF).bind fun wdi =>
              parseTags (tag :: tags) .head { wdi with numWrites := wdi.numWrites + 1 }
          else .error .failure
      | .other => .error .failure := by
  cases isKind : tag.kind with
  | offset =>
      change (match tag.kind with | .value _ => _ | .offset => _ | .other => _) = _
      simp only [parseTags_head, isKind]
  | value part =>
      change (match tag.kind with | .value _ => _ | .offset => _ | .other => _) = _
      rw [isKind]
  | other =>
      change (match tag.kind with | .value _ => _ | .offset => _ | .other => _) = _
      rw [isKind]

theorem parseTags_behindValue (tag : Regname) (tags : List Regname) (wdi : Wdi) :
    parseTags (tag :: tags) .behindValue wdi =
      match tag.kind with
      | .offset => (wdi.storeOffset tag.offset).bind fun wdi => parseTags tags .head wdi.advance
      | .value _ | .other => .error .failure :=
  rfl

/-- The loop stores an offset and goes on behind it. -/
theorem parseTags_offset (inside : wdi.numWrites < MAX_NUM_REG) (isOffset : first.kind = .offset) :
    parseTags (first :: tags) .head wdi =
      parseTags tags .behindOffset
        ((wdi.modify fun entry => (first.offset, entry.2)).raise first.offset) := by
  rw [parseTags_head, if_neg (not_le.mpr inside), isOffset]
  dsimp only
  rw [Wdi.storeOffset_eq inside]
  rfl

/-- The loop stores a value and goes on behind it. -/
theorem parseTags_value (inside : wdi.numWrites < MAX_NUM_REG)
    (isValue : first.kind = .value part) :
    parseTags (first :: tags) .head wdi =
      parseTags tags .behindValue
        ((wdi.modify fun entry => (entry.1, written part true first.offset entry.2)).stays part) := by
  rw [parseTags_head, if_neg (not_le.mpr inside), isValue]
  dsimp only
  rw [parseHwinfoValue_eq inside]
  rfl

/-- An offset and a value behind it. -/
theorem offset_value (inside : wdi.numWrites < MAX_NUM_REG)
    (counting : wdi.incrementIndex = true) (isOffset : first.kind = .offset)
    (isValue : second.kind = .value part) :
    parseTags (first :: second :: tags) .head wdi =
      parseTags tags .head (wdi.enter ⟨first.offset, second.offset, part, false⟩) := by
  rw [parseTags_offset inside isOffset, parseTags_behindOffset, isValue]
  dsimp only
  rw [takeValue_eq]
  · change parseTags tags .head (Wdi.advance _) = _
    rw [Wdi.advance_stays]
    · have joined := wdi.modify_modify (fun entry => (first.offset, entry.2))
        (fun entry => (entry.1, written part false second.offset entry.2))
      exact congrArg (fun state => parseTags tags .head ((state.raise first.offset).counts part))
        joined
    · exact counting
  · exact inside

/-- A value and its offset behind it. -/
theorem value_offset (inside : wdi.numWrites < MAX_NUM_REG)
    (counting : wdi.incrementIndex = true) (isValue : first.kind = .value part)
    (isOffset : second.kind = .offset) :
    parseTags (first :: second :: tags) .head wdi =
      parseTags tags .head (wdi.enter ⟨second.offset, first.offset, part, true⟩) := by
  rw [parseTags_value inside isValue, parseTags_behindValue, isOffset]
  dsimp only
  have room : ((wdi.modify fun entry =>
      (entry.1, written part true first.offset entry.2)).stays part).numWrites < MAX_NUM_REG := by
    cases part with
    | low | whole | high => exact inside
  have commutes : ∀ (state : Wdi) change, ((state.stays part).modify change).raise second.offset =
      ((state.modify change).raise second.offset).stays part := by
    intro state change
    cases part with
    | low | whole | high => rfl
  rw [Wdi.storeOffset_eq room, commutes]
  change parseTags tags .head (Wdi.advance _) = _
  rw [Wdi.advance_stays]
  · have joined := wdi.modify_modify
      (fun entry => (entry.1, written part true first.offset entry.2))
      (fun entry => (second.offset, entry.2))
    exact congrArg (fun state => parseTags tags .head ((state.raise second.offset).counts part))
      joined
  · exact counting

/-- What a lone offset stands for in bit-swap mode. -/
def lone (tag : Regname) : Group := ⟨tag.offset, 0xFFFFFFFF, .whole, false⟩

theorem storeValue_lone (inside : wdi.numWrites < MAX_NUM_REG) (tag : Regname) :
    ∃ state, ((wdi.modify fun entry => (tag.offset, entry.2)).raise tag.offset).storeValue
        0xFFFFFFFF = .ok state ∧
      { state with numWrites := state.numWrites + 1 } = wdi.enter (lone tag) := by
  have joined := wdi.modify_modify (fun entry => (tag.offset, entry.2))
    (fun entry => (entry.1, 0xFFFFFFFF))
  refine ⟨_, Wdi.store_eq ?_ _, ?_⟩
  · exact inside
  · exact congrArg (fun state => (state.raise tag.offset).counts .whole) joined

/-- An offset without a value, with another offset behind it. -/
theorem offset_offset (inside : wdi.numWrites < MAX_NUM_REG)
    (bitswap : wdi.operation = some .bitswap) (isOffset : first.kind = .offset)
    (next : second.kind = .offset) :
    parseTags (first :: second :: tags) .head wdi =
      parseTags (second :: tags) .head (wdi.enter (lone first)) := by
  obtain ⟨state, stored, entered⟩ := storeValue_lone inside first
  have bitswapping : ((wdi.modify fun entry => (first.offset, entry.2)).raise
      first.offset).operation = some .bitswap := bitswap
  rw [parseTags_offset inside isOffset, parseTags_behindOffset, next]
  dsimp only
  rw [if_pos bitswapping, stored, ← entered]
  rfl

/-- An offset without a value at the end. -/
theorem offset_end (inside : wdi.numWrites < MAX_NUM_REG)
    (bitswap : wdi.operation = some .bitswap) (isOffset : tag.kind = .offset) :
    parseTags [tag] .head wdi = .ok (wdi.enter (lone tag)) := by
  obtain ⟨state, stored, entered⟩ := storeValue_lone inside tag
  have bitswapping : ((wdi.modify fun entry => (tag.offset, entry.2)).raise
      tag.offset).operation = some .bitswap := bitswap
  rw [parseTags_offset inside isOffset]
  change (if _ then _ else _) = _
  rw [if_pos bitswapping, stored, ← entered]
  rfl

/-! ## All groups -/

/-- Groups are entered until there is no room. -/
def enterAll : List Group → Wdi → Except Stop Wdi
  | [], wdi => .ok wdi
  | group :: list, wdi =>
      if MAX_NUM_REG ≤ wdi.numWrites then .error .failure else enterAll list (wdi.enter group)

@[simp] theorem Wdi.counts_operation (part : Part) :
    (wdi.counts part).operation = wdi.operation := by
  cases part <;> rfl

@[simp] theorem Wdi.counts_incrementIndex (part : Part) :
    (wdi.counts part).incrementIndex = wdi.incrementIndex := by
  cases part <;> rfl

theorem Wdi.enter_operation (group : Group) : (wdi.enter group).operation = wdi.operation :=
  counts_operation _

theorem Wdi.enter_incrementIndex (group : Group) :
    (wdi.enter group).incrementIndex = wdi.incrementIndex :=
  counts_incrementIndex _

/-- Tags that begin no group are rejected. -/
theorem parseTags_full (full : MAX_NUM_REG ≤ wdi.numWrites) :
    parseTags (tag :: tags) .head wdi = .error .failure := by
  rw [parseTags_head, if_pos full]

theorem enterAll_full (full : MAX_NUM_REG ≤ wdi.numWrites) (group : Group) (list : List Group) :
    enterAll (group :: list) wdi = .error .failure := by
  rw [enterAll, if_pos full]

/-- A group and then what the loop makes of the rest is what it makes of all groups. -/
theorem enter_rest {bitswap : Bool} {group : Group} (inside : ¬ MAX_NUM_REG ≤ wdi.numWrites)
    (ih : parseTags tags .head (wdi.enter group) =
      match groups bitswap tags with
      | some list => enterAll list (wdi.enter group)
      | none => .error .failure) :
    parseTags tags .head (wdi.enter group) =
      match (groups bitswap tags).map (group :: ·) with
      | some list => enterAll list wdi
      | none => .error .failure := by
  rw [ih]
  cases groups bitswap tags with
  | none => rfl
  | some list =>
      dsimp only [Option.map_some]
      rw [enterAll, if_neg inside]

/-- Without room the loop rejects all tags, in groups or not. -/
theorem full_rest {bitswap : Bool} {group : Group} {rest : List Regname}
    (full : MAX_NUM_REG ≤ wdi.numWrites) :
    parseTags (first :: tags) .head wdi =
      match (groups bitswap rest).map (group :: ·) with
      | some list => enterAll list wdi
      | none => .error .failure := by
  rw [parseTags_full full]
  cases groups bitswap rest with
  | none => rfl
  | some list => exact (enterAll_full full group list).symm

/-- An offset in front of what gives it no value is rejected. -/
theorem offset_rejected (isOffset : first.kind = .offset)
    (rejects : ∀ state : Wdi, state.operation = wdi.operation →
      parseTags tags .behindOffset state = .error .failure) :
    parseTags (first :: tags) .head wdi = .error .failure := by
  by_cases full : MAX_NUM_REG ≤ wdi.numWrites
  · exact parseTags_full full
  · rw [parseTags_offset (not_le.mp full) isOffset]
    exact rejects _ rfl

/-- A value in front of what is no offset is rejected. -/
theorem value_rejected (isValue : first.kind = .value part)
    (rejects : ∀ state, parseTags tags .behindValue state = .error .failure) :
    parseTags (first :: tags) .head wdi = .error .failure := by
  by_cases full : MAX_NUM_REG ≤ wdi.numWrites
  · exact parseTags_full full
  · rw [parseTags_value (not_le.mp full) isValue]
    exact rejects _

theorem other_rejected (isOther : first.kind = .other) :
    parseTags (first :: tags) .head wdi = .error .failure := by
  by_cases full : MAX_NUM_REG ≤ wdi.numWrites
  · exact parseTags_full full
  · rw [parseTags_head, if_neg full, isOther]

/-- The loop enters the groups of the tags, and rejects other tags. -/
theorem parseTags_eq (tags : List Regname) (counting : wdi.incrementIndex = true) :
    parseTags tags .head wdi =
      match groups (wdi.operation = some .bitswap) tags with
      | some list => enterAll list wdi
      | none => .error .failure := by
  generalize isBitswap : decide (wdi.operation = some .bitswap) = bitswap
  induction tags using groups.induct bitswap generalizing wdi with
  | case1 => rfl
  | case2 tag given =>
      obtain ⟨rfl, isOffset⟩ := given
      have bitswapping := of_decide_eq_true isBitswap
      rw [groups, if_pos ⟨rfl, isOffset⟩]
      by_cases full : MAX_NUM_REG ≤ wdi.numWrites
      · rw [parseTags_full full]
        exact (enterAll_full full _ _).symm
      · rw [offset_end (not_le.mp full) bitswapping isOffset]
        dsimp only
        rw [enterAll, if_neg full]
        rfl
  | case3 tag given =>
      rw [groups, if_neg given]
      dsimp only
      cases kind : tag.kind with
      | offset =>
          apply offset_rejected kind
          intro state same
          rw [parseTags, if_neg]
          rw [same]
          intro bitswapping
          exact given ⟨isBitswap ▸ decide_eq_true bitswapping, kind⟩
      | value part => exact value_rejected kind fun _ => rfl
      | other => exact other_rejected kind
  | case4 first second tags part isValue isOffset ih =>
      rw [groups, isOffset, isValue]
      dsimp only
      by_cases full : MAX_NUM_REG ≤ wdi.numWrites
      · exact full_rest full
      · rw [offset_value (not_le.mp full) counting isOffset isValue]
        apply enter_rest full
        apply ih
        · rw [Wdi.enter_incrementIndex]
          exact counting
        · rw [Wdi.enter_operation]
          exact isBitswap
  | case5 first second tags part isOffset isValue ih =>
      rw [groups, isOffset, isValue]
      dsimp only
      by_cases full : MAX_NUM_REG ≤ wdi.numWrites
      · exact full_rest full
      · rw [value_offset (not_le.mp full) counting isValue isOffset]
        apply enter_rest full
        apply ih
        · rw [Wdi.enter_incrementIndex]
          exact counting
        · rw [Wdi.enter_operation]
          exact isBitswap
  | case6 first second tags next isOffset given ih =>
      have bitswapping : wdi.operation = some .bitswap :=
        of_decide_eq_true (isBitswap.trans given)
      rw [groups, isOffset, next]
      dsimp only
      rw [if_pos given]
      by_cases full : MAX_NUM_REG ≤ wdi.numWrites
      · exact full_rest full
      · rw [offset_offset (not_le.mp full) bitswapping isOffset next]
        apply enter_rest full
        apply ih
        · rw [Wdi.enter_incrementIndex]
          exact counting
        · rw [Wdi.enter_operation]
          exact isBitswap
  | case7 first second tags next isOffset given =>
      rw [groups, isOffset, next]
      dsimp only
      rw [if_neg given]
      apply offset_rejected isOffset
      intro state same
      rw [parseTags_behindOffset, next]
      dsimp only
      rw [if_neg]
      rw [same]
      intro bitswapping
      exact given (isBitswap ▸ decide_eq_true bitswapping)
  | case8 first second tags notBehind notFront notLone =>
      have noGroups : groups bitswap (first :: second :: tags) = none := by
        rw [groups]
        split
        · next part isOffset isValue => exact (notBehind part isOffset isValue).elim
        · next part isValue isOffset => exact (notFront part isValue isOffset).elim
        · next isOffset next => exact (notLone isOffset next).elim
        · rfl
      rw [noGroups]
      dsimp only
      cases kind : first.kind with
      | offset =>
          apply offset_rejected kind
          intro state _
          rw [parseTags_behindOffset]
          cases next : second.kind with
          | offset => exact (notLone kind next).elim
          | value part => exact (notBehind part kind next).elim
          | other => rfl
      | value part =>
          apply value_rejected kind
          intro state
          rw [parseTags_behindValue]
          cases next : second.kind with
          | offset => exact (notFront part kind next).elim
          | value other => rfl
          | other => rfl
      | other => exact other_rejected kind

/-! ## The table -/

variable {group : Group} {list : List Group} {pairs : List (BitVec 32 × BitVec 32)}

theorem registers_cons (group : Group) (list : List Group) :
    registers (group :: list) = (if group.part = .low then 0 else 1) + registers list := by
  unfold registers
  rw [List.filter_cons]
  by_cases low : group.part = .low
  · rw [if_pos low, if_neg (by simpa using low), Nat.zero_add]
  · rw [if_neg low, if_pos (by simpa using low), List.length_cons, Nat.add_comm]

theorem Wdi.enter_numWrites (wdi : Wdi) (group : Group) :
    (wdi.enter group).numWrites = wdi.numWrites + if group.part = .low then 0 else 1 := by
  unfold enter
  cases part : group.part with
  | low => rfl
  | whole | high => rfl

/-- There is room for all groups when few registers are complete before the last one. -/
theorem enterAll_ok_iff : (∃ after, enterAll list wdi = .ok after) ↔
    (list ≠ [] → wdi.numWrites + registers list.dropLast < MAX_NUM_REG) := by
  induction list generalizing wdi with
  | nil => exact iff_of_true ⟨wdi, rfl⟩ fun nonempty => (nonempty rfl).elim
  | cons group list ih =>
      rw [enterAll]
      by_cases full : MAX_NUM_REG ≤ wdi.numWrites
      · rw [if_pos full]
        constructor
        · rintro ⟨_, returned⟩
          cases returned
        · intro room
          have less := room (List.cons_ne_nil _ _)
          omega
      · rw [if_neg full, ih, Wdi.enter_numWrites]
        cases list with
        | nil =>
            have room : wdi.numWrites + registers [] < MAX_NUM_REG := not_le.mp full
            exact iff_of_true (fun nonempty => (nonempty rfl).elim) fun _ => room
        | cons next list =>
            rw [List.dropLast_cons_cons, registers_cons, ← Nat.add_assoc]
            simp only [ne_eq, reduceCtorEq, not_false_eq_true, forall_const]

theorem enterAll_cases (list : List Group) (wdi : Wdi) :
    enterAll list wdi = .error .failure ∨ ∃ after, enterAll list wdi = .ok after := by
  induction list generalizing wdi with
  | nil => exact .inr ⟨wdi, rfl⟩
  | cons group list ih =>
      rw [enterAll]
      split
      · exact .inl rfl
      · exact ih _

/-- Entries below the current one are the table. -/
theorem take_ofFn_congr {first second : Fin MAX_NUM_REG → BitVec 32 × BitVec 32} {count : Nat}
    (same : ∀ place : Fin MAX_NUM_REG, place.val < count → first place = second place) :
    (List.ofFn first).take count = (List.ofFn second).take count := by
  apply List.ext_getElem
  · rw [List.length_take, List.length_take, List.length_ofFn, List.length_ofFn]
  · intro place inside _
    rw [List.getElem_take, List.getElem_take, List.getElem_ofFn, List.getElem_ofFn]
    rw [List.length_take, List.length_ofFn] at inside
    exact same _ (inside.trans_le (Nat.min_le_left _ _))

/-- An entry that is complete is added to the table. -/
theorem table_complete (inside : wdi.numWrites < MAX_NUM_REG)
    (complete : group.part ≠ .low) :
    (wdi.enter group).table = wdi.table ++
      [(group.offset, written group.part group.early group.value
        (wdi.writeReg ⟨wdi.numWrites, inside⟩).2)] := by
  have counted : (wdi.enter group).table = (List.ofFn (wdi.modify fun entry =>
      (group.offset, written group.part group.early group.value entry.2)).writeReg).take
        (wdi.numWrites + 1) := by
    unfold Wdi.enter Wdi.table
    cases part : group.part with
    | low => exact absurd part complete
    | whole | high => rfl
  have lower : ∀ change, (List.ofFn (wdi.modify change).writeReg).take wdi.numWrites =
      wdi.table := by
    intro change
    apply take_ofFn_congr
    intro place below
    exact if_neg below.ne
  rw [counted, List.take_add_one, lower, List.getElem?_ofFn, dif_pos inside]
  dsimp only [Option.toList_some, Wdi.modify]
  rw [if_pos rfl]

/-- A low half stays at the current entry. -/
theorem enter_low (inside : wdi.numWrites < MAX_NUM_REG) (low : group.part = .low) :
    (wdi.enter group).table = wdi.table ∧
      (wdi.enter group).writeReg ⟨wdi.numWrites, inside⟩ = (group.offset, group.value) := by
  unfold Wdi.enter Wdi.table
  rw [low]
  constructor
  · apply take_ofFn_congr
    intro place below
    exact if_neg below.ne
  · exact if_pos rfl

/-- What is in the table stays there. -/
theorem table_prefix (returned : enterAll list wdi = .ok after) : wdi.table <+: after.table := by
  induction list generalizing wdi with
  | nil =>
      cases returned
      exact List.prefix_refl _
  | cons group list ih =>
      rw [enterAll] at returned
      split at returned
      · cases returned
      · next full =>
        have rest := ih returned
        by_cases low : group.part = .low
        · rw [(enter_low (not_le.mp full) low).1] at rest
          exact rest
        · rw [table_complete (not_le.mp full) low] at rest
          exact (List.prefix_append _ _).trans rest

/-- Both halves of a register make one entry. -/
theorem enterAll_halves {offset lo hi : BitVec 32} {early late : Bool}
    (returned : enterAll (⟨offset, lo, .low, early⟩ :: ⟨offset, hi, .high, late⟩ :: list) wdi =
      .ok after) :
    ∃ state : Wdi, enterAll list state = .ok after ∧
      state.table = wdi.table ++ [(offset, written .high late hi lo)] := by
  rw [enterAll] at returned
  split at returned
  · cases returned
  · next full =>
    have inside := not_le.mp full
    rw [enterAll] at returned
    split at returned
    · cases returned
    · have low : Group.part ⟨offset, lo, .low, early⟩ = .low := rfl
      obtain ⟨kept, half⟩ := enter_low inside low
      have room : (wdi.enter ⟨offset, lo, .low, early⟩).numWrites < MAX_NUM_REG := inside
      refine ⟨_, returned, ?_⟩
      rw [table_complete room (show Part.high ≠ .low from nofun), kept]
      have old : ((wdi.enter ⟨offset, lo, .low, early⟩).writeReg ⟨_, room⟩).2 = lo :=
        congrArg Prod.snd half
      rw [old]

/-- What holds of no groups, and of groups with one more register in front, holds of all groups that
list registers. -/
@[elab_as_elim]
theorem listed_induction {motive : List Group → List (BitVec 32 × BitVec 32) → Prop}
    (none : motive [] [])
    (whole : ∀ offset value early rest others, listed rest = some others → motive rest others →
      motive (⟨offset, value, .whole, early⟩ :: rest) ((offset, value) :: others))
    (halves : ∀ offset lo early hi late rest others, listed rest = some others →
      motive rest others → motive (⟨offset, lo, .low, early⟩ :: ⟨offset, hi, .high, late⟩ :: rest)
        ((offset, lo ||| hi <<< 16) :: others))
    (lists : listed list = some pairs) : motive list pairs := by
  induction list using listed.induct generalizing pairs with
  | case1 =>
      cases lists
      exact none
  | case2 offset value early rest ih =>
      rw [listed] at lists
      obtain ⟨others, restLists, rfl⟩ := Option.map_eq_some_iff.mp lists
      exact whole offset value early rest others restLists (ih restLists)
  | case3 lo early offset hi late rest ih =>
      rw [listed, if_pos rfl] at lists
      obtain ⟨others, restLists, rfl⟩ := Option.map_eq_some_iff.mp lists
      exact halves offset lo early hi late rest others restLists (ih restLists)
  | case4 offset lo early other hi late rest apart =>
      rw [listed, if_neg apart] at lists
      cases lists
  | case5 list notEmpty notWhole notHalves =>
      rw [listed] at lists
      · cases lists
      · exact notEmpty
      · exact notWhole
      · exact notHalves

/-- Groups that list registers fill the table with them exactly when they join their halves. -/
theorem table_eq_iff (lists : listed list = some pairs) (returned : enterAll list wdi = .ok after) :
    after.table = wdi.table ++ pairs ↔ JoinsHalves list := by
  suffices every : ∀ wdi, enterAll list wdi = .ok after →
      (after.table = wdi.table ++ pairs ↔ JoinsHalves list) from every wdi returned
  refine listed_induction ?none ?whole ?halves lists
  case none =>
      intro wdi returned
      cases returned
      exact iff_of_true (List.append_nil _).symm trivial
  case whole =>
      intro offset value early rest others _ ih wdi returned
      rw [enterAll] at returned
      split at returned
      · cases returned
      · next full =>
        have next := ih _ returned
        rw [table_complete (not_le.mp full) (show Part.whole ≠ .low from nofun),
          List.append_assoc] at next
        exact next
  case halves =>
      intro offset lo early hi late rest others _ ih wdi returned
      obtain ⟨state, restReturned, grown⟩ := enterAll_halves returned
      have next := ih state restReturned
      have begins := table_prefix restReturned
      rw [grown] at next begins
      rw [List.append_assoc] at next
      constructor
      · intro table
        rw [table, List.prefix_append_right_inj, List.cons_prefix_cons, Prod.mk.injEq] at begins
        have sameValue := begins.1.2
        rw [sameValue] at next
        refine ⟨rfl, ?_, next.mp table⟩
        intro isLate
        rw [isLate] at sameValue
        exact sameValue.symm
      · rintro ⟨_, joins, restJoins⟩
        have sameValue : written .high late hi lo = lo ||| hi <<< 16 := by
          cases late with
          | false => rfl
          | true => exact (joins rfl).symm
        rw [← sameValue]
        exact next.mpr restJoins

/-- Groups that join their halves list registers. -/
theorem lists_of_joins (joins : JoinsHalves list) : ∃ pairs, listed list = some pairs := by
  induction list using listed.induct with
  | case1 => exact ⟨[], rfl⟩
  | case2 offset value early rest ih =>
      obtain ⟨pairs, lists⟩ := ih joins
      exact ⟨_, congrArg (Option.map _) lists⟩
  | case3 lo early offset hi late rest ih =>
      obtain ⟨pairs, lists⟩ := ih joins.2.2
      refine ⟨(offset, lo ||| hi <<< 16) :: pairs, ?_⟩
      rw [listed, if_pos rfl, lists]
      rfl
  | case4 offset lo early other hi late rest apart => exact absurd joins.1 apart
  | case5 list notEmpty notWhole notHalves =>
      rw [JoinsHalves] at joins
      · exact joins.elim
      · exact notEmpty
      · exact notWhole
      · exact notHalves

/-- The last of groups that list registers is complete. -/
theorem listed_length (lists : listed list = some pairs) :
    registers list = pairs.length ∧ (list ≠ [] → registers list = registers list.dropLast + 1) := by
  refine listed_induction ?none ?whole ?halves lists
  case none => exact ⟨rfl, fun nonempty => (nonempty rfl).elim⟩
  case whole =>
      rintro offset value early rest others restLists ⟨count, last⟩
      rw [registers_cons, if_neg (show Part.whole ≠ .low from nofun), count, List.length_cons]
      refine ⟨Nat.add_comm _ _, fun _ => ?_⟩
      cases rest with
      | nil =>
          cases restLists
          rfl
      | cons next rest =>
          rw [List.dropLast_cons_cons, registers_cons, if_neg (show Part.whole ≠ .low from nofun),
            ← count, last (List.cons_ne_nil _ _), Nat.add_assoc]
  case halves =>
      rintro offset lo early hi late rest others restLists ⟨count, last⟩
      rw [registers_cons, registers_cons, if_pos rfl, if_neg (show Part.high ≠ .low from nofun),
        count, List.length_cons, Nat.zero_add]
      refine ⟨Nat.add_comm _ _, fun _ => ?_⟩
      cases rest with
      | nil =>
          cases restLists
          rfl
      | cons next rest =>
          rw [List.dropLast_cons_cons, List.dropLast_cons_cons, registers_cons, registers_cons,
            if_pos rfl, if_neg (show Part.high ≠ .low from nofun), ← count,
            last (List.cons_ne_nil _ _), Nat.zero_add, Nat.add_assoc]

theorem enterAll_numWrites (returned : enterAll list wdi = .ok after) :
    after.numWrites = wdi.numWrites + registers list := by
  induction list generalizing wdi with
  | nil =>
      cases returned
      rfl
  | cons group list ih =>
      rw [enterAll] at returned
      split at returned
      · cases returned
      · rw [ih returned, Wdi.enter_numWrites, registers_cons, Nat.add_assoc]

/-! ## The parser -/

/-- The state in which the loop over the tags of the kick device begins. -/
structure Begins (wdi : Wdi) : Prop where
  numWrites : wdi.numWrites = 0
  incrementIndex : wdi.incrementIndex = true

/-- The loop reads the table of the tags exactly when it refuses them, or the groups join their
halves. -/
theorem parseTags_reads_iff (begins : Begins wdi) (tags : List Regname) :
    ReadsTable (wdi.operation = some .bitswap) tags (parseTags tags .head wdi) ↔
      Refused (wdi.operation = some .bitswap) tags ∨
        ∃ list, groups (wdi.operation = some .bitswap) tags = some list ∧ JoinsHalves list := by
  have empty : wdi.table = [] := by
    rw [Wdi.table, begins.numWrites, List.take_zero]
  rw [parseTags_eq tags begins.incrementIndex]
  unfold ReadsTable Refused
  cases grouped : groups (wdi.operation = some .bitswap) tags with
  | none => exact iff_of_true rfl (.inl trivial)
  | some list =>
      dsimp only [Option.bind_some]
      by_cases refused : MAX_NUM_REG ≤ registers list.dropLast
      · have rejected : enterAll list wdi = .error .failure := by
          rcases enterAll_cases list wdi with rejected | accepted
          · exact rejected
          · have room := enterAll_ok_iff.mp accepted
            have nonempty : list ≠ [] := by
              rintro rfl
              exact Nat.not_succ_le_zero _ refused
            have less := room nonempty
            omega
        rw [rejected]
        apply iff_of_true _ (.inl refused)
        cases lists : listed list with
        | none => rfl
        | some pairs =>
            obtain ⟨count, last⟩ := listed_length lists
            have tooMany : ¬ pairs.length ≤ MAX_NUM_REG := by
              intro fits
              have nonempty : list ≠ [] := by
                rintro rfl
                exact Nat.not_succ_le_zero _ refused
              have more := last nonempty
              omega
            dsimp only
            rw [if_neg tooMany]
      · have room : list ≠ [] → wdi.numWrites + registers list.dropLast < MAX_NUM_REG := by
          intro _
          rw [begins.numWrites, Nat.zero_add]
          exact not_le.mp refused
        obtain ⟨after, returned⟩ := enterAll_ok_iff.mpr room
        rw [returned, or_iff_right refused]
        have joined : (∃ other, some list = some other ∧ JoinsHalves other) ↔ JoinsHalves list := by
          constructor
          · rintro ⟨other, same, joins⟩
            cases same
            exact joins
          · intro joins
            exact ⟨list, rfl, joins⟩
        rw [joined]
        cases lists : listed list with
        | none =>
            apply iff_of_false nofun
            intro joins
            obtain ⟨pairs, listsPairs⟩ := lists_of_joins joins
            rw [lists] at listsPairs
            cases listsPairs
        | some pairs =>
            obtain ⟨count, last⟩ := listed_length lists
            have fits : pairs.length ≤ MAX_NUM_REG := by
              by_cases nonempty : list = []
              · rw [← count, nonempty]
                exact Nat.zero_le _
              · have more := last nonempty
                omega
            have table := table_eq_iff lists returned
            rw [empty, List.nil_append] at table
            dsimp only
            rw [if_pos fits, ← table]
            constructor
            · rintro ⟨_, same, reads, _⟩
              cases same
              exact reads
            · intro reads
              refine ⟨after, rfl, reads, ?_⟩
              rw [enterAll_numWrites returned, begins.numWrites, Nat.zero_add, count]

/-- The loop writes inside the table. -/
theorem parseTags_inside (tags : List Regname) (counting : wdi.incrementIndex = true) :
    parseTags tags .head wdi ≠ .error .outOfBounds := by
  rw [parseTags_eq tags counting]
  cases groups (wdi.operation = some .bitswap) tags with
  | none => exact nofun
  | some list =>
      dsimp only
      rcases enterAll_cases list wdi with rejected | ⟨after, accepted⟩
      · rw [rejected]
        exact nofun
      · rw [accepted]
        exact nofun

theorem readOptions_begins (begins : Begins wdi) (tags : List Regname) :
    Begins (readOptions tags wdi) ∧ (readOptions tags wdi).operation = wdi.operation := by
  induction tags generalizing wdi with
  | nil => exact ⟨begins, rfl⟩
  | cons tag tags ih =>
      rw [readOptions]
      split_ifs
      · exact ih ⟨begins.numWrites, begins.incrementIndex⟩
      · exact ih ⟨begins.numWrites, begins.incrementIndex⟩
      · exact ih ⟨begins.numWrites, begins.incrementIndex⟩
      · exact ih ⟨begins.numWrites, begins.incrementIndex⟩
      · exact ih ⟨begins.numWrites, begins.incrementIndex⟩
      · exact ⟨begins, rfl⟩

/-- The loop of `wd_parse_hwinfo` begins with an empty table, in bit-swap mode for that device. -/
theorem wdParseHwinfo_eq (hwinfo : Hwinfo) (stack : Wdi) :
    ∃ wdi, Begins wdi ∧ decide (wdi.operation = some .bitswap) = hwinfo.bitswap.isSome ∧
      wdi.len = (parseHwinfoOpt hwinfo (parseHwinfoInit hwinfo (start stack))).len ∧
      wdParseHwinfo hwinfo (start stack) = parseTags (kickTags hwinfo) .head wdi := by
  have fresh : Begins (parseHwinfoInit hwinfo (start stack)) ∧
      (parseHwinfoInit hwinfo (start stack)).operation = none := by
    unfold parseHwinfoInit
    cases hwinfo.wdog with
    | none => exact ⟨⟨rfl, rfl⟩, rfl⟩
    | some wdog => exact ⟨⟨rfl, rfl⟩, rfl⟩
  obtain ⟨begins, operation⟩ := readOptions_begins fresh.1 (hwinfo.options.getD [])
  unfold wdParseHwinfo parseHwinfoBitswap kickTags
  cases hwinfo.bitswap with
  | some tags =>
      exact ⟨{ parseHwinfoOpt hwinfo (parseHwinfoInit hwinfo (start stack)) with
        operation := some .bitswap }, ⟨begins.numWrites, begins.incrementIndex⟩, rfl, rfl, rfl⟩
  | none =>
      cases hwinfo.regwrite with
      | some tags =>
          exact ⟨{ parseHwinfoOpt hwinfo (parseHwinfoInit hwinfo (start stack)) with
            operation := some .write }, ⟨begins.numWrites, begins.incrementIndex⟩, rfl, rfl, rfl⟩
      | none =>
          refine ⟨_, begins, ?_, rfl, rfl⟩
          rw [operation, fresh.2]
          rfl

/-- For every hwinfo section no write leaves the table; and the parser reads the registers that the
tags of the kick device list, and rejects other tags, exactly when it refuses the tags, or their
groups join their halves. -/
theorem wdParseHwinfo_reads_iff (hwinfo : Hwinfo) (stack : Wdi) :
    wdParseHwinfo hwinfo (start stack) ≠ .error .outOfBounds ∧
      (ReadsTable hwinfo.bitswap.isSome (kickTags hwinfo)
          (wdParseHwinfo hwinfo (start stack)) ↔
        Refused hwinfo.bitswap.isSome (kickTags hwinfo) ∨
          ∃ list, groups hwinfo.bitswap.isSome (kickTags hwinfo) = some list ∧
            JoinsHalves list) := by
  obtain ⟨wdi, begins, mode, _, parsed⟩ := wdParseHwinfo_eq hwinfo stack
  rw [parsed, ← mode]
  exact ⟨parseTags_inside _ begins.incrementIndex, parseTags_reads_iff begins _⟩

/-- A kick with two halves in front of their offsets. -/
def halvesHwinfo : Hwinfo where
  wdog := none
  options := none
  bitswap := none
  regwrite := some [⟨"value32_lo".toList, 0x5678⟩, ⟨"offset".toList, 0x10⟩,
    ⟨"value32_hi".toList, 0x1234⟩, ⟨"offset".toList, 0x10⟩]

/-- Nothing on the stack. -/
def zeroStack : Wdi :=
  ⟨0, 0, 0, 0, none, 0, 0, 0, 0, 0, 0, fun _ => (0, 0), 0, false⟩

/-- The high half alone is in the table, not shifted. -/
theorem halves_not_joined :
    (wdParseHwinfo halvesHwinfo (start zeroStack)).map Wdi.table = .ok [(0x10, 0x1234)] ∧
      (groups halvesHwinfo.bitswap.isSome (kickTags halvesHwinfo)).bind listed =
        some [(0x10, 0x12345678)] ∧
      ¬ ReadsTable halvesHwinfo.bitswap.isSome (kickTags halvesHwinfo)
        (wdParseHwinfo halvesHwinfo (start zeroStack)) := by
  have table : (wdParseHwinfo halvesHwinfo (start zeroStack)).map Wdi.table =
      .ok [(0x10, 0x1234)] := by decide
  have lists : (groups halvesHwinfo.bitswap.isSome (kickTags halvesHwinfo)).bind listed =
      some [(0x10, 0x12345678)] := by decide
  refine ⟨table, lists, ?_⟩
  intro reads
  unfold ReadsTable at reads
  rw [lists] at reads
  obtain ⟨after, returned, same, _⟩ := reads
  rw [returned] at table
  have other := Except.ok.inj table
  rw [same] at other
  exact absurd other (by decide)

end Bcm2711.Wdtkick
