import Bcm2711.Wdtkick.KickTable
import Bcm2711.Lib.Fallible
import Bcm2711.Lib.HighWater
import Bcm2711.Lib.Tokens

/-! # The mapping of the watchdog's registers

The options on the command line change what the hwinfo section gave.  The registers are mapped with
the length that is left, which an offset raises to itself and `-l` sets.
-/

namespace Bcm2711.Wdtkick

open Fallible HighWater Tokens

/-! ## The options -/

/-- An option with its `optarg`, and the string that begins behind the end of it. -/
structure Opt where
  letter : Char
  optarg : List Char
  beyond : List Char
deriving DecidableEq, Repr

/-- The letters of "a:l:p:t:w:r:m:R:E:B:W:v" with a colon. -/
def takesArgument (letter : Char) : Bool :=
  letter ∈ ['a', 'l', 'p', 't', 'w', 'r', 'm', 'R', 'E', 'B', 'W']

/-- The letters of a word without an argument, and the first one with an argument. -/
def scanLetters : List Char → List Char × Option (Char × List Char)
  | [] => ([], none)
  | letter :: text =>
      if takesArgument letter then ([], some (letter, text))
      else
        let (flags, last) := scanLetters text
        (letter :: flags, last)

/-- The letters of a word, unless it ends the options. -/
def readWord : List Char → Option (List Char × Option (Char × List Char))
  | ['-', '-'] => none
  | '-' :: letter :: text => some (scanLetters (letter :: text))
  | _ => none

/-- Options without an argument. -/
def flagOpts (flags : List Char) : List Opt := flags.map fun letter => ⟨letter, [], []⟩

/-- What `getopt` finds in the words from an index on; an argument that is missing ends them. -/
def getopts (beyond : Nat → List Char) : (index : Nat) → List (List Char) → List Opt
  | _, [] => []
  | index, word :: words =>
      match readWord word with
      | none => []
      | some (flags, none) => flagOpts flags ++ getopts beyond (index + 1) words
      | some (flags, some (letter, [])) =>
          flagOpts flags ++
            match words with
            | [] => []
            | optarg :: words =>
                ⟨letter, optarg, beyond (index + 1)⟩ :: getopts beyond (index + 2) words
      | some (flags, some (letter, optarg)) =>
          flagOpts flags ++ ⟨letter, optarg, beyond index⟩ :: getopts beyond (index + 1) words

/-- What the options change, and whether `errno` is `ERANGE`. -/
structure Options where
  wdi : Wdi
  erange : Bool

/-- `is_valid_range`. -/
def isValidRange (val : BitVec 32) (erange : Bool) : Bool := ¬ (val ≠ 0 ∧ erange)

/-- `is_valid_separator` at the head of a text. -/
def isValidSeparator (text : List Char) : Bool := text.head? = some ':'

/-- `wd_parse_options_enable_offset`. -/
def enableOffsetOption (opt : Opt) (state : Options) : Except Stop Options :=
  let (offset, range, rest) := strtolBase 16 opt.optarg
  let erange := state.erange || range
  let offset := BitVec.ofInt 32 offset
  let wdi := { state.wdi with enableRegOffset := offset }.raise offset
  if ¬ isValidRange offset erange then .error .failure
  else if ¬ isValidSeparator rest then .error .failure
  else if rest.tail = [] then .error .failure
  else
    let (mask, range, rest) := strtoulBase 16 rest.tail
    let mask := mask.setWidth 32
    let wdi := { wdi with enableMask := mask }
    if ¬ isValidRange mask range then .error .failure
    else if rest = [] then .ok ⟨{ wdi with enableCondition := mask }, range⟩
    else if ¬ isValidSeparator rest then .error .failure
    else
      let (condition, range, _) := strtoulBase 16 rest.tail
      let condition := condition.setWidth 32
      if condition ≠ 0 then
        if ¬ isValidRange condition range then .error .failure
        else .ok ⟨{ wdi with enableCondition := condition }, range⟩
      else .ok ⟨{ wdi with enableCondition := mask }, range⟩

/-- `wd_parse_options_bitswap`.  Without a separator the value is read behind the end of the
argument. -/
def bitswapOption (opt : Opt) (state : Options) : Except Stop Options :=
  if MAX_NUM_REG ≤ state.wdi.numWrites then .error .failure
  else
    let (offset, range, rest) := strtolBase 16 opt.optarg
    let erange := state.erange || range
    let offset := BitVec.ofInt 32 offset
    (state.wdi.store fun entry => (offset, entry.2)).bind fun wdi =>
      if ¬ isValidRange offset erange then .error .failure
      else
        let wdi := wdi.raise offset
        if rest ≠ [] ∧ ¬ isValidSeparator rest then .error .failure
        else
          let (value, range, _) := strtoulBase 16 (if rest = [] then opt.beyond else rest.tail)
          let value := value.setWidth 32
          if value ≠ 0 ∧ ¬ isValidRange value range then .error .failure
          else
            (wdi.storeValue (if value ≠ 0 then value else 0xFFFFFFFF)).map fun wdi =>
              ⟨{ wdi with
                numWrites := wdi.numWrites + 1
                operation := some .bitswap }, range⟩

/-- `wd_parse_options_write`. -/
def writeOption (opt : Opt) (state : Options) : Except Stop Options :=
  if MAX_NUM_REG ≤ state.wdi.numWrites then .error .failure
  else
    let (offset, range, rest) := strtoulBase 16 opt.optarg
    let offset := offset.setWidth 32
    (state.wdi.store fun entry => (offset, entry.2)).bind fun wdi =>
      if ¬ isValidRange offset range then .error .failure
      else
        let wdi := wdi.raise offset
        if ¬ isValidSeparator rest then .error .failure
        else
          let (value, range, _) := strtoulBase 16 rest.tail
          let value := value.setWidth 32
          (wdi.storeValue value).bind fun wdi =>
            if ¬ isValidRange value range then .error .failure
            else
              .ok ⟨{ wdi with
                numWrites := wdi.numWrites + 1
                operation := some .write }, range⟩

/-- A number that is in range changes the state. -/
def numberOption {α : Type} (number : α × Bool × List Char) (change : α → Wdi → Wdi)
    (state : Options) : Options :=
  let (value, range, _) := number
  ⟨if range then state.wdi else change value state.wdi, range⟩

/-- The body of the loop of `wd_parse_options`. -/
def applyOption (opt : Opt) (state : Options) : Except Stop Options :=
  match opt.letter with
  | 'a' =>
      .ok (numberOption (strtoulBase 0 opt.optarg)
        (fun val wdi => { wdi with physbase := val }) state)
  | 'l' =>
      .ok (numberOption (strtoulBase 0 opt.optarg)
        (fun val wdi => { wdi with len := val.toNat }) state)
  | 'p' =>
      .ok (numberOption (strtolBase 0 opt.optarg)
        (fun val wdi => { wdi with priority := (BitVec.ofInt 32 val).toInt }) state)
  | 't' =>
      .ok (numberOption (strtoulBase 0 opt.optarg)
        (fun val wdi => { wdi with kickTime := val.toInt }) state)
  | 'w' =>
      .ok (numberOption (strtoulBase 0 opt.optarg)
        (fun val wdi => { wdi with writeWidth := val.setWidth 32 }) state)
  | 'r' =>
      .ok (numberOption (strtoulBase 0 opt.optarg)
        (fun val wdi => { wdi with enableWidth := val.setWidth 32 }) state)
  | 'E' => enableOffsetOption opt state
  | 'B' => bitswapOption opt state
  | 'W' => writeOption opt state
  | 'v' => .ok { state with wdi := { state.wdi with verbose := state.wdi.verbose + 1 } }
  | _ => .ok state

/-- `wd_parse_options`. -/
def wdParseOptions : List Opt → Options → Except Stop Options
  | [], state => .ok state
  | opt :: opts, state => (applyOption opt state).bind (wdParseOptions opts)

/-! ## The program -/

/-- `wd_evaluate_params`. -/
def wdEvaluateParams (wdi : Wdi) : Bool :=
  wdi.physbase ≠ 0 ∧ wdi.kickTime ≠ -1 ∧ wdi.operation ≠ none ∧ wdi.numWrites ≠ 0

/-- The widths that `wd_setup_write_width` and `wd_setup_enable_width` take. -/
def isWidth (width : BitVec 32) : Bool := width = 32 ∨ width = 16 ∨ width = 8

/-- `main` up to the mapping, for the words behind the name of the program, where
`wd_configure_thread` changes none of the fields. -/
def main (hwinfo : Hwinfo) (beyond : Nat → List Char) (words : List (List Char)) (stack : Wdi)
    (erange : Bool) : Except Stop Wdi :=
  (wdParseHwinfo hwinfo (start stack)).bind fun wdi =>
    (wdParseOptions (getopts beyond 1 words) ⟨wdi, erange⟩).bind fun ⟨wdi, _⟩ =>
      if ¬ wdEvaluateParams wdi then .error .failure
      else if ¬ isWidth wdi.writeWidth then .error .failure
      else if ¬ isWidth wdi.enableWidth then .error .failure
      else .ok wdi

/-- An access to some bytes. -/
structure Access where
  address : Nat
  bytes : Nat
deriving DecidableEq, Repr

namespace Wdi

def readWdt (wdi : Wdi) (base : Nat) (offset : BitVec 32) : Access :=
  ⟨base + offset.toNat, wdi.enableWidth.toNat / 8⟩

def writeWdt (wdi : Wdi) (base : Nat) (offset : BitVec 32) : Access :=
  ⟨base + offset.toNat, wdi.writeWidth.toNat / 8⟩

/-- The accesses of the enable step, where the register reads as a value. -/
def enableAccesses (wdi : Wdi) (base : Nat) (status : BitVec 32) : List Access :=
  if wdi.enableMask ≠ 0 then
    wdi.readWdt base wdi.enableRegOffset ::
      if status &&& wdi.enableMask ≠ wdi.enableMask then
        [wdi.readWdt base wdi.enableRegOffset, wdi.writeWdt base wdi.enableRegOffset]
      else []
  else []

/-- The accesses of a kick to one register. -/
def registerAccesses (wdi : Wdi) (base : Nat) (offset : BitVec 32) : List Access :=
  match wdi.operation with
  | some .bitswap => [wdi.readWdt base offset, wdi.writeWdt base offset]
  | some .write => [wdi.writeWdt base offset]
  | none => []

/-- The accesses of one kick. -/
def kickAccesses (wdi : Wdi) (base : Nat) : List Access :=
  wdi.table.flatMap fun entry => wdi.registerAccesses base entry.1

/-- The accesses of the program up to some number of kicks. -/
def accesses (wdi : Wdi) (base : Nat) (status : BitVec 32) (kicks : Nat) : List Access :=
  wdi.enableAccesses base status ++ (List.replicate kicks (wdi.kickAccesses base)).flatten

end Wdi

/-- Every access is inside the mapping, whatever the device answers. -/
def AllMapped (wdi : Wdi) (base : Nat) : Prop :=
  ∀ status kicks, ∀ access ∈ wdi.accesses base status kicks,
    base ≤ access.address ∧ access.address + access.bytes ≤ base + wdi.len

/-! ## The lengths that are given -/

/-- The marks of the options device, up to a name that is not known. -/
def optionMarks : List Regname → List (Mark Nat)
  | [] => []
  | tag :: tags =>
      if tag.name = "enable_offset".toList then .atLeast tag.offset.toNat :: optionMarks tags
      else if tag.name ∈ ["write_width".toList, "enable_width".toList, "enable_mask".toList,
          "enable_condition".toList] then optionMarks tags
      else []

/-- The marks of the hwinfo section. -/
def hwinfoMarks (hwinfo : Hwinfo) : List (Mark Nat) :=
  (hwinfo.wdog.toList.map fun wdog => .atLeast wdog.len) ++ optionMarks (hwinfo.options.getD []) ++
    ((kickTags hwinfo).filter (·.kind = .offset)).map fun tag => .atLeast tag.offset.toNat

/-- The mark of an option. -/
def optMarks (opt : Opt) : List (Mark Nat) :=
  match opt.letter with
  | 'l' =>
      let (val, range, _) := strtoulBase 0 opt.optarg
      if range then [] else [.exactly val.toNat]
  | 'E' | 'B' => [.atLeast (BitVec.ofInt 32 (strtolBase 16 opt.optarg).1).toNat]
  | 'W' => [.atLeast ((strtoulBase 16 opt.optarg).1.setWidth 32).toNat]
  | _ => []

/-- The default length, a length or an offset of the hwinfo section, or a `-l` or an offset of the
command line gives this many bytes, and no later `-l` takes them back. -/
def Given (hwinfo : Hwinfo) (opts : List Opt) (bytes : Nat) : Prop :=
  Reaches DEFAULT_REG_LEN (hwinfoMarks hwinfo ++ opts.flatMap optMarks) bytes

/-- The bytes of a register that is read and written. -/
def bothBytes (wdi : Wdi) : Nat := max (wdi.enableWidth.toNat / 8) (wdi.writeWidth.toNat / 8)

/-- The bytes of a register of the kick. -/
def kickBytes (wdi : Wdi) : Nat :=
  if wdi.operation = some .bitswap then bothBytes wdi else wdi.writeWidth.toNat / 8

variable {wdi after : Wdi} {hwinfo : Hwinfo} {tags : List Regname} {list : List Group}

/-! ## The length behind the hwinfo section -/

theorem raise_len (wdi : Wdi) (offset : BitVec 32) :
    (wdi.raise offset).len = behind wdi.len [.atLeast offset.toNat] := rfl

theorem Wdi.counts_len (wdi : Wdi) (part : Part) : (wdi.counts part).len = wdi.len := by
  cases part with
  | low | whole | high => rfl

/-- The marks of the options device. -/
theorem readOptions_len (tags : List Regname) (wdi : Wdi) :
    (readOptions tags wdi).len = behind wdi.len (optionMarks tags) := by
  induction tags generalizing wdi with
  | nil => rfl
  | cons tag tags ih =>
      have skips : ∀ {name}, tag.name = name → name ∈ ["write_width".toList,
          "enable_width".toList, "enable_mask".toList, "enable_condition".toList] →
          name ≠ "enable_offset".toList → optionMarks (tag :: tags) = optionMarks tags := by
        intro name same known other
        rw [optionMarks, same, if_neg other, if_pos known]
      rw [readOptions]
      split_ifs with writeWidth enableWidth enableMask enableCondition enableOffset
      · rw [ih, skips writeWidth (by simp) (by decide)]
      · rw [ih, skips enableWidth (by simp) (by decide)]
      · rw [ih, skips enableMask (by simp) (by decide)]
      · rw [ih, skips enableCondition (by simp) (by decide)]
      · rw [ih, optionMarks, if_pos enableOffset]
        rfl
      · rw [optionMarks, if_neg enableOffset, if_neg]
        · rfl
        · simp only [List.mem_cons, List.not_mem_nil, or_false, not_or]
          exact ⟨writeWidth, enableWidth, enableMask, enableCondition⟩

/-- The marks of groups. -/
theorem enterAll_len (returned : enterAll list wdi = .ok after) :
    after.len = behind wdi.len (list.map fun group => .atLeast group.offset.toNat) := by
  induction list generalizing wdi with
  | nil =>
      cases returned
      rfl
  | cons group list ih =>
      rw [enterAll] at returned
      split at returned
      · cases returned
      · rw [ih returned, Wdi.enter, Wdi.counts_len]
        rfl

/-- The offsets of groups are those of the tags. -/
theorem groups_offsets {bitswap : Bool} (grouped : groups bitswap tags = some list) :
    list.map Group.offset = (tags.filter (·.kind = .offset)).map Regname.offset := by
  induction tags using groups.induct bitswap generalizing list with
  | case1 =>
      cases grouped
      rfl
  | case2 tag given =>
      rw [groups, if_pos given] at grouped
      cases grouped
      rw [List.filter_cons_of_pos (by simpa using given.2)]
      rfl
  | case3 tag given =>
      rw [groups, if_neg given] at grouped
      cases grouped
  | case4 first second tags part isValue isOffset ih =>
      rw [groups, isOffset, isValue] at grouped
      obtain ⟨rest, restGrouped, rfl⟩ := Option.map_eq_some_iff.mp grouped
      rw [List.filter_cons_of_pos (by simpa using isOffset),
        List.filter_cons_of_neg (by simp [isValue]), List.map_cons, List.map_cons,
        ih restGrouped]
  | case5 first second tags part isOffset isValue ih =>
      rw [groups, isOffset, isValue] at grouped
      obtain ⟨rest, restGrouped, rfl⟩ := Option.map_eq_some_iff.mp grouped
      rw [List.filter_cons_of_neg (by simp [isValue]),
        List.filter_cons_of_pos (by simpa using isOffset), List.map_cons, List.map_cons,
        ih restGrouped]
  | case6 first second tags next isOffset given ih =>
      rw [groups, isOffset, next] at grouped
      dsimp only at grouped
      rw [if_pos given] at grouped
      obtain ⟨rest, restGrouped, rfl⟩ := Option.map_eq_some_iff.mp grouped
      rw [List.filter_cons_of_pos (by simpa using isOffset), List.map_cons, List.map_cons,
        ih restGrouped]
  | case7 first second tags next isOffset given =>
      rw [groups, isOffset, next] at grouped
      dsimp only at grouped
      rw [if_neg given] at grouped
      cases grouped
  | case8 first second tags notBehind notFront notLone =>
      rw [groups] at grouped
      split at grouped
      · next part isOffset isValue => exact (notBehind part isOffset isValue).elim
      · next part isValue isOffset => exact (notFront part isValue isOffset).elim
      · next isOffset next => exact (notLone isOffset next).elim
      · cases grouped

/-- The marks of the kick device. -/
theorem parseTags_len (counting : wdi.incrementIndex = true)
    (returned : parseTags tags .head wdi = .ok after) :
    after.len = behind wdi.len
      ((tags.filter (·.kind = .offset)).map fun tag => .atLeast tag.offset.toNat) := by
  rw [parseTags_eq tags counting] at returned
  cases grouped : groups (wdi.operation = some .bitswap) tags with
  | none =>
      rw [grouped] at returned
      cases returned
  | some list =>
      rw [grouped] at returned
      have offsets := congrArg (List.map fun offset : BitVec 32 => Mark.atLeast offset.toNat)
        (groups_offsets grouped)
      rw [List.map_map, List.map_map] at offsets
      rw [enterAll_len returned]
      exact congrArg (behind wdi.len) offsets

/-- The length behind the hwinfo section. -/
theorem wdParseHwinfo_len {stack : Wdi}
    (returned : wdParseHwinfo hwinfo (start stack) = .ok after) :
    after.len = behind DEFAULT_REG_LEN (hwinfoMarks hwinfo) := by
  obtain ⟨wdi, begins, _, len, parsed⟩ := wdParseHwinfo_eq hwinfo stack
  rw [parsed] at returned
  have located : (parseHwinfoInit hwinfo (start stack)).len =
      behind DEFAULT_REG_LEN (hwinfo.wdog.toList.map fun wdog => .atLeast wdog.len) := by
    unfold parseHwinfoInit
    cases hwinfo.wdog with
    | none => rfl
    | some wdog => rfl
  rw [parseTags_len begins.incrementIndex returned, len, parseHwinfoOpt, readOptions_len, located,
    ← behind_append, ← behind_append, hwinfoMarks, List.append_assoc]

/-! ## The length behind the options -/

variable {opt : Opt} {opts : List Opt} {state next : Options}

theorem Wdi.store_ok {change : BitVec 32 × BitVec 32 → BitVec 32 × BitVec 32}
    (stored : wdi.store change = .ok after) : after = wdi.modify change := by
  by_cases inside : wdi.numWrites < MAX_NUM_REG
  · rw [store_eq inside] at stored
    cases stored
    rfl
  · rw [store, dif_neg inside] at stored
    cases stored

theorem Wdi.store_len {change : BitVec 32 × BitVec 32 → BitVec 32 × BitVec 32}
    (stored : wdi.store change = .ok after) : after.len = wdi.len := by
  rw [store_ok stored]
  rfl

theorem numberOption_len {α : Type} {number : α × Bool × List Char} {change : α → Wdi → Wdi}
    (keeps : ∀ value wdi, (change value wdi).len = wdi.len) (state : Options) :
    (numberOption number change state).wdi.len = state.wdi.len := by
  unfold numberOption
  dsimp only
  split
  · rfl
  · exact keeps _ _

theorem enableOffsetOption_len (returned : enableOffsetOption opt state = .ok next) :
    next.wdi.len = behind state.wdi.len
      [.atLeast (BitVec.ofInt 32 (strtolBase 16 opt.optarg).1).toNat] := by
  unfold enableOffsetOption at returned
  dsimp only at returned
  split_ifs at returned
  · cases returned
    rfl
  · cases returned
    rfl
  · cases returned
    rfl

theorem bitswapOption_len (returned : bitswapOption opt state = .ok next) :
    next.wdi.len = behind state.wdi.len
      [.atLeast (BitVec.ofInt 32 (strtolBase 16 opt.optarg).1).toNat] := by
  unfold bitswapOption at returned
  generalize strtolBase 16 opt.optarg = number at *
  obtain ⟨offset, range, rest⟩ := number
  dsimp only at returned
  generalize strtoulBase 16 (if rest = [] then opt.beyond else rest.tail) = value at returned
  obtain ⟨_, returned⟩ := guard_eq_ok.mp returned
  obtain ⟨entered, stored, returned⟩ := bind_eq_ok.mp returned
  obtain ⟨_, returned⟩ := guard_eq_ok.mp returned
  obtain ⟨_, returned⟩ := guard_eq_ok.mp returned
  obtain ⟨_, returned⟩ := guard_eq_ok.mp returned
  obtain ⟨valued, storedValue, rfl⟩ := map_eq_ok.mp returned
  change valued.len = _
  rw [Wdi.store_len storedValue, raise_len, Wdi.store_len stored]

theorem writeOption_len (returned : writeOption opt state = .ok next) :
    next.wdi.len = behind state.wdi.len
      [.atLeast ((strtoulBase 16 opt.optarg).1.setWidth 32).toNat] := by
  unfold writeOption at returned
  generalize strtoulBase 16 opt.optarg = number at *
  obtain ⟨offset, range, rest⟩ := number
  dsimp only at returned
  generalize strtoulBase 16 rest.tail = value at returned
  obtain ⟨_, returned⟩ := guard_eq_ok.mp returned
  obtain ⟨entered, stored, returned⟩ := bind_eq_ok.mp returned
  obtain ⟨_, returned⟩ := guard_eq_ok.mp returned
  obtain ⟨_, returned⟩ := guard_eq_ok.mp returned
  obtain ⟨valued, storedValue, returned⟩ := bind_eq_ok.mp returned
  obtain ⟨_, returned⟩ := guard_eq_ok.mp returned
  cases returned
  change valued.len = _
  rw [Wdi.store_len storedValue, raise_len, Wdi.store_len stored]

/-- The mark of an option. -/
theorem applyOption_len (returned : applyOption opt state = .ok next) :
    next.wdi.len = behind state.wdi.len (optMarks opt) := by
  unfold applyOption at returned
  unfold optMarks
  generalize opt.letter = letter at *
  split at returned
  · cases returned
    apply numberOption_len
    intro _ _
    rfl
  · cases returned
    unfold numberOption
    rcases strtoulBase 0 opt.optarg with ⟨val, range, _⟩
    cases range with
    | false => rfl
    | true => rfl
  · cases returned
    apply numberOption_len
    intro _ _
    rfl
  · cases returned
    apply numberOption_len
    intro _ _
    rfl
  · cases returned
    apply numberOption_len
    intro _ _
    rfl
  · cases returned
    apply numberOption_len
    intro _ _
    rfl
  · exact enableOffsetOption_len returned
  · exact bitswapOption_len returned
  · exact writeOption_len returned
  · cases returned
    rfl
  · cases returned
    split
    · contradiction
    · contradiction
    · contradiction
    · contradiction
    · rfl

/-- The marks of the options. -/
theorem wdParseOptions_len (returned : wdParseOptions opts state = .ok next) :
    next.wdi.len = behind state.wdi.len (opts.flatMap optMarks) := by
  induction opts generalizing state with
  | nil =>
      cases returned
      rfl
  | cons opt opts ih =>
      obtain ⟨between, applied, rest⟩ := bind_eq_ok.mp returned
      rw [ih rest, applyOption_len applied, List.flatMap_cons, behind_append]

/-- The length that `main` maps. -/
theorem main_len {beyond : Nat → List Char} {words : List (List Char)} {stack : Wdi}
    {erange : Bool} (returned : main hwinfo beyond words stack erange = .ok wdi) (bytes : Nat) :
    bytes ≤ wdi.len ↔ Given hwinfo (getopts beyond 1 words) bytes := by
  obtain ⟨parsed, hwinfoParsed, returned⟩ := bind_eq_ok.mp returned
  obtain ⟨options, optionsParsed, returned⟩ := bind_eq_ok.mp returned
  obtain ⟨_, returned⟩ := guard_eq_ok.mp returned
  obtain ⟨_, returned⟩ := guard_eq_ok.mp returned
  obtain ⟨_, returned⟩ := guard_eq_ok.mp returned
  cases returned
  rw [wdParseOptions_len optionsParsed, wdParseHwinfo_len hwinfoParsed, ← behind_append,
    le_behind_iff]
  rfl

/-! ## The accesses -/

variable {base : Nat} {offset : BitVec 32}

/-- An access is inside the mapping. -/
def Wdi.Inside (wdi : Wdi) (base : Nat) (access : Access) : Prop :=
  base ≤ access.address ∧ access.address + access.bytes ≤ base + wdi.len

theorem readWdt_inside_iff : wdi.Inside base (wdi.readWdt base offset) ↔
    offset.toNat + wdi.enableWidth.toNat / 8 ≤ wdi.len := by
  unfold Wdi.Inside Wdi.readWdt
  dsimp only
  omega

theorem writeWdt_inside_iff : wdi.Inside base (wdi.writeWdt base offset) ↔
    offset.toNat + wdi.writeWidth.toNat / 8 ≤ wdi.len := by
  unfold Wdi.Inside Wdi.writeWdt
  dsimp only
  omega

theorem both_inside_iff :
    wdi.Inside base (wdi.readWdt base offset) ∧ wdi.Inside base (wdi.writeWdt base offset) ↔
      offset.toNat + bothBytes wdi ≤ wdi.len := by
  rw [readWdt_inside_iff, writeWdt_inside_iff, bothBytes]
  omega

/-- The enable step is inside the mapping for every value of the register exactly when the register
is, to the end of both widths. -/
theorem enableAccesses_inside_iff :
    (∀ status, ∀ access ∈ wdi.enableAccesses base status, wdi.Inside base access) ↔
      (wdi.enableMask ≠ 0 → wdi.enableRegOffset.toNat + bothBytes wdi ≤ wdi.len) := by
  rw [← both_inside_iff]
  constructor
  · intro inside masked
    have disabled : (0 : BitVec 32) &&& wdi.enableMask ≠ wdi.enableMask := by
      intro same
      exact masked (same.symm.trans BitVec.zero_and)
    have all := inside 0
    unfold Wdi.enableAccesses at all
    rw [if_pos masked, if_pos disabled] at all
    exact ⟨all _ (by simp), all _ (by simp)⟩
  · intro inside status access member
    unfold Wdi.enableAccesses at member
    split at member
    · next masked =>
      obtain ⟨reads, writes⟩ := inside masked
      split at member
      · simp only [List.mem_cons, List.not_mem_nil, or_false, or_self_left] at member
        rcases member with rfl | rfl
        · exact reads
        · exact writes
      · rw [List.mem_singleton.mp member]
        exact reads
    · cases member

/-- A kick to a register is inside the mapping exactly when the register is. -/
theorem registerAccesses_inside_iff (operates : wdi.operation ≠ none) :
    (∀ access ∈ wdi.registerAccesses base offset, wdi.Inside base access) ↔
      offset.toNat + kickBytes wdi ≤ wdi.len := by
  unfold Wdi.registerAccesses kickBytes
  generalize wdi.operation = operation at operates
  match operation with
  | none => exact absurd rfl operates
  | some .bitswap =>
      dsimp only
      rw [if_pos rfl, ← both_inside_iff, List.forall_mem_cons, List.forall_mem_singleton]
  | some .write =>
      dsimp only
      rw [if_neg nofun, ← writeWdt_inside_iff, List.forall_mem_singleton]

/-- All accesses are inside the mapping exactly when the registers are. -/
theorem allMapped_iff (operates : wdi.operation ≠ none) :
    AllMapped wdi base ↔
      (wdi.enableMask ≠ 0 → wdi.enableRegOffset.toNat + bothBytes wdi ≤ wdi.len) ∧
        ∀ entry ∈ wdi.table, entry.1.toNat + kickBytes wdi ≤ wdi.len := by
  rw [← enableAccesses_inside_iff]
  constructor
  · intro mapped
    constructor
    · intro status access member
      exact mapped status 0 access (List.mem_append_left _ member)
    · intro entry listed
      rw [← registerAccesses_inside_iff operates]
      intro access member
      apply mapped 0 1 access
      apply List.mem_append_right
      rw [List.replicate_one, List.flatten_singleton]
      exact List.mem_flatMap.mpr ⟨entry, listed, member⟩
  · rintro ⟨enabling, kicks⟩ status count access member
    rcases List.mem_append.mp member with inEnable | inKicks
    · exact enabling status access inEnable
    · obtain ⟨kick, isKick, inKick⟩ := List.mem_flatten.mp inKicks
      rw [List.eq_of_mem_replicate isKick] at inKick
      obtain ⟨entry, listed, inRegister⟩ := List.mem_flatMap.mp inKick
      exact (registerAccesses_inside_iff operates).mpr (kicks entry listed) access inRegister

theorem main_operates {beyond : Nat → List Char} {words : List (List Char)} {stack : Wdi}
    {erange : Bool} (returned : main hwinfo beyond words stack erange = .ok wdi) :
    wdi.operation ≠ none := by
  obtain ⟨parsed, _, returned⟩ := bind_eq_ok.mp returned
  obtain ⟨options, _, returned⟩ := bind_eq_ok.mp returned
  obtain ⟨evaluated, returned⟩ := guard_eq_ok.mp returned
  obtain ⟨_, returned⟩ := guard_eq_ok.mp returned
  obtain ⟨_, returned⟩ := guard_eq_ok.mp returned
  cases returned
  exact (of_decide_eq_true (not_not.mp evaluated)).2.2.1

/-- For every hwinfo section and all words of the command line that the program accepts, all
accesses are inside the mapping exactly when a length or an offset that is given covers the enable
register, if there is a mask, and each register of the kick, up to its end. -/
theorem accesses_mapped_iff {beyond : Nat → List Char} {words : List (List Char)} {stack : Wdi}
    {erange : Bool} (returned : main hwinfo beyond words stack erange = .ok wdi) (base : Nat) :
    AllMapped wdi base ↔
      (wdi.enableMask ≠ 0 →
        Given hwinfo (getopts beyond 1 words) (wdi.enableRegOffset.toNat + bothBytes wdi)) ∧
        ∀ entry ∈ wdi.table,
          Given hwinfo (getopts beyond 1 words) (entry.1.toNat + kickBytes wdi) := by
  rw [allMapped_iff (main_operates returned)]
  simp only [main_len returned]

/-- A kick to the register at 0x1000 on the command line. -/
def farWords : List (List Char) :=
  [['-', 'a'], ['0', 'x', 'f', 'e', '1', '0', '0', '0', '0', '0'], ['-', 't', '5', '0', '0'],
    ['-', 'W'], ['1', '0', '0', '0', ':', '1']]

/-- No devices of a watchdog. -/
def noHwinfo : Hwinfo := ⟨none, none, none, none⟩

/-- The length is the offset of the register. -/
theorem far_register :
    ∃ wdi, main noHwinfo (fun _ => []) farWords zeroStack false = .ok wdi ∧ wdi.len = 0x1000 ∧
      ¬ AllMapped wdi 0 := by
  have computed : (main noHwinfo (fun _ => []) farWords zeroStack false).map
      (fun wdi => (wdi.len, wdi.table, wdi.operation, wdi.writeWidth)) =
        .ok (0x1000, [(0x1000, 1)], some .write, 32) := by decide
  obtain ⟨wdi, returned, facts⟩ := map_eq_ok.mp computed
  rw [Prod.mk.injEq, Prod.mk.injEq, Prod.mk.injEq] at facts
  obtain ⟨len, table, operation, width⟩ := facts
  refine ⟨wdi, returned, len, ?_⟩
  intro mapped
  have registers := ((allMapped_iff (main_operates returned)).mp mapped).2
  have inside := registers (0x1000, 1) (table ▸ List.mem_singleton_self _)
  rw [kickBytes, operation, if_neg nofun, width, len] at inside
  exact absurd inside (by decide)

/-- A kick to a register that the default length covers. -/
def nearWords : List (List Char) :=
  [['-', 'a'], ['0', 'x', 'f', 'e', '1', '0', '0', '0', '0', '0'], ['-', 't', '5', '0', '0'],
    ['-', 'W'], ['2', '4', ':', '1']]

theorem near_register :
    ∃ wdi, main noHwinfo (fun _ => []) nearWords zeroStack false = .ok wdi ∧
      (AllMapped wdi 0 ↔
        (wdi.enableMask ≠ 0 → Given noHwinfo (getopts (fun _ => []) 1 nearWords)
          (wdi.enableRegOffset.toNat + bothBytes wdi)) ∧
          ∀ entry ∈ wdi.table, Given noHwinfo (getopts (fun _ => []) 1 nearWords)
            (entry.1.toNat + kickBytes wdi)) := by
  have computed : (main noHwinfo (fun _ => []) nearWords zeroStack false).map Wdi.table =
      .ok [(0x24, 1)] := by decide
  obtain ⟨wdi, returned, _⟩ := map_eq_ok.mp computed
  exact ⟨wdi, returned, accesses_mapped_iff returned 0⟩

end Bcm2711.Wdtkick
