import Bcm2711.Gpio.Registers
import Bcm2711.Lib.Tokens
import Bcm2711.Lib.Walk

/-! # The utility for the pins

A command names the pins it is for as numerals and ranges between commas, and `main` visits these
pins from the lowest to the highest.  What is asked of one pin changes that pin only, so that a
command is a change of the table of the pins, up to the first pin that cannot be driven.
-/

namespace Bcm2711.Gpio

open Walks Tokens

/-! ## Lists of pins -/

/-- `sscanf` with "%u%n": the number, and the text behind it.  What a numeral out of range stands
for is not said. -/
def scanUnsigned (wide : Bool → Nat → BitVec 32) (text : List Char) :
    Option (BitVec 32 × List Char) :=
  (signedNumber 10 text).map fun (negative, number, rest) =>
    (if negative ∧ number ≠ 0 ∨ 2 ^ 32 ≤ number then wide negative number
      else BitVec.ofNat 32 number, rest)

/-- The loop that marks the pins from the first to the last. -/
def markPins (mask : BitVec 64) (pin : Nat) : (count : Nat) → BitVec 64
  | 0 => mask
  | count + 1 => markPins (mask ||| 1#64 <<< pin) (pin + 1) count

/-- The pins behind a first numeral: both ends, and the text behind them; otherwise where the text
is wrong. -/
def pinsBehind (wide : Bool → Nat → BitVec 32) (pin : Nat) (text : List Char) :
    Except (List Char) (Nat × Nat × List Char) :=
  if text.head? = some '-' then
    match scanUnsigned wide text.tail with
    | none => .error text.tail
    | some (pin2, rest) =>
        if pin2.toNat ≥ GPIO_MAX then .error text.tail
        else if pin2.toNat < pin then .ok (pin2.toNat, pin, rest)
        else .ok (pin, pin2.toNat, rest)
  else .ok (pin, pin, text)

/-- The end of a round: the list ends, or goes on behind a comma. -/
def nextPins (pinMask : BitVec 64) (pinOpt : List Char) :
    Turn (List Char × BitVec 64) (Except (List Char) (BitVec 64)) :=
  match pinOpt with
  | [] => .ends (.ok pinMask)
  | char :: rest => if char ≠ ',' then .ends (.error pinOpt) else .goes (rest, pinMask)

/-- One round of the loop over a list of pins. -/
def pinsTurn (wide : Bool → Nat → BitVec 32) (point : List Char × BitVec 64) :
    Turn (List Char × BitVec 64) (Except (List Char) (BitVec 64)) :=
  let (pinOpt, pinMask) := point
  match scanUnsigned wide pinOpt with
  | none => .ends (.error pinOpt)
  | some (pin, behind) =>
      if pin.toNat ≥ GPIO_MAX then .ends (.error pinOpt)
      else
        match pinsBehind wide pin.toNat behind with
        | .error pinOpt => .ends (.error pinOpt)
        | .ok (pin, pin2, pinOpt) => nextPins (markPins pinMask pin (pin2 + 1 - pin)) pinOpt

/-- The pins of a list, or the text from where it is wrong. -/
def parsePins (wide : Bool → Nat → BitVec 32) (text : List Char) :
    Option (Except (List Char) (BitVec 64)) :=
  walk (pinsTurn wide) (text.length + 1) (text, 0)

/-! ## Options -/

/-- `fsparam`, `drive` and `pull`. -/
structure Asked where
  fsparam : Int := FUNC_UNSET
  drive : Int := DRIVE_UNSET
  pull : Int := PULL_UNSET
deriving DecidableEq, Repr

/-- One option of `set`. -/
def setOption (asked : Asked) (arg : String) : Option Asked :=
  match arg with
  | "dh" => some { asked with drive := 1 }
  | "dl" => some { asked with drive := 0 }
  | "ip" => some { asked with fsparam := FUNC_IP }
  | "op" => some { asked with fsparam := FUNC_OP }
  | "a0" => some { asked with fsparam := 4 }
  | "a1" => some { asked with fsparam := 5 }
  | "a2" => some { asked with fsparam := 6 }
  | "a3" => some { asked with fsparam := 7 }
  | "a4" => some { asked with fsparam := 3 }
  | "a5" => some { asked with fsparam := 2 }
  | "pu" => some { asked with pull := PULL_UP }
  | "pd" => some { asked with pull := PULL_DOWN }
  | "pn" => some { asked with pull := PULL_NONE }
  | _ => none

/-- The loop over the options of `set`; an unknown one ends it. -/
def setOptions : (asked : Asked) → List String → Except String Asked
  | asked, [] => .ok asked
  | asked, arg :: rest =>
      match setOption asked arg with
      | none => .error arg
      | some asked => setOptions asked rest

/-! ## The command -/

/-- What is printed. -/
inductive Message where
  | noArguments
  | unknownArgument (arg : String)
  | tooManyArguments
  | setExpects
  | unknownGpio (text : List Char)
  | unknownOption (arg : String)
  | mmapFailed
  | funcsHeader
  | altsInfo (pin : Nat)
  | bank (number : Nat)
  /-- The pin with its level, its function and its pull. -/
  | pinState (pin : Nat) (level fsel pull : Int)
  | notAnOutput
deriving DecidableEq, Repr

/-- The header in front of a pin, where all are visited. -/
def bankAt (allPins : Bool) (pin : Nat) : List Message :=
  if allPins then
    if pin = 0 then [.bank 0]
    else if pin = 28 then [.bank 1]
    else if pin = 46 then [.bank 2]
    else []
  else []

/-- `gpio_get`. -/
def gpioGet (gpio : Block) (pin : Nat) : Message :=
  .pinState pin (getGpioLevel gpio pin) (getGpioFsel gpio pin) (getGpioPull gpio pin)

/-- The pins that the loop does not skip. -/
def visited (pinMask : BitVec 64) : List Nat :=
  (List.range (GPIO_MAX + 1)).filter fun pin => pinMask = 0 ∨ pinMask.getLsbD pin

/-- The loop of `get`. -/
def getPins (pinMask : BitVec 64) (gpio : Block) : List Message :=
  (visited pinMask).flatMap fun pin => bankAt (pinMask = 0) pin ++ [gpioGet gpio pin]

/-- The loop of `set`, which ends at the first pin that is not set. -/
def setPins (pinMask : BitVec 64) (asked : Asked) :
    List Nat → Block → Int × List Message × Block
  | [], gpio => (0, [], gpio)
  | pin :: rest, gpio =>
      let (ret, gpio) := gpioSet gpio pin asked.fsparam asked.drive asked.pull
      if ret ≠ 0 then
        (1, bankAt (pinMask = 0) pin ++
          if asked.drive ≠ DRIVE_UNSET ∧ getGpioFsel gpio pin ≠ 1 then [.notAnOutput] else [], gpio)
      else
        let (ret, messages, gpio) := setPins pinMask asked rest gpio
        (ret, bankAt (pinMask = 0) pin ++ messages, gpio)

/-- `main` from where the block is mapped. -/
def visit (get : Bool) (mapped : Bool) (pinMask : BitVec 64) (asked : Asked) (gpio : Block) :
    Int × List Message × Block :=
  if ¬mapped then (1, [.mmapFailed], gpio)
  else if get then (0, getPins pinMask gpio, gpio)
  else setPins pinMask asked (visited pinMask) gpio

/-- `main` behind the list of the pins. -/
def mainBehind (command : String) (opts : List String) (mapped : Bool) (pinMask : BitVec 64)
    (gpio : Block) : Int × List Message × Block :=
  match if command = "set" then setOptions {} opts else .ok {} with
  | .error arg => (1, [.unknownOption arg], gpio)
  | .ok asked =>
      if command = "funcs" then
        (0, .funcsHeader :: (visited pinMask).map .altsInfo, gpio)
      else visit (command = "get") mapped pinMask asked gpio

/-- `main` behind the check that there is a command. -/
def mainFrom (wide : Bool → Nat → BitVec 32) (command : String) (args : List String)
    (mapped : Bool) (gpio : Block) : Option (Int × List Message × Block) :=
  if command ≠ "get" ∧ command ≠ "set" ∧ command ≠ "funcs" then
    some (1, [.unknownArgument command], gpio)
  else if command ≠ "set" ∧ args.length > 1 then some (1, [.tooManyArguments], gpio)
  else if command = "set" ∧ args.length < 2 then some (1, [.setExpects], gpio)
  else
    match args with
    | [] => some (mainBehind command [] mapped 0 gpio)
    | list :: opts =>
        (parsePins wide list.toList).map fun
          | .error text => (1, [.unknownGpio text], gpio)
          | .ok pinMask => mainBehind command opts mapped pinMask gpio

/-- `main`: the status, what is printed, and the block.  The list of the pins is read to its end. -/
def main (wide : Bool → Nat → BitVec 32) (argv : List String) (mapped : Bool) (gpio : Block) :
    Option (Int × List Message × Block) :=
  match argv with
  | _ :: command :: args => mainFrom wide command args mapped gpio
  | _ => some (0, [.noArguments], gpio)

variable {wide : Bool → Nat → BitVec 32} {mask : BitVec 64} {asked : Asked} {gpio : Block}
  {text rest : List Char}

/-! ## What a list stands for -/

theorem markPins_eq (mask : BitVec 64) (first count pin : Nat) (inside : first + count ≤ 64) :
    (markPins mask first count).getLsbD pin = true ↔
      mask.getLsbD pin = true ∨ first ≤ pin ∧ pin < first + count := by
  induction count generalizing mask first with
  | zero =>
      rw [markPins]
      constructor
      · exact Or.inl
      · rintro (marked | outside)
        · exact marked
        · omega
  | succ count ih =>
      rw [markPins, ih _ _ (by omega), BitVec.getLsbD_or, BitVec.getLsbD_shiftLeft,
        BitVec.getLsbD_one]
      simp only [Bool.or_eq_true, Bool.and_eq_true, decide_eq_true_eq, Bool.not_eq_true',
        decide_eq_false_iff_not]
      constructor
      · rintro ((marked | one) | more)
        · exact Or.inl marked
        · exact Or.inr (by omega)
        · exact Or.inr (by omega)
      · rintro (marked | more)
        · exact Or.inl (Or.inl marked)
        · by_cases here : pin = first
          · exact Or.inl (Or.inr (by omega))
          · exact Or.inr (by omega)

/-- The text behind a number is shorter. -/
theorem digits_length (base number : Nat) (text : List Char) :
    (digits base number text).2.length ≤ text.length := by
  induction text generalizing number with
  | nil => exact le_rfl
  | cons char text ih =>
      rw [digits]
      split
      · split
        · exact (ih _).trans (Nat.le_succ _)
        · exact le_rfl
      · exact le_rfl

theorem signOf_length (text : List Char) : (signOf text).2.length ≤ text.length := by
  unfold signOf
  split
  · exact Nat.le_succ _
  · exact Nat.le_succ _
  · exact le_rfl

theorem scanUnsigned_shorter {value : BitVec 32}
    (scan : scanUnsigned wide text = some (value, rest)) :
    rest.length < text.length := by
  rw [scanUnsigned, Option.map_eq_some_iff] at scan
  obtain ⟨⟨negative, number, behind⟩, read, same⟩ := scan
  obtain rfl : behind = rest := congrArg Prod.snd same
  have trimmed := (List.dropWhile_suffix (l := text) (isSpace ·)).length_le
  have unsigned := signOf_length (text.dropWhile (isSpace ·))
  have decimal := digits_length 10 0 (signOf (text.dropWhile (isSpace ·))).2
  rw [signedNumber] at read
  simp only [numeral, Nat.reduceEqDiff, false_and, or_self, if_false] at read
  split at read
  · cases read
  · next some =>
      have behindDigits : (digits 10 0 (signOf (text.dropWhile (isSpace ·))).2).2 = behind :=
        congrArg (fun found => found.2.2) (Option.some.inj read)
      rw [behindDigits] at some decimal
      omega

theorem pinsBehind_shorter {pin first last : Nat}
    (behind : pinsBehind wide pin text = .ok (first, last, rest)) :
    rest.length ≤ text.length := by
  unfold pinsBehind at behind
  split at behind
  · split at behind
    · cases behind
    · next scan =>
        have shorter := scanUnsigned_shorter scan
        rw [List.length_tail] at shorter
        split at behind
        · cases behind
        · split at behind
          · obtain rfl := congrArg (fun found => found.2.2) (Except.ok.inj behind)
            dsimp only
            omega
          · obtain rfl := congrArg (fun found => found.2.2) (Except.ok.inj behind)
            dsimp only
            omega
  · obtain rfl := congrArg (fun found => found.2.2) (Except.ok.inj behind)
    exact le_rfl

theorem pinsBehind_range {pin first last : Nat} (inside : pin < GPIO_MAX)
    (behind : pinsBehind wide pin text = .ok (first, last, rest)) :
    first ≤ last ∧ last < GPIO_MAX := by
  unfold pinsBehind at behind
  split at behind
  · split at behind
    · cases behind
    · split at behind
      · cases behind
      · next below =>
          split at behind
          · cases behind
            exact ⟨by omega, inside⟩
          · cases behind
            exact ⟨by omega, by omega⟩
  · cases behind
    exact ⟨le_rfl, inside⟩

/-- A round finds the list wrong, or marks a range and leaves less of the list. -/
theorem pinsTurn_cases (wide : Bool → Nat → BitVec 32) (text : List Char) (mask : BitVec 64) :
    (∃ behind, pinsTurn wide (text, mask) = .ends (.error behind)) ∨
      ∃ first last rest, first ≤ last ∧ last < GPIO_MAX ∧ rest.length < text.length ∧
        (pinsTurn wide (text, mask) = .ends (.ok (markPins mask first (last + 1 - first))) ∨
          pinsTurn wide (text, mask) = .goes (rest, markPins mask first (last + 1 - first))) := by
  unfold pinsTurn
  dsimp only
  split
  · exact Or.inl ⟨_, rfl⟩
  · next pin behind scan =>
      have shorter := scanUnsigned_shorter scan
      split
      · exact Or.inl ⟨_, rfl⟩
      · next below =>
          split
          · exact Or.inl ⟨_, rfl⟩
          · next first last rest found =>
              obtain ⟨order, inside⟩ := pinsBehind_range (Nat.lt_of_not_le below) found
              have less := pinsBehind_shorter found
              unfold nextPins
              split
              · exact Or.inr ⟨first, last, [], order, inside, Nat.lt_of_le_of_lt less shorter,
                  Or.inl rfl⟩
              · next char more =>
                  rw [List.length_cons] at less
                  split
                  · exact Or.inl ⟨_, rfl⟩
                  · exact Or.inr ⟨first, last, more, order, inside, by omega, Or.inr rfl⟩

/-- A list is read to its end. -/
theorem parsePins_isSome (wide : Bool → Nat → BitVec 32) (text : List Char) :
    (parsePins wide text).isSome = true := by
  have enough : ∀ turns (text : List Char) (mask : BitVec 64), text.length < turns →
      (walk (pinsTurn wide) turns (text, mask)).isSome = true := by
    intro turns
    induction turns with
    | zero => exact fun text mask less => absurd less (Nat.not_lt_zero _)
    | succ turns ih =>
        intro text mask less
        rw [walk]
        obtain ⟨behind, wrong⟩ | ⟨first, last, rest, -, -, shorter, last | goes⟩ :=
          pinsTurn_cases wide text mask
        · rw [wrong]
          rfl
        · rw [last]
          rfl
        · rw [goes]
          exact ih rest _ (by omega)
  exact enough _ text 0 (Nat.lt_succ_self _)

/-- Pins below the bound only, and at least one where the loop has ended well. -/
def Within (mask : BitVec 64) : Prop := ∀ pin, mask.getLsbD pin = true → pin < GPIO_MAX

theorem markPins_within {first last : Nat} (within : Within mask) (order : first ≤ last)
    (inside : last < GPIO_MAX) :
    Within (markPins mask first (last + 1 - first)) ∧
      markPins mask first (last + 1 - first) ≠ 0 := by
  have room : first + (last + 1 - first) ≤ 64 := by
    unfold GPIO_MAX at inside
    omega
  constructor
  · intro pin marked
    rcases (markPins_eq mask _ _ pin room).mp marked with before | range
    · exact within pin before
    · omega
  · intro none
    have marked := (markPins_eq mask first (last + 1 - first) first room).mpr
      (Or.inr (by omega))
    rw [none] at marked
    exact Bool.false_ne_true ((BitVec.getLsbD_zero).symm.trans marked)

/-- A list that is accepted stands for pins of the block, of which there is one at least. -/
theorem parsePins_within (parsed : parsePins wide text = some (.ok mask)) :
    Within mask ∧ mask ≠ 0 := by
  have returns : Returns (pinsTurn wide) (text, 0) (.ok mask) := ⟨_, parsed⟩
  have good := @Returns.kept _ _ _ _ _ (fun point => Within point.2)
    (fun result => ∀ mask, result = .ok mask → Within mask ∧ mask ≠ 0) returns
  refine good ?_ ?_ ?_ mask rfl
  · rintro ⟨text, mask⟩ next within goes
    obtain ⟨behind, wrong⟩ | ⟨first, last, rest, order, inside, -, ends | found⟩ :=
      pinsTurn_cases wide text mask
    · cases wrong.symm.trans goes
    · cases ends.symm.trans goes
    · cases found.symm.trans goes
      exact (markPins_within within order inside).1
  · rintro ⟨text, mask⟩ result within ends last rfl
    obtain ⟨behind, wrong⟩ | ⟨first, last, rest, order, inside, -, found | goes⟩ :=
      pinsTurn_cases wide text mask
    · cases wrong.symm.trans ends
    · cases found.symm.trans ends
      exact markPins_within within order inside
    · cases goes.symm.trans ends
  · intro pin marked
    exact absurd ((BitVec.getLsbD_zero).symm.trans marked) Bool.false_ne_true

/-! ## Lists as they are written -/

/-- A number as it is written. -/
def decimal (number : Nat) : List Char :=
  if number = 0 then ['0'] else (Nat.digits 10 number).reverse.map Nat.digitChar

/-- A pin, or the pins from one to another in either order. -/
inductive Element where
  | pin (number : Nat)
  | range (first last : Nat)
deriving DecidableEq, Repr

namespace Element

/-- The element as it is written. -/
def written : Element → List Char
  | pin number => decimal number
  | range first last => decimal first ++ '-' :: decimal last

/-- The highest number that is written. -/
def highest : Element → Nat
  | pin number => number
  | range first last => max first last

/-- The pins that are meant. -/
def Covers : Element → Nat → Prop
  | pin number, index => index = number
  | range first last, index => min first last ≤ index ∧ index ≤ max first last

end Element

/-- A list of elements as it is written. -/
def written : List Element → List Char
  | [] => []
  | [element] => element.written
  | element :: elements => element.written ++ ',' :: written elements

/-- A digit is read as what it was written for. -/
theorem digitOf_digitChar {digit : Nat} (less : digit < 10) :
    digitOf (Nat.digitChar digit) = some digit := by
  revert digit
  decide

theorem digits_map {written : List Nat} (less : ∀ digit ∈ written, digit < 10) (number : Nat)
    (behind : digits 10 0 rest = (0, rest)) :
    digits 10 number (written.map Nat.digitChar ++ rest) =
      (written.foldl (fun number digit => 10 * number + digit) number, rest) := by
  induction written generalizing number with
  | nil =>
      cases rest with
      | nil => rfl
      | cons char rest =>
          rw [List.map_nil, List.nil_append, List.foldl_nil]
          rw [digits] at behind ⊢
          split
          · next digit isDigit =>
              rw [isDigit] at behind
              dsimp only at behind
              split
              · next small =>
                  rw [if_pos small] at behind
                  have shorter := digits_length 10 (10 * 0 + digit) rest
                  rw [behind] at shorter
                  exact absurd shorter (Nat.not_succ_le_self _)
              · rfl
          · rfl
  | cons digit written ih =>
      have here := less digit List.mem_cons_self
      rw [List.map_cons, List.cons_append, digits, digitOf_digitChar here]
      dsimp only
      rw [if_pos here, ih (fun other member => less other (List.mem_cons_of_mem _ member)),
        List.foldl_cons]

theorem foldl_reverse_digits (number : Nat) :
    (Nat.digits 10 number).reverse.foldl (fun number digit => 10 * number + digit) 0 = number := by
  rw [List.foldl_reverse]
  have value := Nat.ofDigits_digits 10 number
  rw [Nat.ofDigits_eq_foldr] at value
  conv_rhs => rw [← value]
  congr 1
  funext digit number
  exact Nat.add_comm _ _

/-- A number is read back, up to the first character that is not a digit. -/
theorem digits_decimal (number : Nat) (behind : digits 10 0 rest = (0, rest)) :
    digits 10 0 (decimal number ++ rest) = (number, rest) := by
  by_cases zero : number = 0
  · subst zero
    exact @digits_map rest [0] (by decide) 0 behind
  · rw [decimal, if_neg zero, digits_map _ 0 behind, foldl_reverse_digits]
    intro digit member
    exact Nat.digits_lt_base (by decide) (List.mem_reverse.mp member)

/-- A number begins with a digit. -/
theorem decimal_head (number : Nat) :
    ∃ digit < 10, ∃ more, decimal number = Nat.digitChar digit :: more := by
  by_cases zero : number = 0
  · subst zero
    exact ⟨0, by decide, [], rfl⟩
  · rw [decimal, if_neg zero]
    cases shown : (Nat.digits 10 number).reverse with
    | nil =>
        exact absurd (List.reverse_eq_nil_iff.mp shown) (Nat.digits_ne_nil_iff_ne_zero.mpr zero)
    | cons digit more =>
        have member : digit ∈ Nat.digits 10 number :=
          List.mem_reverse.mp (shown ▸ List.mem_cons_self)
        exact ⟨digit, Nat.digits_lt_base (by decide) member, more.map Nat.digitChar, rfl⟩

/-- In front of a digit there is neither a blank nor a sign. -/
theorem signOf_digitChar {digit : Nat} (less : digit < 10) (rest : List Char) :
    signOf ((Nat.digitChar digit :: rest).dropWhile (isSpace ·)) =
      (false, Nat.digitChar digit :: rest) := by
  have plain : ∀ digit < 10, isSpace (Nat.digitChar digit) = false ∧
      Nat.digitChar digit ≠ '-' ∧ Nat.digitChar digit ≠ '+' := by decide
  obtain ⟨noBlank, noMinus, noPlus⟩ := plain digit less
  rw [List.dropWhile_cons_of_neg (by rw [noBlank]; exact Bool.false_ne_true)]
  unfold signOf
  split
  · next same => exact absurd (List.cons.inj same).1 noMinus
  · next same => exact absurd (List.cons.inj same).1 noPlus
  · rfl

theorem scanUnsigned_decimal {number : Nat} (small : number < 2 ^ 32)
    (behind : digits 10 0 rest = (0, rest)) :
    scanUnsigned wide (decimal number ++ rest) = some (BitVec.ofNat 32 number, rest) := by
  obtain ⟨digit, less, more, head⟩ := decimal_head number
  have noSign : signOf ((decimal number ++ rest).dropWhile (isSpace ·)) =
      (false, decimal number ++ rest) := by
    rw [head]
    exact signOf_digitChar less _
  have some : rest.length ≠ (decimal number ++ rest).length := by
    rw [head, List.length_append, List.length_cons]
    omega
  rw [scanUnsigned, signedNumber, noSign]
  simp only [numeral, Nat.reduceEqDiff, false_and, or_self, if_false,
    digits_decimal number behind, if_neg some, Option.map_some, Bool.false_eq_true, false_or]
  rw [if_neg (Nat.not_le.mpr small)]

/-- No digit follows. -/
theorem digits_cons_of_not (char : Char) (rest : List Char) (none : digitOf char = none) :
    digits 10 0 (char :: rest) = (0, char :: rest) := by
  rw [digits, none]

/-- An element is read, with what is behind it. -/
theorem pinsTurn_written (wide : Bool → Nat → BitVec 32) (mask : BitVec 64) {element : Element}
    (small : element.highest < 2 ^ 32) (behind : rest = [] ∨ rest.head? = some ',') :
    (element.highest < GPIO_MAX → ∃ first last, first ≤ last ∧ last < GPIO_MAX ∧
      (∀ pin, element.Covers pin ↔ first ≤ pin ∧ pin ≤ last) ∧
      pinsTurn wide (element.written ++ rest, mask) =
        nextPins (markPins mask first (last + 1 - first)) rest) ∧
    (GPIO_MAX ≤ element.highest →
      ∃ wrong, pinsTurn wide (element.written ++ rest, mask) = .ends (.error wrong)) := by
  have noDigit : digits 10 0 rest = (0, rest) := by
    rcases behind with rfl | comma
    · rfl
    · cases rest with
      | nil => cases comma
      | cons char rest =>
          obtain rfl := Option.some.inj comma
          exact digits_cons_of_not ',' rest rfl
  cases element with
  | pin number =>
      have noMinus : rest.head? ≠ some '-' := by
        rcases behind with rfl | comma
        · exact fun same => by cases same
        · rw [comma]
          decide
      have value : (BitVec.ofNat 32 number).toNat = number :=
        (BitVec.toNat_ofNat number 32).trans (Nat.mod_eq_of_lt small)
      rw [Element.written, pinsTurn]
      rw [@scanUnsigned_decimal wide rest number small noDigit]
      dsimp only
      rw [value]
      constructor
      · intro below
        refine ⟨number, number, le_rfl, below, ?_, ?_⟩
        · intro pin
          exact ⟨fun same => ⟨same.ge, same.le⟩, fun range => le_antisymm range.2 range.1⟩
        · have belowHere : ¬number ≥ GPIO_MAX := Nat.not_le.mpr below
          rw [if_neg belowHere, pinsBehind, if_neg noMinus]
      · intro above
        exact ⟨_, if_pos above⟩
  | range first last =>
      have smallFirst : first < 2 ^ 32 := (le_max_left ..).trans_lt small
      have smallLast : last < 2 ^ 32 := (le_max_right ..).trans_lt small
      have valueFirst : (BitVec.ofNat 32 first).toNat = first :=
        (BitVec.toNat_ofNat first 32).trans (Nat.mod_eq_of_lt smallFirst)
      have valueLast : (BitVec.ofNat 32 last).toNat = last :=
        (BitVec.toNat_ofNat last 32).trans (Nat.mod_eq_of_lt smallLast)
      have text : Element.written (.range first last) ++ rest =
          decimal first ++ '-' :: (decimal last ++ rest) :=
        List.append_assoc ..
      have behindFirst : pinsBehind wide first ('-' :: (decimal last ++ rest)) =
          if last ≥ GPIO_MAX then .error (decimal last ++ rest)
          else if last < first then .ok (last, first, rest) else .ok (first, last, rest) := by
        rw [pinsBehind, if_pos (by rfl), List.tail_cons, scanUnsigned_decimal smallLast noDigit]
        dsimp only
        rw [valueLast]
      rw [text, pinsTurn]
      rw [scanUnsigned_decimal smallFirst (digits_cons_of_not '-' _ rfl)]
      dsimp only
      rw [valueFirst, behindFirst]
      constructor
      · intro below
        have belowFirst : first < GPIO_MAX := (le_max_left ..).trans_lt below
        have belowLast : last < GPIO_MAX := (le_max_right ..).trans_lt below
        refine ⟨min first last, max first last, min_le_max, below, fun pin => Iff.rfl, ?_⟩
        rw [if_neg (Nat.not_le.mpr belowFirst), if_neg (Nat.not_le.mpr belowLast)]
        by_cases exchanged : last < first
        · rw [if_pos exchanged, min_eq_right exchanged.le, max_eq_left exchanged.le]
        · have order := Nat.le_of_not_lt exchanged
          rw [if_neg exchanged, min_eq_left order, max_eq_right order]
      · intro above
        by_cases aboveFirst : GPIO_MAX ≤ first
        · exact ⟨_, if_pos aboveFirst⟩
        · have aboveLast : last ≥ GPIO_MAX := by
            rcases le_max_iff.mp above with high | high
            · exact absurd high aboveFirst
            · exact high
          rw [if_neg aboveFirst, if_pos aboveLast]
          exact ⟨_, rfl⟩

/-- The loop reads a list as it is written, from the pins marked so far. -/
theorem returns_written (wide : Bool → Nat → BitVec 32) {elements : List Element}
    (nonempty : elements ≠ []) (small : ∀ element ∈ elements, element.highest < 2 ^ 32)
    (mask : BitVec 64) :
    ((∀ element ∈ elements, element.highest < GPIO_MAX) → ∃ marked,
        Returns (pinsTurn wide) (written elements, mask) (.ok marked) ∧
        ∀ pin, marked.getLsbD pin = true ↔
          mask.getLsbD pin = true ∨ ∃ element ∈ elements, element.Covers pin) ∧
      ((∃ element ∈ elements, GPIO_MAX ≤ element.highest) → ∃ wrong,
        Returns (pinsTurn wide) (written elements, mask) (.error wrong)) := by
  induction elements generalizing mask with
  | nil => exact absurd rfl nonempty
  | cons element elements ih =>
      have smallHere := small element List.mem_cons_self
      have marks : ∀ {first last : Nat}, first ≤ last → last < GPIO_MAX →
          (∀ pin, element.Covers pin ↔ first ≤ pin ∧ pin ≤ last) → ∀ pin,
          ((markPins mask first (last + 1 - first)).getLsbD pin = true ↔
            mask.getLsbD pin = true ∨ element.Covers pin) := by
        intro first last order inside covers pin
        have room : first + (last + 1 - first) ≤ 64 := by
          unfold GPIO_MAX at inside
          omega
        rw [markPins_eq mask _ _ pin room, covers pin]
        exact or_congr_right (by omega)
      cases elements with
      | nil =>
          obtain ⟨good, wrong⟩ := pinsTurn_written wide mask smallHere (Or.inl rfl)
          rw [List.append_nil] at good wrong
          constructor
          · intro inside
            obtain ⟨first, last, order, lastInside, covers, turn⟩ :=
              good (inside element List.mem_cons_self)
            refine ⟨_, returns_of_ends turn, fun pin => ?_⟩
            rw [marks order lastInside covers pin]
            simp only [List.mem_singleton, exists_eq_left]
          · rintro ⟨other, member, above⟩
            obtain rfl := List.mem_singleton.mp member
            obtain ⟨text, turn⟩ := wrong above
            exact ⟨text, returns_of_ends turn⟩
      | cons next more =>
          obtain ⟨good, wrong⟩ :=
            @pinsTurn_written (',' :: written (next :: more)) wide mask _ smallHere (Or.inr rfl)
          have later := ih (List.cons_ne_nil _ _)
            fun other member => small other (List.mem_cons_of_mem _ member)
          constructor
          · intro inside
            obtain ⟨first, last, order, lastInside, covers, turn⟩ :=
              good (inside element List.mem_cons_self)
            obtain ⟨marked, rest, exactly⟩ := (later (markPins mask first (last + 1 - first))).1
              fun other member => inside other (List.mem_cons_of_mem _ member)
            refine ⟨marked, returns_of_goes turn rest, fun pin => ?_⟩
            rw [exactly pin, marks order lastInside covers pin, or_assoc]
            refine or_congr_right ?_
            exact (List.exists_mem_cons_iff (Element.Covers · pin) element (next :: more)).symm
          · rintro ⟨other, member, above⟩
            by_cases here : GPIO_MAX ≤ element.highest
            · obtain ⟨text, turn⟩ := wrong here
              exact ⟨text, returns_of_ends turn⟩
            · obtain ⟨first, last, order, lastInside, covers, turn⟩ :=
                good (Nat.lt_of_not_le here)
              have behind : ∃ other ∈ next :: more, GPIO_MAX ≤ other.highest := by
                rcases List.mem_cons.mp member with rfl | later
                · exact absurd above here
                · exact ⟨other, later, above⟩
              obtain ⟨text, rest⟩ := (later (markPins mask first (last + 1 - first))).2 behind
              exact ⟨text, returns_of_goes turn rest⟩

theorem parsePins_of_returns {result : Except (List Char) (BitVec 64)}
    (returns : Returns (pinsTurn wide) (text, 0) result) : parsePins wide text = some result := by
  obtain ⟨found, parsed⟩ := Option.isSome_iff_exists.mp (parsePins_isSome wide text)
  have again : Returns (pinsTurn wide) (text, 0) found := ⟨_, parsed⟩
  rw [parsed, again.unique returns]

/-- A list of pins and ranges, in whatever order and however they overlap, stands for all the pins
that they cover; it is accepted unless it writes a number that is too high. -/
theorem pins_as_written (wide : Bool → Nat → BitVec 32) {elements : List Element}
    (nonempty : elements ≠ []) (small : ∀ element ∈ elements, element.highest < 2 ^ 32) :
    ((∀ element ∈ elements, element.highest < GPIO_MAX) ↔
        ∃ mask, parsePins wide (written elements) = some (.ok mask)) ∧
      ∀ mask, parsePins wide (written elements) = some (.ok mask) →
        mask ≠ 0 ∧ ∀ pin, mask.getLsbD pin = true ↔ ∃ element ∈ elements, element.Covers pin := by
  obtain ⟨good, wrong⟩ := returns_written wide nonempty small 0
  have inside : ∀ mask, parsePins wide (written elements) = some (.ok mask) →
      ∀ element ∈ elements, element.highest < GPIO_MAX := by
    intro mask parsed element member
    by_contra above
    obtain ⟨text, returns⟩ := wrong ⟨element, member, Nat.le_of_not_lt above⟩
    cases parsed.symm.trans (parsePins_of_returns returns)
  refine ⟨⟨?_, ?_⟩, ?_⟩
  · intro all
    obtain ⟨marked, returns, -⟩ := good all
    exact ⟨marked, parsePins_of_returns returns⟩
  · rintro ⟨mask, parsed⟩
    exact inside mask parsed
  · intro mask parsed
    obtain ⟨marked, returns, exactly⟩ := good (inside mask parsed)
    obtain rfl : mask = marked := by
      have same := parsed.symm.trans (parsePins_of_returns returns)
      cases same
      rfl
    refine ⟨(parsePins_within parsed).2, fun pin => ?_⟩
    have unmarked : (0#64).getLsbD pin ≠ true := by
      rw [BitVec.getLsbD_zero]
      exact Bool.false_ne_true
    rw [exactly pin]
    exact or_iff_right unmarked

/-- Both bounds of a range may come first. -/
theorem pins_as_written_three :
    ∃ mask, parsePins (fun _ _ => 0) (written [.pin 3, .range 7 5]) = some (.ok mask) ∧
      mask ≠ 0 ∧
      ∀ pin, mask.getLsbD pin = true ↔
        ∃ element ∈ [Element.pin 3, .range 7 5], element.Covers pin := by
  have all := pins_as_written (fun _ _ => 0)
    (List.cons_ne_nil (Element.pin 3) [.range 7 5]) (by decide)
  obtain ⟨mask, parsed⟩ := all.1.mp (by decide)
  exact ⟨mask, parsed, all.2 mask parsed⟩

/-! ## What a command does to the pins -/

/-- `none` of the options, or one that there is. -/
def Asked.Legal (asked : Asked) : Prop :=
  asked.pull = PULL_UNSET ∨ PULL_NONE ≤ asked.pull ∧ asked.pull ≤ PULL_UP

theorem setOption_legal {arg : String} {next : Asked} (legal : asked.Legal)
    (option : setOption asked arg = some next) : next.Legal := by
  unfold setOption at option
  have given : ∀ pull, PULL_NONE ≤ pull ∧ pull ≤ PULL_UP → ({ asked with pull } : Asked).Legal :=
    fun pull range => Or.inr range
  split at option <;> cases option
  all_goals first | exact legal | exact given _ (by decide)

theorem setOptions_legal {opts : List String} {last : Asked} (legal : asked.Legal)
    (options : setOptions asked opts = .ok last) : last.Legal := by
  induction opts generalizing asked with
  | nil =>
      cases options
      exact legal
  | cons arg rest ih =>
      rw [setOptions] at options
      split at options
      · cases options
      · next option => exact ih (setOption_legal legal option) options

/-- What is asked of one pin. -/
def Pin.apply (asked : Asked) (pin : Pin) : Bool × Pin :=
  pin.set asked.fsparam asked.drive asked.pull

/-- The pins up to the one that is not set, in the order in which they are visited. -/
def upTo (pins : List Nat) (table : Nat → Pin) (asked : Asked) : List Nat :=
  match pins with
  | [] => []
  | pin :: rest => pin :: if ((table pin).apply asked).1 then upTo rest table asked else []

theorem mem_of_mem_upTo {pins : List Nat} {table : Nat → Pin} {pin : Nat}
    (member : pin ∈ upTo pins table asked) : pin ∈ pins := by
  induction pins with
  | nil => exact member
  | cons first rest ih =>
      rw [upTo] at member
      rcases List.mem_cons.mp member with rfl | later
      · exact List.mem_cons_self
      · split at later
        · exact List.mem_cons_of_mem _ (ih later)
        · exact absurd later List.not_mem_nil

/-- Where all pins can be set, all are. -/
theorem upTo_eq {pins : List Nat} {table : Nat → Pin}
    (all : ∀ pin ∈ pins, ((table pin).apply asked).1 = true) : upTo pins table asked = pins := by
  induction pins with
  | nil => rfl
  | cons first rest ih =>
      rw [upTo, if_pos (all first List.mem_cons_self),
        ih fun pin member => all pin (List.mem_cons_of_mem _ member)]

theorem gpioSet_input (gpio : Block) (pin : Nat) (fsparam level pull : Int) :
    (gpioSet gpio pin fsparam level pull).2.input = gpio.input := by
  have written : ∀ (gpio : Block) reg value, (gpio.write reg value).input = gpio.input := by
    intro gpio reg value
    unfold Block.write
    split_ifs <;> rfl
  have fsel : ∀ gpio : Block, (setGpioFsel gpio pin fsparam).2.input = gpio.input := by
    intro gpio
    unfold setGpioFsel
    split
    · rfl
    · exact written ..
  have value : ∀ gpio : Block, (setGpioValue gpio pin level).2.input = gpio.input := by
    intro gpio
    unfold setGpioValue
    split_ifs
    · rfl
    all_goals exact written ..
  have pulled : ∀ gpio : Block, (gpioSetPull gpio pin pull).2.input = gpio.input := by
    intro gpio
    unfold gpioSetPull
    split_ifs
    · rfl
    · rfl
    all_goals exact written ..
  unfold gpioSet
  dsimp only
  split_ifs <;> simp only [fsel, value, pulled]

/-- The visited pins change as it is asked, up to the first one that cannot be driven. -/
theorem setPins_pin {pins : List Nat} (inside : ∀ pin ∈ pins, pin < GPIO_MAX)
    (distinct : pins.Nodup) (legal : asked.Legal) {table : Nat → Pin}
    (shown : ∀ pin ∈ pins, gpio.pin pin = table pin) :
    (∀ pin, (setPins mask asked pins gpio).2.2.pin pin =
        if pin ∈ upTo pins table asked then ((table pin).apply asked).2 else gpio.pin pin) ∧
      (setPins mask asked pins gpio).2.2.input = gpio.input ∧
      ((setPins mask asked pins gpio).1 = 0 ↔
        ∀ pin ∈ pins, ((table pin).apply asked).1 = true) := by
  induction pins generalizing gpio with
  | nil =>
      refine ⟨fun pin => (if_neg List.not_mem_nil).symm, rfl, ?_⟩
      exact iff_of_true rfl fun pin member => absurd member List.not_mem_nil
  | cons pin rest ih =>
      obtain ⟨fresh, distinctRest⟩ := List.nodup_cons.mp distinct
      obtain ⟨effect, succeeds⟩ := @gpioSet_pin gpio pin (inside pin List.mem_cons_self) asked.pull
        asked.fsparam asked.drive legal
      have input := gpioSet_input gpio pin asked.fsparam asked.drive asked.pull
      rw [shown pin List.mem_cons_self] at effect succeeds
      rw [setPins]
      generalize gpioSet gpio pin asked.fsparam asked.drive asked.pull = set
        at effect succeeds input
      obtain ⟨ret, after⟩ := set
      dsimp only at effect succeeds input ⊢
      by_cases failed : ret ≠ 0
      · rw [if_pos failed]
        have refused : ¬((table pin).apply asked).1 = true := fun done =>
          failed (succeeds.mpr done)
        refine ⟨fun other => ?_, input, ?_⟩
        · rw [effect, upTo, if_neg refused]
          by_cases same : other = pin
          · subst same
            rw [Function.update_self, if_pos List.mem_cons_self]
            rfl
          · rw [Function.update_of_ne same,
              if_neg fun member => same (List.mem_singleton.mp member)]
        · exact iff_of_false one_ne_zero fun all => refused (all pin List.mem_cons_self)
      · rw [if_neg failed]
        have done : ((table pin).apply asked).1 = true := succeeds.mp (not_not.mp failed)
        have others : ∀ other ∈ rest, after.pin other = table other := by
          intro other member
          rw [effect, Function.update_of_ne]
          · exact shown other (List.mem_cons_of_mem _ member)
          · rintro rfl
            exact fresh member
        obtain ⟨effectRest, inputRest, succeedsRest⟩ :=
          ih (fun other member => inside other (List.mem_cons_of_mem _ member)) distinctRest others
        refine ⟨fun other => ?_, inputRest.trans input, ?_⟩
        · rw [effectRest, effect, upTo, if_pos done]
          by_cases same : other = pin
          · subst same
            rw [Function.update_self, if_pos List.mem_cons_self,
              if_neg fun member => fresh (mem_of_mem_upTo member)]
            rfl
          · rw [Function.update_of_ne same]
            simp only [List.mem_cons, same, false_or]
        · rw [List.forall_mem_cons]
          exact succeedsRest.trans (and_iff_right done).symm

/-! ## Setting and getting -/

theorem mem_visited (within : Within mask) (some : mask ≠ 0) {pin : Nat} :
    pin ∈ visited mask ↔ mask.getLsbD pin = true := by
  rw [visited, List.mem_filter, List.mem_range]
  simp only [some, false_or, decide_eq_true_eq]
  exact and_iff_right_of_imp fun marked => Nat.lt_succ_of_lt (within pin marked)

/-- The level that is read at a pin. -/
def Pin.level (pin : Pin) (input : Bool) : Bool := if pin.fsel = 1 then pin.output else input

/-- The level of a pin is read as a bit of a word. -/
theorem getGpioLevel_eq (gpio : Block) {pin : Nat} (inside : pin < GPIO_MAX) :
    getGpioLevel gpio pin = if (gpio.pin pin).level (gpio.input pin) then 1 else 0 := by
  have bit : ∀ (word : BitVec 32) index, ((word >>> index &&& 0x1#32).toNat : Int) =
      if word.getLsbD index then 1 else 0 := by
    intro word index
    have one : word >>> index &&& 0x1#32 = if word.getLsbD index then 1#32 else 0#32 := by
      apply BitVec.eq_of_getLsbD_eq
      intro place _
      rw [BitVec.getLsbD_and, BitVec.getLsbD_ushiftRight, BitVec.getLsbD_one]
      by_cases zero : place = 0
      · subst zero
        rw [Nat.add_zero]
        cases word.getLsbD index <;> rfl
      · rw [decide_eq_false zero, Bool.and_false, Bool.and_false]
        split
        · rw [BitVec.getLsbD_one, decide_eq_false zero, Bool.and_false]
        · rw [BitVec.getLsbD_zero]
    rw [one]
    split <;> rfl
  have word : ∀ (levels : Nat → Bool) index, index < 32 →
      (BitVec.ofFnLE fun bit : Fin 32 => levels bit).getLsbD index = levels index := by
    intro levels index less
    rw [BitVec.getLsbD_ofFnLE, dif_pos less]
  have same : gpio.level pin = (gpio.pin pin).level (gpio.input pin) := rfl
  rw [getGpioLevel, if_neg (Nat.not_le.mpr inside), ← same]
  unfold GP_PINS_PER_REG
  unfold GPIO_MAX at inside
  split
  · next low =>
      have read : gpio.read GPLEV0 = BitVec.ofFnLE fun bit : Fin 32 => gpio.level bit := rfl
      rw [bit, read, word (fun place => gpio.level place) pin low]
  · next high =>
      have read : gpio.read GPLEV1 =
        BitVec.ofFnLE fun bit : Fin 32 => gpio.level (GP_PINS_PER_REG + bit) := rfl
      have place : GP_PINS_PER_REG + (pin - 32) = pin := by
        unfold GP_PINS_PER_REG
        omega
      rw [bit, read, word (fun place => gpio.level (GP_PINS_PER_REG + place)) (pin - 32) (by omega),
        place]

/-- What `get` prints of a pin. -/
theorem gpioGet_eq (gpio : Block) {pin : Nat} (inside : pin < GPIO_MAX) :
    gpioGet gpio pin = .pinState pin
      (if (gpio.pin pin).level (gpio.input pin) then 1 else 0) (gpio.pin pin).fsel.toNat
      (pullOf (gpio.pin pin).pull) := by
  rw [gpioGet, getGpioLevel_eq gpio inside, getGpioFsel_eq inside, getGpioPull_eq]

theorem getPins_eq (within : Within mask) (marks : mask ≠ 0) (gpio : Block) :
    getPins mask gpio = (visited mask).map fun pin => .pinState pin
      (if (gpio.pin pin).level (gpio.input pin) then 1 else 0) (gpio.pin pin).fsel.toNat
      (pullOf (gpio.pin pin).pull) := by
  rw [getPins, ← List.flatMap_pure_eq_map]
  apply List.flatMap_congr
  intro pin member
  rw [gpioGet_eq gpio (within pin ((mem_visited within marks).mp member)), decide_eq_false marks]
  rfl

/-- A `set` with a list that is accepted and options that there are changes the pins of the list as
it is asked, from the lowest up to the first one that cannot be driven, and no other pin; it fails
exactly if there is such a pin.  After one that does not fail, a `get` with the same list prints
what was set. -/
theorem set_then_get (name reader list : String) {opts : List String} (given : opts ≠ [])
    (parsed : parsePins wide list.toList = some (.ok mask))
    (options : setOptions {} opts = .ok asked) (gpio : Block) :
    ∃ status messages after,
      main wide (name :: "set" :: list :: opts) true gpio = some (status, messages, after) ∧
      (status = 0 ↔ ∀ pin, mask.getLsbD pin = true → ((gpio.pin pin).apply asked).1 = true) ∧
      (∀ pin, after.pin pin =
        if pin ∈ upTo (visited mask) gpio.pin asked then ((gpio.pin pin).apply asked).2
        else gpio.pin pin) ∧
      (status = 0 → main wide [reader, "get", list] true after = some (0,
        (visited mask).map (fun pin =>
          let set := ((gpio.pin pin).apply asked).2
          .pinState pin (if set.level (gpio.input pin) then 1 else 0) set.fsel.toNat
            (pullOf set.pull)), after)) := by
  obtain ⟨within, marks⟩ := parsePins_within parsed
  have chosen := fun pin => @mem_visited mask within marks pin
  have legal : asked.Legal := setOptions_legal (Or.inl rfl) options
  have distinct : (visited mask).Nodup := List.nodup_range.filter _
  obtain ⟨effect, input, succeeds⟩ := @setPins_pin mask asked gpio (visited mask)
    (fun pin member => within pin ((chosen pin).mp member)) distinct legal gpio.pin
    fun _ _ => rfl
  have enough : ¬(list :: opts).length < 2 := by
    rw [List.length_cons]
    have := List.length_pos_iff.mpr given
    omega
  have setRuns : main wide (name :: "set" :: list :: opts) true gpio =
      some (setPins mask asked (visited mask) gpio) := by
    have visits : mainBehind "set" opts true mask gpio =
        setPins mask asked (visited mask) gpio := by
      rw [mainBehind, if_pos rfl, options]
      rfl
    rw [main, mainFrom, if_neg (by decide), if_neg fun many => many.1 rfl,
      if_neg fun few => enough few.2]
    rw [parsed]
    exact congrArg some visits
  have succeedsAll : (setPins mask asked (visited mask) gpio).1 = 0 ↔
      ∀ pin, mask.getLsbD pin = true → ((gpio.pin pin).apply asked).1 = true :=
    succeeds.trans (forall_congr' fun pin => imp_congr_left (chosen pin))
  refine ⟨_, _, _, setRuns, succeedsAll, effect, fun done => ?_⟩
  have all := succeeds.mp done
  have getRuns : ∀ after : Block, main wide [reader, "get", list] true after =
      some (0, getPins mask after, after) := by
    intro after
    have one : ¬[list].length > 1 := Nat.lt_irrefl 1
    rw [main, mainFrom, if_neg (by decide), if_neg fun many => one many.2,
      if_neg fun few => absurd few.1 (by decide)]
    rw [parsed]
    rfl
  rw [getRuns, getPins_eq within marks]
  congr 2
  apply congrArg (·, _)
  apply List.map_congr_left
  intro pin member
  have set := effect pin
  rw [upTo_eq all, if_pos member] at set
  dsimp only
  rw [set, input]

/-- A block whose pins are all inputs. -/
def allInputs : Block := ⟨fun _ => 0, fun _ => 0, fun _ => false, fun _ => false⟩

/-- Two pins are made outputs and driven high. -/
theorem set_then_get_two :
    ∃ status messages after,
      main (fun _ _ => 0) ["gpio", "set", "4,6", "op", "dh"] true allInputs =
        some (status, messages, after) ∧
      status = 0 := by
  have parsed : parsePins (fun _ _ => 0) "4,6".toList = some (.ok 0x50#64) := by decide
  have options : setOptions {} ["op", "dh"] = .ok { fsparam := 1, drive := 1 } := by decide
  obtain ⟨status, messages, after, ran, succeeds, -⟩ :=
    set_then_get "gpio" "gpio" "4,6" (List.cons_ne_nil _ _) parsed options allInputs
  exact ⟨status, messages, after, ran, succeeds.mpr fun pin marked => rfl⟩

end Bcm2711.Gpio
