import Bcm2711.Lib.Packed

/-! # The pins of the GPIO block

The registers of the block hold the functions and the pulls of the pins in packed fields; the
outputs are set and cleared by writes of ones.  The functions of the utility change one pin at a
time, and each pin is what its own fields say.
-/

namespace Bcm2711.Gpio

open Packed

/-! ## The block -/

def DRIVE_UNSET : Int := -1
def PULL_UNSET : Int := -1
def PULL_NONE : Int := 0
def PULL_DOWN : Int := 1
def PULL_UP : Int := 2
def FUNC_UNSET : Int := -1
def FUNC_IP : Int := 0
def FUNC_OP : Int := 1
def GPIO_MAX : Nat := 53
def GP_PINS_PER_REG : Nat := 32
def GPSET0 : Nat := 7
def GPSET1 : Nat := 8
def GPCLR0 : Nat := 10
def GPCLR1 : Nat := 11
def GPLEV0 : Nat := 13
def GPLEV1 : Nat := 14
def GPPUPPDN0 : Nat := 57

/-- The block: the words of the functions and of the pulls, and the outputs with what comes in. -/
structure Block where
  /-- `GPFSEL0` and those behind it. -/
  fsel : Nat → BitVec 32
  /-- `GPPUPPDN0` and those behind it. -/
  puppdn : Nat → BitVec 32
  output : Nat → Bool
  input : Nat → Bool

/-- Three bits for each function. -/
theorem fsel_fits : 3 * 10 ≤ 32 := by decide

/-- Two bits for each pull. -/
theorem pull_fits : 2 * 16 ≤ 32 := by decide

/-- The functions of the pins. -/
abbrev fselLayout : Layout 32 := ⟨3, 10, Nat.succ_pos 9, fsel_fits⟩

/-- The pulls of the pins. -/
abbrev pullLayout : Layout 32 := ⟨2, 16, Nat.succ_pos 15, pull_fits⟩

/-- The level at a pin: what an output drives, and what comes in elsewhere. -/
def Block.level (gpio : Block) (pin : Nat) : Bool :=
  if fselLayout.get gpio.fsel pin = 1 then gpio.output pin else gpio.input pin

/-- A word of the block as it is read. -/
def Block.read (gpio : Block) (reg : Nat) : BitVec 32 :=
  if reg < GPSET0 then gpio.fsel reg
  else if reg = GPLEV0 then BitVec.ofFnLE fun bit => gpio.level bit
  else if reg = GPLEV1 then BitVec.ofFnLE fun bit => gpio.level (GP_PINS_PER_REG + bit)
  else if GPPUPPDN0 ≤ reg then gpio.puppdn (reg - GPPUPPDN0)
  else 0

/-- The outputs after ones were written to the word of some of them. -/
def drive (output : Nat → Bool) (base : Nat) (value : BitVec 32) (high : Bool) (pin : Nat) : Bool :=
  if base ≤ pin ∧ pin < base + GP_PINS_PER_REG ∧ value.getLsbD (pin - base) = true then high
  else output pin

/-- A word of the block is written. -/
def Block.write (gpio : Block) (reg : Nat) (value : BitVec 32) : Block :=
  if reg < GPSET0 then { gpio with fsel := Function.update gpio.fsel reg value }
  else if reg = GPSET0 then { gpio with output := drive gpio.output 0 value true }
  else if reg = GPSET1 then { gpio with output := drive gpio.output GP_PINS_PER_REG value true }
  else if reg = GPCLR0 then { gpio with output := drive gpio.output 0 value false }
  else if reg = GPCLR1 then { gpio with output := drive gpio.output GP_PINS_PER_REG value false }
  else if GPPUPPDN0 ≤ reg then
    { gpio with puppdn := Function.update gpio.puppdn (reg - GPPUPPDN0) value }
  else gpio

/-! ## The functions of the utility -/

/-- `get_gpio_fsel`. -/
def getGpioFsel (gpio : Block) (pin : Nat) : Int :=
  let reg := pin / 10
  let sel := pin % 10
  if pin ≥ GPIO_MAX then -1 else (gpio.read reg >>> (3 * sel) &&& 0x7#32).toNat

/-- `set_gpio_fsel`. -/
def setGpioFsel (gpio : Block) (pin : Nat) (fsel : Int) : Int × Block :=
  let reg := pin / 10
  let sel := pin % 10
  if pin ≥ GPIO_MAX then (-1, gpio)
  else
    let val := gpio.read reg &&& ~~~(0x7#32 <<< (3 * sel))
    let val := val ||| (BitVec.ofInt 32 fsel &&& 0x7#32) <<< (3 * sel)
    (0, gpio.write reg val)

/-- `get_gpio_level`. -/
def getGpioLevel (gpio : Block) (pin : Nat) : Int :=
  if pin ≥ GPIO_MAX then -1
  else if pin < GP_PINS_PER_REG then (gpio.read GPLEV0 >>> pin &&& 0x1#32).toNat
  else (gpio.read GPLEV1 >>> (pin - GP_PINS_PER_REG) &&& 0x1#32).toNat

/-- `set_gpio_value`. -/
def setGpioValue (gpio : Block) (pin : Nat) (value : Int) : Int × Block :=
  if pin ≥ GPIO_MAX then (-1, gpio)
  else if value ≠ 0 then
    if pin < GP_PINS_PER_REG then (0, gpio.write GPSET0 (0x1#32 <<< pin))
    else (0, gpio.write GPSET1 (0x1#32 <<< (pin - GP_PINS_PER_REG)))
  else
    if pin < GP_PINS_PER_REG then (0, gpio.write GPCLR0 (0x1#32 <<< pin))
    else (0, gpio.write GPCLR1 (0x1#32 <<< (pin - GP_PINS_PER_REG)))

/-- `gpio_set_pull`. -/
def gpioSetPull (gpio : Block) (pin : Nat) (type : Int) : Int × Block :=
  if pin ≥ GPIO_MAX then (-1, gpio)
  else if type < PULL_NONE ∨ type > PULL_UP then (-1, gpio)
  else
    let pullreg := GPPUPPDN0 + pin / 16
    let pullshift := pin % 16 * 2
    let pull := if type = PULL_NONE then 0#32 else if type = PULL_UP then 1#32 else 2#32
    let pullbits := gpio.read pullreg &&& ~~~(3#32 <<< pullshift)
    let pullbits := pullbits ||| pull <<< pullshift
    (0, gpio.write pullreg pullbits)

/-- `get_gpio_pull`. -/
def getGpioPull (gpio : Block) (pin : Nat) : Int :=
  let pullReg := gpio.read (GPPUPPDN0 + pin / 16)
  let pullBits := pullReg >>> (pin % 16 * 2) &&& 0x3#32
  if pullBits = 0 then PULL_NONE
  else if pullBits = 1 then PULL_UP
  else if pullBits = 2 then PULL_DOWN
  else PULL_UNSET

/-- `gpio_set`. -/
def gpioSet (gpio : Block) (pin : Nat) (fsparam drive pull : Int) : Int × Block :=
  let gpio := if fsparam ≠ FUNC_UNSET then (setGpioFsel gpio pin fsparam).2 else gpio
  if drive ≠ DRIVE_UNSET ∧ getGpioFsel gpio pin ≠ 1 then (1, gpio)
  else
    let gpio := if drive ≠ DRIVE_UNSET then (setGpioValue gpio pin drive).2 else gpio
    if pull ≠ PULL_UNSET then gpioSetPull gpio pin pull else (0, gpio)

/-! ## Pins -/

/-- What the registers say of one pin. -/
structure Pin where
  fsel : BitVec 3
  pull : BitVec 2
  output : Bool
deriving DecidableEq, Repr

/-- A pin of the block. -/
def Block.pin (gpio : Block) (index : Nat) : Pin :=
  ⟨fselLayout.get gpio.fsel index, pullLayout.get gpio.puppdn index, gpio.output index⟩

/-- The field that stands for a pull. -/
def pullField (pull : Int) : BitVec 2 :=
  if pull = PULL_NONE then 0 else if pull = PULL_UP then 1 else 2

/-- What `gpio_set` asks for, at one pin: whether it can be done, and the pin then. -/
def Pin.set (pin : Pin) (fsparam drive pull : Int) : Bool × Pin :=
  let pin := if fsparam ≠ FUNC_UNSET then { pin with fsel := BitVec.ofInt 3 fsparam } else pin
  if drive ≠ DRIVE_UNSET ∧ pin.fsel ≠ 1 then (false, pin)
  else
    let pin := if drive ≠ DRIVE_UNSET then { pin with output := decide (drive ≠ 0) } else pin
    (true, if pull ≠ PULL_UNSET then { pin with pull := pullField pull } else pin)

variable {gpio : Block} {index other : Nat}

/-! ### Functions -/

theorem seven_eq : (0x7#32 : BitVec 32) = (BitVec.allOnes fselLayout.size).setWidth 32 := by decide

/-- The registers of the functions. -/
theorem fsel_reg (inside : index < GPIO_MAX) : index / 10 < GPSET0 := by
  unfold GPIO_MAX at inside
  unfold GPSET0
  omega

/-- The function of a pin is its field. -/
theorem getGpioFsel_eq (inside : index < GPIO_MAX) :
    getGpioFsel gpio index = (gpio.pin index).fsel.toNat := by
  have field := fselLayout.ushiftRight_and (gpio.fsel (index / 10)) index
  have small : (fselLayout.read (gpio.fsel (index / 10)) index).toNat < 2 ^ 32 :=
    (BitVec.isLt _).trans (by decide)
  rw [getGpioFsel, if_neg (Nat.not_le.mpr inside), Block.read, if_pos (fsel_reg inside), seven_eq]
  change ((gpio.fsel (index / 10) >>> fselLayout.shift index &&& _).toNat : Int) = _
  rw [field, BitVec.toNat_setWidth, Nat.mod_eq_of_lt small]
  rfl

/-- A number of which three bits are taken. -/
theorem ofInt_and_seven (value : Int) :
    BitVec.ofInt 32 value &&& 0x7#32 = (BitVec.ofInt 3 value).setWidth 32 := by
  have taken := Layout.and_allOnes (BitVec.ofInt 32 value) 3
  have less : (BitVec.ofInt 32 value).setWidth 3 = BitVec.ofInt 3 value := by
    apply BitVec.eq_of_toNat_eq
    rw [BitVec.toNat_setWidth, BitVec.toNat_ofInt, BitVec.toNat_ofInt]
    omega
  rw [less] at taken
  exact taken

/-- A function is written to the field of its pin. -/
theorem setGpioFsel_eq (inside : index < GPIO_MAX) (value : Int) :
    setGpioFsel gpio index value =
      (0, { gpio with fsel := fselLayout.set gpio.fsel index (BitVec.ofInt 3 value) }) := by
  have fsel := fsel_reg inside
  rw [setGpioFsel]
  simp only [if_neg (Nat.not_le.mpr inside), Block.read, Block.write, if_pos fsel, ofInt_and_seven]
  rfl

theorem setGpioFsel_pin (inside : index < GPIO_MAX) (value : Int) :
    (setGpioFsel gpio index value).2.pin =
      Function.update gpio.pin index
        { gpio.pin index with fsel := BitVec.ofInt 3 value } := by
  rw [setGpioFsel_eq inside]
  funext other
  by_cases same : other = index
  · subst same
    rw [Function.update_self]
    exact congrArg (fun field : BitVec 3 => { gpio.pin other with fsel := field })
      (fselLayout.get_set_self gpio.fsel other (BitVec.ofInt 3 value))
  · rw [Function.update_of_ne same]
    exact congrArg (fun field : BitVec 3 => { gpio.pin other with fsel := field })
      (fselLayout.get_set_of_ne gpio.fsel (BitVec.ofInt 3 value) same)

/-! ### Pulls -/

theorem three_eq : (3#32 : BitVec 32) = (BitVec.allOnes pullLayout.size).setWidth 32 := by decide

/-- The registers of the pulls. -/
theorem read_pull (gpio : Block) (index : Nat) :
    gpio.read (GPPUPPDN0 + index / 16) = gpio.puppdn (index / 16) := by
  unfold Block.read GPPUPPDN0 GPSET0 GPLEV0 GPLEV1
  rw [if_neg (by omega), if_neg (by omega), if_neg (by omega), if_pos (Nat.le_add_right ..),
    Nat.add_sub_cancel_left]

theorem write_pull (gpio : Block) (index : Nat) (value : BitVec 32) :
    gpio.write (GPPUPPDN0 + index / 16) value =
      { gpio with puppdn := Function.update gpio.puppdn (index / 16) value } := by
  unfold Block.write GPPUPPDN0 GPSET0 GPSET1 GPCLR0 GPCLR1
  rw [if_neg (by omega), if_neg (by omega), if_neg (by omega), if_neg (by omega),
    if_neg (by omega), if_pos (Nat.le_add_right ..), Nat.add_sub_cancel_left]

/-- The pull that a field stands for. -/
def pullOf (field : BitVec 2) : Int :=
  if field = 0 then PULL_NONE
  else if field = 1 then PULL_UP
  else if field = 2 then PULL_DOWN
  else PULL_UNSET

/-- The pull of a pin is what its field stands for. -/
theorem getGpioPull_eq (gpio : Block) (index : Nat) :
    getGpioPull gpio index = pullOf (gpio.pin index).pull := by
  have field := pullLayout.ushiftRight_and (gpio.puppdn (index / 16)) index
  rw [← three_eq] at field
  have shifted : gpio.puppdn (index / 16) >>> (index % 16 * 2) &&& 0x3#32 =
      (gpio.pin index).pull.setWidth 32 := by
    rw [Nat.mul_comm]
    exact field
  rw [getGpioPull, read_pull]
  simp only [shifted]
  generalize (gpio.pin index).pull = pull
  revert pull
  decide

/-- A pull that is written is read back. -/
theorem pullOf_pullField {pull : Int} (least : PULL_NONE ≤ pull) (most : pull ≤ PULL_UP) :
    pullOf (pullField pull) = pull := by
  unfold PULL_NONE at least
  unfold PULL_UP at most
  have cases : pull = 0 ∨ pull = 1 ∨ pull = 2 := by omega
  rcases cases with rfl | rfl | rfl <;> rfl

/-- A pull is written to the field of its pin. -/
theorem gpioSetPull_eq (inside : index < GPIO_MAX) {pull : Int} (least : PULL_NONE ≤ pull)
    (most : pull ≤ PULL_UP) :
    gpioSetPull gpio index pull =
      (0, { gpio with puppdn := pullLayout.set gpio.puppdn index (pullField pull) }) := by
  have range : ¬(pull < PULL_NONE ∨ pull > PULL_UP) := by omega
  have field : (if pull = PULL_NONE then 0#32 else if pull = PULL_UP then 1#32 else 2#32) =
      (pullField pull).setWidth 32 := by
    unfold pullField
    split_ifs <;> rfl
  rw [gpioSetPull]
  simp only [if_neg (Nat.not_le.mpr inside), if_neg range, read_pull, write_pull, field,
    Nat.mul_comm _ 2]
  rfl

theorem gpioSetPull_pin (inside : index < GPIO_MAX) {pull : Int} (least : PULL_NONE ≤ pull)
    (most : pull ≤ PULL_UP) :
    (gpioSetPull gpio index pull).2.pin =
      Function.update gpio.pin index { gpio.pin index with pull := pullField pull } := by
  rw [gpioSetPull_eq inside least most]
  funext other
  by_cases same : other = index
  · subst same
    rw [Function.update_self]
    exact congrArg (fun field : BitVec 2 => { gpio.pin other with pull := field })
      (pullLayout.get_set_self gpio.puppdn other (pullField pull))
  · rw [Function.update_of_ne same]
    exact congrArg (fun field : BitVec 2 => { gpio.pin other with pull := field })
      (pullLayout.get_set_of_ne gpio.puppdn (pullField pull) same)

/-! ### Outputs -/

/-- A single one drives its own output. -/
theorem drive_one (output : Nat → Bool) {base : Nat} (least : base ≤ index)
    (most : index < base + GP_PINS_PER_REG) (high : Bool) :
    drive output base (0x1#32 <<< (index - base)) high = Function.update output index high := by
  funext other
  unfold drive
  unfold GP_PINS_PER_REG at most ⊢
  have small : index - base < 32 := by omega
  rw [BitVec.getLsbD_shiftLeft, BitVec.getLsbD_one]
  by_cases same : other = index
  · subst same
    rw [Function.update_self, if_pos]
    refine ⟨least, most, ?_⟩
    simp only [small, decide_true, lt_irrefl, decide_false, Bool.not_false, Nat.sub_self,
      Bool.and_self]
    decide
  · rw [Function.update_of_ne same, if_neg]
    rintro ⟨otherLeast, otherMost, isOne⟩
    apply same
    simp only [Bool.and_eq_true, decide_eq_true_eq, Bool.not_eq_true', decide_eq_false_iff_not]
      at isOne
    omega

/-- An output is written for its own pin. -/
theorem setGpioValue_eq (inside : index < GPIO_MAX) (value : Int) :
    setGpioValue gpio index value =
      (0, { gpio with output := Function.update gpio.output index (decide (value ≠ 0)) }) := by
  have most : index < GP_PINS_PER_REG + GP_PINS_PER_REG := inside.trans (by decide)
  rw [setGpioValue, if_neg (Nat.not_le.mpr inside)]
  by_cases high : value ≠ 0
  · rw [if_pos high, decide_eq_true high]
    by_cases low : index < GP_PINS_PER_REG
    · have driven := drive_one gpio.output (Nat.zero_le index) (by rwa [Nat.zero_add]) true
      rw [if_pos low, ← driven]
      rfl
    · rw [if_neg low, ← drive_one gpio.output (Nat.le_of_not_lt low) most true]
      rfl
  · rw [if_neg high, decide_eq_false high]
    by_cases low : index < GP_PINS_PER_REG
    · have driven := drive_one gpio.output (Nat.zero_le index) (by rwa [Nat.zero_add]) false
      rw [if_pos low, ← driven]
      rfl
    · rw [if_neg low, ← drive_one gpio.output (Nat.le_of_not_lt low) most false]
      rfl

theorem setGpioValue_pin (inside : index < GPIO_MAX) (value : Int) :
    (setGpioValue gpio index value).2.pin =
      Function.update gpio.pin index { gpio.pin index with output := decide (value ≠ 0) } := by
  rw [setGpioValue_eq inside]
  funext other
  by_cases same : other = index
  · subst same
    rw [Function.update_self]
    exact congrArg (fun output => { gpio.pin other with output := output })
      (Function.update_self other (decide (value ≠ 0)) gpio.output)
  · rw [Function.update_of_ne same]
    exact congrArg (fun output => { gpio.pin other with output := output })
      (Function.update_of_ne same (decide (value ≠ 0)) gpio.output)

/-! ### One pin is set -/

/-- An output is a pin whose function is 1. -/
theorem getGpioFsel_eq_one (inside : index < GPIO_MAX) :
    getGpioFsel gpio index = 1 ↔ (gpio.pin index).fsel = 1 := by
  rw [getGpioFsel_eq inside]
  constructor
  · intro isOne
    apply BitVec.eq_of_toNat_eq
    exact_mod_cast isOne
  · intro isOne
    rw [isOne]
    rfl

/-- The function of a pin is set where one is given. -/
theorem fsparam_pin (inside : index < GPIO_MAX) (fsparam : Int) :
    (if fsparam ≠ FUNC_UNSET then (setGpioFsel gpio index fsparam).2 else gpio).pin =
      Function.update gpio.pin index (if fsparam ≠ FUNC_UNSET then
        { gpio.pin index with fsel := BitVec.ofInt 3 fsparam } else gpio.pin index) := by
  split
  · exact setGpioFsel_pin inside fsparam
  · rw [Function.update_eq_self]

/-- The output of a pin is set where a level is given. -/
theorem drive_pin (inside : index < GPIO_MAX) (level : Int) :
    (if level ≠ DRIVE_UNSET then (setGpioValue gpio index level).2 else gpio).pin =
      Function.update gpio.pin index (if level ≠ DRIVE_UNSET then
        { gpio.pin index with output := decide (level ≠ 0) } else gpio.pin index) := by
  split
  · exact setGpioValue_pin inside level
  · rw [Function.update_eq_self]

/-- The pull of a pin is set where one is given. -/
theorem pull_pin (inside : index < GPIO_MAX) {pull : Int}
    (range : pull = PULL_UNSET ∨ PULL_NONE ≤ pull ∧ pull ≤ PULL_UP) :
    (if pull ≠ PULL_UNSET then gpioSetPull gpio index pull else (0, gpio)).2.pin =
        Function.update gpio.pin index (if pull ≠ PULL_UNSET then
          { gpio.pin index with pull := pullField pull } else gpio.pin index) ∧
      (if pull ≠ PULL_UNSET then gpioSetPull gpio index pull else (0, gpio)).1 = 0 := by
  by_cases given : pull ≠ PULL_UNSET
  · obtain ⟨least, most⟩ := range.resolve_left given
    rw [if_pos given, if_pos given]
    exact ⟨gpioSetPull_pin inside least most,
      congrArg Prod.fst (gpioSetPull_eq inside least most)⟩
  · rw [if_neg given, if_neg given, Function.update_eq_self]
    exact ⟨rfl, rfl⟩

/-- `gpio_set` changes its own pin, as it is asked to, and no other. -/
theorem gpioSet_pin (inside : index < GPIO_MAX) {pull : Int} (fsparam level : Int)
    (range : pull = PULL_UNSET ∨ PULL_NONE ≤ pull ∧ pull ≤ PULL_UP) :
    (gpioSet gpio index fsparam level pull).2.pin =
        Function.update gpio.pin index ((gpio.pin index).set fsparam level pull).2 ∧
      ((gpioSet gpio index fsparam level pull).1 = 0 ↔
        ((gpio.pin index).set fsparam level pull).1 = true) := by
  have selected := @fsparam_pin gpio _ inside fsparam
  unfold gpioSet Pin.set
  dsimp only
  generalize (if fsparam ≠ FUNC_UNSET then (setGpioFsel gpio index fsparam).2 else gpio) = first
    at selected ⊢
  generalize (if fsparam ≠ FUNC_UNSET then
    { gpio.pin index with fsel := BitVec.ofInt 3 fsparam } else gpio.pin index) = chosen
    at selected ⊢
  have here : first.pin index = chosen := by
    rw [selected, Function.update_self]
  have asked : getGpioFsel first index ≠ 1 ↔ chosen.fsel ≠ 1 := by
    rw [ne_eq, getGpioFsel_eq_one inside, here]
  by_cases refused : level ≠ DRIVE_UNSET ∧ chosen.fsel ≠ 1
  · rw [if_pos ⟨refused.1, asked.mpr refused.2⟩, if_pos refused]
    exact ⟨selected, iff_of_false (show ¬((1 : Int) = 0) by decide) Bool.false_ne_true⟩
  · rw [if_neg fun both => refused ⟨both.1, asked.mp both.2⟩, if_neg refused]
    have driven := @drive_pin first _ inside level
    rw [selected, Function.update_self, Function.update_idem] at driven
    generalize (if level ≠ DRIVE_UNSET then (setGpioValue first index level).2 else first) = second
      at driven ⊢
    obtain ⟨pulled, returned⟩ := @pull_pin second _ inside _ range
    rw [driven, Function.update_self, Function.update_idem] at pulled
    exact ⟨pulled, iff_of_true returned rfl⟩

end Bcm2711.Gpio
