import Bcm2711.Lib.Tokens
import Bcm2711.Lib.Walk

/-! # The options of a host controller

`sdio_options` reads a string of suboptions into the configuration of a host controller.  Three
of them append to arrays of fixed size.
-/

namespace Bcm2711.Sdio.Options

open Tokens Walks

def EOK : Nat := 0
def EINVAL : Nat := 22

def SDIO_PRIORITY : Int := 21
def SDIO_INVALID_NUM : Int := -0xBAD1
def SDIO_CFLAG_SCAN : BitVec 32 := 0x1
def SDIO_NAME_MAX : Nat := 64

def SDIO_MAX_IRQ : Nat := 4
def SDIO_MAX_DMA : Nat := 4
def SDIO_MAX_ADDR : Nat := 6

def HC_FLAG_DEV_MMC : BitVec 32 := 1 <<< 5

def HC_CAP_SLOT_TYPE_EMBEDDED : BitVec 64 := 1 <<< 0
def HC_CAP_DMA : BitVec 64 := 1 <<< 2
def HC_CAP_BW4 : BitVec 64 := 1 <<< 4
def HC_CAP_BW8 : BitVec 64 := 1 <<< 5
def HC_CAP_BW_MSK : BitVec 64 := HC_CAP_BW4 ||| HC_CAP_BW8
def HC_CAP_ACMD12 : BitVec 64 := 1 <<< 6
def HC_CAP_ACMD23 : BitVec 64 := 1 <<< 7
def HC_CAP_HS : BitVec 64 := 1 <<< 9
def HC_CAP_SDR12 : BitVec 64 := 1 <<< 10
def HC_CAP_SDR25 : BitVec 64 := 1 <<< 11
def HC_CAP_SDR50 : BitVec 64 := 1 <<< 12
def HC_CAP_SDR104 : BitVec 64 := 1 <<< 13
def HC_CAP_DDR50 : BitVec 64 := 1 <<< 14
def HC_CAP_HS200 : BitVec 64 := 1 <<< 15
def HC_CAP_HS400 : BitVec 64 := 1 <<< 16
def HC_CAP_HS400ES : BitVec 64 := 1 <<< 34
def HC_CAP_TIMING_MSK : BitVec 64 :=
  HC_CAP_HS ||| HC_CAP_DDR50 ||| HC_CAP_SDR12 ||| HC_CAP_SDR25 ||| HC_CAP_SDR50 |||
    HC_CAP_SDR104 ||| HC_CAP_HS200 ||| HC_CAP_HS400 ||| HC_CAP_HS400ES
def HC_CAP_CD_INTR : BitVec 64 := 1 <<< 32
def HC_CAP_CD_WP : BitVec 64 := 1 <<< 35

/-! ## The configuration -/

/-- What `sdio_options` reads and writes of `sdio_hc_cfg_t`. -/
structure Cfg where
  name : List Char
  verbosity : Int
  caps : BitVec 64
  vid : Nat
  did : Nat
  idx : Int
  clk : Nat
  irqs : Nat
  irq : Fin SDIO_MAX_IRQ → Int
  dmaChnls : Nat
  dmaChnl : Fin SDIO_MAX_DMA → Int
  baseAddrs : Nat
  baseAddrSize : Fin SDIO_MAX_ADDR → Int
  baseAddr : Fin SDIO_MAX_ADDR → Nat
  idleTime : Nat
  sleepTime : Nat
  options : Option (List Char)
  hsoptions : Option (List Char)

/-- What it reads and writes of `sdio_hc_t`. -/
structure Hc where
  cfg : Cfg
  priority : Int
  flags : BitVec 32
  caps : BitVec 64
  drvType : Nat

/-- What it reads and writes of `sdio_ctrl`. -/
structure Ctrl where
  flags : BitVec 32
  verbosity : Int
  priority : Int
deriving DecidableEq, Repr

/-- What the system says. -/
structure Env where
  /-- `sched_get_priority_min` and `sched_get_priority_max` of `SCHED_RR`. -/
  priorityMin : Int
  priorityMax : Int
  strdup : List Char → Option (List Char)

/-- The arrays that suboptions append to. -/
inductive CfgArray where
  | irq
  | dmaChnl
  | baseAddr
deriving DecidableEq, Repr

def CfgArray.max : CfgArray → Nat
  | .irq => SDIO_MAX_IRQ
  | .dmaChnl => SDIO_MAX_DMA
  | .baseAddr => SDIO_MAX_ADDR

/-- The place of the next entry. -/
def Hc.count (hc : Hc) : CfgArray → Nat
  | .irq => hc.cfg.irqs
  | .dmaChnl => hc.cfg.dmaChnls
  | .baseAddr => hc.cfg.baseAddrs

/-! ## Values -/

/-- A number that is not negative and fills the string, as the type of the result has it. -/
def parseNumber (convert : Int → Int) : Option (List Char) → Int
  | none => SDIO_INVALID_NUM
  | some [] => SDIO_INVALID_NUM
  | some str =>
      let (long, cp) := strtol str
      let number := convert long
      if (number = 0 ∧ cp = str) ∨ number < 0 ∨ cp ≠ [] then SDIO_INVALID_NUM else number

/-- `sdio_parse_number64`. -/
def sdioParseNumber64 : Option (List Char) → Int := parseNumber id

/-- `sdio_parse_number`, with a `long` cast to `int`. -/
def sdioParseNumber : Option (List Char) → Int := parseNumber (Int.bmod · (2 ^ 32))

/-- `sdio_strchr`, which takes backslashes out: what stands before the separator, and behind it. -/
def sdioStrchr (separator : Char) : List Char → List Char × Option (List Char)
  | [] => ([], none)
  | '\\' :: [] => (['\\'], none)
  | '\\' :: char :: string =>
      let (entry, rest) := sdioStrchr separator string
      (char :: entry, rest)
  | char :: string =>
      if char = separator then ([], some string)
      else
        let (entry, rest) := sdioStrchr separator string
        (char :: entry, rest)

/-- `sdio_parse_tuple` for two entries. -/
def sdioParseTuple (string : List Char) (separator : Char) : List Char × Option (List Char) :=
  let (entry, rest) := sdioStrchr separator string
  (entry, rest.map fun string => (sdioStrchr separator string).1)

/-- `sdio_hc_getsubopt`, which the board and host specific options are read with. -/
def sdioHcGetsubopt {κ : Type*} (tokens : List (List Char × κ)) (options : List Char) :
    Option κ × Option (List Char) × List Char :=
  getsubopt ':' tokens options

/-- Each call takes something off a string. -/
theorem sdioHcGetsubopt_shortens {κ : Type*} (tokens : List (List Char × κ)) {options : List Char}
    (nonempty : options ≠ []) : (sdioHcGetsubopt tokens options).2.2.length < options.length := by
  rw [sdioHcGetsubopt, getsubopt_rest]
  exact length_behind_lt nonempty

/-- The capabilities of a list of names, those to set and those to clear, up to a name that is
not in the table. -/
def capsOf (table : List (List Char × BitVec 64)) :
    List (List Char) → (ocap ncap : BitVec 64) → Nat × BitVec 64 × BitVec 64
  | [], ocap, ncap => (EOK, ocap, ncap)
  | ('~' :: name) :: values, ocap, ncap =>
      match table.lookup name with
      | some cap => capsOf table values ocap (ncap ||| cap)
      | none => (EINVAL, ocap, ncap)
  | name :: values, ocap, ncap =>
      match table.lookup name with
      | some cap => capsOf table values (ocap ||| cap) ncap
      | none => (EINVAL, ocap, ncap)

/-- The values of `bw`. -/
def busWidths : List (List Char × BitVec 64) :=
  [("4".toList, HC_CAP_BW4), ("8".toList, HC_CAP_BW8)]

/-- The values of `timing`. -/
def timings : List (List Char × BitVec 64) :=
  [("hs".toList, HC_CAP_HS), ("ddr".toList, HC_CAP_DDR50 ||| HC_CAP_HS),
    ("sdr".toList,
      HC_CAP_SDR12 ||| HC_CAP_SDR25 ||| HC_CAP_SDR50 ||| HC_CAP_SDR104 ||| HC_CAP_DDR50),
    ("sdr12".toList, HC_CAP_SDR12), ("sdr25".toList, HC_CAP_SDR25), ("sdr50".toList, HC_CAP_SDR50),
    ("sdr104".toList, HC_CAP_SDR104), ("hs200".toList, HC_CAP_HS200),
    ("hs400".toList, HC_CAP_HS400), ("hs400es".toList, HC_CAP_HS400ES)]

/-! ## The suboptions -/

inductive Opt where
  | disableBusMstr
  | disableAc12
  | disableAc23
  | emmc
  | cdNowp
  | priority
  | hc
  | vid
  | did
  | idx
  | baseAddr
  | irq
  | dma
  | operationClk
  | busWidth
  | busSmart
  | pwrMgmt
  | boardSpecific
  | hostSpecific
  | drvType
  | verbose
deriving DecidableEq, Repr

/-- Whether a suboption takes a value: the ranges of the enumeration. -/
inductive Args where
  | without
  | needed
  | var
deriving DecidableEq, Repr

def Opt.args : Opt → Args
  | .disableBusMstr | .disableAc12 | .disableAc23 | .emmc | .cdNowp => .without
  | .verbose => .var
  | _ => .needed

def opts : List (List Char × Opt) :=
  [("~bmstr".toList, .disableBusMstr), ("~ac12".toList, .disableAc12),
    ("~ac23".toList, .disableAc23), ("emmc".toList, .emmc), ("nowp".toList, .cdNowp),
    ("priority".toList, .priority), ("hc".toList, .hc), ("vid".toList, .vid), ("did".toList, .did),
    ("idx".toList, .idx), ("addr".toList, .baseAddr), ("irq".toList, .irq), ("dma".toList, .dma),
    ("clk".toList, .operationClk), ("bw".toList, .busWidth), ("timing".toList, .busSmart),
    ("pm".toList, .pwrMgmt), ("bs".toList, .boardSpecific), ("hs".toList, .hostSpecific),
    ("drv_type".toList, .drvType), ("verbose".toList, .verbose)]

/-- What a suboption comes to: it stores behind the end of an array, or leaves a status. -/
inductive Stored where
  | overruns (array : CfgArray)
  | stored (status : Nat) (hc : Hc)

/-- Store a number, where it is one. -/
def withNumber (value : Option (List Char)) (hc : Hc) (store : Int → Stored) : Stored :=
  let val := sdioParseNumber value
  if val = SDIO_INVALID_NUM then .stored EINVAL hc else store val

/-- `cfg->irq[cfg->irqs++] = val`. -/
def storeIrq (hc : Hc) (val : Int) : Stored :=
  if room : hc.cfg.irqs < SDIO_MAX_IRQ then
    .stored EOK { hc with cfg := { hc.cfg with
      irqs := hc.cfg.irqs + 1
      irq := Function.update hc.cfg.irq ⟨hc.cfg.irqs, room⟩ val } }
  else .overruns .irq

/-- `cfg->dma_chnl[cfg->dma_chnls++] = val`. -/
def storeDmaChnl (hc : Hc) (val : Int) : Stored :=
  if room : hc.cfg.dmaChnls < SDIO_MAX_DMA then
    .stored EOK { hc with cfg := { hc.cfg with
      dmaChnls := hc.cfg.dmaChnls + 1
      dmaChnl := Function.update hc.cfg.dmaChnl ⟨hc.cfg.dmaChnls, room⟩ val } }
  else .overruns .dmaChnl

/-- The entry of a base address, with a size where one is given. -/
def storeBaseAddr (hc : Hc) (val64 : Int) (size : Option (List Char)) : Stored :=
  if room : hc.cfg.baseAddrs < SDIO_MAX_ADDR then
    let place : Fin SDIO_MAX_ADDR := ⟨hc.cfg.baseAddrs, room⟩
    let size64 := sdioParseNumber64 size
    .stored EOK { hc with cfg := { hc.cfg with
      baseAddrs := hc.cfg.baseAddrs + 1
      baseAddr := Function.update hc.cfg.baseAddr place val64.toNat
      baseAddrSize :=
        if size64 = SDIO_INVALID_NUM then hc.cfg.baseAddrSize
        else Function.update hc.cfg.baseAddrSize place (Int.bmod size64 (2 ^ 32)) } }
  else .overruns .baseAddr

/-- Set and clear the capabilities under a mask. -/
def storeCaps (table : List (List Char × BitVec 64)) (mask : BitVec 64) (value : List Char)
    (hc : Hc) : Stored :=
  let (status, ocap, ncap) := capsOf table (strtok ':' value) 0 0
  let set := if ocap ≠ 0 then hc.cfg.caps &&& ~~~mask ||| ocap else hc.cfg.caps
  .stored status { hc with cfg := { hc.cfg with
    caps := if ncap ≠ 0 then set &&& ~~~ncap else set } }

/-- The `switch` of `sdio_options`. -/
def sdioOption (env : Env) (hc : Hc) (value : Option (List Char)) : Opt → Stored
  | .disableBusMstr =>
      .stored EOK { hc with cfg := { hc.cfg with caps := hc.cfg.caps &&& ~~~HC_CAP_DMA } }
  | .disableAc12 =>
      .stored EOK { hc with cfg := { hc.cfg with caps := hc.cfg.caps &&& ~~~HC_CAP_ACMD12 } }
  | .disableAc23 =>
      .stored EOK { hc with cfg := { hc.cfg with caps := hc.cfg.caps &&& ~~~HC_CAP_ACMD23 } }
  | .emmc =>
      .stored EOK { hc with
        caps := hc.caps ||| HC_CAP_SLOT_TYPE_EMBEDDED
        flags := hc.flags ||| HC_FLAG_DEV_MMC
        cfg := { hc.cfg with caps := hc.cfg.caps &&& ~~~HC_CAP_CD_INTR } }
  | .cdNowp =>
      .stored EOK { hc with cfg := { hc.cfg with caps := hc.cfg.caps &&& ~~~HC_CAP_CD_WP } }
  | .priority =>
      withNumber value hc fun val =>
        if val < env.priorityMin ∨ env.priorityMax < val then .stored EINVAL hc
        else .stored EOK { hc with priority := val }
  | .hc =>
      .stored EOK { hc with cfg := { hc.cfg with
        name := (value.getD []).take (SDIO_NAME_MAX - 1) } }
  | .vid =>
      withNumber value hc fun val =>
        .stored EOK { hc with cfg := { hc.cfg with vid := val.toNat % 2 ^ 16 } }
  | .did =>
      withNumber value hc fun val =>
        .stored EOK { hc with cfg := { hc.cfg with did := val.toNat % 2 ^ 16 } }
  | .idx => withNumber value hc fun val => .stored EOK { hc with cfg := { hc.cfg with idx := val } }
  | .baseAddr =>
      let (first, second) := sdioParseTuple (value.getD []) ':'
      let val64 := sdioParseNumber64 (some first)
      if val64 = SDIO_INVALID_NUM then .stored EOK hc else storeBaseAddr hc val64 second
  | .irq => withNumber value hc (storeIrq hc)
  | .dma => withNumber value hc (storeDmaChnl hc)
  | .operationClk =>
      withNumber value hc fun val => .stored EOK { hc with cfg := { hc.cfg with clk := val.toNat } }
  | .busWidth => storeCaps busWidths HC_CAP_BW_MSK (value.getD []) hc
  | .busSmart => storeCaps timings HC_CAP_TIMING_MSK (value.getD []) hc
  | .pwrMgmt =>
      let (first, second) := sdioParseTuple (value.getD []) ':'
      let idle := sdioParseNumber (some first)
      let sleep := sdioParseNumber second
      .stored EOK { hc with cfg := { hc.cfg with
        idleTime := if idle = SDIO_INVALID_NUM then hc.cfg.idleTime else idle.toNat
        sleepTime := if sleep = SDIO_INVALID_NUM then hc.cfg.sleepTime else sleep.toNat } }
  | .boardSpecific =>
      .stored EOK { hc with cfg := { hc.cfg with options := env.strdup (value.getD []) } }
  | .hostSpecific =>
      .stored EOK { hc with cfg := { hc.cfg with hsoptions := env.strdup (value.getD []) } }
  | .drvType =>
      withNumber value hc fun val =>
        if 4 < val then .stored EINVAL hc else .stored EOK { hc with drvType := val.toNat }
  | .verbose =>
      match value with
      | some text =>
          withNumber (some text) hc fun val =>
            .stored EOK { hc with cfg := { hc.cfg with verbosity := val } }
      | none => .stored EOK { hc with cfg := { hc.cfg with verbosity := hc.cfg.verbosity + 1 } }

/-- A value that has to be there is missing, or one is there that must not be. -/
def wrongArgs (opt : Opt) (value : Option (List Char)) : Bool :=
  match opt.args with
  | .without => value.isSome
  | .needed => value = none ∨ value = some []
  | .var => false

/-- What `sdio_options` leaves: a store behind the end of an array, or a status, what it has not
read of the options, and the configuration. -/
inductive Outcome where
  | overruns (array : CfgArray)
  | returns (status : Nat) (options : List Char) (hc : Hc) (ctrl : Ctrl)

/-- Without a controller that is asked for, all are looked for. -/
def scans (hc : Hc) (ctrl : Ctrl) : Ctrl :=
  if hc.cfg.vid = 0 ∧ hc.cfg.name = [] ∧ hc.cfg.idx = -1 then
    { flags := ctrl.flags ||| SDIO_CFLAG_SCAN
      verbosity := hc.cfg.verbosity
      priority := if hc.priority ≠ SDIO_PRIORITY then hc.priority else ctrl.priority }
  else ctrl

/-- One round of `sdio_options`. -/
def sdioOptionsTurn (env : Env) (ctrl : Ctrl) (p : List Char × Hc) :
    Turn (List Char × Hc) Outcome :=
  let (options, hc) := p
  if options = [] then .ends (.returns EOK [] hc (scans hc ctrl))
  else
    match getsubopt ',' opts options with
    | (none, _, options) => .ends (.returns EINVAL options hc (scans hc ctrl))
    | (some opt, value, options) =>
        if wrongArgs opt value then .ends (.returns EINVAL options hc (scans hc ctrl))
        else
          match sdioOption env hc value opt with
          | .overruns array => .ends (.overruns array)
          | .stored status hc =>
              if status ≠ EOK then .ends (.returns status options hc (scans hc ctrl))
              else .goes (options, hc)

/-- `sdio_options` comes to an outcome. -/
def SdioOptions (env : Env) (ctrl : Ctrl) (hc : Hc) (options : List Char) (outcome : Outcome) :
    Prop :=
  Returns (sdioOptionsTurn env ctrl) (options, hc) outcome

/-! ## What the suboptions ask for -/

/-- The array that a suboption appends to. -/
def takes (opt : Opt) (value : Option (List Char)) : Option CfgArray :=
  match opt with
  | .irq => if sdioParseNumber value = SDIO_INVALID_NUM then none else some .irq
  | .dma => if sdioParseNumber value = SDIO_INVALID_NUM then none else some .dmaChnl
  | .baseAddr =>
      if sdioParseNumber64 (some (sdioParseTuple (value.getD []) ':').1) = SDIO_INVALID_NUM
      then none
      else some .baseAddr
  | _ => none

/-- The value of a suboption is one that it can have. -/
def accepts (env : Env) (opt : Opt) (value : Option (List Char)) : Bool :=
  let val := sdioParseNumber value
  match opt with
  | .priority => val ≠ SDIO_INVALID_NUM ∧ env.priorityMin ≤ val ∧ val ≤ env.priorityMax
  | .vid | .did | .idx | .irq | .dma | .operationClk => val ≠ SDIO_INVALID_NUM
  | .busWidth => (capsOf busWidths (strtok ':' (value.getD [])) 0 0).1 = EOK
  | .busSmart => (capsOf timings (strtok ':' (value.getD [])) 0 0).1 = EOK
  | .drvType => val ≠ SDIO_INVALID_NUM ∧ val ≤ 4
  | .verbose => value = none ∨ val ≠ SDIO_INVALID_NUM
  | _ => true

/-- The suboption of a piece. -/
def optOf (piece : List Char) : Option Opt :=
  let name := front '=' piece
  if name = [] then none else opts.lookup name

/-- A piece is a suboption with a value that it can have. -/
def acceptsPiece (env : Env) (piece : List Char) : Bool :=
  match optOf piece with
  | some opt => !wrongArgs opt (value piece) && accepts env opt (value piece)
  | none => false

/-- The array that a piece appends to. -/
def takesPiece (piece : List Char) : Option CfgArray :=
  (optOf piece).bind fun opt => takes opt (value piece)

/-- How many entries of an array a string asks for, before a piece that is not accepted. -/
def given (env : Env) (array : CfgArray) (options : List Char) : Nat :=
  ((pieces ',' options).takeWhile (acceptsPiece env)).countP fun piece =>
    takesPiece piece = some array

/-- The arrays have room for what a string asks for. -/
def Room (env : Env) (hc : Hc) (options : List Char) : Prop :=
  ∀ array, given env array options ≠ 0 → hc.count array + given env array options ≤ array.max

/-- Where reading stops: behind all pieces, or behind the first that is not accepted. -/
def Stops (env : Env) (options : List Char) (status : Nat) (rest : List Char) : Prop :=
  (status = EOK ∧ rest = [] ∧ ∀ piece ∈ pieces ',' options, acceptsPiece env piece = true) ∨
    (status = EINVAL ∧ ∃ before bad, pieces ',' options = before ++ bad :: pieces ',' rest ∧
      (∀ piece ∈ before, acceptsPiece env piece = true) ∧ acceptsPiece env bad = false)

/-! ## One suboption -/

section Suboption

variable {env : Env} {hc : Hc} {value : Option (List Char)} {opt : Opt}

/-- A suboption leaves the arrays, and this status. -/
def Leaves (hc : Hc) (accepted : Bool) (stored : Stored) : Prop :=
  ∃ hc', stored = .stored (if accepted then EOK else EINVAL) hc' ∧
    ∀ array, hc'.count array = hc.count array

/-- A suboption appends to an array, or stores behind its end. -/
def Appends (hc : Hc) (array : CfgArray) (stored : Stored) : Prop :=
  (array.max ≤ hc.count array ∧ stored = .overruns array) ∨
    (hc.count array < array.max ∧ ∃ hc', stored = .stored EOK hc' ∧
      ∀ other, hc'.count other = hc.count other + if array = other then 1 else 0)

theorem leaves_stored {accepted : Bool} {hc' : Hc} (isAccepted : accepted = true)
    (kept : ∀ array, hc'.count array = hc.count array) :
    Leaves hc accepted (.stored EOK hc') := by
  rw [isAccepted]
  exact ⟨hc', rfl, kept⟩

theorem leaves_refused {accepted : Bool} (refused : accepted = false) :
    Leaves hc accepted (.stored EINVAL hc) := by
  rw [refused]
  exact ⟨hc, rfl, fun _ => rfl⟩

theorem withNumber_valid {store : Int → Stored} (valid : sdioParseNumber value ≠ SDIO_INVALID_NUM) :
    withNumber value hc store = store (sdioParseNumber value) :=
  if_neg valid

theorem leaves_withNumber {accepted : Bool} {store : Int → Stored}
    (invalid : sdioParseNumber value = SDIO_INVALID_NUM → accepted = false)
    (valid : sdioParseNumber value ≠ SDIO_INVALID_NUM →
      Leaves hc accepted (store (sdioParseNumber value))) :
    Leaves hc accepted (withNumber value hc store) := by
  by_cases isInvalid : sdioParseNumber value = SDIO_INVALID_NUM
  · rw [withNumber, if_pos isInvalid]
    exact leaves_refused (invalid isInvalid)
  · rw [withNumber_valid isInvalid]
    exact valid isInvalid

theorem capsOf_status (table : List (List Char × BitVec 64)) (values : List (List Char))
    (ocap ncap : BitVec 64) :
    (capsOf table values ocap ncap).1 = EOK ∨ (capsOf table values ocap ncap).1 = EINVAL := by
  fun_induction capsOf table values ocap ncap with
  | case1 ocap ncap => exact Or.inl rfl
  | case2 ocap ncap name values cap found ih => exact ih
  | case3 ocap ncap name values missing => exact Or.inr rfl
  | case4 ocap ncap name values other cap found ih => exact ih
  | case5 ocap ncap name values other missing => exact Or.inr rfl

theorem leaves_storeCaps (table : List (List Char × BitVec 64)) (mask : BitVec 64)
    (text : List Char) :
    Leaves hc (decide ((capsOf table (strtok ':' text) 0 0).1 = EOK))
      (storeCaps table mask text hc) := by
  have stores : ∃ hc', storeCaps table mask text hc =
      .stored (capsOf table (strtok ':' text) 0 0).1 hc' ∧
      ∀ array, hc'.count array = hc.count array := by
    refine ⟨_, rfl, ?_⟩
    intro array
    cases array <;> rfl
  obtain ⟨hc', stored, kept⟩ := stores
  refine ⟨hc', ?_, kept⟩
  rw [stored]
  rcases capsOf_status table (strtok ':' text) 0 0 with fine | invalid
  · rw [fine]
    rfl
  · rw [invalid]
    rfl

/-- A store that is made where there is room, and counts one entry more. -/
theorem appends_of_room {array : CfgArray} {store : hc.count array < array.max → Hc}
    (counts : ∀ room other,
      (store room).count other = hc.count other + if array = other then 1 else 0) :
    Appends hc array (if room : hc.count array < array.max then .stored EOK (store room)
      else .overruns array) := by
  split
  case isTrue room => exact Or.inr ⟨room, _, rfl, counts room⟩
  case isFalse full => exact Or.inl ⟨Nat.not_lt.mp full, rfl⟩

theorem appends_storeIrq (val : Int) : Appends hc .irq (storeIrq hc val) := by
  apply appends_of_room
  intro room other
  cases other <;> rfl

theorem appends_storeDmaChnl (val : Int) : Appends hc .dmaChnl (storeDmaChnl hc val) := by
  apply appends_of_room
  intro room other
  cases other <;> rfl

theorem appends_storeBaseAddr (val64 : Int) (size : Option (List Char)) :
    Appends hc .baseAddr (storeBaseAddr hc val64 size) := by
  apply appends_of_room
  intro room other
  cases other <;> rfl

/-- What a suboption does: it appends to the array that it takes, or leaves the arrays. -/
theorem sdioOption_does (env : Env) (hc : Hc) (value : Option (List Char)) (opt : Opt) :
    (∃ array, takes opt value = some array ∧ accepts env opt value = true ∧
        Appends hc array (sdioOption env hc value opt)) ∨
      (takes opt value = none ∧
        Leaves hc (accepts env opt value) (sdioOption env hc value opt)) := by
  have kept : ∀ {hc' : Hc}, hc'.cfg.irqs = hc.cfg.irqs → hc'.cfg.dmaChnls = hc.cfg.dmaChnls →
      hc'.cfg.baseAddrs = hc.cfg.baseAddrs → ∀ array, hc'.count array = hc.count array := by
    intro hc' irqs dmaChnls baseAddrs array
    cases array with
    | irq => exact irqs
    | dmaChnl => exact dmaChnls
    | baseAddr => exact baseAddrs
  have refused : sdioParseNumber value = SDIO_INVALID_NUM →
      decide (sdioParseNumber value ≠ SDIO_INVALID_NUM) = false :=
    fun invalid => decide_eq_false (not_not.mpr invalid)
  cases opt with
  | disableBusMstr | disableAc12 | disableAc23 | emmc | cdNowp | hc | boardSpecific
  | hostSpecific | pwrMgmt => exact Or.inr ⟨rfl, leaves_stored rfl (kept rfl rfl rfl)⟩
  | vid | did | idx | operationClk =>
      refine Or.inr ⟨rfl, ?_⟩
      rw [sdioOption, accepts]
      apply leaves_withNumber refused
      intro valid
      exact leaves_stored (decide_eq_true valid) (kept rfl rfl rfl)
  | priority =>
      refine Or.inr ⟨rfl, ?_⟩
      rw [sdioOption, accepts]
      apply leaves_withNumber
      · intro invalid
        exact decide_eq_false fun all => all.1 invalid
      · intro valid
        split
        case isTrue outside =>
          refine leaves_refused (decide_eq_false ?_)
          rintro ⟨-, low, high⟩
          omega
        case isFalse inside =>
          refine leaves_stored (decide_eq_true ⟨valid, ?_, ?_⟩) (kept rfl rfl rfl)
          · omega
          · omega
  | baseAddr =>
      by_cases invalid : sdioParseNumber64 (some (sdioParseTuple (value.getD []) ':').1) =
          SDIO_INVALID_NUM
      · have stays : sdioOption env hc value .baseAddr = .stored EOK hc := if_pos invalid
        rw [stays]
        exact Or.inr ⟨if_pos invalid, leaves_stored rfl (kept rfl rfl rfl)⟩
      · have stores : sdioOption env hc value .baseAddr = storeBaseAddr hc _ _ := if_neg invalid
        rw [stores]
        exact Or.inl ⟨.baseAddr, if_neg invalid, rfl, appends_storeBaseAddr _ _⟩
  | irq =>
      by_cases invalid : sdioParseNumber value = SDIO_INVALID_NUM
      · refine Or.inr ⟨if_pos invalid, leaves_withNumber refused ?_⟩
        intro valid
        exact absurd invalid valid
      · refine Or.inl ⟨.irq, if_neg invalid, decide_eq_true invalid, ?_⟩
        rw [sdioOption, withNumber_valid invalid]
        exact appends_storeIrq _
  | dma =>
      by_cases invalid : sdioParseNumber value = SDIO_INVALID_NUM
      · refine Or.inr ⟨if_pos invalid, leaves_withNumber refused ?_⟩
        intro valid
        exact absurd invalid valid
      · refine Or.inl ⟨.dmaChnl, if_neg invalid, decide_eq_true invalid, ?_⟩
        rw [sdioOption, withNumber_valid invalid]
        exact appends_storeDmaChnl _
  | busWidth => exact Or.inr ⟨rfl, leaves_storeCaps _ _ _⟩
  | busSmart => exact Or.inr ⟨rfl, leaves_storeCaps _ _ _⟩
  | drvType =>
      refine Or.inr ⟨rfl, ?_⟩
      rw [sdioOption, accepts]
      apply leaves_withNumber
      · intro invalid
        exact decide_eq_false fun both => both.1 invalid
      · intro valid
        split
        case isTrue above =>
          refine leaves_refused (decide_eq_false ?_)
          rintro ⟨-, low⟩
          omega
        case isFalse low =>
          exact leaves_stored (decide_eq_true ⟨valid, Int.not_lt.mp low⟩) (kept rfl rfl rfl)
  | verbose =>
      cases value with
      | none => exact Or.inr ⟨rfl, leaves_stored rfl (kept rfl rfl rfl)⟩
      | some text =>
          refine Or.inr ⟨rfl, ?_⟩
          rw [sdioOption, accepts]
          apply leaves_withNumber
          · intro invalid
            refine decide_eq_false ?_
            rintro (missing | valid)
            · cases missing
            · exact valid invalid
          · intro valid
            exact leaves_stored (decide_eq_true (Or.inr valid)) (kept rfl rfl rfl)

end Suboption

/-! ## The whole string -/

section Run

variable {env : Env} {ctrl : Ctrl} {hc : Hc} {options : List Char}

/-- What a round does with the first piece. -/
theorem turn_cases (env : Env) (ctrl : Ctrl) (hc : Hc) (nonempty : options ≠ []) :
    let piece := front ',' options
    let rest := behind ',' options
    (acceptsPiece env piece = false ∧ ∃ hc',
        sdioOptionsTurn env ctrl (options, hc) =
          .ends (.returns EINVAL rest hc' (scans hc' ctrl))) ∨
      (acceptsPiece env piece = true ∧ ∃ array, takesPiece piece = some array ∧
        array.max ≤ hc.count array ∧
        sdioOptionsTurn env ctrl (options, hc) = .ends (.overruns array)) ∨
      (acceptsPiece env piece = true ∧ ∃ hc',
        sdioOptionsTurn env ctrl (options, hc) = .goes (rest, hc') ∧ ∀ array,
          (takesPiece piece = some array → hc.count array < array.max) ∧
          hc'.count array = hc.count array + if takesPiece piece = some array then 1 else 0) := by
  intro piece rest
  cases found : optOf piece with
  | none =>
      have subopt : getsubopt ',' opts options = (none, some piece, rest) := by
        rw [optOf] at found
        rw [getsubopt, found]
      refine Or.inl ⟨?_, hc, ?_⟩
      · rw [acceptsPiece, found]
      · rw [sdioOptionsTurn, if_neg nonempty, subopt]
  | some opt =>
      have subopt : getsubopt ',' opts options = (some opt, value piece, rest) := by
        rw [optOf] at found
        rw [getsubopt, found]
      have acceptsIt : acceptsPiece env piece =
          (!wrongArgs opt (value piece) && accepts env opt (value piece)) := by
        rw [acceptsPiece, found]
      have takesIt : takesPiece piece = takes opt (value piece) := by
        rw [takesPiece, found]
        rfl
      cases args : wrongArgs opt (value piece) with
      | true =>
          refine Or.inl ⟨?_, hc, ?_⟩
          · rw [acceptsIt, args]
            rfl
          · rw [sdioOptionsTurn, if_neg nonempty, subopt]
            exact if_pos args
      | false =>
          rw [args, Bool.not_false, Bool.true_and] at acceptsIt
          have turn : sdioOptionsTurn env ctrl (options, hc) =
              match sdioOption env hc (value piece) opt with
              | .overruns array => .ends (.overruns array)
              | .stored status hc =>
                  if status ≠ EOK then .ends (.returns status rest hc (scans hc ctrl))
                  else .goes (rest, hc) := by
            rw [sdioOptionsTurn, if_neg nonempty, subopt]
            exact if_neg (by rw [args]; decide)
          rw [acceptsIt, takesIt, turn]
          rcases sdioOption_does env hc (value piece) opt with
            ⟨array, taken, accepted, ⟨full, overruns⟩ | ⟨room, hc', stored, counts⟩⟩ |
            ⟨none, hc', stored, kept⟩
          · rw [overruns]
            exact Or.inr (Or.inl ⟨accepted, array, taken, full, rfl⟩)
          · rw [stored]
            refine Or.inr (Or.inr ⟨accepted, hc', rfl, ?_⟩)
            intro other
            rw [taken]
            refine ⟨?_, ?_⟩
            · intro same
              rw [← Option.some.inj same]
              exact room
            · rw [counts other]
              simp only [Option.some.injEq]
          · rw [stored]
            cases accepted : accepts env opt (value piece) with
            | false => exact Or.inl ⟨rfl, hc', rfl⟩
            | true =>
                refine Or.inr (Or.inr ⟨rfl, hc', rfl, ?_⟩)
                intro array
                rw [none]
                exact ⟨fun some => absurd some (by simp), kept array⟩

theorem given_of_accepted (array : CfgArray) (nonempty : options ≠ [])
    (accepted : acceptsPiece env (front ',' options) = true) :
    given env array options = given env array (behind ',' options) +
      if takesPiece (front ',' options) = some array then 1 else 0 := by
  rw [given, given, pieces_eq nonempty, List.takeWhile_cons_of_pos accepted, List.countP_cons]
  simp only [decide_eq_true_eq]

theorem given_of_refused (array : CfgArray) (nonempty : options ≠ [])
    (refused : acceptsPiece env (front ',' options) = false) : given env array options = 0 := by
  rw [given, pieces_eq nonempty, List.takeWhile_cons_of_neg (by rw [refused]; decide)]
  rfl

theorem Room.rest {hc' : Hc} (room : Room env hc options) (nonempty : options ≠ [])
    (accepted : acceptsPiece env (front ',' options) = true)
    (counts : ∀ array, hc'.count array = hc.count array +
      if takesPiece (front ',' options) = some array then 1 else 0) :
    Room env hc' (behind ',' options) := by
  intro array some
  have whole := room array
  rw [given_of_accepted array nonempty accepted] at whole
  rw [counts array]
  omega

/-- Where the arrays have room, reading returns. -/
theorem returns_of_room (room : Room env hc options) :
    ∃ status rest hc', SdioOptions env ctrl hc options
      (.returns status rest hc' (scans hc' ctrl)) ∧ Stops env options status rest := by
  induction length : options.length using Nat.strong_induction_on generalizing options hc with
  | _ size ih =>
      by_cases nonempty : options = []
      · subst nonempty
        refine ⟨EOK, [], hc, returns_of_ends rfl, Or.inl ⟨rfl, rfl, ?_⟩⟩
        exact fun piece member => absurd member List.not_mem_nil
      rcases turn_cases env ctrl hc nonempty with ⟨refused, hc', ends⟩ |
        ⟨accepted, array, taken, full, -⟩ | ⟨accepted, hc', goes, counts⟩
      · refine ⟨EINVAL, _, hc', returns_of_ends ends, Or.inr ⟨rfl, [], _, ?_, ?_, refused⟩⟩
        · rw [List.nil_append, ← pieces_eq nonempty]
        · exact fun piece member => absurd member List.not_mem_nil
      · have asked := room array
        rw [given_of_accepted array nonempty accepted, if_pos taken] at asked
        omega
      · have shorter : (behind ',' options).length < size :=
          length ▸ length_behind_lt nonempty
        have later := room.rest nonempty accepted fun array => (counts array).2
        obtain ⟨status, rest, hc'', returns, stops⟩ := ih _ shorter later rfl
        refine ⟨status, rest, hc'', returns_of_goes goes returns, ?_⟩
        rw [Stops, pieces_eq nonempty]
        rcases stops with ⟨fine, whole, all⟩ | ⟨invalid, before, bad, split, all, refused⟩
        · refine Or.inl ⟨fine, whole, ?_⟩
          exact List.forall_mem_cons.mpr ⟨accepted, all⟩
        · refine Or.inr ⟨invalid, front ',' options :: before, bad, ?_, ?_, refused⟩
          · rw [split, List.cons_append]
          · exact List.forall_mem_cons.mpr ⟨accepted, all⟩

/-- Where an array has no room, reading stores behind its end. -/
theorem overruns_of_not_room (short : ¬ Room env hc options) :
    ∃ array, SdioOptions env ctrl hc options (.overruns array) := by
  induction length : options.length using Nat.strong_induction_on generalizing options hc with
  | _ size ih =>
      by_cases nonempty : options = []
      · subst nonempty
        exact absurd (fun array some => absurd rfl some) short
      rcases turn_cases env ctrl hc nonempty with ⟨refused, -⟩ |
        ⟨accepted, array, taken, full, ends⟩ | ⟨accepted, hc', goes, counts⟩
      · refine absurd ?_ short
        intro array some
        exact absurd (given_of_refused array nonempty refused) some
      · exact ⟨array, returns_of_ends ends⟩
      · have shorter : (behind ',' options).length < size :=
          length ▸ length_behind_lt nonempty
        have later : ¬ Room env hc' (behind ',' options) := by
          intro room
          refine short ?_
          intro array some
          have asked := room array
          have count := counts array
          rw [given_of_accepted array nonempty accepted] at some ⊢
          split at count
          · next taken =>
              have below := count.1 taken
              rw [if_pos taken] at some ⊢
              omega
          · next free =>
              rw [if_neg free] at some ⊢
              omega
        obtain ⟨array, overruns⟩ := ih _ shorter later rfl
        exact ⟨array, returns_of_goes goes overruns⟩

/-- Reading stays in the arrays exactly where they have room. -/
theorem returns_iff_room :
    (∃ status rest hc' ctrl', SdioOptions env ctrl hc options (.returns status rest hc' ctrl')) ↔
      Room env hc options := by
  constructor
  · rintro ⟨status, rest, hc', ctrl', returns⟩
    by_contra short
    obtain ⟨array, overruns⟩ := @overruns_of_not_room env ctrl hc options short
    cases returns.unique overruns
  · intro room
    obtain ⟨status, rest, hc', returns, -⟩ := @returns_of_room env ctrl hc options room
    exact ⟨status, rest, hc', _, returns⟩

end Run

/-- As long as the arrays have room, `sdio_options` stores in them only, and returns: behind the
whole string, or behind the first suboption that it rejects. -/
theorem sdioOptions_stays (env : Env) (ctrl : Ctrl) (hc : Hc) (options : List Char)
    (room : Room env hc options) :
    ∃ status rest hc', Stops env options status rest ∧ ∀ outcome,
      SdioOptions env ctrl hc options outcome ↔
        outcome = .returns status rest hc' (scans hc' ctrl) := by
  obtain ⟨status, rest, hc', returns, stops⟩ := @returns_of_room env ctrl hc options room
  refine ⟨status, rest, hc', stops, ?_⟩
  intro outcome
  constructor
  · intro also
    exact also.unique returns
  · rintro rfl
    exact returns

/-- What `sdio_hc_alloc` starts with, for the controller `sdio_ctrl` of `sdio_init`. -/
def sdioHcAlloc : Hc where
  cfg := ⟨[], 0, BitVec.allOnes 64, 0, 0, -1, 0, 0, fun _ => 0, 0, fun _ => 0, 0, fun _ => 0,
    fun _ => 0, 100, 10000, none, none⟩
  priority := SDIO_PRIORITY
  flags := 0
  caps := 0
  drvType := 0

/-- A system with the priorities of a round robin scheduler. -/
def roundRobin : Env := ⟨1, 254, some⟩

theorem oneOfEach_stays :
    ∃ status rest hc', Stops roundRobin "irq=158,dma=2,addr=0xfe340000".toList status rest ∧
      ∀ outcome, SdioOptions roundRobin ⟨0, 0, 21⟩ sdioHcAlloc
        "irq=158,dma=2,addr=0xfe340000".toList outcome ↔
          outcome = .returns status rest hc' (scans hc' ⟨0, 0, 21⟩) := by
  apply sdioOptions_stays
  intro array some
  cases array with
  | irq => decide
  | dmaChnl => decide
  | baseAddr => decide

/-- Five interrupts are one too many, and what stands behind an unknown suboption is not read. -/
theorem fiveIrqs_overrun :
    (∀ status rest hc' ctrl', ¬ SdioOptions roundRobin ⟨0, 0, 21⟩ sdioHcAlloc
        "irq=1,irq=2,irq=3,irq=4,irq=5".toList (.returns status rest hc' ctrl')) ∧
      ∀ status hc' ctrl', ¬ SdioOptions roundRobin ⟨0, 0, 21⟩ sdioHcAlloc
        "slot=1,emmc".toList (.returns status [] hc' ctrl') := by
  constructor
  · intro status rest hc' ctrl' returns
    have room := returns_iff_room.mp ⟨status, rest, hc', ctrl', returns⟩
    have short : ¬ (given roundRobin .irq "irq=1,irq=2,irq=3,irq=4,irq=5".toList ≠ 0 →
        sdioHcAlloc.count .irq + given roundRobin .irq "irq=1,irq=2,irq=3,irq=4,irq=5".toList ≤
          CfgArray.max .irq) := by
      decide
    exact short (room .irq)
  · intro status hc' ctrl' returns
    have stops : SdioOptions roundRobin ⟨0, 0, 21⟩ sdioHcAlloc "slot=1,emmc".toList
        (.returns EINVAL "emmc".toList sdioHcAlloc (scans sdioHcAlloc ⟨0, 0, 21⟩)) := ⟨1, rfl⟩
    cases returns.unique stops

end Bcm2711.Sdio.Options
