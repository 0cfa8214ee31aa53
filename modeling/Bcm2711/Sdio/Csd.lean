import Bcm2711.Lib.Words
import Mathlib.Tactic.Ring

/-! # The capacity that a CSD gives

`sd_parse_csd` and `mmc_parse_csd` take the fields of the register apart with
`sdio_extract_bits`, and count the card in blocks of 512 bytes.
-/

namespace Bcm2711.Sdio.Csd

open Words

def EOK : Nat := 0
def EINVAL : Nat := 22

def SDIO_DFLT_BLKSZ : Nat := 512

def CSD_STRUCT_VER_10 : Nat := 0
def CSD_STRUCT_VER_20 : Nat := 1
def CSD_STRUCT_VER_30 : Nat := 2
def CSD_STRUCT_VER_11 : Nat := 1
def CSD_STRUCT_VER_12 : Nat := 2
def CSD_STRUCT_VER_EXT_CSD : Nat := 3

def CSD_VER_20_CSIZE_MAX : Nat := 0x3fffff

def DEV_CAP_HC : Nat := 2 ^ 0
def DEV_CAP_UC : Nat := 2 ^ 20

/-! ## The fields of a register -/

/-- `sdio_extract_bits`. -/
def sdioExtractBits (data : List Nat) (bits start size : Nat) : Nat :=
  let idx := bits / 32 - start / 32 - 1
  let shift := start &&& 31
  let value := data.getD idx 0 >>> shift
  let value :=
    if 32 < size + shift then value ||| (data.getD (idx - 1) 0 <<< (32 - shift)) % 2 ^ 32
    else value
  value &&& (2 ^ size - 1)

/-- A field that lies in the register is read from it. -/
theorem sdioExtractBits_eq {data : List Nat} (fits : Fits 32 data) {bits start size : Nat}
    (whole : bits = 32 * data.length) (short : size ≤ 32) (inside : start + size ≤ bits)
    (starts : start < bits) :
    sdioExtractBits data bits start size = field (number 32 data) start size := by
  have shift : start &&& 31 = start % 32 := Nat.and_two_pow_sub_one_eq_mod start 5
  have mask (value : Nat) : value &&& (2 ^ size - 1) = value % 2 ^ size :=
    Nat.and_two_pow_sub_one_eq_mod value size
  have read : sdioExtractBits data bits start size =
      window 32 data (bits / 32 - start / 32 - 1) (start % 32) size := by
    rw [sdioExtractBits, shift, mask]
    rfl
  have position : 32 * (data.length - 1 - (bits / 32 - start / 32 - 1)) + start % 32 = start := by
    omega
  rw [read, window_eq_field fits (by omega) (by omega) short (by omega), position]

/-- The response of 128 bits that holds a CSD. -/
structure Response where
  words : List Nat
  length_eq : words.length = 4
  fits : Fits 32 words

namespace Response

variable (rsp : Response)

/-- The register. -/
def value : Nat := number 32 rsp.words

/-- A call of `sdio_extract_bits` for a field of the register. -/
def extract (start size : Nat) : Nat := sdioExtractBits rsp.words 128 start size

theorem extract_eq (start size : Nat) (short : size ≤ 32) (inside : start + size ≤ 128)
    (starts : start < 128) : rsp.extract start size = field rsp.value start size := by
  have whole : 128 = 32 * rsp.words.length := by rw [rsp.length_eq]
  exact sdioExtractBits_eq rsp.fits whole short inside starts

end Response

/-! ## The two parsers -/

/-- `sdio_csd_t`, cleared. -/
structure SdioCsd where
  csdStructure : Nat := 0
  specVers : Nat := 0
  taac : Nat := 0
  nsac : Nat := 0
  tranSpeed : Nat := 0
  ccc : Nat := 0
  readBlLen : Nat := 0
  readBlPartial : Nat := 0
  writeBlkMisalign : Nat := 0
  readBlkMisalign : Nat := 0
  dsrImp : Nat := 0
  cSize : Nat := 0
  vddRCurrMin : Nat := 0
  vddRCurrMax : Nat := 0
  vddWCurrMin : Nat := 0
  vddWCurrMax : Nat := 0
  cSizeMult : Nat := 0
  eraseBlkEn : Nat := 0
  eraseGrpSize : Nat := 0
  eraseGrpMult : Nat := 0
  sectorSize : Nat := 0
  wpGrpSize : Nat := 0
  wpGrpEnable : Nat := 0
  r2wFactor : Nat := 0
  writeBlLen : Nat := 0
  writeBlPartial : Nat := 0
  writeProtect : Nat := 0
  dtrMax : Nat := 0
  blksz : Nat := 0
  sectors : Nat := 0
deriving DecidableEq, Repr

/-- `sd_tran_speed_fu` and `mmc_tran_speed_fu`. -/
def tranSpeedFu : List Nat := [10000, 100000, 1000000, 10000000, 0, 0, 0, 0]

/-- `sd_tran_speed_mf` and `mmc_tran_speed_mf`. -/
def tranSpeedMf : List Nat := [0, 10, 12, 13, 15, 20, 25, 30, 35, 40, 45, 50, 55, 60, 70, 80]

/-- `dtr_max`. -/
def dtrMaxOf (tranSpeed : Nat) : Nat :=
  tranSpeedFu.getD (tranSpeed &&& 0x7) 0 * tranSpeedMf.getD (tranSpeed >>> 3 &&& 0xf) 0 % 2 ^ 32

/-- Blocks that are larger than 512 bytes are counted as blocks of 512 bytes. -/
def toDfltBlksz (blksz csize : Nat) : Nat × Nat :=
  if SDIO_DFLT_BLKSZ < blksz ∧ blksz % SDIO_DFLT_BLKSZ = 0 then
    (SDIO_DFLT_BLKSZ, csize * (blksz / SDIO_DFLT_BLKSZ) % 2 ^ 32)
  else (blksz, csize)

/-- The fields that the two parsers read first, from the same bits. -/
def commonFields (rsp : Response) : SdioCsd where
  csdStructure := rsp.extract 126 2
  taac := rsp.extract 112 8
  nsac := rsp.extract 104 8
  tranSpeed := rsp.extract 96 8
  ccc := rsp.extract 84 12
  readBlLen := rsp.extract 80 4
  readBlPartial := rsp.extract 79 1
  writeBlkMisalign := rsp.extract 78 1
  readBlkMisalign := rsp.extract 77 1
  dsrImp := rsp.extract 76 1

/-- The fields of the standard layout. -/
def standardFields (rsp : Response) (csd : SdioCsd) : SdioCsd :=
  { csd with
    cSize := rsp.extract 62 12
    vddRCurrMin := rsp.extract 59 3
    vddRCurrMax := rsp.extract 56 3
    vddWCurrMin := rsp.extract 53 3
    vddWCurrMax := rsp.extract 50 3
    cSizeMult := rsp.extract 47 3 }

/-- The capacity, as both parsers store it at their end. -/
def storeCapacity (csd : SdioCsd) (blksz csize csizem : Nat) : SdioCsd :=
  let (blksz, csize) := toDfltBlksz blksz csize
  { csd with
    blksz := blksz
    sectors := csize * csizem % 2 ^ 32
    dtrMax := dtrMaxOf csd.tranSpeed }

/-- What a parser returns: its status, the CSD, and `dev->caps`. -/
structure Parsed where
  status : Nat
  csd : SdioCsd
  caps : Nat
deriving DecidableEq, Repr

/-- `sd_parse_csd` behind its switch. -/
def sdParseRest (rsp : Response) (caps : Nat) (csd : SdioCsd) (blksz csize csizem : Nat) : Parsed :=
  let csd := { csd with
    eraseBlkEn := rsp.extract 46 1
    sectorSize := rsp.extract 39 7
    wpGrpSize := rsp.extract 32 7
    wpGrpEnable := rsp.extract 31 1
    r2wFactor := rsp.extract 26 3
    writeBlLen := rsp.extract 22 4
    writeBlPartial := rsp.extract 21 1
    writeProtect := rsp.extract 12 2 }
  ⟨EOK, storeCapacity csd blksz csize csizem, caps⟩

/-- `sd_parse_csd`. -/
def sdParseCsd (caps : Nat) (rsp : Response) : Parsed :=
  let csd := commonFields rsp
  if csd.csdStructure = CSD_STRUCT_VER_10 then
    let csd := standardFields rsp csd
    sdParseRest rsp caps csd (2 ^ csd.readBlLen) (csd.cSize + 1) (2 ^ (csd.cSizeMult + 2))
  else if csd.csdStructure = CSD_STRUCT_VER_20 then
    let csd := { csd with cSize := rsp.extract 48 22 }
    sdParseRest rsp (caps ||| DEV_CAP_HC) csd SDIO_DFLT_BLKSZ (csd.cSize + 1) 1024
  else if csd.csdStructure = CSD_STRUCT_VER_30 then
    let cSize := rsp.extract 48 28
    -- Without `SDIO_UC_SUPPORT` the size is limited to 22 bits.
    let csd := { csd with
      cSize := if CSD_VER_20_CSIZE_MAX < cSize then CSD_VER_20_CSIZE_MAX else cSize }
    sdParseRest rsp (caps ||| (DEV_CAP_HC ||| DEV_CAP_UC)) csd SDIO_DFLT_BLKSZ (csd.cSize + 1) 1024
  else ⟨EINVAL, csd, caps⟩

/-- `mmc_parse_csd`. -/
def mmcParseCsd (caps : Nat) (rsp : Response) : Parsed :=
  let csd := standardFields rsp { commonFields rsp with specVers := rsp.extract 122 4 }
  let csd :=
    if csd.csdStructure = CSD_STRUCT_VER_10 ∨ csd.csdStructure = CSD_STRUCT_VER_11 then
      { csd with
        eraseGrpMult := 1
        sectorSize := rsp.extract 42 5
        eraseGrpSize := rsp.extract 37 5 }
    else if csd.csdStructure = CSD_STRUCT_VER_12 ∨
        csd.csdStructure = CSD_STRUCT_VER_EXT_CSD then
      { csd with
        eraseGrpMult := rsp.extract 37 5
        eraseGrpSize := rsp.extract 42 5 }
    else csd
  let csd := { csd with
    wpGrpSize := rsp.extract 32 5
    wpGrpEnable := rsp.extract 31 1
    r2wFactor := rsp.extract 26 3
    writeBlLen := rsp.extract 22 4
    writeBlPartial := rsp.extract 21 1
    writeProtect := rsp.extract 12 2 }
  ⟨EOK, storeCapacity csd (2 ^ csd.readBlLen) (csd.cSize + 1) (2 ^ (csd.cSizeMult + 2)), caps⟩

/-- The kinds of cards, each with its parser. -/
inductive CardType where
  | sd
  | mmc
deriving DecidableEq, Repr

/-- The parser of a kind of cards. -/
def parseCsd : CardType → Nat → Response → Parsed
  | .sd => sdParseCsd
  | .mmc => mmcParseCsd

/-! ## What the versions of the register say -/

/-- `C_SIZE`, `C_SIZE_MULT` and `READ_BL_LEN` of the standard layout. -/
def standardCapacity (csd : Nat) : Nat :=
  (field csd 62 12 + 1) * 2 ^ (field csd 47 3 + 2) * 2 ^ field csd 80 4

/-- `C_SIZE` counts units of 512 KB. -/
def highCapacity (cSize : Nat) : Nat := (cSize + 1) * (512 * 1024)

/-- `C_SIZE` of an SD card of high capacity, or of ultra capacity with the limit of 22 bits. -/
def highCSize (csd : Nat) : Nat :=
  if field csd 126 2 = CSD_STRUCT_VER_20 then field csd 48 22
  else min (field csd 48 28) CSD_VER_20_CSIZE_MAX

/-- The number of bytes of a card. -/
def capacity : CardType → Nat → Nat
  | .mmc, csd => standardCapacity csd
  | .sd, csd =>
      if field csd 126 2 = CSD_STRUCT_VER_10 then standardCapacity csd
      else highCapacity (highCSize csd)

/-- The card has the capacity that its register gives, and is not empty. -/
def SdioCsd.Exact (csd : SdioCsd) (bytes : Nat) : Prop :=
  csd.blksz * csd.sectors = bytes ∧ csd.sectors ≠ 0

section Capacity

variable {csd : SdioCsd} {blksz csize csizem : Nat}

theorem storeCapacity_blksz :
    (storeCapacity csd blksz csize csizem).blksz = (toDfltBlksz blksz csize).1 := rfl

theorem storeCapacity_sectors : (storeCapacity csd blksz csize csizem).sectors =
    (toDfltBlksz blksz csize).2 * csizem % 2 ^ 32 := rfl

/-- With the sizes of the standard layout no product is larger than a word. -/
theorem storeCapacity_standard {readBlLen cSize cSizeMult : Nat} (short : readBlLen < 16)
    (size : cSize < 2 ^ 12) (mult : cSizeMult < 8) :
    (storeCapacity csd (2 ^ readBlLen) (cSize + 1) (2 ^ (cSizeMult + 2))).Exact
      ((cSize + 1) * 2 ^ (cSizeMult + 2) * 2 ^ readBlLen) := by
  have units : 2 ^ (cSizeMult + 2) ≤ 2 ^ 9 := Nat.pow_le_pow_right (by decide) (by omega)
  have unitsPos : 0 < 2 ^ (cSizeMult + 2) := Nat.two_pow_pos _
  have blocks : (cSize + 1) * 2 ^ (cSizeMult + 2) ≤ 2 ^ 12 * 2 ^ 9 := Nat.mul_le_mul size units
  rw [SdioCsd.Exact, storeCapacity_blksz, storeCapacity_sectors, toDfltBlksz]
  by_cases large : 9 < readBlLen
  · obtain ⟨more, rfl⟩ := Nat.exists_eq_add_of_lt large
    have length : 2 ^ (9 + more + 1) = SDIO_DFLT_BLKSZ * 2 ^ (more + 1) := by
      rw [Nat.add_assoc, Nat.pow_add]
      rfl
    have scale : 2 ^ (more + 1) ≤ 2 ^ 6 := Nat.pow_le_pow_right (by decide) (by omega)
    have scalePos : 2 ≤ 2 ^ (more + 1) := Nat.le_self_pow (Nat.succ_ne_zero more) 2
    have counted : (cSize + 1) * 2 ^ (more + 1) ≤ 2 ^ 12 * 2 ^ 6 := Nat.mul_le_mul size scale
    have total : (cSize + 1) * 2 ^ (more + 1) * 2 ^ (cSizeMult + 2) ≤ 2 ^ 12 * 2 ^ 6 * 2 ^ 9 :=
      Nat.mul_le_mul counted units
    have positive : 0 < (cSize + 1) * 2 ^ (more + 1) * 2 ^ (cSizeMult + 2) :=
      Nat.mul_pos (Nat.mul_pos (Nat.succ_pos cSize) (Nat.two_pow_pos _)) unitsPos
    have wide : SDIO_DFLT_BLKSZ < 2 ^ (9 + more + 1) ∧
        2 ^ (9 + more + 1) % SDIO_DFLT_BLKSZ = 0 := by
      rw [length]
      exact ⟨by rw [SDIO_DFLT_BLKSZ]; omega, Nat.mul_mod_right _ _⟩
    rw [if_pos wide, length, Nat.mul_div_cancel_left _ (by decide)]
    dsimp only
    rw [Nat.mod_eq_of_lt (counted.trans_lt (by decide)),
      Nat.mod_eq_of_lt (total.trans_lt (by decide))]
    exact ⟨by ring, positive.ne'⟩
  · have narrow : 2 ^ readBlLen ≤ SDIO_DFLT_BLKSZ :=
      Nat.pow_le_pow_right (by decide) (Nat.le_of_not_lt large)
    rw [if_neg fun wide => absurd wide.1 (Nat.not_lt.mpr narrow)]
    dsimp only
    rw [Nat.mod_eq_of_lt (blocks.trans_lt (by decide))]
    exact ⟨Nat.mul_comm _ _, (Nat.mul_pos (Nat.succ_pos cSize) unitsPos).ne'⟩

/-- With a size of 22 bits the number of blocks is a word if and only if the size is not the
largest one. -/
theorem storeCapacity_high {cSize : Nat} (size : cSize ≤ CSD_VER_20_CSIZE_MAX) :
    (storeCapacity csd SDIO_DFLT_BLKSZ (cSize + 1) 1024).Exact (highCapacity cSize) ↔
      cSize ≠ CSD_VER_20_CSIZE_MAX := by
  have same : toDfltBlksz SDIO_DFLT_BLKSZ (cSize + 1) = (SDIO_DFLT_BLKSZ, cSize + 1) :=
    if_neg fun wide => Nat.lt_irrefl _ wide.1
  rw [SdioCsd.Exact, storeCapacity_blksz, storeCapacity_sectors, same, highCapacity]
  rw [CSD_VER_20_CSIZE_MAX] at size ⊢
  rw [SDIO_DFLT_BLKSZ]
  constructor
  · rintro ⟨-, filled⟩ rfl
    exact filled rfl
  · intro smaller
    constructor <;> omega

end Capacity

/-! ## The capacity is exact -/

section Parsers

variable {caps : Nat} {rsp : Response}

/-- The standard layout gives the capacity exactly. -/
theorem extract_standard (csd : SdioCsd) :
    (storeCapacity csd (2 ^ rsp.extract 80 4) (rsp.extract 62 12 + 1)
      (2 ^ (rsp.extract 47 3 + 2))).Exact (standardCapacity rsp.value) := by
  have blLen := rsp.extract_eq 80 4 (by decide) (by decide) (by decide)
  have cSize := rsp.extract_eq 62 12 (by decide) (by decide) (by decide)
  have mult := rsp.extract_eq 47 3 (by decide) (by decide) (by decide)
  rw [blLen, cSize, mult]
  exact storeCapacity_standard (field_lt _ _ _) (field_lt _ _ _) (field_lt _ _ _)

theorem mmcParseCsd_exact : (mmcParseCsd caps rsp).csd.Exact (capacity .mmc rsp.value) := by
  unfold mmcParseCsd
  dsimp only
  split
  · exact extract_standard _
  · split <;> exact extract_standard _

/-- An SD card of the standard layout, or of a size that is not the largest one. -/
def SmallerThanMax (csd : Nat) : Prop :=
  field csd 126 2 = CSD_STRUCT_VER_10 ∨ highCSize csd ≠ CSD_VER_20_CSIZE_MAX

theorem sdParseCsd_exact (accepted : (sdParseCsd caps rsp).status = EOK) :
    (sdParseCsd caps rsp).csd.Exact (capacity .sd rsp.value) ↔ SmallerThanMax rsp.value := by
  have version : (commonFields rsp).csdStructure = field rsp.value 126 2 :=
    rsp.extract_eq 126 2 (by decide) (by decide) (by decide)
  have size20 := rsp.extract_eq 48 22 (by decide) (by decide) (by decide)
  have size30 := rsp.extract_eq 48 28 (by decide) (by decide) (by decide)
  unfold sdParseCsd at accepted ⊢
  dsimp only at accepted ⊢
  rw [version] at accepted ⊢
  unfold SmallerThanMax capacity
  dsimp only
  by_cases standard : field rsp.value 126 2 = CSD_STRUCT_VER_10
  · rw [if_pos standard, if_pos standard]
    exact iff_of_true (extract_standard _) (Or.inl standard)
  rw [if_neg standard, if_neg standard, or_iff_right standard]
  rw [if_neg standard] at accepted
  by_cases high : field rsp.value 126 2 = CSD_STRUCT_VER_20
  · have bound : rsp.extract 48 22 ≤ CSD_VER_20_CSIZE_MAX := by
      rw [size20]
      exact Nat.le_of_lt_succ (field_lt _ _ _)
    have same : highCSize rsp.value = rsp.extract 48 22 := by
      rw [size20]
      exact if_pos high
    rw [if_pos high, same]
    exact storeCapacity_high bound
  rw [if_neg high] at accepted ⊢
  by_cases ultra : field rsp.value 126 2 = CSD_STRUCT_VER_30
  · have limited : highCSize rsp.value =
        if CSD_VER_20_CSIZE_MAX < rsp.extract 48 28 then CSD_VER_20_CSIZE_MAX
        else rsp.extract 48 28 := by
      rw [size30, highCSize, if_neg high]
      split
      case isTrue larger => exact Nat.min_eq_right larger.le
      case isFalse smaller => exact Nat.min_eq_left (Nat.le_of_not_lt smaller)
    have bound : highCSize rsp.value ≤ CSD_VER_20_CSIZE_MAX := by
      rw [highCSize, if_neg high]
      exact Nat.min_le_right _ _
    rw [if_pos ultra, ← limited]
    exact storeCapacity_high bound
  · rw [if_neg ultra] at accepted
    cases accepted

/-- The capacity of every card that is accepted is exact, but for the SD cards of the largest
size of 22 bits, which have 2^32 blocks. -/
theorem capacity_iff (type : CardType) (accepted : (parseCsd type caps rsp).status = EOK) :
    (parseCsd type caps rsp).csd.Exact (capacity type rsp.value) ↔
      type = .mmc ∨ SmallerThanMax rsp.value := by
  cases type with
  | sd => exact (sdParseCsd_exact accepted).trans (by simp)
  | mmc => exact iff_of_true mmcParseCsd_exact (Or.inl rfl)

/-- An SD card of high capacity with the size 0x3ffffe. -/
def Response.nearlyFull : Response :=
  ⟨[0x40000000, 0x3f, 0xfffe0000, 0], rfl, by unfold Fits; decide⟩

theorem nearlyFull_exact :
    (sdParseCsd 0 Response.nearlyFull).csd.Exact (capacity .sd Response.nearlyFull.value) := by
  apply (capacity_iff .sd (by decide)).mpr
  right
  right
  decide

/-- An SD card of high capacity with the size 0x3fffff. -/
def Response.full : Response := ⟨[0x40000000, 0x3f, 0xffff0000, 0], rfl, by unfold Fits; decide⟩

/-- The card of 2 TB is one of no blocks. -/
theorem full_empty : (sdParseCsd 0 Response.full).status = EOK ∧
    (sdParseCsd 0 Response.full).csd.sectors = 0 ∧
    capacity .sd Response.full.value = 2 ^ 41 ∧
    ¬ (sdParseCsd 0 Response.full).csd.Exact (capacity .sd Response.full.value) := by
  have empty : (sdParseCsd 0 Response.full).csd.sectors = 0 := by decide
  exact ⟨by decide, empty, by decide, fun exact => exact.2 empty⟩

end Parsers

end Bcm2711.Sdio.Csd
