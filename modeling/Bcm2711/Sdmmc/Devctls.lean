import Bcm2711.Lib.Walk
import Bcm2711.Sdmmc.Device

/-! # What the devctl handlers access

Four handlers follow lengths through the data of a request: two walk along a chain of commands,
one copies a register of the card behind its header, and one copies what the card answers.  The
accesses to the data are collected, with their places from its start.
-/

namespace Bcm2711.Sdmmc.Devctls

open Walks

def SDIO_DFLT_BLKSZ : Nat := 512

def SDMMC_CR_ACTION_READ : Nat := 0
def SDMMC_CR_ACTION_WRITE : Nat := 1
def SDMMC_REG_TYPE_CID : Nat := 0
def SDMMC_REG_TYPE_CSD : Nat := 1
def SDMMC_REG_TYPE_EXT_CSD : Nat := 2
def SDMMC_REG_TYPE_SCR : Nat := 3
def SDMMC_REG_TYPE_SDS : Nat := 4

def DEV_TYPE_MMC : Nat := 1
def DEV_TYPE_SD : Nat := 2

def MMC_CID_SIZE : Nat := 16
def MMC_CSD_SIZE : Nat := 16
def SD_SCR_SIZE : Nat := 8
def ECSD_REV : Nat := 192

def MMC_MAN_CMD1 : Nat := 60
def MMC_MAN_CMD4 : Nat := 63

def ASSD_APDU_STL_SIZE : Nat := 2
def ASSD_APDU_MIN_DLEN : Nat := 4
def ASSD_APDU_MAX_DLEN : Nat := 512

/-! ## The data of a request -/

/-- The bytes from the start of the data on, also those behind its end. -/
abbrev Memory := Nat → BitVec 8

def read16 (mem : Memory) (place : Nat) : Nat :=
  (mem place).toNat + 2 ^ 8 * (mem (place + 1)).toNat

def read32 (mem : Memory) (place : Nat) : Nat :=
  read16 mem place + 2 ^ 16 * read16 mem (place + 2)

/-- `cam_devctl_data` and `cam_devctl_size`; nothing is larger than half of the address space. -/
structure Buffer where
  size : Nat
  mem : Memory
  size_lt : size < 2 ^ 63

/-- Bytes that are read or written. -/
structure Access where
  place : Nat
  length : Nat
deriving DecidableEq, Repr

/-- The bytes lie in the data. -/
def Access.Inside (size : Nat) (access : Access) : Prop :=
  access.length = 0 ∨ access.place + access.length ≤ size

/-- `cam_devctl_status` and the accesses of a handler that has returned. -/
structure Done where
  status : Nat
  accesses : List Access
deriving DecidableEq, Repr

/-! ## The chains of commands -/

/-- What the calls of `mmc_gen_man_cmd` come to, and the block that the card sends. -/
structure GenReply where
  sync : Nat
  hasCmd : Bool
  setLength : Nat
  hasBuf : Bool
  send : Nat
  restore : Nat
  data : Memory

/-- What a walk reads of a command. -/
structure Command where
  accepted : Bool
  /-- How much of the header is read. -/
  headerRead : Nat
  /-- `SCF_CTYPE_ADTC` and `SCF_DIR_IN`. -/
  adtc : Bool
  dirIn : Bool
  blklen : Nat
  next : Bool
deriving DecidableEq, Repr

/-- `mmc_gen_man_cmd` for one block: its status, the accesses to the block, and the memory. -/
def mmcGenManCmd (buf : Nat) (cmd : Command) (reply : GenReply) (mem : Memory) :
    Nat × List Access × Memory :=
  if !reply.hasCmd then (ENOMEM, [], mem)
  else if cmd.adtc then
    if cmd.blklen ≠ SDIO_DFLT_BLKSZ ∧ reply.setLength ≠ EOK then (reply.setLength, [], mem)
    else if !reply.hasBuf then (ENOMEM, [], mem)
    else
      let status := if cmd.blklen ≠ SDIO_DFLT_BLKSZ then reply.restore else reply.send
      if !cmd.dirIn then (status, [⟨buf, cmd.blklen⟩], mem)
      else if reply.send = EOK then
        (status, [⟨buf, cmd.blklen⟩], fun place =>
          if buf ≤ place ∧ place < buf + cmd.blklen then reply.data (place - buf) else mem place)
      else (status, [], mem)
  else (reply.send, [], mem)

/-- `sdio_mmc_gen_man`. -/
def sdioMmcGenMan (buf : Nat) (cmd : Command) (reply : GenReply) (mem : Memory) :
    Nat × List Access × Memory :=
  if reply.sync ≠ EOK then (reply.sync, [], mem) else mmcGenManCmd buf cmd reply mem

/-- A walk before a command. -/
structure Point where
  req : Nat
  turn : Nat
  mem : Memory
  accesses : List Access

/-- One round of a walk along commands with headers of one size. -/
def cmdTurn (sizeof : Nat) (command : Memory → Nat → Command) (replies : Nat → GenReply)
    (p : Point) : Turn Point Done :=
  let cmd := command p.mem p.req
  let header : Access := ⟨p.req, cmd.headerRead⟩
  if !cmd.accepted then .ends ⟨ENOTSUP, p.accesses ++ [header]⟩
  else
    let buf := p.req + sizeof
    let (status, blocks, mem) := sdioMmcGenMan buf cmd (replies p.turn) p.mem
    let accesses := p.accesses ++ header :: blocks
    if status ≠ EOK then .ends ⟨status, accesses⟩
    else if !cmd.next then .ends ⟨EOK, accesses⟩
    else .goes ⟨buf + cmd.blklen, p.turn + 1, mem, accesses⟩

/-- `SDMMC_GEN_CMD`. -/
def genCommand (mem : Memory) (req : Nat) : Command where
  accepted := true
  headerRead := 8
  adtc := true
  dirIn := (read16 mem (req + 4)).testBit 0
  blklen := read16 mem (req + 6)
  next := (read16 mem (req + 4)).testBit 15

/-- `SDMMC_MAN_CMD`, of which only the flags are read where the command is none of the four. -/
def manCommand (mem : Memory) (req : Nat) : Command :=
  let flags := read32 mem req
  let op := flags % 2 ^ 8
  let accepted := decide (MMC_MAN_CMD1 ≤ op ∧ op ≤ MMC_MAN_CMD4)
  { accepted := accepted
    headerRead := if accepted then 10 else 4
    adtc := flags.testBit 16
    dirIn := !flags.testBit 17
    blklen := read16 mem (req + 8)
    next := flags.testBit 31 }

/-! ## The handlers -/

/-- What the handlers meet. -/
structure Env where
  /-- `sdmmc_unit_ready`. -/
  ready : Bool
  replies : Nat → GenReply
  dtype : Nat
  /-- `sdio_send_ext_csd`, `sdio_app_read_status` and `sdio_mmc_switch`. -/
  sendExtCsd : Nat
  readStatus : Nat
  switch : Nat
  /-- `assd_state`, and the calls of `sdmmc_assd_apdu_devctl` from `sdio_alloc` on. -/
  assdState : Nat
  hasData : Bool
  writeSecCmd : Nat
  waitCardStatus : Nat
  waitScc : Nat
  readSecCmd : Nat
  /-- The first two bytes that the card answers. -/
  high : BitVec 8
  low : BitVec 8

/-- The start of a walk. -/
def Buffer.start (buffer : Buffer) : Point := ⟨0, 0, buffer.mem, []⟩

/-- `sdmmc_gencmd_devctl`, for so many rounds at the most. -/
def sdmmcGencmdDevctl (buffer : Buffer) (env : Env) (rounds : Nat) : Option Done :=
  if !env.ready then some ⟨ EIO, []⟩
  else walk (cmdTurn 8 genCommand env.replies) rounds buffer.start

/-- `sdmmc_mancmd_devctl`, for so many rounds at the most. -/
def sdmmcMancmdDevctl (buffer : Buffer) (env : Env) (rounds : Nat) : Option Done :=
  if !env.ready then some ⟨ EIO, []⟩
  else walk (cmdTurn 12 manCommand env.replies) rounds buffer.start

/-- `len` of `sdmmc_card_register_devctl`, an `int`. -/
def crLen (size : Nat) : Int := ((size : Int) - 24).bmod (2 ^ 32)

/-- `min( len, limit )` of two `int`, as the `size_t` that `memcpy` takes. -/
def minInt (len : Int) (limit : Nat) : Nat :=
  if len < limit then (len % 2 ^ 64).toNat else limit

/-- `min( len, sizeof(..) )`, which compares two `size_t`. -/
def minSize (len : Int) (limit : Nat) : Nat :=
  if (len % 2 ^ 64).toNat < limit then (len % 2 ^ 64).toNat else limit

/-- The copy of a register behind the header. -/
def crRead (type size : Nat) (env : Env) : Done :=
  let len := crLen size
  let dptr := 24
  if type = SDMMC_REG_TYPE_CID then ⟨EOK, [⟨dptr, minInt len MMC_CID_SIZE⟩]⟩
  else if type = SDMMC_REG_TYPE_CSD then ⟨EOK, [⟨dptr, minInt len MMC_CSD_SIZE⟩]⟩
  else if type = SDMMC_REG_TYPE_EXT_CSD then
    if env.dtype ≠ DEV_TYPE_MMC then ⟨ENOTSUP, []⟩
    else if env.sendExtCsd = EOK then ⟨EOK, [⟨dptr, minSize len 512⟩]⟩
    else if env.sendExtCsd = ETIMEDOUT then ⟨ETIMEDOUT, []⟩
    else ⟨ EIO, []⟩
  else if type = SDMMC_REG_TYPE_SCR then
    if env.dtype ≠ DEV_TYPE_SD then ⟨ENOTSUP, []⟩ else ⟨EOK, [⟨dptr, minInt len SD_SCR_SIZE⟩]⟩
  else if type = SDMMC_REG_TYPE_SDS then
    if env.dtype ≠ DEV_TYPE_SD then ⟨ENOTSUP, []⟩
    else if env.readStatus = EOK then ⟨EOK, [⟨dptr, minSize len 64⟩]⟩
    else ⟨ EIO, []⟩
  else ⟨EINVAL, []⟩

/-- `sdmmc_card_register_devctl`. -/
def sdmmcCardRegisterDevctl (buffer : Buffer) (env : Env) : Done :=
  if !env.ready then ⟨ EIO, []⟩
  else
    let action := read32 buffer.mem 0
    let type := read32 buffer.mem 4
    let address := read32 buffer.mem 8
    if action = SDMMC_CR_ACTION_READ then
      let done := crRead type buffer.size env
      ⟨done.status, ⟨0, 4⟩ :: ⟨4, 4⟩ :: done.accesses ++ [⟨4, 4⟩]⟩
    else if action = SDMMC_CR_ACTION_WRITE then
      if type = SDMMC_REG_TYPE_EXT_CSD ∧ env.dtype = DEV_TYPE_MMC then
        if ECSD_REV ≤ address then ⟨EINVAL, [⟨0, 4⟩, ⟨4, 4⟩, ⟨8, 4⟩]⟩
        else ⟨if env.switch ≠ EOK then EIO else EOK, [⟨0, 4⟩, ⟨4, 4⟩, ⟨8, 4⟩, ⟨24, 1⟩]⟩
      else ⟨ENOTSUP, [⟨0, 4⟩, ⟨4, 4⟩]⟩
    else ⟨ENOTSUP, [⟨0, 4⟩]⟩

/-- `len` of `sdmmc_assd_apdu_devctl`. -/
def apduLen (mem : Memory) : Nat := (read32 mem 0 + ASSD_APDU_STL_SIZE) % 2 ^ 32

/-- The answer of the card is copied to the data of the request. -/
def apduAnswer (high low : BitVec 8) : List Access :=
  let len := high.toNat * 2 ^ 8 + low.toNat
  if ASSD_APDU_STL_SIZE < len then
    [⟨0, 4⟩, ⟨0, 4⟩, ⟨32, min (len - ASSD_APDU_STL_SIZE) ASSD_APDU_MAX_DLEN⟩]
  else [⟨0, 4⟩]

/-- `sdmmc_assd_apdu_devctl`. -/
def sdmmcAssdApduDevctl (buffer : Buffer) (env : Env) : Done :=
  let len := apduLen buffer.mem
  if !env.ready then ⟨ EIO, [⟨0, 4⟩]⟩
  else if env.assdState ≠ EOK then ⟨env.assdState, [⟨0, 4⟩]⟩
  else if len + 32 < buffer.size ∧ len < ASSD_APDU_MAX_DLEN ∧ ASSD_APDU_MIN_DLEN < len then
    if !env.hasData then ⟨ENOMEM, [⟨0, 4⟩]⟩
    else
      let sent : List Access := [⟨0, 4⟩, ⟨32, len - ASSD_APDU_STL_SIZE⟩]
      if env.writeSecCmd ≠ EOK then ⟨env.writeSecCmd, sent⟩
      else if env.waitCardStatus ≠ EOK then ⟨env.waitCardStatus, sent⟩
      else if env.waitScc ≠ EOK then ⟨env.waitScc, sent⟩
      else if env.readSecCmd ≠ EOK then ⟨env.readSecCmd, sent⟩
      else ⟨EOK, sent ++ apduAnswer env.high env.low⟩
  else ⟨EINVAL, [⟨0, 4⟩]⟩

/-- The requests. -/
inductive Devctl where
  | genCmd
  | manCmd
  | cardRegister
  | assdApdu
deriving DecidableEq, Repr

/-- The handler of a request, for so many rounds at the most where it walks. -/
def sdmmcDevctl (devctl : Devctl) (buffer : Buffer) (env : Env) (rounds : Nat) : Option Done :=
  match devctl with
  | .genCmd => sdmmcGencmdDevctl buffer env rounds
  | .manCmd => sdmmcMancmdDevctl buffer env rounds
  | .cardRegister => some (sdmmcCardRegisterDevctl buffer env)
  | .assdApdu => some (sdmmcAssdApduDevctl buffer env)

/-! ## Requests that stay in their data -/

/-- Whatever the card and the calls do, the handler returns, and every access is one to the
data. -/
def Stays (devctl : Devctl) (buffer : Buffer) : Prop :=
  ∀ env, ∃ rounds done, sdmmcDevctl devctl buffer env rounds = some done ∧
    ∀ access ∈ done.accesses, access.Inside buffer.size

/-- The chain of commands from a place on ends in the data, and so do the blocks on its way. -/
inductive Chain (sizeof size : Nat) (command : Nat → Command) : Nat → Prop where
  | refused {req : Nat} (refused : (command req).accepted = false)
      (header : req + (command req).headerRead ≤ size) : Chain sizeof size command req
  | last {req : Nat} (accepted : (command req).accepted = true)
      (header : req + (command req).headerRead ≤ size)
      (block : (command req).adtc = true →
        Access.Inside size ⟨req + sizeof, (command req).blklen⟩)
      (isLast : (command req).next = false) : Chain sizeof size command req
  | more {req : Nat} (accepted : (command req).accepted = true)
      (header : req + (command req).headerRead ≤ size)
      (block : (command req).adtc = true →
        Access.Inside size ⟨req + sizeof, (command req).blklen⟩)
      (goesOn : (command req).next = true)
      (rest : Chain sizeof size command (req + sizeof + (command req).blklen)) :
      Chain sizeof size command req

/-- `len` is not negative: the data has a header, and less than 2 GB behind it. -/
def LenFits (size : Nat) : Prop := 24 ≤ size ∧ (size - 24) % 2 ^ 32 < 2 ^ 31

/-- The header of a register request, and the copy of the largest register of its type. -/
structure RegisterFits (buffer : Buffer) : Prop where
  action : 4 ≤ buffer.size
  type : read32 buffer.mem 0 ≤ SDMMC_CR_ACTION_WRITE → 8 ≤ buffer.size
  bySign : read32 buffer.mem 0 = SDMMC_CR_ACTION_READ →
    read32 buffer.mem 4 ∈ [SDMMC_REG_TYPE_CID, SDMMC_REG_TYPE_CSD, SDMMC_REG_TYPE_SCR] →
    LenFits buffer.size
  extCsd : read32 buffer.mem 0 = SDMMC_CR_ACTION_READ →
    read32 buffer.mem 4 = SDMMC_REG_TYPE_EXT_CSD → LenFits buffer.size ∨ 24 + 512 ≤ buffer.size
  sds : read32 buffer.mem 0 = SDMMC_CR_ACTION_READ →
    read32 buffer.mem 4 = SDMMC_REG_TYPE_SDS → LenFits buffer.size ∨ 24 + 64 ≤ buffer.size
  written : read32 buffer.mem 0 = SDMMC_CR_ACTION_WRITE →
    read32 buffer.mem 4 = SDMMC_REG_TYPE_EXT_CSD →
    12 ≤ buffer.size ∧ (read32 buffer.mem 8 < ECSD_REV → 25 ≤ buffer.size)

/-- The header of an APDU, and the longest answer where the request is sent. -/
structure ApduFits (buffer : Buffer) : Prop where
  header : 4 ≤ buffer.size
  answer : apduLen buffer.mem + 32 < buffer.size → apduLen buffer.mem < ASSD_APDU_MAX_DLEN →
    ASSD_APDU_MIN_DLEN < apduLen buffer.mem → 32 + ASSD_APDU_MAX_DLEN ≤ buffer.size

/-- The request fits in its data. -/
def Fits : Devctl → Buffer → Prop
  | .genCmd, buffer => Chain 8 buffer.size (genCommand buffer.mem) 0
  | .manCmd, buffer => Chain 12 buffer.size (manCommand buffer.mem) 0
  | .cardRegister, buffer => RegisterFits buffer
  | .assdApdu, buffer => ApduFits buffer

/-! ## The walks -/

section Walk

/-- A command is read from the memory behind its place. -/
def ReadsAhead (command : Memory → Nat → Command) : Prop :=
  ∀ {mem mem' : Memory} {req : Nat}, (∀ place, req ≤ place → mem place = mem' place) →
    command mem req = command mem' req

theorem read16_congr {mem mem' : Memory} {req place : Nat}
    (same : ∀ place, req ≤ place → mem place = mem' place) (behind : req ≤ place) :
    read16 mem place = read16 mem' place := by
  rw [read16, read16, same place behind, same (place + 1) (Nat.le_succ_of_le behind)]

theorem genCommand_readsAhead : ReadsAhead genCommand := by
  intro mem mem' req same
  rw [genCommand, genCommand, read16_congr same (Nat.le_add_right req 4),
    read16_congr same (Nat.le_add_right req 6)]

theorem manCommand_readsAhead : ReadsAhead manCommand := by
  intro mem mem' req same
  rw [manCommand, manCommand, read32, read32, read16_congr same (Nat.le_refl req),
    read16_congr same (Nat.le_add_right req 2), read16_congr same (Nat.le_add_right req 8)]

variable {cmd : Command} {reply : GenReply} {mem : Memory} {buf : Nat}

/-- A command accesses its block only, and only where it has one. -/
theorem sdioMmcGenMan_blocks {access : Access}
    (member : access ∈ (sdioMmcGenMan buf cmd reply mem).2.1) :
    cmd.adtc = true ∧ access = ⟨buf, cmd.blklen⟩ := by
  unfold sdioMmcGenMan mmcGenManCmd at member
  cases adtc : cmd.adtc with
  | false =>
      simp only [adtc, Bool.false_eq_true, ↓reduceIte] at member
      split at member
      · exact absurd member List.not_mem_nil
      split at member
      · exact absurd member List.not_mem_nil
      · exact absurd member List.not_mem_nil
  | true =>
      refine ⟨rfl, ?_⟩
      simp only [adtc, ↓reduceIte] at member
      split at member
      · exact absurd member List.not_mem_nil
      split at member
      · exact absurd member List.not_mem_nil
      split at member
      · exact absurd member List.not_mem_nil
      split at member
      · exact absurd member List.not_mem_nil
      split at member
      · exact List.mem_singleton.mp member
      split at member
      · exact List.mem_singleton.mp member
      · exact absurd member List.not_mem_nil

/-- What lies behind the block is kept. -/
theorem sdioMmcGenMan_mem {place : Nat} (behind : buf + cmd.blklen ≤ place) :
    (sdioMmcGenMan buf cmd reply mem).2.2 place = mem place := by
  unfold sdioMmcGenMan mmcGenManCmd
  split
  · rfl
  split
  · rfl
  split
  · split
    · rfl
    split
    · rfl
    dsimp only
    split
    · rfl
    split
    · exact if_neg fun inside => absurd inside.2 (Nat.not_lt.mpr behind)
    · rfl
  · rfl

/-- Everything succeeds. -/
def GenReply.fine : GenReply := ⟨EOK, true, EOK, true, EOK, EOK, fun _ => 0⟩

theorem sdioMmcGenMan_fine (buf : Nat) (cmd : Command) (mem : Memory) :
    (sdioMmcGenMan buf cmd .fine mem).1 = EOK ∧
    (cmd.adtc = true → ⟨buf, cmd.blklen⟩ ∈ (sdioMmcGenMan buf cmd .fine mem).2.1) := by
  unfold sdioMmcGenMan mmcGenManCmd
  cases cmd.adtc <;> cases cmd.dirIn <;> simp [GenReply.fine]

variable {sizeof size : Nat} {command : Memory → Nat → Command} {replies : Nat → GenReply}

/-- What a round does: it refuses the command, or ends with it, or goes on behind its block. -/
theorem cmdTurn_cases (sizeof : Nat) (command : Memory → Nat → Command)
    (replies : Nat → GenReply) (p : Point) :
    let cmd := command p.mem p.req
    let done := sdioMmcGenMan (p.req + sizeof) cmd (replies p.turn) p.mem
    let accesses := p.accesses ++ ⟨p.req, cmd.headerRead⟩ :: done.2.1
    (cmd.accepted = false ∧ cmdTurn sizeof command replies p =
        .ends ⟨ENOTSUP, p.accesses ++ [⟨p.req, cmd.headerRead⟩]⟩) ∨
      (cmd.accepted = true ∧ (done.1 ≠ EOK ∨ cmd.next = false) ∧
        ∃ status, cmdTurn sizeof command replies p = .ends ⟨status, accesses⟩) ∨
      (cmd.accepted = true ∧ done.1 = EOK ∧ cmd.next = true ∧
        cmdTurn sizeof command replies p =
          .goes ⟨p.req + sizeof + cmd.blklen, p.turn + 1, done.2.2, accesses⟩) := by
  intro cmd done accesses
  unfold cmdTurn
  cases accepted : cmd.accepted with
  | false => exact Or.inl ⟨rfl, if_pos (by rw [accepted]; rfl)⟩
  | true =>
      right
      have isAccepted : ¬ (!cmd.accepted) = true := by
        rw [accepted]
        decide
      by_cases failed : done.1 ≠ EOK
      · refine Or.inl ⟨rfl, Or.inl failed, done.1, ?_⟩
        exact (if_neg isAccepted).trans (if_pos failed)
      · cases next : cmd.next with
        | false =>
            refine Or.inl ⟨rfl, Or.inr rfl, EOK, ?_⟩
            exact (if_neg isAccepted).trans ((if_neg failed).trans (if_pos (by rw [next]; rfl)))
        | true =>
            refine Or.inr ⟨rfl, not_not.mp failed, rfl, ?_⟩
            exact (if_neg isAccepted).trans ((if_neg failed).trans (if_neg (by rw [next]; decide)))

/-- The accesses of a round whose header and block lie in the data. -/
theorem round_inside {accesses : List Access} {req headerRead : Nat}
    (before : ∀ access ∈ accesses, access.Inside size) (header : req + headerRead ≤ size)
    (block : cmd.adtc = true → Access.Inside size ⟨buf, cmd.blklen⟩) :
    ∀ access ∈ accesses ++ ⟨req, headerRead⟩ :: (sdioMmcGenMan buf cmd reply mem).2.1,
      access.Inside size := by
  intro access member
  rcases List.mem_append.mp member with old | new
  · exact before access old
  · rcases List.mem_cons.mp new with rfl | inBlock
    · exact Or.inr header
    · obtain ⟨adtc, rfl⟩ := sdioMmcGenMan_blocks inBlock
      exact block adtc

/-- A walk along a chain in the data returns, and stays in the data. -/
theorem walk_stays (ahead : ReadsAhead command) {base : Memory} {req : Nat}
    (chain : Chain sizeof size (command base) req) (p : Point) (here : p.req = req)
    (same : ∀ place, req ≤ place → p.mem place = base place)
    (before : ∀ access ∈ p.accesses, access.Inside size) :
    ∃ done, Returns (cmdTurn sizeof command replies) p done ∧
      ∀ access ∈ done.accesses, access.Inside size := by
  induction chain generalizing p with
  | refused refused header =>
      subst here
      have cases := cmdTurn_cases sizeof command replies p
      rw [ahead same] at cases
      rcases cases with ⟨-, ends⟩ | ⟨accepted, -⟩ | ⟨accepted, -⟩
      · refine ⟨_, returns_of_ends ends, ?_⟩
        intro access member
        rcases List.mem_append.mp member with old | new
        · exact before access old
        · rw [List.mem_singleton.mp new]
          exact Or.inr header
      · rw [refused] at accepted
        cases accepted
      · rw [refused] at accepted
        cases accepted
  | last accepted header block isLast =>
      subst here
      have cases := cmdTurn_cases sizeof command replies p
      rw [ahead same] at cases
      rcases cases with ⟨refused, -⟩ | ⟨-, -, status, ends⟩ | ⟨-, -, next, -⟩
      · rw [accepted] at refused
        cases refused
      · exact ⟨_, returns_of_ends ends, round_inside before header block⟩
      · rw [isLast] at next
        cases next
  | more accepted header block goesOn rest ih =>
      subst here
      have cases := cmdTurn_cases sizeof command replies p
      rw [ahead same] at cases
      rcases cases with ⟨refused, -⟩ | ⟨-, -, status, ends⟩ | ⟨-, -, -, goes⟩
      · rw [accepted] at refused
        cases refused
      · exact ⟨_, returns_of_ends ends, round_inside before header block⟩
      · obtain ⟨done, returns, inside⟩ := ih ⟨_, _, _, _⟩ rfl
          (fun place behind => (sdioMmcGenMan_mem behind).trans
            (same place ((Nat.le_add_right _ _).trans ((Nat.le_add_right _ _).trans behind))))
          (round_inside before header block)
        exact ⟨done, returns_of_goes goes returns, inside⟩

/-- A walk reports the accesses that it has made before. -/
theorem walk_reports {rounds : Nat} {p : Point} {done : Done}
    (walked : walk (cmdTurn sizeof command replies) rounds p = some done) :
    ∀ access ∈ p.accesses, access ∈ done.accesses := by
  induction rounds generalizing p with
  | zero => cases walked
  | succ rounds ih =>
      intro access member
      rw [walk] at walked
      rcases cmdTurn_cases sizeof command replies p with
        ⟨-, ends⟩ | ⟨-, -, status, ends⟩ | ⟨-, -, -, goes⟩
      · rw [ends] at walked
        obtain rfl := Option.some.inj walked
        exact List.mem_append_left _ member
      · rw [ends] at walked
        obtain rfl := Option.some.inj walked
        exact List.mem_append_left _ member
      · rw [goes] at walked
        exact ih walked access (List.mem_append_left _ member)

/-- Where all commands succeed, a walk that returns and stays in the data goes along a chain. -/
theorem chain_of_walk (ahead : ReadsAhead command) {base : Memory} {rounds : Nat} {p : Point}
    {done : Done} (headerPos : ∀ mem req, (command mem req).headerRead ≠ 0)
    (walked : walk (cmdTurn sizeof command fun _ => .fine) rounds p = some done)
    (same : ∀ place, p.req ≤ place → p.mem place = base place)
    (inside : ∀ access ∈ done.accesses, access.Inside size) :
    Chain sizeof size (command base) p.req := by
  induction rounds generalizing p with
  | zero => cases walked
  | succ rounds ih =>
      rw [walk] at walked
      have cases := cmdTurn_cases sizeof command (fun _ => GenReply.fine) p
      have fine := sdioMmcGenMan_fine (p.req + sizeof) (command base p.req) p.mem
      have headerIn : (⟨p.req, (command base p.req).headerRead⟩ : Access) ∈ done.accesses →
          p.req + (command base p.req).headerRead ≤ size :=
        fun member => (inside _ member).resolve_left (headerPos base p.req)
      rw [ahead same] at cases
      rcases cases with ⟨refused, ends⟩ | ⟨accepted, stops, status, ends⟩ |
        ⟨accepted, -, goesOn, goes⟩
      · rw [ends] at walked
        obtain rfl := Option.some.inj walked
        exact .refused refused (headerIn (List.mem_append_right _ (List.mem_singleton.mpr rfl)))
      · rw [ends] at walked
        obtain rfl := Option.some.inj walked
        refine .last accepted (headerIn (List.mem_append_right _ List.mem_cons_self)) ?_
          (stops.resolve_left (not_not.mpr fine.1))
        intro adtc
        exact inside _ (List.mem_append_right _ (List.mem_cons_of_mem _ (fine.2 adtc)))
      · rw [goes] at walked
        have reported := walk_reports walked
        refine .more accepted ?_ ?_ goesOn (ih walked ?_)
        · exact headerIn (reported _ (List.mem_append_right _ List.mem_cons_self))
        · intro adtc
          exact inside _ (reported _ (List.mem_append_right _
            (List.mem_cons_of_mem _ (fine.2 adtc))))
        · intro place behind
          exact (sdioMmcGenMan_mem behind).trans
            (same place ((Nat.le_add_right _ _).trans ((Nat.le_add_right _ _).trans behind)))

end Walk

/-! ## The copies -/

section Copies

variable {size : Nat}

/-- `len` is what lies behind the header, or negative. -/
theorem crLen_cases (size : Nat) :
    (LenFits size ∧ 0 ≤ crLen size ∧ crLen size ≤ size - 24) ∨
      (¬ LenFits size ∧ -2 ^ 31 ≤ crLen size ∧ crLen size < 0) := by
  have value : crLen size = if ((size : Int) - 24) % 2 ^ 32 < 2 ^ 31 then
      ((size : Int) - 24) % 2 ^ 32 else ((size : Int) - 24) % 2 ^ 32 - 2 ^ 32 := rfl
  rw [value, LenFits]
  split
  · left
    omega
  · right
    omega

/-- The copies that compare two `int`. -/
theorem minInt_inside {limit : Nat} (small : size < 2 ^ 63) (positive : 0 < limit) :
    Access.Inside size ⟨24, minInt (crLen size) limit⟩ ↔ LenFits size := by
  rw [Access.Inside, minInt]
  dsimp only
  rcases crLen_cases size with ⟨fits, atLeast, atMost⟩ | ⟨fits, atLeast, negative⟩
  · refine iff_of_true (Or.inr ?_) fits
    obtain ⟨header, -⟩ := fits
    split <;> omega
  · refine iff_of_false ?_ fits
    rw [if_pos (by omega)]
    omega

/-- The copies that compare two `size_t`. -/
theorem minSize_inside {limit : Nat} (positive : 0 < limit) (short : limit < 2 ^ 31) :
    Access.Inside size ⟨24, minSize (crLen size) limit⟩ ↔
      LenFits size ∨ 24 + limit ≤ size := by
  rw [Access.Inside, minSize]
  dsimp only
  rcases crLen_cases size with ⟨fits, atLeast, atMost⟩ | ⟨fits, atLeast, negative⟩
  · refine iff_of_true (Or.inr ?_) (Or.inl fits)
    obtain ⟨header, -⟩ := fits
    split <;> omega
  · rw [if_neg (by omega), or_iff_right fits, or_iff_right positive.ne']

end Copies

/-- Everything succeeds, with a card of one type, and the longest answer. -/
def Env.fine (dtype : Nat) : Env :=
  ⟨true, fun _ => .fine, dtype, EOK, EOK, EOK, EOK, true, EOK, EOK, EOK, EOK, 255, 255⟩

section Handlers

variable {buffer : Buffer}

theorem walk_stays_iff {sizeof : Nat} {command : Memory → Nat → Command}
    (ahead : ReadsAhead command) (headerPos : ∀ mem req, (command mem req).headerRead ≠ 0) :
    (∀ env : Env, ∃ rounds done,
      (if !env.ready then some ⟨ EIO, []⟩
        else walk (cmdTurn sizeof command env.replies) rounds buffer.start) = some done ∧
        ∀ access ∈ done.accesses, access.Inside buffer.size) ↔
      Chain sizeof buffer.size (command buffer.mem) 0 := by
  constructor
  · intro stays
    obtain ⟨rounds, done, walked, inside⟩ := stays (Env.fine 0)
    exact chain_of_walk ahead headerPos walked (fun _ _ => rfl) inside
  · intro chain env
    cases ready : env.ready with
    | false => exact ⟨0, ⟨ EIO, []⟩, rfl, fun access none => absurd none List.not_mem_nil⟩
    | true =>
        have returns : ∃ done, Returns (cmdTurn sizeof command env.replies) buffer.start done ∧
            ∀ access ∈ done.accesses, access.Inside buffer.size :=
          walk_stays ahead chain buffer.start rfl (fun _ _ => rfl)
            (fun access none => absurd none List.not_mem_nil)
        obtain ⟨done, ⟨rounds, walked⟩, inside⟩ := returns
        exact ⟨rounds, done, walked, inside⟩

theorem gencmd_stays_iff : Stays .genCmd buffer ↔ Fits .genCmd buffer :=
  walk_stays_iff genCommand_readsAhead fun _ _ => Nat.succ_ne_zero 7

theorem mancmd_stays_iff : Stays .manCmd buffer ↔ Fits .manCmd buffer := by
  refine walk_stays_iff manCommand_readsAhead ?_
  intro mem req
  rw [manCommand]
  dsimp only
  split
  · decide
  · decide

/-- The longest answer. -/
theorem apduAnswer_longest : apduAnswer 255 255 = [⟨0, 4⟩, ⟨0, 4⟩, ⟨32, 512⟩] := by
  simp [apduAnswer, ASSD_APDU_STL_SIZE, ASSD_APDU_MAX_DLEN]

theorem assdApdu_stays_iff : Stays .assdApdu buffer ↔ Fits .assdApdu buffer := by
  constructor
  · intro stays
    obtain ⟨rounds, done, returned, inside⟩ := stays (Env.fine 0)
    obtain rfl := Option.some.inj returned
    rw [sdmmcAssdApduDevctl] at inside
    dsimp only at inside
    rw [if_neg (by decide), if_neg (by decide)] at inside
    by_cases sends : apduLen buffer.mem + 32 < buffer.size ∧
        apduLen buffer.mem < ASSD_APDU_MAX_DLEN ∧ ASSD_APDU_MIN_DLEN < apduLen buffer.mem
    · rw [if_pos sends, if_neg (by decide), if_neg (by decide), if_neg (by decide),
        if_neg (by decide), if_neg (by decide)] at inside
      have answer : (⟨32, 512⟩ : Access) ∈ apduAnswer (Env.fine 0).high (Env.fine 0).low := by
        apply Eq.subst (motive := fun answered => (⟨32, 512⟩ : Access) ∈ answered)
          apduAnswer_longest.symm
        exact List.mem_cons_of_mem _ (List.mem_cons_of_mem _ (List.mem_singleton.mpr rfl))
      have whole := inside _ (List.mem_append_right _ answer)
      have fits := whole.resolve_left (by decide)
      exact ⟨by dsimp only at fits; omega, fun _ _ _ => fits⟩
    · rw [if_neg sends] at inside
      have header := inside ⟨0, 4⟩ (List.mem_singleton.mpr rfl)
      have fits := header.resolve_left (by decide)
      exact ⟨by dsimp only at fits; omega,
        fun room short long => absurd ⟨room, short, long⟩ sends⟩
  · rintro ⟨header, answer⟩ env
    refine ⟨0, _, rfl, ?_⟩
    have first : Access.Inside buffer.size ⟨0, 4⟩ := Or.inr (by dsimp only; omega)
    have only : ∀ access ∈ [(⟨0, 4⟩ : Access)], access.Inside buffer.size := by
      intro access member
      rw [List.mem_singleton.mp member]
      exact first
    rw [sdmmcAssdApduDevctl]
    dsimp only
    split
    · exact only
    split
    · exact only
    split
    case isFalse => exact only
    case isTrue sends =>
      obtain ⟨room, short, long⟩ := sends
      have whole := answer room short long
      have sent : ∀ access ∈ [(⟨0, 4⟩ : Access), ⟨32, apduLen buffer.mem - ASSD_APDU_STL_SIZE⟩],
          access.Inside buffer.size := by
        intro access member
        rcases List.mem_cons.mp member with rfl | member
        · exact first
        · rw [List.mem_singleton.mp member]
          exact Or.inr (by dsimp only; omega)
      split
      · exact only
      split
      · exact sent
      split
      · exact sent
      split
      · exact sent
      split
      · exact sent
      · intro access member
        rcases List.mem_append.mp member with before | after
        · exact sent access before
        · rw [apduAnswer] at after
          split at after
          · rcases List.mem_cons.mp after with rfl | after
            · exact first
            rcases List.mem_cons.mp after with rfl | after
            · exact first
            · rw [List.mem_singleton.mp after]
              refine Or.inr ?_
              dsimp only
              exact (Nat.add_le_add_left (Nat.min_le_right _ _) 32).trans whole
          · exact only access after

/-- A read copies one register, or nothing. -/
theorem crRead_cases (type size : Nat) (env : Env) :
    (crRead type size env).accesses = [] ∨
      (type ∈ [SDMMC_REG_TYPE_CID, SDMMC_REG_TYPE_CSD, SDMMC_REG_TYPE_SCR] ∧
        ∃ limit, 0 < limit ∧
          (crRead type size env).accesses = [⟨24, minInt (crLen size) limit⟩]) ∨
      (type = SDMMC_REG_TYPE_EXT_CSD ∧
        (crRead type size env).accesses = [⟨24, minSize (crLen size) 512⟩]) ∨
      (type = SDMMC_REG_TYPE_SDS ∧
        (crRead type size env).accesses = [⟨24, minSize (crLen size) 64⟩]) := by
  unfold crRead
  dsimp only
  by_cases cid : type = SDMMC_REG_TYPE_CID
  · rw [if_pos cid]
    exact Or.inr (Or.inl ⟨cid ▸ List.mem_cons_self, MMC_CID_SIZE, by decide, rfl⟩)
  rw [if_neg cid]
  by_cases csd : type = SDMMC_REG_TYPE_CSD
  · rw [if_pos csd]
    refine Or.inr (Or.inl ⟨?_, MMC_CSD_SIZE, by decide, rfl⟩)
    exact csd ▸ List.mem_cons_of_mem _ List.mem_cons_self
  rw [if_neg csd]
  by_cases extCsd : type = SDMMC_REG_TYPE_EXT_CSD
  · rw [if_pos extCsd]
    split
    · exact Or.inl rfl
    split
    · exact Or.inr (Or.inr (Or.inl ⟨extCsd, rfl⟩))
    split
    · exact Or.inl rfl
    · exact Or.inl rfl
  rw [if_neg extCsd]
  by_cases scr : type = SDMMC_REG_TYPE_SCR
  · rw [if_pos scr]
    split
    · exact Or.inl rfl
    · refine Or.inr (Or.inl ⟨?_, SD_SCR_SIZE, by decide, rfl⟩)
      exact scr ▸ List.mem_cons_of_mem _ (List.mem_cons_of_mem _ List.mem_cons_self)
  rw [if_neg scr]
  split
  case isTrue sds =>
    split
    · exact Or.inl rfl
    split
    · exact Or.inr (Or.inr (Or.inr ⟨sds, rfl⟩))
    · exact Or.inl rfl
  case isFalse => exact Or.inl rfl

/-- What a request to read needs, from the two sorts of cards. -/
theorem lenFits_of_crRead {type size : Nat} (small : size < 2 ^ 63)
    (inside : ∀ dtype, ∀ access ∈ (crRead type size (Env.fine dtype)).accesses,
      access.Inside size) :
    (type ∈ [SDMMC_REG_TYPE_CID, SDMMC_REG_TYPE_CSD, SDMMC_REG_TYPE_SCR] → LenFits size) ∧
      (type = SDMMC_REG_TYPE_EXT_CSD → LenFits size ∨ 24 + 512 ≤ size) ∧
      (type = SDMMC_REG_TYPE_SDS → LenFits size ∨ 24 + 64 ≤ size) := by
  have mmc := inside DEV_TYPE_MMC
  have sd := inside DEV_TYPE_SD
  refine ⟨?_, ?_, ?_⟩
  · intro member
    rcases List.mem_cons.mp member with rfl | member
    · exact (minInt_inside small (by decide)).mp (sd _ (List.mem_singleton.mpr rfl))
    rcases List.mem_cons.mp member with rfl | member
    · exact (minInt_inside small (by decide)).mp (sd _ (List.mem_singleton.mpr rfl))
    · obtain rfl := List.mem_singleton.mp member
      exact (minInt_inside small (by decide)).mp (sd _ (List.mem_singleton.mpr rfl))
  · rintro rfl
    exact (minSize_inside (by decide) (by decide)).mp (mmc _ (List.mem_singleton.mpr rfl))
  · rintro rfl
    exact (minSize_inside (by decide) (by decide)).mp (sd _ (List.mem_singleton.mpr rfl))

theorem crRead_inside {type size : Nat} (small : size < 2 ^ 63)
    (bySign : type ∈ [SDMMC_REG_TYPE_CID, SDMMC_REG_TYPE_CSD, SDMMC_REG_TYPE_SCR] →
      LenFits size)
    (extCsd : type = SDMMC_REG_TYPE_EXT_CSD → LenFits size ∨ 24 + 512 ≤ size)
    (sds : type = SDMMC_REG_TYPE_SDS → LenFits size ∨ 24 + 64 ≤ size) (env : Env) :
    ∀ access ∈ (crRead type size env).accesses, access.Inside size := by
  intro access member
  rcases crRead_cases type size env with none | ⟨listed, limit, positive, one⟩ | ⟨isExtCsd, one⟩ |
    ⟨isSds, one⟩
  · rw [none] at member
    exact absurd member List.not_mem_nil
  · rw [one] at member
    rw [List.mem_singleton.mp member]
    exact (minInt_inside small positive).mpr (bySign listed)
  · rw [one] at member
    rw [List.mem_singleton.mp member]
    exact (minSize_inside (by decide) (by decide)).mpr (extCsd isExtCsd)
  · rw [one] at member
    rw [List.mem_singleton.mp member]
    exact (minSize_inside (by decide) (by decide)).mpr (sds isSds)

/-- The words of the header lie in the data. -/
theorem word_inside {size place : Nat} : Access.Inside size ⟨place, 4⟩ ↔ place + 4 ≤ size :=
  or_iff_right (by decide : (4 : Nat) ≠ 0)

/-- The accesses of a handler whose card is ready. -/
theorem cardRegister_accesses {env : Env} (ready : env.ready = true) :
    (sdmmcCardRegisterDevctl buffer env).accesses =
      if read32 buffer.mem 0 = SDMMC_CR_ACTION_READ then
        ⟨0, 4⟩ :: ⟨4, 4⟩ :: (crRead (read32 buffer.mem 4) buffer.size env).accesses ++ [⟨4, 4⟩]
      else if read32 buffer.mem 0 = SDMMC_CR_ACTION_WRITE then
        if read32 buffer.mem 4 = SDMMC_REG_TYPE_EXT_CSD ∧ env.dtype = DEV_TYPE_MMC then
          if ECSD_REV ≤ read32 buffer.mem 8 then [⟨0, 4⟩, ⟨4, 4⟩, ⟨8, 4⟩]
          else [⟨0, 4⟩, ⟨4, 4⟩, ⟨8, 4⟩, ⟨24, 1⟩]
        else [⟨0, 4⟩, ⟨4, 4⟩]
      else [⟨0, 4⟩] := by
  have isReady : ¬ (!env.ready) = true := by
    rw [ready]
    decide
  unfold sdmmcCardRegisterDevctl
  rw [if_neg isReady]
  dsimp only
  split
  · rfl
  split
  · split
    · split
      · rfl
      · rfl
    · rfl
  · rfl

theorem cardRegister_fits
    (inside : ∀ dtype, ∀ access ∈ (sdmmcCardRegisterDevctl buffer (Env.fine dtype)).accesses,
      access.Inside buffer.size) : RegisterFits buffer := by
  have accesses := fun dtype => @cardRegister_accesses buffer (Env.fine dtype) rfl
  by_cases read : read32 buffer.mem 0 = SDMMC_CR_ACTION_READ
  · have apart : read32 buffer.mem 0 ≠ SDMMC_CR_ACTION_WRITE := by
      rw [read]
      decide
    have reads : ∀ dtype, ∀ access ∈ (⟨0, 4⟩ : Access) :: ⟨4, 4⟩ ::
        (crRead (read32 buffer.mem 4) buffer.size (Env.fine dtype)).accesses ++ [⟨4, 4⟩],
        access.Inside buffer.size := by
      intro dtype
      have listed := inside dtype
      rw [accesses, if_pos read] at listed
      exact listed
    have action := word_inside.mp (reads 0 _ (List.mem_append_left _ List.mem_cons_self))
    have type := word_inside.mp
      (reads 0 _ (List.mem_append_left _ (List.mem_cons_of_mem _ List.mem_cons_self)))
    obtain ⟨bySign, extCsd, sds⟩ := lenFits_of_crRead buffer.size_lt fun dtype access member =>
      reads dtype access (List.mem_append_left _ (List.mem_cons_of_mem _
        (List.mem_cons_of_mem _ member)))
    exact ⟨action, fun _ => type, fun _ => bySign, fun _ => extCsd, fun _ => sds,
      fun written => absurd written apart⟩
  by_cases write : read32 buffer.mem 0 = SDMMC_CR_ACTION_WRITE
  · have writes := inside DEV_TYPE_MMC
    rw [accesses, if_neg read, if_pos write] at writes
    have unread : ∀ {p : Prop}, read32 buffer.mem 0 = SDMMC_CR_ACTION_READ → p :=
      fun isRead => absurd isRead read
    split at writes
    case isTrue both =>
      split at writes
      case isTrue high =>
        have action := word_inside.mp (writes _ List.mem_cons_self)
        have type := word_inside.mp (writes _ (List.mem_cons_of_mem _ List.mem_cons_self))
        have address := word_inside.mp
          (writes _ (List.mem_cons_of_mem _ (List.mem_cons_of_mem _ List.mem_cons_self)))
        exact ⟨action, fun _ => type, unread, unread, unread,
          fun _ _ => ⟨address, fun low => absurd high (Nat.not_le.mpr low)⟩⟩
      case isFalse low =>
        have action := word_inside.mp (writes _ List.mem_cons_self)
        have type := word_inside.mp (writes _ (List.mem_cons_of_mem _ List.mem_cons_self))
        have address := word_inside.mp
          (writes _ (List.mem_cons_of_mem _ (List.mem_cons_of_mem _ List.mem_cons_self)))
        have value := (writes ⟨24, 1⟩ (List.mem_cons_of_mem _ (List.mem_cons_of_mem _
          (List.mem_cons_of_mem _ List.mem_cons_self)))).resolve_left Nat.one_ne_zero
        exact ⟨action, fun _ => type, unread, unread, unread,
          fun _ _ => ⟨address, fun _ => value⟩⟩
    case isFalse other =>
      have action := word_inside.mp (writes _ List.mem_cons_self)
      have type := word_inside.mp (writes _ (List.mem_cons_of_mem _ List.mem_cons_self))
      exact ⟨action, fun _ => type, unread, unread, unread,
        fun _ isExtCsd => absurd ⟨isExtCsd, rfl⟩ other⟩
  · have others := inside 0
    rw [accesses, if_neg read, if_neg write] at others
    have action := word_inside.mp (others _ List.mem_cons_self)
    have neither : ¬ read32 buffer.mem 0 ≤ SDMMC_CR_ACTION_WRITE := by
      rw [SDMMC_CR_ACTION_READ] at read
      rw [SDMMC_CR_ACTION_WRITE] at write ⊢
      omega
    exact ⟨action, fun known => absurd known neither, fun isRead => absurd isRead read,
      fun isRead => absurd isRead read, fun isRead => absurd isRead read,
      fun written => absurd written write⟩

theorem cardRegister_inside (fits : RegisterFits buffer) (env : Env) :
    ∀ access ∈ (sdmmcCardRegisterDevctl buffer env).accesses, access.Inside buffer.size := by
  have action : Access.Inside buffer.size ⟨0, 4⟩ := word_inside.mpr fits.action
  cases ready : env.ready with
  | false =>
      have none : (sdmmcCardRegisterDevctl buffer env).accesses = [] := by
        unfold sdmmcCardRegisterDevctl
        rw [if_pos (by rw [ready]; rfl)]
      rw [none]
      exact fun access member => absurd member List.not_mem_nil
  | true =>
      rw [cardRegister_accesses ready]
      split
      case isTrue read =>
        have type : Access.Inside buffer.size ⟨4, 4⟩ :=
          word_inside.mpr (fits.type (read.trans_le (by decide)))
        have copied := crRead_inside buffer.size_lt (fits.bySign read) (fits.extCsd read)
          (fits.sds read) env
        refine List.forall_mem_append.mpr ⟨?_, List.forall_mem_singleton.mpr type⟩
        exact List.forall_mem_cons.mpr ⟨action, List.forall_mem_cons.mpr ⟨type, copied⟩⟩
      split
      case isTrue write =>
        have type : Access.Inside buffer.size ⟨4, 4⟩ := word_inside.mpr (fits.type write.le)
        split
        case isTrue extCsd =>
          obtain ⟨header, value⟩ := fits.written write extCsd.1
          have address : Access.Inside buffer.size ⟨8, 4⟩ := word_inside.mpr header
          split
          · refine List.forall_mem_cons.mpr ⟨action, List.forall_mem_cons.mpr ⟨type, ?_⟩⟩
            exact List.forall_mem_singleton.mpr address
          case isFalse low =>
            have written : Access.Inside buffer.size ⟨24, 1⟩ := Or.inr (value (Nat.not_le.mp low))
            refine List.forall_mem_cons.mpr ⟨action, List.forall_mem_cons.mpr ⟨type, ?_⟩⟩
            exact List.forall_mem_cons.mpr ⟨address, List.forall_mem_singleton.mpr written⟩
        · exact List.forall_mem_cons.mpr ⟨action, List.forall_mem_singleton.mpr type⟩
      · exact List.forall_mem_singleton.mpr action

theorem cardRegister_stays_iff : Stays .cardRegister buffer ↔ Fits .cardRegister buffer := by
  constructor
  · intro stays
    apply cardRegister_fits
    intro dtype
    obtain ⟨rounds, done, returned, inside⟩ := stays (Env.fine dtype)
    obtain rfl := Option.some.inj returned
    exact inside
  · intro fits env
    exact ⟨0, _, rfl, cardRegister_inside fits env⟩

end Handlers

/-- A handler returns and stays in the data exactly where the request fits in it. -/
theorem stays_iff (devctl : Devctl) (buffer : Buffer) :
    Stays devctl buffer ↔ Fits devctl buffer := by
  cases devctl with
  | genCmd => exact gencmd_stays_iff
  | manCmd => exact mancmd_stays_iff
  | cardRegister => exact cardRegister_stays_iff
  | assdApdu => exact assdApdu_stays_iff

/-- A header alone, for a block of 512 bytes. -/
def bareHeader : Buffer where
  size := 8
  mem := fun place => if place = 7 then 2 else 0
  size_lt := by decide

/-- The block of the command lies behind the data. -/
theorem bareHeader_leaves : ¬ Stays .genCmd bareHeader := by
  intro stays
  obtain ⟨rounds, done, returned, inside⟩ := stays (Env.fine 0)
  cases rounds with
  | zero => cases returned
  | succ rounds =>
      have first : sdmmcDevctl .genCmd bareHeader (Env.fine 0) (rounds + 1) =
          some ⟨EOK, [⟨0, 8⟩, ⟨8, 512⟩]⟩ := rfl
      rw [first] at returned
      obtain rfl := Option.some.inj returned
      have block : Access.Inside 8 ⟨8, 512⟩ :=
        inside _ (List.mem_cons_of_mem _ (List.mem_singleton.mpr rfl))
      rcases block with empty | within
      · exact absurd empty (by decide)
      · exact absurd within (by decide)

end Bcm2711.Sdmmc.Devctls
