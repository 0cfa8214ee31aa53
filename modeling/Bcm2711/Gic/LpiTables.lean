import Bcm2711.Gic.IntrRanges

/-! # Tables of the LPIs

`gic_v3_initialize` sizes the LPI configuration table and the ID bits of `PROPBASER` by the number
of vectors in the LPI entries, and `gic_v3_gicc_init` the pending table of each CPU.  They are used
by the number of a vector, which is the same only when the entries leave no gaps.
-/

namespace Bcm2711.Gic

open Blocks Runs

/-- `gic_tbl_params_t`. -/
structure GicTblParams where
  shareability : BitVec 2
  inner : BitVec 3
  outer : BitVec 3

/-- The parameters of the configuration table, and what the initialisation meets: the address that
`alloc_ram` returns, if the shareability bits of `PROPBASER` are settable, and if
`gic_v3_its_initialize` gets through its assertions. -/
structure LpiSetup where
  paddr : BitVec 64
  mem : GicTblParams
  settable : Bool
  itsInitialized : Bool

/-- `NULL_PADDR`. -/
def NULL_PADDR : BitVec 64 := BitVec.allOnes 64

/-- The attributes of the configuration table, when the shareability is not settable. -/
def LpiSetup.attributes (setup : LpiSetup) : GicTblParams :=
  if setup.settable then setup.mem else ⟨0, 1, 0⟩

/-- The loop that looks for the number of ID bits. -/
def idBits (limit bits : Nat) : Nat :=
  if 2 ^ bits < limit then idBits limit (bits + 1) else bits
termination_by limit - 2 ^ bits
decreasing_by
  have grows : 2 ^ bits < 2 ^ (bits + 1) := Nat.pow_lt_pow_right (by decide) (Nat.lt_succ_self bits)
  omega

/-- The value of `PROPBASER`. -/
def propbaser (setup : LpiSetup) (numLpis : BitVec 32) : BitVec 64 :=
  setup.paddr ||| setup.attributes.inner.setWidth 64 <<< 7 |||
    setup.attributes.outer.setWidth 64 <<< 56 |||
    setup.attributes.shareability.setWidth 64 <<< 10 |||
    BitVec.ofNat 64 (idBits (numLpis + ARM_GIC_LPI_MIN_IRQ).toNat 14 - 1)

/-- What is set up for LPIs: the size of the configuration table, `PROPBASER`, and the `vec_off` of
each entry. -/
structure LpiTables where
  cfgSize : Nat
  propbaser : BitVec 64
  vecOffs : List (BitVec 32)

/-- The assertions of the initialisation. -/
inductive InitAssertion where
  | total | address | its | direct
deriving DecidableEq, Repr

/-- What is set up for a number of LPIs. -/
def lpiTables (setup : LpiSetup) (state : State) : LpiTables where
  cfgSize := state.numLpis.toNat
  propbaser := propbaser setup state.numLpis
  vecOffs := state.lpi.map fun ptr => (state.mem ptr).vectorBase - ARM_GIC_LPI_MIN_IRQ

/-- The part of `gic_v3_initialize` for LPIs. -/
def Hw.lpiInitialize (hw : Hw) (setup : LpiSetup) (state : State) :
    Except InitAssertion (Option LpiTables) :=
  if state.numLpis = 0 then .ok none
  else if ¬ state.numLpis ≤ hw.numLpis then .error .total
  else if setup.paddr = NULL_PADDR then .error .address
  else if setup.paddr &&& 0xFFFFFFFFFF000 ≠ setup.paddr then .error .address
  else if hw.lpiUsesIts ∧ ¬ setup.itsInitialized then .error .its
  else if ¬ hw.lpiUsesIts ∧ state.lpi ≠ [] then .error .direct
  else .ok (some (lpiTables setup state))

/-- The size of the pending table that `gic_v3_gicc_init` allocates for a CPU. -/
def pendTblSize (numLpis : BitVec 32) : Nat :=
  Word.round 64 ((ARM_GIC_LPI_MIN_IRQ + numLpis) / 8).toNat 1024

/-! ## The mask and unmask callouts -/

/-- `mov x7, #1234`. -/
def movX7 : BitVec 32 := 0xD2809A47

/-- `CALLOUT_PATCH_RW`. -/
def calloutPatchRw (opcode off : BitVec 32) : BitVec 32 :=
  opcode &&& ~~~(0xffff#32 <<< 5) ||| off <<< 5

/-- What an instruction moves to `x7`, if it is a `movz`. -/
def movedToX7 (opcode : BitVec 32) : Option (BitVec 64) :=
  if opcode >>> 23 = 0x1A5 ∧ opcode &&& 0x1f = 7 then
    some ((opcode >>> 5 &&& 0xffff).setWidth 64 <<< (16 * (opcode >>> 21 &&& 3).toNat))
  else none

/-- The index in the configuration table that the patched callouts use for a vector of an entry. -/
def cfgIndex (vecOff : BitVec 32) (relative : BitVec 64) : Option (BitVec 64) :=
  (movedToX7 (calloutPatchRw movX7 vecOff)).map fun offset => relative + offset

/-! ## Coverage -/

/-- A vector of an entry. -/
def StartupIntrinfo.vector (entry : StartupIntrinfo) (relative : Nat) : Nat :=
  (entry.vectorBase.toNat + relative) % 2 ^ 32

/-- The tables have room for a vector of an entry. -/
structure Covered (numLpis : BitVec 32) (tables : LpiTables) (place : Nat) (vector relative : Nat) :
    Prop where
  configured : ∃ vecOff index, tables.vecOffs[place]? = some vecOff ∧
    cfgIndex vecOff (BitVec.ofNat 64 relative) = some index ∧
    index.toNat + ARM_GIC_LPI_MIN_IRQ.toNat = vector ∧ index.toNat < tables.cfgSize
  pending : vector / 8 < pendTblSize numLpis
  identified : vector < 2 ^ (tables.propbaser.toNat % 32 + 1)

/-- The tables have room for every vector of every entry. -/
def Covers (state : State) (tables : Option LpiTables) : Prop :=
  ∀ place ptr, state.lpi[place]? = some ptr → ∀ relative < (state.mem ptr).numVectors.toNat,
    ∃ present, tables = some present ∧
      Covered state.numLpis present place ((state.mem ptr).vector relative) relative

/-- The LPI entries with vectors. -/
def State.held (state : State) : List Block :=
  (state.blocks .lpi).filter fun block => 0 < block.size

/-- The LPI entries fill the vectors from the first LPI on, with no gap and none past the last
vector, start near enough for an immediate, and their number leaves no rest below a byte of pending
bits behind a full kilobyte of them. -/
structure Gapless (state : State) : Prop where
  fits : ∀ block ∈ state.held, block.start + block.size ≤ 2 ^ 32
  laid : Laid ARM_GIC_LPI_MIN_IRQ.toNat state.held
  near : ∀ block ∈ state.held, block.start < ARM_GIC_LPI_MIN_IRQ.toNat + 2 ^ 16
  rest : state.numLpis.toNat % 2 ^ 13 = 0 ∨ 8 ≤ state.numLpis.toNat % 2 ^ 13

variable {hw : Hw} {setup : LpiSetup} {state after : State} {tables : Option LpiTables}

/-! ## The patched instruction -/

theorem patched_toNat {off : BitVec 32} (small : off.toNat < 2 ^ 16) :
    (calloutPatchRw movX7 off).toNat = 0xD2800007 + 32 * off.toNat := by
  have kept : movX7 &&& ~~~(0xffff#32 <<< 5) = 0xD2800007#32 := by decide
  have shifted : (off <<< 5).toNat = 32 * off.toNat := by
    rw [BitVec.toNat_shiftLeft, Nat.shiftLeft_eq, Nat.mod_eq_of_lt (by omega)]
    omega
  have clear : ∀ bit, 5 ≤ bit → bit < 21 → (0xD2800007 : Nat).testBit bit = false := by decide
  have apart : 0xD2800007 &&& 32 * off.toNat = 0 := by
    apply Nat.eq_of_testBit_eq
    intro bit
    rw [Nat.testBit_and, Nat.zero_testBit, Nat.testBit_two_pow_mul (i := 5)]
    by_cases low : 5 ≤ bit
    · by_cases high : bit < 21
      · rw [clear bit low high, Bool.false_and]
      · have outside : off.toNat.testBit (bit - 5) = false :=
          Nat.testBit_lt_two_pow (small.trans_le (Nat.pow_le_pow_right (by decide) (by omega)))
        rw [outside, Bool.and_false, Bool.and_false]
    · simp [low]
  rw [calloutPatchRw, kept, BitVec.toNat_or, shifted]
  exact Word.or_eq_add apart

/-- An offset that fits the immediate is moved to the register. -/
theorem moved_of_small {off : BitVec 32} (small : off.toNat < 2 ^ 16) :
    movedToX7 (calloutPatchRw movX7 off) = some (off.setWidth 64) := by
  have patched := patched_toNat small
  generalize calloutPatchRw movX7 off = word at patched
  have opcode : word >>> 23 = 0x1A5 := by
    apply BitVec.eq_of_toNat_eq
    rw [BitVec.toNat_ushiftRight, Nat.shiftRight_eq_div_pow, patched]
    change _ = 0x1A5
    omega
  have register : word &&& 0x1f = 7 := by
    apply BitVec.eq_of_toNat_eq
    rw [BitVec.toNat_and, patched]
    refine (Nat.and_two_pow_sub_one_eq_mod _ 5).trans ?_
    change _ = 7
    omega
  have immediate : word >>> 5 &&& 0xffff = off := by
    apply BitVec.eq_of_toNat_eq
    rw [BitVec.toNat_and, BitVec.toNat_ushiftRight, Nat.shiftRight_eq_div_pow, patched]
    refine (Nat.and_two_pow_sub_one_eq_mod _ 16).trans ?_
    omega
  have unshifted : (word >>> 21 &&& 3).toNat = 0 := by
    rw [BitVec.toNat_and, BitVec.toNat_ushiftRight, Nat.shiftRight_eq_div_pow, patched]
    refine (Nat.and_two_pow_sub_one_eq_mod _ 2).trans ?_
    omega
  rw [movedToX7, if_pos ⟨opcode, register⟩, immediate, unshifted, Nat.mul_zero,
    BitVec.shiftLeft_zero]

theorem immediate_eq (off : BitVec 32) :
    calloutPatchRw movX7 off >>> 5 &&& 0xffff = off &&& 0xffff := by
  have kept : movX7 &&& ~~~(0xffff#32 <<< 5) = 0xD2800007#32 := by decide
  have clear : ∀ bit < 16, (0xD2800007#32).getLsbD (5 + bit) = false := by decide
  have mask : ∀ bit, 16 ≤ bit → (0xffff#32).getLsbD bit = false := by
    intro bit high
    exact Nat.testBit_lt_two_pow ((show 0xffff < 2 ^ 16 by decide).trans_le
      (Nat.pow_le_pow_right (by decide) high))
  rw [calloutPatchRw, kept]
  apply BitVec.eq_of_getLsbD_eq
  intro bit inside
  rw [BitVec.getLsbD_and, BitVec.getLsbD_and, BitVec.getLsbD_ushiftRight, BitVec.getLsbD_or,
    BitVec.getLsbD_shiftLeft]
  by_cases low : bit < 16
  · have within : 5 + bit < 32 := by omega
    have behind : ¬ 5 + bit < 5 := by omega
    rw [clear bit low]
    simp [within, behind]
  · change (_ && (0xffff#32).getLsbD bit) = (_ && (0xffff#32).getLsbD bit)
    rw [mask bit (Nat.le_of_not_lt low), Bool.and_false, Bool.and_false]

/-- An offset that the patched instruction moves to the register fits the immediate. -/
theorem small_of_moved {off : BitVec 32}
    (moved : movedToX7 (calloutPatchRw movX7 off) = some (off.setWidth 64)) :
    off.toNat < 2 ^ 16 := by
  unfold movedToX7 at moved
  rw [immediate_eq] at moved
  have shiftSmall : (calloutPatchRw movX7 off >>> 21 &&& 3).toNat < 4 := by
    rw [BitVec.toNat_and]
    exact (Nat.and_two_pow_sub_one_eq_mod _ 2).trans_lt (Nat.mod_lt _ (by decide))
  generalize (calloutPatchRw movX7 off >>> 21 &&& 3).toNat = shift at moved shiftSmall
  split at moved
  · have low : (off &&& 0xffff).toNat = off.toNat % 2 ^ 16 := by
      rw [BitVec.toNat_and]
      exact Nat.and_two_pow_sub_one_eq_mod _ 16
    have value := congrArg BitVec.toNat (Option.some.inj moved)
    rw [BitVec.toNat_shiftLeft, BitVec.toNat_setWidth, BitVec.toNat_setWidth, low,
      Nat.shiftLeft_eq] at value
    have fits := off.isLt
    -- a shifted immediate has no low bits, and those of the offset are the immediate
    interval_cases shift <;> omega
  · cases moved

/-- The index that the callouts use is the one of the vector exactly for such offsets. -/
theorem cfgIndex_eq_iff {off : BitVec 32} {relative : BitVec 64} :
    cfgIndex off relative = some (relative + off.setWidth 64) ↔ off.toNat < 2 ^ 16 := by
  constructor
  · intro indexed
    obtain ⟨value, moved, sum⟩ := Option.map_eq_some_iff.mp indexed
    have same : value = off.setWidth 64 := add_left_cancel sum
    exact small_of_moved (moved.trans (congrArg some same))
  · intro small
    rw [cfgIndex, moved_of_small small, Option.map_some]

/-! ## ID bits and pending bits -/

theorem le_idBits (limit bits : Nat) : bits ≤ idBits limit bits := by
  induction bits using idBits.induct limit with
  | case1 bits more ih =>
      rw [idBits, if_pos more]
      exact (Nat.le_succ bits).trans ih
  | case2 bits enough => rw [idBits, if_neg enough]

theorem le_two_pow_idBits (limit bits : Nat) : limit ≤ 2 ^ idBits limit bits := by
  induction bits using idBits.induct limit with
  | case1 bits more ih =>
      rw [idBits, if_pos more]
      exact ih
  | case2 bits enough =>
      rw [idBits, if_neg enough]
      exact Nat.le_of_not_lt enough

theorem idBits_le {limit bits top : Nat} (start : bits ≤ top) (enough : limit ≤ 2 ^ top) :
    idBits limit bits ≤ top := by
  induction bits using idBits.induct limit with
  | case1 bits more ih =>
      rw [idBits, if_pos more]
      exact ih ((Nat.pow_lt_pow_iff_right (by decide)).mp (more.trans_le enough))
  | case2 bits enough =>
      rw [idBits, if_neg enough]
      exact start

/-- The ID bits stand in the low five bits of `PROPBASER`. -/
theorem propbaser_idBits {numLpis : BitVec 32}
    (aligned : setup.paddr &&& 0xFFFFFFFFFF000 = setup.paddr)
    (small : idBits (numLpis + ARM_GIC_LPI_MIN_IRQ).toNat 14 ≤ 32) :
    (propbaser setup numLpis).toNat % 32 + 1 = idBits (numLpis + ARM_GIC_LPI_MIN_IRQ).toNat 14 := by
  have least := le_idBits (numLpis + ARM_GIC_LPI_MIN_IRQ).toNat 14
  have base : setup.paddr.toNat % 2 ^ 5 = 0 := by
    rw [← aligned, BitVec.toNat_and, Nat.and_mod_two_pow]
    exact Nat.and_zero _
  have shifted : ∀ (value : BitVec 64) (amount : Nat), 5 ≤ amount →
      (value <<< amount).toNat % 2 ^ 5 = 0 := by
    intro value amount above
    rw [BitVec.toNat_shiftLeft, Nat.mod_mod_of_dvd _ (pow_dvd_pow 2 (by decide)), Nat.shiftLeft_eq]
    exact Nat.mod_eq_zero_of_dvd (Dvd.dvd.mul_left (pow_dvd_pow 2 above) _)
  unfold propbaser
  generalize idBits (numLpis + ARM_GIC_LPI_MIN_IRQ).toNat 14 = bits at *
  change _ % 2 ^ 5 + 1 = _
  rw [BitVec.toNat_or, BitVec.toNat_or, BitVec.toNat_or, BitVec.toNat_or, Nat.or_mod_two_pow,
    Nat.or_mod_two_pow, Nat.or_mod_two_pow, Nat.or_mod_two_pow, base, shifted _ _ (by decide),
    shifted _ _ (by decide), shifted _ _ (by decide), BitVec.toNat_ofNat]
  simp only [Nat.zero_or, Nat.or_self]
  omega

theorem round_kilobyte {word : Nat} (fits : word + 1023 < 2 ^ 64) :
    Word.round 64 word 1024 = (word + 1023) / 1024 * 1024 := by
  have rounded : Word.round 64 word (2 ^ 10) = (word + (2 ^ 10 - 1)) / 2 ^ 10 * 2 ^ 10 :=
    Word.round_two_pow (by decide) (by omega)
  norm_num at rounded
  exact rounded

theorem pendTblSize_eq {numLpis : BitVec 32} (fits : 8192 + numLpis.toNat < 2 ^ 32) :
    pendTblSize numLpis = ((8192 + numLpis.toNat) / 8 + 1023) / 1024 * 1024 := by
  have count : (ARM_GIC_LPI_MIN_IRQ + numLpis).toNat = 8192 + numLpis.toNat := by
    rw [BitVec.toNat_add]
    exact Nat.mod_eq_of_lt fits
  have bytes : ((ARM_GIC_LPI_MIN_IRQ + numLpis) / 8).toNat = (8192 + numLpis.toNat) / 8 := by
    rw [BitVec.toNat_udiv, count]
    rfl
  rw [pendTblSize, bytes, round_kilobyte (by omega)]

/-- The count that wraps leaves less than a kilobyte of pending bits. -/
theorem pendTblSize_of_wrap {numLpis : BitVec 32} (wraps : 2 ^ 32 ≤ 8192 + numLpis.toNat) :
    pendTblSize numLpis ≤ 1024 := by
  have count : (ARM_GIC_LPI_MIN_IRQ + numLpis).toNat = 8192 + numLpis.toNat - 2 ^ 32 := by
    have fits := numLpis.isLt
    rw [BitVec.toNat_add]
    change (8192 + numLpis.toNat) % 2 ^ 32 = _
    rw [Nat.mod_eq_sub_mod wraps, Nat.mod_eq_of_lt (by omega)]
  have bytes : ((ARM_GIC_LPI_MIN_IRQ + numLpis) / 8).toNat < 1024 := by
    have fits := numLpis.isLt
    rw [BitVec.toNat_udiv, count]
    change _ / 8 < 1024
    omega
  rw [pendTblSize, round_kilobyte (by omega)]
  omega

/-- The pending bit of the last vector is inside the table, unless its byte is not counted and
starts a new kilobyte. -/
theorem last_pending_iff {numLpis : BitVec 32} (positive : 0 < numLpis.toNat)
    (fits : 8192 + numLpis.toNat < 2 ^ 32) :
    (8192 + numLpis.toNat - 1) / 8 < pendTblSize numLpis ↔
      numLpis.toNat % 2 ^ 13 = 0 ∨ 8 ≤ numLpis.toNat % 2 ^ 13 := by
  rw [pendTblSize_eq fits]
  omega

/-! ## What runs keep of the LPI entries -/

/-- The last vector of an entry, in machine words. -/
def lastWord (block : Block) : Nat := (block.start + block.size + (2 ^ 32 - 1)) % 2 ^ 32

theorem lastWord_block (entry : StartupIntrinfo) : lastWord entry.block = entry.last.toNat := by
  unfold lastWord StartupIntrinfo.block StartupIntrinfo.last
  bv_omega

/-- What every run keeps of the LPI entries, also of ones without vectors and ones that wrap. -/
structure LpiKept (hw : Hw) (state : State) : Prop where
  lower : ∀ block ∈ state.blocks .lpi, 8192 ≤ block.start
  limit : ∀ block ∈ state.blocks .lpi,
    lastWord block < (hw.numLpis + ARM_GIC_LPI_MIN_IRQ).toNat
  behind : (state.blocks .lpi).Pairwise fun one other => lastWord one < other.start
  summed : state.numLpis.toNat = total (state.blocks .lpi) % 2 ^ 32
  most : state.numLpis ≤ hw.numLpis

/-- An entry is filled while no table has it. -/
def Fillable (_ : List (Event Call Int)) (state : State) : Call → Prop
  | .fill ptr _ => ptr ∉ state.spi ∧ ptr ∉ state.espi ∧ ptr ∉ state.lpi
  | .add _ _ => True

theorem lpiKept_start (hw : Hw) (mem : Ptr → StartupIntrinfo) :
    LpiKept hw (State.start mem) where
  lower := fun _ member => absurd member List.not_mem_nil
  limit := fun _ member => absurd member List.not_mem_nil
  behind := List.Pairwise.nil
  summed := rfl
  most := BitVec.le_def.mpr (Nat.zero_le _)

theorem LpiKept.of_same (kept : LpiKept hw state)
    (blocks : after.blocks .lpi = state.blocks .lpi) (numLpis : after.numLpis = state.numLpis) :
    LpiKept hw after where
  lower := by rw [blocks]; exact kept.lower
  limit := by rw [blocks]; exact kept.limit
  behind := by rw [blocks]; exact kept.behind
  summed := by rw [blocks, numLpis]; exact kept.summed
  most := by rw [numLpis]; exact kept.most

theorem LpiKept.take {ptr : Ptr} (kept : LpiKept hw state) (takes : Takes hw .lpi state ptr after) :
    LpiKept hw after := by
  have blocks : after.blocks .lpi = state.blocks .lpi ++ [(state.mem ptr).block] :=
    takes.blocks .lpi
  have last := lastWord_block (state.mem ptr)
  obtain ⟨inRange, most⟩ := takes.limit rfl
  refine ⟨?_, ?_, ?_, ?_, most⟩
  · rw [blocks]
    intro block member
    rcases List.mem_append.mp member with old | new
    · exact kept.lower block old
    · rw [List.mem_singleton.mp new]
      exact takes.lower
  · rw [blocks]
    intro block member
    rcases List.mem_append.mp member with old | new
    · exact kept.limit block old
    · rw [List.mem_singleton.mp new, last]
      exact inRange
  · rw [blocks, List.pairwise_append]
    refine ⟨kept.behind, List.pairwise_singleton _ _, ?_⟩
    intro one member other new
    obtain ⟨cur, inTable, rfl⟩ := List.mem_map.mp member
    rw [List.mem_singleton.mp new, lastWord_block]
    exact takes.behind cur inTable
  · rw [blocks, total_append, takes.numLpis, if_pos rfl, BitVec.toNat_add, kept.summed,
      Nat.mod_add_mod]
    rfl

theorem lpiKept_of_run {mem : Ptr → StartupIntrinfo} {history : List (Event Call Int)}
    (ran : Run hw.step Fillable (State.start mem) history state) : LpiKept hw state := by
  refine @Run.invariant _ _ _ _ _ _ _ (fun _ state => LpiKept hw state) (lpiKept_start hw mem)
    ?_ _ _ ran
  intro history state call after returned kept isAllowed stepped
  cases call with
  | fill ptr entry =>
      cases stepped
      exact kept.of_same (blocks_fill entry isAllowed.2.2) rfl
  | add kind ptr =>
      rcases step_answers stepped with ⟨_, rfl⟩ | ⟨_, takes⟩
      · exact kept
      · by_cases lpi : kind = .lpi
        · subst lpi
          exact kept.take takes
        · have numLpis := takes.numLpis
          have blocks := takes.blocks .lpi
          rw [if_neg lpi] at numLpis
          rw [if_neg lpi, List.append_nil] at blocks
          exact kept.of_same blocks numLpis

/-! ## Entries that do not wrap -/

theorem State.mem_held {block : Block} :
    block ∈ state.held ↔ block ∈ state.blocks .lpi ∧ 0 < block.size := by
  simp [State.held]

/-- An entry with vectors has a place in the table. -/
theorem place_of_held {block : Block} (held : block ∈ state.held) :
    ∃ (place : Nat) (ptr : Ptr), state.lpi[place]? = some ptr ∧ block = (state.mem ptr).block ∧
      0 < (state.mem ptr).numVectors.toNat := by
  obtain ⟨member, nonempty⟩ := State.mem_held.mp held
  obtain ⟨ptr, inTable, rfl⟩ := List.mem_map.mp member
  obtain ⟨place, found⟩ := List.mem_iff_getElem?.mp inTable
  exact ⟨place, ptr, found, rfl, nonempty⟩

theorem held_of_place {place : Nat} {ptr : Ptr} (found : state.lpi[place]? = some ptr)
    (nonempty : 0 < (state.mem ptr).numVectors.toNat) : (state.mem ptr).block ∈ state.held :=
  State.mem_held.mpr ⟨List.mem_map.mpr ⟨ptr, List.mem_of_getElem? found, rfl⟩, nonempty⟩

theorem lastWord_of_fits {block : Block} (nonempty : 0 < block.size)
    (fits : block.start + block.size ≤ 2 ^ 32) : lastWord block + 1 = block.start + block.size := by
  unfold lastWord
  omega

/-- Entries that do not wrap are in order. -/
theorem LpiKept.inOrder (kept : LpiKept hw state)
    (fits : ∀ block ∈ state.held, block.start + block.size ≤ 2 ^ 32) : InOrder state.held := by
  refine (kept.behind.filter _).imp_of_mem ?_
  intro one other member _ before
  have last := lastWord_of_fits (State.mem_held.mp member).2 (fits one member)
  omega

/-- The count of vectors does not wrap when no entry does. -/
theorem LpiKept.count (kept : LpiKept hw state)
    (fits : ∀ block ∈ state.held, block.start + block.size ≤ 2 ^ 32) :
    state.numLpis.toNat = total state.held := by
  have room : 8192 + total state.held ≤ 2 ^ 32 := by
    apply (kept.inOrder fits).total_le (by decide)
    intro block member
    exact ⟨kept.lower block (State.mem_held.mp member).1, fits block member⟩
  have same : total state.held = total (state.blocks .lpi) := total_filter_pos _
  rw [kept.summed, ← same]
  exact Nat.mod_eq_of_lt (by omega)

/-- The hardware's limit leaves the ID of the first LPI to be added to the count. -/
theorem LpiKept.room (kept : LpiKept hw state) {block : Block} (held : block ∈ state.held)
    (fits : block.start + block.size ≤ 2 ^ 32) : 8192 + state.numLpis.toNat < 2 ^ 32 := by
  obtain ⟨member, nonempty⟩ := State.mem_held.mp held
  have last := lastWord_of_fits nonempty fits
  have lower := kept.lower block member
  have limit := kept.limit block member
  have most := BitVec.le_def.mp kept.most
  have bound := hw.numLpis.isLt
  rw [BitVec.toNat_add] at limit
  change _ < (hw.numLpis.toNat + 8192) % 2 ^ 32 at limit
  by_contra wraps
  rw [Nat.mod_eq_sub_mod (by omega), Nat.mod_eq_of_lt (by omega)] at limit
  omega

/-! ## What the initialisation sets up -/

theorem lpiInitialize_cases (initialized : hw.lpiInitialize setup state = .ok tables) :
    state.numLpis = 0 ∧ tables = none ∨
      setup.paddr &&& 0xFFFFFFFFFF000 = setup.paddr ∧ tables = some (lpiTables setup state) := by
  unfold Hw.lpiInitialize at initialized
  split_ifs at initialized with none _ _ aligned
  · cases initialized
    exact .inl ⟨none, rfl⟩
  · cases initialized
    exact .inr ⟨not_not.mp aligned, rfl⟩

/-- The configuration byte of a vector is found inside the table when the entry starts near enough
and the vector is counted. -/
theorem configured_iff {base : BitVec 32} {relative size : Nat} (lower : 8192 ≤ base.toNat)
    (fits : base.toNat + relative < 2 ^ 32) :
    (∃ vecOff index, some (base - ARM_GIC_LPI_MIN_IRQ) = some vecOff ∧
      cfgIndex vecOff (BitVec.ofNat 64 relative) = some index ∧
      index.toNat + ARM_GIC_LPI_MIN_IRQ.toNat = base.toNat + relative ∧ index.toNat < size) ↔
    base.toNat < ARM_GIC_LPI_MIN_IRQ.toNat + 2 ^ 16 ∧ base.toNat + relative < 8192 + size := by
  have first : ARM_GIC_LPI_MIN_IRQ.toNat = 8192 := rfl
  have off : (base - ARM_GIC_LPI_MIN_IRQ).toNat = base.toNat - 8192 := by bv_omega
  have sum : (BitVec.ofNat 64 relative + (base - ARM_GIC_LPI_MIN_IRQ).setWidth 64).toNat =
      relative + (base.toNat - 8192) := by
    rw [BitVec.toNat_add, BitVec.toNat_setWidth, BitVec.toNat_ofNat, off]
    omega
  constructor
  · rintro ⟨vecOff, index, same, indexed, value, inside⟩
    cases same
    have exact : index = BitVec.ofNat 64 relative + (base - ARM_GIC_LPI_MIN_IRQ).setWidth 64 := by
      apply BitVec.eq_of_toNat_eq
      omega
    have small := cfgIndex_eq_iff.mp (indexed.trans (congrArg some exact))
    omega
  · rintro ⟨near, inside⟩
    refine ⟨_, _, rfl, cfgIndex_eq_iff.mpr (by omega), ?_, ?_⟩ <;> omega

theorem StartupIntrinfo.vector_eq {entry : StartupIntrinfo} {relative : Nat}
    (fits : entry.vectorBase.toNat + relative < 2 ^ 32) :
    entry.vector relative = entry.vectorBase.toNat + relative :=
  Nat.mod_eq_of_lt fits

theorem covered_iff {place relative : Nat} {ptr : Ptr} (found : state.lpi[place]? = some ptr)
    (lower : 8192 ≤ (state.mem ptr).vectorBase.toNat)
    (fits : (state.mem ptr).vectorBase.toNat + relative < 2 ^ 32) :
    Covered state.numLpis (lpiTables setup state) place ((state.mem ptr).vector relative)
        relative ↔
      ((state.mem ptr).vectorBase.toNat < ARM_GIC_LPI_MIN_IRQ.toNat + 2 ^ 16 ∧
        (state.mem ptr).vectorBase.toNat + relative < 8192 + state.numLpis.toNat) ∧
      ((state.mem ptr).vectorBase.toNat + relative) / 8 < pendTblSize state.numLpis ∧
      (state.mem ptr).vectorBase.toNat + relative <
        2 ^ ((propbaser setup state.numLpis).toNat % 32 + 1) := by
  have patched : (lpiTables setup state).vecOffs[place]? =
      some ((state.mem ptr).vectorBase - ARM_GIC_LPI_MIN_IRQ) := by
    rw [lpiTables, List.getElem?_map, found, Option.map_some]
  rw [StartupIntrinfo.vector_eq fits, ← configured_iff lower fits, ← patched]
  constructor
  · intro covered
    exact ⟨covered.configured, covered.pending, covered.identified⟩
  · rintro ⟨configured, pending, identified⟩
    exact ⟨configured, pending, identified⟩

/-! ## When the tables cover the entries -/

/-- A vector of an entry that has a place in the tables. -/
theorem Covers.at (covers : Covers state tables)
    (initialized : hw.lpiInitialize setup state = .ok tables) {place : Nat} {ptr : Ptr}
    (found : state.lpi[place]? = some ptr) (relative : Nat)
    (inside : relative < (state.mem ptr).numVectors.toNat) :
    Covered state.numLpis (lpiTables setup state) place ((state.mem ptr).vector relative)
      relative := by
  obtain ⟨present, isPresent, covered⟩ := covers place ptr found relative inside
  rcases lpiInitialize_cases initialized with ⟨_, absent⟩ | ⟨_, same⟩
  · rw [absent] at isPresent
    cases isPresent
  · rw [same] at isPresent
    cases isPresent
    exact covered

/-- An entry that wraps has the last vector of all, which is never covered. -/
theorem Covers.fits (covers : Covers state tables) (kept : LpiKept hw state)
    (initialized : hw.lpiInitialize setup state = .ok tables) :
    ∀ block ∈ state.held, block.start + block.size ≤ 2 ^ 32 := by
  intro block held
  obtain ⟨place, ptr, found, rfl, nonempty⟩ := place_of_held held
  have lower := kept.lower _ (State.mem_held.mp held).1
  change 8192 ≤ (state.mem ptr).vectorBase.toNat at lower
  change (state.mem ptr).vectorBase.toNat + (state.mem ptr).numVectors.toNat ≤ 2 ^ 32
  by_contra wraps
  have bound := (state.mem ptr).vectorBase.isLt
  have covered := covers.at initialized found
    (2 ^ 32 - 1 - (state.mem ptr).vectorBase.toNat) (by omega)
  obtain ⟨⟨_, counted⟩, pending, _⟩ := (covered_iff found lower (by omega)).mp covered
  have table : pendTblSize state.numLpis ≤ 1024 := pendTblSize_of_wrap (by omega)
  omega

/-- Covered entries fill the vectors from the first LPI on. -/
theorem Covers.gapless (covers : Covers state tables) (kept : LpiKept hw state)
    (initialized : hw.lpiInitialize setup state = .ok tables) : Gapless state := by
  have fits := covers.fits kept initialized
  have ordered := kept.inOrder fits
  have count := kept.count fits
  have last : ∀ block ∈ state.held, block.start < ARM_GIC_LPI_MIN_IRQ.toNat + 2 ^ 16 ∧
      block.start + block.size ≤ 8192 + state.numLpis.toNat ∧
      (block.start + block.size - 1) / 8 < pendTblSize state.numLpis := by
    intro block held
    have whole := fits block held
    have lower := kept.lower _ (State.mem_held.mp held).1
    obtain ⟨place, ptr, found, rfl, nonempty⟩ := place_of_held held
    change 8192 ≤ (state.mem ptr).vectorBase.toNat at lower
    change (state.mem ptr).vectorBase.toNat + (state.mem ptr).numVectors.toNat ≤ 2 ^ 32 at whole
    change (state.mem ptr).vectorBase.toNat < _ ∧
      (state.mem ptr).vectorBase.toNat + (state.mem ptr).numVectors.toNat ≤ _ ∧
      ((state.mem ptr).vectorBase.toNat + (state.mem ptr).numVectors.toNat - 1) / 8 < _
    have covered := covers.at initialized found
      ((state.mem ptr).numVectors.toNat - 1) (by omega)
    obtain ⟨⟨near, counted⟩, pending, _⟩ := (covered_iff found lower (by omega)).mp covered
    have index : (state.mem ptr).vectorBase.toNat + (state.mem ptr).numVectors.toNat - 1 =
        (state.mem ptr).vectorBase.toNat + ((state.mem ptr).numVectors.toNat - 1) := by omega
    rw [index]
    exact ⟨near, by omega, pending⟩
  have laid : Laid ARM_GIC_LPI_MIN_IRQ.toNat state.held := by
    apply ordered.laid
    intro block held
    refine ⟨kept.lower block (State.mem_held.mp held).1, ?_⟩
    rw [← count]
    exact (last block held).2.1
  refine ⟨fits, laid, fun block held => (last block held).1, ?_⟩
  rcases List.eq_nil_or_concat' state.held with none | ⟨front, final, whole⟩
  · left
    rw [count, none]
    rfl
  · have member : final ∈ state.held := by
      rw [whole]
      exact List.mem_append_right _ List.mem_cons_self
    have ending : final.start + final.size = 8192 + state.numLpis.toNat := by
      rw [whole] at laid
      have start : final.start = 8192 + total front := (laid_append.mp laid).2.1
      rw [count, whole, total_append, start, Nat.add_assoc]
      rfl
    have nonempty := (State.mem_held.mp member).2
    have pending := (last final member).2.2
    rw [ending] at pending
    have room := kept.room member (fits final member)
    have positive : 0 < state.numLpis.toNat := by
      have lower := kept.lower final (State.mem_held.mp member).1
      omega
    exact (last_pending_iff positive room).mp pending

/-- Entries that fill the vectors from the first LPI on are covered. -/
theorem Gapless.covers (gapless : Gapless state) (kept : LpiKept hw state)
    (initialized : hw.lpiInitialize setup state = .ok tables) : Covers state tables := by
  have count := kept.count gapless.fits
  intro place ptr found relative inside
  have held := held_of_place found (by omega)
  have whole := gapless.fits _ held
  have lower := kept.lower _ (State.mem_held.mp held).1
  have near := gapless.near _ held
  have ends := (gapless.laid.inside held).2
  have room := kept.room held whole
  rw [← count] at ends
  change 8192 ≤ (state.mem ptr).vectorBase.toNat at lower
  change (state.mem ptr).vectorBase.toNat + (state.mem ptr).numVectors.toNat ≤ 2 ^ 32 at whole
  change (state.mem ptr).vectorBase.toNat < _ at near
  change (state.mem ptr).vectorBase.toNat + (state.mem ptr).numVectors.toNat ≤
    8192 + state.numLpis.toNat at ends
  have positive : 0 < state.numLpis.toNat := by omega
  rcases lpiInitialize_cases initialized with ⟨none, _⟩ | ⟨aligned, same⟩
  · rw [none] at positive
    exact absurd positive (lt_irrefl 0)
  · refine ⟨_, same, (covered_iff found lower (by omega)).mpr ⟨⟨near, by omega⟩, ?_, ?_⟩⟩
    · have last := (last_pending_iff positive room).mpr gapless.rest
      omega
    · have limit : (state.numLpis + ARM_GIC_LPI_MIN_IRQ).toNat = state.numLpis.toNat + 8192 := by
        rw [BitVec.toNat_add]
        change (_ + 8192) % 2 ^ 32 = _
        exact Nat.mod_eq_of_lt (by omega)
      have small : idBits (state.numLpis + ARM_GIC_LPI_MIN_IRQ).toNat 14 ≤ 32 :=
        idBits_le (by decide) (by omega)
      have bits := propbaser_idBits aligned small
      have enough := le_two_pow_idBits (state.numLpis + ARM_GIC_LPI_MIN_IRQ).toNat 14
      rw [bits]
      omega

/-- The tables cover the LPI entries exactly when these leave no gap. -/
theorem covers_iff {mem : Ptr → StartupIntrinfo} {history : List (Event Call Int)}
    (ran : Run hw.step Fillable (State.start mem) history state)
    (initialized : hw.lpiInitialize setup state = .ok tables) :
    Covers state tables ↔ Gapless state := by
  have kept := lpiKept_of_run ran
  constructor
  · intro covers
    exact covers.gapless kept initialized
  · intro gapless
    exact gapless.covers kept initialized

/-- A configuration table behind the first gigabyte. -/
def smallSetup : LpiSetup := ⟨0x40000000, ⟨0, 1, 1⟩, true, true⟩

instance (history : List (Event Call Int)) (state : State) (call : Call) :
    Decidable (Fillable history state call) :=
  match call with
  | .fill _ _ => inferInstanceAs (Decidable (_ ∧ _ ∧ _))
  | .add _ _ => inferInstanceAs (Decidable True)

/-- A run that adds one LPI entry. -/
theorem run_of_entry {vectorBase numVectors : BitVec 32}
    (made : (Run.execute smallHw.step Fillable [] (State.start fun _ => boardEntry 0 0)
      [.fill 0 (boardEntry vectorBase numVectors), .add .lpi 0]).map (fun final =>
        (final.2.blocks .lpi, final.2.lpi, (final.2.mem 0).vectorBase, final.2.numLpis)) =
      some ([⟨vectorBase.toNat, numVectors.toNat⟩], [0], vectorBase, numVectors)) :
    ∃ history state, Run smallHw.step Fillable (State.start fun _ => boardEntry 0 0) history state ∧
      state.blocks .lpi = [⟨vectorBase.toNat, numVectors.toNat⟩] ∧ state.lpi = [0] ∧
      (state.mem 0).vectorBase = vectorBase ∧ state.numLpis = numVectors := by
  obtain ⟨⟨history, state⟩, executed, same⟩ := Option.map_eq_some_iff.mp made
  obtain ⟨blocks, lpi, base, count⟩ := by simpa using same
  exact ⟨history, state, Run.of_execute .start executed, blocks, lpi, base, count⟩

theorem smallSetup_initialized {numLpis : BitVec 32} (count : state.numLpis = numLpis)
    (nonempty : numLpis ≠ 0) (most : numLpis ≤ smallHw.numLpis) :
    smallHw.lpiInitialize smallSetup state = .ok (some (lpiTables smallSetup state)) := by
  have usesIts : smallHw.lpiUsesIts = true := by decide
  rw [Hw.lpiInitialize, count, if_neg nonempty, if_neg (not_not.mpr most), if_neg (by decide),
    if_neg (by decide), if_neg (by decide), if_neg (fun direct => direct.1 usesIts)]

theorem covers_hundred : ∃ history state tables,
    Run smallHw.step Fillable (State.start fun _ => boardEntry 0 0) history state ∧
      state.blocks .lpi = [⟨8192, 100⟩] ∧
      smallHw.lpiInitialize smallSetup state = .ok tables ∧ Covers state tables := by
  obtain ⟨history, state, ran, blocks, lpi, _, count⟩ := @run_of_entry 8192 100 (by decide)
  have initialized := smallSetup_initialized count (by decide) (by decide)
  have held : state.held = [⟨8192, 100⟩] := by
    rw [State.held, blocks]
    rfl
  refine ⟨history, state, _, ran, blocks, initialized, (covers_iff ran initialized).mpr ?_⟩
  refine ⟨?_, ?_, ?_, ?_⟩
  · rw [held]
    decide
  · rw [held]
    exact ⟨rfl, trivial⟩
  · rw [held]
    decide
  · rw [count]
    decide

/-- With a gap in front of the only LPI entry its configuration bytes are behind the table. -/
theorem gap_not_covered : ∃ history state tables,
    Run smallHw.step Fillable (State.start fun _ => boardEntry 0 0) history state ∧
      state.blocks .lpi = [⟨8256, 64⟩] ∧
      smallHw.lpiInitialize smallSetup state = .ok tables ∧ ¬ Covers state tables := by
  obtain ⟨history, state, ran, blocks, lpi, base, count⟩ := @run_of_entry 8256 64 (by decide)
  have initialized := smallSetup_initialized count (by decide) (by decide)
  have start : (state.mem 0).vectorBase.toNat = 8256 := by rw [base]; rfl
  have number : (state.mem 0).numVectors.toNat = 64 := by
    have sizes : state.blocks .lpi = [(state.mem 0).block] := by
      unfold State.blocks
      change state.lpi.map _ = _
      rw [lpi]
      rfl
    rw [blocks] at sizes
    exact (congrArg Block.size (List.singleton_inj.mp sizes)).symm
  refine ⟨history, state, _, ran, blocks, initialized, ?_⟩
  intro covers
  have found : state.lpi[0]? = some 0 := by rw [lpi]; rfl
  have covered := covers.at initialized found 0 (by omega)
  obtain ⟨⟨_, counted⟩, _⟩ := (covered_iff found (by omega) (by omega)).mp covered
  rw [start, count] at counted
  exact absurd counted (by decide)

end Bcm2711.Gic
