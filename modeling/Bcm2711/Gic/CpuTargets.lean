import Bcm2711.Lib.Run
import Bcm2711.Lib.Word

/-! # Targets of interrupts between processors

`gic_v3_gicc_init` looks for the redistributor frame of the CPU it runs on and records what the
`sendipi` callouts use to reach that CPU.  The memory mapped callouts get the offset of the frame
that has the number of the CPU.
-/

namespace Bcm2711.Gic

open Runs

/-- `cpu_aff` of `MPIDR_EL1`. -/
def cpuAff (mpidr : BitVec 64) : BitVec 32 :=
  ((mpidr &&& 0xFFFFFF) ||| (mpidr >>> 8 &&& 0xFF000000)).setWidth 32

/-- The processors and the redistributor frames, with the parameters of the initialisation. -/
structure Machine where
  numCpu : Nat
  mpidr : Nat → BitVec 64
  /-- The affinity in `GICR_TYPER` of a frame. -/
  gicrAff : Nat → BitVec 32
  gicrIndexLimit : Nat
  gicrOffsetShiftVal : Nat
  /-- `gic_sendipi == &sendipi_gic_v3_mm`. -/
  memoryMapped : Bool
  distinct : ∀ cpu < numCpu, ∀ other < numCpu,
    cpuAff (mpidr cpu) = cpuAff (mpidr other) → cpu = other
  shift : gicrOffsetShiftVal = 17 ∨ gicrOffsetShiftVal = 18
  limit : gicrIndexLimit ≤ 2 ^ 32

/-- `aarch64_gicr_map` and `aarch64_gic_map`. -/
structure CpuMaps where
  gicrIdx : Nat → Nat
  gicCpu : Nat → BitVec 64

/-- The loop over the frames, with so many behind the one at the index. -/
def searchFrame (gicrAff : Nat → BitVec 32) (aff : BitVec 32) :
    (behind gicrIndex : Nat) → Option Nat
  | 0, gicrIndex => if aff = gicrAff gicrIndex then some gicrIndex else none
  | behind + 1, gicrIndex =>
      if aff = gicrAff gicrIndex then some gicrIndex
      else searchFrame gicrAff aff behind (gicrIndex + 1)

/-- The frame that the loop finds for a CPU, or the assertion fails. -/
def Machine.frameOf (machine : Machine) (cpu : Nat) : Option Nat :=
  searchFrame machine.gicrAff (cpuAff (machine.mpidr cpu)) (machine.gicrIndexLimit - 1) 0

/-- `gic_cpu[cpu]` for the memory mapped callouts. -/
def mappedTarget (gicrOffsetShiftVal cpu : Nat) : BitVec 64 :=
  ((1#32 <<< gicrOffsetShiftVal) * BitVec.ofNat 32 cpu + (1#32 <<< 16) + 0x200).setWidth 64

/-- `icc_sgi1r`. -/
def iccSgi1r (cpuAff : BitVec 64) : BitVec 64 :=
  let aff0 := cpuAff &&& 0xff
  let aff1 := cpuAff >>> 8 &&& 0xff
  let aff2 := cpuAff >>> 16 &&& 0xff
  let aff3 := cpuAff >>> 24 &&& 0xff
  let word := 1#64 <<< (aff0 &&& 0xf).toNat ||| aff1 <<< 16 ||| aff2 <<< 32 ||| aff3 <<< 48
  if aff0 > 0xf then word ||| (aff0 &&& 0xf0) <<< (44 - 4) else word

/-- No redistributor has the affinity of the CPU. -/
inductive GiccAssertion where
  | gicrIndex
deriving DecidableEq, Repr

/-- `gic_cpu[cpu]`. -/
def Machine.target (machine : Machine) (cpu : Nat) : BitVec 64 :=
  if machine.memoryMapped then mappedTarget machine.gicrOffsetShiftVal cpu
  else iccSgi1r ((cpuAff (machine.mpidr cpu)).setWidth 64)

/-- What `gic_v3_gicc_init` records for a CPU. -/
def Machine.giccInit (machine : Machine) (maps : CpuMaps) (cpu : Nat) :
    Except GiccAssertion (CpuMaps × Unit) :=
  match machine.frameOf cpu with
  | none => .error .gicrIndex
  | some gicrIndex =>
      .ok (⟨Function.update maps.gicrIdx cpu gicrIndex,
        Function.update maps.gicCpu cpu (machine.target cpu)⟩, ())

/-- The CPUs of the machine run it, in any order. -/
def Machine.MayRun (machine : Machine) (_ : List (Event Nat Unit)) (_ : CpuMaps) (cpu : Nat) :
    Prop :=
  cpu < machine.numCpu

/-- The CPUs that have run it. -/
def initialized (history : List (Event Nat Unit)) : List Nat := history.map Event.call

/-! ## Targets -/

/-- The word for `ICC_SGI1R_EL1` that reaches the processor of an affinity: a bit in the target
list and the range selector for the lowest level, and the higher levels. -/
def sgiTarget (aff : BitVec 32) : Nat :=
  2 ^ (aff.toNat % 16) + 2 ^ 16 * (aff.toNat / 2 ^ 8 % 2 ^ 8) +
    2 ^ 32 * (aff.toNat / 2 ^ 16 % 2 ^ 8) + 2 ^ 44 * (aff.toNat % 2 ^ 8 / 16) +
    2 ^ 48 * (aff.toNat / 2 ^ 24)

/-- The offset of the register of a frame that makes its interrupts pending. -/
def Machine.pendingOffset (machine : Machine) (gicrIndex : Nat) : Nat :=
  2 ^ machine.gicrOffsetShiftVal * gicrIndex + 0x10000 + 0x200

/-- What is recorded for a CPU reaches it. -/
structure Reaches (machine : Machine) (maps : CpuMaps) (cpu : Nat) : Prop where
  within : maps.gicrIdx cpu < max 1 machine.gicrIndexLimit
  frame : machine.gicrAff (maps.gicrIdx cpu) = cpuAff (machine.mpidr cpu)
  target : (maps.gicCpu cpu).toNat =
    if machine.memoryMapped then machine.pendingOffset (maps.gicrIdx cpu)
    else sgiTarget (cpuAff (machine.mpidr cpu))

/-- Every CPU that has run it is reached, and by a target of its own. -/
structure AllReached (machine : Machine) (maps : CpuMaps) (cpus : List Nat) : Prop where
  reaches : ∀ cpu ∈ cpus, Reaches machine maps cpu
  apart : ∀ cpu ∈ cpus, ∀ other ∈ cpus, cpu ≠ other →
    maps.gicrIdx cpu ≠ maps.gicrIdx other ∧ maps.gicCpu cpu ≠ maps.gicCpu other

/-- The first frame with the affinity of the CPU has the number of the CPU, up to where an offset
of 32 bits wraps. -/
def Machine.FrameOfCpu (machine : Machine) (cpu : Nat) : Prop :=
  let gicrIndex := cpu % 2 ^ (32 - machine.gicrOffsetShiftVal)
  machine.gicrAff gicrIndex = cpuAff (machine.mpidr cpu) ∧
    ∀ earlier < gicrIndex, machine.gicrAff earlier ≠ cpuAff (machine.mpidr cpu)

variable {machine : Machine} {maps after start : CpuMaps} {cpu : Nat}
  {history : List (Event Nat Unit)}

/-! ## The search -/

/-- The search ends at the first frame of the affinity, and there is one. -/
theorem searchFrame_spec {gicrAff : Nat → BitVec 32} {aff : BitVec 32}
    {behind gicrIndex found : Nat}
    (searched : searchFrame gicrAff aff behind gicrIndex = some found) :
    gicrIndex ≤ found ∧ found ≤ gicrIndex + behind ∧ gicrAff found = aff ∧
      ∀ earlier, gicrIndex ≤ earlier → earlier < found → gicrAff earlier ≠ aff := by
  induction behind generalizing gicrIndex with
  | zero =>
      rw [searchFrame] at searched
      split at searched
      · next here =>
          cases searched
          exact ⟨le_refl _, le_refl _, here.symm, fun _ low high => absurd high (by omega)⟩
      · cases searched
  | succ behind ih =>
      rw [searchFrame] at searched
      split at searched
      · next here =>
          cases searched
          exact ⟨le_refl _, by omega, here.symm, fun _ low high => absurd high (by omega)⟩
      · next other =>
          obtain ⟨low, high, same, first⟩ := ih searched
          refine ⟨by omega, by omega, same, ?_⟩
          intro earlier from_ below
          rcases Nat.eq_or_lt_of_le from_ with here | later
          · rw [← here]
            exact fun isHere => other isHere.symm
          · exact first earlier later below

/-! ## The words -/

theorem mappedTarget_toNat (machine : Machine) (cpu : Nat) :
    (mappedTarget machine.gicrOffsetShiftVal cpu).toNat =
      (2 ^ machine.gicrOffsetShiftVal * cpu + 0x10200) % 2 ^ 32 := by
  have page : (1#32 <<< machine.gicrOffsetShiftVal).toNat = 2 ^ machine.gicrOffsetShiftVal := by
    rcases machine.shift with shift | shift <;> rw [shift] <;> rfl
  have base : ((1#32 <<< 16) : BitVec 32).toNat = 0x10000 := rfl
  have register : (0x200 : BitVec 32).toNat = 0x200 := rfl
  rw [mappedTarget, BitVec.toNat_setWidth, BitVec.toNat_add, BitVec.toNat_add, BitVec.toNat_mul,
    page, base, register, BitVec.toNat_ofNat]
  have product : 2 ^ machine.gicrOffsetShiftVal * (cpu % 2 ^ 32) % 2 ^ 32 =
      2 ^ machine.gicrOffsetShiftVal * cpu % 2 ^ 32 := Nat.mul_mod_mod _ _ _
  rw [product]
  omega

/-- The offset is the one of the frame exactly when the frame has the number of the CPU. -/
theorem mappedTarget_iff (machine : Machine) (cpu gicrIndex : Nat) :
    (mappedTarget machine.gicrOffsetShiftVal cpu).toNat = machine.pendingOffset gicrIndex ↔
      cpu % 2 ^ (32 - machine.gicrOffsetShiftVal) = gicrIndex := by
  rw [mappedTarget_toNat, Machine.pendingOffset]
  rcases machine.shift with shift | shift
  · rw [shift]
    omega
  · rw [shift]
    omega

theorem field_toNat64 (aff : BitVec 32) (low : Nat) :
    (aff.setWidth 64 >>> low &&& 0xff).toNat = aff.toNat / 2 ^ low % 2 ^ 8 := by
  have fits := aff.isLt
  rw [BitVec.toNat_and, BitVec.toNat_ushiftRight, BitVec.toNat_setWidth,
    Nat.mod_eq_of_lt (by omega), Nat.shiftRight_eq_div_pow]
  exact Nat.and_two_pow_sub_one_eq_mod _ 8

theorem shifted_toNat {word : BitVec 64} {amount bits : Nat} (small : word.toNat < 2 ^ bits)
    (fits : bits + amount ≤ 64) : (word <<< amount).toNat = 2 ^ amount * word.toNat := by
  have bound : word.toNat * 2 ^ amount < 2 ^ 64 := by
    calc
      word.toNat * 2 ^ amount < 2 ^ bits * 2 ^ amount :=
        Nat.mul_lt_mul_of_pos_right small (Nat.two_pow_pos amount)
      _ = 2 ^ (bits + amount) := (Nat.pow_add 2 bits amount).symm
      _ ≤ 2 ^ 64 := Nat.pow_le_pow_right (by decide) fits
  rw [BitVec.toNat_shiftLeft, Nat.shiftLeft_eq, Nat.mod_eq_of_lt bound, Nat.mul_comm]

/-- The register word is the target of the affinity. -/
theorem iccSgi1r_toNat (aff : BitVec 32) :
    (iccSgi1r (aff.setWidth 64)).toNat = sgiTarget aff := by
  have fits := aff.isLt
  have level0 : (aff.setWidth 64 &&& 0xff).toNat = aff.toNat % 2 ^ 8 := by
    have value := field_toNat64 aff 0
    rwa [BitVec.ushiftRight_zero, Nat.pow_zero, Nat.div_one] at value
  have level1 := field_toNat64 aff 8
  have level2 := field_toNat64 aff 16
  have level3 := field_toNat64 aff 24
  have bit : (aff.setWidth 64 &&& 0xff &&& 0xf).toNat = aff.toNat % 16 := by
    rw [BitVec.toNat_and, level0]
    refine (Nat.and_two_pow_sub_one_eq_mod _ 4).trans ?_
    omega
  have range : (aff.setWidth 64 &&& 0xff &&& 0xf0).toNat = 16 * (aff.toNat % 2 ^ 8 / 16) := by
    rw [BitVec.toNat_and, level0]
    refine (Word.and_field _ 4 4).trans ?_
    omega
  have list : (1#64 <<< (aff.toNat % 16)).toNat = 2 ^ (aff.toNat % 16) := by
    rw [← BitVec.twoPow_eq, BitVec.toNat_twoPow_of_lt (by omega)]
  have listSmall : 2 ^ (aff.toNat % 16) < 2 ^ 16 := Nat.pow_lt_pow_right (by decide) (by omega)
  unfold iccSgi1r sgiTarget
  extract_lets aff0 aff1 aff2 aff3 word
  have one : (aff1 <<< 16).toNat = 2 ^ 16 * (aff.toNat / 2 ^ 8 % 2 ^ 8) := by
    rw [shifted_toNat (level1.trans_lt (Nat.mod_lt _ (Nat.two_pow_pos 8))) (by decide), level1]
  have two : (aff2 <<< 32).toNat = 2 ^ 32 * (aff.toNat / 2 ^ 16 % 2 ^ 8) := by
    rw [shifted_toNat (level2.trans_lt (Nat.mod_lt _ (Nat.two_pow_pos 8))) (by decide), level2]
  have three : (aff3 <<< 48).toNat = 2 ^ 48 * (aff.toNat / 2 ^ 24) := by
    rw [shifted_toNat (level3.trans_lt (Nat.mod_lt _ (Nat.two_pow_pos 8))) (by decide), level3,
      Nat.mod_eq_of_lt (by omega)]
  have selector : ((aff0 &&& 0xf0) <<< (44 - 4)).toNat = 2 ^ 44 * (aff.toNat % 2 ^ 8 / 16) := by
    have small : (aff0 &&& 0xf0).toNat < 2 ^ 8 := by
      rw [range]
      omega
    rw [shifted_toNat small (by decide), range]
    omega
  have lower : word.toNat = (2 ^ (aff.toNat % 16) + 2 ^ 16 * (aff.toNat / 2 ^ 8 % 2 ^ 8) +
      2 ^ 32 * (aff.toNat / 2 ^ 16 % 2 ^ 8)) ||| 2 ^ 48 * (aff.toNat / 2 ^ 24) := by
    change ((1#64 <<< (aff0 &&& 0xf).toNat ||| aff1 <<< 16 ||| aff2 <<< 32) |||
      aff3 <<< 48).toNat = _
    have first : 2 ^ (aff.toNat % 16) ||| 2 ^ 16 * (aff.toNat / 2 ^ 8 % 2 ^ 8) =
        2 ^ (aff.toNat % 16) + 2 ^ 16 * (aff.toNat / 2 ^ 8 % 2 ^ 8) := Word.or_above listSmall
    have second := @Word.or_above (2 ^ (aff.toNat % 16) + 2 ^ 16 * (aff.toNat / 2 ^ 8 % 2 ^ 8))
      (aff.toNat / 2 ^ 16 % 2 ^ 8) 32 (by omega)
    rw [BitVec.toNat_or, BitVec.toNat_or, BitVec.toNat_or, bit, list, one, two, three, first,
      second]
  have lowerSmall : 2 ^ (aff.toNat % 16) + 2 ^ 16 * (aff.toNat / 2 ^ 8 % 2 ^ 8) +
      2 ^ 32 * (aff.toNat / 2 ^ 16 % 2 ^ 8) < 2 ^ 44 := by omega
  generalize 2 ^ (aff.toNat % 16) + 2 ^ 16 * (aff.toNat / 2 ^ 8 % 2 ^ 8) +
    2 ^ 32 * (aff.toNat / 2 ^ 16 % 2 ^ 8) = low at *
  split
  · -- the range selector goes below the highest level
    have swapped : low ||| 2 ^ 48 * (aff.toNat / 2 ^ 24) ||| 2 ^ 44 * (aff.toNat % 2 ^ 8 / 16) =
        low ||| 2 ^ 44 * (aff.toNat % 2 ^ 8 / 16) ||| 2 ^ 48 * (aff.toNat / 2 ^ 24) := by
      rw [Nat.or_assoc, Nat.or_comm (2 ^ 48 * _), ← Nat.or_assoc]
    rw [BitVec.toNat_or, lower, selector, swapped, Word.or_above lowerSmall,
      Word.or_above (by omega)]
  · next inRange =>
      have none : aff.toNat % 2 ^ 8 / 16 = 0 := by
        have small : ¬ (0xf : BitVec 64).toNat < aff0.toNat := fun more =>
          inRange (BitVec.lt_def.mpr more)
        rw [level0] at small
        change ¬ 0xf < aff.toNat % 2 ^ 8 at small
        omega
      rw [lower, Word.or_above (lowerSmall.trans (by decide)), none, Nat.mul_zero, Nat.add_zero]

/-- The parts of a target word are told apart by where they stand. -/
theorem sgiParts_eq {list list' one one' two two' range range' three three' : Nat}
    (listSmall : list < 2 ^ 16) (listSmall' : list' < 2 ^ 16) (oneSmall : one < 2 ^ 8)
    (oneSmall' : one' < 2 ^ 8) (twoSmall : two < 2 ^ 8) (twoSmall' : two' < 2 ^ 8)
    (rangeSmall : range < 2 ^ 4) (rangeSmall' : range' < 2 ^ 4)
    (same : list + 2 ^ 16 * one + 2 ^ 32 * two + 2 ^ 44 * range + 2 ^ 48 * three =
      list' + 2 ^ 16 * one' + 2 ^ 32 * two' + 2 ^ 44 * range' + 2 ^ 48 * three') :
    list = list' ∧ one = one' ∧ two = two' ∧ range = range' ∧ three = three' := by
  omega

/-- An affinity from its levels, the lowest in two parts. -/
theorem affinity_levels (aff : Nat) :
    aff = aff % 2 ^ 4 + 2 ^ 4 * (aff % 2 ^ 8 / 2 ^ 4) + 2 ^ 8 * (aff / 2 ^ 8 % 2 ^ 8) +
      2 ^ 16 * (aff / 2 ^ 16 % 2 ^ 8) + 2 ^ 24 * (aff / 2 ^ 24) := by
  have lowest : aff % 2 ^ 8 = aff % 2 ^ 4 + 2 ^ 4 * (aff % 2 ^ 8 / 2 ^ 4) := by omega
  have lower : aff % 2 ^ 16 = aff % 2 ^ 8 + 2 ^ 8 * (aff / 2 ^ 8 % 2 ^ 8) := by
    rw [← Nat.mod_mul, ← Nat.pow_add]
  have low : aff % 2 ^ 24 = aff % 2 ^ 16 + 2 ^ 16 * (aff / 2 ^ 16 % 2 ^ 8) := by
    rw [← Nat.mod_mul, ← Nat.pow_add]
  rw [← lowest, ← lower, ← low]
  exact (Nat.mod_add_div aff (2 ^ 24)).symm

theorem sgiTarget_injective {aff other : BitVec 32} (same : sgiTarget aff = sgiTarget other) :
    aff = other := by
  have listSmall : ∀ word : BitVec 32, 2 ^ (word.toNat % 16) < 2 ^ 16 := fun word =>
    Nat.pow_lt_pow_right (Nat.lt_succ_self 1) (Nat.mod_lt _ (Nat.succ_pos 15))
  have levelSmall : ∀ level : Nat, level % 2 ^ 8 < 2 ^ 8 := fun level =>
    Nat.mod_lt level (Nat.two_pow_pos 8)
  have rangeSmall : ∀ level : Nat, level % 2 ^ 8 / 16 < 2 ^ 4 := fun level =>
    Nat.div_lt_of_lt_mul (levelSmall level)
  obtain ⟨bits, one, two, range, three⟩ := sgiParts_eq (listSmall aff) (listSmall other)
    (levelSmall _) (levelSmall _) (levelSmall _) (levelSmall _) (rangeSmall _) (rangeSmall _) same
  have lowest : aff.toNat % 2 ^ 4 = other.toNat % 2 ^ 4 :=
    Nat.pow_right_injective (le_refl 2) bits
  have ranges : aff.toNat % 2 ^ 8 / 2 ^ 4 = other.toNat % 2 ^ 8 / 2 ^ 4 := range
  apply BitVec.eq_of_toNat_eq
  rw [affinity_levels aff.toNat, affinity_levels other.toNat, lowest, ranges, one, two, three]

/-! ## Runs -/

/-- What is recorded for a CPU. -/
structure Recorded (machine : Machine) (maps : CpuMaps) (cpu : Nat) : Prop where
  inside : cpu < machine.numCpu
  frame : machine.frameOf cpu = some (maps.gicrIdx cpu)
  target : maps.gicCpu cpu = machine.target cpu

theorem recorded_giccInit {other : Nat} (inside : cpu < machine.numCpu)
    (before : other ≠ cpu → Recorded machine maps other)
    (done : machine.giccInit maps cpu = .ok (after, ())) : Recorded machine after other := by
  unfold Machine.giccInit at done
  split at done
  · cases done
  · next gicrIndex found =>
      cases done
      by_cases same : other = cpu
      · subst same
        refine ⟨inside, ?_, Function.update_self other _ maps.gicCpu⟩
        exact found.trans (congrArg some (Function.update_self other gicrIndex maps.gicrIdx).symm)
      · obtain ⟨otherInside, frame, target⟩ := before same
        refine ⟨otherInside, ?_, ?_⟩
        · exact frame.trans (congrArg some (Function.update_of_ne same _ maps.gicrIdx).symm)
        · exact (Function.update_of_ne same _ maps.gicCpu).trans target

/-- Every CPU keeps what is recorded for it, in whatever order the others follow. -/
theorem recorded_of_run (ran : Run machine.giccInit machine.MayRun start history maps) :
    ∀ cpu ∈ initialized history, Recorded machine maps cpu := by
  refine @Run.invariant _ _ _ _ _ _ _ (fun history maps =>
    ∀ cpu ∈ initialized history, Recorded machine maps cpu) ?_ ?_ _ _ ran
  · exact fun _ member => absurd member List.not_mem_nil
  · intro history maps cpu after _ kept isCpu done other member
    apply recorded_giccInit isCpu _ done
    intro different
    apply kept other
    unfold initialized at member ⊢
    rw [List.map_append] at member
    rcases List.mem_append.mp member with old | new
    · exact old
    · exact absurd (List.mem_singleton.mp new) different

theorem Recorded.frame_spec (recorded : Recorded machine maps cpu) :
    maps.gicrIdx cpu < max 1 machine.gicrIndexLimit ∧
      machine.gicrAff (maps.gicrIdx cpu) = cpuAff (machine.mpidr cpu) ∧
      ∀ earlier < maps.gicrIdx cpu, machine.gicrAff earlier ≠ cpuAff (machine.mpidr cpu) := by
  obtain ⟨_, most, same, first⟩ := searchFrame_spec recorded.frame
  refine ⟨?_, same, fun earlier below => first earlier (Nat.zero_le earlier) below⟩
  omega

/-- The frame of a CPU has its number exactly when it is found there. -/
theorem Recorded.frameOfCpu_iff (recorded : Recorded machine maps cpu) :
    machine.FrameOfCpu cpu ↔
      cpu % 2 ^ (32 - machine.gicrOffsetShiftVal) = maps.gicrIdx cpu := by
  obtain ⟨_, same, first⟩ := recorded.frame_spec
  constructor
  · rintro ⟨there, none⟩
    rcases Nat.lt_trichotomy (cpu % 2 ^ (32 - machine.gicrOffsetShiftVal)) (maps.gicrIdx cpu) with
      before | here | behind
    · exact absurd there (first _ before)
    · exact here
    · exact absurd same (none _ behind)
  · intro here
    unfold Machine.FrameOfCpu
    rw [here]
    exact ⟨same, first⟩

/-- A CPU is reached through the system registers, and through memory when its frame has its
number. -/
theorem Recorded.reaches_iff (recorded : Recorded machine maps cpu) :
    Reaches machine maps cpu ↔ machine.memoryMapped = false ∨ machine.FrameOfCpu cpu := by
  obtain ⟨within, same, _⟩ := recorded.frame_spec
  have target : (maps.gicCpu cpu).toNat = (if machine.memoryMapped then
      machine.pendingOffset (maps.gicrIdx cpu) else sgiTarget (cpuAff (machine.mpidr cpu))) ↔
        machine.memoryMapped = false ∨ machine.FrameOfCpu cpu := by
    rw [recorded.target, Machine.target, recorded.frameOfCpu_iff]
    cases machine.memoryMapped with
    | true =>
        rw [if_pos rfl, if_pos rfl, mappedTarget_iff]
        simp
    | false =>
        rw [if_neg Bool.false_ne_true, if_neg Bool.false_ne_true, iccSgi1r_toNat]
        simp
  constructor
  · intro reaches
    exact target.mp reaches.target
  · intro when_
    exact ⟨within, same, target.mpr when_⟩

/-- CPUs that are reached are reached by targets of their own. -/
theorem Reaches.apart {other : Nat} (inside : cpu < machine.numCpu)
    (otherInside : other < machine.numCpu) (reaches : Reaches machine maps cpu)
    (otherReaches : Reaches machine maps other) (different : cpu ≠ other) :
    maps.gicrIdx cpu ≠ maps.gicrIdx other ∧ maps.gicCpu cpu ≠ maps.gicCpu other := by
  have affinities : cpuAff (machine.mpidr cpu) ≠ cpuAff (machine.mpidr other) := fun same =>
    different (machine.distinct cpu inside other otherInside same)
  have frames : maps.gicrIdx cpu ≠ maps.gicrIdx other := by
    intro same
    apply affinities
    rw [← reaches.frame, ← otherReaches.frame, same]
  refine ⟨frames, ?_⟩
  intro same
  have words := congrArg BitVec.toNat same
  rw [reaches.target, otherReaches.target] at words
  cases mapped : machine.memoryMapped with
  | true =>
      rw [mapped, if_pos rfl, if_pos rfl] at words
      apply frames
      have product := Nat.add_right_cancel (Nat.add_right_cancel words)
      exact Nat.eq_of_mul_eq_mul_left (Nat.two_pow_pos _) product
  | false =>
      rw [mapped, if_neg Bool.false_ne_true, if_neg Bool.false_ne_true] at words
      exact affinities (sgiTarget_injective words)

/-- In every order of the CPUs, those that have run the initialisation are reached, each by a
target of its own, exactly when the callouts use the system registers or the frame of each of them
has its number. -/
theorem allReached_iff (ran : Run machine.giccInit machine.MayRun start history maps) :
    AllReached machine maps (initialized history) ↔
      machine.memoryMapped = false ∨ ∀ cpu ∈ initialized history, machine.FrameOfCpu cpu := by
  have recorded := recorded_of_run ran
  constructor
  · intro all
    by_cases system : machine.memoryMapped = false
    · exact .inl system
    · right
      intro cpu member
      have reaches := (recorded cpu member).reaches_iff.mp (all.reaches cpu member)
      exact reaches.resolve_left system
  · intro when_
    have reaches : ∀ cpu ∈ initialized history, Reaches machine maps cpu := by
      intro cpu member
      apply (recorded cpu member).reaches_iff.mpr
      exact when_.imp_right fun frames => frames cpu member
    refine ⟨reaches, ?_⟩
    intro cpu member other otherMember different
    exact Reaches.apart (recorded cpu member).inside (recorded other otherMember).inside
      (reaches cpu member) (reaches other otherMember) different

/-- Two processors, whose frames are in the other order. -/
def crossed (memoryMapped : Bool) : Machine where
  numCpu := 2
  mpidr := fun cpu => BitVec.ofNat 64 cpu
  gicrAff := fun gicrIndex => BitVec.ofNat 32 (1 - gicrIndex)
  gicrIndexLimit := 2
  gicrOffsetShiftVal := 17
  memoryMapped := memoryMapped
  distinct := by decide
  shift := .inl rfl
  limit := by decide

theorem crossed_reached : ∃ maps,
    Run (crossed false).giccInit (crossed false).MayRun ⟨fun _ => 0, fun _ => 0⟩
      [⟨1, ()⟩, ⟨0, ()⟩] maps ∧ AllReached (crossed false) maps [1, 0] := by
  have first : Run (crossed false).giccInit (crossed false).MayRun ⟨fun _ => 0, fun _ => 0⟩
      ([] ++ [⟨1, ()⟩]) _ := Run.start.next Nat.one_lt_two rfl
  have second : Run (crossed false).giccInit (crossed false).MayRun ⟨fun _ => 0, fun _ => 0⟩
      ([⟨1, ()⟩] ++ [⟨0, ()⟩]) _ := first.next Nat.two_pos rfl
  exact ⟨_, second, (allReached_iff second).mpr (.inl rfl)⟩

/-- With memory mapped callouts an interrupt for the first CPU goes to the frame of the other. -/
theorem crossed_not_reached : ∃ maps,
    Run (crossed true).giccInit (crossed true).MayRun ⟨fun _ => 0, fun _ => 0⟩ [⟨0, ()⟩] maps ∧
      maps.gicrIdx 0 = 1 ∧ maps.gicCpu 0 = 0x10200 ∧ ¬ AllReached (crossed true) maps [0] := by
  have first : Run (crossed true).giccInit (crossed true).MayRun ⟨fun _ => 0, fun _ => 0⟩
      ([] ++ [⟨0, ()⟩]) _ := Run.start.next Nat.two_pos rfl
  refine ⟨_, first, rfl, rfl, ?_⟩
  intro all
  have target := (all.reaches 0 List.mem_cons_self).target
  exact absurd target (by decide)

end Bcm2711.Gic
