import Bcm2711.Lib.Words
import Bcm2711.Lib.Word

/-! # The divider of the SD clock

`sdhci_clk` looks for the smallest divider of its mode with which the clock is not faster than
the request, and writes the code of the divider to the clock control register.
-/

namespace Bcm2711.Sdhci.Clock

open Word Words

def SDHCI_SPEC_VER_3 : Nat := 2

def SDHCI_CLK_MAX_DIV_SPEC_VER_2 : Nat := 256
def SDHCI_CLK_MAX_DIV_SPEC_VER_3 : Nat := 2046

def SDHCI_SYSCTL_ICE : Nat := 2 ^ 0
def SDHCI_SYSCTL_CEN : Nat := 2 ^ 2
def SDHCI_SYSCTL_CGS_PROG : Nat := 2 ^ 5
def SDHCI_SYSCTL_SDCLKFS_MSK : Nat := 0xffc0
def SDHCI_SYSCTL_DTO_MSK : Nat := 0xf0000
def SDHCI_SYSCTL_DTO_MAX : Nat := 0xe0000
def SDHCI_SYSCTL_SRC : Nat := 2 ^ 25
def SDHCI_SYSCTL_SRD : Nat := 2 ^ 26

/-- `SDHCI_SYSCTL_CLK`. -/
def sysctlClk (clkd : Nat) : Nat := clkd <<< 8 &&& 0xff00 ||| clkd >>> 2 &&& 0xc0

/-! ## The host controller -/

/-- The dividers that `sdhci_clk` chooses from. -/
inductive Mode where
  | programmable
  | even
  | powers
deriving DecidableEq, Repr

/-- The largest divider, as `sdhci_init` takes it for `clk_min`. -/
def Mode.maxDiv : Mode → Nat
  | .programmable => 1024
  | .even => SDHCI_CLK_MAX_DIV_SPEC_VER_3
  | .powers => SDHCI_CLK_MAX_DIV_SPEC_VER_2

/-- The mode of a controller, by its version and its clock multiplier. -/
def modeOf (version clkMul : Nat) : Mode :=
  if SDHCI_SPEC_VER_3 ≤ version then (if clkMul ≠ 0 then .programmable else .even) else .powers

/-- What `sdhci_clk` reads of the host, with the slowest clock as `sdhci_init` sets it. -/
structure Host where
  version : Nat
  clkMul : Nat
  clkMax : Nat
  clkMin : Nat
  /-- `SF_ICE_PERSIST`. -/
  icePersist : Bool
  clkMin_eq : clkMin = clkMax / (modeOf version clkMul).maxDiv

/-- The clocks as `sdhci_init` sets them from the base clock of the capabilities. -/
def sdhciInit (version baseClk clkMul : Nat) (icePersist : Bool) : Host :=
  if isV3 : SDHCI_SPEC_VER_3 ≤ version then
    if isMul : clkMul ≠ 0 then
      { version := version
        clkMul := clkMul
        clkMax := baseClk * clkMul % 2 ^ 32
        clkMin := baseClk * clkMul % 2 ^ 32 / 1024
        icePersist := icePersist
        clkMin_eq := by rw [modeOf, if_pos isV3, if_pos isMul, Mode.maxDiv] }
    else
      { version := version
        clkMul := clkMul
        clkMax := baseClk
        clkMin := baseClk / SDHCI_CLK_MAX_DIV_SPEC_VER_3
        icePersist := icePersist
        clkMin_eq := by rw [modeOf, if_pos isV3, if_neg isMul, Mode.maxDiv] }
  else
    { version := version
      clkMul := clkMul
      clkMax := baseClk
      clkMin := baseClk / SDHCI_CLK_MAX_DIV_SPEC_VER_2
      icePersist := icePersist
      clkMin_eq := by rw [modeOf, if_neg isV3, Mode.maxDiv] }

/-! ## The loops -/

section Search

variable (clkMax clk limit : Nat) (next : Nat → Nat)

/-- A loop over the dividers below a limit. -/
def searchDivisor : Nat → Nat → Nat
  | 0, clkd => clkd
  | rounds + 1, clkd =>
      if clkd < limit then
        if clkMax / clkd ≤ clk then clkd else searchDivisor rounds (next clkd)
      else clkd

/-- `clkd` behind the loop of the mode. -/
def modeDivisor : Mode → Nat
  | .programmable => searchDivisor clkMax clk 1024 (fun clkd => clkd + 1) 1024 1
  | .even =>
      let clkd := searchDivisor clkMax clk SDHCI_CLK_MAX_DIV_SPEC_VER_3 (fun clkd => clkd + 2)
        SDHCI_CLK_MAX_DIV_SPEC_VER_3 2
      if clkMax ≤ clk then 1 else clkd
  | .powers =>
      searchDivisor clkMax clk SDHCI_CLK_MAX_DIV_SPEC_VER_2 (fun clkd => clkd * 2)
        SDHCI_CLK_MAX_DIV_SPEC_VER_2 1

/-- The code of `clkd`. -/
def modeCode (clkd : Nat) : Mode → Nat
  | .programmable => clkd - 1
  | .even | .powers => clkd >>> 1

end Search

/-- The bits that `sdhci_clk` clears first. -/
def stopMask (icePersist : Bool) : Nat :=
  if icePersist then
    SDHCI_SYSCTL_CEN ||| SDHCI_SYSCTL_DTO_MSK ||| SDHCI_SYSCTL_CGS_PROG |||
      SDHCI_SYSCTL_SDCLKFS_MSK
  else
    SDHCI_SYSCTL_ICE ||| SDHCI_SYSCTL_CEN ||| SDHCI_SYSCTL_DTO_MSK ||| SDHCI_SYSCTL_CGS_PROG |||
      SDHCI_SYSCTL_SDCLKFS_MSK

/-- `sdhci_clk`: what it writes to `SDHCI_SYSCTL`, one after the other.  With the preset values
the controller chooses the divider of the programmable mode itself. -/
def sdhciClk (hc : Host) (sysctl : Nat) (presetVal : Bool) (clk : Nat) : List Nat :=
  let sctl := sysctl &&& compl 32 (stopMask hc.icePersist) ||| SDHCI_SYSCTL_DTO_MAX
  let stop := sctl ||| (SDHCI_SYSCTL_SRC ||| SDHCI_SYSCTL_SRD)
  let mode := modeOf hc.version hc.clkMul
  let clkd := if mode = .programmable ∧ presetVal = true then 0
    else modeCode (modeDivisor hc.clkMax clk mode) mode
  let sctl := if mode = .programmable ∧ presetVal = false then sctl ||| SDHCI_SYSCTL_CGS_PROG
    else sctl
  let sctl := sctl ||| (sysctlClk clkd ||| SDHCI_SYSCTL_ICE)
  [stop, sctl, sctl ||| SDHCI_SYSCTL_CEN]

/-! ## What the register says -/

/-- The ten bits of the frequency select, the two upper ones below the others. -/
def frequencySelect (sysctl : Nat) : Nat := field sysctl 8 8 + 2 ^ 8 * field sysctl 6 2

/-- The divider that the register selects. -/
def selectedDivisor (sysctl : Nat) : Nat :=
  if field sysctl 5 1 = 1 then frequencySelect sysctl + 1
  else if frequencySelect sysctl = 0 then 1 else 2 * frequencySelect sysctl

/-- The dividers of a mode. -/
def Mode.Divides : Mode → Nat → Prop
  | .programmable, divisor => 1 ≤ divisor ∧ divisor ≤ 1024
  | .even, divisor => divisor = 1 ∨ (2 ∣ divisor ∧ 2 ≤ divisor ∧ divisor ≤ 2046)
  | .powers, divisor => ∃ power ≤ 8, divisor = 2 ^ power

/-! ## The divider is the smallest one -/

section Search

variable {clkMax clk : Nat}

/-- The loop ends at the first divider that is slow enough, or at the limit, or after its
rounds. -/
theorem searchDivisor_spec (clkMax clk limit : Nat) (next : Nat → Nat) (rounds start : Nat) :
    ∃ turns ≤ rounds,
      searchDivisor clkMax clk limit next rounds start = next^[turns] start ∧
      (∀ turn < turns, next^[turn] start < limit ∧ clk < clkMax / next^[turn] start) ∧
      (turns = rounds ∨ limit ≤ next^[turns] start ∨ clkMax / next^[turns] start ≤ clk) := by
  induction rounds generalizing start with
  | zero => exact ⟨0, Nat.le_refl 0, rfl, fun turn none => absurd none (Nat.not_lt_zero turn),
      Or.inl rfl⟩
  | succ rounds ih =>
      have here : ∀ turn < 0, next^[turn] start < limit ∧ clk < clkMax / next^[turn] start :=
        fun turn none => absurd none (Nat.not_lt_zero turn)
      rw [searchDivisor]
      split
      case isFalse behind =>
        exact ⟨0, Nat.zero_le _, rfl, here, Or.inr (Or.inl (Nat.le_of_not_lt behind))⟩
      case isTrue below =>
        split
        case isTrue slow => exact ⟨0, Nat.zero_le _, rfl, here, Or.inr (Or.inr slow)⟩
        case isFalse fast =>
          obtain ⟨turns, upTo, found, passed, ends⟩ := ih (next start)
          refine ⟨turns + 1, Nat.succ_le_succ upTo, found, ?_, ?_⟩
          · intro turn before
            cases turn with
            | zero => exact ⟨below, Nat.lt_of_not_le fast⟩
            | succ turn => exact passed turn (Nat.lt_of_succ_lt_succ before)
          · rcases ends with all | ends
            · exact Or.inl (congrArg Nat.succ all)
            · exact Or.inr ends

/-- The divider is one of the mode, the clock is not faster than the request, and with no smaller
divider of the mode it would be so. -/
structure Smallest (mode : Mode) (clkMax clk divisor : Nat) : Prop where
  divides : mode.Divides divisor
  slow : clkMax / divisor ≤ clk
  least : ∀ {other}, mode.Divides other → clkMax / other ≤ clk → divisor ≤ other

theorem programmable_smallest (inRange : clkMax / 1024 ≤ clk) :
    Smallest .programmable clkMax clk (modeDivisor clkMax clk .programmable) := by
  have iterate (turn : Nat) : (fun clkd => clkd + 1)^[turn] 1 = 1 + turn := by
    rw [add_right_iterate]
    simp
  obtain ⟨turns, -, found, passed, ends⟩ :=
    searchDivisor_spec clkMax clk 1024 (fun clkd => clkd + 1) 1024 1
  rw [iterate] at found ends
  have upTo : 1 + turns ≤ 1024 := by
    rcases Nat.eq_zero_or_pos turns with rfl | positive
    · decide
    · have last := (passed (turns - 1) (Nat.sub_lt positive Nat.zero_lt_one)).1
      rw [iterate] at last
      omega
  rw [modeDivisor, found]
  refine ⟨⟨Nat.le_add_right 1 turns, upTo⟩, ?_, ?_⟩
  · rcases ends with all | limit | slow
    · omega
    · rw [Nat.le_antisymm upTo limit]
      exact inRange
    · exact slow
  · intro other divides slow
    by_contra smaller
    obtain ⟨positive, -⟩ := divides
    have fast := (passed (other - 1) (by omega)).2
    rw [iterate, Nat.add_sub_cancel' positive] at fast
    exact absurd slow (Nat.not_le.mpr fast)

theorem even_smallest (inRange : clkMax / SDHCI_CLK_MAX_DIV_SPEC_VER_3 ≤ clk) :
    Smallest .even clkMax clk (modeDivisor clkMax clk .even) := by
  have max : SDHCI_CLK_MAX_DIV_SPEC_VER_3 = 2046 := rfl
  have iterate (turn : Nat) : (fun clkd => clkd + 2)^[turn] 2 = 2 + 2 * turn := by
    rw [add_right_iterate]
    simp [Nat.mul_comm]
  obtain ⟨turns, -, found, passed, ends⟩ :=
    searchDivisor_spec clkMax clk SDHCI_CLK_MAX_DIV_SPEC_VER_3 (fun clkd => clkd + 2)
      SDHCI_CLK_MAX_DIV_SPEC_VER_3 2
  rw [iterate] at found ends
  have upTo : 2 + 2 * turns ≤ 2046 := by
    rcases Nat.eq_zero_or_pos turns with rfl | positive
    · decide
    · have last := (passed (turns - 1) (Nat.sub_lt positive Nat.zero_lt_one)).1
      rw [iterate, max] at last
      omega
  rw [modeDivisor, found]
  by_cases whole : clkMax ≤ clk
  · rw [if_pos whole]
    refine ⟨Or.inl rfl, by rwa [Nat.div_one], ?_⟩
    intro other divides _
    rcases divides with rfl | ⟨-, atLeast, -⟩
    · exact Nat.le_refl 1
    · exact Nat.le_of_succ_le atLeast
  · rw [if_neg whole]
    have isEven : 2 ∣ 2 + 2 * turns := (Nat.dvd_add_right (Nat.dvd_refl 2)).mpr ⟨turns, rfl⟩
    refine ⟨Or.inr ⟨isEven, Nat.le_add_right 2 _, upTo⟩, ?_, ?_⟩
    · rcases ends with all | limit | slow
      · omega
      · rw [Nat.le_antisymm upTo limit]
        exact inRange
      · exact slow
    · intro other divides slow
      by_contra smaller
      rcases divides with rfl | ⟨⟨half, rfl⟩, atLeast, -⟩
      · rw [Nat.div_one] at slow
        exact whole slow
      · have fast := (passed (half - 1) (by omega)).2
        have back : 2 + 2 * (half - 1) = 2 * half := by omega
        rw [iterate, back] at fast
        exact absurd slow (Nat.not_le.mpr fast)

theorem powers_smallest (inRange : clkMax / SDHCI_CLK_MAX_DIV_SPEC_VER_2 ≤ clk) :
    Smallest .powers clkMax clk (modeDivisor clkMax clk .powers) := by
  have max : SDHCI_CLK_MAX_DIV_SPEC_VER_2 = 2 ^ 8 := rfl
  have iterate (turn : Nat) : (fun clkd => clkd * 2)^[turn] 1 = 2 ^ turn := by
    rw [mul_right_iterate]
    simp
  obtain ⟨turns, -, found, passed, ends⟩ :=
    searchDivisor_spec clkMax clk SDHCI_CLK_MAX_DIV_SPEC_VER_2 (fun clkd => clkd * 2)
      SDHCI_CLK_MAX_DIV_SPEC_VER_2 1
  rw [iterate, max] at ends
  rw [iterate] at found
  have upTo : turns ≤ 8 := by
    rcases Nat.eq_zero_or_pos turns with rfl | positive
    · decide
    · have last := (passed (turns - 1) (Nat.sub_lt positive Nat.zero_lt_one)).1
      rw [iterate, max] at last
      have before := (Nat.pow_lt_pow_iff_right (by decide)).mp last
      omega
  rw [modeDivisor, found]
  refine ⟨⟨turns, upTo, rfl⟩, ?_, ?_⟩
  · rcases ends with all | limit | slow
    · exact absurd (all.symm.le.trans upTo) (by decide)
    · have last := Nat.le_antisymm upTo ((Nat.pow_le_pow_iff_right (by decide)).mp limit)
      rw [last]
      exact inRange
    · exact slow
  · rintro other ⟨power, -, rfl⟩ slow
    by_contra smaller
    have before := (Nat.pow_lt_pow_iff_right (by decide)).mp (Nat.lt_of_not_le smaller)
    have fast := (passed power before).2
    rw [iterate] at fast
    exact absurd slow (Nat.not_le.mpr fast)

theorem modeDivisor_smallest (mode : Mode) (inRange : clkMax / mode.maxDiv ≤ clk) :
    Smallest mode clkMax clk (modeDivisor clkMax clk mode) := by
  cases mode with
  | programmable => exact programmable_smallest inRange
  | even => exact even_smallest inRange
  | powers => exact powers_smallest inRange

end Search

/-! ## The register holds the divider -/

/-- The macro puts the ten bits of the code where the register has them. -/
theorem field_sysctlClk {clkd : Nat} (small : clkd < 1024) :
    field (sysctlClk clkd) 8 8 + 2 ^ 8 * field (sysctlClk clkd) 6 2 = clkd ∧
      field (sysctlClk clkd) 5 1 = 0 := by
  have low : field (clkd <<< 8) 8 8 = clkd % 2 ^ 8 := by
    rw [field, Nat.shiftLeft_eq, Nat.mul_div_cancel _ (Nat.two_pow_pos 8)]
  have high : field (clkd >>> 2) 6 2 = clkd / 2 ^ 8 := by
    rw [field, Nat.shiftRight_eq_div_pow, Nat.div_div_eq_div_mul]
    omega
  have mask8 : field 0xff00 8 8 = 2 ^ 8 - 1 := by decide
  have mask2 : field 0xc0 6 2 = 2 ^ 2 - 1 := by decide
  have none1 : field 0xff00 6 2 = 0 := by decide
  have none2 : field 0xc0 8 8 = 0 := by decide
  have none3 : field 0xff00 5 1 = 0 := by decide
  have none4 : field 0xc0 5 1 = 0 := by decide
  have upper : field (sysctlClk clkd) 8 8 = clkd % 2 ^ 8 := by
    rw [sysctlClk, field_or, field_and, field_and, low, mask8, none2, Nat.and_zero, Nat.or_zero,
      Nat.and_two_pow_sub_one_eq_mod, Nat.mod_mod]
  have lower : field (sysctlClk clkd) 6 2 = clkd / 2 ^ 8 := by
    rw [sysctlClk, field_or, field_and, field_and, high, mask2, none1, Nat.and_zero, Nat.zero_or,
      Nat.and_two_pow_sub_one_eq_mod]
    omega
  constructor
  · rw [upper, lower]
    omega
  · rw [sysctlClk, field_or, field_and, field_and, none3, none4, Nat.and_zero, Nat.and_zero,
      Nat.or_zero]

/-- A divider of a mode has a code of ten bits. -/
theorem modeCode_spec {mode : Mode} {divisor : Nat} (divides : mode.Divides divisor) :
    modeCode divisor mode < 1024 ∧
      (if mode = .programmable then modeCode divisor mode + 1
        else if modeCode divisor mode = 0 then 1 else 2 * modeCode divisor mode) = divisor := by
  cases mode with
  | programmable =>
      obtain ⟨positive, upTo⟩ := divides
      rw [if_pos rfl, modeCode]
      omega
  | even =>
      rw [if_neg (by decide), modeCode, Nat.shiftRight_one]
      rcases divides with rfl | ⟨⟨half, rfl⟩, atLeast, upTo⟩
      · exact ⟨by decide, rfl⟩
      · rw [Nat.mul_div_cancel_left half (by decide), if_neg (by omega)]
        exact ⟨by omega, rfl⟩
  | powers =>
      obtain ⟨power, upTo, rfl⟩ := divides
      rw [if_neg (by decide), modeCode, Nat.shiftRight_one]
      cases power with
      | zero => exact ⟨by decide, rfl⟩
      | succ power =>
          have small : 2 ^ power ≤ 2 ^ 7 :=
            Nat.pow_le_pow_right (by decide) (Nat.le_of_succ_le_succ upTo)
          have positive : 2 ^ power ≠ 0 := (Nat.two_pow_pos power).ne'
          rw [Nat.pow_succ, Nat.mul_div_cancel _ (by decide), if_neg positive, Nat.mul_comm]
          exact ⟨small.trans_lt (by decide), rfl⟩

/-- What is written last selects the divider. -/
theorem selectedDivisor_written {mode : Mode} {divisor sctl : Nat} (divides : mode.Divides divisor)
    (clear8 : field sctl 8 8 = 0) (clear2 : field sctl 6 2 = 0)
    (select : field sctl 5 1 = if mode = .programmable then 1 else 0) :
    selectedDivisor (sctl ||| (sysctlClk (modeCode divisor mode) ||| SDHCI_SYSCTL_ICE) |||
      SDHCI_SYSCTL_CEN) = divisor := by
  obtain ⟨small, decoded⟩ := modeCode_spec divides
  obtain ⟨frequency, notSelect⟩ := field_sysctlClk small
  have ice8 : field SDHCI_SYSCTL_ICE 8 8 = 0 := by decide
  have ice2 : field SDHCI_SYSCTL_ICE 6 2 = 0 := by decide
  have ice1 : field SDHCI_SYSCTL_ICE 5 1 = 0 := by decide
  have cen8 : field SDHCI_SYSCTL_CEN 8 8 = 0 := by decide
  have cen2 : field SDHCI_SYSCTL_CEN 6 2 = 0 := by decide
  have cen1 : field SDHCI_SYSCTL_CEN 5 1 = 0 := by decide
  rw [selectedDivisor, frequencySelect]
  simp only [field_or, clear8, clear2, select, notSelect, ice8, ice2, ice1, cen8, cen2, cen1,
    Nat.or_zero, Nat.zero_or, frequency]
  refine Eq.trans ?_ decoded
  cases mode <;> rfl

/-- The register that is read keeps no bit of a divider. -/
theorem field_cleared (sysctl : Nat) (icePersist : Bool) :
    let sctl := sysctl &&& compl 32 (stopMask icePersist) ||| SDHCI_SYSCTL_DTO_MAX
    field sctl 8 8 = 0 ∧ field sctl 6 2 = 0 ∧ field sctl 5 1 = 0 := by
  have clear {start size : Nat} (mask : field (compl 32 (stopMask icePersist)) start size = 0)
      (time : field SDHCI_SYSCTL_DTO_MAX start size = 0) :
      field (sysctl &&& compl 32 (stopMask icePersist) ||| SDHCI_SYSCTL_DTO_MAX) start size =
        0 := by
    rw [field_or, field_and, mask, time, Nat.and_zero, Nat.or_zero]
  refine ⟨clear ?_ (by decide), clear ?_ (by decide), clear ?_ (by decide)⟩ <;>
    cases icePersist <;> decide

/-- In each mode the register selects the smallest divider with which the clock is not faster
than the request. -/
theorem sdhciClk_smallest (hc : Host) (sysctl clk : Nat) (presetVal : Bool)
    (inRange : hc.clkMin ≤ clk)
    (chooses : modeOf hc.version hc.clkMul = .programmable → presetVal = false) :
    ∃ written ∈ (sdhciClk hc sysctl presetVal clk).getLast?,
      Smallest (modeOf hc.version hc.clkMul) hc.clkMax clk (selectedDivisor written) := by
  rw [hc.clkMin_eq] at inRange
  have smallest := modeDivisor_smallest (modeOf hc.version hc.clkMul) inRange
  simp only [sdhciClk, List.getLast?_cons_cons, List.getLast?_singleton, Option.mem_some_iff,
    exists_eq_left']
  generalize modeOf hc.version hc.clkMul = mode at chooses smallest ⊢
  have notPreset : ¬(mode = .programmable ∧ presetVal = true) := by
    rintro ⟨programmable, preset⟩
    rw [chooses programmable] at preset
    cases preset
  obtain ⟨clear8, clear2, clear1⟩ := field_cleared sysctl hc.icePersist
  rw [if_neg notPreset, selectedDivisor_written smallest.divides]
  · exact smallest
  · split
    · rw [field_or, clear8]
      decide
    · exact clear8
  · split
    · rw [field_or, clear2]
      decide
    · exact clear2
  · by_cases programmable : mode = .programmable
    · rw [if_pos programmable, if_pos ⟨programmable, chooses programmable⟩, field_or, clear1]
      decide
    · rw [if_neg programmable, if_neg fun both => programmable both.1, clear1]

/-- A controller of version 3 with a base clock of 200 MHz, and a card at 400 kHz. -/
theorem identification_smallest : ∃ written ∈
    (sdhciClk (sdhciInit 2 200000000 0 false) 0 false 400000).getLast?,
      Smallest .even 200000000 400000 (selectedDivisor written) :=
  sdhciClk_smallest (sdhciInit 2 200000000 0 false) 0 400000 false (by decide) (by decide)

end Bcm2711.Sdhci.Clock
