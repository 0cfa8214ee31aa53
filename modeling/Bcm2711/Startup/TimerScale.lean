import Mathlib
import Bcm2711.Lib.Walk

/-! # The period of the timer

`invert_timer_freq` divides one by the frequency, digit by digit, and stores the digits with a
power of ten.  `timer_tick2ns` multiplies by them.
-/

namespace Bcm2711.Startup

open Walks

def UINT_MAX : Nat := 2 ^ 32 - 1

/-- What `struct qtime_entry` holds about the period. -/
structure QtimeEntry where
  timerPeriod : Nat
  timerScale : Int

/-- The variables of the division. -/
structure Inversion where
  quot : Nat
  period : Nat
  scale : Int

/-- The frequency that the division is by. -/
def invertFreq (freq : Nat) : Nat := if UINT_MAX / 10 < freq then freq / 10 else freq

/-- The variables before the loop. -/
def invertStart (freq : Nat) : Inversion where
  quot := 1
  period := 0
  scale := if UINT_MAX / 10 < freq then -1 else 0

/-- One turn of the loop. -/
def invertTurn (freq : Nat) (vars : Inversion) : Turn Inversion QtimeEntry :=
  let div := vars.quot / freq
  let period := (vars.period * 10 + div) % 2 ^ 32
  if UINT_MAX / 10 - 10 ≤ period then .ends ⟨period, vars.scale⟩
  else
    let rem := vars.quot % freq
    if rem = 0 then .ends ⟨period, vars.scale⟩
    else .goes ⟨rem * 10 % 2 ^ 32, period, vars.scale - 1⟩

/-- `invert_timer_freq` returns with this entry; it crashes on 0. -/
def InvertTimerFreq (freq : Nat) (qtime : QtimeEntry) : Prop :=
  freq ≠ 0 ∧ Returns (invertTurn (invertFreq freq)) (invertStart freq) qtime

/-- The product in nanoseconds, unless there is one already; 0 where it overflows, `none` where
the test for that divides by zero. -/
def tryProduct (ticks period ns : Nat) : Option Nat :=
  if ns = 0 then
    let product := period * ticks % 2 ^ 64
    if period = 0 then none
    else some (if product / period ≠ ticks then 0 else product)
  else some ns

/-- The first loop of `timer_tick2ns`. -/
def scaleDown (ticks : Nat) : (power period ns : Nat) → Option Nat
  | 0, period, ns => tryProduct ticks period ns
  | power + 1, period, ns =>
      match tryProduct ticks period ns with
      | none => none
      | some ns => scaleDown ticks power (period / 10) (ns / 10)

/-- The second loop. -/
def scaleUp : (power ns : Nat) → Nat
  | 0, ns => ns
  | power + 1, ns => scaleUp power (ns * 10 % 2 ^ 64)

/-- `timer_tick2ns`; `none` is a division by zero. -/
def timerTick2ns (qtime : QtimeEntry) (ticks : Nat) : Option Nat :=
  let power := -9 - qtime.timerScale
  (scaleDown ticks power.toNat qtime.timerPeriod 0).map (scaleUp (-power).toNat)

/-- `timer_ns2tick`. -/
def timerNs2tick (qtime : QtimeEntry) (ns : Nat) : Option Nat :=
  match timerTick2ns qtime 1 with
  | none => none
  | some ticks2ns => if ticks2ns ≠ 0 then some (ns / ticks2ns) else some 0xFFFFFFFF

section Invert

variable {freq : Nat} {scale : Int}

/-- After so many digits the period and what is left are those of that power of ten. -/
structure Divided (freq : Nat) (scale : Int) (digits : Nat) (vars : Inversion) : Prop where
  exact : vars.period * 10 * freq + vars.quot = 10 ^ digits
  left : vars.quot < 10 * freq
  small : vars.period < UINT_MAX / 10 - 10
  scaled : vars.scale = scale - digits

variable {digits : Nat} {vars : Inversion}

theorem Divided.period (divided : Divided freq scale digits vars) (positive : 0 < freq) :
    vars.period * 10 + vars.quot / freq = 10 ^ digits / freq := by
  rw [← divided.exact, Nat.add_comm (_ * freq), Nat.add_mul_div_right _ _ positive, Nat.add_comm]

theorem Divided.rem (divided : Divided freq scale digits vars) :
    vars.quot % freq = 10 ^ digits % freq := by
  rw [← divided.exact, Nat.mul_add_mod_self_right]

/-- The period does not overflow. -/
theorem Divided.period_fits (divided : Divided freq scale digits vars) :
    vars.period * 10 + vars.quot / freq < 2 ^ 32 := by
  have digit : vars.quot / freq < 10 :=
    Nat.div_lt_of_lt_mul (by rw [Nat.mul_comm]; exact divided.left)
  have small := divided.small
  unfold UINT_MAX at small
  omega

/-- Nor does ten times what is left. -/
theorem rem_fits (bounded : freq ≤ UINT_MAX / 10) (positive : 0 < freq) (quot : Nat) :
    quot % freq * 10 < 2 ^ 32 := by
  have below : quot % freq < freq := Nat.mod_lt _ positive
  unfold UINT_MAX at bounded
  omega

/-- One more digit. -/
theorem Divided.next (divided : Divided freq scale digits vars) (positive : 0 < freq)
    (bounded : freq ≤ UINT_MAX / 10) {later : Inversion}
    (goes : invertTurn freq vars = .goes later) : Divided freq scale (digits + 1) later := by
  simp only [invertTurn, Nat.mod_eq_of_lt divided.period_fits,
    Nat.mod_eq_of_lt (rem_fits bounded positive _)] at goes
  split at goes
  · cases goes
  · next small =>
      split at goes
      · cases goes
      · cases goes
        refine ⟨?_, ?_, not_le.mp small, ?_⟩
        · dsimp only
          rw [divided.period positive, divided.rem]
          calc 10 ^ digits / freq * 10 * freq + 10 ^ digits % freq * 10
              = (freq * (10 ^ digits / freq) + 10 ^ digits % freq) * 10 := by ring
            _ = 10 ^ (digits + 1) := by rw [Nat.div_add_mod, pow_succ]
        · have below : vars.quot % freq < freq := Nat.mod_lt _ positive
          dsimp only
          omega
        · have scaled := divided.scaled
          dsimp only
          push_cast
          omega

/-- The entry holds so many digits of one through the frequency, and all that matter. -/
structure Inverted (freq : Nat) (scale : Int) (digits : Nat) (qtime : QtimeEntry) : Prop where
  period : qtime.timerPeriod = 10 ^ digits / freq
  scaled : qtime.timerScale = scale - digits
  complete : UINT_MAX / 10 - 10 ≤ qtime.timerPeriod ∨ freq ∣ 10 ^ digits

theorem Divided.last (divided : Divided freq scale digits vars) (positive : 0 < freq)
    {qtime : QtimeEntry} (ends : invertTurn freq vars = .ends qtime) :
    Inverted freq scale digits qtime := by
  simp only [invertTurn, Nat.mod_eq_of_lt divided.period_fits] at ends
  split at ends
  · next enough =>
      cases ends
      exact ⟨divided.period positive, divided.scaled, .inl enough⟩
  · split at ends
    · next none =>
        cases ends
        rw [divided.rem] at none
        exact ⟨divided.period positive, divided.scaled, .inr (Nat.dvd_of_mod_eq_zero none)⟩
    · cases ends

/-- Eighteen digits are always enough. -/
theorem Divided.bounded (divided : Divided freq scale digits vars) (positive : 0 < freq)
    (bounded : freq ≤ UINT_MAX / 10) {later : Inversion}
    (goes : invertTurn freq vars = .goes later) : digits < 18 := by
  have small := (divided.next positive bounded goes).small
  have period : later.period = 10 ^ digits / freq := by
    have exact := (divided.next positive bounded goes).exact
    have left := (divided.next positive bounded goes).left
    symm
    apply Nat.div_eq_of_lt_le
    · have double : later.period * freq * 10 ≤ 10 ^ digits * 10 := by
        rw [← pow_succ, ← exact]
        linarith
      exact Nat.le_of_mul_le_mul_right double (by norm_num)
    · have double : 10 ^ digits * 10 < (later.period + 1) * freq * 10 := by
        rw [← pow_succ, ← exact]
        linarith
      exact Nat.lt_of_mul_lt_mul_right double
  by_contra many
  have power : 10 ^ 18 ≤ 10 ^ digits := Nat.pow_le_pow_right (by norm_num) (not_lt.mp many)
  have large : (10 ^ 18 : Nat) / (UINT_MAX / 10) ≤ 10 ^ digits / freq :=
    (Nat.div_le_div_right power).trans (Nat.div_le_div_left bounded positive)
  rw [period] at small
  unfold UINT_MAX at small large
  omega

/-- The division returns. -/
theorem Divided.returns (divided : Divided freq scale digits vars) (positive : 0 < freq)
    (bounded : freq ≤ UINT_MAX / 10) :
    ∃ qtime digits, Returns (invertTurn freq) vars qtime ∧ Inverted freq scale digits qtime := by
  induction rest : 18 - digits generalizing digits vars with
  | zero =>
      cases turn : invertTurn freq vars with
      | ends qtime => exact ⟨qtime, digits, returns_of_ends turn, divided.last positive turn⟩
      | goes later =>
          have few := divided.bounded positive bounded turn
          omega
  | succ room ih =>
      cases turn : invertTurn freq vars with
      | ends qtime => exact ⟨qtime, digits, returns_of_ends turn, divided.last positive turn⟩
      | goes later =>
          have fewer : 18 - (digits + 1) = room := by omega
          obtain ⟨qtime, total, returns, inverted⟩ :=
            ih (divided.next positive bounded turn) fewer
          exact ⟨qtime, total, returns_of_goes turn returns, inverted⟩

theorem invertFreq_bounded (fits : freq < 2 ^ 32) : invertFreq freq ≤ UINT_MAX / 10 := by
  unfold invertFreq
  split
  · unfold UINT_MAX
    omega
  · next small => exact not_lt.mp small

theorem invertFreq_positive (positive : 0 < freq) : 0 < invertFreq freq := by
  unfold invertFreq
  split
  · next large =>
      unfold UINT_MAX at large
      omega
  · exact positive

theorem divided_start (freq : Nat) (positive : 0 < freq) :
    Divided (invertFreq freq) (invertStart freq).scale 0 (invertStart freq) := by
  have above := invertFreq_positive positive
  refine ⟨?_, ?_, ?_, ?_⟩
  · dsimp only [invertStart]
    rw [pow_zero, Nat.mul_assoc, Nat.zero_mul, Nat.zero_add]
  · dsimp only [invertStart]
    omega
  · dsimp only [invertStart, UINT_MAX]
    norm_num
  · rw [Nat.cast_zero, sub_zero]

/-- No operation of the division overflows. -/
def InvertFits (freq : Nat) : Prop :=
  ∀ vars, Relation.ReflTransGen (Leads (invertTurn (invertFreq freq))) (invertStart freq) vars →
    vars.period * 10 + vars.quot / invertFreq freq < 2 ^ 32 ∧
      vars.quot % invertFreq freq * 10 < 2 ^ 32

theorem invert_fits (positive : 0 < freq) (fits : freq < 2 ^ 32) : InvertFits freq := by
  have bounded := invertFreq_bounded fits
  have above := invertFreq_positive positive
  intro vars reached
  have divided : ∃ digits, Divided (invertFreq freq) (invertStart freq).scale digits vars := by
    induction reached with
    | refl => exact ⟨0, divided_start freq positive⟩
    | tail _ leads ih =>
        obtain ⟨digits, divided⟩ := ih
        exact ⟨digits + 1, divided.next above bounded leads⟩
  obtain ⟨digits, divided⟩ := divided
  exact ⟨divided.period_fits, rem_fits bounded above _⟩

/-- `invert_timer_freq` returns, with the digits of one through the frequency. -/
theorem invertTimerFreq_returns (positive : 0 < freq) (fits : freq < 2 ^ 32) :
    ∃ qtime digits, InvertTimerFreq freq qtime ∧
      Inverted (invertFreq freq) (invertStart freq).scale digits qtime := by
  obtain ⟨qtime, digits, returns, inverted⟩ :=
    (divided_start freq positive).returns (invertFreq_positive positive) (invertFreq_bounded fits)
  exact ⟨qtime, digits, ⟨positive.ne', returns⟩, inverted⟩

end Invert

section Tick2ns

variable {ticks period power : Nat}

/-- The product at first, when it does not overflow. -/
theorem tryProduct_first (positive : 0 < period) (fits : ticks * period < 2 ^ 64) :
    tryProduct ticks period 0 = some (ticks * period) := by
  unfold tryProduct
  rw [if_pos rfl, if_neg positive.ne', Nat.mul_comm, Nat.mod_eq_of_lt fits,
    Nat.mul_div_cancel _ positive, if_neg (not_not.mpr rfl)]

/-- A product is kept. -/
theorem tryProduct_held {ns : Nat} (positive : 0 < period) (held : ticks ≤ ns) :
    tryProduct ticks period ns = some ns := by
  by_cases zero : ns = 0
  · have none : ticks = 0 := by
      rw [zero] at held
      exact Nat.le_zero.mp held
    have first : tryProduct 0 period 0 = some (0 * period) :=
      tryProduct_first positive (by rw [Nat.zero_mul]; norm_num)
    rw [zero, none, first, Nat.zero_mul]
  · exact if_neg zero

/-- A tenth of a period of so many digits has one less. -/
theorem tenth_long (long : 10 ^ (power + 1) ≤ period) : 10 ^ power ≤ period / 10 := by
  rw [Nat.le_div_iff_mul_le (by norm_num), ← pow_succ]
  exact long

/-- No turn divides by zero when the period is long enough. -/
theorem scaleDown_returns (ns : Nat) (long : 10 ^ power ≤ period) :
    ∃ result, scaleDown ticks power period ns = some result := by
  induction power generalizing period ns with
  | zero =>
      have positive : period ≠ 0 := Nat.one_le_iff_ne_zero.mp long
      rw [scaleDown, tryProduct]
      by_cases zero : ns = 0
      · rw [if_pos zero, if_neg positive]
        exact ⟨_, rfl⟩
      · exact ⟨ns, if_neg zero⟩
  | succ power ih =>
      have positive : period ≠ 0 := (Nat.lt_of_lt_of_le (by positivity) long).ne'
      rw [scaleDown, tryProduct]
      by_cases zero : ns = 0
      · rw [if_pos zero, if_neg positive]
        exact ih _ (tenth_long long)
      · rw [if_neg zero]
        exact ih _ (tenth_long long)

/-- A product that is held is divided by the power of ten. -/
theorem scaleDown_held {ns : Nat} (long : 10 ^ power ≤ period) (held : ticks * 10 ^ power ≤ ns) :
    scaleDown ticks power period ns = some (ns / 10 ^ power) := by
  have positive : 0 < period := Nat.lt_of_lt_of_le (by positivity) long
  have kept : tryProduct ticks period ns = some ns :=
    tryProduct_held positive ((Nat.le_mul_of_pos_right _ (by positivity)).trans held)
  induction power generalizing period ns with
  | zero => rw [scaleDown, kept, pow_zero, Nat.div_one]
  | succ power ih =>
      have shorter : 10 ^ power ≤ period / 10 := tenth_long long
      have tenth : ticks * 10 ^ power ≤ ns / 10 := by
        rw [Nat.le_div_iff_mul_le (by norm_num), Nat.mul_assoc, ← pow_succ]
        exact held
      have stillPositive : 0 < period / 10 := Nat.lt_of_lt_of_le (by positivity) shorter
      have stillKept : tryProduct ticks (period / 10) (ns / 10) = some (ns / 10) :=
        tryProduct_held stillPositive ((Nat.le_mul_of_pos_right _ (by positivity)).trans tenth)
      rw [scaleDown, kept]
      dsimp only
      rw [ih shorter tenth stillPositive stillKept, Nat.div_div_eq_div_mul, pow_succ,
        Nat.mul_comm 10]

/-- The first loop divides the product by the power of ten. -/
theorem scaleDown_product (long : 10 ^ power ≤ period) (fits : ticks * period < 2 ^ 64) :
    scaleDown ticks power period 0 = some (ticks * period / 10 ^ power) := by
  have positive : 0 < period := Nat.lt_of_lt_of_le (by positivity) long
  have same : scaleDown ticks power period 0 = scaleDown ticks power period (ticks * period) := by
    have held : tryProduct ticks period (ticks * period) = some (ticks * period) :=
      tryProduct_held positive (Nat.le_mul_of_pos_right _ positive)
    cases power with
    | zero => rw [scaleDown, scaleDown, held, tryProduct_first positive fits]
    | succ power => rw [scaleDown, scaleDown, held, tryProduct_first positive fits]
  rw [same]
  exact scaleDown_held long (Nat.mul_le_mul_left _ long)

/-- Without ticks a period that is too short is divided away, and is then divided by. -/
theorem scaleDown_faults (short : period < 10 ^ power) : scaleDown 0 power period 0 = none := by
  induction power generalizing period with
  | zero =>
      rw [pow_zero, Nat.lt_one_iff] at short
      rw [scaleDown, short]
      rfl
  | succ power ih =>
      by_cases zero : period = 0
      · rw [scaleDown, zero]
        rfl
      · have first : tryProduct 0 period 0 = some (0 * period) :=
          tryProduct_first (Nat.pos_of_ne_zero zero) (by rw [Nat.zero_mul]; norm_num)
        have shorter : period / 10 < 10 ^ power := by
          rw [Nat.div_lt_iff_lt_mul (by norm_num), ← pow_succ]
          exact short
        rw [scaleDown, first, Nat.zero_mul]
        exact ih shorter

/-- The second loop multiplies by the power of ten. -/
theorem scaleUp_exact {ns : Nat} (fits : ns * 10 ^ power < 2 ^ 64) :
    scaleUp power ns = ns * 10 ^ power := by
  induction power generalizing ns with
  | zero => rw [scaleUp, pow_zero, Nat.mul_one]
  | succ power ih =>
      have regrouped : ns * 10 ^ (power + 1) = ns * 10 * 10 ^ power := by
        rw [pow_succ, Nat.mul_assoc, Nat.mul_comm 10]
      rw [regrouped] at fits ⊢
      have small : ns * 10 < 2 ^ 64 := (Nat.le_mul_of_pos_right _ (by positivity)).trans_lt fits
      rw [scaleUp, Nat.mod_eq_of_lt small]
      exact ih fits

/-- The nanoseconds of so many ticks. -/
def exactNs (qtime : QtimeEntry) (ticks : Nat) : ℚ :=
  ticks * qtime.timerPeriod * 10 ^ (qtime.timerScale + 9)

variable {qtime : QtimeEntry}

/-- Where the scale is down, what is returned is the floor. -/
theorem exactNs_floor (down : qtime.timerScale + 9 = -power) :
    ⌊exactNs qtime ticks⌋₊ = ticks * qtime.timerPeriod / 10 ^ power := by
  have quotient : exactNs qtime ticks =
      ((ticks * qtime.timerPeriod : Nat) : ℚ) / ((10 ^ power : Nat) : ℚ) := by
    rw [exactNs, down, zpow_neg, zpow_natCast, ← div_eq_mul_inv]
    push_cast
    rfl
  rw [quotient, Nat.floor_div_eq_div]

/-- Where it is up, the number is whole. -/
theorem exactNs_whole (up : qtime.timerScale + 9 = power) :
    exactNs qtime ticks = ((ticks * qtime.timerPeriod * 10 ^ power : Nat) : ℚ) := by
  rw [exactNs, up, zpow_natCast]
  push_cast
  rfl

/-- With a period that is long enough `timer_tick2ns` returns, and returns the floor. -/
theorem timerTick2ns_floor (long : 10 ^ (-9 - qtime.timerScale).toNat ≤ qtime.timerPeriod)
    (ticks : Nat) :
    ∃ ns, timerTick2ns qtime ticks = some ns ∧
      (exactNs qtime ticks < 2 ^ 64 → ticks * qtime.timerPeriod < 2 ^ 64 →
        ns = ⌊exactNs qtime ticks⌋₊) := by
  obtain ⟨scaled, returned⟩ := @scaleDown_returns ticks _ _ 0 long
  refine ⟨_, by rw [timerTick2ns, returned]; rfl, fun small fits => ?_⟩
  rw [scaleDown_product long fits] at returned
  obtain rfl := Option.some.inj returned
  rcases le_total 0 (-9 - qtime.timerScale) with down | up
  · have none : (-(-9 - qtime.timerScale)).toNat = 0 := by
      apply Int.toNat_of_nonpos
      exact neg_nonpos.mpr down
    have power : qtime.timerScale + 9 = -((-9 - qtime.timerScale).toNat : Int) := by
      rw [Int.toNat_of_nonneg down]
      ring
    rw [none, scaleUp, exactNs_floor power]
  · have none : (-9 - qtime.timerScale).toNat = 0 := Int.toNat_of_nonpos up
    have power : qtime.timerScale + 9 = ((-(-9 - qtime.timerScale)).toNat : Int) := by
      rw [Int.toNat_of_nonneg (neg_nonneg.mpr up)]
      ring
    rw [exactNs_whole power] at small ⊢
    rw [none, pow_zero, Nat.div_one, Nat.floor_natCast]
    apply scaleUp_exact
    exact_mod_cast small

end Tick2ns

section Converts

variable {freq digits places : Nat} {scale : Int} {qtime : QtimeEntry}

theorem Inverted.positive (inverted : Inverted freq scale digits qtime) (positive : 0 < freq) :
    0 < qtime.timerPeriod := by
  rcases inverted.complete with large | divides
  · unfold UINT_MAX at large
    omega
  · rw [inverted.period]
    exact Nat.div_pos (Nat.le_of_dvd (by positivity) divides) positive

/-- The period is long enough where a nanosecond is no more than a unit of the frequency. -/
theorem Inverted.long (inverted : Inverted freq scale digits qtime) (positive : 0 < freq)
    (start : scale + 9 = places) (small : freq ≤ 10 ^ places) :
    10 ^ (-9 - qtime.timerScale).toNat ≤ qtime.timerPeriod := by
  have power : (-9 - qtime.timerScale).toNat = digits - places := by
    have scaled := inverted.scaled
    omega
  rw [power]
  rcases le_total places digits with enough | few
  · rw [inverted.period, Nat.le_div_iff_mul_le positive]
    calc 10 ^ (digits - places) * freq ≤ 10 ^ (digits - places) * 10 ^ places :=
          Nat.mul_le_mul_left _ small
      _ = 10 ^ digits := by rw [← pow_add, Nat.sub_add_cancel enough]
  · rw [Nat.sub_eq_zero_of_le few]
    exact inverted.positive positive

/-- Otherwise it is too short. -/
theorem Inverted.short (inverted : Inverted freq scale digits qtime) (start : scale + 9 = places)
    (large : 10 ^ places < freq) :
    qtime.timerPeriod < 10 ^ (-9 - qtime.timerScale).toNat := by
  have positive : 0 < freq := (Nat.zero_le _).trans_lt large
  have enough : places ≤ digits := by
    by_contra few
    have below : 10 ^ digits < freq :=
      (Nat.pow_le_pow_right (by norm_num) (not_le.mp few).le).trans_lt large
    have period := inverted.positive positive
    rw [inverted.period, Nat.div_eq_of_lt below] at period
    exact lt_irrefl 0 period
  have power : (-9 - qtime.timerScale).toNat = digits - places := by
    have scaled := inverted.scaled
    omega
  rw [power, inverted.period, Nat.div_lt_iff_lt_mul positive]
  calc 10 ^ digits = 10 ^ (digits - places) * 10 ^ places := by
        rw [← pow_add, Nat.sub_add_cancel enough]
    _ < 10 ^ (digits - places) * freq := Nat.mul_lt_mul_of_pos_left large (by positivity)

/-- The period is the floor of one through the frequency. -/
theorem Inverted.floor (inverted : Inverted freq 0 digits qtime) :
    qtime.timerPeriod = ⌊(10 : ℚ) ^ (-qtime.timerScale) / freq⌋₊ := by
  have power : -qtime.timerScale = digits := by
    have scaled := inverted.scaled
    omega
  have quotient : (10 : ℚ) ^ (-qtime.timerScale) / freq = ((10 ^ digits : Nat) : ℚ) / freq := by
    rw [power, zpow_natCast]
    push_cast
    rfl
  rw [quotient, Nat.floor_div_eq_div, inverted.period]

/-- The entry holds the period, and ticks are converted with it. -/
structure ConvertsWith (freq : Nat) (qtime : QtimeEntry) : Prop where
  period : freq ≤ UINT_MAX / 10 →
    qtime.timerPeriod = ⌊(10 : ℚ) ^ (-qtime.timerScale) / freq⌋₊
  ticks : ∀ ticks < 2 ^ 64, ∃ ns, timerTick2ns qtime ticks = some ns ∧
    (exactNs qtime ticks < 2 ^ 64 → ticks * qtime.timerPeriod < 2 ^ 64 →
      ns = ⌊exactNs qtime ticks⌋₊)

/-- The period of a frequency is found without overflow, and ticks are converted with it. -/
def TimerConverts (freq : Nat) : Prop :=
  InvertFits freq ∧ ∃ qtime, InvertTimerFreq freq qtime ∧ ConvertsWith freq qtime

/-- Above a gigahertz, rounded to ten hertz, no ticks are a division by zero. -/
theorem not_timerConverts (fits : freq < 2 ^ 32) (fast : 1000000010 ≤ freq) :
    ¬ TimerConverts freq := by
  have large : UINT_MAX / 10 < freq := by
    unfold UINT_MAX
    omega
  have start : (invertStart freq).scale + 9 = (8 : Nat) := by
    dsimp only [invertStart]
    rw [if_pos large]
    rfl
  have divided : 10 ^ 8 < invertFreq freq := by
    rw [invertFreq, if_pos large]
    omega
  have positive : 0 < freq := (Nat.zero_le _).trans_lt large
  obtain ⟨qtime, digits, returns, inverted⟩ := invertTimerFreq_returns positive fits
  rintro ⟨_, other, otherReturns, converts⟩
  obtain rfl := otherReturns.2.unique returns.2
  obtain ⟨ns, converted, _⟩ := converts.ticks 0 (by norm_num)
  rw [timerTick2ns, scaleDown_faults (inverted.short start divided)] at converted
  cases converted

/-- The period of a timer is found, and ticks are converted with it, exactly for a frequency of
up to a gigahertz, rounded to ten hertz. -/
theorem timerConverts_iff (freq : Nat) (positive : 0 < freq) (fits : freq < 2 ^ 32) :
    TimerConverts freq ↔ freq < 1000000010 := by
  obtain ⟨qtime, digits, returns, inverted⟩ := invertTimerFreq_returns positive fits
  have above := invertFreq_positive positive
  constructor
  · intro converts
    by_contra fast
    exact not_timerConverts fits (not_lt.mp fast) converts
  · intro slow
    refine ⟨invert_fits positive fits, qtime, returns, ?_⟩
    by_cases large : UINT_MAX / 10 < freq
    · have start : (invertStart freq).scale + 9 = (8 : Nat) := by
        dsimp only [invertStart]
        rw [if_pos large]
        rfl
      have divided : invertFreq freq ≤ 10 ^ 8 := by
        rw [invertFreq, if_pos large]
        omega
      have long := inverted.long above start divided
      exact ⟨fun small => absurd large (not_lt.mpr small), fun ticks _ =>
        timerTick2ns_floor long ticks⟩
    · have start : (invertStart freq).scale + 9 = (9 : Nat) := by
        dsimp only [invertStart]
        rw [if_neg large]
        rfl
      have same : invertFreq freq = freq := if_neg large
      have unscaled : (invertStart freq).scale = 0 := if_neg large
      rw [same] at inverted
      have divided : freq ≤ 10 ^ 9 := by
        unfold UINT_MAX at large
        omega
      have long := inverted.long positive start divided
      rw [unscaled] at inverted
      exact ⟨fun _ => inverted.floor, fun ticks _ => timerTick2ns_floor long ticks⟩

/-- The timer of this board. -/
theorem timerConverts_board : TimerConverts 54000000 ↔ 54000000 < 1000000010 :=
  timerConverts_iff 54000000 (by norm_num) (by norm_num)

/-- A timer of two gigahertz has a period that is divided away. -/
theorem fastTimer_faults : ¬ TimerConverts 2000000000 :=
  not_timerConverts (by norm_num) (by norm_num)

end Converts

end Bcm2711.Startup
