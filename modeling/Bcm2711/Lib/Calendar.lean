import Mathlib

/-! # Calendars

Years follow each other with their days, and months within a year.  Which years are leap years is
left to a rule, so that calendars can be compared.
-/

namespace Calendar

/-- Which years are leap years. -/
abbrev Rule := Nat → Bool

/-- Every fourth year. -/
def julian : Rule := fun year => year % 4 = 0

/-- Every fourth year, but of the centuries only every fourth. -/
def gregorian : Rule := fun year => year % 4 = 0 ∧ (year % 100 ≠ 0 ∨ year % 400 = 0)

def yearDays (rule : Rule) (year : Nat) : Nat := if rule year then 366 else 365

/-- The days of a month, which are counted from 0. -/
def monthDays (isLeap : Bool) (mon : Nat) : Nat :=
  [31, if isLeap then 29 else 28, 31, 30, 31, 30, 31, 31, 30, 31, 30, 31].getD mon 0

/-- The days of so many years. -/
def yearsDays (rule : Rule) (first count : Nat) : Nat :=
  ∑ year ∈ Finset.range count, yearDays rule (first + year)

/-- The days of a year before a month. -/
def monthsDays (isLeap : Bool) (mon : Nat) : Nat := ∑ m ∈ Finset.range mon, monthDays isLeap m

/-- A day of a calendar. -/
structure Date (rule : Rule) where
  year : Nat
  mon : Nat
  mday : Nat
  mon_lt : mon < 12
  mday_pos : 0 < mday
  mday_le : mday ≤ monthDays (rule year) mon

/-- The days from the first day of a year to a day. -/
def days (rule : Rule) (first year mon mday : Nat) : Nat :=
  yearsDays rule first (year - first) + monthsDays (rule year) mon + (mday - 1)

/-- Take off a number what fits of it, size by size, in so many rounds at the most: the size that
does not fit, and what is left. -/
def takeOff (size : Nat → Nat) : (rounds place rest : Nat) → Nat × Nat
  | 0, place, rest => (place, rest)
  | rounds + 1, place, rest =>
      if rest < size place then (place, rest)
      else takeOff size rounds (place + 1) (rest - size place)

section TakeOff

variable {size : Nat → Nat} {rounds place rest : Nat}

/-- What is taken off and what is left make up the number. -/
theorem takeOff_sum (size : Nat → Nat) (rounds place rest : Nat) :
    ∑ i ∈ Finset.range (takeOff size rounds place rest).1, size i +
        (takeOff size rounds place rest).2 =
      ∑ i ∈ Finset.range place, size i + rest := by
  induction rounds generalizing place rest with
  | zero => rfl
  | succ rounds ih =>
      rw [takeOff]
      split
      · rfl
      · next fits =>
          rw [ih, Finset.sum_range_succ]
          omega

/-- What is left does not fit, where the rounds do. -/
theorem takeOff_lt (positive : ∀ i, 0 < size i) (enough : rest < rounds) :
    (takeOff size rounds place rest).2 < size (takeOff size rounds place rest).1 := by
  induction rounds generalizing place rest with
  | zero => exact absurd enough (Nat.not_lt_zero rest)
  | succ rounds ih =>
      rw [takeOff]
      split
      · next less => exact less
      · next fits =>
          apply ih
          have here := positive place
          omega

/-- Sizes that make up a number with a rest are taken off. -/
theorem takeOff_eq {count : Nat} (less : rest < size (place + count)) (enough : count < rounds) :
    takeOff size rounds place (∑ i ∈ Finset.range count, size (place + i) + rest) =
      (place + count, rest) := by
  induction count generalizing place rounds with
  | zero =>
      obtain ⟨rounds, rfl⟩ := Nat.exists_eq_succ_of_ne_zero (Nat.ne_zero_of_lt enough)
      rw [Finset.sum_range_zero, Nat.zero_add, takeOff]
      exact if_pos less
  | succ count ih =>
      obtain ⟨rounds, rfl⟩ := Nat.exists_eq_succ_of_ne_zero (Nat.ne_zero_of_lt enough)
      have shifted : ∀ i, size (place + (i + 1)) = size (place + 1 + i) := by
        intro i
        rw [Nat.add_assoc, Nat.add_comm 1]
      have less' : rest < size (place + 1 + count) := by
        rw [← shifted]
        exact less
      rw [Finset.sum_range_succ', takeOff, Nat.add_zero, if_neg (by omega)]
      simp only [shifted]
      have left : ∑ i ∈ Finset.range count, size (place + 1 + i) + size place + rest - size place =
          ∑ i ∈ Finset.range count, size (place + 1 + i) + rest := by omega
      rw [left, ih less' (Nat.lt_of_succ_lt_succ enough), Nat.add_assoc, Nat.add_comm 1]

theorem takeOff_zero {count total : Nat} (sum : total = ∑ i ∈ Finset.range count, size i + rest)
    (less : rest < size count) (enough : count < rounds) :
    takeOff size rounds 0 total = (count, rest) := by
  have less' : rest < size (0 + count) := by
    rw [Nat.zero_add]
    exact less
  have taken := takeOff_eq less' enough
  simp only [Nat.zero_add] at taken
  rw [sum]
  exact taken

end TakeOff

/-! ## Dates -/

theorem monthsDays_lt (isLeap : Bool) : ∀ mon < 12, ∀ mday ≤ monthDays isLeap mon, 0 < mday →
    monthsDays isLeap mon + (mday - 1) < if isLeap then 366 else 365 := by
  cases isLeap <;> decide

/-- A date lies within its year. -/
theorem Date.yday_lt {rule : Rule} (date : Date rule) :
    monthsDays (rule date.year) date.mon + (date.mday - 1) < yearDays rule date.year :=
  monthsDays_lt _ date.mon date.mon_lt date.mday date.mday_le date.mday_pos

theorem yearDays_le_366 (rule : Rule) (year : Nat) : yearDays rule year ≤ 366 := by
  rw [yearDays]
  split
  · exact Nat.le_refl 366
  · exact Nat.le_succ 365

/-! ## Two calendars -/

theorem julian_of_gregorian {year : Nat} (isLeap : gregorian year = true) : julian year = true := by
  rw [gregorian, decide_eq_true_eq] at isLeap
  exact decide_eq_true isLeap.1

/-- The calendars agree where all centuries are leap years. -/
theorem gregorian_eq_julian {year : Nat} (regular : year % 100 = 0 → year % 400 = 0) :
    gregorian year = julian year := by
  rw [gregorian, julian, decide_eq_decide]
  constructor
  · rintro ⟨fourth, -⟩
    exact fourth
  · intro fourth
    exact ⟨fourth, (em (year % 100 = 0)).symm.imp_right regular⟩

theorem yearDays_le (year : Nat) : yearDays gregorian year ≤ yearDays julian year := by
  rw [yearDays, yearDays]
  split
  · next isLeap => rw [if_pos (julian_of_gregorian isLeap)]
  · split
    · decide
    · exact Nat.le_refl _

theorem monthDays_le {first second : Bool} (implies : first = true → second = true) (mon : Nat) :
    monthDays first mon ≤ monthDays second mon := by
  cases first with
  | true => rw [implies rfl]
  | false =>
      cases second with
      | false => exact Nat.le_refl _
      | true =>
          rcases mon with _ | _ | mon
          · exact Nat.le_refl _
          · exact Nat.le_succ 28
          · exact Nat.le_refl _

theorem monthsDays_le {first second : Bool} (implies : first = true → second = true) (mon : Nat) :
    monthsDays first mon ≤ monthsDays second mon :=
  Finset.sum_le_sum fun m _ => monthDays_le implies m

/-- A leap year is a day longer from its third month on. -/
theorem monthsDays_true (mon : Nat) :
    monthsDays true mon = monthsDays false mon + if 2 ≤ mon then 1 else 0 := by
  induction mon with
  | zero => rfl
  | succ mon ih =>
      rw [monthsDays, monthsDays, Finset.sum_range_succ, Finset.sum_range_succ, ← monthsDays,
        ← monthsDays, ih]
      rcases mon with _ | _ | mon
      · rfl
      · rfl
      · have same : monthDays true (mon + 1 + 1) = monthDays false (mon + 1 + 1) := rfl
        rw [same, if_pos (Nat.le_add_left 2 mon), if_pos (Nat.le_add_left 2 (mon + 1)),
          Nat.add_right_comm]

/-- From the second year behind a leap year on. -/
theorem yearsDays_julian (count : Nat) :
    yearsDays julian 1970 count = 365 * count + (count + 1) / 4 := by
  induction count with
  | zero => rfl
  | succ count ih =>
      rw [yearsDays, Finset.sum_range_succ, ← yearsDays, ih, yearDays, julian]
      simp only [decide_eq_true_eq]
      split
      · omega
      · omega

theorem yearsDays_eq {first count : Nat}
    (regular : ∀ year, first ≤ year → year < first + count → year % 100 = 0 → year % 400 = 0) :
    yearsDays gregorian first count = yearsDays julian first count := by
  apply Finset.sum_congr rfl
  intro year member
  have inside := Finset.mem_range.mp member
  rw [yearDays, yearDays, gregorian_eq_julian (regular _ (by omega) (by omega))]

/-- Behind a century that is no leap year the calendars are apart. -/
theorem yearsDays_lt {first count century : Nat} (after : first ≤ century)
    (before : century < first + count) (hundredth : century % 100 = 0)
    (irregular : century % 400 ≠ 0) :
    yearsDays gregorian first count < yearsDays julian first count := by
  apply Finset.sum_lt_sum
  · exact fun year _ => yearDays_le _
  · refine ⟨century - first, Finset.mem_range.mpr (by omega), ?_⟩
    have same : first + (century - first) = century := by omega
    have notLeap : gregorian century = false := by
      apply decide_eq_false
      omega
    have isLeap : julian century = true := decide_eq_true (by omega)
    rw [same, yearDays, yearDays, notLeap, isLeap]
    decide

end Calendar
