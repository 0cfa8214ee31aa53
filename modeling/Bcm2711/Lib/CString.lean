import Bcm2711.Lib.Bytes

/-! # Strings in byte memory

A string is a run of bytes other than zero with a zero behind it.  `Spells` says which bytes
stand from an address on; the functions of the C library are computed from the memory, and
their lemmas say what they find and leave where a string stands.
-/

namespace CString

open Bytes

/-- These bytes stand from an address on. -/
def Spells (memory : Memory) : Nat → List UInt8 → Prop
  | _, [] => True
  | address, byte :: rest => memory address = byte ∧ Spells memory (address + 1) rest

/-- A string with the zero that ends it. -/
def terminated (chars : List UInt8) : List UInt8 := chars ++ [0]

/-- No byte of a string is zero. -/
def Plain (chars : List UInt8) : Prop := 0 ∉ chars

instance (chars : List UInt8) : Decidable (Plain chars) := inferInstanceAs (Decidable (0 ∉ chars))

/-- `strlen`, up to a number of bytes. -/
def strlen (memory : Memory) : (fuel address : Nat) → Option Nat
  | 0, _ => none
  | fuel + 1, address =>
      if memory address = 0 then some 0 else (strlen memory fuel (address + 1)).map (· + 1)

/-- The string at an address, up to a number of bytes. -/
def read (memory : Memory) : (fuel address : Nat) → Option (List UInt8)
  | 0, _ => none
  | fuel + 1, address =>
      if memory address = 0 then some []
      else (read memory fuel (address + 1)).map (memory address :: ·)

/-- `strcmp` finds no difference between a string and the one at an address. -/
def same (memory : Memory) : List UInt8 → Nat → Bool
  | [], address => memory address = 0
  | char :: rest, address => memory address = char && same memory rest (address + 1)

/-- Store bytes from an address on. -/
def write (memory : Memory) (dst : Nat) (bytes : List UInt8) : Memory :=
  fun address => if dst ≤ address ∧ address < dst + bytes.length then
    bytes.getD (address - dst) 0 else memory address

/-- `strlcpy` into `room` bytes. -/
def strlcpy (memory : Memory) (dst : Nat) (chars : List UInt8) (room : Nat) : Memory :=
  if room = 0 then memory else write memory dst (terminated (chars.take (room - 1)))

variable {memory other : Memory} {address : Nat} {chars bytes more : List UInt8}

@[simp]
theorem length_terminated (chars : List UInt8) : (terminated chars).length = chars.length + 1 := by
  simp [terminated]

/-! ## What stands where -/

theorem spells_append : Spells memory address (bytes ++ more) ↔
    Spells memory address bytes ∧ Spells memory (address + bytes.length) more := by
  induction bytes generalizing address with
  | nil => simp [Spells]
  | cons byte rest ih =>
      rw [List.cons_append, Spells, Spells, ih, and_assoc, List.length_cons, Nat.add_assoc,
        Nat.add_comm 1]

/-- A place among the bytes. -/
theorem Spells.at (spells : Spells memory address bytes) {place : Nat}
    (inside : place < bytes.length) : bytes[place]? = some (memory (address + place)) := by
  induction bytes generalizing address place with
  | nil => exact absurd inside (Nat.not_lt_zero _)
  | cons byte rest ih =>
      cases place with
      | zero => exact congrArg some spells.1.symm
      | succ place =>
          have later := ih spells.2 (Nat.lt_of_succ_lt_succ inside)
          rw [List.getElem?_cons_succ, later, Nat.add_assoc, Nat.add_comm 1]

theorem spells_of_at
    (stands : ∀ place, place < bytes.length → bytes[place]? = some (memory (address + place))) :
    Spells memory address bytes := by
  induction bytes generalizing address with
  | nil => trivial
  | cons byte rest ih =>
      refine ⟨(Option.some.inj (stands 0 (Nat.succ_pos _))).symm, ih fun place inside => ?_⟩
      have there := stands (place + 1) (Nat.succ_lt_succ inside)
      rwa [List.getElem?_cons_succ, Nat.add_comm place, ← Nat.add_assoc] at there

/-- The bytes stand wherever the memory is the same. -/
theorem Spells.congr {elsewhere : Nat} (spells : Spells memory address bytes)
    (agree : ∀ place, place < bytes.length →
      other (elsewhere + place) = memory (address + place)) : Spells other elsewhere bytes := by
  refine spells_of_at fun place inside => ?_
  rw [agree place inside]
  exact spells.at inside

/-- Two runs of one length at one place are one. -/
theorem Spells.unique (spells : Spells memory address bytes) (also : Spells memory address more)
    (length : bytes.length = more.length) : bytes = more := by
  refine List.ext_getElem? ?_
  intro place
  by_cases inside : place < bytes.length
  · rw [spells.at inside, also.at (length ▸ inside)]
  · rw [List.getElem?_eq_none (Nat.le_of_not_lt inside),
      List.getElem?_eq_none (length ▸ Nat.le_of_not_lt inside)]

theorem spells_write (memory : Memory) (dst : Nat) (bytes : List UInt8) :
    Spells (write memory dst bytes) dst bytes := by
  refine spells_of_at fun place inside => ?_
  have bounds : dst ≤ dst + place ∧ dst + place < dst + bytes.length := by omega
  rw [write, if_pos bounds, Nat.add_sub_cancel_left, List.getD_eq_getElem?_getD,
    List.getElem?_eq_getElem inside, Option.getD_some]

theorem write_of_not_mem {dst : Nat} (outside : address < dst ∨ dst + bytes.length ≤ address) :
    write memory dst bytes address = memory address := by
  rw [write, if_neg (by omega)]

/-! ## The functions -/

/-- A string is as long as it is. -/
theorem strlen_eq (spells : Spells memory address (terminated chars)) (plain : Plain chars)
    {fuel : Nat} (enough : chars.length < fuel) :
    strlen memory fuel address = some chars.length := by
  induction chars generalizing fuel address with
  | nil =>
      obtain ⟨fuel, rfl⟩ := Nat.exists_eq_succ_of_ne_zero (Nat.ne_zero_of_lt enough)
      rw [strlen, if_pos spells.1]
      rfl
  | cons char rest ih =>
      obtain ⟨fuel, rfl⟩ := Nat.exists_eq_succ_of_ne_zero (Nat.ne_zero_of_lt enough)
      have notZero : memory address ≠ 0 := by
        rw [spells.1]
        exact fun isZero => plain (isZero ▸ List.mem_cons_self)
      have restPlain : Plain rest := fun member => plain (List.mem_cons_of_mem _ member)
      rw [strlen, if_neg notZero, ih spells.2 restPlain (Nat.lt_of_succ_lt_succ enough)]
      rfl

theorem read_eq (spells : Spells memory address (terminated chars)) (plain : Plain chars)
    {fuel : Nat} (enough : chars.length < fuel) : read memory fuel address = some chars := by
  induction chars generalizing fuel address with
  | nil =>
      obtain ⟨fuel, rfl⟩ := Nat.exists_eq_succ_of_ne_zero (Nat.ne_zero_of_lt enough)
      rw [read, if_pos spells.1]
  | cons char rest ih =>
      obtain ⟨fuel, rfl⟩ := Nat.exists_eq_succ_of_ne_zero (Nat.ne_zero_of_lt enough)
      have notZero : memory address ≠ 0 := by
        rw [spells.1]
        exact fun isZero => plain (isZero ▸ List.mem_cons_self)
      have restPlain : Plain rest := fun member => plain (List.mem_cons_of_mem _ member)
      rw [read, if_neg notZero, ih spells.2 restPlain (Nat.lt_of_succ_lt_succ enough), spells.1]
      rfl

/-- One string stands at an address. -/
theorem terminated_unique {found : List UInt8} (spells : Spells memory address (terminated chars))
    (also : Spells memory address (terminated found)) (plain : Plain chars)
    (foundPlain : Plain found) : chars = found := by
  have first : read memory (chars.length + found.length + 1) address = some chars :=
    read_eq spells plain (by omega)
  have second : read memory (chars.length + found.length + 1) address = some found :=
    read_eq also foundPlain (by omega)
  exact Option.some.inj (first.symm.trans second)

/-- The comparison is right. -/
theorem same_iff {found : List UInt8} (spells : Spells memory address (terminated found))
    (plain : Plain chars) (foundPlain : Plain found) :
    same memory chars address = true ↔ chars = found := by
  induction chars generalizing address found with
  | nil =>
      cases found with
      | nil =>
          rw [same, spells.1]
          simp
      | cons char rest =>
          have notZero : char ≠ 0 := fun isZero => foundPlain (isZero ▸ List.mem_cons_self)
          rw [same, spells.1]
          simp [notZero]
  | cons char rest ih =>
      have notZero : char ≠ 0 := fun isZero => plain (isZero ▸ List.mem_cons_self)
      have restPlain : Plain rest := fun member => plain (List.mem_cons_of_mem _ member)
      cases found with
      | nil =>
          rw [same, spells.1]
          simp [notZero.symm]
      | cons first others =>
          have othersPlain : Plain others := fun member =>
            foundPlain (List.mem_cons_of_mem _ member)
          rw [same, spells.1, Bool.and_eq_true, decide_eq_true_eq,
            ih spells.2 restPlain othersPlain, List.cons.injEq, eq_comm]

/-- Into enough room the whole string is copied. -/
theorem strlcpy_eq {dst room : Nat} (enough : chars.length < room) :
    strlcpy memory dst chars room = write memory dst (terminated chars) := by
  rw [strlcpy, if_neg (Nat.ne_zero_of_lt enough), List.take_of_length_le (by omega)]

/-! ## Strings side by side -/

/-- Strings one behind the other. -/
def packed (strings : List (List UInt8)) : List UInt8 := strings.flatMap terminated

@[simp]
theorem packed_nil : packed [] = [] := rfl

@[simp]
theorem packed_cons (first : List UInt8) (rest : List (List UInt8)) :
    packed (first :: rest) = terminated first ++ packed rest := List.flatMap_cons

@[simp]
theorem packed_append (front back : List (List UInt8)) :
    packed (front ++ back) = packed front ++ packed back := List.flatMap_append

end CString
