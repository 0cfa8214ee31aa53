import Bcm2711.Lib.CString

/-! # The EFI load options as a string

`efi_convert_command_line` narrows the characters of the load options, which have sixteen bits,
to bytes, in place.  Its loop takes the size of the options, which counts bytes, for the number
of characters; only a character whose low byte is zero keeps it inside the options.
-/

namespace Bcm2711.Startup

open Bytes CString

/-- Memory, and the addresses that were read or written. -/
structure Conversion where
  memory : Memory
  touched : List Nat

/-- One round of the loop: a character is read, and its low byte is written. -/
def Conversion.char (state : Conversion) (commandLine i : Nat) : Conversion where
  memory := Function.update state.memory (commandLine + i)
    (UInt8.ofNat (load state.memory 2 (commandLine + 2 * i)))
  touched := state.touched ++ [commandLine + 2 * i, commandLine + 2 * i + 1, commandLine + i]

/-- The loop, with the rounds that are left: the state behind it, and whether all rounds were
made. -/
def convertLoop (commandLine : Nat) : (rounds i : Nat) → Conversion → Conversion × Bool
  | 0, _, state => (state, true)
  | rounds + 1, i, state =>
      let state := state.char commandLine i
      if state.memory (commandLine + i) = 0 then (state, false)
      else convertLoop commandLine rounds (i + 1) state

theorem convertLoop_succ (commandLine rounds i : Nat) (state : Conversion) :
    convertLoop commandLine (rounds + 1) i state =
      if (state.char commandLine i).memory (commandLine + i) = 0 then
        (state.char commandLine i, false)
      else convertLoop commandLine rounds (i + 1) (state.char commandLine i) := rfl

/-- `efi_convert_command_line`, whose result is `NULL` or the address of the options. -/
def efiConvertCommandLine (memory : Memory) (commandLine size : Nat) : Option Conversion :=
  if size = 0 then none
  else
    let (state, full) := convertLoop commandLine size 0 ⟨memory, []⟩
    if full then
      some ⟨Function.update state.memory (commandLine + size) 0,
        state.touched ++ [commandLine + size]⟩
    else some state

/-! ## What is to be left -/

/-- The characters that lie in a buffer. -/
def wideChars (memory : Memory) (commandLine size : Nat) : List Nat :=
  (List.range (size / 2)).map fun i => load memory 2 (commandLine + 2 * i)

/-- The string of the low bytes of the characters before the first `NUL`. -/
def narrowString (chars : List Nat) : List UInt8 :=
  ((chars.takeWhile (· ≠ 0)).map UInt8.ofNat).takeWhile (· ≠ 0)

/-- The conversion stays in the buffer and leaves the string there. -/
def Converts (memory : Memory) (commandLine size : Nat) : Prop :=
  ∀ state, efiConvertCommandLine memory commandLine size = some state →
    (∀ address ∈ state.touched, commandLine ≤ address ∧ address < commandLine + size) ∧
    (narrowString (wideChars memory commandLine size)).length < size ∧
    Spells state.memory commandLine
      (terminated (narrowString (wideChars memory commandLine size)))

/-! ## The loop -/

section Loop

variable {memory : Memory} {commandLine size done : Nat}

/-- The low byte of a character. -/
def lowByte (memory : Memory) (commandLine i : Nat) : UInt8 := memory (commandLine + 2 * i)

theorem ofNat_load (memory : Memory) (address : Nat) :
    UInt8.ofNat (load memory 2 address) = memory address := by
  have low := (memory address).toNat_lt
  apply UInt8.toNat_inj.mp
  rw [load, UInt8.toNat_ofNat']
  omega

/-- The first characters are narrowed. -/
def narrowed (memory : Memory) (commandLine done : Nat) : Conversion where
  memory := fun address =>
    if commandLine ≤ address ∧ address < commandLine + done then
      lowByte memory commandLine (address - commandLine)
    else memory address
  touched := (List.range done).flatMap fun i =>
    [commandLine + 2 * i, commandLine + 2 * i + 1, commandLine + i]

/-- The characters behind the narrowed ones are still there. -/
theorem narrowed_char (memory : Memory) (commandLine done : Nat) :
    (narrowed memory commandLine done).char commandLine done =
      narrowed memory commandLine (done + 1) := by
  unfold Conversion.char
  rw [ofNat_load]
  refine congrArg₂ Conversion.mk ?_ ?_
  · funext address
    by_cases here : address = commandLine + done
    · subst here
      rw [Function.update_self]
      have inside : commandLine ≤ commandLine + done ∧
          commandLine + done < commandLine + (done + 1) := by omega
      have behind : ¬ (commandLine ≤ commandLine + 2 * done ∧
          commandLine + 2 * done < commandLine + done) := by omega
      simp only [narrowed, inside, behind, ↓reduceIte, and_self, lowByte, Nat.add_sub_cancel_left]
    · rw [Function.update_of_ne here]
      have same : (commandLine ≤ address ∧ address < commandLine + (done + 1)) ↔
          (commandLine ≤ address ∧ address < commandLine + done) := by omega
      simp only [narrowed, same]
  · simp only [narrowed, List.range_succ, List.flatMap_append, List.flatMap_singleton]

theorem narrowed_last (memory : Memory) (commandLine done : Nat) :
    (narrowed memory commandLine (done + 1)).memory (commandLine + done) =
      lowByte memory commandLine done := by
  have inside : commandLine ≤ commandLine + done ∧
      commandLine + done < commandLine + (done + 1) := by omega
  simp only [narrowed, inside, and_self, ↓reduceIte, Nat.add_sub_cancel_left]

/-- The loop goes on over low bytes that are not zero. -/
theorem convertLoop_skip (rounds : Nat) (live : ∀ i < done, lowByte memory commandLine i ≠ 0) :
    convertLoop commandLine (done + rounds) 0 (narrowed memory commandLine 0) =
      convertLoop commandLine rounds done (narrowed memory commandLine done) := by
  induction done generalizing rounds with
  | zero => rw [Nat.zero_add]
  | succ done ih =>
      have before := ih (rounds + 1) fun i below => live i (by omega)
      have shift : done + 1 + rounds = done + (rounds + 1) := by omega
      rw [shift, before, convertLoop_succ, narrowed_char, narrowed_last,
        if_neg (live done (Nat.lt_succ_self done))]

/-- What was touched stays touched. -/
theorem touched_subset (state : Conversion) (commandLine rounds i : Nat) :
    state.touched ⊆ (convertLoop commandLine rounds i state).1.touched := by
  induction rounds generalizing state i with
  | zero => exact List.Subset.refl _
  | succ rounds ih =>
      have grows : state.touched ⊆ (state.char commandLine i).touched :=
        List.subset_append_left _ _
      rw [convertLoop_succ]
      split
      · exact grows
      · exact List.Subset.trans grows (ih _ _)

theorem narrowed_zero (memory : Memory) (commandLine : Nat) :
    narrowed memory commandLine 0 = ⟨memory, []⟩ := by
  refine congrArg₂ Conversion.mk ?_ rfl
  funext address
  rw [if_neg (by omega)]

/-- A low byte of zero ends the loop. -/
theorem efiConvertCommandLine_stop {stop : Nat} (inside : stop < size)
    (live : ∀ i < stop, lowByte memory commandLine i ≠ 0)
    (ended : lowByte memory commandLine stop = 0) :
    efiConvertCommandLine memory commandLine size =
      some (narrowed memory commandLine (stop + 1)) := by
  obtain ⟨rest, rfl⟩ : ∃ rest, size = stop + (rest + 1) := ⟨size - stop - 1, by omega⟩
  have skipped := convertLoop_skip (rest + 1) live
  rw [narrowed_zero, convertLoop_succ, narrowed_char, narrowed_last, if_pos ended] at skipped
  unfold efiConvertCommandLine
  rw [if_neg (by omega), skipped]
  rfl

/-- Without one the loop reads behind the buffer. -/
theorem efiConvertCommandLine_run (positive : 0 < size)
    (live : ∀ i, 2 * i + 1 < size → lowByte memory commandLine i ≠ 0) :
    ∃ state, efiConvertCommandLine memory commandLine size = some state ∧
      commandLine + 2 * (size / 2) + 1 ∈ state.touched := by
  obtain ⟨rest, split⟩ : ∃ rest, size = size / 2 + (rest + 1) := ⟨size - size / 2 - 1, by omega⟩
  have before : ∀ i < size / 2, lowByte memory commandLine i ≠ 0 :=
    fun i below => live i (by omega)
  have skipped := convertLoop_skip (rest + 1) before
  rw [← split, narrowed_zero, convertLoop_succ, narrowed_char] at skipped
  have read : commandLine + 2 * (size / 2) + 1 ∈
      (narrowed memory commandLine (size / 2 + 1)).touched := by
    refine List.mem_flatMap.mpr ⟨size / 2, List.mem_range.mpr (Nat.lt_succ_self _), ?_⟩
    simp
  have touched : commandLine + 2 * (size / 2) + 1 ∈
      (convertLoop commandLine size 0 ⟨memory, []⟩).1.touched := by
    rw [skipped]
    split
    · exact read
    · exact touched_subset _ _ _ _ read
  unfold efiConvertCommandLine
  rw [if_neg positive.ne']
  dsimp only
  split
  · exact ⟨_, rfl, List.mem_append_left _ touched⟩
  · exact ⟨_, rfl, touched⟩

/-- Cutting at the first `NUL` does not matter when the string is cut at the first zero. -/
theorem narrowString_eq (chars : List Nat) :
    narrowString chars = (chars.map UInt8.ofNat).takeWhile (· ≠ 0) := by
  induction chars with
  | nil => rfl
  | cons char chars ih =>
      unfold narrowString at ih ⊢
      by_cases isNul : char = 0
      · subst isNul
        rfl
      · rw [List.takeWhile_cons_of_pos (by simpa using isNul), List.map_cons, List.map_cons,
          List.takeWhile_cons, List.takeWhile_cons, ih]

/-- The string ends at the first low byte of zero. -/
theorem narrowString_stop {stop : Nat} (inside : 2 * stop + 1 < size)
    (live : ∀ i < stop, lowByte memory commandLine i ≠ 0)
    (ended : lowByte memory commandLine stop = 0) :
    narrowString (wideChars memory commandLine size) =
      (List.range stop).map (lowByte memory commandLine) := by
  have chars : (wideChars memory commandLine size).map UInt8.ofNat =
      (List.range (size / 2)).map (lowByte memory commandLine) := by
    rw [wideChars, List.map_map]
    exact List.map_congr_left fun i _ => ofNat_load _ _
  obtain ⟨rest, split⟩ : ∃ rest, size / 2 = stop + (rest + 1) := ⟨size / 2 - stop - 1, by omega⟩
  rw [narrowString_eq, chars, split, List.range_add, List.map_append]
  have front : ∀ byte ∈ (List.range stop).map (lowByte memory commandLine),
      decide (byte ≠ 0) = true := by
    intro byte member
    obtain ⟨i, below, rfl⟩ := List.mem_map.mp member
    exact decide_eq_true (live i (List.mem_range.mp below))
  rw [List.takeWhile_append_of_pos front, List.range_succ_eq_map, List.map_cons, List.map_cons,
    List.takeWhile_cons_of_neg (by simpa using ended), List.append_nil]

theorem spells_narrowed (stop : Nat) (ended : lowByte memory commandLine stop = 0) :
    Spells (narrowed memory commandLine (stop + 1)).memory commandLine
      (terminated ((List.range stop).map (lowByte memory commandLine))) := by
  refine spells_of_at ?_
  intro place inside
  rw [length_terminated, List.length_map, List.length_range] at inside
  have bounds : commandLine ≤ commandLine + place ∧
      commandLine + place < commandLine + (stop + 1) := by omega
  simp only [narrowed, bounds, and_self, ↓reduceIte, Nat.add_sub_cancel_left, terminated]
  by_cases last : place = stop
  · subst last
    rw [ended, List.getElem?_append_right (by simp)]
    simp
  · rw [List.getElem?_append_left (by simp; omega), List.getElem?_map,
      List.getElem?_range (by omega)]
    rfl

end Loop

/-- **The conversion stays in its buffer exactly when** there are no options or the low byte of
some character in the buffer is zero. -/
theorem convertsOptions_iff (memory : Memory) (commandLine size : Nat) :
    Converts memory commandLine size ↔
      size = 0 ∨ ∃ i, 2 * i + 1 < size ∧ memory (commandLine + 2 * i) = 0 := by
  constructor
  · intro converts
    by_contra neither
    obtain ⟨some_byte, live⟩ := not_or.mp neither
    have positive := Nat.pos_of_ne_zero some_byte
    have allLive : ∀ i, 2 * i + 1 < size → lowByte memory commandLine i ≠ 0 :=
      fun i inside isZero => live ⟨i, inside, isZero⟩
    obtain ⟨state, ran, outside⟩ := efiConvertCommandLine_run positive allLive
    have bounds := (converts state ran).1 _ outside
    omega
  · intro condition state ran
    rcases condition with none_given | some_zero
    · rw [efiConvertCommandLine, if_pos none_given] at ran
      cases ran
    · classical
      let stop := Nat.find some_zero
      obtain ⟨inside, ended⟩ := Nat.find_spec some_zero
      have live : ∀ i < stop, lowByte memory commandLine i ≠ 0 := by
        intro i below isZero
        exact Nat.find_min some_zero below ⟨by omega, isZero⟩
      rw [efiConvertCommandLine_stop (by omega) live ended] at ran
      cases ran
      rw [narrowString_stop inside live ended]
      refine ⟨?_, ?_, spells_narrowed stop ended⟩
      · intro address member
        obtain ⟨i, below, place⟩ := List.mem_flatMap.mp member
        have bound := List.mem_range.mp below
        simp only [List.mem_cons, List.not_mem_nil, or_false] at place
        omega
      · rw [List.length_map, List.length_range]
        omega

/-- Two bytes of options that hold one character and no `NUL`: the byte behind them is read. -/
theorem unterminated_options_break :
    ¬ Converts (fun address => if address = 4096 then 65 else 0) 4096 2 := by
  intro converts
  have live : ∀ i, 2 * i + 1 < 2 →
      lowByte (fun address => if address = 4096 then 65 else 0) 4096 i ≠ 0 := by
    intro i inside
    have first : i = 0 := by omega
    subst first
    decide
  obtain ⟨state, ran, outside⟩ := efiConvertCommandLine_run (by decide) live
  have bounds := (converts state ran).1 _ outside
  omega

end Bcm2711.Startup
