import Bcm2711.Startup.Strings

/-! # The typed strings of the system page

An entry is a 32-bit type, a string and zeros up to the next multiple of four bytes.  The
entries stand side by side and a zero type ends them.  Deleting an entry closes the gap, and
adding one deletes the old string of its type first, so that the section maps types to
strings.
-/

namespace Bcm2711.Startup

open Runs CString

variable {layout : SyspageLayout}

/-! ## The functions -/

/-- An `unsigned` returned as an `int`. -/
def toInt (word : Nat) : Int := if word < 2 ^ 31 then word else (word : Int) - 2 ^ 32

/-- The loop of `find_typed_string`. -/
def scanTyped (memory : Bytes.Memory) (p : Nat) (typeIndex : UInt32) : (fuel i : Nat) → Option Int
  | 0, _ => none
  | fuel + 1, i =>
      let type := Bytes.load memory 4 (p + i)
      if type = typeIndex.toNat then some (toInt i)
      else if type = 0 then some (-1)
      else
        let i := Word.add 32 i 4
        match strlen memory scanBound (p + i) with
        | none => none
        | some length =>
            let i := Word.add 32 i (length + 1)
            scanTyped memory p typeIndex fuel (ROUND i 4 % 2 ^ 32)

/-- `find_typed_string`. -/
def findTypedString (state : Syspage) (typeIndex : UInt32) : Result Int :=
  match scanTyped state.memory (state.lsp .typedStrings).p typeIndex scanBound 0 with
  | none => .error .stuck
  | some found => .ok found

/-- `while(j < end) p[i++] = p[j++];`, for the bytes up to the end. -/
def copyDown (p : Nat) : (count i j : Nat) → Bytes.Memory → Bytes.Memory
  | 0, _, _, memory => memory
  | count + 1, i, j, memory =>
      copyDown p count (i + 1) (j + 1) (Function.update memory (p + i) (memory (p + j)))

/-- `while(i < j) p[i++] = 0;`, for the bytes in between. -/
def zeroUp (p : Nat) : (count i : Nat) → Bytes.Memory → Bytes.Memory
  | 0, _, memory => memory
  | count + 1, i, memory => zeroUp p count (i + 1) (Function.update memory (p + i) 0)

/-- The part of `del_typed_string` behind its searches; the first loop leaves `i` and `j` as
far apart as they were. -/
def closeGap (memory : Bytes.Memory) (p i j stop : Nat) : Bytes.Memory :=
  zeroUp p (j - i) (i + (stop - j)) (copyDown p (stop - j) i j memory)

/-- `del_typed_string`. -/
def delTypedString (state : Syspage) (typeIndex : UInt32) : Result (Syspage × Nat) := do
  let p := (state.lsp .typedStrings).p
  let i ← findTypedString state typeIndex
  if i < 0 then .ok (state, 0)
  else
    let j := i.toNat + 4
    match strlen state.memory scanBound (p + j) with
    | none => .error .stuck
    | some length =>
        let j := ROUND (j + (length + 1)) 4
        let stop ← findTypedString state 0
        .ok ({ state with memory := closeGap state.memory p i.toNat j stop.toNat }, 1)

/-- The part of `add_typed_string` that makes room for a string of `len` bytes at offset `i`. -/
def roomForTyped (layout : SyspageLayout) (state : Syspage) (len i : Nat) : Result Syspage :=
  let need := Word.add 32 len 8
  let spare := Word.sub 32 (state.lsp .typedStrings).size i
  if spare < need then
    growSyspageSection layout state .typedStrings (Word.sub 32 need spare)
  else .ok state

/-- `add_typed_string`. -/
def addTypedString (layout : SyspageLayout) (state : Syspage) (typeIndex : UInt32)
    (name : List UInt8) : Result (Syspage × Nat) := do
  let p := (state.lsp .typedStrings).p
  let (state, _) ← delTypedString state typeIndex
  let found ← findTypedString state 0
  let i := (found % 2 ^ 32).toNat
  let len := Word.add 32 name.length 1
  let len := ROUND len 4 % 2 ^ 32
  let state ← roomForTyped layout state len i
  let memory := Bytes.store state.memory 4 (p + i) typeIndex.toNat
  let room := Word.sub 32 (state.lsp .typedStrings).size i
  .ok ({ state with memory := strlcpy memory (p + i + 4) name room }, i)

/-! ## The entries -/

/-- A type and its string. -/
abbrev TypedString := UInt32 × List UInt8

/-- The bytes of a type. -/
def typeBytes (typeIndex : UInt32) : List UInt8 :=
  (List.range 4).map (Bytes.byteAt typeIndex.toNat)

/-- The zeros behind a string up to the next entry. -/
def padding (length : Nat) : Nat := (4 - (length + 1) % 4) % 4

/-- The bytes of an entry. -/
def encoded (entry : TypedString) : List UInt8 :=
  typeBytes entry.1 ++ (terminated entry.2 ++ List.replicate (padding entry.2.length) 0)

/-- The bytes of all entries. -/
def encodedAll (entries : List TypedString) : List UInt8 := entries.flatMap encoded

/-- Where the entry of a type stands, or the end. -/
def typedOffset (entries : List TypedString) (typeIndex : UInt32) : Nat :=
  (encodedAll (entries.takeWhile (·.1 ≠ typeIndex))).length

/-- The entries of the other types. -/
def without (entries : List TypedString) (typeIndex : UInt32) : List TypedString :=
  entries.filter (·.1 ≠ typeIndex)

/-- The entries that can stand in the section. -/
structure TypedEntries (entries : List TypedString) : Prop where
  nonzero : ∀ entry ∈ entries, entry.1 ≠ 0
  plain : ∀ entry ∈ entries, Plain entry.2
  nodup : (entries.map Prod.fst).Nodup

/-- The section holds these entries, and a type of zero behind them. -/
structure TypedTable (layout : SyspageLayout) (entries : List TypedString) (state : Syspage) :
    Prop where
  typed : TypedEntries entries
  holds : SectionHolds layout .typedStrings (encodedAll entries) state
  inside : (encodedAll entries).length + 4 ≤ (state.lsp .typedStrings).size

section Entries

variable {entry : TypedString} {entries front back : List TypedString} {typeIndex : UInt32}

@[simp]
theorem length_typeBytes (typeIndex : UInt32) : (typeBytes typeIndex).length = 4 := by
  simp [typeBytes]

theorem length_encoded (entry : TypedString) :
    (encoded entry).length = 4 + (entry.2.length + 4) / 4 * 4 := by
  rw [encoded, List.length_append, List.length_append, length_terminated, List.length_replicate,
    length_typeBytes]
  unfold padding
  omega

theorem encodedAll_cons (entry : TypedString) (entries : List TypedString) :
    encodedAll (entry :: entries) = encoded entry ++ encodedAll entries := List.flatMap_cons

theorem encodedAll_append (front back : List TypedString) :
    encodedAll (front ++ back) = encodedAll front ++ encodedAll back := List.flatMap_append

theorem length_encodedAll_cons (entry : TypedString) (entries : List TypedString) :
    (encodedAll (entry :: entries)).length =
      4 + (entry.2.length + 4) / 4 * 4 + (encodedAll entries).length := by
  rw [encodedAll_cons, List.length_append, length_encoded]

/-- Entries begin at multiples of four bytes. -/
theorem four_dvd_encodedAll (entries : List TypedString) : 4 ∣ (encodedAll entries).length := by
  induction entries with
  | nil => exact Nat.dvd_zero 4
  | cons entry rest ih =>
      rw [length_encodedAll_cons]
      omega

/-- Every entry takes up room. -/
theorem length_le_encodedAll (entries : List TypedString) :
    entries.length ≤ (encodedAll entries).length := by
  induction entries with
  | nil => exact le_rfl
  | cons entry rest ih =>
      rw [length_encodedAll_cons, List.length_cons]
      omega

/-- The type of an entry is read back. -/
theorem load_typeBytes {memory : Bytes.Memory} {address : Nat}
    (spells : Spells memory address (typeBytes typeIndex)) :
    Bytes.load memory 4 address = typeIndex.toNat := by
  have bytes : ∀ place < 4, memory (address + place) = Bytes.byteAt typeIndex.toNat place := by
    intro place below
    have there := spells.at (show place < (typeBytes typeIndex).length by
      rw [length_typeBytes]
      exact below)
    rw [typeBytes, List.getElem?_map, List.getElem?_range below, Option.map_some] at there
    exact (Option.some.inj there).symm
  have small : typeIndex.toNat < 256 ^ 4 := typeIndex.toNat_lt
  rw [Bytes.load_of_bytes bytes, Nat.mod_eq_of_lt small]

/-- A stored type is spelled. -/
theorem spells_store (memory : Bytes.Memory) (address : Nat) (typeIndex : UInt32) :
    Spells (Bytes.store memory 4 address typeIndex.toNat) address (typeBytes typeIndex) := by
  refine spells_of_at fun place inside => ?_
  rw [length_typeBytes] at inside
  have bounds : address ≤ address + place ∧ address + place < address + 4 := by omega
  rw [typeBytes, List.getElem?_map, List.getElem?_range inside, Option.map_some, Bytes.store,
    if_pos bounds, Nat.add_sub_cancel_left]

theorem TypedEntries.tail (typed : TypedEntries (entry :: entries)) : TypedEntries entries :=
  ⟨fun other member => typed.nonzero other (List.mem_cons_of_mem _ member),
    fun other member => typed.plain other (List.mem_cons_of_mem _ member),
    (List.nodup_cons.mp typed.nodup).2⟩

theorem typedOffset_cons_of_ne (different : entry.1 ≠ typeIndex) (entries : List TypedString) :
    typedOffset (entry :: entries) typeIndex =
      4 + (entry.2.length + 4) / 4 * 4 + typedOffset entries typeIndex := by
  rw [typedOffset, List.takeWhile_cons_of_pos (by simp [different]), length_encodedAll_cons]
  rfl

theorem typedOffset_cons_self (name : List UInt8) (entries : List TypedString) :
    typedOffset ((typeIndex, name) :: entries) typeIndex = 0 := by
  simp [typedOffset, encodedAll]

theorem typedOffset_of_not_mem (absent : typeIndex ∉ entries.map Prod.fst) :
    typedOffset entries typeIndex = (encodedAll entries).length := by
  induction entries with
  | nil => rfl
  | cons entry rest ih =>
      rw [List.map_cons, List.mem_cons, not_or] at absent
      rw [typedOffset_cons_of_ne (Ne.symm absent.1), ih absent.2, length_encodedAll_cons]

theorem TypedEntries.zero_not_mem (typed : TypedEntries entries) :
    (0 : UInt32) ∉ entries.map Prod.fst := by
  intro member
  obtain ⟨entry, inEntries, isZero⟩ := List.mem_map.mp member
  exact typed.nonzero entry inEntries isZero

end Entries

/-! ## Finding a type -/

theorem toInt_of_lt {word : Nat} (small : word < 2 ^ 31) : toInt word = word := by
  rw [toInt, if_pos small]

theorem round_four {size : Nat} (small : size + 3 < 2 ^ 64) :
    ROUND size 4 = (size + 3) / 4 * 4 :=
  @Word.round_two_pow 64 size 2 (by decide) small

/-- The place behind an entry. -/
theorem round_entry {i length : Nat} (aligned : 4 ∣ i) (small : i + length + 8 < 2 ^ 64) :
    ROUND (i + 4 + (length + 1)) 4 = i + (4 + (length + 4) / 4 * 4) := by
  rw [round_four (by omega)]
  omega

/-- What the loop finds. -/
def typedIndex (entries : List TypedString) (typeIndex : UInt32) : Int :=
  if typeIndex = 0 ∨ typeIndex ∈ entries.map Prod.fst then (typedOffset entries typeIndex : Int)
  else -1

/-- The loop finds the entry of a type or the end. -/
theorem scanTyped_eq {memory : Bytes.Memory} {p : Nat} {typeIndex : UInt32}
    {entries : List TypedString} {fuel i : Nat} (typed : TypedEntries entries)
    (spells : Spells memory (p + i) (encodedAll entries))
    (ends : Bytes.load memory 4 (p + (i + (encodedAll entries).length)) = 0)
    (small : i + (encodedAll entries).length < 2 ^ 31) (aligned : 4 ∣ i)
    (enough : entries.length < fuel) :
    scanTyped memory p typeIndex fuel i =
      some (if typeIndex = 0 ∨ typeIndex ∈ entries.map Prod.fst
        then ((i + typedOffset entries typeIndex : Nat) : Int) else -1) := by
  induction entries generalizing fuel i with
  | nil =>
      obtain ⟨fuel, rfl⟩ := Nat.exists_eq_succ_of_ne_zero (Nat.ne_zero_of_lt enough)
      have here : Bytes.load memory 4 (p + i) = 0 := ends
      rw [scanTyped, here]
      dsimp only
      by_cases isZero : typeIndex = 0
      · rw [isZero, if_pos rfl, if_pos (Or.inl rfl), toInt_of_lt (by omega)]
        rfl
      · have differs : ¬ 0 = typeIndex.toNat := fun same =>
          isZero (UInt32.toNat_inj.mp same.symm)
        rw [if_neg differs, if_pos rfl, if_neg]
        rintro (zero | member)
        · exact isZero zero
        · exact absurd member List.not_mem_nil
  | cons entry rest ih =>
      obtain ⟨fuel, rfl⟩ := Nat.exists_eq_succ_of_ne_zero (Nat.ne_zero_of_lt enough)
      rw [length_encodedAll_cons] at ends small
      rw [encodedAll_cons, spells_append, length_encoded] at spells
      obtain ⟨here, behind⟩ := spells
      rw [encoded, spells_append, spells_append, length_typeBytes] at here
      have type : Bytes.load memory 4 (p + i) = entry.1.toNat := load_typeBytes here.1
      have nonzero := typed.nonzero entry List.mem_cons_self
      rw [scanTyped, type]
      dsimp only
      by_cases isType : entry.1 = typeIndex
      · have member : typeIndex ∈ (entry :: rest).map Prod.fst :=
          List.mem_cons.mpr (Or.inl isType.symm)
        have first : typedOffset (entry :: rest) typeIndex = 0 := by
          rw [← isType]
          exact typedOffset_cons_self entry.2 rest
        rw [if_pos (congrArg UInt32.toNat isType), if_pos (Or.inr member), first,
          toInt_of_lt (by omega), Nat.add_zero]
      · have differs : ¬ entry.1.toNat = typeIndex.toNat := fun same =>
          isType (UInt32.toNat_inj.mp same)
        have notEnd : ¬ entry.1.toNat = 0 := fun same => nonzero (UInt32.toNat_inj.mp same)
        have four : Word.add 32 i 4 = i + 4 := Word.add_of_lt (by omega)
        have length : strlen memory scanBound (p + (i + 4)) = some entry.2.length := by
          rw [← Nat.add_assoc]
          refine strlen_eq here.2.1 (typed.plain entry List.mem_cons_self) ?_
          unfold scanBound
          omega
        have next : Word.add 32 (i + 4) (entry.2.length + 1) = i + 4 + (entry.2.length + 1) :=
          Word.add_of_lt (by omega)
        have rounded : ROUND (i + 4 + (entry.2.length + 1)) 4 % 2 ^ 32 =
            i + (4 + (entry.2.length + 4) / 4 * 4) := by
          rw [round_entry aligned (by omega), Nat.mod_eq_of_lt (by omega)]
        have ends : Bytes.load memory 4 (p + (i + (4 + (entry.2.length + 4) / 4 * 4) +
            (encodedAll rest).length)) = 0 := by
          rw [Nat.add_assoc i]
          exact ends
        rw [if_neg differs, if_neg notEnd, four, length]
        dsimp only
        rw [next, rounded, ih typed.tail (by rwa [Nat.add_assoc] at behind) ends (by omega)
          (by omega) (Nat.lt_of_succ_lt_succ enough), typedOffset_cons_of_ne isType,
          Nat.add_assoc]
        have known : (typeIndex = 0 ∨ typeIndex ∈ (entry :: rest).map Prod.fst) ↔
            (typeIndex = 0 ∨ typeIndex ∈ rest.map Prod.fst) := by
          rw [List.map_cons, List.mem_cons, or_iff_right (Ne.symm isType)]
        simp only [known]

section Table

variable {entries : List TypedString} {state : Syspage} {typeIndex : UInt32} {name : List UInt8}

/-- `find_typed_string` on a table. -/
theorem findTypedString_eq (table : TypedTable layout entries state)
    (small : state.maxSize layout < 2 ^ 31) (typeIndex : UInt32) :
    findTypedString state typeIndex = .ok (typedIndex entries typeIndex) := by
  have inside := table.inside
  have size := table.holds.size_le
  have few := length_le_encodedAll entries
  have ends : Bytes.load state.memory 4
      ((state.lsp .typedStrings).p + (0 + (encodedAll entries).length)) = 0 := by
    refine Bytes.load_zeros fun place below => ?_
    rw [Nat.zero_add, Nat.add_assoc]
    exact table.holds.zeros _ (Nat.le_add_right _ _) (by omega)
  have scan := @scanTyped_eq state.memory _ typeIndex entries scanBound 0 table.typed
    table.holds.spells ends (by omega) (Nat.dvd_zero 4)
    (show entries.length < 2 ^ 32 by omega)
  rw [findTypedString, scan, Nat.zero_add]
  rfl

theorem typedIndex_zero (table : TypedTable layout entries state) :
    typedIndex entries 0 = ((encodedAll entries).length : Int) := by
  rw [typedIndex, if_pos (Or.inl rfl), typedOffset_of_not_mem table.typed.zero_not_mem]

end Table

/-! ## Deleting a type -/

section Loops

variable {memory : Bytes.Memory} {p : Nat}

/-- Bytes copied down one by one have moved. -/
theorem copyDown_eq {count i j : Nat} (order : i ≤ j) (memory : Bytes.Memory) :
    copyDown p count i j memory = Bytes.move memory (p + i) (p + j) count := by
  induction count generalizing i j memory with
  | zero =>
      funext address
      rw [copyDown, Bytes.move_of_not_mem (by omega)]
  | succ count ih =>
      rw [copyDown, ih (Nat.succ_le_succ order)]
      funext address
      by_cases first : address = p + i
      · rw [Bytes.move_of_not_mem (by omega), first, Function.update_self]
        exact (@Bytes.move_of_mem memory (p + i) (p + j) (count + 1) 0 (Nat.succ_pos _)).symm
      · by_cases inside : p + i < address ∧ address < p + i + (count + 1)
        · obtain ⟨place, rfl⟩ := Nat.exists_eq_add_of_le (Nat.succ_le_of_lt inside.1)
          have here : p + i + 1 + place = p + (i + 1) + place := by omega
          have there : p + i + 1 + place = p + i + (place + 1) := by omega
          rw [Nat.succ_eq_add_one]
          conv_lhs => rw [here]
          rw [Bytes.move_of_mem (by omega), Function.update_of_ne (by omega), there,
            Bytes.move_of_mem (by omega)]
          exact congrArg memory (by omega)
        · rw [Bytes.move_of_not_mem (by omega), Function.update_of_ne first,
            Bytes.move_of_not_mem (by omega)]

/-- Bytes zeroed one by one. -/
theorem zeroUp_eq (count i : Nat) (memory : Bytes.Memory) :
    zeroUp p count i memory = Bytes.fill memory (p + i) 0 count := by
  induction count generalizing i memory with
  | zero =>
      funext address
      rw [zeroUp, Bytes.fill_of_not_mem (by omega)]
  | succ count ih =>
      rw [zeroUp, ih]
      funext address
      by_cases inside : p + i ≤ address ∧ address < p + i + (count + 1)
      · rw [Bytes.fill_of_mem inside]
        by_cases first : address = p + i
        · rw [Bytes.fill_of_not_mem (by omega), first, Function.update_self]
        · exact Bytes.fill_of_mem (by omega)
      · rw [Bytes.fill_of_not_mem (by omega), Function.update_of_ne (by omega),
          Bytes.fill_of_not_mem (by omega)]

end Loops

section Delete

variable {entries front back : List TypedString} {state : Syspage} {typeIndex : UInt32}
  {name : List UInt8}

theorem without_of_not_mem (absent : typeIndex ∉ entries.map Prod.fst) :
    without entries typeIndex = entries := by
  refine List.filter_eq_self.mpr fun entry member => ?_
  have differs : entry.1 ≠ typeIndex := fun same => absent (same ▸ List.mem_map_of_mem member)
  exact decide_eq_true differs

theorem without_split (inFront : typeIndex ∉ front.map Prod.fst)
    (inBack : typeIndex ∉ back.map Prod.fst) :
    without (front ++ (typeIndex, name) :: back) typeIndex = front ++ back := by
  have first := without_of_not_mem inFront
  have second := without_of_not_mem inBack
  unfold without at first second ⊢
  rw [List.filter_append, List.filter_cons_of_neg (by simp), first, second]

theorem typedOffset_split (inFront : typeIndex ∉ front.map Prod.fst) :
    typedOffset (front ++ (typeIndex, name) :: back) typeIndex = (encodedAll front).length := by
  induction front with
  | nil => exact typedOffset_cons_self name back
  | cons entry rest ih =>
      rw [List.map_cons, List.mem_cons, not_or] at inFront
      rw [List.cons_append, typedOffset_cons_of_ne (Ne.symm inFront.1), ih inFront.2,
        length_encodedAll_cons]

/-- A type of the table has one entry. -/
theorem TypedEntries.split (typed : TypedEntries entries) (member : (typeIndex, name) ∈ entries) :
    ∃ front back, entries = front ++ (typeIndex, name) :: back ∧
      typeIndex ∉ front.map Prod.fst ∧ typeIndex ∉ back.map Prod.fst := by
  obtain ⟨front, back, same⟩ := List.append_of_mem member
  have nodup := typed.nodup
  rw [same, List.map_append, List.map_cons, List.nodup_middle, List.nodup_cons,
    List.mem_append, not_or] at nodup
  exact ⟨front, back, same, nodup.1.1, nodup.1.2⟩

theorem TypedEntries.removed (typed : TypedEntries entries) (typeIndex : UInt32) :
    TypedEntries (without entries typeIndex) := by
  have sublist : (without entries typeIndex).Sublist entries := List.filter_sublist
  exact ⟨fun entry member => typed.nonzero entry (sublist.subset member),
    fun entry member => typed.plain entry (sublist.subset member),
    typed.nodup.sublist (sublist.map Prod.fst)⟩

/-- The bytes behind a gap move down over it. -/
theorem SectionHolds.closeGap {before gap behind : List UInt8}
    (holds : SectionHolds layout .typedStrings (before ++ (gap ++ behind)) state) :
    SectionHolds layout .typedStrings (before ++ behind) { state with
      memory := closeGap state.memory (state.lsp .typedStrings).p before.length
        (before.length + gap.length) (before.length + gap.length + behind.length) } ∧
      ({ state with
        memory := Startup.closeGap state.memory (state.lsp .typedStrings).p before.length
          (before.length + gap.length) (before.length + gap.length + behind.length) } :
        Syspage).maxSize layout = state.maxSize layout := by
  have inside := holds.inside
  have zeros := holds.zeros
  have spells := holds.spells
  rw [List.length_append, List.length_append] at inside zeros
  rw [spells_append, spells_append] at spells
  have closed : Startup.closeGap state.memory (state.lsp .typedStrings).p before.length
      (before.length + gap.length) (before.length + gap.length + behind.length) =
      Bytes.fill (Bytes.move state.memory ((state.lsp .typedStrings).p + before.length)
        ((state.lsp .typedStrings).p + (before.length + gap.length)) behind.length)
        ((state.lsp .typedStrings).p + (before.length + behind.length)) 0 gap.length := by
    rw [Startup.closeGap, zeroUp_eq, copyDown_eq (Nat.le_add_right _ _), Nat.add_sub_cancel_left,
      Nat.add_sub_cancel_left]
  rw [closed]
  have kept : ∀ address, address < (state.lsp .typedStrings).p + before.length ∨
      (state.lsp .typedStrings).p + (before.length + gap.length + behind.length) ≤ address →
      Bytes.fill (Bytes.move state.memory ((state.lsp .typedStrings).p + before.length)
        ((state.lsp .typedStrings).p + (before.length + gap.length)) behind.length)
        ((state.lsp .typedStrings).p + (before.length + behind.length)) 0 gap.length address =
      state.memory address := by
    intro address outside
    rw [Bytes.fill_of_not_mem (by omega), Bytes.move_of_not_mem (by omega)]
  have within : state.Within .typedStrings (Bytes.fill (Bytes.move state.memory
      ((state.lsp .typedStrings).p + before.length)
      ((state.lsp .typedStrings).p + (before.length + gap.length)) behind.length)
      ((state.lsp .typedStrings).p + (before.length + behind.length)) 0 gap.length) :=
    fun address outside => kept address (by omega)
  refine ⟨⟨within.valid holds.valid (by decide), ?_, ?_, ?_⟩,
    within.maxSize holds.valid (by decide)⟩
  · rw [spells_append]
    refine ⟨spells.1.congr fun place below => ?_, spells.2.2.congr fun place below => ?_⟩
    · exact kept _ (Or.inl (by dsimp only; omega))
    · dsimp only
      rw [Bytes.fill_of_not_mem (by omega), Bytes.move_of_mem below, Nat.add_assoc _ before.length]
  · rw [List.length_append]
    dsimp only
    omega
  · intro place above below
    rw [List.length_append] at above
    dsimp only at below ⊢
    by_cases filled : place < before.length + behind.length + gap.length
    · exact Bytes.fill_of_mem (by omega)
    · rw [kept _ (Or.inr (by omega))]
      exact zeros place (by omega) below

/-- `del_typed_string` removes the entry of a type, if there is one. -/
theorem delTypedString_ok (table : TypedTable layout entries state)
    (small : state.maxSize layout < 2 ^ 31) (nonzero : typeIndex ≠ 0) :
    ∃ after returned, delTypedString state typeIndex = .ok (after, returned) ∧
      TypedTable layout (without entries typeIndex) after ∧
      after.maxSize layout = state.maxSize layout ∧ after.lsp = state.lsp := by
  have found := findTypedString_eq table small typeIndex
  have stop := findTypedString_eq table small 0
  rw [typedIndex_zero table] at stop
  by_cases member : typeIndex ∈ entries.map Prod.fst
  · obtain ⟨⟨type, name⟩, inEntries, isType⟩ := List.mem_map.mp member
    have inEntries : (typeIndex, name) ∈ entries := isType ▸ inEntries
    obtain ⟨front, back, same, inFront, inBack⟩ := table.typed.split inEntries
    rw [typedIndex, if_pos (Or.inr member), same, typedOffset_split inFront] at found
    have isWithout : without entries typeIndex = front ++ back := by
      rw [same, without_split inFront inBack]
    have typed := table.typed.removed typeIndex
    have plain : Plain name := table.typed.plain (typeIndex, name) (by rw [same]; simp)
    have inside := table.inside
    have holds := table.holds
    have size := holds.size_le
    rw [same, encodedAll_append, encodedAll_cons] at holds
    rw [same, encodedAll_append, encodedAll_cons, List.length_append, List.length_append]
      at inside stop
    have gap := length_encoded (typeIndex, name)
    dsimp only at gap
    have spells := (spells_append.mp (spells_append.mp holds.spells).2).1
    rw [encoded, spells_append, spells_append, length_typeBytes] at spells
    have length : strlen state.memory scanBound
        ((state.lsp .typedStrings).p + ((encodedAll front).length + 4)) = some name.length := by
      have short : name.length < scanBound := by
        unfold scanBound
        omega
      rw [← Nat.add_assoc]
      exact strlen_eq spells.2.1 plain short
    have behind : ROUND ((encodedAll front).length + 4 + (name.length + 1)) 4 =
        (encodedAll front).length + (encoded (typeIndex, name)).length := by
      rw [gap]
      exact round_entry (four_dvd_encodedAll front) (by omega)
    obtain ⟨closed, maximum⟩ := holds.closeGap
    refine ⟨_, 1, ?_, ⟨typed, ?_, ?_⟩, maximum, rfl⟩
    · have notNegative : ¬ ((encodedAll front).length : Int) < 0 := by omega
      rw [delTypedString, found]
      simp only [bind, Except.bind]
      rw [if_neg notNegative, Int.toNat_natCast, length]
      dsimp only
      rw [behind, stop]
      dsimp only
      rw [Int.toNat_natCast, Nat.add_assoc]
    · rw [isWithout, encodedAll_append]
      exact closed
    · rw [isWithout, encodedAll_append, List.length_append]
      dsimp only
      omega
  · rw [typedIndex, if_neg (not_or.mpr ⟨nonzero, member⟩)] at found
    refine ⟨state, 0, ?_, ?_, rfl, rfl⟩
    · rw [delTypedString, found]
      rfl
    · rw [without_of_not_mem member]
      exact table

end Delete

/-! ## Adding a type -/

section Add

variable {entries : List TypedString} {state : Syspage} {typeIndex : UInt32} {name : List UInt8}

/-- There is room, or there is a crash. -/
theorem roomForTyped_cases (table : TypedTable layout entries state) {len : Nat}
    (short : len + 16 + state.maxSize layout < 2 ^ 32) :
    (∃ message,
      roomForTyped layout state len (encodedAll entries).length = .error (.crash message)) ∨
      ∃ after, roomForTyped layout state len (encodedAll entries).length = .ok after ∧
        TypedTable layout entries after ∧
        (after.lsp .typedStrings).p = (state.lsp .typedStrings).p ∧
        after.maxSize layout = state.maxSize layout ∧
        (encodedAll entries).length + (len + 8) ≤ (after.lsp .typedStrings).size := by
  have inside := table.inside
  have size := table.holds.size_le
  have need : Word.add 32 len 8 = len + 8 := Word.add_of_lt (by omega)
  have spare : Word.sub 32 (state.lsp .typedStrings).size (encodedAll entries).length =
      (state.lsp .typedStrings).size - (encodedAll entries).length :=
    Word.sub_of_le (by omega) (by omega)
  unfold roomForTyped
  dsimp only
  rw [need, spare]
  by_cases scarce : (state.lsp .typedStrings).size - (encodedAll entries).length < len + 8
  · have missing : Word.sub 32 (len + 8)
        ((state.lsp .typedStrings).size - (encodedAll entries).length) =
        len + 8 - ((state.lsp .typedStrings).size - (encodedAll entries).length) :=
      Word.sub_of_le (by omega) (by omega)
    have enough := le_roundedUp
      (len + 8 - ((state.lsp .typedStrings).size - (encodedAll entries).length))
    have bounded : state.maxSize layout + roundedUp
        (len + 8 - ((state.lsp .typedStrings).size - (encodedAll entries).length)) < 2 ^ 32 := by
      unfold roundedUp
      omega
    rw [if_pos scarce, missing]
    rcases growSyspageSection_cases table.holds.valid .typedStrings bounded with
      crashed | ⟨after, ran, grew⟩
    · exact Or.inl crashed
    · obtain ⟨grown, place⟩ := table.holds.grew (by decide) grew
      have size := grew.kept.size .typedStrings
      rw [if_pos rfl] at size
      exact Or.inr ⟨after, ran, ⟨table.typed, grown, by omega⟩, place, grew.maximum, by omega⟩
  · rw [if_neg scarce]
    exact Or.inr ⟨state, rfl, table, rfl, rfl, by omega⟩

/-- The entries with a new one behind them. -/
theorem TypedEntries.append (typed : TypedEntries (without entries typeIndex))
    (nonzero : typeIndex ≠ 0) (plain : Plain name) :
    TypedEntries (without entries typeIndex ++ [(typeIndex, name)]) := by
  refine ⟨?_, ?_, ?_⟩
  · intro entry member
    rcases List.mem_append.mp member with old | last
    · exact typed.nonzero entry old
    · rw [List.mem_singleton.mp last]
      exact nonzero
  · intro entry member
    rcases List.mem_append.mp member with old | last
    · exact typed.plain entry old
    · rw [List.mem_singleton.mp last]
      exact plain
  · rw [List.map_append]
    refine List.nodup_append.mpr ⟨typed.nodup, List.nodup_singleton _, ?_⟩
    intro other old last isLast same
    obtain ⟨entry, member, isOther⟩ := List.mem_map.mp old
    have differs := of_decide_eq_true (List.mem_filter.mp member).2
    exact differs (isOther.trans (same.trans (List.mem_singleton.mp isLast)))

/-- An entry stored behind the others belongs to the table. -/
theorem TypedTable.append (table : TypedTable layout (without entries typeIndex) state)
    (nonzero : typeIndex ≠ 0) (plain : Plain name)
    (room : (encodedAll (without entries typeIndex)).length + ((name.length + 4) / 4 * 4 + 8) ≤
      (state.lsp .typedStrings).size) {memory : Bytes.Memory}
    (stored : memory = write (Bytes.store state.memory 4
      ((state.lsp .typedStrings).p + (encodedAll (without entries typeIndex)).length)
      typeIndex.toNat)
      ((state.lsp .typedStrings).p + (encodedAll (without entries typeIndex)).length + 4)
      (terminated name)) :
    TypedTable layout (without entries typeIndex ++ [(typeIndex, name)])
      { state with memory := memory } ∧
      ({ state with memory := memory } : Syspage).maxSize layout = state.maxSize layout := by
  have length := length_encoded (typeIndex, name)
  dsimp only at length
  have written : Spells memory
      ((state.lsp .typedStrings).p + (encodedAll (without entries typeIndex)).length)
      (typeBytes typeIndex ++ terminated name) := by
    rw [spells_append, length_typeBytes, stored]
    have type := spells_store state.memory
      ((state.lsp .typedStrings).p + (encodedAll (without entries typeIndex)).length) typeIndex
    refine ⟨type.congr fun place below => ?_, spells_write _ _ _⟩
    rw [length_typeBytes] at below
    exact write_of_not_mem (Or.inl (by omega))
  obtain ⟨holds, maximum⟩ := table.holds.append (by decide) written (by
    intro address outside
    rw [List.length_append, length_typeBytes, length_terminated] at outside
    rw [stored, write_of_not_mem (by rw [length_terminated]; omega),
      Bytes.store_of_not_mem (by omega)]) (by
    rw [List.length_append, length_typeBytes, length_terminated]
    omega)
  have whole : encodedAll (without entries typeIndex ++ [(typeIndex, name)]) =
      encodedAll (without entries typeIndex) ++ (typeBytes typeIndex ++ terminated name) ++
        List.replicate (padding name.length) 0 := by
    rw [encodedAll_append, encodedAll_cons, encoded, List.append_assoc, List.append_assoc]
    simp [encodedAll]
  have padded : SectionHolds layout .typedStrings
      (encodedAll (without entries typeIndex ++ [(typeIndex, name)]))
      { state with memory := memory } := by
    rw [whole]
    refine holds.pad ?_
    rw [List.length_append, List.length_append, length_typeBytes, length_terminated]
    unfold padding
    dsimp only
    omega
  refine ⟨⟨table.typed.append nonzero plain, padded, ?_⟩, maximum⟩
  rw [encodedAll_append, encodedAll_cons, List.length_append, List.length_append, length]
  simp only [encodedAll, List.flatMap_nil, List.length_nil]
  unfold encodedAll at room
  omega

/-- Strings whose length, rounded up, fits an `unsigned` together with the system page. -/
def ShortTyped (layout : SyspageLayout) (state : Syspage) (name : List UInt8) : Prop :=
  name.length + 20 + state.maxSize layout < 2 ^ 32

/-- `add_typed_string` behind the deletion. -/
theorem addTypedString_eq {middle : Syspage} {removed i : Nat} {found : Int}
    (deleted : delTypedString state typeIndex = .ok (middle, removed))
    (stop : findTypedString middle 0 = .ok found) (place : (found % 2 ^ 32).toNat = i) :
    addTypedString layout state typeIndex name = (do
      let state' ← roomForTyped layout middle (ROUND (Word.add 32 name.length 1) 4 % 2 ^ 32) i
      let memory := Bytes.store state'.memory 4 ((state.lsp .typedStrings).p + i) typeIndex.toNat
      let room := Word.sub 32 (state'.lsp .typedStrings).size i
      .ok ({ state' with
        memory := strlcpy memory ((state.lsp .typedStrings).p + i + 4) name room }, i)) := by
  unfold addTypedString
  rw [deleted]
  simp only [bind, Except.bind]
  rw [stop]
  dsimp only
  rw [place]

/-- `add_typed_string` replaces the entry of a type. -/
theorem addTypedString_cases (table : TypedTable layout entries state)
    (small : state.maxSize layout < 2 ^ 31) (nonzero : typeIndex ≠ 0) (plain : Plain name)
    (short : ShortTyped layout state name) :
    (∃ message, addTypedString layout state typeIndex name = .error (.crash message)) ∨
      ∃ after, addTypedString layout state typeIndex name =
          .ok (after, (encodedAll (without entries typeIndex)).length) ∧
        TypedTable layout (without entries typeIndex ++ [(typeIndex, name)]) after ∧
        after.maxSize layout = state.maxSize layout := by
  unfold ShortTyped at short
  obtain ⟨middle, removed, ranDel, kept, maximum, sameLsp⟩ :=
    delTypedString_ok table small nonzero
  have smallMiddle : middle.maxSize layout < 2 ^ 31 := maximum ▸ small
  have found := findTypedString_eq kept smallMiddle 0
  rw [typedIndex_zero kept] at found
  have inside := kept.inside
  have size := kept.holds.size_le
  have place : (((encodedAll (without entries typeIndex)).length : Int) % 2 ^ 32).toNat =
      (encodedAll (without entries typeIndex)).length := by omega
  have len : Word.add 32 name.length 1 = name.length + 1 := Word.add_of_lt (by omega)
  have rounded : ROUND (name.length + 1) 4 % 2 ^ 32 = (name.length + 4) / 4 * 4 := by
    rw [round_four (by omega), Nat.mod_eq_of_lt (by omega)]
  rw [addTypedString_eq ranDel found place, len, rounded]
  rcases @roomForTyped_cases layout _ middle kept ((name.length + 4) / 4 * 4) (by omega) with
    ⟨message, crashed⟩ | ⟨roomy, ran, roomyTable, samePlace, sameMaximum, room⟩
  · rw [crashed]
    exact Or.inl ⟨message, rfl⟩
  · have roomySize := roomyTable.holds.size_le
    have left : Word.sub 32 (roomy.lsp .typedStrings).size
        (encodedAll (without entries typeIndex)).length =
        (roomy.lsp .typedStrings).size - (encodedAll (without entries typeIndex)).length :=
      Word.sub_of_le (by omega) (by omega)
    have start : (state.lsp .typedStrings).p = (roomy.lsp .typedStrings).p := by
      rw [samePlace, sameLsp]
    obtain ⟨stored, alike⟩ := roomyTable.append nonzero plain room rfl
    refine Or.inr ⟨_, ?_, stored, alike.trans (sameMaximum.trans maximum)⟩
    rw [ran]
    simp only [bind, Except.bind]
    rw [left, start, strlcpy_eq (by omega)]

end Add

/-! ## Whole runs -/

/-- A call on the typed strings. -/
inductive TypedCall where
  | add (typeIndex : UInt32) (name : List UInt8)
  | del (typeIndex : UInt32)
deriving DecidableEq, Repr

/-- The type a call is about. -/
def TypedCall.typeIndex : TypedCall → UInt32
  | .add typeIndex _ => typeIndex
  | .del typeIndex => typeIndex

/-- The string a call leaves for its type. -/
def TypedCall.string? : TypedCall → Option (List UInt8)
  | .add _ name => some name
  | .del _ => none

/-- The entries after one more call. -/
def TypedCall.edit (entries : List TypedString) (call : TypedCall) : List TypedString :=
  without entries call.typeIndex ++ (call.string?.map (call.typeIndex, ·)).toList

/-- A call on the typed strings and what it returns. -/
def typedStep (layout : SyspageLayout) (state : Syspage) : TypedCall → Result (Syspage × Nat)
  | .add typeIndex name => addTypedString layout state typeIndex name
  | .del typeIndex => delTypedString state typeIndex

/-- A call with a type other than `_CS_NONE`, and with a C string. -/
def TypedAllowed (_history : List (Event TypedCall Nat)) (_state : Syspage) (call : TypedCall) :
    Prop :=
  call.typeIndex ≠ 0 ∧ ∀ name ∈ call.string?, Plain name

/-- The string of a call fits an `unsigned` together with the system page. -/
def TypedCall.Short (layout : SyspageLayout) (state : Syspage) (call : TypedCall) : Prop :=
  ∀ name ∈ call.string?, ShortTyped layout state name

/-- The calls of a history. -/
def typedCalls (history : List (Event TypedCall Nat)) : List TypedCall := history.map Event.call

/-- The string last added for a type and not deleted since. -/
def lastAdded (calls : List TypedCall) (typeIndex : UInt32) : Option (List UInt8) :=
  calls.foldl (fun found call => if call.typeIndex = typeIndex then call.string? else found) none

/-- The entries after these calls. -/
def typedEntries (calls : List TypedCall) : List TypedString := calls.foldl TypedCall.edit []

/-- The section maps every type to the string last added for it, and a zero type inside it
ends the entries. -/
structure TypedMap (calls : List TypedCall) (state : Syspage) : Prop where
  present : ∀ typeIndex name, typeIndex ≠ 0 → lastAdded calls typeIndex = some name →
    ∃ off : Nat, findTypedString state typeIndex = .ok (off : Int) ∧
      Bytes.load state.memory 4 ((state.lsp .typedStrings).p + off) = typeIndex.toNat ∧
      Spells state.memory ((state.lsp .typedStrings).p + off + 4) (terminated name) ∧
      off + 4 + (name.length + 1) ≤ (state.lsp .typedStrings).size
  absent : ∀ typeIndex, typeIndex ≠ 0 → lastAdded calls typeIndex = none →
    findTypedString state typeIndex = .ok (-1)
  ended : ∃ stop : Nat, findTypedString state 0 = .ok (stop : Int) ∧
    stop + 4 ≤ (state.lsp .typedStrings).size ∧
    ∀ place, stop ≤ place → place < (state.lsp .typedStrings).size →
      state.memory ((state.lsp .typedStrings).p + place) = 0

/-- The entries hold what was last added. -/
theorem mem_typedEntries (calls : List TypedCall) (typeIndex : UInt32) (name : List UInt8) :
    (typeIndex, name) ∈ typedEntries calls ↔ lastAdded calls typeIndex = some name := by
  induction calls using List.reverseRecOn with
  | nil => exact ⟨fun member => absurd member List.not_mem_nil, fun same => by cases same⟩
  | append_singleton calls call ih =>
      unfold typedEntries lastAdded at ih ⊢
      rw [List.foldl_append, List.foldl_append, List.foldl_cons, List.foldl_cons, List.foldl_nil,
        List.foldl_nil, TypedCall.edit, List.mem_append, without, List.mem_filter, ih]
      by_cases isType : call.typeIndex = typeIndex
      · rw [if_pos isType, Option.mem_toList, Option.map_eq_some_iff]
        simp [isType]
      · rw [if_neg isType, Option.mem_toList, Option.map_eq_some_iff]
        simp [isType, Ne.symm isType]

/-- An edit of the table. -/
theorem typedStep_cases {entries : List TypedString} {state : Syspage} {call : TypedCall}
    {history : List (Event TypedCall Nat)} (table : TypedTable layout entries state)
    (small : state.maxSize layout < 2 ^ 31) (isAllowed : TypedAllowed history state call)
    (short : call.Short layout state) :
    (∃ message, typedStep layout state call = .error (.crash message)) ∨
      ∃ after returned, typedStep layout state call = .ok (after, returned) ∧
        TypedTable layout (TypedCall.edit entries call) after ∧
        after.maxSize layout = state.maxSize layout := by
  cases call with
  | add typeIndex name =>
      rcases addTypedString_cases table small isAllowed.1 (isAllowed.2 name rfl) (short name rfl)
        with crashed | ⟨after, ran, edited, maximum⟩
      · exact Or.inl crashed
      · exact Or.inr ⟨after, _, ran, edited, maximum⟩
  | del typeIndex =>
      obtain ⟨after, returned, ran, edited, maximum, _⟩ :=
        delTypedString_ok table small isAllowed.1
      refine Or.inr ⟨after, returned, ran, ?_, maximum⟩
      have same : TypedCall.edit entries (.del typeIndex) = without entries typeIndex :=
        List.append_nil _
      rw [same]
      exact edited

/-- A table is a map. -/
theorem TypedTable.typedMap {calls : List TypedCall} {state : Syspage}
    (table : TypedTable layout (typedEntries calls) state)
    (small : state.maxSize layout < 2 ^ 31) : TypedMap calls state := by
  have found := findTypedString_eq table small
  refine ⟨fun typeIndex name nonzero isLast => ?_, fun typeIndex nonzero isLast => ?_, ?_⟩
  · have member := (mem_typedEntries calls typeIndex name).mpr isLast
    have isType : typeIndex ∈ (typedEntries calls).map Prod.fst :=
      List.mem_map.mpr ⟨_, member, rfl⟩
    obtain ⟨front, back, same, inFront, _⟩ := table.typed.split member
    have inside := table.inside
    have spells := table.holds.spells
    rw [same, encodedAll_append, encodedAll_cons, spells_append, spells_append, encoded,
      spells_append, spells_append, length_typeBytes] at spells
    rw [same, encodedAll_append, encodedAll_cons, List.length_append, List.length_append,
      length_encoded] at inside
    dsimp only at inside
    refine ⟨(encodedAll front).length, ?_, load_typeBytes spells.2.1.1, spells.2.1.2.1, by omega⟩
    rw [found, typedIndex, if_pos (Or.inr isType), same, typedOffset_split inFront]
  · rw [found, typedIndex, if_neg]
    rintro (isZero | member)
    · exact nonzero isZero
    · obtain ⟨⟨_, name⟩, inEntries, rfl⟩ := List.mem_map.mp member
      rw [mem_typedEntries, isLast] at inEntries
      cases inEntries
  · refine ⟨(encodedAll (typedEntries calls)).length, ?_, table.inside, table.holds.zeros⟩
    rw [found, typedIndex_zero table]

/-- A fresh section is an empty table. -/
theorem FreshSection.typedTable {start : Syspage}
    (fresh : FreshSection layout .typedStrings start) : TypedTable layout [] start := by
  have room := fresh.room
  have eight := fresh.valid.eight .typedStrings
  refine ⟨⟨?_, ?_, List.nodup_nil⟩, fresh.holds, ?_⟩
  · exact fun entry member => absurd member List.not_mem_nil
  · exact fun entry member => absurd member List.not_mem_nil
  · show 0 + 4 ≤ _
    omega

theorem typed_inv {start state : Syspage} {history : List (Event TypedCall Nat)}
    (fresh : FreshSection layout .typedStrings start) (small : start.maxSize layout < 2 ^ 31)
    (run : Run (typedStep layout) TypedAllowed start history state)
    (short : ∀ call ∈ typedCalls history, call.Short layout start) :
    TypedTable layout (typedEntries (typedCalls history)) state ∧
      state.maxSize layout = start.maxSize layout := by
  induction run with
  | start => exact ⟨fresh.typedTable, rfl⟩
  | @next history state after call returned before isAllowed stepped ih =>
      rw [typedCalls, List.map_append] at short ⊢
      obtain ⟨table, maximum⟩ := ih fun other member => short other (List.mem_append_left _ member)
      have isShort : call.Short layout state := by
        intro name member
        rw [ShortTyped, maximum]
        exact short call (List.mem_append_right _ (List.mem_singleton.mpr rfl)) name member
      rcases typedStep_cases table (maximum ▸ small) isAllowed isShort with
        ⟨message, crashed⟩ | ⟨_, _, ran, edited, same⟩
      · rw [stepped] at crashed
        cases crashed
      · rw [stepped] at ran
        cases ran
        refine ⟨?_, same.trans maximum⟩
        rw [typedEntries, List.foldl_append]
        exact edited

/-- Along every run of calls with strings that fit an `unsigned`, the section is a map from
types to the strings last added, and every call ends. -/
theorem typedStrings_run {start state : Syspage} {history : List (Event TypedCall Nat)}
    (fresh : FreshSection layout .typedStrings start) (small : start.maxSize layout < 2 ^ 31)
    (run : Run (typedStep layout) TypedAllowed start history state)
    (short : ∀ call ∈ typedCalls history, call.Short layout start) :
    TypedMap (typedCalls history) state ∧
      ∀ call, TypedAllowed history state call → call.Short layout start →
        typedStep layout state call ≠ .error .stuck := by
  obtain ⟨table, maximum⟩ := typed_inv fresh small run short
  refine ⟨table.typedMap (maximum ▸ small), fun call isAllowed isShort => ?_⟩
  have shortHere : call.Short layout state := by
    intro name member
    rw [ShortTyped, maximum]
    exact isShort name member
  rcases typedStep_cases table (maximum ▸ small) isAllowed shortHere with
    ⟨message, crashed⟩ | ⟨_, _, ran, _⟩
  · rw [crashed]
    intro same
    cases same
  · rw [ran]
    intro same
    cases same

/-! ## A small section -/

instance (history : List (Event TypedCall Nat)) (state : Syspage) (call : TypedCall) :
    Decidable (TypedAllowed history state call) :=
  inferInstanceAs (Decidable (call.typeIndex ≠ 0 ∧ ∀ name ∈ call.string?, Plain name))

/-- Calls on the typed strings of the small system page. -/
def smallTyped (calls : List TypedCall) : Option (List (Event TypedCall Nat) × Syspage) :=
  match initSyspageMemory smallLayout (fun _ => 0) 4096 4096 with
  | .ok start => Run.execute (typedStep smallLayout) TypedAllowed [] start calls
  | .error _ => none

theorem smallTyped_map :
    ∃ start history state, FreshSection smallLayout .typedStrings start ∧
      Run (typedStep smallLayout) TypedAllowed start history state ∧
      history = [⟨.add 1 [97, 98], 0⟩, ⟨.add 2 [99], 8⟩, ⟨.add 1 [], 8⟩, ⟨.del 2, 1⟩] ∧
      TypedMap (typedCalls history) state ∧
      ∀ call, TypedAllowed history state call → call.Short smallLayout start →
        typedStep smallLayout state call ≠ .error .stuck := by
  have made : (smallTyped [.add 1 [97, 98], .add 2 [99], .add 1 [], .del 2]).map Prod.fst =
      some [⟨.add 1 [97, 98], 0⟩, ⟨.add 2 [99], 8⟩, ⟨.add 1 [], 8⟩, ⟨.del 2, 1⟩] := by
    decide +kernel
  obtain ⟨start, ran, maximum, fresh, _⟩ :=
    initSyspageMemory_fresh (fun _ => 0) smallLayout_fits
  obtain ⟨⟨final, state⟩, executed, isFinal⟩ := Option.map_eq_some_iff.mp made
  unfold smallTyped at executed
  rw [ran] at executed
  have run := Run.of_execute .start executed
  have isFinal : final = _ := isFinal
  rw [isFinal] at run
  refine ⟨start, _, state, fresh, run, rfl, typedStrings_run fresh ?_ run ?_⟩
  · rw [maximum]
    decide
  · unfold TypedCall.Short ShortTyped
    rw [maximum]
    decide

/-! ## A string of the largest length an `unsigned` holds -/

section Huge

variable {start : Syspage} {name : List UInt8}

/-- The room for it is computed as that for the empty string. -/
theorem addTypedString_huge (fresh : FreshSection smallLayout .typedStrings start)
    (small : start.maxSize smallLayout < 2 ^ 31) (size : (start.lsp .typedStrings).size = 8)
    (huge : name.length = 2 ^ 32 - 1) :
    addTypedString smallLayout start 1 name = .ok ({ start with
      memory := strlcpy (Bytes.store start.memory 4 (start.lsp .typedStrings).p 1)
        ((start.lsp .typedStrings).p + 4) name 8 }, 0) := by
  have length : Word.add 32 name.length 1 = 0 := by
    rw [huge]
    decide
  have absent : findTypedString start 1 = .ok (-1) := by
    rw [findTypedString_eq fresh.typedTable small, typedIndex, if_neg (by decide)]
  have stop : findTypedString start 0 = .ok 0 := by
    rw [findTypedString_eq fresh.typedTable small, typedIndex_zero fresh.typedTable]
    rfl
  have removed : delTypedString start 1 = .ok (start, 0) := by
    rw [delTypedString, absent]
    rfl
  have roomy : roomForTyped smallLayout start (ROUND 0 4 % 2 ^ 32) 0 = .ok start := by
    rw [roomForTyped, size]
    rfl
  have place : ((0 : Int) % 2 ^ 32).toNat = 0 := by decide
  have room : Word.sub 32 8 0 = 8 := by decide
  have type : UInt32.toNat 1 = 1 := rfl
  rw [addTypedString_eq removed stop place, length, roomy]
  simp only [bind, Except.bind]
  rw [size, room, Nat.add_zero, type]

/-- The first entry is found at once. -/
theorem findTypedString_first {state : Syspage} {typeIndex : UInt32}
    (first : Bytes.load state.memory 4 (state.lsp .typedStrings).p = typeIndex.toNat) :
    findTypedString state typeIndex = .ok 0 := by
  have bound : scanBound = (2 ^ 32 - 1) + 1 := rfl
  rw [findTypedString, bound, scanTyped, Nat.add_zero]
  dsimp only
  rw [if_pos first]
  rfl

/-- Only its first seven bytes are stored. -/
theorem huge_cut (huge : name.length = 2 ^ 32 - 1) (plain : Plain name) :
    ∃ start history state, FreshSection smallLayout .typedStrings start ∧
      start.maxSize smallLayout < 2 ^ 31 ∧
      Run (typedStep smallLayout) TypedAllowed start history state ∧
      history = [⟨.add 1 name, 0⟩] ∧ ¬ TypedMap (typedCalls history) state := by
  obtain ⟨start, ran, inv, maximum, zeroed, size, _⟩ :=
    initSyspageMemory_ok (fun _ => 0) smallLayout_fits
  have size : (start.lsp .typedStrings).size = 8 := size
  have fresh : FreshSection smallLayout .typedStrings start :=
    ⟨inv.valid, by omega, zeroed _ (by decide)⟩
  have small : start.maxSize smallLayout < 2 ^ 31 := by
    rw [maximum]
    decide
  have isOne : TypedCall.typeIndex (.add 1 name) ≠ 0 := show (1 : UInt32) ≠ 0 by decide
  have isAllowed : TypedAllowed [] start (.add 1 name) :=
    ⟨isOne, fun other member => Option.some.inj member ▸ plain⟩
  refine ⟨start, _, _, fresh, small,
    Run.next .start isAllowed (addTypedString_huge fresh small size huge), rfl, fun isMap => ?_⟩
  obtain ⟨off, found, _, spells, _⟩ := isMap.present 1 name (by decide) rfl
  have seventh : 7 < name.length := by
    rw [huge]
    decide
  have cut : (name.take 7).length = 7 := by
    rw [List.length_take, Nat.min_eq_left seventh.le]
  have stored : strlcpy (Bytes.store start.memory 4 (start.lsp .typedStrings).p 1)
      ((start.lsp .typedStrings).p + 4) name 8 =
      write (Bytes.store start.memory 4 (start.lsp .typedStrings).p 1)
        ((start.lsp .typedStrings).p + 4) (terminated (name.take 7)) := by
    rw [strlcpy, if_neg (by decide)]
  have first : Bytes.load (strlcpy (Bytes.store start.memory 4 (start.lsp .typedStrings).p 1)
      ((start.lsp .typedStrings).p + 4) name 8) 4 (start.lsp .typedStrings).p = 1 := by
    rw [stored]
    have same := @Bytes.load_store start.memory 4 (start.lsp .typedStrings).p 1
    refine (Bytes.load_congr fun place below => ?_).trans same
    exact write_of_not_mem (Or.inl (by omega))
  have isZero : off = 0 := by
    rw [@findTypedString_first _ 1 first] at found
    exact Int.natCast_eq_zero.mp (Except.ok.inj found).symm
  have there := spells.at (show 7 < (terminated name).length by
    rw [length_terminated]
    omega)
  have zero := (spells_write (Bytes.store start.memory 4 (start.lsp .typedStrings).p 1)
    ((start.lsp .typedStrings).p + 4) (terminated (name.take 7))).at
    (show 7 < (terminated (name.take 7)).length by
      rw [length_terminated, cut]
      decide)
  rw [isZero, Nat.add_zero] at there
  dsimp only at there
  rw [stored, ← zero, terminated, terminated, List.getElem?_append_left seventh,
    List.getElem?_append_right cut.le, cut] at there
  exact plain (List.mem_of_getElem? there)

end Huge

theorem hugeString_cut :
    ∃ start history state, FreshSection smallLayout .typedStrings start ∧
      start.maxSize smallLayout < 2 ^ 31 ∧
      Run (typedStep smallLayout) TypedAllowed start history state ∧
      history = [⟨.add 1 (List.replicate (2 ^ 32 - 1) 97), 0⟩] ∧
      ¬ TypedMap (typedCalls history) state := by
  refine huge_cut List.length_replicate fun isZero => ?_
  exact absurd (List.eq_of_mem_replicate isZero) (by decide)

end Bcm2711.Startup
