import Bcm2711.Lib.CString
import Bcm2711.Startup.SyspageRuns

/-! # The string section of the system page

Names are kept once, one behind the other, and known by their offset.  `add_string` looks
for a name up to the first empty string and puts a new name there.  The empty name is found
at that place too, but nothing is stored for it.
-/

namespace Bcm2711.Startup

open Runs CString

variable {layout : SyspageLayout}

/-! ## Growing and filling one section -/

/-- `grow_syspage_section` grows the section or crashes. -/
theorem growSyspageSection_cases {state : Syspage} (valid : state.Valid layout) (sect : Section)
    {add : Nat} (bounded : state.maxSize layout + roundedUp add < 2 ^ 32) :
    (∃ message, growSyspageSection layout state sect add = .error (.crash message)) ∨
      ∃ after, growSyspageSection layout state sect add = .ok after ∧
        Grew layout state after sect (roundedUp add) := by
  have maximum := valid.maximum
  by_cases fits : state.totalSize layout + roundedUp add ≤ state.maxSize layout
  · exact Or.inr (growSyspageSection_ok valid sect fits)
  · have positive : 0 < add := by
      refine Nat.pos_of_ne_zero fun isZero => fits ?_
      rw [isZero]
      exact maximum
    have rounded : roundSize add = roundedUp add := roundSize_eq (by omega)
    have sum : Word.add 32 (state.totalSize layout) (roundedUp add) =
        state.totalSize layout + roundedUp add := Word.add_of_lt (by omega)
    have crashed : growSyspageSection layout state sect add = .error (.crash
        s!"Syspage memory request of {state.totalSize layout + roundedUp add} exceeds maximum of {
          state.maxSize layout} bytes.\n") := by
      rw [growSyspageSection, if_pos positive, rounded]
      dsimp only
      rw [sum, if_pos (Nat.lt_of_not_le fits)]
    exact Or.inl ⟨_, crashed⟩

/-- The memory of a state, changed inside one section only. -/
def Syspage.Within (state : Syspage) (sect : Section) (memory : Bytes.Memory) : Prop :=
  ∀ address, address < (state.lsp sect).p ∨
    (state.lsp sect).p + (state.lsp sect).size ≤ address → memory address = state.memory address

section Contents

variable {state : Syspage} {sect : Section} {memory : Bytes.Memory}

/-- A field of the header is not changed by what is stored in a section. -/
theorem Syspage.Within.load (within : state.Within sect memory) (valid : state.Valid layout)
    (notHeader : sect ≠ .syspage) {off : Nat}
    (field : off + layout.fieldBytes ≤ layout.headerSize) :
    Bytes.load memory layout.fieldBytes (state.base + off) =
      Bytes.load state.memory layout.fieldBytes (state.base + off) := by
  have behind := valid.fields_before notHeader
  refine Bytes.load_congr fun place below => ?_
  exact within _ (Or.inl (by omega))

theorem Syspage.Within.maxSize (within : state.Within sect memory) (valid : state.Valid layout)
    (notHeader : sect ≠ .syspage) :
    ({ state with memory := memory } : Syspage).maxSize layout = state.maxSize layout :=
  within.load valid notHeader layout.size_inside

/-- What is stored in a section moves no section. -/
theorem Syspage.Within.valid (within : state.Within sect memory) (valid : state.Valid layout)
    (notHeader : sect ≠ .syspage) :
    ({ state with memory := memory } : Syspage).Valid layout := by
  apply valid.stored
  · exact within.load valid notHeader layout.totalSize_inside
  · exact within.maxSize valid notHeader

end Contents

/-- A section holds these bytes and zeros behind them. -/
structure SectionHolds (layout : SyspageLayout) (sect : Section) (bytes : List UInt8)
    (state : Syspage) : Prop where
  valid : state.Valid layout
  spells : Spells state.memory (state.lsp sect).p bytes
  inside : bytes.length ≤ (state.lsp sect).size
  zeros : ∀ place, bytes.length ≤ place → place < (state.lsp sect).size →
    state.memory ((state.lsp sect).p + place) = 0

namespace SectionHolds

variable {state after : Syspage} {sect : Section} {bytes more : List UInt8}
  {memory : Bytes.Memory}

/-- The size of a section in numbers that fit an `unsigned`. -/
theorem size_le (holds : SectionHolds layout sect bytes state) :
    (state.lsp sect).size ≤ state.maxSize layout := by
  have within := holds.valid.inside sect
  have lowest := holds.valid.base_le sect
  have maximum := holds.valid.maximum
  omega

/-- A growing section gains zeros. -/
theorem grew {added : Nat} (holds : SectionHolds layout sect bytes state)
    (notHeader : sect ≠ .syspage) (grew : Grew layout state after sect added) :
    SectionHolds layout sect bytes after ∧ (after.lsp sect).p = (state.lsp sect).p := by
  have place : (after.lsp sect).p = (state.lsp sect).p := by
    rw [grew.lsp, grownLsp_self]
  have size := grew.kept.size sect
  rw [if_pos rfl] at size
  have contents : ∀ place, place < (state.lsp sect).size →
      after.memory ((after.lsp sect).p + place) = state.memory ((state.lsp sect).p + place) :=
    fun place inside => grew.kept.contents sect place inside fun isHeader =>
      absurd isHeader notHeader
  have inside := holds.inside
  refine ⟨⟨grew.valid, ?_, by omega, ?_⟩, place⟩
  · refine holds.spells.congr fun place below => ?_
    exact contents place (by omega)
  · intro place behind below
    by_cases old : place < (state.lsp sect).size
    · rw [contents place old]
      exact holds.zeros place behind old
    · refine grew.kept.zeros place (Nat.le_of_not_lt old) ?_
      omega

/-- Zeros behind the bytes may count as bytes. -/
theorem pad (holds : SectionHolds layout sect bytes state) {count : Nat}
    (room : bytes.length + count ≤ (state.lsp sect).size) :
    SectionHolds layout sect (bytes ++ List.replicate count 0) state := by
  refine ⟨holds.valid, ?_, ?_, fun place behind below => ?_⟩
  · rw [spells_append]
    refine ⟨holds.spells, spells_of_at fun place inside => ?_⟩
    rw [List.length_replicate] at inside
    rw [List.getElem?_replicate, if_pos inside, Nat.add_assoc,
      holds.zeros _ (Nat.le_add_right _ _) (by omega)]
  · rw [List.length_append, List.length_replicate]
    exact room
  · rw [List.length_append] at behind
    exact holds.zeros place (by omega) below

/-- Zeros at the end of the bytes need not count as bytes. -/
theorem trim {count : Nat}
    (holds : SectionHolds layout sect (bytes ++ List.replicate count 0) state) :
    SectionHolds layout sect bytes state := by
  have spells := spells_append.mp holds.spells
  have inside := holds.inside
  have zeros := holds.zeros
  rw [List.length_append, List.length_replicate] at inside zeros
  refine ⟨holds.valid, spells.1, by omega, fun place behind below => ?_⟩
  by_cases early : place < bytes.length + count
  · have short : place - bytes.length < count := by omega
    have there := spells.2.at (show place - bytes.length < (List.replicate count 0).length by
      rw [List.length_replicate]
      exact short)
    rw [List.getElem?_replicate, if_pos short, Nat.add_assoc, Nat.add_sub_cancel' behind] at there
    exact (Option.some.inj there).symm
  · exact zeros place (Nat.le_of_not_lt early) below

/-- What is stored right behind the bytes belongs to them. -/
theorem append (holds : SectionHolds layout sect bytes state) (notHeader : sect ≠ .syspage)
    (written : Spells memory ((state.lsp sect).p + bytes.length) more)
    (outside : ∀ address, address < (state.lsp sect).p + bytes.length ∨
      (state.lsp sect).p + bytes.length + more.length ≤ address →
      memory address = state.memory address)
    (room : bytes.length + more.length ≤ (state.lsp sect).size) :
    SectionHolds layout sect (bytes ++ more) { state with memory := memory } ∧
      ({ state with memory := memory } : Syspage).maxSize layout = state.maxSize layout := by
  have within : state.Within sect memory := by
    intro address beside
    exact outside address (by omega)
  refine ⟨⟨within.valid holds.valid notHeader, ?_, ?_, ?_⟩, within.maxSize holds.valid notHeader⟩
  · rw [spells_append]
    refine ⟨holds.spells.congr fun place below => ?_, written⟩
    exact outside _ (Or.inl (by dsimp only; omega))
  · rw [List.length_append]
    exact room
  · intro place behind below
    rw [List.length_append] at behind
    dsimp only at below ⊢
    rw [outside _ (Or.inr (by omega))]
    exact holds.zeros place (by omega) below

end SectionHolds

/-- A section of the system page that has room and holds only zeros. -/
structure FreshSection (layout : SyspageLayout) (sect : Section) (state : Syspage) : Prop where
  valid : state.Valid layout
  room : 0 < (state.lsp sect).size
  zeroed : state.Zeroed sect

theorem FreshSection.holds {sect : Section} {state : Syspage}
    (fresh : FreshSection layout sect state) : SectionHolds layout sect [] state :=
  ⟨fresh.valid, trivial, Nat.zero_le _, fun place _ below => fresh.zeroed place below⟩

/-- `init_syspage_memory` leaves both string sections fresh. -/
theorem initSyspageMemory_fresh (memory : Bytes.Memory) {base maxSize : Nat}
    (fits : InitFits layout base maxSize) :
    ∃ start, initSyspageMemory layout memory base maxSize = .ok start ∧
      start.maxSize layout = maxSize ∧ FreshSection layout .typedStrings start ∧
      FreshSection layout .strings start := by
  obtain ⟨start, ran, inv, maximum, zeroed, typed, strings⟩ := initSyspageMemory_ok memory fits
  refine ⟨start, ran, maximum, ⟨inv.valid, ?_, zeroed _ (by decide)⟩,
    ⟨inv.valid, ?_, zeroed _ (by decide)⟩⟩
  · rw [typed]
    decide
  · rw [strings]
    decide

/-! ## `add_string` -/

/-- The values of an `unsigned`. -/
def scanBound : Nat := 2 ^ 32

/-- The loop of `add_string`: the place where it stops, and whether the name is there. -/
def scanStrings (memory : Bytes.Memory) (p : Nat) (name : List UInt8) :
    (fuel i : Nat) → Option (Bool × Nat)
  | 0, _ => none
  | fuel + 1, i =>
      if memory (p + i) = 0 then some (false, i)
      else if same memory name (p + i) then some (true, i)
      else
        match strlen memory scanBound (p + i) with
        | none => none
        | some length => scanStrings memory p name fuel (Word.add 32 i (length + 1))

/-- The part of `add_string` that makes room for a name of `len` bytes at offset `i`. -/
def roomForString (layout : SyspageLayout) (state : Syspage) (len i : Nat) : Result Syspage :=
  let spare := Word.sub 32 (state.lsp .strings).size i
  if len > spare then
    -- grow by chunk of 128 bytes.
    growSyspageSection layout state .strings (ROUND (Word.sub 32 len spare) 128 % 2 ^ 32)
  else .ok state

/-- The part of `add_string` behind its loop. -/
def appendString (layout : SyspageLayout) (state : Syspage) (name : List UInt8) (i : Nat) :
    Result (Syspage × Nat) := do
  let str := (state.lsp .strings).p + i
  let state ← roomForString layout state (Word.add 32 name.length 2) i
  let room := Word.sub 32 (state.lsp .strings).size i
  .ok ({ state with memory := strlcpy state.memory str name room }, i)

/-- `add_string`. -/
def Syspage.addString (layout : SyspageLayout) (state : Syspage) (name : List UInt8) :
    Result (Syspage × Nat) :=
  match scanStrings state.memory (state.lsp .strings).p name scanBound 0 with
  | none => .error .stuck
  | some (true, i) => .ok (state, i)
  | some (false, i) => appendString layout state name i

/-- `__hwi_find_string`. -/
def hwiFindString (state : Syspage) (off : Nat) : Nat := (state.lsp .strings).p + off

/-! ## The table -/

/-- Where a name stands among the names of a table, or behind them. -/
def offsetOf (names : List (List UInt8)) (name : List UInt8) : Nat :=
  (packed (names.takeWhile (· ≠ name))).length

/-- The names of a table after one more call. -/
def intern (names : List (List UInt8)) (name : List UInt8) : List (List UInt8) :=
  if name ∈ names ∨ name = [] then names else names ++ [name]

/-- The names that can stand in a table. -/
structure StringNames (names : List (List UInt8)) : Prop where
  nonempty : [] ∉ names
  plain : ∀ name ∈ names, Plain name
  nodup : names.Nodup

/-- The section holds these names side by side and zeros behind them. -/
structure StringTable (layout : SyspageLayout) (names : List (List UInt8)) (state : Syspage) :
    Prop where
  named : StringNames names
  holds : SectionHolds layout .strings (packed names) state
  inside : (packed names).length < (state.lsp .strings).size

section Offsets

variable {names : List (List UInt8)} {name first : List UInt8}

theorem offsetOf_cons_self (name : List UInt8) (names : List (List UInt8)) :
    offsetOf (name :: names) name = 0 := by
  simp [offsetOf]

theorem offsetOf_cons_of_ne (different : first ≠ name) (names : List (List UInt8)) :
    offsetOf (first :: names) name = first.length + 1 + offsetOf names name := by
  simp [offsetOf, different]

/-- A name that is not there belongs behind the others. -/
theorem offsetOf_of_not_mem (absent : name ∉ names) :
    offsetOf names name = (packed names).length := by
  induction names with
  | nil => rfl
  | cons first rest ih =>
      rw [List.mem_cons, not_or] at absent
      rw [offsetOf_cons_of_ne (Ne.symm absent.1), ih absent.2, packed_cons, List.length_append,
        length_terminated]

/-- A name stays where it is when another one is added. -/
theorem offsetOf_append_of_mem (member : name ∈ names) (more : List (List UInt8)) :
    offsetOf (names ++ more) name = offsetOf names name := by
  induction names with
  | nil => exact absurd member List.not_mem_nil
  | cons first rest ih =>
      by_cases here : first = name
      · rw [here, List.cons_append, offsetOf_cons_self, offsetOf_cons_self]
      · have later : name ∈ rest := by
          rcases List.mem_cons.mp member with isFirst | later
          · exact absurd isFirst.symm here
          · exact later
        rw [List.cons_append, offsetOf_cons_of_ne here, offsetOf_cons_of_ne here, ih later]

theorem offsetOf_append_self (absent : name ∉ names) :
    offsetOf (names ++ [name]) name = (packed names).length := by
  induction names with
  | nil => exact offsetOf_cons_self name []
  | cons first rest ih =>
      rw [List.mem_cons, not_or] at absent
      rw [List.cons_append, offsetOf_cons_of_ne (Ne.symm absent.1), ih absent.2, packed_cons,
        List.length_append, length_terminated]

/-- A name of a table stands at its offset. -/
theorem spells_offsetOf {memory : Bytes.Memory} {p : Nat} (spells : Spells memory p (packed names))
    (member : name ∈ names) : Spells memory (p + offsetOf names name) (terminated name) := by
  induction names generalizing p with
  | nil => exact absurd member List.not_mem_nil
  | cons first rest ih =>
      rw [packed_cons, spells_append] at spells
      by_cases here : first = name
      · rw [here, offsetOf_cons_self]
        exact here ▸ spells.1
      · have later : name ∈ rest := by
          rcases List.mem_cons.mp member with isFirst | later
          · exact absurd isFirst.symm here
          · exact later
        have there := ih spells.2 later
        rw [length_terminated, Nat.add_assoc] at there
        rwa [offsetOf_cons_of_ne here]

theorem named_tail {rest : List (List UInt8)} (named : StringNames (first :: rest)) :
    StringNames rest :=
  ⟨fun member => named.nonempty (List.mem_cons_of_mem _ member),
    fun name member => named.plain name (List.mem_cons_of_mem _ member), named.nodup.of_cons⟩

theorem StringNames.intern (named : StringNames names) (plain : Plain name) :
    StringNames (intern names name) := by
  unfold Startup.intern
  split
  · exact named
  · next isNew =>
      rw [not_or] at isNew
      refine ⟨?_, ?_, ?_⟩
      · intro member
        rcases List.mem_append.mp member with old | last
        · exact named.nonempty old
        · exact isNew.2 (List.mem_singleton.mp last).symm
      · intro other member
        rcases List.mem_append.mp member with old | last
        · exact named.plain other old
        · exact List.mem_singleton.mp last ▸ plain
      · refine List.nodup_append.mpr ⟨named.nodup, List.nodup_singleton name, ?_⟩
        intro other old last isLast same
        exact isNew.1 (List.mem_singleton.mp isLast ▸ same ▸ old)

/-- Every name takes up room. -/
theorem length_le_packed (names : List (List UInt8)) : names.length ≤ (packed names).length := by
  induction names with
  | nil => exact le_rfl
  | cons first rest ih =>
      rw [packed_cons, List.length_append, length_terminated, List.length_cons]
      omega

end Offsets

/-! ## One call -/

section Scan

variable {memory : Bytes.Memory} {p : Nat} {name : List UInt8}

/-- The loop finds a name of the table at its offset, and stops behind the table otherwise. -/
theorem scanStrings_eq {names : List (List UInt8)} {fuel i : Nat} (named : StringNames names)
    (plain : Plain name) (spells : Spells memory (p + i) (packed names))
    (ends : memory (p + (i + (packed names).length)) = 0)
    (small : i + (packed names).length < 2 ^ 32) (enough : names.length < fuel) :
    scanStrings memory p name fuel i = some (decide (name ∈ names), i + offsetOf names name) := by
  induction names generalizing fuel i with
  | nil =>
      obtain ⟨fuel, rfl⟩ := Nat.exists_eq_succ_of_ne_zero (Nat.ne_zero_of_lt enough)
      have here : memory (p + i) = 0 := ends
      rw [scanStrings, if_pos here]
      rfl
  | cons first rest ih =>
      obtain ⟨fuel, rfl⟩ := Nat.exists_eq_succ_of_ne_zero (Nat.ne_zero_of_lt enough)
      rw [packed_cons, List.length_append, length_terminated] at ends small
      rw [packed_cons, spells_append, length_terminated] at spells
      have firstPlain := named.plain first List.mem_cons_self
      have isNonempty : first ≠ [] := fun isNil => named.nonempty (isNil ▸ List.mem_cons_self)
      have length : strlen memory scanBound (p + i) = some first.length := by
        refine strlen_eq spells.1 firstPlain ?_
        unfold scanBound
        omega
      have notEnd : memory (p + i) ≠ 0 := by
        intro isZero
        have empty : Spells memory (p + i) (terminated []) := ⟨isZero, trivial⟩
        exact isNonempty (terminated_unique spells.1 empty firstPlain List.not_mem_nil)
      rw [scanStrings, if_neg notEnd]
      by_cases here : name = first
      · rw [if_pos ((same_iff spells.1 plain firstPlain).mpr here), here, offsetOf_cons_self,
          decide_eq_true List.mem_cons_self]
        rfl
      · have differs : ¬ same memory name (p + i) = true :=
          fun isSame => here ((same_iff spells.1 plain firstPlain).mp isSame)
        have next : Word.add 32 i (first.length + 1) = i + (first.length + 1) :=
          Word.add_of_lt (by omega)
        have place : p + (i + (first.length + 1)) = p + i + (first.length + 1) :=
          (Nat.add_assoc _ _ _).symm
        have endsThere : memory (p + (i + (first.length + 1) + (packed rest).length)) = 0 := by
          rw [Nat.add_assoc i]
          exact ends
        rw [if_neg differs, length]
        dsimp only
        rw [next, ih (named_tail named) (place ▸ spells.2) endsThere (by omega)
          (Nat.lt_of_succ_lt_succ enough), offsetOf_cons_of_ne (Ne.symm here), Nat.add_assoc]
        simp [here]

end Scan

section Append

variable {names : List (List UInt8)} {state after : Syspage} {name : List UInt8}

/-- There is room, or there is a crash. -/
theorem roomForString_cases (table : StringTable layout names state) {len : Nat}
    (short : len + 127 + state.maxSize layout < 2 ^ 32) :
    (∃ message, roomForString layout state len (packed names).length = .error (.crash message)) ∨
      ∃ after, roomForString layout state len (packed names).length = .ok after ∧
        StringTable layout names after ∧ (after.lsp .strings).p = (state.lsp .strings).p ∧
        after.maxSize layout = state.maxSize layout ∧
        (packed names).length + len ≤ (after.lsp .strings).size := by
  have inside := table.inside
  have size := table.holds.size_le
  have spare : Word.sub 32 (state.lsp .strings).size (packed names).length =
      (state.lsp .strings).size - (packed names).length := Word.sub_of_le (by omega) (by omega)
  unfold roomForString
  dsimp only
  rw [spare]
  by_cases scarce : len > (state.lsp .strings).size - (packed names).length
  · have missing : Word.sub 32 len ((state.lsp .strings).size - (packed names).length) =
        len - ((state.lsp .strings).size - (packed names).length) :=
      Word.sub_of_le (by omega) (by omega)
    have rounded : ROUND (len - ((state.lsp .strings).size - (packed names).length)) 128 =
        (len - ((state.lsp .strings).size - (packed names).length) + 127) / 128 * 128 :=
      @Word.round_two_pow 64 _ 7 (by decide) (by omega)
    have small : (len - ((state.lsp .strings).size - (packed names).length) + 127) / 128 * 128 <
        2 ^ 32 := by omega
    rw [if_pos scarce, missing, rounded, Nat.mod_eq_of_lt small]
    have eight : roundedUp ((len - ((state.lsp .strings).size - (packed names).length) + 127) /
        128 * 128) = (len - ((state.lsp .strings).size - (packed names).length) + 127) /
        128 * 128 := by
      unfold roundedUp
      omega
    rcases growSyspageSection_cases table.holds.valid .strings
      (show state.maxSize layout + roundedUp _ < 2 ^ 32 by rw [eight]; omega) with
        crashed | ⟨after, ran, grew⟩
    · exact Or.inl crashed
    · obtain ⟨grown, place⟩ := table.holds.grew (by decide) grew
      have size := grew.kept.size .strings
      rw [if_pos rfl, eight] at size
      exact Or.inr ⟨after, ran, ⟨table.named, grown, by omega⟩, place, grew.maximum, by omega⟩
  · rw [if_neg scarce]
    exact Or.inr ⟨state, rfl, table, rfl, rfl, by omega⟩

/-- A name written behind the table belongs to it, unless it is the empty one. -/
theorem StringTable.append (table : StringTable layout names state) (plain : Plain name)
    (isNew : name ∉ names)
    (room : (packed names).length + (name.length + 2) ≤ (state.lsp .strings).size) :
    StringTable layout (intern names name) { state with
      memory := write state.memory ((state.lsp .strings).p + (packed names).length)
        (terminated name) } ∧
      ({ state with
        memory := write state.memory ((state.lsp .strings).p + (packed names).length)
          (terminated name) } : Syspage).maxSize layout = state.maxSize layout := by
  obtain ⟨holds, maximum⟩ := table.holds.append (by decide)
    (spells_write state.memory ((state.lsp .strings).p + (packed names).length) (terminated name))
    (fun _ => write_of_not_mem) (by rw [length_terminated]; omega)
  refine ⟨?_, maximum⟩
  by_cases isNil : name = []
  · rw [intern, if_pos (Or.inr isNil)]
    rw [isNil] at holds ⊢
    exact ⟨table.named, @SectionHolds.trim layout _ .strings (packed names) 1 holds, table.inside⟩
  · have named := table.named.intern plain
    rw [intern, if_neg (not_or.mpr ⟨isNew, isNil⟩)] at named ⊢
    have same : packed (names ++ [name]) = packed names ++ terminated name := by
      rw [packed_append, packed_cons, packed_nil, List.append_nil]
    refine ⟨named, same ▸ holds, ?_⟩
    rw [same, List.length_append, length_terminated]
    dsimp only
    omega

/-- Names whose length, rounded up, fits an `unsigned` together with the system page. -/
def Short (layout : SyspageLayout) (state : Syspage) (name : List UInt8) : Prop :=
  name.length + 129 + state.maxSize layout < 2 ^ 32

/-- `add_string` returns the offset of a name, and keeps it if it is not empty. -/
theorem addString_cases (table : StringTable layout names state) (plain : Plain name)
    (short : Short layout state name) :
    (∃ message, Syspage.addString layout state name = .error (.crash message)) ∨
      ∃ after, Syspage.addString layout state name = .ok (after, offsetOf names name) ∧
        StringTable layout (intern names name) after ∧
        after.maxSize layout = state.maxSize layout := by
  unfold Short at short
  have inside := table.inside
  have size := table.holds.size_le
  have few := length_le_packed names
  have ends : state.memory ((state.lsp .strings).p + (0 + (packed names).length)) = 0 := by
    rw [Nat.zero_add]
    exact table.holds.zeros _ le_rfl inside
  have scan : scanStrings state.memory (state.lsp .strings).p name scanBound 0 =
      some (decide (name ∈ names), 0 + offsetOf names name) :=
    scanStrings_eq table.named plain table.holds.spells ends (by omega)
      (show names.length < 2 ^ 32 by omega)
  rw [Nat.zero_add] at scan
  unfold Syspage.addString
  rw [scan]
  by_cases member : name ∈ names
  · rw [decide_eq_true member]
    refine Or.inr ⟨state, rfl, ?_, rfl⟩
    rw [intern, if_pos (Or.inl member)]
    exact table
  · rw [decide_eq_false member, offsetOf_of_not_mem member]
    dsimp only
    have len : Word.add 32 name.length 2 = name.length + 2 := Word.add_of_lt (by omega)
    unfold appendString
    dsimp only
    rw [len]
    rcases @roomForString_cases layout names state table (name.length + 2) (by omega) with
      ⟨message, crashed⟩ | ⟨roomy, ran, kept, place, same, room⟩
    · rw [crashed]
      exact Or.inl ⟨message, rfl⟩
    · have roomySize := kept.holds.size_le
      have left : Word.sub 32 (roomy.lsp .strings).size (packed names).length =
          (roomy.lsp .strings).size - (packed names).length := Word.sub_of_le (by omega) (by omega)
      obtain ⟨written, alike⟩ := kept.append plain member room
      rw [place] at written alike
      refine Or.inr ⟨_, ?_, written, alike.trans same⟩
      rw [ran]
      simp only [bind, Except.bind]
      rw [left, strlcpy_eq (by omega)]

end Append

/-! ## Whole runs -/

/-- A call of `add_string` and the offset it returned. -/
abbrev StringEvent := Event (List UInt8) Nat

/-- The names passed by a history. -/
def namesOf (history : List StringEvent) : List (List UInt8) := history.map Event.call

/-- The names a history stores. -/
def interned (history : List StringEvent) : List (List UInt8) := (namesOf history).foldl intern []

/-- Any C strings are added. -/
def CStrings (_history : List StringEvent) (_state : Syspage) (name : List UInt8) : Prop :=
  Plain name

/-- Behind the empty name no name is added that is new. -/
def NothingBehindEmpty (names : List (List UInt8)) : Prop :=
  ∀ front back, names = front ++ [] :: back → ∀ name ∈ back, name = [] ∨ name ∈ front

/-- Every returned offset decodes to its name, offsets tell names apart, and the names lie
inside the section with a zero behind them. -/
structure StringsStable (layout : SyspageLayout) (history : List StringEvent) (state : Syspage) :
    Prop where
  decodes : ∀ event ∈ history,
    Spells state.memory (hwiFindString state event.returned) (terminated event.call)
  apart : ∀ one ∈ history, ∀ other ∈ history,
    one.returned = other.returned ↔ one.call = other.call
  table : ∃ names, StringTable layout names state

/-- What a run of `add_string` keeps. -/
structure StringsInv (layout : SyspageLayout) (maxSize : Nat) (history : List StringEvent)
    (state : Syspage) : Prop where
  table : StringTable layout (interned history) state
  maximum : state.maxSize layout = maxSize
  plain : ∀ event ∈ history, Plain event.call
  stored : ∀ event ∈ history, event.call ∈ interned history ∨ event.call = []
  added : ∀ name ∈ interned history, name ∈ namesOf history
  settled : NothingBehindEmpty (namesOf history) →
    ∀ event ∈ history, event.returned = offsetOf (interned history) event.call
  clash : ¬ NothingBehindEmpty (namesOf history) →
    ∃ one ∈ history, ∃ other ∈ history, one.returned = other.returned ∧ one.call ≠ other.call

theorem interned_append (history : List StringEvent) (event : StringEvent) :
    interned (history ++ [event]) = intern (interned history) event.call := by
  rw [interned, namesOf, List.map_append, List.foldl_append]
  rfl

theorem namesOf_append (history : List StringEvent) (event : StringEvent) :
    namesOf (history ++ [event]) = namesOf history ++ [event.call] := List.map_append

theorem subset_intern {names : List (List UInt8)} {name other : List UInt8}
    (member : other ∈ names) : other ∈ intern names name := by
  unfold intern
  split
  · exact member
  · exact List.mem_append_left _ member

theorem mem_intern (names : List (List UInt8)) (name : List UInt8) :
    name ∈ intern names name ∨ name = [] := by
  unfold intern
  split
  · next known => exact known
  · exact Or.inl (List.mem_append_right _ (List.mem_singleton.mpr rfl))

theorem of_mem_intern {names : List (List UInt8)} {name other : List UInt8}
    (member : other ∈ intern names name) : other ∈ names ∨ other = name := by
  unfold intern at member
  split at member
  · exact Or.inl member
  · rcases List.mem_append.mp member with old | last
    · exact Or.inl old
    · exact Or.inr (List.mem_singleton.mp last)

theorem nothingBehindEmpty_of_not_mem {names : List (List UInt8)} (nameless : [] ∉ names) :
    NothingBehindEmpty names := by
  intro front back same
  refine absurd ?_ nameless
  rw [same]
  exact List.mem_append_right _ List.mem_cons_self

theorem nothingBehindEmpty_append {names : List (List UInt8)} {name : List UInt8} :
    NothingBehindEmpty (names ++ [name]) ↔
      NothingBehindEmpty names ∧ ([] ∈ names → name = [] ∨ name ∈ names) := by
  constructor
  · intro behind
    refine ⟨fun front back same other member => ?_, fun member => ?_⟩
    · refine behind front (back ++ [name]) ?_ other (List.mem_append_left _ member)
      rw [same, List.append_assoc, List.cons_append]
    · obtain ⟨front, back, same⟩ := List.append_of_mem member
      have whole : names ++ [name] = front ++ [] :: (back ++ [name]) := by
        rw [same, List.append_assoc, List.cons_append]
      have last : name ∈ back ++ [name] := List.mem_append_right _ (List.mem_singleton.mpr rfl)
      rcases behind front (back ++ [name]) whole name last with isNil | inFront
      · exact Or.inl isNil
      · refine Or.inr ?_
        rw [same]
        exact List.mem_append_left _ inFront
  · rintro ⟨behind, afterEmpty⟩ front back same other member
    rcases List.eq_nil_or_concat' back with isNil | ⟨rest, last, isConcat⟩
    · rw [isNil] at member
      exact absurd member List.not_mem_nil
    · rw [isConcat, ← List.cons_append, ← List.append_assoc] at same
      obtain ⟨sameNames, sameLast⟩ := List.append_inj' same rfl
      rw [isConcat] at member
      rcases List.mem_append.mp member with early | isLast
      · exact behind front rest sameNames other early
      · have isName : other = name :=
          (List.mem_singleton.mp isLast).trans (List.singleton_inj.mp sameLast).symm
        have empty : [] ∈ names := by
          rw [sameNames]
          exact List.mem_append_right _ List.mem_cons_self
        rw [isName]
        rcases afterEmpty empty with isNil | known
        · exact Or.inl isNil
        · rw [sameNames] at known
          rcases List.mem_append.mp known with inFront | behindFront
          · exact Or.inr inFront
          · rcases List.mem_cons.mp behindFront with isNil | inRest
            · exact Or.inl isNil
            · exact behind front rest sameNames name inRest

theorem stringsInv_start {start : Syspage} (fresh : FreshSection layout .strings start) :
    StringsInv layout (start.maxSize layout) [] start := by
  have noEvent : ∀ event : StringEvent, event ∉ ([] : List StringEvent) :=
    fun _ => List.not_mem_nil
  refine ⟨⟨⟨List.not_mem_nil, ?_, List.nodup_nil⟩, fresh.holds, fresh.room⟩, rfl, ?_, ?_, ?_, ?_,
    ?_⟩
  · exact fun name member => absurd member List.not_mem_nil
  · exact fun event member => absurd member (noEvent event)
  · exact fun event member => absurd member (noEvent event)
  · exact fun name member => absurd member List.not_mem_nil
  · exact fun _ event member => absurd member (noEvent event)
  · exact fun violated => absurd (nothingBehindEmpty_of_not_mem List.not_mem_nil) violated

/-- Offsets that were returned stay right when a name is added, unless the empty name was
given the place of the new one. -/
theorem StringsInv.next {maxSize : Nat} {history : List StringEvent} {state after : Syspage}
    {name : List UInt8} (inv : StringsInv layout maxSize history state) (plain : Plain name)
    (table : StringTable layout (intern (interned history) name) after)
    (maximum : after.maxSize layout = state.maxSize layout) :
    StringsInv layout maxSize (history ++ [⟨name, offsetOf (interned history) name⟩]) after := by
  have cases_of : ∀ event ∈ history ++ [(⟨name, offsetOf (interned history) name⟩ : StringEvent)],
      event ∈ history ∨ event = ⟨name, offsetOf (interned history) name⟩ := by
    intro event member
    rcases List.mem_append.mp member with old | last
    · exact Or.inl old
    · exact Or.inr (List.mem_singleton.mp last)
  have lastOne : (⟨name, offsetOf (interned history) name⟩ : StringEvent) ∈
      history ++ [⟨name, offsetOf (interned history) name⟩] :=
    List.mem_append_right _ (List.mem_singleton.mpr rfl)
  have known : name ∈ namesOf history → name ∈ interned history ∨ name = [] := by
    intro member
    obtain ⟨event, inHistory, isName⟩ := List.mem_map.mp member
    rw [← isName]
    exact inv.stored event inHistory
  refine ⟨?_, maximum.trans inv.maximum, ?_, ?_, ?_, ?_, ?_⟩
  · rw [interned_append]
    exact table
  · intro event member
    rcases cases_of event member with old | rfl
    · exact inv.plain event old
    · exact plain
  · intro event member
    rw [interned_append]
    rcases cases_of event member with old | rfl
    · rcases inv.stored event old with isStored | isNil
      · exact Or.inl (subset_intern isStored)
      · exact Or.inr isNil
    · exact mem_intern _ name
  · intro other member
    rw [interned_append] at member
    rw [namesOf_append]
    rcases of_mem_intern member with old | isName
    · exact List.mem_append_left _ (inv.added other old)
    · exact List.mem_append_right _ (List.mem_singleton.mpr isName)
  · intro behind
    rw [namesOf_append, nothingBehindEmpty_append] at behind
    have settled := inv.settled behind.1
    rw [interned_append]
    dsimp only
    unfold intern
    split
    · intro event member
      rcases cases_of event member with old | rfl
      · exact settled event old
      · rfl
    · next isNew =>
        rw [not_or] at isNew
        intro event member
        rcases cases_of event member with old | rfl
        · rw [settled event old]
          rcases inv.stored event old with isStored | isNil
          · exact (offsetOf_append_of_mem isStored _).symm
          · have empty : [] ∈ namesOf history := isNil ▸ List.mem_map_of_mem old
            rcases behind.2 empty with isEmpty | member
            · exact absurd isEmpty isNew.2
            · rcases known member with isStored | isEmpty
              · exact absurd isStored isNew.1
              · exact absurd isEmpty isNew.2
        · dsimp only
          rw [offsetOf_of_not_mem isNew.1, offsetOf_append_self isNew.1]
  · intro violated
    rw [namesOf_append, nothingBehindEmpty_append] at violated
    by_cases behind : NothingBehindEmpty (namesOf history)
    · obtain ⟨empty, isNew⟩ := Classical.not_imp.mp fun allowed => violated ⟨behind, allowed⟩
      rw [not_or] at isNew
      obtain ⟨event, inHistory, isNil⟩ := List.mem_map.mp empty
      have absent : name ∉ interned history := fun member => isNew.2 (inv.added name member)
      refine ⟨event, List.mem_append_left _ inHistory, _, lastOne, ?_, ?_⟩
      · rw [inv.settled behind event inHistory, isNil, offsetOf_of_not_mem absent,
          offsetOf_of_not_mem inv.table.named.nonempty]
      · rw [isNil]
        exact fun same => isNew.1 same.symm
    · obtain ⟨one, inOne, other, inOther, clash⟩ := inv.clash behind
      exact ⟨one, List.mem_append_left _ inOne, other, List.mem_append_left _ inOther, clash⟩

theorem strings_inv {start state : Syspage} {history : List StringEvent}
    (fresh : FreshSection layout .strings start)
    (run : Run (Syspage.addString layout) CStrings start history state)
    (short : ∀ name ∈ namesOf history, Short layout start name) :
    StringsInv layout (start.maxSize layout) history state := by
  induction run with
  | start => exact stringsInv_start fresh
  | @next history state after name returned before isPlain stepped ih =>
      rw [namesOf_append] at short
      have inv := ih fun other member => short other (List.mem_append_left _ member)
      have isShort : Short layout state name := by
        rw [Short, inv.maximum]
        exact short name (List.mem_append_right _ (List.mem_singleton.mpr rfl))
      rcases addString_cases inv.table isPlain isShort with
        ⟨message, crashed⟩ | ⟨_, ran, table, same⟩
      · rw [stepped] at crashed
        cases crashed
      · rw [stepped] at ran
        cases ran
        exact inv.next isPlain table same

/-- No call of `add_string` loops for ever. -/
theorem addString_ends {start state : Syspage} {history : List StringEvent} {name : List UInt8}
    (fresh : FreshSection layout .strings start)
    (run : Run (Syspage.addString layout) CStrings start history state)
    (short : ∀ name ∈ namesOf history, Short layout start name) (plain : Plain name)
    (isShort : Short layout start name) : Syspage.addString layout state name ≠ .error .stuck := by
  have inv := strings_inv fresh run short
  rw [Short, ← inv.maximum] at isShort
  rcases addString_cases inv.table plain isShort with ⟨message, crashed⟩ | ⟨_, ran, _⟩
  · rw [crashed]
    intro same
    cases same
  · rw [ran]
    intro same
    cases same

/-- Among names that fit an `unsigned`, offsets decode for good and tell names apart exactly
when no new name follows the empty one. -/
theorem stringsStable_iff {start state : Syspage} {history : List StringEvent}
    (fresh : FreshSection layout .strings start)
    (run : Run (Syspage.addString layout) CStrings start history state)
    (short : ∀ name ∈ namesOf history, Short layout start name) :
    StringsStable layout history state ↔ NothingBehindEmpty (namesOf history) := by
  have inv := strings_inv fresh run short
  constructor
  · intro stable
    by_contra violated
    obtain ⟨one, inOne, other, inOther, same, differ⟩ := inv.clash violated
    exact differ ((stable.apart one inOne other inOther).mp same)
  · intro behind
    have settled := inv.settled behind
    have decodes : ∀ event ∈ history,
        Spells state.memory (hwiFindString state event.returned) (terminated event.call) := by
      intro event member
      rw [settled event member]
      rcases inv.stored event member with isStored | isNil
      · exact spells_offsetOf inv.table.holds.spells isStored
      · rw [isNil, offsetOf_of_not_mem inv.table.named.nonempty]
        exact ⟨inv.table.holds.zeros _ le_rfl inv.table.inside, trivial⟩
    refine ⟨decodes, fun one inOne other inOther => ⟨fun same => ?_, fun same => ?_⟩, _, inv.table⟩
    · have first := decodes one inOne
      rw [same] at first
      exact terminated_unique first (decodes other inOther) (inv.plain one inOne)
        (inv.plain other inOther)
    · rw [settled one inOne, settled other inOther, same]

/-! ## A small string section -/

instance (history : List StringEvent) (state : Syspage) (name : List UInt8) :
    Decidable (CStrings history state name) := inferInstanceAs (Decidable (Plain name))

/-- Names added to the small system page. -/
def smallStrings (names : List (List UInt8)) : Option (List StringEvent × Syspage) :=
  match initSyspageMemory smallLayout (fun _ => 0) 4096 4096 with
  | .ok start => Run.execute (Syspage.addString smallLayout) CStrings [] start names
  | .error _ => none

theorem run_of_smallStrings {names : List (List UInt8)} {history : List StringEvent}
    (made : (smallStrings names).map Prod.fst = some history) :
    ∃ start state, start.maxSize smallLayout = 4096 ∧ FreshSection smallLayout .strings start ∧
      Run (Syspage.addString smallLayout) CStrings start history state := by
  obtain ⟨start, ran, maximum, _, fresh⟩ :=
    initSyspageMemory_fresh (fun _ => 0) smallLayout_fits
  obtain ⟨⟨final, state⟩, executed, rfl⟩ := Option.map_eq_some_iff.mp made
  unfold smallStrings at executed
  rw [ran] at executed
  exact ⟨start, state, maximum, fresh, Run.of_execute .start executed⟩

theorem smallStrings_stable :
    ∃ start history state, FreshSection smallLayout .strings start ∧
      Run (Syspage.addString smallLayout) CStrings start history state ∧
      history = [⟨[97], 0⟩, ⟨[98, 97], 2⟩, ⟨[97], 0⟩, ⟨[], 5⟩] ∧
      StringsStable smallLayout history state := by
  have made : (smallStrings [[97], [98, 97], [97], []]).map Prod.fst =
      some [⟨[97], 0⟩, ⟨[98, 97], 2⟩, ⟨[97], 0⟩, ⟨[], 5⟩] := by decide
  obtain ⟨start, state, maximum, fresh, run⟩ := run_of_smallStrings made
  refine ⟨start, _, state, fresh, run, rfl, ?_⟩
  refine (stringsStable_iff fresh run ?_).mpr ?_
  · unfold Short
    rw [maximum]
    decide
  · have nameless : [] ∉ ([[97], [98, 97], [97]] : List (List UInt8)) := by decide
    have early := nothingBehindEmpty_of_not_mem nameless
    exact nothingBehindEmpty_append.mpr ⟨early, fun _ => Or.inl rfl⟩

/-- The name added behind the empty one is given its offset. -/
theorem emptyString_unstable :
    ∃ start history state, FreshSection smallLayout .strings start ∧
      Run (Syspage.addString smallLayout) CStrings start history state ∧
      history = [⟨[], 0⟩, ⟨[97], 0⟩] ∧ ¬ StringsStable smallLayout history state := by
  have made : (smallStrings [[], [97]]).map Prod.fst = some [⟨[], 0⟩, ⟨[97], 0⟩] := by
    decide
  obtain ⟨start, state, maximum, fresh, run⟩ := run_of_smallStrings made
  refine ⟨start, _, state, fresh, run, rfl, fun stable => ?_⟩
  have same := (stable.apart ⟨[], 0⟩ (by decide) ⟨[97], 0⟩ (by decide)).mp rfl
  cases same

end Bcm2711.Startup
