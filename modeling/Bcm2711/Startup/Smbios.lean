import Bcm2711.Lib.Terminated
import Bcm2711.Startup.Types

/-! # Walking the SMBIOS structures

`board_find_efi_smbios_by_type` goes from structure to structure: behind the formatted part, the
length of which is in the header, it looks for the two zeros that end the strings.  Only the place
behind them is compared with the end of the table.

A pointer into the table is the list of the bytes from there to the end of the table; a read is
`none` when it is behind them.
-/

namespace Bcm2711.Startup

/-- What is read of a `smbios_table_t`. -/
structure SmbiosTable where
  tableLength : UInt16
  tableAddress : UInt32

/-- What is read of a `smbios_table_3_t`. -/
structure SmbiosTable3 where
  tableMaximumSize : UInt32
  tableAddress : UInt64

/-- What `uefi_find_config_tbl` finds for each of `smbios_guids`. -/
structure SmbiosConfig where
  smbios3 : Option SmbiosTable3
  smbios : Option SmbiosTable

/-- `board_find_efi_smbios_table`: the address and the length in the entry point found. -/
def boardFindEfiSmbiosTable (config : SmbiosConfig) : Option (Nat × Nat) :=
  match config.smbios3, config.smbios with
  | some table, _ => some (table.tableAddress.toNat, table.tableMaximumSize.toNat)
  | none, some table => some (table.tableAddress.toNat, table.tableLength.toNat)
  | none, none => none

/-- The bytes of a table. -/
def tableBytes (memory : Nat → UInt8) (address length : Nat) : List UInt8 :=
  (List.range length).map fun place => memory (address + place)

/-! ## What the dumps read -/

/-- Bytes at some offsets are read. -/
def readBytes (buf : List UInt8) : List Nat → Option Unit
  | [] => some ()
  | offset :: offsets => buf[offset]?.bind fun _ => readBytes buf offsets

/-- `Hdr->Length`. -/
def hdrLength (buf : List UInt8) : Option Nat := buf[1]?.map UInt8.toNat

/-- The loop over the string section, up to behind the two zeros. -/
def skipStringSection (data : List UInt8) : Option (List UInt8) := Terminated.pastPair 0 data

/-- `get_smbios_string`. -/
def getSmbiosString (address : Nat) (hdr : List UInt8) (idx : UInt8) : Option (List UInt8) :=
  if address ≠ 0 ∧ idx > 0 then
    (hdrLength hdr).bind fun length => Terminated.pastMany 0 (idx.toNat - 1) (hdr.drop length)
  else some [0]

/-- A field that is printed: the index of a string, or a number or a GUID. -/
inductive SmbiosField where
  | string (offset : Nat)
  | bytes (offset size : Nat)

/-- A field is read, and the string that it is the index of. -/
def dumpField (address : Nat) (buf : List UInt8) : SmbiosField → Option Unit
  | .string offset =>
      buf[offset]?.bind fun idx =>
        (getSmbiosString address buf idx).bind fun string =>
          (Terminated.past 0 string).map fun _ => ()
  | .bytes offset size => readBytes buf (List.range' offset size)

def dumpFields (address : Nat) (buf : List UInt8) : List SmbiosField → Option Unit
  | [] => some ()
  | field :: fields => (dumpField address buf field).bind fun _ => dumpFields address buf fields

/-- `dump_smbios_data`; `len` is a byte. -/
def dumpSmbiosData (debugFlag : Int) (buf : List UInt8) : Option Unit :=
  if debugFlag > 4 then
    (readBytes buf [0, 1, 2, 3]).bind fun _ =>
      (hdrLength buf).bind fun length =>
        (skipStringSection (buf.drop length)).bind fun behind =>
          let len := (buf.drop length).length - (behind.length + 2)
          readBytes buf (List.range ((len + (2 + length)) % 2 ^ 8))
  else some ()

/-- The fields that `dump_smbios_data_type_1` prints. -/
def type1Fields : List SmbiosField :=
  [.string 4, .string 5, .string 6, .string 7, .bytes 8 16, .bytes 24 1, .string 25, .string 26]

/-- The fields that `dump_smbios_data_type_4` prints. -/
def type4Fields : List SmbiosField :=
  [.string 4, .bytes 5 1, .bytes 6 1, .string 7, .string 16, .bytes 20 2, .bytes 22 2,
    .bytes 35 1, .bytes 36 1]

/-- `dump_smbios_data_type_1`. -/
def dumpSmbiosDataType1 (debugFlag : Int) (address : Nat) (buf : List UInt8) : Option Unit :=
  if debugFlag > 4 then dumpFields address buf type1Fields else some ()

/-- `dump_smbios_data_type_4`. -/
def dumpSmbiosDataType4 (debugFlag : Int) (address : Nat) (buf : List UInt8) : Option Unit :=
  if debugFlag > 4 then dumpFields address buf type4Fields else some ()

/-- What is done with a structure of the type searched. -/
def dumpFound (debugFlag : Int) (type : UInt8) (address : Nat) (buf : List UInt8) : Option Unit :=
  (dumpSmbiosData debugFlag buf).bind fun _ =>
    (if type = 1 then dumpSmbiosDataType1 debugFlag address buf else some ()).bind fun _ =>
      if type = 4 then dumpSmbiosDataType4 debugFlag address buf else some ()

/-! ## The walk -/

/-- The loop of `board_find_efi_smbios_by_type`, from `smbios_data.buf` at an address on;
`smbiosEnd` is `smbios_end_data.buf`. -/
def smbiosWalk (debugFlag : Int) (type : UInt8) (smbiosEnd address : Nat) (buf : List UInt8) :
    Option Nat :=
  match buf[0]? with
  | none => none
  | some hdrType =>
      if hdrType = type then (dumpFound debugFlag type address buf).map fun _ => address
      else if hdrType = 127 then some nullPaddr
      else
        match hdrLength buf with
        | none => none
        | some length =>
            match _ : skipStringSection (buf.drop length) with
            | none => none
            | some next =>
                let address := (address + (buf.length - next.length)) % 2 ^ 64
                if address ≥ smbiosEnd then some nullPaddr
                else smbiosWalk debugFlag type smbiosEnd address next
termination_by buf.length
decreasing_by
  have passed := Terminated.length_pastPair ‹_›
  rw [List.length_drop] at passed
  omega

/-- `board_find_efi_smbios_by_type`. -/
def boardFindEfiSmbiosByType (debugFlag : Int) (config : SmbiosConfig) (memory : Nat → UInt8)
    (type : UInt8) : Option Nat :=
  match boardFindEfiSmbiosTable config with
  | none => some nullPaddr
  | some (address, length) =>
      smbiosWalk debugFlag type ((address + length) % 2 ^ 64) address
        (tableBytes memory address length)

/-! ## Tables of complete structures -/

/-- The length in the header in front of some bytes. -/
def lengthByte (bytes : List UInt8) : Nat := (bytes.getD 1 0).toNat

/-- A structure that ends where its strings do. -/
structure SmbiosStructure where
  bytes : List UInt8
  strings : Terminated.Ends 0 (bytes.drop (lengthByte bytes))

/-- The type in the header. -/
def SmbiosStructure.type (struct : SmbiosStructure) : UInt8 := struct.bytes.getD 0 0

/-- The formatted part of a well-formed structure holds the header. -/
def SmbiosStructure.WellFormed (struct : SmbiosStructure) : Prop := 4 ≤ lengthByte struct.bytes

/-- Structures one behind the other. -/
def laidOut (structs : List SmbiosStructure) : List UInt8 := structs.flatMap (·.bytes)

/-- The walk ends with a result, which is the first structure of the type in the well-formed front
of the table. -/
structure SmbiosExact (address : Nat) (bytes : List UInt8) (type : UInt8) (result : Option Nat) :
    Prop where
  inside : result ≠ none
  first : ∀ (front : List SmbiosStructure) (wanted : SmbiosStructure) (rest : List UInt8),
    bytes = laidOut front ++ (wanted.bytes ++ rest) →
    (∀ struct ∈ front, struct.WellFormed ∧ struct.type ≠ type ∧ struct.type ≠ 127) →
    wanted.WellFormed → wanted.type = type →
    result = some (address + (laidOut front).length)

/-- What a field leads to is in the table: a string that many zeros behind the formatted part. -/
def SmbiosField.Inside (address : Nat) (buf : List UInt8) : SmbiosField → Prop
  | .string offset => offset < buf.length ∧
      (address ≠ 0 → (buf.getD offset 0).toNat ≤ (buf.drop (lengthByte buf)).count 0)
  | .bytes offset size => offset + size ≤ buf.length

/-- What is printed of a structure is in the table. -/
structure Dumpable (type : UInt8) (address : Nat) (buf : List UInt8) : Prop where
  header : 4 ≤ buf.length
  strings : ∃ text behind, buf.drop (lengthByte buf) = text ++ behind ∧ Terminated.Ends 0 text
  type1 : type = 1 → ∀ field ∈ type1Fields, field.Inside address buf
  type4 : type = 4 → ∀ field ∈ type4Fields, field.Inside address buf

/-- The table is a front of complete structures of other types up to its end, up to an end
structure or up to a structure of the type searched, the dump of which is in the table. -/
def SmbiosComplete (debugFlag : Int) (type : UInt8) (address : Nat) (bytes : List UInt8) : Prop :=
  ∃ (front : List SmbiosStructure) (rest : List UInt8), bytes = laidOut front ++ rest ∧
    (∀ struct ∈ front, struct.type ≠ type ∧ struct.type ≠ 127) ∧
    (front ≠ [] ∧ rest = [] ∨ type ≠ 127 ∧ rest.head? = some 127 ∨
      rest.head? = some type ∧
        (4 < debugFlag → Dumpable type (address + (laidOut front).length) rest))

/-! ## What the dumps need -/

section Dumps

variable {debugFlag : Int} {type : UInt8} {address : Nat} {buf : List UInt8}

theorem then_isSome_iff {α : Type} (first : Option α) (next : Option Unit) :
    (first.bind fun _ => next).isSome ↔ first.isSome ∧ next.isSome := by
  cases first with
  | none => simp
  | some value => simp

theorem readBytes_isSome_iff (offsets : List Nat) :
    (readBytes buf offsets).isSome ↔ ∀ offset ∈ offsets, offset < buf.length := by
  induction offsets with
  | nil => simp [readBytes]
  | cons offset offsets ih =>
      rw [readBytes, List.forall_mem_cons, ← ih, then_isSome_iff, isSome_getElem?]

theorem hdrLength_eq (long : 2 ≤ buf.length) : hdrLength buf = some (lengthByte buf) := by
  have second : 1 < buf.length := by omega
  rw [hdrLength, lengthByte, List.getElem?_eq_getElem second, List.getD_eq_getElem _ _ second]
  rfl

/-- A string is read to its end when there are so many zeros behind the formatted part. -/
theorem getSmbiosString_isSome_iff (long : 2 ≤ buf.length) (idx : UInt8) :
    ((getSmbiosString address buf idx).bind fun string =>
        (Terminated.past 0 string).map fun _ => ()).isSome ↔
      (address ≠ 0 → idx.toNat ≤ (buf.drop (lengthByte buf)).count 0) := by
  rw [getSmbiosString]
  by_cases looked : address ≠ 0 ∧ idx > 0
  · have positive : 0 < idx.toNat := looked.2
    have whole := Terminated.pastMany_isSome_iff 0 (idx.toNat - 1 + 1)
      (buf.drop (lengthByte buf))
    rw [Terminated.pastMany_succ, Nat.sub_add_cancel positive] at whole
    rw [if_pos looked, hdrLength_eq long, Option.bind_some, imp_iff_right looked.1, ← whole]
    cases Terminated.pastMany 0 (idx.toNat - 1) (buf.drop (lengthByte buf)) with
    | none => exact Iff.rfl
    | some string =>
        rw [Option.bind_some, Option.bind_some, Option.isSome_map]
  · rw [if_neg looked]
    refine iff_of_true rfl fun real => ?_
    have zero : idx.toNat = 0 := by
      by_contra positive
      exact looked ⟨real, Nat.pos_of_ne_zero positive⟩
    rw [zero]
    exact Nat.zero_le _

theorem dumpField_isSome_iff (long : 2 ≤ buf.length) {field : SmbiosField}
    (some_bytes : ∀ offset size, field = .bytes offset size → 0 < size) :
    (dumpField address buf field).isSome ↔ field.Inside address buf := by
  cases field with
  | string offset =>
      rw [dumpField, SmbiosField.Inside]
      by_cases here : offset < buf.length
      · rw [List.getElem?_eq_getElem here, Option.bind_some, getSmbiosString_isSome_iff long,
          and_iff_right here, List.getD_eq_getElem _ _ here]
      · rw [List.getElem?_eq_none (by omega), Option.bind_none]
        exact iff_of_false (by decide) fun inside => here inside.1
  | bytes offset size =>
      have positive := some_bytes offset size rfl
      rw [dumpField, readBytes_isSome_iff, SmbiosField.Inside]
      constructor
      · intro read
        have last := read (offset + size - 1) (List.mem_range'_1.mpr (by omega))
        omega
      · intro inside place member
        have bounds := List.mem_range'_1.mp member
        omega

theorem dumpFields_isSome_iff (fields : List SmbiosField) :
    (dumpFields address buf fields).isSome ↔
      ∀ field ∈ fields, (dumpField address buf field).isSome := by
  induction fields with
  | nil => simp [dumpFields]
  | cons field fields ih =>
      rw [dumpFields, List.forall_mem_cons, ← ih, then_isSome_iff]

/-- The bytes of the structure are dumped when its end is found. -/
theorem dumpSmbiosData_isSome_iff (debug : 4 < debugFlag) :
    (dumpSmbiosData debugFlag buf).isSome ↔
      4 ≤ buf.length ∧
        ∃ text behind, buf.drop (lengthByte buf) = text ++ behind ∧ Terminated.Ends 0 text := by
  rw [dumpSmbiosData, if_pos debug]
  by_cases long : 4 ≤ buf.length
  · have header : (readBytes buf [0, 1, 2, 3]).isSome := by
      rw [readBytes_isSome_iff]
      intro offset member
      simp only [List.mem_cons, List.not_mem_nil, or_false] at member
      omega
    obtain ⟨done, read⟩ := Option.isSome_iff_exists.mp header
    rw [read, Option.bind_some, hdrLength_eq (by omega), Option.bind_some, and_iff_right long]
    cases skipped : skipStringSection (buf.drop (lengthByte buf)) with
    | none =>
        refine iff_of_false (by simp) ?_
        rintro ⟨text, behind, split⟩
        have found := Terminated.pastPair_eq_some_iff.mpr ⟨text, split⟩
        rw [skipStringSection, found] at skipped
        cases skipped
    | some behind =>
        have passed := Terminated.length_pastPair skipped
        obtain ⟨text, split⟩ := Terminated.pastPair_eq_some_iff.mp skipped
        refine iff_of_true ?_ ⟨text, behind, split⟩
        rw [Option.bind_some, readBytes_isSome_iff]
        intro offset member
        have bound := List.mem_range.mp member
        rw [List.length_drop] at bound passed
        have least := Nat.mod_le
          (buf.length - lengthByte buf - (behind.length + 2) + (2 + lengthByte buf)) (2 ^ 8)
        omega
  · refine iff_of_false ?_ fun both => long both.1
    have header : readBytes buf [0, 1, 2, 3] = none := by
      rw [← Option.not_isSome_iff_eq_none, readBytes_isSome_iff]
      intro read
      have last := read 3 (by simp)
      omega
    rw [header, Option.bind_none]
    decide

/-- The fields of a type of structure are printed. -/
theorem dumpFields_typed_isSome_iff (long : 2 ≤ buf.length) (number : UInt8)
    (fields : List SmbiosField)
    (some_bytes : ∀ field ∈ fields, ∀ offset size, field = .bytes offset size → 0 < size) :
    (if type = number then dumpFields address buf fields else some ()).isSome ↔
      (type = number → ∀ field ∈ fields, field.Inside address buf) := by
  by_cases same : type = number
  · rw [if_pos same, imp_iff_right same, dumpFields_isSome_iff]
    exact forall₂_congr fun field member => dumpField_isSome_iff long (some_bytes field member)
  · rw [if_neg same]
    exact iff_of_true rfl fun equal => absurd equal same

theorem dumpFound_isSome_iff :
    (dumpFound debugFlag type address buf).isSome ↔
      (4 < debugFlag → Dumpable type address buf) := by
  rw [dumpFound, then_isSome_iff, then_isSome_iff]
  by_cases debug : 4 < debugFlag
  · rw [dumpSmbiosData_isSome_iff debug, imp_iff_right debug, dumpSmbiosDataType1,
      dumpSmbiosDataType4, if_pos debug, if_pos debug]
    constructor
    · rintro ⟨⟨header, strings⟩, type1, type4⟩
      exact ⟨header, strings,
        (dumpFields_typed_isSome_iff (by omega) 1 type1Fields (by simp [type1Fields])).mp type1,
        (dumpFields_typed_isSome_iff (by omega) 4 type4Fields (by simp [type4Fields])).mp type4⟩
    · rintro ⟨header, strings, type1, type4⟩
      exact ⟨⟨header, strings⟩,
        (dumpFields_typed_isSome_iff (by omega) 1 type1Fields (by simp [type1Fields])).mpr type1,
        (dumpFields_typed_isSome_iff (by omega) 4 type4Fields (by simp [type4Fields])).mpr type4⟩
  · rw [dumpSmbiosData, dumpSmbiosDataType1, dumpSmbiosDataType4, if_neg debug, if_neg debug,
      if_neg debug, ite_self, ite_self]
    exact iff_of_true ⟨rfl, rfl, rfl⟩ fun more => absurd more debug

end Dumps

/-! ## Passing structures -/

section Walk

variable {debugFlag : Int} {type : UInt8} {smbiosEnd address : Nat} {buf : List UInt8}

theorem length_pos (struct : SmbiosStructure) : 2 ≤ struct.bytes.length := by
  have two := struct.strings.two
  rw [List.length_drop] at two
  omega

/-- The header is in the first two bytes. -/
theorem header_append (struct : SmbiosStructure) (rest : List UInt8) :
    (struct.bytes ++ rest)[0]? = some struct.type ∧
      hdrLength (struct.bytes ++ rest) = some (lengthByte struct.bytes) := by
  have two := length_pos struct
  have first : 0 < struct.bytes.length := by omega
  have second : 1 < struct.bytes.length := by omega
  constructor
  · rw [List.getElem?_append_left first, List.getElem?_eq_getElem first, SmbiosStructure.type,
      List.getD_eq_getElem _ _ first]
  · rw [← hdrLength_eq two, hdrLength, hdrLength, List.getElem?_append_left second]

theorem lengthByte_append {bytes : List UInt8} (long : 2 ≤ bytes.length) (rest : List UInt8) :
    lengthByte (bytes ++ rest) = lengthByte bytes := by
  have second : 1 < bytes.length := by omega
  rw [lengthByte, lengthByte, List.getD_append _ _ _ _ second]

/-- A structure of the type searched is found at once. -/
theorem smbiosWalk_found (head : buf.head? = some type) :
    smbiosWalk debugFlag type smbiosEnd address buf =
      (dumpFound debugFlag type address buf).map fun _ => address := by
  rw [List.head?_eq_getElem?] at head
  rw [smbiosWalk, head]
  exact if_pos rfl

/-- The end structure ends the walk. -/
theorem smbiosWalk_last (other : type ≠ 127) (head : buf.head? = some 127) :
    smbiosWalk debugFlag type smbiosEnd address buf = some nullPaddr := by
  rw [List.head?_eq_getElem?] at head
  rw [smbiosWalk, head]
  exact (if_neg (Ne.symm other)).trans (if_pos rfl)

/-- Behind a structure of another type that ends the walk goes on. -/
theorem smbiosWalk_skipped {hdrType : UInt8} {length : Nat} {next : List UInt8}
    (head : buf[0]? = some hdrType) (other : hdrType ≠ type) (further : hdrType ≠ 127)
    (read : hdrLength buf = some length)
    (skipped : skipStringSection (buf.drop length) = some next) :
    smbiosWalk debugFlag type smbiosEnd address buf =
      if (address + (buf.length - next.length)) % 2 ^ 64 ≥ smbiosEnd then some nullPaddr
      else smbiosWalk debugFlag type smbiosEnd
        ((address + (buf.length - next.length)) % 2 ^ 64) next := by
  rw [smbiosWalk, head]
  simp only [read]
  rw [if_neg other, if_neg further]
  split
  · rename_i failed
    rw [skipped] at failed
    cases failed
  · rename_i found
    rw [skipped] at found
    cases found
    rfl

/-- Strings that do not end in the table lead out of it. -/
theorem smbiosWalk_unended {hdrType : UInt8} {length : Nat} (head : buf[0]? = some hdrType)
    (other : hdrType ≠ type) (further : hdrType ≠ 127) (read : hdrLength buf = some length)
    (unended : skipStringSection (buf.drop length) = none) :
    smbiosWalk debugFlag type smbiosEnd address buf = none := by
  rw [smbiosWalk, head]
  simp only [read]
  rw [if_neg other, if_neg further]
  split
  · rfl
  · rename_i found
    rw [unended] at found
    cases found

/-- Another structure is passed. -/
theorem smbiosWalk_next {struct : SmbiosStructure} (other : struct.type ≠ type)
    (further : struct.type ≠ 127) (rest : List UInt8)
    (below : address + (struct.bytes ++ rest).length < 2 ^ 64) :
    smbiosWalk debugFlag type (address + (struct.bytes ++ rest).length) address
        (struct.bytes ++ rest) =
      if rest = [] then some nullPaddr
      else smbiosWalk debugFlag type (address + (struct.bytes ++ rest).length)
        (address + struct.bytes.length) rest := by
  obtain ⟨head, length⟩ := header_append struct rest
  have long := struct.strings.two
  have skipped : skipStringSection ((struct.bytes ++ rest).drop (lengthByte struct.bytes)) =
      some rest := by
    rw [List.length_drop] at long
    rw [List.drop_append_of_le_length (by omega)]
    exact Terminated.pastPair_eq_some_iff.mpr ⟨_, rfl, struct.strings⟩
  have moved : (struct.bytes ++ rest).length - rest.length = struct.bytes.length := by
    rw [List.length_append]
    omega
  have inMemory : address + struct.bytes.length < 2 ^ 64 := by
    rw [List.length_append] at below
    omega
  rw [smbiosWalk_skipped head other further length skipped, moved, Nat.mod_eq_of_lt inMemory]
  cases rest with
  | nil =>
      rw [List.append_nil, if_pos (le_refl _), if_pos rfl]
  | cons byte rest =>
      rw [if_neg (by rw [List.length_append, List.length_cons]; omega),
        if_neg (List.cons_ne_nil _ _)]

/-- A front of structures of other types is passed. -/
theorem smbiosWalk_front {front : List SmbiosStructure} (rest : List UInt8)
    (others : ∀ struct ∈ front, struct.type ≠ type ∧ struct.type ≠ 127)
    (below : address + (laidOut front ++ rest).length < 2 ^ 64) :
    smbiosWalk debugFlag type (address + (laidOut front ++ rest).length) address
        (laidOut front ++ rest) =
      if front ≠ [] ∧ rest = [] then some nullPaddr
      else smbiosWalk debugFlag type (address + (laidOut front ++ rest).length)
        (address + (laidOut front).length) rest := by
  induction front generalizing address with
  | nil =>
      rw [if_neg fun both => both.1 rfl]
      rfl
  | cons struct front ih =>
      obtain ⟨other, further⟩ := others struct List.mem_cons_self
      have split : laidOut (struct :: front) ++ rest =
          struct.bytes ++ (laidOut front ++ rest) := by
        rw [laidOut, List.flatMap_cons, List.append_assoc]
        rfl
      have whole : address + (struct.bytes ++ (laidOut front ++ rest)).length =
          address + struct.bytes.length + (laidOut front ++ rest).length := by
        rw [List.length_append, Nat.add_assoc]
      have place : address + (laidOut (struct :: front)).length =
          address + struct.bytes.length + (laidOut front).length := by
        rw [laidOut, List.flatMap_cons, List.length_append, Nat.add_assoc]
        rfl
      rw [split] at below
      rw [split, smbiosWalk_next other further _ below, place]
      rw [whole] at below ⊢
      by_cases ended : laidOut front ++ rest = []
      · rw [if_pos ended, if_pos ⟨List.cons_ne_nil _ _, (List.append_eq_nil_iff.mp ended).2⟩]
      · have later := ih (fun other member => others other (List.mem_cons_of_mem _ member)) below
        rw [if_neg ended, later]
        by_cases last : rest = []
        · have more : front ≠ [] := by
            rintro rfl
            exact ended last
          rw [if_pos ⟨more, last⟩, if_pos ⟨List.cons_ne_nil _ _, last⟩]
        · rw [if_neg fun both => last both.2, if_neg fun both => last both.2]

/-- A walk that goes on has a structure in front of it. -/
theorem exists_struct {hdrType : UInt8} (head : buf[0]? = some hdrType) (other : hdrType ≠ type)
    (further : hdrType ≠ 127)
    (walked : (smbiosWalk debugFlag type smbiosEnd address buf).isSome) :
    ∃ (struct : SmbiosStructure) (rest : List UInt8),
      buf = struct.bytes ++ rest ∧ struct.type = hdrType := by
  by_cases long : 2 ≤ buf.length
  · cases skipped : skipStringSection (buf.drop (lengthByte buf)) with
    | none =>
        rw [smbiosWalk_unended head other further (hdrLength_eq long) skipped] at walked
        cases walked
    | some rest =>
        obtain ⟨text, split, ends⟩ := Terminated.pastPair_eq_some_iff.mp skipped
        have two := ends.two
        have inside : lengthByte buf ≤ buf.length := by
          have lengths := congrArg List.length split
          rw [List.length_drop, List.length_append] at lengths
          omega
        have whole : buf = (buf.take (lengthByte buf) ++ text) ++ rest := by
          rw [List.append_assoc, ← split, List.take_append_drop]
        have front : (buf.take (lengthByte buf)).length = lengthByte buf :=
          List.length_take_of_le inside
        generalize buf.take (lengthByte buf) = fields at whole front
        have shown : 2 ≤ (fields ++ text).length := by
          rw [List.length_append]
          omega
        have same : lengthByte (fields ++ text) = fields.length := by
          rw [front, whole, lengthByte_append shown]
        refine ⟨⟨fields ++ text, ?_⟩, rest, whole, ?_⟩
        · rw [same, List.drop_left]
          exact ends
        · rw [whole, List.getElem?_append_left (by omega)] at head
          rw [SmbiosStructure.type, List.getD_eq_getElem?_getD, head, Option.getD_some]
  · have failed : hdrLength buf = none := by
      rw [hdrLength, List.getElem?_eq_none (by omega)]
      rfl
    rw [smbiosWalk, head] at walked
    simp only [failed] at walked
    rw [if_neg other, if_neg further] at walked
    cases walked

/-- **The walk stays in the table just when that is complete.** -/
theorem smbiosWalk_isSome_iff (below : address + buf.length < 2 ^ 64) :
    (smbiosWalk debugFlag type (address + buf.length) address buf).isSome ↔
      SmbiosComplete debugFlag type address buf := by
  constructor
  · intro walked
    -- by the bytes left
    induction remaining : buf.length using Nat.strong_induction_on generalizing address buf with
    | _ size ih =>
        cases head : buf[0]? with
        | none =>
            rw [smbiosWalk, head] at walked
            cases walked
        | some hdrType =>
            have start : buf.head? = some hdrType := by rw [List.head?_eq_getElem?, head]
            by_cases same : hdrType = type
            · rw [same] at start
              rw [smbiosWalk_found start, Option.isSome_map, dumpFound_isSome_iff] at walked
              exact ⟨[], buf, rfl, by simp, Or.inr (Or.inr ⟨start, walked⟩)⟩
            · by_cases last : hdrType = 127
              · rw [last] at start same
                exact ⟨[], buf, rfl, by simp, Or.inr (Or.inl ⟨Ne.symm same, start⟩)⟩
              · obtain ⟨struct, rest, rfl, rfl⟩ := exists_struct head same last walked
                have two := length_pos struct
                rw [smbiosWalk_next same last rest below] at walked
                by_cases ended : rest = []
                · refine ⟨[struct], [], ?_, ?_, Or.inl ⟨List.cons_ne_nil _ _, rfl⟩⟩
                  · rw [ended, laidOut, List.flatMap_singleton]
                  · intro other member
                    rw [List.mem_singleton.mp member]
                    exact ⟨same, last⟩
                · rw [if_neg ended] at walked
                  rw [List.length_append] at below remaining walked
                  rw [← Nat.add_assoc] at below walked
                  obtain ⟨front, behind, rfl, others, reached⟩ :=
                    ih rest.length (by omega) below walked rfl
                  refine ⟨struct :: front, behind, ?_, ?_, ?_⟩
                  · rw [laidOut, laidOut, List.flatMap_cons, List.append_assoc]
                  · exact List.forall_mem_cons.mpr ⟨⟨same, last⟩, others⟩
                  · have place : address + (laidOut (struct :: front)).length =
                        address + struct.bytes.length + (laidOut front).length := by
                      rw [laidOut, List.flatMap_cons, List.length_append, Nat.add_assoc]
                      rfl
                    rw [place]
                    rcases reached with ⟨some_front, none⟩ | reached
                    · exact Or.inl ⟨List.cons_ne_nil _ _, none⟩
                    · exact Or.inr reached
  · rintro ⟨front, rest, rfl, others, reached⟩
    rw [smbiosWalk_front rest others below]
    rcases reached with ended | ⟨other, head⟩ | ⟨head, dumpable⟩
    · rw [if_pos ended]
      rfl
    · have more : rest ≠ [] := by
        rintro rfl
        cases head
      rw [if_neg fun both => more both.2, smbiosWalk_last other head]
      rfl
    · have more : rest ≠ [] := by
        rintro rfl
        cases head
      rw [if_neg fun both => more both.2, smbiosWalk_found head, Option.isSome_map,
        dumpFound_isSome_iff]
      exact dumpable

/-- A walk that stays in the table finds the first structure of the type. -/
theorem smbiosWalk_exact (below : address + buf.length < 2 ^ 64)
    (walked : (smbiosWalk debugFlag type (address + buf.length) address buf).isSome) :
    SmbiosExact address buf type
      (smbiosWalk debugFlag type (address + buf.length) address buf) := by
  refine ⟨Option.isSome_iff_ne_none.mp walked, ?_⟩
  rintro front wanted rest rfl others - same
  have some_bytes : wanted.bytes ++ rest ≠ [] := by
    have two := length_pos wanted
    intro none
    rw [(List.append_eq_nil_iff.mp none).1] at two
    cases two
  have head : (wanted.bytes ++ rest).head? = some type := by
    rw [List.head?_eq_getElem?, (header_append wanted rest).1, same]
  rw [smbiosWalk_front _ (fun struct member => (others struct member).2) below,
    if_neg fun both => some_bytes both.2, smbiosWalk_found head] at walked ⊢
  rw [Option.isSome_map] at walked
  obtain ⟨done, dumped⟩ := Option.isSome_iff_exists.mp walked
  rw [dumped]
  rfl

end Walk

/-- **The search stays in the table and finds what is there just when the table is complete.** -/
theorem smbiosExact_iff (debugFlag : Int) {config : SmbiosConfig} (memory : Nat → UInt8)
    (type : UInt8) {address length : Nat}
    (table : boardFindEfiSmbiosTable config = some (address, length))
    (below : address + length < 2 ^ 64) :
    SmbiosExact address (tableBytes memory address length) type
        (boardFindEfiSmbiosByType debugFlag config memory type) ↔
      SmbiosComplete debugFlag type address (tableBytes memory address length) := by
  have size : (tableBytes memory address length).length = length := by
    rw [tableBytes, List.length_map, List.length_range]
  rw [boardFindEfiSmbiosByType, table]
  simp only
  rw [Nat.mod_eq_of_lt below]
  generalize tableBytes memory address length = bytes at size ⊢
  rw [← size] at below ⊢
  rw [← smbiosWalk_isSome_iff below]
  constructor
  · intro exact
    exact Option.isSome_iff_ne_none.mpr exact.inside
  · exact smbiosWalk_exact below

/-- A BIOS structure and a system structure at 0x1000. -/
def twoStructures (address : Nat) : UInt8 :=
  [0, 4, 0, 0, 0, 0, 1, 4, 1, 0, 0, 0].getD (address - 0x1000) 0

/-- A BIOS structure at 0x1000 with the string `"A"` and one zero. -/
def oneZero (address : Nat) : UInt8 := [0, 4, 0, 0, 65, 0].getD (address - 0x1000) 0

theorem smbiosExact_twoStructures :
    SmbiosExact 0x1000 (tableBytes twoStructures 0x1000 12) 1
      (boardFindEfiSmbiosByType 0 ⟨none, some ⟨12, 0x1000⟩⟩ twoStructures 1) :=
  (smbiosExact_iff 0 twoStructures 1 rfl (by decide)).mpr
    ⟨[⟨[0, 4, 0, 0, 0, 0], Terminated.ends_pair⟩], [1, 4, 1, 0, 0, 0], by decide, by decide,
      Or.inr (Or.inr ⟨rfl, fun more => absurd more (by decide)⟩)⟩

theorem one_zero_breaks :
    ¬ SmbiosExact 0x1000 (tableBytes oneZero 0x1000 6) 1
      (boardFindEfiSmbiosByType 0 ⟨none, some ⟨6, 0x1000⟩⟩ oneZero 1) := by
  intro exact
  apply exact.inside
  have bytes : tableBytes oneZero 0x1000 6 = [0, 4, 0, 0, 65, 0] := by decide
  change smbiosWalk 0 1 _ 0x1000 (tableBytes oneZero 0x1000 6) = none
  have read : hdrLength [0, 4, 0, 0, 65, 0] = some 4 := rfl
  rw [bytes]
  exact smbiosWalk_unended rfl (by decide) (by decide) read (by decide)

end Bcm2711.Startup
