import Bcm2711.Lib.CString
import Bcm2711.Startup.Types

/-! # Editing the boot arguments

A `bootargs_entry` is a header of eight bytes, the argument strings, the environment
strings, and whatever else the tools put behind them.  `do_adjust` replaces, deletes or
appends one string of one list: one `memmove` whose source may lie in front of the edited
place, a `memcpy` of the new string, and new counts and sizes in the header.
-/

namespace Bcm2711.Startup

open Bytes CString

/-! ## The functions -/

/-- The addresses of a 64-bit machine. -/
def addressSpace : Nat := 2 ^ 64

/-- An `int8_t` assigned to an `unsigned`. -/
def unsignedOfInt8 (byte : UInt8) : Nat :=
  if byte.toNat < 128 then byte.toNat else byte.toNat + (2 ^ 32 - 256)

/-- An `int` as the 64-bit number that is added to a pointer. -/
def signExtend (word : Nat) : Nat := if word < 2 ^ 31 then word else word + (2 ^ 64 - 2 ^ 32)

/-- `memmove`, whose source addresses may wrap. -/
def memmove (memory : Memory) (dst src count : Nat) : Memory :=
  fun address => if dst ≤ address ∧ address < dst + count then
    memory (addPaddr src (address - dst)) else memory address

/-- The loop over the strings in front of the list. -/
def skipStrings (memory : Memory) : (start p : Nat) → Option Nat
  | 0, p => some p
  | start + 1, p =>
      match strlen memory addressSpace p with
      | none => none
      | some length => skipStrings memory start (p + (length + 1))

/-- The loop over the list: the `sub_len` of the first string equal to `old`, and where the
loop ends. -/
def findString (memory : Memory) (old : Option (List UInt8)) : (num p : Nat) →
    Option (Option Nat × Nat)
  | 0, p => some (none, p)
  | num + 1, p =>
      match strlen memory addressSpace p with
      | none => none
      | some length =>
          let subLen := Word.add 32 length 1
          if old.any fun old => same memory old p then some (some subLen, p)
          else findString memory old num (p + subLen)

/-- The part of `do_operation` that counts the string. -/
def countString (memory : Memory) (old new : Option (List UInt8)) (countp : Nat) : Memory :=
  if new = none then Function.update memory countp (memory countp - 1)
  else if old = none then Function.update memory countp (memory countp + 1)
  else memory

/-- `add_len`. -/
def addLength : Option (List UInt8) → Nat
  | none => 0
  | some new => Word.add 32 new.length 1

/-- The part of `do_operation` that moves the bytes and updates the size. -/
def adjustBytes (memory : Memory) (bap : Nat) (new : Option (List UInt8)) (p subLen : Nat) :
    Memory :=
  let totalLen := (memory bap).toNat + 256 * (memory (bap + 1)).toNat
  let addLen := addLength new
  let diff := Word.sub 32 addLen subLen
  let src := subPaddr p (signExtend diff)
  let memory := memmove memory p src (subPaddr (bap + 8 + subPaddr totalLen 8) src)
  let memory :=
    match new with
    | none => memory
    | some new => write memory p ((terminated new).take addLen)
  let totalLen := Word.add 32 totalLen diff
  let memory := Function.update memory bap (UInt8.ofNat (totalLen % 256))
  Function.update memory (bap + 1) (UInt8.ofNat (totalLen / 256))

/-- `do_adjust`; the first string list is skipped for the second one. -/
def doAdjust (memory : Memory) (bap : Nat) (old new : Option (List UInt8)) (start countp : Nat) :
    Result (Memory × Nat) :=
  match skipStrings memory start (bap + 8) with
  | none => .error .stuck
  | some p =>
      match findString memory old (unsignedOfInt8 (memory countp)) p with
      | none => .error .stuck
      | some (some subLen, p) =>
          .ok (adjustBytes (countString memory old new countp) bap new p subLen, 1)
      | some (none, p) =>
          if old = none then
            .ok (adjustBytes (countString memory old new countp) bap new p 0, 1)
          else .ok (memory, 0)

/-- `bootstrap_arg_adjust`. -/
def bootstrapArgAdjust (memory : Memory) (bap : Nat) (old new : Option (List UInt8)) :
    Result (Memory × Nat) :=
  doAdjust memory bap old new 0 (bap + 2)

/-- `bootstrap_env_adjust`. -/
def bootstrapEnvAdjust (memory : Memory) (bap : Nat) (old new : Option (List UInt8)) :
    Result (Memory × Nat) :=
  doAdjust memory bap old new (unsignedOfInt8 (memory (bap + 2))) (bap + 3)

/-! ## The entry -/

/-- What a `bootargs_entry` holds. -/
structure Bootargs where
  args : List (List UInt8)
  env : List (List UInt8)
  trailing : List UInt8

/-- The bytes behind the header. -/
def Bootargs.bytes (entry : Bootargs) : List UInt8 :=
  packed entry.args ++ (packed entry.env ++ entry.trailing)

/-- The size of the whole entry. -/
def Bootargs.size (entry : Bootargs) : Nat := 8 + entry.bytes.length

/-- An entry stands at an address. -/
structure Bootargs.At (entry : Bootargs) (memory : Memory) (bap : Nat) : Prop where
  size : (memory bap).toNat + 256 * (memory (bap + 1)).toNat = entry.size
  argc : (memory (bap + 2)).toNat = entry.args.length
  envc : (memory (bap + 3)).toNat = entry.env.length
  spells : Spells memory (bap + 8) entry.bytes
  args : ∀ chars ∈ entry.args, Plain chars
  env : ∀ chars ∈ entry.env, Plain chars

/-- The counts are not negative, the size fits its two bytes, and the buffer lies in memory. -/
structure Bootargs.Fits (entry : Bootargs) (bap : Nat) : Prop where
  args : entry.args.length < 128
  env : entry.env.length < 128
  size : entry.size < 2 ^ 16
  buffer : bap + entry.size < 2 ^ 64

/-- Replace the first string equal to `old`. -/
def replaceFirst (old : List UInt8) (new : Option (List UInt8)) :
    List (List UInt8) → Option (List (List UInt8))
  | [] => none
  | first :: rest =>
      if first = old then some (new.toList ++ rest)
      else (replaceFirst old new rest).map (first :: ·)

/-- What becomes of a list: a string is replaced, deleted or appended, or nothing is done. -/
def editStrings (strings : List (List UInt8)) (old new : Option (List UInt8)) :
    Option (List (List UInt8)) :=
  match old with
  | none => some (strings ++ new.toList)
  | some old => replaceFirst old new strings

/-- The call returns 0 and changes nothing, or it returns 1, leaves the edited entry and
touches no other memory. -/
def Adjusts (memory : Memory) (bap : Nat) (edited : Option Bootargs)
    (result : Result (Memory × Nat)) : Prop :=
  match edited with
  | none => result = .ok (memory, 0)
  | some entry => entry.Fits bap → ∃ after, result = .ok (after, 1) ∧ entry.At after bap ∧
      ∀ address, address < bap ∨ bap + 4 ≤ address ∧ address < bap + 8 ∨
        bap + entry.size ≤ address → after address = memory address

/-! ## Moving the bytes -/

section Move

variable {memory : Memory} {bap p : Nat} {new : Option (List UInt8)}
  {before gap behind : List UInt8}

theorem addLength_eq (short : (packed new.toList).length < 2 ^ 16) :
    addLength new = (packed new.toList).length := by
  cases new with
  | none => rfl
  | some chars =>
      have length : (packed (some chars).toList).length = chars.length + 1 := by simp
      rw [length] at short ⊢
      exact Word.add_of_lt (by omega)

/-- The source of the move: it lies `add_len` bytes in front of the end of the gap. -/
theorem source_at {added gapped place : Nat} (small : added < 2 ^ 16) (smallGap : gapped < 2 ^ 16)
    (behindNew : added ≤ place) (inMemory : p + gapped + (place - added) < 2 ^ 64) :
    addPaddr (subPaddr p (signExtend (Word.sub 32 added gapped))) place =
      p + gapped + (place - added) := by
  unfold addPaddr subPaddr signExtend Word.sub Word.add
  split
  · omega
  · omega

/-- The length of the move. -/
theorem count_eq {added gapped rest : Nat} (small : added < 2 ^ 16) (smallGap : gapped < 2 ^ 16)
    (fits : rest + added < 2 ^ 16) :
    subPaddr (p + gapped + rest) (subPaddr p (signExtend (Word.sub 32 added gapped))) =
      rest + added := by
  unfold subPaddr signExtend Word.sub
  split
  · omega
  · omega

/-- Memory after the move. -/
def movedTail (memory : Memory) (p added gapped rest : Nat) : Memory :=
  memmove memory p (subPaddr p (signExtend (Word.sub 32 added gapped))) (rest + added)

/-- The bytes behind the gap come to lie behind the new string. -/
theorem movedTail_at {added gapped rest index : Nat} (small : added < 2 ^ 16)
    (smallGap : gapped < 2 ^ 16) (inMemory : p + gapped + rest < 2 ^ 64) (below : index < rest) :
    movedTail memory p added gapped rest (p + added + index) = memory (p + gapped + index) := by
  have inside : p ≤ p + added + index ∧ p + added + index < p + (rest + added) := by omega
  have moved : p + added + index - p = added + index := by omega
  rw [movedTail, memmove, if_pos inside, moved,
    source_at small smallGap (Nat.le_add_right _ _) (by omega), Nat.add_sub_cancel_left]

theorem movedTail_of_not_mem {added gapped rest address : Nat}
    (outside : address < p ∨ p + added + rest ≤ address) :
    movedTail memory p added gapped rest address = memory address := by
  rw [movedTail, memmove, if_neg (by omega)]

/-- The bytes of the entry with the gap replaced. -/
theorem spells_splice {after : Memory}
    (spells : Spells memory p (before ++ (gap ++ behind)))
    (front : ∀ place, place < before.length → after (p + place) = memory (p + place))
    (stored : Spells after (p + before.length) (packed new.toList))
    (tail : ∀ place, place < behind.length →
      after (p + before.length + (packed new.toList).length + place) =
        memory (p + before.length + gap.length + place)) :
    Spells after p (before ++ (packed new.toList ++ behind)) := by
  rw [spells_append, spells_append] at spells ⊢
  exact ⟨spells.1.congr front, stored, spells.2.2.congr tail⟩

/-- The new string behind the moved bytes. -/
def stored (memory : Memory) (p : Nat) (new : Option (List UInt8)) : Memory :=
  match new with
  | none => memory
  | some chars => write memory p ((terminated chars).take (addLength new))

theorem stored_eq (short : (packed new.toList).length < 2 ^ 16) (memory : Memory) (p : Nat) :
    stored memory p new = write memory p (packed new.toList) := by
  cases new with
  | none =>
      funext address
      exact (write_of_not_mem (by simp; omega)).symm
  | some chars =>
      have same : packed (some chars).toList = terminated chars := by simp
      rw [stored, addLength_eq short, same, List.take_length]

/-- What `do_operation` leaves behind the header. -/
theorem adjustBytes_spec
    (size : (memory bap).toNat + 256 * (memory (bap + 1)).toNat =
      8 + (before ++ (gap ++ behind)).length)
    (spells : Spells memory (bap + 8) (before ++ (gap ++ behind)))
    (fits : 8 + (before ++ (packed new.toList ++ behind)).length < 2 ^ 16)
    (buffer : bap + (8 + (before ++ (gap ++ behind)).length) < 2 ^ 64)
    (place : p = bap + 8 + before.length) :
    ((adjustBytes memory bap new p gap.length) bap).toNat +
        256 * ((adjustBytes memory bap new p gap.length) (bap + 1)).toNat =
      8 + (before ++ (packed new.toList ++ behind)).length ∧
    Spells (adjustBytes memory bap new p gap.length) (bap + 8)
      (before ++ (packed new.toList ++ behind)) ∧
    ∀ address, address < bap ∨ bap + 2 ≤ address ∧ address < bap + 8 ∨
      bap + (8 + (before ++ (packed new.toList ++ behind)).length) ≤ address →
      adjustBytes memory bap new p gap.length address = memory address := by
  have low := (memory bap).toNat_lt
  have high := (memory (bap + 1)).toNat_lt
  simp only [List.length_append] at size fits buffer ⊢
  have added := @addLength_eq new (by omega)
  have oldEnd : bap + 8 + subPaddr (8 + (before.length + (gap.length + behind.length))) 8 =
      p + gap.length + behind.length := by
    rw [subPaddr_of_le (by omega) (by omega), place]
    omega
  have newSize : Word.add 32 (8 + (before.length + (gap.length + behind.length)))
      (Word.sub 32 (packed new.toList).length gap.length) =
      8 + (before.length + ((packed new.toList).length + behind.length)) := by
    unfold Word.add Word.sub
    omega
  have count := @count_eq p (packed new.toList).length gap.length behind.length (by omega)
    (by omega) (by omega)
  have isAdjusted : adjustBytes memory bap new p gap.length =
      Function.update (Function.update
        (write (movedTail memory p (packed new.toList).length gap.length behind.length) p
          (packed new.toList)) bap (UInt8.ofNat
            ((8 + (before.length + ((packed new.toList).length + behind.length))) % 256)))
        (bap + 1) (UInt8.ofNat
          ((8 + (before.length + ((packed new.toList).length + behind.length))) / 256)) := by
    unfold adjustBytes movedTail
    dsimp only
    rw [size, added, oldEnd, count, newSize]
    refine congrArg (fun bytes => Function.update (Function.update bytes bap _) (bap + 1) _) ?_
    rw [← stored_eq (by omega)]
    unfold stored
    rw [added]
  have rest : ∀ address, address ≠ bap → address ≠ bap + 1 →
      adjustBytes memory bap new p gap.length address =
        write (movedTail memory p (packed new.toList).length gap.length behind.length) p
          (packed new.toList) address := by
    intro address notLow notHigh
    rw [isAdjusted, Function.update_of_ne notHigh, Function.update_of_ne notLow]
  refine ⟨?_, ?_, ?_⟩
  · rw [isAdjusted, Function.update_self, Function.update_of_ne (by omega), Function.update_self,
      UInt8.toNat_ofNat', UInt8.toNat_ofNat']
    omega
  · refine spells_splice spells ?_ ?_ ?_
    · intro index below
      rw [rest _ (by omega) (by omega), write_of_not_mem (by omega),
        movedTail_of_not_mem (by omega)]
    · have written := spells_write
        (movedTail memory p (packed new.toList).length gap.length behind.length) p
        (packed new.toList)
      rw [← place]
      exact written.congr fun index below => rest _ (by omega) (by omega)
    · intro index below
      rw [← place, rest _ (by omega) (by omega), write_of_not_mem (by omega)]
      exact movedTail_at (by omega) (by omega) (by omega) below
  · intro address beside
    rw [rest _ (by omega) (by omega), write_of_not_mem (by omega),
      movedTail_of_not_mem (by omega)]

end Move

/-! ## Finding the string -/

section Find

variable {memory : Memory} {p : Nat} {strings : List (List UInt8)} {old : List UInt8}

theorem strlen_first {first : List UInt8} {rest : List UInt8}
    (spells : Spells memory p (terminated first ++ rest)) (plain : Plain first)
    (short : first.length < 2 ^ 16) : strlen memory addressSpace p = some first.length := by
  refine strlen_eq (spells_append.mp spells).1 plain ?_
  unfold addressSpace
  omega

/-- The first loop passes the strings of the other list. -/
theorem skipStrings_eq (spells : Spells memory p (packed strings))
    (plain : ∀ chars ∈ strings, Plain chars) (short : (packed strings).length < 2 ^ 16) :
    skipStrings memory strings.length p = some (p + (packed strings).length) := by
  induction strings generalizing p with
  | nil => rfl
  | cons first rest ih =>
      rw [packed_cons] at spells short
      rw [List.length_append, length_terminated] at short
      have length := strlen_first spells (plain first List.mem_cons_self) (by omega)
      have behind := (spells_append.mp spells).2
      rw [length_terminated] at behind
      rw [List.length_cons, skipStrings, length]
      dsimp only
      rw [ih behind (fun chars member => plain chars (List.mem_cons_of_mem _ member)) (by omega),
        packed_cons, List.length_append, length_terminated, Nat.add_assoc]

/-- Where nothing is looked for, or nothing is found, the second loop passes its list. -/
theorem findString_none {old : Option (List UInt8)} (spells : Spells memory p (packed strings))
    (plain : ∀ chars ∈ strings, Plain chars) (short : (packed strings).length < 2 ^ 16)
    (plainOld : ∀ chars ∈ old, Plain chars) (absent : ∀ chars ∈ old, chars ∉ strings) :
    findString memory old strings.length p = some (none, p + (packed strings).length) := by
  induction strings generalizing p with
  | nil => rfl
  | cons first rest ih =>
      rw [packed_cons] at spells short
      rw [List.length_append, length_terminated] at short
      have firstPlain := plain first List.mem_cons_self
      have length := strlen_first spells firstPlain (by omega)
      have subLen : Word.add 32 first.length 1 = first.length + 1 := Word.add_of_lt (by omega)
      have here := spells_append.mp spells
      rw [length_terminated] at here
      have differs : ¬ (old.any fun old => same memory old p) = true := by
        intro found
        obtain ⟨chars, isOld, isSame⟩ := (Option.any_eq_true _ _).mp found
        refine absent chars isOld ?_
        rw [(same_iff here.1 (plainOld chars isOld) firstPlain).mp isSame]
        exact List.mem_cons_self
      rw [List.length_cons, findString, length]
      dsimp only
      rw [if_neg differs, subLen,
        ih here.2 (fun chars member => plain chars (List.mem_cons_of_mem _ member)) (by omega)
          (fun chars isOld member => absent chars isOld (List.mem_cons_of_mem _ member)),
        packed_cons, List.length_append, length_terminated, Nat.add_assoc]

/-- The second loop stops at the first string that is equal. -/
theorem findString_some {before behind : List (List UInt8)}
    (spells : Spells memory p (packed (before ++ old :: behind)))
    (plain : ∀ chars ∈ before ++ old :: behind, Plain chars)
    (short : (packed (before ++ old :: behind)).length < 2 ^ 16) (first : old ∉ before) :
    findString memory (some old) (before ++ old :: behind).length p =
      some (some (old.length + 1), p + (packed before).length) := by
  have plainOld := plain old (List.mem_append_right _ List.mem_cons_self)
  induction before generalizing p with
  | nil =>
      rw [List.nil_append, packed_cons] at spells short
      rw [List.length_append, length_terminated] at short
      have length := strlen_first spells plainOld (by omega)
      have isSame := (same_iff (spells_append.mp spells).1 plainOld plainOld).mpr rfl
      have subLen : Word.add 32 old.length 1 = old.length + 1 := Word.add_of_lt (by omega)
      rw [List.nil_append, List.length_cons, findString, length]
      dsimp only
      rw [Option.any_some, isSame, if_pos rfl, subLen]
      rfl
  | cons other rest ih =>
      rw [List.cons_append, packed_cons] at spells short
      rw [List.length_append, length_terminated] at short
      rw [List.mem_cons, not_or] at first
      have otherPlain := plain other List.mem_cons_self
      have length := strlen_first spells otherPlain (by omega)
      have subLen : Word.add 32 other.length 1 = other.length + 1 := Word.add_of_lt (by omega)
      have here := spells_append.mp spells
      rw [length_terminated] at here
      have differs : ¬ same memory old p = true := fun isSame =>
        first.1 ((same_iff here.1 plainOld otherPlain).mp isSame)
      rw [List.cons_append, List.length_cons, findString, length]
      dsimp only
      rw [Option.any_some, if_neg differs, subLen,
        ih here.2 (fun chars member => plain chars (List.mem_cons_of_mem _ member)) (by omega)
          first.2, packed_cons, List.length_append, length_terminated, Nat.add_assoc]

/-- A list that holds a string is split at its first place. -/
theorem replaceFirst_eq {new : Option (List UInt8)} {before behind : List (List UInt8)}
    (first : old ∉ before) :
    replaceFirst old new (before ++ old :: behind) = some (before ++ (new.toList ++ behind)) := by
  induction before with
  | nil => rw [List.nil_append, replaceFirst, if_pos rfl, List.nil_append]
  | cons other rest ih =>
      rw [List.mem_cons, not_or] at first
      rw [List.cons_append, replaceFirst, if_neg (Ne.symm first.1), ih first.2]
      rfl

theorem replaceFirst_none {new : Option (List UInt8)} (absent : old ∉ strings) :
    replaceFirst old new strings = none := by
  induction strings with
  | nil => rfl
  | cons other rest ih =>
      rw [List.mem_cons, not_or] at absent
      rw [replaceFirst, if_neg (Ne.symm absent.1), ih absent.2]
      rfl

/-- The first place of a string. -/
theorem split_first (member : old ∈ strings) :
    ∃ before behind, strings = before ++ old :: behind ∧ old ∉ before := by
  induction strings with
  | nil => exact absurd member List.not_mem_nil
  | cons other rest ih =>
      by_cases here : other = old
      · exact ⟨[], rest, by rw [here, List.nil_append], List.not_mem_nil⟩
      · have later : old ∈ rest := by
          rcases List.mem_cons.mp member with isFirst | later
          · exact absurd isFirst.symm here
          · exact later
        obtain ⟨before, behind, same, first⟩ := ih later
        refine ⟨other :: before, behind, by rw [same, List.cons_append], ?_⟩
        rw [List.mem_cons, not_or]
        exact ⟨Ne.symm here, first⟩

end Find

/-! ## One call -/

section Adjust

variable {memory : Memory} {bap countp : Nat} {old new : Option (List UInt8)}
  {skipped strings before gap behind : List (List UInt8)} {back : List UInt8}

theorem countString_of_ne {address : Nat} (elsewhere : address ≠ countp) :
    countString memory old new countp address = memory address := by
  unfold countString
  split
  · exact Function.update_of_ne elsewhere _ _
  · split
    · exact Function.update_of_ne elsewhere _ _
    · rfl

/-- The count follows the list. -/
theorem countString_count
    (kind : old = none ∧ new ≠ none ∧ gap = [] ∨ old ≠ none ∧ gap.length = 1)
    (count : (memory countp).toNat = (before ++ (gap ++ behind)).length)
    (fits : (before ++ (new.toList ++ behind)).length < 128) :
    (countString memory old new countp countp).toNat =
      (before ++ (new.toList ++ behind)).length := by
  simp only [List.length_append] at count fits ⊢
  unfold countString
  rcases kind with ⟨isNone, isSome, isEmpty⟩ | ⟨isSome, one⟩
  · obtain ⟨chars, rfl⟩ := Option.ne_none_iff_exists'.mp isSome
    have single : (some chars).toList.length = 1 := rfl
    have noGap : gap.length = 0 := by rw [isEmpty]; rfl
    rw [if_neg isSome, if_pos isNone, Function.update_self, UInt8.toNat_add]
    have one : UInt8.toNat 1 = 1 := rfl
    omega
  · cases new with
    | none =>
        have nothing : (none : Option (List UInt8)).toList.length = 0 := rfl
        have atLeast : (1 : UInt8) ≤ memory countp := by
          rw [UInt8.le_iff_toNat_le]
          have oneNat : UInt8.toNat 1 = 1 := rfl
          omega
        rw [if_pos rfl, Function.update_self, UInt8.toNat_sub_of_le _ _ atLeast]
        have oneNat : UInt8.toNat 1 = 1 := rfl
        omega
    | some chars =>
        have single : (some chars).toList.length = 1 := rfl
        have isNew : some chars ≠ none := Option.some_ne_none chars
        rw [if_neg isNew, if_neg isSome]
        omega

/-- What a call that edits the list leaves. -/
structure Edited (memory after : Memory) (bap countp count : Nat) (bytes : List UInt8) : Prop where
  size : (after bap).toNat + 256 * (after (bap + 1)).toNat = 8 + bytes.length
  count : (after countp).toNat = count
  spells : Spells after (bap + 8) bytes
  untouched : ∀ address, address ≠ countp →
    address < bap ∨ bap + 2 ≤ address ∧ address < bap + 8 ∨ bap + (8 + bytes.length) ≤ address →
    after address = memory address

/-- A count is the only other byte of the header that changes. -/
theorem Edited.outside {after : Memory} {count address : Nat} {bytes : List UInt8}
    (edited : Edited memory after bap countp count bytes)
    (header : bap + 2 ≤ countp ∧ countp < bap + 4)
    (elsewhere : address < bap ∨ bap + 4 ≤ address ∧ address < bap + 8 ∨
      bap + (8 + bytes.length) ≤ address) : after address = memory address := by
  refine edited.untouched address (by omega) ?_
  rcases elsewhere with below | field | above
  · exact Or.inl below
  · exact Or.inr (Or.inl (by omega))
  · exact Or.inr (Or.inr above)

/-- `do_operation` replaces a gap in the list. -/
theorem operation_spec
    (kind : old = none ∧ new ≠ none ∧ gap = [] ∨ old ≠ none ∧ gap.length = 1)
    (header : bap + 2 ≤ countp ∧ countp < bap + 8)
    (size : (memory bap).toNat + 256 * (memory (bap + 1)).toNat =
      8 + (packed skipped ++ (packed (before ++ (gap ++ behind)) ++ back)).length)
    (spells : Spells memory (bap + 8)
      (packed skipped ++ (packed (before ++ (gap ++ behind)) ++ back)))
    (count : (memory countp).toNat = (before ++ (gap ++ behind)).length)
    (few : (before ++ (new.toList ++ behind)).length < 128)
    (fits : 8 + (packed skipped ++
      (packed (before ++ (new.toList ++ behind)) ++ back)).length < 2 ^ 16)
    (buffer : bap + (8 + (packed skipped ++
      (packed (before ++ (gap ++ behind)) ++ back)).length) < 2 ^ 64) :
    Edited memory (adjustBytes (countString memory old new countp) bap new
      (bap + 8 + (packed skipped).length + (packed before).length) (packed gap).length) bap countp
      (before ++ (new.toList ++ behind)).length
      (packed skipped ++ (packed (before ++ (new.toList ++ behind)) ++ back)) := by
  have oldBytes : packed skipped ++ (packed (before ++ (gap ++ behind)) ++ back) =
      (packed skipped ++ packed before) ++ (packed gap ++ (packed behind ++ back)) := by
    simp only [packed_append, List.append_assoc]
  have newBytes : packed skipped ++ (packed (before ++ (new.toList ++ behind)) ++ back) =
      (packed skipped ++ packed before) ++ (packed new.toList ++ (packed behind ++ back)) := by
    simp only [packed_append, List.append_assoc]
  rw [oldBytes] at size spells buffer
  rw [newBytes] at fits ⊢
  have place : bap + 8 + (packed skipped).length + (packed before).length =
      bap + 8 + (packed skipped ++ packed before).length := by
    rw [List.length_append, Nat.add_assoc (bap + 8)]
  have sizeCounted : (countString memory old new countp bap).toNat +
      256 * (countString memory old new countp (bap + 1)).toNat =
      8 + ((packed skipped ++ packed before) ++
        (packed gap ++ (packed behind ++ back))).length := by
    rw [countString_of_ne (by omega), countString_of_ne (by omega)]
    exact size
  have spellsCounted : Spells (countString memory old new countp) (bap + 8)
      ((packed skipped ++ packed before) ++ (packed gap ++ (packed behind ++ back))) :=
    spells.congr fun index _ => countString_of_ne (by omega)
  obtain ⟨newSize, newSpells, kept⟩ :=
    adjustBytes_spec sizeCounted spellsCounted fits buffer place
  refine ⟨newSize, ?_, newSpells, fun address elsewhere outside => ?_⟩
  · rw [kept countp (Or.inr (Or.inl header))]
    exact countString_count kind count few
  · rw [kept address outside, countString_of_ne elsewhere]

/-- `do_adjust` edits its list, or finds nothing to edit. -/
theorem doAdjust_spec (header : bap + 2 ≤ countp ∧ countp < bap + 8)
    (size : (memory bap).toNat + 256 * (memory (bap + 1)).toNat =
      8 + (packed skipped ++ (packed strings ++ back)).length)
    (spells : Spells memory (bap + 8) (packed skipped ++ (packed strings ++ back)))
    (plainSkipped : ∀ chars ∈ skipped, Plain chars) (plain : ∀ chars ∈ strings, Plain chars)
    (plainOld : ∀ chars ∈ old, Plain chars)
    (count : (memory countp).toNat = strings.length) (few : strings.length < 128)
    (buffer : bap + (8 + (packed skipped ++ (packed strings ++ back)).length) < 2 ^ 64)
    (given : old ≠ none ∨ new ≠ none) :
    (editStrings strings old new = none →
      doAdjust memory bap old new skipped.length countp = .ok (memory, 0)) ∧
    ∀ edited, editStrings strings old new = some edited → edited.length < 128 →
      8 + (packed skipped ++ (packed edited ++ back)).length < 2 ^ 16 →
      ∃ after, doAdjust memory bap old new skipped.length countp = .ok (after, 1) ∧
        Edited memory after bap countp edited.length
          (packed skipped ++ (packed edited ++ back)) := by
  have low := (memory bap).toNat_lt
  have high := (memory (bap + 1)).toNat_lt
  have parts := spells_append.mp spells
  have bounds := size
  rw [List.length_append, List.length_append] at bounds
  have skip : skipStrings memory skipped.length (bap + 8) =
      some (bap + 8 + (packed skipped).length) :=
    skipStrings_eq parts.1 plainSkipped (by omega)
  have num : unsignedOfInt8 (memory countp) = strings.length := by
    rw [unsignedOfInt8, if_pos (by omega), count]
  have inList := (spells_append.mp parts.2).1
  unfold doAdjust
  rw [skip]
  dsimp only
  rw [num]
  cases old with
  | none =>
      have isNew : new ≠ none := given.resolve_left fun differs => differs rfl
      have stop := @findString_none memory _ strings none inList plain (by omega) plainOld
        (fun chars isOld => by cases isOld)
      rw [stop]
      refine ⟨fun isNone => (by cases isNone), fun edited isEdited fewEdited fits => ?_⟩
      cases Option.some.inj isEdited
      dsimp only
      rw [if_pos rfl]
      have whole : strings ++ new.toList = strings ++ (new.toList ++ []) := by
        rw [List.append_nil]
      have same : strings = strings ++ ([] ++ []) := by
        rw [List.append_nil, List.append_nil]
      rw [whole] at fewEdited fits ⊢
      refine ⟨_, rfl, ?_⟩
      rw [same] at size spells count buffer
      exact @operation_spec memory bap countp none new skipped strings [] [] back
        (Or.inl ⟨rfl, isNew, rfl⟩) header size spells count fewEdited fits buffer
  | some chars =>
      have isSome : some chars ≠ none := Option.some_ne_none chars
      by_cases member : chars ∈ strings
      · obtain ⟨before, behind, same, first⟩ := split_first member
        rw [same] at inList plain count buffer size spells bounds ⊢
        have found := findString_some inList plain (by omega) first
        have isEdit : editStrings (before ++ chars :: behind) (some chars) new =
            some (before ++ (new.toList ++ behind)) := replaceFirst_eq first
        rw [found, isEdit]
        refine ⟨fun isNone => (by cases isNone), fun edited isEdited fewEdited fits => ?_⟩
        cases Option.some.inj isEdited
        refine ⟨_, rfl, ?_⟩
        have gapBytes : chars.length + 1 = (packed [chars]).length := by simp
        rw [gapBytes]
        exact @operation_spec memory bap countp (some chars) new skipped before [chars] behind back
          (Or.inr ⟨isSome, rfl⟩) header size spells count fewEdited fits buffer
      · have stop := @findString_none memory _ strings (some chars) inList plain (by omega) plainOld
          (fun other isOld => by cases isOld; exact member)
        have isEdit : editStrings strings (some chars) new = none := replaceFirst_none member
        rw [stop, isEdit]
        refine ⟨fun _ => ?_, fun edited isEdited => (by cases isEdited)⟩
        dsimp only
        rw [if_neg isSome]

end Adjust

/-- Only strings of the list and the new one are in an edited list. -/
theorem mem_editStrings {strings edited : List (List UInt8)} {old new : Option (List UInt8)}
    (isEdited : editStrings strings old new = some edited) {chars : List UInt8}
    (member : chars ∈ edited) : chars ∈ strings ∨ chars ∈ new := by
  cases old with
  | none =>
      cases Option.some.inj isEdited
      rcases List.mem_append.mp member with old | isNew
      · exact Or.inl old
      · exact Or.inr (Option.mem_toList.mp isNew)
  | some gone =>
      by_cases there : gone ∈ strings
      · obtain ⟨before, behind, same, first⟩ := split_first there
        have edit : editStrings strings (some gone) new =
            some (before ++ (new.toList ++ behind)) := by
          rw [same]
          exact replaceFirst_eq first
        rw [edit] at isEdited
        cases Option.some.inj isEdited
        rw [same]
        rcases List.mem_append.mp member with early | late
        · exact Or.inl (List.mem_append_left _ early)
        · rcases List.mem_append.mp late with isNew | behindIt
          · exact Or.inr (Option.mem_toList.mp isNew)
          · exact Or.inl (List.mem_append_right _ (List.mem_cons_of_mem _ behindIt))
      · have edit : editStrings strings (some gone) new = none := replaceFirst_none there
        rw [edit] at isEdited
        cases isEdited

/-- Both calls edit their own list of strings and nothing else of the entry. -/
theorem bootstrapAdjust_edits {memory : Memory} {bap : Nat} {entry : Bootargs}
    {old new : Option (List UInt8)} (stands : entry.At memory bap) (fits : entry.Fits bap)
    (plainOld : ∀ chars ∈ old, Plain chars) (plainNew : ∀ chars ∈ new, Plain chars)
    (given : old ≠ none ∨ new ≠ none) :
    Adjusts memory bap
      ((editStrings entry.args old new).map fun args => { entry with args := args })
      (bootstrapArgAdjust memory bap old new) ∧
    Adjusts memory bap
      ((editStrings entry.env old new).map fun env => { entry with env := env })
      (bootstrapEnvAdjust memory bap old new) := by
  have buffer := fits.buffer
  constructor
  · obtain ⟨nothing, something⟩ := @doAdjust_spec memory bap (bap + 2) old new [] entry.args
      (packed entry.env ++ entry.trailing) (by omega) stands.size stands.spells
      (fun chars member => absurd member List.not_mem_nil) stands.args plainOld stands.argc
      fits.args buffer given
    cases isEdited : editStrings entry.args old new with
    | none => exact nothing isEdited
    | some args =>
        intro newFits
        obtain ⟨after, ran, edited⟩ := something args isEdited newFits.args newFits.size
        have envc : after (bap + 3) = memory (bap + 3) :=
          edited.untouched _ (by omega) (by omega)
        refine ⟨after, ran, ⟨edited.size, edited.count, ?_, edited.spells, ?_, stands.env⟩, ?_⟩
        · rw [envc]
          exact stands.envc
        · intro chars member
          rcases mem_editStrings isEdited member with isOld | isNew
          · exact stands.args chars isOld
          · exact plainNew chars isNew
        · intro address outside
          exact edited.outside (by omega) outside
  · have start : unsignedOfInt8 (memory (bap + 2)) = entry.args.length := by
      have few := fits.args
      rw [unsignedOfInt8, stands.argc, if_pos few]
    rw [bootstrapEnvAdjust, start]
    obtain ⟨nothing, something⟩ := @doAdjust_spec memory bap (bap + 3) old new entry.args entry.env
      entry.trailing (by omega) stands.size stands.spells stands.args stands.env plainOld
      stands.envc fits.env buffer given
    cases isEdited : editStrings entry.env old new with
    | none => exact nothing isEdited
    | some env =>
        intro newFits
        obtain ⟨after, ran, edited⟩ := something env isEdited newFits.env newFits.size
        have argc : after (bap + 2) = memory (bap + 2) :=
          edited.untouched _ (by omega) (by omega)
        refine ⟨after, ran, ⟨edited.size, ?_, edited.count, edited.spells, stands.args, ?_⟩, ?_⟩
        · rw [argc]
          exact stands.argc
        · intro chars member
          rcases mem_editStrings isEdited member with isOld | isNew
          · exact stands.env chars isOld
          · exact plainNew chars isNew
        · intro address outside
          exact edited.outside (by omega) outside

/-- One argument, one environment string and a byte behind them. -/
def smallEntry : Bootargs := ⟨[[97]], [[98]], [7]⟩

/-- The entry at address 4096. -/
def smallBuffer : Memory := fun address =>
  [13, 0, 1, 1, 0, 0, 0, 0, 97, 0, 98, 0, 7].getD (address - 4096) 0

theorem smallEntry_at : smallEntry.At smallBuffer 4096 :=
  ⟨by decide, by decide, by decide, ⟨rfl, rfl, rfl, rfl, rfl, trivial⟩, by decide, by decide⟩

theorem smallEntry_edited :
    ∃ after, bootstrapArgAdjust smallBuffer 4096 (some [97]) (some [120, 121]) = .ok (after, 1) ∧
      Bootargs.At ⟨[[120, 121]], [[98]], [7]⟩ after 4096 := by
  have fits : smallEntry.Fits 4096 := ⟨by decide, by decide, by decide, by decide⟩
  have edits := (@bootstrapAdjust_edits smallBuffer 4096 smallEntry (some [97])
    (some [120, 121]) smallEntry_at fits (by decide) (by decide) (Or.inl (by decide))).1
  obtain ⟨after, ran, stands, _⟩ := edits ⟨by decide, by decide, by decide, by decide⟩
  exact ⟨after, ran, stands⟩

end Bcm2711.Startup
