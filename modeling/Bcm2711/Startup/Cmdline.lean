import Bcm2711.Lib.Fields
import Bcm2711.Startup.Bootargs

/-! # Arguments from a command line

`find_next_arg` finds the next argument of a command line, and may cut it off where it ends.
The functions that tweak argument blocks keep a pointer into the line that they are cutting,
and add each argument they find to a block.  What stands from the pointer on decides what they
find (`findNextArg_cut` and `findNextArg_keep`), and the block only gets arguments appended
(`appendArgs_at`).
-/

namespace Bcm2711.Startup

open Bytes CString Fields

/-! ## The functions -/

/-- The byte of `' '`. -/
def spaceByte : UInt8 := 32

/-- The byte of `'-'`. -/
def dashByte : UInt8 := 45

/-- The first loop of `find_next_arg`. -/
def skipSpaces (memory : Memory) : (fuel str : Nat) → Option Nat
  | 0, _ => none
  | fuel + 1, str => if memory str = spaceByte then skipSpaces memory fuel (str + 1) else some str

/-- The second loop of `find_next_arg`. -/
def scanArg (memory : Memory) : (fuel next : Nat) → Option Nat
  | 0, _ => none
  | fuel + 1, next =>
      if memory next ≠ spaceByte ∧ memory next ≠ 0 then scanArg memory fuel (next + 1)
      else some next

/-- `find_next_arg`: memory, the address stored through `end`, and the address returned. -/
def findNextArg (memory : Memory) (str : Nat) (terminate : Bool) : Option (Memory × Nat × Nat) :=
  do
    let str ← skipSpaces memory addressSpace str
    if memory str = 0 then return (memory, str, str)
    let next ← scanArg memory addressSpace str
    if memory next ≠ 0 then
      let memory := if terminate then Function.update memory next 0 else memory
      return (memory, next + 1, str)
    else return (memory, next, str)

/-- Arguments are added to a block one after the other. -/
def appendArgs (bap : Nat) : Memory → List (List UInt8) → Result Memory
  | block, [] => .ok block
  | block, arg :: args => do
      let (block, _) ← bootstrapArgAdjust block bap none (some arg)
      appendArgs bap block args

/-! ## What is found in a line -/

section Line

variable {memory : Memory} {str fuel : Nat} {text : List UInt8}

theorem skipSpaces_eq (spells : Spells memory str (terminated text)) (enough : text.length < fuel) :
    skipSpaces memory fuel str = some (str + (text.takeWhile (· = spaceByte)).length) := by
  induction text generalizing fuel str with
  | nil =>
      obtain ⟨fuel, rfl⟩ := Nat.exists_eq_succ_of_ne_zero (Nat.ne_zero_of_lt enough)
      rw [skipSpaces, spells.1]
      rfl
  | cons char text ih =>
      obtain ⟨fuel, rfl⟩ := Nat.exists_eq_succ_of_ne_zero (Nat.ne_zero_of_lt enough)
      rw [skipSpaces, spells.1]
      by_cases isSpace : char = spaceByte
      · rw [if_pos isSpace, ih spells.2 (Nat.lt_of_succ_lt_succ enough),
          List.takeWhile_cons_of_pos (by simpa using isSpace), List.length_cons]
        exact congrArg some (by omega)
      · rw [if_neg isSpace, List.takeWhile_cons_of_neg (by simpa using isSpace)]
        rfl

theorem scanArg_eq (spells : Spells memory str (terminated text)) (plain : Plain text)
    (enough : text.length < fuel) :
    scanArg memory fuel str = some (str + (text.takeWhile (· ≠ spaceByte)).length) := by
  induction text generalizing fuel str with
  | nil =>
      obtain ⟨fuel, rfl⟩ := Nat.exists_eq_succ_of_ne_zero (Nat.ne_zero_of_lt enough)
      rw [scanArg, spells.1]
      rfl
  | cons char text ih =>
      obtain ⟨fuel, rfl⟩ := Nat.exists_eq_succ_of_ne_zero (Nat.ne_zero_of_lt enough)
      have notZero : char ≠ 0 := fun isZero => plain (isZero ▸ List.mem_cons_self)
      have restPlain : Plain text := fun member => plain (List.mem_cons_of_mem _ member)
      rw [scanArg, spells.1]
      by_cases isSpace : char = spaceByte
      · rw [if_neg (fun both => both.1 isSpace),
          List.takeWhile_cons_of_neg (by simpa using isSpace)]
        rfl
      · rw [if_pos ⟨isSpace, notZero⟩, ih spells.2 restPlain (Nat.lt_of_succ_lt_succ enough),
          List.takeWhile_cons_of_pos (by simpa using isSpace), List.length_cons]
        exact congrArg some (by omega)

/-- The rest of a string stands behind its front. -/
theorem spells_behind {front back : List UInt8}
    (spells : Spells memory str (terminated (front ++ back))) :
    Spells memory (str + front.length) (terminated back) := by
  rw [terminated, List.append_assoc] at spells
  exact (spells_append.mp spells).2

/-- What stands at the three places that `find_next_arg` sees. -/
theorem spells_parts (spells : Spells memory str (terminated text)) :
    Spells memory (str + (text.takeWhile (· = spaceByte)).length)
      (terminated (text.dropWhile (· = spaceByte))) ∧
    Spells memory (str + (text.takeWhile (· = spaceByte)).length +
      (first spaceByte text).length)
      (terminated ((text.dropWhile (· = spaceByte)).dropWhile (· ≠ spaceByte))) := by
  have whole : text.takeWhile (· = spaceByte) ++ text.dropWhile (· = spaceByte) = text :=
    List.takeWhile_append_dropWhile
  have parts : first spaceByte text ++
      (text.dropWhile (· = spaceByte)).dropWhile (· ≠ spaceByte) =
      text.dropWhile (· = spaceByte) := List.takeWhile_append_dropWhile
  have start : Spells memory (str + (text.takeWhile (· = spaceByte)).length)
      (terminated (text.dropWhile (· = spaceByte))) := spells_behind (whole.symm ▸ spells)
  refine ⟨start, ?_⟩
  rw [← parts] at start
  exact spells_behind start

/-- `find_next_arg` goes to the first field, and behind the separator that ends it. -/
theorem findNextArg_eq (spells : Spells memory str (terminated text)) (plain : Plain text)
    (short : text.length < addressSpace) (terminate : Bool) :
    findNextArg memory str terminate =
      some (
        let start := str + (text.takeWhile (· = spaceByte)).length
        let next := start + (first spaceByte text).length
        if (text.dropWhile (· = spaceByte)).dropWhile (· ≠ spaceByte) = [] then
          (memory, next, start)
        else (if terminate then Function.update memory next 0 else memory, next + 1, start)) := by
  obtain ⟨start, next⟩ := spells_parts spells
  have kept := (List.dropWhile_suffix (· = spaceByte) (l := text)).length_le
  have plainRest : Plain (text.dropWhile (· = spaceByte)) := fun member =>
    plain ((List.dropWhile_suffix _).subset member)
  have scanned := scanArg_eq start plainRest (kept.trans_lt short)
  unfold findNextArg
  rw [skipSpaces_eq spells short]
  simp only [Option.bind_eq_bind, Option.bind_some]
  by_cases isEmpty : first spaceByte text = []
  · have nothing := first_eq_nil_iff.mp isEmpty
    rw [nothing] at start ⊢
    rw [if_pos start.1, isEmpty]
    rfl
  · have notEnd : memory (str + (text.takeWhile (· = spaceByte)).length) ≠ 0 := by
      rcases starts : text.dropWhile (· = spaceByte) with _ | ⟨char, rest⟩
      · exact absurd (first_eq_nil_iff.mpr starts) isEmpty
      · rw [starts] at start plainRest
        rw [start.1]
        exact fun isZero => plainRest (isZero ▸ List.mem_cons_self)
    rw [if_neg notEnd, scanned]
    simp only [Option.bind_some]
    change (if memory (str + (text.takeWhile (· = spaceByte)).length +
      (first spaceByte text).length) ≠ 0 then _ else _) = _
    rcases ends : (text.dropWhile (· = spaceByte)).dropWhile (· ≠ spaceByte) with _ | ⟨char, rest⟩
    · rw [ends] at next
      rw [if_neg (not_not.mpr next.1), if_pos rfl]
      rfl
    · rw [ends] at next
      have isSpace : memory (str + (text.takeWhile (· = spaceByte)).length +
          (first spaceByte text).length) = spaceByte := by
        rw [next.1]
        exact dropWhile_cons_eq ends
      rw [if_pos (by rw [isSpace]; decide), if_neg (List.cons_ne_nil _ _)]
      rfl

/-- The argument is cut off, and the line goes on behind it. -/
theorem findNextArg_cut (spells : Spells memory str (terminated text)) (plain : Plain text)
    (short : text.length < addressSpace) :
    ∃ after stop start, findNextArg memory str true = some (after, stop, start) ∧
      Spells after start (terminated (first spaceByte text)) ∧
      Spells after stop (terminated (behind spaceByte text)) := by
  obtain ⟨start, next⟩ := spells_parts spells
  have parts : first spaceByte text ++
      (text.dropWhile (· = spaceByte)).dropWhile (· ≠ spaceByte) =
      text.dropWhile (· = spaceByte) := List.takeWhile_append_dropWhile
  have found := findNextArg_eq spells plain short true
  unfold behind
  rcases ends : (text.dropWhile (· = spaceByte)).dropWhile (· ≠ spaceByte) with _ | ⟨char, rest⟩
  · rw [ends, List.append_nil] at parts
    rw [ends] at next found
    rw [← parts] at start
    exact ⟨_, _, _, found, start, next⟩
  · rw [ends] at parts next
    rw [ends, if_neg (List.cons_ne_nil _ _), if_pos rfl] at found
    rw [← parts] at start
    refine ⟨_, _, _, found, spells_append.mpr ⟨?_, ?_⟩, ?_⟩
    · have word : Spells memory (str + (text.takeWhile (· = spaceByte)).length)
          (first spaceByte text) := by
        rw [terminated, List.append_assoc] at start
        exact (spells_append.mp start).1
      exact word.congr fun place inside => Function.update_of_ne (by omega) _ _
    · exact ⟨Function.update_self _ _ _, trivial⟩
    · exact next.2.congr fun place inside => Function.update_of_ne (by omega) _ _

/-- The argument is left in the line, and the line goes on behind it. -/
theorem findNextArg_keep (spells : Spells memory str (terminated text)) (plain : Plain text)
    (short : text.length < addressSpace) :
    ∃ stop start, findNextArg memory str false = some (memory, stop, start) ∧
      Spells memory start (terminated (text.dropWhile (· = spaceByte))) ∧
      Spells memory stop (terminated (behind spaceByte text)) := by
  obtain ⟨start, next⟩ := spells_parts spells
  have found := findNextArg_eq spells plain short false
  unfold behind
  rcases ends : (text.dropWhile (· = spaceByte)).dropWhile (· ≠ spaceByte) with _ | ⟨char, rest⟩
  · rw [ends] at next found
    exact ⟨_, _, found, start, next⟩
  · rw [ends, if_neg (List.cons_ne_nil _ _)] at found
    rw [ends] at next
    exact ⟨_, _, found, start, next.2⟩

end Line

/-! ## What is added to a block -/

/-- The entry with more arguments behind its own. -/
def Bootargs.extend (entry : Bootargs) (args : List (List UInt8)) : Bootargs :=
  { entry with args := entry.args ++ args }

section Block

variable {entry : Bootargs} {block after : Memory} {bap : Nat} {args more : List (List UInt8)}
  {arg : List UInt8}

theorem extend_nil (entry : Bootargs) : entry.extend [] = entry := by
  rw [Bootargs.extend, List.append_nil]

theorem extend_append (entry : Bootargs) (args more : List (List UInt8)) :
    entry.extend (args ++ more) = (entry.extend args).extend more := by
  simp only [Bootargs.extend, List.append_assoc]

theorem size_extend (entry : Bootargs) (args : List (List UInt8)) :
    (entry.extend args).size = entry.size + (packed args).length := by
  simp only [Bootargs.size, Bootargs.bytes, Bootargs.extend, packed_append, List.length_append]
  omega

/-- Where more arguments fit, fewer do. -/
theorem Bootargs.Fits.shrink (fits : (entry.extend more).Fits bap) : entry.Fits bap where
  args := by
    have few := fits.args
    rw [Bootargs.extend, List.length_append] at few
    omega
  env := fits.env
  size := by
    have small := fits.size
    rw [size_extend] at small
    omega
  buffer := by
    have buffer := fits.buffer
    rw [size_extend] at buffer
    omega

/-- The arguments are appended in order. -/
theorem appendArgs_at (stands : entry.At block bap) (plain : ∀ arg ∈ args, Plain arg)
    (fits : (entry.extend args).Fits bap) :
    ∃ after, appendArgs bap block args = .ok after ∧ (entry.extend args).At after bap := by
  induction args generalizing entry block with
  | nil =>
      rw [extend_nil]
      exact ⟨block, rfl, stands⟩
  | cons arg args ih =>
      have split : entry.extend (arg :: args) = (entry.extend [arg]).extend args :=
        extend_append entry [arg] args
      rw [split] at fits ⊢
      obtain ⟨adjusts, -⟩ := @bootstrapAdjust_edits block bap entry none (some arg) stands
        fits.shrink.shrink (fun _ isNone => by cases isNone)
        (fun chars isArg => by cases isArg; exact plain arg List.mem_cons_self)
        (.inr (Option.some_ne_none arg))
      obtain ⟨middle, ran, standsMiddle, -⟩ := adjusts fits.shrink
      have standsMiddle : (entry.extend [arg]).At middle bap := standsMiddle
      obtain ⟨after, ranRest, final⟩ := ih standsMiddle
        (fun other member => plain other (List.mem_cons_of_mem _ member)) fits
      refine ⟨after, ?_, final⟩
      rw [appendArgs, ran]
      exact ranRest

end Block

end Bcm2711.Startup
