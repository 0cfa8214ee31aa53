import Bcm2711.Lib.CString
import Bcm2711.Lib.Walk

/-! # Formatting into a buffer

`vmsg` reads a format and hands every character to a sink.  `ksprintf` has a sink that stores
whatever comes; the sink of `ksnprintf` stores so many characters at the most, and the string is
terminated behind what has been stored.
-/

namespace Bcm2711.Startup.Kprintf

open Walks Bytes CString

/-- A character, as it is stored. -/
def byte (char : Char) : UInt8 := char.toNat.toUInt8

/-- What is formatted: the bytes from the format on, and what `va_arg` takes one after the other,
where a pointer stands for a string that lies apart from the buffer. -/
structure Call where
  fmt : Memory
  args : Nat → BitVec 64
  string : BitVec 64 → List UInt8
  plain : ∀ pointer, Plain (string pointer)

/-! ## The formatter -/

/-- What a letter behind `%` asks for. -/
inductive Conversion where
  | num (bits dig radix : Nat)
  | string
  | char
deriving DecidableEq, Repr

/-- The cases of the `switch`. -/
def conversion (letter : UInt8) : Conversion :=
  if letter = byte 'b' then .num 32 2 16
  else if letter = byte 'w' then .num 32 4 16
  else if letter = byte 'P' then .num 64 16 16
  else if letter = byte 'x' then .num 32 8 16
  else if letter = byte 'l' then .num 64 16 16
  else if letter = byte 'L' then .num 64 16 16
  else if letter = byte 'v' then .num 64 16 16
  else if letter = byte 'd' ∨ letter = byte 'u' then .num 32 0 10
  else if letter = byte 's' then .string
  else .char

/-- `c`, the digits. -/
def c (place : Nat) : UInt8 := ("0123456789abcdef".toList.map byte).getD place 0

/-- The digits of a number, from the end of a buffer with so much room in front. -/
def numerals (radix : Nat) : (room num : Nat) → List UInt8 → Option (List UInt8)
  | 0, _, _ => none
  | room + 1, num, vs =>
      let vs := c (num % radix) :: vs
      if num / radix = 0 then some vs else numerals radix room (num / radix) vs

/-- A number, with zeros in front: `buf` has 64 bytes, the last of them for the zero. -/
def number (bits dig radix : Nat) (arg : BitVec 64) : Option (List UInt8) :=
  (numerals radix 63 (arg.toNat % 2 ^ bits) []).map fun vs =>
    List.replicate (dig - vs.length) (byte '0') ++ vs

section Sinks

variable {σ : Type*} (print : σ → UInt8 → σ)

/-- `one_char`. -/
def oneChar (sink : σ) (char : UInt8) : σ :=
  print (if char = byte '\n' then print sink (byte '\r') else sink) char

/-- `vmsg` before a character of the format. -/
structure Point (σ : Type*) where
  place : Nat
  arg : Nat
  sink : σ

/-- One round of `vmsg`; it ends without a sink where a number does not fit in `buf`. -/
def vmsgTurn (call : Call) (p : Point σ) : Turn (Point σ) (Option σ) :=
  let char := call.fmt p.place
  if char = 0 then .ends (some p.sink)
  else if char ≠ byte '%' then .goes ⟨p.place + 1, p.arg, oneChar print p.sink char⟩
  else
    let letter := call.fmt (p.place + 1)
    match conversion letter with
    | .num bits dig radix =>
        match number bits dig radix (call.args p.arg) with
        | some vs => .goes ⟨p.place + 2, p.arg + 1, vs.foldl (oneChar print) p.sink⟩
        | none => .ends none
    | .string =>
        .goes ⟨p.place + 2, p.arg + 1, (call.string (call.args p.arg)).foldl (oneChar print) p.sink⟩
    | .char => .goes ⟨p.place + 2, p.arg, oneChar print p.sink letter⟩

end Sinks

/-! ## The sinks -/

/-- `string_ptr`, `ksnprinf_len` and `ksnprintf_max_len`, with the memory and where it has been
written. -/
structure Sink where
  stringPtr : Nat
  len : Nat
  maxLen : Nat
  memory : Memory
  written : List Nat

/-- `*string_ptr = char`. -/
def Sink.store (sink : Sink) (char : UInt8) : Sink :=
  { sink with
    memory := Function.update sink.memory sink.stringPtr char
    written := sink.stringPtr :: sink.written }

/-- `string_print_char`. -/
def stringPrintChar (sink : Sink) (char : UInt8) : Sink :=
  { sink.store char with stringPtr := sink.stringPtr + 1 }

/-- `string_print_n_char`. -/
def stringPrintNChar (sink : Sink) (char : UInt8) : Sink :=
  if sink.len < sink.maxLen then { stringPrintChar sink char with len := sink.len + 1 } else sink

/-- `ksprintf`, for so many rounds at the most. -/
def ksprintf (call : Call) (buff : Nat) (memory : Memory) (rounds : Nat) : Option Sink :=
  (walk (vmsgTurn stringPrintChar call) rounds
    ⟨0, 0, ⟨buff, 0, 0, memory, []⟩⟩).join.map fun sink => sink.store 0

/-- `ksnprintf`, for so many rounds at the most. -/
def ksnprintf (call : Call) (buff num : Nat) (memory : Memory) (rounds : Nat) : Option Sink :=
  (walk (vmsgTurn stringPrintNChar call) rounds
    ⟨0, 0, ⟨buff, 0, num, memory, []⟩⟩).join.map fun sink =>
      { sink.store 0 with len := 0, maxLen := 0 }

/-! ## What a format describes -/

/-- A character, as it comes out. -/
def shown (char : UInt8) : List UInt8 := if char = byte '\n' then [byte '\r', char] else [char]

/-- The digits of a number, and one for zero. -/
def digitsOf (radix num : Nat) : List UInt8 :=
  if num = 0 then [c 0] else (Nat.digits radix num).reverse.map c

/-- What stands for a letter behind `%`, and the next argument. -/
def expansion (call : Call) (letter : UInt8) (arg : Nat) : List UInt8 × Nat :=
  match conversion letter with
  | .num bits dig radix =>
      let digits := digitsOf radix ((call.args arg).toNat % 2 ^ bits)
      (List.replicate (dig - digits.length) (byte '0') ++ digits, arg + 1)
  | .string => (call.string (call.args arg), arg + 1)
  | .char => ([letter], arg)

/-- The text that a format describes, from a place and an argument on. -/
inductive Text (call : Call) : (place arg : Nat) → List UInt8 → Prop where
  | nul {place arg : Nat} (ended : call.fmt place = 0) : Text call place arg []
  | char {place arg : Nat} {rest : List UInt8} (more : call.fmt place ≠ 0)
      (plain : call.fmt place ≠ byte '%') (after : Text call (place + 1) arg rest) :
      Text call place arg (shown (call.fmt place) ++ rest)
  | expand {place arg : Nat} {rest : List UInt8} (percent : call.fmt place = byte '%')
      (after : Text call (place + 2) (expansion call (call.fmt (place + 1)) arg).2 rest) :
      Text call place arg ((expansion call (call.fmt (place + 1)) arg).1.flatMap shown ++ rest)

/-- `ksnprintf` writes into its `num` bytes only and leaves a string there, which is the beginning
of the one that `ksprintf` leaves, and all of it where it fits. -/
def Bounded (call : Call) (buff num : Nat) (memory : Memory) : Prop :=
  ∃ done full, (∃ rounds, ksnprintf call buff num memory rounds = some done) ∧
    (∃ rounds, ksprintf call buff memory rounds = some full) ∧
    (∀ place ∈ done.written, buff ≤ place ∧ place < buff + num) ∧
    ∃ string whole fuel, read done.memory num buff = some string ∧
      read full.memory fuel buff = some whole ∧ string <+: whole ∧
      (whole.length < num → string = whole)

/-! ## Numbers -/

theorem digitsOf_of_lt {radix num : Nat} (digit : num < radix) :
    digitsOf radix num = [c (num % radix)] := by
  rw [digitsOf, Nat.mod_eq_of_lt digit]
  by_cases zero : num = 0
  · rw [if_pos zero, zero]
  · rw [if_neg zero, Nat.digits_of_lt radix num zero digit]
    rfl

theorem digitsOf_of_le {radix num : Nat} (atLeastTwo : 1 < radix) (more : num / radix ≠ 0) :
    digitsOf radix num = digitsOf radix (num / radix) ++ [c (num % radix)] := by
  have positive : 0 < num := by
    apply Nat.pos_of_ne_zero
    rintro rfl
    exact more (Nat.zero_div radix)
  rw [digitsOf, digitsOf, if_neg positive.ne', if_neg more, Nat.digits_def' atLeastTwo positive,
    List.reverse_cons, List.map_append]
  rfl

theorem numerals_eq {radix room num : Nat} (atLeastTwo : 1 < radix) (fits : num < radix ^ room)
    (positive : 0 < room) (vs : List UInt8) :
    numerals radix room num vs = some (digitsOf radix num ++ vs) := by
  induction room generalizing num vs with
  | zero => exact absurd positive (Nat.lt_irrefl 0)
  | succ room ih =>
      rw [numerals]
      by_cases last : num / radix = 0
      · have digit : num < radix :=
          (Nat.div_eq_zero_iff.mp last).resolve_left (Nat.ne_zero_of_lt atLeastTwo)
        rw [if_pos last, digitsOf_of_lt digit]
        rfl
      · have fewer : num / radix < radix ^ room := by
          apply Nat.div_lt_of_lt_mul
          rw [← Nat.pow_succ']
          exact fits
        have left : 0 < room := by
          apply Nat.pos_of_ne_zero
          rintro rfl
          rw [pow_zero] at fewer
          exact last (Nat.lt_one_iff.mp fewer)
        rw [if_neg last, ih fewer left, digitsOf_of_le atLeastTwo last, List.append_assoc]
        rfl

/-- The numbers have at most 64 bits, and a radix of 10 or 16. -/
theorem conversion_num {letter : UInt8} {bits dig radix : Nat}
    (isNum : conversion letter = .num bits dig radix) : bits ≤ 64 ∧ 10 ≤ radix := by
  unfold conversion at isNum
  repeat' split at isNum
  all_goals first
    | cases isNum
      decide
    | cases isNum

/-- Every number fits in `buf`. -/
theorem number_eq {letter : UInt8} {bits dig radix : Nat} (arg : BitVec 64)
    (isNum : conversion letter = .num bits dig radix) :
    number bits dig radix arg =
      some (List.replicate (dig - (digitsOf radix (arg.toNat % 2 ^ bits)).length) (byte '0') ++
        digitsOf radix (arg.toNat % 2 ^ bits)) := by
  obtain ⟨short, large⟩ := conversion_num isNum
  have fits : arg.toNat % 2 ^ bits < radix ^ 63 :=
    calc arg.toNat % 2 ^ bits < 2 ^ bits := Nat.mod_lt _ (Nat.two_pow_pos bits)
      _ ≤ 2 ^ 64 := Nat.pow_le_pow_right (by decide) short
      _ ≤ 10 ^ 63 := by norm_num
      _ ≤ radix ^ 63 := Nat.pow_le_pow_left large 63
  rw [number, numerals_eq (Nat.lt_of_lt_of_le (by decide) large) fits (by decide), List.append_nil]
  rfl

/-! ## The formatter hands the text to the sink -/

section Formatter

variable {σ : Type*} {print : σ → UInt8 → σ} {call : Call}

theorem oneChar_eq (sink : σ) (char : UInt8) :
    oneChar print sink char = (shown char).foldl print sink := by
  rw [oneChar, shown]
  split
  · rfl
  · rfl

theorem foldl_oneChar (sink : σ) (chars : List UInt8) :
    chars.foldl (oneChar print) sink = (chars.flatMap shown).foldl print sink := by
  induction chars generalizing sink with
  | nil => rfl
  | cons char chars ih =>
      rw [List.foldl_cons, List.flatMap_cons, List.foldl_append, ih, oneChar_eq]

/-- What a round does. -/
theorem vmsgTurn_eq (p : Point σ) :
    vmsgTurn print call p =
      if call.fmt p.place = 0 then .ends (some p.sink)
      else if call.fmt p.place ≠ byte '%' then
        .goes ⟨p.place + 1, p.arg, (shown (call.fmt p.place)).foldl print p.sink⟩
      else
        .goes ⟨p.place + 2, (expansion call (call.fmt (p.place + 1)) p.arg).2,
          ((expansion call (call.fmt (p.place + 1)) p.arg).1.flatMap shown).foldl print
            p.sink⟩ := by
  rw [vmsgTurn, expansion]
  by_cases ended : call.fmt p.place = 0
  · rw [if_pos ended, if_pos ended]
  rw [if_neg ended, if_neg ended]
  by_cases plain : call.fmt p.place ≠ byte '%'
  · rw [if_pos plain, if_pos plain, oneChar_eq]
  rw [if_neg plain, if_neg plain]
  dsimp only
  cases isNum : conversion (call.fmt (p.place + 1)) with
  | num bits dig radix =>
      dsimp only
      rw [number_eq _ isNum, ← foldl_oneChar]
  | string => rw [← foldl_oneChar]
  | char =>
      dsimp only
      rw [← foldl_oneChar]
      rfl

/-- Along a text the formatter returns, and the sink has got the text. -/
theorem returns_of_text {place arg : Nat} {text : List UInt8} (isText : Text call place arg text)
    (sink : σ) :
    Returns (vmsgTurn print call) ⟨place, arg, sink⟩ (some (text.foldl print sink)) := by
  induction isText generalizing sink with
  | nul ended =>
      apply returns_of_ends
      rw [vmsgTurn_eq]
      exact if_pos ended
  | char more plain after ih =>
      rw [List.foldl_append]
      refine returns_of_goes ?_ (ih _)
      rw [vmsgTurn_eq]
      exact (if_neg more).trans (if_pos plain)
  | @expand place arg rest percent after ih =>
      have more : call.fmt place ≠ 0 := by
        rw [percent]
        decide
      rw [List.foldl_append]
      refine returns_of_goes ?_ (ih _)
      rw [vmsgTurn_eq]
      exact (if_neg more).trans (if_neg (not_not.mpr percent))

/-- Where the formatter returns, there is a text. -/
theorem text_of_walk {rounds : Nat} {p : Point σ} {done : Option σ}
    (walked : walk (vmsgTurn print call) rounds p = some done) :
    ∃ text, Text call p.place p.arg text ∧ done = some (text.foldl print p.sink) := by
  induction rounds generalizing p with
  | zero => cases walked
  | succ rounds ih =>
      rw [walk, vmsgTurn_eq] at walked
      by_cases ended : call.fmt p.place = 0
      · rw [if_pos ended] at walked
        exact ⟨[], .nul ended, (Option.some.inj walked).symm⟩
      rw [if_neg ended] at walked
      by_cases plain : call.fmt p.place ≠ byte '%'
      · rw [if_pos plain] at walked
        obtain ⟨rest, after, given⟩ := ih walked
        refine ⟨_, .char ended plain after, ?_⟩
        rw [given, List.foldl_append]
      · rw [if_neg plain] at walked
        obtain ⟨rest, after, given⟩ := ih walked
        refine ⟨_, .expand (not_not.mp plain) after, ?_⟩
        rw [given, List.foldl_append]

end Formatter

/-! ## What the sinks store -/

section Stores

variable {sink : Sink} {text : List UInt8}

theorem write_cons (memory : Memory) (dst : Nat) (first : UInt8) (rest : List UInt8) :
    write (Function.update memory dst first) (dst + 1) rest = write memory dst (first :: rest) := by
  funext address
  rw [write, write]
  by_cases here : address = dst
  · subst here
    rw [if_neg (by omega), if_pos (by simp), Function.update_self, Nat.sub_self]
    rfl
  · rw [Function.update_of_ne here, List.length_cons]
    by_cases inside : dst + 1 ≤ address ∧ address < dst + 1 + rest.length
    · obtain ⟨place, rfl⟩ := Nat.exists_eq_add_of_le inside.1
      have shift : dst + 1 + place - dst = place + 1 := by omega
      rw [if_pos inside, if_pos (by omega), Nat.add_sub_cancel_left, shift, List.getD_cons_succ]
    · rw [if_neg inside, if_neg (by omega)]

/-- A sink without a bound stores the text from its place on. -/
theorem foldl_stringPrintChar (sink : Sink) (text : List UInt8) :
    (text.foldl stringPrintChar sink).stringPtr = sink.stringPtr + text.length ∧
      (text.foldl stringPrintChar sink).memory = write sink.memory sink.stringPtr text ∧
      ∀ place, place ∈ (text.foldl stringPrintChar sink).written ↔
        place ∈ sink.written ∨ sink.stringPtr ≤ place ∧ place < sink.stringPtr + text.length := by
  induction text generalizing sink with
  | nil =>
      refine ⟨rfl, ?_, ?_⟩
      · funext address
        exact (if_neg fun inside => absurd inside.1 (Nat.not_le.mpr inside.2)).symm
      · intro place
        refine (or_iff_left ?_).symm
        rintro ⟨low, high⟩
        exact absurd low (Nat.not_le.mpr high)
  | cons first rest ih =>
      obtain ⟨stringPtr, memory, written⟩ := ih (stringPrintChar sink first)
      refine ⟨?_, ?_, ?_⟩
      · rw [List.foldl_cons, stringPtr, List.length_cons, Nat.add_comm rest.length, ← Nat.add_assoc]
        rfl
      · rw [List.foldl_cons, memory]
        exact write_cons _ _ _ _
      · intro place
        rw [List.foldl_cons, written place, List.length_cons]
        have here : place ∈ (stringPrintChar sink first).written ↔
            place = sink.stringPtr ∨ place ∈ sink.written := List.mem_cons
        have next : (stringPrintChar sink first).stringPtr = sink.stringPtr + 1 := rfl
        rw [here, next]
        constructor
        · rintro ((rfl | before) | ⟨low, high⟩)
          · exact Or.inr ⟨Nat.le_refl _, by omega⟩
          · exact Or.inl before
          · exact Or.inr ⟨by omega, by omega⟩
        · rintro (before | ⟨low, high⟩)
          · exact Or.inl (Or.inr before)
          · rcases Nat.eq_or_lt_of_le low with same | later
            · exact Or.inl (Or.inl same.symm)
            · exact Or.inr ⟨later, by omega⟩

theorem foldl_stringPrintChar_len (sink : Sink) (len : Nat) (text : List UInt8) :
    text.foldl stringPrintChar { sink with len := len } =
      { text.foldl stringPrintChar sink with len := len } := by
  induction text generalizing sink with
  | nil => rfl
  | cons first rest ih =>
      rw [List.foldl_cons, List.foldl_cons, ← ih]
      rfl

/-- A sink with a bound stores so much of the text as it has room for. -/
theorem foldl_stringPrintNChar (sink : Sink) (text : List UInt8) :
    ∃ len, text.foldl stringPrintNChar sink =
      { (text.take (sink.maxLen - sink.len)).foldl stringPrintChar sink with len := len } := by
  induction text generalizing sink with
  | nil =>
      rw [List.take_nil]
      exact ⟨sink.len, rfl⟩
  | cons first rest ih =>
      by_cases room : sink.len < sink.maxLen
      · have stored : stringPrintNChar sink first =
            { stringPrintChar sink first with len := sink.len + 1 } := if_pos room
        obtain ⟨len, rests⟩ := ih { stringPrintChar sink first with len := sink.len + 1 }
        have left : sink.maxLen - sink.len = sink.maxLen - (sink.len + 1) + 1 := by omega
        refine ⟨len, ?_⟩
        rw [List.foldl_cons, stored, rests, foldl_stringPrintChar_len, left, List.take_succ_cons,
          List.foldl_cons]
        rfl
      · have stored : stringPrintNChar sink first = sink := if_neg room
        obtain ⟨len, rests⟩ := ih sink
        have none : sink.maxLen - sink.len = 0 := Nat.sub_eq_zero_of_le (Nat.not_lt.mp room)
        refine ⟨len, ?_⟩
        rw [List.foldl_cons, stored, rests, none, List.take_zero, List.take_zero]

/-- The text and the zero behind it. -/
theorem foldl_store (sink : Sink) (text : List UInt8) :
    ((text.foldl stringPrintChar sink).store 0).memory =
        write sink.memory sink.stringPtr (terminated text) ∧
      ∀ place, place ∈ ((text.foldl stringPrintChar sink).store 0).written ↔
        place ∈ sink.written ∨
          sink.stringPtr ≤ place ∧ place < sink.stringPtr + (terminated text).length := by
  obtain ⟨-, memory, written⟩ := foldl_stringPrintChar sink (terminated text)
  rw [terminated, List.foldl_append] at memory written
  exact ⟨memory, written⟩

end Stores

section Strings

variable {call : Call} {buff num : Nat} {memory : Memory} {text : List UInt8}

theorem ksprintf_of_text (isText : Text call 0 0 text) :
    ∃ full, (∃ rounds, ksprintf call buff memory rounds = some full) ∧
      full.memory = write memory buff (terminated text) := by
  have returns : Returns (vmsgTurn stringPrintChar call) ⟨0, 0, ⟨buff, 0, 0, memory, []⟩⟩
      (some (text.foldl stringPrintChar ⟨buff, 0, 0, memory, []⟩)) := returns_of_text isText _
  obtain ⟨rounds, walked⟩ := returns
  refine ⟨_, ⟨rounds, ?_⟩, (foldl_store ⟨buff, 0, 0, memory, []⟩ text).1⟩
  rw [ksprintf, walked]
  rfl

/-- What the bounded sink leaves, with the zero behind it. -/
theorem foldl_n_store (buff num : Nat) (memory : Memory) (text : List UInt8) :
    ((text.foldl stringPrintNChar ⟨buff, 0, num, memory, []⟩).store 0).memory =
        write memory buff (terminated (text.take num)) ∧
      ∀ place, place ∈ ((text.foldl stringPrintNChar ⟨buff, 0, num, memory, []⟩).store 0).written ↔
        buff ≤ place ∧ place < buff + (min num text.length + 1) := by
  obtain ⟨len, stored⟩ := foldl_stringPrintNChar ⟨buff, 0, num, memory, []⟩ text
  obtain ⟨memories, written⟩ := foldl_store ⟨buff, 0, num, memory, []⟩ (text.take num)
  rw [stored]
  refine ⟨memories, ?_⟩
  intro place
  rw [length_terminated, List.length_take] at written
  exact (written place).trans (or_iff_right List.not_mem_nil)

theorem ksnprintf_of_text (isText : Text call 0 0 text) :
    ∃ done, (∃ rounds, ksnprintf call buff num memory rounds = some done) ∧
      done.memory = write memory buff (terminated (text.take num)) ∧
      ∀ place, place ∈ done.written ↔ buff ≤ place ∧ place < buff + (min num text.length + 1) := by
  have returns : Returns (vmsgTurn stringPrintNChar call) ⟨0, 0, ⟨buff, 0, num, memory, []⟩⟩
      (some (text.foldl stringPrintNChar ⟨buff, 0, num, memory, []⟩)) := returns_of_text isText _
  obtain ⟨rounds, walked⟩ := returns
  obtain ⟨memories, written⟩ := foldl_n_store buff num memory text
  have returned : ∃ done, ksnprintf call buff num memory rounds = some done ∧
      done.memory = write memory buff (terminated (text.take num)) ∧
      ∀ place, place ∈ done.written ↔
        buff ≤ place ∧ place < buff + (min num text.length + 1) := by
    rw [ksnprintf, walked]
    exact ⟨_, rfl, memories, written⟩
  obtain ⟨done, returns, stored⟩ := returned
  exact ⟨done, ⟨rounds, returns⟩, stored⟩

theorem text_of_ksnprintf {rounds : Nat} {done : Sink}
    (returned : ksnprintf call buff num memory rounds = some done) :
    ∃ text, Text call 0 0 text ∧
      ∀ place, place ∈ done.written ↔ buff ≤ place ∧ place < buff + (min num text.length + 1) := by
  rw [ksnprintf] at returned
  cases walked : walk (vmsgTurn stringPrintNChar call) rounds
      ⟨0, 0, ⟨buff, 0, num, memory, []⟩⟩ with
  | none =>
      rw [walked] at returned
      cases returned
  | some left =>
      obtain ⟨text, isText, rfl⟩ := text_of_walk walked
      rw [walked] at returned
      obtain rfl := Option.some.inj returned
      exact ⟨text, isText, (foldl_n_store buff num memory text).2⟩

/-- The string that stands where a text has been stored ends at its first zero. -/
theorem read_write (memory : Memory) (buff : Nat) (text : List UInt8) {fuel : Nat}
    (enough : text.length < fuel) :
    read (write memory buff (terminated text)) fuel buff =
      some (text.takeWhile fun char => decide (char ≠ 0)) := by
  have zeroEnds : ∃ more, terminated text =
      terminated (text.takeWhile fun char => decide (char ≠ 0)) ++ more := by
    induction text with
    | nil => exact ⟨[], rfl⟩
    | cons first rest ih =>
        obtain ⟨more, split⟩ := ih (Nat.lt_of_succ_lt enough)
        by_cases zero : first = 0
        · rw [List.takeWhile_cons_of_neg (by simpa using zero), zero]
          exact ⟨terminated rest, rfl⟩
        · rw [List.takeWhile_cons_of_pos (by simpa using zero)]
          exact ⟨more, congrArg (first :: ·) split⟩
  obtain ⟨more, split⟩ := zeroEnds
  have spells : Spells (write memory buff (terminated text)) buff
      (terminated (text.takeWhile fun char => decide (char ≠ 0)) ++ more) := by
    rw [← split]
    exact spells_write memory buff (terminated text)
  apply read_eq (spells_append.mp spells).1
  · intro member
    exact absurd (List.mem_takeWhile_imp member) (by decide)
  · exact Nat.lt_of_le_of_lt (List.takeWhile_prefix _).length_le enough

/-- The zero behind the string is stored in its place. -/
theorem short_of_bounded (bounded : Bounded call buff num memory) :
    ∃ text, Text call 0 0 text ∧ text.length < num := by
  obtain ⟨done, full, ⟨rounds, returned⟩, -, inside, -⟩ := bounded
  obtain ⟨text, isText, written⟩ := text_of_ksnprintf returned
  refine ⟨text, isText, ?_⟩
  have zero := inside (buff + min num text.length) ((written _).mpr (by omega))
  omega

theorem bounded_of_short (isText : Text call 0 0 text) (short : text.length < num) :
    Bounded call buff num memory := by
  obtain ⟨done, returned, stored, written⟩ := @ksnprintf_of_text call buff num memory text isText
  obtain ⟨full, fully, whole⟩ := @ksprintf_of_text call buff memory text isText
  rw [List.take_of_length_le short.le] at stored
  have stands := read_write memory buff text short
  refine ⟨done, full, returned, fully, ?_, _, _, num, stored ▸ stands, whole ▸ stands,
    List.prefix_rfl, fun _ => rfl⟩
  intro place member
  have bounds := (written place).mp member
  omega

end Strings

/-- No `%` stands alone at the end of a format. -/
def Complete : List UInt8 → Prop
  | [] => True
  | first :: rest =>
      if first = byte '%' then
        match rest with
        | [] => False
        | _ :: rest => Complete rest
      else Complete rest

/-- A complete format describes a text. -/
theorem exists_text {chars : List UInt8} (call : Call) (plain : Plain chars)
    (complete : Complete chars) {place : Nat} (spells : Spells call.fmt place (terminated chars))
    (arg : Nat) : ∃ text, Text call place arg text := by
  fun_induction Complete chars generalizing place arg with
  | case1 => exact ⟨[], .nul spells.1⟩
  | case2 => exact absurd complete id
  | case3 letter rest ih =>
      have restPlain : Plain rest := fun member =>
        plain (List.mem_cons_of_mem _ (List.mem_cons_of_mem _ member))
      obtain ⟨text, after⟩ := ih restPlain complete spells.2.2 _
      exact ⟨_, .expand spells.1 after⟩
  | case4 first rest notPercent ih =>
      have restPlain : Plain rest := fun member => plain (List.mem_cons_of_mem _ member)
      obtain ⟨text, after⟩ := ih restPlain complete spells.2 arg
      refine ⟨_, .char ?_ ?_ after⟩
      · rw [spells.1]
        exact fun zero => plain (zero ▸ List.mem_cons_self)
      · rw [spells.1]
        exact notPercent

/-- `ksnprintf` keeps to its buffer exactly where the whole text is shorter than it. -/
theorem bounded_iff (call : Call) (buff num : Nat) (memory : Memory) :
    Bounded call buff num memory ↔ ∃ text, Text call 0 0 text ∧ text.length < num := by
  constructor
  · exact short_of_bounded
  · rintro ⟨text, isText, short⟩
    exact bounded_of_short isText short

/-- A format of two characters. -/
def hi : Call where
  fmt := fun place => ("hi".toList.map byte).getD place 0
  args := fun _ => 0
  string := fun _ => []
  plain := fun _ => List.not_mem_nil

/-- The zero behind two characters is stored behind a buffer of two bytes. -/
theorem hi_overruns : ¬ Bounded hi 0x1000 2 (fun _ => 0) := by
  intro bounded
  obtain ⟨text, isText, short⟩ := short_of_bounded bounded
  have first : hi.fmt 0 ≠ 0 ∧ hi.fmt 0 ≠ byte '%' := by decide
  have second : hi.fmt 1 ≠ 0 ∧ hi.fmt 1 ≠ byte '%' := by decide
  cases isText with
  | nul ended => exact first.1 ended
  | expand percent after => exact first.2 percent
  | char more plain after =>
      cases after with
      | nul ended => exact second.1 ended
      | expand percent after => exact second.2 percent
      | char more plain after =>
          have shownTwo : (shown (hi.fmt 0)).length = 1 ∧ (shown (hi.fmt 1)).length = 1 := by decide
          rw [List.length_append, List.length_append, shownTwo.1, shownTwo.2] at short
          omega

end Bcm2711.Startup.Kprintf
