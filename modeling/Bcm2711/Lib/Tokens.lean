import Mathlib

/-! # Option strings

An option string is a run of pieces with separators between them.  A piece is a name, which may
have a value behind its first `=`.  The functions of the C library that read such strings cut
them in place; here they return the parts.
-/

namespace Tokens

/-- The text before the first separator. -/
def front (sep : Char) (text : List Char) : List Char := text.takeWhile (· ≠ sep)

/-- The text behind the first separator. -/
def behind (sep : Char) (text : List Char) : List Char := (text.dropWhile (· ≠ sep)).tail

/-- The pieces of a string; nothing stands behind a separator at its end. -/
def pieces (sep : Char) : List Char → List (List Char)
  | [] => []
  | char :: text =>
      if char = sep then [] :: pieces sep text
      else (char :: (pieces sep text).headD []) :: (pieces sep text).tail

/-- The value of a piece, behind its first `=`. -/
def value (piece : List Char) : Option (List Char) := (piece.dropWhile (· ≠ '=')).tail?

/-- `getsubopt`: what the table has for the name of the first piece, its value, and what is behind
the piece.  Without an entry the value is the piece. -/
def getsubopt {κ : Type*} (sep : Char) (table : List (List Char × κ)) (options : List Char) :
    Option κ × Option (List Char) × List Char :=
  let piece := front sep options
  let name := front '=' piece
  match if name = [] then none else table.lookup name with
  | some key => (some key, value piece, behind sep options)
  | none => (none, some piece, behind sep options)

/-- The tokens that `strtok_r` returns one after the other. -/
def strtok (sep : Char) (text : List Char) : List (List Char) :=
  (pieces sep text).filter (· ≠ [])

/-! ## Numbers -/

/-- `isspace`. -/
def isSpace (char : Char) : Bool := char = ' ' ∨ 9 ≤ char.toNat ∧ char.toNat ≤ 13

/-- The value of a digit, in the bases up to 16. -/
def digitOf (char : Char) : Option Nat :=
  if '0' ≤ char ∧ char ≤ '9' then some (char.toNat - '0'.toNat)
  else if 'a' ≤ char ∧ char ≤ 'f' then some (char.toNat - 'a'.toNat + 10)
  else if 'A' ≤ char ∧ char ≤ 'F' then some (char.toNat - 'A'.toNat + 10)
  else none

/-- The number that is read on, and the text behind it. -/
def digits (base : Nat) : (number : Nat) → List Char → Nat × List Char
  | number, [] => (number, [])
  | number, char :: text =>
      match digitOf char with
      | some digit =>
          if digit < base then digits base (base * number + digit) text else (number, char :: text)
      | none => (number, char :: text)

/-- The base of a number, and its digits: behind `0x` a digit has to follow. -/
def baseOf : List Char → Nat × List Char
  | '0' :: 'x' :: char :: text =>
      if (digitOf char).isSome then (16, char :: text) else (8, '0' :: 'x' :: char :: text)
  | '0' :: 'X' :: char :: text =>
      if (digitOf char).isSome then (16, char :: text) else (8, '0' :: 'X' :: char :: text)
  | '0' :: text => (8, '0' :: text)
  | text => (10, text)

/-- The sign in front of a number, and what is behind it. -/
def signOf : List Char → Bool × List Char
  | '-' :: text => (true, text)
  | '+' :: text => (false, text)
  | text => (false, text)

/-- `strtol` with base 0, for a `long` of 64 bits: the number, and the text behind it, which is
all of the text where there are no digits. -/
def strtol (text : List Char) : Int × List Char :=
  let (negative, unsigned) := signOf (text.dropWhile (isSpace ·))
  let (base, start) := baseOf unsigned
  let (number, rest) := digits base 0 start
  if rest.length = start.length then (0, text)
  else if negative then (max (-2 ^ 63) (-number), rest)
  else (min (2 ^ 63 - 1) number, rest)

/-- The base of a number and its digits, where base 0 is the one of the prefix and base 16 lets
the prefix stand. -/
def numeral (base : Nat) (text : List Char) : Nat × List Char :=
  if base = 0 ∨ base = 16 ∧ (baseOf text).1 = 16 then baseOf text else (base, text)

/-- A number with its sign in a base, and the text behind it, where there are digits. -/
def signedNumber (base : Nat) (text : List Char) : Option (Bool × Nat × List Char) :=
  let (negative, unsigned) := signOf (text.dropWhile (isSpace ·))
  let (base, start) := numeral base unsigned
  let (number, rest) := digits base 0 start
  if rest.length = start.length then none else some (negative, number, rest)

/-- `strtoul` for an `unsigned long` of 64 bits: the number, whether it is out of range, and the
text behind it. -/
def strtoulBase (base : Nat) (text : List Char) : BitVec 64 × Bool × List Char :=
  match signedNumber base text with
  | none => (0, false, text)
  | some (negative, number, rest) =>
      if 2 ^ 64 ≤ number then (BitVec.allOnes 64, true, rest)
      else if negative then (-BitVec.ofNat 64 number, false, rest)
      else (BitVec.ofNat 64 number, false, rest)

/-- `strtol` for a `long` of 64 bits. -/
def strtolBase (base : Nat) (text : List Char) : Int × Bool × List Char :=
  match signedNumber base text with
  | none => (0, false, text)
  | some (negative, number, rest) =>
      if negative then
        if 2 ^ 63 < number then (-2 ^ 63, true, rest) else (-number, false, rest)
      else if 2 ^ 63 ≤ number then (2 ^ 63 - 1, true, rest)
      else (number, false, rest)

/-! ## Pieces -/

section Pieces

variable {sep : Char} {text : List Char}

/-- The first piece is cut off, and the others are those of the rest. -/
theorem pieces_eq (nonempty : text ≠ []) :
    pieces sep text = front sep text :: pieces sep (behind sep text) := by
  induction text with
  | nil => exact absurd rfl nonempty
  | cons char text ih =>
      rw [pieces]
      by_cases cut : char = sep
      · rw [if_pos cut, front, behind, List.takeWhile_cons_of_neg (by simpa using cut),
          List.dropWhile_cons_of_neg (by simpa using cut), List.tail_cons]
      · rw [if_neg cut, front, behind, List.takeWhile_cons_of_pos (by simpa using cut),
          List.dropWhile_cons_of_pos (by simpa using cut)]
        by_cases last : text = []
        · subst last
          rfl
        · rw [ih last, List.headD_cons, List.tail_cons]
          rfl

/-- Cutting off a piece leaves less. -/
theorem length_behind_lt (nonempty : text ≠ []) : (behind sep text).length < text.length := by
  have positive : 0 < text.length := List.length_pos_iff.mpr nonempty
  have dropped : (text.dropWhile (· ≠ sep)).length ≤ text.length :=
    (List.dropWhile_suffix _).length_le
  rw [behind, List.length_tail]
  omega

/-- Whatever the first piece is, what is behind it is left. -/
theorem getsubopt_rest {κ : Type*} (sep : Char) (table : List (List Char × κ))
    (options : List Char) : (getsubopt sep table options).2.2 = behind sep options := by
  rw [getsubopt]
  split
  · rfl
  · rfl

end Pieces

end Tokens
