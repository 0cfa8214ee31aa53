import Bcm2711.Lib.Fallible
import Bcm2711.Lib.Word

/-! # Addresses, alignment and the ways startup code stops

The startup program runs once, before the kernel, on one CPU.  Physical addresses
(`paddr_t`, and `PADDR_T` on a 64-bit target) are 64-bit words; `unsigned` is a
32-bit word.
-/

namespace Bcm2711.Startup

/-- How a startup call ends when it does not return. -/
inductive Halt where
  /-- `crash(...)`, with its message. -/
  | crash (message : String)
  /-- A loop that never ends. -/
  | stuck
  /-- An access through a null pointer. -/
  | nullAccess
deriving DecidableEq, Repr

/-- The outcome of a startup call. -/
abbrev Result (α : Type) := Except Halt α

/-- The sum of two `paddr_t`. -/
def addPaddr (first second : Nat) : Nat := Word.add 64 first second

/-- The difference of two `paddr_t`. -/
def subPaddr (first second : Nat) : Nat := Word.sub 64 first second

/-- `NULL_PADDR`, all bits set. -/
def nullPaddr : Nat := 2 ^ 64 - 1

/-- `TRUNC(_x,_a)`. -/
def TRUNC (value alignment : Nat) : Nat := Word.trunc 64 value alignment

/-- `ROUND(_x,_a)`. -/
def ROUND (value alignment : Nat) : Nat := Word.round 64 value alignment

theorem addPaddr_of_lt {first second : Nat} (fits : first + second < 2 ^ 64) :
    addPaddr first second = first + second := Word.add_of_lt fits

theorem subPaddr_of_le {first second : Nat} (order : second ≤ first) (fits : first < 2 ^ 64) :
    subPaddr first second = first - second := Word.sub_of_le order fits

end Bcm2711.Startup
