import Mathlib

/-! # Byte memory

Memory is a function from addresses to bytes.  Block moves and fills say what each
address holds afterwards; words are little-endian runs of bytes, and a stored word is
loaded back as long as nothing writes over it.
-/

namespace Bytes

/-- A byte at every address. -/
abbrev Memory := Nat → UInt8

/-- `memmove`: copy `count` bytes from `src` to `dst`; the two blocks may overlap. -/
def move (memory : Memory) (dst src count : Nat) : Memory :=
  fun address => if dst ≤ address ∧ address < dst + count then memory (src + (address - dst))
    else memory address

/-- `memset`: fill `count` bytes from `dst` on. -/
def fill (memory : Memory) (dst : Nat) (value : UInt8) (count : Nat) : Memory :=
  fun address => if dst ≤ address ∧ address < dst + count then value else memory address

/-- The little-endian word of `width` bytes at an address. -/
def load (memory : Memory) : (width address : Nat) → Nat
  | 0, _ => 0
  | width + 1, address => (memory address).toNat + 256 * load memory width (address + 1)

theorem load_zero (memory : Memory) (address : Nat) : load memory 0 address = 0 := rfl

theorem load_succ (memory : Memory) (width address : Nat) :
    load memory (width + 1) address =
      (memory address).toNat + 256 * load memory width (address + 1) := rfl

/-- The byte at a place of a little-endian word. -/
def byteAt (value place : Nat) : UInt8 := UInt8.ofNat (value / 256 ^ place)

/-- Store a little-endian word of `width` bytes at an address. -/
def store (memory : Memory) (width dst value : Nat) : Memory :=
  fun address => if dst ≤ address ∧ address < dst + width then byteAt value (address - dst)
    else memory address

/-- The first bytes of a buffer. -/
def firstBytes (buffer : Memory) (count : Nat) : List UInt8 := (List.range count).map buffer

theorem length_firstBytes (buffer : Memory) (count : Nat) :
    (firstBytes buffer count).length = count := by
  simp [firstBytes]

theorem firstBytes_succ (buffer : Memory) (count : Nat) :
    firstBytes buffer (count + 1) = firstBytes buffer count ++ [buffer count] := by
  simp [firstBytes, List.range_succ]

/-- A store past the first bytes leaves them alone. -/
theorem firstBytes_update (buffer : Memory) (count : Nat) (byte : UInt8) :
    firstBytes (Function.update buffer count byte) count = firstBytes buffer count := by
  unfold firstBytes
  refine List.map_congr_left fun place inside => ?_
  exact Function.update_of_ne (List.mem_range.mp inside).ne _ _

variable {memory other : Memory}

theorem move_of_mem {dst src count place : Nat} (inside : place < count) :
    move memory dst src count (dst + place) = memory (src + place) := by
  have bounds : dst ≤ dst + place ∧ dst + place < dst + count := by omega
  rw [move, if_pos bounds, Nat.add_sub_cancel_left]

theorem move_of_not_mem {dst src count address : Nat}
    (outside : address < dst ∨ dst + count ≤ address) :
    move memory dst src count address = memory address := by
  rw [move, if_neg (by omega)]

theorem fill_of_mem {dst count address : Nat} {value : UInt8}
    (inside : dst ≤ address ∧ address < dst + count) :
    fill memory dst value count address = value := by
  rw [fill, if_pos inside]

theorem fill_of_not_mem {dst count address : Nat} {value : UInt8}
    (outside : address < dst ∨ dst + count ≤ address) :
    fill memory dst value count address = memory address := by
  rw [fill, if_neg (by omega)]

theorem store_of_not_mem {width dst value address : Nat}
    (outside : address < dst ∨ dst + width ≤ address) :
    store memory width dst value address = memory address := by
  rw [store, if_neg (by omega)]

/-- A word depends on its own bytes only. -/
theorem load_congr {width first second : Nat}
    (same : ∀ place < width, memory (first + place) = other (second + place)) :
    load memory width first = load other width second := by
  induction width generalizing first second with
  | zero => rfl
  | succ width ih =>
      have head : memory first = other second := same 0 (Nat.succ_pos width)
      have tail : load memory width (first + 1) = load other width (second + 1) := by
        refine ih fun place below => ?_
        have next := same (place + 1) (Nat.succ_lt_succ below)
        rwa [Nat.add_comm place 1, ← Nat.add_assoc, ← Nat.add_assoc] at next
      rw [load_succ, load_succ, head, tail]

/-- The bytes of a value give the value back, up to the width of the word. -/
theorem load_of_bytes {width first value : Nat}
    (bytes : ∀ place < width, memory (first + place) = byteAt value place) :
    load memory width first = value % 256 ^ width := by
  induction width generalizing first value with
  | zero => rw [load_zero, Nat.pow_zero, Nat.mod_one]
  | succ width ih =>
      have head : memory first = UInt8.ofNat value := by
        have byte := bytes 0 (Nat.succ_pos width)
        rwa [Nat.add_zero, byteAt, Nat.pow_zero, Nat.div_one] at byte
      have tail : load memory width (first + 1) = value / 256 % 256 ^ width := by
        refine ih fun place below => ?_
        have byte := bytes (place + 1) (Nat.succ_lt_succ below)
        rw [Nat.add_comm place 1, ← Nat.add_assoc, byteAt, Nat.add_comm 1 place, Nat.pow_succ,
          Nat.mul_comm, ← Nat.div_div_eq_div_mul] at byte
        exact byte
      rw [load_succ, head, tail, Nat.pow_succ, Nat.mul_comm (256 ^ width), Nat.mod_mul,
        UInt8.toNat_ofNat']

/-- A word of zeros. -/
theorem load_zeros {width first : Nat} (zeros : ∀ place < width, memory (first + place) = 0) :
    load memory width first = 0 := by
  have bytes : ∀ place < width, memory (first + place) = byteAt 0 place := by
    intro place below
    rw [zeros place below, byteAt, Nat.zero_div]
    rfl
  rw [load_of_bytes bytes, Nat.zero_mod]

/-- A stored word is loaded back, up to its width. -/
theorem load_store {width dst value : Nat} :
    load (store memory width dst value) width dst = value % 256 ^ width := by
  refine load_of_bytes fun place below => ?_
  have inside : dst ≤ dst + place ∧ dst + place < dst + width := by omega
  rw [store, if_pos inside, Nat.add_sub_cancel_left]

/-- A word of some bytes is below the power. -/
theorem load_lt (memory : Memory) (width address : Nat) :
    load memory width address < 256 ^ width := by
  induction width generalizing address with
  | zero => exact Nat.one_pos
  | succ width bound =>
      have rest := bound (address + 1)
      have byte := (memory address).toNat_lt
      rw [load_succ, Nat.pow_succ]
      omega

/-- A store beside a word leaves it. -/
theorem load_store_of_disjoint {width stored address dst value : Nat}
    (beside : address + width ≤ dst ∨ dst + stored ≤ address) :
    load (store memory stored dst value) width address = load memory width address :=
  load_congr fun place below => store_of_not_mem (by omega)

end Bytes
