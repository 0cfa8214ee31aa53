import Mathlib

/-! # Sentinel-terminated arrays in memory

An array of slots whose live entries stand in the first slots and are followed by a
terminator (`Holds`).  Block moves open and close a gap in it, and the lemmas say
which list of entries the array holds afterwards; what lies behind the terminator
is left open.
-/

namespace SlotArray

variable {ε : Type*}

/-- Move `count` slots from `src` to `dst`; the two blocks may overlap. -/
def move (slots : Nat → ε) (dst src count : Nat) : Nat → ε :=
  fun slot => if dst ≤ slot ∧ slot < dst + count then slots (src + (slot - dst)) else slots slot

/-- The array holds exactly `entries` before its first terminator. -/
structure Holds (ended : ε → Prop) (slots : Nat → ε) (entries : List ε) : Prop where
  stored : ∀ slot, slot < entries.length → entries[slot]? = some (slots slot)
  live : ∀ entry ∈ entries, ¬ ended entry
  terminated : ended (slots entries.length)

variable {ended : ε → Prop} {slots : Nat → ε}

theorem Holds.slot_eq {front back : List ε} {entry : ε}
    (holds : Holds ended slots (front ++ entry :: back)) : slots front.length = entry := by
  have stored := holds.stored front.length (by simp)
  simpa using stored.symm

/-- Writing a live entry over a live entry. -/
theorem Holds.set {front back : List ε} {entry : ε}
    (holds : Holds ended slots (front ++ entry :: back)) {value : ε} (isLive : ¬ ended value) :
    Holds ended (Function.update slots front.length value) (front ++ value :: back) where
  stored := by
    intro slot below
    by_cases here : slot = front.length
    · subst here
      simp
    · have stored := holds.stored slot (by simpa using below)
      rw [Function.update_of_ne here]
      grind
  live := by
    intro other member
    have live := holds.live other
    grind
  terminated := by
    have terminated := holds.terminated
    rw [Function.update_of_ne (by simp)]
    simpa using terminated

/-- Closing the gap of a removed entry moves everything behind it, the terminator
included, down by one slot. -/
theorem Holds.erase {front back : List ε} {entry : ε}
    (holds : Holds ended slots (front ++ entry :: back)) :
    Holds ended (move slots front.length (front.length + 1) (back.length + 1)) (front ++ back) where
  stored := by
    intro slot below
    by_cases before : slot < front.length
    · have stored := holds.stored slot (by simp; omega)
      have outside : ¬ (front.length ≤ slot ∧ slot < front.length + (back.length + 1)) := by omega
      simp only [move, outside, ↓reduceIte]
      grind
    · have stored := holds.stored (slot + 1) (by simp at below ⊢; omega)
      have inside : front.length ≤ slot ∧ slot < front.length + (back.length + 1) := by
        simp at below
        omega
      have shift : front.length + 1 + (slot - front.length) = slot + 1 := by omega
      simp only [move, inside, and_self, ↓reduceIte, shift]
      grind
  live := by
    intro other member
    have live := holds.live other
    grind
  terminated := by
    have terminated := holds.terminated
    have inside : front.length ≤ (front ++ back).length ∧
        (front ++ back).length < front.length + (back.length + 1) := by simp
    have shift : front.length + 1 + ((front ++ back).length - front.length) =
        (front ++ entry :: back).length := by simp; omega
    simpa only [move, inside, and_self, ↓reduceIte, shift] using terminated

/-- Opening a gap moves everything from it on, the terminator included, up by one
slot; the gap then takes the new entry. -/
theorem Holds.insert {front back : List ε} (holds : Holds ended slots (front ++ back)) {entry : ε}
    (isLive : ¬ ended entry) :
    Holds ended (Function.update
        (move slots (front.length + 1) front.length (back.length + 1)) front.length entry)
      (front ++ entry :: back) where
  stored := by
    intro slot below
    by_cases here : slot = front.length
    · subst here
      simp
    · rw [Function.update_of_ne here]
      by_cases before : slot < front.length
      · have stored := holds.stored slot (by simp; omega)
        have outside : ¬ (front.length + 1 ≤ slot ∧
            slot < front.length + 1 + (back.length + 1)) := by omega
        simp only [move, outside, ↓reduceIte]
        grind
      · have stored := holds.stored (slot - 1) (by simp at below ⊢; omega)
        have inside : front.length + 1 ≤ slot ∧ slot < front.length + 1 + (back.length + 1) := by
          simp at below
          omega
        have shift : front.length + (slot - (front.length + 1)) = slot - 1 := by omega
        simp only [move, inside, and_self, ↓reduceIte, shift]
        grind
  live := by
    intro other member
    have live := holds.live other
    grind
  terminated := by
    have terminated := holds.terminated
    have inside : front.length + 1 ≤ (front ++ entry :: back).length ∧
        (front ++ entry :: back).length < front.length + 1 + (back.length + 1) := by
      simp
    have shift : front.length + ((front ++ entry :: back).length - (front.length + 1)) =
        (front ++ back).length := by simp; omega
    rw [Function.update_of_ne (by simp)]
    simpa only [move, inside, and_self, ↓reduceIte, shift] using terminated

/-- Writing a live entry over the terminator and a terminator behind it. -/
theorem Holds.push {entries : List ε} (holds : Holds ended slots entries) {value last : ε}
    (isLive : ¬ ended value) (isEnded : ended last) :
    Holds ended (Function.update (Function.update slots entries.length value)
      (entries.length + 1) last) (entries ++ [value]) where
  stored := by
    intro slot below
    rw [List.length_append, List.length_singleton] at below
    rw [Function.update_of_ne (by omega)]
    by_cases here : slot = entries.length
    · subst here
      rw [List.getElem?_concat_length, Function.update_self]
    · have inside : slot < entries.length := by omega
      rw [Function.update_of_ne here, List.getElem?_append_left inside]
      exact holds.stored slot inside
  live := by
    intro other member
    rcases List.mem_append.mp member with old | new
    · exact holds.live other old
    · rw [List.mem_singleton.mp new]
      exact isLive
  terminated := by
    rw [List.length_append, List.length_singleton, Function.update_self]
    exact isEnded

end SlotArray
