import Mathlib

/-! # Words with exclusive monitors

A party loads a word exclusively, and its exclusive store goes through only if nothing was stored to
the word in between.  As long as a monitor is set, what its party has loaded is still there.
-/

namespace Exclusive

/-- A word, and the parties whose monitors are set. -/
structure Word (ι α : Type*) where
  value : α
  monitored : ι → Bool

namespace Word

variable {ι α : Type*}

/-- Nobody has loaded the word. -/
def fresh (value : α) : Word ι α := ⟨value, fun _ => false⟩

/-- An exclusive load. -/
def load [DecidableEq ι] (word : Word ι α) (party : ι) : Word ι α :=
  { word with monitored := Function.update word.monitored party true }

/-- A monitor is cleared. -/
def lose [DecidableEq ι] (word : Word ι α) (party : ι) : Word ι α :=
  { word with monitored := Function.update word.monitored party false }

/-- A store, exclusive or not, clears all monitors. -/
def store (_ : Word ι α) (value : α) : Word ι α := fresh value

/-- What was loaded under a monitor that is still set is still there. -/
def Agrees (word : Word ι α) (seen : ι → Option α) : Prop :=
  ∀ party, word.monitored party = true → ∀ value ∈ seen party, value = word.value

variable {word : Word ι α} {seen later : ι → Option α} {party : ι} {value : α}

theorem fresh_agrees (value : α) (seen : ι → Option α) : (fresh value).Agrees seen :=
  fun _ monitored => absurd monitored Bool.false_ne_true

theorem store_agrees (word : Word ι α) (value : α) (seen : ι → Option α) :
    (word.store value).Agrees seen := fresh_agrees value seen

@[simp] theorem load_value [DecidableEq ι] : (word.load party).value = word.value := rfl

@[simp] theorem lose_value [DecidableEq ι] : (word.lose party).value = word.value := rfl

@[simp] theorem load_monitored [DecidableEq ι] :
    (word.load party).monitored = Function.update word.monitored party true := rfl

@[simp] theorem lose_monitored [DecidableEq ι] :
    (word.lose party).monitored = Function.update word.monitored party false := rfl

@[simp] theorem store_value : (word.store value).value = value := rfl

/-- A party that forgets what it has loaded. -/
theorem Agrees.forget (agrees : word.Agrees seen)
    (fewer : ∀ other, later other = none ∨ later other = seen other) : word.Agrees later := by
  intro other monitored value isSeen
  rcases fewer other with none | same
  · rw [none] at isSeen
    cases isSeen
  · exact agrees other monitored value (same ▸ isSeen)

/-- What is loaded now is there. -/
theorem Agrees.load [DecidableEq ι] (agrees : word.Agrees seen)
    (others : ∀ other, other ≠ party → later other = seen other)
    (here : ∀ value ∈ later party, value = word.value) : (word.load party).Agrees later := by
  intro other monitored value isSeen
  by_cases same : other = party
  · subst same
    exact here value isSeen
  · have before : word.monitored other = true := by
      rwa [load_monitored, Function.update_of_ne same] at monitored
    rw [others other same] at isSeen
    exact agrees other before value isSeen

/-- A monitor that is cleared promises nothing. -/
theorem Agrees.lose [DecidableEq ι] (agrees : word.Agrees seen)
    (others : ∀ other, other ≠ party → later other = none ∨ later other = seen other) :
    (word.lose party).Agrees later := by
  intro other monitored value isSeen
  by_cases same : other = party
  · subst same
    rw [lose_monitored, Function.update_self] at monitored
    exact absurd monitored Bool.false_ne_true
  · have before : word.monitored other = true := by
      rwa [lose_monitored, Function.update_of_ne same] at monitored
    rcases others other same with none | kept
    · rw [none] at isSeen
      cases isSeen
    · rw [kept] at isSeen
      exact agrees other before value isSeen

end Word

end Exclusive
