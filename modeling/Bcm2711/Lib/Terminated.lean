import Mathlib

/-! # End marks in a list

A reader that goes on to the next end mark, or to the next two side by side, gets there just when
they are in the list.
-/

namespace Terminated

variable {α : Type*} [DecidableEq α] {mark : α}

/-- What is behind the first end mark. -/
def past (mark : α) : List α → Option (List α)
  | [] => none
  | first :: rest => if first = mark then some rest else past mark rest

/-- What is behind the first so many end marks. -/
def pastMany (mark : α) : Nat → List α → Option (List α)
  | 0, list => some list
  | count + 1, list => (past mark list).bind (pastMany mark count)

/-- What is behind the first two end marks side by side. -/
def pastPair (mark : α) : List α → Option (List α)
  | [] => none
  | [_] => none
  | first :: second :: behind =>
      if first = mark ∧ second = mark then some behind else pastPair mark (second :: behind)

/-- A list that two end marks side by side end, and no two before. -/
structure Ends (mark : α) (text : List α) : Prop where
  two : 2 ≤ text.length
  pair : ∀ place, text[place]? = some mark ∧ text[place + 1]? = some mark ↔
    place + 2 = text.length

theorem past_isSome_iff (mark : α) (list : List α) :
    (past mark list).isSome ↔ 0 < list.count mark := by
  induction list with
  | nil => simp [past]
  | cons first rest ih =>
      by_cases here : first = mark
      · rw [past, if_pos here, here, List.count_cons_self]
        simp
      · rw [past, if_neg here, ih, List.count_cons_of_ne here]

theorem count_past {list behind : List α} (found : past mark list = some behind) :
    list.count mark = behind.count mark + 1 := by
  induction list with
  | nil => cases found
  | cons first rest ih =>
      by_cases here : first = mark
      · rw [past, if_pos here] at found
        cases found
        rw [here, List.count_cons_self]
      · rw [past, if_neg here] at found
        rw [List.count_cons_of_ne here, ih found]

/-- So many end marks are passed when there are as many. -/
theorem pastMany_isSome_iff (mark : α) (count : Nat) (list : List α) :
    (pastMany mark count list).isSome ↔ count ≤ list.count mark := by
  induction count generalizing list with
  | zero => simp [pastMany]
  | succ count ih =>
      rw [pastMany]
      cases found : past mark list with
      | none =>
          have missing := past_isSome_iff mark list
          rw [found] at missing
          simp only [Option.isSome_none, Bool.false_eq_true, false_iff] at missing
          simp only [Option.bind_none, Option.isSome_none, Bool.false_eq_true, false_iff]
          omega
      | some behind =>
          rw [Option.bind_some, ih, count_past found]
          omega

theorem pastMany_succ (count : Nat) (list : List α) :
    pastMany mark (count + 1) list = (pastMany mark count list).bind (past mark) := by
  induction count generalizing list with
  | zero =>
      change (past mark list).bind some = past mark list
      exact Option.bind_fun_some _
  | succ count ih =>
      rw [pastMany, pastMany, Option.bind_assoc]
      exact congrArg _ (funext ih)

/-! ## Two side by side -/

omit [DecidableEq α] in
/-- An element in front of a list that ends so, without a pair there. -/
theorem ends_cons {first : α} {text : List α} (other : ¬ (first = mark ∧ text[0]? = some mark)) :
    Ends mark (first :: text) ↔ Ends mark text := by
  constructor
  · rintro ⟨two, pair⟩
    have long : 2 ≤ text.length := by
      by_contra short
      have only : 0 + 2 = (first :: text).length := by
        rw [List.length_cons] at two ⊢
        omega
      obtain ⟨start, next⟩ := (pair 0).mpr only
      exact other ⟨Option.some.inj start, next⟩
    exact ⟨long, fun place => by simpa using pair (place + 1)⟩
  · rintro ⟨two, pair⟩
    refine ⟨by rw [List.length_cons]; omega, fun place => ?_⟩
    cases place with
    | zero =>
        refine iff_of_false (fun here => other ⟨Option.some.inj here.1, here.2⟩) ?_
        rw [List.length_cons]
        omega
    | succ place => simpa using pair place

omit [DecidableEq α] in
theorem ends_pair : Ends mark [mark, mark] := by
  refine ⟨le_refl _, fun place => ?_⟩
  cases place with
  | zero => simp
  | succ place => cases place <;> simp

omit [DecidableEq α] in
/-- Nothing is behind the two end marks of such a list. -/
theorem ends_mark_mark {text : List α} (ends : Ends mark (mark :: mark :: text)) : text = [] := by
  have here := (ends.pair 0).mp ⟨rfl, rfl⟩
  exact List.length_eq_zero_iff.mp (by rw [List.length_cons, List.length_cons] at here; omega)

omit [DecidableEq α] in
theorem Ends.eq_cons {text : List α} (ends : Ends mark text) :
    ∃ first second rest, text = first :: second :: rest := by
  have two := ends.two
  rcases text with _ | ⟨first, _ | ⟨second, rest⟩⟩
  · cases two
  · rw [List.length_singleton] at two
    omega
  · exact ⟨first, second, rest, rfl⟩

/-- **The two are found just when such a list is in front.** -/
theorem pastPair_eq_some_iff {list behind : List α} :
    pastPair mark list = some behind ↔ ∃ text, list = text ++ behind ∧ Ends mark text := by
  fun_induction pastPair mark list with
  | case1 =>
      refine iff_of_false nofun ?_
      rintro ⟨text, split, ends⟩
      obtain ⟨first, second, rest, rfl⟩ := ends.eq_cons
      cases split
  | case2 only =>
      refine iff_of_false nofun ?_
      rintro ⟨text, split, ends⟩
      obtain ⟨first, second, rest, rfl⟩ := ends.eq_cons
      cases split
  | case3 first second rest here =>
      rw [here.1, here.2]
      constructor
      · intro found
        cases found
        exact ⟨[mark, mark], rfl, ends_pair⟩
      · rintro ⟨text, split, ends⟩
        obtain ⟨start, next, text, rfl⟩ := ends.eq_cons
        simp only [List.cons_append, List.cons.injEq] at split
        obtain ⟨rfl, rfl, rfl⟩ := split
        rw [ends_mark_mark ends]
        rfl
  | case4 first second rest other ih =>
      have unpaired : ∀ text : List α,
          ¬ (first = mark ∧ (second :: text)[0]? = some mark) := by
        rintro text ⟨same, next⟩
        exact other ⟨same, Option.some.inj next⟩
      rw [ih]
      constructor
      · rintro ⟨text, split, ends⟩
        obtain ⟨start, next, text, rfl⟩ := ends.eq_cons
        simp only [List.cons_append, List.cons.injEq] at split
        obtain ⟨rfl, rfl⟩ := split
        exact ⟨first :: second :: next :: text, rfl, (ends_cons (unpaired _)).mpr ends⟩
      · rintro ⟨text, split, ends⟩
        obtain ⟨start, next, text, rfl⟩ := ends.eq_cons
        simp only [List.cons_append, List.cons.injEq] at split
        obtain ⟨rfl, rfl, rfl⟩ := split
        exact ⟨second :: text, rfl, (ends_cons (unpaired _)).mp ends⟩

/-- At least the two are passed. -/
theorem length_pastPair {list behind : List α} (found : pastPair mark list = some behind) :
    behind.length + 2 ≤ list.length := by
  obtain ⟨text, rfl, ends⟩ := pastPair_eq_some_iff.mp found
  have two := ends.two
  rw [List.length_append]
  omega

end Terminated
