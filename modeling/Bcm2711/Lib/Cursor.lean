import Mathlib

/-! # Searching on behind the last match

A search that is started again behind its last result goes through all matches of a list without
repetitions, in order (`results_eq`).
-/

namespace Cursor

variable {α : Type*} [DecidableEq α] {isMatch : α → Bool} {list : List α}

/-- The first match behind an element. -/
def behind (isMatch : α → Bool) (start : α) : List α → Option α
  | [] => none
  | entry :: rest => if start = entry then rest.find? isMatch else behind isMatch start rest

/-- The results of the searches, each behind the one before. -/
def results (isMatch : α → Bool) (list : List α) : Nat → Option α
  | 0 => list.find? isMatch
  | count + 1 => (results isMatch list count).bind fun last => behind isMatch last list

theorem behind_eq {front back : List α} {start : α} (fresh : start ∉ front) :
    behind isMatch start (front ++ start :: back) = back.find? isMatch := by
  induction front with
  | nil => exact if_pos rfl
  | cons entry front ih =>
      obtain ⟨differs, later⟩ := not_or.mp fun member => fresh (List.mem_cons.mpr member)
      rw [List.cons_append, behind, if_neg differs, ih later]

omit [DecidableEq α] in
/-- The place of a match, and the matches behind it. -/
theorem split_at {count : Nat} {entry : α} (found : (list.filter isMatch)[count]? = some entry) :
    ∃ front back, list = front ++ entry :: back ∧
      back.filter isMatch = (list.filter isMatch).drop (count + 1) := by
  induction list generalizing count with
  | nil => cases found
  | cons first rest ih =>
      by_cases matched : isMatch first = true
      · rw [List.filter_cons_of_pos matched] at found ⊢
        cases count with
        | zero =>
            cases found
            exact ⟨[], rest, rfl, rfl⟩
        | succ count =>
            obtain ⟨front, back, split, behindIt⟩ := ih found
            exact ⟨first :: front, back, congrArg (first :: ·) split, behindIt⟩
      · rw [List.filter_cons_of_neg matched] at found ⊢
        obtain ⟨front, back, split, behindIt⟩ := ih found
        exact ⟨first :: front, back, congrArg (first :: ·) split, behindIt⟩

/-- **Every match is found once and in order**, and then nothing. -/
theorem results_eq (nodup : list.Nodup) (count : Nat) :
    results isMatch list count = (list.filter isMatch)[count]? := by
  induction count with
  | zero => rw [results, ← List.head?_filter, List.head?_eq_getElem?]
  | succ count ih =>
      rw [results, ih]
      rcases found : (list.filter isMatch)[count]? with _ | entry
      · have ended := List.getElem?_eq_none_iff.mp found
        rw [Option.bind_none, List.getElem?_eq_none (by omega)]
      · obtain ⟨front, back, split, behindIt⟩ := split_at found
        have fresh : entry ∉ front := by
          rw [split] at nodup
          intro member
          exact (List.nodup_append.mp nodup).2.2 entry member entry List.mem_cons_self rfl
        have next : behind isMatch entry list = back.find? isMatch := by
          rw [split]
          exact behind_eq fresh
        rw [Option.bind_some, next, ← List.head?_filter, behindIt, List.head?_drop]

end Cursor
