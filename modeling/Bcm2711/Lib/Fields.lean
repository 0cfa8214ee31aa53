import Mathlib

/-! # Fields between separators

A text is split at its separators into fields, of which the empty ones do not count (`tokens`).
A scanner takes the first field off and goes on behind the separator that follows it (`first`
and `behind`).  A list of fields is itself split into groups at a mark: taking the fields up to
the mark again and again gives the groups in order (`takeGroup_eq`).
-/

namespace Fields

variable {α : Type*} [DecidableEq α] {sep mark : α} {text : List α}

/-- The fields of a text that are not empty. -/
def tokens (sep : α) (text : List α) : List (List α) := (text.splitOn sep).filter (· ≠ [])

/-- The first field that is not empty. -/
def first (sep : α) (text : List α) : List α :=
  (text.dropWhile (· = sep)).takeWhile (· ≠ sep)

/-- What is behind the separator that ends the first field. -/
def behind (sep : α) (text : List α) : List α :=
  ((text.dropWhile (· = sep)).dropWhile (· ≠ sep)).tail

/-! ## Tokens -/

theorem tokens_append_cons (sep : α) (front back : List α) :
    tokens sep (front ++ sep :: back) = tokens sep front ++ tokens sep back := by
  unfold tokens
  rw [← List.filter_append]
  refine congrArg (List.filter _) ?_
  exact List.splitOnP_append_cons front back (beq_self_eq_true sep)

theorem tokens_nil (sep : α) : tokens sep ([] : List α) = [] := by
  simp [tokens]

theorem tokens_cons_sep (sep : α) (text : List α) :
    tokens sep (sep :: text) = tokens sep text := by
  have split := tokens_append_cons sep [] text
  rw [tokens_nil] at split
  exact split

/-- A text without separators is one field. -/
theorem tokens_of_not_mem (nonempty : text ≠ []) (free : sep ∉ text) :
    tokens sep text = [text] := by
  have whole : text.splitOn sep = [text] := by
    refine List.splitOnP_eq_singleton ?_
    intro char member
    exact beq_eq_false_iff_ne.mpr fun isSep => free (isSep ▸ member)
  rw [tokens, whole]
  simp [nonempty]

theorem tokens_dropWhile (sep : α) (text : List α) :
    tokens sep (text.dropWhile (· = sep)) = tokens sep text := by
  induction text with
  | nil => rfl
  | cons char text ih =>
      by_cases isSep : char = sep
      · subst isSep
        rw [List.dropWhile_cons_of_pos (by simp), ih, tokens_cons_sep]
      · rw [List.dropWhile_cons_of_neg (by simpa using isSep)]

theorem sep_not_mem_first : sep ∉ first sep text := by
  intro member
  have other := List.mem_takeWhile_imp member
  simp at other

/-- There is no field in separators alone. -/
theorem first_eq_nil_iff : first sep text = [] ↔ text.dropWhile (· = sep) = [] := by
  unfold first
  constructor
  · intro isEmpty
    rcases starts : text.dropWhile (· = sep) with _ | ⟨char, rest⟩
    · rfl
    · have notSep := List.head?_dropWhile_not (· = sep) text
      rw [starts] at notSep isEmpty
      simp at notSep isEmpty
      exact absurd isEmpty notSep
  · intro nothing
    rw [nothing]
    rfl

/-- What follows the first field begins with a separator. -/
theorem dropWhile_cons_eq {char : α} {rest : List α}
    (ends : (text.dropWhile (· = sep)).dropWhile (· ≠ sep) = char :: rest) : char = sep := by
  have stop := List.head?_dropWhile_not (· ≠ sep) (text.dropWhile (· = sep))
  rw [ends] at stop
  simpa using stop

/-- The first field is taken off, and the others are those of the rest. -/
theorem tokens_eq (sep : α) (text : List α) :
    tokens sep text =
      if first sep text = [] then [] else first sep text :: tokens sep (behind sep text) := by
  have split : first sep text ++ (text.dropWhile (· = sep)).dropWhile (· ≠ sep) =
      text.dropWhile (· = sep) := List.takeWhile_append_dropWhile
  rw [← tokens_dropWhile]
  by_cases isEmpty : first sep text = []
  · rw [if_pos isEmpty]
    have nothing := first_eq_nil_iff.mp isEmpty
    rw [nothing, tokens_nil]
  · rw [if_neg isEmpty, ← split, behind]
    rcases ends : (text.dropWhile (· = sep)).dropWhile (· ≠ sep) with _ | ⟨char, rest⟩
    · rw [List.append_nil, List.tail_nil, tokens_nil]
      exact tokens_of_not_mem isEmpty sep_not_mem_first
    · rw [dropWhile_cons_eq ends, tokens_append_cons,
        tokens_of_not_mem isEmpty sep_not_mem_first, List.tail_cons]
      rfl

theorem first_isInfix (sep : α) (text : List α) : first sep text <:+: text :=
  (List.takeWhile_prefix _).isInfix.trans (List.dropWhile_suffix _).isInfix

theorem behind_suffix (sep : α) (text : List α) : behind sep text <:+ text :=
  (List.tail_suffix _).trans ((List.dropWhile_suffix _).trans (List.dropWhile_suffix _))

/-- Taking a field off leaves less. -/
theorem length_behind_lt (nonempty : first sep text ≠ []) :
    (behind sep text).length < text.length := by
  have taken : 0 < (first sep text).length := List.length_pos_iff.mpr nonempty
  have split := congrArg List.length
    (List.takeWhile_append_dropWhile (p := (· ≠ sep)) (l := text.dropWhile (· = sep)))
  rw [List.length_append] at split
  have dropped := (List.dropWhile_suffix (· = sep) (l := text)).length_le
  change (first sep text).length + _ = _ at split
  rw [behind, List.length_tail]
  omega

/-- The fields are parts of the text. -/
theorem infix_of_mem_tokens {field : List α} (member : field ∈ tokens sep text) :
    field <:+: text := by
  induction size : text.length using Nat.strong_induction_on generalizing text with
  | _ size ih =>
      rw [tokens_eq] at member
      by_cases isEmpty : first sep text = []
      · rw [if_pos isEmpty] at member
        exact absurd member List.not_mem_nil
      · rw [if_neg isEmpty] at member
        rcases List.mem_cons.mp member with rfl | later
        · exact first_isInfix sep text
        · have shorter := length_behind_lt isEmpty
          have within := ih _ (size ▸ shorter) later rfl
          exact within.trans (behind_suffix sep text).isInfix

/-! ## Groups -/

/-- The parts of a list between its marks. -/
def groups (mark : α) (list : List α) : List (List α) := list.splitOn mark

/-- What is left of a list behind its first mark. -/
def dropGroup (mark : α) (list : List α) : List α := (list.dropWhile (· ≠ mark)).tail

/-- The groups of a list: the first one, and those behind the mark, if there is one. -/
theorem groups_eq (mark : α) (list : List α) :
    groups mark list = list.takeWhile (· ≠ mark) ::
      if mark ∈ list then groups mark (dropGroup mark list) else [] := by
  unfold groups
  have split : list.takeWhile (· ≠ mark) ++ list.dropWhile (· ≠ mark) = list :=
    List.takeWhile_append_dropWhile
  have free : ∀ char ∈ list.takeWhile (· ≠ mark), (char == mark) = false := by
    intro char member
    have other := List.mem_takeWhile_imp member
    simpa using other
  rcases ends : list.dropWhile (· ≠ mark) with _ | ⟨char, rest⟩
  · rw [ends, List.append_nil] at split
    have noMark : mark ∉ list := by
      rw [← split]
      intro member
      have other := free mark member
      simp at other
    rw [if_neg noMark, split]
    rw [split] at free
    exact List.splitOnP_eq_singleton free
  · have isMark : char = mark := by
      have stop := List.head?_dropWhile_not (· ≠ mark) list
      rw [ends] at stop
      simpa using stop
    rw [ends, isMark] at split
    have present : mark ∈ list := by
      rw [← split]
      simp
    rw [if_pos present, dropGroup, ends, List.tail_cons]
    have parts : (list.takeWhile (· ≠ mark) ++ mark :: rest).splitOn mark =
        (list.takeWhile (· ≠ mark)).splitOn mark ++ rest.splitOn mark :=
      List.splitOnP_append_cons _ _ (beq_self_eq_true mark)
    have single : (list.takeWhile (· ≠ mark)).splitOn mark = [list.takeWhile (· ≠ mark)] :=
      List.splitOnP_eq_singleton free
    rw [split, single] at parts
    exact parts

/-- Taking a group off again and again gives the groups in order, and then nothing. -/
theorem takeGroup_eq (mark : α) (list : List α) (index : Nat) :
    ((dropGroup mark)^[index] list).takeWhile (· ≠ mark) =
      (groups mark list).getD index [] := by
  induction index generalizing list with
  | zero => rw [groups_eq, List.getD_cons_zero, Function.iterate_zero_apply]
  | succ index ih =>
      rw [groups_eq, List.getD_cons_succ, Function.iterate_succ_apply, ih]
      by_cases present : mark ∈ list
      · rw [if_pos present]
      · have nothing : dropGroup mark list = [] := by
          have all : list.dropWhile (· ≠ mark) = [] := by
            refine List.dropWhile_eq_nil_iff.mpr ?_
            intro char member
            simpa using fun isMark : char = mark => present (isMark ▸ member)
          rw [dropGroup, all]
          rfl
        rw [if_neg present, nothing, List.getD_nil, ← ih, Function.iterate_fixed rfl]
        rfl

end Fields
