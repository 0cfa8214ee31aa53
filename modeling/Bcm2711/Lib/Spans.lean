import Mathlib

/-! # Lists of half-open spans of a linear order

A list of spans is *separated* when every span is nonempty and each ends strictly
before the next begins, so that neighbours neither overlap nor touch.  A separated
list is the canonical form of the set it covers (`Separated.eq_of_cover_eq`).
Inserting a span and coalescing restores the canonical form and covers the union
(`separated_coalesce`, `cover_coalesce`); replacing each span by separated pieces
of itself keeps it (`Separated.flatMap`).
-/

namespace Spans

/-- A half-open span `[lo, hi)`. -/
@[ext] structure Span (α : Type*) where
  lo : α
  hi : α
deriving DecidableEq, Repr

variable {α : Type*} [LinearOrder α]

/-- The elements of a span. -/
def Span.toSet (span : Span α) : Set α := Set.Ico span.lo span.hi

/-- The elements covered by a list of spans. -/
def cover (spans : List (Span α)) : Set α := {point | ∃ span ∈ spans, point ∈ span.toSet}

@[simp] theorem cover_nil : cover ([] : List (Span α)) = ∅ := by
  ext point
  simp [cover]

@[simp] theorem cover_cons (span : Span α) (rest : List (Span α)) :
    cover (span :: rest) = Set.Ico span.lo span.hi ∪ cover rest := by
  ext point
  simp [cover, Span.toSet]

@[simp] theorem cover_append (front back : List (Span α)) :
    cover (front ++ back) = cover front ∪ cover back := by
  ext point
  simp only [cover, List.mem_append, Set.mem_ofPred_eq, Set.mem_union]
  constructor
  · rintro ⟨span, inFront | inBack, inside⟩
    · exact Or.inl ⟨span, inFront, inside⟩
    · exact Or.inr ⟨span, inBack, inside⟩
  · rintro (⟨span, inFront, inside⟩ | ⟨span, inBack, inside⟩)
    · exact ⟨span, Or.inl inFront, inside⟩
    · exact ⟨span, Or.inr inBack, inside⟩

theorem mem_cover {spans : List (Span α)} {point : α} :
    point ∈ cover spans ↔ ∃ span ∈ spans, span.lo ≤ point ∧ point < span.hi := Iff.rfl

/-- Every span is nonempty and ends strictly before each later one begins. -/
structure Separated (spans : List (Span α)) : Prop where
  proper : ∀ span ∈ spans, span.lo < span.hi
  gaps : spans.Pairwise fun earlier later => earlier.hi < later.lo

theorem separated_nil : Separated ([] : List (Span α)) :=
  ⟨fun _ member => (List.not_mem_nil member).elim, List.Pairwise.nil⟩

theorem separated_cons {span : Span α} {rest : List (Span α)} :
    Separated (span :: rest) ↔
      span.lo < span.hi ∧ (∀ later ∈ rest, span.hi < later.lo) ∧ Separated rest := by
  constructor
  · intro separated
    obtain ⟨before, gaps⟩ := List.pairwise_cons.mp separated.gaps
    exact ⟨separated.proper span List.mem_cons_self, before,
      fun later member => separated.proper later (List.mem_cons_of_mem _ member), gaps⟩
  · rintro ⟨proper, before, rest⟩
    refine ⟨?_, List.pairwise_cons.mpr ⟨before, rest.gaps⟩⟩
    intro other member
    rcases List.mem_cons.mp member with rfl | inRest
    · exact proper
    · exact rest.proper other inRest

theorem separated_append {front back : List (Span α)} :
    Separated (front ++ back) ↔
      Separated front ∧ Separated back ∧
        ∀ earlier ∈ front, ∀ later ∈ back, earlier.hi < later.lo := by
  constructor
  · intro separated
    obtain ⟨frontGaps, backGaps, across⟩ := List.pairwise_append.mp separated.gaps
    exact ⟨⟨fun span member => separated.proper span (List.mem_append_left _ member), frontGaps⟩,
      ⟨fun span member => separated.proper span (List.mem_append_right _ member), backGaps⟩,
      across⟩
  · rintro ⟨frontSeparated, backSeparated, across⟩
    refine ⟨?_, List.pairwise_append.mpr ⟨frontSeparated.gaps, backSeparated.gaps, across⟩⟩
    intro span member
    rcases List.mem_append.mp member with inFront | inBack
    · exact frontSeparated.proper span inFront
    · exact backSeparated.proper span inBack

/-- No covered element lies below a bound that every span starts above. -/
theorem le_of_mem_cover {spans : List (Span α)} {bound point : α}
    (above : ∀ span ∈ spans, bound < span.lo) (covered : point ∈ cover spans) :
    bound < point := by
  obtain ⟨span, member, starts, _⟩ := covered
  exact lt_of_lt_of_le (above span member) starts

/-- The first span of a separated list starts at the least covered element. -/
theorem Separated.head_le {span : Span α} {rest : List (Span α)}
    (separated : Separated (span :: rest)) {point : α} (covered : point ∈ cover (span :: rest)) :
    span.lo ≤ point := by
  obtain ⟨proper, before, _⟩ := separated_cons.mp separated
  rw [cover_cons] at covered
  rcases covered with here | later
  · exact here.1
  · exact le_of_lt (proper.trans (le_of_mem_cover before later))

/-- The end of the first span of a separated list is not covered. -/
theorem Separated.head_hi_not_mem {span : Span α} {rest : List (Span α)}
    (separated : Separated (span :: rest)) : span.hi ∉ cover (span :: rest) := by
  obtain ⟨_, before, _⟩ := separated_cons.mp separated
  rw [cover_cons]
  rintro (here | later)
  · exact lt_irrefl _ here.2
  · exact lt_irrefl _ (le_of_mem_cover before later)

/-- The tail of a separated list covers what the head does not. -/
theorem Separated.cover_tail {span : Span α} {rest : List (Span α)}
    (separated : Separated (span :: rest)) :
    cover rest = cover (span :: rest) \ Set.Ico span.lo span.hi := by
  obtain ⟨_, before, _⟩ := separated_cons.mp separated
  ext point
  rw [cover_cons]
  constructor
  · intro later
    exact ⟨Or.inr later, fun here => lt_asymm here.2 (le_of_mem_cover before later)⟩
  · rintro ⟨here | later, outside⟩
    · exact (outside here).elim
    · exact later

private theorem Separated.head_hi_le {first second : Span α} {firsts seconds : List (Span α)}
    (left : Separated (first :: firsts)) (start : first.lo = second.lo)
    (same : cover (first :: firsts) = cover (second :: seconds)) : second.hi ≤ first.hi := by
  by_contra longer
  have shorter : first.hi < second.hi := lt_of_not_ge longer
  have proper := (separated_cons.mp left).1
  apply left.head_hi_not_mem
  rw [same, cover_cons]
  exact Or.inl ⟨start ▸ le_of_lt proper, shorter⟩

/-- **Canonical form.** Two separated lists that cover the same set are equal. -/
theorem Separated.eq_of_cover_eq {firsts seconds : List (Span α)} (left : Separated firsts)
    (right : Separated seconds) (same : cover firsts = cover seconds) : firsts = seconds := by
  induction firsts generalizing seconds with
  | nil =>
      cases seconds with
      | nil => rfl
      | cons second rest =>
          have inside : second.lo ∈ cover (second :: rest) := by
            rw [cover_cons]
            exact Or.inl ⟨le_rfl, (separated_cons.mp right).1⟩
          rw [← same, cover_nil] at inside
          exact inside.elim
  | cons first firsts ih =>
      cases seconds with
      | nil =>
          have inside : first.lo ∈ cover (first :: firsts) := by
            rw [cover_cons]
            exact Or.inl ⟨le_rfl, (separated_cons.mp left).1⟩
          rw [same, cover_nil] at inside
          exact inside.elim
      | cons second seconds =>
          have firstIn : first.lo ∈ cover (first :: firsts) := by
            rw [cover_cons]
            exact Or.inl ⟨le_rfl, (separated_cons.mp left).1⟩
          have secondIn : second.lo ∈ cover (second :: seconds) := by
            rw [cover_cons]
            exact Or.inl ⟨le_rfl, (separated_cons.mp right).1⟩
          have start : first.lo = second.lo :=
            le_antisymm (left.head_le (same ▸ secondIn)) (right.head_le (same ▸ firstIn))
          have stop : first.hi = second.hi :=
            le_antisymm (right.head_hi_le start.symm same.symm)
              (left.head_hi_le start same)
          have heads : first = second := Span.ext start stop
          subst heads
          rw [ih (separated_cons.mp left).2.2 (separated_cons.mp right).2.2
            (by rw [left.cover_tail, right.cover_tail, same])]

/-! ## Insertion and coalescing -/

/-- Insert a span before the first one that starts after it. -/
def insert (span : Span α) : List (Span α) → List (Span α)
  | [] => [span]
  | head :: rest => if span.lo < head.lo then span :: head :: rest else head :: insert span rest

/-- Merge the spans of a list, in order, into a running span while they overlap or
touch it. -/
def coalesce (running : Span α) : List (Span α) → List (Span α)
  | [] => [running]
  | next :: rest =>
      if next.lo ≤ running.hi then coalesce ⟨running.lo, max running.hi next.hi⟩ rest
      else running :: coalesce next rest

theorem insert_before {span head : Span α} {rest : List (Span α)} (before : span.lo < head.lo) :
    insert span (head :: rest) = span :: head :: rest := if_pos before

theorem insert_after {span head : Span α} {rest : List (Span α)}
    (after : ¬ span.lo < head.lo) : insert span (head :: rest) = head :: insert span rest :=
  if_neg after

theorem coalesce_touching {running next : Span α} {rest : List (Span α)}
    (touching : next.lo ≤ running.hi) :
    coalesce running (next :: rest) = coalesce ⟨running.lo, max running.hi next.hi⟩ rest :=
  if_pos touching

theorem coalesce_apart {running next : Span α} {rest : List (Span α)}
    (apart : ¬ next.lo ≤ running.hi) :
    coalesce running (next :: rest) = running :: coalesce next rest := if_neg apart

/-- Starting points do not decrease along the list. -/
def Ascending (spans : List (Span α)) : Prop :=
  spans.Pairwise fun earlier later => earlier.lo ≤ later.lo

theorem Separated.ascending {spans : List (Span α)} (separated : Separated spans) :
    Ascending spans := by
  induction spans with
  | nil => exact List.Pairwise.nil
  | cons span rest ih =>
      obtain ⟨proper, before, tail⟩ := separated_cons.mp separated
      exact List.pairwise_cons.mpr
        ⟨fun later member => le_of_lt (proper.trans (before later member)), ih tail⟩

theorem mem_insert {span other : Span α} {spans : List (Span α)} :
    other ∈ insert span spans ↔ other = span ∨ other ∈ spans := by
  induction spans with
  | nil => simp [insert]
  | cons head rest ih =>
      by_cases before : span.lo < head.lo
      · rw [insert_before before, List.mem_cons]
      · rw [insert_after before, List.mem_cons, List.mem_cons, ih]
        exact or_left_comm

theorem insert_ne_nil (span : Span α) (spans : List (Span α)) : insert span spans ≠ [] := by
  intro empty
  have member : span ∈ insert span spans := mem_insert.mpr (Or.inl rfl)
  rw [empty] at member
  exact List.not_mem_nil member

/-- Insertion keeps the starting points in order. -/
theorem Ascending.insert {span : Span α} {spans : List (Span α)} (ascending : Ascending spans) :
    Ascending (insert span spans) := by
  induction spans with
  | nil => exact List.pairwise_singleton _ _
  | cons head rest ih =>
      obtain ⟨first, tail⟩ := List.pairwise_cons.mp ascending
      by_cases before : span.lo < head.lo
      · rw [insert_before before]
        refine List.pairwise_cons.mpr ⟨?_, ascending⟩
        intro later member
        rcases List.mem_cons.mp member with rfl | inRest
        · exact le_of_lt before
        · exact (le_of_lt before).trans (first later inRest)
      · rw [insert_after before]
        refine List.pairwise_cons.mpr ⟨?_, ih tail⟩
        intro later member
        rcases mem_insert.mp member with rfl | inRest
        · exact le_of_not_gt before
        · exact first later inRest

/-- Insertion covers the union. -/
theorem cover_insert (span : Span α) (spans : List (Span α)) :
    cover (insert span spans) = cover spans ∪ Set.Ico span.lo span.hi := by
  ext point
  simp only [cover, Set.mem_ofPred_eq, Set.mem_union, mem_insert]
  constructor
  · rintro ⟨other, rfl | member, inside⟩
    · exact Or.inr inside
    · exact Or.inl ⟨other, member, inside⟩
  · rintro (⟨other, member, inside⟩ | inside)
    · exact ⟨other, Or.inr member, inside⟩
    · exact ⟨span, Or.inl rfl, inside⟩

/-- Two overlapping or touching spans, the first starting first, cover together the
span up to the larger end. -/
theorem Ico_union_of_touching {first second : Span α} (order : first.lo ≤ second.lo)
    (touching : second.lo ≤ first.hi) :
    Set.Ico first.lo first.hi ∪ Set.Ico second.lo second.hi =
      Set.Ico first.lo (max first.hi second.hi) := by
  ext point
  simp only [Set.mem_union, Set.mem_Ico, lt_max_iff]
  constructor
  · rintro (⟨starts, ends⟩ | ⟨starts, ends⟩)
    · exact ⟨starts, Or.inl ends⟩
    · exact ⟨order.trans starts, Or.inr ends⟩
  · rintro ⟨starts, ends | ends⟩
    · exact Or.inl ⟨starts, ends⟩
    · rcases lt_or_ge point first.hi with inside | beyond
      · exact Or.inl ⟨starts, inside⟩
      · exact Or.inr ⟨touching.trans beyond, ends⟩

/-- Coalescing an ascending list covers the same set. -/
theorem cover_coalesce {running : Span α} {spans : List (Span α)}
    (ascending : Ascending (running :: spans)) :
    cover (coalesce running spans) = cover (running :: spans) := by
  induction spans generalizing running with
  | nil => rfl
  | cons next rest ih =>
      obtain ⟨first, tail⟩ := List.pairwise_cons.mp ascending
      have order : running.lo ≤ next.lo := first next List.mem_cons_self
      by_cases touching : next.lo ≤ running.hi
      · rw [coalesce_touching touching]
        rw [ih, cover_cons, cover_cons, cover_cons, ← Set.union_assoc]
        · rw [Ico_union_of_touching order touching]
        · refine List.pairwise_cons.mpr ⟨?_, (List.pairwise_cons.mp tail).2⟩
          intro later member
          exact first later (List.mem_cons_of_mem _ member)
      · rw [coalesce_apart touching]
        rw [cover_cons, ih tail, cover_cons running]

/-- Every span of a coalesced ascending list starts at or after the running span. -/
theorem lo_le_of_mem_coalesce {running other : Span α} {spans : List (Span α)}
    (ascending : Ascending (running :: spans)) (member : other ∈ coalesce running spans) :
    running.lo ≤ other.lo := by
  induction spans generalizing running with
  | nil =>
      rw [List.mem_singleton.mp member]
  | cons next rest ih =>
      obtain ⟨first, tail⟩ := List.pairwise_cons.mp ascending
      by_cases touching : next.lo ≤ running.hi
      · rw [coalesce_touching touching] at member
        refine @ih ⟨running.lo, max running.hi next.hi⟩ ?_ member
        refine List.pairwise_cons.mpr ⟨?_, (List.pairwise_cons.mp tail).2⟩
        intro later inRest
        exact first later (List.mem_cons_of_mem _ inRest)
      · rw [coalesce_apart touching] at member
        rcases List.mem_cons.mp member with rfl | later
        · exact le_rfl
        · exact (first next List.mem_cons_self).trans (ih tail later)

/-- **Coalescing restores the canonical form** of an ascending list of nonempty spans. -/
theorem separated_coalesce {running : Span α} {spans : List (Span α)}
    (ascending : Ascending (running :: spans))
    (proper : ∀ span ∈ running :: spans, span.lo < span.hi) :
    Separated (coalesce running spans) := by
  induction spans generalizing running with
  | nil => exact separated_cons.mpr ⟨proper running List.mem_cons_self,
      fun _ member => (List.not_mem_nil member).elim, separated_nil⟩
  | cons next rest ih =>
      obtain ⟨first, tail⟩ := List.pairwise_cons.mp ascending
      by_cases touching : next.lo ≤ running.hi
      · rw [coalesce_touching touching]
        apply ih
        · refine List.pairwise_cons.mpr ⟨?_, (List.pairwise_cons.mp tail).2⟩
          intro later member
          exact first later (List.mem_cons_of_mem _ member)
        · intro span member
          rcases List.mem_cons.mp member with rfl | inRest
          · exact lt_max_of_lt_left (proper running List.mem_cons_self)
          · exact proper span (List.mem_cons_of_mem _ (List.mem_cons_of_mem _ inRest))
      · rw [coalesce_apart touching]
        refine separated_cons.mpr ⟨proper running List.mem_cons_self, ?_, ?_⟩
        · intro later member
          exact lt_of_lt_of_le (lt_of_not_ge touching) (lo_le_of_mem_coalesce tail member)
        · exact ih tail fun span member => proper span (List.mem_cons_of_mem _ member)

/-- Insert a span and coalesce. -/
def add (span : Span α) (spans : List (Span α)) : List (Span α) :=
  match insert span spans with
  | [] => []
  | first :: rest => coalesce first rest

theorem length_insert (span : Span α) (spans : List (Span α)) :
    (insert span spans).length = spans.length + 1 := by
  induction spans with
  | nil => rfl
  | cons head rest ih =>
      by_cases before : span.lo < head.lo
      · rw [insert_before before, List.length_cons, List.length_cons]
      · rw [insert_after before, List.length_cons, List.length_cons, ih]

theorem length_coalesce_le (running : Span α) (spans : List (Span α)) :
    (coalesce running spans).length ≤ spans.length + 1 := by
  induction spans generalizing running with
  | nil => exact le_refl _
  | cons next rest ih =>
      by_cases touching : next.lo ≤ running.hi
      · rw [coalesce_touching touching, List.length_cons]
        exact (ih _).trans (Nat.le_succ _)
      · rw [coalesce_apart touching, List.length_cons, List.length_cons]
        exact Nat.succ_le_succ (ih _)

/-- Adding a span adds at most one to the list. -/
theorem length_add_le (span : Span α) (spans : List (Span α)) :
    (add span spans).length ≤ spans.length + 1 := by
  have length := length_insert span spans
  unfold add
  cases inserted : insert span spans with
  | nil => exact Nat.zero_le _
  | cons first rest =>
      rw [inserted, List.length_cons] at length
      have merged := length_coalesce_le first rest
      simp only
      omega

/-- Adding a nonempty span keeps the list canonical. -/
theorem Separated.add {span : Span α} {spans : List (Span α)} (separated : Separated spans)
    (proper : span.lo < span.hi) : Separated (add span spans) := by
  unfold Spans.add
  cases inserted : Spans.insert span spans with
  | nil => exact (insert_ne_nil span spans inserted).elim
  | cons first rest =>
      apply separated_coalesce
      · exact inserted ▸ separated.ascending.insert
      · intro other member
        rw [← inserted] at member
        rcases mem_insert.mp member with rfl | old
        · exact proper
        · exact separated.proper other old

/-- Adding a span covers the union. -/
theorem Separated.cover_add {span : Span α} {spans : List (Span α)} (separated : Separated spans) :
    cover (Spans.add span spans) = cover spans ∪ Set.Ico span.lo span.hi := by
  unfold Spans.add
  cases inserted : Spans.insert span spans with
  | nil => exact (insert_ne_nil span spans inserted).elim
  | cons first rest =>
      dsimp only
      rw [cover_coalesce (inserted ▸ separated.ascending.insert), ← inserted, cover_insert]

/-! ## Replacing spans by pieces of themselves -/

/-- Replacing each span of a separated list by separated pieces of itself keeps the
list separated. -/
theorem Separated.flatMap {spans : List (Span α)} (separated : Separated spans)
    {pieces : Span α → List (Span α)}
    (separatedPieces : ∀ span ∈ spans, Separated (pieces span))
    (within : ∀ span ∈ spans, ∀ piece ∈ pieces span, span.lo ≤ piece.lo ∧ piece.hi ≤ span.hi) :
    Separated (spans.flatMap pieces) := by
  induction spans with
  | nil => exact separated_nil
  | cons span rest ih =>
      obtain ⟨_, before, tail⟩ := separated_cons.mp separated
      rw [List.flatMap_cons]
      refine separated_append.mpr ⟨separatedPieces span List.mem_cons_self,
        ih tail (fun other member => separatedPieces other (List.mem_cons_of_mem _ member))
          (fun other member => within other (List.mem_cons_of_mem _ member)), ?_⟩
      intro earlier inHead later inRest
      obtain ⟨source, sourceIn, pieceIn⟩ := List.mem_flatMap.mp inRest
      calc earlier.hi ≤ span.hi := (within span List.mem_cons_self earlier inHead).2
        _ < source.lo := before source sourceIn
        _ ≤ later.lo := (within source (List.mem_cons_of_mem _ sourceIn) later pieceIn).1

/-- The cover of a list whose spans are replaced by pieces is the union of the covers
of the pieces. -/
theorem cover_flatMap (spans : List (Span α)) (pieces : Span α → List (Span α)) :
    cover (spans.flatMap pieces) = {point | ∃ span ∈ spans, point ∈ cover (pieces span)} := by
  ext point
  simp only [cover, List.mem_flatMap, Set.mem_ofPred_eq]
  constructor
  · rintro ⟨piece, ⟨span, member, isPiece⟩, inside⟩
    exact ⟨span, member, piece, isPiece, inside⟩
  · rintro ⟨span, member, piece, isPiece, inside⟩
    exact ⟨piece, ⟨span, member, isPiece⟩, inside⟩

/-- What is left of a span when `[lo, hi)` is taken away from it. -/
def cut (lo hi : α) (span : Span α) : List (Span α) :=
  if hi ≤ span.lo ∨ span.hi ≤ lo ∨ hi ≤ lo then [span]
  else (if span.lo < lo then [⟨span.lo, lo⟩] else []) ++
    (if hi < span.hi then [⟨hi, span.hi⟩] else [])

theorem cover_cut (lo hi : α) (span : Span α) :
    cover (cut lo hi span) = Set.Ico span.lo span.hi \ Set.Ico lo hi := by
  ext point
  simp only [cut, Set.mem_sdiff, Set.mem_Ico, not_and, not_lt]
  split_ifs with apart left right right
  all_goals simp only [cover_append, cover_cons, cover_nil, Set.union_empty, Set.empty_union,
    Set.mem_union, Set.mem_Ico, Set.mem_empty_iff_false, false_iff]
  all_goals grind

theorem separated_cut {lo hi : α} {span : Span α} (proper : span.lo < span.hi) :
    Separated (cut lo hi span) := by
  unfold cut
  split_ifs with apart left right right
  · exact separated_cons.mpr ⟨proper, fun _ member => (List.not_mem_nil member).elim, separated_nil⟩
  all_goals simp only [not_or, not_le] at apart
  · refine separated_cons.mpr ⟨left, ?_, separated_cons.mpr ⟨right,
      fun _ member => (List.not_mem_nil member).elim, separated_nil⟩⟩
    intro later member
    rw [List.mem_singleton.mp member]
    exact apart.2.2
  · exact separated_cons.mpr ⟨left, fun _ member => (List.not_mem_nil member).elim, separated_nil⟩
  · exact separated_cons.mpr ⟨right, fun _ member => (List.not_mem_nil member).elim, separated_nil⟩
  · exact separated_nil

theorem cut_within {lo hi : α} {span piece : Span α} (member : piece ∈ cut lo hi span) :
    span.lo ≤ piece.lo ∧ piece.hi ≤ span.hi := by
  unfold cut at member
  split_ifs at member with apart left right right
  all_goals grind

theorem cut_length_le (lo hi : α) (span : Span α) : (cut lo hi span).length ≤ 2 := by
  unfold cut
  split_ifs <;> simp

theorem length_flatMap_cut_le (spans : List (Span α)) (lo hi : α) :
    (spans.flatMap (cut lo hi)).length ≤ 2 * spans.length := by
  induction spans with
  | nil => exact Nat.le_refl 0
  | cons span rest ih =>
      have head := cut_length_le lo hi span
      rw [List.flatMap_cons, List.length_append, List.length_cons]
      omega

/-- What is left after taking `[lo, hi)` away is left whole the second time. -/
theorem cut_of_mem_cut {lo hi : α} {span piece : Span α} (member : piece ∈ cut lo hi span) :
    cut lo hi piece = [piece] := by
  have apart : hi ≤ piece.lo ∨ piece.hi ≤ lo ∨ hi ≤ lo := by
    unfold cut at member
    split_ifs at member <;> grind
  simp only [cut, apart, ↓reduceIte]

/-- Ending one span of a separated list earlier. -/
theorem Separated.trim {front rest : List (Span α)} {span : Span α} {stop : α}
    (separated : Separated (front ++ span :: rest)) (inside : span.lo < stop)
    (earlier : stop ≤ span.hi) : Separated (front ++ ⟨span.lo, stop⟩ :: rest) := by
  obtain ⟨frontSep, backSep, across⟩ := separated_append.mp separated
  obtain ⟨_, before, restSep⟩ := separated_cons.mp backSep
  refine separated_append.mpr ⟨frontSep, separated_cons.mpr ⟨inside, ?_, restSep⟩, ?_⟩
  · intro later member
    exact lt_of_le_of_lt earlier (before later member)
  · intro first inFront later member
    rcases List.mem_cons.mp member with rfl | inRest
    · exact across first inFront span List.mem_cons_self
    · exact across first inFront later (List.mem_cons_of_mem _ inRest)

/-- Replacing one span of a separated list by what `[lo, hi)` leaves of it. -/
theorem Separated.replace {front rest : List (Span α)} {span : Span α}
    (separated : Separated (front ++ span :: rest)) (lo hi : α) :
    Separated (front ++ (Spans.cut lo hi span ++ rest)) := by
  obtain ⟨frontSep, backSep, across⟩ := separated_append.mp separated
  obtain ⟨proper, before, restSep⟩ := separated_cons.mp backSep
  refine separated_append.mpr ⟨frontSep, separated_append.mpr
    ⟨separated_cut proper, restSep, ?_⟩, ?_⟩
  · intro earlier inCut later inRest
    exact lt_of_le_of_lt (cut_within inCut).2 (before later inRest)
  · intro earlier inFront later member
    rcases List.mem_append.mp member with inCut | inRest
    · exact lt_of_lt_of_le (across earlier inFront span List.mem_cons_self) (cut_within inCut).1
    · exact across earlier inFront later (List.mem_cons_of_mem _ inRest)

/-- Taking `[lo, hi)` away from every span of a separated list keeps it separated. -/
theorem Separated.cut {spans : List (Span α)} (separated : Separated spans) (lo hi : α) :
    Separated (spans.flatMap (Spans.cut lo hi)) :=
  separated.flatMap (fun span member => separated_cut (separated.proper span member))
    fun _ _ _ isPiece => cut_within isPiece

/-- Taking `[lo, hi)` away from every span of a list takes it away from the cover. -/
theorem cover_flatMap_cut (spans : List (Span α)) (lo hi : α) :
    cover (spans.flatMap (cut lo hi)) = cover spans \ Set.Ico lo hi := by
  rw [cover_flatMap]
  ext point
  simp only [cover_cut, Set.mem_ofPred_eq, Set.mem_sdiff, mem_cover, Set.mem_Ico]
  constructor
  · rintro ⟨span, member, inside, outside⟩
    exact ⟨⟨span, member, inside⟩, outside⟩
  · rintro ⟨⟨span, member, inside⟩, outside⟩
    exact ⟨span, member, inside, outside⟩

end Spans
