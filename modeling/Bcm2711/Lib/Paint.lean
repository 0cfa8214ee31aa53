import Mathlib

/-! # Painting a window with nested intervals

Intervals of natural numbers are painted one after the other inside a window, each
interval over what was painted before.  When every interval is nested in, or
disjoint from, each earlier one, a new interval either lies inside a single painted
piece, and splits it, or touches none.  `Painted` is the invariant of the list of
pieces: they partition the painted part of the window, and each is owned by the last
interval that contains it.
-/

namespace Paint

/-- A closed interval with the number of the interval that was painted there. -/
@[ext] structure Piece where
  first : Nat
  last : Nat
  owner : Nat
deriving DecidableEq, Repr

/-- The points of a piece. -/
def Piece.toSet (piece : Piece) : Set Nat := Set.Icc piece.first piece.last

theorem Piece.mem_toSet {piece : Piece} {point : Nat} :
    point ∈ piece.toSet ↔ piece.first ≤ point ∧ point ≤ piece.last := Iff.rfl

instance (piece : Piece) (point : Nat) : Decidable (point ∈ piece.toSet) :=
  inferInstanceAs (Decidable (piece.first ≤ point ∧ point ≤ piece.last))

/-- Two pieces share no point, and two pieces of one owner do not touch either. -/
def Apart (left right : Piece) : Prop :=
  if left.owner = right.owner then left.last + 1 < right.first ∨ right.last + 1 < left.first
  else left.last < right.first ∨ right.last < left.first

theorem Apart.symm {left right : Piece} (apart : Apart left right) : Apart right left := by
  unfold Apart at apart ⊢
  grind

instance : Std.Symm Apart := ⟨fun _ _ => Apart.symm⟩

theorem Apart.disjoint {left right : Piece} (apart : Apart left right) :
    Disjoint left.toSet right.toSet := by
  refine Set.disjoint_left.mpr fun point inLeft inRight => ?_
  rw [Piece.mem_toSet] at inLeft inRight
  unfold Apart at apart
  grind

/-- Replacing one member of a pairwise related list by members related to all the others. -/
theorem pairwise_replace {α : Type*} {relation : α → α → Prop}
    (symmetric : ∀ {left right}, relation left right → relation right left)
    {front middle back : List α} {replaced : α}
    (pairwise : (front ++ replaced :: back).Pairwise relation)
    (inner : middle.Pairwise relation)
    (outer : ∀ member ∈ middle, ∀ other ∈ front ++ back,
      relation replaced other → relation member other) :
    (front ++ (middle ++ back)).Pairwise relation := by
  obtain ⟨frontPairwise, backPairwise, across⟩ := List.pairwise_append.mp pairwise
  obtain ⟨behind, backPairwise⟩ := List.pairwise_cons.mp backPairwise
  refine List.pairwise_append.mpr ⟨frontPairwise,
    List.pairwise_append.mpr ⟨inner, backPairwise, ?_⟩, ?_⟩
  · intro member inMiddle other inBack
    exact outer member inMiddle other (List.mem_append_right _ inBack) (behind other inBack)
  · intro other inFront member inRest
    rcases List.mem_append.mp inRest with inMiddle | inBack
    · exact symmetric (outer member inMiddle other (List.mem_append_left _ inFront)
        (symmetric (across other inFront replaced List.mem_cons_self)))
    · exact across other inFront member (List.mem_cons_of_mem _ inBack)

variable {window : Set Nat} {family : Nat → Set Nat} {seen : Set Nat}

/-- The pieces partition the part of the window covered by the intervals seen so far,
and each is owned by the last of them that contains it. -/
structure Painted (window : Set Nat) (family : Nat → Set Nat) (seen : Set Nat)
    (pieces : List Piece) : Prop where
  nonempty : ∀ piece ∈ pieces, piece.first ≤ piece.last
  apart : pieces.Pairwise Apart
  covered : ∀ point, (∃ piece ∈ pieces, point ∈ piece.toSet) ↔
    point ∈ window ∧ ∃ index ∈ seen, point ∈ family index
  owned : ∀ piece ∈ pieces, piece.owner ∈ seen ∧ piece.toSet ⊆ family piece.owner
  aligned : ∀ piece ∈ pieces, ∀ index ∈ seen,
    piece.toSet ⊆ family index ∨ Disjoint piece.toSet (family index)
  latest : ∀ piece ∈ pieces, ∀ index ∈ seen, piece.toSet ⊆ family index → index ≤ piece.owner

/-- Nothing painted. -/
theorem Painted.empty : Painted window family ∅ [] where
  nonempty := fun _ member => (List.not_mem_nil member).elim
  apart := List.Pairwise.nil
  covered := fun _ => ⟨fun ⟨_, member, _⟩ => (List.not_mem_nil member).elim,
    fun ⟨_, _, member, _⟩ => member.elim⟩
  owned := fun _ member => (List.not_mem_nil member).elim
  aligned := fun _ member => (List.not_mem_nil member).elim
  latest := fun _ member => (List.not_mem_nil member).elim

namespace Painted

variable {pieces : List Piece}

theorem subset_window (painted : Painted window family seen pieces) {piece : Piece}
    (member : piece ∈ pieces) : piece.toSet ⊆ window :=
  fun point inside => ((painted.covered point).mp ⟨piece, member, inside⟩).1

theorem first_mem (painted : Painted window family seen pieces) {piece : Piece}
    (member : piece ∈ pieces) : piece.first ∈ piece.toSet :=
  ⟨le_rfl, painted.nonempty piece member⟩

/-- The conditions under which an interval is painted next: it comes after all seen
ones, is nested in or disjoint from each, and the new piece is its part of the window. -/
structure Next (window : Set Nat) (family : Nat → Set Nat) (seen : Set Nat) (piece : Piece) :
    Prop where
  nonempty : piece.first ≤ piece.last
  later : ∀ index ∈ seen, index < piece.owner
  shape : piece.toSet = window ∩ family piece.owner
  laminar : ∀ index ∈ seen,
    family piece.owner ⊆ family index ∨ Disjoint (family piece.owner) (family index)

/-- A piece disjoint from the next one is disjoint from its whole interval. -/
theorem disjoint_family (painted : Painted window family seen pieces) {piece next : Piece}
    (following : Next window family seen next) (member : piece ∈ pieces)
    (disjoint : Disjoint piece.toSet next.toSet) :
    Disjoint piece.toSet (family next.owner) := by
  refine Set.disjoint_left.mpr fun point inside inFamily => ?_
  refine Set.disjoint_left.mp disjoint inside ?_
  rw [following.shape]
  exact ⟨painted.subset_window member inside, inFamily⟩

/-- A new interval whose first point is not painted touches no piece. -/
theorem disjoint_of_first_unpainted (painted : Painted window family seen pieces) {next : Piece}
    (following : Next window family seen next)
    (unpainted : ∀ piece ∈ pieces, next.first ∉ piece.toSet) :
    ∀ index ∈ seen, Disjoint (family next.owner) (family index) := by
  intro index inSeen
  rcases following.laminar index inSeen with nested | disjoint
  · have first : next.first ∈ window ∩ family next.owner := by
      rw [← following.shape]
      exact ⟨le_rfl, following.nonempty⟩
    obtain ⟨piece, member, inside⟩ :=
      (painted.covered next.first).mpr ⟨first.1, index, inSeen, nested first.2⟩
    exact (unpainted piece member inside).elim
  · exact disjoint

/-- **A new interval that touches no piece is added to the list.** -/
theorem append (painted : Painted window family seen pieces) {next : Piece}
    (following : Next window family seen next)
    (unpainted : ∀ piece ∈ pieces, next.first ∉ piece.toSet) :
    Painted window family (insert next.owner seen) (pieces ++ [next]) := by
  have clear := painted.disjoint_of_first_unpainted following unpainted
  have separate : ∀ piece ∈ pieces, Disjoint piece.toSet next.toSet := by
    intro piece member
    have owned := painted.owned piece member
    rw [following.shape]
    exact (clear piece.owner owned.1).symm.mono owned.2 Set.inter_subset_right
  have distinct : ∀ piece ∈ pieces, piece.owner ≠ next.owner := fun piece member =>
    Nat.ne_of_lt (following.later _ (painted.owned piece member).1)
  have inFamily : next.toSet ⊆ family next.owner := by
    rw [following.shape]
    exact Set.inter_subset_right
  refine ⟨?_, ?_, ?_, ?_, ?_, ?_⟩
  · intro piece member
    rcases List.mem_append.mp member with old | new
    · exact painted.nonempty piece old
    · rw [List.mem_singleton.mp new]
      exact following.nonempty
  · refine List.pairwise_append.mpr ⟨painted.apart, List.pairwise_singleton _ _, ?_⟩
    intro piece member other new
    rw [List.mem_singleton.mp new]
    have nonempty := painted.nonempty piece member
    have nextNonempty := following.nonempty
    have apart : piece.last < next.first ∨ next.last < piece.first := by
      by_contra meets
      refine Set.disjoint_left.mp (separate piece member)
        (show max piece.first next.first ∈ piece.toSet from ?_) ?_
      · exact ⟨le_max_left _ _, by omega⟩
      · exact ⟨le_max_right _ _, by omega⟩
    simp only [Apart, distinct piece member, ↓reduceIte]
    exact apart
  · intro point
    have new : point ∈ next.toSet ↔ point ∈ window ∧ point ∈ family next.owner := by
      rw [following.shape]
      rfl
    have old := painted.covered point
    simp only [List.mem_append, List.mem_singleton, Set.mem_insert_iff]
    grind
  · intro piece member
    rcases List.mem_append.mp member with old | new
    · exact ⟨Or.inr (painted.owned piece old).1, (painted.owned piece old).2⟩
    · rw [List.mem_singleton.mp new]
      exact ⟨Or.inl rfl, inFamily⟩
  · intro piece member index inSeen
    rcases List.mem_append.mp member with old | new
    · rcases inSeen with rfl | seenBefore
      · exact Or.inr (painted.disjoint_family following old (separate piece old))
      · exact painted.aligned piece old index seenBefore
    · rw [List.mem_singleton.mp new]
      rcases inSeen with rfl | seenBefore
      · exact Or.inl inFamily
      · exact Or.inr ((clear index seenBefore).mono_left inFamily)
  · intro piece member index inSeen within
    rcases List.mem_append.mp member with old | new
    · rcases inSeen with rfl | seenBefore
      · have first := painted.first_mem old
        exact (Set.disjoint_left.mp (painted.disjoint_family following old (separate piece old))
          first (within first)).elim
      · exact painted.latest piece old index seenBefore within
    · rw [List.mem_singleton.mp new]
      rcases inSeen with rfl | seenBefore
      · exact le_rfl
      · exact le_of_lt (following.later index seenBefore)

/-- **A new interval that starts in a painted piece lies inside it.** -/
theorem subset_of_first_mem (painted : Painted window family seen pieces) {next current : Piece}
    (following : Next window family seen next) (member : current ∈ pieces)
    (starts : next.first ∈ current.toSet) : next.last ≤ current.last := by
  by_contra beyond
  have nonempty := following.nonempty
  have order : current.first ≤ next.first ∧ next.first ≤ current.last := starts
  have firstIn : next.first ∈ window ∩ family next.owner := by
    rw [← following.shape]
    exact ⟨le_rfl, nonempty⟩
  have owned := painted.owned current member
  have nested : family next.owner ⊆ family current.owner := by
    rcases following.laminar current.owner owned.1 with nested | disjoint
    · exact nested
    · exact (Set.disjoint_left.mp disjoint firstIn.2 (owned.2 starts)).elim
  have after : current.last + 1 ∈ window ∩ family next.owner := by
    rw [← following.shape]
    exact ⟨by omega, by omega⟩
  -- The point behind the piece is painted too, by a piece with the same owner.
  obtain ⟨other, otherIn, inOther⟩ :=
    (painted.covered (current.last + 1)).mpr ⟨after.1, current.owner, owned.1, nested after.2⟩
  have otherOwned := painted.owned other otherIn
  have otherNested : family next.owner ⊆ family other.owner := by
    rcases following.laminar other.owner otherOwned.1 with nested | disjoint
    · exact nested
    · exact (Set.disjoint_left.mp disjoint after.2 (otherOwned.2 inOther)).elim
  have currentInOther : current.toSet ⊆ family other.owner := by
    rcases painted.aligned current member other.owner otherOwned.1 with within | disjoint
    · exact within
    · exact (Set.disjoint_left.mp disjoint starts (otherNested firstIn.2)).elim
  have otherInCurrent : other.toSet ⊆ family current.owner := by
    rcases painted.aligned other otherIn current.owner owned.1 with within | disjoint
    · exact within
    · exact (Set.disjoint_left.mp disjoint inOther (nested after.2)).elim
  have sameOwner : current.owner = other.owner :=
    le_antisymm (painted.latest other otherIn current.owner owned.1 otherInCurrent)
      (painted.latest current member other.owner otherOwned.1 currentInOther)
  have inOther : other.first ≤ current.last + 1 ∧ current.last + 1 ≤ other.last := inOther
  have different : current ≠ other := by
    intro same
    rw [same] at inOther
    omega
  have apart : Apart current other := painted.apart.forall member otherIn different
  have otherNonempty := painted.nonempty other otherIn
  unfold Apart at apart
  rw [if_pos sameOwner] at apart
  omega

end Painted

/-- What painting a piece inside another leaves: the head, the new piece and the tail. -/
def overlaid (next current : Piece) : List Piece :=
  (if current.first < next.first then [⟨current.first, next.first - 1, current.owner⟩] else []) ++
    next :: (if next.last < current.last then [⟨next.last + 1, current.last, current.owner⟩]
      else [])

/-- The pieces left by painting inside a piece. -/
theorem mem_over {next current piece : Piece} :
    piece ∈ overlaid next current ↔
      (current.first < next.first ∧ piece = ⟨current.first, next.first - 1, current.owner⟩) ∨
        piece = next ∨
          (next.last < current.last ∧ piece = ⟨next.last + 1, current.last, current.owner⟩) := by
  unfold overlaid
  split_ifs <;> simp [*]

namespace Painted

variable {pieces : List Piece}

theorem over_within {next current piece : Piece} (starts : current.first ≤ next.first)
    (nonempty : next.first ≤ next.last) (ends : next.last ≤ current.last)
    (member : piece ∈ overlaid next current) :
    piece.first ≤ piece.last ∧ current.first ≤ piece.first ∧ piece.last ≤ current.last ∧
      (piece = next ∨ (piece.owner = current.owner ∧
        (piece.last < next.first ∨ next.last < piece.first))) := by
  rcases mem_over.mp member with ⟨before, rfl⟩ | rfl | ⟨after, rfl⟩
  · exact ⟨by simp only; omega, le_rfl, by simp only; omega,
      Or.inr ⟨rfl, Or.inl (by simp only; omega)⟩⟩
  · exact ⟨nonempty, starts, ends, Or.inl rfl⟩
  · exact ⟨by simp only; omega, by simp only; omega, le_rfl,
      Or.inr ⟨rfl, Or.inr (by simp only; omega)⟩⟩

theorem over_pairwise {next current : Piece} (nonempty : next.first ≤ next.last)
    (different : current.owner ≠ next.owner) : (overlaid next current).Pairwise Apart := by
  unfold overlaid
  split_ifs with before after after
  all_goals simp only [List.nil_append, List.singleton_append, List.pairwise_cons,
    List.mem_cons, List.not_mem_nil, or_false, forall_eq_or_imp, forall_eq, Apart]
  all_goals grind

/-- The pieces left by painting inside a piece cover the same points. -/
theorem exists_mem_over {next current : Piece} {point : Nat} (starts : current.first ≤ next.first)
    (nonempty : next.first ≤ next.last) (ends : next.last ≤ current.last) :
    (∃ piece ∈ overlaid next current, point ∈ piece.toSet) ↔
      point ∈ current.toSet ∨ point ∈ next.toSet := by
  simp only [mem_over, Piece.mem_toSet]
  constructor
  · rintro ⟨piece, ⟨before, rfl⟩ | rfl | ⟨after, rfl⟩, inside⟩
    all_goals grind
  · intro inside
    rcases lt_trichotomy point next.first with before | first | after
    · exact ⟨⟨current.first, next.first - 1, current.owner⟩, Or.inl ⟨by omega, rfl⟩, by
        simp only; omega⟩
    · by_cases within : point ≤ next.last
      · exact ⟨next, Or.inr (Or.inl rfl), by omega, within⟩
      · exact ⟨⟨next.last + 1, current.last, current.owner⟩,
          Or.inr (Or.inr ⟨by omega, rfl⟩), by simp only; omega⟩
    · by_cases within : point ≤ next.last
      · exact ⟨next, Or.inr (Or.inl rfl), by omega, within⟩
      · exact ⟨⟨next.last + 1, current.last, current.owner⟩,
          Or.inr (Or.inr ⟨by omega, rfl⟩), by simp only; omega⟩

/-- **A new interval that starts in a painted piece splits it.** -/
theorem split {front back : List Piece} {next current : Piece}
    (painted : Painted window family seen (front ++ current :: back))
    (following : Next window family seen next) (starts : next.first ∈ current.toSet) :
    Painted window family (insert next.owner seen) (front ++ (overlaid next current ++ back)) := by
  have currentIn : current ∈ front ++ current :: back := by simp
  have ends := painted.subset_of_first_mem following currentIn starts
  have nonempty := following.nonempty
  have begins : current.first ≤ next.first := starts.1
  have currentOwned := painted.owned current currentIn
  have different : current.owner ≠ next.owner :=
    Nat.ne_of_lt (following.later _ currentOwned.1)
  have inFamily : next.toSet ⊆ family next.owner := by
    rw [following.shape]
    exact Set.inter_subset_right
  have within : ∀ piece ∈ overlaid next current, piece.toSet ⊆ current.toSet := by
    intro piece member
    obtain ⟨_, low, high, _⟩ := over_within begins nonempty ends member
    exact Set.Icc_subset_Icc low high
  -- Every piece is an old one, the new one, or a leftover disjoint from the new interval.
  have classify : ∀ piece ∈ front ++ (overlaid next current ++ back), piece = next ∨
      ∃ old ∈ front ++ current :: back, piece.owner = old.owner ∧ piece.toSet ⊆ old.toSet ∧
        piece.first ≤ piece.last ∧ Disjoint piece.toSet (family next.owner) := by
    intro piece member
    have old : ∀ {other}, other ∈ front ++ back → Apart other current →
        other ∈ front ++ current :: back ∧ Disjoint other.toSet (family next.owner) := by
      intro other otherIn apart
      have member : other ∈ front ++ current :: back := by
        rcases List.mem_append.mp otherIn with inFront | inBack
        · exact List.mem_append_left _ inFront
        · exact List.mem_append_right _ (List.mem_cons_of_mem _ inBack)
      exact ⟨member, painted.disjoint_family following member
        (apart.disjoint.mono_right (within next (mem_over.mpr (Or.inr (Or.inl rfl)))))⟩
    obtain ⟨_, backApart, across⟩ := List.pairwise_append.mp painted.apart
    obtain ⟨behind, _⟩ := List.pairwise_cons.mp backApart
    rcases List.mem_append.mp member with inFront | inRest
    · obtain ⟨oldIn, disjoint⟩ := old (List.mem_append_left _ inFront)
        (across piece inFront current List.mem_cons_self)
      exact Or.inr ⟨piece, oldIn, rfl, le_rfl, painted.nonempty piece oldIn, disjoint⟩
    · rcases List.mem_append.mp inRest with inOver | inBack
      · obtain ⟨proper, _, _, same | ⟨owner, side⟩⟩ := over_within begins nonempty ends inOver
        · exact Or.inl same
        · refine Or.inr ⟨current, currentIn, owner, within piece inOver, proper, ?_⟩
          refine Set.disjoint_left.mpr fun point inside isFamily => ?_
          have inNext : point ∈ next.toSet := by
            rw [following.shape]
            exact ⟨painted.subset_window currentIn (within piece inOver inside), isFamily⟩
          rw [Piece.mem_toSet] at inside inNext
          omega
      · obtain ⟨oldIn, disjoint⟩ := old (List.mem_append_right _ inBack)
          (behind piece inBack).symm
        exact Or.inr ⟨piece, oldIn, rfl, le_rfl, painted.nonempty piece oldIn, disjoint⟩
  refine ⟨?_, ?_, ?_, ?_, ?_, ?_⟩
  · intro piece member
    rcases classify piece member with rfl | ⟨old, _, _, _, proper, _⟩
    · exact nonempty
    · exact proper
  · refine pairwise_replace Apart.symm painted.apart (over_pairwise nonempty different) ?_
    intro piece inOver other otherIn apart
    have otherOwner : other.owner ≠ next.owner := by
      have member : other ∈ front ++ current :: back := by
        rcases List.mem_append.mp otherIn with inFront | inBack
        · exact List.mem_append_left _ inFront
        · exact List.mem_append_right _ (List.mem_cons_of_mem _ inBack)
      exact Nat.ne_of_lt (following.later _ (painted.owned other member).1)
    obtain ⟨_, low, high, rfl | ⟨owner, _⟩⟩ := over_within begins nonempty ends inOver
    · unfold Apart at apart ⊢
      grind
    · unfold Apart at apart ⊢
      grind
  · intro point
    have new : point ∈ next.toSet ↔ point ∈ window ∧ point ∈ family next.owner := by
      rw [following.shape]
      rfl
    have old := painted.covered point
    have inOver := @exists_mem_over next current point begins nonempty ends
    simp only [List.mem_append, List.mem_cons, Set.mem_insert_iff] at old ⊢
    grind
  · intro piece member
    rcases classify piece member with rfl | ⟨old, oldIn, owner, subset, _, _⟩
    · exact ⟨Or.inl rfl, inFamily⟩
    · rw [owner]
      exact ⟨Or.inr (painted.owned old oldIn).1, subset.trans (painted.owned old oldIn).2⟩
  · intro piece member index inSeen
    rcases classify piece member with rfl | ⟨old, oldIn, _, subset, _, disjoint⟩
    · rcases inSeen with rfl | seenBefore
      · exact Or.inl inFamily
      · rcases painted.aligned current currentIn index seenBefore with inside | apart
        · exact Or.inl ((within _ (mem_over.mpr (Or.inr (Or.inl rfl)))).trans inside)
        · exact Or.inr (apart.mono_left (within _ (mem_over.mpr (Or.inr (Or.inl rfl)))))
    · rcases inSeen with rfl | seenBefore
      · exact Or.inr disjoint
      · rcases painted.aligned old oldIn index seenBefore with inside | apart
        · exact Or.inl (subset.trans inside)
        · exact Or.inr (apart.mono_left subset)
  · intro piece member index inSeen inside
    rcases classify piece member with rfl | ⟨old, oldIn, owner, subset, proper, disjoint⟩
    · rcases inSeen with rfl | seenBefore
      · exact le_rfl
      · exact le_of_lt (following.later index seenBefore)
    · have first : piece.first ∈ piece.toSet := ⟨le_rfl, proper⟩
      rcases inSeen with rfl | seenBefore
      · exact (Set.disjoint_left.mp disjoint first (inside first)).elim
      · rcases painted.aligned old oldIn index seenBefore with whole | apart
        · rw [owner]
          exact painted.latest old oldIn index seenBefore whole
        · exact (Set.disjoint_left.mp apart (subset first) (inside first)).elim

end Painted

end Paint
