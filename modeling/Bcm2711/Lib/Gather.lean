import Mathlib

/-! # Pieces taken in order

A list of pieces of memory is handed out from its front, in chunks that lie in one piece each and
are no longer than a limit.  The chunks make up the cells of the pieces in order
(`Doled.of_chunks`).  Cutting the pieces at equal distances makes chunks that are multiples of a
unit exactly when the distance is and every piece ends at a multiple (`cuts_dvd_iff`).
-/

namespace Gather

/-- A piece of memory. -/
structure Piece where
  start : Nat
  size : Nat
deriving DecidableEq, Repr

/-- The addresses of a piece. -/
def Piece.cells (piece : Piece) : List Nat := List.range' piece.start piece.size

/-- The addresses of pieces, in order. -/
def cells (pieces : List Piece) : List Nat := pieces.flatMap Piece.cells

/-- The size of pieces together. -/
def total (pieces : List Piece) : Nat := (pieces.map Piece.size).sum

/-- No piece is empty. -/
def Proper (pieces : List Piece) : Prop := ∀ piece ∈ pieces, 0 < piece.size

variable {piece : Piece} {pieces : List Piece} {limit size : Nat}

@[simp] theorem length_piece_cells (piece : Piece) : piece.cells.length = piece.size :=
  List.length_range'

@[simp] theorem cells_nil : cells [] = [] := rfl

@[simp] theorem cells_cons (piece : Piece) (pieces : List Piece) :
    cells (piece :: pieces) = piece.cells ++ cells pieces := rfl

@[simp] theorem cells_append (front back : List Piece) :
    cells (front ++ back) = cells front ++ cells back := List.flatMap_append

@[simp] theorem total_nil : total [] = 0 := rfl

@[simp] theorem total_cons (piece : Piece) (pieces : List Piece) :
    total (piece :: pieces) = piece.size + total pieces := rfl

@[simp] theorem length_cells (pieces : List Piece) : (cells pieces).length = total pieces := by
  induction pieces with
  | nil => rfl
  | cons piece pieces ih => rw [cells_cons, List.length_append, length_piece_cells, ih, total_cons]

/-- The beginning of a piece. -/
def Piece.front (piece : Piece) (size : Nat) : Piece := ⟨piece.start, size⟩

/-- What a piece has behind its beginning. -/
def Piece.behind (piece : Piece) (size : Nat) : Piece := ⟨piece.start + size, piece.size - size⟩

/-- A piece is its beginning and what is behind it. -/
theorem Piece.front_behind (fits : size ≤ piece.size) :
    (piece.front size).cells ++ (piece.behind size).cells = piece.cells := by
  have whole : piece.size = size + (piece.size - size) := (Nat.add_sub_cancel' fits).symm
  rw [Piece.cells, Piece.cells, Piece.cells, Piece.front, Piece.behind]
  conv_rhs => rw [whole]
  rw [List.range'_append_1]

theorem proper_cons : Proper (piece :: pieces) ↔ 0 < piece.size ∧ Proper pieces := by
  unfold Proper
  rw [List.forall_mem_cons]

/-- Pieces that are not empty have cells. -/
theorem Proper.cells_ne_nil (proper : Proper pieces) (some : pieces ≠ []) : cells pieces ≠ [] := by
  obtain ⟨piece, pieces, rfl⟩ := List.exists_cons_of_ne_nil some
  intro none
  have length := congrArg List.length none
  rw [length_cells, total_cons, List.length_nil] at length
  have positive := (proper_cons.mp proper).1
  omega

/-! ## Chunks up to limits -/

/-- What is left when a chunk has been taken from the front. -/
def left (limit : Nat) : List Piece → List Piece
  | [] => []
  | piece :: pieces => if piece.size ≤ limit then pieces else piece.behind limit :: pieces

/-- The chunk at the front. -/
def first (limit : Nat) : List Piece → Option Piece
  | [] => none
  | piece :: _ => some (piece.front (min piece.size limit))

/-- The chunks up to limits; there is none where nothing is left. -/
def chunks : (limits : List Nat) → List Piece → List (Option Piece)
  | [], _ => []
  | limit :: limits, pieces => first limit pieces :: chunks limits (left limit pieces)

/-- Something is left for every limit. -/
def Lasts : (limits : List Nat) → List Piece → Prop
  | [], _ => True
  | limit :: limits, pieces => pieces ≠ [] ∧ Lasts limits (left limit pieces)

/-- What is handed out together. -/
def given (returned : List (Option Piece)) : List Nat := cells returned.reduceOption

/-- Pieces are handed out up to limits: in chunks that lie in one piece and are no longer than the
limit, that make up the cells in order, and until there is no more. -/
structure Doled (pieces : List Piece) (limits : List Nat) (returned : List (Option Piece)) :
    Prop where
  length : returned.length = limits.length
  bounded : ∀ (call : Nat) (chunk : Piece) (limit : Nat), returned[call]? = some (some chunk) →
    limits[call]? = some limit → chunk.size ≤ limit
  inside : ∀ chunk : Piece, some chunk ∈ returned → ∃ piece ∈ pieces,
    piece.start ≤ chunk.start ∧ chunk.start + chunk.size ≤ piece.start + piece.size
  inOrder : given returned <+: cells pieces
  complete : ∀ call, returned[call]? = some none → given (returned.take call) = cells pieces
  stops : ∀ call result, returned[call]? = some result →
    given (returned.take call) = cells pieces → result = none

theorem Proper.left (proper : Proper pieces) (limit : Nat) : Proper (left limit pieces) := by
  cases pieces with
  | nil => exact proper
  | cons piece pieces =>
      obtain ⟨positive, others⟩ := proper_cons.mp proper
      rw [Gather.left]
      split
      · exact others
      · next longer => exact proper_cons.mpr ⟨Nat.sub_pos_of_lt (not_le.mp longer), others⟩

/-- The chunk and what is left make up the pieces. -/
theorem first_left (limit : Nat) (pieces : List Piece) :
    cells (first limit pieces).toList ++ cells (left limit pieces) = cells pieces := by
  cases pieces with
  | nil => rfl
  | cons piece pieces =>
      rw [first, left, Option.toList_some, cells_cons, cells_nil, List.append_nil]
      split
      · next short => rw [min_eq_left short]; rfl
      · next longer =>
          have fits : limit ≤ piece.size := (not_le.mp longer).le
          rw [min_eq_right fits, cells_cons, ← List.append_assoc, Piece.front_behind fits,
            cells_cons]

theorem given_cons (result : Option Piece) (returned : List (Option Piece)) :
    given (result :: returned) = cells result.toList ++ given returned := by
  cases result with
  | none => rfl
  | some chunk => rw [given, List.reduceOption_cons_of_some, cells_cons]; simp [given]

/-- What is left lies inside the pieces. -/
theorem left_inside (inner : Piece) (member : inner ∈ left limit pieces) :
    ∃ piece ∈ pieces, piece.start ≤ inner.start ∧
      inner.start + inner.size ≤ piece.start + piece.size := by
  cases pieces with
  | nil => exact absurd member List.not_mem_nil
  | cons piece pieces =>
      rw [left] at member
      split at member
      · exact ⟨inner, List.mem_cons_of_mem _ member, le_rfl, le_rfl⟩
      · next longer =>
          rcases List.mem_cons.mp member with rfl | member
          · refine ⟨piece, List.mem_cons_self, Nat.le_add_right _ _, ?_⟩
            have fits := (not_le.mp longer).le
            dsimp only [Piece.behind]
            omega
          · exact ⟨inner, List.mem_cons_of_mem _ member, le_rfl, le_rfl⟩

theorem first_inside (taken : first limit pieces = some piece) :
    piece.size ≤ limit ∧ ∃ whole ∈ pieces, whole.start ≤ piece.start ∧
      piece.start + piece.size ≤ whole.start + whole.size := by
  cases pieces with
  | nil => cases taken
  | cons whole pieces =>
      obtain rfl := Option.some.inj taken
      exact ⟨min_le_right _ _, whole, List.mem_cons_self, le_rfl,
        Nat.add_le_add_left (min_le_left _ _) _⟩

/-- The chunks of proper pieces are handed out as they should be. -/
theorem Doled.of_chunks (proper : Proper pieces) (limits : List Nat) :
    Doled pieces limits (chunks limits pieces) := by
  induction limits generalizing pieces with
  | nil =>
      refine ⟨rfl, ?_, ?_, List.nil_prefix, ?_, ?_⟩
      · intro call chunk limit taken
        cases taken
      · intro chunk member
        cases member
      · intro call taken
        cases taken
      · intro call result taken
        cases taken
  | cons limit limits ih =>
      have later := ih (proper.left limit)
      have whole := first_left limit pieces
      refine ⟨?_, ?_, ?_, ?_, ?_, ?_⟩
      · rw [chunks, List.length_cons, List.length_cons, later.length]
      · intro call taken bound returned limited
        cases call with
        | zero =>
            have front : first limit pieces = some taken := Option.some.inj returned
            obtain rfl := Option.some.inj limited
            exact (first_inside front).1
        | succ call => exact later.bounded call taken bound returned limited
      · intro taken member
        rcases List.mem_cons.mp member with front | member
        · exact (first_inside front.symm).2
        · obtain ⟨inner, inLeft, low, high⟩ := later.inside taken member
          obtain ⟨piece, inPieces, lower, higher⟩ := left_inside inner inLeft
          exact ⟨piece, inPieces, lower.trans low, high.trans higher⟩
      · rw [chunks, given_cons, ← whole]
        exact (List.prefix_append_right_inj _).mpr later.inOrder
      · intro call none
        cases call with
        | zero =>
            have empty : first limit pieces = Option.none := Option.some.inj none
            cases pieces with
            | nil => rfl
            | cons piece pieces => cases empty
        | succ call =>
            rw [chunks, List.take_succ_cons, given_cons, later.complete call none, whole]
      · intro call result returned all
        cases call with
        | zero =>
            have front : first limit pieces = result := Option.some.inj returned
            have empty : pieces = [] := by
              by_contra some
              exact proper.cells_ne_nil some all.symm
            rw [← front, empty]
            rfl
        | succ call =>
            rw [chunks, List.take_succ_cons, given_cons, ← whole] at all
            exact later.stops call result returned (List.append_cancel_left all)

/-! ## Cuts at equal distances -/

/-- Cut pieces behind so many cells: the chunks in front of the cut, and what is behind it. -/
def cut : (size : Nat) → List Piece → List Piece × List Piece
  | _, [] => ([], [])
  | size, piece :: pieces =>
      if size = 0 then ([], piece :: pieces)
      else if piece.size ≤ size then
        (piece :: (cut (size - piece.size) pieces).1, (cut (size - piece.size) pieces).2)
      else ([piece.front size], piece.behind size :: pieces)

/-- Cut so many times. -/
def cuts (size : Nat) : (times : Nat) → List Piece → List Piece × List Piece
  | 0, pieces => ([], pieces)
  | times + 1, pieces =>
      ((cut size pieces).1 ++ (cuts size times (cut size pieces).2).1,
        (cuts size times (cut size pieces).2).2)

theorem cut_cons (size : Nat) (piece : Piece) (pieces : List Piece) :
    cut size (piece :: pieces) =
      if size = 0 then ([], piece :: pieces)
      else if piece.size ≤ size then
        (piece :: (cut (size - piece.size) pieces).1, (cut (size - piece.size) pieces).2)
      else ([piece.front size], piece.behind size :: pieces) := rfl

theorem cuts_zero (size : Nat) (pieces : List Piece) : cuts size 0 pieces = ([], pieces) := rfl

theorem cuts_succ (size times : Nat) (pieces : List Piece) :
    cuts size (times + 1) pieces =
      ((cut size pieces).1 ++ (cuts size times (cut size pieces).2).1,
        (cuts size times (cut size pieces).2).2) := rfl

/-- Up to so many cells every piece ends at a multiple of the unit. -/
def EndsAligned (unit size : Nat) (pieces : List Piece) : Prop :=
  ∀ count, total (pieces.take count) ≤ size → unit ∣ total (pieces.take count)

/-- The chunks and what is behind the cut make up the pieces. -/
theorem cut_cells (size : Nat) (pieces : List Piece) :
    cells (cut size pieces).1 ++ cells (cut size pieces).2 = cells pieces := by
  induction pieces generalizing size with
  | nil => rfl
  | cons piece pieces ih =>
      rw [cut_cons]
      split
      · rfl
      · split
        · rw [cells_cons, List.append_assoc, ih, cells_cons]
        · next longer =>
            rw [cells_cons, cells_nil, List.append_nil, cells_cons, ← List.append_assoc,
              Piece.front_behind (not_le.mp longer).le, cells_cons]

/-- There are as many cells in front of a cut as it is told. -/
theorem cut_total (enough : size ≤ total pieces) : total (cut size pieces).1 = size := by
  induction pieces generalizing size with
  | nil => exact (Nat.le_zero.mp enough).symm
  | cons piece pieces ih =>
      rw [cut_cons]
      split
      · next none => exact none.symm
      · split
        · next short =>
            have fewer : size - piece.size ≤ total pieces := by
              rw [total_cons] at enough
              omega
            rw [total_cons, ih fewer]
            exact Nat.add_sub_cancel' short
        · rfl

theorem Proper.cut (proper : Proper pieces) (size : Nat) : Proper (Gather.cut size pieces).2 := by
  induction pieces generalizing size with
  | nil => exact proper
  | cons piece pieces ih =>
      obtain ⟨positive, others⟩ := proper_cons.mp proper
      rw [cut_cons]
      split
      · exact proper
      · split
        · exact ih others _
        · next longer => exact proper_cons.mpr ⟨Nat.sub_pos_of_lt (not_le.mp longer), others⟩

/-- The cells that the cuts leave behind. -/
theorem cut_left (enough : size ≤ total pieces) :
    total (cut size pieces).2 = total pieces - size := by
  have both := congrArg List.length (cut_cells size pieces)
  rw [List.length_append, length_cells, length_cells, length_cells, cut_total enough] at both
  omega

/-- The cells that equal cuts leave behind. -/
theorem cuts_left (times : Nat) (enough : times * size ≤ total pieces) :
    total (cuts size times pieces).2 = total pieces - times * size := by
  induction times generalizing pieces with
  | zero => rw [cuts_zero, Nat.zero_mul, Nat.sub_zero]
  | succ times ih =>
      rw [Nat.succ_mul] at enough
      have one : size ≤ total pieces := (Nat.le_add_left _ _).trans enough
      have others : times * size ≤ total (cut size pieces).2 := by
        rw [cut_left one]
        exact Nat.le_sub_of_add_le enough
      rw [cuts_succ, ih others, cut_left one, Nat.succ_mul, Nat.sub_sub, Nat.add_comm size]

/-- Cuts after cuts are cuts. -/
theorem cuts_add (first more : Nat) :
    cuts size (first + more) pieces =
      ((cuts size first pieces).1 ++ (cuts size more (cuts size first pieces).2).1,
        (cuts size more (cuts size first pieces).2).2) := by
  induction first generalizing pieces with
  | zero => rw [Nat.zero_add, cuts_zero, List.nil_append]
  | succ first ih => rw [Nat.succ_add, cuts_succ, ih, cuts_succ, List.append_assoc]

/-- The chunks in front of the cuts are the cells in front of the last. -/
theorem cuts_cells (times : Nat) (enough : times * size ≤ total pieces) :
    cells (cuts size times pieces).1 = (cells pieces).take (times * size) := by
  induction times generalizing pieces with
  | zero => rw [cuts_zero, Nat.zero_mul, List.take_zero, cells_nil]
  | succ times ih =>
      rw [Nat.succ_mul] at enough
      have one : size ≤ total pieces := (Nat.le_add_left _ _).trans enough
      have others : times * size ≤ total (cut size pieces).2 := by
        rw [cut_left one]
        omega
      have length : (cells (cut size pieces).1).length = size := by rw [length_cells, cut_total one]
      rw [cuts_succ, cells_append, ih others, ← cut_cells size pieces, Nat.succ_mul, Nat.add_comm]
      conv_rhs => rw [← length]
      rw [length, List.take_append, length, Nat.add_sub_cancel_left]
      congr 1
      rw [List.take_of_length_le]
      rw [length]
      exact Nat.le_add_right _ _

section Aligned

variable {unit : Nat}

theorem endsAligned_short (longer : size < piece.size) :
    EndsAligned unit size (piece :: pieces) := by
  intro count fits
  cases count with
  | zero => exact dvd_zero _
  | succ count =>
      rw [List.take_succ_cons, total_cons] at fits
      exact absurd ((Nat.le_add_right _ _).trans fits) (not_le.mpr longer)

theorem endsAligned_cons (short : piece.size ≤ size) :
    EndsAligned unit size (piece :: pieces) ↔
      unit ∣ piece.size ∧ EndsAligned unit (size - piece.size) pieces := by
  constructor
  · intro aligned
    have first : unit ∣ piece.size := by
      have one := aligned 1
      rw [List.take_succ_cons, List.take_zero, total_cons, total_nil, Nat.add_zero] at one
      exact one short
    refine ⟨first, fun count fits => ?_⟩
    have more := aligned (count + 1)
    rw [List.take_succ_cons, total_cons] at more
    exact (Nat.dvd_add_right first).mp (more (by omega))
  · rintro ⟨first, aligned⟩ count fits
    cases count with
    | zero => exact dvd_zero _
    | succ count =>
        rw [List.take_succ_cons, total_cons] at fits ⊢
        exact dvd_add first (aligned count (by omega))

/-- Where the pieces end is told by the cells in front of a cut and those behind it. -/
theorem endsAligned_cut (enough : size ≤ total pieces) (divides : unit ∣ size) (more : Nat) :
    EndsAligned unit (size + more) pieces ↔
      EndsAligned unit size pieces ∧ EndsAligned unit more (cut size pieces).2 := by
  induction pieces generalizing size with
  | nil =>
      have none : ∀ size, EndsAligned unit size [] := by
        intro size count _
        rw [List.take_nil]
        exact dvd_zero _
      exact iff_of_true (none _) ⟨none _, none _⟩
  | cons piece pieces ih =>
      rw [cut_cons]
      split
      · next none =>
          have trivial : EndsAligned unit size (piece :: pieces) := by
            intro count fits
            rw [none] at fits
            rw [Nat.le_zero.mp fits]
            exact dvd_zero _
          rw [none, Nat.zero_add, and_iff_right (none ▸ trivial)]
      · split
        · next short =>
            have fewer : size - piece.size ≤ total pieces := by
              rw [total_cons] at enough
              omega
            have shifted : size + more - piece.size = size - piece.size + more :=
              Nat.sub_add_comm short
            rw [endsAligned_cons (short.trans (Nat.le_add_right _ _)), endsAligned_cons short,
              shifted, and_assoc]
            refine and_congr_right fun first => ?_
            exact ih fewer (Nat.dvd_sub divides first)
        · next longer =>
            have long : size < piece.size := not_le.mp longer
            rw [and_iff_right (endsAligned_short long)]
            by_cases fits : piece.size ≤ size + more
            · have behind : (piece.behind size).size ≤ more := by
                dsimp only [Piece.behind]
                omega
              have rest : more - (piece.behind size).size = size + more - piece.size := by
                dsimp only [Piece.behind]
                omega
              have whole : piece.size = size + (piece.behind size).size :=
                (Nat.add_sub_cancel' long.le).symm
              rw [endsAligned_cons fits, endsAligned_cons behind, rest]
              refine and_congr_left fun _ => ?_
              rw [whole, Nat.dvd_add_right divides]
            · have behind : more < (piece.behind size).size := by
                dsimp only [Piece.behind]
                omega
              exact iff_of_true (endsAligned_short (not_le.mp fits)) (endsAligned_short behind)

/-- The chunks in front of a cut are multiples of the unit exactly when the cut is at one and the
pieces end at one. -/
theorem cut_dvd_iff (enough : size ≤ total pieces) :
    (∀ chunk ∈ (cut size pieces).1, unit ∣ chunk.size) ↔
      unit ∣ size ∧ EndsAligned unit size pieces := by
  induction pieces generalizing size with
  | nil =>
      obtain rfl := Nat.le_zero.mp enough
      refine iff_of_true (fun chunk member => absurd member List.not_mem_nil) ⟨dvd_zero _, ?_⟩
      intro count _
      rw [List.take_nil]
      exact dvd_zero _
  | cons piece pieces ih =>
      rw [cut_cons]
      split
      · next none =>
          refine iff_of_true (fun chunk member => absurd member List.not_mem_nil) ?_
          rw [none]
          refine ⟨dvd_zero _, fun count fits => ?_⟩
          rw [Nat.le_zero.mp fits]
          exact dvd_zero _
      · split
        · next short =>
            have fewer : size - piece.size ≤ total pieces := by
              rw [total_cons] at enough
              omega
            rw [List.forall_mem_cons, ih fewer, endsAligned_cons short]
            constructor
            · rintro ⟨first, divides, aligned⟩
              rw [← Nat.sub_add_cancel short]
              exact ⟨dvd_add divides first, first, by rwa [Nat.add_sub_cancel]⟩
            · rintro ⟨divides, first, aligned⟩
              exact ⟨first, Nat.dvd_sub divides first, aligned⟩
        · next longer =>
            rw [List.forall_mem_singleton, and_iff_left (endsAligned_short (not_le.mp longer))]
            rfl

/-- The chunks of equal cuts are multiples of the unit exactly when their distance is and the pieces
end at multiples. -/
theorem cuts_dvd_iff (times : Nat) (enough : times * size ≤ total pieces) :
    (∀ chunk ∈ (cuts size times pieces).1, unit ∣ chunk.size) ↔
      (0 < times → unit ∣ size) ∧ EndsAligned unit (times * size) pieces := by
  induction times generalizing pieces with
  | zero =>
      refine iff_of_true (fun chunk member => absurd member List.not_mem_nil)
        ⟨fun some => absurd some (lt_irrefl 0), fun count fits => ?_⟩
      rw [Nat.zero_mul] at fits
      rw [Nat.le_zero.mp fits]
      exact dvd_zero _
  | succ times ih =>
      rw [Nat.succ_mul] at enough
      have one : size ≤ total pieces := (Nat.le_add_left _ _).trans enough
      have others : times * size ≤ total (cut size pieces).2 := by
        rw [cut_left one]
        omega
      rw [cuts, List.forall_mem_append, cut_dvd_iff one, ih others, Nat.succ_mul,
        Nat.add_comm (times * size)]
      constructor
      · rintro ⟨⟨divides, aligned⟩, _, later⟩
        exact ⟨fun _ => divides, (endsAligned_cut one divides _).mpr ⟨aligned, later⟩⟩
      · rintro ⟨divides, aligned⟩
        have every := divides (Nat.succ_pos _)
        obtain ⟨now, later⟩ := (endsAligned_cut one every _).mp aligned
        exact ⟨⟨every, now⟩, fun _ => every, later⟩

end Aligned

section Trimmed

variable {unit : Nat}

/-- As much of a chunk as is a multiple of the unit. -/
def trimmed (unit : Nat) (chunk : Piece) : Piece := chunk.front (unit * (chunk.size / unit))

theorem trimmed_size_le (chunk : Piece) : (trimmed unit chunk).size ≤ chunk.size :=
  Nat.mul_div_le _ _

theorem total_trimmed_le (chunks : List Piece) :
    total (chunks.map (trimmed unit)) ≤ total chunks := by
  induction chunks with
  | nil => exact le_rfl
  | cons chunk chunks ih =>
      rw [List.map_cons, total_cons, total_cons]
      exact Nat.add_le_add (trimmed_size_le chunk) ih

/-- Trimmed chunks hold all cells only if the chunks are multiples of the unit. -/
theorem cells_trimmed_iff (chunks : List Piece) :
    cells (chunks.map (trimmed unit)) = cells chunks ↔ ∀ chunk ∈ chunks, unit ∣ chunk.size := by
  constructor
  · intro same
    have sizes := congrArg List.length same
    rw [length_cells, length_cells] at sizes
    clear same
    induction chunks with
    | nil => exact fun chunk member => absurd member List.not_mem_nil
    | cons chunk chunks ih =>
        rw [List.map_cons, total_cons, total_cons] at sizes
        have front := @trimmed_size_le unit chunk
        have others := @total_trimmed_le unit chunks
        have whole : (trimmed unit chunk).size = chunk.size := by omega
        rw [List.forall_mem_cons]
        exact ⟨⟨_, whole.symm⟩, ih (by omega)⟩
  · intro divides
    congr 1
    conv_rhs => rw [← List.map_id chunks]
    apply List.map_congr_left
    intro chunk member
    rw [trimmed, Nat.mul_div_cancel' (divides chunk member)]
    rfl

end Trimmed

end Gather
