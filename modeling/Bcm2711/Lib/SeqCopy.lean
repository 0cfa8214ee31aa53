import Mathlib

/-! # Copies made one after the other

A move copies the content of one address to another, and a list of moves is made in order,
each of them reading what the earlier ones left.  The `origin` of an address is the address
whose first content it holds in the end.
-/

namespace SeqCopy

/-- A copy of one cell. -/
structure Move (α : Type*) where
  src : α
  dst : α
deriving DecidableEq, Repr

variable {α β γ : Type*} [DecidableEq α]

/-- The memory after a list of moves. -/
def run : List (Move α) → (α → β) → α → β
  | [], memory => memory
  | move :: rest, memory => run rest (Function.update memory move.dst (memory move.src))

theorem run_cons (move : Move α) (rest : List (Move α)) (memory : α → β) :
    run (move :: rest) memory = run rest (Function.update memory move.dst (memory move.src)) := rfl

/-- What is not written keeps its content. -/
theorem run_unwritten {moves : List (Move α)} {address : α}
    (unwritten : ∀ move ∈ moves, move.dst ≠ address) (memory : α → β) :
    run moves memory address = memory address := by
  induction moves generalizing memory with
  | nil => rfl
  | cons move rest ih =>
      have elsewhere : address ≠ move.dst := (unwritten move List.mem_cons_self).symm
      rw [run_cons, ih fun later member => unwritten later (List.mem_cons_of_mem _ member),
        Function.update_of_ne elsewhere]

/-- Moves do not look at what they copy. -/
theorem run_comp (moves : List (Move α)) (convert : β → γ) (memory : α → β) (address : α) :
    run moves (fun place => convert (memory place)) address =
      convert (run moves memory address) := by
  induction moves generalizing memory with
  | nil => rfl
  | cons move rest ih =>
      rw [run_cons, run_cons, ← ih]
      congr 1
      funext place
      by_cases here : place = move.dst
      · rw [here, Function.update_self, Function.update_self]
      · rw [Function.update_of_ne here, Function.update_of_ne here]

/-- The address whose first content is at an address in the end. -/
def origin (moves : List (Move α)) : α → α := run moves id

theorem run_eq_origin (moves : List (Move α)) (memory : α → β) (address : α) :
    run moves memory address = memory (origin moves address) :=
  run_comp moves memory id address

/-- Contents that can differ tell where they came from. -/
theorem origin_eq_of_run [Nontrivial β] {moves : List (Move α)} {address source : α}
    (copied : ∀ memory : α → β, run moves memory address = memory source) :
    origin moves address = source := by
  obtain ⟨one, other, differ⟩ := exists_pair_ne β
  by_contra elsewhere
  have here := copied fun place => if place = source then one else other
  rw [run_eq_origin, if_neg elsewhere, if_pos rfl] at here
  exact differ here.symm

/-- What holds another content than at first was written. -/
theorem written_of_origin_ne {moves : List (Move α)} {address : α}
    (moved : origin moves address ≠ address) : ∃ move ∈ moves, move.dst = address := by
  by_contra unwritten
  apply moved
  apply run_unwritten
  intro move member here
  exact unwritten ⟨move, member, here⟩

/-- Moves to different places that read nothing written bring each source to its place. -/
theorem run_dst {moves : List (Move α)} (nodup : (moves.map Move.dst).Nodup)
    (apart : ∀ one ∈ moves, ∀ other ∈ moves, one.src ≠ other.dst) {move : Move α}
    (member : move ∈ moves) (memory : α → β) :
    run moves memory move.dst = memory move.src := by
  induction moves generalizing memory with
  | nil => exact absurd member List.not_mem_nil
  | cons first rest ih =>
      rw [List.map_cons, List.nodup_cons] at nodup
      rw [run_cons]
      rcases List.mem_cons.mp member with same | later
      · have unwritten : ∀ other ∈ rest, other.dst ≠ first.dst := by
          intro other otherMember here
          exact nodup.1 (List.mem_map.mpr ⟨other, otherMember, here⟩)
        rw [same, run_unwritten unwritten, Function.update_self]
      · have source : move.src ≠ first.dst := apart move member first List.mem_cons_self
        rw [ih nodup.2 (fun one oneMember other otherMember =>
          apart one (List.mem_cons_of_mem _ oneMember) other (List.mem_cons_of_mem _ otherMember))
          later, Function.update_of_ne source]

/-- The moves from some addresses to as many others, in order. -/
def pair (sources places : List α) : List (Move α) := List.zipWith Move.mk sources places

omit [DecidableEq α] in
theorem pair_append {one other places rest : List α} (lengths : one.length = places.length) :
    pair (one ++ other) (places ++ rest) = pair one places ++ pair other rest :=
  List.zipWith_append lengths

omit [DecidableEq α] in
theorem map_src_pair {sources places : List α} (lengths : sources.length = places.length) :
    (pair sources places).map Move.src = sources := by
  apply List.ext_getElem
  · simp [pair, lengths]
  · intro index _ _
    simp [pair]

omit [DecidableEq α] in
theorem map_dst_pair {sources places : List α} (lengths : sources.length = places.length) :
    (pair sources places).map Move.dst = places := by
  apply List.ext_getElem
  · simp [pair, lengths]
  · intro index _ _
    simp [pair]

omit [DecidableEq α] in
/-- A move of a pairing goes between two addresses of the same index. -/
theorem getElem?_of_mem_pair {sources places : List α} {move : Move α}
    (member : move ∈ pair sources places) :
    ∃ index : Nat, sources[index]? = some move.src ∧ places[index]? = some move.dst := by
  obtain ⟨index, there⟩ := List.getElem?_of_mem member
  obtain ⟨source, place, isSource, isPlace, rfl⟩ := List.getElem?_zipWith_eq_some.mp there
  exact ⟨index, isSource, isPlace⟩

omit [DecidableEq α] in
theorem mem_pair {sources places : List α} {move : Move α} (member : move ∈ pair sources places) :
    move.src ∈ sources ∧ move.dst ∈ places := by
  obtain ⟨index, source, place⟩ := getElem?_of_mem_pair member
  exact ⟨List.mem_of_getElem? source, List.mem_of_getElem? place⟩

omit [DecidableEq α] in
/-- Joined moves are the moves between the joined lists. -/
theorem flatMap_pair {indices : List γ} {sources places : γ → List α}
    (lengths : ∀ index ∈ indices, (sources index).length = (places index).length) :
    (indices.flatMap fun index => pair (sources index) (places index)) =
      pair (indices.flatMap sources) (indices.flatMap places) := by
  induction indices with
  | nil => rfl
  | cons index rest ih =>
      rw [List.flatMap_cons, List.flatMap_cons, List.flatMap_cons,
        pair_append (lengths index List.mem_cons_self),
        ih fun other member => lengths other (List.mem_cons_of_mem _ member)]

/-- Moves in order to different places apart from the sources copy all the sources. -/
theorem run_pair {sources places : List α} (lengths : sources.length = places.length)
    (nodup : places.Nodup) (apart : ∀ source ∈ sources, source ∉ places) (memory : α → β) :
    places.map (run (pair sources places) memory) = sources.map memory := by
  have each : ∀ move ∈ pair sources places,
      run (pair sources places) memory move.dst = memory move.src := by
    intro move member
    refine run_dst ?_ ?_ member memory
    · rw [map_dst_pair lengths]
      exact nodup
    · intro one oneMember other otherMember same
      apply apart one.src (mem_pair oneMember).1
      rw [same]
      exact (mem_pair otherMember).2
  calc places.map (run (pair sources places) memory)
      = ((pair sources places).map Move.dst).map (run (pair sources places) memory) := by
        rw [map_dst_pair lengths]
    _ = ((pair sources places).map Move.src).map memory := by
        rw [List.map_map, List.map_map]
        exact List.map_congr_left each
    _ = sources.map memory := by rw [map_src_pair lengths]

/-- Contents that can differ tell where all places were copied from. -/
theorem map_origin_of_run [Nontrivial β] {moves : List (Move α)} {sources places : List α}
    (copied : ∀ memory : α → β, places.map (run moves memory) = sources.map memory) :
    places.map (origin moves) = sources := by
  obtain ⟨content, _, _⟩ := exists_pair_ne β
  have lengths : places.length = sources.length := by
    have same := congrArg List.length (copied fun _ => content)
    rw [List.length_map, List.length_map] at same
    exact same
  apply List.ext_getElem
  · rw [List.length_map]
    exact lengths
  · intro index inside outside
    rw [List.getElem_map]
    apply @origin_eq_of_run α β
    intro memory
    have bound : index < places.length := by
      rw [lengths]
      exact outside
    have here : (places.map (run moves memory))[index]? = (sources.map memory)[index]? := by
      rw [copied memory]
    rw [List.getElem?_map, List.getElem?_map, List.getElem?_eq_getElem bound,
      List.getElem?_eq_getElem outside] at here
    exact Option.some.inj here

/-- No more moves than places, which copy all sources to them, are the moves in order. -/
theorem mem_pair_of_copied {moves : List (Move α)} {sources places : List α}
    (nodup : places.Nodup) (apart : ∀ source ∈ sources, source ∉ places)
    (reads : ∀ move ∈ moves, move.src ∈ sources)
    (copied : places.map (origin moves) = sources) (few : moves.length ≤ places.length)
    {move : Move α} (member : move ∈ moves) : move ∈ pair sources places := by
  have written : places ⊆ moves.map Move.dst := by
    intro place isPlace
    have source : origin moves place ∈ sources := by
      rw [← copied]
      exact List.mem_map_of_mem isPlace
    have moved : origin moves place ≠ place := by
      intro same
      rw [same] at source
      exact apart place source isPlace
    obtain ⟨writer, isMove, same⟩ := written_of_origin_ne moved
    exact List.mem_map.mpr ⟨writer, isMove, same⟩
  have shuffled : places.Perm (moves.map Move.dst) := by
    apply (List.subperm_of_subset nodup written).perm_of_length_le
    rw [List.length_map]
    exact few
  have distinct : (moves.map Move.dst).Nodup := shuffled.nodup_iff.mp nodup
  have isPlace : move.dst ∈ places := shuffled.mem_iff.mpr (List.mem_map_of_mem member)
  have fromSource : origin moves move.dst = move.src := by
    refine run_dst distinct ?_ member id
    intro one oneMember other otherMember same
    apply apart one.src (reads one oneMember)
    rw [same]
    exact shuffled.mem_iff.mpr (List.mem_map_of_mem otherMember)
  have lengths : sources.length = places.length := by
    rw [← copied, List.length_map]
  obtain ⟨index, bound, there⟩ := List.getElem_of_mem isPlace
  have inside : index < sources.length := by
    rw [lengths]
    exact bound
  have source : sources[index] = move.src := by
    rw [← fromSource, ← there]
    simp [← copied]
  apply List.mem_iff_getElem.mpr
  refine ⟨index, ?_, ?_⟩
  · simp [pair, lengths, bound]
  · simp [pair, source, there]

end SeqCopy
