import Bcm2711.Lib.Walk

/-! # Interrupt parents in a device tree

`fdt_get_intr_cells` goes from a node to its interrupt parent, by a phandle or else to the parent
in the tree, until a node tells the number of its interrupt cells.  Nothing keeps it from coming
back to a node where it has been.
-/

namespace Bcm2711.Startup

open Walks

def FDT_ERR_NOTFOUND : Int := 1
def FDT_ERR_BADSTRUCTURE : Int := 11
def FDT_ERR_BADNCELLS : Int := 14
def FDT_MAX_NCELLS : Int := 4

/-- A device tree behind the functions of libfdt.  Offsets of nodes are `int`, and errors are
negative. -/
structure Libfdt where
  getprop : (node : Int) → (name : String) → Except Int (List UInt8)
  nodeOffsetByPhandle : (phandle : Nat) → Int
  parentOffset : (node : Int) → Int
  getprop_error : ∀ node name error, getprop node name = .error error → error < 0
  byPhandle_lt : ∀ phandle, nodeOffsetByPhandle phandle < 2 ^ 31
  parent_lt : ∀ node, parentOffset node < 2 ^ 31

/-- `fdt32_to_cpu` of the first four bytes. -/
def fdt32ToCpu (bytes : List UInt8) : Nat :=
  (bytes.take 4).foldl (fun value byte => 256 * value + byte.toNat) 0

/-- `fdt_get_u32`: the offset behind the value, or 0 at the end of the property, and the
value. -/
def fdtGetU32 (fdt : Libfdt) (node : Int) (offset : Nat) (name : String) : Except Int (Nat × Nat) :=
  match fdt.getprop node name with
  | .error len => .error len
  | .ok value =>
      if value.length < offset + 4 then .error (-FDT_ERR_BADSTRUCTURE)
      else
        .ok (if offset + 4 < value.length then offset + 4 else 0, fdt32ToCpu (value.drop offset))

/-- `fdt_get_int`. -/
def fdtGetInt (fdt : Libfdt) (node : Int) (offset : Nat) (name : String) : Except Int (Nat × Int) :=
  match fdtGetU32 fdt node offset name with
  | .error error => .error error
  | .ok (rest, value) => .ok (rest, if value < 2 ^ 31 then value else value - 2 ^ 32)

/-- The static variables, when they are about this tree. -/
structure IntrCache where
  phandle : Nat
  parent : Int
  intrCells : Int
  positive : 0 < intrCells
  small : intrCells ≤ FDT_MAX_NCELLS

/-- What `fdt_get_intr_cells` returns and leaves. -/
structure IntrResult where
  ret : Int
  /-- `*parent`, when it is set. -/
  parent : Option Int
  cache : Option IntrCache

/-- The rest of a turn, from the node that the search has come to; `phandle` is -1 unless it came
there by an `interrupt-parent`. -/
def intrArrive (fdt : Libfdt) (cache : Option IntrCache) (phandle : Nat) (r : Int) :
    Turn Int IntrResult :=
  if r < 0 then .ends ⟨r, none, cache⟩
  else
    match fdtGetInt fdt r 0 "#interrupt-cells" with
    | .ok (rest, intrCells) =>
        if valid : rest = 0 ∧ 0 < intrCells ∧ intrCells ≤ FDT_MAX_NCELLS then
          .ends ⟨intrCells, some r,
            if phandle = 2 ^ 32 - 1 then cache
            else some ⟨phandle, r, intrCells, valid.2.1, valid.2.2⟩⟩
        else .ends ⟨-FDT_ERR_BADNCELLS, none, cache⟩
    | .error error =>
        if error = -FDT_ERR_NOTFOUND then .goes r else .ends ⟨error, none, cache⟩

/-- One turn of the loop. -/
def intrTurn (fdt : Libfdt) (cache : Option IntrCache) (node : Int) : Turn Int IntrResult :=
  match fdtGetU32 fdt node 0 "interrupt-parent" with
  | .ok (rest, phandle) =>
      if rest = 0 then
        match cache with
        | some known =>
            if phandle = known.phandle then .ends ⟨known.intrCells, some known.parent, cache⟩
            else intrArrive fdt cache phandle (fdt.nodeOffsetByPhandle phandle)
        | none => intrArrive fdt cache phandle (fdt.nodeOffsetByPhandle phandle)
      else intrArrive fdt cache phandle rest
  | .error error =>
      if error = -FDT_ERR_NOTFOUND then
        intrArrive fdt cache (2 ^ 32 - 1) (fdt.parentOffset node)
      else .ends ⟨error, none, cache⟩

/-- `fdt_get_intr_cells` returns after finitely many turns, a number of cells or an error. -/
def IntrCellsReturned (fdt : Libfdt) (cache : Option IntrCache) (node : Int) : Prop :=
  ∃ result, Returns (intrTurn fdt cache) node result ∧
    (1 ≤ result.ret ∧ result.ret ≤ FDT_MAX_NCELLS ∨ result.ret < 0)

variable {fdt : Libfdt} {cache : Option IntrCache} {node next : Int} {result : IntrResult}

/-- A number of cells or an error. -/
def IntrResult.IsValid (result : IntrResult) : Prop :=
  1 ≤ result.ret ∧ result.ret ≤ FDT_MAX_NCELLS ∨ result.ret < 0

theorem fdtGetU32_error {offset : Nat} {name : String} {error : Int}
    (failed : fdtGetU32 fdt node offset name = .error error) : error < 0 := by
  unfold fdtGetU32 at failed
  split at failed
  · next len absent =>
      cases failed
      exact fdt.getprop_error _ _ _ absent
  · split at failed
    · cases failed
      decide
    · cases failed

/-- `fdt_get_u32` returns 0 or an offset behind the value. -/
theorem fdtGetU32_rest {offset rest value : Nat} {name : String}
    (got : fdtGetU32 fdt node offset name = .ok (rest, value)) :
    rest = 0 ∨ rest = offset + 4 := by
  unfold fdtGetU32 at got
  split at got
  · cases got
  · split at got
    · cases got
    · cases got
      split
      · exact .inr rfl
      · exact .inl rfl

theorem fdtGetInt_error {offset : Nat} {name : String} {error : Int}
    (failed : fdtGetInt fdt node offset name = .error error) : error < 0 := by
  unfold fdtGetInt at failed
  split at failed
  · next reason =>
      cases failed
      exact fdtGetU32_error reason
  · cases failed

theorem intrArrive_ends {phandle : Nat} {r : Int}
    (ends : intrArrive fdt cache phandle r = .ends result) : result.IsValid := by
  unfold intrArrive at ends
  split at ends
  · next negative =>
      cases ends
      exact .inr negative
  · split at ends
    · split at ends
      · next valid =>
          cases ends
          exact .inl ⟨valid.2.1, valid.2.2⟩
      · cases ends
        have negative : -FDT_ERR_BADNCELLS < 0 := by decide
        exact .inr negative
    · next failed =>
        split at ends
        · cases ends
        · cases ends
          exact .inr (fdtGetInt_error failed)

/-- The search goes on from a node of the tree only. -/
theorem intrArrive_goes {phandle : Nat} {r : Int} (small : r < 2 ^ 31)
    (goes : intrArrive fdt cache phandle r = .goes next) : next ∈ Set.Ico (0 : Int) (2 ^ 31) := by
  unfold intrArrive at goes
  split at goes
  · cases goes
  · next above =>
      split at goes
      · split at goes
        · cases goes
        · cases goes
      · split at goes
        · cases goes
          exact ⟨not_lt.mp above, small⟩
        · cases goes

/-- What a turn ends with is a number of cells or an error. -/
theorem intrTurn_ends (ends : intrTurn fdt cache node = .ends result) : result.IsValid := by
  unfold intrTurn at ends
  split at ends
  · split at ends
    · split at ends
      · next known =>
          split at ends
          · cases ends
            exact .inl ⟨known.positive, known.small⟩
          · exact intrArrive_ends ends
      · exact intrArrive_ends ends
    · exact intrArrive_ends ends
  · next failed =>
      split at ends
      · exact intrArrive_ends ends
      · cases ends
        exact .inr (fdtGetU32_error failed)

/-- The search goes on from a node of the tree only. -/
theorem intrTurn_goes (goes : intrTurn fdt cache node = .goes next) :
    next ∈ Set.Ico (0 : Int) (2 ^ 31) := by
  unfold intrTurn at goes
  split at goes
  · next rest phandle got =>
      split at goes
      · split at goes
        · split at goes
          · cases goes
          · exact intrArrive_goes (fdt.byPhandle_lt phandle) goes
        · exact intrArrive_goes (fdt.byPhandle_lt phandle) goes
      · next longer =>
          refine intrArrive_goes ?_ goes
          rw [(fdtGetU32_rest got).resolve_left longer]
          decide
  · split at goes
    · exact intrArrive_goes (fdt.parent_lt node) goes
    · cases goes

/-- The search returns exactly when it cannot come to a circle of interrupt parents that do not
tell the number of their cells. -/
theorem intrCells_returned_iff (fdt : Libfdt) (cache : Option IntrCache) (node : Int) :
    IntrCellsReturned fdt cache node ↔ ¬ GoesRound (intrTurn fdt cache) node := by
  have finite : (Set.Ico (0 : Int) (2 ^ 31)).Finite := Set.finite_Ico _ _
  have returns : (∃ result, Returns (intrTurn fdt cache) node result) ↔
      ¬ GoesRound (intrTurn fdt cache) node :=
    returns_iff _ finite fun _ _ leads => intrTurn_goes leads
  rw [← returns]
  constructor
  · rintro ⟨result, returned, _⟩
    exact ⟨result, returned⟩
  · rintro ⟨result, returned⟩
    exact ⟨result, returned, returned.holds fun _ _ ends => intrTurn_ends ends⟩

/-- A tree with one node, whose interrupt parent is the node itself. -/
def ownParent : Libfdt where
  getprop _ name := if name = "interrupt-parent" then .ok [0, 0, 0, 1] else .error (-1)
  nodeOffsetByPhandle _ := 0
  parentOffset _ := -1
  getprop_error node name error absent := by
    split at absent
    · cases absent
    · cases absent
      decide
  byPhandle_lt _ := by decide
  parent_lt _ := by decide

/-- The search from a node that is its own interrupt parent does not return. -/
theorem ownParent_stuck : ¬ IntrCellsReturned ownParent none 0 := by
  rintro ⟨result, returned, _⟩
  have leads : Leads (intrTurn ownParent none) 0 0 := rfl
  exact returned.not_goesRound ⟨0, .refl, .single leads⟩

end Bcm2711.Startup
