import Bcm2711.Startup.IntrCells

/-! # The cache of interrupt parents

`fdt_get_intr_cells` keeps the last interrupt parent that it has come to by a phandle.  What it
keeps is what the tree says of that phandle, so that a call returns the same whatever has been
called before.
-/

namespace Bcm2711.Startup

open Walks

def FDT_ERR_BADOFFSET : Int := 4

/-- No node of the tree begins at offset 4, where the name of the root stands: libfdt says so when
it is asked for a property there. -/
structure RootNamed (fdt : Libfdt) : Prop where
  getprop_name : ∀ name, fdt.getprop 4 name = .error (-FDT_ERR_BADOFFSET)

/-- The kept parent is the one that the tree has for the phandle. -/
def RightCache (fdt : Libfdt) (cache : Option IntrCache) : Prop :=
  ∀ known, cache = some known →
    0 ≤ known.parent ∧ fdt.nodeOffsetByPhandle known.phandle = known.parent ∧
      fdtGetInt fdt known.parent 0 "#interrupt-cells" = .ok (0, known.intrCells)

/-- Two results are the same but for what is kept, and that is right. -/
structure SameResult (fdt : Libfdt) (result fresh : IntrResult) : Prop where
  ret : result.ret = fresh.ret
  parent : result.parent = fresh.parent
  right : RightCache fdt result.cache

/-- Calls one after the other, each with what the one before it has kept. -/
inductive IntrCalls (fdt : Libfdt) : Option IntrCache → List Int → List IntrResult → Prop where
  | nil {cache : Option IntrCache} : IntrCalls fdt cache [] []
  | cons {cache : Option IntrCache} {node : Int} {nodes : List Int} {result : IntrResult}
      {results : List IntrResult} (first : Returns (intrTurn fdt cache) node result)
      (rest : IntrCalls fdt result.cache nodes results) :
      IntrCalls fdt cache (node :: nodes) (result :: results)

/-- A call returns what it returns with nothing kept. -/
def AsFresh (fdt : Libfdt) (node : Int) (result : IntrResult) : Prop :=
  ∃ fresh, Returns (intrTurn fdt none) node fresh ∧
    result.ret = fresh.ret ∧ result.parent = fresh.parent

variable {fdt : Libfdt} {cache : Option IntrCache}

/-- Arriving at a node, nothing depends on what is kept; what is kept then is right where the node
is the one of the phandle. -/
theorem intrArrive_agree {phandle : Nat} {r : Int} (right : RightCache fdt cache)
    (source : phandle = 2 ^ 32 - 1 ∨ fdt.nodeOffsetByPhandle phandle = r) :
    Agree (SameResult fdt) (intrArrive fdt cache phandle r) (intrArrive fdt none phandle r) := by
  unfold intrArrive
  by_cases negative : r < 0
  · rw [if_pos negative, if_pos negative]
    exact .ends ⟨rfl, rfl, right⟩
  rw [if_neg negative, if_neg negative]
  cases got : fdtGetInt fdt r 0 "#interrupt-cells" with
  | error error =>
      dsimp only
      by_cases absent : error = -FDT_ERR_NOTFOUND
      · rw [if_pos absent, if_pos absent]
        exact .goes
      · rw [if_neg absent, if_neg absent]
        exact .ends ⟨rfl, rfl, right⟩
  | ok value =>
      obtain ⟨rest, intrCells⟩ := value
      dsimp only
      by_cases valid : rest = 0 ∧ 0 < intrCells ∧ intrCells ≤ FDT_MAX_NCELLS
      · rw [dif_pos valid, dif_pos valid]
        refine .ends ⟨rfl, rfl, ?_⟩
        dsimp only
        by_cases none : phandle = 2 ^ 32 - 1
        · rw [if_pos none]
          exact right
        · rw [if_neg none]
          intro known same
          obtain rfl := Option.some.inj same
          have atNode := source.resolve_left none
          refine ⟨not_lt.mp negative, atNode, ?_⟩
          obtain ⟨rfl, _⟩ := valid
          exact got
      · rw [dif_neg valid, dif_neg valid]
        exact .ends ⟨rfl, rfl, right⟩

/-- A kept parent is where the search would have arrived. -/
theorem intrArrive_known {known : IntrCache} (right : RightCache fdt (some known)) :
    ∃ fresh, intrArrive fdt none known.phandle (fdt.nodeOffsetByPhandle known.phandle) =
        .ends fresh ∧ known.intrCells = fresh.ret ∧ some known.parent = fresh.parent := by
  obtain ⟨above, atNode, cells⟩ := right known rfl
  have valid : (0 : Nat) = 0 ∧ 0 < known.intrCells ∧ known.intrCells ≤ FDT_MAX_NCELLS :=
    ⟨rfl, known.positive, known.small⟩
  unfold intrArrive
  rw [atNode, if_neg (not_lt.mpr above), cells]
  dsimp only
  rw [dif_pos valid]
  exact ⟨_, rfl, rfl, rfl⟩

/-- A longer property leads to offset 4, and nothing is kept. -/
theorem intrArrive_rootName (named : RootNamed fdt) (right : RightCache fdt cache) (phandle : Nat) :
    Agree (SameResult fdt) (intrArrive fdt cache phandle 4) (intrArrive fdt none phandle 4) := by
  have failed : fdtGetInt fdt 4 0 "#interrupt-cells" = .error (-FDT_ERR_BADOFFSET) := by
    rw [fdtGetInt, fdtGetU32, named.getprop_name]
  have other : -FDT_ERR_BADOFFSET ≠ -FDT_ERR_NOTFOUND := by decide
  have arrives : ∀ kept, intrArrive fdt kept phandle 4 =
      .ends ⟨-FDT_ERR_BADOFFSET, none, kept⟩ := by
    intro kept
    unfold intrArrive
    rw [if_neg (by decide), failed]
    exact if_neg other
  rw [arrives, arrives]
  exact .ends ⟨rfl, rfl, right⟩

/-- A turn with a right cache does what it does without one. -/
theorem intrTurn_agree (named : RootNamed fdt) (right : RightCache fdt cache) (node : Int) :
    Agree (SameResult fdt) (intrTurn fdt cache node) (intrTurn fdt none node) := by
  unfold intrTurn
  cases got : fdtGetU32 fdt node 0 "interrupt-parent" with
  | error error =>
      dsimp only
      by_cases absent : error = -FDT_ERR_NOTFOUND
      · rw [if_pos absent, if_pos absent]
        exact intrArrive_agree right (Or.inl rfl)
      · rw [if_neg absent, if_neg absent]
        exact .ends ⟨rfl, rfl, right⟩
  | ok value =>
      obtain ⟨rest, phandle⟩ := value
      dsimp only
      by_cases whole : rest = 0
      · rw [if_pos whole, if_pos whole]
        cases cache with
        | none => exact intrArrive_agree right (Or.inr rfl)
        | some known =>
            dsimp only
            by_cases hit : phandle = known.phandle
            · rw [if_pos hit, hit]
              obtain ⟨fresh, arrives, ret, parent⟩ := intrArrive_known right
              rw [arrives]
              exact .ends ⟨ret, parent, right⟩
            · rw [if_neg hit]
              exact intrArrive_agree right (Or.inr rfl)
      · rw [if_neg whole, if_neg whole, (fdtGetU32_rest got).resolve_left whole]
        exact intrArrive_rootName named right phandle

/-- Turns that agree may change places. -/
theorem agree_comm {first second : Turn Int IntrResult}
    (agree : Agree (SameResult fdt) first second) :
    Agree (fun fresh result => SameResult fdt result fresh) second first := by
  cases agree with
  | ends results => exact .ends results
  | goes => exact .goes

/-- With a right cache the search returns where it returns without one. -/
theorem returns_of_fresh (named : RootNamed fdt) (right : RightCache fdt cache) {node : Int}
    {fresh : IntrResult} (returns : Returns (intrTurn fdt none) node fresh) :
    ∃ result, Returns (intrTurn fdt cache) node result ∧ SameResult fdt result fresh :=
  returns.of_agree fun point => agree_comm (intrTurn_agree named right point)

/-- The calls return, and each as with nothing kept. -/
theorem intrCalls_of_right (named : RootNamed fdt) {nodes : List Int}
    (right : RightCache fdt cache)
    (terminates : ∀ node ∈ nodes, ∃ fresh, Returns (intrTurn fdt none) node fresh) :
    ∃ results, IntrCalls fdt cache nodes results ∧ List.Forall₂ (AsFresh fdt) nodes results := by
  induction nodes generalizing cache with
  | nil => exact ⟨[], .nil, .nil⟩
  | cons node nodes ih =>
      obtain ⟨fresh, returns⟩ := terminates node List.mem_cons_self
      obtain ⟨result, cached, same⟩ := returns_of_fresh named right returns
      obtain ⟨results, calls, asFresh⟩ := ih same.right fun later member =>
        terminates later (List.mem_cons_of_mem _ member)
      exact ⟨result :: results, .cons cached calls,
        .cons ⟨fresh, returns, same.ret, same.parent⟩ asFresh⟩

/-- The calls return one thing only. -/
theorem IntrCalls.unique {nodes : List Int} {results others : List IntrResult}
    (calls : IntrCalls fdt cache nodes results) (again : IntrCalls fdt cache nodes others) :
    results = others := by
  induction calls generalizing others with
  | nil =>
      cases again
      rfl
  | cons first rest ih =>
      cases again with
      | cons second others =>
          obtain rfl := first.unique second
          rw [ih others]

/-- On a tree whose resolution terminates, every call of any sequence returns what it would return
on a fresh cache. -/
theorem intrCells_transparent (fdt : Libfdt) (named : RootNamed fdt) (nodes : List Int)
    (terminates : ∀ node ∈ nodes, ∃ fresh, Returns (intrTurn fdt none) node fresh) :
    (∃ results, IntrCalls fdt none nodes results) ∧
      ∀ results, IntrCalls fdt none nodes results → List.Forall₂ (AsFresh fdt) nodes results := by
  have right : RightCache fdt none := fun known same => by cases same
  obtain ⟨results, calls, asFresh⟩ := intrCalls_of_right named right terminates
  refine ⟨⟨results, calls⟩, ?_⟩
  intro others again
  rw [← calls.unique again]
  exact asFresh

/-- A device at 8 and a node below it at 20, both on the interrupt controller at 16. -/
def oneController : Libfdt where
  getprop node name :=
    if node = 4 then .error (-FDT_ERR_BADOFFSET)
    else if node = 8 ∧ name = "interrupt-parent" then .ok [0, 0, 0, 1]
    else if node = 16 ∧ name = "#interrupt-cells" then .ok [0, 0, 0, 3]
    else .error (-FDT_ERR_NOTFOUND)
  nodeOffsetByPhandle phandle := if phandle = 1 then 16 else -6
  parentOffset node := if node = 20 then 8 else 0
  getprop_error node name error failed := by
    split at failed
    · cases failed
      decide
    split at failed
    · cases failed
    split at failed
    · cases failed
    · cases failed
      decide
  byPhandle_lt phandle := by
    split <;> decide
  parent_lt node := by
    split <;> decide

theorem oneController_transparent :
    (∃ results, IntrCalls oneController none [20, 8] results) ∧
      ∀ results, IntrCalls oneController none [20, 8] results →
        List.Forall₂ (AsFresh oneController) [20, 8] results := by
  refine intrCells_transparent oneController ⟨fun _ => rfl⟩ [20, 8] ?_
  intro node member
  rcases List.mem_pair.mp member with rfl | rfl
  · exact ⟨_, 2, rfl⟩
  · exact ⟨_, 1, rfl⟩

end Bcm2711.Startup
