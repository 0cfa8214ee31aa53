import Bcm2711.Startup.IntrCache

/-! # Interrupt descriptors of a device tree

`fdt_get_intr` takes the specifiers of an `interrupts` property apart.  It refuses controllers with
as many cells as a descriptor holds, which `fdt_get_intr_cells` accepts.
-/

namespace Bcm2711.Startup

open Walks

/-- `fdtintr_t` elements, by their place and the place in them. -/
abbrev IntrArray := Nat → Nat → Int

/-- `(int)fdt32_to_cpu(*intprop)` with the pointer at a cell; `none` outside the property. -/
def readCell (prop : List UInt8) (cell : Nat) : Option Int :=
  if 4 * cell + 4 ≤ prop.length then
    let value := fdt32ToCpu (prop.drop (4 * cell))
    some (if value < 2 ^ 31 then value else value - 2 ^ 32)
  else none

/-- `intr[i][r] = value`. -/
def IntrArray.put (intr : IntrArray) (i r : Nat) (value : Int) : IntrArray := fun place cell =>
  if place = i ∧ cell = r then value else intr place cell

/-- The loop over the cells of descriptor `i`, from `r` on; also where `intprop` is left. -/
def cellLoop (prop : List UInt8) (live : Bool) (i : Nat) :
    (rounds r intprop : Nat) → IntrArray → Option (IntrArray × Nat)
  | 0, _, intprop, intr => some (intr, intprop)
  | rounds + 1, r, intprop, intr =>
      if live then
        (readCell prop intprop).bind fun value =>
          cellLoop prop live i rounds (r + 1) (intprop + 1) (intr.put i r value)
      else cellLoop prop live i rounds (r + 1) intprop (intr.put i r 0)

/-- The loop that fills the rest of the descriptor. -/
def padLoop (i : Nat) : (rounds r : Nat) → IntrArray → IntrArray
  | 0, _, intr => intr
  | rounds + 1, r, intr => padLoop i rounds (r + 1) (intr.put i r 0)

/-- The loop over the descriptors, from `i` on, with `len` specifiers in the property. -/
def intrLoop (prop : List UInt8) (intrCells len : Nat) :
    (rounds i intprop : Nat) → IntrArray → Option IntrArray
  | 0, _, _, intr => some intr
  | rounds + 1, i, intprop, intr =>
      (cellLoop prop (i < len) i intrCells 0 intprop intr).bind fun (intr, intprop) =>
        intrLoop prop intrCells len rounds (i + 1) intprop
          (padLoop i (FDT_MAX_NCELLS.toNat - intrCells) intrCells intr)

/-- What a call of `fdt_get_intr` returns and leaves. -/
structure IntrOutcome where
  ret : Int
  intr : Option IntrArray
  /-- `*controller`, when it is set. -/
  controller : Option Int

/-- `fdt_get_intr` behind `fdt_get_intr_cells`; `none` if it reads outside the property. -/
def intrOfCells (fdt : Libfdt) (prop : List UInt8) (cells : IntrResult) (index num : Nat)
    (intr : Option IntrArray) : Option IntrOutcome :=
  if cells.ret < 0 then some ⟨cells.ret, intr, none⟩
  else if cells.ret ≥ FDT_MAX_NCELLS then some ⟨-FDT_ERR_BADSTRUCTURE, intr, none⟩
  else
    match fdt.getprop (cells.parent.getD 0) "interrupt-controller" with
    | .error _ => some ⟨-FDT_ERR_BADSTRUCTURE, intr, none⟩
    | .ok _ =>
        let intrCells := cells.ret.toNat
        if prop.length % (intrCells * 4) ≠ 0 then
          some ⟨-FDT_ERR_BADSTRUCTURE, intr, cells.parent⟩
        else
          let len : Int := prop.length / (intrCells * 4) - index
          if len ≤ 0 then some ⟨0, intr, cells.parent⟩
          else
            match intr with
            | none => some ⟨len, none, cells.parent⟩
            | some array =>
                (intrLoop prop intrCells len.toNat num 0 (index * intrCells) array).map fun array =>
                  ⟨if num < len then num else len, some array, cells.parent⟩

/-- `fdt_get_intr` with what is kept of the calls before it comes to this outcome. -/
def GetsIntr (fdt : Libfdt) (cache : Option IntrCache) (node : Int) (index num : Nat)
    (intr : Option IntrArray) (outcome : Option IntrOutcome) : Prop :=
  match fdt.getprop node "interrupts" with
  | .error len => outcome = some ⟨len, intr, none⟩
  | .ok prop => ∃ cells, Returns (intrTurn fdt cache) node cells ∧
      outcome = intrOfCells fdt prop cells index num intr

/-! ## What the tree says -/

/-- The node that an `interrupt-parent` property names, or else the parent in the tree. -/
inductive NamedParent (fdt : Libfdt) (node : Int) : Int → Prop where
  | phandle {bytes : List UInt8} (named : fdt.getprop node "interrupt-parent" = .ok bytes)
      (oneCell : bytes.length = 4) (found : 0 ≤ fdt.nodeOffsetByPhandle (fdt32ToCpu bytes)) :
      NamedParent fdt node (fdt.nodeOffsetByPhandle (fdt32ToCpu bytes))
  | tree (unnamed : fdt.getprop node "interrupt-parent" = .error (-FDT_ERR_NOTFOUND))
      (found : 0 ≤ fdt.parentOffset node) : NamedParent fdt node (fdt.parentOffset node)

/-- The interrupt parent of a node is the first on the way that tells a number of cells. -/
inductive InterruptParent (fdt : Libfdt) (parent : Int) (c : Nat) : Int → Prop where
  | here {node : Int} (named : NamedParent fdt node parent)
      (cells : fdtGetInt fdt parent 0 "#interrupt-cells" = .ok (0, c)) :
      InterruptParent fdt parent c node
  | above {node next : Int} (named : NamedParent fdt node next)
      (untold : fdt.getprop next "#interrupt-cells" = .error (-FDT_ERR_NOTFOUND))
      (rest : InterruptParent fdt parent c next) : InterruptParent fdt parent c node

/-- A node with an `interrupts` property of so many specifiers, of `c` cells each, below an
interrupt controller. -/
structure Interrupts (fdt : Libfdt) (node parent : Int) (c specifiers : Nat) (prop : List UInt8) :
    Prop where
  interrupts : fdt.getprop node "interrupts" = .ok prop
  length : prop.length = 4 * (specifiers * c)
  below : InterruptParent fdt parent c node
  controller : ∃ bytes, fdt.getprop parent "interrupt-controller" = .ok bytes
  positive : 1 ≤ c
  small : c ≤ FDT_MAX_NCELLS.toNat

/-- A cell of the descriptors, when so many specifiers are left from the index on: the one of the
specifier, or 0 if there is none. -/
def descriptorCell (prop : List UInt8) (c index left i r : Nat) : Int :=
  if i < left ∧ r < c then (readCell prop ((index + i) * c + r)).getD 0 else 0

/-- The call tells how many specifiers there are and fills the descriptors from them, and reads in
the property only. -/
structure Extracts (fdt : Libfdt) (cache : Option IntrCache) (node : Int) (prop : List UInt8)
    (c specifiers index num : Nat) (intr : Option IntrArray) : Prop where
  returns : ∃ outcome, GetsIntr fdt cache node index num intr outcome
  inside : ∀ outcome, GetsIntr fdt cache node index num intr outcome → outcome ≠ none
  ret : ∀ outcome, GetsIntr fdt cache node index num intr (some outcome) →
    outcome.ret = if intr = none then ((specifiers - index : Nat) : Int)
      else ((min num (specifiers - index) : Nat) : Int)
  fills : ∀ outcome array, GetsIntr fdt cache node index num intr (some outcome) →
    outcome.intr = some array → ∀ i < num, ∀ r < FDT_MAX_NCELLS.toNat,
      array i r = descriptorCell prop c index (specifiers - index) i r

/-- The controller has fewer cells than a descriptor, and there is a specifier at the index, or no
descriptor to fill, or all of them are zero before. -/
def ExtractsWhen (c specifiers index num : Nat) (intr : Option IntrArray) : Prop :=
  c < FDT_MAX_NCELLS.toNat ∧
    (index < specifiers ∨ ∀ array, intr = some array →
      ∀ i < num, ∀ r < FDT_MAX_NCELLS.toNat, array i r = 0)

variable {fdt : Libfdt} {cache : Option IntrCache} {node parent : Int} {prop : List UInt8}
  {c specifiers index num : Nat}

/-! ## The interrupt parent is found -/

/-- Arriving at the node that tells the cells, the search ends. -/
theorem intrArrive_here {next : Int} {phandle : Nat} (found : 0 ≤ next)
    (cells : fdtGetInt fdt next 0 "#interrupt-cells" = .ok (0, c)) (positive : 1 ≤ c)
    (small : c ≤ FDT_MAX_NCELLS.toNat) :
    ∃ kept, intrArrive fdt cache phandle next = .ends ⟨c, some next, kept⟩ := by
  have valid : (0 : Nat) = 0 ∧ 0 < (c : Int) ∧ (c : Int) ≤ FDT_MAX_NCELLS := by
    refine ⟨rfl, ?_, ?_⟩
    · exact_mod_cast positive
    · exact Int.le_toNat (by decide) |>.mp small
  unfold intrArrive
  rw [if_neg (not_lt.mpr found), cells]
  dsimp only
  rw [dif_pos valid]
  exact ⟨_, rfl⟩

/-- Arriving at a node that tells none, it goes on from there. -/
theorem intrArrive_above {next : Int} {phandle : Nat} (found : 0 ≤ next)
    (untold : fdt.getprop next "#interrupt-cells" = .error (-FDT_ERR_NOTFOUND)) :
    intrArrive fdt cache phandle next = .goes next := by
  have cells : fdtGetInt fdt next 0 "#interrupt-cells" = .error (-FDT_ERR_NOTFOUND) := by
    simp only [fdtGetInt, fdtGetU32, untold]
  unfold intrArrive
  rw [if_neg (not_lt.mpr found), cells]
  dsimp only
  rw [if_pos rfl]

/-- A turn arrives at the named parent, unless that is the one that is kept. -/
theorem intrTurn_named {next : Int} (right : RightCache fdt cache)
    (named : NamedParent fdt node next) :
    0 ≤ next ∧ ((∃ phandle, intrTurn fdt cache node = intrArrive fdt cache phandle next) ∨
      ∃ known, cache = some known ∧ known.parent = next ∧
        intrTurn fdt cache node = .ends ⟨known.intrCells, some known.parent, cache⟩) := by
  cases named with
  | @phandle bytes isNamed oneCell found =>
      refine ⟨found, ?_⟩
      have read : fdtGetU32 fdt node 0 "interrupt-parent" = .ok (0, fdt32ToCpu bytes) := by
        simp only [fdtGetU32, isNamed, oneCell, Nat.zero_add, lt_self_iff_false, ↓reduceIte,
          List.drop_zero]
      unfold intrTurn
      rw [read]
      dsimp only
      rw [if_pos rfl]
      cases cache with
      | none => exact Or.inl ⟨_, rfl⟩
      | some known =>
          dsimp only
          by_cases hit : fdt32ToCpu bytes = known.phandle
          · rw [if_pos hit]
            exact Or.inr ⟨known, rfl, by rw [hit, (right known rfl).2.1], rfl⟩
          · rw [if_neg hit]
            exact Or.inl ⟨_, rfl⟩
  | tree unnamed found =>
      refine ⟨found, Or.inl ⟨2 ^ 32 - 1, ?_⟩⟩
      have read : fdtGetU32 fdt node 0 "interrupt-parent" = .error (-FDT_ERR_NOTFOUND) := by
        simp only [fdtGetU32, unnamed]
      unfold intrTurn
      rw [read]
      dsimp only
      rw [if_pos rfl]

/-- `fdt_get_intr_cells` finds the interrupt parent and its number of cells. -/
theorem InterruptParent.returns (below : InterruptParent fdt parent c node)
    (right : RightCache fdt cache) (positive : 1 ≤ c) (small : c ≤ FDT_MAX_NCELLS.toNat) :
    ∃ kept, Returns (intrTurn fdt cache) node ⟨c, some parent, kept⟩ := by
  induction below with
  | here named cells =>
      obtain ⟨found, ⟨phandle, turn⟩ | ⟨known, isKnown, isParent, turn⟩⟩ :=
        intrTurn_named right named
      · obtain ⟨kept, ends⟩ := @intrArrive_here _ cache _ _ phandle found cells positive small
        exact ⟨kept, returns_of_ends (turn.trans ends)⟩
      · have told := (right known isKnown).2.2
        rw [isParent, cells] at told
        have sameCells : (c : Int) = known.intrCells := congrArg Prod.snd (Except.ok.inj told)
        rw [isParent, ← sameCells] at turn
        exact ⟨cache, returns_of_ends turn⟩
  | above named untold rest ih =>
      obtain ⟨kept, returns⟩ := ih
      obtain ⟨found, ⟨phandle, turn⟩ | ⟨known, isKnown, isParent, turn⟩⟩ :=
        intrTurn_named right named
      · exact ⟨kept, returns_of_goes (turn.trans (intrArrive_above found untold)) returns⟩
      · have told := (right known isKnown).2.2
        rw [isParent] at told
        simp only [fdtGetInt, fdtGetU32, untold] at told
        cases told

/-! ## The loops -/

/-- What the loop over the cells of a descriptor writes. -/
def IntrArray.row (intr : IntrArray) (i r rounds : Nat) (value : Nat → Int) : IntrArray :=
  fun place cell => if place = i ∧ r ≤ cell ∧ cell < r + rounds then value cell else intr place cell

theorem row_zero (intr : IntrArray) (i r : Nat) (value : Nat → Int) :
    intr.row i r 0 value = intr := by
  funext place cell
  exact if_neg (by omega)

theorem row_succ (intr : IntrArray) (i r rounds : Nat) (value : Nat → Int) :
    intr.row i r (rounds + 1) value =
      (intr.put i r (value r)).row i (r + 1) rounds value := by
  funext place cell
  by_cases first : place = i ∧ cell = r
  · obtain ⟨rfl, rfl⟩ := first
    simp [IntrArray.row, IntrArray.put]
  · have same : (place = i ∧ r ≤ cell ∧ cell < r + (rounds + 1)) ↔
        place = i ∧ r + 1 ≤ cell ∧ cell < r + 1 + rounds := by omega
    simp only [IntrArray.row, IntrArray.put, same, first, ↓reduceIte]

theorem row_append (intr : IntrArray) (i r first second : Nat) (value : Nat → Int) :
    (intr.row i r first value).row i (r + first) second value =
      intr.row i r (first + second) value := by
  funext place cell
  simp only [IntrArray.row]
  by_cases late : place = i ∧ r + first ≤ cell ∧ cell < r + first + second
  · rw [if_pos late, if_pos (by omega)]
  · rw [if_neg late]
    by_cases early : place = i ∧ r ≤ cell ∧ cell < r + first
    · rw [if_pos early, if_pos (by omega)]
    · rw [if_neg early, if_neg (by omega)]

theorem cellLoop_live {i r intprop rounds : Nat} {value : Nat → Int} (intr : IntrArray)
    (reads : ∀ k < rounds, readCell prop (intprop + k) = some (value (r + k))) :
    cellLoop prop true i rounds r intprop intr =
      some (intr.row i r rounds value, intprop + rounds) := by
  induction rounds generalizing r intprop intr with
  | zero =>
      rw [row_zero]
      rfl
  | succ rounds ih =>
      have first : readCell prop intprop = some (value r) := reads 0 (Nat.succ_pos rounds)
      have later : ∀ k < rounds, readCell prop (intprop + 1 + k) = some (value (r + 1 + k)) := by
        intro k inside
        have next := reads (k + 1) (Nat.succ_lt_succ inside)
        rwa [← Nat.add_assoc, Nat.add_right_comm, ← Nat.add_assoc, Nat.add_right_comm r] at next
      rw [cellLoop, if_pos rfl, first, Option.bind_some, ih _ later, row_succ,
        Nat.add_right_comm intprop, Nat.add_assoc]

theorem cellLoop_dead (i r intprop rounds : Nat) {value : Nat → Int} (intr : IntrArray)
    (zero : ∀ cell, value cell = 0) :
    cellLoop prop false i rounds r intprop intr =
      some (intr.row i r rounds value, intprop) := by
  induction rounds generalizing r intr with
  | zero =>
      rw [row_zero]
      rfl
  | succ rounds ih =>
      rw [cellLoop, if_neg Bool.false_ne_true, ih, row_succ, zero]

theorem padLoop_eq {i r rounds : Nat} {value : Nat → Int} (intr : IntrArray)
    (zero : ∀ cell, r ≤ cell → value cell = 0) :
    padLoop i rounds r intr = intr.row i r rounds value := by
  induction rounds generalizing r intr with
  | zero =>
      rw [row_zero]
      rfl
  | succ rounds ih =>
      rw [padLoop, ih _ fun cell later => zero cell (Nat.le_of_succ_le later), row_succ,
        zero r le_rfl]

theorem readCell_eq {cell : Nat} (inside : 4 * cell + 4 ≤ prop.length) :
    readCell prop cell = some ((readCell prop cell).getD 0) := by
  unfold readCell
  rw [if_pos inside]
  rfl

/-- A descriptor is filled from its specifier, and with zeros. -/
theorem cellLoop_specifier {i len intprop : Nat} (intr : IntrArray)
    (length : prop.length = 4 * ((index + len) * c))
    (place : i ≤ len → intprop = (index + i) * c) :
    ∃ next, cellLoop prop (i < len) i c 0 intprop intr =
        some (intr.row i 0 c (descriptorCell prop c index len i), next) ∧
      (i + 1 ≤ len → next = (index + (i + 1)) * c) := by
  by_cases live : i < len
  · have start := place live.le
    have fits : (index + i + 1) * c ≤ (index + len) * c := Nat.mul_le_mul_right c (by omega)
    have step : (index + i + 1) * c = (index + i) * c + c := Nat.succ_mul _ c
    refine ⟨intprop + c, ?_, ?_⟩
    · rw [decide_eq_true live]
      apply cellLoop_live
      intro k inside
      rw [Nat.zero_add, descriptorCell, if_pos ⟨live, inside⟩, ← start]
      apply readCell_eq
      omega
    · intro _
      rw [start, ← Nat.add_assoc, step]
  · refine ⟨intprop, ?_, fun more => absurd more live⟩
    rw [decide_eq_false live]
    apply cellLoop_dead
    intro cell
    exact if_neg fun both => live both.1

/-- The loop over the descriptors fills all of them. -/
theorem intrLoop_eq {i len rounds intprop : Nat} (intr : IntrArray)
    (length : prop.length = 4 * ((index + len) * c)) (small : c ≤ FDT_MAX_NCELLS.toNat)
    (place : i ≤ len → intprop = (index + i) * c) :
    ∃ array, intrLoop prop c len rounds i intprop intr = some array ∧
      ∀ slot r, array slot r =
        if i ≤ slot ∧ slot < i + rounds ∧ r < FDT_MAX_NCELLS.toNat then
          descriptorCell prop c index len slot r
        else intr slot r := by
  induction rounds generalizing i intprop intr with
  | zero =>
      refine ⟨intr, rfl, fun slot r => ?_⟩
      rw [if_neg (by omega)]
  | succ rounds ih =>
      obtain ⟨next, filled, later⟩ := cellLoop_specifier intr length place
      have padded : padLoop i (FDT_MAX_NCELLS.toNat - c) c
          (intr.row i 0 c (descriptorCell prop c index len i)) =
            intr.row i 0 FDT_MAX_NCELLS.toNat (descriptorCell prop c index len i) := by
        have zero : ∀ cell, c ≤ cell → descriptorCell prop c index len i cell = 0 := by
          intro cell behind
          exact if_neg fun both => Nat.not_lt.mpr behind both.2
        have rest := row_append intr i 0 c (FDT_MAX_NCELLS.toNat - c)
          (descriptorCell prop c index len i)
        rw [Nat.zero_add, Nat.add_sub_cancel' small] at rest
        rw [padLoop_eq _ zero, rest]
      obtain ⟨array, loop, cells⟩ := ih
        (intr.row i 0 FDT_MAX_NCELLS.toNat (descriptorCell prop c index len i)) later
      refine ⟨array, ?_, ?_⟩
      · rw [intrLoop, filled]
        simp only [Option.bind_some, padded, loop]
      · intro slot r
        rw [cells slot r]
        by_cases behind : i + 1 ≤ slot ∧ slot < i + 1 + rounds ∧ r < FDT_MAX_NCELLS.toNat
        · rw [if_pos behind, if_pos (by omega)]
        · rw [if_neg behind, IntrArray.row]
          by_cases here : slot = i ∧ 0 ≤ r ∧ r < 0 + FDT_MAX_NCELLS.toNat
          · obtain ⟨rfl, -, inside⟩ := here
            rw [if_pos ⟨rfl, Nat.zero_le r, inside⟩, if_pos (by omega)]
          · rw [if_neg here, if_neg (by omega)]

/-! ## When the descriptors are right -/

/-- `fdt_get_intr` goes on with the interrupt parent. -/
theorem getsIntr_iff (setting : Interrupts fdt node parent c specifiers prop)
    (right : RightCache fdt cache) (intr : Option IntrArray) :
    ∃ kept, ∀ outcome, GetsIntr fdt cache node index num intr outcome ↔
      outcome = intrOfCells fdt prop ⟨c, some parent, kept⟩ index num intr := by
  obtain ⟨kept, returns⟩ := setting.below.returns right setting.positive setting.small
  refine ⟨kept, fun outcome => ?_⟩
  unfold GetsIntr
  rw [setting.interrupts]
  dsimp only
  constructor
  · rintro ⟨cells, again, same⟩
    rw [same, again.unique returns]
  · intro same
    exact ⟨_, returns, same⟩

/-- As many cells as a descriptor has are refused. -/
theorem intrOfCells_full {kept : Option IntrCache} (full : ¬ c < FDT_MAX_NCELLS.toNat)
    (intr : Option IntrArray) :
    intrOfCells fdt prop ⟨c, some parent, kept⟩ index num intr =
      some ⟨-FDT_ERR_BADSTRUCTURE, intr, none⟩ := by
  have large : (c : Int) ≥ FDT_MAX_NCELLS := Int.toNat_le.mp (Nat.le_of_not_lt full)
  have natural : ¬ (c : Int) < 0 := not_lt.mpr (Int.natCast_nonneg c)
  unfold intrOfCells
  rw [if_neg natural, if_pos large]

/-- Fewer cells are taken, and then all is up to the number of specifiers left. -/
theorem intrOfCells_fewer (setting : Interrupts fdt node parent c specifiers prop)
    {kept : Option IntrCache} (fewer : c < FDT_MAX_NCELLS.toNat) (intr : Option IntrArray) :
    intrOfCells fdt prop ⟨c, some parent, kept⟩ index num intr =
      if (specifiers : Int) - index ≤ 0 then some ⟨0, intr, some parent⟩
      else
        match intr with
        | none => some ⟨specifiers - index, none, some parent⟩
        | some array =>
            (intrLoop prop c (specifiers - index : Int).toNat num 0 (index * c) array).map
              fun array => ⟨if (num : Int) < specifiers - index then num else specifiers - index,
                some array, some parent⟩ := by
  obtain ⟨bytes, isController⟩ := setting.controller
  have positive := setting.positive
  have natural : ¬ (c : Int) < 0 := not_lt.mpr (Int.natCast_nonneg c)
  have small : ¬ (c : Int) ≥ FDT_MAX_NCELLS := by
    intro large
    exact Nat.not_lt.mpr (Int.toNat_le.mpr large) fewer
  have length : prop.length = specifiers * (c * 4) := by
    rw [setting.length]
    ring
  have whole : prop.length % (c * 4) = 0 := by
    rw [length]
    exact Nat.mul_mod_left _ _
  have count : (prop.length : Int) / (c * 4) = specifiers := by
    rw [length]
    push_cast
    exact Int.mul_ediv_cancel _ (by positivity)
  unfold intrOfCells
  rw [if_neg natural, if_neg small]
  simp only [Option.getD_some, isController, Int.toNat_natCast, whole, ne_eq, not_true_eq_false,
    ↓reduceIte, count]

section Call

variable {intr : Option IntrArray} {outcome : Option IntrOutcome}

/-- With one outcome only, extracting is about that one. -/
theorem extracts_of_only {only : IntrOutcome}
    (gets : ∀ outcome, GetsIntr fdt cache node index num intr outcome ↔ outcome = some only) :
    Extracts fdt cache node prop c specifiers index num intr ↔
      (only.ret = if intr = none then ((specifiers - index : Nat) : Int)
        else ((min num (specifiers - index) : Nat) : Int)) ∧
      ∀ array, only.intr = some array → ∀ i < num, ∀ r < FDT_MAX_NCELLS.toNat,
        array i r = descriptorCell prop c index (specifiers - index) i r := by
  have here := (gets (some only)).mpr rfl
  constructor
  · intro extracts
    exact ⟨extracts.ret only here, fun array => extracts.fills only array here⟩
  · rintro ⟨ret, fills⟩
    refine ⟨⟨_, here⟩, fun outcome got => ?_, fun outcome got => ?_, fun outcome array got => ?_⟩
    · rw [(gets outcome).mp got]
      exact Option.some_ne_none only
    · rw [Option.some.inj ((gets _).mp got)]
      exact ret
    · rw [Option.some.inj ((gets _).mp got)]
      exact fills array

/-- Beyond the last specifier nothing is filled. -/
theorem extracts_beyond (beyond : ¬ index < specifiers)
    (gets : ∀ outcome, GetsIntr fdt cache node index num intr outcome ↔
      outcome = some ⟨0, intr, some parent⟩) :
    Extracts fdt cache node prop c specifiers index num intr ↔
      ∀ array, intr = some array → ∀ i < num, ∀ r < FDT_MAX_NCELLS.toNat, array i r = 0 := by
  have left : specifiers - index = 0 := Nat.sub_eq_zero_of_le (Nat.le_of_not_lt beyond)
  have zero : ∀ i r, descriptorCell prop c index 0 i r = 0 := by
    intro i r
    exact if_neg fun both => Nat.not_lt_zero i both.1
  rw [extracts_of_only gets, left]
  simp only [Nat.min_zero, Nat.cast_zero, ite_self, true_and, zero]

/-- With a specifier at the index the descriptors are filled. -/
theorem extracts_inside (inside : index < specifiers) (fewer : c < FDT_MAX_NCELLS.toNat)
    (length : prop.length = 4 * (specifiers * c)) {kept : Option IntrCache}
    (gets : ∀ outcome, GetsIntr fdt cache node index num intr outcome ↔
      outcome = intrOfCells fdt prop ⟨c, some parent, kept⟩ index num intr)
    (setting : Interrupts fdt node parent c specifiers prop) :
    Extracts fdt cache node prop c specifiers index num intr := by
  have more : ¬ (specifiers : Int) - index ≤ 0 := by omega
  have left : ((specifiers - index : Nat) : Int) = specifiers - index := Nat.cast_sub inside.le
  have count : (specifiers - index : Int).toNat = specifiers - index := by omega
  simp only [intrOfCells_fewer setting fewer, more, ↓reduceIte, count] at gets
  cases intr with
  | none =>
      rw [extracts_of_only gets]
      refine ⟨?_, fun array isArray => by cases isArray⟩
      rw [if_pos rfl, left]
  | some array =>
      have whole : prop.length = 4 * ((index + (specifiers - index)) * c) := by
        rw [Nat.add_sub_cancel' inside.le]
        exact length
      have start : 0 ≤ specifiers - index → index * c = (index + 0) * c := fun _ => rfl
      obtain ⟨filled, loop, cells⟩ : ∃ filled, intrLoop prop c (specifiers - index) num 0
          (index * c) array = some filled ∧ _ := intrLoop_eq array whole fewer.le start
      simp only [loop, Option.map_some] at gets
      rw [extracts_of_only gets]
      refine ⟨?_, ?_⟩
      · rw [if_neg (Option.some_ne_none array)]
        dsimp only
        rw [← left]
        by_cases short : num < specifiers - index
        · rw [if_pos (by exact_mod_cast short), Nat.min_eq_left short.le]
        · rw [if_neg (by exact_mod_cast short), Nat.min_eq_right (Nat.le_of_not_lt short)]
      · intro other isFilled i first r cell
        cases isFilled
        rw [cells i r, if_pos ⟨Nat.zero_le i, by omega, cell⟩]

end Call

/-- **The descriptors are extracted just then.** -/
theorem extracts_iff (fdt : Libfdt) {cache : Option IntrCache} (right : RightCache fdt cache)
    {node parent : Int} {c specifiers : Nat} {prop : List UInt8}
    (setting : Interrupts fdt node parent c specifiers prop) (index num : Nat)
    (intr : Option IntrArray) :
    Extracts fdt cache node prop c specifiers index num intr ↔
      ExtractsWhen c specifiers index num intr := by
  obtain ⟨kept, gets⟩ := @getsIntr_iff _ _ _ _ _ _ _ index num setting right intr
  unfold ExtractsWhen
  by_cases fewer : c < FDT_MAX_NCELLS.toNat
  · rw [and_iff_right fewer]
    by_cases inside : index < specifiers
    · exact iff_of_true (extracts_inside inside fewer setting.length gets setting) (Or.inl inside)
    · have beyond : (specifiers : Int) - index ≤ 0 := by omega
      simp only [intrOfCells_fewer setting fewer, beyond, ↓reduceIte] at gets
      rw [extracts_beyond inside gets, or_iff_right inside]
  · simp only [intrOfCells_full fewer] at gets
    rw [extracts_of_only gets]
    refine iff_of_false ?_ fun both => fewer both.1
    rintro ⟨ret, -⟩
    dsimp only at ret
    have negative : -FDT_ERR_BADSTRUCTURE < 0 := by decide
    rw [ret] at negative
    split at negative
    · omega
    · omega

theorem cellsPhandle_lt (phandle : Nat) : (if phandle = 1 then (16 : Int) else -6) < 2 ^ 31 := by
  split <;> decide

/-- A device at 8 with one specifier, on an interrupt controller at 16 of so many cells. -/
def cellsController (cells : UInt8) : Libfdt where
  getprop node name :=
    if node = 8 ∧ name = "interrupt-parent" then .ok [0, 0, 0, 1]
    else if node = 8 ∧ name = "interrupts" then
      .ok (List.replicate (4 * cells.toNat) 1)
    else if node = 16 ∧ name = "#interrupt-cells" then .ok [0, 0, 0, cells]
    else if node = 16 ∧ name = "interrupt-controller" then .ok []
    else .error (-FDT_ERR_NOTFOUND)
  nodeOffsetByPhandle phandle := if phandle = 1 then 16 else -6
  parentOffset _ := 0
  getprop_error node name error failed := by
    split at failed
    · cases failed
    split at failed
    · cases failed
    split at failed
    · cases failed
    split at failed
    · cases failed
    · cases failed
      decide
  byPhandle_lt := cellsPhandle_lt
  parent_lt node := by decide

theorem cellsController_setting {cells : UInt8} {c : Nat}
    (told : fdtGetInt (cellsController cells) 16 0 "#interrupt-cells" = .ok (0, c))
    (same : cells.toNat = c) (positive : 1 ≤ c) (small : c ≤ FDT_MAX_NCELLS.toNat) :
    Interrupts (cellsController cells) 8 16 c 1 (List.replicate (4 * c) 1) where
  interrupts := by rw [← same]; rfl
  length := by rw [List.length_replicate, Nat.one_mul]
  below :=
    .here (@NamedParent.phandle _ _ [0, 0, 0, 1] rfl rfl (show (0 : Int) ≤ 16 by decide)) told
  controller := ⟨[], rfl⟩
  positive := positive
  small := small

theorem extracts_three :
    Extracts (cellsController 3) none 8 (List.replicate 12 1) 3 1 0 2 (some fun _ _ => 7) :=
  (extracts_iff (cellsController 3) (fun _ same => by cases same)
    (cellsController_setting (c := 3) rfl rfl (by decide) (by decide)) 0 2 _).mpr
    ⟨by decide, Or.inl (by decide)⟩

/-- A controller of four cells is refused. -/
theorem four_cells_refused :
    Interrupts (cellsController 4) 8 16 4 1 (List.replicate 16 1) ∧
      ¬ Extracts (cellsController 4) none 8 (List.replicate 16 1) 4 1 0 1 none := by
  constructor
  · exact cellsController_setting (c := 4) rfl rfl (by decide) (by decide)
  · intro extracts
    have turn : intrTurn (cellsController 4) none 8 = .ends
        ⟨4, some 16, some ⟨1, 16, 4, by decide, by decide⟩⟩ := rfl
    have got : GetsIntr (cellsController 4) none 8 0 1 none
        (some ⟨-FDT_ERR_BADSTRUCTURE, none, none⟩) := ⟨_, returns_of_ends turn, rfl⟩
    exact absurd (extracts.ret _ got) (by decide)

end Bcm2711.Startup
