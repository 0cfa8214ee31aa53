import Mathlib

/-! # Radix trees of tables in memory

A memory holds tables of entries; an entry may point to another table.  A path of indices leads
from a root through the entries to a table.  As long as different paths lead to different
tables, an entry of a table at the bottom can be written without any other entry being read
differently, and a fresh table can be linked in without any entry being read differently at all.

Some paths may be left out: the invariant is about the good ones only.
-/

namespace Radix

variable {τ ι α ρ : Type*}

/-- The table to which a path leads from another one. -/
def descend (child : α → Option τ) (memory : τ → ι → α) : τ → List ι → Option τ
  | table, [] => some table
  | table, index :: path => (child (memory table index)).bind (descend child memory · path)

/-- Write one entry of a table. -/
def write [DecidableEq τ] [DecidableEq ι] (memory : τ → ι → α) (table : τ) (index : ι) (entry : α) :
    τ → ι → α :=
  Function.update memory table (Function.update (memory table) index entry)

section Descend

variable {child : α → Option τ} {memory other : τ → ι → α} {table found : τ} {index : ι}
  {path rest : List ι}

@[simp] theorem descend_nil : descend child memory table [] = some table := rfl

theorem descend_cons : descend child memory table (index :: path) =
    (child (memory table index)).bind (descend child memory · path) := rfl

theorem descend_append : descend child memory table (path ++ rest) =
    (descend child memory table path).bind (descend child memory · rest) := by
  induction path generalizing table with
  | nil => rfl
  | cons index path ih =>
      rw [List.cons_append, descend_cons, descend_cons, Option.bind_assoc]
      congr 1
      funext next
      exact ih

/-- One more index reads one more entry. -/
theorem descend_concat (reached : descend child memory table path = some found) :
    descend child memory table (path ++ [index]) = child (memory found index) := by
  rw [descend_append, reached, Option.bind_some, descend_cons]
  cases child (memory found index) <;> rfl

/-- A path that reads the same entries in two memories leads to the same table. -/
theorem descend_congr
    (same : ∀ shorter index, (shorter ++ [index]) <+: path → ∀ found,
      descend child memory table shorter = some found →
        child (other found index) = child (memory found index)) :
    descend child other table path = descend child memory table path := by
  induction path generalizing table with
  | nil => rfl
  | cons index path ih =>
      have here : child (other table index) = child (memory table index) :=
        same [] index ⟨path, rfl⟩ table rfl
      rw [descend_cons, descend_cons, here]
      cases step : child (memory table index) with
      | none => rfl
      | some next =>
          apply ih
          intro shorter later inside found reached
          refine same (index :: shorter) later ?_ found ?_
          · exact List.cons_prefix_cons.mpr ⟨rfl, inside⟩
          · rw [descend_cons, step]
            exact reached

end Descend

section Write

variable [DecidableEq τ] [DecidableEq ι] {memory : τ → ι → α} {table other : τ} {index slot : ι}
  {entry : α}

@[simp] theorem write_same : write memory table index entry table index = entry := by
  simp [write]

theorem write_of_table_ne (different : other ≠ table) :
    write memory table index entry other = memory other := by
  simp [write, different]

theorem write_of_ne (different : ¬(other = table ∧ slot = index)) :
    write memory table index entry other slot = memory other slot := by
  by_cases here : other = table
  · subst here
    have elsewhere : slot ≠ index := fun same => different ⟨rfl, same⟩
    simp [write, elsewhere]
  · rw [write_of_table_ne here]

end Write

/-! ## Trees without sharing -/

/-- What the invariant needs to know of the good paths: their beginnings are good. -/
structure Paths (good : ρ → List ι → Prop) : Prop where
  init : ∀ {root path rest}, good root (path ++ rest) → good root path

/-- Good paths of bounded length lead from the roots to different tables, all of which are in
use. -/
structure Forest (child : α → Option τ) (root : ρ → τ) (good : ρ → List ι → Prop) (depth : ℕ)
    (used : τ → Prop) (memory : τ → ι → α) : Prop where
  inUse : ∀ {tree path table}, good tree path → path.length ≤ depth →
    descend child memory (root tree) path = some table → used table
  apart : ∀ {tree path tree' path' table}, good tree path → good tree' path' →
    path.length ≤ depth → path'.length ≤ depth →
    descend child memory (root tree) path = some table →
    descend child memory (root tree') path' = some table → tree = tree' ∧ path = path'

namespace Forest

variable [DecidableEq τ] [DecidableEq ι] {child : α → Option τ} {root : ρ → τ}
  {good : ρ → List ι → Prop} {depth : ℕ} {used : τ → Prop} {memory : τ → ι → α}
  {tree tree' : ρ} {path path' : List ι} {table fresh : τ} {index : ι} {entry : α}

omit [DecidableEq τ] [DecidableEq ι] in
theorem mono (forest : Forest child root good depth used memory) {more : τ → Prop}
    (inMore : ∀ table, used table → more table) :
    Forest child root good depth more memory where
  inUse isGood short reached := inMore _ (forest.inUse isGood short reached)
  apart := forest.apart

section Bottom

variable {after : τ → ι → α} (forest : Forest child root good depth used memory)
  (paths : Paths good) (isGood : good tree path) (bottom : path.length = depth)
  (reached : descend child memory (root tree) path = some table)
  (same : ∀ other, other ≠ table → after other = memory other)

include forest paths isGood bottom reached same

omit [DecidableEq τ] [DecidableEq ι] in
/-- What is written to a table at the bottom changes no way. -/
theorem descend_bottom (isGood' : good tree' path') (short : path'.length ≤ depth) :
    descend child after (root tree') path' = descend child memory (root tree') path' := by
  apply descend_congr
  intro shorter later ⟨rest, inside⟩ found reached'
  have whole : good tree' (shorter ++ ([later] ++ rest)) := by
    rw [← List.append_assoc, inside]
    exact isGood'
  have good' : good tree' shorter := paths.init whole
  have long : shorter.length < depth := by
    have total := congrArg List.length inside
    simp only [List.length_append, List.length_cons, List.length_nil] at total
    omega
  have different : found ≠ table := by
    rintro rfl
    obtain ⟨-, same⟩ := forest.apart isGood good' bottom.le long.le reached reached'
    rw [same] at bottom
    omega
  rw [same found different]

omit [DecidableEq τ] [DecidableEq ι] in
theorem rewritten : Forest child root good depth used after where
  inUse := by
    intro tree' path' table' isGood' short reached'
    rw [forest.descend_bottom paths isGood bottom reached same isGood' short] at reached'
    exact forest.inUse isGood' short reached'
  apart := by
    intro tree₁ path₁ tree₂ path₂ table' good₁ good₂ short₁ short₂ reached₁ reached₂
    rw [forest.descend_bottom paths isGood bottom reached same good₁ short₁] at reached₁
    rw [forest.descend_bottom paths isGood bottom reached same good₂ short₂] at reached₂
    exact forest.apart good₁ good₂ short₁ short₂ reached₁ reached₂

end Bottom

/-- The memory with a cleared table, to which one entry points. -/
def linked (memory : τ → ι → α) (empty : α) (fresh table : τ) (index : ι) (entry : α) :
    τ → ι → α :=
  Radix.write (Function.update memory fresh fun _ => empty) table index entry

variable {empty : α}

/-- A fresh table that is linked in is at the end of one way; the other ways are kept. -/
theorem descend_linked (forest : Forest child root good depth used memory) (paths : Paths good)
    (isGood : good tree (path ++ [index])) (short : path.length < depth)
    (reached : descend child memory (root tree) path = some table)
    (free : child (memory table index) = none) (isFresh : ¬ used fresh)
    (isEmpty : child empty = none) (points : child entry = some fresh)
    (isGood' : good tree' path') (short' : path'.length ≤ depth) :
    descend child (linked memory empty fresh table index entry) (root tree') path' =
      open Classical in
      if tree' = tree ∧ path' = path ++ [index] then some fresh
      else descend child memory (root tree') path' := by
  have tableUsed : used table := forest.inUse (paths.init isGood) short.le reached
  have freshNe : fresh ≠ table := by
    rintro rfl
    exact isFresh tableUsed
  have noWay : descend child memory (root tree) (path ++ [index]) = none := by
    rw [descend_concat reached, free]
  induction path' using List.reverseRecOn with
  | nil =>
      rw [if_neg (by simp)]
      rfl
  | append_singleton shorter later ih =>
      have shorterGood : good tree' shorter := paths.init isGood'
      have shorterShort : shorter.length < depth := by
        rw [List.length_append, List.length_singleton] at short'
        omega
      rw [descend_append, ih shorterGood shorterShort.le]
      by_cases atFresh : tree' = tree ∧ shorter = path ++ [index]
      · -- The fresh table is empty, and nothing was below its place.
        obtain ⟨rfl, rfl⟩ := atFresh
        rw [if_pos ⟨rfl, rfl⟩, if_neg (by simp), Option.bind_some, descend_cons, linked,
          write_of_table_ne freshNe, Function.update_self, isEmpty, descend_append, noWay]
        rfl
      · rw [if_neg atFresh]
        cases way : descend child memory (root tree') shorter with
        | none =>
            have elsewhere : ¬(tree' = tree ∧ shorter ++ [later] = path ++ [index]) := by
              rintro ⟨rfl, same⟩
              obtain ⟨rfl, -⟩ := List.append_inj' same rfl
              rw [reached] at way
              cases way
            rw [if_neg elsewhere, descend_append, way]
            rfl
        | some found =>
            have foundUsed : used found := forest.inUse shorterGood shorterShort.le way
            have foundNe : found ≠ fresh := by
              rintro rfl
              exact isFresh foundUsed
            rw [Option.bind_some, descend_cons]
            by_cases here : found = table
            · subst here
              obtain ⟨rfl, rfl⟩ := forest.apart shorterGood (paths.init isGood) shorterShort.le
                short.le way reached
              by_cases same : later = index
              · subst same
                rw [if_pos ⟨rfl, rfl⟩, linked, write_same, points]
                rfl
              · have elsewhere : ¬(tree' = tree' ∧ shorter ++ [later] = shorter ++ [index]) := by
                  simpa using same
                rw [if_neg elsewhere, descend_append, way, linked,
                  write_of_ne (fun both => same both.2), Function.update_of_ne foundNe]
                rfl
            · have elsewhere : ¬(tree' = tree ∧ shorter ++ [later] = path ++ [index]) := by
                rintro ⟨rfl, same⟩
                obtain ⟨rfl, -⟩ := List.append_inj' same rfl
                exact here (Option.some.inj (way.symm.trans reached))
              rw [if_neg elsewhere, descend_append, way, linked, write_of_table_ne here,
                Function.update_of_ne foundNe]
              rfl

theorem link (forest : Forest child root good depth used memory) (paths : Paths good)
    (isGood : good tree (path ++ [index])) (short : path.length < depth)
    (reached : descend child memory (root tree) path = some table)
    (free : child (memory table index) = none) (isFresh : ¬ used fresh)
    (isEmpty : child empty = none) (points : child entry = some fresh) :
    Forest child root good depth (fun table => used table ∨ table = fresh)
      (linked memory empty fresh table index entry) where
  inUse := by
    intro tree' path' table' isGood' short' reached'
    rw [forest.descend_linked paths isGood short reached free isFresh isEmpty points isGood'
      short'] at reached'
    split at reached'
    · exact Or.inr (Option.some.inj reached').symm
    · exact Or.inl (forest.inUse isGood' short' reached')
  apart := by
    intro tree₁ path₁ tree₂ path₂ table' good₁ good₂ short₁ short₂ reached₁ reached₂
    rw [forest.descend_linked paths isGood short reached free isFresh isEmpty points good₁
      short₁] at reached₁
    rw [forest.descend_linked paths isGood short reached free isFresh isEmpty points good₂
      short₂] at reached₂
    split at reached₁ <;> split at reached₂
    · rename_i first second
      exact ⟨first.1.trans second.1.symm, first.2.trans second.2.symm⟩
    · cases reached₁
      exact absurd (forest.inUse good₂ short₂ reached₂) isFresh
    · cases reached₂
      exact absurd (forest.inUse good₁ short₁ reached₁) isFresh
    · exact forest.apart good₁ good₂ short₁ short₂ reached₁ reached₂

/-! ## The entries at the bottom -/

/-- The entry at the end of a way, or the empty entry where there is no way. -/
def leaf (child : α → Option τ) (empty : α) (memory : τ → ι → α) (table : τ) (path : List ι)
    (index : ι) : α :=
  ((descend child memory table path).map (memory · index)).getD empty

omit [DecidableEq τ] [DecidableEq ι] in
theorem leaf_of_reached {slot : ι} {top : τ}
    (reached : descend child memory top path = some table) :
    leaf child empty memory top path slot = memory table slot := by
  rw [leaf, reached]
  rfl

omit [DecidableEq τ] [DecidableEq ι] in
/-- What is written to a table at the bottom is not read on another way. -/
theorem leaf_bottom {after : τ → ι → α} (forest : Forest child root good depth used memory)
    (paths : Paths good) (isGood : good tree path) (bottom : path.length = depth)
    (reached : descend child memory (root tree) path = some table)
    (same : ∀ other, other ≠ table → after other = memory other)
    (isGood' : good tree' path') (bottom' : path'.length = depth) (slot : ι)
    (elsewhere : ¬(tree' = tree ∧ path' = path)) :
    leaf child empty after (root tree') path' slot =
      leaf child empty memory (root tree') path' slot := by
  rw [leaf, leaf, forest.descend_bottom paths isGood bottom reached same isGood' bottom'.le]
  cases way : descend child memory (root tree') path' with
  | none => rfl
  | some found =>
      rw [Option.map_some, Option.map_some, same]
      rintro rfl
      exact elsewhere (forest.apart isGood' isGood bottom'.le bottom.le way reached)

theorem leaf_linked (forest : Forest child root good depth used memory) (paths : Paths good)
    (isGood : good tree (path ++ [index])) (short : path.length < depth)
    (reached : descend child memory (root tree) path = some table)
    (free : child (memory table index) = none) (isFresh : ¬ used fresh)
    (isEmpty : child empty = none) (points : child entry = some fresh)
    (isGood' : good tree' path') (bottom' : path'.length = depth) (slot : ι) :
    leaf child empty (linked memory empty fresh table index entry) (root tree') path' slot =
      leaf child empty memory (root tree') path' slot := by
  have freshNe : fresh ≠ table := by
    rintro rfl
    exact isFresh (forest.inUse (paths.init isGood) short.le reached)
  rw [leaf, leaf, forest.descend_linked paths isGood short reached free isFresh isEmpty points
    isGood' bottom'.le]
  split
  · rename_i same
    obtain ⟨rfl, rfl⟩ := same
    rw [descend_concat reached, free, Option.map_some, Option.map_none, linked,
      write_of_table_ne freshNe, Function.update_self]
    rfl
  · cases way : descend child memory (root tree') path' with
    | none => rfl
    | some found =>
        have foundNe : found ≠ table := by
          rintro rfl
          obtain ⟨-, rfl⟩ := forest.apart isGood' (paths.init isGood) bottom'.le short.le way
            reached
          omega
        have notFresh : found ≠ fresh := by
          rintro rfl
          exact isFresh (forest.inUse isGood' bottom'.le way)
        rw [Option.map_some, Option.map_some, linked, write_of_table_ne foundNe,
          Function.update_of_ne notFresh]

end Forest

end Radix
