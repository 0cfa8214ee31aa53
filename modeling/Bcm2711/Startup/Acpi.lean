import Bcm2711.Lib.Cursor
import Bcm2711.Startup.Types

/-! # The ACPI tables

`acpi_find_table_next` builds the array of the tables that the root table lists when it is called
first, and searches it behind the table found before.  The array of an XSDT is to hold the DSDT
of a FADT as well; that is stored with one index while the table looked at is taken with another
one, and the array has room for one DSDT.
-/

namespace Bcm2711.Startup

/-- What is read of a table. -/
structure AcpiTable where
  signature : Nat
  length : Nat
  /-- `fadt.DSDT`. -/
  dsdt : Nat
  /-- `fadt.X_DSDT`. -/
  xDsdt : Nat

/-- `ACPI_FADT_SIGNATURE`: `"FACP"`. -/
def ACPI_FADT_SIGNATURE : Nat := 0x50434146

/-- `ACPI_RSDP_REVISION_1_0`. -/
def ACPI_RSDP_REVISION_1_0 : Nat := 0

/-- What the root pointer leads to: the entries of the two root tables. -/
structure AcpiRsdp where
  revision : Nat
  xsdtAddress : Nat
  rsdt : List Nat
  xsdt : List Nat

/-- `tbl_array`: what was stored in it from the first entry on, and the entries allocated. -/
structure TblArray where
  stored : List Nat
  room : Nat
  numTbls : Nat
deriving DecidableEq, Repr

/-- `num_tbls`, which is -1 at first, and `tbl_array`. -/
structure AcpiState where
  numTbls : Option Nat
  tblArray : Option TblArray

/-- The static variables at the start. -/
def AcpiState.initial : AcpiState := ⟨none, none⟩

/-- One round of the loop over the entries of an XSDT, with its `i`; the entries of the array
were set to `NULL_PADDR` before. -/
def xsdtEntry (tables : Nat → AcpiTable) (stored : List Nat) (entry : Nat × Nat) : List Nat :=
  let stored := stored ++ [entry.1]
  let generic := tables (stored.getD entry.2 nullPaddr)
  if generic.signature = ACPI_FADT_SIGNATURE ∧ generic.xDsdt ≠ nullPaddr then
    stored ++ [generic.xDsdt]
  else stored

/-- The array for a root table. -/
def buildTblArray (tables : Nat → AcpiTable) (root : AcpiRsdp) : TblArray :=
  if root.revision = ACPI_RSDP_REVISION_1_0 ∨ root.xsdtAddress = 0 then
    ⟨root.rsdt, root.rsdt.length, root.rsdt.length⟩
  else
    let stored := root.xsdt.zipIdx.foldl (xsdtEntry tables) []
    let numTbls := root.xsdt.length + 1
    ⟨stored, numTbls, if stored.length < numTbls then stored.length else numTbls⟩

/-- The loop that searches: the table found, and what was last stored through `lenp`. -/
def searchTables (tables : Nat → AcpiTable) (name start : Nat) : (searching : Bool) →
    List Nat → Nat × Option Nat
  | _, [] => (nullPaddr, none)
  | true, paddr :: rest =>
      let len := (tables paddr).length
      if (tables paddr).signature = name then (paddr, some len)
      else
        let (found, later) := searchTables tables name start true rest
        (found, some (later.getD len))
  | false, paddr :: rest => searchTables tables name start (start = paddr) rest

/-- `acpi_find_table_next`; `wsAlloc` tells whether `ws_alloc` has room for the array. -/
def acpiFindTableNext (root : Option AcpiRsdp) (tables : Nat → AcpiTable) (wsAlloc : Bool)
    (state : AcpiState) (name start : Nat) : AcpiState × Nat × Option Nat :=
  if state.numTbls = some 0 then (state, nullPaddr, none)
  else
    match state.tblArray, root with
    | some array, _ =>
        (state, searchTables tables name start (start = nullPaddr)
          (array.stored.take array.numTbls))
    | none, none => (⟨some 0, none⟩, nullPaddr, none)
    | none, some root =>
        let array := buildTblArray tables root
        if wsAlloc = false then (⟨some array.room, none⟩, nullPaddr, none)
        else
          (⟨some array.numTbls, some array⟩, searchTables tables name start (start = nullPaddr)
            (array.stored.take array.numTbls))

/-- The calls for a signature, each with the result of the one before. -/
def acpiCalls (root : AcpiRsdp) (tables : Nat → AcpiTable) (name : Nat) : Nat → AcpiState × Nat
  | 0 =>
      let (state, paddr, _) := acpiFindTableNext (some root) tables true .initial name nullPaddr
      (state, paddr)
  | calls + 1 =>
      let (state, last) := acpiCalls root tables name calls
      let (state, paddr, _) := acpiFindTableNext (some root) tables true state name last
      (state, paddr)

/-! ## What is to be enumerated -/

/-- The address of the DSDT that a table of an RSDT or an XSDT has. -/
def AcpiRsdp.dsdtOf (root : AcpiRsdp) (table : AcpiTable) : Option Nat :=
  if table.signature ≠ ACPI_FADT_SIGNATURE then none
  else if root.revision = ACPI_RSDP_REVISION_1_0 ∨ root.xsdtAddress = 0 then
    if table.dsdt = 0 then none else some table.dsdt
  else if table.xDsdt = 0 ∨ table.xDsdt = nullPaddr then none else some table.xDsdt

/-- The entries of the root table that is used. -/
def AcpiRsdp.listed (root : AcpiRsdp) : List Nat :=
  if root.revision = ACPI_RSDP_REVISION_1_0 ∨ root.xsdtAddress = 0 then root.rsdt else root.xsdt

/-- The listed tables in order, each FADT with its DSDT behind it. -/
def AcpiRsdp.wanted (root : AcpiRsdp) (tables : Nat → AcpiTable) : List Nat :=
  root.listed.flatMap fun entry => entry :: (root.dsdtOf (tables entry)).toList

/-- The array is built in its room and as wanted, and the calls for every signature return its
tables one after the other. -/
structure AcpiExact (root : AcpiRsdp) (tables : Nat → AcpiTable) : Prop where
  inside : (buildTblArray tables root).stored.length ≤ (buildTblArray tables root).room
  array : (buildTblArray tables root).stored.take (buildTblArray tables root).numTbls =
    root.wanted tables
  calls : ∀ name calls,
    calls ≤ ((root.wanted tables).filter fun paddr => (tables paddr).signature = name).length →
    (acpiCalls root tables name calls).2 =
      ((root.wanted tables).filter fun paddr => (tables paddr).signature = name).getD calls
        nullPaddr

/-- The code takes a table for a FADT with a DSDT. -/
def AcpiTable.Taken (table : AcpiTable) : Prop :=
  table.signature = ACPI_FADT_SIGNATURE ∧ table.xDsdt ≠ nullPaddr

instance (table : AcpiTable) : Decidable table.Taken :=
  inferInstanceAs (Decidable (_ ∧ _))

/-- What an RSDT or an XSDT must be like: no FADT of an RSDT has a DSDT.  Of an XSDT no table is
taken for a FADT with a DSDT, or the first one that is has one and is the only one; then none but
the last table behind it is taken for such a FADT, nor is the DSDT, unless nothing is behind. -/
def AcpiRsdp.OneFadt (root : AcpiRsdp) (tables : Nat → AcpiTable) : Prop :=
  if root.revision = ACPI_RSDP_REVISION_1_0 ∨ root.xsdtAddress = 0 then
    ∀ entry ∈ root.rsdt, root.dsdtOf (tables entry) = none
  else
    match root.xsdt.dropWhile (fun entry => ¬ (tables entry).Taken) with
    | [] => True
    | fadt :: behind =>
        (root.dsdtOf (tables fadt)).isSome ∧
        (∀ entry ∈ behind, root.dsdtOf (tables entry) = none) ∧
        (∀ entry ∈ behind.dropLast, ¬ (tables entry).Taken) ∧
        (behind ≠ [] → ¬ (tables (tables fadt).xDsdt).Taken)

/-! ## Searching -/

section Search

variable {tables : Nat → AcpiTable} {root : AcpiRsdp} {name start : Nat} {list : List Nat}

/-- The tables with a signature. -/
def hasSignature (tables : Nat → AcpiTable) (name paddr : Nat) : Bool :=
  (tables paddr).signature = name

theorem searchTables_from_start (list : List Nat) :
    (searchTables tables name start true list).1 =
      (list.find? (hasSignature tables name)).getD nullPaddr := by
  induction list with
  | nil => rfl
  | cons paddr rest ih =>
      by_cases matched : (tables paddr).signature = name
      · have found : hasSignature tables name paddr = true := decide_eq_true matched
        rw [searchTables, if_pos matched, List.find?_cons_of_pos found]
        rfl
      · have other : ¬ hasSignature tables name paddr = true := by
          simpa [hasSignature] using matched
        rw [searchTables, if_neg matched, List.find?_cons_of_neg other, ← ih]

theorem searchTables_behind (list : List Nat) :
    (searchTables tables name start false list).1 =
      (Cursor.behind (hasSignature tables name) start list).getD nullPaddr := by
  induction list with
  | nil => rfl
  | cons paddr rest ih =>
      rw [searchTables, Cursor.behind]
      by_cases here : start = paddr
      · rw [if_pos here, decide_eq_true here]
        exact searchTables_from_start rest
      · rw [if_neg here, decide_eq_false here]
        exact ih

/-- The calls return what the searches of the array find. -/
theorem acpiCalls_eq (array : (buildTblArray tables root).stored.take
      (buildTblArray tables root).numTbls = list) (real : nullPaddr ∉ list) (nodup : list.Nodup)
    {calls : Nat} (few : calls ≤ (list.filter (hasSignature tables name)).length) :
    acpiCalls root tables name calls =
      (⟨some (buildTblArray tables root).numTbls, some (buildTblArray tables root)⟩,
        (list.filter (hasSignature tables name)).getD calls nullPaddr) := by
  rw [List.getD_eq_getElem?_getD, ← Cursor.results_eq nodup]
  induction calls with
  | zero =>
      have found : (searchTables tables name nullPaddr true list).1 = _ :=
        searchTables_from_start list
      simp only [acpiCalls, acpiFindTableNext, AcpiState.initial, array]
      exact congrArg (Prod.mk _) found
  | succ calls ih =>
      have inside : calls < (list.filter (hasSignature tables name)).length := by omega
      have last : Cursor.results (hasSignature tables name) list calls = _ :=
        Cursor.results_eq nodup calls
      rw [List.getElem?_eq_getElem inside] at last
      have member := (List.mem_filter.mp (List.getElem_mem inside)).1
      generalize (list.filter (hasSignature tables name))[calls] = paddr at last member
      have start : (paddr = nullPaddr) = False := by
        rw [eq_iff_iff, iff_false]
        rintro rfl
        exact real member
      have some_tables : (buildTblArray tables root).numTbls ≠ 0 := by
        intro none
        rw [none, List.take_zero] at array
        rw [← array] at member
        cases member
      have found : (searchTables tables name paddr false list).1 = _ := searchTables_behind list
      rw [acpiCalls, ih (by omega), Cursor.results, last]
      simp only [acpiFindTableNext, Option.getD_some, start, array, Option.some.injEq,
        some_tables, if_false, decide_false]
      exact congrArg (Prod.mk _) found

end Search

/-! ## Filling the array -/

section Fill

variable {tables : Nat → AcpiTable}

theorem xsdtEntry_untaken (stored : List Nat) (entry index : Nat)
    (untaken : ¬ (tables ((stored ++ [entry]).getD index nullPaddr)).Taken) :
    xsdtEntry tables stored (entry, index) = stored ++ [entry] :=
  if_neg untaken

theorem xsdtEntry_taken (tables : Nat → AcpiTable) (stored : List Nat) (entry index : Nat)
    (taken : (tables ((stored ++ [entry]).getD index nullPaddr)).Taken) :
    xsdtEntry tables stored (entry, index) = stored ++ [entry] ++
      [(tables ((stored ++ [entry]).getD index nullPaddr)).xDsdt] :=
  if_pos taken

/-- The entry behind the first ones. -/
theorem getD_here (front : List Nat) (entry : Nat) (behind : List Nat) :
    (front ++ entry :: behind).getD front.length nullPaddr = entry := by
  rw [List.getD_eq_getElem?_getD, List.getElem?_append_right (le_refl _), Nat.sub_self]
  rfl

/-- While no table is taken for a FADT with a DSDT the array is the list of the entries. -/
theorem fill_untaken {rest : List Nat} (done : List Nat)
    (untaken : ∀ entry ∈ rest, ¬ (tables entry).Taken) :
    (rest.zipIdx done.length).foldl (xsdtEntry tables) done = done ++ rest := by
  induction rest generalizing done with
  | nil => exact (List.append_nil done).symm
  | cons entry rest ih =>
      have same := getD_here done entry []
      have stored : xsdtEntry tables done (entry, done.length) = done ++ [entry] := by
        apply xsdtEntry_untaken
        rw [same]
        exact untaken entry List.mem_cons_self
      have later := ih (done ++ [entry]) fun other member =>
        untaken other (List.mem_cons_of_mem _ member)
      rw [List.length_append, List.length_singleton] at later
      rw [List.zipIdx_cons, List.foldl_cons, stored, later, List.append_assoc]
      rfl

/-- Every entry adds at least one to the array. -/
theorem length_fill (tables : Nat → AcpiTable) (rest : List Nat) (index : Nat) (stored : List Nat) :
    stored.length + rest.length ≤
      ((rest.zipIdx index).foldl (xsdtEntry tables) stored).length := by
  induction rest generalizing index stored with
  | nil => exact le_refl _
  | cons entry rest ih =>
      have later := ih (index + 1) (xsdtEntry tables stored (entry, index))
      have grown : stored.length + 1 ≤ (xsdtEntry tables stored (entry, index)).length := by
        by_cases taken : (tables ((stored ++ [entry]).getD index nullPaddr)).Taken
        · rw [xsdtEntry_taken _ _ _ _ taken, List.length_append, List.length_append,
            List.length_singleton]
          omega
        · rw [xsdtEntry_untaken _ _ _ taken, List.length_append, List.length_singleton]
      rw [List.zipIdx_cons, List.foldl_cons, List.length_cons]
      omega

/-- What the loop looks at behind a DSDT: the DSDT and all but the last entry. -/
def NoneTaken (tables : Nat → AcpiTable) (last : Nat) (rest : List Nat) : Prop :=
  (rest ≠ [] → ¬ (tables last).Taken) ∧ ∀ entry ∈ rest.dropLast, ¬ (tables entry).Taken

theorem noneTaken_cons {last entry : Nat} {rest : List Nat} :
    NoneTaken tables last (entry :: rest) ↔
      ¬ (tables last).Taken ∧ NoneTaken tables entry rest := by
  cases rest with
  | nil => simp [NoneTaken]
  | cons next rest => simp [NoneTaken]

/-- Behind a DSDT the table looked at is the one stored before. -/
theorem fill_noneTaken {rest : List Nat} {last : Nat} (front : List Nat)
    (noneTaken : NoneTaken tables last rest) :
    (rest.zipIdx front.length).foldl (xsdtEntry tables) (front ++ [last]) =
      front ++ last :: rest := by
  induction rest generalizing front last with
  | nil => rfl
  | cons entry rest ih =>
      obtain ⟨untaken, noneTaken⟩ := noneTaken_cons.mp noneTaken
      have same : ((front ++ [last]) ++ [entry]).getD front.length nullPaddr = last := by
        rw [List.append_assoc]
        exact getD_here front last [entry]
      have stored := xsdtEntry_untaken (front ++ [last]) entry front.length
          (by rwa [same])
      have later := ih (front ++ [last]) noneTaken
      rw [List.length_append, List.length_singleton] at later
      rw [List.zipIdx_cons, List.foldl_cons, stored, later, List.append_assoc]
      rfl

/-- A second DSDT makes the array longer than it may be. -/
theorem fill_someTaken {rest : List Nat} {last : Nat} (front : List Nat)
    (someTaken : ¬ NoneTaken tables last rest) :
    front.length + 1 + rest.length <
      ((rest.zipIdx front.length).foldl (xsdtEntry tables) (front ++ [last])).length := by
  induction rest generalizing front last with
  | nil => exact absurd ⟨fun some => absurd rfl some, fun entry member => by cases member⟩ someTaken
  | cons entry rest ih =>
      have same : ((front ++ [last]) ++ [entry]).getD front.length nullPaddr = last := by
        rw [List.append_assoc]
        exact getD_here front last [entry]
      rw [List.zipIdx_cons, List.foldl_cons, List.length_cons]
      by_cases taken : (tables last).Taken
      · have stored := xsdtEntry_taken tables (front ++ [last]) entry front.length
          (by rwa [same])
        have later := length_fill tables rest (front.length + 1)
          (xsdtEntry tables (front ++ [last]) (entry, front.length))
        rw [stored] at later ⊢
        simp only [List.length_append, List.length_singleton] at later
        omega
      · have stored := xsdtEntry_untaken (front ++ [last]) entry front.length
          (by rwa [same])
        have later := ih (front ++ [last]) fun noneTaken =>
          someTaken (noneTaken_cons.mpr ⟨taken, noneTaken⟩)
        rw [List.length_append, List.length_singleton] at later
        rw [stored]
        omega

end Fill

/-! ## When the enumeration is exact -/

section Exact

variable {tables : Nat → AcpiTable} {root : AcpiRsdp}

/-- Inserting as little as nothing changes a list only if nothing is inserted. -/
theorem length_insert (insert : Nat → Option Nat) (list : List Nat) :
    list.length ≤ (list.flatMap fun entry => entry :: (insert entry).toList).length ∧
      ((list.flatMap fun entry => entry :: (insert entry).toList).length = list.length →
        ∀ entry ∈ list, insert entry = none) := by
  induction list with
  | nil => exact ⟨le_refl _, fun _ entry member => by cases member⟩
  | cons entry rest ih =>
      obtain ⟨longer, same⟩ := ih
      rw [List.flatMap_cons, List.length_append, List.length_cons, List.length_cons]
      refine ⟨by omega, fun equal other member => ?_⟩
      have nothing : (insert entry).toList.length = 0 := by omega
      rcases List.mem_cons.mp member with rfl | later
      · cases inserted : insert other with
        | none => rfl
        | some paddr =>
            rw [inserted] at nothing
            cases nothing
      · exact same (by omega) other later

theorem insert_nothing {insert : Nat → Option Nat} {list : List Nat}
    (nothing : ∀ entry ∈ list, insert entry = none) :
    (list.flatMap fun entry => entry :: (insert entry).toList) = list := by
  induction list with
  | nil => rfl
  | cons entry rest ih =>
      rw [List.flatMap_cons, nothing entry List.mem_cons_self,
        ih fun other member => nothing other (List.mem_cons_of_mem _ member)]
      rfl

theorem insert_nothing_iff {insert : Nat → Option Nat} {list : List Nat} :
    (list.flatMap fun entry => entry :: (insert entry).toList) = list ↔
      ∀ entry ∈ list, insert entry = none :=
  ⟨fun same => (length_insert insert list).2 (congrArg List.length same), insert_nothing⟩

/-- The enumeration is exact when the array is. -/
theorem acpiExact_iff (nodup : (root.wanted tables).Nodup)
    (real : nullPaddr ∉ root.wanted tables) :
    AcpiExact root tables ↔
      (buildTblArray tables root).stored.length ≤ (buildTblArray tables root).room ∧
      (buildTblArray tables root).stored.take (buildTblArray tables root).numTbls =
        root.wanted tables := by
  constructor
  · rintro ⟨inside, array, -⟩
    exact ⟨inside, array⟩
  · rintro ⟨inside, array⟩
    refine ⟨inside, array, fun name calls few => ?_⟩
    rw [acpiCalls_eq array real nodup few]
    rfl

/-- The array for an XSDT. -/
theorem buildTblArray_xsdt (tables : Nat → AcpiTable)
    (xsdt : ¬ (root.revision = ACPI_RSDP_REVISION_1_0 ∨ root.xsdtAddress = 0)) :
    (buildTblArray tables root).stored = root.xsdt.zipIdx.foldl (xsdtEntry tables) [] ∧
      (buildTblArray tables root).room = root.xsdt.length + 1 ∧
      (buildTblArray tables root).numTbls =
        min (root.xsdt.zipIdx.foldl (xsdtEntry tables) []).length (root.xsdt.length + 1) := by
  rw [buildTblArray, if_neg xsdt]
  refine ⟨rfl, rfl, ?_⟩
  change ite (_ < _) _ _ = _
  split <;> omega

variable (xsdt : ¬ (root.revision = ACPI_RSDP_REVISION_1_0 ∨ root.xsdtAddress = 0))

include xsdt

theorem dsdtOf_untaken {table : AcpiTable} (untaken : ¬ table.Taken) :
    root.dsdtOf table = none := by
  rw [AcpiRsdp.dsdtOf]
  by_cases fadt : table.signature = ACPI_FADT_SIGNATURE
  · have noDsdt : table.xDsdt = nullPaddr := by
      by_contra some
      exact untaken ⟨fadt, some⟩
    rw [if_neg (not_not.mpr fadt), if_neg xsdt, if_pos (Or.inr noDsdt)]
  · rw [if_pos fadt]

theorem dsdtOf_taken {table : AcpiTable} (taken : table.Taken) :
    root.dsdtOf table = if table.xDsdt = 0 then none else some table.xDsdt := by
  rw [AcpiRsdp.dsdtOf, if_neg (not_not.mpr taken.1), if_neg xsdt]
  by_cases zero : table.xDsdt = 0
  · rw [if_pos zero, if_pos (Or.inl zero)]
  · rw [if_neg zero, if_neg (not_or.mpr ⟨zero, taken.2⟩)]

/-- What is stored up to the first table taken for a FADT with a DSDT, and behind it. -/
theorem fill_first {front behind : List Nat} {fadt : Nat}
    (split : root.xsdt = front ++ fadt :: behind)
    (untaken : ∀ entry ∈ front, ¬ (tables entry).Taken) (taken : (tables fadt).Taken) :
    (buildTblArray tables root).stored =
      (behind.zipIdx (front ++ [fadt]).length).foldl (xsdtEntry tables)
        ((front ++ [fadt]) ++ [(tables fadt).xDsdt]) := by
  have before := fill_untaken [] untaken
  have same := getD_here front fadt []
  have entry := xsdtEntry_taken tables front fadt front.length (by rwa [same])
  rw [same] at entry
  rw [List.length_nil, List.nil_append] at before
  rw [(buildTblArray_xsdt tables xsdt).1, split, List.zipIdx_append, List.foldl_append, before,
    Nat.zero_add, List.zipIdx_cons, List.foldl_cons, entry, List.length_append,
    List.length_singleton]

/-- Without a table taken for a FADT with a DSDT the array is the list of the entries. -/
theorem array_untaken (untaken : ∀ entry ∈ root.xsdt, ¬ (tables entry).Taken) :
    (buildTblArray tables root).stored.length ≤ (buildTblArray tables root).room ∧
      (buildTblArray tables root).stored.take (buildTblArray tables root).numTbls =
        root.wanted tables := by
  obtain ⟨stored, room, numTbls⟩ := buildTblArray_xsdt tables xsdt
  have fill := fill_untaken [] untaken
  rw [List.length_nil, List.nil_append] at fill
  rw [fill] at stored numTbls
  have wanted : root.wanted tables = root.xsdt := by
    rw [AcpiRsdp.wanted, AcpiRsdp.listed, if_neg xsdt]
    exact insert_nothing fun entry member => dsdtOf_untaken xsdt (untaken entry member)
  rw [wanted, stored, room, numTbls]
  exact ⟨Nat.le_succ _, List.take_of_length_le (by omega)⟩

/-- The tables wanted when the front of the entries is not taken for a FADT with a DSDT. -/
theorem wanted_split {front behind : List Nat} {fadt : Nat}
    (split : root.xsdt = front ++ fadt :: behind)
    (untaken : ∀ entry ∈ front, ¬ (tables entry).Taken) :
    root.wanted tables = (front ++ [fadt]) ++ ((root.dsdtOf (tables fadt)).toList ++
      behind.flatMap fun entry => entry :: (root.dsdtOf (tables entry)).toList) := by
  have before := insert_nothing fun entry member => dsdtOf_untaken xsdt (untaken entry member)
  rw [AcpiRsdp.wanted, AcpiRsdp.listed, if_neg xsdt, split, List.flatMap_append, before,
    List.flatMap_cons, List.append_assoc]
  rfl

/-- What is behind the first FADT is as wanted when that has a DSDT and no other one has. -/
theorem behind_wanted_iff {behind : List Nat} {fadt : Nat} (taken : (tables fadt).Taken)
    (nodup : (behind.flatMap fun entry =>
      entry :: (root.dsdtOf (tables entry)).toList).Nodup) :
    ((tables fadt).xDsdt :: behind = (root.dsdtOf (tables fadt)).toList ++
        behind.flatMap fun entry => entry :: (root.dsdtOf (tables entry)).toList) ↔
      (root.dsdtOf (tables fadt)).isSome ∧
        ∀ entry ∈ behind, root.dsdtOf (tables entry) = none := by
  rw [dsdtOf_taken xsdt taken]
  by_cases zero : (tables fadt).xDsdt = 0
  · rw [if_pos zero]
    refine ⟨fun same => ?_, fun ⟨present, _⟩ => by cases present⟩
    -- the first table behind would be there twice
    cases behind with
    | nil => cases same
    | cons entry rest =>
        rw [List.flatMap_cons, List.cons_append] at same nodup
        have later := (List.cons.inj same).2
        rw [← later] at nodup
        exact absurd List.mem_cons_self (List.nodup_cons.mp nodup).1
  · rw [if_neg zero]
    constructor
    · intro same
      exact ⟨rfl, insert_nothing_iff.mp (List.cons.inj same).2.symm⟩
    · rintro ⟨-, nothing⟩
      rw [insert_nothing nothing]
      rfl

/-- The array when a table is taken for a FADT with a DSDT. -/
theorem array_taken_iff {front behind : List Nat} {fadt : Nat}
    (split : root.xsdt = front ++ fadt :: behind)
    (untaken : ∀ entry ∈ front, ¬ (tables entry).Taken) (taken : (tables fadt).Taken)
    (nodup : (root.wanted tables).Nodup) :
    ((buildTblArray tables root).stored.length ≤ (buildTblArray tables root).room ∧
      (buildTblArray tables root).stored.take (buildTblArray tables root).numTbls =
        root.wanted tables) ↔
      NoneTaken tables (tables fadt).xDsdt behind ∧ (root.dsdtOf (tables fadt)).isSome ∧
        ∀ entry ∈ behind, root.dsdtOf (tables entry) = none := by
  obtain ⟨stored, room, numTbls⟩ := buildTblArray_xsdt tables xsdt
  have first := fill_first xsdt split untaken taken
  have length : root.xsdt.length = (front ++ [fadt]).length + behind.length := by
    rw [split, List.length_append, List.length_append, List.length_cons, List.length_singleton]
    omega
  rw [← stored] at numTbls
  by_cases noneTaken : NoneTaken tables (tables fadt).xDsdt behind
  · have wanted := wanted_split xsdt split untaken
    rw [wanted] at nodup
    have later := (List.nodup_append.mp (List.nodup_append.mp nodup).2.1).2.1
    have fill := fill_noneTaken (front ++ [fadt]) noneTaken
    rw [fill] at first
    have full : (buildTblArray tables root).stored.length = root.xsdt.length + 1 := by
      rw [first, length, List.length_append, List.length_cons]
      omega
    rw [full, Nat.min_self] at numTbls
    rw [← behind_wanted_iff xsdt taken later, room, numTbls, full, List.take_of_length_le
      (le_of_eq full), wanted, first]
    constructor
    · rintro ⟨-, same⟩
      exact ⟨noneTaken, List.append_cancel_left same⟩
    · rintro ⟨-, same⟩
      exact ⟨le_refl _, congrArg (front ++ [fadt] ++ ·) same⟩
  · have longer := fill_someTaken (front ++ [fadt]) noneTaken
    rw [← first] at longer
    constructor
    · rintro ⟨inside, -⟩
      omega
    · rintro ⟨noneToo, -⟩
      exact absurd noneToo noneTaken

omit xsdt in
/-- **The enumeration is exact just for such tables.** -/
theorem acpiExact_iff_oneFadt (nodup : (root.wanted tables).Nodup)
    (real : nullPaddr ∉ root.wanted tables) :
    AcpiExact root tables ↔ root.OneFadt tables := by
  rw [acpiExact_iff nodup real, AcpiRsdp.OneFadt]
  by_cases rsdt : root.revision = ACPI_RSDP_REVISION_1_0 ∨ root.xsdtAddress = 0
  · have built : buildTblArray tables root =
        ⟨root.rsdt, root.rsdt.length, root.rsdt.length⟩ := if_pos rsdt
    rw [if_pos rsdt, built, AcpiRsdp.wanted, AcpiRsdp.listed, if_pos rsdt, List.take_length,
      ← insert_nothing_iff]
    exact ⟨fun exact => exact.2.symm, fun same => ⟨le_refl _, same.symm⟩⟩
  · rw [if_neg rsdt]
    have whole := List.takeWhile_append_dropWhile
      (p := fun entry => decide ¬ (tables entry).Taken) (l := root.xsdt)
    have untaken : ∀ entry ∈ root.xsdt.takeWhile fun entry => decide ¬ (tables entry).Taken,
        ¬ (tables entry).Taken := by
      intro entry member
      have passed := List.mem_takeWhile_imp member
      exact of_decide_eq_true passed
    cases dropped : root.xsdt.dropWhile fun entry => decide ¬ (tables entry).Taken with
    | nil =>
        rw [dropped, List.append_nil] at whole
        rw [whole] at untaken
        exact iff_of_true (array_untaken rsdt untaken) trivial
    | cons fadt behind =>
        rw [dropped] at whole
        have taken : (tables fadt).Taken := by
          have head := List.head?_dropWhile_not (fun entry => decide ¬ (tables entry).Taken)
            root.xsdt
          rw [dropped] at head
          simpa using head
        rw [array_taken_iff rsdt whole.symm untaken taken nodup]
        constructor
        · rintro ⟨⟨noneTaken, last⟩, present, nothing⟩
          exact ⟨present, nothing, last, noneTaken⟩
        · rintro ⟨present, nothing, last, noneTaken⟩
          exact ⟨⟨noneTaken, last⟩, present, nothing⟩

end Exact

/-- An XSDT with a FADT and a MADT. -/
def oneFadt : AcpiRsdp := ⟨2, 0x1000, [], [0x2000, 0x3000]⟩

/-- An XSDT with two FADTs and a MADT. -/
def twoFadts : AcpiRsdp := ⟨2, 0x1000, [], [0x2000, 0x4000, 0x3000]⟩

/-- The FADTs at 0x2000 and 0x4000 with the DSDTs at 0x2800 and 0x4800, the MADT at 0x3000. -/
def someTables (paddr : Nat) : AcpiTable :=
  if paddr = 0x2000 then ⟨ACPI_FADT_SIGNATURE, 276, 0, 0x2800⟩
  else if paddr = 0x4000 then ⟨ACPI_FADT_SIGNATURE, 276, 0, 0x4800⟩
  else if paddr = 0x3000 then ⟨0x43495041, 60, 0, 0⟩
  else ⟨0x54445344, 40, 0, 0⟩

theorem acpiExact_oneFadt : AcpiExact oneFadt someTables :=
  (acpiExact_iff_oneFadt (by decide) (by decide)).mpr
    ⟨by decide, by decide, by decide, fun _ => by decide⟩

/-- The DSDT of the second FADT is stored behind the array. -/
theorem two_fadts_break :
    (twoFadts.wanted someTables).Nodup ∧ nullPaddr ∉ twoFadts.wanted someTables ∧
      ¬ AcpiExact twoFadts someTables := by
  refine ⟨by decide, by decide, fun exact => ?_⟩
  have inside := exact.inside
  revert inside
  decide

end Bcm2711.Startup
