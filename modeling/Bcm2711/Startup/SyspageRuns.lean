import Bcm2711.Startup.Syspage

/-! # Runs over the sections of the system page

After `init_syspage_memory` startup code grows sections, places still empty ones, moves the
whole page, registers callout data and writes into its sections.  Whatever the order, the
sections stay side by side inside the page, every call keeps their contents, and every
callout owner stays at its place in its section.
-/

namespace Bcm2711.Startup

open Runs

variable {layout : SyspageLayout}

/-! ## The calls -/

/-- A call on the system page while it is built. -/
inductive SyspageCall where
  | grow (sect : Section) (add : Nat)
  | set (sect : Section) (size : Nat)
  | reloc (base maxSize : Nat)
  /-- `callout_register_data` for a callout at a place of a section. -/
  | register (sect : Section) (place data : Nat)
  /-- A byte written by the owner of a section. -/
  | write (sect : Section) (place : Nat) (value : UInt8)
deriving DecidableEq, Repr

/-- A byte of a section is written. -/
def writeSection (state : Syspage) (sect : Section) (place : Nat) (value : UInt8) : Syspage :=
  { state with memory := Function.update state.memory ((state.lsp sect).p + place) value }

/-- A call, and whether it recorded a callout owner. -/
def syspageStep (layout : SyspageLayout) (hasPatcher : Nat → Bool) (state : Syspage) :
    SyspageCall → Result (Syspage × Bool)
  | .grow sect add => do
      let after ← growSyspageSection layout state sect add
      .ok (after, false)
  | .set sect size => do
      let after ← setSyspageSection layout state sect size
      .ok (after, false)
  | .reloc base maxSize => .ok (relocSyspageMemory layout state base maxSize, false)
  | .register sect place data =>
      let after := calloutRegisterData hasPatcher state ((state.lsp sect).p + place) data
      .ok (after, after.patchData.length ≠ state.patchData.length)
  | .write sect place value => .ok (writeSection state sect place value, false)

/-- A section is set while it is empty and at a boundary, the page is moved to an area that
leaves its size at the old place, and nothing outgrows the maximum. -/
def SyspageAllowed (layout : SyspageLayout) (_history : List (Event SyspageCall Bool))
    (state : Syspage) : SyspageCall → Prop
  | .grow _ add => state.totalSize layout + roundedUp add ≤ state.maxSize layout
  | .set sect size => (state.lsp sect).size = 0 ∧ state.Boundary ∧
      state.totalSize layout + roundedUp size ≤ state.maxSize layout
  | .reloc base maxSize => FreshArea layout state base maxSize
  | .register sect place _ => place < (state.lsp sect).size
  | .write sect place _ => place < (state.lsp sect).size ∧ ContentAt layout sect place

/-- What a call does to the contents of the sections. -/
def SyspageCall.Effect (layout : SyspageLayout) (before after : Syspage) : SyspageCall → Prop
  | .grow sect add => Kept layout before after sect (roundedUp add)
  | .set sect size => Kept layout before after sect (roundedUp size)
  | .reloc _ _ => Kept layout before after .syspage 0
  | .register _ _ _ => Kept layout before after .syspage 0
  | .write sect place value => after = writeSection before sect place value

/-- The owner an event recorded. -/
def recordedMark : Event SyspageCall Bool → Option Mark
  | ⟨.register sect place data, true⟩ => some ⟨sect, place, data⟩
  | _ => none

/-- The owners recorded by a history, the newest first. -/
def recordedMarks (history : List (Event SyspageCall Bool)) : List Mark :=
  (history.filterMap recordedMark).reverse

/-- Where a call leaves the system page. -/
def SyspageCall.movedTo (base : Nat) : SyspageCall → Nat
  | .reloc fresh _ => fresh
  | _ => base

/-- Where a history leaves the system page. -/
def pageBase (base : Nat) (history : List (Event SyspageCall Bool)) : Nat :=
  history.foldl (fun base event => event.call.movedTo base) base

/-- The section a call places behind the fixed ones. -/
def SyspageCall.places? : SyspageCall → Option Section
  | .set sect _ => some sect
  | _ => none

/-- The header and the sections placed behind it, by `init_syspage_memory` and by a history. -/
def fixedSections (history : List (Event SyspageCall Bool)) : List Section :=
  [.aarch64GicMap, .callout, .syspage] ++ history.filterMap fun event => event.call.places?

/-- No call of the history grew the header or a section that had been placed behind it. -/
def FixedUngrown (history : List (Event SyspageCall Bool)) : Prop :=
  ∀ before sect add returned after, history = before ++ ⟨.grow sect add, returned⟩ :: after →
    sect ∉ fixedSections before

/-- All sections but these start at or behind the offset `fixed_size`. -/
def Syspage.Unfixed (state : Syspage) (fixed : List Section) : Prop :=
  ∀ sect, sect ∉ fixed → state.base + state.fixedSize ≤ (state.lsp sect).p

theorem recordedMarks_append (history : List (Event SyspageCall Bool))
    (event : Event SyspageCall Bool) :
    recordedMarks (history ++ [event]) =
      (recordedMark event).toList ++ recordedMarks history := by
  rw [recordedMarks, List.filterMap_append, List.reverse_append]
  refine congrArg (· ++ _) ?_
  cases marked : recordedMark event with
  | none => simp [marked]
  | some mark => simp [marked]

theorem pageBase_append (base : Nat) (history : List (Event SyspageCall Bool))
    (event : Event SyspageCall Bool) :
    pageBase base (history ++ [event]) = event.call.movedTo (pageBase base history) := by
  rw [pageBase, List.foldl_append]
  rfl

theorem fixedSections_append (history : List (Event SyspageCall Bool))
    (event : Event SyspageCall Bool) :
    fixedSections (history ++ [event]) = fixedSections history ++ event.call.places?.toList := by
  rw [fixedSections, fixedSections, List.filterMap_append, List.append_assoc]
  refine congrArg (_ ++ ·) (congrArg (_ ++ ·) ?_)
  cases placed : event.call.places? with
  | none => simp [placed]
  | some sect => simp [placed]

/-- Only a call that places a section adds one. -/
theorem fixedSections_append_of_none (history : List (Event SyspageCall Bool))
    {event : Event SyspageCall Bool} (placesNone : event.call.places? = none) :
    fixedSections (history ++ [event]) = fixedSections history := by
  rw [fixedSections_append, placesNone, Option.toList_none, List.append_nil]

theorem FixedUngrown.init {history : List (Event SyspageCall Bool)}
    {event : Event SyspageCall Bool} (ungrown : FixedUngrown (history ++ [event])) :
    FixedUngrown history := by
  intro before sect add returned after same
  refine ungrown before sect add returned (after ++ [event]) ?_
  rw [same, List.append_assoc, List.cons_append]

theorem FixedUngrown.last {history : List (Event SyspageCall Bool)} {sect : Section} {add : Nat}
    {returned : Bool} (ungrown : FixedUngrown (history ++ [⟨.grow sect add, returned⟩])) :
    sect ∉ fixedSections history :=
  ungrown history sect add returned [] rfl

/-! ## Fixed sections -/

section Fixed

variable {before after : Syspage} {sect : Section} {added : Nat} {fixed : List Section}

theorem grownLsp_p_le (state : Syspage) (sect : Section) (added : Nat) (other : Section) :
    (state.lsp other).p ≤ (grownLsp state sect added other).p := by
  unfold grownLsp
  split
  · next here => rw [here]
  · split
    · exact Nat.le_add_right _ _
    · exact le_rfl

theorem Grew.unfixed (grew : Grew layout before after sect added)
    (valid : before.Valid layout) (unfixed : before.Unfixed fixed) : after.Unfixed fixed := by
  intro other notFixed
  rw [grew.base valid, grew.fixedSize, grew.lsp]
  exact (unfixed other notFixed).trans (grownLsp_p_le before sect added other)

/-- Placing a section makes it the last fixed one. -/
theorem Placed.unfixed (isPlaced : Placed layout before after sect added)
    (unfixed : before.Unfixed fixed) : after.Unfixed (fixed ++ [sect]) := by
  intro other notFixed
  rw [List.mem_append, List.mem_singleton, not_or] at notFixed
  have behind := unfixed other notFixed.1
  have same : (placed before sect).lsp other = before.lsp other := placed_other notFixed.2
  have spot : (placed before sect).lsp sect = ⟨before.base + before.fixedSize, 0⟩ := placed_self
  rw [isPlaced.base, isPlaced.fixedSize, isPlaced.lsp, grownLsp, if_neg notFixed.2, same, spot]
  dsimp only
  rw [Nat.add_zero, if_pos behind]
  dsimp only
  omega

theorem moved_unfixed {state : Syspage} {base maxSize : Nat} (valid : state.Valid layout)
    (fresh : FreshArea layout state base maxSize) (unfixed : state.Unfixed fixed) :
    (relocSyspageMemory layout state base maxSize).Unfixed fixed := by
  intro other notFixed
  have behind := unfixed other notFixed
  have sameFixed : (relocSyspageMemory layout state base maxSize).fixedSize =
      state.fixedSize := rfl
  rw [moved_base valid fresh, moved_lsp valid fresh, sameFixed]
  dsimp only
  omega

end Fixed

/-! ## Registering callout data and writing -/

section Register

variable {state : Syspage} {sect : Section} {place : Nat}

/-- The patch data decide nothing about the layout. -/
theorem Syspage.Valid.of_patchData (valid : state.Valid layout) (patchData : List PatchData) :
    ({ state with patchData := patchData } : Syspage).Valid layout :=
  ⟨valid.header, valid.behind, valid.inside, valid.eight, valid.beside, valid.total,
    valid.maximum, valid.maxSize_lt, valid.field_lt, valid.memory_lt⟩

/-- Nothing but the patch data of a state is changed. -/
theorem kept_of_patchData (state : Syspage) (patchData : List PatchData) :
    Kept layout state { state with patchData := patchData } .syspage 0 := by
  refine ⟨fun sect => ?_, fun _ _ _ _ => rfl, fun place above below => ?_⟩
  · rw [ite_self, Nat.add_zero]
  · rw [Nat.add_zero] at below
    exact absurd below (Nat.not_lt.mpr above)

/-- `callout_register_data` adds an owner or does nothing. -/
theorem calloutRegisterData_cases (hasPatcher : Nat → Bool) (state : Syspage) (rp data : Nat) :
    calloutRegisterData hasPatcher state rp data = state ∨
      calloutRegisterData hasPatcher state rp data =
        { state with patchData := ⟨rp, data⟩ :: state.patchData } := by
  unfold calloutRegisterData
  dsimp only
  split
  · split
    · exact Or.inl rfl
    · exact Or.inr rfl
  · exact Or.inl rfl

/-- A new owner stands in front of the ones before it. -/
theorem Owners.register {marks : List Mark} (owners : Owners state marks)
    (inside : place < (state.lsp sect).size) (data : Nat) :
    Owners { state with patchData := ⟨(state.lsp sect).p + place, data⟩ :: state.patchData }
      (⟨sect, place, data⟩ :: marks) := by
  refine ⟨congrArg (_ :: ·) owners.points, ?_⟩
  intro mark member
  rcases List.mem_cons.mp member with isNew | old
  · rw [isNew]
    exact inside
  · exact owners.inside mark old

/-- A write outside the size fields leaves the header's two sizes. -/
theorem writeSection_load (valid : state.Valid layout) {value : UInt8} {off : Nat}
    (field : off + layout.fieldBytes ≤ layout.headerSize)
    (outside : sect = .syspage → place < off ∨ off + layout.fieldBytes ≤ place) :
    Bytes.load (writeSection state sect place value).memory layout.fieldBytes
        (state.base + off) =
      Bytes.load state.memory layout.fieldBytes (state.base + off) := by
  refine Bytes.load_congr fun index below => ?_
  refine Function.update_of_ne ?_ _ _
  by_cases isHeader : sect = .syspage
  · have beside := outside isHeader
    have isBase : (state.lsp sect).p = state.base := by
      rw [isHeader]
      rfl
    omega
  · have behind := valid.fields_before isHeader
    omega

theorem writeSection_totalSize (valid : state.Valid layout) {value : UInt8}
    (content : ContentAt layout sect place) :
    (writeSection state sect place value).totalSize layout = state.totalSize layout :=
  writeSection_load valid layout.totalSize_inside fun isHeader => (content isHeader).1

theorem writeSection_maxSize (valid : state.Valid layout) {value : UInt8}
    (content : ContentAt layout sect place) :
    (writeSection state sect place value).maxSize layout = state.maxSize layout :=
  writeSection_load valid layout.size_inside fun isHeader => (content isHeader).2

/-- Memory with the same sizes in the header keeps the sections where they are. -/
theorem Syspage.Valid.stored (valid : state.Valid layout) {memory : Nat → UInt8}
    (total : ({ state with memory := memory } : Syspage).totalSize layout =
      state.totalSize layout)
    (maximum : ({ state with memory := memory } : Syspage).maxSize layout =
      state.maxSize layout) : ({ state with memory := memory } : Syspage).Valid layout := by
  refine ⟨valid.header, valid.behind, ?_, valid.eight, valid.beside, ?_, ?_, ?_, ?_, ?_⟩
  · rw [total]
    exact valid.inside
  · rw [total]
    exact valid.total
  · rw [total, maximum]
    exact valid.maximum
  · rw [maximum]
    exact valid.maxSize_lt
  · rw [maximum]
    exact valid.field_lt
  · rw [maximum]
    exact valid.memory_lt

theorem writeSection_valid (valid : state.Valid layout) {value : UInt8}
    (content : ContentAt layout sect place) :
    (writeSection state sect place value).Valid layout := by
  apply valid.stored
  · exact writeSection_totalSize valid content
  · exact writeSection_maxSize valid content

end Register

/-! ## One call -/

/-- What holds along every run. -/
structure SyspageInv (layout : SyspageLayout) (base : Nat)
    (history : List (Event SyspageCall Bool)) (state : Syspage) : Prop where
  valid : state.Valid layout
  fixed : state.FixedInside layout
  owners : Owners state (recordedMarks history)
  place : state.base = pageBase base history
  boundary : FixedUngrown history → state.Boundary ∧ state.Unfixed (fixedSections history)

/-- An allowed call returns, keeps the contents of the sections and the invariant. -/
theorem syspageStep_spec (hasPatcher : Nat → Bool) {base : Nat}
    {history : List (Event SyspageCall Bool)} {state : Syspage} {call : SyspageCall}
    (inv : SyspageInv layout base history state)
    (isAllowed : SyspageAllowed layout history state call) :
    ∃ after returned, syspageStep layout hasPatcher state call = .ok (after, returned) ∧
      call.Effect layout state after ∧
      SyspageInv layout base (history ++ [⟨call, returned⟩]) after := by
  cases call with
  | grow sect add =>
      obtain ⟨after, ran, grew⟩ := growSyspageSection_ok inv.valid sect isAllowed
      refine ⟨after, false, ?_, grew.kept, grew.valid, grew.fixedInside inv.fixed, ?_, ?_, ?_⟩
      · rw [syspageStep, ran]
        rfl
      · rw [recordedMarks_append]
        exact grew.owners _ inv.owners
      · rw [pageBase_append, grew.base inv.valid, inv.place]
        rfl
      · intro ungrown
        have notFixed := ungrown.last
        obtain ⟨boundary, unfixed⟩ := inv.boundary ungrown.init
        rw [fixedSections_append_of_none history rfl]
        exact ⟨grew.boundary inv.valid boundary (unfixed sect notFixed),
          grew.unfixed inv.valid unfixed⟩
  | set sect size =>
      obtain ⟨empty, boundary, fits⟩ := isAllowed
      obtain ⟨after, ran, isPlaced⟩ :=
        setSyspageSection_ok inv.valid inv.fixed boundary empty fits
      refine ⟨after, false, ?_, isPlaced.kept, isPlaced.valid, isPlaced.fixed, ?_, ?_, ?_⟩
      · rw [syspageStep, ran]
        rfl
      · rw [recordedMarks_append]
        exact isPlaced.owners _ inv.owners
      · rw [pageBase_append, isPlaced.base, inv.place]
        rfl
      · intro ungrown
        have unfixed := (inv.boundary ungrown.init).2
        rw [fixedSections_append]
        exact ⟨isPlaced.boundary, isPlaced.unfixed unfixed⟩
  | reloc target maxSize =>
      refine ⟨_, false, rfl, moved_kept inv.valid isAllowed, moved_valid inv.valid isAllowed,
        moved_fixed inv.valid isAllowed inv.fixed, ?_, ?_, ?_⟩
      · rw [recordedMarks_append]
        exact moved_owners inv.valid isAllowed inv.owners
      · rw [pageBase_append, moved_base inv.valid isAllowed]
        rfl
      · intro ungrown
        obtain ⟨boundary, unfixed⟩ := inv.boundary ungrown.init
        rw [fixedSections_append_of_none history rfl]
        exact ⟨moved_boundary inv.valid isAllowed boundary,
          moved_unfixed inv.valid isAllowed unfixed⟩
  | register sect place data =>
      rcases calloutRegisterData_cases hasPatcher state ((state.lsp sect).p + place) data with
        same | added
      · refine ⟨state, false, ?_, kept_of_patchData state state.patchData, inv.valid, inv.fixed,
          ?_, ?_, ?_⟩
        · rw [syspageStep, same]
          simp
        · rw [recordedMarks_append]
          exact inv.owners
        · rw [pageBase_append]
          exact inv.place
        · intro ungrown
          rw [fixedSections_append_of_none history rfl]
          exact inv.boundary ungrown.init
      · refine ⟨_, true, ?_, kept_of_patchData state
          (⟨(state.lsp sect).p + place, data⟩ :: state.patchData),
          inv.valid.of_patchData _, inv.fixed, ?_, ?_, ?_⟩
        · rw [syspageStep, added]
          simp
        · rw [recordedMarks_append]
          exact inv.owners.register isAllowed data
        · rw [pageBase_append]
          exact inv.place
        · intro ungrown
          rw [fixedSections_append_of_none history rfl]
          exact inv.boundary ungrown.init
  | write sect place value =>
      have total := @writeSection_totalSize layout state sect place inv.valid value isAllowed.2
      refine ⟨_, false, rfl, rfl, writeSection_valid inv.valid isAllowed.2, ?_, ?_, ?_, ?_⟩
      · rw [Syspage.FixedInside, total]
        exact inv.fixed
      · rw [recordedMarks_append]
        exact ⟨inv.owners.points, inv.owners.inside⟩
      · rw [pageBase_append]
        exact inv.place
      · intro ungrown
        rw [fixedSections_append_of_none history rfl]
        exact inv.boundary ungrown.init

/-! ## The start -/

/-- The size of the page once `init_syspage_memory` has placed its first sections. -/
def initSize (layout : SyspageLayout) : Nat :=
  roundedUp layout.headerSize + roundedUp layout.calloutSize + roundedUp 4 + roundedUp 1 +
    roundedUp layout.hwiPrefixSize + roundedUp (8 * layout.processorsMax)

/-- The block given to `init_syspage_memory` holds the first sections. -/
structure InitFits (layout : SyspageLayout) (base maxSize : Nat) : Prop where
  enough : initSize layout ≤ maxSize
  maxSize_lt : maxSize < 2 ^ 32
  field_lt : maxSize < 256 ^ layout.fieldBytes
  memory_lt : base + maxSize < 2 ^ 64

section Init

variable {memory : Bytes.Memory} {base maxSize : Nat}

theorem InitFits.header (fits : InitFits layout base maxSize) :
    roundSize layout.headerSize = roundedUp layout.headerSize := by
  have enough := fits.enough
  have bounded := fits.maxSize_lt
  unfold initSize at enough
  exact roundSize_eq (by omega)

/-- The header and the empty sections behind it. -/
theorem initHeader_lsp (fits : InitFits layout base maxSize) (sect : Section) :
    (initHeader layout memory base maxSize).lsp sect =
      if sect = .syspage then ⟨base, roundedUp layout.headerSize⟩
      else ⟨base + roundedUp layout.headerSize, 0⟩ := by
  have enough := fits.enough
  have bounded := fits.maxSize_lt
  have inMemory := fits.memory_lt
  unfold initSize at enough
  have place : addPaddr base (roundedUp layout.headerSize) =
      base + roundedUp layout.headerSize := addPaddr_of_lt (by omega)
  simp only [initHeader, Syspage.setMaxSize, Syspage.setTotalSize, fits.header, place]

theorem initHeader_base : (initHeader layout memory base maxSize).base = base := rfl

theorem initHeader_maxSize (fits : InitFits layout base maxSize) :
    (initHeader layout memory base maxSize).maxSize layout = maxSize := by
  rw [Syspage.maxSize, initHeader_base, ← Nat.mod_eq_of_lt fits.field_lt, initHeader]
  exact (Bytes.load_store).trans (by rw [Nat.mod_mod])

theorem initHeader_totalSize (fits : InitFits layout base maxSize) :
    (initHeader layout memory base maxSize).totalSize layout = roundedUp layout.headerSize := by
  have enough := fits.enough
  have bounded := fits.maxSize_lt
  have field := fits.field_lt
  have apart := layout.fields_apart
  unfold initSize at enough
  have isBase : (initHeader layout memory base maxSize).base = base := rfl
  rw [Syspage.totalSize, isBase, initHeader]
  simp only [Syspage.setMaxSize, Syspage.setTotalSize, Syspage.base, ↓reduceIte, fits.header]
  rw [Bytes.load_store_of_disjoint (by omega), Bytes.load_store, Nat.mod_eq_of_lt (by omega)]

/-- The header alone is a system page. -/
theorem initHeader_valid (fits : InitFits layout base maxSize) :
    (initHeader layout memory base maxSize).Valid layout := by
  have isLsp := @initHeader_lsp layout memory base maxSize fits
  have total := @initHeader_totalSize layout memory base maxSize fits
  have maximum := @initHeader_maxSize layout memory base maxSize fits
  have enough := fits.enough
  unfold initSize at enough
  refine ⟨?_, ?_, ?_, ?_, ?_, ?_, ?_, ?_, ?_, ?_⟩
  · rw [isLsp, if_pos rfl]
    exact le_roundedUp _
  · intro sect different
    rw [isLsp sect, if_neg different, isLsp, if_pos rfl]
    exact le_rfl
  · intro sect
    rw [isLsp, total, initHeader_base]
    split
    · exact le_rfl
    · exact le_rfl
  · intro sect
    rw [isLsp]
    split
    · exact eight_dvd_roundedUp _
    · exact Nat.dvd_zero 8
  · intro one other different
    rw [isLsp, isLsp]
    by_cases isOne : one = .syspage
    · rw [if_pos isOne, if_neg (isOne ▸ different.symm)]
      exact Or.inl le_rfl
    · rw [if_neg isOne]
      split
      · exact Or.inr le_rfl
      · exact Or.inl le_rfl
  · rw [total]
    simp only [isLsp]
    simp [Section.all]
  · rw [total, maximum]
    omega
  · rw [maximum]
    exact fits.maxSize_lt
  · rw [maximum]
    exact fits.field_lt
  · rw [maximum, initHeader_base]
    exact fits.memory_lt

theorem initHeader_fixedSize (fits : InitFits layout base maxSize) :
    (initHeader layout memory base maxSize).fixedSize = roundedUp layout.headerSize :=
  fits.header

/-- What `init_syspage_memory` keeps while it places the first sections. -/
structure Starting (layout : SyspageLayout) (base maxSize size : Nat) (fixed : List Section)
    (state : Syspage) : Prop where
  valid : state.Valid layout
  inside : state.FixedInside layout
  boundary : state.Boundary
  unfixed : state.Unfixed fixed
  owners : Owners state []
  place : state.base = base
  total : state.totalSize layout = size
  maximum : state.maxSize layout = maxSize

theorem initHeader_starting (memory : Bytes.Memory) (fits : InitFits layout base maxSize) :
    Starting layout base maxSize (roundedUp layout.headerSize) [.syspage]
      (initHeader layout memory base maxSize) := by
  have isLsp := @initHeader_lsp layout memory base maxSize fits
  have total := @initHeader_totalSize layout memory base maxSize fits
  have fixedSize := @initHeader_fixedSize layout memory base maxSize fits
  refine ⟨initHeader_valid fits, ⟨?_, ?_⟩, ?_, ?_, ⟨rfl, ?_⟩, rfl, total, initHeader_maxSize fits⟩
  · rw [fixedSize]
    exact le_roundedUp _
  · rw [fixedSize, total]
  · intro sect
    rw [isLsp, initHeader_base, fixedSize]
    split
    · exact Or.inl le_rfl
    · exact Or.inr le_rfl
  · intro sect notFixed
    have notHeader : sect ≠ .syspage := fun same => notFixed (List.mem_singleton.mpr same)
    rw [isLsp, if_neg notHeader, initHeader_base, fixedSize]
  · exact fun mark member => absurd member List.not_mem_nil

variable {state : Syspage} {sect : Section} {size add : Nat} {fixed : List Section}

theorem Starting.grow (starting : Starting layout base maxSize size fixed state)
    (notFixed : sect ∉ fixed) (fits : size + roundedUp add ≤ maxSize) :
    ∃ after, growSyspageSection layout state sect add = .ok after ∧
      Starting layout base maxSize (size + roundedUp add) fixed after ∧
      Kept layout state after sect (roundedUp add) := by
  have valid := starting.valid
  have within : state.totalSize layout + roundedUp add ≤ state.maxSize layout := by
    rw [starting.total, starting.maximum]
    exact fits
  obtain ⟨after, ran, grew⟩ := growSyspageSection_ok valid sect within
  refine ⟨after, ran, ⟨grew.valid, grew.fixedInside starting.inside,
    grew.boundary valid starting.boundary (starting.unfixed sect notFixed),
    grew.unfixed valid starting.unfixed, grew.owners [] starting.owners, ?_, ?_, ?_⟩, grew.kept⟩
  · rw [grew.base valid, starting.place]
  · rw [grew.total, starting.total]
  · rw [grew.maximum, starting.maximum]

theorem Starting.set (starting : Starting layout base maxSize size fixed state)
    (empty : (state.lsp sect).size = 0) (fits : size + roundedUp add ≤ maxSize) :
    ∃ after, setSyspageSection layout state sect add = .ok after ∧
      Starting layout base maxSize (size + roundedUp add) (fixed ++ [sect]) after ∧
      Kept layout state after sect (roundedUp add) := by
  have within : state.totalSize layout + roundedUp add ≤ state.maxSize layout := by
    rw [starting.total, starting.maximum]
    exact fits
  obtain ⟨after, ran, isPlaced⟩ := setSyspageSection_ok starting.valid starting.inside
    starting.boundary empty within
  refine ⟨after, ran, ⟨isPlaced.valid, isPlaced.fixed, isPlaced.boundary,
    isPlaced.unfixed starting.unfixed, isPlaced.owners [] starting.owners, ?_, ?_, ?_⟩,
    isPlaced.kept⟩
  · rw [isPlaced.base, starting.place]
  · rw [isPlaced.total, starting.total]
  · rw [isPlaced.maximum, starting.maximum]

/-- All bytes of a section are zero. -/
def Syspage.Zeroed (state : Syspage) (sect : Section) : Prop :=
  ∀ place, place < (state.lsp sect).size → state.memory ((state.lsp sect).p + place) = 0

/-- A section of zeros stays one while sections grow. -/
theorem Kept.zeroed {before after : Syspage} {grown : Section} {added : Nat}
    (kept : Kept layout before after grown added) (notHeader : sect ≠ .syspage)
    (zeroed : before.Zeroed sect) : after.Zeroed sect := by
  intro place inside
  by_cases old : place < (before.lsp sect).size
  · rw [kept.contents sect place old fun isHeader => absurd isHeader notHeader]
    exact zeroed place old
  · rw [kept.size] at inside
    by_cases here : sect = grown
    · subst here
      rw [if_pos rfl] at inside
      exact kept.zeros place (Nat.le_of_not_lt old) inside
    · rw [if_neg here] at inside
      exact absurd inside old

theorem Kept.size_of_ne {before after : Syspage} {grown : Section} {added : Nat}
    (kept : Kept layout before after grown added) (different : sect ≠ grown) :
    (after.lsp sect).size = (before.lsp sect).size := by
  rw [kept.size, if_neg different, Nat.add_zero]

/-- `init_syspage_memory` returns a system page with its first sections, of zeros. -/
theorem initSyspageMemory_ok (memory : Bytes.Memory) (fits : InitFits layout base maxSize) :
    ∃ start, initSyspageMemory layout memory base maxSize = .ok start ∧
      SyspageInv layout base [] start ∧ start.maxSize layout = maxSize ∧
      (∀ sect, sect ≠ .syspage → start.Zeroed sect) ∧
      (start.lsp .typedStrings).size = roundedUp 4 ∧ (start.lsp .strings).size = roundedUp 1 := by
  have enough := fits.enough
  unfold initSize at enough
  have header := initHeader_starting memory fits
  have empty : ∀ sect, sect ≠ .syspage →
      ((initHeader layout memory base maxSize).lsp sect).size = 0 := by
    intro sect notHeader
    rw [initHeader_lsp fits, if_neg notHeader]
  have zeroed : ∀ sect, sect ≠ .syspage →
      (initHeader layout memory base maxSize).Zeroed sect := by
    intro sect notHeader place inside
    rw [empty sect notHeader] at inside
    exact absurd inside (Nat.not_lt_zero _)
  obtain ⟨callout, ranCallout, starting, keptCallout⟩ :=
    @Starting.set _ _ _ _ _ _ layout.calloutSize _ header (empty .callout (by decide)) (by omega)
  obtain ⟨typedStrings, ranTyped, starting, keptTyped⟩ :=
    @Starting.grow _ _ _ _ .typedStrings _ 4 _ starting (by decide) (by omega)
  obtain ⟨strings, ranStrings, starting, keptStrings⟩ :=
    @Starting.grow _ _ _ _ .strings _ 1 _ starting (by decide) (by omega)
  obtain ⟨hwinfo, ranHwinfo, starting, keptHwinfo⟩ :=
    @Starting.grow _ _ _ _ .hwinfo _ layout.hwiPrefixSize _ starting (by decide) (by omega)
  have stillEmpty : (hwinfo.lsp .aarch64GicMap).size = 0 := by
    rw [keptHwinfo.size_of_ne (by decide), keptStrings.size_of_ne (by decide),
      keptTyped.size_of_ne (by decide), keptCallout.size_of_ne (by decide)]
    exact empty .aarch64GicMap (by decide)
  obtain ⟨start, ranGicMap, starting, keptGicMap⟩ :=
    @Starting.set _ _ _ _ _ _ (8 * layout.processorsMax) _ starting stillEmpty (by omega)
  refine ⟨start, ?_, ⟨starting.valid, starting.inside, starting.owners, starting.place,
    fun _ => ⟨starting.boundary, ?_⟩⟩, starting.maximum, ?_, ?_, ?_⟩
  · simp only [initSyspageMemory, ranCallout, ranTyped, ranStrings, ranHwinfo, ranGicMap,
      bind, Except.bind]
  · intro sect notFixed
    refine starting.unfixed sect fun fixed => notFixed ?_
    rw [List.mem_append, List.mem_append, List.mem_singleton, List.mem_singleton,
      List.mem_singleton] at fixed
    rcases fixed with (isHeader | isCallout) | isGicMap
    · rw [isHeader]
      decide
    · rw [isCallout]
      decide
    · rw [isGicMap]
      decide
  · intro sect notHeader
    have inCallout := keptCallout.zeroed notHeader (zeroed sect notHeader)
    have inStrings := keptStrings.zeroed notHeader (keptTyped.zeroed notHeader inCallout)
    exact keptGicMap.zeroed notHeader (keptHwinfo.zeroed notHeader inStrings)
  · rw [keptGicMap.size_of_ne (by decide), keptHwinfo.size_of_ne (by decide),
      keptStrings.size_of_ne (by decide), keptTyped.size, if_pos rfl,
      keptCallout.size_of_ne (by decide), empty .typedStrings (by decide), Nat.zero_add]
  · rw [keptGicMap.size_of_ne (by decide), keptHwinfo.size_of_ne (by decide), keptStrings.size,
      if_pos rfl, keptTyped.size_of_ne (by decide), keptCallout.size_of_ne (by decide),
      empty .strings (by decide), Nat.zero_add]

end Init

/-! ## Whole runs -/

/-- The sections lie inside the system page, eight-byte sized and disjoint, and make up its
size. -/
structure SectionsInside (layout : SyspageLayout) (state : Syspage) : Prop where
  inside : ∀ sect, state.range sect ⊆ Set.Ico state.base (state.base + state.totalSize layout)
  eight : ∀ sect, 8 ∣ (state.lsp sect).size
  disjoint : Pairwise fun one other => Disjoint (state.range one) (state.range other)
  total : state.totalSize layout = (Section.all.map fun sect => (state.lsp sect).size).sum

theorem Syspage.Valid.sectionsInside {state : Syspage} (valid : state.Valid layout) :
    SectionsInside layout state := by
  refine ⟨?_, valid.eight, ?_, valid.total⟩
  · intro sect address member
    exact ⟨(valid.base_le sect).trans member.1, member.2.trans_le (valid.inside sect)⟩
  · intro one other different
    rw [Set.disjoint_left]
    intro address inOne inOther
    have afterOne := inOne.1
    have beforeOne := inOne.2
    have afterOther := inOther.1
    have beforeOther := inOther.2
    rcases valid.beside one other different with before | behind
    · omega
    · omega

theorem syspage_inv (hasPatcher : Nat → Bool) {base : Nat} {start : Syspage}
    (starts : SyspageInv layout base [] start) {history : List (Event SyspageCall Bool)}
    {state : Syspage}
    (run : Run (syspageStep layout hasPatcher) (SyspageAllowed layout) start history state) :
    SyspageInv layout base history state := by
  refine run.invariant starts fun history state call after returned inv isAllowed stepped => ?_
  obtain ⟨_, _, ran, _, kept⟩ := syspageStep_spec hasPatcher inv isAllowed
  rw [stepped] at ran
  cases ran
  exact kept

/-- Along every run after `init_syspage_memory` the sections lie side by side inside the
system page, every owner of callout data is at its place, and every call returns and keeps
the contents of the sections; a section can be placed as long as no fixed one has grown. -/
theorem syspage_run (hasPatcher : Nat → Bool) (memory : Bytes.Memory) {base maxSize : Nat}
    (fits : InitFits layout base maxSize) :
    ∃ start, initSyspageMemory layout memory base maxSize = .ok start ∧
      ∀ history state,
        Run (syspageStep layout hasPatcher) (SyspageAllowed layout) start history state →
          SectionsInside layout state ∧ state.base = pageBase base history ∧
          Owners state (recordedMarks history) ∧ (FixedUngrown history → state.Boundary) ∧
          ∀ call, SyspageAllowed layout history state call →
            ∃ after returned, syspageStep layout hasPatcher state call = .ok (after, returned) ∧
              call.Effect layout state after := by
  obtain ⟨start, ran, starts, _⟩ := initSyspageMemory_ok memory fits
  refine ⟨start, ran, fun history state run => ?_⟩
  have inv := syspage_inv hasPatcher starts run
  refine ⟨inv.valid.sectionsInside, inv.place, inv.owners, fun ungrown => (inv.boundary ungrown).1,
    fun call isAllowed => ?_⟩
  obtain ⟨after, returned, stepped, effect, _⟩ := syspageStep_spec hasPatcher inv isAllowed
  exact ⟨after, returned, stepped, effect⟩

/-! ## A small system page -/

/-- A system page with a header of sixteen bytes. -/
def smallLayout : SyspageLayout :=
  { headerSize := 16, fieldBytes := 4, totalSizeOff := 0, sizeOff := 4, header := fun _ => 0,
    calloutSize := 8, hwiPrefixSize := 8, processorsMax := 1,
    totalSize_inside := by decide, size_inside := by decide, fields_apart := by decide,
    header_nonempty := by decide }

theorem smallLayout_fits : InitFits smallLayout 4096 4096 :=
  ⟨by decide, by decide, by decide, by decide⟩

theorem syspage_run_small :
    ∃ start, initSyspageMemory smallLayout (fun _ => 0) 4096 4096 = .ok start ∧
      ∀ history state,
        Run (syspageStep smallLayout fun _ => true) (SyspageAllowed smallLayout) start history
            state →
          SectionsInside smallLayout state ∧ state.base = pageBase 4096 history ∧
          Owners state (recordedMarks history) ∧ (FixedUngrown history → state.Boundary) ∧
          ∀ call, SyspageAllowed smallLayout history state call →
            ∃ after returned,
              syspageStep smallLayout (fun _ => true) state call = .ok (after, returned) ∧
                call.Effect smallLayout state after :=
  syspage_run (fun _ => true) (fun _ => 0) smallLayout_fits

/-- Within the maximum, and sections only set while they are empty. -/
def SyspageWithin (layout : SyspageLayout) (_history : List (Event SyspageCall Bool))
    (state : Syspage) : SyspageCall → Prop
  | .grow _ add => state.totalSize layout + roundedUp add ≤ state.maxSize layout
  | .set sect size => (state.lsp sect).size = 0 ∧
      state.totalSize layout + roundedUp size ≤ state.maxSize layout
  | .reloc base maxSize => state.totalSize layout ≤ maxSize ∧ base + maxSize < 2 ^ 64
  | .register sect place _ => place < (state.lsp sect).size
  | .write sect place _ => place < (state.lsp sect).size ∧ ContentAt layout sect place

instance (layout : SyspageLayout) (history : List (Event SyspageCall Bool)) (state : Syspage)
    (call : SyspageCall) : Decidable (SyspageWithin layout history state call) :=
  match call with
  | .grow _ _ => inferInstanceAs (Decidable (_ ≤ _))
  | .set _ _ => inferInstanceAs (Decidable (_ ∧ _))
  | .reloc _ _ => inferInstanceAs (Decidable (_ ∧ _))
  | .register _ _ _ => inferInstanceAs (Decidable (_ < _))
  | .write sect place _ =>
      inferInstanceAs (Decidable (place < (state.lsp sect).size ∧ (sect = .syspage → _ ∧ _)))

/-- The start of the small system page and where these calls lead from it. -/
def smallCalls (calls : List SyspageCall) :
    Option (Syspage × List (Event SyspageCall Bool) × Syspage) :=
  match initSyspageMemory smallLayout (fun _ => 0) 4096 4096 with
  | .ok start =>
      (Run.execute (syspageStep smallLayout fun _ => true) (SyspageWithin smallLayout) [] start
        calls).map fun final => (start, final)
  | .error _ => none

/-- What these calls lead to is a run. -/
theorem run_of_smallCalls {calls : List SyspageCall} {start state : Syspage}
    {history : List (Event SyspageCall Bool)}
    (made : smallCalls calls = some (start, history, state)) :
    initSyspageMemory smallLayout (fun _ => 0) 4096 4096 = .ok start ∧
      Run (syspageStep smallLayout fun _ => true) (SyspageWithin smallLayout) start history
        state := by
  unfold smallCalls at made
  split at made
  · next first ran =>
      obtain ⟨final, executed, same⟩ := Option.map_eq_some_iff.mp made
      cases same
      exact ⟨ran, Run.of_execute .start executed⟩
  · cases made

/-- A place in the middle of a grown fixed section splits it; an overlapping move leaves a
callout owner behind; the header's own size changes when a section grows. -/
theorem set_after_grown_fixed_overlaps :
    (∃ start history state,
      initSyspageMemory smallLayout (fun _ => 0) 4096 4096 = .ok start ∧
      Run (syspageStep smallLayout fun _ => true) (SyspageWithin smallLayout) start history
        state ∧ ¬ Disjoint (state.range .callout) (state.range .cpuinfo)) ∧
    (∃ start history state,
      initSyspageMemory smallLayout (fun _ => 0) 4096 4096 = .ok start ∧
      Run (syspageStep smallLayout fun _ => true) (SyspageWithin smallLayout) start history
        state ∧ recordedMarks history = [⟨.callout, 0, 1⟩] ∧
        state.patchData.map PatchData.owner ≠ [(state.lsp .callout).p]) ∧
    (∃ start history state,
      initSyspageMemory smallLayout (fun _ => 0) 4096 4096 = .ok start ∧
      Run (syspageStep smallLayout fun _ => true) (SyspageWithin smallLayout) start history
        state ∧ state.memory (state.lsp .syspage).p ≠ start.memory (start.lsp .syspage).p) := by
  refine ⟨?_, ?_, ?_⟩
  · have made : (smallCalls [.grow .callout 16, .set .cpuinfo 8]).map
        (fun final => (final.2.2.lsp .callout, final.2.2.lsp .cpuinfo)) =
        some (⟨4112, 24⟩, ⟨4128, 8⟩) := by decide
    obtain ⟨⟨start, history, state⟩, executed, lsp⟩ := Option.map_eq_some_iff.mp made
    obtain ⟨ran, run⟩ := run_of_smallCalls executed
    obtain ⟨callout, cpuinfo⟩ := Prod.mk.inj lsp
    refine ⟨start, history, state, ran, run, ?_⟩
    rw [Set.not_disjoint_iff]
    refine ⟨4128, ?_, ?_⟩
    · rw [Syspage.range, callout]
      exact ⟨by decide, by decide⟩
    · rw [Syspage.range, cpuinfo]
      exact ⟨by decide, by decide⟩
  · have made : (smallCalls [.write .callout 0 1, .register .callout 0 1, .reloc 4088 4096]).map
        (fun final => (recordedMarks final.2.1, final.2.2.patchData.map PatchData.owner,
          (final.2.2.lsp .callout).p)) =
        some ([⟨.callout, 0, 1⟩], [4112], 4104) := by decide
    obtain ⟨⟨start, history, state⟩, executed, facts⟩ := Option.map_eq_some_iff.mp made
    obtain ⟨ran, run⟩ := run_of_smallCalls executed
    obtain ⟨marks, rest⟩ := Prod.mk.inj facts
    obtain ⟨owner, callout⟩ := Prod.mk.inj rest
    refine ⟨start, history, state, ran, run, marks, ?_⟩
    rw [owner, callout]
    decide
  · have made : (smallCalls [.grow .strings 8]).map
        (fun final => (final.1.memory (final.1.lsp .syspage).p,
          final.2.2.memory (final.2.2.lsp .syspage).p)) = some (56, 64) := by decide
    obtain ⟨⟨start, history, state⟩, executed, facts⟩ := Option.map_eq_some_iff.mp made
    obtain ⟨ran, run⟩ := run_of_smallCalls executed
    obtain ⟨old, new⟩ := Prod.mk.inj facts
    refine ⟨start, history, state, ran, run, ?_⟩
    rw [new, old]
    decide

end Bcm2711.Startup
