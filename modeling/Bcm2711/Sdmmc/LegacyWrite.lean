import Bcm2711.Lib.Gather
import Bcm2711.Lib.Walk
import Bcm2711.Sdmmc.Requests

/-! # Legacy reliable writes

Without the enhanced reliable write `sdmmc_read_write` splits a request into writes of one sector
or of the size that the card names, and those of that size are to start at a multiple of it.  The
test for that masks the address, and a card may name any number of sectors.
-/

namespace Bcm2711.Sdmmc

open Gather Walks

/-- `SDMMC_ADDR_ALIGNED` of 64 bits. -/
def SDMMC_ADDR_ALIGNED (addr align : Nat) : Bool := addr &&& Word.sub 64 align 1 = 0

/-- The `count` of a turn of the inner loop. -/
def reliableCount (relWrSecC lba sgCount : Nat) : Nat :=
  let relWrCount := relWrSecC * 512 % 2 ^ 32
  let count := if SDMMC_ADDR_ALIGNED lba relWrSecC then sgCount else 512
  if count > relWrCount then relWrCount else 512

/-- A call of `sdmmc_rw`. -/
structure LegacyCall where
  lba : Nat
  data : Piece
deriving DecidableEq, Repr

/-- The variables of the loops: what is left of the entries, and the calls so far. -/
structure LegacyLoop where
  sgl : List Piece
  lba : Nat
  calls : List LegacyCall
deriving DecidableEq, Repr

/-- A turn of the loops; `rw` is what the calls return, by their number. -/
def legacyTurn (relWrSecC : Nat) (rw : Nat → Nat) (loop : LegacyLoop) :
    Turn LegacyLoop (Nat × List LegacyCall) :=
  match loop.sgl with
  | [] => .ends (EOK, loop.calls)
  | sg :: rest =>
      if sg.size = 0 then .goes { loop with sgl := rest }
      else
        let count := reliableCount relWrSecC loop.lba sg.size
        let calls := loop.calls ++ [⟨loop.lba, sg.front count⟩]
        if rw loop.calls.length ≠ EOK then .ends (rw loop.calls.length, calls)
        else
          .goes ⟨⟨sg.start + count, Word.sub 32 sg.size count⟩ :: rest,
            Word.add 64 loop.lba (count / 512), calls⟩

/-- The calls are at consecutive sectors. -/
def Consecutive : (lba : Nat) → List LegacyCall → Prop
  | _, [] => True
  | lba, call :: calls =>
      call.lba = lba ∧ Consecutive (Word.add 64 lba (call.data.size / 512)) calls

/-- A call is of one sector, or of the reliable size and at a multiple of it. -/
def LegacyCall.Reliable (relWrSecC : Nat) (call : LegacyCall) : Prop :=
  call.data.size = 512 ∨ call.data.size = relWrSecC * 512 ∧ relWrSecC ∣ call.lba

/-- The calls write the bytes of the entries in order, at consecutive sectors from `lba` on. -/
structure Writes (relWrSecC : Nat) (sgl : List Piece) (lba : Nat) (calls : List LegacyCall) :
    Prop where
  bytes : cells (calls.map LegacyCall.data) = cells sgl
  consecutive : Consecutive lba calls
  reliable : ∀ call ∈ calls, call.Reliable relWrSecC

/-- Entries of whole sectors. -/
def Sectors (sgl : List Piece) : Prop := ∀ sg ∈ sgl, 0 < sg.size ∧ sg.size < 2 ^ 32 ∧ 512 ∣ sg.size

/-- With this reliable size every list of whole sectors is written from every sector on. -/
def LegacyWrites (relWrSecC : Nat) : Prop :=
  ∀ sgl lba, Sectors sgl → lba < 2 ^ 64 →
    ∃ calls, Returns (legacyTurn relWrSecC fun _ => EOK) ⟨sgl, lba, []⟩ (EOK, calls) ∧
      Writes relWrSecC sgl lba calls

/-! ## The loop of the driver -/

namespace Sim

theorem legacyCount_eq (sim : Sim) (lba sgCount : Nat) :
    sim.legacyCount lba sgCount = reliableCount sim.devInf.relWrSecC lba sgCount := by
  unfold legacyCount reliableCount SDMMC_ADDR_ALIGNED
  simp only [decide_eq_true_eq]

/-- A transfer that succeeds leaves the reliable size. -/
theorem sdmmcRw_relWrSecC {sim : Sim} {unit : LogicalUnit} {flgs : RwFlags} {dlen : Nat}
    {reply : RwReply} (succeeded : (sim.sdmmcRw unit flgs dlen reply).2 = EOK) :
    (sim.sdmmcRw unit flgs dlen reply).1.devInf.relWrSecC = sim.devInf.relWrSecC := by
  unfold sdmmcRw at succeeded ⊢
  split
  · rfl
  · next hasCmd =>
      rw [if_neg hasCmd] at succeeded
      split
      · rfl
      · next synchronized =>
          rw [if_neg synchronized] at succeeded
          dsimp only at succeeded ⊢
          split
          · rfl
          · next present =>
              rw [if_neg present] at succeeded
              split
              · next failed =>
                  rw [if_pos failed] at succeeded
                  exact absurd succeeded failed
              · dsimp only
                split
                · rfl
                · rfl

/-- The loop is the one that `sdmmc_read_write` runs: where every call succeeds, it returns after as
many turns. -/
theorem legacyWrite_walk (sim : Sim) (unit : LogicalUnit) (flgs : RwFlags)
    (replies : Nat → RwReply) (turns turn : Nat) (sgl : List Piece) (lba : Nat)
    (calls : List LegacyCall)
    (succeeds : ∀ (sim : Sim) dlen turn, (sim.sdmmcRw unit flgs dlen (replies turn)).2 = EOK) :
    (legacyWrite unit flgs replies turns turn (sgl.map Piece.size) lba sim).2 =
      (walk (legacyTurn sim.devInf.relWrSecC fun _ => EOK) turns ⟨sgl, lba, calls⟩).map
        Prod.fst := by
  induction turns generalizing sim turn sgl lba calls with
  | zero => rfl
  | succ turns ih =>
      cases sgl with
      | nil => rfl
      | cons sg rest =>
          rw [List.map_cons, legacyWrite, walk, legacyTurn]
          dsimp only
          by_cases used : sg.size = 0
          · rw [if_pos used, if_pos used]
            exact ih sim turn rest lba calls
          · rw [if_neg used, if_neg used, if_neg (not_not.mpr (succeeds _ _ _)),
              if_neg (not_not.mpr rfl), legacyCount_eq]
            dsimp only
            have later := ih (sim.sdmmcRw unit flgs
                (reliableCount sim.devInf.relWrSecC lba sg.size) (replies turn)).1 (turn + 1)
              (⟨sg.start + reliableCount sim.devInf.relWrSecC lba sg.size,
                Word.sub 32 sg.size (reliableCount sim.devInf.relWrSecC lba sg.size)⟩ :: rest)
              (Word.add 64 lba (reliableCount sim.devInf.relWrSecC lba sg.size / 512))
              (calls ++ [⟨lba, sg.front (reliableCount sim.devInf.relWrSecC lba sg.size)⟩])
            rw [sdmmcRw_relWrSecC (succeeds _ _ _)] at later
            exact later

end Sim

/-! ## Powers of two -/

section PowerOfTwo

variable {exponent lba size : Nat} {sgl : List Piece} {sg : Piece}

/-- The mask tells multiples of a power of two. -/
theorem aligned_two_pow (small : exponent < 8) (lba : Nat) :
    SDMMC_ADDR_ALIGNED lba (2 ^ exponent) = true ↔ 2 ^ exponent ∣ lba := by
  have below : 2 ^ exponent < 2 ^ 64 := Nat.pow_lt_pow_right (by norm_num) (by omega)
  have mask : Word.sub 64 (2 ^ exponent) 1 = 2 ^ exponent - 1 :=
    Word.sub_of_le Nat.one_le_two_pow below
  rw [SDMMC_ADDR_ALIGNED, decide_eq_true_eq, mask, Nat.and_two_pow_sub_one_eq_mod]
  exact (Nat.dvd_iff_mod_eq_zero).symm

/-- The call of a turn takes whole sectors from the front of the entry, and is reliable. -/
theorem reliableCount_two_pow (small : exponent < 8) (lba : Nat) (positive : 0 < size)
    (sectors : 512 ∣ size) :
    let count := reliableCount (2 ^ exponent) lba size
    0 < count ∧ 512 ∣ count ∧ count ≤ size ∧
      (count = 512 ∨ count = 2 ^ exponent * 512 ∧ 2 ^ exponent ∣ lba) := by
  have bounded : 2 ^ exponent * 512 < 2 ^ 32 := by
    have power : 2 ^ exponent ≤ 2 ^ 7 := Nat.pow_le_pow_right (by norm_num) (by omega)
    omega
  have whole : 512 ≤ size := Nat.le_of_dvd positive sectors
  have one : 1 ≤ 2 ^ exponent := Nat.one_le_two_pow
  unfold reliableCount
  rw [Nat.mod_eq_of_lt bounded]
  dsimp only
  by_cases aligned : SDMMC_ADDR_ALIGNED lba (2 ^ exponent) = true
  · rw [if_pos aligned]
    by_cases large : size > 2 ^ exponent * 512
    · rw [if_pos large]
      exact ⟨by omega, Nat.dvd_mul_left _ _, large.le,
        .inr ⟨rfl, (aligned_two_pow small lba).mp aligned⟩⟩
    · rw [if_neg large]
      exact ⟨by norm_num, dvd_rfl, whole, .inl rfl⟩
  · have least : ¬ 512 > 2 ^ exponent * 512 := by omega
    rw [if_neg aligned, if_neg least]
    exact ⟨by norm_num, dvd_rfl, whole, .inl rfl⟩

/-- What is left of the entries, in the course of the loops. -/
def SectorsLeft (sgl : List Piece) : Prop := ∀ sg ∈ sgl, sg.size < 2 ^ 32 ∧ 512 ∣ sg.size

theorem sectorsLeft_cons :
    SectorsLeft (sg :: sgl) ↔ (sg.size < 2 ^ 32 ∧ 512 ∣ sg.size) ∧ SectorsLeft sgl := by
  unfold SectorsLeft
  rw [List.forall_mem_cons]

/-- With a power of two the loops return, and have written what was left. -/
theorem legacyTurn_writes (small : exponent < 8) (left : SectorsLeft sgl) (lba : Nat)
    (calls : List LegacyCall) :
    ∃ more, Returns (legacyTurn (2 ^ exponent) fun _ => EOK) ⟨sgl, lba, calls⟩
        (EOK, calls ++ more) ∧ Writes (2 ^ exponent) sgl lba more := by
  induction measure : total sgl + sgl.length using Nat.strong_induction_on
    generalizing sgl lba calls with
  | _ bound ih =>
      cases sgl with
      | nil =>
          refine ⟨[], returns_of_ends ?_, rfl, trivial, fun call member => ?_⟩
          · rw [List.append_nil]
            rfl
          · exact absurd member List.not_mem_nil
      | cons sg sgl =>
          obtain ⟨⟨fits, sectors⟩, others⟩ := sectorsLeft_cons.mp left
          rw [total_cons, List.length_cons] at measure
          by_cases used : sg.size = 0
          · have goes : legacyTurn (2 ^ exponent) (fun _ => EOK) ⟨sg :: sgl, lba, calls⟩ =
                .goes ⟨sgl, lba, calls⟩ := by
              rw [legacyTurn]
              dsimp only
              rw [if_pos used]
            obtain ⟨more, returns, bytes, consecutive, reliable⟩ :=
              ih (total sgl + sgl.length) (by omega) others lba calls rfl
            refine ⟨more, returns_of_goes goes returns, ?_, consecutive, reliable⟩
            rw [bytes, cells_cons, Piece.cells, used]
            rfl
          · obtain ⟨positive, multiple, most, reliable⟩ :=
              reliableCount_two_pow small lba (Nat.pos_of_ne_zero used) sectors
            generalize chosen : reliableCount (2 ^ exponent) lba sg.size = count at *
            have goes : legacyTurn (2 ^ exponent) (fun _ => EOK) ⟨sg :: sgl, lba, calls⟩ =
                .goes ⟨sg.behind count :: sgl, Word.add 64 lba (count / 512),
                  calls ++ [⟨lba, sg.front count⟩]⟩ := by
              rw [legacyTurn]
              dsimp only
              rw [if_neg used, if_neg (not_not.mpr rfl), chosen, Word.sub_of_le most fits]
              rfl
            have behind : SectorsLeft (sg.behind count :: sgl) :=
              sectorsLeft_cons.mpr ⟨⟨(Nat.sub_le _ _).trans_lt fits,
                Nat.dvd_sub sectors multiple⟩, others⟩
            have less : total (sg.behind count :: sgl) + (sg.behind count :: sgl).length <
                bound := by
              rw [total_cons, List.length_cons]
              dsimp only [Piece.behind]
              omega
            obtain ⟨more, returns, bytes, consecutive, later⟩ :=
              ih _ less behind (Word.add 64 lba (count / 512))
                (calls ++ [⟨lba, sg.front count⟩]) rfl
            refine ⟨⟨lba, sg.front count⟩ :: more, returns_of_goes goes ?_, ?_,
              ⟨rfl, consecutive⟩, ?_⟩
            · rw [List.append_assoc] at returns
              exact returns
            · rw [List.map_cons, cells_cons, bytes, cells_cons, ← List.append_assoc,
                Piece.front_behind most, cells_cons]
            · exact List.forall_mem_cons.mpr ⟨reliable, later⟩

end PowerOfTwo

/-! ## Other sizes -/

/-- With a size of 0 the calls are of 0 bytes, and the loop goes on. -/
theorem legacyTurn_stuck {sg : Piece} {lba : Nat} {result : Nat × List LegacyCall}
    (some : sg.size ≠ 0) (fits : sg.size < 2 ^ 32)
    (returns : Returns (legacyTurn 0 fun _ => EOK) ⟨[sg], lba, []⟩ result) : False := by
  have none : ∀ lba, reliableCount 0 lba sg.size = 0 := by
    intro lba
    have nothing : 0 * 512 % 2 ^ 32 = 0 := rfl
    have more : (if SDMMC_ADDR_ALIGNED lba 0 = true then sg.size else 512) > 0 := by
      split
      · exact Nat.pos_of_ne_zero some
      · norm_num
    rw [reliableCount, nothing]
    exact if_pos more
  refine @Returns.kept _ _ _ _ _
    (fun loop => ∃ start, loop.sgl = [⟨start, sg.size⟩]) (fun _ => False) returns ?_ ?_ ⟨_, rfl⟩
  · rintro ⟨sgl, lba, calls⟩ next ⟨start, same⟩ goes
    dsimp only at same
    rw [same, legacyTurn] at goes
    dsimp only at goes
    rw [if_neg some, if_neg (not_not.mpr rfl), none] at goes
    cases goes
    refine ⟨start + 0, ?_⟩
    rw [Word.sub_of_le (Nat.zero_le _) fits]
    rfl
  · rintro ⟨sgl, lba, calls⟩ result ⟨start, same⟩ ends
    dsimp only at same
    rw [same, legacyTurn] at ends
    dsimp only at ends
    rw [if_neg some, if_neg (not_not.mpr rfl)] at ends
    cases ends

/-- A call that has been made is among those that the loops return. -/
theorem legacyTurn_keeps {relWrSecC : Nat} {rw : Nat → Nat} {loop : LegacyLoop}
    {result : Nat × List LegacyCall} {call : LegacyCall}
    (returns : Returns (legacyTurn relWrSecC rw) loop result) (made : call ∈ loop.calls) :
    call ∈ result.2 := by
  refine @Returns.kept _ _ _ _ _ (fun loop => call ∈ loop.calls) (fun result => call ∈ result.2)
    returns ?_ ?_ made
  · intro loop next made goes
    unfold legacyTurn at goes
    split at goes
    · cases goes
    · split at goes
      · cases goes
        exact made
      · dsimp only at goes
        split at goes
        · cases goes
        · cases goes
          exact List.mem_append_left _ made
  · intro loop result made ends
    unfold legacyTurn at ends
    split at ends
    · cases ends
      exact made
    · split at ends
      · cases ends
      · dsimp only at ends
        split at ends
        · cases ends
          exact List.mem_append_left _ made
        · cases ends

/-- From sector 256 on a write of any size that a card can name passes for aligned. -/
theorem reliableCount_256 {relWrSecC : Nat} (some : 0 < relWrSecC) (held : relWrSecC < 2 ^ 8) :
    reliableCount relWrSecC 256 (relWrSecC * 512 + 512) = relWrSecC * 512 := by
  have mask : Word.sub 64 relWrSecC 1 = relWrSecC - 1 :=
    Word.sub_of_le some (held.trans (by norm_num))
  have clear : (relWrSecC - 1).testBit 8 = false :=
    Nat.testBit_lt_two_pow ((Nat.sub_le _ _).trans_lt held)
  have aligned : SDMMC_ADDR_ALIGNED 256 relWrSecC = true := by
    have masked : (relWrSecC - 1) &&& 2 ^ 8 = 0 := by
      rw [Nat.and_two_pow, clear]
      rfl
    rw [SDMMC_ADDR_ALIGNED, decide_eq_true_eq, mask, Nat.and_comm]
    exact masked
  have fits : relWrSecC * 512 % 2 ^ 32 = relWrSecC * 512 := Nat.mod_eq_of_lt (by omega)
  rw [reliableCount, fits, if_pos aligned]
  exact if_pos (Nat.lt_add_of_pos_right (by norm_num))

/-- Every list is written reliably exactly when the size that the card names is a power of two. -/
theorem legacyWrites_iff (relWrSecC : Nat) (held : relWrSecC < 2 ^ 8) :
    LegacyWrites relWrSecC ↔ ∃ exponent, relWrSecC = 2 ^ exponent := by
  constructor
  · intro writes
    rcases Nat.eq_zero_or_pos relWrSecC with rfl | some
    · have sectors : Sectors [⟨0, 512⟩] := by
        intro sg member
        rw [List.mem_singleton.mp member]
        norm_num
      obtain ⟨calls, returns, _⟩ := writes [⟨0, 512⟩] 0 sectors (by norm_num)
      exact (legacyTurn_stuck (by norm_num) (by norm_num) returns).elim
    · have sectors : Sectors [⟨0, relWrSecC * 512 + 512⟩] := by
        intro sg member
        rw [List.mem_singleton.mp member]
        refine ⟨Nat.succ_pos _, ?_, Dvd.intro (relWrSecC + 1) (by ring)⟩
        dsimp only
        omega
      obtain ⟨calls, returns, written⟩ := writes _ 256 sectors (by norm_num)
      have goes : ∃ next : LegacyLoop, ⟨256, 0, relWrSecC * 512⟩ ∈ next.calls ∧
          legacyTurn relWrSecC (fun _ => EOK) ⟨[⟨0, relWrSecC * 512 + 512⟩], 256, []⟩ =
            .goes next := by
        rw [legacyTurn]
        dsimp only
        rw [if_neg (Nat.succ_ne_zero _), if_neg (not_not.mpr rfl), reliableCount_256 some held]
        exact ⟨_, List.mem_singleton_self _, rfl⟩
      obtain ⟨next, made, goes⟩ := goes
      have call := written.reliable _ (legacyTurn_keeps (returns.of_goes goes) made)
      rcases call with one | ⟨_, divides⟩
      · refine ⟨0, ?_⟩
        dsimp only at one
        omega
      · obtain ⟨exponent, _, power⟩ := (Nat.dvd_prime_pow Nat.prime_two).mp
          (show relWrSecC ∣ 2 ^ 8 from divides)
        exact ⟨exponent, power⟩
  · rintro ⟨exponent, rfl⟩ sgl lba sectors _
    have small : exponent < 8 := (Nat.pow_lt_pow_iff_right (by norm_num)).mp held
    have left : SectorsLeft sgl := fun sg member => (sectors sg member).2
    exact legacyTurn_writes small left lba []

/-- A card that names eight sectors. -/
theorem legacyWrites_eight : LegacyWrites 8 ↔ ∃ exponent, 8 = 2 ^ exponent :=
  legacyWrites_iff 8 (by norm_num)

/-- A card that names none stops the driver. -/
theorem legacyWrites_none : ¬ LegacyWrites 0 := by
  intro writes
  have sectors : Sectors [⟨0, 512⟩] := by
    intro sg member
    rw [List.mem_singleton.mp member]
    norm_num
  obtain ⟨calls, returns, _⟩ := writes [⟨0, 512⟩] 0 sectors (by norm_num)
  exact legacyTurn_stuck (by norm_num) (by norm_num) returns

end Bcm2711.Sdmmc
