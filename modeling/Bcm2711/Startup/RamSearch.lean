import Bcm2711.Startup.FindRam

/-! # Searches with a limit, a range and a colour

`find_top_ram_aligned_limit` looks for the highest block below a limit, and
`find_ram_in_range` for the first block of a colour in a range.  Both narrow every RAM
entry by the avoid list; the limit, the colour and the range are applied to the address
after it was aligned, and nothing is aligned again.
-/

namespace Bcm2711.Startup

open Spans

/-- The loop of `find_top_ram_aligned_limit`, with `size` rounded. -/
def findTopFrom (ram : RamTable) (avoid : AvoidTable) (size align limit : Nat) :
    (fuel slot top : Nat) → Result Nat
  | 0, _, _ => .error .stuck
  | fuel + 1, slot, top =>
      let entry := ram.ramList slot
      if entry.size = 0 then .ok top
      else
        let s := entry.addr
        let e := addPaddr s entry.size
        match fixAll avoid avoid.avoidListSize 0 s e with
        | .error halt => .error halt
        | .ok none => findTopFrom ram avoid size align limit fuel (slot + 1) top
        | .ok (some (s, e)) =>
            if subPaddr e s ≥ size then
              let chk := if align ≠ 0 then TRUNC (subPaddr e size) align else subPaddr e size
              if chk ≥ s ∧ chk > top then
                if addPaddr chk size ≥ limit then
                  let clamped := subPaddr limit size
                  .ok (if clamped < s then top else clamped)
                else findTopFrom ram avoid size align limit fuel (slot + 1) chk
              else findTopFrom ram avoid size align limit fuel (slot + 1) top
            else findTopFrom ram avoid size align limit fuel (slot + 1) top

/-- `find_top_ram_aligned_limit`. -/
def findTopRamAlignedLimit (ram : RamTable) (avoid : AvoidTable)
    (size align pagesize limit : Nat) : Result Nat :=
  if limit < size then .ok nullPaddr
  else
    match findTopFrom ram avoid (ROUND size pagesize) align limit ram.ramListSize 0 0 with
    | .error halt => .error halt
    | .ok top => .ok (if top = 0 then nullPaddr else top)

/-! ## Candidates -/

/-- What the avoid list leaves of a candidate. -/
def narrow : List AvoidEntry → (s e : Nat) → Option (Nat × Nat)
  | [], s, e => some (s, e)
  | entry :: rest, s, e =>
      (fixSize s e entry.start entry.stop).bind fun left => narrow rest left.1 left.2

variable {avoid : AvoidTable} {ram : RamTable} {spans : List (Span Nat)}
  {entries : List AvoidEntry}

/-- The loop over the avoid list computes what is left. -/
theorem fixAll_eq {fuel s e : Nat} {front rest : List AvoidEntry}
    (stores : avoid.Stores (front ++ rest)) (enough : rest.length < fuel) :
    fixAll avoid fuel front.length s e = .ok (narrow rest s e) := by
  induction rest generalizing front fuel s e with
  | nil =>
      obtain ⟨fuel, rfl⟩ := Nat.exists_eq_succ_of_ne_zero (Nat.ne_zero_of_lt enough)
      have ended : (avoid.avoidList front.length).stop = 0 := by
        simpa [AvoidEntry.Ended] using stores.holds.terminated
      simp [fixAll, ended, narrow]
  | cons entry rest ih =>
      obtain ⟨fuel, rfl⟩ := Nat.exists_eq_succ_of_ne_zero (Nat.ne_zero_of_lt enough)
      have stored : avoid.avoidList front.length = entry := stores.holds.slot_eq
      have live : entry.stop ≠ 0 := stores.holds.live entry (by simp)
      simp only [fixAll, stored, live, ↓reduceIte, narrow]
      cases fixed : fixSize s e entry.start entry.stop with
      | none => rfl
      | some left =>
          have regrouped : avoid.Stores ((front ++ [entry]) ++ rest) := by simpa using stores
          have later := @ih fuel left.1 left.2 _ regrouped (Nat.lt_of_succ_lt_succ enough)
          rw [List.length_append, List.length_singleton] at later
          exact later

/-- `s` and `e` bound what the avoid list leaves of the RAM entry. -/
structure Candidate (entries : List AvoidEntry) (span : Span Nat) (s e : Nat) : Prop where
  above : span.lo ≤ s
  nonempty : s < e
  below : e ≤ span.hi
  clear : Disjoint (Set.Ico s e) (avoided entries)

/-- The loop over the avoid list, for one RAM entry. -/
theorem fixAll_span (avoids : avoid.Stores entries) (s e : Nat) :
    fixAll avoid avoid.avoidListSize 0 s e = .ok (narrow entries s e) := by
  have enough : entries.length < avoid.avoidListSize := by
    rw [avoids.bytes, sizeofAvoidEntry]
    omega
  exact @fixAll_eq avoid _ s e [] entries avoids enough

theorem candidate_of_narrow (avoids : avoid.Stores entries) {span : Span Nat} {s e : Nat}
    (proper : span.lo < span.hi) (fits : span.hi < 2 ^ 64)
    (left : narrow entries span.lo span.hi = some (s, e)) : Candidate entries span s e := by
  have enough : entries.length < entries.length + 1 := Nat.lt_succ_self _
  obtain ⟨found, run, sound⟩ := @fixAll_sound avoid (entries.length + 1) span.lo span.hi []
    entries avoids enough proper fits
  have same := @fixAll_eq avoid (entries.length + 1) span.lo span.hi [] entries avoids enough
  have isLeft : found = some (s, e) := by
    rw [same, left] at run
    exact (Except.ok.inj run).symm
  obtain ⟨above, nonempty, below, clear⟩ := sound s e isLeft
  exact ⟨above, nonempty, below, clear⟩

/-- A block that lies inside one RAM entry and is clear of the avoid list. -/
structure FreeBlock (spans : List (Span Nat)) (entries : List AvoidEntry) (addr size : Nat) :
    Prop where
  inside : ∃ span ∈ spans, Set.Ico addr (addr + size) ⊆ Set.Ico span.lo span.hi
  clear : Disjoint (Set.Ico addr (addr + size)) (avoided entries)

/-- A block inside a candidate is free. -/
theorem Candidate.freeBlock {span : Span Nat} {s e addr size : Nat}
    (candidate : Candidate entries span s e) (member : span ∈ spans) (above : s ≤ addr)
    (below : addr + size ≤ e) : FreeBlock spans entries addr size := by
  have block : Set.Ico addr (addr + size) ⊆ Set.Ico s e := Set.Ico_subset_Ico above below
  refine ⟨⟨span, member, block.trans ?_⟩, candidate.clear.mono_left block⟩
  exact Set.Ico_subset_Ico candidate.above candidate.below

/-- The first candidate with a property, in the order of the RAM entries. -/
def FirstWith (spans : List (Span Nat)) (entries : List AvoidEntry) (suits : Nat → Nat → Prop)
    (s e : Nat) : Prop :=
  ∃ front span rest, spans = front ++ span :: rest ∧
    narrow entries span.lo span.hi = some (s, e) ∧ suits s e ∧
    ∀ other ∈ front, ∀ s' e', narrow entries other.lo other.hi = some (s', e') → ¬ suits s' e'

/-- There is one first candidate. -/
theorem FirstWith.unique {suits : Nat → Nat → Prop} {s e s' e' : Nat}
    (first : FirstWith spans entries suits s e) (second : FirstWith spans entries suits s' e') :
    s = s' ∧ e = e' := by
  obtain ⟨front, span, rest, isSpans, isLeft, suited, none_before⟩ := first
  obtain ⟨front', span', rest', isSpans', isLeft', suited', none_before'⟩ := second
  have same : front = front' ∧ span = span' := by
    rw [isSpans] at isSpans'
    rcases List.append_eq_append_iff.mp isSpans' with
      ⟨more, isFront, isRest⟩ | ⟨more, isFront, isRest⟩
    · cases more with
      | nil =>
          rw [List.append_nil] at isFront
          rw [List.nil_append] at isRest
          exact ⟨isFront.symm, (List.cons.inj isRest).1⟩
      | cons head tail =>
          have isHead := (List.cons.inj isRest).1
          subst isHead
          subst isFront
          exact absurd suited (none_before' span (by simp) s e isLeft)
    · cases more with
      | nil =>
          rw [List.append_nil] at isFront
          rw [List.nil_append] at isRest
          exact ⟨isFront, (List.cons.inj isRest).1.symm⟩
      | cons head tail =>
          have isHead := (List.cons.inj isRest).1
          subst isHead
          subst isFront
          exact absurd suited' (none_before span' (by simp) s' e' isLeft')
  obtain ⟨-, rfl⟩ := same
  rw [isLeft] at isLeft'
  exact Prod.mk.inj (Option.some.inj isLeft')

/-! ## The limit -/

/-- Where a block goes at the end of a candidate. -/
def topOf (size align e : Nat) : Nat := if align ≠ 0 then TRUNC (e - size) align else e - size

/-- A candidate has room for a block, and the block at its end reaches the limit. -/
def ReachesLimit (size align limit s e : Nat) : Prop :=
  size ≤ e - s ∧ s ≤ topOf size align e ∧ 0 < topOf size align e ∧
    limit ≤ topOf size align e + size

/-- An address that `find_top_ram_aligned_limit` may return. -/
structure TopFound (spans : List (Span Nat)) (entries : List AvoidEntry)
    (size align limit addr : Nat) : Prop where
  free : FreeBlock spans entries addr size
  limited : addr + size ≤ limit
  aligned : align ≠ 0 → align ∣ addr

/-- An alignment: a power of two, or none. -/
def IsAlign (align : Nat) : Prop := align = 0 ∨ ∃ shift < 32, align = 2 ^ shift

theorem topOf_le {size align e : Nat} (isAlign : IsAlign align) (fits : e < 2 ^ 64) :
    topOf size align e ≤ e - size := by
  rcases isAlign with rfl | ⟨shift, small, rfl⟩
  · exact le_rfl
  · have positive : (2 : Nat) ^ shift ≠ 0 := (Nat.two_pow_pos shift).ne'
    rw [topOf, if_pos positive, TRUNC, Word.trunc_two_pow (by omega) (by omega)]
    exact Nat.div_mul_le_self _ _

theorem topOf_aligned {size align e : Nat} (isAlign : IsAlign align) (fits : e < 2 ^ 64)
    (isAligned : align ≠ 0) : align ∣ topOf size align e := by
  rcases isAlign with rfl | ⟨shift, small, rfl⟩
  · exact absurd rfl isAligned
  · rw [topOf, if_pos isAligned, TRUNC, Word.trunc_two_pow (by omega) (by omega)]
    exact Nat.dvd_mul_left _ _

/-- What the loop leaves: the highest block so far, or the block below the limit in the first
candidate that reaches it. -/
def TopOutcome (spans rest : List (Span Nat)) (entries : List AvoidEntry)
    (size align limit result : Nat) : Prop :=
  ((∀ s e, ¬ FirstWith rest entries (ReachesLimit size align limit) s e) ∧
      (result = 0 ∨ TopFound spans entries size align limit result)) ∨
    ∃ s e, FirstWith rest entries (ReachesLimit size align limit) s e ∧ e < 2 ^ 64 ∧
      (∃ span ∈ spans, Candidate entries span s e) ∧
      ((subPaddr limit size < s ∧ (result = 0 ∨ TopFound spans entries size align limit result)) ∨
        s ≤ subPaddr limit size ∧ result = subPaddr limit size)

theorem FirstWith.cons {suits : Nat → Nat → Prop} {span : Span Nat} {rest : List (Span Nat)}
    {s e : Nat} (first : FirstWith rest entries suits s e)
    (unsuited : ∀ s' e', narrow entries span.lo span.hi = some (s', e') → ¬ suits s' e') :
    FirstWith (span :: rest) entries suits s e := by
  obtain ⟨front, other, later, rfl, isLeft, suited, none_before⟩ := first
  refine ⟨span :: front, other, later, rfl, isLeft, suited, ?_⟩
  intro earlier member
  rcases List.mem_cons.mp member with rfl | inFront
  · exact unsuited
  · exact none_before earlier inFront

theorem FirstWith.of_cons {suits : Nat → Nat → Prop} {span : Span Nat} {rest : List (Span Nat)}
    {s e : Nat} (first : FirstWith (span :: rest) entries suits s e)
    (unsuited : ∀ s' e', narrow entries span.lo span.hi = some (s', e') → ¬ suits s' e') :
    FirstWith rest entries suits s e := by
  obtain ⟨front, other, later, isSpans, isLeft, suited, none_before⟩ := first
  cases front with
  | nil =>
      obtain ⟨rfl, -⟩ := List.cons.inj isSpans
      exact absurd suited (unsuited s e isLeft)
  | cons head front =>
      obtain ⟨rfl, rfl⟩ := List.cons.inj isSpans
      exact ⟨front, other, later, rfl, isLeft, suited,
        fun earlier member => none_before earlier (List.mem_cons_of_mem _ member)⟩

/-- A RAM entry that does not reach the limit leaves the outcome to the entries behind it. -/
theorem TopOutcome.cons {span : Span Nat} {rest : List (Span Nat)} {size align limit result : Nat}
    (outcome : TopOutcome spans rest entries size align limit result)
    (unsuited : ∀ s e, narrow entries span.lo span.hi = some (s, e) →
      ¬ ReachesLimit size align limit s e) :
    TopOutcome spans (span :: rest) entries size align limit result := by
  rcases outcome with ⟨none_reaches, found⟩ | ⟨s, e, first, rest⟩
  · exact .inl ⟨fun s e first => none_reaches s e (first.of_cons unsuited), found⟩
  · exact .inr ⟨s, e, first.cons unsuited, rest⟩

/-- What the loop leaves, from any slot and any block so far that ends below the limit. -/
theorem findTopFrom_spec {fuel size align limit top : Nat} {front rest : List (Span Nat)}
    (stores : ram.Stores (front ++ rest)) (avoids : avoid.Stores entries)
    (isAlign : IsAlign align) (limited : limit < 2 ^ 64) (enough : rest.length < fuel)
    (isFound : top = 0 ∨
      TopFound (front ++ rest) entries size align limit top ∧ top + size < limit) :
    ∃ result, findTopFrom ram avoid size align limit fuel front.length top = .ok result ∧
      TopOutcome (front ++ rest) rest entries size align limit result := by
  have soFar : top = 0 ∨ TopFound (front ++ rest) entries size align limit top :=
    isFound.imp_right And.left
  induction rest generalizing front fuel top with
  | nil =>
      obtain ⟨fuel, rfl⟩ := Nat.exists_eq_succ_of_ne_zero (Nat.ne_zero_of_lt enough)
      have ended : (ram.ramList front.length).size = 0 := by simpa using stores.terminated
      refine ⟨top, by simp [findTopFrom, ended], .inl ⟨?_, soFar⟩⟩
      rintro s e ⟨before, span, behind, isNil, -⟩
      exact absurd isNil (by simp)
  | cons span rest ih =>
      obtain ⟨fuel, rfl⟩ := Nat.exists_eq_succ_of_ne_zero (Nat.ne_zero_of_lt enough)
      have proper := stores.proper span (by simp)
      have fits := stores.fits span (by simp)
      have live : span.hi - span.lo ≠ 0 := by omega
      have regrouped : ram.Stores ((front ++ [span]) ++ rest) := by simpa using stores
      -- the loop goes on with a block that ends below the limit
      have goesOn (next : Nat)
          (isNext : next = 0 ∨
            TopFound (front ++ span :: rest) entries size align limit next ∧ next + size < limit)
          (unsuited : ∀ s e, narrow entries span.lo span.hi = some (s, e) →
            ¬ ReachesLimit size align limit s e) :
          ∃ result, findTopFrom ram avoid size align limit fuel (front.length + 1) next =
              .ok result ∧
            TopOutcome (front ++ span :: rest) (span :: rest) entries size align limit result := by
        have same : (front ++ [span]) ++ rest = front ++ span :: rest := by simp
        have isNext : next = 0 ∨
            TopFound ((front ++ [span]) ++ rest) entries size align limit next ∧
              next + size < limit := by
          rw [same]
          exact isNext
        obtain ⟨result, run, outcome⟩ := ih regrouped (Nat.lt_of_succ_lt_succ enough) isNext
          (isNext.imp_right And.left)
        rw [List.length_append, List.length_singleton] at run
        exact ⟨result, run, (same ▸ outcome).cons unsuited⟩
      have stored := stores.entry_eq
      have entry : (RamEntry.ofSpan span).addr = span.lo := rfl
      have width : (RamEntry.ofSpan span).size = span.hi - span.lo := rfl
      simp only [findTopFrom, stored, entry, width, live, ↓reduceIte, stores.stop_eq,
        fixAll_span avoids]
      cases left : narrow entries span.lo span.hi with
      | none => exact goesOn top isFound (by simp [left])
      | some bounds =>
          obtain ⟨s, e⟩ := bounds
          have candidate := candidate_of_narrow avoids proper fits left
          have member : span ∈ front ++ span :: rest := by simp
          have below : e < 2 ^ 64 := candidate.below.trans_lt fits
          have nonempty := candidate.nonempty
          have only (unsuited : ¬ ReachesLimit size align limit s e) :
              ∀ s' e', narrow entries span.lo span.hi = some (s', e') →
                ¬ ReachesLimit size align limit s' e' := by
            intro s' e' isLeft
            rw [left] at isLeft
            cases isLeft
            exact unsuited
          dsimp only
          rw [subPaddr_of_le nonempty.le below]
          by_cases hasRoom : e - s ≥ size
          · have sized : size ≤ e := by omega
            rw [if_pos hasRoom, subPaddr_of_le sized below]
            change ∃ result, (if topOf size align e ≥ s ∧ topOf size align e > top then _ else _) =
              _ ∧ _
            have atMost : topOf size align e ≤ e - size := topOf_le isAlign below
            have sum : addPaddr (topOf size align e) size = topOf size align e + size :=
              addPaddr_of_lt (by omega)
            by_cases better : topOf size align e ≥ s ∧ topOf size align e > top
            · rw [if_pos better]
              obtain ⟨inside, higher⟩ := better
              change ∃ result, (if addPaddr (topOf size align e) size ≥ limit then _ else _) = _ ∧ _
              rw [sum]
              by_cases reaches : topOf size align e + size ≥ limit
              · rw [if_pos reaches]
                have first : FirstWith (span :: rest) entries (ReachesLimit size align limit) s e :=
                  ⟨[], span, rest, rfl, left, ⟨hasRoom, inside, by omega, reaches⟩, by simp⟩
                refine ⟨_, rfl, .inr ⟨s, e, first, below, ⟨span, member, candidate⟩, ?_⟩⟩
                by_cases before : subPaddr limit size < s
                · exact .inl ⟨before, by rw [if_pos before]; exact soFar⟩
                · exact .inr ⟨Nat.le_of_not_lt before, if_neg before⟩
              · rw [if_neg reaches]
                have ends : topOf size align e + size ≤ e := by omega
                have under : topOf size align e + size < limit := Nat.lt_of_not_le reaches
                refine goesOn (topOf size align e) (.inr ⟨⟨?_, under.le, ?_⟩, under⟩)
                  (only fun reached => reaches reached.2.2.2)
                · exact candidate.freeBlock member inside ends
                · exact topOf_aligned isAlign below
            · rw [if_neg better]
              refine goesOn top isFound (only fun reached => ?_)
              obtain ⟨-, inside, positive, atLimit⟩ := reached
              rcases isFound with none_found | ⟨-, ends⟩
              · exact better ⟨inside, by omega⟩
              · exact better ⟨inside, by omega⟩
          · rw [if_neg hasRoom]
            exact goesOn top isFound (only fun reached => hasRoom reached.1)

/-- When the limit is kept: the first candidate that reaches it starts above the highest block
below it, or that block does not start below zero and is aligned. -/
def KeepsLimit (spans : List (Span Nat)) (entries : List AvoidEntry)
    (size align limit : Nat) : Prop :=
  ∀ s e, FirstWith spans entries (ReachesLimit size align limit) s e →
    subPaddr limit size < s ∨ size = limit + 1 ∨
      size ≤ limit ∧ (align ≠ 0 → align ∣ limit - size)

theorem eq_of_subPaddr_zero {limit size e : Nat} (limited : limit < 2 ^ 64) (fits : e < 2 ^ 64)
    (isZero : subPaddr limit size = 0) (sized : size ≤ e) : limit = size := by
  unfold subPaddr Word.sub at isZero
  rw [Nat.mod_eq_of_lt (by omega : size < 2 ^ 64)] at isZero
  omega

/-- A block right below the limit is good when it does not start below zero and is aligned. -/
theorem clamped_iff {s e size align limit : Nat} {span : Span Nat}
    (candidate : Candidate entries span s e) (member : span ∈ spans) (fits : e < 2 ^ 64)
    (limited : limit < 2 ^ 64) (reaches : ReachesLimit size align limit s e)
    (isAlign : IsAlign align) (inside : s ≤ subPaddr limit size) :
    (subPaddr limit size = nullPaddr ∨
        TopFound spans entries size align limit (subPaddr limit size)) ↔
      size = limit + 1 ∨ size ≤ limit ∧ (align ≠ 0 → align ∣ limit - size) := by
  obtain ⟨hasRoom, -, -, atLimit⟩ := reaches
  have atMost : topOf size align e ≤ e - size := topOf_le isAlign fits
  by_cases order : size ≤ limit
  · have isDiff : subPaddr limit size = limit - size := subPaddr_of_le order limited
    rw [isDiff] at inside ⊢
    constructor
    · rintro (isNull | found)
      · -- an empty block at the very top is where the block at the end of the candidate was
        unfold nullPaddr at isNull
        have same : limit - size = topOf size align e := by omega
        rw [same]
        exact .inr ⟨order, topOf_aligned isAlign fits⟩
      · exact .inr ⟨order, found.aligned⟩
    · rintro (isNull | ⟨-, aligned⟩)
      · omega
      · exact .inr ⟨candidate.freeBlock member inside (by omega), by omega, aligned⟩
  · have isDiff : subPaddr limit size = 2 ^ 64 + limit - size := by
      unfold subPaddr Word.sub
      rw [Nat.mod_eq_of_lt (by omega : size < 2 ^ 64), Nat.mod_eq_of_lt (by omega)]
      omega
    rw [isDiff]
    unfold nullPaddr
    constructor
    · rintro (isNull | found)
      · exact .inl (by omega)
      · have ends := found.limited
        omega
    · rintro (isNull | ⟨isBelow, -⟩)
      · exact .inl (by omega)
      · omega

/-- **A block below a limit**: `find_top_ram_aligned_limit` returns a free block below the limit
and aligned, or `NULL_PADDR`, when the limit is kept, and only then. -/
theorem findTopRamAlignedLimit_iff {size align pageShift limit : Nat} (stores : ram.Stores spans)
    (avoids : avoid.Stores entries) (isAlign : IsAlign align) (limited : limit < 2 ^ 64) :
    ∃ addr, findTopRamAlignedLimit ram avoid size align (2 ^ pageShift) limit = .ok addr ∧
      ((addr = nullPaddr ∨
          TopFound spans entries (ROUND size (2 ^ pageShift)) align limit addr) ↔
        (limit < size ∨ KeepsLimit spans entries (ROUND size (2 ^ pageShift)) align limit)) := by
  unfold findTopRamAlignedLimit
  by_cases short : limit < size
  · exact ⟨nullPaddr, if_pos short, fun _ => .inl short, fun _ => .inl rfl⟩
  · have enough : spans.length < ram.ramListSize := by
      rw [stores.bytes, sizeofRamEntry]
      omega
    obtain ⟨top, run, outcome⟩ := @findTopFrom_spec avoid ram entries ram.ramListSize
      (ROUND size (2 ^ pageShift)) align limit 0 [] spans stores avoids isAlign limited enough
      (.inl rfl)
    rw [List.length_nil] at run
    rw [List.nil_append] at outcome
    rw [if_neg short, run]
    refine ⟨if top = 0 then nullPaddr else top, rfl, ?_⟩
    have good (isGood : top = 0 ∨
        TopFound spans entries (ROUND size (2 ^ pageShift)) align limit top) :
        (if top = 0 then nullPaddr else top) = nullPaddr ∨
          TopFound spans entries (ROUND size (2 ^ pageShift)) align limit
            (if top = 0 then nullPaddr else top) := by
      split
      · exact .inl rfl
      · next some_top => exact .inr (isGood.resolve_left some_top)
    rcases outcome with
      ⟨none_reaches, isGood⟩ | ⟨s, e, first, fits, ⟨span, member, candidate⟩, ends⟩
    · exact ⟨fun _ => .inr fun s e first => absurd first (none_reaches s e), fun _ => good isGood⟩
    · rcases ends with ⟨before, isGood⟩ | ⟨inside, rfl⟩
      · refine ⟨fun _ => .inr fun s' e' other => ?_, fun _ => good isGood⟩
        obtain ⟨rfl, -⟩ := first.unique other
        exact .inl before
      · obtain ⟨-, span', -, -, -, reaches, -⟩ := id first
        have exactly := clamped_iff candidate member fits limited reaches isAlign inside
        have keeps : KeepsLimit spans entries (ROUND size (2 ^ pageShift)) align limit ↔
            ROUND size (2 ^ pageShift) = limit + 1 ∨ ROUND size (2 ^ pageShift) ≤ limit ∧
              (align ≠ 0 → align ∣ limit - ROUND size (2 ^ pageShift)) := by
          constructor
          · intro kept
            exact (kept s e first).resolve_left (Nat.not_lt.mpr inside)
          · intro kept s' e' _
            exact .inr kept
        rw [keeps, ← exactly]
        by_cases atZero : subPaddr limit (ROUND size (2 ^ pageShift)) = 0
        · have equal := eq_of_subPaddr_zero limited (by omega) atZero
            (reaches.1.trans (Nat.sub_le _ _))
          rw [if_pos atZero]
          refine ⟨fun _ => .inr (exactly.mpr (.inr ⟨equal.ge, ?_⟩)), fun _ => .inl rfl⟩
          rw [← equal, Nat.sub_self]
          exact fun _ => dvd_zero align
        · rw [if_neg atZero]
          exact ⟨.inr, fun kept => kept.resolve_left short⟩

/-! ## The range and the colour -/

namespace RamRequest

variable (request : RamRequest)

/-- The step to the next place of the colour. -/
def incr : Nat := Word.add 32 (Word.sub 32 request.mask 1 ||| request.mask) 1

/-- The start of a candidate, aligned and then moved to the colour. -/
def coloured (s : Nat) : Nat :=
  if ROUND s request.align &&& request.mask ≠ request.colour then
    (addPaddr (ROUND s request.align) request.incr &&& Word.compl 32 request.mask) |||
      request.colour
  else ROUND s request.align

/-- Where the request starts in a candidate. -/
def start (s : Nat) : Nat :=
  if request.rangeStart ≠ 0 ∧ request.coloured s < request.rangeStart then request.rangeStart
  else request.coloured s

/-- Where the request has to end in a candidate. -/
def stop (e : Nat) : Nat :=
  if request.rangeEnd ≠ 0 ∧ e > request.rangeEnd then request.rangeEnd else e

/-- The request fits in a candidate. -/
def Fits (s e : Nat) : Prop :=
  request.start s < request.stop e ∧ request.size ≤ request.stop e - request.start s

instance (s e : Nat) : Decidable (request.Fits s e) :=
  inferInstanceAs (Decidable (_ ∧ _))

/-- An address that `find_ram_in_range` may return. -/
structure Honoured (spans : List (Span Nat)) (entries : List AvoidEntry) (addr : Nat) : Prop where
  aligned : request.align ∣ addr
  colour : addr &&& request.mask = request.colour
  above : request.rangeStart ≤ addr
  below : request.rangeEnd ≠ 0 → addr + request.size ≤ request.rangeEnd
  free : FreeBlock spans entries addr request.size

/-- When a candidate that starts at `s` is used well.  A range that starts behind the candidate
is not aligned or coloured again, a step to the colour undoes the alignment unless both are
multiples of it, and the 32 bits of `~mask` cut the address off. -/
structure PlacesWell (spans : List (Span Nat)) (entries : List AvoidEntry) (s : Nat) : Prop where
  ranged : request.rangeStart ≠ 0 ∧ request.coloured s < request.rangeStart →
    request.align ∣ request.rangeStart ∧ request.rangeStart &&& request.mask = request.colour
  moved : ¬ (request.rangeStart ≠ 0 ∧ request.coloured s < request.rangeStart) →
    ROUND s request.align &&& request.mask ≠ request.colour →
      request.colour &&& request.mask = request.colour ∧ request.align ∣ request.colour ∧
        request.align ∣ request.incr &&& Word.compl 32 request.mask
  kept : s ≤ request.start s ∨ FreeBlock spans entries (request.start s) request.size

variable {request}

theorem stop_le (e : Nat) : request.stop e ≤ e := by
  unfold stop
  split
  · next lower => exact lower.2.le
  · exact le_rfl

/-- The body of the loop takes the candidates in which the request fits. -/
theorem place_eq {s e : Nat} (fits : e < 2 ^ 64) :
    request.place s e = if request.Fits s e then some (request.start s) else none := by
  have bounded : request.stop e < 2 ^ 64 := (stop_le e).trans_lt fits
  change (if request.start s ≥ request.stop e then none
    else if request.size ≤ subPaddr (request.stop e) (request.start s) then some (request.start s)
    else none) = _
  by_cases before : request.start s < request.stop e
  · rw [if_neg (Nat.not_le.mpr before), subPaddr_of_le before.le bounded]
    by_cases hasRoom : request.size ≤ request.stop e - request.start s
    · rw [if_pos hasRoom, if_pos ⟨before, hasRoom⟩]
    · rw [if_neg hasRoom, if_neg fun isFit => hasRoom isFit.2]
  · rw [if_pos (Nat.le_of_not_lt before), if_neg fun isFit => before isFit.1]

/-- Truncation leaves a multiple of the alignment, also where the sum wrapped. -/
theorem dvd_ROUND {shift : Nat} (small : shift < 32) (s : Nat) :
    2 ^ shift ∣ ROUND s (2 ^ shift) := by
  unfold ROUND Word.round
  rw [Word.trunc_two_pow (Word.add_lt 64 _ _) (by omega)]
  exact Nat.dvd_mul_left _ _

/-- The cleared bits of a mask have nothing in common with it. -/
theorem compl_and_mask {mask : Nat} (narrow : mask < 2 ^ 32) : Word.compl 32 mask &&& mask = 0 := by
  apply Nat.eq_of_testBit_eq
  intro bit
  have isCompl : Word.compl 32 mask = 2 ^ 32 - (mask + 1) := by
    unfold Word.compl
    omega
  rw [Nat.testBit_and, isCompl, Nat.testBit_two_pow_sub_succ narrow, Nat.zero_testBit]
  cases mask.testBit bit <;> simp

/-- A moved address has the colour when the colour is inside the mask. -/
theorem moved_and_mask {mask : Nat} (narrow : mask < 2 ^ 32) (addr colour : Nat) :
    ((addr &&& Word.compl 32 mask) ||| colour) &&& mask = colour &&& mask := by
  rw [Nat.and_or_distrib_right, Nat.and_assoc, compl_and_mask narrow, Nat.and_zero, Nat.zero_or]

/-- A moved address is aligned when the step and the colour are. -/
theorem dvd_moved {shift addr step mask colour : Nat} (small : shift < 32)
    (aligned : 2 ^ shift ∣ addr) :
    2 ^ shift ∣ (addPaddr addr step &&& Word.compl 32 mask) ||| colour ↔
      2 ^ shift ∣ colour ∧ 2 ^ shift ∣ step &&& Word.compl 32 mask := by
  have sum : addPaddr addr step % 2 ^ shift = step % 2 ^ shift := by
    unfold addPaddr Word.add
    have divides : 2 ^ shift ∣ 2 ^ 64 := Nat.pow_dvd_pow 2 (by omega)
    rw [Nat.mod_mod_of_dvd _ divides, Nat.add_mod, Nat.mod_eq_zero_of_dvd aligned, Nat.zero_add,
      Nat.mod_mod]
  rw [Nat.dvd_iff_mod_eq_zero, Nat.dvd_iff_mod_eq_zero, Nat.dvd_iff_mod_eq_zero,
    Nat.or_mod_two_pow, Nat.and_mod_two_pow, sum, ← Nat.and_mod_two_pow, Nat.or_eq_zero_iff]
  exact and_comm

/-- In a candidate where it fits, a request is honoured when the candidate is used well. -/
theorem honoured_iff {shift s e : Nat} {span : Span Nat} (small : shift < 32)
    (isAlign : request.align = 2 ^ shift) (masked : request.mask < 2 ^ 32)
    (candidate : Candidate entries span s e) (member : span ∈ spans)
    (isFit : request.Fits s e) :
    request.Honoured spans entries (request.start s) ↔ request.PlacesWell spans entries s := by
  obtain ⟨before, hasRoom⟩ := isFit
  have ends : request.start s + request.size ≤ request.stop e := by omega
  have above : request.rangeStart ≤ request.start s := by
    unfold start
    split
    · exact le_rfl
    · omega
  have below : request.rangeEnd ≠ 0 → request.start s + request.size ≤ request.rangeEnd := by
    intro bounded
    refine ends.trans ?_
    unfold stop
    split
    · exact le_rfl
    · next notLower => exact Nat.le_of_not_lt fun lower => notLower ⟨bounded, lower⟩
  have rounded : request.align ∣ ROUND s request.align := by
    rw [isAlign]
    exact dvd_ROUND small s
  constructor
  · rintro ⟨aligned, colour, -, -, free⟩
    refine ⟨fun raised => ?_, fun notRaised recolours => ?_, .inr free⟩
    · have isStart : request.start s = request.rangeStart := if_pos raised
      rw [isStart] at aligned colour
      exact ⟨aligned, colour⟩
    · have isStart : request.start s =
          (addPaddr (ROUND s request.align) request.incr &&& Word.compl 32 request.mask) |||
            request.colour := (if_neg notRaised).trans (if_pos recolours)
      rw [isStart] at aligned colour
      rw [moved_and_mask masked] at colour
      rw [isAlign] at aligned rounded
      have both := (dvd_moved small rounded).mp aligned
      rw [← isAlign] at both
      exact ⟨colour, both⟩
  · rintro ⟨ranged, moved, kept⟩
    have free : FreeBlock spans entries (request.start s) request.size := by
      rcases kept with inside | free
      · exact candidate.freeBlock member inside (ends.trans (stop_le e))
      · exact free
    by_cases raised : request.rangeStart ≠ 0 ∧ request.coloured s < request.rangeStart
    · obtain ⟨aligned, colour⟩ := ranged raised
      have isStart : request.start s = request.rangeStart := if_pos raised
      refine ⟨?_, ?_, above, below, free⟩
      · rw [isStart]
        exact aligned
      · rw [isStart]
        exact colour
    · by_cases recolours : ROUND s request.align &&& request.mask ≠ request.colour
      · obtain ⟨inside, both⟩ := moved raised recolours
        have isStart : request.start s =
            (addPaddr (ROUND s request.align) request.incr &&& Word.compl 32 request.mask) |||
              request.colour := (if_neg raised).trans (if_pos recolours)
        refine ⟨?_, ?_, above, below, free⟩
        · rw [isAlign] at rounded both
          rw [isStart, isAlign]
          exact (dvd_moved small rounded).mpr both
        · rw [isStart, moved_and_mask masked]
          exact inside
      · have isStart : request.start s = ROUND s request.align :=
          (if_neg raised).trans (if_neg recolours)
        refine ⟨?_, ?_, above, below, free⟩
        · rw [isStart]
          exact rounded
        · rw [isStart]
          exact not_not.mp recolours

end RamRequest

/-- The search returns the start of the first candidate in which the request fits. -/
theorem findRamFrom_spec {request : RamRequest} {fuel : Nat} {front rest : List (Span Nat)}
    (stores : ram.Stores (front ++ rest)) (avoids : avoid.Stores entries)
    (enough : rest.length < fuel) :
    ∃ addr, findRamFrom ram avoid request fuel front.length = .ok addr ∧
      ((addr = nullPaddr ∧ ∀ s e, ¬ FirstWith rest entries request.Fits s e) ∨
        ∃ s e, FirstWith rest entries request.Fits s e ∧ addr = request.start s ∧
          ∃ span ∈ front ++ rest, Candidate entries span s e ∧ e < 2 ^ 64) := by
  induction rest generalizing front fuel with
  | nil =>
      obtain ⟨fuel, rfl⟩ := Nat.exists_eq_succ_of_ne_zero (Nat.ne_zero_of_lt enough)
      have ended : (ram.ramList front.length).size = 0 := by simpa using stores.terminated
      refine ⟨nullPaddr, by simp [findRamFrom, ended], .inl ⟨rfl, ?_⟩⟩
      rintro s e ⟨before, span, behind, isNil, -⟩
      exact absurd isNil (by simp)
  | cons span rest ih =>
      obtain ⟨fuel, rfl⟩ := Nat.exists_eq_succ_of_ne_zero (Nat.ne_zero_of_lt enough)
      have proper := stores.proper span (by simp)
      have fits := stores.fits span (by simp)
      have live : span.hi - span.lo ≠ 0 := by omega
      have regrouped : ram.Stores ((front ++ [span]) ++ rest) := by simpa using stores
      have same : (front ++ [span]) ++ rest = front ++ span :: rest := by simp
      obtain ⟨addr, run, outcome⟩ := ih regrouped (Nat.lt_of_succ_lt_succ enough)
      rw [List.length_append, List.length_singleton] at run
      rw [same] at outcome
      have goesOn (unsuited : ∀ s e, narrow entries span.lo span.hi = some (s, e) →
          ¬ request.Fits s e) :
          (addr = nullPaddr ∧ ∀ s e, ¬ FirstWith (span :: rest) entries request.Fits s e) ∨
            ∃ s e, FirstWith (span :: rest) entries request.Fits s e ∧ addr = request.start s ∧
              ∃ span' ∈ front ++ span :: rest, Candidate entries span' s e ∧ e < 2 ^ 64 := by
        rcases outcome with ⟨isNull, noneFits⟩ | ⟨s, e, first, rest⟩
        · exact .inl ⟨isNull, fun s e first => noneFits s e (first.of_cons unsuited)⟩
        · exact .inr ⟨s, e, first.cons unsuited, rest⟩
      have stored := stores.entry_eq
      have entry : (RamEntry.ofSpan span).addr = span.lo := rfl
      have width : (RamEntry.ofSpan span).size = span.hi - span.lo := rfl
      simp only [findRamFrom, stored, entry, width, live, ↓reduceIte, stores.stop_eq,
        fixAll_span avoids]
      cases left : narrow entries span.lo span.hi with
      | none => exact ⟨addr, run, goesOn (by simp [left])⟩
      | some bounds =>
          obtain ⟨s, e⟩ := bounds
          have candidate := candidate_of_narrow avoids proper fits left
          have below : e < 2 ^ 64 := candidate.below.trans_lt fits
          simp only [RamRequest.place_eq below]
          by_cases isFit : request.Fits s e
          · rw [if_pos isFit]
            exact ⟨request.start s, rfl, .inr ⟨s, e,
              ⟨[], span, rest, rfl, left, isFit, by simp⟩, rfl, span, by simp, candidate, below⟩⟩
          · rw [if_neg isFit]
            refine ⟨addr, run, goesOn ?_⟩
            intro s' e' isLeft
            rw [left] at isLeft
            cases isLeft
            exact isFit

/-- **A block in a range and of a colour**: `find_ram_in_range` returns a block that honours the
whole request, or `NULL_PADDR`, when the first candidate in which the request fits is used well,
and only then. -/
theorem findRamInRange_iff {request : RamRequest} {shift : Nat} (stores : ram.Stores spans)
    (avoids : avoid.Stores entries) (small : shift < 32) (isAlign : request.align = 2 ^ shift)
    (masked : request.mask < 2 ^ 32) :
    ∃ addr, findRamInRange ram avoid request = .ok addr ∧
      ((addr = nullPaddr ∨ request.Honoured spans entries addr) ↔
        ∀ s e, FirstWith spans entries request.Fits s e → request.PlacesWell spans entries s) := by
  have enough : spans.length < ram.ramListSize := by
    rw [stores.bytes, sizeofRamEntry]
    omega
  obtain ⟨addr, run, outcome⟩ := @findRamFrom_spec avoid ram entries request ram.ramListSize []
    spans stores avoids enough
  rw [List.length_nil] at run
  rw [List.nil_append] at outcome
  refine ⟨addr, run, ?_⟩
  rcases outcome with ⟨rfl, noneFits⟩ | ⟨s, e, first, rfl, span, member, candidate, below⟩
  · exact ⟨fun _ s e first => absurd first (noneFits s e), fun _ => .inl rfl⟩
  · obtain ⟨-, -, -, -, -, isFit, -⟩ := id first
    have notNull : request.start s ≠ nullPaddr := by
      have bounded : request.stop e ≤ e := RamRequest.stop_le e
      have before := isFit.1
      unfold nullPaddr
      omega
    have exactly := RamRequest.honoured_iff small isAlign masked candidate member isFit
    constructor
    · intro good s' e' other
      obtain ⟨rfl, -⟩ := first.unique other
      exact exactly.mp (good.resolve_left notNull)
    · intro well
      exact .inr (exactly.mpr (well s e first))

/-! ## One RAM entry -/

/-- RAM from `0x10000` to `0x20000`. -/
def oneEntry : RamTable where
  ramList slot := if slot = 0 then ⟨0x10000, 0x10000⟩ else ⟨0, 0⟩
  ramListSize := 32

/-- Its first page is avoided. -/
def oneAvoided : AvoidTable where
  avoidList slot := if slot = 0 then ⟨0x10000, 0x11000⟩ else ⟨0, 0⟩
  avoidListSize := 32

theorem oneEntry_stores : oneEntry.Stores [⟨0x10000, 0x20000⟩] where
  holds := by
    refine ⟨?_, ?_, rfl⟩
    · intro slot below
      obtain rfl : slot = 0 := Nat.lt_one_iff.mp below
      rfl
    · intro entry member
      cases List.mem_singleton.mp member
      change ¬ 0x10000 = 0
      decide
  bytes := rfl
  fits := by
    intro span member
    cases List.mem_singleton.mp member
    decide

theorem oneAvoided_stores : oneAvoided.Stores [⟨0x10000, 0x11000⟩] where
  holds := by
    refine ⟨?_, ?_, rfl⟩
    · intro slot below
      obtain rfl : slot = 0 := Nat.lt_one_iff.mp below
      rfl
    · intro entry member
      cases List.mem_singleton.mp member
      change ¬ 0x11000 = 0
      decide
  bytes := rfl
  ordered := by
    intro entry member
    cases List.mem_singleton.mp member
    decide

/-- The only candidate starts behind the avoided page. -/
theorem oneEntry_first {suits : Nat → Nat → Prop} {s e : Nat}
    (first : FirstWith [⟨0x10000, 0x20000⟩] [⟨0x10000, 0x11000⟩] suits s e) :
    s = 0x11000 ∧ e = 0x20000 := by
  obtain ⟨front, span, rest, isSpans, left, -⟩ := first
  cases front with
  | nil =>
      cases isSpans
      exact Prod.mk.inj (Option.some.inj left).symm
  | cons head front => exact absurd (List.cons.inj isSpans).2 (by simp)

/-- With an aligned limit the block below it is aligned. -/
theorem topBelow_aligned : ∃ addr,
    findTopRamAlignedLimit oneEntry oneAvoided 0x1000 0x1000 (2 ^ 12) 0x18000 = .ok addr ∧
      (addr = nullPaddr ∨ TopFound [⟨0x10000, 0x20000⟩] [⟨0x10000, 0x11000⟩]
        (ROUND 0x1000 (2 ^ 12)) 0x1000 0x18000 addr) := by
  have isAlign : IsAlign 0x1000 := .inr ⟨12, by decide, rfl⟩
  obtain ⟨addr, found, exactly⟩ := @findTopRamAlignedLimit_iff oneAvoided oneEntry _ _ 0x1000 0x1000
    12 0x18000 oneEntry_stores oneAvoided_stores isAlign (by decide)
  refine ⟨addr, found, exactly.mpr (.inr fun s e _ => .inr (.inr ?_))⟩
  exact ⟨by decide, fun _ => by decide⟩

/-- With another limit it is not. -/
theorem topBelow_unaligned : ∃ addr,
    findTopRamAlignedLimit oneEntry oneAvoided 0x1000 0x1000 (2 ^ 12) 0x15800 = .ok addr ∧
      ¬ (addr = nullPaddr ∨ TopFound [⟨0x10000, 0x20000⟩] [⟨0x10000, 0x11000⟩]
        (ROUND 0x1000 (2 ^ 12)) 0x1000 0x15800 addr) := by
  refine ⟨0x14800, rfl, ?_⟩
  rintro (isNull | found)
  · exact absurd isNull (by decide)
  · exact absurd (found.aligned (by decide)) (by decide)

/-- A page at or behind an address. -/
def pageBehind (rangeStart : Nat) : RamRequest := ⟨rangeStart, 0, 0x1000, 0x1000, 0, 0⟩

/-- A page behind an aligned address is aligned. -/
theorem pageBehind_honoured : ∃ addr,
    findRamInRange oneEntry oneAvoided (pageBehind 0x13000) = .ok addr ∧
      (addr = nullPaddr ∨ (pageBehind 0x13000).Honoured [⟨0x10000, 0x20000⟩]
        [⟨0x10000, 0x11000⟩] addr) := by
  obtain ⟨addr, found, exactly⟩ := @findRamInRange_iff oneAvoided oneEntry _ _
    (pageBehind 0x13000) 12 oneEntry_stores oneAvoided_stores (by decide) rfl (by decide)
  refine ⟨addr, found, exactly.mpr fun s e first => ?_⟩
  obtain ⟨rfl, rfl⟩ := oneEntry_first first
  exact ⟨fun _ => by decide, fun _ recolours => absurd rfl recolours, .inl (by decide)⟩

/-- A page behind another address is not. -/
theorem pageBehind_unaligned : ∃ addr,
    findRamInRange oneEntry oneAvoided (pageBehind 0x12345) = .ok addr ∧
      ¬ (addr = nullPaddr ∨ (pageBehind 0x12345).Honoured [⟨0x10000, 0x20000⟩]
        [⟨0x10000, 0x11000⟩] addr) := by
  refine ⟨0x12345, rfl, ?_⟩
  rintro (isNull | honoured)
  · exact absurd isNull (by decide)
  · exact absurd honoured.aligned (by decide)

end Bcm2711.Startup
