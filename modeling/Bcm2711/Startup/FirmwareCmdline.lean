import Bcm2711.Startup.TweakCmdline

/-! # The firmware command line of the board

`cpu_tweak_cmdline` asks the firmware for its command line once, skips the arguments that the
firmware puts in front, and appends those from the first one with a dash on to the argument
block.  The skipping leaves the arguments in the line uncut, and so the first argument that is
appended runs to the end of the line.
-/

namespace Bcm2711.Startup

open Bytes CString Fallible Fields

/-- `MBOX_TAG_RESPONSE`. -/
def MBOX_TAG_RESPONSE : Nat := 0x80000000

/-- `mbox_get_cmdline`, for the code and the line that the reply holds: the buffer, and the line
if it has an end. -/
def mboxGetCmdline (code : Nat) (line : Memory) (body : Nat) : Memory × Option Nat :=
  let len := code % 2 ^ 32 % MBOX_TAG_RESPONSE
  if len ≥ 512 - 24 then (line, none)
  else (Function.update line (body + len) 0, some body)

/-- The loop that skips: the rest of the line, and `next_arg`. -/
def skipLoop (line : Memory) : (fuel str : Nat) → Option (Nat × Nat)
  | 0, _ => none
  | fuel + 1, str =>
      match findNextArg line str false with
      | none => none
      | some (line, str, nextArg) =>
          if line nextArg = 0 then some (str, nextArg)
          else if line nextArg = dashByte then some (str, nextArg)
          else if line nextArg = spaceByte ∧ line (nextArg + 1) = spaceByte then
            some (str, nextArg)
          else skipLoop line fuel str

/-- The loop that appends. -/
def collectLoop (bap : Nat) : (fuel : Nat) → (line : Memory) → (str nextArg : Nat) →
    (block : Memory) → Result (Cmdline × Memory)
  | 0, _, _, _, _ => .error .stuck
  | fuel + 1, line, str, nextArg, block =>
      if line nextArg = 0 then .ok (⟨line, some nextArg⟩, block)
      else if line nextArg = dashByte ∧ line (nextArg + 1) = dashByte then
        .ok (⟨line, some nextArg⟩, block)
      else
        match read line addressSpace nextArg with
        | none => .error .stuck
        | some arg => do
            let (block, _) ← bootstrapArgAdjust block bap none (some arg)
            match findNextArg line str true with
            | none => .error .stuck
            | some (line, str, nextArg) => collectLoop bap fuel line str nextArg block

/-- `cpu_tweak_cmdline`, for a reply of the firmware with this code. -/
def cpuTweakCmdline (code body : Nat) (state : Cmdline) (block : Memory) (bap : Nat) :
    Result (Cmdline × Memory) :=
  match state.nextArg with
  | some _ => .ok (state, block)
  | none =>
      match mboxGetCmdline code state.line body with
      | (line, none) => .ok (⟨line, none⟩, block)
      | (line, some str) =>
          match skipLoop line addressSpace str with
          | none => .error .stuck
          | some (str, nextArg) => collectLoop bap addressSpace line str nextArg block

/-! ## What is to be appended -/

/-- An argument with a dash. -/
def Dashed (token : List UInt8) : Prop := token.head? = some dashByte

instance (token : List UInt8) : Decidable (Dashed token) :=
  inferInstanceAs (Decidable (token.head? = some dashByte))

/-- The tokens from the first one with a dash on, up to the first one with two. -/
def startupArgs (list : List (List UInt8)) : List (List UInt8) :=
  (list.dropWhile (¬ Dashed ·)).takeWhile (¬ dashes <+: ·)

/-- The line is appended to the block, and later calls append nothing. -/
def ReachesStartup (code body : Nat) (line : Memory) (text : List UInt8) (block : Memory)
    (bap : Nat) (entry : Bootargs) : Prop :=
  ∃ state after, cpuTweakCmdline code body ⟨line, none⟩ block bap = .ok (state, after) ∧
    (entry.extend (startupArgs (tokens spaceByte text))).At after bap ∧
    ∀ later laterBap, cpuTweakCmdline code body state later laterBap = .ok (state, later)

/-- No argument has a dash, or the first one that does has two, or it ends the line. -/
def DashEnds (text : List UInt8) : Prop :=
  match (tokens spaceByte text).dropWhile (¬ Dashed ·) with
  | [] => True
  | token :: later => dashes <+: token ∨ later = [] ∧ token <:+ text

/-! ## Skipping -/

section Skip

variable {line : Memory} {str nextArg fuel : Nat} {text word : List UInt8}

/-- Reading the first byte of a string. -/
theorem byte_eq_iff (spells : Spells line str (terminated text)) {byte : UInt8} (live : byte ≠ 0) :
    line str = byte ↔ text.head? = some byte := by
  cases text with
  | nil =>
      rw [spells.1]
      simp [live.symm]
  | cons char text => rw [spells.1, List.head?_cons, Option.some_inj]

theorem end_iff (spells : Spells line str (terminated text)) (plain : Plain text) :
    line str = 0 ↔ text = [] := by
  constructor
  · intro isEnd
    by_contra nonempty
    exact notEnd_of_spells spells plain nonempty isEnd
  · rintro rfl
    exact spells.1

/-- Reading the first two bytes of a string. -/
theorem dashes_iff (spells : Spells line str (terminated text)) :
    line str = dashByte ∧ line (str + 1) = dashByte ↔ dashes <+: text := by
  have live : dashByte ≠ 0 := by decide
  rw [byte_eq_iff spells live]
  cases text with
  | nil => simp [dashes]
  | cons char text =>
      rw [byte_eq_iff spells.2 live]
      cases text with
      | nil => simp [dashes]
      | cons next text => simp [dashes, List.cons_prefix_cons, eq_comm]

/-- A text without leading separators begins with its first field. -/
theorem head?_first (free : text.dropWhile (· = spaceByte) = text) :
    (first spaceByte text).head? = text.head? := by
  cases text with
  | nil => rfl
  | cons char text =>
      have notSpace : char ≠ spaceByte := by
        intro isSpace
        rw [List.dropWhile_cons_of_pos (by simpa using isSpace)] at free
        have shorter := (List.dropWhile_suffix (· = spaceByte) (l := text)).length_le
        rw [free, List.length_cons] at shorter
        omega
      rw [first, free, List.takeWhile_cons_of_pos (by simpa using notSpace)]
      rfl

theorem dropWhile_idem (text : List UInt8) :
    (text.dropWhile (· = spaceByte)).dropWhile (· = spaceByte) =
      text.dropWhile (· = spaceByte) := by
  induction text with
  | nil => rfl
  | cons char text ih =>
      by_cases isSpace : char = spaceByte
      · rw [List.dropWhile_cons_of_pos (by simpa using isSpace), ih]
      · rw [List.dropWhile_cons_of_neg (by simpa using isSpace),
          List.dropWhile_cons_of_neg (by simpa using isSpace)]

/-- The loop stops at the first token with a dash, or at the end, and has left the line alone. -/
theorem skipLoop_eq (spells : Spells line str (terminated text)) (plain : Plain text)
    (short : text.length < addressSpace) (enough : text.length < fuel) :
    ∃ stop start rest, skipLoop line fuel str = some (stop, start) ∧
      Spells line start (terminated rest) ∧ Spells line stop (terminated (behind spaceByte rest)) ∧
      rest <:+ text ∧ rest.dropWhile (· = spaceByte) = rest ∧ (rest = [] ∨ Dashed rest) ∧
      tokens spaceByte rest = (tokens spaceByte text).dropWhile (¬ Dashed ·) := by
  induction fuel generalizing str text with
  | zero => exact absurd enough (Nat.not_lt_zero _)
  | succ fuel ih =>
      obtain ⟨stop, start, found, whole, more⟩ := findNextArg_keep spells plain short
      have suffix := List.dropWhile_suffix (· = spaceByte) (l := text)
      have plainWhole : Plain (text.dropWhile (· = spaceByte)) := fun member =>
        plain (suffix.subset member)
      have sameBehind : behind spaceByte (text.dropWhile (· = spaceByte)) =
          behind spaceByte text := by rw [behind, behind, dropWhile_idem]
      have sameFirst : first spaceByte (text.dropWhile (· = spaceByte)) =
          first spaceByte text := by rw [first, first, dropWhile_idem]
      have sameHead := head?_first (dropWhile_idem text)
      rw [sameFirst] at sameHead
      rw [skipLoop, found]
      dsimp only
      by_cases isEnd : text.dropWhile (· = spaceByte) = []
      · refine ⟨stop, start, _, if_pos ((end_iff whole plainWhole).mpr isEnd), whole, ?_, suffix,
          dropWhile_idem text, .inl isEnd, ?_⟩
        · rw [sameBehind]
          exact more
        · have none_left : tokens spaceByte text = [] := by
            rw [tokens_eq, if_pos (first_eq_nil_iff.mpr isEnd)]
          rw [tokens_dropWhile, none_left]
          rfl
      have nonempty : first spaceByte text ≠ [] := fun isEmpty =>
        isEnd (first_eq_nil_iff.mp isEmpty)
      have some_left : tokens spaceByte text =
          first spaceByte text :: tokens spaceByte (behind spaceByte text) := by
        rw [tokens_eq, if_neg nonempty]
      rw [if_neg (fun isZero => isEnd ((end_iff whole plainWhole).mp isZero))]
      by_cases dashed : Dashed (text.dropWhile (· = spaceByte))
      · have starts := (byte_eq_iff whole (by decide)).mpr dashed
        refine ⟨stop, start, _, if_pos starts, whole, ?_, suffix, dropWhile_idem text,
          .inr dashed, ?_⟩
        · rw [sameBehind]
          exact more
        · have dashedFirst : Dashed (first spaceByte text) := sameHead.trans dashed
          rw [tokens_dropWhile, some_left,
            List.dropWhile_cons_of_neg (by simpa using dashedFirst)]
      · have notSpace : line start ≠ spaceByte := by
          intro isSpace
          have head := (byte_eq_iff whole (by decide)).mp isSpace
          have other := List.head?_dropWhile_not (· = spaceByte) text
          rw [head] at other
          simp at other
        have notDashed : ¬ Dashed (first spaceByte text) := fun isDashed =>
          dashed (sameHead.symm.trans isDashed)
        have shorter := length_behind_lt nonempty
        obtain ⟨stop', start', rest, ran, stands, standsBehind, isSuffix, free, ends, left⟩ :=
          ih more (plain_behind plain) (by omega) (by omega)
        refine ⟨stop', start', rest, ?_, stands, standsBehind,
          isSuffix.trans (behind_suffix spaceByte text), free, ends, ?_⟩
        · rw [if_neg (fun isDash => dashed ((byte_eq_iff whole (by decide)).mp isDash)),
            if_neg (fun both => notSpace both.1)]
          exact ran
        · rw [left, some_left, List.dropWhile_cons_of_pos (by simpa using notDashed)]

/-- The loop appends the string at `next_arg` and the tokens behind it, up to two dashes. -/
theorem collectLoop_eq (bap : Nat) (here : Spells line nextArg (terminated word))
    (plainWord : Plain word)
    (shortWord : word.length < addressSpace) (spells : Spells line str (terminated text))
    (plain : Plain text) (short : text.length < addressSpace) (enough : text.length + 1 < fuel) :
    ∃ state, state.nextArg ≠ none ∧ ∀ block,
      collectLoop bap fuel line str nextArg block = do
        let block ← appendArgs bap block
          (if word = [] then []
          else (word :: tokens spaceByte text).takeWhile (¬ dashes <+: ·))
        return (state, block) := by
  induction fuel generalizing line str nextArg text word with
  | zero => exact absurd enough (Nat.not_lt_zero _)
  | succ fuel ih =>
      by_cases isEmpty : word = []
      · refine ⟨⟨line, some nextArg⟩, Option.some_ne_none _, ?_⟩
        intro block
        rw [collectLoop, if_pos ((end_iff here plainWord).mpr isEmpty), if_pos isEmpty]
        rfl
      · have live : ¬ line nextArg = 0 := fun isZero => isEmpty ((end_iff here plainWord).mp isZero)
        by_cases isMark : dashes <+: word
        · refine ⟨⟨line, some nextArg⟩, Option.some_ne_none _, ?_⟩
          intro block
          rw [collectLoop, if_neg live, if_pos ((dashes_iff here).mpr isMark), if_neg isEmpty,
            List.takeWhile_cons_of_neg (by simpa using isMark)]
          rfl
        · obtain ⟨cut, stop, start, found, next, rest⟩ := findNextArg_cut spells plain short
          have shortNext := (first_isInfix spaceByte text).length_le
          have shortRest := (behind_suffix spaceByte text).length_le
          have whole : read line addressSpace nextArg = some word :=
            read_eq here plainWord shortWord
          have unfolded : ∀ block, collectLoop bap (fuel + 1) line str nextArg block = (do
              let (block, _) ← bootstrapArgAdjust block bap none (some word)
              collectLoop bap fuel cut stop start block) := by
            intro block
            rw [collectLoop, if_neg live,
              if_neg (fun both => isMark ((dashes_iff here).mp both)), whole, found]
          by_cases ended : first spaceByte text = []
          · obtain ⟨fuel, rfl⟩ : ∃ more, fuel = more + 1 := ⟨fuel - 1, by omega⟩
            refine ⟨⟨cut, some start⟩, Option.some_ne_none _, ?_⟩
            intro block
            have none_left : tokens spaceByte text = [] := by rw [tokens_eq, if_pos ended]
            rw [unfolded, if_neg isEmpty, none_left,
              List.takeWhile_cons_of_pos (by simpa using isMark), List.takeWhile_nil, appendArgs,
              bind_assoc]
            refine bind_congr ?_
            rintro ⟨adjusted, -⟩
            dsimp only
            rw [collectLoop, if_pos ((end_iff next (plain_first plain)).mpr ended)]
            rfl
          · have shorter := length_behind_lt ended
            obtain ⟨state, kept, ran⟩ := ih next (plain_first plain) (by omega) rest
              (plain_behind plain) (by omega) (by omega)
            refine ⟨state, kept, ?_⟩
            intro block
            have some_left : tokens spaceByte text =
                first spaceByte text :: tokens spaceByte (behind spaceByte text) := by
              rw [tokens_eq, if_neg ended]
            rw [unfolded, if_neg isEmpty, List.takeWhile_cons_of_pos (by simpa using isMark),
              appendArgs, bind_assoc]
            refine bind_congr ?_
            rintro ⟨adjusted, -⟩
            dsimp only
            rw [ran, if_neg ended, some_left]

end Skip

/-! ## The size of a block -/

section Size

variable {block after : Memory} {bap : Nat} {args : List (List UInt8)} {arg : List UInt8}

/-- The size that the header of a block gives. -/
def headerSize (block : Memory) (bap : Nat) : Nat :=
  (block bap).toNat + 256 * (block (bap + 1)).toNat

/-- Where nothing is looked for, nothing is found. -/
theorem findString_nothing {memory : Memory} {num p stop : Nat} {found : Option Nat}
    (ran : findString memory none num p = some (found, stop)) : found = none := by
  induction num generalizing p with
  | zero =>
      cases ran
      rfl
  | succ num ih =>
      rw [findString] at ran
      split at ran
      · cases ran
      · exact ih ran

/-- Adding an argument adds its length to the size, even when it does not fit. -/
theorem headerSize_adjust {count : Nat} (short : arg.length < 2 ^ 31)
    (ran : bootstrapArgAdjust block bap none (some arg) = .ok (after, count)) :
    headerSize after bap = (headerSize block bap + arg.length + 1) % 2 ^ 16 := by
  have low := (block bap).toNat_lt
  have high := (block (bap + 1)).toNat_lt
  have sizes : ∀ p, headerSize
      (adjustBytes (countString block none (some arg) (bap + 2)) bap (some arg) p 0) bap =
        (headerSize block bap + arg.length + 1) % 2 ^ 16 := by
    intro p
    have sameLow : countString block none (some arg) (bap + 2) bap = block bap := by
      simp [countString]
    have sameHigh : countString block none (some arg) (bap + 2) (bap + 1) = block (bap + 1) := by
      simp [countString]
    unfold headerSize adjustBytes
    dsimp only
    rw [Function.update_self, Function.update_of_ne (by omega), Function.update_self, sameLow,
      sameHigh, UInt8.toNat_ofNat', UInt8.toNat_ofNat']
    unfold addLength Word.add Word.sub
    dsimp only
    omega
  unfold bootstrapArgAdjust doAdjust skipStrings at ran
  dsimp only at ran
  split at ran
  · cases ran
  · rename_i found
    cases findString_nothing found
  · rw [if_pos rfl] at ran
    rw [← (Prod.mk.inj (Except.ok.inj ran)).1]
    exact sizes _

theorem headerSize_append (short : ∀ arg ∈ args, arg.length < 2 ^ 31)
    (ran : appendArgs bap block args = .ok after) :
    headerSize after bap % 2 ^ 16 = (headerSize block bap + (packed args).length) % 2 ^ 16 := by
  induction args generalizing block with
  | nil =>
      cases ran
      rw [packed_nil, List.length_nil, Nat.add_zero]
  | cons arg args ih =>
      obtain ⟨⟨middle, count⟩, first, rest⟩ := bind_eq_ok.mp ran
      have step := headerSize_adjust (short arg List.mem_cons_self) first
      have later := ih (fun other member => short other (List.mem_cons_of_mem _ member)) rest
      rw [packed_cons, List.length_append, length_terminated]
      omega

end Size

/-! ## The whole line -/

section Whole

variable {line cmdline : Memory} {body code : Nat} {text rest : List UInt8}

/-- The line is shorter than the buffer of the reply. -/
theorem length_lt_of_mboxGetCmdline
    (returned : mboxGetCmdline code line body = (cmdline, some body))
    (spells : Spells cmdline body (terminated text)) (plain : Plain text) : text.length < 488 := by
  unfold mboxGetCmdline at returned
  dsimp only at returned
  split at returned
  · cases returned
  · rename_i small
    obtain ⟨rfl, -⟩ := Prod.mk.inj returned
    by_contra long
    have inside : code % 2 ^ 32 % MBOX_TAG_RESPONSE < text.length := by omega
    have there := (spells_append.mp spells).1.at inside
    rw [Function.update_self] at there
    exact plain (List.mem_of_getElem? there)

/-- Two dashes are in the first field. -/
theorem dashes_first (free : rest.dropWhile (· = spaceByte) = rest) :
    dashes <+: rest ↔ dashes <+: first spaceByte rest := by
  constructor
  · rintro ⟨more, rfl⟩
    rw [first, free]
    exact List.prefix_append dashes _
  · intro begins
    have within : first spaceByte rest <+: rest.dropWhile (· = spaceByte) :=
      List.takeWhile_prefix _
    rw [free] at within
    exact begins.trans within

/-- The rest of the line is one token exactly when that token ends the line. -/
theorem eq_first_iff (suffix : rest <:+ text) (free : rest.dropWhile (· = spaceByte) = rest)
    (nonempty : first spaceByte rest ≠ []) :
    rest = first spaceByte rest ↔
      tokens spaceByte (behind spaceByte rest) = [] ∧ first spaceByte rest <:+ text := by
  have parts : first spaceByte rest ++ rest.dropWhile (· ≠ spaceByte) = rest := by
    rw [first, free]
    exact List.takeWhile_append_dropWhile
  have isBehind : behind spaceByte rest = (rest.dropWhile (· ≠ spaceByte)).tail := by
    rw [behind, free]
  constructor
  · intro whole
    have nothing : rest.dropWhile (· ≠ spaceByte) = [] := by
      have lengths := congrArg List.length parts
      rw [List.length_append, ← whole] at lengths
      exact List.length_eq_zero_iff.mp (by omega)
    rw [isBehind, nothing, List.tail_nil, tokens_nil, ← whole]
    exact ⟨rfl, suffix⟩
  · rintro ⟨none_left, ends⟩
    by_contra cut
    have notLast : first spaceByte rest <:+ rest := by
      have shorter : (first spaceByte rest).length ≤ rest.length := by
        rw [← congrArg List.length parts, List.length_append]
        exact Nat.le_add_right _ _
      exact List.suffix_of_suffix_length_le ends suffix shorter
    rcases tail : rest.dropWhile (· ≠ spaceByte) with _ | ⟨char, others⟩
    · rw [tail, List.append_nil] at parts
      exact cut parts.symm
    · have isSpace : char = spaceByte := by
        have ends :
            (rest.dropWhile (· = spaceByte)).dropWhile (· ≠ spaceByte) = char :: others := by
          rw [free]
          exact tail
        exact dropWhile_cons_eq ends
      rw [isBehind, tail, List.tail_cons] at none_left
      -- What is behind the field are separators alone, and so the line ends with one.
      have spaces : others.dropWhile (· = spaceByte) = [] := by
        by_contra more
        rw [tokens_eq, if_neg (fun isEmpty => more (first_eq_nil_iff.mp isEmpty))] at none_left
        cases none_left
      have all : ∀ other ∈ char :: others, other = spaceByte := by
        intro other member
        rcases List.mem_cons.mp member with rfl | later
        · exact isSpace
        · simpa using List.dropWhile_eq_nil_iff.mp spaces other later
      obtain ⟨front, isFront⟩ := notLast
      have lastRest : rest.getLast? = (char :: others).getLast? := by
        rw [← parts, tail, List.getLast?_append_of_ne_nil _ (List.cons_ne_nil _ _)]
      have lastFirst : rest.getLast? = (first spaceByte rest).getLast? := by
        conv_lhs => rw [← isFront]
        exact List.getLast?_append_of_ne_nil _ nonempty
      have lastSpace : (char :: others).getLast? = some spaceByte := by
        rw [List.getLast?_eq_some_getLast (List.cons_ne_nil _ _)]
        exact congrArg some (all _ (List.getLast_mem _))
      have member : spaceByte ∈ first spaceByte rest :=
        List.mem_of_getLast? (lastFirst.symm.trans (lastRest.trans lastSpace))
      exact sep_not_mem_first member

/-- What the code appends: the rest of the line from the first dash on, and then the tokens. -/
def collected (rest : List UInt8) : List (List UInt8) :=
  if rest = [] then []
  else (rest :: tokens spaceByte (behind spaceByte rest)).takeWhile (¬ dashes <+: ·)

/-- The first call appends what is collected, and later ones append nothing. -/
theorem cpuTweakCmdline_eq (bap : Nat)
    (returned : mboxGetCmdline code line body = (cmdline, some body))
    (spells : Spells cmdline body (terminated text)) (plain : Plain text) :
    ∃ state rest, rest <:+ text ∧ rest.dropWhile (· = spaceByte) = rest ∧
      (rest = [] ∨ Dashed rest) ∧
      tokens spaceByte rest = (tokens spaceByte text).dropWhile (¬ Dashed ·) ∧
      (∀ block bap, cpuTweakCmdline code body state block bap = .ok (state, block)) ∧
      ∀ block, cpuTweakCmdline code body ⟨line, none⟩ block bap = (do
        let block ← appendArgs bap block (collected rest)
        return (state, block)) := by
  have short := length_lt_of_mboxGetCmdline returned spells plain
  have room : 488 < addressSpace := by decide
  obtain ⟨stop, start, rest, skipped, here, there, suffix, free, ends, left⟩ :=
    skipLoop_eq spells plain (short.trans room) (short.trans room)
  have plainRest : Plain rest := fun member => plain (suffix.subset member)
  have shortRest := suffix.length_le
  have shortBehind := (behind_suffix spaceByte rest).length_le
  have enough : (behind spaceByte rest).length + 1 < addressSpace := by omega
  obtain ⟨state, kept, ran⟩ := collectLoop_eq bap here plainRest (by omega) there
    (plain_behind plainRest) (by omega) enough
  refine ⟨state, rest, suffix, free, ends, left, ?_, ?_⟩
  · intro block bap
    obtain ⟨nextArg, isSome⟩ := Option.ne_none_iff_exists'.mp kept
    rw [cpuTweakCmdline, isSome]
  · intro block
    rw [cpuTweakCmdline, returned]
    dsimp only
    rw [skipped]
    exact ran block

/-- What is collected is what is wanted, but for the first argument. -/
theorem startupArgs_eq (free : rest.dropWhile (· = spaceByte) = rest)
    (ends : rest = [] ∨ Dashed rest)
    (left : tokens spaceByte rest = (tokens spaceByte text).dropWhile (¬ Dashed ·)) :
    rest = [] ∧ startupArgs (tokens spaceByte text) = [] ∧ collected rest = [] ∨
      first spaceByte rest ≠ [] ∧
      (dashes <+: first spaceByte rest ∧ startupArgs (tokens spaceByte text) = [] ∧
        collected rest = [] ∨
      ¬ dashes <+: first spaceByte rest ∧ ∃ more, (∀ arg ∈ more, arg.length ≤ rest.length) ∧
        startupArgs (tokens spaceByte text) = first spaceByte rest :: more ∧
        collected rest = rest :: more) := by
  unfold startupArgs collected
  rw [← left, tokens_eq]
  rcases ends with rfl | dashed
  · exact .inl ⟨rfl, rfl, rfl⟩
  · have nonempty : first spaceByte rest ≠ [] := by
      intro isEmpty
      have head := (head?_first free).trans dashed
      rw [isEmpty] at head
      cases head
    have some_left : rest ≠ [] := by
      rintro rfl
      cases dashed
    rw [if_neg nonempty, if_neg some_left]
    refine .inr ⟨nonempty, ?_⟩
    by_cases isMark : dashes <+: first spaceByte rest
    · have whole := (dashes_first free).mpr isMark
      refine .inl ⟨isMark, ?_, ?_⟩
      · exact List.takeWhile_cons_of_neg (by simpa using isMark)
      · exact List.takeWhile_cons_of_neg (by simpa using whole)
    · have whole : ¬ dashes <+: rest := fun both => isMark ((dashes_first free).mp both)
      refine .inr ⟨isMark, (tokens spaceByte (behind spaceByte rest)).takeWhile (¬ dashes <+: ·),
        ?_, ?_, ?_⟩
      · intro arg member
        have inBehind := (List.takeWhile_prefix _).subset member
        exact (infix_of_mem_tokens inBehind).length_le.trans
          (behind_suffix spaceByte rest).length_le
      · exact List.takeWhile_cons_of_pos (by simpa using isMark)
      · exact List.takeWhile_cons_of_pos (by simpa using whole)

/-- The right arguments are collected exactly when the first one with a dash ends the line, or has
two dashes, or is not there. -/
theorem collected_eq_iff (suffix : rest <:+ text) (free : rest.dropWhile (· = spaceByte) = rest)
    (ends : rest = [] ∨ Dashed rest)
    (left : tokens spaceByte rest = (tokens spaceByte text).dropWhile (¬ Dashed ·)) :
    collected rest = startupArgs (tokens spaceByte text) ↔ DashEnds text := by
  unfold DashEnds
  rw [← left, tokens_eq spaceByte rest]
  rcases startupArgs_eq free ends left with ⟨rfl, none_wanted, none_collected⟩ |
    ⟨nonempty, ⟨isMark, none_wanted, none_collected⟩ | ⟨notMark, more, _, wanted, got⟩⟩
  · exact iff_of_true (none_collected.trans none_wanted.symm) trivial
  · rw [if_neg nonempty]
    exact iff_of_true (none_collected.trans none_wanted.symm) (.inl isMark)
  · rw [if_neg nonempty]
    dsimp only
    rw [or_iff_right notMark, ← eq_first_iff suffix free nonempty, wanted, got, List.cons.injEq,
      and_iff_left rfl]

/-- The sizes tell the rest of the line from its first token. -/
theorem collected_eq_of_size (short : text.length < 488) (suffix : rest <:+ text)
    (free : rest.dropWhile (· = spaceByte) = rest) (ends : rest = [] ∨ Dashed rest)
    (left : tokens spaceByte rest = (tokens spaceByte text).dropWhile (¬ Dashed ·))
    {block after : Memory} {bap : Nat}
    (appended : appendArgs bap block (collected rest) = .ok after)
    (size : headerSize after bap = headerSize block bap +
      (packed (startupArgs (tokens spaceByte text))).length) :
    collected rest = startupArgs (tokens spaceByte text) := by
  rcases startupArgs_eq free ends left with ⟨rfl, none_wanted, none_collected⟩ |
    ⟨nonempty, ⟨isMark, none_wanted, none_collected⟩ | ⟨notMark, more, shortMore, wanted, got⟩⟩
  · exact none_collected.trans none_wanted.symm
  · exact none_collected.trans none_wanted.symm
  · have shortRest := suffix.length_le
    have shortArgs : ∀ arg ∈ collected rest, arg.length < 2 ^ 31 := by
      rw [got]
      intro arg member
      rcases List.mem_cons.mp member with rfl | inMore
      · omega
      · have shorter := shortMore arg inMore
        omega
    have within : first spaceByte rest <+: rest := by
      have front : first spaceByte rest <+: rest.dropWhile (· = spaceByte) :=
        List.takeWhile_prefix _
      rw [free] at front
      exact front
    have shorter := within.length_le
    have grown := headerSize_append shortArgs appended
    rw [size, wanted, got, packed_cons, packed_cons, List.length_append, List.length_append,
      length_terminated, length_terminated] at grown
    have whole := within.eq_of_length (by omega)
    rw [wanted, got, whole]

/-- The line reaches the block exactly when the right arguments are collected from it. -/
theorem reachesStartup_iff_collected {block : Memory} {bap : Nat} {entry : Bootargs}
    (returned : mboxGetCmdline code line body = (cmdline, some body))
    (spells : Spells cmdline body (terminated text)) (plain : Plain text)
    (stands : entry.At block bap)
    (room : (entry.extend (startupArgs (tokens spaceByte text))).Fits bap) :
    ∃ rest, (collected rest = startupArgs (tokens spaceByte text) ↔ DashEnds text) ∧
      (ReachesStartup code body line text block bap entry ↔
        collected rest = startupArgs (tokens spaceByte text)) := by
  have short := length_lt_of_mboxGetCmdline returned spells plain
  obtain ⟨state, rest, suffix, free, ends, left, later, ran⟩ :=
    cpuTweakCmdline_eq bap returned spells plain
  refine ⟨rest, collected_eq_iff suffix free ends left, ?_⟩
  constructor
  · rintro ⟨final, after, finished, standsAfter, -⟩
    obtain ⟨left', appended, same⟩ := bind_eq_ok.mp ((ran block).symm.trans finished)
    obtain ⟨-, rfl⟩ := Prod.mk.inj (Except.ok.inj same)
    refine collected_eq_of_size short suffix free ends left appended ?_
    have expected : headerSize left' bap = _ := standsAfter.size
    have before : headerSize block bap = entry.size := stands.size
    rw [expected, before, size_extend]
  · intro same
    have plainArgs : ∀ arg ∈ startupArgs (tokens spaceByte text), Plain arg := by
      intro arg member isZero
      have inTokens := (List.dropWhile_suffix _).subset ((List.takeWhile_prefix _).subset member)
      exact plain ((infix_of_mem_tokens inTokens).subset isZero)
    obtain ⟨after, appended, standsAfter⟩ := appendArgs_at stands plainArgs room
    refine ⟨state, after, ?_, standsAfter, later⟩
    rw [ran, same, appended]
    rfl

end Whole

/-- **The firmware command line reaches startup intact exactly when** no argument has a dash, or
the first one that does has two dashes, or that argument ends the line. -/
theorem reachesStartup_iff {code body bap : Nat} {line cmdline block : Memory} {text : List UInt8}
    {entry : Bootargs} (returned : mboxGetCmdline code line body = (cmdline, some body))
    (spells : Spells cmdline body (terminated text)) (plain : Plain text)
    (stands : entry.At block bap)
    (room : (entry.extend (startupArgs (tokens spaceByte text))).Fits bap) :
    ReachesStartup code body line text block bap entry ↔ DashEnds text := by
  obtain ⟨rest, ends, reaches⟩ := reachesStartup_iff_collected returned spells plain stands room
  exact reaches.trans ends

/-- The line of a reply: these characters at address 8192. -/
def replyLine (text : List UInt8) : Memory := fun address => text.getD (address - 8192) 0

/-- The line `x -a`. -/
theorem reachesStartup_last :
    ReachesStartup (0x80000000 + 4) 8192 (replyLine [120, 32, 45, 97]) [120, 32, 45, 97]
      smallBuffer 4096 smallEntry ↔ DashEnds [120, 32, 45, 97] := by
  have spells : Spells (Function.update (replyLine [120, 32, 45, 97]) (8192 + 4) 0) 8192
      (terminated [120, 32, 45, 97]) := ⟨rfl, rfl, rfl, rfl, rfl, trivial⟩
  exact reachesStartup_iff rfl spells (by decide) smallEntry_at
    (smallEntry_extend_fits (by decide) (by decide))

/-- The line `-a -b`: the first argument is the whole line. -/
theorem two_options_break :
    ¬ ReachesStartup (0x80000000 + 5) 8192 (replyLine [45, 97, 32, 45, 98]) [45, 97, 32, 45, 98]
      smallBuffer 4096 smallEntry := by
  have spells : Spells (Function.update (replyLine [45, 97, 32, 45, 98]) (8192 + 5) 0) 8192
      (terminated [45, 97, 32, 45, 98]) := ⟨rfl, rfl, rfl, rfl, rfl, rfl, trivial⟩
  have returned : mboxGetCmdline (0x80000000 + 5) (replyLine [45, 97, 32, 45, 98]) 8192 =
      (Function.update (replyLine [45, 97, 32, 45, 98]) (8192 + 5) 0, some 8192) := rfl
  obtain ⟨rest, ends, reaches⟩ := reachesStartup_iff_collected returned spells (by decide)
    smallEntry_at (smallEntry_extend_fits (by decide) (by decide))
  have left : (tokens spaceByte [45, 97, 32, 45, 98]).dropWhile (¬ Dashed ·) =
      [[45, 97], [45, 98]] := by decide
  rw [reaches, ends, DashEnds, left]
  decide

end Bcm2711.Startup
