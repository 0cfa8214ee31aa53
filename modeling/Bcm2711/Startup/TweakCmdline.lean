import Bcm2711.Startup.Cmdline
import Bcm2711.Startup.LoadOptions

/-! # The boot command line, split between programs

`fdt_tweak_cmdline` and `efi_tweak_cmdline` are called for one program after the other, each time
with its argument block.  A static pointer keeps how far the command line has been cut into
arguments, and `--` ends the arguments of a program.
-/

namespace Bcm2711.Startup

open Bytes CString Fields

/-- The memory of the command line, and the static `next_arg`. -/
structure Cmdline where
  line : Memory
  nextArg : Option Nat

/-- `"--"`. -/
def dashes : List UInt8 := [dashByte, dashByte]

/-- The loop that both functions end with: the command line and the block that it leaves. -/
def tweakLoop (bap : Nat) : (fuel : Nat) → (line : Memory) → (nextArg : Nat) → (block : Memory) →
    Result (Cmdline × Memory)
  | 0, _, _, _ => .error .stuck
  | fuel + 1, line, nextArg, block =>
      match findNextArg line nextArg true with
      | none => .error .stuck
      | some (line, nextArg, cmdline) =>
          if line cmdline = 0 then .ok (⟨line, some nextArg⟩, block)
          else if same line dashes cmdline then .ok (⟨line, some nextArg⟩, block)
          else
            match read line addressSpace cmdline with
            | none => .error .stuck
            | some arg => do
                let (block, _) ← bootstrapArgAdjust block bap none (some arg)
                tweakLoop bap fuel line nextArg block

/-- `fdt_tweak_cmdline`. The property `bootargs` of `/chosen` is there or not; `wsAlloc` is what
`ws_alloc` returns for its length. -/
def fdtTweakCmdline (bootargs : Option (List UInt8)) (wsAlloc : Option Nat) (state : Cmdline)
    (block : Memory) (bap : Nat) : Result (Cmdline × Memory) :=
  match state.nextArg with
  | some nextArg => tweakLoop bap addressSpace state.line nextArg block
  | none =>
      match bootargs, wsAlloc with
      | some data, some nextArg =>
          tweakLoop bap addressSpace (write state.line nextArg data) nextArg block
      | _, _ => .ok (state, block)

/-- `efi_tweak_cmdline`, for load options at an address. -/
def efiTweakCmdline (commandLine size : Nat) (state : Cmdline) (block : Memory) (bap : Nat) :
    Result (Cmdline × Memory) :=
  match state.nextArg with
  | some nextArg => tweakLoop bap addressSpace state.line nextArg block
  | none =>
      match efiConvertCommandLine state.line commandLine size with
      | none => .ok (state, block)
      | some converted =>
          match findNextArg converted.memory commandLine false with
          | none => .error .stuck
          | some (line, str, nextArg) =>
              let nextArg := if line nextArg ≠ dashByte then str else nextArg
              tweakLoop bap addressSpace line nextArg block

/-- The calls for one block after the other: the blocks they leave. -/
def tweakCalls (tweak : Cmdline → Memory → Nat → Result (Cmdline × Memory)) :
    Cmdline → List (Memory × Nat) → Result (List Memory)
  | _, [] => .ok []
  | state, (block, bap) :: calls => do
      let (state, block) ← tweak state block bap
      return block :: (← tweakCalls tweak state calls)

/-! ## What is to be appended -/

/-- The arguments of a program: its group of the tokens, or none behind the last group. -/
def groupOf (tokens : List (List UInt8)) (index : Nat) : List (List UInt8) :=
  (groups dashes tokens).getD index []

/-- The tokens without a leading one that does not begin with `-`. -/
def skipImage : List (List UInt8) → List (List UInt8)
  | [] => []
  | token :: tokens => if token.head? = some dashByte then token :: tokens else tokens

/-- A block that a call is given, and what it holds. -/
structure BlockCall where
  block : Memory
  bap : Nat
  entry : Bootargs

/-- The blocks hold what they should, and have room for their groups. -/
def Ready (tokens : List (List UInt8)) (calls : List BlockCall) : Prop :=
  ∀ index (call : BlockCall), calls[index]? = some call → call.entry.At call.block call.bap ∧
    (call.entry.extend (groupOf tokens index)).Fits call.bap

/-- Every call appended its group of the tokens. -/
def Appended (tokens : List (List UInt8)) (calls : List BlockCall)
    (result : Result (List Memory)) : Prop :=
  ∃ blocks, result = .ok blocks ∧ blocks.length = calls.length ∧
    ∀ index (call : BlockCall) after, calls[index]? = some call → blocks[index]? = some after →
      (call.entry.extend (groupOf tokens index)).At after call.bap

/-! ## One call -/

section Call

variable {line : Memory} {nextArg fuel : Nat} {text : List UInt8}

theorem plain_behind (plain : Plain text) : Plain (behind spaceByte text) := fun member =>
  plain ((behind_suffix spaceByte text).subset member)

theorem plain_first (plain : Plain text) : Plain (first spaceByte text) := fun member =>
  plain ((first_isInfix spaceByte text).subset member)

/-- A string that is not empty does not begin with a zero. -/
theorem notEnd_of_spells {str : Nat} (spells : Spells line str (terminated text))
    (plain : Plain text) (nonempty : text ≠ []) : line str ≠ 0 := by
  cases text with
  | nil => exact absurd rfl nonempty
  | cons char text =>
      rw [spells.1]
      exact fun isZero => plain (isZero ▸ List.mem_cons_self)

/-- The loop appends the tokens before the next `--`, and the command line goes on behind it. -/
theorem tweakLoop_eq (bap : Nat) (spells : Spells line nextArg (terminated text))
    (plain : Plain text)
    (short : text.length < addressSpace) (enough : text.length < fuel) :
    ∃ after stop rest,
      (∀ block, tweakLoop bap fuel line nextArg block = do
        let block ← appendArgs bap block ((tokens spaceByte text).takeWhile (· ≠ dashes))
        return (⟨after, some stop⟩, block)) ∧
      Spells after stop (terminated rest) ∧ Plain rest ∧ rest.length < addressSpace ∧
      tokens spaceByte rest = dropGroup dashes (tokens spaceByte text) := by
  induction fuel generalizing line nextArg text with
  | zero => exact absurd enough (Nat.not_lt_zero _)
  | succ fuel ih =>
      obtain ⟨cut, stop, start, found, word, rest⟩ := findNextArg_cut spells plain short
      have shorter := (behind_suffix spaceByte text).length_le
      have wordShort := (first_isInfix spaceByte text).length_le
      by_cases isEmpty : first spaceByte text = []
      · have none_left : tokens spaceByte text = [] := by rw [tokens_eq, if_pos isEmpty]
        have nothing : behind spaceByte text = [] := by
          rw [behind, first_eq_nil_iff.mp isEmpty]
          rfl
        rw [isEmpty] at word
        rw [nothing] at rest
        refine ⟨cut, stop, [], ?_, rest, List.not_mem_nil, by decide, ?_⟩
        · intro block
          rw [tweakLoop, found, none_left]
          dsimp only
          rw [if_pos word.1]
          rfl
        · rw [none_left, tokens_nil]
          rfl
      · have some_left : tokens spaceByte text =
            first spaceByte text :: tokens spaceByte (behind spaceByte text) := by
          rw [tokens_eq, if_neg isEmpty]
        have notEnd := notEnd_of_spells word (plain_first plain) isEmpty
        have compared : same cut dashes start = true ↔ dashes = first spaceByte text :=
          same_iff word (by decide) (plain_first plain)
        rw [some_left]
        by_cases isMark : first spaceByte text = dashes
        · refine ⟨cut, stop, behind spaceByte text, ?_, rest, (plain_behind plain),
            shorter.trans_lt short, ?_⟩
          · intro block
            rw [tweakLoop, found]
            dsimp only
            rw [if_neg notEnd, if_pos (compared.mpr isMark.symm),
              List.takeWhile_cons_of_neg (by simpa using isMark)]
            rfl
          · rw [dropGroup, List.dropWhile_cons_of_neg (by simpa using isMark), List.tail_cons]
        · have goesOn := length_behind_lt isEmpty
          obtain ⟨after, stop', rest', ran, standsRest, plainRest, shortRest, tokensRest⟩ :=
            ih rest (plain_behind plain) (shorter.trans_lt short) (by omega)
          refine ⟨after, stop', rest', ?_, standsRest, plainRest, shortRest, ?_⟩
          · intro block
            have whole : read cut addressSpace start = some (first spaceByte text) :=
              read_eq word (plain_first plain) (wordShort.trans_lt short)
            rw [tweakLoop, found]
            dsimp only
            rw [if_neg notEnd, if_neg (fun isSame => isMark (compared.mp isSame).symm), whole,
              List.takeWhile_cons_of_pos (by simpa using isMark), appendArgs, bind_assoc]
            dsimp only
            refine bind_congr ?_
            intro adjusted
            exact ran adjusted.1
          · rw [tokensRest, dropGroup, dropGroup,
              List.dropWhile_cons_of_pos (by simpa using isMark)]

end Call

/-! ## The calls -/

section Calls

variable {tweak : Cmdline → Memory → Nat → Result (Cmdline × Memory)} {state : Cmdline}
  {list : List (List UInt8)}

/-- A call enters the loop where these tokens stand. -/
def Enters (tweak : Cmdline → Memory → Nat → Result (Cmdline × Memory)) (state : Cmdline)
    (list : List (List UInt8)) : Prop :=
  ∃ line nextArg text,
    (∀ block bap, tweak state block bap = tweakLoop bap addressSpace line nextArg block) ∧
    Spells line nextArg (terminated text) ∧ Plain text ∧ text.length < addressSpace ∧
    tokens spaceByte text = list

/-- Once the static pointer is set, a call enters the loop there. -/
def Continues (tweak : Cmdline → Memory → Nat → Result (Cmdline × Memory)) : Prop :=
  ∀ line nextArg block bap,
    tweak ⟨line, some nextArg⟩ block bap = tweakLoop bap addressSpace line nextArg block

/-- A call appends the first group, and the next one enters behind it. -/
theorem Enters.step (enters : Enters tweak state list) (continues : Continues tweak) (bap : Nat) :
    ∃ next, Enters tweak next (dropGroup dashes list) ∧ ∀ block,
      tweak state block bap = do
        let block ← appendArgs bap block (list.takeWhile (· ≠ dashes))
        return (next, block) := by
  obtain ⟨line, nextArg, text, entered, spells, plain, short, rfl⟩ := enters
  obtain ⟨after, stop, rest, ran, standsRest, plainRest, shortRest, tokensRest⟩ :=
    tweakLoop_eq bap spells plain short short
  refine ⟨⟨after, some stop⟩, ⟨after, stop, rest, ?_, standsRest, plainRest, shortRest,
    tokensRest⟩, ?_⟩
  · exact fun block bap => continues after stop block bap
  · intro block
    rw [entered, ran]

theorem groupOf_zero (list : List (List UInt8)) :
    groupOf list 0 = list.takeWhile (· ≠ dashes) := (takeGroup_eq dashes list 0).symm

theorem groupOf_succ (list : List (List UInt8)) (index : Nat) :
    groupOf list (index + 1) = groupOf (dropGroup dashes list) index := by
  unfold groupOf
  rw [← takeGroup_eq, ← takeGroup_eq, Function.iterate_succ_apply]

/-- The tokens of a call are strings. -/
theorem Enters.plain (enters : Enters tweak state list) : ∀ arg ∈ list, Plain arg := by
  obtain ⟨line, nextArg, text, _, _, plain, _, rfl⟩ := enters
  intro arg member isZero
  exact plain ((infix_of_mem_tokens member).subset isZero)

/-- The calls append one group after the other. -/
theorem Enters.run (enters : Enters tweak state list) (continues : Continues tweak)
    {calls : List BlockCall} (ready : Ready list calls) :
    Appended list calls
      (tweakCalls tweak state (calls.map fun call => (call.block, call.bap))) := by
  induction calls generalizing state list with
  | nil =>
      refine ⟨[], rfl, rfl, ?_⟩
      intro index call after isCall
      cases isCall
  | cons call calls ih =>
      obtain ⟨stands, fits⟩ := ready 0 call rfl
      obtain ⟨next, entersNext, ran⟩ := enters.step continues call.bap
      have plain : ∀ arg ∈ groupOf list 0, Plain arg := by
        intro arg member
        rw [groupOf_zero] at member
        exact enters.plain arg ((List.takeWhile_prefix _).subset member)
      obtain ⟨after, appended, standsAfter⟩ := appendArgs_at stands plain fits
      have readyRest : Ready (dropGroup dashes list) calls := by
        intro index other isCall
        rw [← groupOf_succ]
        exact ready (index + 1) other isCall
      obtain ⟨blocks, ranRest, same, all⟩ := ih entersNext readyRest
      refine ⟨after :: blocks, ?_, congrArg (· + 1) same, ?_⟩
      · rw [groupOf_zero] at appended
        rw [List.map_cons, tweakCalls, ran, appended]
        change (do return after :: (← tweakCalls tweak next _) : Result (List Memory)) = _
        rw [ranRest]
        rfl
      · intro index other left isCall isBlock
        cases index with
        | zero =>
            cases isCall
            cases isBlock
            exact standsAfter
        | succ index =>
            rw [groupOf_succ]
            exact all index other left isCall isBlock

end Calls

/-! ## Both functions -/

section Both

variable {text : List UInt8}

theorem fdtTweakCmdline_enters (plain : Plain text) (short : text.length < addressSpace)
    (line : Memory) (buffer : Nat) (more : List UInt8) :
    Enters (fdtTweakCmdline (some (terminated text ++ more)) (some buffer)) ⟨line, none⟩
      (tokens spaceByte text) := by
  refine ⟨write line buffer (terminated text ++ more), buffer, text, ?_, ?_, plain, short, rfl⟩
  · exact fun block bap => rfl
  · exact (spells_append.mp (spells_write line buffer (terminated text ++ more))).1

/-- The first token is skipped when it does not begin with `-`. -/
theorem tokens_skipImage (text : List UInt8) :
    tokens spaceByte
        (if (text.dropWhile (· = spaceByte)).head? = some dashByte then
          text.dropWhile (· = spaceByte)
        else behind spaceByte text) =
      skipImage (tokens spaceByte text) := by
  have parts : first spaceByte text ++
      (text.dropWhile (· = spaceByte)).dropWhile (· ≠ spaceByte) =
      text.dropWhile (· = spaceByte) := List.takeWhile_append_dropWhile
  by_cases isEmpty : first spaceByte text = []
  · have nothing := first_eq_nil_iff.mp isEmpty
    have none_behind : behind spaceByte text = [] := by
      rw [behind, nothing]
      rfl
    rw [tokens_eq _ text, if_pos isEmpty, nothing, none_behind, ite_self, tokens_nil]
    rfl
  · have sameHead : (text.dropWhile (· = spaceByte)).head? = (first spaceByte text).head? := by
      rw [← parts, List.head?_append_of_ne_nil _ isEmpty]
    rw [tokens_eq _ text, if_neg isEmpty, sameHead, skipImage]
    by_cases begins : (first spaceByte text).head? = some dashByte
    · rw [if_pos begins, if_pos begins, tokens_dropWhile, tokens_eq, if_neg isEmpty]
    · rw [if_neg begins, if_neg begins]

theorem efiTweakCmdline_enters (plain : Plain text) (short : text.length < addressSpace)
    {line : Memory} {commandLine size : Nat} {converted : Conversion}
    (converts : efiConvertCommandLine line commandLine size = some converted)
    (spells : Spells converted.memory commandLine (terminated text)) :
    Enters (efiTweakCmdline commandLine size) ⟨line, none⟩
      (skipImage (tokens spaceByte text)) := by
  obtain ⟨stop, start, found, whole, rest⟩ := findNextArg_keep spells plain short
  have suffix := List.dropWhile_suffix (· = spaceByte) (l := text)
  have plainWhole : Plain (text.dropWhile (· = spaceByte)) := fun member =>
    plain (suffix.subset member)
  have head : converted.memory start = dashByte ↔
      (text.dropWhile (· = spaceByte)).head? = some dashByte := by
    rcases starts : text.dropWhile (· = spaceByte) with _ | ⟨char, others⟩
    · rw [starts] at whole
      rw [whole.1]
      decide
    · rw [starts] at whole
      rw [whole.1, List.head?_cons, Option.some_inj]
  have entered : ∀ block bap, efiTweakCmdline commandLine size ⟨line, none⟩ block bap =
      tweakLoop bap addressSpace converted.memory
        (if converted.memory start ≠ dashByte then stop else start) block := by
    intro block bap
    simp only [efiTweakCmdline, converts, found]
  rw [← tokens_skipImage text]
  by_cases begins : (text.dropWhile (· = spaceByte)).head? = some dashByte
  · rw [if_pos begins]
    rw [if_neg (not_not.mpr (head.mpr begins))] at entered
    exact ⟨_, _, _, entered, whole, plainWhole, suffix.length_le.trans_lt short, rfl⟩
  · rw [if_neg begins]
    rw [if_pos (fun isDash => begins (head.mp isDash))] at entered
    exact ⟨_, _, _, entered, rest, plain_behind plain,
      (behind_suffix spaceByte text).length_le.trans_lt short, rfl⟩

end Both

/-- **The boot command line is split between programs.** For every command line, and for blocks
with room, each call appends the tokens between its two marks, and calls behind the last group
append nothing. -/
theorem tweakCmdline_groups (text : List UInt8) (plain : Plain text)
    (short : text.length < addressSpace) (calls : List BlockCall) :
    (∀ line buffer more, Ready (tokens spaceByte text) calls →
      Appended (tokens spaceByte text) calls
        (tweakCalls (fdtTweakCmdline (some (terminated text ++ more)) (some buffer))
          ⟨line, none⟩ (calls.map fun call => (call.block, call.bap)))) ∧
    (∀ line commandLine size converted,
      efiConvertCommandLine line commandLine size = some converted →
      Spells converted.memory commandLine (terminated text) →
      Ready (skipImage (tokens spaceByte text)) calls →
      Appended (skipImage (tokens spaceByte text)) calls
        (tweakCalls (efiTweakCmdline commandLine size)
          ⟨line, none⟩ (calls.map fun call => (call.block, call.bap)))) := by
  constructor
  · intro line buffer more ready
    have enters := fdtTweakCmdline_enters plain short line buffer more
    exact enters.run (fun _ _ _ _ => rfl) ready
  · intro line commandLine size converted converts spells ready
    have enters := efiTweakCmdline_enters plain short converts spells
    exact enters.run (fun _ _ _ _ => rfl) ready

/-- The line `img -a -- b`, for two programs. -/
def smallLine : List UInt8 := [105, 109, 103, 32, 45, 97, 32, 45, 45, 32, 98]

/-- Two blocks that hold the small entry. -/
def lineCalls : List BlockCall :=
  [⟨smallBuffer, 4096, smallEntry⟩, ⟨smallBuffer, 4096, smallEntry⟩]

theorem smallEntry_extend_fits {args : List (List UInt8)} (few : args.length < 100)
    (small : (packed args).length < 1000) : (smallEntry.extend args).Fits 4096 := by
  have bytes : smallEntry.size = 13 := rfl
  have env : (smallEntry.extend args).env.length = 1 := rfl
  have one : smallEntry.args.length = 1 := rfl
  refine ⟨?_, by omega, ?_, ?_⟩
  · rw [Bootargs.extend, List.length_append]
    omega
  · rw [size_extend]
    omega
  · rw [size_extend]
    omega

theorem lineCalls_ready {list : List (List UInt8)} (first : (groupOf list 0).length < 100)
    (firstSize : (packed (groupOf list 0)).length < 1000) (second : (groupOf list 1).length < 100)
    (secondSize : (packed (groupOf list 1)).length < 1000) : Ready list lineCalls := by
  intro index call isCall
  have held : call = ⟨smallBuffer, 4096, smallEntry⟩ := by
    have member := List.mem_of_getElem? isCall
    rcases List.mem_pair.mp member with same | same
    · exact same
    · exact same
  have below : index < 2 := (List.getElem?_eq_some_iff.mp isCall).1
  have room : (smallEntry.extend (groupOf list index)).Fits 4096 := by
    rcases index with _ | _ | index
    · exact smallEntry_extend_fits first firstSize
    · exact smallEntry_extend_fits second secondSize
    · exact absurd below (by omega)
  rw [held]
  dsimp only
  exact ⟨smallEntry_at, room⟩

theorem tweakCmdline_groups_small :
    Appended [[105, 109, 103], [45, 97], [45, 45], [98]] lineCalls
      (tweakCalls (fdtTweakCmdline (some (terminated smallLine)) (some 8192))
        ⟨fun _ => 0, none⟩ (lineCalls.map fun call => (call.block, call.bap))) := by
  have found : tokens spaceByte smallLine = [[105, 109, 103], [45, 97], [45, 45], [98]] := by
    decide
  have split := (tweakCmdline_groups smallLine (by decide) (by decide) lineCalls).1
    (fun _ => 0) 8192 []
  rw [found, List.append_nil] at split
  exact split (lineCalls_ready (by decide) (by decide) (by decide) (by decide))

/-- A line with many arguments of one letter. -/
def letters (count : Nat) : List UInt8 := (List.replicate count [97, spaceByte]).flatten

theorem tokens_letters (count : Nat) :
    tokens spaceByte (letters count) = List.replicate count [97] := by
  induction count with
  | zero => exact tokens_nil spaceByte
  | succ count ih =>
      have split : letters (count + 1) = [97] ++ spaceByte :: letters count := rfl
      rw [split, tokens_append_cons, ih, tokens_of_not_mem (by decide) (by decide)]
      rfl

theorem groupOf_letters (count : Nat) :
    groupOf (List.replicate count [97]) 0 = List.replicate count [97] := by
  rw [groupOf_zero]
  refine List.takeWhile_eq_self_iff.mpr ?_
  intro arg member
  rw [List.eq_of_mem_replicate member]
  decide

/-- No block lists 257 arguments, so that a line of 256 arguments is not appended to one. -/
theorem many_tokens_not_appended :
    smallEntry.At smallBuffer 4096 ∧
      ¬ Appended (tokens spaceByte (letters 256)) [⟨smallBuffer, 4096, smallEntry⟩]
        (tweakCalls (fdtTweakCmdline (some (terminated (letters 256))) (some 8192))
          ⟨fun _ => 0, none⟩ [(smallBuffer, 4096)]) := by
  refine ⟨smallEntry_at, ?_⟩
  rintro ⟨blocks, ran, same, all⟩
  rcases blocks with _ | ⟨after, blocks⟩
  · cases same
  · have held := all 0 ⟨smallBuffer, 4096, smallEntry⟩ after rfl rfl
    rw [tokens_letters, groupOf_letters] at held
    have count := held.argc
    have byte := (after (4096 + 2)).toNat_lt
    rw [Bootargs.extend, List.length_append, List.length_replicate] at count
    dsimp only at count
    omega

end Bcm2711.Startup
