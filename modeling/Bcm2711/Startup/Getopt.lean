import Mathlib

/-! # Scanning the options again

`getopt` keeps where it is between two calls, and the option string it was given last.  A caller
that sets `optind` to 0 and passes no option string reads the arguments from their beginning
again.
-/

namespace Bcm2711.Startup.Getopt

/-- A place in an argument: `*cp` is the character there, or the zero at the end. -/
structure Place where
  arg : Nat
  offset : Nat
deriving DecidableEq, Repr

/-- The static variables of `getopt`, with `optind`. -/
structure State where
  cp : Place
  lastOptind : Nat
  optsStr : Option (List UInt8)
  optind : Nat

/-- An option letter with `optarg`. -/
structure Found where
  opt : UInt8
  optarg : Place
deriving DecidableEq, Repr

def dash : UInt8 := 45

def colon : UInt8 := 58

/-- What is returned for an unknown option and for a missing argument. -/
def unknown : UInt8 := 63

/-- `*place`; `none` outside the argument. -/
def charAt (argv : List (List UInt8)) (place : Place) : Option UInt8 :=
  argv[place.arg]?.bind fun text =>
    if place.offset < text.length then text[place.offset]?
    else if place.offset = text.length then some 0 else none

/-- The next character of an argument. -/
def Place.next (place : Place) : Place := ⟨place.arg, place.offset + 1⟩

/-- The loop over the options: what is from the option on, or nothing. -/
def findOption (char : UInt8) : List UInt8 → List UInt8
  | [] => []
  | letter :: rest =>
      if letter = colon then findOption char rest
      else if char = letter then letter :: rest else findOption char rest

/-- The rest of a call at a character that is not a dash. -/
def takeOption (argv : List (List UInt8)) (opts : List UInt8) (state : State) (char : UInt8) :
    Option (State × Option Found) :=
  let next : State := { state with optind := state.optind + 1 }
  match findOption char opts with
  | [] => some (next, some ⟨unknown, state.cp⟩)
  | opt :: rest =>
      let next : State := { next with cp := state.cp.next }
      (charAt argv next.cp).map fun behind =>
        if behind ≠ 0 then
          if rest.head? = some colon then (next, some ⟨opt, next.cp⟩)
          else ({ next with optind := state.optind }, some ⟨opt, state.cp⟩)
        else if rest.head? = some colon then
          if next.optind < argv.length then
            ({ next with optind := next.optind + 1 }, some ⟨opt, ⟨next.optind, 0⟩⟩)
          else (next, some ⟨unknown, state.cp⟩)
        else (next, some ⟨opt, state.cp⟩)

/-- The call where it looks at `*cp`. -/
def readOption (argv : List (List UInt8)) (state : State) : Option (State × Option Found) :=
  (charAt argv state.cp).bind fun char =>
    if char = dash then some ({ state with optind := state.optind + 1 }, none)
    else state.optsStr.bind fun opts => takeOption argv opts state char

/-- The beginning of a call: the option string is saved or taken from the last call, and the scan
starts over if `optind` is 0. -/
def State.enter (state : State) (opts : Option (List UInt8)) : State :=
  let state : State := { state with optsStr := opts.or state.optsStr }
  if state.optind = 0 then { state with optind := 1, lastOptind := 0 } else state

/-- The call behind that. -/
def nextOption (argv : List (List UInt8)) (state : State) : Option (State × Option Found) :=
  if state.optind ≥ argv.length then some (state, none)
  else if state.lastOptind ≠ state.optind then
    let first : Place := ⟨state.optind, 0⟩
    let state : State := { state with cp := first.next, lastOptind := state.optind }
    (charAt argv first).bind fun char =>
      if char ≠ dash then some (state, none)
      else (charAt argv state.cp).bind fun char =>
        if char = 0 then some (state, none) else readOption argv state
  else readOption argv state

/-- `getopt`: what it leaves, and the option unless it returns -1.  It is `none` if the call reads
outside an argument or has no option string. -/
def getopt (argv : List (List UInt8)) (opts : Option (List UInt8)) (state : State) :
    Option (State × Option Found) :=
  nextOption argv (state.enter opts)

/-- The loop over the options that are left, to the -1. -/
inductive Scans (argv : List (List UInt8)) (opts : Option (List UInt8)) :
    State → List Found → State → Prop where
  | ends {state after : State} (call : getopt argv opts state = some (after, none)) :
      Scans argv opts state [] after
  | more {state next after : State} {found : Found} {rest : List Found}
      (call : getopt argv opts state = some (next, some found))
      (scans : Scans argv opts next rest after) : Scans argv opts state (found :: rest) after

/-- `optind` is set to 0. -/
def State.restart (state : State) : State := { state with optind := 0 }

/-- One scan after the other, each restarted and with no option string. -/
inductive Rescans (argv : List (List UInt8)) : State → List (List Found) → Prop where
  | done (state : State) : Rescans argv state []
  | again {state after : State} {found : List Found} {rest : List (List Found)}
      (scans : Scans argv none state.restart found after) (rescans : Rescans argv after rest) :
      Rescans argv state (found :: rest)

variable {argv : List (List UInt8)} {opts : Option (List UInt8)} {state after : State}

/-! ## The scan is determined -/

theorem Scans.unique {found others : List Found} {last : State}
    (scans : Scans argv opts state found after) (again : Scans argv opts state others last) :
    others = found ∧ last = after := by
  induction scans generalizing others last with
  | ends call =>
      cases again with
      | ends call' =>
          rw [call] at call'
          cases call'
          exact ⟨rfl, rfl⟩
      | more call' scans' =>
          rw [call] at call'
          cases call'
  | more call scans ih =>
      cases again with
      | ends call' =>
          rw [call] at call'
          cases call'
      | more call' scans' =>
          rw [call] at call'
          cases call'
          obtain ⟨same, last⟩ := ih scans'
          exact ⟨congrArg _ same, last⟩

/-! ## What stays from call to call -/

/-- What a call is given does not change the option string that is saved. -/
theorem takeOption_optsStr {letters : List UInt8} {char : UInt8} {result : Option Found}
    (call : takeOption argv letters state char = some (after, result)) :
    after.optsStr = state.optsStr := by
  unfold takeOption at call
  split at call
  · cases call
    rfl
  · obtain ⟨behind, -, call⟩ := Option.map_eq_some_iff.mp call
    split at call
    · split at call
      · cases call
        rfl
      · cases call
        rfl
    · split at call
      · split at call
        · cases call
          rfl
        · cases call
          rfl
      · cases call
        rfl

theorem readOption_optsStr {result : Option Found}
    (call : readOption argv state = some (after, result)) : after.optsStr = state.optsStr := by
  obtain ⟨char, -, call⟩ := Option.bind_eq_some_iff.mp call
  split at call
  · cases call
    rfl
  · obtain ⟨letters, -, call⟩ := Option.bind_eq_some_iff.mp call
    exact takeOption_optsStr call

theorem nextOption_optsStr {result : Option Found}
    (call : nextOption argv state = some (after, result)) : after.optsStr = state.optsStr := by
  unfold nextOption at call
  split at call
  · cases call
    rfl
  · split at call
    · obtain ⟨first, -, call⟩ := Option.bind_eq_some_iff.mp call
      split at call
      · cases call
        rfl
      · obtain ⟨second, -, call⟩ := Option.bind_eq_some_iff.mp call
        split at call
        · cases call
          rfl
        · have kept := readOption_optsStr call
          exact kept
    · exact readOption_optsStr call

theorem enter_optsStr (state : State) (opts : Option (List UInt8)) :
    (state.enter opts).optsStr = opts.or state.optsStr := by
  unfold State.enter
  dsimp only
  split
  · rfl
  · rfl

/-- A call with no option string is one with the string that is saved. -/
theorem enter_saved {letters : List UInt8} (saved : state.optsStr = some letters) :
    state.enter none = state.enter (some letters) := by
  simp only [State.enter, saved, Option.or]

theorem getopt_saved {letters : List UInt8} (saved : state.optsStr = some letters) :
    getopt argv none state = getopt argv (some letters) state := by
  rw [getopt, getopt, enter_saved saved]

theorem getopt_optsStr {letters : List UInt8} {result : Option Found}
    (call : getopt argv (some letters) state = some (after, result)) :
    after.optsStr = some letters :=
  (nextOption_optsStr call).trans (enter_optsStr state (some letters))

/-- A scan with the option string saves it. -/
theorem Scans.optsStr {letters : List UInt8} {found : List Found}
    (scans : Scans argv (some letters) state found after) : after.optsStr = some letters := by
  induction scans with
  | ends call => exact getopt_optsStr call
  | more call scans ih => exact ih

/-- A scan that finds the option string saved needs not be given it. -/
theorem scans_saved_iff {letters : List UInt8} {found : List Found} (state : State)
    (saved : state.optsStr = some letters) :
    Scans argv none state found after ↔ Scans argv (some letters) state found after := by
  constructor
  · intro scans
    induction scans with
    | ends call =>
        rw [getopt_saved saved] at call
        exact .ends call
    | more call scans ih =>
        rw [getopt_saved saved] at call
        exact .more call (ih (getopt_optsStr call))
  · intro scans
    induction scans with
    | ends call =>
        rw [← getopt_saved saved] at call
        exact .ends call
    | more call scans ih =>
        have later := getopt_optsStr call
        rw [← getopt_saved saved] at call
        exact .more call (ih later)

/-- A restarted call reads the first argument anew, wherever the last scan stood. -/
theorem getopt_restart (letters : List UInt8) (left right : State) (arguments : 1 < argv.length) :
    getopt argv (some letters) left.restart = getopt argv (some letters) right.restart := by
  have inside : ¬ 1 ≥ argv.length := Nat.not_le.mpr arguments
  unfold getopt State.enter State.restart nextOption
  simp only [Option.or, ↓reduceIte, inside, ne_eq, Nat.zero_ne_one, not_false_eq_true]

/-- A restarted scan finds the same, wherever the last scan stood. -/
theorem Scans.restarted {letters : List UInt8} {found : List Found} {left : State}
    (scans : Scans argv (some letters) left.restart found after) (right : State) :
    ∃ last, Scans argv (some letters) right.restart found last := by
  by_cases arguments : 1 < argv.length
  · have same := getopt_restart letters left right arguments
    cases scans with
    | ends call => exact ⟨after, .ends (same ▸ call)⟩
    | more call scans => exact ⟨after, .more (same ▸ call) scans⟩
  · have none_left : ∀ state : State, getopt argv (some letters) state.restart =
        some ((state.restart).enter (some letters), none) := by
      intro state
      unfold getopt nextOption
      exact if_pos (Nat.le_of_not_lt arguments)
    cases scans with
    | ends call => exact ⟨_, .ends (none_left right)⟩
    | more call scans =>
        rw [none_left left] at call
        cases call

/-! ## A scan ends -/

/-- How much can be read from an argument on. -/
def left (argv : List (List UInt8)) (optind : Nat) : Nat :=
  ((argv.drop optind).map fun text => text.length + 1).sum

/-- A state between two calls, with how much is left to read: a new argument is next, or another
letter of the one that is read. -/
inductive Ready (argv : List (List UInt8)) : State → Nat → Prop where
  | fresh {state : State} (new : state.lastOptind < state.optind) :
      Ready argv state (left argv state.optind)
  | letter {state : State} {text : List UInt8} {offset : Nat} {char : UInt8}
      (same : state.lastOptind = state.optind) (positive : 0 < state.optind)
      (isText : argv[state.optind]? = some text)
      (place : state.cp = ⟨state.optind, offset⟩) (isChar : text[offset]? = some char)
      (live : char ≠ 0) :
      Ready argv state (left argv (state.optind + 1) + (text.length - offset))

theorem Ready.positive {count : Nat} (ready : Ready argv state count) : 0 < state.optind := by
  cases ready with
  | fresh new => exact Nat.zero_lt_of_lt new
  | letter same positive isText place isChar live => exact positive

theorem left_succ {text : List UInt8} {optind : Nat} (isText : argv[optind]? = some text) :
    left argv optind = text.length + 1 + left argv (optind + 1) := by
  obtain ⟨inside, isText⟩ := List.getElem?_eq_some_iff.mp isText
  rw [left, List.drop_eq_getElem_cons inside, List.map_cons, List.sum_cons, isText, left]

theorem left_anti (argv : List (List UInt8)) (optind : Nat) :
    left argv (optind + 1) ≤ left argv optind := by
  cases isText : argv[optind]? with
  | none =>
      have outside := List.getElem?_eq_none_iff.mp isText
      rw [left, List.drop_eq_nil_of_le (by omega)]
      exact Nat.zero_le _
  | some text =>
      rw [left_succ isText]
      exact Nat.le_add_left _ _

theorem charAt_eq {text : List UInt8} {arg offset : Nat} {char : UInt8}
    (isText : argv[arg]? = some text) (isChar : text[offset]? = some char) :
    charAt argv ⟨arg, offset⟩ = some char := by
  have inside := (List.getElem?_eq_some_iff.mp isChar).1
  simp only [charAt, isText, Option.bind_some, inside, ↓reduceIte, isChar]

/-- Behind a character of an argument there is another one or the zero at the end. -/
theorem charAt_next {text : List UInt8} {arg offset : Nat} {char : UInt8}
    (isText : argv[arg]? = some text) (isChar : text[offset]? = some char) :
    ∃ behind, charAt argv ⟨arg, offset + 1⟩ = some behind ∧
      (behind ≠ 0 → text[offset + 1]? = some behind) := by
  have inside := (List.getElem?_eq_some_iff.mp isChar).1
  by_cases more : offset + 1 < text.length
  · refine ⟨text[offset + 1], ?_, fun _ => List.getElem?_eq_getElem more⟩
    exact charAt_eq isText (List.getElem?_eq_getElem more)
  · have last : offset + 1 = text.length := by omega
    refine ⟨0, ?_, fun live => absurd rfl live⟩
    simp only [charAt, isText, Option.bind_some, last, lt_self_iff_false, ↓reduceIte]

/-- A letter is taken, and less is left to read. -/
theorem takeOption_ready {letters text : List UInt8} {offset : Nat} {char : UInt8}
    (same : state.lastOptind = state.optind) (positive : 0 < state.optind)
    (isText : argv[state.optind]? = some text)
    (place : state.cp = ⟨state.optind, offset⟩) (isChar : text[offset]? = some char) :
    ∃ next found, takeOption argv letters state char = some (next, some found) ∧
      ∃ fewer < left argv (state.optind + 1) + (text.length - offset), Ready argv next fewer := by
  have inside := (List.getElem?_eq_some_iff.mp isChar).1
  have fewer : left argv (state.optind + 1) <
      left argv (state.optind + 1) + (text.length - offset) := by omega
  have new : state.lastOptind < state.optind + 1 := by omega
  obtain ⟨behind, isBehind, more⟩ := charAt_next isText isChar
  unfold takeOption
  cases findOption char letters with
  | nil => exact ⟨_, _, rfl, _, fewer, .fresh new⟩
  | cons opt rest =>
      simp only [place, Place.next, isBehind, Option.map_some]
      by_cases live : behind ≠ 0
      · rw [if_pos live]
        by_cases attached : rest.head? = some colon
        · rw [if_pos attached]
          exact ⟨_, _, rfl, _, fewer, .fresh new⟩
        · rw [if_neg attached]
          refine ⟨_, _, rfl, left argv (state.optind + 1) + (text.length - (offset + 1)), by omega,
            ?_⟩
          exact .letter same positive isText rfl (more live) live
      · rw [if_neg live]
        by_cases wanted : rest.head? = some colon
        · rw [if_pos wanted]
          by_cases separate : state.optind + 1 < argv.length
          · rw [if_pos separate]
            have least := left_anti argv (state.optind + 1)
            exact ⟨_, _, rfl, _, lt_of_le_of_lt least fewer,
              .fresh (new.trans (Nat.lt_succ_self _))⟩
          · rw [if_neg separate]
            exact ⟨_, _, rfl, _, fewer, .fresh new⟩
        · rw [if_neg wanted]
          exact ⟨_, _, rfl, _, fewer, .fresh new⟩

/-- A call at a letter returns -1 or an option, with less left to read. -/
theorem readOption_ready {letters text : List UInt8} {offset : Nat} {char : UInt8}
    (saved : state.optsStr = some letters) (same : state.lastOptind = state.optind)
    (positive : 0 < state.optind) (isText : argv[state.optind]? = some text)
    (place : state.cp = ⟨state.optind, offset⟩) (isChar : text[offset]? = some char) :
    (∃ next, readOption argv state = some (next, none)) ∨
      ∃ next found, readOption argv state = some (next, some found) ∧
        ∃ fewer < left argv (state.optind + 1) + (text.length - offset), Ready argv next fewer := by
  have read : charAt argv state.cp = some char := by
    rw [place]
    exact charAt_eq isText isChar
  unfold readOption
  rw [read, Option.bind_some]
  by_cases isDash : char = dash
  · rw [if_pos isDash]
    exact Or.inl ⟨_, rfl⟩
  · rw [if_neg isDash, saved, Option.bind_some]
    exact Or.inr (takeOption_ready same positive isText place isChar)

/-- A call returns -1 or an option, with less left to read. -/
theorem nextOption_ready {letters : List UInt8} {count : Nat}
    (saved : state.optsStr = some letters) (ready : Ready argv state count) :
    (∃ next, nextOption argv state = some (next, none)) ∨
      ∃ next found, nextOption argv state = some (next, some found) ∧
        ∃ fewer < count, Ready argv next fewer := by
  unfold nextOption
  by_cases none_left : state.optind ≥ argv.length
  · rw [if_pos none_left]
    exact Or.inl ⟨_, rfl⟩
  · rw [if_neg none_left]
    cases ready with
    | letter same positive isText place isChar live =>
        rw [if_neg (not_not.mpr same)]
        exact readOption_ready saved same positive isText place isChar
    | fresh new =>
        rw [if_pos new.ne]
        obtain ⟨text, isText⟩ : ∃ text, argv[state.optind]? = some text :=
          ⟨_, List.getElem?_eq_getElem (Nat.lt_of_not_le none_left)⟩
        rw [left_succ isText]
        cases text with
        | nil =>
            have ended : charAt argv ⟨state.optind, 0⟩ = some 0 := by
              simp only [charAt, isText, Option.bind_some, List.length_nil, lt_self_iff_false,
                ↓reduceIte]
            simp only [ended, Option.bind_some]
            exact Or.inl ⟨_, if_pos (by decide)⟩
        | cons first rest =>
            have isFirst : (first :: rest)[0]? = some first := rfl
            simp only [charAt_eq isText isFirst, Option.bind_some]
            by_cases isDash : first ≠ dash
            · rw [if_pos isDash]
              exact Or.inl ⟨_, rfl⟩
            · rw [if_neg isDash]
              obtain ⟨behind, isBehind, more⟩ := charAt_next isText isFirst
              simp only [Place.next, isBehind, Option.bind_some]
              by_cases ended : behind = 0
              · rw [if_pos ended]
                exact Or.inl ⟨_, rfl⟩
              · rw [if_neg ended]
                let moved : State :=
                  { state with cp := ⟨state.optind, 0 + 1⟩, lastOptind := state.optind }
                have movedSaved : moved.optsStr = some letters := saved
                rcases readOption_ready movedSaved rfl (Nat.zero_lt_of_lt new) isText rfl
                    (more ended) with stops | ⟨next, found, call, fewer, less, ready⟩
                · exact Or.inl stops
                · refine Or.inr ⟨next, found, call, fewer, ?_, ready⟩
                  have within : fewer < left argv (state.optind + 1) +
                      ((first :: rest).length - (0 + 1)) := less
                  omega

/-- Every scan ends, and reads in the arguments only. -/
theorem scans_of_ready {letters : List UInt8} {count : Nat}
    (ready : Ready argv (state.enter (some letters)) count) :
    ∃ found after, Scans argv (some letters) state found after := by
  induction count using Nat.strong_induction_on generalizing state with
  | _ count ih =>
      have saved : (state.enter (some letters)).optsStr = some letters := enter_optsStr state _
      rcases nextOption_ready saved ready with ⟨next, call⟩ |
        ⟨next, found, call, fewer, less, later⟩
      · exact ⟨[], next, .ends call⟩
      · have kept : next.optsStr = some letters := getopt_optsStr call
        have same : next.enter (some letters) = next := by
          simp only [State.enter, Option.or, later.positive.ne', ↓reduceIte, ← kept]
        obtain ⟨rest, after, scans⟩ := ih fewer less (by rw [same]; exact later)
        exact ⟨found :: rest, after, .more call scans⟩

/-- A scan from the first argument on ends. -/
theorem exists_scans (argv : List (List UInt8)) (letters : List UInt8) (state : State) :
    ∃ found after, Scans argv (some letters) state.restart found after :=
  scans_of_ready (.fresh Nat.one_pos)

/-- What the arguments are found to hold, by the first scan and by any number of scans that are
restarted with no option string. -/
structure SameOptions (argv : List (List UInt8)) (opts : List UInt8) (state : State)
    (found : List Found) : Prop where
  first : ∃ after, Scans argv (some opts) state.restart found after
  only : ∀ others after, Scans argv (some opts) state.restart others after → others = found
  again : ∀ others after, Scans argv (some opts) state.restart others after →
    ∀ count, Rescans argv after (List.replicate count found)
  same : ∀ others after rescans, Scans argv (some opts) state.restart others after →
    Rescans argv after rescans → ∀ rescan ∈ rescans, rescan = found

/-- A scan that is restarted finds what the first one found. -/
theorem scans_restarted_iff {letters : List UInt8} {found others : List Found} {first : State}
    (scans : Scans argv (some letters) state.restart found first)
    (saved : after.optsStr = some letters) :
    (∃ last, Scans argv none after.restart others last) ↔ others = found := by
  obtain ⟨last, again⟩ := scans.restarted after
  constructor
  · rintro ⟨_, rescan⟩
    exact (again.unique ((scans_saved_iff after.restart saved).mp rescan)).1
  · rintro rfl
    exact ⟨last, (scans_saved_iff after.restart saved).mpr again⟩

theorem rescans_found {letters : List UInt8} {found : List Found} {first : State}
    (scans : Scans argv (some letters) state.restart found first)
    (saved : after.optsStr = some letters) (count : Nat) :
    Rescans argv after (List.replicate count found) := by
  induction count generalizing after with
  | zero => exact .done after
  | succ count ih =>
      obtain ⟨last, again⟩ := (scans_restarted_iff scans saved).mpr rfl
      have kept := ((scans_saved_iff after.restart saved).mp again).optsStr
      exact .again again (ih kept)

theorem Rescans.found {letters : List UInt8} {found : List Found} {rescans : List (List Found)}
    {first : State} (rescanned : Rescans argv after rescans)
    (scans : Scans argv (some letters) state.restart found first)
    (saved : after.optsStr = some letters) : ∀ rescan ∈ rescans, rescan = found := by
  induction rescanned with
  | done state => exact fun rescan member => absurd member List.not_mem_nil
  | @again state after found rest again rescanned ih =>
      intro rescan member
      have kept := ((scans_saved_iff state.restart saved).mp again).optsStr
      rcases List.mem_cons.mp member with rfl | later
      · exact (scans_restarted_iff scans saved).mp ⟨_, again⟩
      · exact ih kept rescan later

/-- **A restarted scan returns the options and arguments of the first one.** -/
theorem rescan_same (argv : List (List UInt8)) (opts : List UInt8) (state : State) :
    ∃ found, SameOptions argv opts state found := by
  obtain ⟨found, first, scans⟩ := exists_scans argv opts state
  refine ⟨found, ⟨first, scans⟩, ?_, ?_, ?_⟩
  · intro others after again
    exact (scans.unique again).1
  · intro others after again count
    exact rescans_found scans again.optsStr count
  · intro others after rescans again rescanned
    exact rescanned.found scans again.optsStr

/-- A cluster, an attached and a separate argument, an unknown option and a missing argument. -/
example : ∃ after, Scans [[115], [45, 97, 98], [45, 99, 120], [45, 99], [121], [45, 122], [45, 99]]
    (some [97, 98, 99, 58]) ⟨⟨0, 0⟩, 0, none, 0⟩
    [⟨97, ⟨1, 1⟩⟩, ⟨98, ⟨1, 2⟩⟩, ⟨99, ⟨2, 2⟩⟩, ⟨99, ⟨4, 0⟩⟩, ⟨63, ⟨5, 1⟩⟩, ⟨63, ⟨6, 1⟩⟩] after :=
  ⟨_, .more rfl <| .more rfl <| .more rfl <| .more rfl <| .more rfl <| .more rfl <| .ends rfl⟩

end Bcm2711.Startup.Getopt
