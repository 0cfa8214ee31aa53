import Bcm2711.Dma.Channel

/-! # Attaching to a channel

`dma_channel_attach` reads the options, gets a channel from the resource database, enables it and
attaches its interrupt.  What it has taken is given back at its labels `fail2` and `fail1`.
-/

namespace Bcm2711.Dma

def EINVAL : Nat := 22
def ENOMEM : Nat := 12

def DMA_ATTACH_ANY_CHANNEL : Nat := 0x01
def DMA_ATTACH_PRIORITY_STRICT : Nat := 0x02
def DMA_ATTACH_PRIORITY_ATLEAST : Nat := 0x04
def DMA_ATTACH_PRIORITY_HIGHEST : Nat := 0x08

def DMA_DEFAULT_NUM_CBS : Nat := 32

/-- `bcm2711_dmac.num_channels`. -/
def numChannels : Nat := 15

/-! ## Options -/

/-- The tokens of `dma_opts`. -/
inductive DmaOpt where
  | numCbs
  | rangeMin
  | rangeMax
  | typedMem
  | debug
deriving DecidableEq, Repr

/-- The token of a name. -/
def DmaOpt.ofName (name : List Char) : Option DmaOpt :=
  if name = "num_cbs".toList then some .numCbs
  else if name = "range_min".toList then some .rangeMin
  else if name = "range_max".toList then some .rangeMax
  else if name = "typed_mem".toList then some .typedMem
  else if name = "debug".toList then some .debug
  else none

/-- `getsubopt` on one suboption: its token, and the value behind the first `=`. -/
def getsubopt (subopt : List Char) : Option DmaOpt × Option (List Char) :=
  (DmaOpt.ofName (subopt.takeWhile (· ≠ '=')), (subopt.dropWhile (· ≠ '=')).tail?)

/-- The suboptions that the loop comes to: it ends where nothing stands behind a comma. -/
def subopts (options : List Char) : List (List Char) :=
  if (options.splitOn ',').getLast? = some [] then (options.splitOn ',').dropLast
  else options.splitOn ','

/-- The value of a digit, in the bases up to 16. -/
def digitOf (char : Char) : Option Nat :=
  if '0' ≤ char ∧ char ≤ '9' then some (char.toNat - '0'.toNat)
  else if 'a' ≤ char ∧ char ≤ 'f' then some (char.toNat - 'a'.toNat + 10)
  else if 'A' ≤ char ∧ char ≤ 'F' then some (char.toNat - 'A'.toNat + 10)
  else none

/-- The number at the front of a text. -/
def digits (base : Nat) : (value : Nat) → List Char → Nat
  | value, [] => value
  | value, char :: text =>
      match digitOf char with
      | some digit => if digit < base then digits base (base * value + digit) text else value
      | none => value

/-- The number in base 16 behind `0x`, in base 8 behind `0`, and otherwise in base 10. -/
def number : List Char → Nat
  | '0' :: 'x' :: text => digits 16 0 text
  | '0' :: 'X' :: text => digits 16 0 text
  | '0' :: text => digits 8 0 text
  | text => digits 10 0 text

/-- `strtoul` with base 0. -/
def strtoul (text : List Char) : Nat :=
  match text.dropWhile Char.isWhitespace with
  | '-' :: text => if number text < 2 ^ 64 then (2 ^ 64 - number text) % 2 ^ 64 else 2 ^ 64 - 1
  | '+' :: text => min (number text) (2 ^ 64 - 1)
  | text => min (number text) (2 ^ 64 - 1)

/-- The cast to `int16_t`. -/
def toInt16 (value : Nat) : Int := Int.bmod value (2 ^ 16)

/-- The fields of `dma_channel_t` that the options set; there is no descriptor for `NOFD`. -/
structure ChanOptions where
  typedMemFd : Option Nat
  rangeMin : Int
  rangeMax : Int
  numCbs : Nat
  debug : Nat
deriving DecidableEq, Repr

/-- The fields before the options are read. -/
def ChanOptions.initial : ChanOptions := ⟨none, -1, -1, DMA_DEFAULT_NUM_CBS, 0⟩

/-- A request to the resource database. -/
structure RsrcRequest where
  start : Nat
  stop : Nat
  isTopdown : Bool
deriving DecidableEq, Repr

/-- The resource database: what it grants of a range, when these channels are taken. -/
structure Rsrcdb where
  attach : Finset Nat → RsrcRequest → Except Nat Nat
  grants_free : ∀ reserved request chanIdx, attach reserved request = .ok chanIdx →
    chanIdx ∉ reserved ∧ request.start ≤ chanIdx ∧ chanIdx ≤ request.stop ∧ chanIdx < numChannels

/-- How the system answers. -/
structure AttachAnswers extends Rsrcdb where
  strdup : Bool
  calloc : Bool
  /-- `posix_typed_mem_open`, by the descriptors that are open and the name. -/
  typedMemOpen : Finset Nat → Option (List Char) → Except Nat Nat
  /-- `pthread_mutex_lock`. -/
  lock : Nat
  /-- `InterruptAttachEvent`. -/
  interrupt : Except Nat Nat
  opens_new : ∀ fds name fd, typedMemOpen fds name = .ok fd → fd ∉ fds

/-- How reading the options ends. -/
inductive OptionsRet where
  | ok
  | error (ret : Nat)
  /-- A number is read where there is no value. -/
  | fault
deriving DecidableEq, Repr

/-- The loop of `parse_options`, with the descriptors that are open. -/
def parseLoop (typedMemOpen : Finset Nat → Option (List Char) → Except Nat Nat) :
    List (List Char) → Finset Nat → ChanOptions → Finset Nat × ChanOptions × OptionsRet
  | [], fds, chan => (fds, chan, .ok)
  | subopt :: subopts, fds, chan =>
      match getsubopt subopt with
      | (none, _) => (fds, chan, .error EINVAL)
      | (some .typedMem, name) =>
          match typedMemOpen fds name with
          | .ok fd => parseLoop typedMemOpen subopts (insert fd fds) { chan with typedMemFd := fd }
          | .error errno => (fds, { chan with typedMemFd := none }, .error errno)
      | (some _, none) => (fds, chan, .fault)
      | (some .numCbs, some value) =>
          parseLoop typedMemOpen subopts fds { chan with numCbs := strtoul value % 2 ^ 32 }
      | (some .rangeMin, some value) =>
          parseLoop typedMemOpen subopts fds { chan with rangeMin := toInt16 (strtoul value) }
      | (some .rangeMax, some value) =>
          parseLoop typedMemOpen subopts fds { chan with rangeMax := toInt16 (strtoul value) }
      | (some .debug, some value) =>
          parseLoop typedMemOpen subopts fds { chan with debug := strtoul value % 2 ^ 32 }

/-- `parse_options`. -/
def parseOptions (typedMemOpen : Finset Nat → Option (List Char) → Except Nat Nat)
    (options : List Char) (fds : Finset Nat) : Finset Nat × ChanOptions × OptionsRet :=
  match parseLoop typedMemOpen (subopts options) fds .initial with
  | (fds, chan, .ok) =>
      if xor (chan.rangeMin = -1) (chan.rangeMax = -1) then (fds, chan, .error EINVAL)
      else
        match chan.typedMemFd with
        | some _ => (fds, chan, .ok)
        | none =>
            match typedMemOpen fds (some "sysram&below1G".toList) with
            | .ok fd => (insert fd fds, { chan with typedMemFd := fd }, .ok)
            | .error errno => (fds, chan, .error errno)
  | (fds, chan, ret) => (fds, chan, ret)

/-! ## Attaching -/

/-- The request that `rsrcdb_attach_channel` makes of the database. -/
def rsrcRequest (chan : ChanOptions) (channel : Option Nat) (priority flags : Nat) :
    Except Nat RsrcRequest :=
  let hasRange := chan.rangeMin ≠ -1 ∧ chan.rangeMax ≠ -1
  let start := if hasRange then (chan.rangeMin % 2 ^ 64).toNat else 0
  let stop := if hasRange then (chan.rangeMax % 2 ^ 64).toNat else numChannels - 1
  if flagged flags DMA_ATTACH_PRIORITY_HIGHEST then .ok ⟨start, stop, true⟩
  else if flagged flags (DMA_ATTACH_PRIORITY_STRICT ||| DMA_ATTACH_PRIORITY_ATLEAST) then
    if priority < start ∨ priority > stop then .error EINVAL
    else
      .ok ⟨priority,
        if flagged flags DMA_ATTACH_PRIORITY_STRICT then priority else numChannels - 1, false⟩
  else if flagged flags DMA_ATTACH_ANY_CHANNEL then .ok ⟨start, stop, false⟩
  else
    match channel with
    | some channel =>
        if start ≤ channel ∧ channel ≤ stop then .ok ⟨channel, channel, false⟩ else .error EINVAL
    | none => .error EINVAL

/-- `rsrcdb_attach_channel`: the channel, or `errno`. -/
def rsrcdbAttachChannel (db : Rsrcdb) (reserved : Finset Nat) (chan : ChanOptions)
    (channel : Option Nat) (priority flags : Nat) : Except Nat Nat :=
  match rsrcRequest chan channel priority flags with
  | .error errno => .error errno
  | .ok request => db.attach reserved request

/-- What processes share, and what this one has open. -/
structure DmaWorld where
  /-- `DMA_ENABLE`. -/
  dmaEnable : Nat
  /-- The channels that are taken in the resource database. -/
  reserved : Finset Nat
  /-- The descriptors of typed memory that are open. -/
  fds : Finset Nat
  /-- The control registers of the channels. -/
  cs : Nat → Nat

/-- The parameters of `dma_channel_attach`. -/
structure AttachCall where
  options : Option (List Char)
  hasEvent : Bool
  /-- `*channel`. -/
  channel : Option Nat
  priority : Int
  flags : Nat

/-- What `dma_channel_attach` returns. -/
inductive AttachRet where
  | attached (chanIdx : Nat) (chan : ChanOptions)
  /-- `NULL`, with `errno`. -/
  | failed (errno : Nat)
  | fault

/-- What it leaves, with `*channel`. -/
structure AttachOutcome where
  world : DmaWorld
  channel : Option Nat
  ret : AttachRet

/-- `close` of a descriptor, unless it is `NOFD`. -/
def closeFd (fds : Finset Nat) : Option Nat → Finset Nat
  | none => fds
  | some fd => fds.erase fd

/-- The label `fail1`. -/
def DmaWorld.fail1 (world : DmaWorld) (chan : ChanOptions) : DmaWorld :=
  { world with fds := closeFd world.fds chan.typedMemFd }

/-- The label `fail2`. -/
def DmaWorld.fail2 (world : DmaWorld) (chan : ChanOptions) (chanIdx : Nat) : DmaWorld :=
  DmaWorld.fail1 { world with reserved := world.reserved.erase chanIdx } chan

/-- The client is to get an event. -/
def AttachCall.wantsEvent (call : AttachCall) : Bool :=
  flagged call.flags (DMA_ATTACH_EVENT_ON_COMPLETE ||| DMA_ATTACH_EVENT_PER_SEGMENT) &&
    call.hasEvent

/-- `dma_channel_attach` once the database has granted a channel. -/
def attachGranted (answers : AttachAnswers) (world : DmaWorld) (call : AttachCall)
    (chan : ChanOptions) (chanIdx : Nat) : AttachOutcome :=
  let channel := call.channel.map fun _ => chanIdx
  if answers.lock ≠ 0 then ⟨world.fail1 chan, channel, .failed answers.lock⟩
  else
    let enabled := { world with
      dmaEnable := world.dmaEnable ||| 2 ^ chanIdx
      cs := Function.update world.cs chanIdx 0 }
    match if call.wantsEvent then answers.interrupt else .ok 0 with
    | .error errno => ⟨enabled.fail2 chan chanIdx, channel, .failed errno⟩
    | .ok _ => ⟨enabled, channel, .attached chanIdx chan⟩

/-- `dma_channel_attach` once the options are read. -/
def attachParsed (answers : AttachAnswers) (world : DmaWorld) (call : AttachCall)
    (chan : ChanOptions) : AttachOutcome :=
  match rsrcdbAttachChannel answers.toRsrcdb world.reserved chan call.channel
      (call.priority % 2 ^ 64).toNat call.flags with
  | .error errno => ⟨world.fail1 chan, call.channel, .failed errno⟩
  | .ok chanIdx =>
      attachGranted answers { world with reserved := insert chanIdx world.reserved } call chan
        chanIdx

/-- `dma_channel_attach`. -/
def dmaChannelAttach (answers : AttachAnswers) (world : DmaWorld) (call : AttachCall) :
    AttachOutcome :=
  if flagged call.flags DMA_ATTACH_EVENT_ON_COMPLETE ∧
      flagged call.flags DMA_ATTACH_EVENT_PER_SEGMENT then
    ⟨world, call.channel, .failed EINVAL⟩
  else if call.options.isSome ∧ ¬ answers.strdup then ⟨world, call.channel, .failed ENOMEM⟩
  else if ¬ answers.calloc then ⟨world, call.channel, .failed ENOMEM⟩
  else
    match parseOptions answers.typedMemOpen (call.options.getD []) world.fds with
    | (fds, _, .fault) => ⟨{ world with fds := fds }, call.channel, .fault⟩
    | (fds, chan, .error ret) => ⟨{ world with fds := fds }.fail1 chan, call.channel, .failed ret⟩
    | (fds, chan, .ok) => attachParsed answers { world with fds := fds } call chan

/-! ## What a failure leaves -/

/-- The options come to another `typed_mem` while a descriptor is held, which is then lost. -/
def LosesFd (typedMemOpen : Finset Nat → Option (List Char) → Except Nat Nat) :
    List (List Char) → Finset Nat → (held : Option Nat) → Prop
  | [], _, _ => False
  | subopt :: subopts, fds, held =>
      match getsubopt subopt with
      | (none, _) => False
      | (some .typedMem, name) =>
          held.isSome ∨
            match typedMemOpen fds name with
            | .ok fd => LosesFd typedMemOpen subopts (insert fd fds) (some fd)
            | .error _ => False
      | (some _, none) => False
      | (some _, some _) => LosesFd typedMemOpen subopts fds held

section Options

variable {typedMemOpen : Finset Nat → Option (List Char) → Except Nat Nat} {fds : Finset Nat}
  {chan : ChanOptions}

/-- What stays open when the held descriptor is closed, between two points of the options. -/
structure ClosesAs (before : Finset Nat) (held : Option Nat) (lost : Prop) (after : Finset Nat)
    (chan : ChanOptions) : Prop where
  kept : closeFd before held ⊆ closeFd after chan.typedMemFd
  same_iff : closeFd after chan.typedMemFd = closeFd before held ↔ ¬ lost
  isOpen : ∀ fd, chan.typedMemFd = some fd → fd ∈ after

theorem closesAs_refl (isOpen : ∀ fd, chan.typedMemFd = some fd → fd ∈ fds) :
    ClosesAs fds chan.typedMemFd False fds chan :=
  ⟨Finset.Subset.refl _, iff_of_true rfl not_false, isOpen⟩

/-- What is closed when a descriptor is held is less than all. -/
theorem ClosesAs.reopened {lost : Prop} {after : Finset Nat} {held : Option Nat}
    (closes : ClosesAs fds none lost after chan) (isOpen : ∀ fd, held = some fd → fd ∈ fds) :
    ClosesAs fds held (held.isSome ∨ lost) after chan := by
  cases held with
  | none =>
      refine ⟨closes.kept, closes.same_iff.trans ?_, closes.isOpen⟩
      rw [Option.isSome_none, Bool.false_eq_true, false_or]
  | some fd =>
      have kept : fds ⊆ closeFd after chan.typedMemFd := closes.kept
      refine ⟨(Finset.erase_subset _ _).trans kept, ?_, closes.isOpen⟩
      refine iff_of_false (fun same => ?_) (not_not.mpr (.inl rfl))
      rw [same] at kept
      exact Finset.notMem_erase fd fds (kept (isOpen fd rfl))

/-- The loop leaves what was open, the descriptor that is held, and those that it has lost. -/
theorem parseLoop_closes
    (new : ∀ fds name fd, typedMemOpen fds name = .ok fd → fd ∉ fds) (subopts : List (List Char))
    (isOpen : ∀ fd, chan.typedMemFd = some fd → fd ∈ fds) :
    ClosesAs fds chan.typedMemFd (LosesFd typedMemOpen subopts fds chan.typedMemFd)
      (parseLoop typedMemOpen subopts fds chan).1
      (parseLoop typedMemOpen subopts fds chan).2.1 := by
  induction subopts generalizing fds chan with
  | nil => exact closesAs_refl isOpen
  | cons subopt subopts ih =>
      rw [parseLoop, LosesFd]
      rcases getsubopt subopt with ⟨_ | opt, value⟩
      · exact closesAs_refl isOpen
      · cases opt with
        | typedMem =>
            dsimp only
            cases opened : typedMemOpen fds value with
            | error errno =>
                exact (@closesAs_refl fds { chan with typedMemFd := none } nofun).reopened isOpen
            | ok fd =>
                have later := @ih (insert fd fds) { chan with typedMemFd := some fd }
                  fun other same => by
                    rw [← Option.some.inj same]
                    exact Finset.mem_insert_self _ _
                have closed : closeFd (insert fd fds) (some fd) = closeFd fds none :=
                  Finset.erase_insert (new _ _ _ opened)
                refine ClosesAs.reopened ⟨?_, ?_, later.isOpen⟩ isOpen
                · rw [← closed]
                  exact later.kept
                · rw [← closed]
                  exact later.same_iff
        | numCbs =>
            cases value with
            | none => exact closesAs_refl isOpen
            | some value => exact @ih fds { chan with numCbs := strtoul value % 2 ^ 32 } isOpen
        | rangeMin =>
            cases value with
            | none => exact closesAs_refl isOpen
            | some value => exact @ih fds { chan with rangeMin := toInt16 (strtoul value) } isOpen
        | rangeMax =>
            cases value with
            | none => exact closesAs_refl isOpen
            | some value => exact @ih fds { chan with rangeMax := toInt16 (strtoul value) } isOpen
        | debug =>
            cases value with
            | none => exact closesAs_refl isOpen
            | some value => exact @ih fds { chan with debug := strtoul value % 2 ^ 32 } isOpen

/-- Reading the options leaves what was open, the descriptor that is held, and those that it has
lost. -/
theorem parseOptions_closes
    (new : ∀ fds name fd, typedMemOpen fds name = .ok fd → fd ∉ fds) (options : List Char)
    (fds : Finset Nat) :
    closeFd (parseOptions typedMemOpen options fds).1
        (parseOptions typedMemOpen options fds).2.1.typedMemFd = fds ↔
      ¬ LosesFd typedMemOpen (subopts options) fds none := by
  have loop := @parseLoop_closes typedMemOpen fds .initial new (subopts options) nofun
  have same : closeFd (parseLoop typedMemOpen (subopts options) fds .initial).1
      (parseLoop typedMemOpen (subopts options) fds .initial).2.1.typedMemFd = fds ↔
        ¬ LosesFd typedMemOpen (subopts options) fds none := loop.same_iff
  unfold parseOptions
  rcases parsed : parseLoop typedMemOpen (subopts options) fds .initial with ⟨after, chan, ret⟩
  rw [parsed] at same
  cases ret with
  | error ret => exact same
  | fault => exact same
  | ok =>
      dsimp only
      split
      · exact same
      · split
        · next held => exact same
        · next held =>
            dsimp only at same
            rw [held] at same
            split
            · next fd opened =>
                have closed : closeFd (insert fd after) (some fd) = closeFd after none :=
                  Finset.erase_insert (new _ _ _ opened)
                dsimp only
                rw [closed]
                exact same
            · dsimp only
              rw [held]
              exact same

end Options

/-- A bit that is set is set again without a change, and only such a bit. -/
theorem setBit_same_iff (word bit : Nat) : word ||| 2 ^ bit = word ↔ word.testBit bit = true := by
  constructor
  · intro same
    rw [← same, Nat.testBit_or, Nat.testBit_two_pow_self, Bool.or_true]
  · intro isSet
    apply Nat.eq_of_testBit_eq
    intro other
    rw [Nat.testBit_or]
    by_cases own : bit = other
    · rw [← own, isSet, Bool.true_or]
    · rw [Nat.testBit_two_pow_of_ne own, Bool.or_false]

/-- The enable register, the reservations and the descriptors are as they were. -/
structure DmaWorld.Restored (before after : DmaWorld) : Prop where
  dmaEnable : after.dmaEnable = before.dmaEnable
  reserved : after.reserved = before.reserved
  fds : after.fds = before.fds

/-- When the call returns `NULL`, they are as they were. -/
def AttachOutcome.LeavesNothing (before : DmaWorld) (outcome : AttachOutcome) : Prop :=
  ∀ errno, outcome.ret = .failed errno → before.Restored outcome.world

/-- The call comes to its options. -/
def Starts (answers : AttachAnswers) (call : AttachCall) : Prop :=
  ¬ (flagged call.flags DMA_ATTACH_EVENT_ON_COMPLETE ∧
    flagged call.flags DMA_ATTACH_EVENT_PER_SEGMENT) ∧
    (call.options.isSome → answers.strdup) ∧ answers.calloc

/-- No descriptor is lost over the options. -/
def KeepsFds (answers : AttachAnswers) (world : DmaWorld) (call : AttachCall) : Prop :=
  ¬ LosesFd answers.typedMemOpen (subopts (call.options.getD [])) world.fds none

/-- Where the call can fail it has nothing to leave: no descriptor is lost; the mutex does not fail;
and when the interrupt fails, the channel was enabled before. -/
def FailsCleanly (answers : AttachAnswers) (world : DmaWorld) (call : AttachCall) : Prop :=
  Starts answers call →
    match parseOptions answers.typedMemOpen (call.options.getD []) world.fds with
    | (_, _, .fault) => True
    | (_, _, .error _) => KeepsFds answers world call
    | (_, chan, .ok) =>
        match rsrcdbAttachChannel answers.toRsrcdb world.reserved chan call.channel
            (call.priority % 2 ^ 64).toNat call.flags with
        | .error _ => KeepsFds answers world call
        | .ok chanIdx =>
            answers.lock = 0 ∧ (call.wantsEvent → ∀ errno, answers.interrupt = .error errno →
              world.dmaEnable.testBit chanIdx ∧ KeepsFds answers world call)

section Leaves

variable {answers : AttachAnswers} {world : DmaWorld} {call : AttachCall} {chan : ChanOptions}
  {fds : Finset Nat} {keeps : Prop}

theorem leavesNothing_failed {outcome : AttachOutcome} {errno : Nat}
    (failed : outcome.ret = .failed errno) :
    outcome.LeavesNothing world ↔ world.Restored outcome.world :=
  ⟨fun leaves => leaves errno failed, fun restored _ _ => restored⟩

/-- At `fail1` only a lost descriptor is left. -/
theorem fail1_restored (closes : closeFd fds chan.typedMemFd = world.fds ↔ keeps) :
    world.Restored (DmaWorld.fail1 { world with fds := fds } chan) ↔ keeps := by
  rw [← closes]
  exact ⟨fun restored => restored.fds, fun same => ⟨rfl, rfl, same⟩⟩

/-- Once a channel is granted, a failure of the mutex leaves its reservation, and a failure of the
interrupt its bit. -/
theorem attachGranted_leaves {chanIdx : Nat}
    (closes : closeFd fds chan.typedMemFd = world.fds ↔ keeps)
    (free : chanIdx ∉ world.reserved) :
    (attachGranted answers
        { world with fds := fds, reserved := insert chanIdx world.reserved } call chan
        chanIdx).LeavesNothing world ↔
      answers.lock = 0 ∧ (call.wantsEvent → ∀ errno, answers.interrupt = .error errno →
        world.dmaEnable.testBit chanIdx ∧ keeps) := by
  unfold attachGranted
  by_cases locked : answers.lock = 0
  · dsimp only
    rw [if_neg (not_not.mpr locked), and_iff_right locked]
    cases wants : call.wantsEvent with
    | false => exact iff_of_true nofun nofun
    | true =>
        cases interrupted : answers.interrupt with
        | ok iid => exact iff_of_true nofun nofun
        | error errno =>
            rw [leavesNothing_failed rfl]
            constructor
            · intro restored _ _ _
              exact ⟨(setBit_same_iff _ _).mp restored.dmaEnable, closes.mp restored.fds⟩
            · intro clean
              obtain ⟨isSet, kept⟩ := clean rfl errno rfl
              exact ⟨(setBit_same_iff _ _).mpr isSet, Finset.erase_insert free,
                closes.mpr kept⟩
  · rw [if_pos locked, leavesNothing_failed rfl]
    refine iff_of_false (fun restored => ?_) fun clean => locked clean.1
    have taken : chanIdx ∈ insert chanIdx world.reserved := Finset.mem_insert_self _ _
    have reserved : insert chanIdx world.reserved = world.reserved := restored.reserved
    rw [reserved] at taken
    exact free taken

/-- The channel that the database grants is free. -/
theorem rsrcdbAttachChannel_free {db : Rsrcdb} {reserved : Finset Nat} {channel : Option Nat}
    {priority flags chanIdx : Nat}
    (granted : rsrcdbAttachChannel db reserved chan channel priority flags = .ok chanIdx) :
    chanIdx ∉ reserved := by
  unfold rsrcdbAttachChannel at granted
  split at granted
  · cases granted
  · exact (db.grants_free _ _ _ granted).1

end Leaves

/-- A call that fails leaves nothing behind exactly where it fails cleanly. -/
theorem leavesNothing_iff (answers : AttachAnswers) (world : DmaWorld) (call : AttachCall) :
    (dmaChannelAttach answers world call).LeavesNothing world ↔
      FailsCleanly answers world call := by
  have closes : _ ↔ KeepsFds answers world call :=
    @parseOptions_closes answers.typedMemOpen answers.opens_new (call.options.getD []) world.fds
  have unchanged : world.Restored world := ⟨rfl, rfl, rfl⟩
  unfold dmaChannelAttach FailsCleanly Starts
  by_cases exclusive : flagged call.flags DMA_ATTACH_EVENT_ON_COMPLETE = true ∧
      flagged call.flags DMA_ATTACH_EVENT_PER_SEGMENT = true
  · rw [if_pos exclusive, leavesNothing_failed rfl]
    exact iff_of_true unchanged fun starts => absurd exclusive starts.1
  · rw [if_neg exclusive]
    by_cases copied : call.options.isSome = true ∧ ¬ answers.strdup = true
    · rw [if_pos copied, leavesNothing_failed rfl]
      exact iff_of_true unchanged fun starts => absurd (starts.2.1 copied.1) copied.2
    · rw [if_neg copied]
      by_cases allocated : answers.calloc = true
      · have starts : ¬ (flagged call.flags DMA_ATTACH_EVENT_ON_COMPLETE = true ∧
            flagged call.flags DMA_ATTACH_EVENT_PER_SEGMENT = true) ∧
            (call.options.isSome = true → answers.strdup = true) ∧ answers.calloc = true :=
          ⟨exclusive, fun some => by_contra fun none => copied ⟨some, none⟩, allocated⟩
        rw [if_neg (not_not.mpr allocated), imp_iff_right starts]
        rcases parsed : parseOptions answers.typedMemOpen (call.options.getD []) world.fds with
          ⟨fds, chan, ret⟩
        rw [parsed] at closes
        cases ret with
        | fault => exact iff_of_true nofun trivial
        | error ret =>
            dsimp only
            rw [leavesNothing_failed rfl]
            exact fail1_restored closes
        | ok =>
            dsimp only [attachParsed]
            cases granted : rsrcdbAttachChannel answers.toRsrcdb world.reserved chan call.channel
                (call.priority % 2 ^ 64).toNat call.flags with
            | error errno =>
                dsimp only
                rw [leavesNothing_failed rfl]
                exact fail1_restored closes
            | ok chanIdx =>
                exact attachGranted_leaves closes (rsrcdbAttachChannel_free granted)
      · rw [if_pos allocated, leavesNothing_failed rfl]
        exact iff_of_true unchanged fun starts => absurd starts.2.2 allocated

/-- A system that grants the first channel of a range and opens a new descriptor, but does not
attach interrupts. -/
def noInterrupts : AttachAnswers where
  attach reserved request :=
    if request.start ∉ reserved ∧ request.start ≤ request.stop ∧ request.start < numChannels then
      .ok request.start
    else .error 11
  grants_free reserved request chanIdx granted := by
    split at granted
    · next free =>
        cases granted
        exact ⟨free.1, le_rfl, free.2.1, free.2.2⟩
    · cases granted
  strdup := true
  calloc := true
  typedMemOpen fds _ := .ok (fds.sup id + 1)
  lock := 0
  interrupt := .error 11
  opens_new fds name fd opened := by
    cases opened
    intro member
    exact absurd (Finset.le_sup member : id _ ≤ fds.sup id) (not_le.mpr (Nat.lt_succ_self _))

/-- When the interrupt cannot be attached, the channel stays enabled. -/
theorem noInterrupts_enabled :
    ¬ (dmaChannelAttach noInterrupts ⟨0, ∅, ∅, fun _ => 0⟩
      ⟨none, true, none, 0, DMA_ATTACH_ANY_CHANNEL ||| DMA_ATTACH_EVENT_ON_COMPLETE⟩).LeavesNothing
      ⟨0, ∅, ∅, fun _ => 0⟩ := by
  intro leaves
  have restored := leaves 11 rfl
  exact absurd restored.dmaEnable (by decide)

/-! ## The channel that is granted -/

/-- What the client asks of a channel. -/
structure Respects (chan : ChanOptions) (channel : Option Nat) (priority : Int)
    (flags chanIdx : Nat) : Prop where
  inRange : chan.rangeMin ≤ chanIdx ∧ chanIdx ≤ chan.rangeMax
  strict : flagged flags DMA_ATTACH_PRIORITY_STRICT → (chanIdx : Int) = priority
  atLeast : flagged flags DMA_ATTACH_PRIORITY_ATLEAST → priority ≤ chanIdx
  specific : ¬ flagged flags DMA_ATTACH_PRIORITY_HIGHEST →
    ¬ flagged flags DMA_ATTACH_PRIORITY_STRICT → ¬ flagged flags DMA_ATTACH_PRIORITY_ATLEAST →
    ¬ flagged flags DMA_ATTACH_ANY_CHANNEL → ∀ asked, channel = some asked → chanIdx = asked

/-- Whatever channel the database grants is as the client asked. -/
def SelectsAsAsked (chan : ChanOptions) (channel : Option Nat) (priority : Int) (flags : Nat) :
    Prop :=
  ∀ (db : Rsrcdb) reserved chanIdx,
    rsrcdbAttachChannel db reserved chan channel (priority % 2 ^ 64).toNat flags = .ok chanIdx →
      Respects chan channel priority flags chanIdx

/-- With the highest priority another one is asked for only where the range leaves no choice, and
with a least priority in the range, the range goes up to the last channel. -/
def AsksWithin (chan : ChanOptions) (priority : Int) (flags : Nat) : Prop :=
  if flagged flags DMA_ATTACH_PRIORITY_HIGHEST then
    (flagged flags DMA_ATTACH_PRIORITY_STRICT →
      chan.rangeMin = priority ∧ chan.rangeMax = priority) ∧
    (flagged flags DMA_ATTACH_PRIORITY_ATLEAST → priority ≤ chan.rangeMin)
  else
    flagged flags DMA_ATTACH_PRIORITY_ATLEAST → ¬ flagged flags DMA_ATTACH_PRIORITY_STRICT →
      chan.rangeMin ≤ priority → priority ≤ chan.rangeMax → chan.rangeMax = numChannels - 1

/-- A database that grants one channel only. -/
def onlyGrants (only : Nat) : Rsrcdb where
  attach reserved request :=
    if only ∉ reserved ∧ request.start ≤ only ∧ only ≤ request.stop ∧ only < numChannels then
      .ok only
    else .error 11
  grants_free reserved request chanIdx granted := by
    split at granted
    · next free =>
        cases granted
        exact free
    · cases granted

section Selection

variable {chan : ChanOptions} {channel : Option Nat} {priority : Int} {flags : Nat}

theorem flagged_either (flags first second : Nat) :
    flagged flags (first ||| second) = (flagged flags first || flagged flags second) := by
  unfold flagged
  rw [Nat.and_or_distrib_left, Bool.eq_iff_iff, Bool.or_eq_true]
  simp only [decide_eq_true_eq, ne_eq, Nat.or_eq_zero_iff, not_and_or]

/-- The request, with a range in the options. -/
theorem rsrcRequest_ranged {low high : Nat} (least : chan.rangeMin = low)
    (most : chan.rangeMax = high) (fits : high < numChannels) (order : low ≤ high)
    (priority : Nat) :
    rsrcRequest chan channel priority flags =
      if flagged flags DMA_ATTACH_PRIORITY_HIGHEST then .ok ⟨low, high, true⟩
      else if flagged flags DMA_ATTACH_PRIORITY_STRICT ∨
          flagged flags DMA_ATTACH_PRIORITY_ATLEAST then
        if priority < low ∨ priority > high then .error EINVAL
        else
          .ok ⟨priority,
            if flagged flags DMA_ATTACH_PRIORITY_STRICT then priority else numChannels - 1, false⟩
      else if flagged flags DMA_ATTACH_ANY_CHANNEL then .ok ⟨low, high, false⟩
      else
        match channel with
        | some channel =>
            if low ≤ channel ∧ channel ≤ high then .ok ⟨channel, channel, false⟩ else .error EINVAL
        | none => .error EINVAL := by
  have hasRange : chan.rangeMin ≠ -1 ∧ chan.rangeMax ≠ -1 := by omega
  have start : (chan.rangeMin % 2 ^ 64).toNat = low := by
    unfold numChannels at fits
    omega
  have stop : (chan.rangeMax % 2 ^ 64).toNat = high := by
    unfold numChannels at fits
    omega
  unfold rsrcRequest
  simp only [if_pos hasRange, start, stop, flagged_either, Bool.or_eq_true]

/-- A channel that is granted is in the range that was requested. -/
theorem granted_requested {db : Rsrcdb} {reserved : Finset Nat} {priority chanIdx : Nat}
    (granted : rsrcdbAttachChannel db reserved chan channel priority flags = .ok chanIdx) :
    ∃ request, rsrcRequest chan channel priority flags = .ok request ∧
      request.start ≤ chanIdx ∧ chanIdx ≤ request.stop := by
  unfold rsrcdbAttachChannel at granted
  split at granted
  · cases granted
  · next request requested =>
      obtain ⟨_, above, below, _⟩ := db.grants_free _ _ _ granted
      exact ⟨request, requested, above, below⟩

/-- Any channel of the range that is requested may be granted. -/
theorem onlyGrants_granted {priority chanIdx : Nat} {request : RsrcRequest}
    (requested : rsrcRequest chan channel priority flags = .ok request)
    (above : request.start ≤ chanIdx) (below : chanIdx ≤ request.stop)
    (real : chanIdx < numChannels) :
    rsrcdbAttachChannel (onlyGrants chanIdx) ∅ chan channel priority flags = .ok chanIdx := by
  unfold rsrcdbAttachChannel
  rw [requested]
  exact if_pos ⟨Finset.notMem_empty _, above, below, real⟩

/-- With a range of channels, every channel that may be granted is as the client asked exactly when
the client asks within the range. -/
theorem selects_iff (first : 0 ≤ chan.rangeMin) (order : chan.rangeMin ≤ chan.rangeMax)
    (last : chan.rangeMax < numChannels) (least : -2 ^ 31 ≤ priority)
    (most : priority < 2 ^ 31) :
    SelectsAsAsked chan channel priority flags ↔ AsksWithin chan priority flags := by
  obtain ⟨low, lowEq⟩ := Int.eq_ofNat_of_zero_le first
  obtain ⟨high, highEq⟩ := Int.eq_ofNat_of_zero_le (first.trans order)
  have fits : high < numChannels := by omega
  have ordered : low ≤ high := by omega
  have request := @rsrcRequest_ranged chan channel flags low high lowEq highEq fits ordered
    (priority % 2 ^ 64).toNat
  have cast : ∀ bound, bound < numChannels → (priority % 2 ^ 64).toNat ≤ bound →
      (((priority % 2 ^ 64).toNat : Nat) : Int) = priority := by
    intro bound small below
    unfold numChannels at small
    omega
  constructor
  · intro selects
    unfold AsksWithin
    split
    · next highest =>
        rw [if_pos highest] at request
        have lowest := selects _ _ _ (onlyGrants_granted request le_rfl ordered
          (ordered.trans_lt fits))
        have greatest := selects _ _ _ (onlyGrants_granted request ordered le_rfl fits)
        refine ⟨fun strict => ?_, fun atLeast => ?_⟩
        · rw [lowEq, highEq]
          exact ⟨lowest.strict strict, greatest.strict strict⟩
        · rw [lowEq]
          exact lowest.atLeast atLeast
    · next highest =>
        intro atLeast strict above below
        have inside : ¬ ((priority % 2 ^ 64).toNat < low ∨ (priority % 2 ^ 64).toNat > high) := by
          omega
        rw [if_neg highest, if_pos (.inr atLeast), if_neg inside, if_neg strict] at request
        have reachable : (priority % 2 ^ 64).toNat ≤ numChannels - 1 := by omega
        have granted := selects _ _ _ (onlyGrants_granted request reachable le_rfl (by decide))
        have ranged := granted.inRange.2
        unfold numChannels at *
        omega
  · intro within db reserved chanIdx granted
    obtain ⟨requested, same, above, below⟩ := granted_requested granted
    rw [request] at same
    unfold AsksWithin at within
    by_cases highest : flagged flags DMA_ATTACH_PRIORITY_HIGHEST = true
    · rw [if_pos highest] at same within
      cases same
      refine ⟨by dsimp only at above below; omega, fun strict => ?_, fun atLeast => ?_,
        fun unflagged => absurd highest unflagged⟩
      · have only := within.1 strict
        dsimp only at above below
        omega
      · have least := within.2 atLeast
        dsimp only at above below
        omega
    · rw [if_neg highest] at same within
      by_cases prioritized : flagged flags DMA_ATTACH_PRIORITY_STRICT = true ∨
          flagged flags DMA_ATTACH_PRIORITY_ATLEAST = true
      · rw [if_pos prioritized] at same
        by_cases outside : (priority % 2 ^ 64).toNat < low ∨ (priority % 2 ^ 64).toNat > high
        · rw [if_pos outside] at same
          cases same
        · rw [if_neg outside] at same
          have casted := cast high fits (by omega)
          by_cases strict : flagged flags DMA_ATTACH_PRIORITY_STRICT = true
          · rw [if_pos strict] at same
            cases same
            have one : chanIdx = (priority % 2 ^ 64).toNat := le_antisymm below above
            refine ⟨by omega, fun _ => by omega, fun _ => by omega,
              fun _ unflagged => absurd strict unflagged⟩
          · rw [if_neg strict] at same
            have atLeast := prioritized.resolve_left strict
            have full := within atLeast strict (by omega) (by omega)
            cases same
            dsimp only at above below
            unfold numChannels at *
            exact ⟨by omega, fun flagged => absurd flagged strict, fun _ => by omega,
              fun _ _ unflagged => absurd atLeast unflagged⟩
      · rw [if_neg prioritized] at same
        have unstrict := fun strict => prioritized (.inl strict)
        have unleast := fun atLeast => prioritized (.inr atLeast)
        by_cases any : flagged flags DMA_ATTACH_ANY_CHANNEL = true
        · rw [if_pos any] at same
          cases same
          dsimp only at above below
          exact ⟨by omega, fun strict => absurd strict unstrict,
            fun atLeast => absurd atLeast unleast, fun _ _ _ unflagged => absurd any unflagged⟩
        · rw [if_neg any] at same
          cases channel with
          | none => cases same
          | some asked =>
              dsimp only at same
              split at same
              · next inside =>
                  cases same
                  have one : chanIdx = asked := le_antisymm below above
                  refine ⟨by omega, fun strict => absurd strict unstrict,
                    fun atLeast => absurd atLeast unleast, fun _ _ _ _ other same => ?_⟩
                  rw [one, Option.some.inj same]
              · cases same

end Selection

/-- For every options string with a range of channels, the channel that is granted is as the client
asked exactly when the client asks within the range. -/
theorem parsedOptions_select_iff
    (typedMemOpen : Finset Nat → Option (List Char) → Except Nat Nat) (options : List Char)
    (fds : Finset Nat) (channel : Option Nat) (priority : Int) (flags : Nat)
    (first : 0 ≤ (parseOptions typedMemOpen options fds).2.1.rangeMin)
    (order : (parseOptions typedMemOpen options fds).2.1.rangeMin ≤
      (parseOptions typedMemOpen options fds).2.1.rangeMax)
    (last : (parseOptions typedMemOpen options fds).2.1.rangeMax < numChannels)
    (least : -2 ^ 31 ≤ priority) (most : priority < 2 ^ 31) :
    SelectsAsAsked (parseOptions typedMemOpen options fds).2.1 channel priority flags ↔
      AsksWithin (parseOptions typedMemOpen options fds).2.1 priority flags :=
  selects_iff first order last least most

/-- The options `range_min=2,range_max=5` with the priority at least 3. -/
theorem rangeTwoFive_select :
    SelectsAsAsked
        (parseOptions (fun _ _ => .ok 3) "range_min=2,range_max=5".toList ∅).2.1 none 3
        DMA_ATTACH_PRIORITY_ATLEAST ↔
      AsksWithin (parseOptions (fun _ _ => .ok 3) "range_min=2,range_max=5".toList ∅).2.1 3
        DMA_ATTACH_PRIORITY_ATLEAST :=
  parsedOptions_select_iff _ _ _ _ _ _ (by decide) (by decide) (by decide) (by decide) (by decide)

/-- They are granted channel 9. -/
theorem rangeTwoFive_exceeded :
    ¬ SelectsAsAsked
        (parseOptions (fun _ _ => .ok 3) "range_min=2,range_max=5".toList ∅).2.1 none 3
        DMA_ATTACH_PRIORITY_ATLEAST := by
  intro selects
  have granted := selects (onlyGrants 9) ∅ 9 (by decide)
  exact absurd granted.inRange.2 (by decide)

end Bcm2711.Dma
