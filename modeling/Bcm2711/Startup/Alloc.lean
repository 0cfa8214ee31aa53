import Bcm2711.Lib.Run
import Bcm2711.Startup.AsinfoContaining
import Bcm2711.Startup.FindRam

/-! # The startup allocator

`add_ram` makes RAM known, `alloc_ram` takes a block out of `ram_list`, and `ws_alloc`
takes workspace by putting it on the avoid list.  Before any RAM is known `ws_alloc`
takes the memory behind the boot image.

There are no watchers, and the relocation of the system page that `add_ram` starts is
left out: neither touches the tables modelled here.
-/

namespace Bcm2711.Startup

open Spans Runs

/-- What the allocator reads of the boot image and of the processor. -/
structure Boot where
  /-- `full_ram_paddr`. -/
  fullRamPaddr : Nat
  /-- `shdr->startup_size`. -/
  startupSize : Nat
  /-- `shdr->ram_size`. -/
  ramSize : Nat
  /-- The number of physical address bits that `as_default` reads. -/
  paddrBits : Nat
  /-- `__PAGESIZE` is two to this power. -/
  pageShift : Nat
  startup_nonempty : 0 < startupSize
  startup_le_ram : startupSize ≤ ramSize
  ramSize_lt : ramSize < 2 ^ 32
  /-- The image, the two tables behind it and some slack fit below the top of memory. -/
  fits : fullRamPaddr + ramSize + 0x2000 ≤ 2 ^ 64
  paddrBits_mem : paddrBits ∈ [32, 36, 40, 42, 44, 48]
  pageShift_mem : pageShift ∈ [12, 16]

/-- The static variables of the allocator, and the table of address ranges. -/
structure RamState where
  /-- `ram_list` and `ram_list_size`; null and zero at first. -/
  ram : Option RamTable
  /-- `avoid_list` and `avoid_list_size`. -/
  avoid : Option AvoidTable
  wsEarlyNext : Nat
  tempSyspage : Nat
  sysramAdded : Bool
  asinfo : List AsinfoEntry

/-- The static variables when startup begins. -/
def RamState.initial : RamState := ⟨none, none, 0, nullPaddr, false, []⟩

/-- `TEMP_SYSPAGE_SIZE`. -/
def tempSyspageSize : Nat := 48 * 1024

/-- An access to `ram_list` or `avoid_list`. -/
def deref {α : Type} : Option α → Result α
  | none => .error .nullAccess
  | some table => .ok table

/-- The value of `ram_list_size`. -/
def RamState.ramListSize (state : RamState) : Nat :=
  match state.ram with
  | none => 0
  | some ram => ram.ramListSize

/-- `ws_alloc` once the avoid list exists; a null result is `none`. -/
def wsTake (state : RamState) (size : Nat) : Result (RamState × Option Nat) := do
  let size := ROUND size 8
  if state.ramListSize ≤ sizeofRamEntry then
    let paddr := state.wsEarlyNext
    let avoid ← addAvoid (← deref state.avoid) paddr size
    return ({ state with wsEarlyNext := addPaddr paddr size, avoid := some avoid }, some paddr)
  else
    let paddr ← findRam (← deref state.ram) (← deref state.avoid) size 8 0 0
    if paddr = nullPaddr then return (state, none)
    let avoid ← addAvoid (← deref state.avoid) paddr size
    return ({ state with avoid := some avoid }, some paddr)

/-- `ws_init`. -/
def wsInit (boot : Boot) (state : RamState) : Result RamState := do
  let first := ROUND (addPaddr boot.fullRamPaddr boot.ramSize) 8
  let wsEarlyNext := addPaddr first (ROUND maxAvoidListSize 8)
  let avoidList : Nat → AvoidEntry := fun slot =>
    if slot = 0 then ⟨first, wsEarlyNext⟩ else ⟨0, 0⟩
  let state := { state with
    wsEarlyNext := wsEarlyNext, avoid := some ⟨avoidList, 2 * sizeofAvoidEntry⟩ }
  let (state, _) ← wsTake state maxRamListSize
  let state := { state with ram := some ⟨fun _ => ⟨0, 0⟩, sizeofRamEntry⟩ }
  let avoid ← addAvoid (← deref state.avoid) boot.fullRamPaddr boot.startupSize
  return { state with avoid := some avoid }

/-- `if(avoid_list == NULL) ws_init()`. -/
def ensureInit (boot : Boot) (state : RamState) : Result RamState :=
  match state.avoid with
  | none => wsInit boot state
  | some _ => .ok state

/-- `avoid_ram`. -/
def avoidRam (boot : Boot) (state : RamState) (start size : Nat) : Result RamState := do
  let state ← ensureInit boot state
  let avoid ← addAvoid (← deref state.avoid) start size
  return { state with avoid := some avoid }

/-- `ws_alloc`. -/
def wsAlloc (boot : Boot) (state : RamState) (size : Nat) :
    Result (RamState × Option Nat) := do
  let state ← ensureInit boot state
  wsTake state size

/-- The loop of `alloc_ram` that adjusts the `sysram` entries, for the range from `addr`
to the inclusive `stop` (the source's `end`). -/
def removeSysram (addr stop : Nat) :
    (fuel : Nat) → List AsinfoEntry → (off : Option Nat) → Result (List AsinfoEntry)
  | 0, _, _ => .error .stuck
  | fuel + 1, table, off =>
      match asFindContaining table off addr stop "sysram" with
      | none => .ok table
      | some off =>
          match table[off]? with
          | none => .error .stuck
          | some entry =>
              let s := min entry.start addr
              let e := max entry.stop stop
              if addr = s ∧ stop = e then .error (.crash "Can't remove whole sysram entry.\n")
              else if addr = s then
                removeSysram addr stop fuel
                  (table.set off { entry with start := addPaddr stop 1 }) (some off)
              else
                let table := table.set off { entry with stop := subPaddr addr 1 }
                if e ≠ stop then
                  removeSysram addr stop fuel
                    (asAdd table (addPaddr stop 1) e asAttrRam "sysram" entry.owner).1 (some off)
                else removeSysram addr stop fuel table (some off)

/-- `alloc_ram`, behind the choice of the address. -/
def takeRam (state : RamState) (addr size : Nat) : Result (RamState × Nat) := do
  let ram ← removeRam (← deref state.ram) addr size
  let state := { state with ram := some ram }
  if state.sysramAdded then
    let asinfo ← removeSysram addr (subPaddr (addPaddr addr size) 1)
      (2 * state.asinfo.length + 1) state.asinfo none
    return ({ state with asinfo := asinfo }, addr)
  else return (state, addr)

/-- `alloc_ram`. -/
def allocRam (state : RamState) (addr size align : Nat) : Result (RamState × Nat) := do
  if addr = nullPaddr then
    let addr ← findRam (← deref state.ram) (← deref state.avoid) size align 0 0
    if addr = nullPaddr then return (state, nullPaddr)
    takeRam state addr size
  else takeRam state addr size

/-- `as_default`, the `below4G` entry and `init_asinfo`, which adds nothing here. -/
def initAsinfo (boot : Boot) : List AsinfoEntry :=
  let (table, mem) := asAdd [] 0 (2 ^ boot.paddrBits - 1) asAttrRam "memory" none
  (asAdd table 0 (2 ^ 32 - 1) asAttrRam "below4G" (some mem)).1

/-- The end of `add_ram`: find space for the temporary system page. -/
def findTempSyspage (boot : Boot) (state : RamState) : Result RamState := do
  if state.tempSyspage = nullPaddr then
    let tempSyspage ←
      findRam (← deref state.ram) (← deref state.avoid) tempSyspageSize (2 ^ boot.pageShift) 0 0
    let state := { state with tempSyspage := tempSyspage }
    if tempSyspage ≠ nullPaddr then avoidRam boot state tempSyspage tempSyspageSize
    else return state
  else return state

/-- `add_ram`. -/
def addRam (boot : Boot) (state : RamState) (start size : Nat) : Result RamState := do
  let table := if state.asinfo.length = 0 then initAsinfo boot else state.asinfo
  let (asinfo, _) ←
    asAddContaining table start (subPaddr (addPaddr start size) 1) asAttrRam "ram" "memory"
  let ram ← addMem (← deref state.ram) start size
  let state := { state with asinfo := asinfo, ram := some ram }
  let (state, _) ← allocRam state (addPaddr boot.fullRamPaddr boot.startupSize)
    (Word.sub 32 boot.ramSize boot.startupSize) 1
  findTempSyspage boot state

/-- The loop of `add_sysram`. -/
def sysramEntries (ram : RamTable) : (fuel slot : Nat) → List AsinfoEntry →
    Result (List AsinfoEntry)
  | 0, _, _ => .error .stuck
  | fuel + 1, slot, table =>
      let entry := ram.ramList slot
      if entry.size = 0 then .ok table
      else do
        let (table, _) ← asAddContaining table entry.addr
          (subPaddr (addPaddr entry.addr entry.size) 1) asAttrRam "sysram" "ram"
        sysramEntries ram fuel (slot + 1) table

/-- `add_sysram`. -/
def addSysram (state : RamState) : Result RamState := do
  let ram ← deref state.ram
  let asinfo ← sysramEntries ram ram.ramListSize 0 state.asinfo
  return { state with asinfo := asinfo, sysramAdded := true }

end Bcm2711.Startup
