import Lotto.StableAddress
import Lotto.Sequencer

namespace Lotto.Enforce

open MemoryMap

section Handler

def chainIngressEvent : Nat := 9

def chainIngressBefore : Nat := 10

inductive EventKind where
  | read | write | aread | awrite | rmw | xchg | cmpxchg | cmpxchgWeak | other
  deriving DecidableEq, Repr

inductive EnforceMode where
  | pc | cat | tid | address | data | custom | seed
  deriving DecidableEq, Repr

def EnforceMode.bit : EnforceMode → UInt64
  | .pc => 0x01
  | .cat => 0x02
  | .tid => 0x04
  | .address => 0x08
  | .data => 0x10
  | .custom => 0x20
  | .seed => 0x40

/-- `enforce_config_t`, with the stable address method of the sequencer and the kinds of the
event types. -/
structure EnforceConfig where
  enabled : Bool
  modes : UInt64
  method : StableAddressMethod
  kinds : TypeId → EventKind

def EnforceConfig.has (config : EnforceConfig) (mode : EnforceMode) : Bool :=
  config.modes &&& mode.bit != 0

/-- A capture point and what the handler reads for it: the access in its payload, the memory, the
memory map of the process and the seed. -/
structure Capture where
  cp : CapturePoint
  addr : UInt64
  size : Nat
  memory : UInt64 → UInt8
  maps : List MemoryMapEntry
  seed : UInt64

structure EnforceState where
  cp : CapturePoint
  addr : UInt64
  val : UInt64
  clk : Nat
  pc : StableAddress
  seed : UInt64
  deriving DecidableEq, Repr

def enforceStart : EnforceState :=
  { cp := ⟨0, 0, false, 0, 0, 0⟩, addr := 0, val := 0, clk := 0, pc := .ptr 0, seed := 0 }

variable (config : EnforceConfig)

def hasMemaccessAddr (cp : CapturePoint) : Bool := config.kinds cp.typeId != .other

def usesCurrentMemValue (cp : CapturePoint) : Bool :=
  match config.kinds cp.typeId with
  | .read | .write => cp.chainId == chainIngressEvent
  | .aread | .awrite => cp.chainId == chainIngressBefore
  | _ => false

def readBytes (memory : UInt64 → UInt8) : UInt64 → Nat → UInt64
  | _, 0 => 0
  | addr, n + 1 => (memory addr).toUInt64 ||| readBytes memory (addr + 1) n <<< 8

def readVal (memory : UInt64 → UInt8) (addr : UInt64) (width : Nat) : Except Fault UInt64 := do
  check (width == 8 || width == 4 || width == 2 || width == 1) .enforceWidth
  .ok (readBytes memory addr width)

def stablePc (c : Capture) : StableAddress := stableAddressGet c.maps c.cp.pc config.method

/-- `!(MODE(PC) && !EQUAL_PC)`. -/
def pcAsExpected (st : EnforceState) (c : Capture) : Except Fault Bool :=
  if config.has .pc then stableAddressEquals st.pc (stablePc config c) else .ok true

def asExpected (st : EnforceState) (c : Capture) : Except Fault Bool := do
  if config.has .tid && st.cp.id != c.cp.id || config.has .cat && st.cp.typeId != c.cp.typeId then
    .ok false
  else
    let samePc ← pcAsExpected config st c
    if !samePc || config.has .address && hasMemaccessAddr config c.cp && st.addr != c.addr ||
        config.has .seed && st.seed != c.seed then .ok false
    else if config.has .data && usesCurrentMemValue config c.cp then
      let a ← readVal c.memory c.addr c.size
      .ok (st.val == a)
    else .ok true

def savesVal (cp : CapturePoint) : Bool :=
  match config.kinds cp.typeId with
  | .read | .aread | .write | .awrite => config.has .data
  | _ => false

def enforceSave (clk : Nat) (st : EnforceState) (c : Capture) : Except Fault EnforceState := do
  let val ← if savesVal config c.cp then readVal c.memory c.addr c.size else .ok st.val
  .ok
    { cp := if config.has .cat || config.has .tid || config.has .address then c.cp else st.cp
      addr := if config.has .address && hasMemaccessAddr config c.cp then c.addr else st.addr
      val, clk
      pc := if config.has .pc then stablePc config c else st.pc
      seed := if config.has .seed then c.seed else st.seed }

/-- `_handle`, without the warning about the address space. -/
def enforceHandle (clk : Nat) (replay : Bool) (st : EnforceState) (c : Capture) :
    Except Fault EnforceState := do
  if !config.enabled then .ok st
  else if config.modes = 0 then .ok st
  else
    if replay && clk == st.clk then
      let good ← asExpected config st c
      check good .enforceMismatch
    enforceSave config clk st c

/-- The captures of a run from the clock `clk` on. `records` has the states that the recorder loads
at the beginning of a clock, and `replayed` tells whether the decision of a clock is a replay. -/
def enforceRun (records : Nat → Option EnforceState) (replayed : Nat → Bool) :
    Nat → EnforceState → List Capture → Except Fault EnforceState
  | _, st, [] => .ok st
  | clk, st, c :: cs => do
      let st ← enforceHandle config clk (replayed clk) ((records clk).getD st) c
      enforceRun records replayed (clk + 1) st cs

def recordRun (cs : List Capture) : Except Fault EnforceState :=
  enforceRun config (fun _ => none) (fun _ => false) 1 enforceStart cs

end Handler

section Meaning

variable (config : EnforceConfig)

def Sized (c : Capture) : Prop := savesVal config c.cp = true →
  (c.size == 8 || c.size == 4 || c.size == 2 || c.size == 1) = true

def lastAddr (cs : List Capture) : UInt64 :=
  ((cs.filter fun c => hasMemaccessAddr config c.cp).getLast?.map Capture.addr).getD 0

def currentVal (c : Capture) : UInt64 := readBytes c.memory c.addr c.size

def lastVal (cs : List Capture) : UInt64 :=
  ((cs.filter fun c => savesVal config c.cp).getLast?.map currentVal).getD 0

structure Agrees (past : List Capture) (c c' : Capture) : Prop where
  tid : config.has .tid = true → c.cp.id = c'.cp.id
  cat : config.has .cat = true → c.cp.typeId = c'.cp.typeId
  pc : config.has .pc = true → stablePc config c = stablePc config c'
  address : config.has .address = true → hasMemaccessAddr config c'.cp = true →
    lastAddr config past = c'.addr
  seed : config.has .seed = true → c.seed = c'.seed
  data : config.has .data = true → usesCurrentMemValue config c'.cp = true →
    lastVal config past = currentVal c'

end Meaning

end Lotto.Enforce
