import Mathlib.Data.List.AList
import Lotto.Base

namespace Lotto.Rinflex

open Library.FaultRun

inductive EventType where
  | any | maRead | maWrite | maARead | maAWrite | maRmw | maXchg | maCmpxchg | maCmpxchgWeak
  | taskFini
  | other (raw : Nat)
  deriving DecidableEq, Repr

inductive RmwOp where
  | add | sub | or | and | xor | nand
  deriving DecidableEq, Repr

structure Payload where
  addr : UInt64
  size : UInt64
  val : UInt64
  cmp : UInt64
  op : RmwOp
  deriving DecidableEq, Repr

/-- The fields of a capture point that the handlers read. `after` tells the chain
`CHAIN_INGRESS_AFTER`, and `pc` stands for its stable address. -/
structure Ctx where
  id : TaskId
  typeId : EventType
  after : Bool
  pc : UInt64
  payload : Option Payload
  deriving DecidableEq, Repr

abbrev Memory := UInt64 → UInt8

def sizedRead (mem : Memory) (addr : UInt64) (size : Nat) : Except Fault UInt64 := do
  check (size == 1 || size == 2 || size == 4 || size == 8) .sizedRead
  .ok ((List.range size).foldr (fun i acc => acc <<< 8 ||| (mem (addr + i.toUInt64)).toUInt64) 0)

inductive ModifyKind where
  | awrite (isAfter : Bool) (value : UInt64)
  | write
  | rmw (isAfter : Bool) (delta : UInt64) (operator : RmwOp)
  | cas (isAfter : Bool) (expected new : UInt64)
  | xchg (isAfter : Bool) (value : UInt64)
  deriving DecidableEq, Repr

def ModifyKind.isAfter : ModifyKind → Bool
  | .awrite isAfter _ | .rmw isAfter _ _ | .cas isAfter _ _ | .xchg isAfter _ => isAfter
  | .write => false

structure Modify where
  size : UInt8
  realAddr : UInt64
  kind : ModifyKind
  readValue : Option UInt64
  deriving DecidableEq, Repr

/-- `ctx_to_read` builds no `Read`, so every access is a `Modify`. -/
abbrev MemoryAccess := Modify

def placeholder : UInt64 := 0x01140514

def Modify.hasInvalidRealAddr (m : Modify) : Bool := m.realAddr == placeholder

def Modify.loadedValue (m : Modify) : Option UInt64 := m.readValue

def Modify.reloadValue (mem : Memory) (m : Modify) : Except Fault (Option UInt64) :=
  if m.hasInvalidRealAddr then .ok m.loadedValue
  else do
    let newVal ← sizedRead mem m.realAddr m.size.toNat
    .ok (some newVal)

inductive Eff where
  | trivial | xchgSame | xchgChanged | rmwSame | rmwChanged | casSuccess | casFailure
  deriving DecidableEq, Repr

def evalRmw : RmwOp → UInt64 → UInt64 → UInt64
  | .add, old, new => old + new
  | .sub, old, new => old - new
  | .or, old, new => old ||| new
  | .and, old, new => old &&& new
  | .xor, old, new => old ^^^ new
  | .nand, old, new => ~~~(old &&& new)

/-- `Eff::from` of an operation of some kind that loads some value. -/
def Eff.loading : ModifyKind → Option UInt64 → Eff
  | .xchg _ new, some old => if new = old then .xchgSame else .xchgChanged
  | .rmw _ delta op, some old => if evalRmw op old delta = old then .rmwSame else .rmwChanged
  | .cas _ expected _, some old => if old = expected then .casSuccess else .casFailure
  | _, _ => .trivial

/-- `Eff::from` of an access, which is trivial where there is none. -/
def Eff.of : Option MemoryAccess → Eff
  | some m => Eff.loading m.kind m.readValue
  | none => .trivial

structure CasPredictor where
  tasks : AList fun _ : TaskId => MemoryAccess
  rtMap : AList fun _ : TaskId => MemoryAccess
  deriving DecidableEq

def CasPredictor.new : CasPredictor := { tasks := ∅, rtMap := ∅ }

def getMemoryAccess (id : TaskId) (cas : CasPredictor) : Option MemoryAccess := cas.tasks.lookup id

def getRtMemoryAccess (id : TaskId) (cas : CasPredictor) : Option MemoryAccess :=
  cas.rtMap.lookup id

def getMemoryAccessValue (id : TaskId) (cas : CasPredictor) : Option UInt64 :=
  (getMemoryAccess id cas).bind Modify.loadedValue

def getCtxVal (size value : UInt64) : Except Fault UInt64 :=
  if size = 1 then .ok value.toUInt8.toUInt64
  else if size = 2 then .ok value.toUInt16.toUInt64
  else if size = 4 then .ok value.toUInt32.toUInt64
  else if size = 8 then .ok value
  else .error .valueWidth

def ctxKind (ctx : Ctx) (p : Payload) : Except Fault (Option ModifyKind) :=
  match ctx.typeId with
  | .maCmpxchg | .maCmpxchgWeak => do
      let expected ← getCtxVal p.size p.cmp
      let new ← getCtxVal p.size p.val
      .ok (some (.cas ctx.after expected new))
  | .maRmw => do
      let delta ← getCtxVal p.size p.val
      .ok (some (.rmw ctx.after delta p.op))
  | .maXchg => do
      let value ← getCtxVal p.size p.val
      .ok (some (.xchg ctx.after value))
  | .maWrite => .ok (some .write)
  | .maAWrite => do
      let value ← getCtxVal p.size p.val
      .ok (some (.awrite ctx.after value))
  | _ => .ok none

/-- The value that the event is predicted to read: an `AFTER` event has the one of its `BEFORE`
event. -/
def ctxReadValue (mem : Memory) (cas : CasPredictor) (ctx : Ctx) (p : Payload) :
    Except Fault (Option UInt64) :=
  match ctx.typeId with
  | .maRmw | .maCmpxchg | .maCmpxchgWeak | .maXchg =>
      if ctx.after then .ok (getMemoryAccessValue ctx.id cas)
      else do
        let value ← sizedRead mem p.addr p.size.toNat
        .ok (some value)
  | _ => .ok none

def ctxToModify (mem : Memory) (cas : CasPredictor) (ctx : Ctx) :
    Except Fault (Option MemoryAccess) :=
  match ctx.payload with
  | none => .ok none
  | some p =>
      if p.addr = 0 then .ok none
      else do
        let kind ← ctxKind ctx p
        match kind with
        | none => .ok none
        | some kind => do
            let readValue ← ctxReadValue mem cas ctx p
            .ok (some { size := p.size.toUInt8, realAddr := p.addr, kind, readValue })

def CasPredictor.record (cas : CasPredictor) (id : TaskId) : Option MemoryAccess → CasPredictor
  | some ma => { tasks := cas.tasks.insert id ma, rtMap := cas.rtMap.insert id ma }
  | none => { tasks := cas.tasks.erase id, rtMap := cas.rtMap.erase id }

def updateTaskFromCtx (enabled : Bool) (mem : Memory) (ctx : Ctx) (cas : CasPredictor) :
    Except Fault CasPredictor :=
  if enabled then do
    let ma ← ctxToModify mem cas ctx
    .ok (cas.record ctx.id ma)
  else .ok cas

def update (mem : Memory) (cas : CasPredictor) (id : TaskId) (ma : MemoryAccess) :
    Except Fault MemoryAccess :=
  if ma.readValue.isNone then .ok ma
  else if ma.kind.isAfter then .ok { ma with readValue := getMemoryAccessValue id cas }
  else do
    let readValue ← ma.reloadValue mem
    .ok { ma with readValue }

/-- `update` of the entry of a task in one of the tables. -/
def refresh (mem : Memory) (cas : CasPredictor) (id : TaskId)
    (table : AList fun _ : TaskId => MemoryAccess) :
    Except Fault (AList fun _ : TaskId => MemoryAccess) :=
  match table.lookup id with
  | some ma => do
      let ma ← update mem cas id ma
      .ok (table.insert id ma)
  | none => .ok table

def updateMemoryAccess (mem : Memory) (id : TaskId) (cas : CasPredictor) :
    Except Fault CasPredictor := do
  let tasks ← refresh mem cas id cas.tasks
  let cas := { cas with tasks }
  let rtMap ← refresh mem cas id cas.rtMap
  .ok { cas with rtMap }

end Lotto.Rinflex
