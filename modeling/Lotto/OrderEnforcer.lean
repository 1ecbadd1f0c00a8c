import Mathlib.Data.List.Sort
import Lotto.EventHandler
import Lotto.Sequencer

namespace Lotto.Rinflex

open Library.FaultRun

structure Constraint where
  source : Event
  target : Event
  deriving DecidableEq, Repr

structure OrderEnforcer where
  constraints : List Constraint
  shouldDiscard : Bool
  block : AList fun _ : TaskId => Nat
  shutdown : Bool
  /-- The largest clock that the run may reach, none for infinity. -/
  maxClock : Option Nat
  prevAnyTaskFilter : AList fun _ : TaskId => Nat
  deriving DecidableEq

def shouldWait : Nat := 0

def OrderEnforcer.discard (o : OrderEnforcer) : OrderEnforcer :=
  { o with shouldDiscard := true, shutdown := true }

structure Handlers where
  cas : CasPredictor
  event : EventHandler
  order : OrderEnforcer
  deriving DecidableEq

def shouldBlock (cur : Event) (c : Constraint) : Bool :=
  if cur.t = c.target.t then
    if c.source.cnt = 0 || c.target.cnt != 1 then false else c.target.equals cur
  else false

def blockFor (id : TaskId) (e : Event) (block : AList fun _ : TaskId => Nat) (c : Constraint) :
    AList fun _ : TaskId => Nat :=
  if shouldBlock e c then block.insert id ((block.lookup id).elim 1 (· + 1)) else block

def evaluate (mem : Memory) (h : Handlers) (id : TaskId) : Except Fault Handlers :=
  if id ∈ h.order.block then .ok h
  else do
    let updated ← updateEvent mem id h.cas h.event
    let e ← getRtEvent id updated.1 updated.2
    match e with
    | none => .error .enforcerNoEvent
    | some e =>
        .ok { cas := updated.1
              event := updated.2
              order := { h.order with
                block := h.order.constraints.foldl (blockFor id e) h.order.block } }

def waitFilter (ctx : Ctx) (cappt : Decision) (o : OrderEnforcer) : Decision × OrderEnforcer :=
  if ctx.id ∈ o.block then
    ({ cappt with anyTaskFilter := some shouldWait },
      { o with
        prevAnyTaskFilter := cappt.anyTaskFilter.elim (o.prevAnyTaskFilter.erase ctx.id)
          (o.prevAnyTaskFilter.insert ctx.id) })
  else (cappt, o)

def orderHandle (mem : Memory) (ctx : Ctx) (cappt : Decision) (h : Handlers) :
    Except Fault (Decision × Handlers) :=
  if h.order.maxClock.elim false (fun max => decide (max < cappt.clk)) then
    .ok ({ cappt with reason := .ignore }, { h with order := { h.order with shutdown := true } })
  else if ctx.typeId = .any || h.order.constraints.length = 0 then .ok (cappt, h)
  else if cappt.reason.isShutdown then
    .ok (cappt, { h with order := { h.order with shutdown := true } })
  else if h.order.shouldDiscard then
    .ok ({ cappt with reason := .ignore }, { h with order := { h.order with shutdown := true } })
  -- the source of a constraint can no longer happen once its task exits
  else if ctx.typeId = .taskFini &&
      h.order.constraints.any (fun c => decide (0 < c.source.cnt) && c.source.t.id == ctx.id) then
    .ok (cappt, { h with order := h.order.discard })
  else do
    let h ← cappt.tset.tasks.foldlM (evaluate mem) h
    -- `block` is a map with sorted keys
    let blocked := h.order.block.keys.insertionSort (· ≤ ·)
    let cappt := { cappt with tset := blocked.foldl Tidset.remove cappt.tset }
    let filtered := waitFilter ctx cappt h.order
    .ok (filtered.1, { h with order := filtered.2 })

def decrement (cnt : Nat) : Except Fault Nat := do
  check (decide (0 < cnt)) .enforcerUnderflow
  .ok (cnt - 1)

def unblock (id : TaskId) (block : AList fun _ : TaskId => Nat) :
    Except Fault (AList fun _ : TaskId => Nat) :=
  match block.lookup id with
  | none => .ok block
  | some bcnt => do
      check (decide (0 < bcnt)) .enforcerBlockCount
      let bcnt ← decrement bcnt
      if bcnt = 0 then .ok (block.erase id) else .ok (block.insert id bcnt)

def settle (last : Event) (c : Constraint) (block : AList fun _ : TaskId => Nat) :
    Except Fault (Constraint × AList fun _ : TaskId => Nat) :=
  if c.target.equals last && decide (0 < c.target.cnt) then do
    let cnt ← decrement c.target.cnt
    .ok ({ c with target := { c.target with cnt } }, block)
  else if c.source.equals last && decide (0 < c.source.cnt) then do
    let cnt ← decrement c.source.cnt
    let c := { c with source := { c.source with cnt } }
    if 0 < cnt then .ok (c, block)
    else do
      let block ← unblock c.target.t.id block
      .ok (c, block)
  else .ok (c, block)

def settleAll (last : Event) :
    List Constraint → (AList fun _ : TaskId => Nat) →
      Except Fault (List Constraint × AList fun _ : TaskId => Nat)
  | [], block => .ok ([], block)
  | c :: cs, block => do
      let settled ← settle last c block
      let rest ← settleAll last cs settled.2
      .ok (settled.1 :: rest.1, rest.2)

def orderPosthandle (ctx : Ctx) (event : EventHandler) (o : OrderEnforcer) :
    Except Fault OrderEnforcer :=
  if o.shutdown || ctx.typeId = .any || o.constraints.isEmpty then .ok o
  else if ctx.id ∈ o.block then .ok o.discard
  else
    match getEvent ctx.id event with
    | none => .ok o
    | some last => do
        let settled ← settleAll last o.constraints o.block
        .ok { o with constraints := settled.1, block := settled.2 }

end Lotto.Rinflex
