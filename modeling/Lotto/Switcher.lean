import Mathlib.Logic.Function.Basic
import Lotto.Base

namespace Lotto

inductive SwitcherStatus where
  | cont | changed | aborted
  deriving DecidableEq, Repr

structure Switcher where
  counter : Int → Int
  next : TaskId
  prev : TaskId
  status : SwitcherStatus
  slack : Nat

def switcherInit : Switcher :=
  { counter := fun _ => 0, next := noTask, prev := noTask, status := .cont, slack := 0 }

/-- `LOTTO_SWITCHER_NBUCKETS`. -/
def nBuckets : Nat := 128

/-- The bucket of `switcher_yield`, `(int)(id % LOTTO_SWITCHER_NBUCKETS)`. -/
def yieldBucket (id : TaskId) : Int := (id.toNat % nBuckets : Nat)

/-- The bucket of `switcher_wake`, `(int)id % LOTTO_SWITCHER_NBUCKETS`. -/
def wakeBucket (id : TaskId) : Int := id.toUInt32.toInt32.toInt.tmod nBuckets

/-- The beginning of `switcher_yield`. The task it stores in `next` when there is slack is
overwritten before it is read. -/
def yieldEnter (id : TaskId) (sw : Switcher) : Switcher :=
  { sw with counter := Function.update sw.counter (yieldBucket id) (sw.counter (yieldBucket id) + 1) }

/-- The condition of the loop of `switcher_yield`; `wait` is what the filter says, false without
one. -/
def yieldWaits (id : TaskId) (wait : Bool) (sw : Switcher) : Bool :=
  sw.next != id && sw.status != .aborted && (sw.next != anyTask || wait)

def yieldExit (id : TaskId) (sw : Switcher) : SwitcherStatus × Switcher :=
  let next := sw.next
  let sw := { sw with
    next := noTask
    counter := Function.update sw.counter (yieldBucket id) (sw.counter (yieldBucket id) - 1) }
  if sw.status = .aborted then (.aborted, sw)
  else
    let status := if sw.prev ≠ id ∨ next = anyTask then .changed else .cont
    (status, { sw with prev := id, slack := 0, status })

def switcherWake (id : TaskId) (slack : Nat) (sw : Switcher) : Except Fault (List Int × Switcher) := do
  check (sw.next == noTask) .switcherNext
  check (id != noTask) .switcherNoTask
  let signals :=
    if id = anyTask then ((List.range nBuckets).map Int.ofNat).filter fun i => 0 < sw.counter i
    else [wakeBucket id]
  .ok (signals, { sw with next := id, slack })

end Lotto
