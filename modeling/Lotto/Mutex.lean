import Lotto.Base
import Lotto.Sequencer

namespace Lotto

structure Mtx where
  waiters : Tidset
  owner : TaskId
  count : Int
  deriving DecidableEq, Repr

structure MutexState where
  mutexes : Map Mtx
  waiters : Tidset
  deriving DecidableEq

def mutexStart : MutexState := { mutexes := ∅, waiters := .empty }

structure MutexConfig where
  strict : Bool
  deadlockCheck : Bool
  deriving DecidableEq, Repr

def mtxInit : Mtx := { waiters := .empty, owner := noTask, count := 0 }

def mutexInit : UInt64 → Map Mtx → Mtx × Map Mtx := findOrInit mtxInit

def checkDeadlock (st : MutexState) : Nat → TaskId → UInt64 → TaskId → Except Fault Bool
  | 0, _, _, _ => .error .mutexDeadlockSearch
  | fuel + 1, waiter, key, cycle => do
      check (waiter != noTask) .mutexDeadlockSearch
      if cycle = waiter then .ok true
      else
        match st.mutexes.lookup key with
        | none => .error .mutexDeadlockSearch
        | some mtx => do
            check (mtx.owner != noTask) .mutexDeadlockSearch
            check (mtx.owner != waiter) .mutexDeadlockSearch
            if !st.waiters.has mtx.owner then .ok false
            else
              match st.mutexes.entries.find? (fun it => it.2.waiters.has mtx.owner) with
              | none => .error .mutexDeadlockSearch
              | some it => checkDeadlock st fuel mtx.owner it.1 (if cycle = noTask then waiter else cycle)

/-- `_remove_waiters`: the task set without the waiters of owned mutexes, and whether the task
is one of these waiters. -/
def removeWaiters (mutexes : Map Mtx) (self : TaskId) (tset : Tidset) : Tidset × Bool :=
  mutexes.entries.foldl (fun (tset, shouldWait) it =>
    if it.2.owner = noTask then (tset, shouldWait)
    else (tset.subtract it.2.waiters, shouldWait || it.2.waiters.has self)) (tset, false)

def MutexState.shouldWait (st : MutexState) (id : TaskId) : Bool :=
  st.mutexes.entries.any fun it => it.2.owner != noTask && it.2.waiters.has id

def posthandleTryacquire (id : TaskId) (addr : UInt64) (st : MutexState) :
    Except Fault (Nat × MutexState) := do
  check (!st.waiters.has id) .mutexWaiting
  let (mtx, mutexes) := mutexInit addr st.mutexes
  if mtx.owner = noTask then do
    check (mtx.count == 0) .mutexCount
    .ok (0, { st with mutexes := mutexes.replace addr { mtx with owner := id, count := mtx.count + 1 } })
  else if mtx.owner = id then
    .ok (0, { st with mutexes := mutexes.replace addr { mtx with count := mtx.count + 1 } })
  else .ok (eBusy, { st with mutexes })

def handleAcquire (id : TaskId) (addr : UInt64) (st : MutexState) : Except Fault MutexState := do
  check (!st.waiters.has id) .mutexWaiting
  let (mtx, mutexes) := mutexInit addr st.mutexes
  if mtx.owner = id then .ok { st with mutexes }
  else do
    check (!mtx.waiters.has id) .mutexWaiterInsert
    .ok { st with mutexes := mutexes.replace addr { mtx with waiters := mtx.waiters.insert id } }

def takeFree (id : TaskId) (mtx : Mtx) : Except Fault Mtx :=
  if mtx.owner = noTask then do
    check (mtx.count == 0) .mutexCount
    check (mtx.waiters.has id) .mutexWaiterRemove
    .ok { mtx with owner := id, waiters := mtx.waiters.remove id }
  else .ok mtx

def posthandleAcquire (id : TaskId) (addr : UInt64) (st : MutexState) :
    Except Fault MutexState := do
  check (!st.waiters.has id) .mutexWaiting
  let (mtx, mutexes) := mutexInit addr st.mutexes
  let mtx ← takeFree id mtx
  check (mtx.owner == id) .mutexDisrespected
  .ok { st with mutexes := mutexes.replace addr { mtx with count := mtx.count + 1 } }

def posthandleRelease (config : MutexConfig) (addr : UInt64) (st : MutexState) :
    Except Fault MutexState :=
  match st.mutexes.lookup addr with
  | none => do
      check (!config.strict) .mutexStrict
      .ok st
  | some mtx => do
      check (0 < mtx.count) .mutexReleaseCount
      if 0 < mtx.count - 1 then
        .ok { st with mutexes := st.mutexes.replace addr { mtx with count := mtx.count - 1 } }
      else if mtx.waiters.size = 0 then .ok { st with mutexes := st.mutexes.erase addr }
      else .ok { st with
        mutexes := st.mutexes.replace addr { mtx with count := mtx.count - 1, owner := noTask } }

def strictCheckRelease (config : MutexConfig) (addr : UInt64) (st : MutexState) :
    Except Fault Unit :=
  check (!config.strict || (st.mutexes.lookup addr).isSome) .mutexStrict

def isMutexEvent (ty : TypeId) : Bool :=
  ty == eventMutexAcquire || ty == eventMutexTryacquire || ty == eventMutexRelease

def mutexEventAddr (cp : CapturePoint) : Except Fault UInt64 := do
  check (isMutexEvent cp.typeId) .mutexEventAddr
  .ok cp.payloadAddr

/-- The mutex handler's `_should_wait` as the any-task filter of a decision. -/
def mutexShouldWait : Nat := 1

def mutexSwitch (cp : CapturePoint) (e : Decision) (st : MutexState) :
    Except Fault (Decision × MutexState) :=
  if cp.typeId = eventMutexAcquire then do
    let st ← handleAcquire cp.id cp.payloadAddr st
    check (e.anyTaskFilter == none) .mutexFilter
    .ok ({ e with anyTaskFilter := some mutexShouldWait, isChpt := true }, st)
  else if cp.typeId = eventMutexTryacquire ∨ cp.typeId = eventMutexRelease then
    .ok ({ e with isChpt := true }, st)
  else .ok (e, st)

def checkRelease (config : MutexConfig) (cp : CapturePoint) (st : MutexState) : Except Fault Unit :=
  if cp.typeId = eventMutexRelease then strictCheckRelease config cp.payloadAddr st else .ok ()

def mutexDeadlocked (config : MutexConfig) (cp : CapturePoint) (shouldWait : Bool)
    (st : MutexState) : Except Fault Bool :=
  if cp.typeId ≠ 0 ∧ shouldWait ∧ config.deadlockCheck then do
    let addr ← mutexEventAddr cp
    checkDeadlock st (st.mutexes.entries.length + 1) cp.id addr noTask
  else .ok false

def mutexHandle (config : MutexConfig) (cp : CapturePoint) (e : Decision) (st : MutexState) :
    Except Fault (Decision × MutexState) :=
  if e.skip then .ok (e, st)
  else do
    check (cp.id != noTask) .mutexNoTask
    let (e, st) ← mutexSwitch cp e st
    let (tset, shouldWait) := removeWaiters st.mutexes cp.id e.tset
    checkRelease config cp st
    let deadlock ← mutexDeadlocked config cp shouldWait st
    .ok ({ e with tset, reason := if deadlock then .rsrcDeadlock else e.reason }, st)

/-- The subscriber of CHAIN_SEQUENCER_RESUME. The result of a try-acquire goes to the payload. -/
def mutexResume (config : MutexConfig) (cp : CapturePoint) (st : MutexState) :
    Except Fault MutexState :=
  if cp.typeId = eventMutexAcquire then posthandleAcquire cp.id cp.payloadAddr st
  else if cp.typeId = eventMutexTryacquire then
    (posthandleTryacquire cp.id cp.payloadAddr st).map Prod.snd
  else if cp.typeId = eventMutexRelease then posthandleRelease config cp.payloadAddr st
  else .ok st

end Lotto
