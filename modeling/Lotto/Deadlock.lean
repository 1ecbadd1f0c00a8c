import Mathlib.Algebra.Ring.Nat
import Lotto.Library.SwapList
import Lotto.Base
import Lotto.Sequencer

namespace Lotto

open Library.SwapList

structure Rsrc where
  tasks : List TaskId
  owner : TaskId
  deriving DecidableEq, Repr

/-- `struct handler_deadlock`. -/
structure DeadlockState where
  resources : Map Rsrc
  lost : Map Rsrc
  deriving DecidableEq

def deadlockStart : DeadlockState := { resources := ∅, lost := ∅ }

structure DeadlockConfig where
  enabled : Bool
  extraReleaseCheck : Bool
  lostResourceCheck : Bool
  deriving DecidableEq, Repr

def rsrcInit (addr : UInt64) (resources : Map Rsrc) : Rsrc × Map Rsrc :=
  findOrInit { tasks := [], owner := noTask } addr resources

def acquiring (mutexOwner : UInt64 → TaskId) (id : TaskId) (addr : UInt64) (st : DeadlockState) :
    DeadlockState :=
  let (rsrc, resources) := rsrcInit addr st.resources
  { st with resources :=
      resources.replace addr { tasks := rsrc.tasks ++ [id], owner := mutexOwner addr } }

def released (config : DeadlockConfig) (mutexOwner : UInt64 → TaskId) (id : TaskId)
    (addr : UInt64) (st : DeadlockState) : Bool × DeadlockState :=
  match st.resources.lookup addr with
  | none => (!config.extraReleaseCheck, st)
  | some rsrc =>
      let tasks := swapErase id rsrc.tasks
      if tasks.length = 0 then (true, { st with resources := st.resources.erase addr })
      else (true, { st with
        resources := st.resources.replace addr { tasks, owner := mutexOwner addr } })

/-- The search of one task's other resources: each one is tried with the task taken out of it,
and the task is put back at the end of the bag. `iter` is the recursive call. -/
def searchResources (iter : UInt64 → Map Rsrc → Except Fault (Bool × Map Rsrc)) (cur : TaskId) :
    List UInt64 → Map Rsrc → Except Fault (Bool × Map Rsrc)
  | [], resources => .ok (false, resources)
  | key :: keys, resources =>
      match resources.lookup key with
      | none => searchResources iter cur keys resources
      | some it =>
          if cur ∈ it.tasks then do
            let taken := resources.replace key { it with tasks := swapErase cur it.tasks }
            let (res, resources) ← iter key taken
            let resources := match resources.lookup key with
              | some it => resources.replace key { it with tasks := it.tasks ++ [cur] }
              | none => resources
            if res then .ok (true, resources) else searchResources iter cur keys resources
          else searchResources iter cur keys resources

def searchTasks (search : TaskId → Map Rsrc → Except Fault (Bool × Map Rsrc)) (tid : TaskId)
    (key : UInt64) : List Nat → Map Rsrc → Except Fault (Bool × Map Rsrc)
  | [], resources => .ok (false, resources)
  | idx :: rest, resources =>
      let cur := ((resources.lookup key).elim [] (·.tasks)).getD idx noTask
      if cur = tid then searchTasks search tid key rest resources
      else do
        let (res, resources) ← search cur resources
        if res then .ok (true, resources) else searchTasks search tid key rest resources

/-- `_check_deadlock_iter`, to a bounded depth. The inner loops put back what they take, so the
size of a bag and the keys are those at the start. -/
def checkDeadlockIter : Nat → TaskId → UInt64 → TaskId → Map Rsrc → Except Fault (Bool × Map Rsrc)
  | 0, _, _, _, _ => .error .deadlockSearch
  | fuel + 1, tid, key, cycle, resources =>
      if tid = noTask then .ok (false, resources)
      else if cycle = tid then .ok (true, resources)
      else
        match resources.lookup key with
        | none => .ok (false, resources)
        | some rsrc =>
            if rsrc.tasks.all (· == tid) then .ok (false, resources)
            else searchTasks (fun cur resources =>
              searchResources (fun other taken =>
                checkDeadlockIter fuel cur other (if cycle = noTask then tid else cycle) taken)
                cur resources.keys resources) tid key (List.range rsrc.tasks.length) resources

def bagEntries (resources : Map Rsrc) : Nat :=
  (resources.keys.map fun key => ((resources.lookup key).elim [] (·.tasks)).length).sum

/-- `_check_deadlock`. Every level of the search takes an entry out of a bag. -/
def checkRsrcDeadlock (tid : TaskId) (key : UInt64) (st : DeadlockState) :
    Except Fault (Bool × DeadlockState) := do
  let (res, resources) ←
    checkDeadlockIter (bagEntries st.resources + 1) tid key noTask st.resources
  .ok (res, { st with resources })

def isLost (addr : UInt64) (st : DeadlockState) : Bool := (st.lost.lookup addr).isSome

def markLostStep (config : DeadlockConfig) (id : TaskId) (acc : Bool × DeadlockState)
    (addr : UInt64) : Bool × DeadlockState :=
  match acc.2.resources.lookup addr with
  | none => acc
  | some it =>
      if id ∈ it.tasks then
        let tasks := swapErase id it.tasks
        let (rsrc, lost) := rsrcInit addr acc.2.lost
        (decide (0 < tasks.length) || config.lostResourceCheck,
          { resources := acc.2.resources.replace addr { it with tasks }
            lost := lost.replace addr { rsrc with tasks := rsrc.tasks ++ [id] } })
      else acc

def markLost (config : DeadlockConfig) (id : TaskId) (st : DeadlockState) : Bool × DeadlockState :=
  st.resources.keys.foldl (markLostStep config id) (false, st)

def flagDeadlock (deadlock : Bool) (e : Decision) : Decision :=
  if deadlock then { e with reason := .rsrcDeadlock } else e

/-- The switch over the event type. `ret` is the result in the payload of a try-acquire. -/
def deadlockSwitch (config : DeadlockConfig) (mutexOwner : UInt64 → TaskId) (ret : Nat)
    (tid : TaskId) (cp : CapturePoint) (e : Decision) (st : DeadlockState) :
    Except Fault (Decision × DeadlockState) :=
  let addr := cp.payloadAddr
  if cp.typeId = eventMutexAcquire then do
    let (deadlock, st) ← checkRsrcDeadlock tid addr st
    .ok (flagDeadlock (deadlock || isLost addr st) e, acquiring mutexOwner tid addr st)
  else if cp.typeId = eventMutexTryacquire then
    .ok (flagDeadlock (isLost addr st) e, if ret = 0 then acquiring mutexOwner tid addr st else st)
  else if cp.typeId = eventDeadlockRsrcAcquiring then do
    let (deadlock, st) ← checkRsrcDeadlock tid addr st
    .ok (flagDeadlock (deadlock || isLost addr st) e, st)
  else if cp.typeId = eventMutexRelease ∨ cp.typeId = eventDeadlockRsrcReleased then
    let (ok, st) := released config mutexOwner tid addr st
    .ok (flagDeadlock (!ok) e, st)
  else if cp.typeId = eventTaskFini then
    let (lost, st) := markLost config tid st
    .ok (flagDeadlock lost e, st)
  else .ok (e, st)

def deadlockHandle (config : DeadlockConfig) (mutexOwner : UInt64 → TaskId) (vid : TaskId)
    (ret : Nat) (cp : CapturePoint) (e : Decision) (st : DeadlockState) :
    Except Fault (Decision × DeadlockState) :=
  if e.skip || !config.enabled then .ok (e, st)
  else if vid = anyTask then .ok (e, st)
  else do
    let tid := if vid ≠ noTask then vid else cp.id
    check (tid != noTask) .deadlockNoTask
    deadlockSwitch config mutexOwner ret tid cp e st

end Lotto
