import Lotto.Base
import Lotto.Sequencer

namespace Lotto

structure PthreadTask where
  pthread : UInt64
  valuePtr : UInt64
  waiters : Tidset
  terminated : Bool
  detached : Bool
  deriving DecidableEq, Repr

structure Waitee where
  waitee : TaskId
  valuePtr : UInt64
  ret : UInt64
  deriving DecidableEq, Repr

structure JoinState where
  pthreads : Map PthreadTask
  tasks : Map TaskId
  waitees : Map Waitee
  deriving DecidableEq

def joinStart : JoinState := { pthreads := ∅, tasks := ∅, waitees := ∅ }

inductive JoinWrite where
  | ret (addr : UInt64) (code : Nat)
  | value (addr : UInt64) (value : UInt64)
  deriving DecidableEq, Repr

/-- The events of the handler with the fields it reads of their payloads; `payload` is the
exit value of a task that returns one. -/
inductive JoinEvent where
  | init (thread : UInt64) (detached : Bool)
  | join (thread : UInt64) (ptr : UInt64) (ret : UInt64)
  | detach (thread : UInt64) (ret : UInt64)
  | fini (payload : Option UInt64)
  | other
  deriving DecidableEq, Repr

structure JoinCapture where
  id : TaskId
  event : JoinEvent
  deriving DecidableEq, Repr

/-- `_init`. A pthread id that is still registered is taken over. -/
def joinInit (tid : TaskId) (pthread : UInt64) (detached : Bool) (st : JoinState) :
    Except Fault JoinState := do
  check (st.pthreads.lookup tid).isNone .mapRegistered
  let pt : PthreadTask :=
    { pthread, valuePtr := 0, waiters := .empty, terminated := false, detached }
  let (_, tasks) := findOrInit tid pthread st.tasks
  .ok { st with pthreads := st.pthreads.insert tid pt, tasks := tasks.replace pthread tid }

/-- The `while (1)` loop of `_join`, for at most `fuel` rounds: whether it ends with `EDEADLK`. -/
def joinWalk (waitees : Map Waitee) (tid : TaskId) : Nat → TaskId → Except Fault Bool
  | 0, _ => .error .joinLoop
  | fuel + 1, waiteei =>
      if waiteei = tid then .ok true
      else do
        check (waiteei != noTask) .tidmapNoTask
        match waitees.lookup waiteei with
        | none => .ok false
        | some wee => joinWalk waitees tid fuel wee.waitee

/-- Deregistering the task of a pthread id if the tid still matches. A null `t` is read. -/
def dropTask (t : Option TaskId) (tid : TaskId) (pthread : UInt64) (tasks : Map TaskId) :
    Except Fault (Map TaskId) :=
  match t with
  | none => .error .joinNullTask
  | some owner =>
      if owner = tid then do
        check (pthread != noTask) .tidmapNoTask
        .ok (tasks.erase pthread)
      else .ok tasks

def joinResult (valuePtr ret value : UInt64) : List JoinWrite :=
  (if valuePtr ≠ 0 then [.value valuePtr value] else []) ++ [.ret ret 0]

def join (tid : TaskId) (pthread valuePtr ret : UInt64) (st : JoinState) :
    Except Fault (List JoinWrite × JoinState) :=
  match st.tasks.lookup pthread with
  | none => .ok ([.ret ret eSrch], st)
  | some waitee => do
      let deadlock ← joinWalk st.waitees tid (st.waitees.keys.length + 1) waitee
      if deadlock then .ok ([.ret ret eDeadlk], st)
      else
        match st.pthreads.lookup waitee with
        | none => .error .joinUnknown
        | some pt =>
            if pt.terminated then do
              let tasks ← dropTask (some waitee) tid pthread st.tasks
              .ok (joinResult valuePtr ret pt.valuePtr,
                { st with pthreads := st.pthreads.erase waitee, tasks })
            else do
              check (st.waitees.lookup tid).isNone .mapRegistered
              .ok ([], { st with
                pthreads := st.pthreads.replace waitee { pt with waiters := pt.waiters.insert tid }
                waitees := st.waitees.insert tid { waitee, valuePtr, ret } })

def joinTexit (tid : TaskId) (valuePtr : UInt64) (st : JoinState) : Except Fault JoinState :=
  match st.pthreads.lookup tid with
  | none => .error .joinExitUnknown
  | some pt => do
      check (pt.valuePtr == 0) .joinExitTwice
      .ok { st with pthreads := st.pthreads.replace tid { pt with valuePtr } }

def releaseStep (value : UInt64) (acc : List JoinWrite × Map Waitee) (waiter : TaskId) :
    Except Fault (List JoinWrite × Map Waitee) := do
  check (waiter != noTask) .tidmapNoTask
  match acc.2.lookup waiter with
  | none => .error .joinFiniWaitee
  | some wee => .ok (acc.1 ++ joinResult wee.valuePtr wee.ret value, acc.2.erase waiter)

def releaseWaiters (value : UInt64) (waiters : List TaskId) (waitees : Map Waitee) :
    Except Fault (List JoinWrite × Map Waitee) :=
  waiters.foldlM (releaseStep value) ([], waitees)

def joinFini (tid : TaskId) (st : JoinState) : Except Fault (List JoinWrite × JoinState) :=
  match st.pthreads.lookup tid with
  | none => .error .joinFiniUnknown
  | some pt =>
      let t := st.tasks.lookup pt.pthread
      if pt.detached then do
        let tasks ← dropTask t tid pt.pthread st.tasks
        .ok ([], { st with pthreads := st.pthreads.erase tid, tasks })
      else if pt.waiters.size = 0 then
        .ok ([], { st with pthreads := st.pthreads.replace tid { pt with terminated := true } })
      else do
        let (writes, waitees) ← releaseWaiters pt.valuePtr pt.waiters.tasks st.waitees
        let tasks ← dropTask t tid pt.pthread st.tasks
        .ok (writes, { pthreads := st.pthreads.erase tid, tasks, waitees })

def joinDetach (pthread ret : UInt64) (st : JoinState) : Except Fault (List JoinWrite × JoinState) :=
  match st.tasks.lookup pthread with
  | none => .ok ([.ret ret eSrch], st)
  | some id =>
      match st.pthreads.lookup id with
      | none => .error .joinDetachUnknown
      | some p =>
          if p.detached then .ok ([.ret ret eInval], st)
          else do
            check (st.waitees.lookup id).isNone .joinDetachWaits
            .ok ([.ret ret 0],
              { st with pthreads := st.pthreads.replace id { p with detached := true } })

def joinEvent (cp : JoinCapture) (st : JoinState) : Except Fault (List JoinWrite × JoinState) :=
  match cp.event with
  | .init thread detached => do
      let st ← joinInit cp.id thread detached st
      .ok ([], st)
  | .join thread ptr ret => join cp.id thread ptr ret st
  | .detach thread ret => joinDetach thread ret st
  | .fini none => joinFini cp.id st
  | .fini (some ptr) => do
      let st ← joinTexit cp.id ptr st
      joinFini cp.id st
  | .other => .ok ([], st)

def joinShouldWait : Nat := 3

def joinFilter (id : TaskId) (e : Decision) (st : JoinState) : Except Fault Decision :=
  if e.skip then .ok e
  else do
    check (!e.tset.has noTask) .tidmapNoTask
    let e := { e with tset := e.tset.filter fun task => (st.waitees.lookup task).isNone }
    if (st.waitees.lookup id).isSome then do
      check (e.anyTaskFilter == none) .joinFilter
      .ok { e with isChpt := true, anyTaskFilter := some joinShouldWait }
    else .ok e

def joinHandle (cp : JoinCapture) (e : Decision) (st : JoinState) :
    Except Fault (List JoinWrite × Decision × JoinState) := do
  check (cp.id != noTask) .joinNoTask
  let (writes, st) ← joinEvent cp st
  let e ← joinFilter cp.id e st
  .ok (writes, e, st)

end Lotto
