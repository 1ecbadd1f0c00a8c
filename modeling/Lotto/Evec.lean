import Lotto.Base
import Lotto.Sequencer
import Lotto.Timeout

namespace Lotto

/-- `enum lotto_timed_wait_status`. -/
inductive TimedWaitStatus where
  | ok | timeout | invalid
  deriving DecidableEq, Repr

structure EvecDeadline where
  deadline : Timespec
  ret : UInt64
  deriving DecidableEq, Repr

structure Evec where
  waiters : Tidset
  deadlines : Map EvecDeadline
  deriving DecidableEq

/-- `struct handler_evec`, with the deadlines of the timeout handler and, newest first, the
statuses stored through the pointers of the timed waits. -/
structure EvecState where
  evecs : Map Evec
  waiters : Tidset
  now : Timespec
  receivedTimeout : Bool
  timeouts : Map Timespec
  stores : List (UInt64 × TimedWaitStatus)
  deriving DecidableEq

def evecStart : EvecState :=
  { evecs := ∅, waiters := .empty, now := ⟨0, 0⟩, receivedTimeout := false, timeouts := ∅
    stores := [] }

inductive EvecEvent where
  | prepare (addr : UInt64)
  | wait (addr : UInt64)
  | timedWait (addr : UInt64) (abstime : Option Timespec) (ret : UInt64)
  | cancel (addr : UInt64)
  | wake (addr : UInt64) (cnt : Nat)
  | move (src dst : UInt64)
  | other
  deriving DecidableEq, Repr

structure EvecCapture where
  id : TaskId
  event : EvecEvent
  deriving DecidableEq, Repr

def evecNew : Evec := { waiters := .empty, deadlines := ∅ }

def evecInit : UInt64 → Map Evec → Evec × Map Evec := findOrInit evecNew

def posthandlePrepare (id : TaskId) (eid : UInt64) (st : EvecState) : Except Fault EvecState := do
  check (!st.waiters.has id) .evecWaiting
  let (evec, evecs) := evecInit eid st.evecs
  .ok { st with evecs := evecs.replace eid { evec with waiters := evec.waiters.insert id } }

def posthandleCancel (id : TaskId) (eid : UInt64) (st : EvecState) : Except Fault EvecState :=
  match st.evecs.lookup eid with
  | none => .ok st
  | some evec => do
      check (!st.waiters.has id) .evecWaiting
      .ok { st with
        evecs := st.evecs.replace eid { evec with waiters := evec.waiters.remove id } }

def handleWait (id : TaskId) (eid : UInt64) (st : EvecState) : Except Fault EvecState :=
  match st.evecs.lookup eid with
  | none => .ok st
  | some evec => do
      check (!st.waiters.has id) .evecWaiting
      if !evec.waiters.has id then .ok st
      else .ok { st with waiters := st.waiters.insert id }

/-- `_handle_timed_wait`. The deadline does not depend on the time that is asked for. -/
def handleTimedWait (id : TaskId) (eid : UInt64) (abstime : Option Timespec) (ret : UInt64)
    (st : EvecState) : Except Fault EvecState :=
  match st.evecs.lookup eid with
  | none => .ok st
  | some evec => do
      check (!st.waiters.has id) .evecWaiting
      if !evec.waiters.has id then .ok st
      else do
        check (evec.deadlines.lookup id).isNone .mapRegistered
        match abstime with
        | none => do
            let timeouts ← handlerTimeoutDeregister id st.timeouts
            .ok { st with stores := (ret, .invalid) :: st.stores, timeouts }
        | some _ => do
            let deadline : Timespec := { st.now with tvSec := st.now.tvSec + 20 }
            let timeouts ← handlerTimeoutRegister id deadline st.timeouts
            .ok { st with
              evecs := st.evecs.replace eid
                { evec with deadlines := evec.deadlines.insert id { deadline, ret } }
              waiters := st.waiters.insert id, timeouts }

/-- The body of the loop of `_posthandle_wake`, for a task of the evec. -/
def wakeTask (next : TaskId) (eid : UInt64) (evec : Evec) (st : EvecState) :
    Except Fault EvecState := do
  check (next != noTask) .evecNextTask
  let waiters := evec.waiters.remove next
  match evec.deadlines.lookup next with
  | some d => do
      let timeouts ← handlerTimeoutDeregister next st.timeouts
      .ok { st with
        evecs := st.evecs.replace eid { waiters, deadlines := evec.deadlines.erase next }
        stores := (d.ret, .invalid) :: st.stores, timeouts, waiters := st.waiters.remove next }
  | none =>
      .ok { st with
        evecs := st.evecs.replace eid { evec with waiters }
        waiters := st.waiters.remove next }

def wakeChoice (random : Nat) (waiters : Tidset) : TaskId := waiters.get (random % waiters.size)

def posthandleWake (eid : UInt64) : Nat → List Nat → EvecState → Except Fault EvecState
  | 0, _, st => .ok st
  | cnt + 1, randoms, st =>
      match st.evecs.lookup eid with
      | none => .ok st
      | some evec =>
          if evec.waiters.size = 0 then .ok st
          else do
            let st ← wakeTask (wakeChoice (randoms.headD 0) evec.waiters) eid evec st
            posthandleWake eid cnt randoms.tail st

def moveDeadline (acc : Map EvecDeadline × Map Timespec)
    (it : Sigma fun _ : UInt64 => EvecDeadline) :
    Except Fault (Map EvecDeadline × Map Timespec) := do
  check (acc.1.lookup it.1).isNone .mapRegistered
  let timeouts ← handlerTimeoutRegister it.1 it.2.deadline acc.2
  .ok (acc.1.insert it.1 it.2, timeouts)

/-- `_posthandle_move`. If both names are of one evec, its waiters are cleared after they have been
added to themselves, its deadlines cannot be registered again, and it is deregistered. -/
def posthandleMove (id : TaskId) (src dst : UInt64) (st : EvecState) : Except Fault EvecState := do
  check (!st.waiters.has id) .evecWaiting
  match st.evecs.lookup src with
  | none => .ok st
  | some esrc =>
      if esrc.waiters.size = 0 then .ok st
      else if src = dst then do
        check (esrc.deadlines.entries.length == 0) .mapRegistered
        .ok { st with evecs := st.evecs.erase src }
      else do
        let (edst, evecs) := evecInit dst st.evecs
        let waiters := esrc.waiters.tasks.foldl Tidset.insert edst.waiters
        check (!waiters.has id) .evecMoveSelf
        let (deadlines, timeouts) ←
          esrc.deadlines.entries.foldlM moveDeadline (edst.deadlines, st.timeouts)
        .ok { st with
          evecs := (evecs.replace dst { waiters, deadlines }).erase src, timeouts }

def deadlineMet (now : Timespec) (d : EvecDeadline) : Bool := timespecCompare d.deadline now ≤ 0

def deregisterDeadline (eid : UInt64) (id : TaskId) (evecs : Map Evec) : Map Evec :=
  match evecs.lookup eid with
  | some evec => evecs.replace eid { evec with deadlines := evec.deadlines.erase id }
  | none => evecs

def releasedTimeouts (shouldPublish : Bool) (id : TaskId) (timeouts : Map Timespec) :
    Except Fault (Map Timespec) :=
  if shouldPublish then handlerTimeoutDeregister id timeouts else .ok timeouts

/-- The release of one task by `_check_timeouts`. The waiters of the evec stay as they are. -/
def expire (shouldPublish : Bool) (eid : UInt64) (st : EvecState)
    (it : Sigma fun _ : UInt64 => EvecDeadline) : Except Fault EvecState := do
  check (st.waiters.has it.1) .evecTimeoutWaiting
  let timeouts ← releasedTimeouts shouldPublish it.1 st.timeouts
  .ok { st with
    evecs := deregisterDeadline eid it.1 st.evecs
    waiters := st.waiters.remove it.1
    stores := (it.2.ret, .timeout) :: st.stores, timeouts }

def metDeadlines (st : EvecState) (eid : UInt64) : List (Sigma fun _ : UInt64 => EvecDeadline) :=
  match st.evecs.lookup eid with
  | some evec => evec.deadlines.entries.filter fun it => deadlineMet st.now it.2
  | none => []

def expireMet (shouldPublish : Bool) (st : EvecState) (eid : UInt64) : Except Fault EvecState :=
  (metDeadlines st eid).foldlM (expire shouldPublish eid) st

def anyMet (st : EvecState) : Bool := st.evecs.keys.any fun eid => !(metDeadlines st eid).isEmpty

def checkTimeouts (shouldPublish : Bool) (st : EvecState) : Except Fault EvecState := do
  let found := anyMet st
  let st ← st.evecs.keys.foldlM (expireMet shouldPublish) st
  check (shouldPublish || found) .evecTimeoutNone
  .ok st

def evecTrigger (id : TaskId) (clock : Timespec) (st : EvecState) : Except Fault EvecState :=
  if st.receivedTimeout || !st.waiters.has id then .ok st
  else checkTimeouts false { st with receivedTimeout := true, now := clock }

def evecSwitch (cp : EvecCapture) (st : EvecState) : Except Fault EvecState :=
  match cp.event with
  | .wait addr => handleWait cp.id addr st
  | .timedWait addr abstime ret => handleTimedWait cp.id addr abstime ret st
  | _ => .ok st

def EvecEvent.mayBlock : EvecEvent → Bool
  | .wait _ | .timedWait _ _ _ => true
  | _ => false

def evecShouldWait : Nat := 4

def evecHandle (cp : EvecCapture) (clock : Timespec) (e : Decision) (st : EvecState) :
    Except Fault (Decision × EvecState) := do
  check (cp.id != noTask) .evecNoTask
  let st ← checkTimeouts true { st with now := clock, receivedTimeout := false }
  let st ← evecSwitch cp st
  let e := { e with
    isChpt := e.isChpt || cp.event != .other, tset := e.tset.subtract st.waiters }
  if cp.event.mayBlock then do
    check (e.anyTaskFilter == none) .evecFilter
    .ok ({ e with anyTaskFilter := some evecShouldWait }, st)
  else .ok (e, st)

def evecResume (cp : EvecCapture) (randoms : List Nat) (st : EvecState) :
    Except Fault EvecState := do
  check (cp.id != noTask) .evecNoTask
  match cp.event with
  | .prepare addr => posthandlePrepare cp.id addr st
  | .cancel addr => posthandleCancel cp.id addr st
  | .wake addr cnt => posthandleWake addr cnt randoms st
  | .move src dst => posthandleMove cp.id src dst st
  | _ => .ok st

/-- What `_publish_evec_timed_wait` puts into the payload before the event is captured. -/
def publishTimedWait (event : EvecEvent) (st : EvecState) : EvecState :=
  match event with
  | .timedWait _ _ ret => { st with stores := (ret, .timeout) :: st.stores }
  | _ => st

def statusAt (ret : UInt64) (st : EvecState) : Option TimedWaitStatus :=
  (st.stores.find? fun store => store.1 == ret).map (·.2)

end Lotto
