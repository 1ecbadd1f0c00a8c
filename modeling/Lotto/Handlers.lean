import Lotto.Sequencer

namespace Lotto

structure TaskState where
  registered : Tidset
  lastParent : TaskId
  deriving DecidableEq, Repr

def taskInit : TaskState := { registered := .empty, lastParent := 1 }

def creationSwitch (cp : CapturePoint) (e : Decision) (st : TaskState) :
    Except Fault (Decision × TaskState) :=
  if cp.typeId = eventTaskCreate then
    .ok ({ e with next := anyTask, isChpt := true, readonly := true },
      { st with lastParent := cp.id })
  else if cp.typeId = eventTaskInit then do
    check (!st.registered.has cp.id) .taskReregistered
    .ok ({ e with reason := .deterministic, isChpt := true, next := st.lastParent },
      { st with registered := st.registered.insert cp.id })
  else if cp.typeId = eventTaskFini then do
    check (st.registered.has cp.id) .taskUnregistered
    .ok ({ e with isChpt := true }, { st with registered := st.registered.remove cp.id })
  else .ok (e, { st with registered := st.registered.insert cp.id })

def handleCreation (cp : CapturePoint) (e : Decision) (st : TaskState) :
    Except Fault (Decision × TaskState) := do
  check (cp.id != noTask) .creationNoTask
  check (!e.isChpt) .creationIsChpt
  check (e.tset.size == 0) .creationTset
  let (e, st) ← creationSwitch cp e st
  .ok ({ e with tset := st.registered }, st)

structure Blocking where
  blockedActual : Tidset
  blockedReplay : Tidset
  prev : TaskId
  replaying : Bool
  consumed : Bool
  deriving DecidableEq, Repr

def blockingInit : Blocking :=
  { blockedActual := .empty, blockedReplay := .empty, prev := noTask, replaying := false,
    consumed := false }

def blockedTasks (replay : Bool) (st : Blocking) : Tidset :=
  if replay then st.blockedReplay else st.blockedActual

def blocks (cp : CapturePoint) : Bool := cp.blocking && cp.typeId != eventTaskCreate

/-- The 'handle replay' part of `_blocking_handle`, with the new value of `returned_tasks()`. -/
def updateReturned (cp : CapturePoint) (e : Decision) (st : Blocking) (returned : Tidset) :
    Blocking × Tidset :=
  if e.replay then
    if st.consumed then
      ({ st with replaying := true, blockedReplay := st.blockedReplay.remove cp.id }, .empty)
    else
      ({ st with
          replaying := true, consumed := true
          blockedReplay := (st.blockedReplay.subtract returned).remove cp.id }, returned)
  else if st.replaying then
    ({ st with replaying := false, blockedActual := st.blockedActual.intersect st.blockedReplay },
      st.blockedReplay.subtract st.blockedActual)
  else (st, e.unblocked)

def returnedOthers (cp : CapturePoint) (returned : Tidset) : Bool :=
  0 < returned.size && !(returned.size == 1 && returned.has cp.id)

def blockCurrent (cp : CapturePoint) (e : Decision) (st : Blocking) :
    Except Fault (Decision × Blocking) :=
  if blocks cp then do
    check (!e.isChpt) .blockingIsChpt
    check (!st.blockedActual.has cp.id) .blockingAlreadyBlocked
    .ok ({ e with reason := .blocking, isChpt := true },
      { st with
        blockedActual := st.blockedActual.insert cp.id
        blockedReplay :=
          if e.replay then st.blockedReplay.insert cp.id else st.blockedReplay })
  else .ok (e, st)

def blockingHandle (cp : CapturePoint) (e : Decision) (st : Blocking) (returned : Tidset) :
    Except Fault (Decision × Blocking × Tidset) := do
  check (cp.id != noTask) .blockingNoTask
  let st := { st with blockedActual := st.blockedActual.subtract e.unblocked }
  let (st, returned) := updateReturned cp e st returned
  let e := { e with shouldRecord := e.shouldRecord || returnedOthers cp returned }
  let (e, st) ← blockCurrent cp e st
  let st := { st with prev := cp.id }
  if e.skip then .ok (e, st, returned)
  else .ok ({ e with tset := e.tset.subtract (blockedTasks e.replay st) }, st, returned)

/-- The registered module state: the task registry, the blocking handler with its PERSISTENT
`_returned`, and the state `N` of all other modules. -/
structure ModuleState (N : Type) where
  task : TaskState
  blocking : Blocking
  returned : Tidset
  others : N

variable {N P : Type}

def moduleInit (others : N) : ModuleState N :=
  { task := taskInit, blocking := blockingInit, returned := .empty, others }

/-- The state manager with the blocking module beside the `others`. Unmarshalling PERSISTENT
state publishes the event at which the blocking handler resets `consumed`. -/
def withBlocking (others : Modules N P) : Modules (ModuleState N) (Tidset × P) where
  config m := others.config m.others
  marshal ty m :=
    (if ty = .persistent then m.returned else .empty, others.marshal ty m.others)
  unmarshal ty data m :=
    if ty = .persistent then
      { m with
        returned := data.1, blocking := { m.blocking with consumed := false }
        others := others.unmarshal ty data.2 m.others }
    else { m with others := others.unmarshal ty data.2 m.others }
  config_persistent data m := others.config_persistent data.2 m.others

/-- A handler of another module on CHAIN_SEQUENCER_CAPTURE. -/
abbrev Handler (N : Type) := CapturePoint → Decision → ModuleState N → Except Fault (Decision × N)

def runHandlers (handlers : List (Handler N)) (cp : CapturePoint) (e : Decision)
    (m : ModuleState N) : Except Fault (Decision × ModuleState N) :=
  handlers.foldlM (fun (e, m) handler => do
    let (e, others) ← handler cp e m
    .ok (e, { m with others })) (e, m)

/-- `handle_creation`, `_blocking_handle` and the handlers behind it. -/
def captureHandlers (handlers : List (Handler N)) (cp : CapturePoint) (e : Decision)
    (m : ModuleState N) : Except Fault (Decision × ModuleState N) := do
  let (e, task) ← handleCreation cp e m.task
  let (e, blocking, returned) ← blockingHandle cp e m.blocking m.returned
  runHandlers handlers cp e { m with task, blocking, returned }

def prngRange (prngNext : N → UInt64 × N) (max : Nat) (m : ModuleState N) : Nat × ModuleState N :=
  let (v, others) := prngNext m.others
  (v.toNat % max, { m with others })

def captureDispatch (handlers : List (Handler N)) (prngNext : N → UInt64 × N) :
    Dispatch (ModuleState N) :=
  dispatchCaptureEvent (captureHandlers handlers) (prngRange prngNext)

def pureActions (actions : UInt32) : UInt32 :=
  if actions &&& actionShutdown != 0 && actions != actionShutdown then
    actions &&& ~~~actionShutdown
  else actions

def checkActions (cp : CapturePoint) (p : Plan) (pure : UInt32) : Except Fault Unit :=
  if pure = actionContinue ∨ pure = actionWake ||| actionYield ||| actionResume then
    check (cp.typeId != eventTaskFini) .planFini
  else if pure = actionBlock ||| actionYield ||| actionResume then
    check (cp.typeId == eventTaskCreate) .planCreate
  else if pure =
      actionWake ||| actionBlock ||| actionReturn ||| actionYield ||| actionResume then do
    check (p.replayType != .off || p.next != cp.id) .planSelf
    check cp.blocking .planBlocking
  else if pure = actionWake then do
    check (p.next != cp.id) .planSelf
    check (cp.typeId == eventTaskFini) .planFini
  else if pure = actionShutdown then .ok ()
  else .error .planMismatch

def checkPlan (cp : CapturePoint) (p : Plan) : Except Fault Unit := do
  check (p.next != noTask) .planNoTask
  check (!p.withSlack || cp.blocking) .planSlack
  checkActions cp p (pureActions p.actions)

end Lotto
