import Lotto.Recorder
import Lotto.Tidset

namespace Lotto

inductive Selector where
  | undefined | random | first
  deriving DecidableEq, Repr

/-- `sequencer_decision`. `anyTaskFilter` names the filter function, if one is set. -/
structure Decision where
  clk : Nat
  isChpt : Bool
  next : TaskId
  readonly : Bool
  skip : Bool
  tset : Tidset
  unblocked : Tidset
  reason : Reason
  selector : Selector
  shouldRecord : Bool
  filterLess : Bool
  replay : Bool
  anyTaskFilter : Option Nat
  deriving DecidableEq, Repr

inductive ReplayType where
  | off | anyTask | on
  deriving DecidableEq, Repr

def actionNone : UInt32 := 0x000
def actionWake : UInt32 := 0x001
def actionBlock : UInt32 := 0x004
def actionReturn : UInt32 := 0x008
def actionYield : UInt32 := 0x010
def actionResume : UInt32 := 0x020
def actionContinue : UInt32 := 0x040
def actionShutdown : UInt32 := 0x100

structure Plan where
  actions : UInt32
  next : TaskId
  withSlack : Bool
  reason : Reason
  replayType : ReplayType
  clk : Nat
  anyTaskFilter : Option Nat
  deriving DecidableEq, Repr

/-- `plan_next`: the lowest action, the loop running over the bits below `ACTION_END_`. -/
def planNext (p : Plan) : UInt32 :=
  ([0x001, 0x002, 0x004, 0x008, 0x010, 0x020, 0x040, 0x080, 0x100].find?
    (fun i => p.actions &&& i != 0)).getD actionNone

def planHas (p : Plan) (a : UInt32) : Bool := p.actions &&& a == a

structure Sequencer where
  clk : Nat
  unblocked : Tidset
  pendingUnblocked : Tidset
  chptCount : Nat
  switchCount : Nat
  lastChpt : Bool
  prevType : TypeId
  prevTask : TaskId
  nextTask : TaskId
  prevBlocking : Bool
  shouldRecord : Bool
  deriving DecidableEq, Repr

def sequencerReset : Sequencer :=
  { clk := 0, unblocked := .empty, pendingUnblocked := .empty, chptCount := 0, switchCount := 0,
    lastChpt := false, prevType := 0, prevTask := noTask, nextTask := noTask,
    prevBlocking := false, shouldRecord := false }

/-- The engine: sequencer, recorder and the state of the registered modules. -/
structure Engine (M P : Type) where
  seq : Sequencer
  recorder : Recorder P
  modules : M

variable {M P : Type}

def engineInit (input output : Option (List (Record P))) (m : M) : Engine M P :=
  { seq := sequencerReset, recorder := recorderInit input output, modules := m }

def insertUnblocked (unblocked : Tidset) (id : TaskId) : Except Fault Tidset := do
  check (!unblocked.has id) .insertUnblockedAgain
  .ok (unblocked.insert id)

def updateUnblocked (seq : Sequencer) : Except Fault Sequencer := do
  let unblocked ← seq.pendingUnblocked.tasks.foldlM insertUnblocked seq.unblocked
  .ok { seq with unblocked, pendingUnblocked := .empty }

def addPendingUnblocked (seq : Sequencer) (id : TaskId) : Except Fault Sequencer := do
  check (!seq.pendingUnblocked.has id) .insertPendingAgain
  .ok { seq with pendingUnblocked := seq.pendingUnblocked.insert id }

def sequencerReturn (cp : CapturePoint) (s : Engine M P) : Except Fault (Engine M P) := do
  check cp.blocking .returnNotBlocking
  let seq ← addPendingUnblocked s.seq cp.id
  .ok { s with seq }

def actionsFor (cp : CapturePoint) (next : TaskId) (e : Decision) : Except Fault UInt32 :=
  if cp.typeId = eventTaskCreate then do
    check (e.replay || next == anyTask) .createNotAnyTask
    .ok (actionBlock ||| actionYield ||| actionResume)
  else if cp.typeId = eventTaskInit then do
    check (next != noTask) .actionsNoTask
    .ok (actionWake ||| actionYield ||| actionResume)
  else if cp.typeId = eventTaskFini then do
    check (next != noTask) .actionsNoTask
    .ok actionWake
  else if cp.blocking then do
    check (next != noTask) .actionsNoTask
    .ok (actionWake ||| actionBlock ||| actionReturn ||| actionYield ||| actionResume)
  else .ok (actionWake ||| actionYield ||| actionResume)

/-- The loop of `_granularity_should_record` from the bit `i` on. A uint32_t has run through
its bits after 32 shifts and is 0, which is in every set and matches no case. -/
def granularityLoop (gran : UInt64) (switched isChpt : Bool) : Nat → UInt32 → Except Fault Bool
  | 0, _ => .error .unknownGranularity
  | fuel + 1, i =>
      if i.toUInt64 ≤ gran then
        if i != 0 && gran &&& i.toUInt64 == 0 then
          granularityLoop gran switched isChpt fuel (i <<< 1)
        else if i = 0x1 then
          if switched then .ok true else granularityLoop gran switched isChpt fuel (i <<< 1)
        else if i = 0x2 then
          if isChpt then .ok true else granularityLoop gran switched isChpt fuel (i <<< 1)
        else if i = 0x4 then .ok true
        else .error .unknownGranularity
      else .ok false

def granularityShouldRecord (config : SequencerConfig) (cp : CapturePoint) (e : Decision)
    (p : Plan) : Except Fault Bool :=
  granularityLoop config.gran (p.next != cp.id) e.isChpt 33 1

def prepareDecision (clk : Nat) (unblocked : Tidset) (ry : Replay) : Decision :=
  { clk, isChpt := false, next := noTask, readonly := false, skip := false, tset := .empty
    unblocked, reason := .unknown, selector := .undefined, shouldRecord := false
    filterLess := false, replay := ry.status != .done, anyTaskFilter := none }

def plainDecision (tset : Tidset) : Decision :=
  { prepareDecision 1 .empty { status := .done, id := noTask } with tset }

def bothTasks : Tidset := (Tidset.empty.insert 1).insert 2

def captureBegin (mods : Modules M P) (cp : CapturePoint) (s : Engine M P) :
    Except Fault (Replay × Decision × Engine M P) := do
  check (cp.id != noTask) .captureNoTask
  let clk := s.seq.clk + 1
  let (ry, recorder, modules) ← recorderReplay mods s.recorder s.modules clk
  let seq ← updateUnblocked { s.seq with clk }
  .ok (ry, prepareDecision clk seq.unblocked ry, { seq, recorder, modules })

/-- The switch over the replay status: what becomes of the dispatched `next`. -/
def replayNext (config : SequencerConfig) (cp : CapturePoint) (ry : Replay) (next : TaskId) :
    Except Fault TaskId :=
  match ry.status with
  | .load => do
      check (next == anyTask || next == ry.id || cp.blocking) .replayLoadMismatch
      .ok ry.id
  | .force => .ok ry.id
  | .done => .ok next
  | .cont => .ok (if 0 < config.slack && cp.blocking then cp.id else next)

def planActions (cp : CapturePoint) (next : TaskId) (e : Decision) : Except Fault UInt32 :=
  if e.reason.isTerminate then
    if next ≠ cp.id then .ok actionShutdown
    else do
      let actions ← actionsFor cp next e
      .ok (actions ||| actionShutdown)
  else actionsFor cp next e

def checkWake (p : Plan) : Except Fault Unit :=
  if planNext p = actionWake then check (p.next != noTask) .wakeNoTask else .ok ()

/-- `should_record`; the granularity is only looked at when the handlers did not ask for a
record. -/
def decideRecord (config : SequencerConfig) (cp : CapturePoint) (e : Decision) (p : Plan) :
    Except Fault Bool :=
  if e.shouldRecord then .ok true else granularityShouldRecord config cp e p

/-- The plan `sequencer_capture` prepares; `dispatched` is the task before the replay. -/
def preparePlan (cp : CapturePoint) (e : Decision) (dispatched next : TaskId) (actions : UInt32)
    (clk : Nat) : Plan :=
  { actions, next, withSlack := cp.blocking && !e.replay, reason := e.reason
    replayType := if !e.replay then .off else if dispatched = anyTask then .anyTask else .on
    clk, anyTaskFilter := e.anyTaskFilter }

/-- The decision tracked for the resume, the event counts and the clearing of the unblocked
set. -/
def trackDecision (cp : CapturePoint) (e : Decision) (next : TaskId) (shouldRecord : Bool)
    (seq : Sequencer) : Sequencer :=
  { seq with
    shouldRecord, nextTask := next, prevType := cp.typeId, prevBlocking := cp.blocking
    lastChpt := e.isChpt
    chptCount := seq.chptCount + e.isChpt.toNat
    switchCount := seq.switchCount + (seq.prevTask != cp.id).toNat
    prevTask := cp.id
    unblocked := .empty }

def captureEnd (mods : Modules M P) (cp : CapturePoint) (ry : Replay) (dispatched : TaskId)
    (e : Decision) (s : Engine M P) : Except Fault (Plan × Engine M P) := do
  let config := mods.config s.modules
  let next ← replayNext config cp ry dispatched
  let actions ← planActions cp next e
  let p := preparePlan cp e dispatched next actions s.seq.clk
  checkWake p
  let shouldRecord ← decideRecord config cp e p
  .ok (p, { s with seq := trackDecision cp e next shouldRecord s.seq })

/-- What `_dispatch_capture_event` computes: the task, the final decision and the new module
state. -/
abbrev Dispatch (M : Type) := CapturePoint → Decision → M → Except Fault (TaskId × Decision × M)

def sequencerCapture (mods : Modules M P) (dispatch : Dispatch M) (cp : CapturePoint)
    (s : Engine M P) : Except Fault (Plan × Engine M P) := do
  let (ry, e, s) ← captureBegin mods cp s
  let (next, e, modules) ← dispatch cp e s.modules
  captureEnd mods cp ry next e { s with modules }

def resumeRecords (config : SequencerConfig) (cp : CapturePoint) (seq : Sequencer) : Bool :=
  seq.shouldRecord ||
    (0 < config.slack && seq.prevBlocking && cp.id != seq.prevTask) ||
    (seq.prevType != eventTaskCreate && (config.slack == 0 || !seq.prevBlocking) &&
      seq.nextTask != cp.id)

def resumeRecord (mods : Modules M P) (cp : CapturePoint) (s : Engine M P) :
    Except Fault (Recorder P) :=
  if resumeRecords (mods.config s.modules) cp s.seq then
    recorderRecord mods s.recorder s.modules cp s.seq.clk
  else .ok s.recorder

def sequencerResume (mods : Modules M P) (chain : CapturePoint → M → Except Fault M)
    (cp : CapturePoint) (s : Engine M P) : Except Fault (Engine M P) := do
  let modules ← chain cp s.modules
  let s := { s with modules }
  if s.seq.clk = 0 then .ok s
  else if cp.id = 1 ∧ cp.typeId = 0 then .ok s
  else do
    let recorder ← resumeRecord mods cp s
    let seq ← updateUnblocked s.seq
    .ok { s with recorder, seq }

def sequencerFini (mods : Modules M P) (cp : CapturePoint) (reason : Reason) (s : Engine M P) :
    Except Fault (Engine M P) := do
  let recorder ← recorderFini mods s.recorder s.modules s.seq.clk cp.id reason
  .ok { s with recorder }

/-- The end of `_dispatch_capture_event`, after the handlers. `prngRange` draws an index below
its argument. -/
def selectNext (prngRange : Nat → M → Nat × M) (cp : CapturePoint) (e : Decision) (m : M) :
    Except Fault (TaskId × Decision × M) :=
  if !e.isChpt then do
    check (e.next == noTask || e.next == cp.id) .dispatchNotChpt
    .ok (cp.id, e, m)
  else if e.next ≠ noTask then .ok (e.next, e, m)
  else if e.tset.size = 0 then .ok (anyTask, e, m)
  else
    match e.selector with
    | .undefined | .random =>
        let reason := if e.reason = .unknown then .deterministic else e.reason
        let (idx, m) := prngRange e.tset.size m
        .ok (e.tset.get idx, { e with selector := .random, reason }, m)
    | .first => .ok (e.tset.get 0, e, m)

/-- `_dispatch_capture_event`; `handlers` is `handle_creation` and the publication on
CHAIN_SEQUENCER_CAPTURE. -/
def dispatchCaptureEvent
    (handlers : CapturePoint → Decision → M → Except Fault (Decision × M))
    (prngRange : Nat → M → Nat × M) : Dispatch M := fun cp e m => do
  let (e, m) ← handlers cp e m
  selectNext prngRange cp e m

end Lotto
