import Lotto.Sequencer

namespace Lotto

open Library.FaultRun

inductive MediatorOptimization where
  | none | sameTaskExceptAny | sameTask
  deriving DecidableEq, Repr

inductive MediatorStatus where
  | ok | shutdown | abort
  deriving DecidableEq, Repr

structure Mediator where
  id : TaskId
  plan : Plan
  optimization : MediatorOptimization
  finito : Bool
  deriving DecidableEq, Repr

/-- The functions of the engine and the switcher that the mediator calls. `switcherWake` is told
whether the slack of the configuration applies. -/
structure MediatorCalls (S : Type) where
  engineCapture : CapturePoint → S → Except Fault (Plan × S)
  engineReturn : CapturePoint → S → Except Fault S
  engineResume : CapturePoint → S → Except Fault S
  switcherWake : TaskId → Bool → S → Except Fault S
  switcherYield : TaskId → Option Nat → S → Except Fault S

def planDone (p : Plan) : Plan × Bool :=
  let actions := p.actions &&& ~~~planNext p
  ({ p with actions }, actions == actionNone)

def nextAction (actions : UInt32) : UInt32 :=
  ([0x001, 0x002, 0x004, 0x008, 0x010, 0x020, 0x040, 0x080, 0x100].find?
    (fun i => actions &&& i != 0)).getD actionNone

theorem planNext_eq (p : Plan) : planNext p = nextAction p.actions := rfl

def planOptimize (p : Plan) (cp : CapturePoint) (optimization : MediatorOptimization) : Plan :=
  if p.next ≠ cp.id ∨ p.actions ≠ actionWake ||| actionYield ||| actionResume then p
  else
    match optimization with
    | .none => p
    | .sameTaskExceptAny =>
        if p.replayType = .anyTask then p else { p with actions := actionResume ||| actionContinue }
    | .sameTask => { p with actions := actionResume ||| actionContinue }

variable {S : Type}

/-- The loop of `mediator_capture`, with the number of actions as fuel: each round takes one from
the plan. -/
def captureLoop (calls : MediatorCalls S) (cp : CapturePoint) :
    Nat → Plan → S → Except Fault (Bool × Plan × S)
  | 0, _, _ => .error .mediatorAction
  | fuel + 1, p, s =>
      if planNext p = actionWake then do
        let s ← calls.switcherWake p.next p.withSlack s
        let (p, done) := planDone p
        if done then do
          check (cp.typeId == eventTaskFini) .mediatorFini
          .ok (true, p, s)
        else captureLoop calls cp fuel p s
      else if planNext p = actionBlock then do
        let (p, done) := planDone p
        check (!done) .mediatorBlockDone
        .ok (true, p, s)
      else if planNext p = actionContinue ∨ planNext p = actionYield ∨ planNext p = actionResume ∨
          planNext p = actionShutdown then .ok (false, p, s)
      else .error .mediatorAction

/-- `mediator_capture` of a task that is not retired: whether the caller blocks, and the mediator
with the rest of its plan. -/
def mediatorCapture (calls : MediatorCalls S) (m : Mediator) (cp : CapturePoint) (s : S) :
    Except Fault (Bool × Mediator × S) := do
  check (!m.finito) .mediatorFinito
  let cp := { cp with id := m.id }
  let (p, s) ← calls.engineCapture cp s
  let (block, plan, s) ← captureLoop calls cp 10 (planOptimize p cp m.optimization) s
  .ok (block, { m with plan }, s)

def resumeLoop (calls : MediatorCalls S) (cp : CapturePoint) :
    Nat → Plan → MediatorStatus → S → Except Fault (MediatorStatus × Plan × S)
  | 0, _, _, _ => .error .mediatorAction
  | fuel + 1, p, st, s => do
      let (st, s) ←
        if planNext p = actionYield then do
          let s ← calls.switcherYield cp.id p.anyTaskFilter s
          .ok (st, s)
        else if planNext p = actionResume then do
          let s ← calls.engineResume cp s
          .ok (st, s)
        else if planNext p = actionShutdown then do
          check (p.reason.isShutdown || p.reason.isAbort) .mediatorReason
          .ok (if p.reason.isShutdown then .shutdown else .abort, s)
        else if planNext p = actionContinue then .ok (st, s)
        else .error .mediatorAction
      let (p, done) := planDone p
      if done then .ok (st, p, s) else resumeLoop calls cp fuel p st s

def mediatorResume (calls : MediatorCalls S) (m : Mediator) (cp : CapturePoint) (s : S) :
    Except Fault (MediatorStatus × Mediator × S) := do
  check (!m.finito) .mediatorFinito
  check (planHas m.plan actionResume || planHas m.plan actionContinue ||
    planHas m.plan actionShutdown) .mediatorNotResumable
  let (st, plan, s) ← resumeLoop calls { cp with id := m.id } 10 m.plan .ok s
  check (planNext plan == actionNone) .mediatorNotDone
  .ok (st, { m with plan }, s)

def shouldResume (m : Mediator) : Bool :=
  planNext m.plan == actionResume || planNext m.plan == actionYield

def mediatorReturn (calls : MediatorCalls S) (m : Mediator) (cp : CapturePoint) (s : S) :
    Except Fault (Mediator × S) := do
  check (!m.finito) .mediatorFinito
  let cp := { cp with id := m.id }
  if cp.typeId = eventTaskCreate then do
    check (shouldResume m) .mediatorNotResumable
    .ok (m, s)
  else do
    check (planNext m.plan == actionReturn) .mediatorNotReturning
    let s ← calls.engineReturn cp s
    .ok ({ m with plan := (planDone m.plan).1 }, s)

section Loops

variable {calls : MediatorCalls S} {cp : CapturePoint} {p : Plan} {st : MediatorStatus} {fuel : Nat}
  {s s' : S} {fault : Fault}

theorem captureLoop_wake (next : nextAction p.actions = actionWake)
    (more : p.actions &&& ~~~actionWake ≠ actionNone)
    (wakes : calls.switcherWake p.next p.withSlack s = .ok s') :
    captureLoop calls cp (fuel + 1) p s =
      captureLoop calls cp fuel { p with actions := p.actions &&& ~~~actionWake } s' := by
  have left : (p.actions &&& ~~~actionWake == actionNone) = false := by simpa using more
  simp only [captureLoop, planNext_eq, next, if_true, wakes, ok_bind, planDone, left,
    Bool.false_eq_true, if_false]

theorem captureLoop_block (next : nextAction p.actions = actionBlock)
    (more : p.actions &&& ~~~actionBlock ≠ actionNone) :
    captureLoop calls cp (fuel + 1) p s =
      .ok (true, { p with actions := p.actions &&& ~~~actionBlock }, s) := by
  have left : (p.actions &&& ~~~actionBlock == actionNone) = false := by simpa using more
  have apart : actionBlock ≠ actionWake := by decide
  simp only [captureLoop, planNext_eq, next, if_neg apart, if_true, planDone, left, Bool.not_false,
    check_true, ok_bind]

theorem captureLoop_yield (next : nextAction p.actions = actionYield) :
    captureLoop calls cp (fuel + 1) p s = .ok (false, p, s) := by
  have notWake : actionYield ≠ actionWake := by decide
  have notBlock : actionYield ≠ actionBlock := by decide
  simp only [captureLoop, planNext_eq, next, if_neg notWake, if_neg notBlock, true_or, or_true, if_true]

theorem captureLoop_resume (next : nextAction p.actions = actionResume) :
    captureLoop calls cp (fuel + 1) p s = .ok (false, p, s) := by
  have notWake : actionResume ≠ actionWake := by decide
  have notBlock : actionResume ≠ actionBlock := by decide
  simp only [captureLoop, planNext_eq, next, if_neg notWake, if_neg notBlock, true_or, or_true, if_true]

theorem resumeLoop_yield (next : nextAction p.actions = actionYield)
    (more : p.actions &&& ~~~actionYield ≠ actionNone)
    (yields : calls.switcherYield cp.id p.anyTaskFilter s = .ok s') :
    resumeLoop calls cp (fuel + 1) p st s =
      resumeLoop calls cp fuel { p with actions := p.actions &&& ~~~actionYield } st s' := by
  have left : (p.actions &&& ~~~actionYield == actionNone) = false := by simpa using more
  simp only [resumeLoop, planNext_eq, next, if_true, yields, ok_bind, planDone, left,
    Bool.false_eq_true, if_false]

theorem resumeLoop_fault (next : nextAction p.actions = actionResume)
    (fails : calls.engineResume cp s = .error fault) :
    resumeLoop calls cp (fuel + 1) p st s = .error fault := by
  have apart : actionResume ≠ actionYield := by decide
  simp only [resumeLoop, planNext_eq, next, if_neg apart, if_true, fails]
  rfl

theorem resumeLoop_resume (next : nextAction p.actions = actionResume)
    (resumes : calls.engineResume cp s = .ok s') :
    resumeLoop calls cp (fuel + 1) p st s =
      if p.actions &&& ~~~actionResume = actionNone then
        .ok (st, { p with actions := p.actions &&& ~~~actionResume }, s')
      else resumeLoop calls cp fuel { p with actions := p.actions &&& ~~~actionResume } st s' := by
  have apart : actionResume ≠ actionYield := by decide
  simp only [resumeLoop, planNext_eq, next, if_neg apart, if_true, resumes, ok_bind, planDone,
    beq_iff_eq]

theorem resumeLoop_continue (next : nextAction p.actions = actionContinue)
    (last : p.actions &&& ~~~actionContinue = actionNone) :
    resumeLoop calls cp (fuel + 1) p st s = .ok (st, { p with actions := actionNone }, s) := by
  have notYield : actionContinue ≠ actionYield := by decide
  have notResume : actionContinue ≠ actionResume := by decide
  have notShutdown : actionContinue ≠ actionShutdown := by decide
  simp only [resumeLoop, planNext_eq, next, if_neg notYield, if_neg notResume, if_neg notShutdown,
    if_true, ok_bind, planDone, last, beq_self_eq_true]

end Loops

/-- An intercepted call from its capture to its resume; a call that blocks returns in between. -/
def intercepted (calls : MediatorCalls S) (m : Mediator) (cp : CapturePoint) (s : S) :
    Except Fault (MediatorStatus × Mediator × S) := do
  let (block, m, s) ← mediatorCapture calls m cp s
  let (m, s) ← if block then mediatorReturn calls m cp s else .ok (m, s)
  mediatorResume calls m cp s

end Lotto
