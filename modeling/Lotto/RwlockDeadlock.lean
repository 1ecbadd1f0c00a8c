import Lotto.Mediator
import Lotto.RwlockRun

namespace Lotto.RwlockDeadlock

open Library.FaultRun Library.GuardedRun MutexSpecs RwlockSpecs RwlockRun

variable {P : Type} {event : TypeId → Option RwlockEvent} {w : World} {cp : CapturePoint}
  {e : Decision}

/-- The request of a task is answered with REASON_RSRC_DEADLOCK. -/
def Flags (event : TypeId → Option RwlockEvent) (cp : CapturePoint) (locks : RwlockState) : Prop :=
  isRead (event cp.typeId) = true ∧
      (∃ locks', handleRdlock cp.id cp.payloadAddr locks = .ok (locks', true)) ∨
    isWrite (event cp.typeId) = true ∧
      ∃ locks', handleWrlock cp.id cp.payloadAddr locks = .ok (locks', true)

theorem Flags.deadlocks (inv : Exclusive event w) (captures : Captures event w cp e)
    (flags : Flags event cp w.locks) :
    deadlocks (event cp.typeId) (lockAt w.locks cp.payloadAddr) cp.id = true := by
  have suspended : ∀ {kind}, ¬ Suspended event kind w.pending cp.payloadAddr cp.id := by
    rintro kind ⟨p, inside, same, _⟩
    exact captures.running p inside same
  rcases flags with ⟨read, locks', flagged⟩ | ⟨write, locks', flagged⟩
  · obtain ⟨_, handled, _⟩ :=
      handleRdlock_ok (fun member => suspended (inv.reads _ _ member)) read
    rw [flagged] at handled
    simp only [Except.ok.injEq, Prod.mk.injEq] at handled
    exact handled.2.symm
  · have notRead : isRead (event cp.typeId) = false := by
      rw [← Bool.not_eq_true]
      intro read
      rw [isWrite_of_isRead read] at write
      cases write
    obtain ⟨_, handled, _⟩ := handleWrlock_ok (inv.counts _).excludes
      (fun member => suspended (inv.writes _ _ member)) write notRead
    rw [flagged] at handled
    simp only [Except.ok.injEq, Prod.mk.injEq] at handled
    exact handled.2.symm

theorem posthandleRdlock_faults {locks : RwlockState} {id : TaskId} {addr : UInt64}
    (locked : isWriteLocked (lockAt locks addr) = true) :
    posthandleRdlock id addr locks = .error .rwlockWriteLocked := by
  obtain ⟨locks₁, init, _, _⟩ := rwlockInit_spec addr locks
  simp only [posthandleRdlock, init, locked, Bool.not_true, check_false]
  rfl

theorem posthandleWrlock_faults {locks : RwlockState} {id : TaskId} {addr : UInt64}
    (excludes : Excludes (lockAt locks addr))
    (locked : isWriteLocked (lockAt locks addr) = true ∨
      0 < (lockAt locks addr).readers.entries.length) :
    ∃ fault, posthandleWrlock id addr locks = .error fault := by
  obtain ⟨locks₁, init, _, _⟩ := rwlockInit_spec addr locks
  simp only [posthandleWrlock, init, excludes.isReadLocked_ok, ok_bind]
  by_cases read : 0 < (lockAt locks addr).readers.entries.length
  · refine ⟨.rwlockReadLocked, ?_⟩
    simp only [read, decide_true, Bool.not_true, check_false]
    rfl
  · have written : ((lockAt locks addr).writer == noTask) = false := by
      rcases locked with written | some
      · simpa [isWriteLocked] using written
      · exact absurd some read
    refine ⟨.rwlockWriter, ?_⟩
    simp only [read, decide_false, Bool.not_false, check_true, ok_bind, written, check_false]
    rfl

theorem resume_faults {locks : RwlockState} (excludes : Excludes (lockAt locks cp.payloadAddr))
    (flagged : deadlocks (event cp.typeId) (lockAt locks cp.payloadAddr) cp.id = true) :
    ∃ fault, rwlockResume event cp locks = .error fault := by
  have written : readDeadlock (lockAt locks cp.payloadAddr) cp.id = true →
      isWriteLocked (lockAt locks cp.payloadAddr) = true := by
    intro own
    exact (Bool.and_eq_true_iff.mp own).1
  have locked : writeDeadlock (lockAt locks cp.payloadAddr) cp.id = true →
      isWriteLocked (lockAt locks cp.payloadAddr) = true ∨
        0 < (lockAt locks cp.payloadAddr).readers.entries.length := by
    intro own
    rcases Bool.or_eq_true_iff.mp own with writer | reader
    · exact Or.inl (written writer)
    · exact Or.inr (of_decide_eq_true (Bool.and_eq_true_iff.mp reader).1)
  rcases Bool.or_eq_true_iff.mp flagged with reading | writing
  · obtain ⟨read, own⟩ := Bool.and_eq_true_iff.mp reading
    exact ⟨_, (rwlockResume_read read).trans (posthandleRdlock_faults (written own))⟩
  · obtain ⟨write, own⟩ := Bool.and_eq_true_iff.mp writing
    rw [rwlockResume_write write]
    exact posthandleWrlock_faults excludes (locked own)

def deadlockActions : UInt32 := actionYield ||| actionResume ||| actionShutdown

section Mediated

variable {S : Type} {calls : MediatorCalls S} {m : Mediator} {p : Plan} {st : MediatorStatus}
  {fuel : Nat} {s : S} {fault : Fault}

theorem mediatorResume_faults (actions : m.plan.actions = deadlockActions)
    (running : m.finito = false) (yields : ∀ id filter, calls.switcherYield id filter s = .ok s)
    (fails : calls.engineResume { cp with id := m.id } s = .error fault) :
    mediatorResume calls m cp s = .error fault := by
  have has : planHas m.plan actionResume = true := by
    rw [planHas, actions]
    decide
  have first : nextAction m.plan.actions = actionYield := by
    rw [actions]
    decide
  have more : m.plan.actions &&& ~~~actionYield ≠ actionNone := by
    rw [actions]
    decide
  have second : nextAction (m.plan.actions &&& ~~~actionYield) = actionResume := by
    rw [actions]
    decide
  have loop : resumeLoop calls { cp with id := m.id } 10 m.plan .ok s = .error fault := by
    rw [resumeLoop_yield first more (yields _ _)]
    exact resumeLoop_fault second fails
  simp only [mediatorResume, running, has, Bool.not_false, Bool.true_or, check_true, ok_bind, loop]
  rfl

inductive Picked (cp : CapturePoint) : UInt32 → Prop
  | create (type : cp.typeId = eventTaskCreate) :
      Picked cp (actionBlock ||| actionYield ||| actionResume ||| actionShutdown)
  | fini (type : cp.typeId = eventTaskFini) : Picked cp (actionWake ||| actionShutdown)
  | blocking (type : cp.typeId ≠ eventTaskCreate) : Picked cp
      (actionWake ||| actionBlock ||| actionReturn ||| actionYield ||| actionResume ||| actionShutdown)
  | other : Picked cp (actionWake ||| actionYield ||| actionResume ||| actionShutdown)

theorem planActions_picked {actions : UInt32} (terminates : e.reason.isTerminate = true)
    (planned : planActions cp cp.id e = .ok actions) : Picked cp actions := by
  simp only [planActions, terminates, if_true, ne_eq, not_true, if_false] at planned
  obtain ⟨base, based, rest⟩ := bind_eq_ok.mp planned
  cases rest
  unfold actionsFor at based
  split at based
  · rename_i create
    obtain ⟨_, _, found⟩ := bind_eq_ok.mp based
    cases found
    exact .create create
  · rename_i notCreate
    split at based
    · obtain ⟨_, _, found⟩ := bind_eq_ok.mp based
      cases found
      exact .other
    · split at based
      · rename_i fini
        obtain ⟨_, _, found⟩ := bind_eq_ok.mp based
        cases found
        exact .fini fini
      · split at based
        · obtain ⟨_, _, found⟩ := bind_eq_ok.mp based
          cases found
          exact .blocking notCreate
        · cases based
          exact .other

theorem planOptimize_picked (picked : Picked cp p.actions) (optimization : MediatorOptimization) :
    planOptimize p cp optimization = p := by
  have other : p.actions ≠ actionWake ||| actionYield ||| actionResume := by
    generalize p.actions = actions at picked
    cases picked <;> decide
  unfold planOptimize
  rw [if_pos (Or.inr other)]

theorem mediatorCapture_picked {block : Bool} {plan : Plan} (active : m.finito = false)
    (own : m.id = cp.id) (picked : Picked cp p.actions)
    (captured : calls.engineCapture cp s = .ok (p, s))
    (loop : captureLoop calls cp 10 p s = .ok (block, plan, s)) :
    mediatorCapture calls m cp s = .ok (block, { m with plan }, s) := by
  have same : { cp with id := m.id } = cp := by rw [own]
  simp only [mediatorCapture, active, Bool.not_false, check_true, ok_bind, same, captured,
    planOptimize_picked picked, loop]

theorem captureLoop_other
    (found : p.actions = actionWake ||| actionYield ||| actionResume ||| actionShutdown)
    (wakes : ∀ id slack s, calls.switcherWake id slack s = .ok s) :
    captureLoop calls cp 10 p s = .ok (false, { p with actions := deadlockActions }, s) := by
  have left : p.actions &&& ~~~actionWake = deadlockActions := by
    rw [found]
    decide
  rw [captureLoop_wake (by rw [found]; decide) (by rw [left]; decide) (wakes _ _ s), left]
  exact captureLoop_yield (show nextAction deadlockActions = actionYield by decide)

theorem captureLoop_create
    (found : p.actions = actionBlock ||| actionYield ||| actionResume ||| actionShutdown) :
    captureLoop calls cp 10 p s = .ok (true, { p with actions := deadlockActions }, s) := by
  have left : p.actions &&& ~~~actionBlock = deadlockActions := by
    rw [found]
    decide
  rw [captureLoop_block (by rw [found]; decide) (by rw [left]; decide), left]

theorem captureLoop_blocking
    (found : p.actions =
      actionWake ||| actionBlock ||| actionReturn ||| actionYield ||| actionResume ||| actionShutdown)
    (wakes : ∀ id slack s, calls.switcherWake id slack s = .ok s) :
    captureLoop calls cp 10 p s =
      .ok (true, { p with actions := actionReturn ||| deadlockActions }, s) := by
  have woken : p.actions &&& ~~~actionWake = actionBlock ||| actionReturn ||| deadlockActions := by
    rw [found]
    decide
  have next : nextAction (actionBlock ||| actionReturn ||| deadlockActions) = actionBlock := by decide
  have left : (actionBlock ||| actionReturn ||| deadlockActions) &&& ~~~actionBlock =
      actionReturn ||| deadlockActions := by
    decide
  rw [captureLoop_wake (by rw [found]; decide) (by rw [woken]; decide) (wakes _ _ s), woken,
    captureLoop_block next (by rw [left]; decide)]
  simp only [left]

theorem mediatorReturn_create (active : m.finito = false) (type : cp.typeId = eventTaskCreate)
    (left : m.plan.actions = deadlockActions) : mediatorReturn calls m cp s = .ok (m, s) := by
  have yields : nextAction deadlockActions == actionYield := by decide
  simp only [mediatorReturn, active, Bool.not_false, check_true, ok_bind, type, if_true, shouldResume,
    planNext_eq, left, yields, Bool.or_true]

theorem mediatorReturn_blocking (active : m.finito = false) (own : m.id = cp.id)
    (type : cp.typeId ≠ eventTaskCreate) (left : m.plan.actions = actionReturn ||| deadlockActions) :
    mediatorReturn calls m cp s = (do
      let s ← calls.engineReturn cp s
      .ok ({ m with plan := { m.plan with actions := deadlockActions } }, s)) := by
  have same : { cp with id := m.id } = cp := by rw [own]
  have next : nextAction (actionReturn ||| deadlockActions) = actionReturn := by decide
  have rest : (actionReturn ||| deadlockActions) &&& ~~~actionReturn = deadlockActions := by decide
  simp only [mediatorReturn, active, Bool.not_false, check_true, ok_bind, same, if_neg type,
    planNext_eq, left, next, beq_self_eq_true, planDone, rest]

/-- A call that is picked again does not get past a resume half that fails, whatever the return of
a blocking call does. -/
theorem intercepted_faults (Failing : S → Prop) (picked : Picked cp p.actions)
    (resumes : planHas p actionResume = true) (own : m.id = cp.id)
    (captured : calls.engineCapture cp s = .ok (p, s))
    (wakes : ∀ id slack s, calls.switcherWake id slack s = .ok s)
    (yields : ∀ id filter s, calls.switcherYield id filter s = .ok s)
    (returns : ∀ s', calls.engineReturn cp s = .ok s' → Failing s')
    (fails : ∀ s, Failing s → ∃ fault, calls.engineResume cp s = .error fault)
    (failing : Failing s) : ∃ fault, intercepted calls m cp s = .error fault := by
  cases active : m.finito with
  | true =>
      refine ⟨.mediatorFinito, ?_⟩
      simp only [intercepted, mediatorCapture, active, Bool.not_true, check_false]
      rfl
  | false =>
      have resume : ∀ s', Failing s' → ∃ fault,
          mediatorResume calls { m with plan := { p with actions := deadlockActions } } cp s' =
            .error fault := by
        intro s' failing
        obtain ⟨fault, failed⟩ := fails s' failing
        refine ⟨fault, mediatorResume_faults rfl active (fun id filter => yields id filter s') ?_⟩
        simp only [own, failed]
      obtain ⟨fault, failed⟩ := resume s failing
      have capture : ∀ block plan, captureLoop calls cp 10 p s = .ok (block, plan, s) →
          mediatorCapture calls m cp s = .ok (block, { m with plan }, s) := fun _ _ =>
        mediatorCapture_picked active own picked captured
      generalize known : p.actions = actions at picked
      cases picked with
      | fini type =>
          rw [planHas, known] at resumes
          exact absurd resumes (by decide)
      | other =>
          refine ⟨fault, ?_⟩
          simp only [intercepted, capture _ _ (captureLoop_other known wakes), ok_bind,
            Bool.false_eq_true, if_false]
          exact failed
      | create type =>
          refine ⟨fault, ?_⟩
          simp only [intercepted, capture _ _ (captureLoop_create known), ok_bind, if_true]
          rw [mediatorReturn_create (m := { m with plan := { p with actions := deadlockActions } }) active
            type rfl, ok_bind]
          exact failed
      | blocking type =>
          simp only [intercepted, capture _ _ (captureLoop_blocking known wakes), ok_bind, if_true]
          rw [mediatorReturn_blocking
            (m := { m with plan := { p with actions := actionReturn ||| deadlockActions } }) active own type
            rfl]
          cases returned : calls.engineReturn cp s with
          | error fault => exact ⟨fault, rfl⟩
          | ok s' => exact resume s' (returns s' returned)

end Mediated

/-- The mediator of an engine with the rwlock handler, once `sequencer_capture` returned the plan.
The switcher does not touch the engine. -/
def deadlockCalls (mods : Modules RwlockState P) (event : TypeId → Option RwlockEvent) (plan : Plan) :
    MediatorCalls (Engine RwlockState P) where
  engineCapture _ s := .ok (plan, s)
  engineReturn := sequencerReturn
  engineResume := sequencerResume mods (rwlockResume event)
  switcherWake _ _ s := .ok s
  switcherYield _ _ s := .ok s

/-- The deadlock is reported: the mediator gets to ACTION_SHUTDOWN for it, and no lock changes. -/
def Reported (mods : Modules RwlockState P) (event : TypeId → Option RwlockEvent) (plan : Plan)
    (m : Mediator) (cp : CapturePoint) (s : Engine RwlockState P) : Prop :=
  ∃ m' s', intercepted (deadlockCalls mods event plan) m cp s = .ok (.abort, m', s') ∧
    m'.plan.reason = .rsrcDeadlock ∧ s'.modules = s.modules

/-- In every reachable state, a request that is flagged as a deadlock and whose task is picked again
ends in a failed assertion of its resume half, never in a report. `decided` is the decision after
the handlers behind the rwlock handler. -/
theorem deadlock_unreported (mods : Modules RwlockState P) (event : TypeId → Option RwlockEvent)
    (w : World) (reached : Reachable (system event) w) (cp : CapturePoint) (e e' decided : Decision)
    (locks' : RwlockState) (captures : Captures event w cp e) (flags : Flags event cp w.locks)
    (handled : rwlockHandle event cp e w.locks = .ok (e', locks'))
    (kept : decided.reason = e'.reason) (dispatched : TaskId) (actions : UInt32) (clk : Nat)
    (planned : planActions cp cp.id decided = .ok actions)
    (resumes : planHas (preparePlan cp decided dispatched cp.id actions clk) actionResume = true)
    (m : Mediator) (own : m.id = cp.id) (s : Engine RwlockState P) (modules : s.modules = locks') :
    e'.reason = .rsrcDeadlock ∧ (∃ fault, rwlockResume event cp locks' = .error fault) ∧
      ¬ Reported mods event (preparePlan cp decided dispatched cp.id actions clk) m cp s := by
  have inv := (exclusive_kept event).reachable reached
  have deadlock := flags.deadlocks inv captures
  obtain ⟨_, _, same, reason, _, captured⟩ := rwlockHandle_ok inv captures
  rw [handled] at same
  cases same
  rw [if_pos deadlock] at reason
  have still : deadlocks (event cp.typeId) (lockAt locks' cp.payloadAddr) cp.id = true := by
    simpa only [deadlocks, writeDeadlock, readDeadlock, isWriteLocked, isReadLockedBy,
      captured.writer, captured.readers] using deadlock
  obtain ⟨fault, failed⟩ := resume_faults (captured.excludes inv cp.payloadAddr) still
  refine ⟨reason, ⟨fault, failed⟩, ?_⟩
  have terminates : decided.reason.isTerminate = true := by
    rw [kept, reason]
    rfl
  have faults : ∃ fault, intercepted (deadlockCalls mods event
      (preparePlan cp decided dispatched cp.id actions clk)) m cp s = .error fault := by
    refine intercepted_faults (fun s => s.modules = locks') (planActions_picked terminates planned)
      resumes own rfl (fun _ _ _ => rfl) (fun _ _ _ => rfl) ?_ ?_ modules
    · intro s' returned
      obtain ⟨_, _, rest⟩ := bind_eq_ok.mp returned
      obtain ⟨_, _, done⟩ := bind_eq_ok.mp rest
      cases done
      exact modules
    · intro s modules
      refine ⟨fault, ?_⟩
      simp only [deadlockCalls, sequencerResume, modules, failed]
      rfl
  rintro ⟨m', s', ran, _⟩
  obtain ⟨fault', faulted⟩ := faults
  rw [faulted] at ran
  cases ran

def lockModules : Modules RwlockState Unit where
  config := fun _ => { gran := 0, slack := 0 }
  marshal := fun _ _ => ()
  unmarshal := fun _ _ m => m
  config_persistent := fun _ _ => rfl

def mediatorOf (id : TaskId) : Mediator :=
  { id, plan := preparePlan (plainPoint id 0 0) (prepareDecision 0 .empty { status := .done, id := noTask })
      noTask noTask actionNone 0, optimization := .none, finito := false }

def ownWriter : List Move :=
  [.capture (plainPoint 1 2 16) (plainDecision bothTasks), .resume (plainPoint 1 2 16)]

def flaggedDecision : Decision := plainDecision bothTasks

def picksOwnWriter (locks : RwlockState) : Except Fault (Bool × Except Fault Unit) := do
  let (e', locks') ← rwlockHandle lockEvent (plainPoint 1 1 16) flaggedDecision locks
  let actions ← planActions (plainPoint 1 1 16) 1 e'
  let plan := preparePlan (plainPoint 1 1 16) e' 1 1 actions 3
  .ok (planHas plan actionResume, (intercepted (deadlockCalls lockModules lockEvent plan)
    (mediatorOf 1) (plainPoint 1 1 16) (engineInit none none locks')).map fun _ => ())

theorem own_writer_flagged : ∃ w, Reachable (system lockEvent) w ∧
    Captures lockEvent w (plainPoint 1 1 16) flaggedDecision ∧
    Flags lockEvent (plainPoint 1 1 16) w.locks ∧
    picksOwnWriter w.locks = .ok (true, .error .rwlockWriteLocked) := by
  have legal : Legal (system lockEvent) ownWriter (system lockEvent).start := by decide
  have seen : (run (system lockEvent) ownWriter (system lockEvent).start).map (fun w =>
      (decide (Captures lockEvent w (plainPoint 1 1 16) flaggedDecision),
        (handleRdlock 1 16 w.locks).map Prod.snd, picksOwnWriter w.locks)) =
      .ok (true, .ok true, .ok (true, .error .rwlockWriteLocked)) := by decide
  obtain ⟨w, ran⟩ := legal.runs
  rw [ran] at seen
  simp only [Except.map, Except.ok.injEq, Prod.mk.injEq, decide_eq_true_eq] at seen
  obtain ⟨captures, flagged, picked⟩ := seen
  refine ⟨w, legal.reachable Reachable.start ran, captures, Or.inl ⟨rfl, ?_⟩, picked⟩
  change ∃ locks', handleRdlock 1 16 w.locks = .ok (locks', true)
  cases handled : handleRdlock 1 16 w.locks with
  | error fault =>
      rw [handled] at flagged
      cases flagged
  | ok result =>
      rw [handled] at flagged
      obtain ⟨locks', found⟩ := result
      cases flagged
      exact ⟨locks', rfl⟩

/-- Task 1 asks to read the lock that it writes, and it is picked again: the plan holds RESUME and
SHUTDOWN, and the deadlock is not reported. -/
theorem own_writer_unreported : ∃ w e' locks' actions, Reachable (system lockEvent) w ∧
    Captures lockEvent w (plainPoint 1 1 16) flaggedDecision ∧
    Flags lockEvent (plainPoint 1 1 16) w.locks ∧
    rwlockHandle lockEvent (plainPoint 1 1 16) flaggedDecision w.locks = .ok (e', locks') ∧
    planActions (plainPoint 1 1 16) 1 e' = .ok actions ∧
    planHas (preparePlan (plainPoint 1 1 16) e' 1 1 actions 3) actionResume = true ∧
    ¬ Reported lockModules lockEvent (preparePlan (plainPoint 1 1 16) e' 1 1 actions 3) (mediatorOf 1)
      (plainPoint 1 1 16) (engineInit none none locks') := by
  obtain ⟨w, reached, captures, flags, picked⟩ := own_writer_flagged
  obtain ⟨⟨e', locks'⟩, handled, picked⟩ := bind_eq_ok.mp picked
  obtain ⟨actions, planned, picked⟩ := bind_eq_ok.mp picked
  simp only [Except.ok.injEq, Prod.mk.injEq] at picked
  refine ⟨w, e', locks', actions, reached, captures, flags, handled, planned, picked.1, ?_⟩
  rintro ⟨m', s', ran, _⟩
  have failed := picked.2
  rw [ran] at failed
  cases failed

theorem own_writer_resume_faults : ∃ w e' locks', Reachable (system lockEvent) w ∧
    rwlockHandle lockEvent (plainPoint 1 1 16) flaggedDecision w.locks = .ok (e', locks') ∧
    e'.reason = .rsrcDeadlock ∧ ∃ fault, rwlockResume lockEvent (plainPoint 1 1 16) locks' = .error fault := by
  obtain ⟨w, reached, captures, flags, picked⟩ := own_writer_flagged
  obtain ⟨⟨e', locks'⟩, handled, picked⟩ := bind_eq_ok.mp picked
  obtain ⟨actions, planned, picked⟩ := bind_eq_ok.mp picked
  simp only [Except.ok.injEq, Prod.mk.injEq] at picked
  obtain ⟨reason, failed, _⟩ := deadlock_unreported lockModules lockEvent w reached
    (plainPoint 1 1 16) flaggedDecision e' e' locks' captures flags handled rfl 1 actions 3 planned
    picked.1 (mediatorOf 1) rfl (engineInit none none locks') rfl
  exact ⟨w, e', locks', reached, handled, reason, failed⟩

end Lotto.RwlockDeadlock
