import Lotto.DroppedResume
import Lotto.RwlockSpecs
import Lotto.PlanContract

namespace Lotto.FilteringDrop

open Library.FaultRun
open RecorderReplay SequencerReturns SequencerRun HandlerSpecs EngineRun RunTrace PlanContract
open MutexSpecs RwlockSpecs DroppedResume

variable {O P : Type}

def suspended (log : List Clock) : List CapturePoint :=
  log.foldl (fun pending c => without (c.cp :: pending) c.resumed.id) []

def pending {N : Type} (w : World N P) : List CapturePoint :=
  match w.running with
  | none => suspended w.log
  | some c => c.cp :: suspended w.log

def isLockEvent (setup : LockSetup O) (ty : TypeId) : Bool :=
  isMutexEvent ty || isRwlockEvent setup.event ty

/-- Runs with the capture chain of `setup`. A task captures when it is not suspended, and it is
resumed at the event it was suspended at. -/
def dropRules (setup : LockSetup O) : Rules (Locks O) P where
  captures w cp handlers prngNext :=
    (∀ p ∈ pending w, p.id ≠ cp.id) ∧ (isLockEvent setup cp.typeId = true → cp.blocking = false) ∧
      (∃ before between after, handlers = setup.chain before between after) ∧
      prngNext = setup.prng
  resumes w _ cp := ∀ p ∈ pending w, p.id = cp.id → Resumes (isLockEvent setup) p cp
  boots cp := isLockEvent setup cp.typeId = false
  chains chain := ∃ more, chain = setup.resume more

structure LocksGood (setup : LockSetup O) (pending : List CapturePoint) (n : Locks O) : Prop where
  mutex : MutexInv pending n.mutex
  rwlock : RwlockInv setup.event pending n.rwlock

variable {setup : LockSetup O} {cp : CapturePoint} {e e' : Decision} {m : ModuleState (Locks O)}
  {n : Locks O} {tasks : List CapturePoint}

theorem LocksGood.mono {tasks' : List CapturePoint} (more : ∀ p ∈ tasks, p ∈ tasks')
    (good : LocksGood setup tasks n) : LocksGood setup tasks' n :=
  ⟨good.mutex.mono more, good.rwlock.mono more⟩

theorem further_locks {handler : FurtherHandler O}
    (handled : LockSetup.further handler cp e m = .ok (e', n)) :
    n.mutex = m.others.mutex ∧ n.rwlock = m.others.rwlock ∧
      ∃ others, handler cp e m = .ok (e', others) := by
  obtain ⟨⟨e₁, others⟩, ran, made⟩ := bind_eq_ok.mp handled
  cases made
  exact ⟨rfl, rfl, others, ran⟩

theorem mutexHandler_locks (handled : setup.mutexHandler cp e m = .ok (e', n)) :
    mutexHandle setup.mutex cp e m.others.mutex = .ok (e', n.mutex) ∧
      n.rwlock = m.others.rwlock := by
  obtain ⟨⟨e₁, mutex⟩, ran, made⟩ := bind_eq_ok.mp handled
  cases made
  exact ⟨ran, rfl⟩

theorem rwlockHandler_locks (handled : setup.rwlockHandler cp e m = .ok (e', n)) :
    rwlockHandle setup.event cp e m.others.rwlock = .ok (e', n.rwlock) ∧
      n.mutex = m.others.mutex := by
  obtain ⟨⟨e₁, rwlock⟩, ran, made⟩ := bind_eq_ok.mp handled
  cases made
  exact ⟨ran, rfl⟩

theorem prng_locks (setup : LockSetup O) (n : Locks O) :
    (setup.prng n).2.mutex = n.mutex ∧ (setup.prng n).2.rwlock = n.rwlock := ⟨rfl, rfl⟩

theorem filteringDrops_locks {p : Double} {dropped : Bool} {n' : Locks O}
    (drawn : filteringDrops p setup.round setup.prng n = .ok (dropped, n')) :
    n'.mutex = n.mutex ∧ n'.rwlock = n.rwlock := by
  unfold filteringDrops at drawn
  split at drawn
  · cases drawn
    exact ⟨rfl, rfl⟩
  · split at drawn
    · obtain ⟨_, _, drawn⟩ := bind_eq_ok.mp drawn
      cases drawn
      exact prng_locks setup n
    · cases drawn
      exact ⟨rfl, rfl⟩

theorem filteringHandler_cases (handled : setup.filteringHandler cp e m = .ok (e', n)) :
    (n.mutex = m.others.mutex ∧ n.rwlock = m.others.rwlock) ∧
      (e' = e ∨ e' = { e with next := cp.id, readonly := true, skip := true }) := by
  unfold LockSetup.filteringHandler filteringHandle at handled
  split at handled
  · cases handled
    exact ⟨⟨rfl, rfl⟩, Or.inl rfl⟩
  · obtain ⟨_, _, handled⟩ := bind_eq_ok.mp handled
    obtain ⟨_, _, handled⟩ := bind_eq_ok.mp handled
    obtain ⟨⟨dropped, n'⟩, drawn, handled⟩ := bind_eq_ok.mp handled
    cases handled
    refine ⟨filteringDrops_locks drawn, ?_⟩
    cases dropped with
    | true => exact Or.inr rfl
    | false => exact Or.inl rfl

theorem chain_handler_good {before between after : List (FurtherHandler O)}
    {handler : Handler (Locks O)} (member : handler ∈ setup.chain before between after)
    (good : LocksGood setup (cp :: tasks) m.others) (handled : handler cp e m = .ok (e', n)) :
    LocksGood setup (cp :: tasks) n := by
  obtain ⟨inner, inside, rfl⟩ : ∃ inner, (inner = setup.mutexHandler ∨ inner = setup.rwlockHandler ∨
      inner = setup.filteringHandler ∨ ∃ handler, inner = LockSetup.further handler) ∧
      LockSetup.stopOnSkip inner = handler := by
    simp only [LockSetup.chain, LockSetup.front, List.map_append, List.map_cons, List.mem_append,
      List.mem_cons, List.mem_map] at member
    grind
  unfold LockSetup.stopOnSkip at handled
  split at handled
  · cases handled
    exact good
  · have same : ∀ p ∈ cp :: cp :: tasks, p ∈ cp :: tasks := by simp
    rcases inside with rfl | rfl | rfl | ⟨handler, rfl⟩
    · obtain ⟨handled, rwlock⟩ := mutexHandler_locks handled
      exact ⟨(mutexHandle_inv good.mutex handled).mono same, rwlock ▸ good.rwlock⟩
    · obtain ⟨handled, mutex⟩ := rwlockHandler_locks handled
      exact ⟨mutex ▸ good.mutex, (rwlockHandle_inv good.rwlock handled).mono same⟩
    · obtain ⟨⟨mutex, rwlock⟩, _⟩ := filteringHandler_cases handled
      exact ⟨mutex ▸ good.mutex, rwlock ▸ good.rwlock⟩
    · obtain ⟨mutex, rwlock, _⟩ := further_locks handled
      exact ⟨mutex ▸ good.mutex, rwlock ▸ good.rwlock⟩

theorem runHandlers_rule {N : Type} {holds : N → Prop} (handlers : List (Handler N))
    {cp : CapturePoint} {e e' : Decision} {m m' : ModuleState N}
    (each : ∀ handler ∈ handlers, ∀ e m e' n, holds m.others → handler cp e m = .ok (e', n) → holds n)
    (start : holds m.others) (run : runHandlers handlers cp e m = .ok (e', m')) :
    holds m'.others := by
  induction handlers generalizing e m with
  | nil =>
      cases run
      exact start
  | cons handler handlers ih =>
      rw [runHandlers_cons] at run
      obtain ⟨⟨e₁, n⟩, first, run⟩ := bind_eq_ok.mp run
      exact ih (fun later member => each later (List.mem_cons_of_mem _ member))
        (each handler List.mem_cons_self e m e₁ n start first) run

theorem selectNext_locks {d : TaskId} {m m' : ModuleState (Locks O)}
    (selected : selectNext (prngRange setup.prng) cp e m = .ok (d, e', m')) :
    m'.others.mutex = m.others.mutex ∧ m'.others.rwlock = m.others.rwlock := by
  unfold selectNext at selected
  split at selected
  · obtain ⟨_, _, selected⟩ := bind_eq_ok.mp selected
    cases selected
    exact ⟨rfl, rfl⟩
  · split at selected
    · cases selected
      exact ⟨rfl, rfl⟩
    · split at selected
      · cases selected
        exact ⟨rfl, rfl⟩
      · split at selected <;> cases selected <;> exact ⟨rfl, rfl⟩

theorem unmarshal_locks (mods : Modules O P) (records : List (Record (Tidset × P)))
    (m : ModuleState (Locks O)) :
    let m' := records.foldl (unmarshalInto (withBlocking (withLocks mods))) m
    m'.others.mutex = m.others.mutex ∧ m'.others.rwlock = m.others.rwlock := by
  induction records generalizing m with
  | nil => exact ⟨rfl, rfl⟩
  | cons r records ih =>
      rw [List.foldl_cons]
      obtain ⟨mutex, rwlock⟩ := ih (unmarshalInto (withBlocking (withLocks mods)) m r)
      have step : (unmarshalInto (withBlocking (withLocks mods)) m r).others.mutex = m.others.mutex ∧
          (unmarshalInto (withBlocking (withLocks mods)) m r).others.rwlock = m.others.rwlock := by
        cases kind : r.kind <;> simp [unmarshalInto, kind, withBlocking, withLocks]
      exact ⟨mutex.trans step.1, rwlock.trans step.2⟩

theorem resume_locks {more : CapturePoint → ModuleState (Locks O) → Except Fault O}
    (resumed : setup.resume more cp m = .ok n) :
    mutexResume setup.mutex cp m.others.mutex = .ok n.mutex ∧
      rwlockResume setup.event cp m.others.rwlock = .ok n.rwlock := by
  obtain ⟨mutex, ranMutex, resumed⟩ := bind_eq_ok.mp resumed
  obtain ⟨rwlock, ranRwlock, resumed⟩ := bind_eq_ok.mp resumed
  obtain ⟨others, _, resumed⟩ := bind_eq_ok.mp resumed
  cases resumed
  exact ⟨ranMutex, ranRwlock⟩

theorem isLockEvent_eq_false {ty : TypeId} (other : isLockEvent setup ty = false) :
    isMutexEvent ty = false ∧ setup.event ty = none := by
  simpa [isLockEvent, isRwlockEvent] using other

theorem resume_other {more : CapturePoint → ModuleState (Locks O) → Except Fault O}
    (other : isLockEvent setup cp.typeId = false) (resumed : setup.resume more cp m = .ok n) :
    n.mutex = m.others.mutex ∧ n.rwlock = m.others.rwlock := by
  obtain ⟨mutex, rwlock⟩ := resume_locks resumed
  obtain ⟨notMutex, notRwlock⟩ := isLockEvent_eq_false other
  simp only [isMutexEvent, Bool.or_eq_false_iff, beq_eq_false_iff_ne] at notMutex
  rw [mutexResume, if_neg notMutex.1.1, if_neg notMutex.1.2, if_neg notMutex.2] at mutex
  rw [rwlockResume, notRwlock] at rwlock
  exact ⟨(Except.ok.inj mutex).symm, (Except.ok.inj rwlock).symm⟩

section Run

variable {mods : Modules O P} {t rest : List (Record (Tidset × P))} {w w' : World (Locks O) P}

structure LocksInv (setup : LockSetup O) (w : World (Locks O) P) : Prop where
  tasks : ∀ p ∈ pending w, p.id ≠ noTask
  good : LocksGood setup (pending w) w.engine.modules.others

theorem locksInv_move (move : Move (withLocks mods) (dropRules setup) t rest w w')
    (inv : LocksInv setup w) : LocksInv setup w' := by
  cases move with
  | quiet modules recorder running log shouldRecord others =>
      have same : pending w' = pending w := by rw [pending, pending, running, log]
      refine ⟨by rw [same]; exact inv.tasks, ?_⟩
      rw [same]
      rcases others with others | ⟨cp, chain, boots, ⟨more, rfl⟩, resumed⟩
      · rw [others]
        exact inv.good
      · obtain ⟨mutex, rwlock⟩ := resume_other boots resumed
        exact ⟨mutex ▸ inv.good.mutex, rwlock ▸ inv.good.rwlock⟩
  | @capture cp handlers prngNext d p e s idle valid admitted decided first opened unmarshalled second
      finished running log =>
      obtain ⟨_, _, ⟨before, between, after, rfl⟩, rfl⟩ := admitted
      have now : pending w' = cp :: pending w := by
        simp only [pending, running, idle, log]
        rfl
      have unchanged := unmarshal_locks mods (loaded (w.clk + 1) rest) w.engine.modules
      have start : LocksGood setup (cp :: pending w) s.modules.others := by
        apply LocksGood.mono (fun p member => List.mem_cons_of_mem cp member)
        rw [unmarshalled]
        exact ⟨unchanged.1 ▸ inv.good.mutex, unchanged.2 ▸ inv.good.rwlock⟩
      obtain ⟨⟨e₁, m₁⟩, handled, second⟩ := bind_eq_ok.mp second
      obtain ⟨⟨d₂, e₂, m₂⟩, selected, second⟩ := bind_eq_ok.mp second
      obtain ⟨⟨p₃, s₃⟩, ended, second⟩ := bind_eq_ok.mp second
      cases second
      have good₁ : LocksGood setup (cp :: pending w) m₁.others :=
        runHandlers_rule _ (fun handler member e m e' n good ran => chain_handler_good member good ran)
          start handled
      obtain ⟨mutex, rwlock⟩ := selectNext_locks selected
      obtain ⟨_, _, same, _⟩ := captureEnd_frame ended
      refine ⟨?_, ?_⟩
      · intro p member
        rw [now] at member
        rcases List.mem_cons.mp member with rfl | old
        · exact valid.task
        · exact inv.tasks p old
      · rw [now, same]
        exact ⟨mutex ▸ good₁.mutex, rwlock ▸ good₁.rwlock⟩
  | @resume capture cp chain running task admitted published handled modules output stopped log =>
      obtain ⟨more, rfl⟩ := published
      have now : pending w' = without (pending w) cp.id := by
        simp only [pending, running, stopped, log, suspended, List.foldl_append, List.foldl_cons,
          List.foldl_nil]
      obtain ⟨mutex, rwlock⟩ := resume_locks handled
      refine ⟨?_, ?_⟩
      · intro p member
        rw [now] at member
        exact inv.tasks p (mem_without.mp member).1
      · rw [now]
        refine ⟨mutexResume_inv inv.good.mutex task inv.tasks ?_ mutex,
          rwlockResume_inv inv.good.rwlock ?_ rwlock⟩
        · intro p member same
          apply (admitted p member same).mono
          intro ty lock
          simp [isLockEvent, lock]
        · intro p member same
          apply (admitted p member same).mono
          intro ty lock
          simp [isLockEvent, lock]

theorem reaches_locksInv (wf : WellFormed t) (noForce : NoForce t)
    {input : Option (List (Record (Tidset × P)))} (source : input = some t ∨ t = [] ∧ input = none)
    {recording : Bool} {others : O}
    (reached : Reaches (withLocks mods) (dropRules setup)
      (World.start input (if recording then some [] else none) (locksInit others)) w) :
    LocksInv setup w := by
  refine reaches_rule wf (start_inv wf noForce source recording _) ?_ ?_ reached
  · refine ⟨by simp [pending, World.start, suspended], ?_⟩
    exact ⟨mutexInv_start, Library.KeyMap.All.empty⟩
  · intro w w' rest rest' _ _ move
    exact locksInv_move move

end Run

def Keeps (handler : FurtherHandler O) : Prop :=
  ∀ cp e m e' others, handler cp e m = .ok (e', others) → e'.replay = e.replay

theorem stopOnSkip_cases {handler : Handler (Locks O)}
    (handled : LockSetup.stopOnSkip handler cp e m = .ok (e', n)) (runs : e'.skip = false) :
    e.skip = false ∧ handler cp e m = .ok (e', n) := by
  unfold LockSetup.stopOnSkip at handled
  split at handled
  · rename_i skipped
    cases handled
    rw [skipped] at runs
    cases runs
  · rename_i on
    exact ⟨by simpa using on, handled⟩

theorem runHandlers_append {N : Type} (front back : List (Handler N)) (cp : CapturePoint)
    (e : Decision) (m : ModuleState N) :
    runHandlers (front ++ back) cp e m =
      runHandlers front cp e m >>= fun handled => runHandlers back cp handled.1 handled.2 := by
  simp only [runHandlers, List.foldlM_append]

theorem runHandlers_skipped (handlers : List (Handler (Locks O))) (skipped : e.skip = true) :
    runHandlers (handlers.map LockSetup.stopOnSkip) cp e m = .ok (e, m) := by
  induction handlers with
  | nil => rfl
  | cons handler handlers ih =>
      rw [List.map_cons, runHandlers_cons, LockSetup.stopOnSkip, if_pos skipped, ok_bind]
      exact ih

theorem runFurther_cases {handlers : List (FurtherHandler O)} {m m' : ModuleState (Locks O)}
    (keeps : ∀ handler ∈ handlers, Keeps handler)
    (run : runHandlers ((handlers.map LockSetup.further).map LockSetup.stopOnSkip) cp e m =
      .ok (e', m')) (runs : e'.skip = false) :
    e.skip = false ∧ e'.replay = e.replay ∧ m'.others.mutex = m.others.mutex ∧
      m'.others.rwlock = m.others.rwlock := by
  induction handlers generalizing e m with
  | nil =>
      cases run
      exact ⟨runs, rfl, rfl, rfl⟩
  | cons handler handlers ih =>
      rw [List.map_cons, List.map_cons, runHandlers_cons] at run
      obtain ⟨⟨e₁, n⟩, first, run⟩ := bind_eq_ok.mp run
      obtain ⟨runs₁, replay, mutex, rwlock⟩ :=
        ih (fun later member => keeps later (List.mem_cons_of_mem _ member)) run
      obtain ⟨on, first⟩ := stopOnSkip_cases first runs₁
      obtain ⟨mutex₁, rwlock₁, others, ran⟩ := further_locks first
      exact ⟨on, replay.trans (keeps handler List.mem_cons_self _ _ _ _ _ ran), mutex.trans mutex₁,
        rwlock.trans rwlock₁⟩

structure FrontRun (setup : LockSetup O) (cp : CapturePoint) (e e' : Decision) (n n' : Locks O) :
    Prop where
  replay : e'.replay = e.replay
  mutex : ∃ e₀ e₁, e₀.skip = false ∧ mutexHandle setup.mutex cp e₀ n.mutex = .ok (e₁, n'.mutex)
  rwlock : ∃ e₀ e₁, e₀.skip = false ∧ rwlockHandle setup.event cp e₀ n.rwlock = .ok (e₁, n'.rwlock)

theorem front_run {before between : List (FurtherHandler O)} {m m' : ModuleState (Locks O)}
    (keeps : ∀ handler ∈ before ++ between, Keeps handler)
    (run : runHandlers (setup.front before between) cp e m = .ok (e', m')) (runs : e'.skip = false) :
    FrontRun setup cp e e' m.others m'.others := by
  rw [LockSetup.front, List.map_append, runHandlers_append] at run
  obtain ⟨⟨e₁, m₁⟩, ranBefore, run⟩ := bind_eq_ok.mp run
  rw [List.map_cons, List.map_cons, runHandlers_cons] at run
  obtain ⟨⟨e₂, n₂⟩, ranMutex, run⟩ := bind_eq_ok.mp run
  rw [runHandlers_cons] at run
  obtain ⟨⟨e₃, n₃⟩, ranRwlock, ranBetween⟩ := bind_eq_ok.mp run
  obtain ⟨runs₃, replay₃, mutex₃, rwlock₃⟩ := runFurther_cases
    (fun handler member => keeps handler (List.mem_append_right _ member)) ranBetween runs
  obtain ⟨runs₂, ranRwlock⟩ := stopOnSkip_cases ranRwlock runs₃
  obtain ⟨runs₁, ranMutex⟩ := stopOnSkip_cases ranMutex runs₂
  obtain ⟨_, replay₁, mutex₁, rwlock₁⟩ := runFurther_cases
    (fun handler member => keeps handler (List.mem_append_left _ member)) ranBefore runs₁
  obtain ⟨handledRwlock, sameMutex⟩ := rwlockHandler_locks ranRwlock
  obtain ⟨handledMutex, sameRwlock⟩ := mutexHandler_locks ranMutex
  constructor
  · calc e'.replay = e₃.replay := replay₃
      _ = e₂.replay := (rwlockHandle_cases handledRwlock).1
      _ = e₁.replay := (mutexHandle_cases handledMutex).1
      _ = e.replay := replay₁
  · refine ⟨e₁, e₂, runs₁, ?_⟩
    rw [mutex₃, ← mutex₁]
    dsimp only at sameMutex ⊢
    rw [sameMutex]
    exact handledMutex
  · refine ⟨e₂, e₃, runs₂, ?_⟩
    rw [rwlock₃, ← rwlock₁, ← sameRwlock]
    exact handledRwlock

def dropDecision (cp : CapturePoint) (e : Decision) : Decision :=
  { e with next := cp.id, readonly := true, skip := true }

/-- The filtering handler drops the captured event, and leaves the given state. -/
def Drops (setup : LockSetup O) (mods : Modules O P) (before between : List (FurtherHandler O))
    (cp : CapturePoint) (w : World (Locks O) P) (n : Locks O) : Prop :=
  ∃ ry e s e₁ m₁ e₂, captureFirst (withLocks mods) cp w.engine = .ok (ry, e, s) ∧
    runHandlers (setup.front before between) cp e s.modules = .ok (e₁, m₁) ∧ e₁.skip = false ∧
    setup.filteringHandler cp e₁ m₁ = .ok (e₂, n) ∧ e₂.skip = true

theorem chain_dropped {before between : List (FurtherHandler O)} (after : List (FurtherHandler O))
    {e₁ e₂ : Decision} {m m₁ : ModuleState (Locks O)}
    (front : runHandlers (setup.front before between) cp e m = .ok (e₁, m₁)) (runs : e₁.skip = false)
    (filtered : setup.filteringHandler cp e₁ m₁ = .ok (e₂, n)) (dropped : e₂.skip = true) :
    e₂ = dropDecision cp e₁ ∧
      runHandlers (setup.chain before between after) cp e m = .ok (e₂, { m₁ with others := n }) := by
  constructor
  · rcases (filteringHandler_cases filtered).2 with rfl | shape
    · rw [runs] at dropped
      cases dropped
    · exact shape
  · rw [LockSetup.chain, runHandlers_append, front, ok_bind, List.map_cons, runHandlers_cons,
      LockSetup.stopOnSkip]
    simp only [runs, Bool.false_eq_true, if_false, filtered, ok_bind]
    exact runHandlers_skipped _ dropped

theorem selectNext_dropped (prngNext : Locks O → UInt64 × Locks O) (task : cp.id ≠ noTask) :
    selectNext (prngRange prngNext) cp (dropDecision cp e) m = .ok (cp.id, dropDecision cp e, m) := by
  cases chpt : e.isChpt with
  | false => simp [selectNext, dropDecision, chpt]
  | true => simp [selectNext, dropDecision, chpt, task]

theorem checkActions_wake (cp : CapturePoint) (p : Plan) :
    checkActions cp p actionWake =
      (check (p.next != cp.id) .planSelf >>= fun _ =>
        check (cp.typeId == eventTaskFini) .planFini) := rfl

theorem checkActions_block (cp : CapturePoint) (p : Plan) :
    checkActions cp p
        (actionWake ||| actionBlock ||| actionReturn ||| actionYield ||| actionResume) =
      (check (p.replayType != .off || p.next != cp.id) .planSelf >>= fun _ =>
        check cp.blocking .planBlocking) := rfl

/-- A plan that wakes its own task fails `_check_plan` at the end of a task, and at a blocking
capture outside a replay. -/
theorem checkPlan_self {d : TaskId} {actions : UInt32} {clk : Nat}
    (planned : planActions cp cp.id e = .ok actions)
    (passed : checkPlan cp (preparePlan cp e d cp.id actions clk) = .ok ()) :
    cp.typeId ≠ eventTaskFini ∧
      (cp.typeId ≠ eventTaskInit → blocks cp = true → e.replay = true) := by
  have pure : pureActions actions = actionSet cp := by
    unfold planActions at planned
    rw [if_neg (not_not.mpr rfl)] at planned
    split at planned
    · obtain ⟨plain, made, joined⟩ := bind_eq_ok.mp planned
      rw [actionsFor_set made] at joined
      cases joined
      exact (pureActions_set cp).2
    · rw [actionsFor_set planned]
      exact (pureActions_set cp).1
  obtain ⟨_, _, passed⟩ := bind_eq_ok.mp passed
  obtain ⟨_, _, passed⟩ := bind_eq_ok.mp passed
  have shape : (preparePlan cp e d cp.id actions clk).actions = actions := rfl
  rw [shape, pure] at passed
  have self : ((preparePlan cp e d cp.id actions clk).next != cp.id) = false := by
    simp [preparePlan]
  have notFini : cp.typeId ≠ eventTaskFini := by
    intro isFini
    have wake : actionSet cp = actionWake := by
      simp [actionSet, isFini, eventTaskFini, eventTaskCreate, eventTaskInit]
    rw [wake, checkActions_wake, self] at passed
    cases passed
  refine ⟨notFini, ?_⟩
  intro notInit blocking
  by_contra off
  rw [Bool.not_eq_true] at off
  obtain ⟨isBlocking, notCreate⟩ : cp.blocking = true ∧ cp.typeId ≠ eventTaskCreate := by
    simpa [blocks] using blocking
  have set : actionSet cp =
      actionWake ||| actionBlock ||| actionReturn ||| actionYield ||| actionResume := by
    simp [actionSet, notCreate, notInit, notFini, isBlocking]
  have recording : ((preparePlan cp e d cp.id actions clk).replayType != .off) = false := by
    simp [preparePlan, off]
  rw [set, checkActions_block, self, recording] at passed
  cases passed

/-- The resume halves of the handlers that can fail an assertion or panic pass, whatever random numbers
the evec handler draws. -/
structure Continues (setup : LockSetup O) (cp : CapturePoint) (n : Locks O) : Prop where
  mutex : ∃ st, mutexResume setup.mutex cp n.mutex = .ok st
  rwlock : ∃ locks, rwlockResume setup.event cp n.rwlock = .ok locks
  evec : ∀ randoms, ∃ st, evecResume ⟨cp.id, setup.evecEvent cp⟩ randoms (setup.evec n.others) = .ok st
  rusty : ∃ st, publishExecute (setup.rustyCtx cp) (setup.rusty n.others) = .ok st

/-- The capture of an event yields a plan that passes `_check_plan`, and the resume of the same capture,
which follows at once where the call does not block, passes. -/
def Accepted (setup : LockSetup O) (mods : Modules O P) (handlers : List (Handler (Locks O)))
    (cp : CapturePoint) (w : World (Locks O) P) : Prop :=
  ∃ p engine, sequencerCapture (withBlocking (withLocks mods))
      (captureDispatch handlers setup.prng) cp w.engine = .ok (p, engine) ∧
    checkPlan cp p = .ok () ∧ (cp.blocking = false → p.next = cp.id) ∧
    Continues setup cp engine.modules.others

/-- The events that the plan of a clock can be dropped at: no end of a task, outside a replay
neither a creation nor a blocking call, and no event for which the trace names another task. -/
structure Droppable (cp : CapturePoint) (ry : Replay) : Prop where
  fini : cp.typeId ≠ eventTaskFini
  recording : ry.status = .done → cp.typeId ≠ eventTaskCreate ∧ cp.blocking = false
  loaded : ry.status = .load → ry.id = cp.id ∨ cp.blocking = true

/-- An event that can be dropped: its plan allows it, the lock it is about lets the task go on, and in
the state in which it is dropped the evec handler and the Rust runtime are ready for it. -/
structure Harmless (setup : LockSetup O) (t : List (Record (Tidset × P))) (cp : CapturePoint)
    (w : World (Locks O) P) (n : Locks O) : Prop where
  plan : Droppable cp (answer (w.clk + 1) t)
  mutex : MutexReady cp w.engine.modules.others.mutex
  rwlock : RwlockReady setup.event cp w.engine.modules.others.rwlock
  evec : EvecReady ⟨cp.id, setup.evecEvent cp⟩ (setup.evec n.others)
  rusty : RustyReady (setup.rustyCtx cp) (setup.rusty n.others)

theorem replayNext_self {config : SequencerConfig} {ry : Replay} {next : TaskId}
    (real : cp.id ≠ anyTask) (free : ry.status ≠ .force)
    (replayed : replayNext config cp ry cp.id = .ok next) :
    (ry.status = .load → ry.id = cp.id ∨ cp.blocking = true) ∧
      (ry.status = .done ∨ cp.blocking = false → next = cp.id) := by
  cases status : ry.status with
  | load =>
      simp only [replayNext, status] at replayed
      obtain ⟨_, passed, loaded⟩ := bind_eq_ok.mp replayed
      cases loaded
      rw [check_ok_iff] at passed
      simp only [Bool.or_eq_true, beq_iff_eq, real, false_or] at passed
      refine ⟨fun _ => passed.imp Eq.symm id, ?_⟩
      rintro (done | calm)
      · cases done
      · exact (passed.resolve_right (by simp [calm])).symm
  | force => exact absurd status free
  | done =>
      simp only [replayNext, status] at replayed
      cases replayed
      exact ⟨fun load => absurd load (by decide), fun _ => rfl⟩
  | cont =>
      simp only [replayNext, status, ite_self] at replayed
      cases replayed
      exact ⟨fun load => absurd load (by decide), fun _ => rfl⟩

section Plan

variable {M Q : Type} {mods : Modules M Q} {ry : Replay} {s s' : Engine M Q}

theorem plannedNext_self (config : SequencerConfig) (free : ry.status ≠ .force)
    (loads : ry.status = .load → ry.id = cp.id ∨ cp.blocking = true) :
    plannedNext config cp ry cp.id = cp.id ∨
      ry.status = .load ∧ cp.blocking = true ∧ plannedNext config cp ry cp.id = ry.id := by
  cases status : ry.status with
  | load =>
      rcases loads status with same | blocking
      · exact Or.inl (by simp [plannedNext, status, same])
      · exact Or.inr ⟨rfl, blocking, by simp [plannedNext, status]⟩
  | force => exact absurd status free
  | done => exact Or.inl (by simp [plannedNext, status])
  | cont => exact Or.inl (by simp [plannedNext, status])

/-- The plan of a droppable event passes `_check_plan`, and keeps a task that does not block
running. -/
theorem droppable_plan (mods : Modules M Q)
    (gran : isGranularities (mods.config s.modules).gran = true)
    (free : ry.status ≠ .force) (loads : ry.status = .load → ry.id ≠ noTask)
    (task : cp.id ≠ noTask) (replay : e.replay = (ry.status != .done))
    (droppable : Droppable cp ry) :
    ∃ p s', captureEnd mods cp ry cp.id e s = .ok (p, s') ∧ checkPlan cp p = .ok () ∧
      (cp.blocking = false → p.next = cp.id) := by
  have agrees : LoadAgrees cp ry cp.id := by
    intro load
    rcases droppable.loaded load with same | blocking
    · exact Or.inr (Or.inl same.symm)
    · exact Or.inr (Or.inr blocking)
  have planned := plannedNext_self (mods.config s.modules) free droppable.loaded
  have someTask : plannedNext (mods.config s.modules) cp ry cp.id ≠ noTask := by
    rcases planned with self | ⟨load, _, other⟩
    · rw [self]
      exact task
    · rw [other]
      exact loads load
  have create : cp.typeId = eventTaskCreate →
      e.replay = true ∨ plannedNext (mods.config s.modules) cp ry cp.id = anyTask := by
    intro isCreate
    left
    rw [replay, bne_iff_ne]
    exact fun done => (droppable.recording done).1 isCreate
  obtain ⟨actions, ended, _⟩ := captureEnd_ok (s := s) mods rfl gran agrees someTask create
  refine ⟨_, _, ended, ?_, ?_⟩
  · obtain ⟨next, actions', replayed, actionsPlanned, shape⟩ := captureEnd_inv ended
    have sameNext : next = plannedNext (mods.config s.modules) cp ry cp.id :=
      Except.ok.inj (replayed.symm.trans (replayNext_planned agrees))
    rw [shape, sameNext]
    rw [sameNext] at actionsPlanned
    refine checkPlan_prepared actionsPlanned someTask ?_ ?_
    · exact fun isFini => absurd isFini droppable.fini
    · intro blocking off
      rw [replay] at off
      have done : ry.status = .done := by simpa using off
      simp [blocks, (droppable.recording done).2] at blocking
  · intro calm
    rcases planned with self | ⟨_, blocking, _⟩
    · exact self
    · rw [calm] at blocking
      cases blocking

theorem droppable_of_plan {p : Plan} (free : ry.status ≠ .force) (real : cp.id ≠ anyTask)
    (init : cp.typeId = eventTaskInit → cp.blocking = false)
    (fini : cp.typeId = eventTaskFini → cp.blocking = false)
    (replay : e.replay = (ry.status != .done))
    (ended : captureEnd mods cp ry cp.id e s = .ok (p, s')) (passed : checkPlan cp p = .ok ()) :
    Droppable cp ry := by
  obtain ⟨next, actions, replayed, planned, rfl⟩ := captureEnd_inv ended
  obtain ⟨loads, self⟩ := replayNext_self real free replayed
  have notFini : cp.typeId ≠ eventTaskFini := by
    intro isFini
    rw [self (Or.inr (fini isFini))] at planned passed
    exact (checkPlan_self planned passed).1 isFini
  refine ⟨notFini, ?_, loads⟩
  intro done
  have off : e.replay = false := by simp [replay, done]
  rw [self (Or.inl done)] at planned passed
  have notCreate : cp.typeId ≠ eventTaskCreate := by
    intro isCreate
    have refused : actionsFor cp cp.id e = .error .createNotAnyTask := by
      have other : (cp.id == anyTask) = false := by simpa using real
      simp [actionsFor, isCreate, off, other]
    unfold planActions at planned
    rw [if_neg (not_not.mpr rfl), refused] at planned
    split at planned <;> cases planned
  refine ⟨notCreate, ?_⟩
  cases blocking : cp.blocking with
  | false => rfl
  | true =>
      have blocked : blocks cp = true := by simp [blocks, blocking, notCreate]
      have notInit : cp.typeId ≠ eventTaskInit := fun isInit => by simp [init isInit] at blocking
      have on := (checkPlan_self planned passed).2 notInit blocked
      rw [off] at on
      cases on

end Plan

/-- A capture of a dropped event: the plan is that of a decision for the current task, and the lock
handlers have run their capture halves. -/
structure DroppedCapture (setup : LockSetup O) (mods : Modules O P)
    (handlers : List (Handler (Locks O))) (cp : CapturePoint) (w : World (Locks O) P) (ry : Replay)
    (n : Locks O) (e : Decision) (s : Engine (ModuleState (Locks O)) (Tidset × P)) : Prop where
  run : sequencerCapture (withBlocking (withLocks mods)) (captureDispatch handlers setup.prng) cp
    w.engine = captureEnd (withBlocking (withLocks mods)) cp ry cp.id e s
  replay : e.replay = (ry.status != .done)
  mutex : ∃ e₀ e₁, e₀.skip = false ∧ mutexHandle setup.mutex cp e₀ w.engine.modules.others.mutex =
    .ok (e₁, s.modules.others.mutex)
  rwlock : ∃ e₀ e₁, e₀.skip = false ∧
    rwlockHandle setup.event cp e₀ w.engine.modules.others.rwlock = .ok (e₁, s.modules.others.rwlock)
  left : s.modules.others = n

theorem dropped_capture {mods : Modules O P} {t rest : List (Record (Tidset × P))}
    (wf : WellFormed t) {w : World (Locks O) P} (inv : Inv t w rest) (valid : Valid w cp)
    {before between : List (FurtherHandler O)} (after : List (FurtherHandler O))
    (keeps : ∀ handler ∈ before ++ between, Keeps handler)
    (drops : Drops setup mods before between cp w n) :
    ∃ e s, DroppedCapture setup mods (setup.chain before between after) cp w
      (answer (w.clk + 1) t) n e s := by
  obtain ⟨ry, e, s, e₁, m₁, e₂, first, front, runs, filtered, dropped⟩ := drops
  obtain ⟨e', s', first', opened, unmarshalled⟩ := captureFirst_ok (withLocks mods) wf inv valid
  cases first.symm.trans first'
  obtain ⟨rfl, handled⟩ := chain_dropped after front runs filtered dropped
  have selected := selectNext_dropped (e := e₁) (m := { m₁ with others := n }) setup.prng valid.task
  have frontRun := front_run keeps front runs
  obtain ⟨⟨sameMutex, sameRwlock⟩, _⟩ := filteringHandler_cases filtered
  obtain ⟨keptMutex, keptRwlock⟩ :=
    unmarshal_locks mods (loaded (w.clk + 1) rest) w.engine.modules
  rw [← unmarshalled] at keptMutex keptRwlock
  refine ⟨dropDecision cp e₁, { s with modules := { m₁ with others := n } }, ?_, ?_, ?_, ?_, rfl⟩
  · rw [(sequencerCapture_eq first _ _).1]
    simp only [captureRest, handled, selected, ok_bind]
    cases captureEnd (withBlocking (withLocks mods)) cp (answer (w.clk + 1) t) cp.id
      (dropDecision cp e₁) { s with modules := { m₁ with others := n } } <;> rfl
  · exact frontRun.replay.trans opened.replay
  · obtain ⟨e₀, e₃, on, ran⟩ := frontRun.mutex
    rw [keptMutex] at ran
    exact ⟨e₀, e₃, on, by rw [ran, sameMutex]⟩
  · obtain ⟨e₀, e₃, on, ran⟩ := frontRun.rwlock
    rw [keptRwlock] at ran
    exact ⟨e₀, e₃, on, by rw [ran, sameRwlock]⟩

/-- In every reachable state, a dropped event is accepted by the engine and by the resume of the
same capture exactly if it is harmless. -/
theorem drop_accepted_iff (setup : LockSetup O) (mods : Modules O P)
    (granularities : ∀ o, isGranularities (mods.config o).gran = true)
    {t : List (Record (Tidset × P))} (wf : WellFormed t) (noForce : NoForce t)
    (named : ∀ r ∈ t, r.kind = .recordSched → r.id ≠ noTask)
    {input : Option (List (Record (Tidset × P)))} (source : input = some t ∨ t = [] ∧ input = none)
    (recording : Bool) (others : O) {w : World (Locks O) P}
    (reached : Reaches (withLocks mods) (dropRules setup)
      (World.start input (if recording then some [] else none) (locksInit others)) w)
    {cp : CapturePoint} (valid : Valid w cp) {before between after : List (FurtherHandler O)}
    (keeps : ∀ handler ∈ before ++ between, Keeps handler)
    {n : Locks O} (drops : Drops setup mods before between cp w n) :
    Accepted setup mods (setup.chain before between after) cp w ↔ Harmless setup t cp w n := by
  obtain ⟨rest, inv⟩ := reaches_inv wf (start_inv wf noForce source recording _) reached
  have locks := reaches_locksInv wf noForce source reached
  obtain ⟨e, s, capture⟩ := dropped_capture wf inv valid after keeps drops
  have notForce := answer_not_force noForce (w.clk + 1)
  have named' : (answer (w.clk + 1) t).status = .load → (answer (w.clk + 1) t).id ≠ noTask := by
    intro load
    obtain ⟨r, member, kind, _, id⟩ := answer_load load
    rw [id]
    exact named r member kind
  -- the resume halves start from the state that the capture halves left
  have mutexIff : (∃ st, mutexResume setup.mutex cp s.modules.others.mutex = .ok st) ↔
      MutexReady cp w.engine.modules.others.mutex := by
    obtain ⟨e₀, e₁, on, ran⟩ := capture.mutex
    exact mutexResume_ok_iff locks.good.mutex valid.task on ran
  have rwlockIff : (∃ st, rwlockResume setup.event cp s.modules.others.rwlock = .ok st) ↔
      RwlockReady setup.event cp w.engine.modules.others.rwlock := by
    obtain ⟨e₀, e₁, on, ran⟩ := capture.rwlock
    exact rwlockResume_ok_iff locks.good.rwlock valid.task on ran
  have continuesIff : Continues setup cp s.modules.others ↔
      MutexReady cp w.engine.modules.others.mutex ∧
        RwlockReady setup.event cp w.engine.modules.others.rwlock ∧
        EvecReady ⟨cp.id, setup.evecEvent cp⟩ (setup.evec n.others) ∧
        RustyReady (setup.rustyCtx cp) (setup.rusty n.others) := by
    rw [← mutexIff, ← rwlockIff, ← evecResume_ok_iff valid.task, ← publishExecute_ok_iff, ← capture.left]
    constructor
    · intro continues
      exact ⟨continues.mutex, continues.rwlock, continues.evec, continues.rusty⟩
    · rintro ⟨mutex, rwlock, evec, rusty⟩
      exact ⟨mutex, rwlock, evec, rusty⟩
  constructor
  · rintro ⟨p, engine, run, passed, _, continues⟩
    rw [capture.run] at run
    obtain ⟨_, _, rfl, _⟩ := captureEnd_frame run
    obtain ⟨mutex, rwlock, evec, rusty⟩ := continuesIff.mp continues
    refine ⟨?_, mutex, rwlock, evec, rusty⟩
    exact droppable_of_plan notForce valid.real (fun isInit => (valid.init isInit).1)
      (fun isFini => (valid.fini isFini).1) capture.replay run passed
  · intro harmless
    obtain ⟨p, engine, ended, passed, next⟩ := droppable_plan
      (withBlocking (withLocks mods)) (s := s) (granularities _) notForce named' valid.task
      capture.replay harmless.plan
    obtain ⟨_, _, same, _⟩ := captureEnd_frame ended
    refine ⟨p, engine, capture.run.trans ended, passed, next, ?_⟩
    rw [same]
    exact continuesIff.mpr ⟨harmless.mutex, harmless.rwlock, harmless.evec, harmless.rusty⟩

def rustyOff : RustyState where
  casEnabled := false
  eventEnabled := false
  memory := fun _ => 0
  cas := .new
  events := .new

theorem rustyOff_ready (ctx : Rinflex.Ctx) : RustyReady ctx rustyOff where
  sized := by
    intro enabled
    cases enabled
  settles := by
    intro enabled
    cases enabled

def dropSetup (ty : TypeId) : LockSetup Unit where
  event := fun _ => none
  mutex := { strict := false, deadlockCheck := false }
  filtering :=
    { enabled := true, maxTypes := 256
      drop := fun other => if other = ty then .finite 1 else .finite 0
      dropLess := fun _ => .finite 0 }
  round := fun q => q
  prngNext := fun n => (0, n)
  evec := fun _ => evecStart
  evecEvent := fun _ => .other
  rusty := fun _ => rustyOff
  rustyCtx := fun cp =>
    { id := cp.id, typeId := .other cp.typeId, after := false, pc := cp.pc, payload := none }

def freshRun : World (Locks Unit) Unit := World.start none (some []) (locksInit ())

def acquirePoint (id : TaskId) : CapturePoint := plainPoint id eventMutexAcquire 7

def createPoint : CapturePoint :=
  { plainPoint 1 eventTaskCreate 0 with blocking := true }

theorem drop_accepted_iff_free_mutex :
    ∃ n, Drops (dropSetup eventMutexAcquire) noModules [] [] (acquirePoint 2) freshRun n ∧
      Accepted (dropSetup eventMutexAcquire) noModules
        ((dropSetup eventMutexAcquire).chain [] [] []) (acquirePoint 2) freshRun := by
  have drops : Drops (dropSetup eventMutexAcquire) noModules [] [] (acquirePoint 2) freshRun _ :=
    ⟨_, _, _, _, _, _, rfl, rfl, rfl, rfl, rfl⟩
  have valid : Valid freshRun (acquirePoint 2) :=
    ⟨by decide, by decide, by simp [freshRun, World.start], by decide, by decide⟩
  refine ⟨_, drops, (drop_accepted_iff (dropSetup eventMutexAcquire) noModules (fun _ => rfl)
    ⟨List.Pairwise.nil, by simp⟩ (by simp [NoForce]) (by simp) (Or.inr ⟨rfl, rfl⟩) true ()
    Relation.ReflTransGen.refl valid (by simp) drops).mpr ⟨⟨by decide, fun _ => by decide, fun load => ?_⟩, ?_, ?_,
      trivial, rustyOff_ready _⟩⟩
  · cases load
  · exact ⟨fun _ mtx found => (by cases found), fun release => absurd release (by decide)⟩
  · exact ⟨fun read => (by cases read), fun write => (by cases write), fun unlock => (by cases unlock)⟩

def noMore : CapturePoint → ModuleState (Locks Unit) → Except Fault Unit :=
  fun _ m => .ok m.others.others

/-- A dropped creation fails the assertion of `_actions_for`. When task 1 owns a mutex, a dropped
acquire of task 2 fails that of `_posthandle_acquire`. -/
theorem dropped_events_refused :
    (Valid freshRun createPoint ∧
      (∃ n, Drops (dropSetup eventTaskCreate) noModules [] [] createPoint freshRun n) ∧
      ¬ Accepted (dropSetup eventTaskCreate) noModules ((dropSetup eventTaskCreate).chain [] [] [])
        createPoint freshRun) ∧
    ∃ w, Reaches (withLocks noModules) (dropRules (dropSetup eventMutexAcquire)) freshRun w ∧
      Valid w (acquirePoint 2) ∧
      (∃ n, Drops (dropSetup eventMutexAcquire) noModules [] [] (acquirePoint 2) w n) ∧
      ¬ Accepted (dropSetup eventMutexAcquire) noModules
        ((dropSetup eventMutexAcquire).chain [] [] []) (acquirePoint 2) w := by
  constructor
  · refine ⟨⟨by decide, by decide, List.not_mem_nil, by decide, by decide⟩,
      ⟨_, _, _, _, _, _, _, rfl, rfl, rfl, rfl, rfl⟩, ?_⟩
    rintro ⟨p, engine, run, _⟩
    have refused : sequencerCapture (withBlocking (withLocks noModules))
        (captureDispatch ((dropSetup eventTaskCreate).chain [] [] [])
          (dropSetup eventTaskCreate).prng) createPoint freshRun.engine =
        .error .createNotAnyTask := rfl
    rw [refused] at run
    cases run
  · let setup := dropSetup eventMutexAcquire
    have valid : Valid freshRun (acquirePoint 1) :=
      ⟨by decide, by decide, List.not_mem_nil, by decide, by decide⟩
    have captured : Step (withLocks noModules) (dropRules setup) freshRun _ :=
      Step.capture rfl valid ⟨by simp [pending, suspended, freshRun, World.start], fun _ => rfl,
        ⟨[], [], [], rfl⟩, rfl⟩ rfl rfl
    refine ⟨_, (Relation.ReflTransGen.single captured).tail
      (Step.resume rfl (show (acquirePoint 1).id ≠ noTask by decide) ?_ ⟨noMore, rfl⟩ rfl),
      ?_, ?_, ?_⟩
    · intro p member _
      rw [List.mem_singleton.mp member]
      exact ⟨rfl, fun _ => rfl⟩
    · exact ⟨by decide, by decide, List.not_mem_nil, by decide, by decide⟩
    · exact ⟨_, _, _, _, _, _, _, rfl, rfl, rfl, rfl, rfl⟩
    · -- task 2 waits for the mutex, is planned all the same and finds it owned
      rintro ⟨p, engine, run, _, _, continues⟩
      obtain ⟨st, mutex⟩ := continues.mutex
      cases run
      cases mutex

end Lotto.FilteringDrop
