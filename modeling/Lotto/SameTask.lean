import Lotto.Mediator
import Lotto.SwitcherAlike

namespace Lotto.SameTask

open Library.FaultRun Library.GuardedRun Library.Observed SwitcherProtocol SwitcherAlike

def selfActions : UInt32 := actionWake ||| actionYield ||| actionResume

section Mediated

variable {S : Type} {calls : MediatorCalls S} {m : Mediator} {p : Plan} {cp : CapturePoint}
  {s s₁ s₂ s₃ : S}

theorem mediatorResume_of_loop {plan : Plan} (going : m.finito = false)
    (resumable : planHas m.plan actionResume = true)
    (loop : resumeLoop calls { cp with id := m.id } 10 m.plan .ok s = .ok (.ok, plan, s₁))
    (done : plan.actions = actionNone) :
    mediatorResume calls m cp s = .ok (.ok, { m with plan }, s₁) := by
  have last : (planNext plan == actionNone) = true := by
    rw [planNext_eq, done]
    decide
  simp only [mediatorResume, going, resumable, Bool.not_false, Bool.true_or, check_true, ok_bind,
    loop, last]

theorem mediatorCapture_of_loop {plan : Plan} (going : m.finito = false)
    (captured : calls.engineCapture { cp with id := m.id } s = .ok (p, s))
    (loop : captureLoop calls { cp with id := m.id } 10
      (planOptimize p { cp with id := m.id } m.optimization) s = .ok (false, plan, s₁)) :
    mediatorCapture calls m cp s = .ok (false, { m with plan }, s₁) := by
  simp only [mediatorCapture, going, Bool.not_false, check_true, captured, ok_bind, loop]

theorem intercepted_plain (s₁ s₂ : S) (going : m.finito = false)
    (captured : calls.engineCapture { cp with id := m.id } s = .ok (p, s))
    (plain : planOptimize p { cp with id := m.id } m.optimization = p)
    (actions : p.actions = selfActions)
    (woke : calls.switcherWake p.next p.withSlack s = .ok s₁)
    (yielded : calls.switcherYield m.id p.anyTaskFilter s₁ = .ok s₂)
    (resumed : calls.engineResume { cp with id := m.id } s₂ = .ok s₃) :
    intercepted calls m cp s = .ok (.ok, { m with plan := { p with actions := actionNone } }, s₃) := by
  have left : p.actions &&& ~~~actionWake = actionYield ||| actionResume := by
    rw [actions]
    decide
  have waked : captureLoop calls { cp with id := m.id } 10 p s =
      .ok (false, { p with actions := actionYield ||| actionResume }, s₁) := by
    rw [captureLoop_wake (by rw [actions]; decide) (by rw [left]; decide) woke, left]
    exact captureLoop_yield (show nextAction (actionYield ||| actionResume) = actionYield by decide)
  have resumes : mediatorResume calls { m with plan := { p with actions := actionYield ||| actionResume } }
      cp s₁ = .ok (.ok, { m with plan := { p with actions := actionNone } }, s₃) := by
    refine mediatorResume_of_loop going
      (show planHas { p with actions := actionYield ||| actionResume } actionResume = true by
        simp only [planHas]
        decide) ?_ rfl
    have rest : (actionYield ||| actionResume) &&& ~~~actionYield = actionResume := by decide
    have last : actionResume &&& ~~~actionResume = actionNone := by decide
    rw [resumeLoop_yield (show nextAction (actionYield ||| actionResume) = actionYield by decide)
      (show (actionYield ||| actionResume) &&& ~~~actionYield ≠ actionNone by decide) yielded]
    simp only [rest]
    rw [resumeLoop_resume (show nextAction actionResume = actionResume by decide) resumed, if_pos last]
    simp only [last]
  rw [intercepted, mediatorCapture_of_loop going captured (by rw [plain]; exact waked), ok_bind]
  exact resumes

theorem intercepted_optimised (going : m.finito = false)
    (captured : calls.engineCapture { cp with id := m.id } s = .ok (p, s))
    (optimised : planOptimize p { cp with id := m.id } m.optimization =
      { p with actions := actionResume ||| actionContinue })
    (resumed : calls.engineResume { cp with id := m.id } s = .ok s₁) :
    intercepted calls m cp s = .ok (.ok, { m with plan := { p with actions := actionNone } }, s₁) := by
  have kept : captureLoop calls { cp with id := m.id } 10
      { p with actions := actionResume ||| actionContinue } s =
        .ok (false, { p with actions := actionResume ||| actionContinue }, s) :=
    captureLoop_resume (show nextAction (actionResume ||| actionContinue) = actionResume by decide)
  have resumes : mediatorResume calls
      { m with plan := { p with actions := actionResume ||| actionContinue } } cp s =
        .ok (.ok, { m with plan := { p with actions := actionNone } }, s₁) := by
    refine mediatorResume_of_loop going
      (show planHas { p with actions := actionResume ||| actionContinue } actionResume = true by
        simp only [planHas]
        decide) ?_ rfl
    have rest : (actionResume ||| actionContinue) &&& ~~~actionResume = actionContinue := by decide
    rw [resumeLoop_resume (show nextAction (actionResume ||| actionContinue) = actionResume by decide)
      resumed, if_neg (by simp only [rest]; decide)]
    simp only [rest]
    exact resumeLoop_continue (show nextAction actionContinue = actionContinue by decide)
      (show actionContinue &&& ~~~actionContinue = actionNone by decide)
  rw [intercepted, mediatorCapture_of_loop going captured (by rw [optimised]; exact kept), ok_bind]
  exact resumes

theorem planOptimize_cases (cp : CapturePoint) (next : p.next = cp.id) (actions : p.actions = selfActions)
    (optimization : MediatorOptimization) : planOptimize p cp optimization = p ∨
      planOptimize p cp optimization = { p with actions := actionResume ||| actionContinue } := by
  have applies : ¬(p.next ≠ cp.id ∨ p.actions ≠ actionWake ||| actionYield ||| actionResume) := by
    rw [not_or, not_not, not_not]
    exact ⟨next, actions⟩
  unfold planOptimize
  rw [if_neg applies]
  cases optimization with
  | none => exact Or.inl rfl
  | sameTaskExceptAny =>
      by_cases any : p.replayType = .anyTask
      · exact Or.inl (if_pos any)
      · exact Or.inr (if_neg any)
  | sameTask => exact Or.inr rfl

end Mediated

variable {W : Type}

def Others (id : TaskId) (w w' : World W) : Prop := ∃ seen, Run (Steps (· ≠ id)) w seen w'

section Others

variable {id other : TaskId} {w w' v : World W} {filter : TaskFilter W} {woken : List TaskId}
  {seen : List (Seen W)}

theorem settle_other (apart : other ≠ id) (runs : w.stage id = .running) :
    (settle other filter woken w).stage id = .running := by
  cases waits : yieldWaits other (tellsWait filter w.world other) w.sw with
  | true =>
      rw [settle_waits waits, put_stage, if_neg (Ne.symm apart)]
      exact rouse_running.mpr runs
  | false =>
      rw [settle_passes waits, put_stage, if_neg (Ne.symm apart)]
      exact runs

theorem running_stays (runs : w.stage id = .running) (step : Steps (· ≠ id) w seen w') :
    w'.stage id = .running := by
  obtain ⟨m, apart, allowed, moved, _⟩ := step
  have other : id ≠ mover m := Ne.symm apart
  have put : ∀ (v : World W) (s : Stage W), v.stage id = .running →
      (v.put (mover m) s).stage id = .running := by
    intro v s running
    rw [put_stage, if_neg other]
    exact running
  cases m with
  | act x world =>
      cases moved
      exact runs
  | create x child =>
      obtain ⟨_, fresh, _⟩ := allowed
      cases moved
      have young : id ≠ child := by
        rintro rfl
        rw [runs] at fresh
        cases fresh
      rw [put_stage, if_neg young]
      exact put w .leaving runs
  | wake x target slack woken =>
      obtain ⟨_, rfl⟩ := wake_ok allowed.2.1 moved
      exact put _ .leaving (rouse_running.mpr runs)
  | finish x =>
      cases moved
      exact put w .finished runs
  | enter x filter woken =>
      cases moved
      apply settle_other apart
      exact put _ (.awake filter) runs
  | recheck x woken =>
      obtain ⟨⟨filter, awake⟩, _⟩ := allowed
      simp only [move, awake] at moved
      split at moved
      · cases moved
        exact put w (.slacking filter) runs
      · cases moved
        exact settle_other apart runs
  | slackOver x woken =>
      obtain ⟨⟨filter, slacks⟩, _⟩ := allowed
      simp only [move, slacks] at moved
      cases moved
      apply settle_other apart
      exact put _ (.awake filter) runs
  | spurious x =>
      obtain ⟨filter, asleep⟩ := allowed
      simp only [move, asleep] at moved
      cases moved
      exact put w (.awake filter) runs

theorem protocol_stays {who : TaskId → Prop} (inv : Protocol w) (step : Steps who w seen w') :
    Protocol w' := by
  obtain ⟨m, _, allowed, moved, _⟩ := step
  obtain ⟨next, same, kept⟩ := move_kept inv allowed
  rw [moved] at same
  cases same
  exact kept

theorem Others.refl (id : TaskId) (w : World W) : Others id w w := ⟨[], Run.stop w⟩

theorem Others.trans (first : Others id w v) (second : Others id v w') : Others id w w' := by
  obtain ⟨seen, first⟩ := first
  obtain ⟨more, second⟩ := second
  exact ⟨_, first.trans second⟩

theorem Others.protocol (others : Others id w w') (inv : Protocol w) : Protocol w' := by
  obtain ⟨_, run⟩ := others
  induction run with
  | stop => exact inv
  | step head _ ih => exact ih (protocol_stays inv head)

theorem Others.running (others : Others id w w') (runs : w.stage id = .running) :
    w'.stage id = .running := by
  obtain ⟨_, run⟩ := others
  induction run with
  | stop => exact runs
  | step head _ ih => exact ih (running_stays runs head)

theorem Others.alike (others : Others id w w') (alike : Alike w v) :
    ∃ v', Others id v v' ∧ Alike w' v' := by
  obtain ⟨seen, run⟩ := others
  obtain ⟨v', run', same⟩ := (alike_simulates (· ≠ id)).run alike run
  exact ⟨v', ⟨seen, run'⟩, same⟩

end Others

section Window

variable {id : TaskId} {w w' v : World W} {seen : List (Seen W)}

structure Window (id : TaskId) (w v : World W) : Prop where
  live : w.sw.status ≠ .aborted
  live' : v.sw.status ≠ .aborted
  called : w.sw.next = id
  free : v.sw.next = noTask
  counter : w.sw.counter = v.sw.counter
  world : w.world = v.world
  leaves : w.stage id = .leaving
  runs : v.stage id = .running
  stage : ∀ other, other ≠ id → settled (w.stage other) = settled (v.stage other)

theorem waits_uncalled {other : TaskId} (live : w.sw.status ≠ .aborted) (apart : w.sw.next ≠ other)
    (single : w.sw.next ≠ anyTask) (wait : Bool) : yieldWaits other wait w.sw = true := by
  simp [yieldWaits, live, apart, single]

theorem Window.roused (window : Window id w v) (woken : List TaskId) :
    Window id { w with stage := rouse woken w.stage } v := by
  refine ⟨window.live, window.live', window.called, window.free, window.counter, window.world, ?_,
    window.runs, ?_⟩
  · simp only [rouse, window.leaves]
  · intro other elsewhere
    rw [settled_rouse]
    exact window.stage other elsewhere

theorem Window.roused' (window : Window id w v) (woken : List TaskId) :
    Window id w { v with stage := rouse woken v.stage } := by
  refine ⟨window.live, window.live', window.called, window.free, window.counter, window.world,
    window.leaves, rouse_running.mpr window.runs, ?_⟩
  intro other elsewhere
  rw [settled_rouse]
  exact window.stage other elsewhere

theorem Window.stays (window : Window id w v) {other : TaskId} {filter : TaskFilter W}
    (apart : other ≠ id) (inside : settled (w.stage other) = .awake filter) {s : Stage W}
    (still : settled s = .awake filter) : Window id (w.put other s) v := by
  refine ⟨window.live, window.live', window.called, window.free, window.counter, window.world, ?_,
    window.runs, ?_⟩
  · rw [put_stage, if_neg (Ne.symm apart)]
    exact window.leaves
  · intro x elsewhere
    rw [put_stage, ← window.stage x elsewhere]
    by_cases same : x = other
    · rw [if_pos same, same, inside, still]
    · rw [if_neg same]

theorem Window.put (window : Window id w v) {other : TaskId} (apart : other ≠ id) {s s' : Stage W}
    (same : settled s = settled s') : Window id (w.put other s) (v.put other s') := by
  refine ⟨window.live, window.live', window.called, window.free, window.counter, window.world, ?_,
    ?_, ?_⟩
  · rw [put_stage, if_neg (Ne.symm apart)]
    exact window.leaves
  · rw [put_stage, if_neg (Ne.symm apart)]
    exact window.runs
  · intro x elsewhere
    rw [put_stage, put_stage]
    by_cases here : x = other
    · rw [if_pos here, if_pos here, same]
    · rw [if_neg here, if_neg here]
      exact window.stage x elsewhere

theorem Window.entered (window : Window id w v) {other : TaskId} (apart : other ≠ id)
    (filter : TaskFilter W) :
    Window id (entered other filter w) (SwitcherProtocol.entered other filter v) := by
  have counted : Window id { w with sw := yieldEnter other w.sw }
      { v with sw := yieldEnter other v.sw } := by
    refine ⟨window.live, window.live', window.called, window.free, ?_, window.world, window.leaves,
      window.runs, window.stage⟩
    simp only [yieldEnter, window.counter]
  exact counted.put apart rfl

theorem Window.waits (window : Window id w v) (task : IsTask id) {other : TaskId}
    (apart : other ≠ id) (wait : Bool) : yieldWaits other wait w.sw = true := by
  apply waits_uncalled window.live
  · rw [window.called]
    exact Ne.symm apart
  · rw [window.called]
    exact task.ne_any

theorem Window.sleeps (window : Window id w v) (task : IsTask id) {other : TaskId}
    {filter : TaskFilter W} (apart : other ≠ id) (inside : settled (w.stage other) = .awake filter)
    (woken : List TaskId) : admits other filter w = [] ∧ Window id (settle other filter woken w) v := by
  have waits := window.waits task apart (tellsWait filter w.world other)
  refine ⟨if_pos waits, ?_⟩
  rw [settle_waits waits]
  exact (window.roused woken).stays apart (by rw [settled_rouse]; exact inside) rfl

theorem window_step (window : Window id w v) (inv : Protocol w) (task : IsTask id)
    (step : Steps (· ≠ id) w seen w') : ∃ v', Run (Steps (· ≠ id)) v seen v' ∧ Window id w' v' := by
  obtain ⟨m, apart, allowed, moved, rfl⟩ := step
  have nobody : ∀ x, w.stage x ≠ .running := by
    intro x runs
    have free := inv.token x runs
    rw [window.called] at free
    exact task.1 free
  cases m with
  | act x world => exact absurd allowed (nobody x)
  | create x child => exact absurd allowed.1 (nobody x)
  | wake x target slack woken => exact absurd allowed.1 (nobody x)
  | finish x =>
      have other : x ≠ id := apart
      cases moved
      exact ⟨v.put x .finished, Run.one ⟨.finish x, apart,
        settled_leaving (window.stage x other) allowed, rfl, rfl⟩, window.put other rfl⟩
  | enter x filter woken =>
      have other : x ≠ id := apart
      obtain ⟨origin, inner, _⟩ := allowed
      cases moved
      have origin' : v.stage x = .outside ∨ v.stage x = .leaving := by
        rcases origin with out | leaves
        · exact Or.inl (settled_outside (window.stage x other) out)
        · exact Or.inr (settled_leaving (window.stage x other) leaves)
      obtain ⟨woken', rouses⟩ := rouses_exists (signals (.enter x filter []) v) v
      have inside := window.entered other filter
      have waits : yieldWaits x (tellsWait filter (entered x filter v).world x)
          (entered x filter v).sw = true := by
        apply waits_uncalled inside.live'
        · rw [inside.free]
          exact Ne.symm inner.1
        · rw [inside.free]
          decide
      have waits' := inside.waits task other (tellsWait filter (entered x filter w).world x)
      refine ⟨settle x filter woken' (entered x filter v), Run.one ⟨.enter x filter woken', apart,
        ⟨origin', inner, rouses⟩, rfl, ?_⟩, ?_⟩
      · rw [observe, observe, admits, admits, if_pos waits, if_pos waits']
      · rw [settle_waits waits, settle_waits waits']
        exact ((inside.roused woken).roused' woken').put other rfl
  | recheck x woken =>
      have other : x ≠ id := apart
      obtain ⟨⟨filter, awake⟩, _⟩ := allowed
      have inside : settled (w.stage x) = .awake filter := by
        rw [awake]
        rfl
      simp only [move, awake] at moved
      simp only [observe, awake]
      by_cases slack : w.sw.slack ≠ 0
      · rw [if_pos slack] at moved ⊢
        cases moved
        exact ⟨v, Run.stop v, window.stays other inside rfl⟩
      · rw [if_neg slack] at moved ⊢
        cases moved
        obtain ⟨none, sleeps⟩ := window.sleeps task other inside woken
        rw [none]
        exact ⟨v, Run.stop v, sleeps⟩
  | slackOver x woken =>
      have other : x ≠ id := apart
      obtain ⟨⟨filter, slacks⟩, _⟩ := allowed
      have inside : settled (w.stage x) = .awake filter := by
        rw [slacks]
        rfl
      simp only [move, slacks] at moved
      simp only [observe, slacks]
      cases moved
      have ended : Window id (unslacked x filter w) v := by
        have unslack : Window id { w with sw := { w.sw with slack := 0 } } v :=
          ⟨window.live, window.live', window.called, window.free, window.counter, window.world,
            window.leaves, window.runs, window.stage⟩
        exact unslack.stays other inside rfl
      have here : settled ((unslacked x filter w).stage x) = .awake filter := by
        rw [unslacked, put_stage, if_pos rfl]
        rfl
      obtain ⟨none, sleeps⟩ := ended.sleeps task other here woken
      rw [none]
      exact ⟨v, Run.stop v, sleeps⟩
  | spurious x =>
      have other : x ≠ id := apart
      obtain ⟨filter, asleep⟩ := allowed
      simp only [move, asleep] at moved
      cases moved
      refine ⟨v, Run.stop v, window.stays other ?_ rfl⟩
      rw [asleep]
      rfl

theorem Window.others (window : Window id w v) (inv : Protocol w) (task : IsTask id)
    (others : Others id w w') : ∃ v', Others id v v' ∧ Window id w' v' := by
  obtain ⟨seen, run⟩ := others
  induction run generalizing v with
  | stop => exact ⟨v, Others.refl id v, window⟩
  | step head _ ih =>
      obtain ⟨mid, first, window⟩ := window_step window inv task head
      obtain ⟨v', rest, window⟩ := ih window (protocol_stays inv head)
      exact ⟨v', Others.trans ⟨_, first⟩ rest, window⟩

theorem window_opens (inv : Protocol w) (runs : w.stage id = .running) (slack : Nat)
    (woken : List TaskId) : Window id (called id id slack woken w) w := by
  have stage : ∀ x, (called id id slack woken w).stage x =
      if x = id then .leaving else rouse woken w.stage x := fun x => put_stage _ _ _ _
  refine ⟨inv.live, inv.live, rfl, inv.token id runs, rfl, rfl, ?_, runs, ?_⟩
  · rw [stage, if_pos rfl]
  · intro other elsewhere
    rw [stage, if_neg elsewhere, settled_rouse]

theorem Window.closes (window : Window id w v) (filter : TaskFilter W) (woken : List TaskId) :
    Alike (settle id filter woken (SwitcherProtocol.entered id filter w)) v ∧
      (settle id filter woken (SwitcherProtocol.entered id filter w)).stage id = .running := by
  have passes : yieldWaits id (tellsWait filter (SwitcherProtocol.entered id filter w).world id)
      (SwitcherProtocol.entered id filter w).sw = false := by
    have named : (SwitcherProtocol.entered id filter w).sw.next = id := window.called
    simp [yieldWaits, named]
  have live : (SwitcherProtocol.entered id filter w).sw.status ≠ .aborted := window.live
  obtain ⟨next, live', counter⟩ := yieldExit_sw id (SwitcherProtocol.entered id filter w).sw live
  rw [settle_passes passes]
  refine ⟨⟨live', window.live', next.trans window.free.symm, ?_, window.world, ?_⟩, ?_⟩
  · apply counter.trans
    rw [← window.counter]
    simp [SwitcherProtocol.entered, World.put, yieldEnter]
  · intro x
    rw [put_stage]
    by_cases here : x = id
    · rw [if_pos here, here, window.runs]
    · rw [if_neg here, SwitcherProtocol.entered, put_stage, if_neg here]
      exact window.stage x here
  · rw [put_stage, if_pos rfl]

end Window

section Interception

/-- What a call of the mediator meets: the critical sections of the other tasks before it, and the
waiters that its signals wake. -/
structure Turn (W : Type) where
  others : World W → World W
  woken : List Int → World W → List TaskId

/-- The other tasks keep to the switcher and `vcond_signal` wakes a waiter. -/
structure Turn.Fair (id : TaskId) (t : Turn W) : Prop where
  others : ∀ w, Others id w (t.others w)
  woken : ∀ buckets w, Rouses buckets (t.woken buckets w) w

def Turn.wake (t : Turn W) (id target : TaskId) (slack : Nat) (w : World W) : Move W :=
  .wake id target slack (t.woken (signals (.wake id target slack []) w) w)

def Turn.enter (t : Turn W) (id : TaskId) (filter : TaskFilter W) (w : World W) : Move W :=
  .enter id filter (t.woken (signals (.enter id filter []) w) w)

/-- What an intercepted call depends on: the plan that `engine_capture` returns, the slack of the
configuration, the filters of the handlers and the effect of `engine_resume` on their state. -/
structure Interception (W : Type) where
  plan : Plan
  slack : Nat
  filters : Nat → W → TaskId → Bool
  resume : CapturePoint → W → W

/-- The task among the others, with its calls of `engine_resume` and whether `switcher_yield` put it
to sleep. -/
structure Exec (W : Type) where
  w : World W
  turn : Nat
  resumed : List CapturePoint
  slept : Bool

def isRunning : Stage W → Bool
  | .running => true
  | _ => false

def Interception.slackOf (e : Interception W) (withSlack : Bool) : Nat :=
  if withSlack then e.slack else 0

def Interception.calls (e : Interception W) (id : TaskId) (schedule : Nat → Turn W) :
    MediatorCalls (Exec W) where
  engineCapture _ s := .ok (e.plan, s)
  engineReturn _ s := .ok s
  engineResume cp s := do
    let w := (schedule s.turn).others s.w
    let w ← move (.act id (e.resume cp w.world)) w
    .ok { s with w, turn := s.turn + 1, resumed := s.resumed ++ [cp] }
  switcherWake target withSlack s := do
    let t := schedule s.turn
    let w := t.others s.w
    let w ← move (t.wake id target (e.slackOf withSlack) w) w
    .ok { s with w, turn := s.turn + 1 }
  switcherYield id filter s := do
    let t := schedule s.turn
    let w := t.others s.w
    let w ← move (t.enter id (filter.map e.filters) w) w
    .ok { s with w, turn := s.turn + 1, slept := s.slept || !isRunning (w.stage id) }

def Interception.Returns (e : Interception W) (m : Mediator) (cp : CapturePoint)
    (schedule : Nat → Turn W) (w : World W) (s : Exec W) : Prop :=
  intercepted (e.calls m.id schedule) m cp ⟨w, 0, [], false⟩ =
    .ok (.ok, { m with plan := { e.plan with actions := actionNone } }, s)

def Interception.Outcome (e : Interception W) (m : Mediator) (cp : CapturePoint) (w : World W)
    (s : Exec W) : Prop :=
  ∃ schedule : Nat → Turn W, (∀ n, (schedule n).Fair m.id) ∧ e.Returns m cp schedule w s

/-- The task goes on: it called `engine_resume` once, was never put to sleep and holds the switcher
with `next` cleared. -/
structure Resumed (id : TaskId) (cp : CapturePoint) (s : Exec W) : Prop where
  resumed : s.resumed = [{ cp with id }]
  awake : s.slept = false
  runs : s.w.stage id = .running
  next : s.w.sw.next = noTask
  protocol : Protocol s.w

end Interception

section Turns

variable {id : TaskId} {t : Turn W} {w v : World W}

theorem Turn.Fair.wakes (fair : t.Fair id) (inv : Protocol w) (runs : w.stage id = .running)
    (slack : Nat) : ∃ w', move (t.wake id id slack (t.others w)) (t.others w) = .ok w' ∧
      Protocol w' ∧ Window id w' (t.others w) := by
  have inv₁ := (fair.others w).protocol inv
  have runs₁ := (fair.others w).running runs
  have task : IsTask id := by
    apply inv.tasks
    rw [runs]
    simp
  have allowed : Allowed (t.others w) (t.wake id id slack (t.others w)) :=
    ⟨runs₁, Or.inl task, fair.woken _ _⟩
  obtain ⟨w', moved, kept⟩ := move_kept inv₁ allowed
  obtain ⟨_, rfl⟩ := wake_ok (Or.inl task) moved
  exact ⟨_, moved, kept, window_opens inv₁ runs₁ _ _⟩

theorem Turn.Fair.yields (fair : t.Fair id) (inv : Protocol w) (task : IsTask id)
    (window : Window id (t.others w) v) (filter : TaskFilter W) :
    ∃ w', move (t.enter id filter (t.others w)) (t.others w) = .ok w' ∧ Protocol w' ∧
      Alike w' v ∧ w'.stage id = .running := by
  have inv₁ := (fair.others w).protocol inv
  have allowed : Allowed (t.others w) (t.enter id filter (t.others w)) :=
    ⟨Or.inr window.leaves, task, fair.woken _ _⟩
  obtain ⟨w', moved, kept⟩ := move_kept inv₁ allowed
  obtain rfl := Except.ok.inj moved
  obtain ⟨alike, runs⟩ := window.closes filter _
  exact ⟨_, rfl, kept, alike, runs⟩

noncomputable def idle (W : Type) : Turn W where
  others w := w
  woken buckets w := Classical.choose (rouses_exists buckets w)

noncomputable def onward (w v : World W) : Turn W where
  others := open Classical in fun u => if u = w then v else u
  woken := (idle W).woken

theorem idle_fair (id : TaskId) : (idle W).Fair id :=
  ⟨Others.refl id, fun buckets w => Classical.choose_spec (rouses_exists buckets w)⟩

theorem onward_here (w v : World W) : (onward w v).others w = v := if_pos rfl

theorem onward_fair (others : Others id w v) : (onward w v).Fair id := by
  refine ⟨?_, (idle_fair id).woken⟩
  intro u
  by_cases here : u = w
  · rw [here, onward_here]
    exact others
  · rw [show (onward w v).others u = u from if_neg here]
    exact Others.refl id u

noncomputable def thirdTurn (t : Turn W) : Nat → Turn W
  | 0 => idle W
  | 1 => idle W
  | _ + 2 => t

end Turns

section Outcomes

variable {e : Interception W} {m : Mediator} {cp : CapturePoint} {schedule : Nat → Turn W}
  {w w₂ w₄ v : World W} {s : Exec W}

def Interception.acted (e : Interception W) (cp : CapturePoint) (w : World W) : World W :=
  { w with world := e.resume cp w.world }

theorem returns_plain (going : m.finito = false) (next : e.plan.next = m.id)
    (actions : e.plan.actions = selfActions)
    (plain : planOptimize e.plan { cp with id := m.id } m.optimization = e.plan)
    (woke : move ((schedule 0).wake m.id m.id (e.slackOf e.plan.withSlack) ((schedule 0).others w))
      ((schedule 0).others w) = .ok w₂)
    (yielded : move ((schedule 1).enter m.id (e.plan.anyTaskFilter.map e.filters)
      ((schedule 1).others w₂)) ((schedule 1).others w₂) = .ok w₄)
    (runs : w₄.stage m.id = .running) :
    e.Returns m cp schedule w ⟨e.acted { cp with id := m.id } ((schedule 2).others w₄), 3,
      [{ cp with id := m.id }], false⟩ := by
  refine intercepted_plain ⟨w₂, 1, [], false⟩ ⟨w₄, 2, [], false⟩ going rfl plain actions ?_ ?_ rfl
  · simp only [Interception.calls, next, woke, ok_bind]
  · simp only [Interception.calls, yielded, ok_bind, runs, isRunning, Bool.not_true, Bool.or_false]

theorem returns_optimised (going : m.finito = false)
    (optimised : planOptimize e.plan { cp with id := m.id } m.optimization =
      { e.plan with actions := actionResume ||| actionContinue }) :
    e.Returns m cp schedule w ⟨e.acted { cp with id := m.id } ((schedule 0).others w), 1,
      [{ cp with id := m.id }], false⟩ :=
  intercepted_optimised going rfl optimised rfl

theorem acted_alike (alike : Alike w v) (cp : CapturePoint) : Alike (e.acted cp w) (e.acted cp v) :=
  ⟨alike.live, alike.live', alike.next, alike.counter, congrArg (e.resume cp) alike.world,
    alike.stage⟩

theorem resumed_acted (inv : Protocol w) (runs : w.stage m.id = .running) (turn : Nat) :
    Resumed m.id cp ⟨e.acted { cp with id := m.id } w, turn, [{ cp with id := m.id }], false⟩ :=
  ⟨rfl, rfl, runs, inv.token m.id runs, inv.acted runs (e.resume { cp with id := m.id } w.world)⟩

theorem call_returns (m : Mediator) (cp : CapturePoint) (inv : Protocol w)
    (runs : w.stage m.id = .running) (going : m.finito = false)
    (next : e.plan.next = m.id) (actions : e.plan.actions = selfActions)
    (fair : ∀ n, (schedule n).Fair m.id) :
    ∃ s, e.Returns m cp schedule w s ∧ Resumed m.id cp s ∧
      ∃ v, Others m.id w v ∧ Alike s.w (e.acted { cp with id := m.id } v) := by
  have task : IsTask m.id := by
    apply inv.tasks
    rw [runs]
    simp
  have around : ∀ {n : Nat} {u : World W}, Protocol u → u.stage m.id = .running →
      Others m.id u ((schedule n).others u) ∧ Protocol ((schedule n).others u) ∧
        ((schedule n).others u).stage m.id = .running := by
    intro n u inv runs
    exact ⟨(fair n).others u, ((fair n).others u).protocol inv, ((fair n).others u).running runs⟩
  rcases planOptimize_cases { cp with id := m.id } next actions m.optimization with
    plain | optimised
  · obtain ⟨w₂, woke, inv₂, window⟩ := (fair 0).wakes inv runs (e.slackOf e.plan.withSlack)
    obtain ⟨v₃, others₃, window⟩ := window.others inv₂ task ((fair 1).others w₂)
    obtain ⟨w₄, yielded, inv₄, alike₄, runs₄⟩ :=
      (fair 1).yields inv₂ task window (e.plan.anyTaskFilter.map e.filters)
    obtain ⟨others₅, inv₅, runs₅⟩ := around (n := 2) inv₄ runs₄
    obtain ⟨v, others, alike⟩ := others₅.alike alike₄
    exact ⟨_, returns_plain going next actions plain woke yielded runs₄, resumed_acted inv₅ runs₅ 3, v,
      (((fair 0).others w).trans others₃).trans others, acted_alike alike _⟩
  · obtain ⟨others, inv₁, runs₁⟩ := around (n := 0) inv runs
    exact ⟨_, returns_optimised going optimised, resumed_acted inv₁ runs₁ 1, _, others,
      acted_alike (Alike.refl inv₁.live) _⟩

theorem call_reaches (m : Mediator) (cp : CapturePoint) (inv : Protocol w)
    (runs : w.stage m.id = .running) (going : m.finito = false)
    (next : e.plan.next = m.id) (actions : e.plan.actions = selfActions)
    (others : Others m.id w v) :
    ∃ s, e.Outcome m cp w s ∧ Alike s.w (e.acted { cp with id := m.id } v) := by
  have task : IsTask m.id := by
    apply inv.tasks
    rw [runs]
    simp
  rcases planOptimize_cases { cp with id := m.id } next actions m.optimization with
    plain | optimised
  · -- They stay idle until the task is back, where the world is still like the first one.
    obtain ⟨w₂, woke, inv₂, window⟩ := (idle_fair m.id).wakes inv runs (e.slackOf e.plan.withSlack)
    obtain ⟨w₄, yielded, inv₄, alike₄, runs₄⟩ :=
      (idle_fair m.id).yields inv₂ task window (e.plan.anyTaskFilter.map e.filters)
    obtain ⟨u, moved, alike⟩ := others.alike alike₄.symm
    refine ⟨_, ⟨thirdTurn (onward w₄ u), ?_, returns_plain going next actions plain woke yielded runs₄⟩,
      ?_⟩
    · intro n
      match n with
      | 0 => exact idle_fair m.id
      | 1 => exact idle_fair m.id
      | n + 2 => exact onward_fair moved
    · rw [show (thirdTurn (onward w₄ u) 2).others w₄ = u from onward_here w₄ u]
      exact acted_alike alike.symm _
  · refine ⟨_, ⟨fun _ => onward w v, fun _ => onward_fair others, returns_optimised going optimised⟩, ?_⟩
    rw [onward_here]
    exact acted_alike (Alike.refl (others.protocol inv).live) _

end Outcomes

/-- `_plan_optimize` is invisible: with every two optimisations, whatever the other tasks do in the
switcher meanwhile, the call returns the same status with one call of `engine_resume`, and each
outcome of one is an outcome of the other up to what no later critical section shows. -/
theorem sameTask_invisible {first : TaskId} (task : IsTask first) (world : W) {w : World W}
    (reached : Reachable (system first world) w) (e : Interception W) (m : Mediator)
    (cp : CapturePoint) (runs : w.stage m.id = .running) (going : m.finito = false)
    (next : e.plan.next = m.id) (actions : e.plan.actions = actionWake ||| actionYield ||| actionResume)
    (optimization optimization' : MediatorOptimization) :
    (∀ schedule : Nat → Turn W, (∀ n, (schedule n).Fair m.id) →
      ∃ s, e.Returns { m with optimization } cp schedule w s ∧ Resumed m.id cp s) ∧
    ∀ s, e.Outcome { m with optimization } cp w s →
      ∃ s', e.Outcome { m with optimization := optimization' } cp w s' ∧ Alike s.w s'.w ∧
        ∀ seen, Shows (Steps fun _ => True) s.w seen ↔ Shows (Steps fun _ => True) s'.w seen := by
  have inv : Protocol w := (protocol_kept task world).reachable reached
  refine ⟨?_, ?_⟩
  · intro schedule fair
    obtain ⟨s, returns, resumed, _⟩ :=
      call_returns { m with optimization } cp inv runs going next actions fair
    exact ⟨s, returns, resumed⟩
  · rintro s ⟨schedule, fair, returned⟩
    obtain ⟨same, returns, _, v, others, alike⟩ :=
      call_returns { m with optimization } cp inv runs going next actions fair
    obtain rfl : same = s := by
      unfold Interception.Returns at returns returned
      rw [returns] at returned
      simpa using returned
    obtain ⟨s', outcome, alike'⟩ :=
      call_reaches { m with optimization := optimization' } cp inv runs going next actions
        others
    have related := alike.trans alike'.symm
    exact ⟨s', outcome, related, fun seen => (alike_simulates fun _ => True).shows_iff
      (fun _ _ => Alike.symm) related seen⟩

def firstCall : Interception Unit where
  plan := ⟨actionWake ||| actionYield ||| actionResume, 1, true, .deterministic, .off, 1, none⟩
  slack := 5
  filters _ _ _ := false
  resume _ _ := ()

def firstMediator : Mediator := ⟨1, ⟨actionNone, noTask, false, .unknown, .off, 0, none⟩, .none, false⟩

def firstPoint : CapturePoint := ⟨0, 0, false, noTask, 0, 0⟩

theorem sameTask_invisible_sleeper : ∃ w : World Unit,
    Reachable (system 1 ()) w ∧ w.stage 2 = .asleep none ∧ ∃ s s',
      firstCall.Outcome firstMediator firstPoint w s ∧ Resumed 1 firstPoint s ∧
      firstCall.Outcome { firstMediator with optimization := .sameTask } firstPoint w s' ∧
      ∀ seen, Shows (Steps fun _ => True) s.w seen ↔ Shows (Steps fun _ => True) s'.w seen := by
  have task : IsTask 1 := ⟨by decide, by decide⟩
  have started : ∀ id, (system 1 ()).start.stage id = if id = 1 then .running else .outside := by
    intro id
    simp only [system, Function.update_apply]
  have enters : (system 1 ()).allowed (system 1 ()).start (.enter 2 none []) := by
    refine ⟨Or.inl (started 2), ⟨by decide, by decide⟩, ?_⟩
    intro bucket _ id filter asleep
    rw [started] at asleep
    split at asleep <;> cases asleep
  have reached : Reachable (system 1 ()) (settle 2 none [] (entered 2 none (system 1 ()).start)) :=
    Reachable.step Reachable.start enters rfl
  have waits : yieldWaits 2 (tellsWait none (entered 2 none (system 1 ()).start).world 2)
      (entered 2 none (system 1 ()).start).sw = true := by
    decide
  have asleep : (settle 2 none [] (entered 2 none (system 1 ()).start)).stage 2 = .asleep none := by
    rw [settle_waits waits, put_stage, if_pos rfl]
  have runs : (settle 2 none [] (entered 2 none (system 1 ()).start)).stage 1 = .running := by
    apply settle_other (by decide)
    rw [entered, put_stage, if_neg (by decide)]
    exact started 1
  obtain ⟨every, invisible⟩ := sameTask_invisible task () reached firstCall firstMediator firstPoint
    runs rfl rfl rfl .none .sameTask
  obtain ⟨s, returns, resumed⟩ := every (fun _ => idle Unit) fun _ => idle_fair 1
  have outcome : firstCall.Outcome firstMediator firstPoint _ s :=
    ⟨fun _ => idle Unit, fun _ => idle_fair 1, returns⟩
  obtain ⟨s', outcome', _, same⟩ := invisible s outcome
  exact ⟨_, reached, asleep, s, s', outcome, resumed, outcome', same⟩

end Lotto.SameTask
