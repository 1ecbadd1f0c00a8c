import Lotto.Library.Observed
import Lotto.SwitcherProtocol

namespace Lotto.SwitcherAlike

open Library.FaultRun Library.GuardedRun Library.Observed SwitcherProtocol

variable {W : Type}

/-- What a critical section shows: its task wakes another one, enters the switcher, is admitted, or
does something outside of it. -/
inductive Seen (W : Type) where
  | wake (id target : TaskId)
  | enter (id : TaskId)
  | pass (id : TaskId)
  | act (id : TaskId) (world : W)
  | create (id child : TaskId)
  | finish (id : TaskId)

def admits (id : TaskId) (filter : TaskFilter W) (w : World W) : List (Seen W) :=
  if yieldWaits id (tellsWait filter w.world id) w.sw then [] else [.pass id]

def observe : Move W → World W → List (Seen W)
  | .act id world, _ => [.act id world]
  | .create id child, _ => [.create id child]
  | .wake id target _ _, _ => [.wake id target]
  | .finish id, _ => [.finish id]
  | .enter id filter _, w => .enter id :: admits id filter (entered id filter w)
  | .recheck id _, w =>
      match w.stage id with
      | .awake filter => if w.sw.slack ≠ 0 then [] else admits id filter w
      | _ => []
  | .slackOver id _, w =>
      match w.stage id with
      | .slacking filter => admits id filter (unslacked id filter w)
      | _ => []
  | .spurious _, _ => []

def mover : Move W → TaskId
  | .act id _ => id
  | .create id _ => id
  | .wake id _ _ _ => id
  | .finish id => id
  | .enter id _ _ => id
  | .recheck id _ => id
  | .slackOver id _ => id
  | .spurious id => id

def Steps (who : TaskId → Prop) (w : World W) (seen : List (Seen W)) (w' : World W) : Prop :=
  ∃ m, who (mover m) ∧ Allowed w m ∧ move m w = .ok w' ∧ seen = observe m w

def settled : Stage W → Stage W
  | .asleep filter => .awake filter
  | .slacking filter => .awake filter
  | stage => stage

structure Alike (w v : World W) : Prop where
  live : w.sw.status ≠ .aborted
  live' : v.sw.status ≠ .aborted
  next : w.sw.next = v.sw.next
  counter : w.sw.counter = v.sw.counter
  world : w.world = v.world
  stage : ∀ id, settled (w.stage id) = settled (v.stage id)

theorem Alike.symm {w v : World W} (alike : Alike w v) : Alike v w :=
  ⟨alike.live', alike.live, alike.next.symm, alike.counter.symm, alike.world.symm,
    fun id => (alike.stage id).symm⟩

theorem Alike.trans {w v u : World W} (first : Alike w v) (second : Alike v u) : Alike w u :=
  ⟨first.live, second.live', first.next.trans second.next, first.counter.trans second.counter,
    first.world.trans second.world, fun id => (first.stage id).trans (second.stage id)⟩

theorem Alike.refl {w : World W} (live : w.sw.status ≠ .aborted) : Alike w w :=
  ⟨live, live, rfl, rfl, rfl, fun _ => rfl⟩

section Stages

variable {s s' : Stage W} {filter : TaskFilter W}

theorem settled_running (same : settled s = settled s') (runs : s = .running) : s' = .running := by
  subst runs
  cases s' <;> cases same
  rfl

theorem settled_outside (same : settled s = settled s') (out : s = .outside) : s' = .outside := by
  subst out
  cases s' <;> cases same
  rfl

theorem settled_leaving (same : settled s = settled s') (leaves : s = .leaving) : s' = .leaving := by
  subst leaves
  cases s' <;> cases same
  rfl

theorem settled_awake (same : settled s = .awake filter) :
    s = .asleep filter ∨ s = .awake filter ∨ s = .slacking filter := by
  cases s <;> cases same
  · exact Or.inl rfl
  · exact Or.inr (Or.inl rfl)
  · exact Or.inr (Or.inr rfl)

theorem settled_rouse (woken : List TaskId) (stage : TaskId → Stage W) (id : TaskId) :
    settled (rouse woken stage id) = settled (stage id) := by
  unfold rouse
  split
  · rename_i asleep
    rw [asleep]
    split <;> rfl
  · rfl

end Stages

section Alike

variable {w v : World W} {id : TaskId} {filter : TaskFilter W}

theorem Alike.waits (alike : Alike w v) (id : TaskId) (wait : Bool) :
    yieldWaits id wait w.sw = yieldWaits id wait v.sw := by
  have live : (w.sw.status != .aborted) = true := by
    simpa using alike.live
  have live' : (v.sw.status != .aborted) = true := by
    simpa using alike.live'
  rw [yieldWaits, yieldWaits, alike.next, live, live']

theorem Alike.admits (alike : Alike w v) (id : TaskId) (filter : TaskFilter W) :
    admits id filter w = admits id filter v := by
  rw [SwitcherAlike.admits, SwitcherAlike.admits, alike.world, alike.waits]

theorem Alike.put (alike : Alike w v) {s s' : Stage W} (same : settled s = settled s') :
    Alike (w.put id s) (v.put id s') := by
  refine ⟨alike.live, alike.live', alike.next, alike.counter, alike.world, ?_⟩
  intro other
  rw [put_stage, put_stage]
  by_cases here : other = id
  · rw [if_pos here, if_pos here, same]
  · rw [if_neg here, if_neg here, alike.stage]

theorem Alike.roused (alike : Alike w v) (woken woken' : List TaskId) :
    Alike { w with stage := rouse woken w.stage } { v with stage := rouse woken' v.stage } := by
  refine ⟨alike.live, alike.live', alike.next, alike.counter, alike.world, ?_⟩
  intro other
  rw [settled_rouse, settled_rouse, alike.stage]

theorem yieldExit_sw (id : TaskId) (sw : Switcher) (live : sw.status ≠ .aborted) :
    (yieldExit id sw).2.next = noTask ∧ (yieldExit id sw).2.status ≠ .aborted ∧
      (yieldExit id sw).2.counter =
        Function.update sw.counter (yieldBucket id) (sw.counter (yieldBucket id) - 1) := by
  simp only [yieldExit, if_neg live, true_and, and_true]
  split <;> simp

theorem Alike.exit (alike : Alike w v) (log log' : List Served) :
    Alike { w with sw := (yieldExit id w.sw).2, served := log }
      { v with sw := (yieldExit id v.sw).2, served := log' } := by
  obtain ⟨next, live, counter⟩ := yieldExit_sw id w.sw alike.live
  obtain ⟨next', live', counter'⟩ := yieldExit_sw id v.sw alike.live'
  exact ⟨live, live', next.trans next'.symm, by rw [counter, counter', alike.counter], alike.world,
    alike.stage⟩

theorem settle_waits (waits : yieldWaits id (tellsWait filter w.world id) w.sw = true)
    (woken : List TaskId) : settle id filter woken w =
      World.put { w with stage := rouse woken w.stage } id (.asleep filter) :=
  if_pos waits

theorem settle_passes (passes : yieldWaits id (tellsWait filter w.world id) w.sw = false)
    (woken : List TaskId) : settle id filter woken w =
      World.put { w with
        sw := (yieldExit id w.sw).2
        served := w.served ++ [⟨w.sw.next, id, tellsWait filter w.world id⟩] } id .running :=
  if_neg (Bool.eq_false_iff.mp passes)

theorem Alike.settle (alike : Alike w v) (woken woken' : List TaskId) :
    Alike (settle id filter woken w) (settle id filter woken' v) := by
  have same : yieldWaits id (tellsWait filter w.world id) w.sw =
      yieldWaits id (tellsWait filter v.world id) v.sw := by
    rw [alike.world, alike.waits]
  cases waits : yieldWaits id (tellsWait filter w.world id) w.sw with
  | true =>
      rw [settle_waits waits, settle_waits (same ▸ waits)]
      exact (alike.roused woken woken').put rfl
  | false =>
      rw [settle_passes waits, settle_passes (same ▸ waits)]
      exact (alike.exit _ _).put rfl

theorem Alike.entered (alike : Alike w v) (id : TaskId) (filter : TaskFilter W) :
    Alike (entered id filter w) (entered id filter v) := by
  have inside : Alike { w with sw := yieldEnter id w.sw } { v with sw := yieldEnter id v.sw } := by
    refine ⟨alike.live, alike.live', alike.next, ?_, alike.world, alike.stage⟩
    simp only [yieldEnter, alike.counter]
  exact inside.put rfl

theorem Alike.unslacked (alike : Alike w v) (inside : settled (w.stage id) = .awake filter) :
    Alike (unslacked id filter w) v := by
  refine ⟨alike.live, alike.live', alike.next, alike.counter, alike.world, ?_⟩
  intro other
  rw [← alike.stage]
  simp only [SwitcherProtocol.unslacked, put_stage]
  by_cases here : other = id
  · rw [if_pos here, here, inside]
    rfl
  · rw [if_neg here]

theorem Alike.stays (alike : Alike w v) (inside : settled (w.stage id) = .awake filter)
    {s : Stage W} (still : settled s = .awake filter) : Alike (w.put id s) v := by
  refine ⟨alike.live, alike.live', alike.next, alike.counter, alike.world, ?_⟩
  intro other
  rw [put_stage, ← alike.stage]
  by_cases here : other = id
  · rw [if_pos here, here, inside, still]
  · rw [if_neg here]

end Alike

section Simulation

variable {who : TaskId → Prop} {w w' v : World W} {id : TaskId} {filter : TaskFilter W}

theorem rouses_exists (buckets : List Int) (w : World W) : ∃ woken, Rouses buckets woken w := by
  induction buckets with
  | nil => exact ⟨[], fun bucket member => absurd member List.not_mem_nil⟩
  | cons bucket buckets ih =>
      obtain ⟨woken, rouses⟩ := ih
      by_cases sleeper : ∃ id filter, w.stage id = .asleep filter ∧ yieldBucket id = bucket
      · obtain ⟨first, filter, asleep, here⟩ := sleeper
        refine ⟨first :: woken, ?_⟩
        intro b member id filter' asleep' there
        rcases List.mem_cons.mp member with rfl | member
        · exact ⟨first, List.mem_cons_self, here, filter, asleep⟩
        · obtain ⟨other, found, facts⟩ := rouses b member id filter' asleep' there
          exact ⟨other, List.mem_cons_of_mem _ found, facts⟩
      · refine ⟨woken, ?_⟩
        intro b member id filter' asleep' there
        rcases List.mem_cons.mp member with rfl | member
        · exact absurd ⟨id, filter', asleep', there⟩ sleeper
        · exact rouses b member id filter' asleep' there

def Passes (id : TaskId) (filter : TaskFilter W) (w : World W) : Prop :=
  yieldWaits id (tellsWait filter w.world id) w.sw = false

theorem Passes.admits (passes : Passes id filter w) : admits id filter w = [.pass id] :=
  if_neg (Bool.eq_false_iff.mp passes)

theorem Passes.signals (passes : Passes id filter w) : settleSignals id filter w = [] :=
  if_neg (Bool.eq_false_iff.mp passes)

theorem Alike.passes (alike : Alike w v) (passes : Passes id filter w) : Passes id filter v := by
  unfold Passes at passes ⊢
  rw [← alike.world, ← alike.waits]
  exact passes

theorem rouses_none (w : World W) : Rouses [] [] w :=
  fun _ member => absurd member List.not_mem_nil

theorem admit_slacking (mine : who id) (slacks : v.stage id = .slacking filter)
    (passes : Passes id filter v) :
    Steps who v [.pass id] (settle id filter [] (unslacked id filter v)) := by
  have passes' : Passes id filter (unslacked id filter v) := passes
  refine ⟨.slackOver id [], mine, ⟨⟨filter, slacks⟩, ?_⟩, ?_, ?_⟩
  · simp only [signals, slacks, passes'.signals]
    exact rouses_none v
  · simp only [move, slacks]
  · simp only [observe, slacks, passes'.admits]

theorem admit_awake (mine : who id) (awake : v.stage id = .awake filter)
    (passes : Passes id filter v) (alike : Alike w v) :
    ∃ v', Run (Steps who) v [.pass id] v' ∧ Alike (settle id filter [] w) v' := by
  have rouses : Rouses (signals (.recheck id []) v) [] v := by
    simp only [signals, awake, passes.signals, ite_self]
    exact rouses_none v
  by_cases slack : v.sw.slack ≠ 0
  · have first : Steps who v [] (v.put id (.slacking filter)) := by
      refine ⟨.recheck id [], mine, ⟨⟨filter, awake⟩, rouses⟩, ?_, ?_⟩
      · simp only [move, awake, if_pos slack]
      · simp only [observe, awake, if_pos slack]
    have slacks : (v.put id (.slacking filter)).stage id = .slacking filter := by
      rw [put_stage, if_pos rfl]
    have inside : settled (v.stage id) = .awake filter := by
      rw [awake]
      rfl
    have alike' : Alike w (v.put id (.slacking filter)) := (alike.symm.stays inside rfl).symm
    have ended : Alike w (unslacked id filter (v.put id (.slacking filter))) :=
      (alike'.symm.unslacked (by rw [slacks]; rfl)).symm
    have second := admit_slacking mine slacks passes
    exact ⟨_, Run.step first (Run.one second), ended.settle [] []⟩
  · refine ⟨settle id filter [] v, Run.one ⟨.recheck id [], mine, ⟨⟨filter, awake⟩, rouses⟩, ?_, ?_⟩,
      alike.settle [] []⟩
    · simp only [move, awake, if_neg slack]
    · simp only [observe, awake, if_neg slack, passes.admits]

theorem Alike.pass (alike : Alike w v) (mine : who id)
    (inside : settled (w.stage id) = .awake filter) (passes : Passes id filter w) :
    ∃ v', Run (Steps who) v [.pass id] v' ∧ Alike (SwitcherProtocol.settle id filter [] w) v' := by
  have passes' := alike.passes passes
  rw [alike.stage] at inside
  rcases settled_awake inside with asleep | awake | slacks
  · have first : Steps who v [] (v.put id (.awake filter)) := by
      refine ⟨.spurious id, mine, ⟨filter, asleep⟩, ?_, rfl⟩
      simp only [move, asleep]
    have alike' : Alike w (v.put id (.awake filter)) := (alike.symm.stays inside rfl).symm
    have awake : (v.put id (.awake filter)).stage id = .awake filter := by
      rw [put_stage, if_pos rfl]
    obtain ⟨v', rest, same⟩ := admit_awake mine awake passes' alike'
    exact ⟨v', Run.step first rest, same⟩
  · exact admit_awake mine awake passes' alike
  · have ended : Alike w (SwitcherProtocol.unslacked id filter v) :=
      (alike.symm.unslacked inside).symm
    exact ⟨_, Run.one (admit_slacking mine slacks passes'), ended.settle [] []⟩

def called (id target : TaskId) (slack : Nat) (woken : List TaskId) (w : World W) : World W :=
  World.put { w with
    sw := { w.sw with next := target, slack }
    stage := rouse woken w.stage
    wakes := w.wakes ++ [target] } id .leaving

theorem wake_moves {target : TaskId} (slack : Nat) (woken : List TaskId)
    (free : w.sw.next = noTask) (valid : IsTask target ∨ target = anyTask) :
    move (.wake id target slack woken) w = .ok (called id target slack woken w) := by
  obtain ⟨signalled, woke, _⟩ := switcherWake_ok slack free valid
  simp only [move, woke, ok_bind, called]

theorem wake_ok {target : TaskId} {slack : Nat} {woken : List TaskId}
    (valid : IsTask target ∨ target = anyTask)
    (moved : move (.wake id target slack woken) w = .ok w') :
    w.sw.next = noTask ∧ w' = called id target slack woken w := by
  have free : w.sw.next = noTask := by
    obtain ⟨_, woke, _⟩ := bind_eq_ok.mp moved
    obtain ⟨_, free, _⟩ := bind_eq_ok.mp woke
    rw [check_ok_iff] at free
    simpa using free
  refine ⟨free, ?_⟩
  rw [wake_moves slack woken free valid] at moved
  exact (Except.ok.inj moved).symm

theorem Alike.called (alike : Alike w v) (target : TaskId) (slack slack' : Nat)
    (woken woken' : List TaskId) : Alike (called id target slack woken w)
      (SwitcherAlike.called id target slack' woken' v) := by
  have waking : Alike { w with
      sw := { w.sw with next := target, slack }
      stage := rouse woken w.stage
      wakes := w.wakes ++ [target] }
      { v with
        sw := { v.sw with next := target, slack := slack' }
        stage := rouse woken' v.stage
        wakes := v.wakes ++ [target] } := by
    refine ⟨alike.live, alike.live', rfl, alike.counter, alike.world, ?_⟩
    intro other
    rw [settled_rouse, settled_rouse, alike.stage]
  exact waking.put rfl

/-- The head of the loop, seen from outside: the task is admitted in both worlds, or it stays inside
in both. -/
theorem Alike.checks (alike : Alike w v) (mine : who id)
    (inside : settled (w.stage id) = .awake filter) (woken : List TaskId) :
    ∃ v', Run (Steps who) v (SwitcherAlike.admits id filter w) v' ∧
      Alike (SwitcherProtocol.settle id filter woken w) v' := by
  cases waits : yieldWaits id (tellsWait filter w.world id) w.sw with
  | true =>
      refine ⟨v, ?_, ?_⟩
      · rw [SwitcherAlike.admits, if_pos waits]
        exact Run.stop v
      · rw [settle_waits waits]
        have roused : Alike { w with stage := rouse woken w.stage } v := by
          refine ⟨alike.live, alike.live', alike.next, alike.counter, alike.world, ?_⟩
          intro other
          rw [settled_rouse, alike.stage]
        exact roused.stays (by rw [settled_rouse]; exact inside) rfl
  | false =>
      obtain ⟨v', run, same⟩ := alike.pass mine inside waits
      refine ⟨v', ?_, ?_⟩
      · rw [Passes.admits waits]
        exact run
      · rw [settle_passes waits] at same ⊢
        exact same

theorem alike_simulates (who : TaskId → Prop) : Simulates (Steps who) (Alike : World W → World W → Prop) := by
  rintro w v seen w' alike ⟨m, mine, allowed, moved, rfl⟩
  cases m with
  | act id world =>
      have runs := settled_running (alike.stage id) allowed
      cases moved
      refine ⟨{ v with world }, Run.one ⟨.act id world, mine, runs, rfl, rfl⟩, ?_⟩
      exact ⟨alike.live, alike.live', alike.next, alike.counter, rfl, alike.stage⟩
  | create id child =>
      obtain ⟨runs, fresh, task⟩ := allowed
      cases moved
      refine ⟨(v.put id .leaving).put child .running, Run.one ⟨.create id child, mine,
        ⟨settled_running (alike.stage id) runs, settled_outside (alike.stage child) fresh, task⟩,
        rfl, rfl⟩, (alike.put rfl).put rfl⟩
  | wake id target slack woken =>
      obtain ⟨runs, valid, _⟩ := allowed
      obtain ⟨free, rfl⟩ := wake_ok valid moved
      have free' : v.sw.next = noTask := by
        rw [← alike.next, free]
      obtain ⟨woken', rouses⟩ := rouses_exists (signals (.wake id target slack []) v) v
      refine ⟨called id target slack woken' v, Run.one ⟨.wake id target slack woken', mine,
        ⟨settled_running (alike.stage id) runs, valid, rouses⟩, ?_, rfl⟩, ?_⟩
      · exact wake_moves slack woken' free' valid
      · exact alike.called target slack slack woken woken'
  | finish id =>
      have leaves := settled_leaving (alike.stage id) allowed
      cases moved
      exact ⟨v.put id .finished, Run.one ⟨.finish id, mine, leaves, rfl, rfl⟩, alike.put rfl⟩
  | enter id filter woken =>
      obtain ⟨origin, task, _⟩ := allowed
      cases moved
      have origin' : v.stage id = .outside ∨ v.stage id = .leaving := by
        rcases origin with out | leaves
        · exact Or.inl (settled_outside (alike.stage id) out)
        · exact Or.inr (settled_leaving (alike.stage id) leaves)
      obtain ⟨woken', rouses⟩ := rouses_exists (signals (.enter id filter []) v) v
      have inside := alike.entered id filter
      refine ⟨settle id filter woken' (entered id filter v), Run.one ⟨.enter id filter woken', mine,
        ⟨origin', task, rouses⟩, rfl, ?_⟩, inside.settle woken woken'⟩
      rw [observe, observe, inside.admits]
  | recheck id woken =>
      obtain ⟨⟨filter, awake⟩, _⟩ := allowed
      have inside : settled (w.stage id) = .awake filter := by
        rw [awake]
        rfl
      simp only [move, awake] at moved
      simp only [observe, awake]
      by_cases slack : w.sw.slack ≠ 0
      · rw [if_pos slack] at moved ⊢
        cases moved
        exact ⟨v, Run.stop v, alike.stays inside rfl⟩
      · rw [if_neg slack] at moved ⊢
        cases moved
        exact alike.checks mine inside woken
  | slackOver id woken =>
      obtain ⟨⟨filter, slacks⟩, _⟩ := allowed
      have inside : settled (w.stage id) = .awake filter := by
        rw [slacks]
        rfl
      simp only [move, slacks] at moved
      simp only [observe, slacks]
      cases moved
      have mine' : who id := mine
      refine (alike.unslacked inside).checks mine' ?_ woken
      rw [unslacked, put_stage, if_pos rfl]
      rfl
  | spurious id =>
      obtain ⟨filter, asleep⟩ := allowed
      simp only [move, asleep] at moved
      cases moved
      refine ⟨v, Run.stop v, alike.stays ?_ rfl⟩
      rw [asleep]
      rfl

end Simulation

end Lotto.SwitcherAlike
