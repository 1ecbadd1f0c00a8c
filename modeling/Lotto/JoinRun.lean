import Lotto.Library.GuardedRun
import Lotto.JoinSpecs

namespace Lotto.JoinRun

open Library.FaultRun Library.GuardedRun Library.KeyMap Library.WaitGraph JoinSpecs Relation

/-- Captures of any tasks in any order, but of none that waits in a join. Of the handlers that
run before this one only the clock's sets `skip`, at an event this one does not act on. -/
def joinSystem : Guarded JoinState (JoinCapture × Decision) Fault where
  start := joinStart
  step := fun m st => (joinHandle m.1 m.2 st).map (·.2.2)
  allowed := fun st m => m.1.id ∉ st.waitees ∧ (m.2.skip = true → m.1.event = .other)

instance (st : JoinState) (m : JoinCapture × Decision) : Decidable (joinSystem.allowed st m) :=
  inferInstanceAs (Decidable (_ ∧ _))

section Step

variable {st st' : JoinState} {cp : JoinCapture} {e e' : Decision} {writes : List JoinWrite}

theorem joinHandle_ok (ran : joinHandle cp e st = .ok (writes, e', st')) :
    cp.id ≠ noTask ∧ joinEvent cp st = .ok (writes, st') ∧ joinFilter cp.id e st' = .ok e' := by
  obtain ⟨_, name, ran⟩ := bind_eq_ok.mp ran
  rw [check_ok_iff, bne_iff_ne] at name
  obtain ⟨⟨_, _⟩, stepped, ran⟩ := bind_eq_ok.mp ran
  obtain ⟨_, filtered, ran⟩ := bind_eq_ok.mp ran
  cases ran
  exact ⟨name, stepped, filtered⟩

theorem step_ok {m : JoinCapture × Decision} (stepped : joinSystem.step m st = .ok st') :
    ∃ writes e', joinHandle m.1 m.2 st = .ok (writes, e', st') := by
  simp only [joinSystem] at stepped
  cases ran : joinHandle m.1 m.2 st with
  | error fault => simp [ran, Except.map] at stepped
  | ok result =>
      rw [ran] at stepped
      cases stepped
      exact ⟨result.1, result.2.1, rfl⟩

theorem waits_mono {waitees waitees' : Map Waitee}
    (fewer : ∀ id wee, waitees'.lookup id = some wee → waitees.lookup id = some wee) :
    ∀ a b, waits waitees' a = some b → waits waitees a = some b := by
  intro a b step
  obtain ⟨wee, found, same⟩ := Option.map_eq_some_iff.mp step
  exact Option.map_eq_some_iff.mpr ⟨wee, fewer a wee found, same⟩

structure Chains (st : JoinState) : Prop where
  named : Named st
  acyclic : Acyclic (waits st.waitees)

theorem Chains.fewer (chains : Chains st)
    (tasks : ∀ a id, st'.tasks.lookup a = some id → st.tasks.lookup a = some id)
    (waitees : ∀ id wee, st'.waitees.lookup id = some wee → st.waitees.lookup id = some wee) :
    Chains st' where
  named :=
    { tasks := fun a id found => chains.named.tasks a id (tasks a id found)
      waitees := fun id wee found => chains.named.waitees id wee (waitees id wee found) }
  acyclic := chains.acyclic.mono (waits_mono waitees)

theorem Chains.init {tid : TaskId} {thread : UInt64} {detached : Bool} (chains : Chains st)
    (name : tid ≠ noTask) (ran : joinInit tid thread detached st = .ok st') : Chains st' := by
  obtain ⟨_, rfl⟩ := joinInit_ok.mp ran
  refine ⟨⟨?_, chains.named.waitees⟩, chains.acyclic⟩
  intro a id found
  rw [initTasks_lookup] at found
  by_cases same : a = thread
  · rw [if_pos same] at found
    cases found
    exact name
  · rw [if_neg same] at found
    exact chains.named.tasks a id found

theorem Chains.join {tid : TaskId} {thread ptr ret : UInt64} (chains : Chains st)
    (ran : join tid thread ptr ret st = .ok (writes, st')) : Chains st' := by
  cases join_ends ran with
  | unknown => exact chains
  | deadlock => exact chains
  | finished _ _ _ _ dropped =>
      exact chains.fewer (fun _ _ => dropTask_lookup dropped) fun _ _ found => found
  | @waiting waitee pt found free known alive awake =>
      have name : waitee ≠ noTask := chains.named.tasks thread waitee found
      refine ⟨⟨chains.named.tasks, chains.named.waitees.insert name⟩, ?_⟩
      -- the loop has found that the joined task does not wait for the joiner
      obtain ⟨deadlock, walked, reaches⟩ := joinWalk_ends chains.named chains.acyclic tid name
      rw [free] at walked
      cases walked
      apply chains.acyclic.add (a := tid) (b := waitee)
      · simp [waits]
      · intro x other
        simp [waits, AList.lookup_insert_ne other]
      · intro path
        cases reaches.mpr path

theorem Chains.fini {tid : TaskId} (chains : Chains st)
    (ran : joinFini tid st = .ok (writes, st')) : Chains st' := by
  cases joinFini_ends ran with
  | detached _ _ dropped =>
      exact chains.fewer (fun _ _ => dropTask_lookup dropped) fun _ _ found => found
  | unjoined => exact chains.fewer (fun _ _ found => found) fun _ _ found => found
  | joined _ _ _ released dropped =>
      exact chains.fewer (fun _ _ => dropTask_lookup dropped)
        fun _ _ => releaseWaiters_lookup released

theorem Chains.event (chains : Chains st) (name : cp.id ≠ noTask)
    (ran : joinEvent cp st = .ok (writes, st')) : Chains st' := by
  unfold joinEvent at ran
  cases event : cp.event with
  | init thread detached =>
      simp only [event] at ran
      obtain ⟨_, started, ran⟩ := bind_eq_ok.mp ran
      cases ran
      exact chains.init name started
  | join thread ptr ret =>
      simp only [event] at ran
      exact chains.join ran
  | detach thread ret =>
      simp only [event] at ran
      rcases joinDetach_ok ran with rfl | ⟨_, _, _, _, rfl⟩
      · exact chains
      · exact chains.fewer (fun _ _ found => found) fun _ _ found => found
  | fini payload =>
      cases payload with
      | none =>
          simp only [event] at ran
          exact chains.fini ran
      | some ptr =>
          simp only [event] at ran
          obtain ⟨mid, left, ran⟩ := bind_eq_ok.mp ran
          obtain ⟨pt, _, _, rfl⟩ := joinTexit_ok.mp left
          have kept : Chains { st with
              pthreads := st.pthreads.replace cp.id { pt with valuePtr := ptr } } :=
            chains.fewer (fun _ _ found => found) fun _ _ found => found
          exact kept.fini ran
  | other =>
      simp only [event] at ran
      cases ran
      exact chains

theorem chains_start : Chains joinStart where
  named := ⟨All.empty, All.empty⟩
  acyclic := by
    intro a cycle
    obtain ⟨b, step, _⟩ := TransGen.head'_iff.mp cycle
    cases step

theorem chains_reachable (reached : Reachable joinSystem st) : Chains st := by
  refine Reachable.keeps chains_start ?_ reached
  intro s m s' chains _ stepped
  obtain ⟨_, _, ran⟩ := step_ok stepped
  obtain ⟨name, event, _⟩ := joinHandle_ok ran
  exact chains.event name event

theorem joinFilter_tset {id : TaskId} (acted : e.skip = false)
    (ran : joinFilter id e st = .ok e') (task : TaskId) :
    task ∈ e'.tset ↔ task ∈ e.tset ∧ task ∉ st.waitees := by
  have filtered : ∀ task, task ∈ (e.tset.filter fun task => (st.waitees.lookup task).isNone) ↔
      task ∈ e.tset ∧ task ∉ st.waitees := by
    intro task
    rw [Tidset.mem_filter, Option.isNone_iff_eq_none, AList.lookup_eq_none]
  unfold joinFilter at ran
  rw [if_neg (by simp [acted])] at ran
  obtain ⟨_, _, ran⟩ := bind_eq_ok.mp ran
  by_cases waiting : (st.waitees.lookup id).isSome = true
  · simp only [if_pos waiting] at ran
    obtain ⟨_, _, ran⟩ := bind_eq_ok.mp ran
    cases ran
    exact filtered task
  · simp only [if_neg waiting] at ran
    cases ran
    exact filtered task

theorem joinResult_deadlk (ptr ret value addr : UInt64) :
    .ret addr eDeadlk ∉ joinResult ptr ret value := by
  simp [joinResult, eDeadlk]

theorem join_deadlock_iff (chains : Chains st) {tid waitee : TaskId} {thread ptr ret : UInt64}
    (found : st.tasks.lookup thread = some waitee) :
    (∃ writes st', join tid thread ptr ret st = .ok (writes, st') ∧ .ret ret eDeadlk ∈ writes) ↔
      ReflTransGen (Edge (waits st.waitees)) waitee tid := by
  have name : waitee ≠ noTask := chains.named.tasks thread waitee found
  obtain ⟨deadlock, walked, reaches⟩ := joinWalk_ends chains.named chains.acyclic tid name
  rw [← reaches]
  constructor
  · rintro ⟨writes, st', ran, told⟩
    cases join_ends ran with
    | unknown missing =>
        rw [missing] at found
        cases found
    | deadlock again cycle =>
        rw [found] at again
        cases again
        rw [walked] at cycle
        exact Except.ok.inj cycle
    | finished => exact absurd told (joinResult_deadlk _ _ _ _)
    | waiting => cases told
  · rintro rfl
    refine ⟨[.ret ret eDeadlk], st, ?_, by simp⟩
    simp [join, found, walked]

theorem join_deadlock_same {tid : TaskId} {thread ptr ret : UInt64}
    (ran : join tid thread ptr ret st = .ok (writes, st')) (told : .ret ret eDeadlk ∈ writes) :
    st' = st := by
  cases join_ends ran with
  | unknown => rfl
  | deadlock => rfl
  | finished => exact absurd told (joinResult_deadlk _ _ _ _)
  | waiting => cases told

end Step

/-- The wait graph of every reachable state is acyclic, every join's loop ends and reports a
deadlock exactly, and the waiting tasks are those taken out of the task set. -/
theorem join_graph_exact (st : JoinState) (reached : Reachable joinSystem st) :
    Acyclic (waits st.waitees) ∧
    (∀ tid thread ptr ret waitee, st.tasks.lookup thread = some waitee →
      (∃ deadlock,
        joinWalk st.waitees tid (st.waitees.keys.length + 1) waitee = .ok deadlock) ∧
      ((∃ writes st', join tid thread ptr ret st = .ok (writes, st') ∧ .ret ret eDeadlk ∈ writes) ↔
        ReflTransGen (Edge (waits st.waitees)) waitee tid) ∧
      ∀ writes st', join tid thread ptr ret st = .ok (writes, st') →
        .ret ret eDeadlk ∈ writes → st' = st) ∧
    ∀ cp e writes e' st', joinSystem.allowed st (cp, e) →
      cp.event ≠ .other ∨ e.skip = false → joinHandle cp e st = .ok (writes, e', st') →
      ∀ task, task ∈ e'.tset ↔ task ∈ e.tset ∧ task ∉ st'.waitees := by
  have chains := chains_reachable reached
  refine ⟨chains.acyclic, ?_, ?_⟩
  · intro tid thread ptr ret waitee found
    obtain ⟨deadlock, walked, _⟩ :=
      joinWalk_ends chains.named chains.acyclic tid (chains.named.tasks thread waitee found)
    refine ⟨⟨deadlock, walked⟩, join_deadlock_iff chains found, ?_⟩
    intro writes st' ran told
    exact join_deadlock_same ran told
  · intro cp e writes e' st' allowed acts ran
    have acted : e.skip = false := by
      rcases acts with listed | acted
      · by_contra skipped
        exact listed (allowed.2 (Bool.not_eq_false e.skip ▸ skipped))
      · exact acted
    exact joinFilter_tset acted (joinHandle_ok ran).2.2

def joinCapture (id : TaskId) (event : JoinEvent) : JoinCapture × Decision :=
  ({ id, event }, { prepareDecision 1 .empty { status := .done, id := noTask } with
    tset := (Tidset.empty.insert 1).insert 2 })

def firstJoins : List (JoinCapture × Decision) :=
  [joinCapture 1 (.init 101 false), joinCapture 2 (.init 102 false), joinCapture 1 (.join 102 0 7)]

theorem join_graph_crossed :
    ∃ st, Reachable joinSystem st ∧ Acyclic (waits st.waitees) ∧
      ∃ writes st', join 2 101 0 8 st = .ok (writes, st') ∧ .ret 8 eDeadlk ∈ writes ∧ st' = st := by
  have legal : Legal joinSystem firstJoins joinSystem.start := by decide
  have seen : (run joinSystem firstJoins joinSystem.start).map (fun st =>
      (st.tasks.lookup 101, waits st.waitees 1)) = .ok (some 1, some 2) := by decide
  obtain ⟨st, ran⟩ := legal.runs
  rw [ran] at seen
  obtain ⟨found, edge⟩ := Prod.mk.inj (Except.ok.inj seen)
  have reached := legal.reachable Reachable.start ran
  obtain ⟨acyclic, joins, _⟩ := join_graph_exact st reached
  obtain ⟨_, deadlock, same⟩ := joins 2 101 0 8 1 found
  obtain ⟨writes, st', joined, told⟩ := deadlock.mpr (ReflTransGen.single edge)
  exact ⟨st, reached, acyclic, writes, st', joined, told, same writes st' joined told⟩

end Lotto.JoinRun
