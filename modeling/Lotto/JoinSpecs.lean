import Lotto.Library.KeyMap
import Lotto.Library.WaitGraph
import Lotto.Join

namespace Lotto.JoinSpecs

open Library.FaultRun Library.KeyMap Library.WaitGraph Relation

variable {st st' : JoinState} {tid : TaskId} {pthread valuePtr ret : UInt64}
  {writes : List JoinWrite}

def waits (waitees : Map Waitee) (id : TaskId) : Option TaskId :=
  (waitees.lookup id).map (·.waitee)

structure Named (st : JoinState) : Prop where
  tasks : All (fun _ id => id ≠ noTask) st.tasks
  waitees : All (fun _ wee => wee.waitee ≠ noTask) st.waitees

theorem joinWalk_eq {waitees : Map Waitee} (named : All (fun _ wee => wee.waitee ≠ noTask) waitees)
    (tid : TaskId) (fuel : Nat) {waiteei : TaskId} (start : waiteei ≠ noTask) :
    joinWalk waitees tid fuel waiteei =
      match walk (waits waitees) tid fuel waiteei with
      | some deadlock => .ok deadlock
      | none => .error .joinLoop := by
  induction fuel generalizing waiteei with
  | zero => rfl
  | succ fuel ih =>
      rw [joinWalk, walk]
      by_cases here : waiteei = tid
      · rw [if_pos here, if_pos here]
      · have name : (waiteei != noTask) = true := by
          simpa using start
        rw [if_neg here, if_neg here, name, check_true, ok_bind, waits]
        cases found : waitees.lookup waiteei with
        | none => rfl
        | some wee => exact ih (named waiteei wee found)

theorem joinWalk_ends (named : Named st) (acyclic : Acyclic (waits st.waitees)) (tid : TaskId)
    {waitee : TaskId} (start : waitee ≠ noTask) :
    ∃ deadlock, joinWalk st.waitees tid (st.waitees.keys.length + 1) waitee = .ok deadlock ∧
      (deadlock = true ↔ ReflTransGen (Edge (waits st.waitees)) waitee tid) := by
  have inside : ∀ a b, waits st.waitees a = some b → a ∈ st.waitees.keys := by
    intro a b step
    obtain ⟨wee, found, _⟩ := Option.map_eq_some_iff.mp step
    exact AList.mem_keys.mpr (AList.lookup_isSome.mp (by rw [found]; rfl))
  obtain ⟨deadlock, ended⟩ := walk_ends acyclic inside tid waitee
  refine ⟨deadlock, ?_, walk_reaches ended⟩
  rw [joinWalk_eq named.waitees tid _ start, ended]

section Inversion

theorem joinInit_ok {detached : Bool} :
    joinInit tid pthread detached st = .ok st' ↔ st.pthreads.lookup tid = none ∧
      st' = { st with
        pthreads := st.pthreads.insert tid
          { pthread, valuePtr := 0, waiters := .empty, terminated := false, detached }
        tasks := (findOrInit tid pthread st.tasks).2.replace pthread tid } := by
  unfold joinInit
  cases found : st.pthreads.lookup tid with
  | none =>
      simp only [Option.isNone_none, check_true, ok_bind, true_and]
      exact ⟨fun ran => (Except.ok.inj ran).symm, fun same => by rw [same]⟩
  | some pt => simp

theorem initTasks_lookup (tasks : Map TaskId) (tid : TaskId) (pthread a : UInt64) :
    ((findOrInit tid pthread tasks).2.replace pthread tid).lookup a =
      if a = pthread then some tid else tasks.lookup a := by
  cases found : tasks.lookup pthread with
  | none =>
      have known : pthread ∈ tasks.insert pthread tid := by simp
      simp only [findOrInit, found]
      rw [lookup_replace known]
      by_cases same : a = pthread
      · rw [if_pos same, if_pos same]
      · rw [if_neg same, if_neg same, AList.lookup_insert_ne same]
  | some old =>
      have known : pthread ∈ tasks := AList.lookup_isSome.mp (by simp [found])
      simp only [findOrInit, found]
      exact lookup_replace known a tid

theorem dropTask_ok {t : Option TaskId} {tasks tasks' : Map TaskId} :
    dropTask t tid pthread tasks = .ok tasks' ↔ ∃ owner, t = some owner ∧
      (owner = tid ∧ pthread ≠ noTask ∧ tasks' = tasks.erase pthread ∨
        owner ≠ tid ∧ tasks' = tasks) := by
  cases t with
  | none => simp [dropTask]
  | some owner =>
      by_cases same : owner = tid
      · subst same
        by_cases zero : pthread = noTask
        · simp [dropTask, zero]
        · have name : (pthread != noTask) = true := by
            simpa using zero
          simp [dropTask, name, zero, eq_comm]
      · have other : dropTask (some owner) tid pthread tasks = .ok tasks := if_neg same
        rw [other]
        constructor
        · intro ran
          exact ⟨owner, rfl, Or.inr ⟨same, (Except.ok.inj ran).symm⟩⟩
        · rintro ⟨_, found, ends⟩
          cases found
          rcases ends with ⟨again, _⟩ | ⟨_, rfl⟩
          · exact absurd again same
          · rfl

theorem dropTask_lookup {t : Option TaskId} {tasks tasks' : Map TaskId}
    (ran : dropTask t tid pthread tasks = .ok tasks') {a : UInt64} {id : TaskId}
    (found : tasks'.lookup a = some id) : tasks.lookup a = some id := by
  obtain ⟨_, _, ⟨_, _, rfl⟩ | ⟨_, rfl⟩⟩ := dropTask_ok.mp ran
  · by_cases same : a = pthread
    · subst same
      rw [AList.lookup_erase] at found
      cases found
    · rwa [AList.lookup_erase_ne same] at found
  · exact found

inductive JoinEnds (tid : TaskId) (pthread valuePtr ret : UInt64) (st : JoinState) :
    List JoinWrite → JoinState → Prop where
  | unknown (missing : st.tasks.lookup pthread = none) :
      JoinEnds tid pthread valuePtr ret st [.ret ret eSrch] st
  | deadlock {waitee : TaskId} (found : st.tasks.lookup pthread = some waitee)
      (cycle : joinWalk st.waitees tid (st.waitees.keys.length + 1) waitee = .ok true) :
      JoinEnds tid pthread valuePtr ret st [.ret ret eDeadlk] st
  | finished {waitee : TaskId} {pt : PthreadTask} {tasks : Map TaskId}
      (found : st.tasks.lookup pthread = some waitee)
      (free : joinWalk st.waitees tid (st.waitees.keys.length + 1) waitee = .ok false)
      (known : st.pthreads.lookup waitee = some pt) (terminated : pt.terminated = true)
      (dropped : dropTask (some waitee) tid pthread st.tasks = .ok tasks) :
      JoinEnds tid pthread valuePtr ret st (joinResult valuePtr ret pt.valuePtr)
        { st with pthreads := st.pthreads.erase waitee, tasks }
  | waiting {waitee : TaskId} {pt : PthreadTask}
      (found : st.tasks.lookup pthread = some waitee)
      (free : joinWalk st.waitees tid (st.waitees.keys.length + 1) waitee = .ok false)
      (known : st.pthreads.lookup waitee = some pt) (alive : pt.terminated = false)
      (awake : st.waitees.lookup tid = none) :
      JoinEnds tid pthread valuePtr ret st []
        { st with
          pthreads := st.pthreads.replace waitee { pt with waiters := pt.waiters.insert tid }
          waitees := st.waitees.insert tid { waitee, valuePtr, ret } }

theorem join_ends (ran : join tid pthread valuePtr ret st = .ok (writes, st')) :
    JoinEnds tid pthread valuePtr ret st writes st' := by
  unfold join at ran
  cases found : st.tasks.lookup pthread with
  | none =>
      rw [found] at ran
      cases ran
      exact .unknown found
  | some waitee =>
      rw [found] at ran
      obtain ⟨deadlock, walked, ran⟩ := bind_eq_ok.mp ran
      cases deadlock with
      | true =>
          cases ran
          exact .deadlock found walked
      | false =>
          simp only [Bool.false_eq_true, if_false] at ran
          cases known : st.pthreads.lookup waitee with
          | none =>
              rw [known] at ran
              cases ran
          | some pt =>
              rw [known] at ran
              by_cases ended : pt.terminated = true
              · simp only [ended, if_true] at ran
                obtain ⟨tasks, dropped, ran⟩ := bind_eq_ok.mp ran
                cases ran
                exact .finished found walked known ended dropped
              · simp only [if_neg ended] at ran
                obtain ⟨_, awake, ran⟩ := bind_eq_ok.mp ran
                rw [check_ok_iff, Option.isNone_iff_eq_none] at awake
                cases ran
                exact .waiting found walked known (Bool.eq_false_iff.mpr ended) awake

theorem joinTexit_ok : joinTexit tid valuePtr st = .ok st' ↔
    ∃ pt, st.pthreads.lookup tid = some pt ∧ pt.valuePtr = 0 ∧
      st' = { st with pthreads := st.pthreads.replace tid { pt with valuePtr } } := by
  unfold joinTexit
  cases found : st.pthreads.lookup tid with
  | none => simp
  | some pt =>
      by_cases null : pt.valuePtr = 0
      · simp [null, eq_comm]
      · have stored : (pt.valuePtr == 0) = false := beq_eq_false_iff_ne.mpr null
        simp [stored, null]

inductive FiniEnds (tid : TaskId) (st : JoinState) : List JoinWrite → JoinState → Prop where
  | detached {pt : PthreadTask} {tasks : Map TaskId} (known : st.pthreads.lookup tid = some pt)
      (detached : pt.detached = true)
      (dropped : dropTask (st.tasks.lookup pt.pthread) tid pt.pthread st.tasks = .ok tasks) :
      FiniEnds tid st [] { st with pthreads := st.pthreads.erase tid, tasks }
  | unjoined {pt : PthreadTask} (known : st.pthreads.lookup tid = some pt)
      (attached : pt.detached = false) (alone : pt.waiters.size = 0) :
      FiniEnds tid st []
        { st with pthreads := st.pthreads.replace tid { pt with terminated := true } }
  | joined {pt : PthreadTask} {tasks : Map TaskId} {writes : List JoinWrite} {waitees : Map Waitee}
      (known : st.pthreads.lookup tid = some pt) (attached : pt.detached = false)
      (some : pt.waiters.size ≠ 0)
      (released : releaseWaiters pt.valuePtr pt.waiters.tasks st.waitees = .ok (writes, waitees))
      (dropped : dropTask (st.tasks.lookup pt.pthread) tid pt.pthread st.tasks = .ok tasks) :
      FiniEnds tid st writes { pthreads := st.pthreads.erase tid, tasks, waitees }

theorem joinFini_ends (ran : joinFini tid st = .ok (writes, st')) : FiniEnds tid st writes st' := by
  unfold joinFini at ran
  cases known : st.pthreads.lookup tid with
  | none =>
      rw [known] at ran
      cases ran
  | some pt =>
      rw [known] at ran
      by_cases detached : pt.detached = true
      · simp only [detached, if_true] at ran
        obtain ⟨tasks, dropped, ran⟩ := bind_eq_ok.mp ran
        cases ran
        exact .detached known detached dropped
      · have attached : pt.detached = false := Bool.eq_false_iff.mpr detached
        simp only [if_neg detached] at ran
        by_cases alone : pt.waiters.size = 0
        · rw [if_pos alone] at ran
          cases ran
          exact .unjoined known attached alone
        · rw [if_neg alone] at ran
          obtain ⟨⟨freed, waitees⟩, released, ran⟩ := bind_eq_ok.mp ran
          obtain ⟨tasks, dropped, ran⟩ := bind_eq_ok.mp ran
          cases ran
          exact .joined known attached alone released dropped

theorem joinDetach_ok (ran : joinDetach pthread ret st = .ok (writes, st')) :
    st' = st ∨ ∃ id p, st.tasks.lookup pthread = some id ∧ st.pthreads.lookup id = some p ∧
      st' = { st with pthreads := st.pthreads.replace id { p with detached := true } } := by
  unfold joinDetach at ran
  cases found : st.tasks.lookup pthread with
  | none =>
      rw [found] at ran
      cases ran
      exact Or.inl rfl
  | some id =>
      rw [found] at ran
      cases known : st.pthreads.lookup id with
      | none =>
          simp only [known] at ran
          cases ran
      | some p =>
          simp only [known] at ran
          by_cases again : p.detached = true
          · rw [if_pos again] at ran
            cases ran
            exact Or.inl rfl
          · rw [if_neg again] at ran
            obtain ⟨_, _, ran⟩ := bind_eq_ok.mp ran
            cases ran
            exact Or.inr ⟨id, p, rfl, known, rfl⟩

theorem releaseStep_ok {value : UInt64} {acc acc' : List JoinWrite × Map Waitee} {waiter : TaskId} :
    releaseStep value acc waiter = .ok acc' ↔ waiter ≠ noTask ∧
      ∃ wee, acc.2.lookup waiter = some wee ∧
        acc' = (acc.1 ++ joinResult wee.valuePtr wee.ret value, acc.2.erase waiter) := by
  unfold releaseStep
  by_cases name : waiter = noTask
  · simp [name]
  · have named : (waiter != noTask) = true := by
      simpa using name
    rw [named, check_true, ok_bind]
    cases found : acc.2.lookup waiter with
    | none => simp
    | some wee => simp [name, eq_comm]

theorem releaseWaiters_lookup {value : UInt64} {waiters : List TaskId} {waitees waitees' : Map Waitee}
    (ran : releaseWaiters value waiters waitees = .ok (writes, waitees')) {id : TaskId}
    {wee : Waitee} (found : waitees'.lookup id = some wee) : waitees.lookup id = some wee := by
  have loop : ∀ (waiters : List TaskId) (acc result : List JoinWrite × Map Waitee),
      waiters.foldlM (releaseStep value) acc = .ok result →
      result.2.lookup id = some wee → acc.2.lookup id = some wee := by
    intro waiters
    induction waiters with
    | nil =>
        intro acc result same found
        cases same
        exact found
    | cons waiter waiters ih =>
        intro acc result ran found
        obtain ⟨mid, stepped, ran⟩ := bind_eq_ok.mp ran
        have later := ih mid result ran found
        obtain ⟨_, _, _, rfl⟩ := releaseStep_ok.mp stepped
        exact (lookup_erase_some.mp later).2
  exact loop waiters _ _ ran found

end Inversion

end Lotto.JoinSpecs
