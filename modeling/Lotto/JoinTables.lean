import Lotto.JoinRun

namespace Lotto.JoinTables

open Library.FaultRun Library.GuardedRun Library.KeyMap Library.WaitGraph JoinSpecs JoinRun

/-- The tables of the handler with the tasks that have been initialised and that have finished. -/
structure World where
  st : JoinState
  born : List TaskId
  ended : List TaskId
  deriving DecidableEq

/-- The place of an event in the life of its task. Task ids are not used again, and a pthread id is
the address of its thread. -/
def InOrder (w : World) (cp : JoinCapture) : Prop :=
  match cp.event with
  | .init thread _ => cp.id ∉ w.born ∧ thread ≠ noTask
  | _ => cp.id ∈ w.born ∧ cp.id ∉ w.ended

def isJoin : JoinEvent → Bool
  | .join _ _ _ => true
  | _ => false

/-- The captures the engine can make: by a task that does not wait in a join, with a decision
that no earlier handler has filtered. -/
structure Captures (w : World) (cp : JoinCapture) (e : Decision) : Prop where
  named : cp.id ≠ noTask
  awake : cp.id ∉ w.st.waitees
  order : InOrder w cp
  tset : noTask ∉ e.tset
  unfiltered : isJoin cp.event = true → e.anyTaskFilter = none

/-- Events that reach none of the handler's slips: no join of a terminated task, no detach of an
attached task that waits in a join, and no end of a detached task that others join, nor of one whose
pthread id another task has taken over and given up. -/
def Sound (st : JoinState) (cp : JoinCapture) : Prop :=
  match cp.event with
  | .join thread _ _ =>
      ∀ waitee ∈ st.tasks.lookup thread, ∀ pt ∈ st.pthreads.lookup waitee, pt.terminated = false
  | .detach thread _ => ∀ id ∈ st.tasks.lookup thread, ∀ p ∈ st.pthreads.lookup id,
      p.detached = false → id ∉ st.waitees
  | .fini _ => ∀ pt ∈ st.pthreads.lookup cp.id,
      (pt.detached = true → pt.waiters.size = 0) ∧
      (pt.detached = true ∨ pt.waiters.size ≠ 0 → (st.tasks.lookup pt.pthread).isSome = true)
  | _ => True

instance (w : World) : ∀ cp : JoinCapture, Decidable (InOrder w cp)
  | ⟨_, .init _ _⟩ => inferInstanceAs (Decidable (_ ∧ _))
  | ⟨_, .join _ _ _⟩ => inferInstanceAs (Decidable (_ ∧ _))
  | ⟨_, .detach _ _⟩ => inferInstanceAs (Decidable (_ ∧ _))
  | ⟨_, .fini _⟩ => inferInstanceAs (Decidable (_ ∧ _))
  | ⟨_, .other⟩ => inferInstanceAs (Decidable (_ ∧ _))

instance (w : World) (cp : JoinCapture) (e : Decision) : Decidable (Captures w cp e) :=
  decidable_of_iff (cp.id ≠ noTask ∧ cp.id ∉ w.st.waitees ∧ InOrder w cp ∧ noTask ∉ e.tset ∧
      (isJoin cp.event = true → e.anyTaskFilter = none))
    ⟨fun facts => ⟨facts.1, facts.2.1, facts.2.2.1, facts.2.2.2.1, facts.2.2.2.2⟩,
      fun facts => ⟨facts.1, facts.2, facts.3, facts.4, facts.5⟩⟩

-- the task ids are finitely many, so the instance over the options is named
instance (st : JoinState) : ∀ cp : JoinCapture, Decidable (Sound st cp)
  | ⟨_, .init _ _⟩ => isTrue trivial
  | ⟨_, .join thread _ _⟩ => Option.decidableForallMem (st.tasks.lookup thread)
  | ⟨_, .detach thread _⟩ => Option.decidableForallMem (st.tasks.lookup thread)
  | ⟨id, .fini _⟩ => Option.decidableForallMem (st.pthreads.lookup id)
  | ⟨_, .other⟩ => isTrue trivial

def after (cp : JoinCapture) (w : World) (st : JoinState) : World where
  st := st
  born := match cp.event with
    | .init _ _ => cp.id :: w.born
    | _ => w.born
  ended := match cp.event with
    | .fini _ => cp.id :: w.ended
    | _ => w.ended

def step (cp : JoinCapture) (e : Decision) (w : World) : Except Fault World :=
  (joinHandle cp e w.st).map fun result => after cp w result.2.2

/-- Every order of events, each of which meets a condition on the tables before it. -/
def system (condition : JoinState → JoinCapture → Prop) :
    Guarded World (JoinCapture × Decision) Fault where
  start := { st := joinStart, born := [], ended := [] }
  step := fun m w => step m.1 m.2 w
  allowed := fun w m => Captures w m.1 m.2 ∧ condition w.st m.1

instance (condition : JoinState → JoinCapture → Prop) [∀ st cp, Decidable (condition st cp)]
    (w : World) (m : JoinCapture × Decision) : Decidable ((system condition).allowed w m) :=
  inferInstanceAs (Decidable (_ ∧ _))

structure Consistent (st : JoinState) : Prop where
  tasks : ∀ thread id, st.tasks.lookup thread = some id → ∃ pt, st.pthreads.lookup id = some pt
  edges : ∀ waiter wee, st.waitees.lookup waiter = some wee →
    ∃ pt, st.pthreads.lookup wee.waitee = some pt ∧ pt.terminated = false ∧ waiter ∈ pt.waiters

/-- The tasks that joined a task have its exit value and the result 0, and no longer wait. -/
structure Released (st : JoinState) (tid : TaskId) (value : UInt64) (writes : List JoinWrite)
    (st' : JoinState) : Prop where
  waiters : ∀ waiter wee, st.waitees.lookup waiter = some wee → wee.waitee = tid →
    st'.waitees.lookup waiter = none ∧ .ret wee.ret 0 ∈ writes ∧
      (wee.valuePtr ≠ 0 → .value wee.valuePtr value ∈ writes)
  codes : ∀ addr code, .ret addr code ∈ writes → code = 0
  values : ∀ addr stored, .value addr stored ∈ writes → stored = value

structure Core (st : JoinState) : Prop where
  chains : Chains st
  tasks : ∀ thread id, st.tasks.lookup thread = some id →
    ∃ pt, st.pthreads.lookup id = some pt ∧ pt.pthread = thread
  edges : ∀ waiter wee, st.waitees.lookup waiter = some wee →
    ∃ pt, st.pthreads.lookup wee.waitee = some pt ∧ pt.terminated = false ∧ waiter ∈ pt.waiters
  back : ∀ id pt waiter, st.pthreads.lookup id = some pt → waiter ∈ pt.waiters →
    waiter ≠ noTask ∧ ∃ wee, st.waitees.lookup waiter = some wee ∧ wee.waitee = id
  threads : ∀ id pt, st.pthreads.lookup id = some pt → pt.pthread ≠ noTask

structure Tables (w : World) : Prop where
  core : Core w.st
  alive : ∀ id, id ∈ w.born → id ∉ w.ended →
    ∃ pt, w.st.pthreads.lookup id = some pt ∧ pt.terminated = false ∧ pt.valuePtr = 0
  known : ∀ id pt, w.st.pthreads.lookup id = some pt → id ∈ w.born

section Core

variable {st st' : JoinState}

theorem Core.init {tid : TaskId} {thread : UInt64} {detached : Bool} (core : Core st)
    (fresh : st.pthreads.lookup tid = none) (name : tid ≠ noTask) (thread_named : thread ≠ noTask)
    (ran : joinInit tid thread detached st = .ok st') : Core st' := by
  have chains := core.chains.init name ran
  obtain ⟨_, rfl⟩ := joinInit_ok.mp ran
  refine ⟨chains, ?_, ?_, ?_, ?_⟩
  · intro a id found
    rw [initTasks_lookup] at found
    simp only [lookup_insert_some]
    by_cases same : a = thread
    · rw [if_pos same] at found
      cases found
      exact ⟨_, Or.inl ⟨rfl, rfl⟩, same.symm⟩
    · rw [if_neg same] at found
      obtain ⟨pt, there, thread⟩ := core.tasks a id found
      refine ⟨pt, Or.inr ⟨?_, there⟩, thread⟩
      rintro rfl
      rw [fresh] at there
      cases there
  · intro waiter wee found
    obtain ⟨pt, there, facts⟩ := core.edges waiter wee found
    refine ⟨pt, lookup_insert_some.mpr (Or.inr ⟨?_, there⟩), facts⟩
    intro same
    rw [same, fresh] at there
    cases there
  · intro id pt waiter there member
    rcases lookup_insert_some.mp there with ⟨rfl, rfl⟩ | ⟨_, there⟩
    · exact absurd member (Tidset.not_mem_empty waiter)
    · exact core.back id pt waiter there member
  · intro id pt there
    rcases lookup_insert_some.mp there with ⟨rfl, rfl⟩ | ⟨_, there⟩
    · exact thread_named
    · exact core.threads id pt there

structure Alike (pt pt' : PthreadTask) : Prop where
  pthread : pt'.pthread = pt.pthread
  waiters : pt'.waiters = pt.waiters
  terminated : pt'.terminated = pt.terminated

theorem Core.replace {tid : TaskId} {pt : PthreadTask} (core : Core st)
    (found : st.pthreads.lookup tid = some pt) (pt' : PthreadTask) (alike : Alike pt pt') :
    Core { st with pthreads := st.pthreads.replace tid pt' } := by
  have known := mem_of_lookup found
  have forth : ∀ id q, st.pthreads.lookup id = some q →
      ∃ q', (st.pthreads.replace tid pt').lookup id = some q' ∧ Alike q q' := by
    intro id q there
    by_cases same : id = tid
    · subst same
      rw [found] at there
      cases there
      exact ⟨pt', (lookup_replace_some known).mpr (Or.inl ⟨rfl, rfl⟩), alike⟩
    · exact ⟨q, (lookup_replace_some known).mpr (Or.inr ⟨same, there⟩), rfl, rfl, rfl⟩
  have back : ∀ id q', (st.pthreads.replace tid pt').lookup id = some q' →
      ∃ q, st.pthreads.lookup id = some q ∧ Alike q q' := by
    intro id q' there
    rcases (lookup_replace_some known).mp there with ⟨rfl, rfl⟩ | ⟨_, there⟩
    · exact ⟨pt, found, alike⟩
    · exact ⟨q', there, rfl, rfl, rfl⟩
  refine ⟨core.chains.fewer (fun _ _ found => found) fun _ _ found => found, ?_, ?_, ?_, ?_⟩
  · intro thread id task
    obtain ⟨q, there, same⟩ := core.tasks thread id task
    obtain ⟨q', there', alike⟩ := forth id q there
    exact ⟨q', there', alike.pthread.trans same⟩
  · intro waiter wee edge
    obtain ⟨q, there, alive, member⟩ := core.edges waiter wee edge
    obtain ⟨q', there', alike⟩ := forth _ q there
    exact ⟨q', there', alike.terminated.trans alive, alike.waiters ▸ member⟩
  · intro id q' waiter there member
    obtain ⟨q, there', alike⟩ := back id q' there
    exact core.back id q waiter there' (alike.waiters ▸ member)
  · intro id q' there
    obtain ⟨q, there', alike⟩ := back id q' there
    rw [alike.pthread]
    exact core.threads id q there'

theorem Core.wait {tid waitee : TaskId} {pt : PthreadTask} {ptr ret : UInt64} (core : Core st)
    (found : st.pthreads.lookup waitee = some pt) (alive : pt.terminated = false)
    (awake : st.waitees.lookup tid = none) (name : tid ≠ noTask)
    (chains : Chains { st with
      pthreads := st.pthreads.replace waitee { pt with waiters := pt.waiters.insert tid }
      waitees := st.waitees.insert tid { waitee, valuePtr := ptr, ret } }) :
    Core { st with
      pthreads := st.pthreads.replace waitee { pt with waiters := pt.waiters.insert tid }
      waitees := st.waitees.insert tid { waitee, valuePtr := ptr, ret } } := by
  have known := mem_of_lookup found
  have forth : ∀ id q, st.pthreads.lookup id = some q → ∃ q',
      (st.pthreads.replace waitee { pt with waiters := pt.waiters.insert tid }).lookup id = some q' ∧
        q'.pthread = q.pthread ∧ q'.terminated = q.terminated ∧ ∀ x, x ∈ q.waiters → x ∈ q'.waiters := by
    intro id q there
    by_cases same : id = waitee
    · subst same
      rw [found] at there
      cases there
      exact ⟨_, (lookup_replace_some known).mpr (Or.inl ⟨rfl, rfl⟩), rfl, rfl, by simp +contextual⟩
    · exact ⟨q, (lookup_replace_some known).mpr (Or.inr ⟨same, there⟩), rfl, rfl, fun _ member => member⟩
  refine ⟨chains, ?_, ?_, ?_, ?_⟩
  · intro thread id task
    obtain ⟨q, there, same⟩ := core.tasks thread id task
    obtain ⟨q', there', thread, _⟩ := forth id q there
    exact ⟨q', there', thread.trans same⟩
  · intro waiter wee edge
    rcases lookup_insert_some.mp edge with ⟨rfl, rfl⟩ | ⟨_, edge⟩
    · exact ⟨_, (lookup_replace_some known).mpr (Or.inl ⟨rfl, rfl⟩), alive, by simp⟩
    · obtain ⟨q, there, running, member⟩ := core.edges waiter wee edge
      obtain ⟨q', there', _, same, more⟩ := forth _ q there
      exact ⟨q', there', same.trans running, more waiter member⟩
  · intro id q waiter there member
    have inherited : ∀ q, st.pthreads.lookup id = some q → waiter ∈ q.waiters →
        waiter ≠ noTask ∧ ∃ wee, (st.waitees.insert tid { waitee, valuePtr := ptr, ret }).lookup
          waiter = some wee ∧ wee.waitee = id := by
      intro q there member
      obtain ⟨name, wee, edge, same⟩ := core.back id q waiter there member
      have other : waiter ≠ tid := by
        rintro rfl
        rw [awake] at edge
        cases edge
      exact ⟨name, wee, lookup_insert_some.mpr (Or.inr ⟨other, edge⟩), same⟩
    rcases (lookup_replace_some known).mp there with ⟨rfl, rfl⟩ | ⟨_, there⟩
    · rcases Tidset.mem_insert.mp member with member | rfl
      · exact inherited pt found member
      · exact ⟨name, _, lookup_insert_some.mpr (Or.inl ⟨rfl, rfl⟩), rfl⟩
    · exact inherited q there member
  · intro id q there
    rcases (lookup_replace_some known).mp there with ⟨rfl, rfl⟩ | ⟨_, there⟩
    · exact core.threads _ pt found
    · exact core.threads id q there

theorem Core.terminate {tid : TaskId} {pt : PthreadTask} (core : Core st)
    (found : st.pthreads.lookup tid = some pt) (alone : pt.waiters.size = 0) :
    Core { st with pthreads := st.pthreads.replace tid { pt with terminated := true } } := by
  have known := mem_of_lookup found
  have unjoined : ∀ waiter, waiter ∉ pt.waiters := by
    intro waiter member
    have some := Tidset.size_pos_iff.mpr ⟨waiter, member⟩
    omega
  refine ⟨core.chains.fewer (fun _ _ found => found) fun _ _ found => found, ?_, ?_, ?_, ?_⟩
  · intro thread id task
    obtain ⟨q, there, same⟩ := core.tasks thread id task
    by_cases here : id = tid
    · subst here
      rw [found] at there
      cases there
      exact ⟨_, (lookup_replace_some known).mpr (Or.inl ⟨rfl, rfl⟩), same⟩
    · exact ⟨q, (lookup_replace_some known).mpr (Or.inr ⟨here, there⟩), same⟩
  · intro waiter wee edge
    obtain ⟨q, there, alive, member⟩ := core.edges waiter wee edge
    refine ⟨q, (lookup_replace_some known).mpr (Or.inr ⟨?_, there⟩), alive, member⟩
    intro here
    rw [here, found] at there
    cases there
    exact unjoined waiter member
  · intro id q waiter there member
    rcases (lookup_replace_some known).mp there with ⟨rfl, rfl⟩ | ⟨_, there⟩
    · exact absurd member (unjoined waiter)
    · exact core.back id q waiter there member
  · intro id q there
    rcases (lookup_replace_some known).mp there with ⟨rfl, rfl⟩ | ⟨_, there⟩
    · exact core.threads _ pt found
    · exact core.threads id q there

theorem Core.erase {tid : TaskId} {pt : PthreadTask} {tasks : Map TaskId} {waitees : Map Waitee}
    (core : Core st) (found : st.pthreads.lookup tid = some pt)
    (dropped : dropTask (st.tasks.lookup pt.pthread) tid pt.pthread st.tasks = .ok tasks)
    (left : ∀ waiter wee, waitees.lookup waiter = some wee ↔
      st.waitees.lookup waiter = some wee ∧ wee.waitee ≠ tid) :
    Core { pthreads := st.pthreads.erase tid, tasks, waitees } := by
  refine ⟨core.chains.fewer (fun _ _ => dropTask_lookup dropped)
    fun waiter wee edge => ((left waiter wee).mp edge).1, ?_, ?_, ?_, ?_⟩
  · intro thread id task
    have before := dropTask_lookup dropped task
    obtain ⟨q, there, same⟩ := core.tasks thread id before
    refine ⟨q, lookup_erase_some.mpr ⟨?_, there⟩, same⟩
    rintro rfl
    rw [found] at there
    cases there
    -- an entry of the finished task would be the one that was dropped
    rw [same, before] at dropped
    obtain ⟨owner, own, ⟨_, _, rfl⟩ | ⟨other, _⟩⟩ := dropTask_ok.mp dropped
    · rw [AList.lookup_erase] at task
      cases task
    · cases own
      exact other rfl
  · intro waiter wee edge
    obtain ⟨before, other⟩ := (left waiter wee).mp edge
    obtain ⟨q, there, facts⟩ := core.edges waiter wee before
    exact ⟨q, lookup_erase_some.mpr ⟨other, there⟩, facts⟩
  · intro id q waiter there member
    obtain ⟨other, there⟩ := lookup_erase_some.mp there
    obtain ⟨name, wee, edge, same⟩ := core.back id q waiter there member
    exact ⟨name, wee, (left waiter wee).mpr ⟨edge, same ▸ other⟩, same⟩
  · intro id q there
    exact core.threads id q (lookup_erase_some.mp there).2

end Core

section Release

theorem releaseWaiters_ok (value : UInt64) {waiters : List TaskId} (distinct : waiters.Nodup)
    {waitees : Map Waitee}
    (waiting : ∀ waiter ∈ waiters, waiter ≠ noTask ∧ ∃ wee, waitees.lookup waiter = some wee) :
    ∃ writes waitees', releaseWaiters value waiters waitees = .ok (writes, waitees') ∧
      (∀ id wee, waitees'.lookup id = some wee ↔ id ∉ waiters ∧ waitees.lookup id = some wee) ∧
      ∀ write, write ∈ writes ↔ ∃ waiter ∈ waiters, ∃ wee, waitees.lookup waiter = some wee ∧
        write ∈ joinResult wee.valuePtr wee.ret value := by
  have loop : ∀ (waiters : List TaskId) (first : List JoinWrite) (waitees : Map Waitee),
      waiters.Nodup →
      (∀ waiter ∈ waiters, waiter ≠ noTask ∧ ∃ wee, waitees.lookup waiter = some wee) →
      ∃ writes waitees',
        waiters.foldlM (releaseStep value) (first, waitees) = .ok (writes, waitees') ∧
        (∀ id wee, waitees'.lookup id = some wee ↔ id ∉ waiters ∧ waitees.lookup id = some wee) ∧
        ∀ write, write ∈ writes ↔ write ∈ first ∨
          ∃ waiter ∈ waiters, ∃ wee, waitees.lookup waiter = some wee ∧
            write ∈ joinResult wee.valuePtr wee.ret value := by
    intro waiters
    induction waiters with
    | nil =>
        intro first waitees _ _
        exact ⟨first, waitees, rfl, by simp, by simp⟩
    | cons waiter waiters ih =>
        intro first waitees distinct waiting
        obtain ⟨new, distinct⟩ := List.nodup_cons.mp distinct
        obtain ⟨name, wee, edge⟩ := waiting waiter (by simp)
        have kept : ∀ other ∈ waiters, (waitees.erase waiter).lookup other = waitees.lookup other := by
          intro other member
          apply AList.lookup_erase_ne
          rintro rfl
          exact new member
        obtain ⟨writes, waitees', ran, left, written⟩ :=
          ih (first ++ joinResult wee.valuePtr wee.ret value) (waitees.erase waiter) distinct (by
            intro other member
            rw [kept other member]
            exact waiting other (by simp [member]))
        refine ⟨writes, waitees', ?_, ?_, ?_⟩
        · rw [List.foldlM_cons, releaseStep_ok.mpr ⟨name, wee, edge, rfl⟩, ok_bind]
          exact ran
        · intro id out
          rw [left, lookup_erase_some, List.mem_cons, not_or]
          tauto
        · intro write
          rw [written, List.mem_append]
          constructor
          · rintro ((early | here) | ⟨other, member, out, found, stored⟩)
            · exact Or.inl early
            · exact Or.inr ⟨waiter, by simp, wee, edge, here⟩
            · rw [kept other member] at found
              exact Or.inr ⟨other, by simp [member], out, found, stored⟩
          · rintro (early | ⟨other, member, out, found, stored⟩)
            · exact Or.inl (Or.inl early)
            · rcases List.mem_cons.mp member with rfl | member
              · rw [edge] at found
                cases found
                exact Or.inl (Or.inr stored)
              · rw [← kept other member] at found
                exact Or.inr ⟨other, member, out, found, stored⟩
  obtain ⟨writes, waitees', ran, left, written⟩ := loop waiters [] waitees distinct waiting
  exact ⟨writes, waitees', ran, left, by simpa using written⟩

end Release

section Events

variable {w : World} {st : JoinState} {cp : JoinCapture} {e : Decision}

/-- What one event does under the invariant: nothing fails, and only a join makes a task wait. -/
def Steps (w : World) (cp : JoinCapture) : Prop :=
  ∃ writes st', joinEvent cp w.st = .ok (writes, st') ∧ Tables (after cp w st') ∧
    (isJoin cp.event = false →
      ∀ id wee, st'.waitees.lookup id = some wee → w.st.waitees.lookup id = some wee) ∧
    ∀ payload, cp.event = .fini payload → Released w.st cp.id (payload.getD 0) writes st'

theorem init_steps (tables : Tables w) (captures : Captures w cp e) {thread : UInt64}
    {detached : Bool} (event : cp.event = .init thread detached) : Steps w cp := by
  obtain ⟨unborn, named⟩ : cp.id ∉ w.born ∧ thread ≠ noTask := by
    simpa only [InOrder, event] using captures.order
  have fresh : w.st.pthreads.lookup cp.id = none := by
    cases found : w.st.pthreads.lookup cp.id with
    | none => rfl
    | some pt => exact absurd (tables.known cp.id pt found) unborn
  obtain ⟨st', ran⟩ : ∃ st', joinInit cp.id thread detached w.st = .ok st' :=
    ⟨_, joinInit_ok.mpr ⟨fresh, rfl⟩⟩
  have core := tables.core.init fresh captures.named named ran
  obtain ⟨_, rfl⟩ := joinInit_ok.mp ran
  refine ⟨[], _, by simp [joinEvent, event, ran], ⟨core, ?_, ?_⟩, fun _ _ _ found => found, ?_⟩
  · intro id born going
    simp only [after, event, List.mem_cons] at born going ⊢
    simp only [lookup_insert_some]
    by_cases same : id = cp.id
    · exact ⟨_, Or.inl ⟨same, rfl⟩, rfl, rfl⟩
    · obtain ⟨pt, there, facts⟩ := tables.alive id (born.resolve_left same) going
      exact ⟨pt, Or.inr ⟨same, there⟩, facts⟩
  · intro id pt there
    simp only [after, event, List.mem_cons]
    rcases lookup_insert_some.mp there with ⟨same, _⟩ | ⟨_, there⟩
    · exact Or.inl same
    · exact Or.inr (tables.known id pt there)
  · intro payload ends
    rw [event] at ends
    cases ends

theorem Tables.replace {id : TaskId} {pt : PthreadTask} (tables : Tables w)
    (found : w.st.pthreads.lookup id = some pt) (pt' : PthreadTask)
    (pthreads : st.pthreads = w.st.pthreads.replace id pt')
    (terminated : pt'.terminated = pt.terminated) (value : pt'.valuePtr = pt.valuePtr)
    (core : Core st) : Tables { w with st } := by
  have known := mem_of_lookup found
  refine ⟨core, ?_, ?_⟩
  · intro task born going
    obtain ⟨q, there, alive, null⟩ := tables.alive task born going
    by_cases same : task = id
    · subst same
      rw [found] at there
      cases there
      refine ⟨pt', ?_, terminated.trans alive, value.trans null⟩
      rw [pthreads]
      exact (lookup_replace_some known).mpr (Or.inl ⟨rfl, rfl⟩)
    · refine ⟨q, ?_, alive, null⟩
      rw [pthreads]
      exact (lookup_replace_some known).mpr (Or.inr ⟨same, there⟩)
  · intro task q there
    rw [pthreads] at there
    rcases (lookup_replace_some known).mp there with ⟨rfl, _⟩ | ⟨_, there⟩
    · exact tables.known _ pt found
    · exact tables.known task q there

theorem join_steps (tables : Tables w) (captures : Captures w cp e) {thread ptr ret : UInt64}
    (event : cp.event = .join thread ptr ret) (sound : Sound w.st cp) : Steps w cp := by
  have alive : ∀ waitee pt, w.st.tasks.lookup thread = some waitee →
      w.st.pthreads.lookup waitee = some pt → pt.terminated = false := by
    simp only [Sound, event] at sound
    exact fun waitee pt found there => sound waitee found pt there
  have awake : w.st.waitees.lookup cp.id = none := AList.lookup_eq_none.mpr captures.awake
  have enough : (∃ writes st', join cp.id thread ptr ret w.st = .ok (writes, st') ∧
      Tables { w with st := st' }) → Steps w cp := by
    rintro ⟨writes, st', ran, kept⟩
    refine ⟨writes, st', by simp only [joinEvent, event, ran], ?_, ?_, ?_⟩
    · simpa only [after, event] using kept
    · simp [event, isJoin]
    · intro payload ends
      rw [event] at ends
      cases ends
  apply enough
  cases found : w.st.tasks.lookup thread with
  | none => exact ⟨[.ret ret eSrch], w.st, by simp only [join, found], tables⟩
  | some waitee =>
      obtain ⟨pt, there, _⟩ := tables.core.tasks thread waitee found
      have running := alive waitee pt found there
      have chains := tables.core.chains
      obtain ⟨deadlock, walked, _⟩ :=
        joinWalk_ends chains.named chains.acyclic cp.id (chains.named.tasks thread waitee found)
      cases deadlock with
      | true => exact ⟨[.ret ret eDeadlk], w.st, by simp [join, found, walked], tables⟩
      | false =>
          have ran : join cp.id thread ptr ret w.st = .ok ([], { w.st with
              pthreads := w.st.pthreads.replace waitee
                { pt with waiters := pt.waiters.insert cp.id }
              waitees := w.st.waitees.insert cp.id { waitee, valuePtr := ptr, ret } }) := by
            simp [join, found, walked, there, running, awake]
          have core := tables.core.wait there running awake captures.named (chains.join ran)
          exact ⟨_, _, ran, tables.replace there _ rfl rfl rfl core⟩

theorem detach_steps (tables : Tables w) {thread ret : UInt64}
    (event : cp.event = .detach thread ret) (sound : Sound w.st cp) : Steps w cp := by
  have calm : ∀ id, w.st.tasks.lookup thread = some id → ∀ p, w.st.pthreads.lookup id = some p →
      p.detached = false → id ∉ w.st.waitees := by
    simp only [Sound, event] at sound
    exact sound
  have enough : (∃ writes st', joinDetach thread ret w.st = .ok (writes, st') ∧
      Tables { w with st := st' } ∧ st'.waitees = w.st.waitees) → Steps w cp := by
    rintro ⟨writes, st', ran, kept, same⟩
    refine ⟨writes, st', by simp only [joinEvent, event, ran], ?_, ?_, ?_⟩
    · simpa only [after, event] using kept
    · intro _ id wee found
      rwa [same] at found
    · intro payload ends
      rw [event] at ends
      cases ends
  apply enough
  cases found : w.st.tasks.lookup thread with
  | none => exact ⟨[.ret ret eSrch], w.st, by simp only [joinDetach, found], tables, rfl⟩
  | some id =>
      obtain ⟨pt, there, _⟩ := tables.core.tasks thread id found
      by_cases again : pt.detached = true
      · exact ⟨[.ret ret eInval], w.st, by simp only [joinDetach, found, there, again, if_true],
          tables, rfl⟩
      · have awake : w.st.waitees.lookup id = none :=
          AList.lookup_eq_none.mpr (calm id found pt there (Bool.eq_false_iff.mpr again))
        have core := tables.core.replace there { pt with detached := true } ⟨rfl, rfl, rfl⟩
        refine ⟨[.ret ret 0], _, ?_,
          tables.replace there { pt with detached := true } rfl rfl rfl core, rfl⟩
        simp [joinDetach, found, there, again, awake]

structure Finishes (tid : TaskId) (value : UInt64) (st : JoinState) (writes : List JoinWrite)
    (st' : JoinState) : Prop where
  core : Core st'
  released : Released st tid value writes st'
  others : ∀ id, id ≠ tid → st'.pthreads.lookup id = st.pthreads.lookup id
  fewer : ∀ id wee, st'.waitees.lookup id = some wee → st.waitees.lookup id = some wee

theorem released_nobody {tid : TaskId} {value : UInt64} {pt : PthreadTask} {st' : JoinState}
    (core : Core st) (found : st.pthreads.lookup tid = some pt) (alone : pt.waiters.size = 0) :
    Released st tid value [] st' ∧
      ∀ waiter wee, st.waitees.lookup waiter = some wee → wee.waitee ≠ tid := by
  have unjoined : ∀ waiter wee, st.waitees.lookup waiter = some wee → wee.waitee ≠ tid := by
    intro waiter wee edge same
    obtain ⟨q, there, _, member⟩ := core.edges waiter wee edge
    rw [same, found] at there
    cases there
    have some := Tidset.size_pos_iff.mpr ⟨waiter, member⟩
    omega
  refine ⟨⟨?_, by simp, by simp⟩, unjoined⟩
  intro waiter wee edge same
  exact absurd same (unjoined waiter wee edge)

theorem mem_joinResult {ptr ret value : UInt64} {write : JoinWrite}
    (stored : write ∈ joinResult ptr ret value) : write = .ret ret 0 ∨ write = .value ptr value := by
  unfold joinResult at stored
  rcases List.mem_append.mp stored with first | last
  · by_cases asked : ptr ≠ 0
    · rw [if_pos asked] at first
      exact Or.inr (List.mem_singleton.mp first)
    · rw [if_neg asked] at first
      cases first
  · exact Or.inl (List.mem_singleton.mp last)

theorem dropTask_known {tid : TaskId} {pt : PthreadTask} (core : Core st)
    (found : st.pthreads.lookup tid = some pt)
    (entry : (st.tasks.lookup pt.pthread).isSome = true) :
    ∃ tasks, dropTask (st.tasks.lookup pt.pthread) tid pt.pthread st.tasks = .ok tasks := by
  obtain ⟨owner, task⟩ := Option.isSome_iff_exists.mp entry
  by_cases own : owner = tid
  · exact ⟨_, dropTask_ok.mpr ⟨owner, task, Or.inl ⟨own, core.threads tid pt found, rfl⟩⟩⟩
  · exact ⟨_, dropTask_ok.mpr ⟨owner, task, Or.inr ⟨own, rfl⟩⟩⟩

theorem fini_finishes {tid : TaskId} {pt : PthreadTask} (core : Core st)
    (found : st.pthreads.lookup tid = some pt)
    (unjoined : pt.detached = true → pt.waiters.size = 0)
    (entry : pt.detached = true ∨ pt.waiters.size ≠ 0 →
      (st.tasks.lookup pt.pthread).isSome = true) :
    ∃ writes st', joinFini tid st = .ok (writes, st') ∧
      Finishes tid pt.valuePtr st writes st' := by
  by_cases detached : pt.detached = true
  · obtain ⟨tasks, dropped⟩ := dropTask_known core found (entry (Or.inl detached))
    obtain ⟨released, edges⟩ := released_nobody core found (unjoined detached)
    refine ⟨[], { st with pthreads := st.pthreads.erase tid, tasks }, ?_, ?_, released, ?_, ?_⟩
    · simp [joinFini, found, detached, dropped]
    · apply core.erase found dropped
      intro waiter wee
      exact ⟨fun edge => ⟨edge, edges waiter wee edge⟩, fun edge => edge.1⟩
    · intro id other
      exact AList.lookup_erase_ne other
    · exact fun _ _ edge => edge
  · by_cases alone : pt.waiters.size = 0
    · obtain ⟨released, _⟩ := released_nobody core found alone
      refine ⟨[], _, by simp only [joinFini, found, if_neg detached, if_pos alone],
        core.terminate found alone, released, ?_, fun _ _ edge => edge⟩
      intro id other
      rw [lookup_replace (mem_of_lookup found), if_neg other]
    · obtain ⟨tasks, dropped⟩ := dropTask_known core found (entry (Or.inr alone))
      have waiting : ∀ waiter ∈ pt.waiters.tasks,
          waiter ≠ noTask ∧ ∃ wee, st.waitees.lookup waiter = some wee := by
        intro waiter member
        obtain ⟨name, wee, edge, _⟩ := core.back tid pt waiter found member
        exact ⟨name, wee, edge⟩
      obtain ⟨writes, waitees, ran, left, written⟩ :=
        releaseWaiters_ok pt.valuePtr pt.waiters.nodup waiting
      have exact' : ∀ waiter wee, st.waitees.lookup waiter = some wee →
          (waiter ∈ pt.waiters.tasks ↔ wee.waitee = tid) := by
        intro waiter wee edge
        constructor
        · intro member
          obtain ⟨_, out, there, same⟩ := core.back tid pt waiter found member
          rw [edge] at there
          cases there
          exact same
        · intro same
          obtain ⟨q, there, _, member⟩ := core.edges waiter wee edge
          rw [same, found] at there
          cases there
          exact member
      refine ⟨writes, { pthreads := st.pthreads.erase tid, tasks, waitees }, ?_, ?_, ⟨?_, ?_, ?_⟩,
        ?_, ?_⟩
      · simp [joinFini, found, detached, alone, ran, dropped]
      · apply core.erase found dropped
        intro waiter wee
        rw [left]
        constructor
        · rintro ⟨apart, edge⟩
          exact ⟨edge, fun same => apart ((exact' waiter wee edge).mpr same)⟩
        · rintro ⟨edge, other⟩
          exact ⟨fun member => other ((exact' waiter wee edge).mp member), edge⟩
      · intro waiter wee edge same
        have member := (exact' waiter wee edge).mpr same
        refine ⟨?_, ?_, ?_⟩
        · cases there : waitees.lookup waiter with
          | none => rfl
          | some out => exact absurd member ((left waiter out).mp there).1
        · exact (written _).mpr ⟨waiter, member, wee, edge, by simp [joinResult]⟩
        · intro asked
          exact (written _).mpr ⟨waiter, member, wee, edge, by simp [joinResult, asked]⟩
      · intro addr code stored
        obtain ⟨_, _, wee, _, one⟩ := (written _).mp stored
        rcases mem_joinResult one with same | same <;> cases same
        rfl
      · intro addr value stored
        obtain ⟨_, _, wee, _, one⟩ := (written _).mp stored
        rcases mem_joinResult one with same | same <;> cases same
        rfl
      · intro id other
        exact AList.lookup_erase_ne other
      · intro id wee edge
        exact ((left id wee).mp edge).2

theorem fini_steps (tables : Tables w) (captures : Captures w cp e) {payload : Option UInt64}
    (event : cp.event = .fini payload) (sound : Sound w.st cp) : Steps w cp := by
  obtain ⟨born, going⟩ : cp.id ∈ w.born ∧ cp.id ∉ w.ended := by
    simpa only [InOrder, event] using captures.order
  obtain ⟨pt, found, alive, null⟩ := tables.alive cp.id born going
  have sound : ∀ pt, w.st.pthreads.lookup cp.id = some pt →
      (pt.detached = true → pt.waiters.size = 0) ∧
      (pt.detached = true ∨ pt.waiters.size ≠ 0 →
        (w.st.tasks.lookup pt.pthread).isSome = true) := by
    simp only [Sound, event] at sound
    exact sound
  obtain ⟨unjoined, entry⟩ := sound pt found
  have known := mem_of_lookup found
  have ends : ∃ writes st', joinEvent cp w.st = .ok (writes, st') ∧ Core st' ∧
      Released w.st cp.id (payload.getD 0) writes st' ∧
      (∀ id, id ≠ cp.id → st'.pthreads.lookup id = w.st.pthreads.lookup id) ∧
      ∀ id wee, st'.waitees.lookup id = some wee → w.st.waitees.lookup id = some wee := by
    cases payload with
    | none =>
        obtain ⟨writes, st', ran, finishes⟩ := fini_finishes tables.core found unjoined entry
        refine ⟨writes, st', by simp only [joinEvent, event, ran], finishes.core, ?_,
          finishes.others, finishes.fewer⟩
        rw [null] at finishes
        exact finishes.released
    | some ptr =>
        let left : JoinState :=
          { w.st with pthreads := w.st.pthreads.replace cp.id { pt with valuePtr := ptr } }
        have exits : joinTexit cp.id ptr w.st = .ok left := joinTexit_ok.mpr ⟨pt, found, null, rfl⟩
        have core : Core left := tables.core.replace found _ ⟨rfl, rfl, rfl⟩
        have there : left.pthreads.lookup cp.id = some { pt with valuePtr := ptr } :=
          (lookup_replace_some known).mpr (Or.inl ⟨rfl, rfl⟩)
        obtain ⟨writes, st', ran, finishes⟩ := fini_finishes core there unjoined entry
        refine ⟨writes, st', ?_, finishes.core, ⟨?_, ?_, ?_⟩, ?_, finishes.fewer⟩
        · simp only [joinEvent, event, exits, ok_bind, ran]
        · exact finishes.released.waiters
        · exact finishes.released.codes
        · exact finishes.released.values
        · intro id other
          rw [finishes.others id other]
          exact (lookup_replace known id _).trans (if_neg other)
  obtain ⟨writes, st', ran, core, released, others, fewer⟩ := ends
  refine ⟨writes, st', ran, ⟨core, ?_, ?_⟩, fun _ => fewer, ?_⟩
  · intro id born' going'
    simp only [after, event, List.mem_cons, not_or] at born' going' ⊢
    rw [others id going'.1]
    exact tables.alive id born' going'.2
  · intro id q there
    simp only [after, event] at there ⊢
    by_cases same : id = cp.id
    · rw [same]
      exact born
    · rw [others id same] at there
      exact tables.known id q there
  · intro payload' again
    rw [event] at again
    cases again
    exact released

theorem event_steps (tables : Tables w) (captures : Captures w cp e) (sound : Sound w.st cp) :
    Steps w cp := by
  cases event : cp.event with
  | init thread detached => exact init_steps tables captures event
  | join thread ptr ret => exact join_steps tables captures event sound
  | detach thread ret => exact detach_steps tables event sound
  | fini payload => exact fini_steps tables captures event sound
  | other =>
      refine ⟨[], w.st, by simp only [joinEvent, event], ?_, fun _ _ _ found => found, ?_⟩
      · simpa only [after, event] using tables
      · intro payload ends
        rw [event] at ends
        cases ends

theorem joinFilter_ok {id : TaskId} (tset : noTask ∉ e.tset)
    (unfiltered : (st.waitees.lookup id).isSome = true → e.anyTaskFilter = none) :
    ∃ e', joinFilter id e st = .ok e' := by
  unfold joinFilter
  by_cases skipped : e.skip = true
  · exact ⟨e, if_pos skipped⟩
  · have clean : (!e.tset.has noTask) = true := by
      simpa using tset
    rw [if_neg skipped, clean, check_true, ok_bind]
    by_cases waiting : (st.waitees.lookup id).isSome = true
    · have filter : (e.anyTaskFilter == none) = true := by
        simp [unfiltered waiting]
      simp only [if_pos waiting, filter, check_true, ok_bind]
      exact ⟨_, rfl⟩
    · simp only [if_neg waiting]
      exact ⟨_, rfl⟩

theorem handle_steps (tables : Tables w) (captures : Captures w cp e) (sound : Sound w.st cp) :
    ∃ writes e' st', joinHandle cp e w.st = .ok (writes, e', st') ∧ Tables (after cp w st') ∧
      ∀ payload, cp.event = .fini payload → Released w.st cp.id (payload.getD 0) writes st' := by
  obtain ⟨writes, st', ran, kept, fewer, released⟩ := event_steps tables captures sound
  have name : (cp.id != noTask) = true := by
    simpa using captures.named
  obtain ⟨e', filtered⟩ : ∃ e', joinFilter cp.id e st' = .ok e' := by
    apply joinFilter_ok captures.tset
    intro waiting
    apply captures.unfiltered
    by_contra other
    obtain ⟨wee, found⟩ := Option.isSome_iff_exists.mp waiting
    exact captures.awake (mem_of_lookup (fewer (Bool.eq_false_iff.mpr other) cp.id wee found))
  refine ⟨writes, e', st', ?_, kept, released⟩
  simp only [joinHandle, name, check_true, ok_bind, ran, filtered]

theorem tables_kept : Kept (system Sound) Tables where
  start := by
    refine ⟨⟨chains_start, ?_, ?_, ?_, ?_⟩, ?_, ?_⟩ <;> simp [system, joinStart]
  step := by
    rintro w ⟨cp, e⟩ tables ⟨captures, sound⟩
    obtain ⟨writes, e', st', ran, kept, _⟩ := handle_steps tables captures sound
    refine ⟨after cp w st', ?_, kept⟩
    simp [system, step, ran, Except.map]

end Events

/-- In every run whose events reach none of the handler's slips the tables are consistent in
every state, no assertion fails, and the end of a task releases all its joiners. -/
theorem join_tables_consistent (w : World) (reached : Reachable (system Sound) w) :
    Consistent w.st ∧
    ∀ cp e, Captures w cp e → Sound w.st cp →
      ∃ writes e' st', joinHandle cp e w.st = .ok (writes, e', st') ∧
        ∀ payload, cp.event = .fini payload → Released w.st cp.id (payload.getD 0) writes st' := by
  have tables := tables_kept.reachable reached
  refine ⟨⟨?_, tables.core.edges⟩, ?_⟩
  · intro thread id found
    obtain ⟨pt, there, _⟩ := tables.core.tasks thread id found
    exact ⟨pt, there⟩
  · intro cp e captures sound
    obtain ⟨writes, e', st', ran, _, released⟩ := handle_steps tables captures sound
    exact ⟨writes, e', st', ran, released⟩

def bothJoin : List (JoinCapture × Decision) :=
  [joinCapture 1 (.init 101 false), joinCapture 2 (.init 102 false),
    joinCapture 3 (.init 103 false), joinCapture 1 (.join 103 16 7), joinCapture 2 (.join 103 0 8)]

theorem join_tables_both :
    ∃ w, Reachable (system Sound) w ∧ Consistent w.st ∧
      ∃ writes e' st', joinHandle ⟨3, .fini (some 99)⟩ (joinCapture 3 .other).2 w.st =
        .ok (writes, e', st') ∧ Released w.st 3 99 writes st' := by
  have legal : Legal (system Sound) bothJoin (system Sound).start := by decide
  have seen : (run (system Sound) bothJoin (system Sound).start).map (fun w =>
      decide (Captures w ⟨3, .fini (some 99)⟩ (joinCapture 3 .other).2 ∧
        Sound w.st ⟨3, .fini (some 99)⟩)) = .ok true := by decide
  obtain ⟨w, ran⟩ := legal.runs
  rw [ran] at seen
  obtain ⟨captures, sound⟩ := of_decide_eq_true (Except.ok.inj seen)
  have reached := legal.reachable Reachable.start ran
  obtain ⟨consistent, steps⟩ := join_tables_consistent w reached
  obtain ⟨writes, e', st', handled, released⟩ := steps _ _ captures sound
  exact ⟨w, reached, consistent, writes, e', st', handled, released (some 99) rfl⟩

def lateJoin : List (JoinCapture × Decision) :=
  [joinCapture 1 (.init 101 false), joinCapture 2 (.init 102 false), joinCapture 2 (.fini none),
    joinCapture 1 (.join 102 0 7)]

theorem late_join_stale :
    ¬ ∀ w, Reachable (system fun _ _ => True) w → Consistent w.st := by
  intro consistent
  have legal : Legal (system fun _ _ => True) lateJoin (system fun _ _ => True).start := by decide
  have seen : (run (system fun _ _ => True) lateJoin (system fun _ _ => True).start).map (fun w =>
      (w.st.tasks.lookup 102, w.st.pthreads.lookup 2)) = .ok (some 2, none) := by decide
  obtain ⟨w, ran⟩ := legal.runs
  rw [ran] at seen
  obtain ⟨task, gone⟩ := Prod.mk.inj (Except.ok.inj seen)
  obtain ⟨pt, there⟩ := (consistent w (legal.reachable Reachable.start ran)).tasks 102 2 task
  rw [gone] at there
  cases there

end Lotto.JoinTables
