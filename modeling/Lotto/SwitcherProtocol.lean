import Lotto.Library.GuardedRun
import Lotto.Switcher

namespace Lotto.SwitcherProtocol

open Library.FaultRun Library.GuardedRun

variable {W : Type}

/-- `any_task_filter`, over the state that the handlers keep. -/
abbrev TaskFilter (W : Type) := Option (W → TaskId → Bool)

def tellsWait (filter : TaskFilter W) (world : W) (id : TaskId) : Bool :=
  match filter with
  | none => false
  | some filter => filter world id

inductive Stage (W : Type) where
  /-- The task never was in the switcher. -/
  | outside
  /-- It may run and did not wake its successor yet. -/
  | running
  /-- It woke its successor and goes on to yield or to finish. -/
  | leaving
  /-- It waits on the condition variable of its bucket. -/
  | asleep (filter : TaskFilter W)
  /-- It was signalled and goes on to take the mutex. -/
  | awake (filter : TaskFilter W)
  /-- It released the mutex for the slack time. -/
  | slacking (filter : TaskFilter W)
  | finished

/-- The stages between the increment and the decrement of `cnd_counter`. -/
def Stage.inside : Stage W → Bool
  | .asleep _ | .awake _ | .slacking _ => true
  | _ => false

/-- The stages from which a task checks `next` again before it sleeps. -/
def Stage.alert : Stage W → Bool
  | .awake _ | .slacking _ => true
  | _ => false

/-- A consumed wake: the argument of the wake, the task that consumed it and what its filter
said. -/
structure Served where
  target : TaskId
  task : TaskId
  wait : Bool

structure World (W : Type) where
  sw : Switcher
  stage : TaskId → Stage W
  world : W
  wakes : List TaskId
  served : List Served

/-- The critical sections of the tasks. `woken` are the waiters that the signals of the section
wake. -/
inductive Move (W : Type) where
  /-- The running task changes the state of the handlers. -/
  | act (id : TaskId) (world : W)
  /-- The running task creates a task that runs in its place. -/
  | create (id child : TaskId)
  | wake (id target : TaskId) (slack : Nat) (woken : List TaskId)
  | finish (id : TaskId)
  | enter (id : TaskId) (filter : TaskFilter W) (woken : List TaskId)
  /-- `vcond_wait` returns with the mutex. -/
  | recheck (id : TaskId) (woken : List TaskId)
  /-- `sys_nanosleep` returns and the mutex is taken again. -/
  | slackOver (id : TaskId) (woken : List TaskId)
  /-- A waiter wakes without a signal. -/
  | spurious (id : TaskId)

def rouse (woken : List TaskId) (stage : TaskId → Stage W) (id : TaskId) : Stage W :=
  match stage id with
  | .asleep filter => if id ∈ woken then .awake filter else .asleep filter
  | other => other

def World.put (w : World W) (id : TaskId) (stage : Stage W) : World W :=
  { w with stage := Function.update w.stage id stage }

def settle (id : TaskId) (filter : TaskFilter W) (woken : List TaskId) (w : World W) : World W :=
  let wait := tellsWait filter w.world id
  if yieldWaits id wait w.sw then
    World.put { w with stage := rouse woken w.stage } id (.asleep filter)
  else
    World.put { w with sw := (yieldExit id w.sw).2, served := w.served ++ [⟨w.sw.next, id, wait⟩] }
      id .running

def entered (id : TaskId) (filter : TaskFilter W) (w : World W) : World W :=
  World.put { w with sw := yieldEnter id w.sw } id (.awake filter)

def unslacked (id : TaskId) (filter : TaskFilter W) (w : World W) : World W :=
  World.put { w with sw := { w.sw with slack := 0 } } id (.awake filter)

def move : Move W → World W → Except Fault (World W)
  | .act _ world, w => .ok { w with world }
  | .create id child, w => .ok ((w.put id .leaving).put child .running)
  | .wake id target slack woken, w => do
      let (_, sw) ← switcherWake target slack w.sw
      .ok (World.put { w with sw, stage := rouse woken w.stage, wakes := w.wakes ++ [target] } id
        .leaving)
  | .finish id, w => .ok (w.put id .finished)
  | .enter id filter woken, w => .ok (settle id filter woken (entered id filter w))
  | .recheck id woken, w =>
      match w.stage id with
      | .awake filter =>
          if w.sw.slack ≠ 0 then .ok (w.put id (.slacking filter)) else .ok (settle id filter woken w)
      | _ => .ok w
  | .slackOver id woken, w =>
      match w.stage id with
      | .slacking filter => .ok (settle id filter woken (unslacked id filter w))
      | _ => .ok w
  | .spurious id, w =>
      match w.stage id with
      | .asleep filter => .ok (w.put id (.awake filter))
      | _ => .ok w

def settleSignals (id : TaskId) (filter : TaskFilter W) (w : World W) : List Int :=
  if yieldWaits id (tellsWait filter w.world id) w.sw then [yieldBucket id] else []

def signals : Move W → World W → List Int
  | .wake _ target slack _, w =>
      match switcherWake target slack w.sw with
      | .ok (signalled, _) => signalled
      | .error _ => []
  | .enter id filter _, w => settleSignals id filter (entered id filter w)
  | .recheck id _, w =>
      match w.stage id with
      | .awake filter => if w.sw.slack ≠ 0 then [] else settleSignals id filter w
      | _ => []
  | .slackOver id _, w =>
      match w.stage id with
      | .slacking filter => settleSignals id filter (unslacked id filter w)
      | _ => []
  | _, _ => []

def IsTask (id : TaskId) : Prop := id ≠ noTask ∧ id.toNat < 0x80000000

/-- `vcond_signal` wakes a waiter of each signalled bucket that has one. -/
def Rouses (buckets : List Int) (woken : List TaskId) (w : World W) : Prop :=
  ∀ bucket ∈ buckets, ∀ id filter, w.stage id = .asleep filter → yieldBucket id = bucket →
    ∃ other ∈ woken, yieldBucket other = bucket ∧ ∃ filter, w.stage other = .asleep filter

def Allowed (w : World W) : Move W → Prop
  | .act id _ => w.stage id = .running
  | .create id child => w.stage id = .running ∧ w.stage child = .outside ∧ IsTask child
  | .wake id target slack woken => w.stage id = .running ∧ (IsTask target ∨ target = anyTask) ∧
      Rouses (signals (.wake id target slack woken) w) woken w
  | .finish id => w.stage id = .leaving
  | .enter id filter woken => (w.stage id = .outside ∨ w.stage id = .leaving) ∧ IsTask id ∧
      Rouses (signals (.enter id filter woken) w) woken w
  | .recheck id woken => (∃ filter, w.stage id = .awake filter) ∧ Rouses (signals (.recheck id woken) w) woken w
  | .slackOver id woken => (∃ filter, w.stage id = .slacking filter) ∧
      Rouses (signals (.slackOver id woken) w) woken w
  | .spurious id => ∃ filter, w.stage id = .asleep filter

def system (first : TaskId) (world : W) : Guarded (World W) (Move W) Fault where
  start :=
    { sw := switcherInit, stage := Function.update (fun _ => .outside) first .running, world
      wakes := [], served := [] }
  step := move
  allowed := Allowed

/-- `next` names the task, or any task that its filter admits. -/
def Called (w : World W) (id : TaskId) (filter : TaskFilter W) : Prop :=
  w.sw.next = id ∨ w.sw.next = anyTask ∧ tellsWait filter w.world id = false

/-- `cnd_counter` counts the tasks of each bucket that are inside `switcher_yield`. -/
def Counted (w : World W) : Prop :=
  ∃ tasks : List TaskId, tasks.Nodup ∧ (∀ id, id ∈ tasks ↔ (w.stage id).inside = true) ∧
    ∀ bucket, w.sw.counter bucket = tasks.countP fun id => yieldBucket id = bucket

structure Protocol (w : World W) : Prop where
  tasks : ∀ id, w.stage id ≠ .outside → IsTask id
  live : w.sw.status ≠ .aborted
  one : ∀ id other, w.stage id = .running → w.stage other = .running → id = other
  token : ∀ id, w.stage id = .running → w.sw.next = noTask
  counted : Counted w
  heard : ∀ id filter, w.stage id = .asleep filter → Called w id filter →
    ∃ other, yieldBucket other = yieldBucket id ∧ (w.stage other).alert = true
  paired : w.wakes = w.served.map Served.target ++ if w.sw.next = noTask then [] else [w.sw.next]
  matched : ∀ s ∈ w.served, s.target = s.task ∨ s.target = anyTask ∧ s.wait = false

theorem protocol_start {first : TaskId} (task : IsTask first) (world : W) :
    Protocol (system first world).start := by
  have known : ∀ id, Function.update (fun _ => Stage.outside (W := W)) first .running id =
      if id = first then .running else .outside := fun id => Function.update_apply _ _ _ _
  refine ⟨?_, by simp [system, switcherInit], ?_, fun _ _ => rfl, ⟨[], List.nodup_nil, ?_, ?_⟩, ?_,
    rfl, by simp [system]⟩
  · intro id inside
    by_cases same : id = first
    · exact same ▸ task
    · simp [system, same] at inside
  · intro id other
    simp only [system, known]
    split <;> split <;> simp_all
  · intro id
    simp only [system, known]
    split <;> simp [Stage.inside]
  · intro bucket
    rfl
  · intro id filter
    simp only [system, known]
    split <;> simp

section Stages

variable {w : World W} {id other : TaskId} {stage : TaskId → Stage W} {woken : List TaskId}

@[simp] theorem put_stage (w : World W) (id : TaskId) (s : Stage W) (other : TaskId) :
    (w.put id s).stage other = if other = id then s else w.stage other :=
  Function.update_apply _ _ _ _

@[simp] theorem rouse_running : rouse woken stage id = .running ↔ stage id = .running := by
  unfold rouse
  split
  · split <;> simp_all
  · rfl

@[simp] theorem rouse_outside : rouse woken stage id = .outside ↔ stage id = .outside := by
  unfold rouse
  split
  · split <;> simp_all
  · rfl

@[simp] theorem rouse_inside : (rouse woken stage id).inside = (stage id).inside := by
  unfold rouse
  split
  · rename_i asleep
    rw [asleep]
    split <;> rfl
  · rfl

theorem rouse_alert (alert : (stage id).alert = true) : (rouse woken stage id).alert = true := by
  unfold rouse
  split
  · rename_i asleep
    rw [asleep] at alert
    cases alert
  · exact alert

theorem rouse_woken {filter : TaskFilter W} (asleep : stage id = .asleep filter)
    (member : id ∈ woken) : rouse woken stage id = .awake filter := by
  simp only [rouse, asleep, if_pos member]

theorem asleep_of_rouse {filter : TaskFilter W} (asleep : rouse woken stage id = .asleep filter) :
    stage id = .asleep filter := by
  unfold rouse at asleep
  split at asleep
  · rename_i before
    split at asleep
    · cases asleep
    · rw [before, asleep]
  · exact asleep

theorem Protocol.restage (inv : Protocol w) {stage' : TaskId → Stage W}
    (tasks : ∀ id, stage' id ≠ .outside → w.stage id ≠ .outside)
    (running : ∀ id, stage' id = .running → w.stage id = .running)
    (inside : ∀ id, (stage' id).inside = (w.stage id).inside)
    (heard : ∀ id filter, stage' id = .asleep filter → Called w id filter →
      ∃ other, yieldBucket other = yieldBucket id ∧ (stage' other).alert = true) :
    Protocol { w with stage := stage' } := by
  obtain ⟨members, nodup, same, counts⟩ := inv.counted
  refine ⟨fun id out => inv.tasks id (tasks id out), inv.live, ?_, ?_, ⟨members, nodup, ?_, counts⟩,
    heard, inv.paired, inv.matched⟩
  · intro id other first second
    exact inv.one id other (running id first) (running other second)
  · intro id first
    exact inv.token id (running id first)
  · intro id
    rw [same, inside]

theorem Protocol.moved (inv : Protocol w) {s : Stage W} (known : w.stage id ≠ .outside)
    (still : s ≠ .running) (up : ∀ filter, s ≠ .asleep filter)
    (inside : s.inside = (w.stage id).inside) (alert : (w.stage id).alert = true → s.alert = true) :
    Protocol (w.put id s) := by
  refine inv.restage ?_ ?_ ?_ ?_
  · intro other
    by_cases here : other = id
    · subst here
      exact fun _ => known
    · rw [Function.update_of_ne here]
      exact fun out => out
  · intro other
    by_cases here : other = id
    · subst here
      rw [Function.update_self]
      exact fun runs => absurd runs still
    · rw [Function.update_of_ne here]
      exact fun runs => runs
  · intro other
    by_cases here : other = id
    · subst here
      rw [Function.update_self, inside]
    · rw [Function.update_of_ne here]
  · intro sleeper filter asleep called
    by_cases here : sleeper = id
    · subst here
      rw [Function.update_self] at asleep
      exact absurd asleep (up filter)
    · rw [Function.update_of_ne here] at asleep
      obtain ⟨other, bucket, listens⟩ := inv.heard sleeper filter asleep called
      refine ⟨other, bucket, ?_⟩
      by_cases mover : other = id
      · subst mover
        rw [Function.update_self]
        exact alert listens
      · rw [Function.update_of_ne mover]
        exact listens

theorem Counted.mem (counted : Counted w) {filter : TaskFilter W}
    (asleep : w.stage id = .asleep filter) : 0 < w.sw.counter (yieldBucket id) := by
  obtain ⟨members, _, same, counts⟩ := counted
  rw [counts]
  have inside : id ∈ members := (same id).mpr (by rw [asleep]; rfl)
  exact Int.natCast_pos.mpr (List.countP_pos_iff.mpr ⟨id, inside, by simp⟩)

theorem Protocol.entered (inv : Protocol w) {filter : TaskFilter W}
    (from_ : w.stage id = .outside ∨ w.stage id = .leaving) (task : IsTask id) :
    Protocol (entered id filter w) := by
  obtain ⟨members, nodup, same, counts⟩ := inv.counted
  have quiet : (w.stage id).inside = false ∧ (w.stage id).alert = false := by
    rcases from_ with out | leaving
    · rw [out]
      exact ⟨rfl, rfl⟩
    · rw [leaving]
      exact ⟨rfl, rfl⟩
  have stage : ∀ other, (SwitcherProtocol.entered id filter w).stage other =
      if other = id then .awake filter else w.stage other := put_stage _ _ _
  refine ⟨?_, inv.live, ?_, ?_, ⟨id :: members, ?_, ?_, ?_⟩, ?_, inv.paired, inv.matched⟩
  · intro other
    rw [stage]
    by_cases here : other = id
    · exact fun _ => here ▸ task
    · rw [if_neg here]
      exact inv.tasks other
  · intro a b
    rw [stage, stage]
    intro first second
    split at first
    · cases first
    · split at second
      · cases second
      · exact inv.one a b first second
  · intro a first
    rw [stage] at first
    split at first
    · cases first
    · exact inv.token a first
  · refine List.nodup_cons.mpr ⟨?_, nodup⟩
    rw [same, quiet.1]
    exact Bool.false_ne_true
  · intro other
    rw [stage, List.mem_cons, same]
    by_cases here : other = id
    · simp [here, Stage.inside]
    · simp [here]
  · intro bucket
    simp only [SwitcherProtocol.entered, World.put, yieldEnter, Function.update_apply, counts,
      List.countP_cons]
    by_cases here : bucket = yieldBucket id
    · simp [here]
    · simp [here, Ne.symm here]
  · intro sleeper filter' asleep called
    rw [stage] at asleep
    split at asleep
    · cases asleep
    · obtain ⟨other, bucket, listens⟩ := inv.heard sleeper filter' asleep called
      refine ⟨other, bucket, ?_⟩
      rw [stage]
      split
      · rfl
      · exact listens

theorem yieldWaits_iff {filter : TaskFilter W} (live : w.sw.status ≠ .aborted) :
    yieldWaits id (tellsWait filter w.world id) w.sw = true ↔ ¬ Called w id filter := by
  by_cases named : w.sw.next = id
  · simp [yieldWaits, Called, named]
  · by_cases any : w.sw.next = anyTask
    · simp [yieldWaits, Called, live, any]
    · simp [yieldWaits, Called, live, named, any]

theorem Protocol.slept (inv : Protocol w) {filter : TaskFilter W}
    (awake : w.stage id = .awake filter) (uncalled : ¬ Called w id filter)
    (rouses : Rouses [yieldBucket id] woken w) :
    Protocol (World.put { w with stage := rouse woken w.stage } id (.asleep filter)) := by
  refine inv.restage ?_ ?_ ?_ ?_
  · intro other
    by_cases here : other = id
    · subst here
      simp [awake]
    · simp [Function.update_of_ne here]
  · intro other
    by_cases here : other = id
    · subst here
      simp
    · simp [Function.update_of_ne here]
  · intro other
    by_cases here : other = id
    · subst here
      simp [awake, Stage.inside]
    · simp [Function.update_of_ne here]
  · intro sleeper filter' asleep called
    by_cases self : sleeper = id
    · subst self
      rw [Function.update_self] at asleep
      cases asleep
      exact absurd called uncalled
    · rw [Function.update_of_ne self] at asleep
      have before := asleep_of_rouse asleep
      obtain ⟨other, bucket, listens⟩ := inv.heard sleeper filter' before called
      by_cases signaller : other = id
      · -- the alert task was the one that goes to sleep: its signal wakes another one
        subst signaller
        obtain ⟨next, member, same, _, waits⟩ :=
          rouses _ List.mem_cons_self sleeper filter' before bucket.symm
        have apart : next ≠ other := by
          rintro rfl
          rw [awake] at waits
          cases waits
        refine ⟨next, same.trans bucket, ?_⟩
        rw [Function.update_of_ne apart]
        exact congrArg Stage.alert (rouse_woken waits member)
      · refine ⟨other, bucket, ?_⟩
        rw [Function.update_of_ne signaller]
        exact rouse_alert listens

theorem Protocol.consumed (inv : Protocol w) {filter : TaskFilter W}
    (awake : w.stage id = .awake filter) (called : Called w id filter) :
    Protocol (World.put { w with
      sw := (yieldExit id w.sw).2
      served := w.served ++ [⟨w.sw.next, id, tellsWait filter w.world id⟩] } id .running) := by
  have task : IsTask id := inv.tasks id (by simp [awake])
  have given : w.sw.next ≠ noTask := by
    rcases called with named | ⟨any, _⟩
    · rw [named]
      exact task.1
    · rw [any]
      decide
  have idle : ∀ other, w.stage other ≠ .running :=
    fun other runs => given (inv.token other runs)
  have taken : (yieldExit id w.sw).2.next = noTask := by
    simp only [yieldExit, if_neg inv.live]
  have counter : (yieldExit id w.sw).2.counter =
      Function.update w.sw.counter (yieldBucket id) (w.sw.counter (yieldBucket id) - 1) := by
    simp only [yieldExit, if_neg inv.live]
  obtain ⟨members, nodup, same, counts⟩ := inv.counted
  have member : id ∈ members := (same id).mpr (by rw [awake]; rfl)
  refine ⟨?_, ?_, ?_, fun _ _ => taken, ⟨members.erase id, nodup.erase id, ?_, ?_⟩, ?_, ?_, ?_⟩
  · intro other
    rw [put_stage]
    by_cases here : other = id
    · exact fun _ => here ▸ task
    · rw [if_neg here]
      exact inv.tasks other
  · simp only [World.put, yieldExit, if_neg inv.live]
    split <;> simp
  · intro a b
    simp only [put_stage]
    intro first second
    split at first
    · split at second
      · simp_all
      · exact absurd second (idle b)
    · exact absurd first (idle a)
  · intro other
    rw [nodup.mem_erase_iff, same, put_stage]
    by_cases here : other = id
    · simp [here, Stage.inside]
    · simp [here]
  · intro bucket
    have removed := (List.perm_cons_erase member).countP_eq fun other => yieldBucket other = bucket
    rw [List.countP_cons] at removed
    simp only [World.put, counter, Function.update_apply, counts]
    by_cases here : bucket = yieldBucket id
    · subst here
      simp only [decide_true, if_true] at removed ⊢
      omega
    · simp only [Ne.symm here, decide_false, Bool.false_eq_true, if_false] at removed
      rw [if_neg here, removed]
      rfl
  · intro sleeper filter' asleep again
    rw [put_stage] at asleep
    split at asleep
    · cases asleep
    · have known := (inv.tasks sleeper (by rw [asleep]; simp)).1
      simp only [Called, World.put, taken] at again
      rcases again with none | ⟨any, _⟩
      · exact absurd none.symm known
      · exact absurd any (by decide)
  · have paired := inv.paired
    rw [if_neg given] at paired
    simp only [World.put, taken, if_true, List.append_nil, List.map_append, List.map_cons,
      List.map_nil]
    exact paired
  · intro s served
    rcases List.mem_append.mp served with old | new
    · exact inv.matched s old
    · obtain rfl := List.mem_singleton.mp new
      exact called

theorem Protocol.settled (inv : Protocol w) {filter : TaskFilter W}
    (awake : w.stage id = .awake filter) (rouses : Rouses (settleSignals id filter w) woken w) :
    Protocol (settle id filter woken w) := by
  unfold settle settleSignals at *
  by_cases called : Called w id filter
  · have passes := mt (yieldWaits_iff inv.live).mp (not_not.mpr called)
    simp only [if_neg passes]
    exact inv.consumed awake called
  · have waits := (yieldWaits_iff inv.live).mpr called
    rw [if_pos waits] at rouses
    simp only [if_pos waits]
    exact inv.slept awake called rouses

theorem Rouses.put {buckets : List Int} (rouses : Rouses buckets woken w) {w' : World W} {s : Stage W}
    (stage : ∀ other, w'.stage other = if other = id then s else w.stage other)
    (before : ∀ filter, w.stage id ≠ .asleep filter) (after : ∀ filter, s ≠ .asleep filter) :
    Rouses buckets woken w' := by
  intro bucket member sleeper filter asleep same
  rw [stage] at asleep
  split at asleep
  · exact absurd asleep (after filter)
  · obtain ⟨other, called, there, filter', waits⟩ := rouses bucket member sleeper filter asleep same
    refine ⟨other, called, there, filter', ?_⟩
    rw [stage, if_neg]
    · exact waits
    · rintro rfl
      exact before filter' waits

theorem IsTask.ne_any (task : IsTask id) : id ≠ anyTask := by
  rintro rfl
  exact absurd task.2 (by decide)

theorem wakeBucket_eq (task : IsTask id) : wakeBucket id = yieldBucket id := by
  have small := task.2
  have low : id.toUInt32.toNat = id.toNat := by
    rw [UInt64.toNat_toUInt32]
    exact Nat.mod_eq_of_lt (by omega)
  have signed : id.toUInt32.toInt32.toInt = (id.toNat : Int) := by
    rw [← low]
    exact BitVec.toInt_eq_toNat_of_lt (by change 2 * id.toUInt32.toNat < 2 ^ 32; omega)
  rw [wakeBucket, signed, yieldBucket]
  exact (Int.ofNat_tmod _ _).symm

theorem yieldBucket_lt (id : TaskId) : ∃ i ∈ List.range nBuckets, yieldBucket id = Int.ofNat i :=
  ⟨id.toNat % nBuckets, List.mem_range.mpr (Nat.mod_lt _ (by decide)), rfl⟩

theorem switcherWake_ok {target : TaskId} (slack : Nat) (free : w.sw.next = noTask)
    (valid : IsTask target ∨ target = anyTask) : ∃ signalled,
      switcherWake target slack w.sw = .ok (signalled, { w.sw with next := target, slack }) ∧
      (target ≠ anyTask → signalled = [yieldBucket target]) ∧
      (target = anyTask → ∀ id, 0 < w.sw.counter (yieldBucket id) → yieldBucket id ∈ signalled) := by
  have task : (target != noTask) = true := by
    rcases valid with task | rfl
    · simpa using task.1
    · decide
  have clear : (w.sw.next == noTask) = true := by simpa using free
  simp only [switcherWake, clear, task, check_true, ok_bind]
  refine ⟨_, rfl, ?_, ?_⟩
  · intro named
    rw [if_neg named, wakeBucket_eq (valid.resolve_right named)]
  · intro any id counted
    rw [if_pos any, List.mem_filter]
    obtain ⟨i, small, bucket⟩ := yieldBucket_lt id
    exact ⟨List.mem_map.mpr ⟨i, small, bucket.symm⟩, decide_eq_true counted⟩

theorem Protocol.woke (inv : Protocol w) {target : TaskId} {slack : Nat} {signalled : List Int}
    (runs : w.stage id = .running) (valid : IsTask target ∨ target = anyTask)
    (named : target ≠ anyTask → signalled = [yieldBucket target])
    (any : target = anyTask → ∀ id, 0 < w.sw.counter (yieldBucket id) → yieldBucket id ∈ signalled)
    (rouses : Rouses signalled woken w) :
    Protocol (World.put { w with
      sw := { w.sw with next := target, slack }, stage := rouse woken w.stage
      wakes := w.wakes ++ [target] } id .leaving) := by
  have given : target ≠ noTask := by
    rcases valid with task | rfl
    · exact task.1
    · decide
  have idle : ∀ other, (World.put { w with
      sw := { w.sw with next := target, slack }, stage := rouse woken w.stage
      wakes := w.wakes ++ [target] } id .leaving).stage other ≠ .running := by
    intro other
    rw [put_stage]
    split
    · simp
    · rename_i apart
      rw [ne_eq, rouse_running]
      exact fun also => apart (inv.one other id also runs)
  obtain ⟨members, nodup, same, counts⟩ := inv.counted
  refine ⟨?_, inv.live, fun a _ first => absurd first (idle a), fun a first => absurd first (idle a),
    ⟨members, nodup, ?_, counts⟩, ?_, ?_, inv.matched⟩
  · intro other
    rw [put_stage]
    split
    · rename_i here
      exact fun _ => here ▸ inv.tasks id (by rw [runs]; simp)
    · rw [ne_eq, rouse_outside]
      exact inv.tasks other
  · intro other
    rw [same, put_stage]
    split
    · rename_i here
      rw [here, runs]
      rfl
    · rw [rouse_inside]
  · intro sleeper filter asleep called
    rw [put_stage] at asleep
    split at asleep
    · cases asleep
    · have before := asleep_of_rouse asleep
      have signal : yieldBucket sleeper ∈ signalled := by
        rcases called with named' | ⟨anyone, _⟩
        · have task := inv.tasks sleeper (by rw [before]; simp)
          change target = sleeper at named'
          subst named'
          rw [named task.ne_any]
          exact List.mem_cons_self
        · exact any anyone sleeper (inv.counted.mem before)
      obtain ⟨other, member, bucket, filter', waits⟩ := rouses _ signal sleeper filter before rfl
      refine ⟨other, bucket, ?_⟩
      rw [put_stage, if_neg]
      · exact congrArg Stage.alert (rouse_woken waits member)
      · rintro rfl
        rw [runs] at waits
        cases waits
  · have paired := inv.paired
    rw [inv.token id runs, if_pos rfl, List.append_nil] at paired
    simp only [World.put, if_neg given, paired]

theorem Protocol.created (inv : Protocol w) (runs : w.stage id = .running)
    (fresh : w.stage other = .outside) (task : IsTask other) :
    Protocol ((w.put id .leaving).put other .running) := by
  have apart : other ≠ id := by
    rintro rfl
    rw [runs] at fresh
    cases fresh
  obtain ⟨members, nodup, same, counts⟩ := inv.counted
  have only : ∀ a, ((w.put id .leaving).put other .running).stage a = .running → a = other := by
    intro a
    simp only [put_stage]
    intro first
    split at first
    · assumption
    · split at first
      · cases first
      · rename_i away
        exact absurd (inv.one a id first runs) away
  refine ⟨?_, inv.live, fun a b first second => (only a first).trans (only b second).symm,
    fun _ _ => inv.token id runs, ⟨members, nodup, ?_, counts⟩, ?_, inv.paired, inv.matched⟩
  · intro a known
    by_cases child : a = other
    · exact child ▸ task
    · by_cases parent : a = id
      · exact inv.tasks a (by rw [parent, runs]; simp)
      · rw [put_stage, if_neg child, put_stage, if_neg parent] at known
        exact inv.tasks a known
  · intro a
    rw [same, put_stage, put_stage]
    by_cases child : a = other
    · rw [if_pos child, child, fresh]
      rfl
    · rw [if_neg child]
      by_cases parent : a = id
      · rw [if_pos parent, parent, runs]
        rfl
      · rw [if_neg parent]
  · intro sleeper filter asleep called
    rw [put_stage] at asleep
    split at asleep
    · cases asleep
    · rw [put_stage] at asleep
      split at asleep
      · cases asleep
      · obtain ⟨listener, bucket, listens⟩ := inv.heard sleeper filter asleep called
        refine ⟨listener, bucket, ?_⟩
        rw [put_stage, if_neg, put_stage, if_neg]
        · exact listens
        · rintro rfl
          rw [runs] at listens
          cases listens
        · rintro rfl
          rw [fresh] at listens
          cases listens

theorem Protocol.acted (inv : Protocol w) (runs : w.stage id = .running) (world : W) :
    Protocol { w with world } := by
  have free := inv.token id runs
  refine ⟨inv.tasks, inv.live, inv.one, inv.token, inv.counted, ?_, inv.paired, inv.matched⟩
  intro sleeper filter asleep called
  have task := inv.tasks sleeper (by rw [show w.stage sleeper = _ from asleep]; simp)
  rcases called with named | ⟨any, _⟩
  · exact absurd (named.symm.trans free) task.1
  · exact absurd (any.symm.trans free) (by decide)

theorem Protocol.unslacked (inv : Protocol w) {filter : TaskFilter W}
    (slacks : w.stage id = .slacking filter) : Protocol (unslacked id filter w) := by
  have same : Protocol (w.put id (.awake filter)) := by
    refine inv.moved ?_ ?_ ?_ ?_ ?_ <;> simp [slacks, Stage.inside, Stage.alert]
  exact ⟨same.tasks, same.live, same.one, same.token, same.counted, same.heard, same.paired,
    same.matched⟩

end Stages

theorem move_kept {w : World W} (inv : Protocol w) {m : Move W} (allowed : Allowed w m) :
    ∃ w', move m w = .ok w' ∧ Protocol w' := by
  cases m with
  | act id world => exact ⟨_, rfl, inv.acted allowed world⟩
  | create id child =>
      obtain ⟨runs, fresh, task⟩ := allowed
      exact ⟨_, rfl, inv.created runs fresh task⟩
  | wake id target slack woken =>
      obtain ⟨runs, valid, rouses⟩ := allowed
      obtain ⟨signalled, woke, named, any⟩ := switcherWake_ok slack (inv.token id runs) valid
      simp only [signals, woke] at rouses
      simp only [move, woke, ok_bind]
      exact ⟨_, rfl, inv.woke runs valid named any rouses⟩
  | finish id =>
      have leaves : w.stage id = .leaving := allowed
      refine ⟨_, rfl, inv.moved ?_ ?_ ?_ ?_ ?_⟩ <;> simp [leaves, Stage.inside, Stage.alert]
  | enter id filter woken =>
      obtain ⟨before, task, rouses⟩ := allowed
      have still : ∀ filter, w.stage id ≠ .asleep filter := by
        rcases before with out | leaving
        · simp [out]
        · simp [leaving]
      refine ⟨_, rfl, (inv.entered before task).settled ?_ ?_⟩
      · exact (put_stage _ _ _ _).trans (if_pos rfl)
      · exact rouses.put (put_stage _ _ _) still (by simp)
  | recheck id woken =>
      obtain ⟨⟨filter, awake⟩, rouses⟩ := allowed
      simp only [signals, awake] at rouses
      simp only [move, awake]
      by_cases slack : w.sw.slack ≠ 0
      · rw [if_pos slack]
        refine ⟨_, rfl, inv.moved ?_ ?_ ?_ ?_ ?_⟩ <;> simp [awake, Stage.inside, Stage.alert]
      · rw [if_neg slack] at rouses ⊢
        exact ⟨_, rfl, inv.settled awake rouses⟩
  | slackOver id woken =>
      obtain ⟨⟨filter, slacks⟩, rouses⟩ := allowed
      simp only [signals, slacks] at rouses
      simp only [move, slacks]
      refine ⟨_, rfl, (inv.unslacked slacks).settled ?_ ?_⟩
      · exact (put_stage _ _ _ _).trans (if_pos rfl)
      · exact rouses.put (put_stage _ _ _) (by simp [slacks]) (by simp)
  | spurious id =>
      obtain ⟨filter, asleep⟩ := allowed
      simp only [move, asleep]
      refine ⟨_, rfl, inv.moved ?_ ?_ ?_ ?_ ?_⟩ <;> simp [asleep, Stage.inside, Stage.alert]

theorem protocol_kept {first : TaskId} (task : IsTask first) (world : W) :
    Kept (system first world) Protocol where
  start := protocol_start task world
  step := fun _ _ inv allowed => move_kept inv allowed

section Signals

variable {w w' : World W} {id t : TaskId} {filter : TaskFilter W} {woken : List TaskId}

theorem settle_asleep (up : ∀ filter, w.stage t ≠ .asleep filter)
    {filter' : TaskFilter W}
    (asleep : (settle id filter woken w).stage t = .asleep filter') :
    t = id ∧ yieldBucket t ∈ settleSignals id filter w := by
  unfold settle settleSignals at *
  by_cases waits : yieldWaits id (tellsWait filter w.world id) w.sw = true
  · simp only [if_pos waits, put_stage] at asleep ⊢
    split at asleep
    · rename_i here
      exact ⟨here, by rw [here]; exact List.mem_cons_self⟩
    · exact absurd (asleep_of_rouse asleep) (up filter')
  · simp only [if_neg waits, put_stage] at asleep
    split at asleep
    · cases asleep
    · exact absurd asleep (up filter')

theorem sleep_signals {m : Move W} (stepped : move m w = .ok w')
    (up : ∀ filter, w.stage t ≠ .asleep filter) (asleep : w'.stage t = .asleep filter) :
    yieldBucket t ∈ signals m w := by
  have put : ∀ {id s}, (∀ filter, s ≠ Stage.asleep filter) → (w.put id s).stage t ≠ .asleep filter := by
    intro id s other
    rw [put_stage]
    split
    · exact other filter
    · exact up filter
  cases m with
  | act id world =>
      cases stepped
      exact absurd asleep (up filter)
  | create id child =>
      cases stepped
      rw [put_stage] at asleep
      split at asleep
      · cases asleep
      · exact absurd asleep (put (by simp))
  | wake id target slack woken =>
      obtain ⟨⟨signalled, sw⟩, _, done⟩ := bind_eq_ok.mp stepped
      cases done
      rw [put_stage] at asleep
      split at asleep
      · cases asleep
      · exact absurd (asleep_of_rouse asleep) (up filter)
  | finish id =>
      cases stepped
      exact absurd asleep (put (by simp))
  | enter id filter' woken =>
      cases stepped
      have still : ∀ filter, (entered id filter' w).stage t ≠ .asleep filter := by
        intro other
        rw [entered, put_stage]
        split
        · simp
        · exact up other
      exact (settle_asleep still asleep).2
  | recheck id woken =>
      simp only [move] at stepped
      split at stepped
      · rename_i filter' awake
        simp only [signals, awake]
        split at stepped
        · cases stepped
          exact absurd asleep (put (by simp))
        · rename_i slack
          cases stepped
          rw [if_neg slack]
          exact (settle_asleep up asleep).2
      · cases stepped
        exact absurd asleep (up filter)
  | slackOver id woken =>
      simp only [move] at stepped
      split at stepped
      · rename_i filter' slacks
        simp only [signals, slacks]
        cases stepped
        have still : ∀ filter, (unslacked id filter' w).stage t ≠ .asleep filter := by
          intro other
          rw [unslacked, put_stage]
          split
          · simp
          · exact up other
        exact (settle_asleep still asleep).2
      · cases stepped
        exact absurd asleep (up filter)
  | spurious id =>
      simp only [move] at stepped
      split at stepped
      · cases stepped
        exact absurd asleep (put (by simp))
      · cases stepped
        exact absurd asleep (up filter)

end Signals

/-- The token protocol in every reachable state: no critical section fails an assertion, at most one
task runs, the wakes are consumed one by one and each by a task that it calls, a called task that
sleeps has an alert task in its bucket, and no task goes to sleep without a signal to its bucket. -/
theorem switcher_token (first : TaskId) (task : IsTask first) (world : W) (w : World W)
    (reached : Reachable (system first world) w) :
    (∀ m, Allowed w m → ∃ w', move m w = .ok w') ∧
    (∀ id other, w.stage id = .running → w.stage other = .running → id = other) ∧
    (w.wakes = w.served.map Served.target ++ if w.sw.next = noTask then [] else [w.sw.next]) ∧
    (∀ s ∈ w.served, s.target = s.task ∨ s.target = anyTask ∧ s.wait = false) ∧
    (∀ id filter, w.stage id = .asleep filter → Called w id filter →
      ∃ other, yieldBucket other = yieldBucket id ∧ (w.stage other).alert = true) ∧
    (∀ m w' id filter, move m w = .ok w' → (∀ filter, w.stage id ≠ .asleep filter) →
      w'.stage id = .asleep filter → yieldBucket id ∈ signals m w) := by
  have inv := (protocol_kept task world).reachable reached
  refine ⟨fun m allowed => (protocol_kept task world).steps reached allowed, inv.one, inv.paired,
    inv.matched, inv.heard, ?_⟩
  intro m w' id filter stepped up asleep
  exact sleep_signals stepped up asleep

theorem switcher_token_late : ∃ w, Reachable (system 1 ()) w ∧ w.wakes = [2] ∧
    w.stage 2 = .running ∧ ∀ id, w.stage id = .running → id = 2 := by
  have task : IsTask 1 := ⟨by decide, by decide⟩
  have started : ∀ id, (system 1 ()).start.stage id = if id = 1 then .running else .outside := by
    intro id
    simp only [system, Function.update_apply]
  have up : ∀ id filter, (system 1 ()).start.stage id ≠ .asleep filter := by
    intro id filter
    rw [started]
    split <;> simp
  have wakes : (system 1 ()).allowed (system 1 ()).start (.wake 1 2 0 []) := by
    refine ⟨started 1, Or.inl ⟨by decide, by decide⟩, ?_⟩
    intro bucket _ id filter asleep
    exact absurd asleep (up id filter)
  obtain ⟨w₁, reached, woken, next, fresh, none⟩ : ∃ w₁, Reachable (system 1 ()) w₁ ∧
      w₁.wakes = [2] ∧ w₁.sw.next = 2 ∧ w₁.stage 2 = .outside ∧
      ∀ id filter, w₁.stage id ≠ .asleep filter := by
    refine ⟨_, Reachable.step Reachable.start wakes rfl, rfl, rfl, ?_, ?_⟩
    · simp only [put_stage, rouse, started]
      rfl
    · intro id filter
      simp only [put_stage]
      split
      · simp
      · exact fun asleep => up id filter (asleep_of_rouse asleep)
  have enters : (system 1 ()).allowed w₁ (.enter 2 Option.none []) := by
    refine ⟨Or.inl fresh, ⟨by decide, by decide⟩, ?_⟩
    intro bucket _ id filter asleep
    exact absurd asleep (none id filter)
  have late := Reachable.step reached enters rfl
  have passes : yieldWaits 2 (tellsWait Option.none (entered 2 Option.none w₁).world 2)
      (entered 2 Option.none w₁).sw = false := by
    simp [yieldWaits, entered, World.put, yieldEnter, next]
  have runs : (settle 2 Option.none [] (entered 2 Option.none w₁)).stage 2 = .running := by
    rw [settle, passes]
    exact (put_stage _ _ _ _).trans (if_pos rfl)
  have logged : (settle 2 Option.none [] (entered 2 Option.none w₁)).wakes = [2] := by
    rw [settle, passes]
    exact woken
  refine ⟨_, late, logged, runs, ?_⟩
  intro id also
  exact (switcher_token 1 task () _ late).2.1 id 2 also runs

end Lotto.SwitcherProtocol
