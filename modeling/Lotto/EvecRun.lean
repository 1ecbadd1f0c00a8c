import Lotto.Library.GuardedRun
import Lotto.EvecSpecs

namespace Lotto.EvecRun

open Library.FaultRun Library.GuardedRun Library.KeyMap EvecSpecs

inductive Release where
  | wake | deadline
  deriving DecidableEq, Repr

/-- A task between the capture and the resumption of its event, with whether it has prepared the
event it waits for. -/
structure Stopped where
  event : EvecEvent
  prepared : Bool
  deriving DecidableEq

/-- The handler with the tasks that are stopped at an event and, for the properties of its runs, the
events that a task has prepared and not yet waited for, the events it has been woken for since it
prepared them, and what has ended its last wait. -/
structure World where
  st : EvecState
  stopped : Map Stopped
  prepared : List (TaskId × UInt64)
  woken : List (TaskId × UInt64)
  released : List (TaskId × Release)
  deriving DecidableEq

inductive Move where
  | capture (cp : EvecCapture) (clock : Timespec) (e : Decision)
  | trigger (id : TaskId) (clock : Timespec)
  | resume (id : TaskId) (randoms : List Nat)

def waitsOn : EvecEvent → Option UInt64
  | .wait addr => some addr
  | .timedWait addr _ _ => some addr
  | _ => none

def statusPtr : EvecEvent → Option UInt64
  | .timedWait _ _ ret => some ret
  | _ => none

def releases (release : Release) (before after : Tidset) : List (TaskId × Release) :=
  (before.tasks.filter fun id => !after.has id).map fun id => (id, release)

def listed (cp : EvecCapture) (events : List (TaskId × UInt64)) : Bool :=
  (waitsOn cp.event).any fun addr => events.contains (cp.id, addr)

def afterCapture (cp : EvecCapture) (w : World) (st : EvecState) : World where
  st := st
  stopped := w.stopped.insert cp.id { event := cp.event, prepared := listed cp w.prepared }
  prepared := w.prepared.filter fun p => !(p.1 == cp.id && waitsOn cp.event == some p.2)
  woken := w.woken
  released :=
    (if listed cp w.woken then [(cp.id, .wake)] else []) ++
      (releases .deadline w.st.waiters st.waiters ++ w.released).filter fun p => p.1 != cp.id

def afterTrigger (w : World) (st : EvecState) : World :=
  { w with st, released := releases .deadline w.st.waiters st.waiters ++ w.released }

def afterResume (id : TaskId) (event : EvecEvent) (w : World) (st : EvecState) : World where
  st := st
  stopped := w.stopped.erase id
  prepared := match event with
    | .prepare addr => (id, addr) :: w.prepared
    | .cancel addr => w.prepared.filter fun p => p != (id, addr)
    | _ => w.prepared
  woken := match event with
    | .prepare addr => w.woken.filter fun p => p != (id, addr)
    | .wake addr _ =>
        ((waitersOf w.st.evecs addr).tasks.filter fun x => !(waitersOf st.evecs addr).has x).map
          (fun x => (x, addr)) ++ w.woken
    | _ => w.woken
  released := releases .wake w.st.waiters st.waiters ++ w.released

def step (m : Move) (w : World) : Except Fault World :=
  match m with
  | .capture cp clock e =>
      (evecHandle cp clock e (publishTimedWait cp.event w.st)).map fun result =>
        afterCapture cp w result.2
  | .trigger id clock => (evecTrigger id clock w.st).map (afterTrigger w)
  | .resume id randoms =>
      match w.stopped.lookup id with
      | none => .ok w
      | some s => (evecResume ⟨id, s.event⟩ randoms w.st).map (afterResume id s.event w)

/-- The engine stops a task at one event at a time and neither captures nor resumes a task that
waits. The status of a timed wait is on the stack of its task. -/
def Allowed (w : World) : Move → Prop
  | .capture cp _ _ => cp.id ∉ w.st.waiters ∧ w.stopped.lookup cp.id = none ∧
      ∀ item ∈ w.stopped.entries,
        statusPtr cp.event = none ∨ statusPtr item.2.event ≠ statusPtr cp.event
  | .trigger _ _ => True
  | .resume id _ => (w.stopped.lookup id).isSome = true ∧ id ∉ w.st.waiters

def start : World :=
  { st := evecStart, stopped := ∅, prepared := [], woken := [], released := [] }

/-- Every order of captures, timeouts and resumptions, each of which meets a condition on the state
before it. -/
def system (condition : World → Move → Prop) : Guarded World Move Fault where
  start := start
  step := step
  allowed := fun w m => Allowed w m ∧ condition w m

instance (w : World) : ∀ m, Decidable (Allowed w m)
  | .capture _ _ _ => inferInstanceAs (Decidable (_ ∧ _ ∧ _))
  | .trigger _ _ => isTrue trivial
  | .resume _ _ => inferInstanceAs (Decidable (_ ∧ _))

instance (condition : World → Move → Prop) [∀ w m, Decidable (condition w m)] (w : World)
    (m : Move) : Decidable ((system condition).allowed w m) :=
  inferInstanceAs (Decidable (_ ∧ _))

def stops (id : TaskId) (event : EvecEvent) (second : Int) : Move :=
  .capture { id, event } { tvSec := second, tvNsec := 0 }
    { prepareDecision 1 .empty { status := .done, id := noTask } with
      tset := (Tidset.empty.insert 1).insert 2 }

section Inversion

variable {w w' : World}

theorem capture_ok {cp : EvecCapture} {clock : Timespec} {e : Decision}
    (stepped : step (.capture cp clock e) w = .ok w') : ∃ checked st,
      checkTimeouts true { publishTimedWait cp.event w.st with
        now := clock, receivedTimeout := false } = .ok checked ∧
      evecSwitch cp checked = .ok st ∧ w' = afterCapture cp w st := by
  obtain ⟨⟨e', st⟩, ran, rfl⟩ := map_eq_ok.mp stepped
  obtain ⟨_, _, ran⟩ := bind_eq_ok.mp ran
  obtain ⟨checked, scanned, ran⟩ := bind_eq_ok.mp ran
  obtain ⟨switched, ran', rest⟩ := bind_eq_ok.mp ran
  refine ⟨checked, switched, scanned, ran', ?_⟩
  by_cases blocks : cp.event.mayBlock = true
  · simp only [if_pos blocks] at rest
    obtain ⟨_, _, rest⟩ := bind_eq_ok.mp rest
    cases rest
    rfl
  · simp only [if_neg blocks] at rest
    cases rest
    rfl

theorem trigger_ok {id : TaskId} {clock : Timespec}
    (stepped : step (.trigger id clock) w = .ok w') :
    ∃ st, evecTrigger id clock w.st = .ok st ∧ w' = afterTrigger w st := by
  obtain ⟨st, ran, same⟩ := map_eq_ok.mp stepped
  exact ⟨st, ran, same.symm⟩

theorem resume_ok {id : TaskId} {randoms : List Nat} {s : Stopped}
    (stopped : w.stopped.lookup id = some s) (stepped : step (.resume id randoms) w = .ok w') :
    ∃ st, id ≠ noTask ∧ evecResume ⟨id, s.event⟩ randoms w.st = .ok st ∧
      w' = afterResume id s.event w st := by
  rw [step, stopped] at stepped
  obtain ⟨st, ran, same⟩ := map_eq_ok.mp stepped
  refine ⟨st, ?_, ran, same.symm⟩
  obtain ⟨_, named, _⟩ := bind_eq_ok.mp ran
  rw [check_ok_iff] at named
  simpa using named

end Inversion

end Lotto.EvecRun
