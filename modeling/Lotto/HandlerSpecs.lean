import Lotto.Handlers
import Lotto.RecorderReplay

namespace Lotto.HandlerSpecs

open Library.FaultRun
open RecorderReplay

variable {N P : Type}

structure Created (cp : CapturePoint) (e : Decision) (st : TaskState) (e' : Decision)
    (st' : TaskState) : Prop where
  replay : e'.replay = e.replay
  unblocked : e'.unblocked = e.unblocked
  skip : e'.skip = e.skip
  chpt : e'.isChpt = true ↔
    cp.typeId = eventTaskCreate ∨ cp.typeId = eventTaskInit ∨ cp.typeId = eventTaskFini
  create : cp.typeId = eventTaskCreate → e'.next = anyTask ∧ e'.readonly = true
  init : cp.typeId = eventTaskInit → e'.next = st.lastParent
  kept : cp.typeId ≠ eventTaskCreate → cp.typeId ≠ eventTaskInit → e'.next = e.next
  tset : e'.tset = st'.registered
  registered : ∀ id ∈ st'.registered, id ∈ st.registered ∨ id = cp.id
  fini : cp.typeId = eventTaskFini → cp.id ∉ st'.registered
  parent : st'.lastParent = st.lastParent ∨ st'.lastParent = cp.id

theorem creationSwitch_spec {cp : CapturePoint} {e : Decision} {st : TaskState}
    (plain : e.isChpt = false)
    (init : cp.typeId = eventTaskInit → cp.id ∉ st.registered)
    (fini : cp.typeId = eventTaskFini → cp.id ∈ st.registered) :
    ∃ e' st', creationSwitch cp e st = .ok (e', st') ∧
      Created cp e st { e' with tset := st'.registered } st' := by
  unfold creationSwitch
  split_ifs with isCreate isInit isFini
  · refine ⟨_, _, rfl, ?_⟩
    constructor <;> simp_all [eventTaskCreate, eventTaskInit, eventTaskFini]
  · have absent : (!st.registered.has cp.id) = true := by simpa using init isInit
    refine ⟨_, _, by rw [absent]; rfl, ?_⟩
    constructor <;> simp_all [eventTaskCreate, eventTaskInit, eventTaskFini]
  · have present : st.registered.has cp.id = true := by simpa using fini isFini
    refine ⟨_, _, by rw [present]; rfl, ?_⟩
    constructor <;> simp_all [eventTaskCreate, eventTaskInit, eventTaskFini]
  · refine ⟨_, _, rfl, ?_⟩
    constructor <;> simp_all

theorem handleCreation_spec {cp : CapturePoint} {e : Decision} (st : TaskState)
    (task : cp.id ≠ noTask) (plain : e.isChpt = false) (empty : e.tset = .empty)
    (init : cp.typeId = eventTaskInit → cp.id ∉ st.registered)
    (fini : cp.typeId = eventTaskFini → cp.id ∈ st.registered) :
    ∃ e' st', handleCreation cp e st = .ok (e', st') ∧ Created cp e st e' st' := by
  obtain ⟨e', st', switched, created⟩ := creationSwitch_spec plain init fini
  have someTask : (cp.id != noTask) = true := by simpa using task
  refine ⟨_, st', ?_, created⟩
  simp [handleCreation, someTask, plain, empty, switched]

/-- The tasks that are not selectable now, as `any_blocked` reads them. -/
def heldBack (st : Blocking) : Tidset := blockedTasks st.replaying st

/-- What `_blocking_handle` does. In either mode, and where the replay ends, the tasks it holds
back are the ones held back before, without the returned ones and the current task unless that
blocks. -/
structure Blocked (cp : CapturePoint) (e : Decision) (st : Blocking) (returned : Tidset)
    (e' : Decision) (st' : Blocking) (returned' : Tidset) : Prop where
  replay : e'.replay = e.replay
  next : e'.next = e.next
  readonly : e'.readonly = e.readonly
  chpt : e'.isChpt = (e.isChpt || blocks cp)
  shouldRecord : returnedOthers cp returned' = true → e'.shouldRecord = true
  tset : ∀ id ∈ e'.tset, id ∈ e.tset ∧ id ∉ blockedTasks e.replay st'
  replaying : st'.replaying = e.replay
  actual : ∀ id ∈ st'.blockedActual,
    id ∈ st.blockedActual ∧ id ∉ e.unblocked ∨ blocks cp = true ∧ id = cp.id
  held : ∀ id, id ∈ blockedTasks e.replay st' ↔
    id ≠ cp.id ∧ id ∈ heldBack st ∧ id ∉ returned' ∨ blocks cp = true ∧ id = cp.id
  consumed : e.replay = true → st'.consumed = true
  loaded : e.replay = true → returned' = if st.consumed then .empty else returned

theorem updateReturned_spec {cp : CapturePoint} {e : Decision} {st : Blocking} {returned : Tidset}
    (free : cp.id ∈ st.blockedActual → cp.id ∈ e.unblocked)
    (first : e.replay = true → st.replaying = false →
      ∀ id, id ∉ st.blockedActual ∧ id ∉ st.blockedReplay)
    {st' : Blocking} {returned' : Tidset}
    (updated : updateReturned cp e { st with blockedActual := st.blockedActual.subtract e.unblocked }
      returned = (st', returned')) :
    st'.replaying = e.replay ∧
      (∀ id ∈ st'.blockedActual, id ∈ st.blockedActual ∧ id ∉ e.unblocked) ∧
      (∀ id, id ∈ blockedTasks e.replay st' ↔
        id ≠ cp.id ∧ id ∈ heldBack st ∧ id ∉ returned') ∧
      (e.replay = true → st'.consumed = true ∧
        returned' = if st.consumed then .empty else returned) := by
  have away : ∀ id, id ∈ st.blockedActual ∧ id ∉ e.unblocked → id ≠ cp.id := by
    rintro id ⟨member, absent⟩ rfl
    exact absent (free member)
  unfold updateReturned at updated
  cases replay : e.replay with
  | true =>
      have held : ∀ id, id ∈ heldBack st ↔ id ∈ st.blockedReplay := by
        intro id
        cases replaying : st.replaying with
        | true => simp [heldBack, replaying, blockedTasks]
        | false =>
            have nothing := first replay replaying id
            simp [heldBack, replaying, blockedTasks, nothing.1, nothing.2]
      rw [if_pos replay] at updated
      cases consumed : st.consumed with
      | true =>
          rw [if_pos (by simpa using consumed)] at updated
          obtain ⟨rfl, rfl⟩ := Prod.mk.inj updated
          simp [blockedTasks, held, consumed]
      | false =>
          rw [if_neg (by simp [consumed])] at updated
          obtain ⟨rfl, rfl⟩ := Prod.mk.inj updated
          simp [blockedTasks, held]
  | false =>
      rw [if_neg (by simp [replay])] at updated
      cases replaying : st.replaying with
      | true =>
          rw [if_pos (by simpa using replaying)] at updated
          obtain ⟨rfl, rfl⟩ := Prod.mk.inj updated
          refine ⟨rfl, by simp +contextual, ?_, by simp⟩
          intro id
          have other := away id
          simp only [blockedTasks, heldBack, replaying, Bool.false_eq_true, if_false, if_true,
            Tidset.mem_intersect, Tidset.mem_subtract]
          grind
      | false =>
          rw [if_neg (by simp [replaying])] at updated
          obtain ⟨rfl, rfl⟩ := Prod.mk.inj updated
          refine ⟨replaying, by simp, ?_, by simp⟩
          intro id
          have other := away id
          simp only [blockedTasks, heldBack, replaying, Bool.false_eq_true, if_false,
            Tidset.mem_subtract]
          tauto

theorem blockCurrent_spec {cp : CapturePoint} {e : Decision} {st : Blocking}
    (plain : blocks cp = true → e.isChpt = false) (absent : cp.id ∉ st.blockedActual) :
    ∃ chpt reason actual replayed, blockCurrent cp e st =
        .ok ({ e with isChpt := chpt, reason },
          { st with blockedActual := actual, blockedReplay := replayed }) ∧
      chpt = (e.isChpt || blocks cp) ∧
      (∀ id, id ∈ actual ↔ id ∈ st.blockedActual ∨ blocks cp = true ∧ id = cp.id) ∧
      (e.replay = true →
        ∀ id, id ∈ replayed ↔ id ∈ st.blockedReplay ∨ blocks cp = true ∧ id = cp.id) := by
  cases blocking : blocks cp with
  | true =>
      have passes : (!st.blockedActual.has cp.id) = true := by simpa using absent
      refine ⟨true, .blocking, st.blockedActual.insert cp.id,
        if e.replay then st.blockedReplay.insert cp.id else st.blockedReplay, ?_, ?_, ?_, ?_⟩
      · simp [blockCurrent, blocking, plain blocking, passes]
      · simp
      · simp
      · intro replay
        simp [replay]
  | false =>
      refine ⟨e.isChpt, e.reason, st.blockedActual, st.blockedReplay, ?_, ?_, ?_, ?_⟩
      · simp [blockCurrent, blocking]
      · simp
      · simp
      · simp

theorem blockingHandle_spec {cp : CapturePoint} {e : Decision} {st : Blocking} (returned : Tidset)
    (task : cp.id ≠ noTask) (plain : blocks cp = true → e.isChpt = false) (skip : e.skip = false)
    (free : cp.id ∈ st.blockedActual → cp.id ∈ e.unblocked)
    (first : e.replay = true → st.replaying = false →
      ∀ id, id ∉ st.blockedActual ∧ id ∉ st.blockedReplay) :
    ∃ e' st' returned', blockingHandle cp e st returned = .ok (e', st', returned') ∧
      Blocked cp e st returned e' st' returned' := by
  obtain ⟨st₁, returned', updated⟩ : ∃ st₁ returned', updateReturned cp e
      { st with blockedActual := st.blockedActual.subtract e.unblocked } returned =
        (st₁, returned') := ⟨_, _, rfl⟩
  obtain ⟨replaying, actual, held, loads⟩ := updateReturned_spec free first updated
  have someTask : (cp.id != noTask) = true := by simpa using task
  have absent : cp.id ∉ st₁.blockedActual := fun member =>
    (actual _ member).2 (free (actual _ member).1)
  let e₁ := { e with shouldRecord := e.shouldRecord || returnedOthers cp returned' }
  obtain ⟨chpt, reason, actual', replayed, blocked, chptEq, inActual, inReplayed⟩ :=
    blockCurrent_spec (e := e₁) plain absent
  let st₂ := { st₁ with blockedActual := actual', blockedReplay := replayed, prev := cp.id }
  let e₂ := { e₁ with isChpt := chpt, reason }
  have run : blockingHandle cp e st returned =
      .ok ({ e₂ with tset := e.tset.subtract (blockedTasks e.replay st₂) }, st₂, returned') := by
    simp only [blockingHandle, someTask, check_true, ok_bind, updated]
    rw [blocked]
    simp [e₁, e₂, st₂, skip]
  refine ⟨_, st₂, returned', run, ?_⟩
  constructor
  · rfl
  · rfl
  · rfl
  · exact chptEq
  · intro others
    simp [e₂, e₁, others]
  · intro id member
    simpa using member
  · exact replaying
  · intro id member
    rcases (inActual id).mp member with old | current
    · exact Or.inl (actual id old)
    · exact Or.inr current
  · intro id
    rw [← held id]
    cases replay : e.replay with
    | true => exact inReplayed replay id
    | false => exact inActual id
  · exact fun replay => (loads replay).1
  · exact fun replay => (loads replay).2

/-- The module state after the records of one clock are unmarshalled: a SCHED record brings its
returned tasks, the other kinds leave the registry and the blocking handler alone. -/
theorem unmarshal_modules (mods : Modules N P) (records : List (Record (Tidset × P)))
    (m : ModuleState N) :
    let m' := records.foldl (unmarshalInto (withBlocking mods)) m
    m'.task = m.task ∧
      ((∀ r ∈ records, r.kind ≠ .recordSched) ∧ m'.blocking = m.blocking ∧
          m'.returned = m.returned ∨
        ∃ r ∈ records, r.kind = .recordSched ∧
          m'.blocking = { m.blocking with consumed := false } ∧ m'.returned = r.data.1) := by
  induction records generalizing m with
  | nil => exact ⟨rfl, Or.inl ⟨by simp, rfl, rfl⟩⟩
  | cons r records ih =>
      have step : ∃ m₁, unmarshalInto (withBlocking mods) m r = m₁ ∧ m₁.task = m.task ∧
          (r.kind ≠ .recordSched ∧ m₁.blocking = m.blocking ∧ m₁.returned = m.returned ∨
            r.kind = .recordSched ∧ m₁.blocking = { m.blocking with consumed := false } ∧
              m₁.returned = r.data.1) := by
        refine ⟨_, rfl, ?_⟩
        cases kind : r.kind <;> simp [unmarshalInto, kind, withBlocking]
      obtain ⟨m₁, stepped, task₁, effect⟩ := step
      obtain ⟨task, rest⟩ := ih m₁
      rw [List.foldl_cons, stepped]
      refine ⟨task.trans task₁, ?_⟩
      rcases rest with ⟨silent, blocking, returned⟩ | ⟨later, member, kind, blocking, returned⟩
      · rcases effect with ⟨other, blocking₁, returned₁⟩ | ⟨sched, blocking₁, returned₁⟩
        · left
          refine ⟨?_, blocking.trans blocking₁, returned.trans returned₁⟩
          intro r' member
          rcases List.mem_cons.mp member with rfl | inside
          · exact other
          · exact silent r' inside
        · exact Or.inr ⟨r, List.mem_cons_self, sched, blocking.trans blocking₁,
            returned.trans returned₁⟩
      · right
        refine ⟨later, List.mem_cons_of_mem _ member, kind, ?_, returned⟩
        rcases effect with ⟨_, blocking₁, _⟩ | ⟨_, blocking₁, _⟩ <;> rw [blocking, blocking₁]

end Lotto.HandlerSpecs
