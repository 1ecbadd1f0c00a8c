import Lotto.EvecMove
import Lotto.EventCounts
import Lotto.Filtering

namespace Lotto.DroppedResume

open Library.FaultRun Library.KeyMap EvecSpecs EvecMove Rinflex

section Evec

variable {st st' : EvecState} {id : TaskId} {src dst : UInt64}

/-- The moves that pass: of nothing, of an evec without deadlines to itself, or to another evec, if the
task is in neither of them and no task has a deadline in both. -/
def MoveReady (id : TaskId) (src dst : UInt64) (st : EvecState) : Prop :=
  (waitersOf st.evecs src).size = 0 ∨ (src = dst ∧ ∀ x, deadlineOf st.evecs src x = none) ∨
    (src ≠ dst ∧ id ∉ waitersOf st.evecs src ∧ id ∉ waitersOf st.evecs dst ∧
      ∀ x d, deadlineOf st.evecs src x = some d → x ≠ noTask ∧ deadlineOf st.evecs dst x = none)

/-- An event that the resume half of the evec handler lets pass: the task is not blocked in an evec,
and a wake finds only tasks with a name. -/
def EvecReady (cp : EvecCapture) (st : EvecState) : Prop :=
  match cp.event with
  | .prepare _ => cp.id ∉ st.waiters
  | .cancel addr => st.evecs.lookup addr ≠ none → cp.id ∉ st.waiters
  | .wake addr cnt => cnt = 0 ∨ noTask ∉ waitersOf st.evecs addr
  | .move src dst => cp.id ∉ st.waiters ∧ MoveReady cp.id src dst st
  | .wait _ | .timedWait _ _ _ | .other => True

theorem posthandlePrepare_ok_iff (eid : UInt64) :
    (∃ st', posthandlePrepare id eid st = .ok st') ↔ id ∉ st.waiters := by
  constructor
  · rintro ⟨st', ran⟩
    obtain ⟨_, awake, -⟩ := bind_eq_ok.mp ran
    rw [check_ok_iff] at awake
    simpa using awake
  · intro awake
    have idle : (!st.waiters.has id) = true := by simpa using awake
    rw [posthandlePrepare, idle, check_true, ok_bind]
    exact ⟨_, rfl⟩

theorem posthandleCancel_ok_iff (eid : UInt64) :
    (∃ st', posthandleCancel id eid st = .ok st') ↔ (st.evecs.lookup eid ≠ none → id ∉ st.waiters) := by
  unfold posthandleCancel
  cases found : st.evecs.lookup eid with
  | none => simp
  | some evec =>
      constructor
      · rintro ⟨st', ran⟩ -
        obtain ⟨_, awake, -⟩ := bind_eq_ok.mp ran
        rw [check_ok_iff] at awake
        simpa using awake
      · intro awake
        have idle : (!st.waiters.has id) = true := by simpa using awake (Option.some_ne_none evec)
        simp only [idle, check_true, ok_bind]
        exact ⟨_, rfl⟩

theorem posthandleWake_runs {eid : UInt64} (cnt : Nat) (randoms : List Nat)
    (named : noTask ∉ waitersOf st.evecs eid) : ∃ st', posthandleWake eid cnt randoms st = .ok st' := by
  induction cnt generalizing randoms st with
  | zero => exact ⟨st, rfl⟩
  | succ cnt ih =>
      rw [posthandleWake]
      cases found : st.evecs.lookup eid with
      | none => exact ⟨st, rfl⟩
      | some evec =>
          by_cases none : evec.waiters.size = 0
          · exact ⟨st, by simp only [if_pos none]⟩
          · have chosen := wakeChoice_mem (randoms.headD 0) none
            rw [waitersOf_found found] at named
            obtain ⟨st₁, woke⟩ := wakeTask_runs eid evec st fun same => named (same ▸ chosen)
            have own := (wakeTask_spec found woke).own
            simp only [if_neg none, woke, ok_bind]
            apply ih
            rw [own, waitersOf_found found, Tidset.mem_remove]
            exact fun left => named left.2

theorem posthandleWake_ok_iff (eid : UInt64) (cnt : Nat) :
    (∀ randoms, ∃ st', posthandleWake eid cnt randoms st = .ok st') ↔
      cnt = 0 ∨ noTask ∉ waitersOf st.evecs eid := by
  constructor
  · intro runs
    cases cnt with
    | zero => exact .inl rfl
    | succ cnt =>
        right
        intro nameless
        cases found : st.evecs.lookup eid with
        | none =>
            rw [waitersOf_missing found] at nameless
            exact Tidset.not_mem_empty _ nameless
        | some evec =>
            rw [waitersOf_found found] at nameless
            obtain ⟨i, inside, here⟩ := List.mem_iff_getElem.mp nameless
            have some : evec.waiters.size ≠ 0 := by
              have bound : i < evec.waiters.size := inside
              omega
            obtain ⟨st', ran⟩ := runs [i]
            rw [posthandleWake] at ran
            simp only [found, if_neg some, List.headD_cons] at ran
            obtain ⟨st₁, woke, -⟩ := bind_eq_ok.mp ran
            obtain ⟨_, named, -⟩ := bind_eq_ok.mp woke
            have chosen : wakeChoice i evec.waiters = noTask := by
              rw [wakeChoice, Nat.mod_eq_of_lt (show i < evec.waiters.size from inside), Tidset.get,
                List.getD_eq_getElem?_getD, List.getElem?_eq_getElem inside, here]
              rfl
            rw [chosen] at named
            cases named
  · rintro (rfl | named) randoms
    · exact ⟨st, rfl⟩
    · exact posthandleWake_runs cnt randoms named

theorem moveDeadlines_named {its : List (Sigma fun _ : UInt64 => EvecDeadline)}
    {acc acc' : Map EvecDeadline × Map Timespec} (ran : its.foldlM moveDeadline acc = .ok acc') :
    ∀ it ∈ its, it.1 ≠ noTask := by
  induction its generalizing acc with
  | nil => simp
  | cons it its ih =>
      rw [List.foldlM_cons] at ran
      obtain ⟨mid, moved, ran⟩ := bind_eq_ok.mp ran
      obtain ⟨_, -, moved⟩ := bind_eq_ok.mp moved
      obtain ⟨timeouts, registered, -⟩ := bind_eq_ok.mp moved
      obtain ⟨_, named, -⟩ := bind_eq_ok.mp registered
      rw [check_ok_iff] at named
      intro other member
      rcases List.mem_cons.mp member with rfl | later
      · simpa using named
      · exact ih ran other later

theorem deadlines_empty_iff {esrc : Evec} (found : st.evecs.lookup src = some esrc) :
    esrc.deadlines.entries.length = 0 ↔ ∀ x, deadlineOf st.evecs src x = none := by
  constructor
  · intro empty x
    rw [Option.eq_none_iff_forall_ne_some]
    intro d entry
    have inside := (mem_deadlines found).mp entry
    rw [List.eq_nil_of_length_eq_zero empty] at inside
    cases inside
  · intro none
    rw [List.length_eq_zero_iff, List.eq_nil_iff_forall_not_mem]
    intro it inside
    have entry := (mem_deadlines found).mpr inside
    rw [none it.1] at entry
    cases entry

theorem posthandleMove_ok_iff :
    (∃ st', posthandleMove id src dst st = .ok st') ↔ id ∉ st.waiters ∧ MoveReady id src dst st := by
  by_cases awake : id ∈ st.waiters
  · have busy : (!st.waiters.has id) = false := by simpa using awake
    rw [posthandleMove, busy, check_false, error_bind]
    simp [awake]
  · have idle : (!st.waiters.has id) = true := by simpa using awake
    simp only [awake, not_false_eq_true, true_and, MoveReady]
    by_cases none : (waitersOf st.evecs src).size = 0
    · exact ⟨fun _ => .inl none, fun _ => ⟨st, posthandleMove_empty awake none⟩⟩
    · cases found : st.evecs.lookup src with
      | none =>
          rw [waitersOf_missing found] at none
          exact absurd rfl none
      | some esrc =>
          have some : esrc.waiters.size ≠ 0 := by rwa [waitersOf_found found] at none
          by_cases apart : src = dst
          · subst apart
            have same : (∃ st', posthandleMove id src src st = .ok st') ↔
                esrc.deadlines.entries.length = 0 := by
              rw [posthandleMove, idle, check_true, ok_bind]
              simp only [found, if_neg some, if_true]
              constructor
              · rintro ⟨st', ran⟩
                obtain ⟨_, empty, -⟩ := bind_eq_ok.mp ran
                rw [check_ok_iff] at empty
                simpa using empty
              · intro empty
                simp only [empty, beq_self_eq_true, check_true, ok_bind]
                exact ⟨_, rfl⟩
            rw [same, deadlines_empty_iff found]
            simp [none]
          · have inside : ∀ x, x ∈ merged esrc dst st.evecs ↔ _ := mem_merged found
            simp only [posthandleMove_between awake found some apart, none, apart, false_or, false_and,
              not_false_eq_true, true_and, inside, not_or, and_assoc, ne_eq]
            constructor
            · rintro ⟨st', notSrc, notDst, acc, looped, -⟩
              have distinct := esrc.deadlines.nodupKeys
              refine ⟨notSrc, notDst, fun x d entry => ?_⟩
              have member := (mem_deadlines found).mp entry
              have fresh := moveDeadlines_fresh distinct looped _ member
              rw [evecInit_deadlines] at fresh
              exact ⟨moveDeadlines_named looped _ member, fresh⟩
            · rintro ⟨notSrc, notDst, single⟩
              have each : ∀ it ∈ esrc.deadlines.entries,
                  it.1 ≠ noTask ∧ deadlineOf st.evecs dst it.1 = Option.none := fun it member =>
                single it.1 it.2 ((mem_deadlines found).mpr member)
              obtain ⟨acc, looped⟩ := moveDeadlines_runs
                ((evecInit dst st.evecs).1.deadlines, st.timeouts) esrc.deadlines.nodupKeys
                (fun it member => (each it member).1)
                (fun it member => by rw [evecInit_deadlines]; exact (each it member).2)
              exact ⟨_, notSrc, notDst, acc, looped, rfl⟩

theorem evecResume_ok_iff {cp : EvecCapture} (task : cp.id ≠ noTask) :
    (∀ randoms, ∃ st', evecResume cp randoms st = .ok st') ↔ EvecReady cp st := by
  have named : (cp.id != noTask) = true := by simpa using task
  simp only [evecResume, named, check_true, ok_bind, EvecReady]
  cases cp.event with
  | prepare addr => exact forall_const _ |>.trans (posthandlePrepare_ok_iff addr)
  | cancel addr => exact forall_const _ |>.trans (posthandleCancel_ok_iff addr)
  | wake addr cnt => exact posthandleWake_ok_iff addr cnt
  | move src dst => exact forall_const _ |>.trans posthandleMove_ok_iff
  | wait addr => exact ⟨fun _ => trivial, fun _ _ => ⟨st, rfl⟩⟩
  | timedWait addr abstime ret => exact ⟨fun _ => trivial, fun _ _ => ⟨st, rfl⟩⟩
  | other => exact ⟨fun _ => trivial, fun _ _ => ⟨st, rfl⟩⟩

end Evec

section Rusty

variable {ctx : Ctx} {st : RustyState}

def Width (size : UInt64) : Prop := size = 1 ∨ size = 2 ∨ size = 4 ∨ size = 8

def takesValue : EventType → Bool
  | .maCmpxchg | .maCmpxchgWeak | .maRmw | .maXchg | .maAWrite => true
  | _ => false

/-- The access of the event, if it has one whose value is read, has such a width. -/
def Sized (ctx : Ctx) : Prop :=
  ∀ p, ctx.payload = some p → p.addr ≠ 0 → takesValue ctx.typeId = true → Width p.size

theorem getCtxVal_ok_iff {size : UInt64} (value : UInt64) :
    (∃ v, getCtxVal size value = .ok v) ↔ Width size := by
  unfold getCtxVal Width
  split_ifs <;> simp_all

theorem sizedRead_ok {size : UInt64} (width : Width size) (mem : Memory) (addr : UInt64) :
    ∃ v, sizedRead mem addr size.toNat = .ok v := by
  unfold Width at width
  rcases width with rfl | rfl | rfl | rfl <;> exact ⟨_, rfl⟩

theorem ctxReadValue_ok {p : Payload} (width : takesValue ctx.typeId = true → Width p.size) (mem : Memory)
    (cas : CasPredictor) : ∃ v, ctxReadValue mem cas ctx p = .ok v := by
  have read : takesValue ctx.typeId = true → ∃ v, (if ctx.after then .ok (getMemoryAccessValue ctx.id cas)
      else do
        let value ← sizedRead mem p.addr p.size.toNat
        .ok (some value) : Except Fault (Option UInt64)) = .ok v := by
    intro takes
    obtain ⟨v, found⟩ := sizedRead_ok (width takes) mem p.addr
    rw [found, ok_bind]
    split <;> exact ⟨_, rfl⟩
  unfold ctxReadValue
  cases kind : ctx.typeId <;> rw [kind] at read <;> first | exact read rfl | exact ⟨none, rfl⟩

theorem ctxKind_ok_iff {p : Payload} :
    (∃ kind, ctxKind ctx p = .ok kind) ↔ (takesValue ctx.typeId = true → Width p.size) := by
  have one : ∀ v (f : UInt64 → ModifyKind), (∃ kind, (do
      let value ← getCtxVal p.size v
      .ok (some (f value)) : Except Fault (Option ModifyKind)) = .ok kind) ↔ Width p.size := by
    intro v f
    rw [← getCtxVal_ok_iff v]
    constructor
    · rintro ⟨kind, ran⟩
      obtain ⟨value, taken, -⟩ := bind_eq_ok.mp ran
      exact ⟨value, taken⟩
    · rintro ⟨value, taken⟩
      exact ⟨_, by rw [taken, ok_bind]⟩
  have two : (∃ kind, (do
      let expected ← getCtxVal p.size p.cmp
      let new ← getCtxVal p.size p.val
      .ok (some (.cas ctx.after expected new)) : Except Fault (Option ModifyKind)) = .ok kind) ↔
      Width p.size := by
    constructor
    · rintro ⟨kind, ran⟩
      obtain ⟨value, taken, -⟩ := bind_eq_ok.mp ran
      exact (getCtxVal_ok_iff _).mp ⟨value, taken⟩
    · intro width
      obtain ⟨expected, first⟩ := (getCtxVal_ok_iff p.cmp).mpr width
      obtain ⟨new, second⟩ := (getCtxVal_ok_iff p.val).mpr width
      exact ⟨_, by rw [first, ok_bind, second, ok_bind]⟩
  unfold ctxKind
  cases ctx.typeId <;> simp only [takesValue, Bool.false_eq_true, false_implies, iff_true, true_implies]
  case maCmpxchg => exact two
  case maCmpxchgWeak => exact two
  case maRmw => exact one p.val fun delta => .rmw ctx.after delta p.op
  case maXchg => exact one p.val fun value => .xchg ctx.after value
  case maAWrite => exact one p.val fun value => .awrite ctx.after value
  all_goals exact ⟨_, rfl⟩

theorem ctxToModify_ok_iff (mem : Memory) (cas : CasPredictor) :
    (∃ ma, ctxToModify mem cas ctx = .ok ma) ↔ Sized ctx := by
  unfold ctxToModify Sized
  cases ctx.payload with
  | none => simp
  | some p =>
      simp only [Option.some.injEq, forall_eq']
      by_cases null : p.addr = 0
      · simp [null]
      · rw [if_neg null, ← ctxKind_ok_iff]
        simp only [ne_eq, null, not_false_eq_true, true_implies]
        constructor
        · rintro ⟨ma, ran⟩
          obtain ⟨kind, made, -⟩ := bind_eq_ok.mp ran
          exact ⟨kind, made⟩
        · rintro ⟨kind, made⟩
          obtain ⟨v, read⟩ := ctxReadValue_ok (ctxKind_ok_iff.mp ⟨kind, made⟩) mem cas
          rw [made, ok_bind]
          cases kind with
          | none => exact ⟨none, rfl⟩
          | some kind =>
              simp only [read, ok_bind]
              exact ⟨_, rfl⟩

/-- The access that the event handler finds for the task: the one of the event, where the predictor is
enabled. -/
def realAccess (ctx : Ctx) (st : RustyState) : Option MemoryAccess :=
  if st.casEnabled then (ctxToModify st.memory st.cas ctx).toOption.join
  else getRtMemoryAccess ctx.id st.cas

/-- The event handler can resume the record of an access: there is an access that it reads the same
value of, or the record is counted as captured and can be taken back. -/
def Settles (ctx : Ctx) (st : RustyState) (e : Event) (old : MemoryAccess) : Prop :=
  ∃ now, realAccess ctx st = some now ∧ (old.loadedValue = now.loadedValue ∨
    ∀ cnt, st.events.pcCnt.lookup (keyOf st.events.stMap e.core) = some cnt → 0 < cnt.capture)

structure RustyReady (ctx : Ctx) (st : RustyState) : Prop where
  sized : st.casEnabled = true → Sized ctx
  settles : st.eventEnabled = true → ctx.typeId ≠ .any → ∀ e old,
    st.events.tasks.lookup ctx.id = some e → e.m = some old → Settles ctx st e old

theorem updateTaskFromCtx_ok_iff :
    (∃ cas, updateTaskFromCtx st.casEnabled st.memory ctx st.cas = .ok cas) ↔
      (st.casEnabled = true → Sized ctx) := by
  unfold updateTaskFromCtx
  by_cases enabled : st.casEnabled = true
  · simp only [enabled, if_true, true_implies, ← ctxToModify_ok_iff st.memory st.cas]
    constructor
    · rintro ⟨cas, ran⟩
      obtain ⟨ma, made, -⟩ := bind_eq_ok.mp ran
      exact ⟨ma, made⟩
    · rintro ⟨ma, made⟩
      exact ⟨_, by rw [made, ok_bind]⟩
  · simp [enabled]

theorem updateTaskFromCtx_real {cas : CasPredictor}
    (ran : updateTaskFromCtx st.casEnabled st.memory ctx st.cas = .ok cas) :
    getRtMemoryAccess ctx.id cas = realAccess ctx st := by
  unfold updateTaskFromCtx at ran
  unfold realAccess
  by_cases enabled : st.casEnabled = true
  · rw [if_pos enabled] at ran ⊢
    obtain ⟨ma, made, ran⟩ := bind_eq_ok.mp ran
    obtain rfl := Except.ok.inj ran
    rw [made]
    cases ma <;> simp [CasPredictor.record, getRtMemoryAccess, Except.toOption]
  · rw [if_neg enabled] at ran ⊢
    rw [Except.ok.inj ran]

theorem uncapture_ok_iff {pcCnt : Counts} {ecore : EventCore Nat} :
    (∃ pcCnt', uncapture pcCnt ecore = .ok pcCnt') ↔
      ∀ cnt, pcCnt.lookup ecore = some cnt → 0 < cnt.capture := by
  unfold uncapture
  cases pcCnt.lookup ecore with
  | none => simp
  | some cnt =>
      by_cases counted : 0 < cnt.capture
      · simp [counted, check_true, ok_bind]
      · simp [counted, check_false, error_bind]

theorem resumeEvent_ok_iff {id : TaskId} {e : Event} {cas : CasPredictor} {h : EventHandler} :
    (∃ events, resumeEvent id e cas h = .ok events) ↔ ∀ old, e.m = some old →
      ∃ now, getRtMemoryAccess id cas = some now ∧ (old.loadedValue = now.loadedValue ∨
        ∀ cnt, h.pcCnt.lookup (keyOf h.stMap e.core) = some cnt → 0 < cnt.capture) := by
  unfold resumeEvent
  cases access : e.m with
  | none => simp
  | some old =>
      cases real : getRtMemoryAccess id cas with
      | none => simp
      | some now =>
          simp only [Option.some.injEq, forall_eq', exists_eq_left']
          by_cases same : old.loadedValue = now.loadedValue
          · simp [same]
          · have key : keyOf h.stMap e.core = { t := e.t, stacktrace := (h.stMap.put e.stacktrace).1
                                                eff := Eff.of (some old) } := by
              rw [keyOf, Event.core, access]
            rw [if_neg same, or_iff_right same, key, ← uncapture_ok_iff]
            constructor
            · rintro ⟨events, ran⟩
              obtain ⟨pcCnt, taken, -⟩ := bind_eq_ok.mp ran
              exact ⟨pcCnt, taken⟩
            · rintro ⟨pcCnt, taken⟩
              exact ⟨_, by rw [taken, ok_bind]⟩

theorem eventPosthandle_ok_iff {cas : CasPredictor}
    (ran : updateTaskFromCtx st.casEnabled st.memory ctx st.cas = .ok cas) :
    (∃ events, eventPosthandle st.eventEnabled ctx cas st.events = .ok events) ↔
      (st.eventEnabled = true → ctx.typeId ≠ .any → ∀ e old,
        st.events.tasks.lookup ctx.id = some e → e.m = some old → Settles ctx st e old) := by
  unfold eventPosthandle Settles
  rw [← updateTaskFromCtx_real ran]
  by_cases off : ctx.typeId = .any ∨ st.eventEnabled = false
  · rw [if_pos (by simpa using off)]
    refine ⟨fun _ enabled real => ?_, fun _ => ⟨_, rfl⟩⟩
    rcases off with any | disabled
    · exact absurd any real
    · rw [disabled] at enabled
      cases enabled
  · rw [if_neg (by simpa using off)]
    rw [not_or, Bool.not_eq_false] at off
    simp only [off, ne_eq, not_false_eq_true, true_implies]
    cases st.events.tasks.lookup ctx.id with
    | none => simp
    | some e =>
        simp only [Option.some.injEq]
        rw [resumeEvent_ok_iff]
        constructor
        · rintro settles _ old rfl
          exact settles old
        · intro settles old
          exact settles e old rfl

theorem publishExecute_ok_iff : (∃ st', publishExecute ctx st = .ok st') ↔ RustyReady ctx st := by
  constructor
  · rintro ⟨st', ran⟩
    obtain ⟨cas, updated, ran⟩ := bind_eq_ok.mp ran
    obtain ⟨events, resumed, -⟩ := bind_eq_ok.mp ran
    exact ⟨updateTaskFromCtx_ok_iff.mp ⟨cas, updated⟩,
      (eventPosthandle_ok_iff updated).mp ⟨events, resumed⟩⟩
  · intro ready
    obtain ⟨cas, updated⟩ := updateTaskFromCtx_ok_iff.mpr ready.sized
    obtain ⟨events, resumed⟩ := (eventPosthandle_ok_iff updated).mpr ready.settles
    exact ⟨{ st with cas, events }, by rw [publishExecute, updated, ok_bind, resumed, ok_bind]⟩

end Rusty

end Lotto.DroppedResume
