import Lotto.EventCounts
import Lotto.OrderEnforcer

namespace Lotto.OrderKept

open Library.FaultRun Library.GuardedRun Library.KeyMap
open Lotto.Rinflex

/-- The handlers with the memory they read, the captured tasks, and what the last capture handed
to the order enforcer: the tasks of the decision and the ones that were blocked already. -/
structure World where
  mem : Memory
  handlers : Handlers
  pending : AList fun _ : TaskId => Ctx
  tset : List TaskId
  blocked : List TaskId
  /-- The last capture is of an event with a type. -/
  typed : Bool
  /-- No task has resumed since the last capture. -/
  first : Bool

inductive Move where
  | capture (ctx : Ctx) (stacktrace : Option StackTrace) (cappt : Decision)
  | resume (ctx : Ctx)
  | store (mem : Memory)

def step : Move → World → Except Fault World
  | .capture ctx stacktrace cappt, w => do
      let cas ← updateTaskFromCtx true w.mem ctx w.handlers.cas
      let event := eventHandle true ctx cappt.clk stacktrace cas w.handlers.event
      let handled ← orderHandle w.mem ctx cappt { w.handlers with cas, event }
      .ok { w with
        handlers := handled.2
        pending := w.pending.insert ctx.id ctx
        tset := cappt.tset.tasks
        blocked := w.handlers.order.block.keys
        typed := decide (ctx.typeId ≠ .any)
        first := true }
  | .resume ctx, w => do
      let cas ← updateTaskFromCtx true w.mem ctx w.handlers.cas
      let event ← eventPosthandle true ctx cas w.handlers.event
      let order ← orderPosthandle ctx event w.handlers.order
      .ok { w with
        handlers := { cas, event, order }
        pending := w.pending.erase ctx.id
        first := false }
  | .store mem, w => .ok { w with mem }

def Unchanged (w : World) (ctx : Ctx) : Prop :=
  (ctxToModify w.mem w.handlers.cas ctx).map (·.bind Modify.loadedValue) =
    .ok ((w.handlers.event.tasks.lookup ctx.id).bind (·.m.bind Modify.loadedValue))

/-- The run is not shut down; a task resumes with its unchanged event, and was in the decision of
the last capture or blocked then. -/
def Allowed (w : World) (m : Move) : Prop :=
  w.handlers.order.shutdown = false ∧
    match m with
    | .capture ctx _ _ => w.pending.lookup ctx.id = none
    | .resume ctx => w.pending.lookup ctx.id = some ctx ∧ (ctx.id ∈ w.tset ∨ ctx.id ∈ w.blocked) ∧
        Unchanged w ctx
    | .store _ => True

def Typed (w : World) : Move → Prop
  | .resume _ => w.typed = true
  | _ => True

def Alternates (w : World) : Move → Prop
  | .resume _ => w.first = true
  | _ => True

def InTurn (w : World) (m : Move) : Prop := Typed w m ∧ Alternates w m

def system (mem : Memory) (maxClock : Option Nat) (constraints : List Constraint)
    (condition : World → Move → Prop) : Guarded World Move Fault where
  start :=
    { mem
      handlers :=
        { cas := CasPredictor.new
          event := EventHandler.new
          order := { constraints, shouldDiscard := false, block := ∅, shutdown := false, maxClock
                     prevAnyTaskFilter := ∅ } }
      pending := ∅
      tset := []
      blocked := []
      typed := false
      first := false }
  step := step
  allowed w m := Allowed w m ∧ condition w m

/-- A constraint whose target has happened as often as it may has had its source. -/
def Kept (c : Constraint) : Prop := c.target.cnt = 0 → c.source.cnt = 0

def Clear (h : Handlers) (id : TaskId) : Prop :=
  ∀ e, h.event.tasks.lookup id = some e → ∀ c ∈ h.order.constraints, shouldBlock e c = false

def Alike (cas : CasPredictor) : Prop := ∀ id, cas.rtMap.lookup id = cas.tasks.lookup id

/-- The enforcer is in order: its counters are positive, and every task that may resume breaks no
constraint. -/
structure Obeyed (w : World) : Prop where
  kept : ∀ c ∈ w.handlers.order.constraints, Kept c
  blocks : ∀ id n, w.handlers.order.block.lookup id = some n → 0 < n
  alike : Alike w.handlers.cas
  held : w.first = true → ∀ id ∈ w.blocked, id ∈ w.handlers.order.block
  clear : w.first = true → w.typed = true → w.handlers.order.shutdown = false →
    ∀ id ∈ w.tset, id ∉ w.handlers.order.block → Clear w.handlers id

section Predictor

variable {mem : Memory} {cas cas' : CasPredictor} {ctx : Ctx}

theorem Alike.record (alike : Alike cas) (id : TaskId) (ma : Option MemoryAccess) :
    Alike (cas.record id ma) := by
  intro task
  rw [record_tasks]
  by_cases same : task = id
  · subst same
    rw [if_pos rfl]
    exact record_rt task ma
  · rw [if_neg same, ← alike task]
    cases ma with
    | none => exact AList.lookup_erase_ne same
    | some m => exact AList.lookup_insert_ne same

theorem Alike.update {id : TaskId} (alike : Alike cas)
    (ran : updateMemoryAccess mem id cas = .ok cas') : Alike cas' := by
  obtain ⟨tasks, first, ran⟩ := bind_eq_ok.mp ran
  obtain ⟨rtMap, second, ran⟩ := bind_eq_ok.mp ran
  obtain rfl := Except.ok.inj ran
  rw [refresh] at first second
  cases found : cas.tasks.lookup id with
  | none =>
      rw [found] at first
      rw [show cas.rtMap.lookup id = none from (alike id).trans found] at second
      cases first
      cases second
      exact alike
  | some ma =>
      rw [found] at first
      rw [show cas.rtMap.lookup id = some ma from (alike id).trans found] at second
      obtain ⟨ma', updated, rest⟩ := bind_eq_ok.mp first
      obtain rfl := Except.ok.inj rest
      obtain ⟨ma'', updated', rest⟩ := bind_eq_ok.mp second
      obtain rfl := Except.ok.inj rest
      have same : ma'' = ma' := by
        have value : getMemoryAccessValue id { cas with tasks := cas.tasks.insert id ma' } =
            ma'.readValue := by
          rw [getMemoryAccessValue, getMemoryAccess, AList.lookup_insert]
          rfl
        unfold update at updated updated'
        rw [value] at updated'
        split at updated
        next unread =>
          rw [if_pos unread] at updated'
          exact (Except.ok.inj updated').symm.trans (Except.ok.inj updated)
        next read =>
          rw [if_neg read] at updated'
          split at updated
          next after =>
            rw [if_pos after] at updated'
            rw [← Except.ok.inj updated', ← Except.ok.inj updated]
          next before =>
            rw [if_neg before, updated] at updated'
            exact (Except.ok.inj updated').symm
      intro task
      rw [same]
      by_cases here : task = id
      · subst here
        rw [AList.lookup_insert, AList.lookup_insert]
      · rw [AList.lookup_insert_ne here, AList.lookup_insert_ne here, alike]

end Predictor

section Handle

variable {mem : Memory} {h h' : Handlers} {id task : TaskId}

theorem blockFor_mem (e : Event) (block : AList fun _ : TaskId => Nat) (c : Constraint)
    (task : TaskId) :
    task ∈ blockFor id e block c ↔ task ∈ block ∨ task = id ∧ shouldBlock e c = true := by
  rw [blockFor]
  split
  next blocks => simp [blocks, or_comm]
  next => simp_all

theorem blockFor_pos {e : Event} {block : AList fun _ : TaskId => Nat} {c : Constraint}
    (positive : All (fun _ n => 0 < n) block) : All (fun _ n => 0 < n) (blockFor id e block c) := by
  rw [blockFor]
  split
  · intro task n found
    rcases lookup_insert_some.mp found with ⟨-, rfl⟩ | ⟨-, found⟩
    · cases block.lookup id with
      | none => exact Nat.one_pos
      | some n => exact Nat.succ_pos n
    · exact positive task n found
  · exact positive

theorem blockAll_mem (e : Event) (cs : List Constraint) (block : AList fun _ : TaskId => Nat)
    (task : TaskId) :
    task ∈ cs.foldl (blockFor id e) block ↔
      task ∈ block ∨ task = id ∧ ∃ c ∈ cs, shouldBlock e c = true := by
  induction cs generalizing block with
  | nil => simp
  | cons c cs ih =>
      rw [List.foldl_cons, ih, blockFor_mem]
      simp only [List.mem_cons, exists_eq_or_imp]
      tauto

theorem blockAll_pos (e : Event) (cs : List Constraint) {block : AList fun _ : TaskId => Nat}
    (positive : All (fun _ n => 0 < n) block) :
    All (fun _ n => 0 < n) (cs.foldl (blockFor id e) block) := by
  induction cs generalizing block with
  | nil => exact positive
  | cons c cs ih => exact ih (blockFor_pos positive)

theorem getRtEvent_record {cas : CasPredictor} {event : EventHandler} {e : Event}
    (alike : Alike cas) (access : ∀ e, event.tasks.lookup id = some e → e.m = cas.tasks.lookup id)
    (got : getRtEvent id cas event = .ok (some e)) : event.tasks.lookup id = some e := by
  rw [getRtEvent] at got
  cases found : event.tasks.lookup id with
  | none =>
      rw [found] at got
      cases got
  | some record =>
      rw [found] at got
      dsimp only at got
      split at got
      · obtain ⟨_, -, rest⟩ := bind_eq_ok.mp got
        rw [← Option.some.inj (Except.ok.inj rest), getRtMemoryAccess, alike id,
          ← access record found]
      · exact Except.ok.inj got

theorem updateEvent_records {cas : CasPredictor} {event : EventHandler}
    {out : CasPredictor × EventHandler} (alike : Alike cas)
    (ran : updateEvent mem id cas event = .ok out) :
    Alike out.1 ∧ (∀ task, task ≠ id → out.2.tasks.lookup task = event.tasks.lookup task) ∧
      ∀ e, out.2.tasks.lookup id = some e → e.m = out.1.tasks.lookup id := by
  obtain ⟨cas', updated, rest⟩ := bind_eq_ok.mp ran
  have alike' := alike.update updated
  cases found : event.tasks.lookup id with
  | none =>
      rw [found] at rest
      obtain rfl := Except.ok.inj rest
      refine ⟨alike', fun _ _ => rfl, ?_⟩
      intro e found'
      rw [found] at found'
      cases found'
  | some old =>
      rw [found] at rest
      obtain rfl := Except.ok.inj rest
      refine ⟨alike', fun _ other => AList.lookup_insert_ne other, ?_⟩
      intro e found'
      rw [AList.lookup_insert] at found'
      rw [← Option.some.inj found']
      rfl

structure Evaluated (id : TaskId) (h h' : Handlers) : Prop where
  order : h'.order = { h.order with block := h'.order.block }
  blocks : ∀ task, task ∈ h.order.block → task ∈ h'.order.block
  positive : All (fun _ n => 0 < n) h.order.block → All (fun _ n => 0 < n) h'.order.block
  records : ∀ task, task ≠ id → h'.event.tasks.lookup task = h.event.tasks.lookup task
  alike : Alike h'.cas
  decided : id ∈ h'.order.block ∨ Clear h' id

theorem evaluate_ok (alike : Alike h.cas) (ran : evaluate mem h id = .ok h') :
    Evaluated id h h' := by
  rw [evaluate] at ran
  split at ran
  next blocked =>
    obtain rfl := Except.ok.inj ran
    exact ⟨rfl, fun _ member => member, fun positive => positive, fun _ _ => rfl, alike,
      Or.inl blocked⟩
  next free =>
    obtain ⟨updated, ran', rest⟩ := bind_eq_ok.mp ran
    obtain ⟨e, got, rest⟩ := bind_eq_ok.mp rest
    cases e with
    | none => cases rest
    | some e =>
        obtain rfl := Except.ok.inj rest
        obtain ⟨alike', records, access⟩ := updateEvent_records alike ran'
        have recorded := getRtEvent_record alike' access got
        refine ⟨rfl, ?_, ?_, records, alike', ?_⟩
        · intro task member
          exact (blockAll_mem e _ _ task).mpr (Or.inl member)
        · exact blockAll_pos e _
        · by_cases breaks : ∃ c ∈ h.order.constraints, shouldBlock e c = true
          · exact Or.inl ((blockAll_mem e _ _ id).mpr (Or.inr ⟨rfl, breaks⟩))
          · apply Or.inr
            intro e' found c member
            rw [recorded] at found
            obtain rfl := Option.some.inj found
            exact Bool.eq_false_iff.mpr fun blocks => breaks ⟨c, member, blocks⟩

theorem evaluateAll_ok (tasks : List TaskId) (alike : Alike h.cas)
    (ran : tasks.foldlM (evaluate mem) h = .ok h') :
    h'.order = { h.order with block := h'.order.block } ∧
    (∀ task, task ∈ h.order.block → task ∈ h'.order.block) ∧
    (All (fun _ n => 0 < n) h.order.block → All (fun _ n => 0 < n) h'.order.block) ∧
    Alike h'.cas ∧
    (∀ task, task ∈ h.order.block ∨ Clear h task → task ∈ h'.order.block ∨ Clear h' task) ∧
    ∀ task ∈ tasks, task ∈ h'.order.block ∨ Clear h' task := by
  induction tasks generalizing h with
  | nil =>
      obtain rfl := Except.ok.inj ran
      exact ⟨rfl, fun _ member => member, fun positive => positive, alike, fun _ decided => decided,
        fun _ member => absurd member List.not_mem_nil⟩
  | cons first rest ih =>
      rw [List.foldlM_cons] at ran
      obtain ⟨middle, evaluated, ran⟩ := bind_eq_ok.mp ran
      obtain ⟨order, blocks, positive, records, alike', decided⟩ := evaluate_ok alike evaluated
      obtain ⟨order', blocks', positive', alike'', stays, all⟩ := ih alike' ran
      have kept : ∀ task, task ∈ h.order.block ∨ Clear h task →
          task ∈ middle.order.block ∨ Clear middle task := by
        intro task before
        by_cases same : task = first
        · rw [same]
          exact decided
        · apply before.imp (blocks task)
          intro clear e found c member
          rw [records task same] at found
          rw [order] at member
          exact clear e found c member
      refine ⟨?_, ?_, ?_, alike'', ?_, ?_⟩
      · rw [order', order]
      · exact fun task member => blocks' task (blocks task member)
      · exact fun before => positive' (positive before)
      · exact fun task before => stays task (kept task before)
      · intro task member
        rcases List.mem_cons.mp member with rfl | later
        · exact stays task decided
        · exact all task later

/-- `handle` keeps the constraints, only adds to the blocked tasks, and unless it stops the run
leaves every task of the decision blocked or clear. -/
structure Handled (ctx : Ctx) (tset : List TaskId) (h h' : Handlers) : Prop where
  constraints : h'.order.constraints = h.order.constraints
  blocks : ∀ task, task ∈ h.order.block → task ∈ h'.order.block
  positive : All (fun _ n => 0 < n) h.order.block → All (fun _ n => 0 < n) h'.order.block
  alike : Alike h'.cas
  decided : ctx.typeId ≠ .any → h'.order.shutdown = false →
    ∀ task ∈ tset, task ∈ h'.order.block ∨ Clear h' task

theorem Handled.stopped {ctx : Ctx} {tset : List TaskId} {order : OrderEnforcer}
    (alike : Alike h.cas) (constraints : order.constraints = h.order.constraints)
    (block : order.block = h.order.block) (shutdown : order.shutdown = true) :
    Handled ctx tset h { h with order } := by
  refine ⟨constraints, ?_, ?_, alike, ?_⟩
  · intro task member
    rw [block]
    exact member
  · intro positive
    rw [block]
    exact positive
  · intro _ running
    rw [shutdown] at running
    cases running

theorem waitFilter_kept (ctx : Ctx) (cappt : Decision) (o : OrderEnforcer) :
    (waitFilter ctx cappt o).2.constraints = o.constraints ∧
      (waitFilter ctx cappt o).2.block = o.block := by
  unfold waitFilter
  split
  · exact ⟨rfl, rfl⟩
  · exact ⟨rfl, rfl⟩

theorem orderHandle_ok {ctx : Ctx} {cappt : Decision} {out : Decision × Handlers}
    (alike : Alike h.cas) (ran : orderHandle mem ctx cappt h = .ok out) :
    Handled ctx cappt.tset.tasks h out.2 := by
  unfold orderHandle at ran
  split at ran
  · obtain rfl := Except.ok.inj ran
    exact Handled.stopped alike rfl rfl rfl
  split at ran
  next quiet =>
    obtain rfl := Except.ok.inj ran
    refine ⟨rfl, fun _ member => member, fun positive => positive, alike, ?_⟩
    intro typed _ task _
    apply Or.inr
    intro e _ c member
    have empty : h.order.constraints = [] := by simpa [typed] using quiet
    rw [empty] at member
    cases member
  split at ran
  · obtain rfl := Except.ok.inj ran
    exact Handled.stopped alike rfl rfl rfl
  split at ran
  · obtain rfl := Except.ok.inj ran
    exact Handled.stopped alike rfl rfl rfl
  split at ran
  · obtain rfl := Except.ok.inj ran
    exact Handled.stopped alike rfl rfl rfl
  · obtain ⟨last, evaluated, rest⟩ := bind_eq_ok.mp ran
    obtain rfl := Except.ok.inj rest
    obtain ⟨order, blocks, positive, alike', -, all⟩ := evaluateAll_ok _ alike evaluated
    have constraints := fun cappt => (waitFilter_kept ctx cappt last.order).1
    have block := fun cappt => (waitFilter_kept ctx cappt last.order).2
    refine ⟨?_, ?_, ?_, alike', ?_⟩
    · rw [constraints, order]
    · intro task member
      rw [block]
      exact blocks task member
    · intro before
      rw [block]
      exact positive before
    · intro _ _ task member
      rw [block]
      apply (all task member).imp_right
      intro clear e found c member
      rw [constraints] at member
      exact clear e found c member

end Handle

section Settle

variable {last : Event} {c c' : Constraint} {block block' : AList fun _ : TaskId => Nat}

theorem unblock_ok (positive : All (fun _ n => 0 < n) block) (id : TaskId) :
    ∃ block', unblock id block = .ok block' ∧ All (fun _ n => 0 < n) block' := by
  rw [unblock]
  cases found : block.lookup id with
  | none => exact ⟨block, rfl, positive⟩
  | some n =>
      have some_left : 0 < n := positive id n found
      simp only [decrement, some_left, decide_true, check_true, ok_bind]
      by_cases one : n - 1 = 0
      · rw [if_pos one]
        refine ⟨_, rfl, ?_⟩
        intro task k found'
        exact positive task k (lookup_erase_some.mp found').2
      · rw [if_neg one]
        refine ⟨_, rfl, ?_⟩
        intro task k found'
        rcases lookup_insert_some.mp found' with ⟨-, rfl⟩ | ⟨-, found'⟩
        · exact Nat.pos_of_ne_zero one
        · exact positive task k found'

theorem settle_ok (kept : Kept c) (clear : shouldBlock last c = false)
    (positive : All (fun _ n => 0 < n) block) :
    ∃ c' block', settle last c block = .ok (c', block') ∧ Kept c' ∧
      All (fun _ n => 0 < n) block' := by
  rw [settle]
  split
  next target =>
    obtain ⟨same, left⟩ : c.target.equals last = true ∧ 0 < c.target.cnt := by simpa using target
    simp only [decrement, left, decide_true, check_true, ok_bind]
    refine ⟨_, _, rfl, ?_, positive⟩
    -- the last occurrence of the target comes only after the source
    intro zero
    have event : last.t = c.target.t := by
      have cores : c.target.core = last.core := by simpa [Event.equals] using same
      exact (congrArg EventCore.t cores).symm
    have one : c.target.cnt = 1 := by
      simp only at zero
      omega
    simpa [shouldBlock, event, one, same] using clear
  next =>
    split
    next source =>
      obtain ⟨-, left⟩ : c.source.equals last = true ∧ 0 < c.source.cnt := by simpa using source
      have open_target : c.target.cnt ≠ 0 := by
        intro zero
        have none_left := kept zero
        omega
      simp only [decrement, left, decide_true, check_true, ok_bind]
      split
      · exact ⟨_, _, rfl, fun zero => absurd zero open_target, positive⟩
      · obtain ⟨block', ran, positive'⟩ := unblock_ok positive c.target.t.id
        rw [ran, ok_bind]
        exact ⟨_, _, rfl, fun zero => absurd zero open_target, positive'⟩
    next => exact ⟨c, block, rfl, kept, positive⟩

theorem settleAll_ok (cs : List Constraint) (kept : ∀ c ∈ cs, Kept c)
    (clear : ∀ c ∈ cs, shouldBlock last c = false) (positive : All (fun _ n => 0 < n) block) :
    ∃ out, settleAll last cs block = .ok out ∧ (∀ c ∈ out.1, Kept c) ∧
      All (fun _ n => 0 < n) out.2 := by
  induction cs generalizing block with
  | nil => exact ⟨([], block), rfl, fun _ member => absurd member List.not_mem_nil, positive⟩
  | cons c cs ih =>
      obtain ⟨c', block', settled, kept', positive'⟩ :=
        settle_ok (kept c List.mem_cons_self) (clear c List.mem_cons_self) positive
      obtain ⟨out, rest, keptRest, positive''⟩ :=
        ih (fun c later => kept c (List.mem_cons_of_mem _ later))
          (fun c later => clear c (List.mem_cons_of_mem _ later)) positive'
      refine ⟨(c' :: out.1, out.2), ?_, ?_, positive''⟩
      · rw [settleAll, settled, ok_bind, rest, ok_bind]
      · intro x member
        rcases List.mem_cons.mp member with rfl | later
        · exact kept'
        · exact keptRest x later

end Settle

section Faults

variable {α β : Type}

/-- A computation in which no counter of the enforcer underflows and no assertion of it fails. -/
def Mild (x : Except Fault α) : Prop :=
  Safe (fun fault => fault ≠ .enforcerUnderflow ∧ fault ≠ .enforcerBlockCount) (fun _ => True) x

theorem Mild.ok (a : α) : Mild (.ok a : Except Fault α) := trivial

theorem Mild.bind {x : Except Fault α} {f : α → Except Fault β} (first : Mild x)
    (rest : ∀ a, Mild (f a)) : Mild (x >>= f) :=
  Safe.bind first (fun a _ => rest a)

theorem mild_of_reads {x : Except Fault α} (reads : Reads x) : Mild x := by
  cases x with
  | ok a => exact Mild.ok a
  | error fault =>
      rcases reads with rfl | rfl
      · exact ⟨by decide, by decide⟩
      · exact ⟨by decide, by decide⟩

theorem mild_check {cond : Bool} {fault : Fault} (flow : fault ≠ .enforcerUnderflow)
    (count : fault ≠ .enforcerBlockCount) : Mild (check cond fault) := by
  cases cond with
  | true => exact Mild.ok ()
  | false => exact ⟨flow, count⟩

theorem mild_evaluate (mem : Memory) (h : Handlers) (id : TaskId) : Mild (evaluate mem h id) := by
  unfold evaluate
  split
  · exact Mild.ok h
  apply (mild_of_reads (reads_updateEvent mem id h.cas h.event)).bind
  intro updated
  apply Mild.bind
  · unfold getRtEvent
    split
    · exact Mild.ok _
    split
    · exact (mild_check (by decide) (by decide)).bind fun _ => Mild.ok _
    · exact Mild.ok _
  · intro e
    cases e with
    | none => exact ⟨by decide, by decide⟩
    | some e => exact Mild.ok _

theorem mild_evaluateAll (mem : Memory) (tasks : List TaskId) (h : Handlers) :
    Mild (tasks.foldlM (evaluate mem) h) := by
  induction tasks generalizing h with
  | nil => exact Mild.ok h
  | cons first rest ih =>
      rw [List.foldlM_cons]
      exact (mild_evaluate mem h first).bind ih

theorem mild_orderHandle (mem : Memory) (ctx : Ctx) (cappt : Decision) (h : Handlers) :
    Mild (orderHandle mem ctx cappt h) := by
  unfold orderHandle
  split
  · exact Mild.ok _
  split
  · exact Mild.ok _
  split
  · exact Mild.ok _
  split
  · exact Mild.ok _
  split
  · exact Mild.ok _
  · exact (mild_evaluateAll mem cappt.tset.tasks h).bind fun _ => Mild.ok _

theorem mild_eventPosthandle (ctx : Ctx) (cas : CasPredictor) (event : EventHandler) :
    Mild (eventPosthandle true ctx cas event) := by
  unfold eventPosthandle
  split
  · exact Mild.ok _
  split
  · exact Mild.ok _
  unfold resumeEvent
  dsimp only
  split
  · exact Mild.ok _
  split
  · exact ⟨by decide, by decide⟩
  split
  · exact Mild.ok _
  apply Mild.bind
  · unfold uncapture
    split
    · exact (mild_check (by decide) (by decide)).bind fun _ => Mild.ok _
    · exact Mild.ok _
  · exact fun _ => Mild.ok _

end Faults

section Run

variable {w w' : World} {ctx : Ctx} {cas : CasPredictor} {event : EventHandler}

theorem eventPosthandle_tasks {ma : Option MemoryAccess} {h h' : EventHandler}
    (same : ma.bind Modify.loadedValue =
      (h.tasks.lookup ctx.id).bind (·.m.bind Modify.loadedValue))
    (ran : eventPosthandle true ctx (cas.record ctx.id ma) h = .ok h') : h'.tasks = h.tasks := by
  unfold eventPosthandle at ran
  split at ran
  · rw [← Except.ok.inj ran]
  cases found : h.tasks.lookup ctx.id with
  | none =>
      rw [found] at ran
      rw [← Except.ok.inj ran]
  | some e =>
      rw [found] at ran same
      dsimp only at ran
      unfold resumeEvent at ran
      dsimp only at ran
      cases m : e.m with
      | none =>
          rw [m] at ran
          rw [← Except.ok.inj ran]
      | some oldm =>
          rw [m, record_rt] at ran
          cases ma with
          | none => cases ran
          | some realm =>
              dsimp only at ran
              split at ran
              · rw [← Except.ok.inj ran]
              next differs =>
                rw [Option.bind_some, Option.bind_some, m, Option.bind_some] at same
                exact absurd same.symm differs

theorem Obeyed.posthandle (obeyed : Obeyed w) (allowed : Allowed w (.resume ctx))
    (turn : InTurn w (.resume ctx)) (read : updateTaskFromCtx true w.mem ctx w.handlers.cas = .ok cas)
    (posthandled : eventPosthandle true ctx cas w.handlers.event = .ok event) :
    ∃ order, orderPosthandle ctx event w.handlers.order = .ok order ∧
      (∀ c ∈ order.constraints, Kept c) ∧ All (fun _ n => 0 < n) order.block := by
  obtain ⟨running, -, offered, unchanged⟩ := allowed
  obtain ⟨typed, first⟩ := turn
  unfold orderPosthandle
  split
  · exact ⟨_, rfl, obeyed.kept, obeyed.blocks⟩
  split
  · exact ⟨_, rfl, obeyed.kept, obeyed.blocks⟩
  next free =>
    have listed : ctx.id ∈ w.tset := offered.resolve_right fun was => free (obeyed.held first _ was)
    have clear := obeyed.clear first typed running ctx.id listed free
    obtain ⟨ma, accessed, rfl⟩ := updateTaskFromCtx_ok read
    rw [Unchanged, accessed] at unchanged
    have tasks := eventPosthandle_tasks (Except.ok.inj unchanged) posthandled
    rw [getEvent, tasks]
    cases found : w.handlers.event.tasks.lookup ctx.id with
    | none => exact ⟨_, rfl, obeyed.kept, obeyed.blocks⟩
    | some last =>
        obtain ⟨out, settled, kept, positive⟩ :=
          settleAll_ok w.handlers.order.constraints obeyed.kept (clear last found) obeyed.blocks
        simp only [settled, ok_bind]
        exact ⟨_, rfl, kept, positive⟩

theorem Obeyed.step {m : Move} (obeyed : Obeyed w) (allowed : Allowed w m) (turn : InTurn w m)
    (ran : step m w = .ok w') : Obeyed w' := by
  cases m with
  | capture ctx stacktrace cappt =>
      obtain ⟨cas, read, rest⟩ := bind_eq_ok.mp ran
      obtain ⟨out, handled, rest⟩ := bind_eq_ok.mp rest
      obtain rfl := Except.ok.inj rest
      obtain ⟨ma, -, rfl⟩ := updateTaskFromCtx_ok read
      obtain ⟨constraints, blocks, positive, alike, decided⟩ :=
        orderHandle_ok (obeyed.alike.record ctx.id ma) handled
      refine ⟨?_, positive obeyed.blocks, alike, ?_, ?_⟩
      · rw [constraints]
        exact obeyed.kept
      · intro _ id member
        exact blocks id (AList.mem_keys.mpr member)
      · intro _ typed running id member free
        exact (decided (of_decide_eq_true typed) running id member).resolve_left free
  | resume ctx =>
      obtain ⟨cas, read, rest⟩ := bind_eq_ok.mp ran
      obtain ⟨event, posthandled, rest⟩ := bind_eq_ok.mp rest
      obtain ⟨order, ordered, rest⟩ := bind_eq_ok.mp rest
      obtain rfl := Except.ok.inj rest
      obtain ⟨order', ordered', kept, positive⟩ := obeyed.posthandle allowed turn read posthandled
      rw [ordered'] at ordered
      obtain rfl := Except.ok.inj ordered
      obtain ⟨ma, -, rfl⟩ := updateTaskFromCtx_ok read
      exact ⟨kept, positive, obeyed.alike.record ctx.id ma, nofun, nofun⟩
  | store mem =>
      obtain rfl := Except.ok.inj ran
      exact ⟨obeyed.kept, obeyed.blocks, obeyed.alike, obeyed.held, obeyed.clear⟩

theorem Obeyed.mild {m : Move} (obeyed : Obeyed w) (allowed : Allowed w m) (turn : InTurn w m) :
    Mild (OrderKept.step m w) := by
  cases m with
  | capture ctx stacktrace cappt =>
      apply (mild_of_reads (reads_updateTaskFromCtx w.mem ctx w.handlers.cas)).bind
      intro cas
      exact (mild_orderHandle w.mem ctx cappt _).bind fun _ => Mild.ok _
  | resume ctx =>
      cases read : updateTaskFromCtx true w.mem ctx w.handlers.cas with
      | error fault =>
          have mild := mild_of_reads (reads_updateTaskFromCtx w.mem ctx w.handlers.cas)
          rw [read] at mild
          rw [OrderKept.step, read]
          exact mild
      | ok cas =>
          cases posthandled : eventPosthandle true ctx cas w.handlers.event with
          | error fault =>
              have mild := mild_eventPosthandle ctx cas w.handlers.event
              rw [posthandled] at mild
              rw [OrderKept.step, read, ok_bind, posthandled]
              exact mild
          | ok event =>
              obtain ⟨order, ordered, -⟩ := obeyed.posthandle allowed turn read posthandled
              rw [OrderKept.step, read, ok_bind, posthandled, ok_bind, ordered]
              exact Mild.ok _
  | store mem => exact Mild.ok _

end Run

/-- Where every task that resumes is the first one after a capture of an event with a type, no
constraint is ever broken, no counter underflows and no assertion fails. -/
theorem constraints_never_broken (mem : Memory) (maxClock : Option Nat)
    (constraints : List Constraint) (positive : ∀ c ∈ constraints, 0 < c.target.cnt) (w : World)
    (reached : Reachable (system mem maxClock constraints InTurn) w) :
    (∀ c ∈ w.handlers.order.constraints, c.target.cnt = 0 → c.source.cnt = 0) ∧
      ∀ m, (system mem maxClock constraints InTurn).allowed w m →
        (system mem maxClock constraints InTurn).step m w ≠ .error .enforcerUnderflow ∧
        (system mem maxClock constraints InTurn).step m w ≠ .error .enforcerBlockCount := by
  have obeyed : Obeyed w := by
    induction reached with
    | start =>
        refine ⟨?_, ?_, fun _ => rfl, nofun, nofun⟩
        · intro c member zero
          have left := positive c member
          omega
        · intro id n found
          simp [system] at found
    | step _ both stepped obeyed => exact obeyed.step both.1 both.2 stepped
  refine ⟨obeyed.kept, ?_⟩
  intro m both
  have mild := obeyed.mild both.1 both.2
  refine ⟨?_, ?_⟩
  · intro underflow
    rw [show OrderKept.step m w = .error .enforcerUnderflow from underflow] at mild
    exact mild.1 rfl
  · intro failed
    rw [show OrderKept.step m w = .error .enforcerBlockCount from failed] at mild
    exact mild.2 rfl

instance (w : World) (ctx : Ctx) : Decidable (Unchanged w ctx) := inferInstanceAs (Decidable (_ = _))

instance (w : World) (m : Move) : Decidable (Allowed w m) :=
  match m with
  | .capture _ _ _ => inferInstanceAs (Decidable (_ = false ∧ _ = none))
  | .resume _ => inferInstanceAs (Decidable (_ = false ∧ _ = some _ ∧ (_ ∨ _) ∧ Unchanged _ _))
  | .store _ => inferInstanceAs (Decidable (_ = false ∧ True))

instance (w : World) (m : Move) : Decidable (Typed w m) :=
  match m with
  | .resume _ => inferInstanceAs (Decidable (_ = true))
  | .capture _ _ _ | .store _ => isTrue trivial

instance (w : World) (m : Move) : Decidable (Alternates w m) :=
  match m with
  | .resume _ => inferInstanceAs (Decidable (_ = true))
  | .capture _ _ _ | .store _ => isTrue trivial

instance (w : World) (m : Move) : Decidable (InTurn w m) := inferInstanceAs (Decidable (_ ∧ _))

instance (mem : Memory) (maxClock : Option Nat) (constraints : List Constraint)
    (condition : World → Move → Prop) [∀ w m, Decidable (condition w m)] (w : World) (m : Move) :
    Decidable ((system mem maxClock constraints condition).allowed w m) :=
  inferInstanceAs (Decidable (_ ∧ _))

def plain (id : TaskId) (typeId : EventType) : Ctx :=
  { id, typeId, after := false, pc := 4096, payload := none }

def plainEvent (ctx : Ctx) (cnt : Nat) : Event :=
  { t := Transition.new ctx, clk := 0, cnt, stacktrace := [], m := none }

def choice (tset : Tidset) : Decision :=
  { plainDecision tset with isChpt := true }

def oneTask : Tidset := Tidset.empty.insert 1

def orderedPair : Constraint :=
  { source := plainEvent (plain 1 (.other 11)) 1, target := plainEvent (plain 2 (.other 20)) 1 }

def otherPair : Constraint :=
  { source := plainEvent (plain 1 (.other 10)) 1, target := plainEvent (plain 2 (.other 21)) 2 }

def waitsForSource : List Move :=
  [.capture (plain 1 (.other 11)) none (choice oneTask),
    .capture (plain 2 (.other 20)) none (choice bothTasks), .resume (plain 1 (.other 11)),
    .capture (plain 1 (.other 10)) none (choice bothTasks), .resume (plain 2 (.other 20))]

theorem constraint_kept_waiting :
    ∃ w, Reachable (system (cells 0) none [orderedPair] InTurn) w ∧
      w.handlers.order.constraints.map (fun c => (c.source.cnt, c.target.cnt)) = [(0, 0)] ∧
      ∀ c ∈ w.handlers.order.constraints, c.target.cnt = 0 → c.source.cnt = 0 := by
  have legal : Legal (system (cells 0) none [orderedPair] InTurn) waitsForSource
      (system (cells 0) none [orderedPair] InTurn).start := by decide
  obtain ⟨w, ran⟩ := legal.runs
  have seen : (run (system (cells 0) none [orderedPair] InTurn) waitsForSource
      (system (cells 0) none [orderedPair] InTurn).start).map (fun w =>
        w.handlers.order.constraints.map (fun c => (c.source.cnt, c.target.cnt))) =
      .ok [(0, 0)] := by decide
  rw [ran] at seen
  have reached := legal.reachable Reachable.start ran
  exact ⟨w, reached, Except.ok.inj seen,
    (constraints_never_broken (cells 0) none [orderedPair] (by decide) w reached).1⟩

def untypedCapture : List Move :=
  [.capture (plain 1 (.other 10)) none (choice oneTask),
    .capture (plain 2 (.other 20)) none (choice oneTask), .resume (plain 1 (.other 10)),
    .capture (plain 1 .any) none (choice bothTasks), .resume (plain 2 (.other 20))]

def secondResume : List Move :=
  [.capture (plain 1 (.other 10)) none (choice oneTask),
    .capture (plain 2 (.other 20)) none (choice bothTasks), .resume (plain 1 (.other 10)),
    .resume (plain 2 (.other 20))]

theorem broken_of_run (condition : World → Move → Prop) (constraints : List Constraint)
    (moves : List Move)
    (legal : Legal (system (cells 0) none constraints condition) moves
      (system (cells 0) none constraints condition).start)
    (seen : (run (system (cells 0) none constraints condition) moves
      (system (cells 0) none constraints condition).start).map (fun w =>
        w.handlers.order.constraints.any (fun c => c.target.cnt == 0 && c.source.cnt != 0)) =
      .ok true) :
    ∃ w, Reachable (system (cells 0) none constraints condition) w ∧
      ¬ ∀ c ∈ w.handlers.order.constraints, c.target.cnt = 0 → c.source.cnt = 0 := by
  obtain ⟨w, ran⟩ := legal.runs
  rw [ran] at seen
  obtain ⟨c, member, broken⟩ := List.any_eq_true.mp (Except.ok.inj seen)
  obtain ⟨done, left⟩ : c.target.cnt = 0 ∧ c.source.cnt ≠ 0 := by simpa using broken
  exact ⟨w, legal.reachable Reachable.start ran, fun kept => left (kept c member done)⟩

/-- Neither condition alone keeps the constraints: a capture without a type checks nothing, and a
second resume after a capture may be of a task that the first one has unblocked. -/
theorem loose_resumes_break :
    (¬ ∀ (mem : Memory) (maxClock : Option Nat) (constraints : List Constraint),
      (∀ c ∈ constraints, 0 < c.target.cnt) →
      ∀ w, Reachable (system mem maxClock constraints fun _ _ => True) w →
        ∀ c ∈ w.handlers.order.constraints, c.target.cnt = 0 → c.source.cnt = 0) ∧
    (¬ ∀ (mem : Memory) (maxClock : Option Nat) (constraints : List Constraint),
      (∀ c ∈ constraints, 0 < c.target.cnt) →
      ∀ w, Reachable (system mem maxClock constraints Alternates) w →
        ∀ c ∈ w.handlers.order.constraints, c.target.cnt = 0 → c.source.cnt = 0) ∧
    ¬ ∀ (mem : Memory) (maxClock : Option Nat) (constraints : List Constraint),
      (∀ c ∈ constraints, 0 < c.target.cnt) →
      ∀ w, Reachable (system mem maxClock constraints Typed) w →
        ∀ c ∈ w.handlers.order.constraints, c.target.cnt = 0 → c.source.cnt = 0 := by
  refine ⟨?_, ?_, ?_⟩
  · intro kept
    obtain ⟨w, reached, broken⟩ := broken_of_run (fun _ _ => True)
      [orderedPair] untypedCapture (by decide) (by decide)
    exact broken (kept _ _ _ (by decide) w reached)
  · intro kept
    obtain ⟨w, reached, broken⟩ := broken_of_run Alternates [orderedPair]
      untypedCapture (by decide) (by decide)
    exact broken (kept _ _ _ (by decide) w reached)
  · intro kept
    obtain ⟨w, reached, broken⟩ := broken_of_run Typed
      [orderedPair, otherPair] secondResume (by decide) (by decide)
    exact broken (kept _ _ _ (by decide) w reached)

end Lotto.OrderKept
