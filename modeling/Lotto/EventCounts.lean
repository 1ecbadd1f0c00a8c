import Lotto.Library.GuardedRun
import Lotto.Library.KeyMap
import Lotto.EventHandler

namespace Lotto.Rinflex

open Library.FaultRun Library.GuardedRun Library.KeyMap

structure Pending where
  ctx : Ctx
  core : EventCore StackTrace
  deriving DecidableEq

/-- The handlers with the memory they read, and the events that have been resumed. -/
structure World where
  mem : Memory
  cas : CasPredictor
  event : EventHandler
  pending : AList fun _ : TaskId => Pending
  resumed : List (EventCore StackTrace)

inductive Move where
  | capture (ctx : Ctx) (clk : Nat) (stacktrace : Option StackTrace)
  | update (task : TaskId)
  | resume (ctx : Ctx)
  | store (mem : Memory)

def coreOf (ctx : Ctx) (stacktrace : StackTrace) (cas : CasPredictor) : EventCore StackTrace :=
  { t := Transition.new ctx, stacktrace, eff := Eff.of (getRtMemoryAccess ctx.id cas) }

def step : Move → World → Except Fault World
  | .capture ctx clk stacktrace, w => do
      let cas ← updateTaskFromCtx true w.mem ctx w.cas
      .ok { w with
        cas
        event := eventHandle true ctx clk stacktrace cas w.event
        pending := w.pending.insert ctx.id ⟨ctx, coreOf ctx (stacktrace.getD []) cas⟩ }
  | .update task, w => do
      let updated ← updateEvent w.mem task w.cas w.event
      .ok { w with cas := updated.1, event := updated.2 }
  | .resume ctx, w => do
      let cas ← updateTaskFromCtx true w.mem ctx w.cas
      let event ← eventPosthandle true ctx cas w.event
      let stacktrace := (w.pending.lookup ctx.id).elim [] (·.core.stacktrace)
      .ok { w with
        cas
        event
        pending := w.pending.erase ctx.id
        -- the predictor has just read the value that the operation loads
        resumed := coreOf ctx stacktrace cas :: w.resumed }
  | .store mem, w => .ok { w with mem }

/-- A task is captured once before it resumes, and resumes where it was captured. -/
def Allowed (w : World) : Move → Prop
  | .capture ctx _ _ => w.pending.lookup ctx.id = none
  | .resume ctx => (w.pending.lookup ctx.id).map (·.ctx) = some ctx
  | .update _ | .store _ => True

/-- The record of the task has the effect that its capture predicted. -/
def Steady (w : World) : Move → Prop
  | .resume ctx => ctx.typeId ≠ .any ∧
      (w.event.tasks.lookup ctx.id).map (fun e => Eff.of e.m) =
        (w.pending.lookup ctx.id).map (·.core.eff)
  | _ => True

def system (mem : Memory) (condition : World → Move → Prop) : Guarded World Move Fault where
  start := { mem, cas := CasPredictor.new, event := EventHandler.new, pending := ∅, resumed := [] }
  step := step
  allowed w m := Allowed w m ∧ condition w m

section Ids

variable {α : Type} [DecidableEq α] {m : IdMap α} {a b : α}

theorem IdMap.put_mem (a : α) (m : IdMap α) : a ∈ (m.put a).2.vec := by
  rw [IdMap.put]
  split
  next known => exact known
  next => simp

theorem IdMap.put_of_mem (known : a ∈ m.vec) : m.put a = (m.vec.idxOf a, m) := by
  rw [IdMap.put, if_pos known]

theorem IdMap.put_of_not_mem (new : a ∉ m.vec) : m.put a = (m.vec.length, ⟨m.vec ++ [a]⟩) := by
  rw [IdMap.put, if_neg new]

theorem IdMap.put_lt (known : a ∈ m.vec) : (m.put a).1 < m.vec.length := by
  rw [IdMap.put_of_mem known]
  exact List.idxOf_lt_length_of_mem known

theorem IdMap.put_old (known : b ∈ m.vec) :
    (IdMap.put b ⟨m.vec ++ [a]⟩).1 = (m.put b).1 := by
  rw [IdMap.put_of_mem known, IdMap.put_of_mem (List.mem_append_left [a] known)]
  exact List.idxOf_append_of_mem known

theorem IdMap.put_again (new : a ∉ m.vec) : (IdMap.put a ⟨m.vec ++ [a]⟩).1 = m.vec.length := by
  rw [IdMap.put_of_mem (List.mem_append_right m.vec (List.mem_singleton_self a))]
  calc (m.vec ++ [a]).idxOf a
    _ = m.vec.length + [a].idxOf a := List.idxOf_append_of_notMem new
    _ = m.vec.length := by simp

theorem IdMap.put_put (a : α) (m : IdMap α) : (m.put a).2.put a = m.put a := by
  by_cases known : a ∈ m.vec
  · rw [IdMap.put_of_mem known, IdMap.put_of_mem known]
  · rw [IdMap.put_of_not_mem known]
    apply Prod.ext
    · exact IdMap.put_again known
    · rw [IdMap.put_of_mem (List.mem_append_right m.vec (List.mem_singleton_self a))]

theorem IdMap.put_inj (known : a ∈ m.vec) : (m.put b).1 = (m.put a).1 ↔ b = a := by
  rw [IdMap.put_of_mem known]
  by_cases there : b ∈ m.vec
  · rw [IdMap.put_of_mem there]
    exact List.idxOf_inj there
  · rw [IdMap.put_of_not_mem there]
    have bound := List.idxOf_lt_length_of_mem known
    constructor
    · intro same
      simp only at same
      omega
    · intro same
      exact absurd (same ▸ known) there

end Ids

section Counts

variable {h : EventHandler} {core : EventCore StackTrace}

def keyOf (stMap : IdMap StackTrace) (core : EventCore StackTrace) : EventCore Nat :=
  { t := core.t, stacktrace := (stMap.put core.stacktrace).1, eff := core.eff }

def cntOf (h : EventHandler) (core : EventCore StackTrace) : Count :=
  (h.pcCnt.lookup (keyOf h.stMap core)).getD ⟨0, 0⟩

def Known (h : EventHandler) : Prop :=
  ∀ key cnt, h.pcCnt.lookup key = some cnt → key.stacktrace < h.stMap.vec.length

theorem happened_eq (core : EventCore StackTrace) (h : EventHandler) :
    (getEventHappenedCnt core h).1 = (cntOf h core).resume := by
  rw [getEventHappenedCnt, cntOf, keyOf]
  cases h.pcCnt.lookup _ <;> rfl

theorem keyOf_inj {stMap : IdMap StackTrace} {a b : EventCore StackTrace}
    (known : a.stacktrace ∈ stMap.vec) : keyOf stMap b = keyOf stMap a ↔ b = a := by
  constructor
  · intro same
    obtain ⟨t, st, eff⟩ := EventCore.mk.inj same
    have stacktrace := (IdMap.put_inj known).mp st
    cases a
    cases b
    simp_all
  · rintro rfl
    rfl

theorem cntOf_new (known : Known h) (new : core.stacktrace ∉ h.stMap.vec) :
    cntOf h core = ⟨0, 0⟩ := by
  rw [cntOf]
  cases found : h.pcCnt.lookup (keyOf h.stMap core) with
  | none => rfl
  | some cnt =>
      have bound := known _ cnt found
      simp only [keyOf, IdMap.put_of_not_mem new] at bound
      omega

theorem put_counts (known : Known h) (st : StackTrace) :
    Known { h with stMap := (h.stMap.put st).2 } ∧
      ∀ core, cntOf { h with stMap := (h.stMap.put st).2 } core = cntOf h core := by
  by_cases there : st ∈ h.stMap.vec
  · rw [IdMap.put_of_mem there]
    exact ⟨known, fun _ => rfl⟩
  · rw [IdMap.put_of_not_mem there]
    have grown : Known { h with stMap := ⟨h.stMap.vec ++ [st]⟩ } := by
      intro key cnt found
      have bound := known key cnt found
      simp only [List.length_append, List.length_singleton]
      omega
    refine ⟨grown, ?_⟩
    intro core
    by_cases old : core.stacktrace ∈ h.stMap.vec
    · have same : keyOf ⟨h.stMap.vec ++ [st]⟩ core = keyOf h.stMap core := by
        rw [keyOf, IdMap.put_old old, keyOf]
      simp only [cntOf]
      rw [same]
    · rw [cntOf_new known old]
      by_cases here : core.stacktrace = st
      · rw [cntOf]
        cases found : h.pcCnt.lookup (keyOf ⟨h.stMap.vec ++ [st]⟩ core) with
        | none => rfl
        | some cnt =>
            have bound := known _ cnt found
            simp only [keyOf, here, IdMap.put_again there] at bound
            omega
      · apply cntOf_new grown
        simp [old, here]

theorem insert_counts (known : Known h) (there : core.stacktrace ∈ h.stMap.vec) (cnt : Count) :
    Known { h with pcCnt := h.pcCnt.insert (keyOf h.stMap core) cnt } ∧
      ∀ other, cntOf { h with pcCnt := h.pcCnt.insert (keyOf h.stMap core) cnt } other =
        if other = core then cnt else cntOf h other := by
  refine ⟨?_, ?_⟩
  · intro key value found
    rcases lookup_insert_some.mp found with ⟨rfl, -⟩ | ⟨-, found⟩
    · exact IdMap.put_lt there
    · exact known key value found
  · intro other
    by_cases same : other = core
    · subst same
      simp [cntOf]
    · have apart : keyOf h.stMap other ≠ keyOf h.stMap core := (keyOf_inj there).not.mpr same
      simp only [cntOf]
      rw [AList.lookup_insert_ne apart, if_neg same]

theorem entry_counts (known : Known h) (core : EventCore StackTrace)
    (there : core.stacktrace ∈ h.stMap.vec) (modify : Count → Count) (new : Count)
    (zero : new = modify ⟨0, 0⟩ ∨ cntOf h core ≠ ⟨0, 0⟩) :
    Known { h with pcCnt := (entry (keyOf h.stMap core) modify new h.pcCnt).2 } ∧
      ∀ other, cntOf { h with pcCnt := (entry (keyOf h.stMap core) modify new h.pcCnt).2 } other =
        if other = core then modify (cntOf h core) else cntOf h other := by
  have value : (h.pcCnt.lookup (keyOf h.stMap core)).elim new modify = modify (cntOf h core) := by
    rw [cntOf] at zero ⊢
    cases found : h.pcCnt.lookup (keyOf h.stMap core) with
    | none =>
        rw [found] at zero
        exact zero.resolve_right (fun differs => differs rfl)
    | some cnt => rfl
  rw [entry, ← value]
  exact insert_counts known there _

theorem uncapture_counts (known : Known h) (there : core.stacktrace ∈ h.stMap.vec)
    (captured : 0 < (cntOf h core).capture) :
    ∃ pcCnt, uncapture h.pcCnt (keyOf h.stMap core) = .ok pcCnt ∧ Known { h with pcCnt } ∧
      ∀ other, cntOf { h with pcCnt } other =
        if other = core then { cntOf h core with capture := (cntOf h core).capture - 1 }
        else cntOf h other := by
  rw [cntOf] at captured
  cases found : h.pcCnt.lookup (keyOf h.stMap core) with
  | none =>
      rw [found] at captured
      exact absurd captured (Nat.lt_irrefl 0)
  | some cnt =>
      rw [found, Option.getD_some] at captured
      have value : cntOf h core = cnt := by
        rw [cntOf, found, Option.getD_some]
      obtain ⟨known', counts⟩ := insert_counts known there { cnt with capture := cnt.capture - 1 }
      refine ⟨_, ?_, known', ?_⟩
      · simp [uncapture, found, captured]
      · rw [value]
        exact counts

theorem keyOf_put (stMap : IdMap StackTrace) (core : EventCore StackTrace) :
    keyOf (stMap.put core.stacktrace).2 core =
      { t := core.t, stacktrace := (stMap.put core.stacktrace).1, eff := core.eff } := by
  rw [keyOf, IdMap.put_put]

theorem learnt_counts (known : Known h) (core : EventCore StackTrace) (modify : Count → Count)
    (new : Count) (zero : new = modify ⟨0, 0⟩ ∨ cntOf h core ≠ ⟨0, 0⟩) :
    Known { h with
      stMap := (h.stMap.put core.stacktrace).2
      pcCnt := (entry (keyOf (h.stMap.put core.stacktrace).2 core) modify new h.pcCnt).2 } ∧
    ∀ other, cntOf { h with
      stMap := (h.stMap.put core.stacktrace).2
      pcCnt := (entry (keyOf (h.stMap.put core.stacktrace).2 core) modify new h.pcCnt).2 } other =
        if other = core then modify (cntOf h core) else cntOf h other := by
  obtain ⟨known', kept⟩ := put_counts known core.stacktrace
  rw [← kept core] at zero ⊢
  obtain ⟨known'', counts⟩ :=
    entry_counts known' core (IdMap.put_mem core.stacktrace h.stMap) modify new zero
  refine ⟨known'', ?_⟩
  intro other
  rw [counts other, kept other]

end Counts

section Predictor

variable {mem mem' : Memory} {cas cas' : CasPredictor} {ctx : Ctx} {a b : Option MemoryAccess}

def Modify.strip (m : Modify) : Modify := { m with readValue := none }

theorem ctxToModify_strip (one : ctxToModify mem cas ctx = .ok a)
    (two : ctxToModify mem' cas' ctx = .ok b) : a.map Modify.strip = b.map Modify.strip := by
  unfold ctxToModify at one two
  cases payload : ctx.payload with
  | none =>
      rw [payload] at one two
      cases one
      cases two
      rfl
  | some p =>
      rw [payload] at one two
      dsimp only at one two
      split at one
      next null =>
        rw [if_pos null] at two
        cases one
        cases two
        rfl
      next real =>
        rw [if_neg real] at two
        obtain ⟨kind, first, one⟩ := bind_eq_ok.mp one
        obtain ⟨kind', second, two⟩ := bind_eq_ok.mp two
        rw [first] at second
        obtain rfl := Except.ok.inj second
        cases kind with
        | none =>
            cases one
            cases two
            rfl
        | some kind =>
            obtain ⟨_, -, one⟩ := bind_eq_ok.mp one
            obtain ⟨_, -, two⟩ := bind_eq_ok.mp two
            cases one
            cases two
            rfl

theorem Eff.of_strip (same : a.map Modify.strip = b.map Modify.strip)
    (loads : a.bind Modify.loadedValue = b.bind Modify.loadedValue) : Eff.of a = Eff.of b := by
  cases a with
  | none =>
      cases b with
      | none => rfl
      | some m => cases same
  | some m =>
      cases b with
      | none => cases same
      | some m' =>
          have stripped : m.strip = m'.strip := Option.some.inj same
          have kind : m.strip.kind = m'.strip.kind := congrArg Modify.kind stripped
          have value : m.readValue = m'.readValue := loads
          simp only [Modify.strip] at kind
          rw [Eff.of, Eff.of, kind, value]

theorem updateTaskFromCtx_ok (ran : updateTaskFromCtx true mem ctx cas = .ok cas') :
    ∃ ma, ctxToModify mem cas ctx = .ok ma ∧ cas' = cas.record ctx.id ma := by
  rw [updateTaskFromCtx, if_pos rfl] at ran
  obtain ⟨ma, read, rest⟩ := bind_eq_ok.mp ran
  exact ⟨ma, read, (Except.ok.inj rest).symm⟩

theorem record_tasks (id : TaskId) (ma : Option MemoryAccess) (task : TaskId) :
    (cas.record id ma).tasks.lookup task = if task = id then ma else cas.tasks.lookup task := by
  cases ma with
  | none =>
      by_cases same : task = id
      · subst same
        simp [CasPredictor.record]
      · simp [CasPredictor.record, same, AList.lookup_erase_ne same]
  | some m =>
      by_cases same : task = id
      · subst same
        simp [CasPredictor.record]
      · simp [CasPredictor.record, same, AList.lookup_insert_ne same]

theorem record_rt (id : TaskId) (ma : Option MemoryAccess) :
    getRtMemoryAccess id (cas.record id ma) = ma := by
  cases ma <;> simp [CasPredictor.record, getRtMemoryAccess]

theorem refresh_strip {table table' : AList fun _ : TaskId => MemoryAccess} {id : TaskId}
    (ran : refresh mem cas id table = .ok table') (task : TaskId) :
    (table'.lookup task).map Modify.strip = (table.lookup task).map Modify.strip := by
  rw [refresh] at ran
  cases found : table.lookup id with
  | none =>
      rw [found] at ran
      cases ran
      rfl
  | some ma =>
      rw [found] at ran
      obtain ⟨ma', updated, rest⟩ := bind_eq_ok.mp ran
      obtain rfl := Except.ok.inj rest
      by_cases same : task = id
      · subst same
        rw [AList.lookup_insert, found]
        rw [update] at updated
        split at updated
        · cases updated
          rfl
        split at updated
        · cases updated
          rfl
        · obtain ⟨value, -, rest⟩ := bind_eq_ok.mp updated
          cases rest
          rfl
      · rw [AList.lookup_insert_ne same]

theorem updateEvent_ok {task : TaskId} {h : EventHandler} {out : CasPredictor × EventHandler}
    (ran : updateEvent mem task cas h = .ok out) :
    (∀ id, (out.1.tasks.lookup id).map Modify.strip = (cas.tasks.lookup id).map Modify.strip) ∧
      out.2 = { h with tasks := out.2.tasks } ∧
      ∀ id e, h.tasks.lookup id = some e → out.2.tasks.lookup id =
        some (if id = task then { e with m := out.1.tasks.lookup id } else e) := by
  obtain ⟨cas', updated, rest⟩ := bind_eq_ok.mp ran
  obtain ⟨tasks, first, updated⟩ := bind_eq_ok.mp updated
  obtain ⟨rtMap, second, updated⟩ := bind_eq_ok.mp updated
  obtain rfl := Except.ok.inj updated
  have strips := refresh_strip first
  cases found : h.tasks.lookup task with
  | none =>
      rw [found] at rest
      cases rest
      refine ⟨strips, rfl, ?_⟩
      intro id e known
      rw [known, if_neg]
      rintro rfl
      rw [found] at known
      cases known
  | some old =>
      rw [found] at rest
      cases rest
      refine ⟨strips, rfl, ?_⟩
      intro id e known
      by_cases same : id = task
      · subst same
        rw [found] at known
        cases known
        rw [AList.lookup_insert, if_pos rfl]
        rfl
      · rw [AList.lookup_insert_ne same, if_neg same, known]

end Predictor

def Awaited (pending : AList fun _ : TaskId => Pending) (core : EventCore StackTrace) : Prop :=
  (pending.lookup core.t.id).map (·.core) = some core

instance (pending : AList fun _ : TaskId => Pending) (core : EventCore StackTrace) :
    Decidable (Awaited pending core) :=
  inferInstanceAs (Decidable (_ = _))

theorem awaited_insert {pending : AList fun _ : TaskId => Pending} {core : EventCore StackTrace}
    {ctx : Ctx} {id : TaskId} (here : core.t.id = id) (other : EventCore StackTrace) :
    Awaited (pending.insert id ⟨ctx, core⟩) other ↔
      other = core ∨ other.t.id ≠ id ∧ Awaited pending other := by
  subst here
  rw [Awaited, Option.map_eq_some_iff, Awaited, Option.map_eq_some_iff]
  by_cases same : other.t.id = core.t.id
  · rw [same]
    simp [eq_comm]
  · rw [AList.lookup_insert_ne same]
    have differs : other ≠ core := by
      rintro rfl
      exact same rfl
    simp [same, differs]

theorem awaited_erase {pending : AList fun _ : TaskId => Pending} (id : TaskId)
    (other : EventCore StackTrace) :
    Awaited (pending.erase id) other ↔ other.t.id ≠ id ∧ Awaited pending other := by
  rw [Awaited, Option.map_eq_some_iff, Awaited, Option.map_eq_some_iff]
  by_cases same : other.t.id = id
  · rw [same]
    simp
  · rw [AList.lookup_erase_ne same]
    simp [same]

def Shaped (ctx : Ctx) (a : Option MemoryAccess) : Prop :=
  ∃ mem cas ma, ctxToModify mem cas ctx = .ok ma ∧ a.map Modify.strip = ma.map Modify.strip

structure Recorded (w : World) (id : TaskId) (p : Pending) : Prop where
  task : p.ctx.id = id
  event : p.core.t = Transition.new p.ctx
  access : Shaped p.ctx (w.cas.tasks.lookup id)
  record : ∃ e, w.event.tasks.lookup id = some e ∧ e.t = p.core.t ∧
    e.stacktrace = p.core.stacktrace ∧ Shaped p.ctx e.m

/-- The counters are those of the resumed events, but for the captures of the waiting tasks. -/
structure Exact (w : World) : Prop where
  known : Known w.event
  counts : ∀ core, cntOf w.event core =
    { capture := w.resumed.count core + if Awaited w.pending core then 1 else 0
      resume := w.resumed.count core }
  recorded : ∀ id p, w.pending.lookup id = some p → Recorded w id p

section Run

variable {w w' : World} {ctx : Ctx} {clk : Nat} {stacktrace : Option StackTrace}

theorem Exact.start (mem : Memory) (condition : World → Move → Prop) :
    Exact (system mem condition).start := by
  refine ⟨?_, ?_, ?_⟩
  · intro key cnt found
    simp [system, EventHandler.new] at found
  · intro core
    simp [system, EventHandler.new, cntOf, Awaited]
  · intro id p found
    simp [system] at found

theorem eventHandle_ok (known : Known w.event) (ctx : Ctx) (clk : Nat)
    (stacktrace : Option StackTrace) (cas : CasPredictor) :
    Known (eventHandle true ctx clk stacktrace cas w.event) ∧
    (∀ other, cntOf (eventHandle true ctx clk stacktrace cas w.event) other =
      if other = coreOf ctx (stacktrace.getD []) cas then
        { capture := (cntOf w.event (coreOf ctx (stacktrace.getD []) cas)).resume + 1
          resume := (cntOf w.event (coreOf ctx (stacktrace.getD []) cas)).resume }
      else cntOf w.event other) ∧
    ∃ cnt, (eventHandle true ctx clk stacktrace cas w.event).tasks = w.event.tasks.insert ctx.id
      { t := Transition.new ctx, clk, cnt, stacktrace := stacktrace.getD []
        m := getRtMemoryAccess ctx.id cas } := by
  obtain ⟨known', counts⟩ := learnt_counts known (coreOf ctx (stacktrace.getD []) cas)
    (fun cnt => { cnt with capture := cnt.resume + 1 }) { capture := 1, resume := 0 } (Or.inl rfl)
  rw [keyOf_put] at known' counts
  exact ⟨known', counts, _, rfl⟩

theorem Exact.capture (exact : Exact w) (free : w.pending.lookup ctx.id = none)
    (ran : step (.capture ctx clk stacktrace) w = .ok w') : Exact w' := by
  obtain ⟨cas, read, rest⟩ := bind_eq_ok.mp ran
  obtain rfl := Except.ok.inj rest
  obtain ⟨ma, accessed, rfl⟩ := updateTaskFromCtx_ok read
  obtain ⟨known, counts, cnt, tasks⟩ :=
    eventHandle_ok exact.known ctx clk stacktrace (w.cas.record ctx.id ma)
  have here : (coreOf ctx (stacktrace.getD []) (w.cas.record ctx.id ma)).t.id = ctx.id := rfl
  refine ⟨known, ?_, ?_⟩
  · intro other
    rw [counts]
    by_cases same : other = coreOf ctx (stacktrace.getD []) (w.cas.record ctx.id ma)
    · rw [if_pos same, ← same, exact.counts other]
      have awaited : Awaited (w.pending.insert ctx.id ⟨ctx, other⟩) other :=
        (awaited_insert (by rw [same]; rfl) other).mpr (Or.inl rfl)
      rw [if_pos awaited]
    · rw [if_neg same, exact.counts other]
      have alike : Awaited (w.pending.insert ctx.id ⟨ctx, coreOf ctx (stacktrace.getD [])
          (w.cas.record ctx.id ma)⟩) other ↔ Awaited w.pending other := by
        rw [awaited_insert here]
        simp only [same, false_or, and_iff_right_iff_imp]
        intro awaited here
        rw [Awaited, here, free] at awaited
        cases awaited
      simp only [alike]
  · intro id p found
    rcases lookup_insert_some.mp found with ⟨rfl, rfl⟩ | ⟨other, found⟩
    · refine ⟨rfl, rfl, ⟨w.mem, w.cas, ma, accessed, ?_⟩, ?_⟩
      · rw [record_tasks, if_pos rfl]
      · refine ⟨_, by rw [tasks, AList.lookup_insert], rfl, rfl, w.mem, w.cas, ma, accessed, ?_⟩
        rw [record_rt]
    · obtain ⟨task, event, access, record⟩ := exact.recorded id p found
      refine ⟨task, event, ?_, ?_⟩
      · rw [record_tasks, if_neg other]
        exact access
      · rw [tasks, AList.lookup_insert_ne other]
        exact record

theorem Exact.update {task : TaskId} (exact : Exact w)
    (ran : step (.update task) w = .ok w') : Exact w' := by
  obtain ⟨out, updated, rest⟩ := bind_eq_ok.mp ran
  obtain rfl := Except.ok.inj rest
  obtain ⟨strips, same, records⟩ := updateEvent_ok updated
  refine ⟨?_, ?_, ?_⟩
  · rw [same]
    exact exact.known
  · intro core
    rw [same]
    exact exact.counts core
  · intro id p found
    obtain ⟨task', event, ⟨mem, cas, ma, accessed, shaped⟩, e, record, t, stacktrace, shape⟩ :=
      exact.recorded id p found
    have access : Shaped p.ctx (out.1.tasks.lookup id) :=
      ⟨mem, cas, ma, accessed, (strips id).trans shaped⟩
    refine ⟨task', event, access, _, records id e record, ?_⟩
    split
    · exact ⟨t, stacktrace, access⟩
    · exact ⟨t, stacktrace, shape⟩

/-- The counters of the events after one of them, predicted as `c`, has resumed as `a`. -/
def countsAfter (f : EventCore StackTrace → Count) (c a other : EventCore StackTrace) : Count :=
  if other = a then { capture := (f a).resume + 1, resume := (f a).resume + 1 }
  else if other = c then { capture := (f c).resume, resume := (f c).resume }
  else f other

theorem resumed_counts {h : EventHandler} {e : Event} (known : Known h)
    (one : (cntOf h e.core).capture = (cntOf h e.core).resume + 1) :
    ∃ h', h' = { h with
        stMap := (h.stMap.put e.stacktrace).2
        pcCnt := (resume h.pcCnt { t := e.t, stacktrace := (h.stMap.put e.stacktrace).1
                                   eff := Eff.of e.m }).2 } ∧ Known h' ∧
      ∀ other, cntOf h' other = countsAfter (cntOf h) e.core e.core other := by
  have key : keyOf (h.stMap.put e.stacktrace).2 e.core =
      { t := e.t, stacktrace := (h.stMap.put e.stacktrace).1, eff := Eff.of e.m } :=
    keyOf_put h.stMap e.core
  have zero : cntOf h e.core ≠ ⟨0, 0⟩ := by
    intro none
    rw [none] at one
    cases one
  rw [← key]
  obtain ⟨known', counts⟩ := learnt_counts known e.core
    (fun cnt => { cnt with resume := cnt.capture }) { capture := 0, resume := 1 } (Or.inr zero)
  refine ⟨_, rfl, known', ?_⟩
  intro other
  refine (counts other).trans ?_
  rw [countsAfter]
  by_cases here : other = e.core
  · rw [if_pos here, if_pos here, one]
  · rw [if_neg here, if_neg here, if_neg here]

/-- A wrong prediction takes the capture of the predicted event back and counts the real one. -/
theorem mispredicted_ok {h : EventHandler} (cas : CasPredictor) (id : TaskId) {e : Event}
    {a : EventCore StackTrace} {oldm realm : Modify} (known : Known h) (m : e.m = some oldm)
    (real : getRtMemoryAccess id cas = some realm) (wrong : oldm.loadedValue ≠ realm.loadedValue)
    (loaded : a = { e.core with eff := Eff.of (getRtMemoryAccess id cas) })
    (one : (cntOf h e.core).capture = (cntOf h e.core).resume + 1)
    (others : a ≠ e.core → (cntOf h a).capture = (cntOf h a).resume) :
    ∃ h', resumeEvent id e cas h = .ok h' ∧ Known h' ∧
      (∀ other, cntOf h' other = countsAfter (cntOf h) e.core a other) ∧
      ∀ task, task ≠ id → h'.tasks.lookup task = h.tasks.lookup task := by
  have key : keyOf (h.stMap.put e.stacktrace).2 e.core =
      { t := e.t, stacktrace := (h.stMap.put e.stacktrace).1, eff := Eff.of e.m } :=
    keyOf_put h.stMap e.core
  have inside := IdMap.put_mem e.stacktrace h.stMap
  obtain ⟨known1, kept⟩ := put_counts known e.stacktrace
  have captured : 0 < (cntOf { h with stMap := (h.stMap.put e.stacktrace).2 } e.core).capture := by
    rw [kept, one]
    exact Nat.succ_pos _
  obtain ⟨pcCnt, uncaptured, known2, removed⟩ := uncapture_counts known1 inside captured
  obtain ⟨known3, counts⟩ := entry_counts known2 a (by rw [loaded]; exact inside)
    (fun cnt => { capture := cnt.capture + 1, resume := cnt.capture + 1 })
    { capture := 1, resume := 1 } (Or.inl rfl)
  have newKey : keyOf (h.stMap.put e.stacktrace).2 a =
      { t := e.t, stacktrace := (h.stMap.put e.stacktrace).1, eff := Eff.of realm } := by
    rw [loaded, keyOf, real]
    simp only [Event.core, IdMap.put_put]
  rw [key] at uncaptured
  rw [newKey] at known3 counts
  have ran : resumeEvent id e cas h = .ok
      { tasks := h.tasks.insert id { e with
          cnt := (recapture pcCnt { t := e.t, stacktrace := (h.stMap.put e.stacktrace).1
                                    eff := Eff.of realm }).1.resume
          m := some realm }
        pcCnt := (recapture pcCnt { t := e.t, stacktrace := (h.stMap.put e.stacktrace).1
                                    eff := Eff.of realm }).2
        stMap := (h.stMap.put e.stacktrace).2 } := by
    simp only [resumeEvent, m, real, if_neg wrong]
    rw [← m, uncaptured]
    rfl
  refine ⟨_, ran, known3, ?_, ?_⟩
  · intro other
    refine (counts other).trans ?_
    rw [removed, removed, kept, kept, kept, countsAfter, one]
    by_cases here : other = a
    · rw [if_pos here, if_pos here]
      by_cases again : a = e.core
      · rw [if_pos again, again]
        rfl
      · rw [if_neg again, others again]
    · rw [if_neg here, if_neg here]
      rfl
  · intro task other
    exact AList.lookup_insert_ne other

/-- The resume of a task with the effect of its capture: the predicted event is taken out of the
counters and the loaded one is put in. -/
theorem resumeEvent_ok {h : EventHandler} (cas : CasPredictor) (id : TaskId) {e : Event}
    {c a : EventCore StackTrace} (known : Known h) (predicted : e.core = c)
    (shape : e.m.map Modify.strip = (getRtMemoryAccess id cas).map Modify.strip)
    (loaded : a = { c with eff := Eff.of (getRtMemoryAccess id cas) })
    (one : (cntOf h c).capture = (cntOf h c).resume + 1)
    (others : a ≠ c → (cntOf h a).capture = (cntOf h a).resume) :
    ∃ h', resumeEvent id e cas h = .ok h' ∧ Known h' ∧
      (∀ other, cntOf h' other = countsAfter (cntOf h) c a other) ∧
      ∀ task, task ≠ id → h'.tasks.lookup task = h.tasks.lookup task := by
  subst predicted
  cases m : e.m with
  | none =>
      have real : getRtMemoryAccess id cas = none := by
        rw [m] at shape
        simpa using shape.symm
      obtain rfl : a = e.core := by rw [loaded, real, Event.core, m]
      obtain ⟨h', eq, known', counts⟩ := resumed_counts known one
      refine ⟨h', ?_, known', counts, ?_⟩
      · rw [resumeEvent, eq, m]
      · intro task _
        rw [eq]
  | some oldm =>
      cases real : getRtMemoryAccess id cas with
      | none =>
          rw [m, real] at shape
          cases shape
      | some realm =>
          by_cases same : oldm.loadedValue = realm.loadedValue
          · have effects : Eff.of (getRtMemoryAccess id cas) = Eff.of e.m := by
              apply Eff.of_strip shape.symm
              rw [m, real]
              exact same.symm
            obtain rfl : a = e.core := by rw [loaded, effects, Event.core]
            obtain ⟨h', eq, known', counts⟩ := resumed_counts known one
            refine ⟨h', ?_, known', counts, ?_⟩
            · simp only [resumeEvent, m, real, if_pos same]
              rw [eq, m]
            · intro task _
              rw [eq]
          · exact mispredicted_ok cas id known m real same loaded one others

theorem Exact.resume (exact : Exact w) (allowed : Allowed w (.resume ctx))
    (steady : Steady w (.resume ctx)) (cas : CasPredictor)
    (read : updateTaskFromCtx true w.mem ctx w.cas = .ok cas) :
    ∃ w', step (.resume ctx) w = .ok w' ∧ Exact w' := by
  obtain ⟨p, pending, same⟩ := Option.map_eq_some_iff.mp allowed
  obtain ⟨typed, effects⟩ := steady
  have recorded := exact.recorded ctx.id p pending
  obtain ⟨e, found, t, stacktrace, ⟨mem', cas', ma', read', shape'⟩⟩ := recorded.record
  obtain ⟨ma, accessed, rfl⟩ := updateTaskFromCtx_ok read
  rw [same] at read'
  have predicted : e.core = p.core := by
    rw [found, pending] at effects
    have effect : Eff.of e.m = p.core.eff := Option.some.inj effects
    rw [Event.core, t, stacktrace, effect]
  have event : p.core.t = Transition.new ctx := by
    rw [recorded.event, same]
  have awaited : Awaited w.pending p.core := by
    rw [Awaited, event, show (Transition.new ctx).id = ctx.id from rfl, pending]
    rfl
  have only : ∀ other : EventCore StackTrace, other.t.id = ctx.id → Awaited w.pending other →
      other = p.core := by
    intro other here awaited'
    rw [Awaited, here, pending] at awaited'
    exact (Option.some.inj awaited').symm
  generalize loaded : coreOf ctx p.core.stacktrace (w.cas.record ctx.id ma) = a
  have task : a.t.id = ctx.id := by
    rw [← loaded]
    rfl
  have shape : e.m.map Modify.strip =
      (getRtMemoryAccess ctx.id (w.cas.record ctx.id ma)).map Modify.strip := by
    rw [record_rt, shape']
    exact ctxToModify_strip read' accessed
  have one : (cntOf w.event p.core).capture = (cntOf w.event p.core).resume + 1 := by
    rw [exact.counts p.core, if_pos awaited]
  have others : a ≠ p.core → (cntOf w.event a).capture = (cntOf w.event a).resume := by
    intro differs
    have absent : ¬ Awaited w.pending a := fun awaited' => differs (only a task awaited')
    rw [exact.counts a, if_neg absent]
    rfl
  obtain ⟨h', resumed, known, counts, tasks⟩ := resumeEvent_ok (w.cas.record ctx.id ma) ctx.id
    exact.known predicted shape (by rw [← loaded, coreOf, ← event]) one others
  have ran : step (.resume ctx) w = .ok
      { w with
        cas := w.cas.record ctx.id ma
        event := h'
        pending := w.pending.erase ctx.id
        resumed := a :: w.resumed } := by
    rw [step, read, ok_bind, eventPosthandle, if_neg (by simpa using typed), found]
    simp only [resumed, ok_bind, pending, Option.elim_some, loaded]
  refine ⟨_, ran, known, ?_, ?_⟩
  · intro other
    have gone : other.t.id = ctx.id → ¬ Awaited (w.pending.erase ctx.id) other :=
      fun here both => ((awaited_erase ctx.id other).mp both).1 here
    rw [counts, countsAfter, List.count_cons]
    by_cases here : other = a
    · subst here
      rw [if_pos rfl, exact.counts other, if_neg (gone task)]
      simp
    · rw [if_neg here]
      by_cases old : other = p.core
      · subst old
        have own : p.core.t.id = ctx.id := by rw [event]; rfl
        rw [if_pos rfl, exact.counts p.core, if_neg (gone own)]
        simp [Ne.symm here]
      · have alike : Awaited (w.pending.erase ctx.id) other ↔ Awaited w.pending other := by
          rw [awaited_erase]
          simp only [and_iff_right_iff_imp]
          exact fun awaited' own => old (only other own awaited')
        rw [if_neg old, exact.counts other]
        simp [Ne.symm here, alike]
  · intro id q found'
    obtain ⟨other, found'⟩ := lookup_erase_some.mp found'
    obtain ⟨task', event', access, record⟩ := exact.recorded id q found'
    refine ⟨task', event', ?_, ?_⟩
    · rw [record_tasks, if_neg other]
      exact access
    · rw [tasks id other]
      exact record

theorem Exact.step {m : Move} (exact : Exact w) (allowed : Allowed w m) (steady : Steady w m)
    (ran : step m w = .ok w') : Exact w' := by
  cases m with
  | capture ctx clk stacktrace => exact exact.capture allowed ran
  | update task => exact exact.update ran
  | resume ctx =>
      obtain ⟨cas, read, -⟩ := bind_eq_ok.mp ran
      obtain ⟨w'', ran', exact'⟩ := exact.resume allowed steady cas read
      rw [ran'] at ran
      obtain rfl := Except.ok.inj ran
      exact exact'
  | store mem =>
      obtain rfl := Except.ok.inj ran
      exact ⟨exact.known, exact.counts, fun id p found => by
        obtain ⟨task, event, access, record⟩ := exact.recorded id p found
        exact ⟨task, event, access, record⟩⟩

end Run

section Faults

variable {α β : Type}

def Reads (x : Except Fault α) : Prop :=
  Safe (fun fault => fault = .sizedRead ∨ fault = .valueWidth) (fun _ => True) x

theorem Reads.ok (a : α) : Reads (.ok a : Except Fault α) := trivial

theorem Reads.bind {x : Except Fault α} {f : α → Except Fault β} (first : Reads x)
    (rest : ∀ a, Reads (f a)) : Reads (x >>= f) :=
  Safe.bind first (fun a _ => rest a)

theorem Reads.no_fault {x : Except Fault α} (reads : Reads x) {fault : Fault}
    (size : fault ≠ .sizedRead) (width : fault ≠ .valueWidth) : x ≠ .error fault := by
  rintro rfl
  exact reads.elim size width

theorem reads_sizedRead (mem : Memory) (addr : UInt64) (size : Nat) :
    Reads (sizedRead mem addr size) := by
  apply Reads.bind
  · rw [check]
    split
    · exact Reads.ok ()
    · exact Or.inl rfl
  · exact fun _ => Reads.ok _

theorem reads_getCtxVal (size value : UInt64) : Reads (getCtxVal size value) := by
  unfold getCtxVal
  split
  · exact Reads.ok _
  split
  · exact Reads.ok _
  split
  · exact Reads.ok _
  split
  · exact Reads.ok _
  · exact Or.inr rfl

theorem reads_ctxKind (ctx : Ctx) (p : Payload) : Reads (ctxKind ctx p) := by
  have value := reads_getCtxVal p.size p.val
  unfold ctxKind
  split
  all_goals first
    | exact Reads.ok _
    | exact value.bind fun _ => Reads.ok _
    | exact (reads_getCtxVal p.size p.cmp).bind fun _ => value.bind fun _ => Reads.ok _

theorem reads_ctxReadValue (mem : Memory) (cas : CasPredictor) (ctx : Ctx) (p : Payload) :
    Reads (ctxReadValue mem cas ctx p) := by
  have value := reads_sizedRead mem p.addr p.size.toNat
  unfold ctxReadValue
  split
  all_goals first
    | exact Reads.ok _
    | split
      · exact Reads.ok _
      · exact value.bind fun _ => Reads.ok _

theorem reads_updateTaskFromCtx (mem : Memory) (ctx : Ctx) (cas : CasPredictor) :
    Reads (updateTaskFromCtx true mem ctx cas) := by
  rw [updateTaskFromCtx, if_pos rfl]
  apply Reads.bind
  · unfold ctxToModify
    split
    · exact Reads.ok _
    split
    · exact Reads.ok _
    apply (reads_ctxKind ctx _).bind
    intro kind
    cases kind with
    | none => exact Reads.ok _
    | some kind => exact (reads_ctxReadValue mem cas ctx _).bind fun _ => Reads.ok _
  · exact fun _ => Reads.ok _

theorem reads_refresh (mem : Memory) (cas : CasPredictor) (id : TaskId)
    (table : AList fun _ : TaskId => MemoryAccess) : Reads (refresh mem cas id table) := by
  unfold refresh
  split
  next ma _ =>
    apply Reads.bind
    · unfold update
      split
      · exact Reads.ok _
      split
      · exact Reads.ok _
      apply Reads.bind
      · unfold Modify.reloadValue
        split
        · exact Reads.ok _
        · exact (reads_sizedRead mem _ _).bind fun _ => Reads.ok _
      · exact fun _ => Reads.ok _
    · exact fun _ => Reads.ok _
  next => exact Reads.ok _

theorem reads_updateEvent (mem : Memory) (task : TaskId) (cas : CasPredictor) (h : EventHandler) :
    Reads (updateEvent mem task cas h) := by
  apply Reads.bind
  · apply (reads_refresh mem cas task cas.tasks).bind
    intro tasks
    exact (reads_refresh mem _ task _).bind fun _ => Reads.ok _
  · intro cas
    split
    · exact Reads.ok _
    · exact Reads.ok _

theorem Exact.no_underflow {w : World} {m : Move} (exact : Exact w) (allowed : Allowed w m)
    (steady : Steady w m) : Rinflex.step m w ≠ .error .eventUncapture := by
  cases m with
  | capture ctx clk stacktrace =>
      have reads : Reads (Rinflex.step (.capture ctx clk stacktrace) w) :=
        (reads_updateTaskFromCtx w.mem ctx w.cas).bind fun _ => Reads.ok _
      exact reads.no_fault (by decide) (by decide)
  | update task =>
      have reads : Reads (Rinflex.step (.update task) w) :=
        (reads_updateEvent w.mem task w.cas w.event).bind fun _ => Reads.ok _
      exact reads.no_fault (by decide) (by decide)
  | resume ctx =>
      intro underflow
      rcases bind_eq_error.mp underflow with failed | ⟨cas, read, -⟩
      · exact (reads_updateTaskFromCtx w.mem ctx w.cas).no_fault (by decide) (by decide) failed
      · obtain ⟨w', ran, -⟩ := exact.resume allowed steady cas read
        rw [underflow] at ran
        cases ran
  | store mem =>
      intro underflow
      cases underflow

end Faults

/-- In a run in which no resumed task has had its predicted effect replaced, the counts are those
of the resumed events and no capture count underflows. -/
theorem event_counts_exact (mem : Memory) (w : World)
    (reached : Reachable (system mem Steady) w) :
    (∀ core, (getEventHappenedCnt core w.event).1 = w.resumed.count core) ∧
      ∀ m, (system mem Steady).allowed w m →
        (system mem Steady).step m w ≠ .error .eventUncapture := by
  have exact : Exact w := by
    induction reached with
    | start => exact Exact.start mem Steady
    | step _ both stepped exact => exact exact.step both.1 both.2 stepped
  refine ⟨?_, ?_⟩
  · intro core
    rw [happened_eq, exact.counts core]
  · intro m both
    exact exact.no_underflow both.1 both.2

instance (w : World) (m : Move) : Decidable (Allowed w m) :=
  match m with
  | .capture _ _ _ => inferInstanceAs (Decidable (_ = none))
  | .resume _ => inferInstanceAs (Decidable (_ = some _))
  | .update _ | .store _ => isTrue trivial

instance (w : World) (m : Move) : Decidable (Steady w m) :=
  match m with
  | .resume _ => inferInstanceAs (Decidable (_ ≠ _ ∧ _ = _))
  | .capture _ _ _ | .update _ | .store _ => isTrue trivial

instance (mem : Memory) (condition : World → Move → Prop) [∀ w m, Decidable (condition w m)]
    (w : World) (m : Move) : Decidable ((system mem condition).allowed w m) :=
  inferInstanceAs (Decidable (_ ∧ _))

def cells (v : UInt8) : Memory := fun _ => v

def swapByte : Ctx :=
  { id := 1, typeId := .maCmpxchg, after := false, pc := 4096
    payload := some { addr := 64, size := 1, val := 1, cmp := 0, op := .add } }

def swapCore (eff : Eff) : EventCore StackTrace :=
  { t := Transition.new swapByte, stacktrace := [], eff }

def swapTwice : List Move :=
  [.capture swapByte 1 none, .resume swapByte, .capture swapByte 2 none, .store (cells 1),
    .resume swapByte]

theorem event_counts_swap_twice :
    ∃ w, Reachable (system (cells 0) Steady) w ∧
      w.resumed = [swapCore .casFailure, swapCore .casSuccess] ∧
      (getEventHappenedCnt (swapCore .casFailure) w.event).1 = 1 := by
  have legal : Legal (system (cells 0) Steady) swapTwice (system (cells 0) Steady).start := by
    decide
  obtain ⟨w, ran⟩ := legal.runs
  have seen : (run (system (cells 0) Steady) swapTwice (system (cells 0) Steady).start).map
      World.resumed = .ok [swapCore .casFailure, swapCore .casSuccess] := by decide
  rw [ran] at seen
  have resumed : w.resumed = [swapCore .casFailure, swapCore .casSuccess] := Except.ok.inj seen
  have reached := legal.reachable Reachable.start ran
  refine ⟨w, reached, resumed, ?_⟩
  rw [(event_counts_exact (cells 0) w reached).1, resumed]
  decide

def refreshedTwice : List Move :=
  [.capture swapByte 1 none, .store (cells 1), .update 1, .resume swapByte, .store (cells 0),
    .capture swapByte 2 none, .store (cells 1), .update 1, .resume swapByte]

/-- The second failed swap sets the count of the failures back to zero. -/
theorem refreshed_prediction_miscounts :
    ¬ ∀ (mem : Memory) (w : World), Reachable (system mem fun _ _ => True) w →
      (∀ core, (getEventHappenedCnt core w.event).1 = w.resumed.count core) ∧
        ∀ m, (system mem fun _ _ => True).allowed w m →
          (system mem fun _ _ => True).step m w ≠ .error .eventUncapture := by
  intro exact
  have legal : Legal (system (cells 0) fun _ _ => True) refreshedTwice
      (system (cells 0) fun _ _ => True).start := by decide
  obtain ⟨w, ran⟩ := legal.runs
  have seen : (run (system (cells 0) fun _ _ => True) refreshedTwice
      (system (cells 0) fun _ _ => True).start).map (fun w =>
        ((getEventHappenedCnt (swapCore .casFailure) w.event).1,
          w.resumed.count (swapCore .casFailure))) = .ok (0, 2) := by decide
  rw [ran] at seen
  obtain ⟨count, resumed⟩ := Prod.mk.inj (Except.ok.inj seen)
  have same := (exact (cells 0) w (legal.reachable Reachable.start ran)).1 (swapCore .casFailure)
  rw [count, resumed] at same
  cases same

end Lotto.Rinflex
