import Lotto.RunTrace

namespace Lotto.PlanContract

open Library.FaultRun
open RecorderReplay SequencerReturns SequencerRun HandlerSpecs EngineRun RunTrace

variable {N P : Type} {mods : Modules N P}

structure Obeys (e e' : Decision) : Prop where
  replay : e'.replay = e.replay
  chpt : e.isChpt = true → e'.isChpt = true
  readonly : e.readonly = true → e'.readonly = true ∧ e'.next = e.next
  next : e'.next = e.next ∨ e'.isChpt = true ∧ e'.next ∈ e.tset
  tset : ∀ id ∈ e'.tset, id ∈ e.tset

def Lawful (handler : Handler N) : Prop :=
  ∀ cp e m, ∃ e' n, handler cp e m = .ok (e', n) ∧ Obeys e e'

/-- Runs over the trace `t` of a run with the log `history`. As long as the trace is replayed, the
captures are the same and the handlers decide as before. A concrete plan is followed by its task
or by the blocked task itself, and a task is not resumed after its FINI. -/
def planRules (mods : Modules N P) (t : List (Record (Tidset × P))) (history : List Clock) :
    Rules N P where
  captures w cp handlers prngNext :=
    (∀ handler ∈ handlers, Lawful handler) ∧
      ((answer (w.clk + 1) t).status ≠ .done → ∀ c, history[w.clk]? = some c →
        SamePoint cp c.cp ∧
          ∀ d, dispatched mods handlers prngNext cp w.engine = .ok d → d = c.decision)
  resumes _ capture cp :=
    (capture.plan.next ≠ anyTask →
      cp.id = capture.plan.next ∨ capture.cp.blocking = true ∧ cp.id = capture.cp.id) ∧
    (capture.cp.typeId = eventTaskFini → cp.id ≠ capture.cp.id)
  boots _ := True
  chains _ := True

/-- The traces of previous runs with their logs, from a trace without decisions on. -/
inductive Previous (mods : Modules N P) : List (Record (Tidset × P)) → List Clock → Prop
  | fresh {t : List (Record (Tidset × P))} (wf : WellFormed t)
      (none : ∀ r ∈ t, isDecision r.kind = false) : Previous mods t []
  | run {t left : List (Record (Tidset × P))} {history : List Clock}
      {input : Option (List (Record (Tidset × P)))} {others : N} {w : World N P}
      (previous : Previous mods t history) (source : input = some t ∨ t = [] ∧ input = none)
      (reached : Reaches mods (planRules mods t history) (World.start input (some []) others) w)
      (leaves : Output mods w left) : Previous mods left w.log

structure Settled (c : Clock) : Prop where
  task : c.resumed.id ≠ noTask
  decided : c.cp.blocking = true ∨ c.decision = anyTask ∨ c.decision = c.resumed.id
  fini : c.cp.typeId = eventTaskFini → c.resumed.id ≠ c.cp.id

theorem captureEnd_inv {M Q : Type} {mods : Modules M Q} {cp : CapturePoint} {ry : Replay}
    {d : TaskId} {e : Decision} {s s' : Engine M Q} {p : Plan}
    (ended : captureEnd mods cp ry d e s = .ok (p, s')) :
    ∃ next actions, replayNext (mods.config s.modules) cp ry d = .ok next ∧
      planActions cp next e = .ok actions ∧ p = preparePlan cp e d next actions s.seq.clk := by
  obtain ⟨next, replayed, ended⟩ := bind_eq_ok.mp ended
  obtain ⟨actions, planned, ended⟩ := bind_eq_ok.mp ended
  obtain ⟨_, _, ended⟩ := bind_eq_ok.mp ended
  obtain ⟨_, _, ended⟩ := bind_eq_ok.mp ended
  cases ended
  exact ⟨next, actions, replayed, planned, rfl⟩

/-- Without FORCE records the plan is the decision, unless a blocking capture or a decision for
any task was overridden by the trace. -/
theorem replayNext_decided {config : SequencerConfig} {cp : CapturePoint} {ry : Replay}
    {d next : TaskId} (free : ry.status ≠ .force)
    (replayed : replayNext config cp ry d = .ok next) :
    cp.blocking = true ∨ d = anyTask ∨ next = d := by
  cases status : ry.status with
  | load =>
      simp only [replayNext, status] at replayed
      obtain ⟨_, passed, loaded⟩ := bind_eq_ok.mp replayed
      cases loaded
      rw [check_ok_iff] at passed
      simp only [Bool.or_eq_true, beq_iff_eq] at passed
      rcases passed with (any | same) | blocking
      · exact Or.inr (Or.inl any)
      · exact Or.inr (Or.inr same.symm)
      · exact Or.inl blocking
  | force => exact absurd status free
  | done =>
      simp only [replayNext, status] at replayed
      cases replayed
      exact Or.inr (Or.inr rfl)
  | cont =>
      simp only [replayNext, status] at replayed
      cases blocking : cp.blocking with
      | true => exact Or.inl rfl
      | false =>
          simp only [blocking, Bool.and_false, Bool.false_eq_true, if_false] at replayed
          cases replayed
          exact Or.inr (Or.inr rfl)

theorem answer_not_force {t : List (Record P)} (noForce : NoForce t) (clk : Nat) :
    (answer clk t).status ≠ .force := by
  cases found : t.find? (decides clk) with
  | none =>
      simp only [answer, found]
      split <;> simp
  | some r =>
      have now := List.find?_some found
      have kind : r.kind = .recordSched := by
        have other := noForce r (List.mem_of_find?_eq_some found)
        simpa [decides, isDecision, other] using (Bool.and_eq_true_iff.mp now).1
      simp [answer, found, kind]

theorem answer_load {t : List (Record P)} {clk : Nat} (load : (answer clk t).status = .load) :
    ∃ r ∈ t, r.kind = .recordSched ∧ r.clk = clk ∧ (answer clk t).id = r.id := by
  cases found : t.find? (decides clk) with
  | none =>
      simp only [answer, found] at load
      split at load <;> simp at load
  | some r =>
      have now := List.find?_some found
      simp only [decides, Bool.and_eq_true, beq_iff_eq] at now
      have kind : r.kind = .recordSched := by
        by_contra other
        simp [answer, found, other] at load
      exact ⟨r, List.mem_of_find?_eq_some found, kind, now.2, by simp [answer, found]⟩

section History

variable {t rest : List (Record (Tidset × P))} {history : List Clock} {w : World N P}

def LogSettled (w : World N P) : Prop :=
  (∀ c ∈ w.log, Settled c) ∧
    ∀ c, w.running = some c → c.cp.blocking = true ∨ c.decision = anyTask ∨ c.plan.next = c.decision

theorem logSettled_move (noForce : NoForce t) {w' : World N P}
    (move : Move mods (planRules mods t history) t rest w w') (settled : LogSettled w) :
    LogSettled w' := by
  cases move with
  | quiet modules recorder running log =>
      rw [LogSettled, log, running]
      exact settled
  | @capture cp handlers prngNext d p e s idle valid admitted decided first opened unmarshalled second
      finished running log =>
      refine ⟨by rw [log]; exact settled.1, ?_⟩
      intro c current
      rw [running] at current
      cases current
      obtain ⟨_, _, second⟩ := bind_eq_ok.mp second
      obtain ⟨⟨d', e', m⟩, _, second⟩ := bind_eq_ok.mp second
      obtain ⟨⟨p', s'⟩, ended, second⟩ := bind_eq_ok.mp second
      cases second
      obtain ⟨next, actions, replayed, _, rfl⟩ := captureEnd_inv ended
      exact replayNext_decided (answer_not_force noForce _) replayed
  | @resume capture cp chain running task admitted published handled modules output stopped log =>
      rw [LogSettled, log, stopped]
      refine ⟨?_, by simp⟩
      intro c member
      rcases List.mem_append.mp member with old | new
      · exact settled.1 c old
      · rw [List.mem_singleton] at new
        subst new
        refine ⟨task, ?_, admitted.2⟩
        rcases settled.2 capture running with blocking | any | planned
        · exact Or.inl blocking
        · exact Or.inr (Or.inl any)
        · by_cases any : capture.plan.next = anyTask
          · exact Or.inr (Or.inl (planned.symm.trans any))
          · rcases admitted.1 any with followed | ⟨blocking, _⟩
            · exact Or.inr (Or.inr (planned.symm.trans followed.symm))
            · exact Or.inl blocking

structure Consistent (history : List Clock) (t : List (Record (Tidset × P))) : Prop where
  wf : WellFormed t
  noForce : NoForce t
  sched : ∀ r ∈ t, r.kind = .recordSched →
    ∃ c, history[r.clk - 1]? = some c ∧ r.id = c.resumed.id ∧ Settled c

theorem Previous.consistent (previous : Previous mods t history) : Consistent history t := by
  induction previous with
  | @fresh t wf none =>
      refine ⟨wf, ?_, ?_⟩
      · intro r member kind
        simpa [isDecision, kind] using none r member
      · intro r member kind
        simpa [isDecision, kind] using none r member
  | @run t left history input others w _ source reached leaves ih =>
      have start := start_inv ih.wf ih.noForce source true others
      obtain ⟨rest, inv⟩ := reaches_inv ih.wf start reached
      obtain ⟨out, trace⟩ := reaches_trace ih.wf ih.noForce source reached
      obtain ⟨traceOf, _⟩ := trace.output_traceOf inv leaves
      have settled : LogSettled w := by
        refine reaches_rule ih.wf start ?_ ?_ reached
        · exact ⟨by simp [World.start], by simp [World.start]⟩
        · intro w w' rest rest' _ _ move
          exact logSettled_move ih.noForce move
      refine ⟨traceOf.wf, traceOf.noForce, ?_⟩
      intro r member kind
      obtain ⟨c, found, id, _⟩ := traceOf.sched r member kind
      exact ⟨c, found, id, settled.1 c (List.mem_of_getElem? found)⟩

end History

theorem obeys_refl (e : Decision) : Obeys e e :=
  ⟨rfl, fun chpt => chpt, fun readonly => ⟨readonly, rfl⟩, Or.inl rfl, fun _ member => member⟩

theorem obeys_trans {a b c : Decision} (first : Obeys a b) (second : Obeys b c) : Obeys a c where
  replay := second.replay.trans first.replay
  chpt := fun chpt => second.chpt (first.chpt chpt)
  readonly := by
    intro readonly
    obtain ⟨still, same⟩ := first.readonly readonly
    obtain ⟨last, again⟩ := second.readonly still
    exact ⟨last, again.trans same⟩
  next := by
    rcases second.next with same | ⟨chpt, member⟩
    · rcases first.next with before | ⟨chpt, member⟩
      · exact Or.inl (same.trans before)
      · exact Or.inr ⟨second.chpt chpt, by rw [same]; exact member⟩
    · exact Or.inr ⟨chpt, first.tset _ member⟩
  tset := fun id member => first.tset id (second.tset id member)

theorem runHandlers_lawful (handlers : List (Handler N))
    (lawful : ∀ handler ∈ handlers, Lawful handler) (cp : CapturePoint) (e : Decision)
    (m : ModuleState N) : ∃ e' m', runHandlers handlers cp e m = .ok (e', m') ∧ Obeys e e' := by
  induction handlers generalizing e m with
  | nil => exact ⟨e, m, rfl, obeys_refl e⟩
  | cons handler handlers ih =>
      obtain ⟨e₁, n, handled, obeys⟩ := lawful handler List.mem_cons_self cp e m
      obtain ⟨e₂, m₂, run, later⟩ :=
        ih (fun other member => lawful other (List.mem_cons_of_mem _ member)) e₁
          { m with others := n }
      refine ⟨e₂, m₂, ?_, obeys_trans obeys later⟩
      rw [runHandlers_cons, handled, ok_bind]
      exact run

/-- The end of the dispatch: the task is the current one, the one the handlers set, any task, or
a member of the task set. -/
theorem selectNext_spec (prngNext : N → UInt64 × N) (cp : CapturePoint) {e : Decision}
    (m : ModuleState N) (calm : e.isChpt = false → e.next = noTask) :
    ∃ d e' m', selectNext (prngRange prngNext) cp e m = .ok (d, e', m') ∧
      e'.replay = e.replay ∧
      (e.isChpt = false ∧ d = cp.id ∨
        e.isChpt = true ∧ (e.next ≠ noTask ∧ d = e.next ∨
          e.next = noTask ∧ (d = anyTask ∨ d ∈ e.tset))) := by
  cases chpt : e.isChpt with
  | false => exact ⟨cp.id, e, m, by simp [selectNext, chpt, calm chpt], rfl, Or.inl ⟨rfl, rfl⟩⟩
  | true =>
      by_cases next : e.next = noTask
      · rcases Nat.eq_zero_or_pos e.tset.size with empty | some
        · exact ⟨anyTask, e, m, by simp [selectNext, chpt, next, empty], rfl,
            Or.inr ⟨rfl, Or.inr ⟨next, Or.inl rfl⟩⟩⟩
        · have drawn : (prngNext m.others).1.toNat % e.tset.size < e.tset.size :=
            Nat.mod_lt _ some
          have size : e.tset.size ≠ 0 := Nat.ne_of_gt some
          have reduced : ∀ selector, e.selector = selector →
              ∃ d e' m', selectNext (prngRange prngNext) cp e m = .ok (d, e', m') ∧
                e'.replay = e.replay ∧ d ∈ e.tset := by
            intro selector chosen
            rw [selectNext, if_neg (by simp [chpt]), if_neg (by simp [next]), if_neg size, chosen]
            cases selector with
            | undefined => exact ⟨_, _, _, rfl, rfl, Tidset.get_mem drawn⟩
            | random => exact ⟨_, _, _, rfl, rfl, Tidset.get_mem drawn⟩
            | first => exact ⟨_, _, _, rfl, rfl, Tidset.get_mem some⟩
          obtain ⟨d, e', m', run, replay, member⟩ := reduced _ rfl
          exact ⟨d, e', m', run, replay, Or.inr ⟨rfl, Or.inr ⟨next, Or.inr member⟩⟩⟩
      · exact ⟨e.next, e, m, by simp [selectNext, chpt, next], rfl,
          Or.inr ⟨rfl, Or.inl ⟨next, rfl⟩⟩⟩

structure Selected (cp : CapturePoint) (d : TaskId) : Prop where
  task : d ≠ noTask
  create : cp.typeId = eventTaskCreate → d = anyTask
  apart : cp.typeId = eventTaskFini ∨ blocks cp = true → d ≠ cp.id

theorem dispatch_selected {t rest : List (Record (Tidset × P))} {w : World N P} {cp : CapturePoint}
    (valid : Valid w cp) {e : Decision} {s : Engine (ModuleState N) (Tidset × P)}
    (opened : Opened t w rest cp e s) {handlers : List (Handler N)}
    (lawful : ∀ handler ∈ handlers, Lawful handler) (prngNext : N → UInt64 × N) :
    ∃ e₁ m₁ d e₂ m₂, runHandlers handlers cp e s.modules = .ok (e₁, m₁) ∧
      selectNext (prngRange prngNext) cp e₁ m₁ = .ok (d, e₂, m₂) ∧ e₂.replay = e.replay ∧
      Selected cp d := by
  obtain ⟨e₁, m₁, handled, obeys⟩ := runHandlers_lawful handlers lawful cp e s.modules
  have plain : e₁.isChpt = false → e.isChpt = false := by
    intro off
    by_contra on
    rw [Bool.not_eq_false] at on
    simp [obeys.chpt on] at off
  have calm : e₁.isChpt = false → e₁.next = noTask := by
    intro off
    have types := mt opened.chpt.mpr (by simp [plain off])
    push Not at types
    rcases obeys.next with same | ⟨chpt, _⟩
    · rw [same]
      exact opened.undecided types.1 types.2.1
    · simp [chpt] at off
  obtain ⟨d, e₂, m₂, selected, replay, cases⟩ := selectNext_spec prngNext cp m₁ calm
  refine ⟨e₁, m₁, d, e₂, m₂, handled, selected, replay.trans obeys.replay, ?_⟩
  have fromSet : ∀ id ∈ e.tset, cp.typeId ≠ eventTaskCreate → Selected cp id := by
    intro id member notCreate
    refine ⟨(opened.tset id member).1, fun isCreate => absurd isCreate notCreate, ?_⟩
    rintro apart rfl
    exact opened.apart apart member
  by_cases isCreate : cp.typeId = eventTaskCreate
  · -- a readonly decision for any task
    obtain ⟨any, readonly⟩ := opened.create isCreate
    have next : e₁.next = anyTask := (obeys.readonly readonly).2.trans any
    have chpt : e₁.isChpt = true := obeys.chpt (opened.chpt.mpr (Or.inl isCreate))
    have decided : d = anyTask := by
      rcases cases with ⟨off, _⟩ | ⟨_, ⟨_, same⟩ | ⟨none, _⟩⟩
      · simp [chpt] at off
      · exact same.trans next
      · rw [next] at none
        exact absurd none (by decide)
    refine ⟨?_, fun _ => decided, ?_⟩
    · rw [decided]
      decide
    · intro _
      rw [decided]
      exact valid.real.symm
  · rcases cases with ⟨off, rfl⟩ | ⟨_, ⟨some, rfl⟩ | ⟨_, rfl | member⟩⟩
    · refine ⟨valid.task, fun create => absurd create isCreate, ?_⟩
      rintro (isFini | blocking)
      · exact absurd (opened.chpt.mpr (Or.inr (Or.inr (Or.inl isFini)))) (by simp [plain off])
      · exact absurd (opened.chpt.mpr (Or.inr (Or.inr (Or.inr blocking)))) (by simp [plain off])
    · rcases obeys.next with same | ⟨_, member⟩
      · refine ⟨some, fun create => absurd create isCreate, ?_⟩
        intro apart
        by_cases isInit : cp.typeId = eventTaskInit
        · rcases apart with isFini | blocking
          · rw [isInit] at isFini
            exact absurd isFini (by decide)
          · simp [blocks, (valid.init isInit).1] at blocking
        · rw [same] at some
          exact absurd (opened.undecided isCreate isInit) some
      · exact fromSet _ member isCreate
    · refine ⟨by decide, fun create => absurd create isCreate, ?_⟩
      intro _
      exact valid.real.symm
    · exact fromSet d (obeys.tset d member) isCreate

def actionSet (cp : CapturePoint) : UInt32 :=
  if cp.typeId = eventTaskCreate then actionBlock ||| actionYield ||| actionResume
  else if cp.typeId = eventTaskInit then actionWake ||| actionYield ||| actionResume
  else if cp.typeId = eventTaskFini then actionWake
  else if cp.blocking then
    actionWake ||| actionBlock ||| actionReturn ||| actionYield ||| actionResume
  else actionWake ||| actionYield ||| actionResume

theorem actionsFor_set {cp : CapturePoint} {next : TaskId} {e : Decision} {actions : UInt32}
    (planned : actionsFor cp next e = .ok actions) : actions = actionSet cp := by
  unfold actionsFor at planned
  unfold actionSet
  split_ifs at planned ⊢
  all_goals
    first
    | (obtain ⟨_, _, made⟩ := bind_eq_ok.mp planned; exact (Except.ok.inj made).symm)
    | exact (Except.ok.inj planned).symm

theorem planActions_set {cp : CapturePoint} {next : TaskId} {e : Decision} {actions : UInt32}
    (planned : planActions cp next e = .ok actions) :
    actions = actionShutdown ∨ actions = actionSet cp ∨
      actions = actionSet cp ||| actionShutdown := by
  unfold planActions at planned
  split_ifs at planned
  · exact Or.inl (Except.ok.inj planned).symm
  · obtain ⟨plain, made, joined⟩ := bind_eq_ok.mp planned
    rw [actionsFor_set made] at joined
    exact Or.inr (Or.inr (Except.ok.inj joined).symm)
  · exact Or.inr (Or.inl (actionsFor_set planned))

theorem pureActions_set (cp : CapturePoint) :
    pureActions (actionSet cp) = actionSet cp ∧
      pureActions (actionSet cp ||| actionShutdown) = actionSet cp := by
  unfold actionSet
  split_ifs <;> decide

theorem checkActions_set {cp : CapturePoint} {p : Plan}
    (fini : cp.typeId = eventTaskFini → p.next ≠ cp.id)
    (blocking : blocks cp = true → p.replayType = .off → p.next ≠ cp.id) :
    checkActions cp p (actionSet cp) = .ok () := by
  unfold checkActions actionSet
  by_cases isCreate : cp.typeId = eventTaskCreate
  · simp only [isCreate, if_true]
    rfl
  by_cases isInit : cp.typeId = eventTaskInit
  · simp only [isInit, eventTaskInit, eventTaskCreate]
    rfl
  by_cases isFini : cp.typeId = eventTaskFini
  · have other : (p.next != cp.id) = true := by simpa using fini isFini
    simp only [isFini, other]
    rfl
  by_cases isBlocking : cp.blocking = true
  · have blocked : blocks cp = true := by simp [blocks, isBlocking, isCreate]
    have apart : (p.replayType != .off || p.next != cp.id) = true := by
      rw [Bool.or_eq_true, bne_iff_ne, bne_iff_ne]
      exact or_iff_not_imp_left.mpr fun off => blocking blocked (not_not.mp off)
    simp only [isCreate, isInit, isFini, isBlocking, if_true, if_false, apart]
    rfl
  · have running : (cp.typeId != eventTaskFini) = true := by simpa using isFini
    simp only [isCreate, isInit, isFini, isBlocking, if_false, running]
    rfl

/-- A plan passes `_check_plan` if a finalising task does not wake itself and a blocking one does
not either outside a replay. -/
theorem checkPlan_prepared {cp : CapturePoint} {e : Decision} {d next : TaskId} {actions : UInt32}
    {clk : Nat} (planned : planActions cp next e = .ok actions) (task : next ≠ noTask)
    (fini : cp.typeId = eventTaskFini → next ≠ cp.id)
    (blocking : blocks cp = true → e.replay = false → next ≠ cp.id) :
    checkPlan cp (preparePlan cp e d next actions clk) = .ok () := by
  have someTask : (next != noTask) = true := by simpa using task
  have slack : (!(cp.blocking && !e.replay) || cp.blocking) = true := by
    cases cp.blocking <;> simp
  have pure : pureActions actions = actionShutdown ∨ pureActions actions = actionSet cp := by
    rcases planActions_set planned with rfl | rfl | rfl
    · exact Or.inl (by decide)
    · exact Or.inr (pureActions_set cp).1
    · exact Or.inr (pureActions_set cp).2
  have passes : checkPlan cp (preparePlan cp e d next actions clk) =
      checkActions cp (preparePlan cp e d next actions clk) (pureActions actions) := by
    simp only [checkPlan, preparePlan, someTask, slack, check_true, ok_bind]
  rw [passes]
  rcases pure with shutdown | set
  · rw [shutdown]
    rfl
  · rw [set]
    refine checkActions_set fini ?_
    intro blocked off
    apply blocking blocked
    cases replay : e.replay with
    | false => rfl
    | true =>
        by_cases any : d = anyTask <;> simp [preparePlan, replay, any] at off

/-- In every reachable state of a run that records, or replays the trace of a previous run with
the same decisions, every capture returns a plan that passes `_check_plan`. -/
theorem plan_satisfies_contract (mods : Modules N P)
    (granularities : ∀ n, isGranularities (mods.config n).gran = true)
    {t : List (Record (Tidset × P))} {history : List Clock} (previous : Previous mods t history)
    {input : Option (List (Record (Tidset × P)))} (source : input = some t ∨ t = [] ∧ input = none)
    (recording : Bool) (others : N) {w : World N P}
    (reached : Reaches mods (planRules mods t history)
      (World.start input (if recording then some [] else none) others) w)
    {cp : CapturePoint} (valid : Valid w cp) {handlers : List (Handler N)}
    {prngNext : N → UInt64 × N}
    (admitted : (planRules mods t history).captures w cp handlers prngNext) :
    ∃ p engine, sequencerCapture (withBlocking mods) (captureDispatch handlers prngNext) cp w.engine =
        .ok (p, engine) ∧ checkPlan cp p = .ok () := by
  have consistent := previous.consistent
  have start := start_inv consistent.wf consistent.noForce source recording others
  obtain ⟨rest, inv⟩ := reaches_inv consistent.wf start reached
  obtain ⟨e, s, first, opened, _⟩ := captureFirst_ok mods consistent.wf inv valid
  obtain ⟨e₁, m₁, d, e₂, m₂, handled, selected, replay, decision⟩ :=
    dispatch_selected valid opened admitted.1 prngNext
  have captures := sequencerCapture_eq first handlers prngNext
  have decided : dispatched mods handlers prngNext cp w.engine = .ok d := by
    rw [captures.2, handled, ok_bind, selected]
    rfl
  let config := mods.config m₂.others
  let ry := answer (w.clk + 1) t
  have replays : e₂.replay = (ry.status != .done) := replay.trans opened.replay
  -- what a record of the current clock says about the decision
  have recorded : ry.status = .load → ry.id ≠ noTask ∧
      (d = anyTask ∨ d = ry.id ∨ cp.blocking = true) ∧
      (cp.typeId = eventTaskFini → ry.id ≠ cp.id) := by
    intro load
    obtain ⟨r, member, kind, now, id⟩ := answer_load load
    obtain ⟨c, found, resumed, settled⟩ := consistent.sched r member kind
    rw [now, Nat.add_sub_cancel] at found
    have going : (answer (w.clk + 1) t).status ≠ .done := by simp [ry, load]
    obtain ⟨same, decides⟩ := admitted.2 going c found
    have resumedId : ry.id = c.resumed.id := id.trans resumed
    rw [resumedId, decides d decided, same.blocking, same.typeId, same.id]
    refine ⟨settled.task, ?_, settled.fini⟩
    rcases settled.decided with blocking | any | chosen
    · exact Or.inr (Or.inr blocking)
    · exact Or.inl any
    · exact Or.inr (Or.inl chosen)
  have notForce : ry.status ≠ .force := answer_not_force consistent.noForce _
  have agrees : LoadAgrees cp ry d := fun load => (recorded load).2.1
  have planned : plannedNext config cp ry d ≠ noTask := by
    cases status : ry.status with
    | load =>
        simp only [plannedNext, status]
        exact (recorded status).1
    | force => exact absurd status notForce
    | done =>
        simp only [plannedNext, status]
        exact decision.task
    | cont =>
        simp only [plannedNext, status]
        split
        · exact valid.task
        · exact decision.task
  have create : cp.typeId = eventTaskCreate →
      e₂.replay = true ∨ plannedNext config cp ry d = anyTask := by
    intro isCreate
    cases status : ry.status with
    | done =>
        right
        simp only [plannedNext, status]
        exact decision.create isCreate
    | load => exact Or.inl (by simp [replays, status])
    | force => exact Or.inl (by simp [replays, status])
    | cont => exact Or.inl (by simp [replays, status])
  have configured : (withBlocking mods).config m₂ = config := rfl
  obtain ⟨p, s', ended⟩ : ∃ p s',
      captureEnd (withBlocking mods) cp ry d e₂ { s with modules := m₂ } = .ok (p, s') := by
    obtain ⟨actions, ended, _⟩ := captureEnd_ok (e := e₂) (s := { s with modules := m₂ })
      (withBlocking mods) configured (granularities _) agrees planned create
    exact ⟨_, _, ended⟩
  have second := captureRest_eq handled selected ended
  refine ⟨p, s', by rw [captures.1, second]; rfl, ?_⟩
  obtain ⟨next, actions', replayed, actionsPlanned, shape⟩ := captureEnd_inv ended
  have sameNext : next = plannedNext config cp ry d :=
    Except.ok.inj (replayed.symm.trans (replayNext_planned agrees))
  rw [shape, sameNext]
  rw [sameNext] at actionsPlanned
  refine checkPlan_prepared actionsPlanned planned ?_ ?_
  · intro isFini
    cases status : ry.status with
    | load =>
        simp only [plannedNext, status]
        exact (recorded status).2.2 isFini
    | force => exact absurd status notForce
    | done =>
        simp only [plannedNext, status]
        exact decision.apart (Or.inl isFini)
    | cont =>
        simp only [plannedNext, status, (valid.fini isFini).1, Bool.and_false, Bool.false_eq_true,
          if_false]
        exact decision.apart (Or.inl isFini)
  · intro blocking recordingNow
    rw [replays] at recordingNow
    have status : ry.status = .done := by simpa using recordingNow
    simp only [plannedNext, status]
    exact decision.apart (Or.inr blocking)

def abortHandler : Handler Unit := fun _ e m => .ok ({ e with reason := .abort }, m.others)

def blockingPoint (id : TaskId) : CapturePoint :=
  { plainPoint id 5 0 with blocking := true }

theorem plan_satisfies_contract_blocking :
    ∃ p engine, sequencerCapture (withBlocking noModules) (captureDispatch [abortHandler]
        (fun n => (0, n))) (blockingPoint 2) (World.start none (some []) ()).engine =
      .ok (p, engine) ∧ checkPlan (blockingPoint 2) p = .ok () := by
  have lawful : Lawful abortHandler := fun _ e m =>
    ⟨_, _, rfl, rfl, fun chpt => chpt, fun readonly => ⟨readonly, rfl⟩, Or.inl rfl,
      fun _ member => member⟩
  have valid : Valid (World.start none (some []) () : World Unit Unit) (blockingPoint 2) :=
    ⟨by decide, by decide, by simp [World.start], by decide, by decide⟩
  refine plan_satisfies_contract noModules (fun _ => rfl)
    (Previous.fresh ⟨List.Pairwise.nil, by simp⟩ (by simp)) (Or.inr ⟨rfl, rfl⟩) true ()
    Relation.ReflTransGen.refl valid ⟨?_, ?_⟩
  · intro handler member
    rw [List.mem_singleton] at member
    subst member
    exact lawful
  · intro _ c found
    simp at found

end Lotto.PlanContract
