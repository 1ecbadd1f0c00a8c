import Mathlib.Logic.Relation
import Lotto.HandlerSpecs
import Lotto.SequencerRun

namespace Lotto.EngineRun

open Library.FaultRun
open RecorderReplay SequencerReturns SequencerRun HandlerSpecs

variable {N P : Type}

/-- A capture: the task that the dispatch decided for, the plan, the tasks that the blocking
handler took out of the task set and the returned tasks it left in its PERSISTENT state. -/
structure Captured where
  cp : CapturePoint
  decision : TaskId
  plan : Plan
  blocked : Tidset
  returned : Tidset

structure Clock extends Captured where
  resumed : CapturePoint

/-- The engine and the tasks around it: `awaiting` are the tasks inside a blocking call. -/
structure World (N P : Type) where
  engine : Engine (ModuleState N) (Tidset × P)
  awaiting : List TaskId
  running : Option Captured
  log : List Clock

def World.start (input output : Option (List (Record (Tidset × P)))) (others : N) : World N P :=
  { engine := engineInit input output (moduleInit others), awaiting := [], running := none, log := [] }

def World.clk (w : World N P) : Nat := w.log.length + w.running.isSome.toNat

def World.returns (w : World N P) : List TaskId :=
  w.engine.seq.unblocked.tasks ++ w.engine.seq.pendingUnblocked.tasks

/-- The capture points that a task can deliver: it is not inside a blocking call, INIT and FINI
do not block, INIT is the first event of its task and FINI comes from a registered one. -/
structure Valid (w : World N P) (cp : CapturePoint) : Prop where
  task : cp.id ≠ noTask
  real : cp.id ≠ anyTask
  back : cp.id ∉ w.awaiting
  init : cp.typeId = eventTaskInit →
    cp.blocking = false ∧ cp.id ∉ w.engine.modules.task.registered
  fini : cp.typeId = eventTaskFini →
    cp.blocking = false ∧ cp.id ∈ w.engine.modules.task.registered

def dispatched (mods : Modules N P) (handlers : List (Handler N)) (prngNext : N → UInt64 × N)
    (cp : CapturePoint) (s : Engine (ModuleState N) (Tidset × P)) : Except Fault TaskId := do
  let (_, e, s) ← captureBegin (withBlocking mods) cp s
  let (next, _, _) ← captureDispatch handlers prngNext cp e s.modules
  .ok next

def resumeChain (chain : CapturePoint → ModuleState N → Except Fault N) (cp : CapturePoint)
    (m : ModuleState N) : Except Fault (ModuleState N) := do
  let others ← chain cp m
  .ok { m with others }

/-- What a family of runs admits beyond `Valid`: the handlers of a capture, the resumed capture
points, the main task's first resume and the subscribers of CHAIN_SEQUENCER_RESUME. -/
structure Rules (N P : Type) where
  captures : World N P → CapturePoint → List (Handler N) → (N → UInt64 × N) → Prop
  resumes : World N P → Captured → CapturePoint → Prop
  boots : CapturePoint → Prop
  chains : (CapturePoint → ModuleState N → Except Fault N) → Prop

def captured (cp : CapturePoint) (decision : TaskId) (plan : Plan)
    (s : Engine (ModuleState N) (Tidset × P)) : Captured :=
  { cp, decision, plan, blocked := heldBack s.modules.blocking, returned := s.modules.returned }

/-- A task returns from a blocking call, captures or is resumed. Every capture is resumed before
the next one, and the main task may be resumed before the first. -/
inductive Step (mods : Modules N P) (rules : Rules N P) : World N P → World N P → Prop
  | ret {w : World N P} {cp : CapturePoint} {engine : Engine (ModuleState N) (Tidset × P)}
      (inside : cp.id ∈ w.awaiting) (returned : sequencerReturn cp w.engine = .ok engine) :
      Step mods rules w { w with engine, awaiting := w.awaiting.filter (· != cp.id) }
  | boot {w : World N P} {cp : CapturePoint} {chain : CapturePoint → ModuleState N → Except Fault N}
      {engine : Engine (ModuleState N) (Tidset × P)} (idle : w.running = none) (first : w.log = [])
      (admitted : rules.boots cp) (published : rules.chains chain)
      (resumed : sequencerResume (withBlocking mods) (resumeChain chain) cp w.engine = .ok engine) :
      Step mods rules w { w with engine }
  | capture {w : World N P} {cp : CapturePoint} {handlers : List (Handler N)}
      {prngNext : N → UInt64 × N} {decision : TaskId} {plan : Plan}
      {engine : Engine (ModuleState N) (Tidset × P)} (idle : w.running = none) (valid : Valid w cp)
      (admitted : rules.captures w cp handlers prngNext)
      (decided : dispatched mods handlers prngNext cp w.engine = .ok decision)
      (run : sequencerCapture (withBlocking mods) (captureDispatch handlers prngNext) cp w.engine =
        .ok (plan, engine)) :
      Step mods rules w
        { engine
          awaiting := if blocks cp then cp.id :: w.awaiting else w.awaiting
          running := some (captured cp decision plan engine)
          log := w.log }
  | resume {w : World N P} {capture : Captured} {cp : CapturePoint}
      {chain : CapturePoint → ModuleState N → Except Fault N}
      {engine : Engine (ModuleState N) (Tidset × P)} (running : w.running = some capture)
      (task : cp.id ≠ noTask) (admitted : rules.resumes w capture cp)
      (published : rules.chains chain)
      (resumed : sequencerResume (withBlocking mods) (resumeChain chain) cp w.engine = .ok engine) :
      Step mods rules w
        { w with engine, running := none, log := w.log ++ [{ capture with resumed := cp }] }

def Reaches (mods : Modules N P) (rules : Rules N P) : World N P → World N P → Prop :=
  Relation.ReflTransGen (Step mods rules)

instance (w : World N P) (cp : CapturePoint) : Decidable (Valid w cp) :=
  decidable_of_iff (cp.id ≠ noTask ∧ cp.id ≠ anyTask ∧ cp.id ∉ w.awaiting ∧
      (cp.typeId = eventTaskInit →
        cp.blocking = false ∧ cp.id ∉ w.engine.modules.task.registered) ∧
      (cp.typeId = eventTaskFini →
        cp.blocking = false ∧ cp.id ∈ w.engine.modules.task.registered))
    ⟨fun ⟨task, real, back, init, fini⟩ => ⟨task, real, back, init, fini⟩,
      fun valid => ⟨valid.task, valid.real, valid.back, valid.init, valid.fini⟩⟩

inductive Act (N : Type) where
  | ret (cp : CapturePoint)
  | capture (cp : CapturePoint) (handlers : List (Handler N))
  | resume (cp : CapturePoint)

def act (mods : Modules N P) (prngNext : N → UInt64 × N)
    (chain : CapturePoint → ModuleState N → Except Fault N)
    (admits : World N P → CapturePoint → Bool) (w : World N P) : Act N → Option (World N P)
  | .ret cp =>
      match decide (cp.id ∈ w.awaiting), sequencerReturn cp w.engine with
      | true, .ok engine => some { w with engine, awaiting := w.awaiting.filter (· != cp.id) }
      | _, _ => none
  | .capture cp handlers =>
      match w.running.isNone && decide (Valid w cp) && admits w cp,
        dispatched mods handlers prngNext cp w.engine,
        sequencerCapture (withBlocking mods) (captureDispatch handlers prngNext) cp w.engine with
      | true, .ok decision, .ok (plan, engine) => some
          { engine
            awaiting := if blocks cp then cp.id :: w.awaiting else w.awaiting
            running := some (captured cp decision plan engine)
            log := w.log }
      | _, _, _ => none
  | .resume cp =>
      match w.running, cp.id != noTask,
        sequencerResume (withBlocking mods) (resumeChain chain) cp w.engine with
      | some capture, true, .ok engine => some
          { w with engine, running := none, log := w.log ++ [{ capture with resumed := cp }] }
      | _, _, _ => none

def play (mods : Modules N P) (prngNext : N → UInt64 × N)
    (chain : CapturePoint → ModuleState N → Except Fault N)
    (admits : World N P → CapturePoint → Bool) (acts : List (Act N)) (w : World N P) :
    Option (World N P) :=
  acts.foldlM (act mods prngNext chain admits) w

def Act.handlers : Act N → List (Handler N)
  | .capture _ handlers => handlers
  | _ => []

section Play

variable {mods : Modules N P} {rules : Rules N P} {prngNext : N → UInt64 × N}
  {chain : CapturePoint → ModuleState N → Except Fault N}
  {admits : World N P → CapturePoint → Bool} (lawful : Handler N → Prop)

theorem act_step
    (captures : ∀ w cp handlers, admits w cp = true → (∀ handler ∈ handlers, lawful handler) →
      rules.captures w cp handlers prngNext)
    (resumes : ∀ w capture cp, rules.resumes w capture cp) (published : rules.chains chain)
    {w w' : World N P} {a : Act N}
    (obey : ∀ handler ∈ a.handlers, lawful handler)
    (acted : act mods prngNext chain admits w a = some w') : Step mods rules w w' := by
  cases a with
  | ret cp =>
      simp only [act] at acted
      split at acted
      · rename_i inside returned
        cases acted
        exact Step.ret (of_decide_eq_true inside) returned
      · cases acted
  | capture cp handlers =>
      simp only [act] at acted
      split at acted
      · rename_i decision plan engine allowed decided run
        cases acted
        simp only [Bool.and_eq_true, Option.isNone_iff_eq_none, decide_eq_true_eq] at allowed
        exact Step.capture allowed.1.1 allowed.1.2 (captures w cp handlers allowed.2 obey) decided run
      · cases acted
  | resume cp =>
      simp only [act] at acted
      split at acted
      · rename_i capture engine running task resumed
        cases acted
        exact Step.resume running (by simpa using task) (resumes w capture cp) published resumed
      · cases acted

theorem play_reaches
    (captures : ∀ w cp handlers, admits w cp = true → (∀ handler ∈ handlers, lawful handler) →
      rules.captures w cp handlers prngNext)
    (resumes : ∀ w capture cp, rules.resumes w capture cp) (published : rules.chains chain)
    (acts : List (Act N))
    (obey : ∀ a ∈ acts, ∀ handler ∈ a.handlers, lawful handler) {w w' : World N P}
    (played : play mods prngNext chain admits acts w = some w') : Reaches mods rules w w' := by
  induction acts generalizing w with
  | nil =>
      cases played
      exact Relation.ReflTransGen.refl
  | cons a acts ih =>
      rw [play, List.foldlM_cons, Option.bind_eq_bind, Option.bind_eq_some_iff] at played
      obtain ⟨mid, acted, rest⟩ := played
      refine Relation.ReflTransGen.head
        (act_step lawful captures resumes published (obey a List.mem_cons_self) acted) ?_
      exact ih (fun later member => obey later (List.mem_cons_of_mem _ member)) rest

end Play

def captureFirst (mods : Modules N P) (cp : CapturePoint)
    (s : Engine (ModuleState N) (Tidset × P)) :
    Except Fault (Replay × Decision × Engine (ModuleState N) (Tidset × P)) := do
  let (ry, e, s) ← captureBegin (withBlocking mods) cp s
  let (e, task) ← handleCreation cp e s.modules.task
  let (e, blocking, returned) ← blockingHandle cp e s.modules.blocking s.modules.returned
  .ok (ry, e, { s with modules := { s.modules with task, blocking, returned } })

/-- `sequencer_capture` from the handlers behind it on, with the dispatched task. -/
def captureRest (mods : Modules N P) (handlers : List (Handler N)) (prngNext : N → UInt64 × N)
    (cp : CapturePoint) (ry : Replay) (e : Decision) (s : Engine (ModuleState N) (Tidset × P)) :
    Except Fault (TaskId × Plan × Engine (ModuleState N) (Tidset × P)) := do
  let (e, m) ← runHandlers handlers cp e s.modules
  let (next, e, m) ← selectNext (prngRange prngNext) cp e m
  let (plan, s) ← captureEnd (withBlocking mods) cp ry next e { s with modules := m }
  .ok (next, plan, s)

theorem sequencerCapture_eq {mods : Modules N P} {cp : CapturePoint}
    {s s₁ : Engine (ModuleState N) (Tidset × P)} {ry : Replay} {e : Decision}
    (first : captureFirst mods cp s = .ok (ry, e, s₁)) (handlers : List (Handler N))
    (prngNext : N → UInt64 × N) :
    sequencerCapture (withBlocking mods) (captureDispatch handlers prngNext) cp s =
        (captureRest mods handlers prngNext cp ry e s₁).map Prod.snd ∧
      dispatched mods handlers prngNext cp s =
        (runHandlers handlers cp e s₁.modules >>= fun handled =>
          (selectNext (prngRange prngNext) cp handled.1 handled.2).map Prod.fst) := by
  obtain ⟨⟨ry', e₀, s₀⟩, begun, first⟩ := bind_eq_ok.mp first
  obtain ⟨⟨e₁, task⟩, created, first⟩ := bind_eq_ok.mp first
  obtain ⟨⟨e₂, blocking, returned⟩, blocked, first⟩ := bind_eq_ok.mp first
  cases first
  simp only [sequencerCapture, dispatched, captureDispatch, dispatchCaptureEvent, captureHandlers,
    captureRest, begun, created, blocked, ok_bind]
  cases runHandlers handlers cp e { s₀.modules with task, blocking, returned } with
  | error fault => exact ⟨rfl, rfl⟩
  | ok handled =>
      simp only [ok_bind]
      cases selectNext (prngRange prngNext) cp handled.1 handled.2 with
      | error fault => exact ⟨rfl, rfl⟩
      | ok selected =>
          simp only [ok_bind]
          cases captureEnd (withBlocking mods) cp ry selected.1 selected.2.1
            { s₀ with modules := selected.2.2 } <;> exact ⟨rfl, rfl⟩

theorem captureRest_eq {mods : Modules N P} {handlers : List (Handler N)}
    {prngNext : N → UInt64 × N} {cp : CapturePoint} {ry : Replay} {e e₁ e₂ : Decision}
    {s s' : Engine (ModuleState N) (Tidset × P)} {m₁ m₂ : ModuleState N} {next : TaskId} {p : Plan}
    (handled : runHandlers handlers cp e s.modules = .ok (e₁, m₁))
    (selected : selectNext (prngRange prngNext) cp e₁ m₁ = .ok (next, e₂, m₂))
    (ended : captureEnd (withBlocking mods) cp ry next e₂ { s with modules := m₂ } = .ok (p, s')) :
    captureRest mods handlers prngNext cp ry e s = .ok (next, p, s') := by
  simp only [captureRest, handled, selected, ended, ok_bind]

theorem captureRest_of_run {mods : Modules N P} {cp : CapturePoint}
    {s s₁ s' : Engine (ModuleState N) (Tidset × P)} {ry : Replay} {e : Decision}
    {handlers : List (Handler N)} {prngNext : N → UInt64 × N} {decision : TaskId} {plan : Plan}
    (first : captureFirst mods cp s = .ok (ry, e, s₁))
    (decided : dispatched mods handlers prngNext cp s = .ok decision)
    (run : sequencerCapture (withBlocking mods) (captureDispatch handlers prngNext) cp s =
      .ok (plan, s')) :
    captureRest mods handlers prngNext cp ry e s₁ = .ok (decision, plan, s') := by
  obtain ⟨captures, decides⟩ := sequencerCapture_eq first handlers prngNext
  rw [captures] at run
  rw [decides] at decided
  cases rest : captureRest mods handlers prngNext cp ry e s₁ with
  | error fault =>
      rw [rest] at run
      cases run
  | ok result =>
      rw [rest] at run
      obtain ⟨handled, ran, rest⟩ := bind_eq_ok.mp rest
      obtain ⟨selected, chosen, rest⟩ := bind_eq_ok.mp rest
      obtain ⟨ended, _, rest⟩ := bind_eq_ok.mp rest
      rw [ran, ok_bind, chosen] at decided
      cases rest
      cases run
      cases decided
      rfl

structure Framed (m m' : ModuleState N) : Prop where
  task : m'.task = m.task
  blocking : m'.blocking = m.blocking
  returned : m'.returned = m.returned

theorem Framed.trans {m₁ m₂ m₃ : ModuleState N} (first : Framed m₁ m₂) (second : Framed m₂ m₃) :
    Framed m₁ m₃ :=
  ⟨second.task.trans first.task, second.blocking.trans first.blocking,
    second.returned.trans first.returned⟩

theorem runHandlers_cons (handler : Handler N) (handlers : List (Handler N)) (cp : CapturePoint)
    (e : Decision) (m : ModuleState N) :
    runHandlers (handler :: handlers) cp e m =
      handler cp e m >>= fun handled => runHandlers handlers cp handled.1
        { m with others := handled.2 } := by
  simp only [runHandlers, List.foldlM_cons]
  cases handler cp e m <;> rfl

theorem runHandlers_keeps (keeps : Decision → Decision → Prop) (stays : ∀ e, keeps e e)
    (chains : ∀ {a b c}, keeps a b → keeps b c → keeps a c) (handlers : List (Handler N))
    {cp : CapturePoint}
    (each : ∀ handler ∈ handlers, ∀ e m e' n, handler cp e m = .ok (e', n) → keeps e e')
    {e e' : Decision} {m m' : ModuleState N} (run : runHandlers handlers cp e m = .ok (e', m')) :
    keeps e e' ∧ Framed m m' := by
  induction handlers generalizing e m with
  | nil =>
      cases run
      exact ⟨stays _, rfl, rfl, rfl⟩
  | cons handler handlers ih =>
      rw [runHandlers_cons] at run
      obtain ⟨⟨e₁, n⟩, first, run⟩ := bind_eq_ok.mp run
      obtain ⟨kept, framed⟩ := ih (fun later member => each later (List.mem_cons_of_mem _ member)) run
      exact ⟨chains (each handler List.mem_cons_self e m e₁ n first) kept,
        framed.task, framed.blocking, framed.returned⟩

theorem selectNext_frame {prngNext : N → UInt64 × N} {cp : CapturePoint} {e e' : Decision}
    {m m' : ModuleState N} {next : TaskId}
    (selected : selectNext (prngRange prngNext) cp e m = .ok (next, e', m')) :
    Framed m m' ∧ e'.shouldRecord = e.shouldRecord := by
  by_cases chpt : (!e.isChpt) = true
  · rw [selectNext, if_pos chpt] at selected
    obtain ⟨_, _, chosen⟩ := bind_eq_ok.mp selected
    cases chosen
    exact ⟨⟨rfl, rfl, rfl⟩, rfl⟩
  · rw [selectNext, if_neg chpt] at selected
    split at selected
    · cases selected
      exact ⟨⟨rfl, rfl, rfl⟩, rfl⟩
    · split at selected
      · cases selected
        exact ⟨⟨rfl, rfl, rfl⟩, rfl⟩
      · split at selected <;> cases selected <;> exact ⟨⟨rfl, rfl, rfl⟩, rfl⟩

theorem captureEnd_frame {M Q : Type} {mods : Modules M Q} {cp : CapturePoint} {ry : Replay}
    {next : TaskId} {e : Decision} {s s' : Engine M Q} {p : Plan}
    (ended : captureEnd mods cp ry next e s = .ok (p, s')) :
    ∃ next' record, s' = { s with seq := trackDecision cp e next' record s.seq } ∧
      (e.shouldRecord = true → record = true) := by
  obtain ⟨next', _, ended⟩ := bind_eq_ok.mp ended
  obtain ⟨actions, _, ended⟩ := bind_eq_ok.mp ended
  obtain ⟨_, _, ended⟩ := bind_eq_ok.mp ended
  obtain ⟨record, decided, ended⟩ := bind_eq_ok.mp ended
  cases ended
  refine ⟨next', record, rfl, ?_⟩
  intro asked
  rw [decideRecord, if_pos asked] at decided
  exact (Except.ok.inj decided).symm

structure Finished (s s' : Engine (ModuleState N) (Tidset × P)) : Prop where
  modules : Framed s.modules s'.modules
  recorder : s'.recorder = s.recorder
  clk : s'.seq.clk = s.seq.clk
  unblocked : s'.seq.unblocked = .empty
  pending : s'.seq.pendingUnblocked = s.seq.pendingUnblocked

theorem captureRest_finished {mods : Modules N P} {handlers : List (Handler N)}
    {prngNext : N → UInt64 × N} {cp : CapturePoint} {ry : Replay} {e : Decision}
    {s s' : Engine (ModuleState N) (Tidset × P)} {next : TaskId} {p : Plan}
    (rest : captureRest mods handlers prngNext cp ry e s = .ok (next, p, s')) : Finished s s' := by
  obtain ⟨⟨e₁, m₁⟩, handled, rest⟩ := bind_eq_ok.mp rest
  obtain ⟨⟨next₂, e₂, m₂⟩, selected, rest⟩ := bind_eq_ok.mp rest
  obtain ⟨⟨p₃, s₃⟩, ended, rest⟩ := bind_eq_ok.mp rest
  cases rest
  have framed := (runHandlers_keeps (fun _ _ => True) (fun _ => trivial) (fun _ _ => trivial)
    handlers (fun _ _ _ _ _ _ _ => trivial) handled).2
  obtain ⟨_, _, rfl, _⟩ := captureEnd_frame ended
  exact ⟨framed.trans (selectNext_frame selected).1, rfl, rfl, rfl, rfl⟩

theorem answer_done {t : List (Record P)} {clk : Nat} (done : (answer clk t).status = .done) :
    (answer (clk + 1) t).status = .done := by
  have past : ∀ r ∈ t, r.clk ≤ clk := by
    intro r member
    by_contra later
    have waits : t.any (notYet clk) = true :=
      List.any_eq_true.mpr ⟨r, member, by simp [notYet]; omega⟩
    cases found : t.find? (decides clk) with
    | none => simp [answer, found, waits] at done
    | some other => cases kind : other.kind <;> simp [answer, found, kind] at done
  have silent : t.find? (decides (clk + 1)) = none := by
    rw [List.find?_eq_none]
    intro r member
    have bound := past r member
    simp only [decides, Bool.and_eq_true, beq_iff_eq, not_and]
    omega
  have nothing : t.any (notYet (clk + 1)) = false := by
    rw [List.any_eq_false]
    intro r member
    have bound := past r member
    simp only [notYet, Bool.or_eq_true, Bool.and_eq_true, decide_eq_true_eq, beq_iff_eq]
    omega
  simp [answer, silent, nothing]

theorem mem_loaded {clk : Nat} {rest : List (Record P)} (order : rest.Pairwise Follows)
    {r : Record P} (member : r ∈ rest) (now : decides clk r = true) : r ∈ loaded clk rest := by
  induction rest with
  | nil => simp at member
  | cons first rest ih =>
      cases wait : notYet clk first with
      | true => simp [notYet_no_decision order wait r member] at now
      | false =>
          have front : loaded clk (first :: rest) = first :: loaded clk rest := by
            simp [loaded, wait]
          rw [front]
          rcases List.mem_cons.mp member with rfl | inside
          · exact List.mem_cons_self
          · exact List.mem_cons_of_mem _ (ih (List.pairwise_cons.mp order).2 inside)

theorem loaded_sched {t : List (Record P)} (wf : WellFormed t) {clk : Nat} {rc : Recorder P}
    {rest : List (Record P)} (cur : Cursor t clk rc rest) {r : Record P}
    (kind : r.kind = .recordSched) :
    r ∈ loaded (clk + 1) rest ↔ r ∈ t ∧ r.clk = clk + 1 := by
  have suffix : rest.Sublist t := by
    rw [← cur.split]
    exact List.sublist_append_right _ _
  constructor
  · intro member
    have inRest : r ∈ rest := (List.takeWhile_sublist _).subset member
    have early := (cur.ready r inRest).2 (by simp [isDecision, kind])
    have due : notYet (clk + 1) r = false := by
      simpa using List.mem_takeWhile_imp member
    exact ⟨suffix.subset inRest, Nat.le_antisymm (notYet_eq_false due).1 early⟩
  · rintro ⟨member, now⟩
    have inRest : r ∈ rest := by
      rw [← cur.split] at member
      rcases List.mem_append.mp member with past | inside
      · have before := cur.past r past
        omega
      · exact inside
    exact mem_loaded (wf.order.sublist suffix) inRest (by simp [decides, isDecision, kind, now])

structure Inv (t : List (Record (Tidset × P))) (w : World N P)
    (rest : List (Record (Tidset × P))) : Prop where
  cursor : Cursor t w.clk w.engine.recorder rest
  now : w.engine.seq.clk = w.clk
  before : w.running ≠ none → w.engine.recorder.recordClk ≤ w.log.length
  distinct : w.returns.Nodup
  fresh : ∀ id ∈ w.awaiting, id ∉ w.returns
  blocked : ∀ id ∈ w.engine.modules.blocking.blockedActual, id ∈ w.awaiting ∨ id ∈ w.returns
  registered : ∀ id ∈ w.engine.modules.task.registered, id ≠ noTask ∧ id ≠ anyTask
  parent : w.engine.modules.task.lastParent ≠ noTask
  replaying : w.engine.modules.blocking.replaying =
    (decide (0 < w.clk) && (answer w.clk t).status != .done)
  untouched : w.clk = 0 → w.engine.modules.blocking = blockingInit
  consumed : w.clk = 0 ∨ w.engine.modules.blocking.replaying = true →
    w.engine.modules.blocking.consumed = true ∨ w.engine.modules.returned = .empty
  current : ∀ capture, w.running = some capture → capture.returned = w.engine.modules.returned

theorem inv_start {t : List (Record (Tidset × P))} (wf : WellFormed t)
    (forced : ∀ r ∈ t, r.kind = .recordForce → 0 < r.clk)
    {input : Option (List (Record (Tidset × P)))} (source : input = some t ∨ t = [] ∧ input = none)
    (recording : Bool) (others : N) :
    Inv t (World.start input (if recording then some [] else none) others) t where
  cursor := cursor_init wf forced source recording
  now := rfl
  before := by simp [World.start]
  distinct := List.nodup_nil
  fresh := by simp [World.start]
  blocked := fun id member => absurd member (Tidset.not_mem_empty id)
  registered := fun id member => absurd member (Tidset.not_mem_empty id)
  parent := by simp [World.start, engineInit, moduleInit, taskInit, noTask]
  replaying := rfl
  untouched := fun _ => rfl
  consumed := fun _ => Or.inr rfl
  current := by simp [World.start]

structure Opened (t : List (Record (Tidset × P))) (w : World N P)
    (rest : List (Record (Tidset × P))) (cp : CapturePoint) (e : Decision)
    (s : Engine (ModuleState N) (Tidset × P)) : Prop where
  cursor : Cursor t (w.clk + 1) s.recorder (remaining (w.clk + 1) rest)
  before : s.recorder.recordClk ≤ w.clk
  output : s.recorder.output =
    w.engine.recorder.output.map (· ++ (loaded (w.clk + 1) rest).filter isCloned)
  now : s.seq.clk = w.clk + 1
  pending : s.seq.pendingUnblocked = .empty
  replay : e.replay = ((answer (w.clk + 1) t).status != .done)
  chpt : e.isChpt = true ↔ cp.typeId = eventTaskCreate ∨ cp.typeId = eventTaskInit ∨
    cp.typeId = eventTaskFini ∨ blocks cp = true
  create : cp.typeId = eventTaskCreate → e.next = anyTask ∧ e.readonly = true
  init : cp.typeId = eventTaskInit → e.next ≠ noTask
  undecided : cp.typeId ≠ eventTaskCreate → cp.typeId ≠ eventTaskInit → e.next = noTask
  tset : ∀ id ∈ e.tset, id ≠ noTask ∧ id ≠ anyTask
  apart : cp.typeId = eventTaskFini ∨ blocks cp = true → cp.id ∉ e.tset
  shouldRecord : returnedOthers cp s.modules.returned = true → e.shouldRecord = true
  registered : ∀ id ∈ s.modules.task.registered, id ≠ noTask ∧ id ≠ anyTask
  parent : s.modules.task.lastParent ≠ noTask
  replaying : s.modules.blocking.replaying = e.replay
  actual : ∀ id ∈ s.modules.blocking.blockedActual,
    id ∈ w.engine.modules.blocking.blockedActual ∧ id ∉ w.returns ∨ blocks cp = true ∧ id = cp.id
  held : ∀ id, id ∈ heldBack s.modules.blocking ↔
    id ≠ cp.id ∧ id ∈ heldBack w.engine.modules.blocking ∧ id ∉ s.modules.returned ∨
      blocks cp = true ∧ id = cp.id
  consumed : e.replay = true → s.modules.blocking.consumed = true
  loads : e.replay = true →
    (∃ r ∈ t, r.kind = .recordSched ∧ r.clk = w.clk + 1 ∧ s.modules.returned = r.data.1) ∨
      (∀ r ∈ t, r.kind = .recordSched → r.clk ≠ w.clk + 1) ∧ s.modules.returned = .empty

theorem Inv.replaying_of_replay {t rest : List (Record (Tidset × P))} {w : World N P}
    (inv : Inv t w rest) (replay : (answer (w.clk + 1) t).status ≠ .done) :
    w.clk = 0 ∨ w.engine.modules.blocking.replaying = true := by
  rcases Nat.eq_zero_or_pos w.clk with zero | positive
  · exact Or.inl zero
  · right
    have status : (answer w.clk t).status ≠ .done := fun done => replay (answer_done done)
    simp [inv.replaying, positive, status]

theorem captureFirst_ok (mods : Modules N P) {t rest : List (Record (Tidset × P))}
    (wf : WellFormed t) {w : World N P} (inv : Inv t w rest) {cp : CapturePoint}
    (valid : Valid w cp) :
    ∃ e s, captureFirst mods cp w.engine = .ok (answer (w.clk + 1) t, e, s) ∧
      Opened t w rest cp e s ∧
      s.modules.others = ((loaded (w.clk + 1) rest).foldl (unmarshalInto (withBlocking mods))
        w.engine.modules).others := by
  obtain ⟨rc, merged, begun, tasks, cursor, before, output⟩ :=
    captureBegin_merged (withBlocking mods) wf inv.cursor inv.now inv.distinct valid.task
  obtain ⟨sameTask, effect⟩ :=
    unmarshal_modules mods (loaded (w.clk + 1) rest) w.engine.modules
  generalize (loaded (w.clk + 1) rest).foldl (unmarshalInto (withBlocking mods)) w.engine.modules =
    m at begun sameTask effect
  have sets : m.blocking = { w.engine.modules.blocking with consumed := m.blocking.consumed } := by
    rcases effect with ⟨_, same, _⟩ | ⟨_, _, _, same, _⟩ <;> rw [same]
  have sameHeld : heldBack m.blocking = heldBack w.engine.modules.blocking := by
    rw [sets]
    rfl
  let e₀ := prepareDecision (w.clk + 1) merged (answer (w.clk + 1) t)
  obtain ⟨e₁, task, created, creation⟩ := handleCreation_spec (e := e₀) m.task valid.task rfl
    rfl (fun isInit => by rw [sameTask]; exact (valid.init isInit).2)
    (fun isFini => by rw [sameTask]; exact (valid.fini isFini).2)
  have calm : blocks cp = true → e₁.isChpt = false := by
    intro blocking
    obtain ⟨isBlocking, notCreate⟩ : cp.blocking = true ∧ cp.typeId ≠ eventTaskCreate := by
      simpa [blocks] using blocking
    rw [← Bool.not_eq_true, creation.chpt]
    rintro (isCreate | isInit | isFini)
    · exact notCreate isCreate
    · simp [(valid.init isInit).1] at isBlocking
    · simp [(valid.fini isFini).1] at isBlocking
  have inMerged : ∀ id, id ∈ e₁.unblocked ↔ id ∈ w.returns := by
    intro id
    rw [creation.unblocked, Tidset.mem_def]
    show id ∈ merged.tasks ↔ _
    rw [tasks]
    rfl
  have free : cp.id ∈ m.blocking.blockedActual → cp.id ∈ e₁.unblocked := by
    intro member
    rw [sets] at member
    rw [inMerged]
    exact (inv.blocked cp.id member).resolve_left valid.back
  have replays : e₁.replay = ((answer (w.clk + 1) t).status != .done) := creation.replay
  have going : e₁.replay = true → w.clk = 0 ∨ w.engine.modules.blocking.replaying = true := by
    intro replay
    apply inv.replaying_of_replay
    simpa [replays] using replay
  have first : e₁.replay = true → m.blocking.replaying = false →
      ∀ id, id ∉ m.blocking.blockedActual ∧ id ∉ m.blocking.blockedReplay := by
    intro replay off id
    rw [sets] at off ⊢
    rcases going replay with zero | on
    · simp [inv.untouched zero, blockingInit]
    · rw [on] at off
      cases off
  obtain ⟨e₂, blocking, returned, blocked, handled⟩ := blockingHandle_spec m.returned valid.task calm
    creation.skip free first
  let s : Engine (ModuleState N) (Tidset × P) :=
    { seq := { w.engine.seq with clk := w.clk + 1, unblocked := merged, pendingUnblocked := .empty }
      recorder := rc
      modules := { m with task, blocking, returned } }
  refine ⟨e₂, s, ?_, ?_, rfl⟩
  · simp only [captureFirst, begun, ok_bind]
    rw [created]
    simp only [ok_bind, blocked, s]
  have tset : ∀ id ∈ e₂.tset, id ∈ task.registered ∧ id ∉ blockedTasks e₁.replay blocking := by
    intro id member
    have both := handled.tset id member
    rwa [creation.tset] at both
  have registered : ∀ id ∈ task.registered, id ≠ noTask ∧ id ≠ anyTask := by
    intro id member
    rcases creation.registered id member with old | rfl
    · rw [sameTask] at old
      exact inv.registered id old
    · exact ⟨valid.task, valid.real⟩
  have held : heldBack blocking = blockedTasks e₁.replay blocking := by
    rw [heldBack, handled.replaying]
  constructor
  · exact cursor
  · exact before
  · exact output
  · rfl
  · rfl
  · exact handled.replay.trans replays
  · rw [handled.chpt, Bool.or_eq_true, creation.chpt]
    simp only [or_assoc]
  · intro isCreate
    rw [handled.next, handled.readonly]
    exact creation.create isCreate
  · intro isInit
    rw [handled.next, creation.init isInit, sameTask]
    exact inv.parent
  · intro notCreate notInit
    rw [handled.next]
    exact creation.kept notCreate notInit
  · intro id member
    exact registered id (tset id member).1
  · rintro (isFini | isBlocking) member
    · exact creation.fini isFini (tset _ member).1
    · exact (tset _ member).2 ((handled.held cp.id).mpr (Or.inr ⟨isBlocking, rfl⟩))
  · exact handled.shouldRecord
  · exact registered
  · rcases creation.parent with old | new
    · show task.lastParent ≠ noTask
      rw [old, sameTask]
      exact inv.parent
    · show task.lastParent ≠ noTask
      rw [new]
      exact valid.task
  · exact handled.replaying.trans handled.replay.symm
  · intro id member
    rcases handled.actual id member with ⟨old, absent⟩ | current
    · rw [sets] at old
      rw [inMerged] at absent
      exact Or.inl ⟨old, absent⟩
    · exact Or.inr current
  · intro id
    show id ∈ heldBack blocking ↔ _
    rw [held, handled.held id, sameHeld]
  · intro replay
    exact handled.consumed (handled.replay.symm.trans replay)
  · intro replay
    have replay₁ : e₁.replay = true := handled.replay.symm.trans replay
    have value := handled.loaded replay₁
    rcases effect with ⟨silent, same, sameReturned⟩ | ⟨r, member, kind, same, sameReturned⟩
    · right
      constructor
      · intro r member kind now
        exact silent r ((loaded_sched wf inv.cursor kind).mpr ⟨member, now⟩) kind
      · show returned = .empty
        rw [value, same, sameReturned]
        rcases inv.consumed (going replay₁) with consumed | empty
        · simp [consumed]
        · simp [empty]
    · left
      obtain ⟨inside, now⟩ := (loaded_sched wf inv.cursor kind).mp member
      refine ⟨r, inside, kind, now, ?_⟩
      show returned = r.data.1
      rw [value, same, sameReturned]
      simp

inductive Move (mods : Modules N P) (rules : Rules N P) (t rest : List (Record (Tidset × P)))
    (w w' : World N P) : Prop
  | quiet (modules : Framed w.engine.modules w'.engine.modules)
      (recorder : w'.engine.recorder = w.engine.recorder) (running : w'.running = w.running)
      (log : w'.log = w.log) (shouldRecord : w'.engine.seq.shouldRecord = w.engine.seq.shouldRecord)
      (others : w'.engine.modules.others = w.engine.modules.others ∨
        ∃ cp chain, rules.boots cp ∧ rules.chains chain ∧
          chain cp w.engine.modules = .ok w'.engine.modules.others)
  | capture {cp : CapturePoint} {handlers : List (Handler N)} {prngNext : N → UInt64 × N}
      {decision : TaskId} {plan : Plan} {e : Decision} {s : Engine (ModuleState N) (Tidset × P)}
      (idle : w.running = none) (valid : Valid w cp)
      (admitted : rules.captures w cp handlers prngNext)
      (decided : dispatched mods handlers prngNext cp w.engine = .ok decision)
      (first : captureFirst mods cp w.engine = .ok (answer (w.clk + 1) t, e, s))
      (opened : Opened t w rest cp e s)
      (unmarshalled : s.modules.others = ((loaded (w.clk + 1) rest).foldl
        (unmarshalInto (withBlocking mods)) w.engine.modules).others)
      (second : captureRest mods handlers prngNext cp (answer (w.clk + 1) t) e s =
        .ok (decision, plan, w'.engine))
      (finished : Finished s w'.engine)
      (running : w'.running = some (captured cp decision plan w'.engine)) (log : w'.log = w.log)
  | resume {capture : Captured} {cp : CapturePoint}
      {chain : CapturePoint → ModuleState N → Except Fault N} (running : w.running = some capture)
      (task : cp.id ≠ noTask) (admitted : rules.resumes w capture cp)
      (published : rules.chains chain)
      (handled : chain cp w.engine.modules = .ok w'.engine.modules.others)
      (modules : Framed w.engine.modules w'.engine.modules)
      (output : w'.engine.recorder.output = w.engine.recorder.output.map (· ++
        if resumeMarks ((withBlocking mods).config w'.engine.modules) cp w.engine.seq then
          [schedRecord (withBlocking mods) w'.engine.modules cp w.clk] else []))
      (stopped : w'.running = none) (log : w'.log = w.log ++ [{ capture with resumed := cp }])

theorem updateUnblocked_returns {seq seq' : Sequencer}
    (distinct : (seq.unblocked.tasks ++ seq.pendingUnblocked.tasks).Nodup)
    (merged : seq' = seq ∨ updateUnblocked seq = .ok seq') :
    seq'.clk = seq.clk ∧ seq'.unblocked.tasks ++ seq'.pendingUnblocked.tasks =
      seq.unblocked.tasks ++ seq.pendingUnblocked.tasks := by
  rcases merged with rfl | update
  · exact ⟨rfl, rfl⟩
  · obtain ⟨all, updated, tasks⟩ := updateUnblocked_spec seq distinct
    rw [update] at updated
    cases updated
    exact ⟨rfl, by simpa [Tidset.empty] using tasks⟩

/-- A change of the other modules' state and of the place of the returns keeps the invariant. -/
theorem Inv.framed {t rest : List (Record (Tidset × P))} {w w' : World N P} (inv : Inv t w rest)
    (modules : Framed w.engine.modules w'.engine.modules) (clk : w'.clk = w.clk)
    (cursor : Cursor t w.clk w'.engine.recorder rest) (now : w'.engine.seq.clk = w.clk)
    (before : w'.running ≠ none → w'.engine.recorder.recordClk ≤ w'.log.length)
    (distinct : w'.returns.Nodup) (fresh : ∀ id ∈ w'.awaiting, id ∉ w'.returns)
    (known : ∀ id, id ∈ w.awaiting ∨ id ∈ w.returns → id ∈ w'.awaiting ∨ id ∈ w'.returns)
    (current : ∀ capture, w'.running = some capture → capture.returned = w'.engine.modules.returned) :
    Inv t w' rest where
  cursor := by rw [clk]; exact cursor
  now := by rw [now, clk]
  before := before
  distinct := distinct
  fresh := fresh
  blocked := by
    intro id member
    rw [modules.blocking] at member
    exact known id (inv.blocked id member)
  registered := by rw [modules.task]; exact inv.registered
  parent := by rw [modules.task]; exact inv.parent
  replaying := by rw [modules.blocking, clk]; exact inv.replaying
  untouched := by rw [modules.blocking, clk]; exact inv.untouched
  consumed := by rw [modules.blocking, modules.returned, clk]; exact inv.consumed
  current := current

section Steps

variable {mods : Modules N P} {rules : Rules N P} {t rest : List (Record (Tidset × P))}
  {w : World N P}

theorem ret_move (inv : Inv t w rest) {cp : CapturePoint}
    {engine : Engine (ModuleState N) (Tidset × P)} (inside : cp.id ∈ w.awaiting)
    (returned : sequencerReturn cp w.engine = .ok engine) :
    let w' := { w with engine, awaiting := w.awaiting.filter (· != cp.id) }
    Inv t w' rest ∧ Move mods rules t rest w w' := by
  have absent : cp.id ∉ w.returns := inv.fresh cp.id inside
  have notPending : cp.id ∉ w.engine.seq.pendingUnblocked.tasks := fun member =>
    absent (List.mem_append_right _ member)
  obtain ⟨_, _, returned⟩ := bind_eq_ok.mp returned
  obtain ⟨seq, added, returned⟩ := bind_eq_ok.mp returned
  obtain ⟨pending, inserted, tasks⟩ := addPendingUnblocked_spec w.engine.seq cp.id notPending
  rw [inserted] at added
  cases added
  cases returned
  have returns : w.engine.seq.unblocked.tasks ++ pending.tasks = w.returns ++ [cp.id] := by
    rw [tasks, ← List.append_assoc]
    rfl
  refine ⟨?_, Move.quiet ⟨rfl, rfl, rfl⟩ rfl rfl rfl rfl (Or.inl rfl)⟩
  refine inv.framed ⟨rfl, rfl, rfl⟩ rfl inv.cursor inv.now inv.before ?_ ?_ ?_ inv.current
  · show (w.engine.seq.unblocked.tasks ++ pending.tasks).Nodup
    rw [returns, List.nodup_append_comm]
    exact List.nodup_cons.mpr ⟨absent, inv.distinct⟩
  · intro id member
    show id ∉ w.engine.seq.unblocked.tasks ++ pending.tasks
    obtain ⟨waits, other⟩ := List.mem_filter.mp member
    rw [returns]
    simpa [inv.fresh id waits] using other
  · intro id known
    show id ∈ w.awaiting.filter (· != cp.id) ∨ id ∈ w.engine.seq.unblocked.tasks ++ pending.tasks
    rw [returns]
    by_cases same : id = cp.id
    · simp [same]
    · simpa [same] using known

theorem boot_move (inv : Inv t w rest) {cp : CapturePoint}
    {chain : CapturePoint → ModuleState N → Except Fault N}
    {engine : Engine (ModuleState N) (Tidset × P)} (idle : w.running = none) (first : w.log = [])
    (admitted : rules.boots cp) (published : rules.chains chain)
    (resumed : sequencerResume (withBlocking mods) (resumeChain chain) cp w.engine = .ok engine) :
    let w' := { w with engine }
    Inv t w' rest ∧ Move mods rules t rest w w' := by
  have zero : w.engine.seq.clk = 0 := by
    rw [inv.now]
    simp [World.clk, idle, first]
  obtain ⟨m, handled, resumed⟩ := bind_eq_ok.mp resumed
  obtain ⟨others, chained, framed⟩ := bind_eq_ok.mp handled
  cases framed
  rw [if_pos zero] at resumed
  cases resumed
  refine ⟨?_, Move.quiet ⟨rfl, rfl, rfl⟩ rfl rfl rfl rfl
    (Or.inr ⟨cp, chain, admitted, published, chained⟩)⟩
  exact inv.framed ⟨rfl, rfl, rfl⟩ rfl inv.cursor inv.now inv.before inv.distinct inv.fresh
    (fun _ known => known) inv.current

theorem capture_move (wf : WellFormed t) (inv : Inv t w rest) {cp : CapturePoint}
    {handlers : List (Handler N)} {prngNext : N → UInt64 × N} {decision : TaskId} {plan : Plan}
    {engine : Engine (ModuleState N) (Tidset × P)} (idle : w.running = none) (valid : Valid w cp)
    (admitted : rules.captures w cp handlers prngNext)
    (decided : dispatched mods handlers prngNext cp w.engine = .ok decision)
    (run : sequencerCapture (withBlocking mods) (captureDispatch handlers prngNext) cp w.engine =
      .ok (plan, engine)) :
    let w' : World N P :=
      { engine
        awaiting := if blocks cp then cp.id :: w.awaiting else w.awaiting
        running := some (captured cp decision plan engine)
        log := w.log }
    Inv t w' (remaining (w.clk + 1) rest) ∧ Move mods rules t rest w w' := by
  obtain ⟨e, s, first, opened, unmarshalled⟩ := captureFirst_ok mods wf inv valid
  have second := captureRest_of_run first decided run
  have finished := captureRest_finished second
  have clk : w.clk = w.log.length := by simp [World.clk, idle]
  refine ⟨?_, Move.capture idle valid admitted decided first opened unmarshalled second finished
    rfl rfl⟩
  have next : w.log.length + 1 = w.clk + 1 := by rw [clk]
  have none : engine.seq.unblocked.tasks ++ engine.seq.pendingUnblocked.tasks = [] := by
    rw [finished.unblocked, finished.pending, opened.pending]
    rfl
  constructor
  · show Cursor t (w.log.length + 1) engine.recorder _
    rw [next, finished.recorder]
    exact opened.cursor
  · show engine.seq.clk = w.log.length + 1
    rw [next, finished.clk, opened.now]
  · intro _
    show engine.recorder.recordClk ≤ w.log.length
    rw [finished.recorder, ← clk]
    exact opened.before
  · show (engine.seq.unblocked.tasks ++ engine.seq.pendingUnblocked.tasks).Nodup
    rw [none]
    exact List.nodup_nil
  · intro id _
    show id ∉ engine.seq.unblocked.tasks ++ engine.seq.pendingUnblocked.tasks
    simp [none]
  · intro id member
    left
    rw [finished.modules.blocking] at member
    rcases opened.actual id member with ⟨old, absent⟩ | ⟨blocking, rfl⟩
    · have waits := (inv.blocked id old).resolve_right absent
      show id ∈ if blocks cp then cp.id :: w.awaiting else w.awaiting
      split
      · exact List.mem_cons_of_mem _ waits
      · exact waits
    · simp [blocking]
  · rw [finished.modules.task]
    exact opened.registered
  · rw [finished.modules.task]
    exact opened.parent
  · show engine.modules.blocking.replaying = (decide (0 < w.log.length + 1) &&
      (answer (w.log.length + 1) t).status != .done)
    rw [finished.modules.blocking, opened.replaying, opened.replay, next]
    simp
  · intro zero
    simp [World.clk] at zero
  · rintro (zero | replaying)
    · simp [World.clk] at zero
    · left
      rw [finished.modules.blocking] at replaying ⊢
      exact opened.consumed (opened.replaying.symm.trans replaying)
  · rintro capture ⟨⟩
    rfl

theorem resume_move (inv : Inv t w rest) {capture : Captured} {cp : CapturePoint}
    {chain : CapturePoint → ModuleState N → Except Fault N}
    {engine : Engine (ModuleState N) (Tidset × P)} (running : w.running = some capture)
    (task : cp.id ≠ noTask) (admitted : rules.resumes w capture cp)
    (published : rules.chains chain)
    (resumed : sequencerResume (withBlocking mods) (resumeChain chain) cp w.engine = .ok engine) :
    let w' := { w with engine, running := none, log := w.log ++ [{ capture with resumed := cp }] }
    Inv t w' rest ∧ Move mods rules t rest w w' := by
  have clk : w.clk = w.log.length + 1 := by simp [World.clk, running]
  obtain ⟨m, handled, _⟩ := bind_eq_ok.mp resumed
  obtain ⟨others, chained, made⟩ := bind_eq_ok.mp handled
  have framed : Framed w.engine.modules m := by
    cases made
    exact ⟨rfl, rfl, rfl⟩
  have same : m.others = others := by
    cases made
    rfl
  have cursor := inv.cursor
  have now := inv.now
  rw [clk] at cursor now
  obtain ⟨rc, seq, run, merged, cursor', output⟩ := sequencerResume_merged (withBlocking mods) cursor
    (inv.before (by simp [running])) now inv.distinct (resumeChain chain) handled task
  rw [run] at resumed
  cases resumed
  obtain ⟨sameClk, returns⟩ := updateUnblocked_returns inv.distinct merged
  constructor
  · apply inv.framed framed
    · simp [World.clk, running]
    · rw [clk]
      exact cursor'
    · exact sameClk.trans inv.now
    · simp
    · show (seq.unblocked.tasks ++ seq.pendingUnblocked.tasks).Nodup
      rw [returns]
      exact inv.distinct
    · intro id member
      show id ∉ seq.unblocked.tasks ++ seq.pendingUnblocked.tasks
      rw [returns]
      exact inv.fresh id member
    · intro id known
      show id ∈ w.awaiting ∨ id ∈ seq.unblocked.tasks ++ seq.pendingUnblocked.tasks
      rw [returns]
      exact known
    · simp
  · refine Move.resume running task admitted published ?_ framed ?_ rfl rfl
    · rw [same]
      exact chained
    · rw [clk]
      exact output

theorem step_move (wf : WellFormed t) (inv : Inv t w rest) {w' : World N P}
    (step : Step mods rules w w') : ∃ rest', Inv t w' rest' ∧ Move mods rules t rest w w' := by
  cases step with
  | ret inside returned => exact ⟨rest, ret_move inv inside returned⟩
  | boot idle first admitted published resumed =>
      exact ⟨rest, boot_move inv idle first admitted published resumed⟩
  | capture idle valid admitted decided run =>
      exact ⟨_, capture_move wf inv idle valid admitted decided run⟩
  | resume running task admitted published resumed =>
      exact ⟨rest, resume_move inv running task admitted published resumed⟩

theorem reaches_inv (wf : WellFormed t) {start : World N P} (begins : Inv t start t)
    {w : World N P} (reached : Reaches mods rules start w) : ∃ rest, Inv t w rest := by
  induction reached with
  | refl => exact ⟨t, begins⟩
  | tail _ step ih =>
      obtain ⟨rest, inv⟩ := ih
      obtain ⟨rest', inv', _⟩ := step_move wf inv step
      exact ⟨rest', inv'⟩

theorem reaches_rule (wf : WellFormed t) {start : World N P} (begins : Inv t start t)
    {holds : World N P → Prop} (init : holds start)
    (keeps : ∀ w w' rest rest', Inv t w rest → Inv t w' rest' → Move mods rules t rest w w' →
      holds w → holds w')
    {w : World N P} (reached : Reaches mods rules start w) : holds w := by
  induction reached with
  | refl => exact init
  | tail before step ih =>
      obtain ⟨rest, inv⟩ := reaches_inv wf begins before
      obtain ⟨rest', inv', move⟩ := step_move wf inv step
      exact keeps _ _ rest rest' inv inv' move ih

end Steps

end Lotto.EngineRun
