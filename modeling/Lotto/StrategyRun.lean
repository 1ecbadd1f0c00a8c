import Lotto.FilteringDrop
import Lotto.TaskMap

namespace Lotto.StrategyRun

open Library.FaultRun Library.Preference
open RecorderReplay SequencerReturns SequencerRun HandlerSpecs EngineRun RunTrace PlanContract

variable {S O P : Type}

structure Strategic (S O : Type) where
  state : S
  others : O

/-- A handler that keeps an item for each task and chooses the task of the highest rank. `knows`
are the tasks with an item, `works` says where its configuration is good enough to run, and `ranks`
are the priorities that a capture chooses by. -/
structure Strategy (S O : Type) where
  start : S
  knows : S → TaskId → Bool
  works : Decision → S → O → Prop
  handle : CapturePoint → Decision → S → O → Except Fault (Decision × S × O)
  decides : Decision → O → Bool
  ranks : CapturePoint → Decision → S → O → TaskId → UInt64

structure Ready (strategy : Strategy S O) (cp : CapturePoint) (e : Decision) (s : S) : Prop where
  task : cp.id ≠ noTask
  runs : e.skip = false
  init : cp.typeId = eventTaskInit → strategy.knows s cp.id = false
  known : cp.typeId ≠ eventTaskInit → strategy.knows s cp.id = true
  fini : cp.typeId = eventTaskFini → cp.id ∉ e.tset
  tasks : noTask ∉ e.tset
  members : ∀ id ∈ e.tset, id ≠ cp.id → strategy.knows s id = true

structure Handled (strategy : Strategy S O) (cp : CapturePoint) (e : Decision) (s : S) (o : O)
    (e' : Decision) (s' : S) : Prop where
  captured : strategy.knows s' cp.id = !(cp.typeId == eventTaskFini)
  others : ∀ id, id ≠ cp.id → strategy.knows s' id = strategy.knows s id
  quiet : strategy.decides e o = false → e' = e
  chooses : strategy.decides e o = true → 0 < e.tset.size ∧ e.isChpt = true ∧
    e' = chooseFirst e (e.tset.sort (Precedes (strategy.ranks cp e s o)))

structure Lawful (strategy : Strategy S O) : Prop where
  runs : ∀ cp e s o, Ready strategy cp e s → strategy.works e s o →
    ∃ result, strategy.handle cp e s o = .ok result
  handled : ∀ cp e s o e' s' o', Ready strategy cp e s →
    strategy.handle cp e s o = .ok (e', s', o') → Handled strategy cp e s o e' s'

abbrev OtherHandler (S O : Type) :=
  CapturePoint → Decision → ModuleState (Strategic S O) → Except Fault (Decision × O)

def other (handler : OtherHandler S O) : Handler (Strategic S O) := fun cp e m => do
  let (e, others) ← handler cp e m
  .ok (e, { m.others with others })

def Strategy.handler (strategy : Strategy S O) : Handler (Strategic S O) := fun cp e m => do
  let (e, state, others) ← strategy.handle cp e m.others.state m.others.others
  .ok (e, { state, others })

/-- `ON_SEQUENCER_CAPTURE`: the chain stops behind the handler that sets `skip`. -/
def unlessSkipped {N : Type} (handler : Handler N) : Handler N := fun cp e m =>
  if e.skip then .ok (e, m.others) else handler cp e m

def others (handlers : List (OtherHandler S O)) : List (Handler (Strategic S O)) :=
  handlers.map fun handler => unlessSkipped (other handler)

/-- The handlers behind the blocking handler, in the order of the module slots. -/
def Strategy.chain (strategy : Strategy S O) (before after : List (OtherHandler S O)) :
    List (Handler (Strategic S O)) :=
  others before ++ unlessSkipped strategy.handler :: others after

/-- The state manager with a strategy, whose state no record of a replay holds. -/
def withStrategy (others : Modules O P) : Modules (Strategic S O) P where
  config n := others.config n.others
  marshal ty n := others.marshal ty n.others
  unmarshal ty data n := { n with others := others.unmarshal ty data n.others }
  config_persistent data n := others.config_persistent data n.others

/-- What another module may do to a decision: it takes tasks away, it does not drop the events of
a task's life, and it leaves a readonly decision alone. -/
structure Polite (cp : CapturePoint) (e e' : Decision) : Prop where
  tset : ∀ id ∈ e'.tset, id ∈ e.tset
  skip : cp.typeId = eventTaskInit ∨ cp.typeId = eventTaskFini → e.skip = false → e'.skip = false
  readonly : e.readonly = true → e'.readonly = true ∧ e'.tset = e.tset ∧ e'.selector = e.selector ∧
    e'.next = e.next ∧ e'.isChpt = e.isChpt

theorem Polite.refl (cp : CapturePoint) (e : Decision) : Polite cp e e :=
  ⟨fun _ member => member, fun _ runs => runs, fun readonly => ⟨readonly, rfl, rfl, rfl, rfl⟩⟩

theorem Polite.trans {cp : CapturePoint} {a b c : Decision} (first : Polite cp a b)
    (second : Polite cp b c) : Polite cp a c where
  tset := fun id member => first.tset id (second.tset id member)
  skip := fun life runs => second.skip life (first.skip life runs)
  readonly := by
    intro readonly
    obtain ⟨still, tset, selector, next, chpt⟩ := first.readonly readonly
    obtain ⟨last, tset', selector', next', chpt'⟩ := second.readonly still
    exact ⟨last, tset'.trans tset, selector'.trans selector, next'.trans next, chpt'.trans chpt⟩

def AllPolite (handlers : List (OtherHandler S O)) : Prop :=
  ∀ handler ∈ handlers, ∀ cp e m e' o, handler cp e m = .ok (e', o) → Polite cp e e'

/-- `prng_next` draws from the state of the other modules. -/
def prng (draw : O → UInt64 × O) (n : Strategic S O) : UInt64 × Strategic S O :=
  ((draw n.others).1, { n with others := (draw n.others).2 })

/-- Runs with a strategy among the handlers, in which INIT is the first event of every task. -/
def strategyRules (strategy : Strategy S O) : Rules (Strategic S O) P where
  captures w cp handlers prngNext :=
    (cp.typeId ≠ eventTaskInit → cp.id ∈ w.engine.modules.task.registered) ∧
      (∃ before after, handlers = strategy.chain before after ∧ AllPolite before ∧ AllPolite after) ∧
      ∃ draw, prngNext = prng draw
  resumes _ _ _ := True
  boots _ := True
  chains chain := ∀ cp m n, chain cp m = .ok n → n.state = m.others.state

/-- The strategy has an item for exactly the registered tasks. -/
def Follows (strategy : Strategy S O) (w : World (Strategic S O) P) : Prop :=
  ∀ id, strategy.knows w.engine.modules.others.state id = true ↔
    id ∈ w.engine.modules.task.registered

section Chain

variable {strategy : Strategy S O} {cp : CapturePoint} {e e' : Decision}
  {m m' : ModuleState (Strategic S O)} {n : Strategic S O}

theorem unlessSkipped_other {handler : OtherHandler S O}
    (handled : unlessSkipped (other handler) cp e m = .ok (e', n)) :
    n.state = m.others.state ∧ (e' = e ∨ ∃ o, handler cp e m = .ok (e', o)) := by
  unfold unlessSkipped at handled
  split at handled
  · cases handled
    exact ⟨rfl, Or.inl rfl⟩
  · obtain ⟨⟨e₁, o⟩, ran, made⟩ := bind_eq_ok.mp handled
    cases made
    exact ⟨rfl, Or.inr ⟨o, ran⟩⟩

theorem others_run {handlers : List (OtherHandler S O)} (polite : AllPolite handlers)
    (run : runHandlers (others handlers) cp e m = .ok (e', m')) :
    Polite cp e e' ∧ m'.others.state = m.others.state := by
  induction handlers generalizing e m with
  | nil =>
      cases run
      exact ⟨Polite.refl cp _, rfl⟩
  | cons handler handlers ih =>
      simp only [others, List.map_cons] at run
      rw [runHandlers_cons] at run
      obtain ⟨⟨e₁, n⟩, first, run⟩ := bind_eq_ok.mp run
      obtain ⟨state, one⟩ := unlessSkipped_other first
      have step : Polite cp e e₁ := by
        rcases one with rfl | ⟨o, ran⟩
        · exact Polite.refl cp e₁
        · exact polite handler List.mem_cons_self cp e m e₁ o ran
      obtain ⟨later, kept⟩ :=
        ih (fun handler member => polite handler (List.mem_cons_of_mem _ member)) run
      exact ⟨step.trans later, kept.trans state⟩

/-- The items after the strategy handler, which is skipped at no event of a task's life. -/
structure Kept (strategy : Strategy S O) (cp : CapturePoint) (s s' : S) : Prop where
  captured : strategy.knows s' cp.id = !(cp.typeId == eventTaskFini)
  others : ∀ id, id ≠ cp.id → strategy.knows s' id = strategy.knows s id

theorem strategy_handled (lawful : Lawful strategy) (ready : Ready strategy cp e m.others.state)
    (chose : unlessSkipped strategy.handler cp e m = .ok (e', n)) :
    Handled strategy cp e m.others.state m.others.others e' n.state := by
  rw [unlessSkipped, if_neg (by simp [ready.runs])] at chose
  obtain ⟨⟨e', s', o'⟩, ran, made⟩ := bind_eq_ok.mp chose
  cases made
  exact lawful.handled cp e _ _ _ _ _ ready ran

end Chain

theorem chain_run {strategy : Strategy S O} {before after : List (OtherHandler S O)} {cp : CapturePoint}
    {e e' : Decision} {m m' : ModuleState (Strategic S O)} (polite : AllPolite before)
    (polite' : AllPolite after) (run : runHandlers (strategy.chain before after) cp e m = .ok (e', m')) :
    ∃ e₁ m₁ e₂ n, runHandlers (others before) cp e m = .ok (e₁, m₁) ∧ Polite cp e e₁ ∧
      m₁.others.state = m.others.state ∧ unlessSkipped strategy.handler cp e₁ m₁ = .ok (e₂, n) ∧
      Polite cp e₂ e' ∧ m'.others.state = n.state := by
  rw [Strategy.chain, FilteringDrop.runHandlers_append] at run
  obtain ⟨⟨e₁, m₁⟩, front, run⟩ := bind_eq_ok.mp run
  rw [runHandlers_cons] at run
  obtain ⟨⟨e₂, n⟩, chose, run⟩ := bind_eq_ok.mp run
  obtain ⟨first, state⟩ := others_run polite front
  obtain ⟨later, state'⟩ := others_run polite' run
  exact ⟨e₁, m₁, e₂, n, front, first, state, chose, later, state'⟩

theorem selectNext_strategy {draw : O → UInt64 × O} {cp : CapturePoint} {e e' : Decision} {d : TaskId}
    {m m' : ModuleState (Strategic S O)}
    (selected : selectNext (prngRange (prng draw)) cp e m = .ok (d, e', m')) :
    m'.others.state = m.others.state := by
  unfold selectNext at selected
  split at selected
  · obtain ⟨_, _, selected⟩ := bind_eq_ok.mp selected
    cases selected
    rfl
  · split at selected
    · cases selected
      rfl
    · split at selected
      · cases selected
        rfl
      · split at selected <;> cases selected <;> rfl

section Registry

variable {N : Type} {mods : Modules N P} {t rest : List (Record (Tidset × P))} {w : World N P}
  {cp : CapturePoint} {ry : Replay} {e : Decision} {s : Engine (ModuleState N) (Tidset × P)}

structure Registered (w : World N P) (cp : CapturePoint) (e : Decision)
    (s : Engine (ModuleState N) (Tidset × P)) : Prop where
  runs : e.skip = false
  tset : ∀ id ∈ e.tset, id ∈ s.modules.task.registered
  fini : cp.typeId = eventTaskFini → cp.id ∉ s.modules.task.registered
  captured : cp.typeId ≠ eventTaskFini → cp.id ∈ s.modules.task.registered
  others : ∀ id, id ≠ cp.id →
    (id ∈ s.modules.task.registered ↔ id ∈ w.engine.modules.task.registered)

theorem creationSwitch_registered {e' : Decision} {st st' : TaskState}
    (ran : creationSwitch cp e st = .ok (e', st'))
    (known : cp.typeId ≠ eventTaskInit → cp.id ∈ st.registered) :
    e'.skip = e.skip ∧ (cp.typeId = eventTaskFini → cp.id ∉ st'.registered) ∧
      (cp.typeId ≠ eventTaskFini → cp.id ∈ st'.registered) ∧
      ∀ id, id ≠ cp.id → (id ∈ st'.registered ↔ id ∈ st.registered) := by
  unfold creationSwitch at ran
  split_ifs at ran with isCreate isInit isFini
  · cases ran
    have notInit : cp.typeId ≠ eventTaskInit := by rw [isCreate]; decide
    have notFini : cp.typeId ≠ eventTaskFini := by rw [isCreate]; decide
    exact ⟨rfl, fun isFini => absurd isFini notFini, fun _ => known notInit, fun _ _ => Iff.rfl⟩
  · obtain ⟨_, _, ran⟩ := bind_eq_ok.mp ran
    cases ran
    have notFini : cp.typeId ≠ eventTaskFini := by rw [isInit]; decide
    refine ⟨rfl, fun isFini => absurd isFini notFini, fun _ => by simp, ?_⟩
    intro id other
    simp [other]
  · obtain ⟨_, _, ran⟩ := bind_eq_ok.mp ran
    cases ran
    refine ⟨rfl, fun _ => by simp, fun notFini => absurd isFini notFini, ?_⟩
    intro id other
    simp [other]
  · cases ran
    refine ⟨rfl, fun isFini' => absurd isFini' isFini, fun _ => by simp, ?_⟩
    intro id other
    simp [other]

theorem blockCurrent_frame {st st' : Blocking} {e' : Decision}
    (blocked : blockCurrent cp e st = .ok (e', st')) : e'.skip = e.skip ∧ e'.tset = e.tset := by
  unfold blockCurrent at blocked
  by_cases on : blocks cp = true
  · rw [if_pos on] at blocked
    obtain ⟨_, _, blocked⟩ := bind_eq_ok.mp blocked
    obtain ⟨_, _, blocked⟩ := bind_eq_ok.mp blocked
    cases blocked
    exact ⟨rfl, rfl⟩
  · rw [if_neg on] at blocked
    cases blocked
    exact ⟨rfl, rfl⟩

theorem blockingHandle_tset {st st' : Blocking} {returned returned' : Tidset} {e' : Decision}
    (ran : blockingHandle cp e st returned = .ok (e', st', returned')) :
    e'.skip = e.skip ∧ ∀ id ∈ e'.tset, id ∈ e.tset := by
  unfold blockingHandle at ran
  obtain ⟨_, _, ran⟩ := bind_eq_ok.mp ran
  dsimp only at ran
  obtain ⟨⟨e₁, st₁⟩, blocked, ran⟩ := bind_eq_ok.mp ran
  have framed := blockCurrent_frame blocked
  have same : e₁.skip = e.skip ∧ e₁.tset = e.tset := framed
  split_ifs at ran
  · cases ran
    exact ⟨same.1, fun id member => same.2 ▸ member⟩
  · cases ran
    refine ⟨same.1, ?_⟩
    intro id member
    rw [Tidset.mem_subtract, same.2] at member
    exact member.1

theorem captureFirst_registered (wf : WellFormed t) (inv : Inv t w rest) (valid : Valid w cp)
    (known : cp.typeId ≠ eventTaskInit → cp.id ∈ w.engine.modules.task.registered)
    (first : captureFirst mods cp w.engine = .ok (ry, e, s)) : Registered w cp e s := by
  obtain ⟨rc, merged, begun, _⟩ :=
    captureBegin_merged (withBlocking mods) wf inv.cursor inv.now inv.distinct valid.task
  have sameTask := (unmarshal_modules mods (loaded (w.clk + 1) rest) w.engine.modules).1
  unfold captureFirst at first
  rw [begun, ok_bind] at first
  obtain ⟨⟨e₁, task⟩, created, first⟩ := bind_eq_ok.mp first
  obtain ⟨⟨e₂, blocking, returned⟩, blocked, first⟩ := bind_eq_ok.mp first
  cases first
  unfold handleCreation at created
  obtain ⟨_, _, created⟩ := bind_eq_ok.mp created
  obtain ⟨_, _, created⟩ := bind_eq_ok.mp created
  obtain ⟨_, _, created⟩ := bind_eq_ok.mp created
  obtain ⟨⟨e₃, st⟩, switched, created⟩ := bind_eq_ok.mp created
  cases created
  obtain ⟨skip, fini, captured, others⟩ :=
    creationSwitch_registered switched (by rw [sameTask]; exact known)
  obtain ⟨skip', fewer⟩ := blockingHandle_tset blocked
  rw [sameTask] at others
  exact ⟨skip'.trans skip, fewer, fini, captured, others⟩

end Registry

section Run

variable {strategy : Strategy S O} {mods : Modules O P} {t rest : List (Record (Tidset × P))}
  {w w' : World (Strategic S O) P} {cp : CapturePoint} {e e₁ : Decision}
  {s : Engine (ModuleState (Strategic S O)) (Tidset × P)} {m₁ : ModuleState (Strategic S O)}

theorem unmarshal_strategy (mods : Modules O P) (records : List (Record (Tidset × P)))
    (m : ModuleState (Strategic S O)) :
    (records.foldl (unmarshalInto (withBlocking (withStrategy mods))) m).others.state =
      m.others.state := by
  induction records generalizing m with
  | nil => rfl
  | cons r records ih =>
      rw [List.foldl_cons, ih]
      cases kind : r.kind <;> simp [unmarshalInto, kind, withBlocking, withStrategy]

theorem ready_of_registered (follows : Follows strategy w) (valid : Valid w cp)
    (known : cp.typeId ≠ eventTaskInit → cp.id ∈ w.engine.modules.task.registered)
    (tasks : ∀ id ∈ s.modules.task.registered, id ≠ noTask)
    (registered : Registered w cp e s) (polite : Polite cp e e₁) (runs : e₁.skip = false)
    (state : m₁.others.state = w.engine.modules.others.state) :
    Ready strategy cp e₁ m₁.others.state where
  task := valid.task
  runs := runs
  init := by
    intro isInit
    rw [state, ← Bool.not_eq_true, follows]
    exact (valid.init isInit).2
  known := by
    intro notInit
    rw [state, follows]
    exact known notInit
  fini := fun isFini member => registered.fini isFini (registered.tset _ (polite.tset _ member))
  tasks := fun member => tasks noTask (registered.tset _ (polite.tset _ member)) rfl
  members := by
    intro id member other
    rw [state, follows, ← registered.others id other]
    exact registered.tset id (polite.tset id member)

theorem follows_capture (follows : Follows strategy w) (registered : Registered w cp e s)
    (kept : Kept strategy cp w.engine.modules.others.state w'.engine.modules.others.state)
    (task : w'.engine.modules.task = s.modules.task) : Follows strategy w' := by
  intro id
  rw [task]
  by_cases captured : id = cp.id
  · subst captured
    rw [kept.captured]
    by_cases isFini : cp.typeId = eventTaskFini
    · simp [isFini, registered.fini isFini]
    · simp [isFini, registered.captured isFini]
  · rw [kept.others id captured, follows, registered.others id captured]

theorem kept_handled {e₂ : Decision} {n : Strategic S O} (lawful : Lawful strategy)
    (follows : Follows strategy w) (valid : Valid w cp)
    (known : cp.typeId ≠ eventTaskInit → cp.id ∈ w.engine.modules.task.registered)
    (tasks : ∀ id ∈ s.modules.task.registered, id ≠ noTask)
    (registered : Registered w cp e s) (polite : Polite cp e e₁)
    (state : m₁.others.state = w.engine.modules.others.state)
    (chose : unlessSkipped strategy.handler cp e₁ m₁ = .ok (e₂, n)) :
    Kept strategy cp w.engine.modules.others.state n.state := by
  cases skipped : e₁.skip with
  | false =>
      have ready := ready_of_registered follows valid known tasks registered polite skipped state
      have done := strategy_handled lawful ready chose
      rw [← state]
      exact ⟨done.captured, done.others⟩
  | true =>
      have life : cp.typeId ≠ eventTaskInit ∧ cp.typeId ≠ eventTaskFini := by
        constructor <;> intro life
        · simp [polite.skip (Or.inl life) registered.runs] at skipped
        · simp [polite.skip (Or.inr life) registered.runs] at skipped
      simp only [unlessSkipped, skipped, if_true] at chose
      cases chose
      rw [state]
      refine ⟨?_, fun _ _ => rfl⟩
      rw [(follows cp.id).mpr (known life.1)]
      simp [life.2]

theorem follows_move (lawful : Lawful strategy) (wf : WellFormed t) (inv : Inv t w rest)
    (move : Move (withStrategy mods) (strategyRules strategy) t rest w w')
    (follows : Follows strategy w) : Follows strategy w' := by
  cases move with
  | quiet modules recorder running log shouldRecord others =>
      intro id
      rw [modules.task]
      rcases others with others | ⟨cp, chain, _, published, resumed⟩
      · rw [others]
        exact follows id
      · rw [published cp _ _ resumed]
        exact follows id
  | @capture cp handlers prngNext d p e s idle valid admitted decided first opened unmarshalled second
      finished running log =>
      obtain ⟨known, ⟨before, after, rfl, polite, polite'⟩, draw, rfl⟩ := admitted
      have registered := captureFirst_registered wf inv valid known first
      have state : s.modules.others.state = w.engine.modules.others.state := by
        rw [unmarshalled]
        exact unmarshal_strategy mods _ _
      obtain ⟨⟨e₁, m₁⟩, handled, second⟩ := bind_eq_ok.mp second
      obtain ⟨⟨d₂, e₂, m₂⟩, selected, second⟩ := bind_eq_ok.mp second
      obtain ⟨⟨p₃, s₃⟩, ended, second⟩ := bind_eq_ok.mp second
      cases second
      obtain ⟨_, _, same, _⟩ := captureEnd_frame ended
      obtain ⟨e', m₀, e₂', n, _, politely, state', chose, _, state''⟩ :=
        chain_run polite polite' handled
      refine follows_capture follows registered ?_ finished.modules.task
      have last : n.state = w'.engine.modules.others.state := by
        rw [same]
        exact state''.symm.trans (selectNext_strategy selected).symm
      rw [← last]
      exact kept_handled lawful follows valid known
        (fun id member => (opened.registered id member).1) registered politely (state'.trans state) chose
  | @resume capture cp chain running task admitted published handled modules output stopped log =>
      intro id
      rw [modules.task, published cp _ _ handled]
      exact follows id

theorem selectNext_first {N : Type} {prngNext : N → UInt64 × N} {m m' : ModuleState N} {e' : Decision}
    {d : TaskId} (chpt : e.isChpt = true) (free : e.next = noTask) (first : e.selector = .first)
    (some : 0 < e.tset.size) (selected : selectNext (prngRange prngNext) cp e m = .ok (d, e', m')) :
    d = e.tset.get 0 := by
  have size : e.tset.size ≠ 0 := Nat.ne_of_gt some
  rw [selectNext, if_neg (by simp [chpt]), if_neg (by simp [free]), if_neg size, first] at selected
  cases selected
  rfl

/-- A capture with the strategy: whatever the handlers before it decide, the strategy's handler runs
where it works, and where it chooses, the task of the highest rank is dispatched. -/
def Chooses (strategy : Strategy S O) (mods : Modules O P) (w : World (Strategic S O) P)
    (cp : CapturePoint) (before after : List (OtherHandler S O)) : Prop :=
  ∃ ry e s, captureFirst (withStrategy mods) cp w.engine = .ok (ry, e, s) ∧
    ∀ e₁ m₁, runHandlers (others before) cp e s.modules = .ok (e₁, m₁) → e₁.skip = false →
      (strategy.works e₁ m₁.others.state m₁.others.others →
          ∃ result, strategy.handler cp e₁ m₁ = .ok result) ∧
        (strategy.decides e₁ m₁.others.others = true → e₁.next = noTask → ∀ draw d,
          dispatched (withStrategy mods) (strategy.chain before after) (prng draw) cp w.engine =
              .ok d →
            Best (Precedes (strategy.ranks cp e₁ m₁.others.state m₁.others.others)) e₁.tset.tasks d)

theorem chooses_of_follows (lawful : Lawful strategy) (wf : WellFormed t) (inv : Inv t w rest)
    (follows : Follows strategy w) (valid : Valid w cp)
    (known : cp.typeId ≠ eventTaskInit → cp.id ∈ w.engine.modules.task.registered)
    {before after : List (OtherHandler S O)} (polite : AllPolite before) (polite' : AllPolite after) :
    Chooses strategy mods w cp before after := by
  obtain ⟨e, s, first, opened, unmarshalled⟩ := captureFirst_ok (withStrategy mods) wf inv valid
  refine ⟨_, e, s, first, ?_⟩
  intro e₁ m₁ front runs
  have registered := captureFirst_registered wf inv valid known first
  obtain ⟨politely, state⟩ := others_run polite front
  have same : m₁.others.state = w.engine.modules.others.state := by
    rw [state, unmarshalled]
    exact unmarshal_strategy mods _ _
  have ready := ready_of_registered follows valid known
    (fun id member => (opened.registered id member).1) registered politely runs same
  constructor
  · intro works
    obtain ⟨⟨e₂, s₂, o₂⟩, ran⟩ := lawful.runs cp e₁ _ _ ready works
    exact ⟨(e₂, ⟨s₂, o₂⟩), by rw [Strategy.handler, ran, ok_bind]⟩
  intro decides free draw d decided
  rw [(sequencerCapture_eq first (strategy.chain before after) (prng draw)).2] at decided
  obtain ⟨⟨e₃, m₃⟩, chained, decided⟩ := bind_eq_ok.mp decided
  obtain ⟨⟨d', e₄, m₄⟩, selected, took⟩ := map_eq_ok.mp decided
  obtain ⟨e₁', m₁', e₂', n, front', _, _, chose, later, _⟩ := chain_run polite polite' chained
  rw [front] at front'
  cases front'
  obtain ⟨some, chpt, chosen⟩ := (strategy_handled lawful ready chose).chooses decides
  subst chosen
  obtain ⟨_, tset, selector, next, chpt'⟩ := later.readonly rfl
  have sorted : 0 < e₃.tset.size := by
    rw [tset]
    obtain ⟨id, member⟩ := Tidset.size_pos_iff.mp some
    exact Tidset.size_pos_iff.mpr ⟨id, Tidset.mem_sort.mpr member⟩
  have here := selectNext_first (chpt'.trans chpt) (next.trans free) selector sorted selected
  have best := Tidset.best_sort (strategy.ranks cp e₁ m₁.others.state m₁.others.others) some
  cases took
  rw [here, tset]
  exact best

/-- A run with a strategy: its items follow the tasks, and every capture goes well. -/
structure Behaves (strategy : Strategy S O) (mods : Modules O P) (w : World (Strategic S O) P) :
    Prop where
  follows : Follows strategy w
  chooses : ∀ cp before after, Valid w cp →
    (cp.typeId ≠ eventTaskInit → cp.id ∈ w.engine.modules.task.registered) →
      AllPolite before → AllPolite after → Chooses strategy mods w cp before after

theorem behaves_run (lawful : Lawful strategy)
    (empty : ∀ id, strategy.knows strategy.start id = false) (wf : WellFormed t)
    (forced : ∀ r ∈ t, r.kind = .recordForce → 0 < r.clk)
    {input : Option (List (Record (Tidset × P)))} (source : input = some t ∨ t = [] ∧ input = none)
    {recording : Bool} {others : O}
    (reached : Reaches (withStrategy mods) (strategyRules strategy)
      (World.start input (if recording then some [] else none) ⟨strategy.start, others⟩) w) :
    Behaves strategy mods w := by
  have begins := inv_start wf forced source recording (⟨strategy.start, others⟩ : Strategic S O)
  have follows : Follows strategy w := by
    refine reaches_rule wf begins ?_ ?_ reached
    · intro id
      simp [World.start, engineInit, moduleInit, taskInit, empty]
    · intro w w' rest rest' inv _ move follows
      exact follows_move lawful wf inv move follows
  obtain ⟨rest, inv⟩ := reaches_inv wf begins reached
  exact ⟨follows, fun cp before after valid known polite polite' =>
    chooses_of_follows lawful wf inv follows valid known polite polite'⟩

end Run

end Lotto.StrategyRun
