import Lotto.SequencerRun

namespace Lotto.ScheduleRun

open Library.FaultRun
open RecorderReplay SequencerReturns SequencerRun

variable {M P : Type}

/-- What handlers do to the module state. Handlers leave the sequencer's configuration alone. -/
structure Effect (mods : Modules M P) where
  apply : M → M
  keeps : ∀ m, mods.config (apply m) = mods.config m

structure Outcome where
  next : TaskId
  isChpt : Bool
  shouldRecord : Bool
  reason : Reason
  anyTaskFilter : Option Nat

/-- One clock: the tasks that return before it, the capture with the handlers' outcome, and the
capture point that is resumed. -/
structure Step (mods : Modules M P) where
  returns : Tidset
  cp : CapturePoint
  outcome : Outcome
  handled : Effect mods
  resumed : CapturePoint
  resumeHandled : Effect mods

def returnPoint (id : TaskId) : CapturePoint :=
  { plainPoint id 0 0 with blocking := true }

variable {mods : Modules M P}

def Step.decide (step : Step mods) (e : Decision) : Decision :=
  { e with
    isChpt := step.outcome.isChpt
    shouldRecord := step.outcome.shouldRecord
    reason := step.outcome.reason
    anyTaskFilter := step.outcome.anyTaskFilter }

def Step.dispatch (step : Step mods) : Dispatch M := fun _ e m =>
  .ok (step.outcome.next, step.decide e, step.handled.apply m)

def returnAll (ids : List TaskId) (s : Engine M P) : Except Fault (Engine M P) :=
  ids.foldlM (fun s id => sequencerReturn (returnPoint id) s) s

def runStep (step : Step mods) (s : Engine M P) : Except Fault (Plan × Engine M P) := do
  let s ← returnAll step.returns.tasks s
  let (p, s) ← sequencerCapture mods step.dispatch step.cp s
  let s ← sequencerResume mods (fun _ m => .ok (step.resumeHandled.apply m)) step.resumed s
  .ok (p, s)

def runSteps : List (Step mods) → Engine M P → Except Fault (List Plan × Engine M P)
  | [], s => .ok ([], s)
  | step :: steps, s => do
      let (p, s) ← runStep step s
      let (ps, s) ← runSteps steps s
      .ok (p :: ps, s)

def nextAt (config : SequencerConfig) (t : List (Record P)) (clk : Nat) (step : Step mods) :
    TaskId :=
  plannedNext config step.cp (answer clk t) step.outcome.next

/-- The main task's resume at the capture point of type 0, which is never recorded. -/
def Step.isBootstrap (step : Step mods) : Bool :=
  step.resumed.id == 1 && step.resumed.typeId == 0

/-- The rules that write a record whatever was planned, for the planned task `next`. -/
def Step.asksRecord (config : SequencerConfig) (next : TaskId) (step : Step mods) : Bool :=
  step.outcome.shouldRecord ||
    granularityRecords config.gran (next != step.cp.id) step.outcome.isChpt ||
    (0 < config.slack && step.cp.blocking && step.resumed.id != step.cp.id)

/-- Whether the clock of `step` is recorded when `next` was planned. -/
def Step.isRecorded (config : SequencerConfig) (next : TaskId) (step : Step mods) : Bool :=
  !step.isBootstrap && (step.asksRecord config next ||
    (step.cp.typeId != eventTaskCreate && (config.slack == 0 || !step.cp.blocking) &&
      next != step.resumed.id))

structure Admissible (config : SequencerConfig) (t : List (Record P)) (clk : Nat)
    (step : Step mods) : Prop where
  task : step.cp.id ≠ noTask
  agrees : LoadAgrees step.cp (answer clk t) step.outcome.next
  planned : nextAt config t clk step ≠ noTask
  create : step.cp.typeId = eventTaskCreate →
    (answer clk t).status ≠ .done ∨ nextAt config t clk step = anyTask
  resumed : step.resumed.id ≠ noTask

structure Planned (config : SequencerConfig) (t : List (Record P)) (clk : Nat) (step : Step mods)
    (p : Plan) : Prop where
  now : p.clk = clk
  next : p.next = nextAt config t clk step
  create : step.cp.typeId = eventTaskCreate → p.actions &&& actionWake = 0

structure Position (mods : Modules M P) (config : SequencerConfig) (t : List (Record P)) (clk : Nat)
    (s : Engine M P) (rest : List (Record P)) : Prop where
  cursor : Cursor t clk s.recorder rest
  now : s.seq.clk = clk
  unblocked : s.seq.unblocked = .empty
  pending : s.seq.pendingUnblocked = .empty
  config : mods.config s.modules = config

def Scheduled (t : List (Record P)) : Prop :=
  ∀ r ∈ t, r.kind = .recordSched ∨ r.kind = .recordExit

def entry (r : Record P) : Nat × TaskId := (r.clk, r.id)

theorem returnAll_ok (ids : List TaskId) (s : Engine M P)
    (distinct : (s.seq.pendingUnblocked.tasks ++ ids).Nodup) :
    ∃ pending, returnAll ids s =
        .ok { s with seq := { s.seq with pendingUnblocked := pending } } ∧
      pending.tasks = s.seq.pendingUnblocked.tasks ++ ids := by
  induction ids generalizing s with
  | nil => exact ⟨s.seq.pendingUnblocked, rfl, by simp⟩
  | cons id ids ih =>
      have absent : id ∉ s.seq.pendingUnblocked.tasks := by
        intro member
        exact (List.nodup_append.mp distinct).2.2 id member id List.mem_cons_self rfl
      obtain ⟨first, insert, tasks⟩ := addPendingUnblocked_spec s.seq id absent
      have moved : (first.tasks ++ ids).Nodup := by simpa [tasks] using distinct
      obtain ⟨pending, run, all⟩ :=
        ih { s with seq := { s.seq with pendingUnblocked := first } } moved
      refine ⟨pending, ?_, by rw [all, tasks, List.append_assoc, List.singleton_append]⟩
      have one : sequencerReturn (returnPoint id) s =
          .ok { s with seq := { s.seq with pendingUnblocked := first } } := by
        simp [sequencerReturn, returnPoint, plainPoint, insert]
      rw [returnAll, List.foldlM_cons, one, ok_bind]
      exact run

theorem config_unmarshal (mods : Modules M P) {records : List (Record P)}
    (scheduled : Scheduled records) (m : M) :
    mods.config (records.foldl (unmarshalInto mods) m) = mods.config m := by
  induction records generalizing m with
  | nil => rfl
  | cons r records ih =>
      have tail : Scheduled records := fun later member =>
        scheduled later (List.mem_cons_of_mem _ member)
      rw [List.foldl_cons, ih tail]
      rcases scheduled r List.mem_cons_self with kind | kind
      · simp only [unmarshalInto, kind]
        exact mods.config_persistent r.data m
      · simp only [unmarshalInto, kind]

theorem isCloned_eq_false {r : Record P} (kind : r.kind = .recordSched ∨ r.kind = .recordExit) :
    isCloned r = false := by
  rcases kind with kind | kind <;> simp [isCloned, kind, Kind.isAfterKind_eq]

theorem loaded_scheduled {t rest : List (Record P)} {clk : Nat} (scheduled : Scheduled t)
    (inside : rest.Sublist t) : Scheduled (loaded clk rest) := fun r member =>
  scheduled r (inside.subset ((List.takeWhile_sublist _).subset member))

theorem no_clones {records : List (Record P)} (scheduled : Scheduled records) :
    records.filter isCloned = [] := by
  rw [List.filter_eq_nil_iff]
  intro r member
  simp [isCloned_eq_false (scheduled r member)]

theorem runStep_ok {config : SequencerConfig} (gran : isGranularities config.gran = true)
    {t : List (Record P)} (wf : WellFormed t) (scheduled : Scheduled t) {clk : Nat}
    {s : Engine M P} {rest : List (Record P)} (pos : Position mods config t clk s rest)
    {step : Step mods} (good : Admissible config t (clk + 1) step) :
    ∃ p s' rest' new, runStep step s = .ok (p, s') ∧
      Position mods config t (clk + 1) s' rest' ∧ Planned config t (clk + 1) step p ∧
      s'.recorder.output = s.recorder.output.map (· ++ new) ∧
      new.map entry = (if step.isRecorded config (nextAt config t (clk + 1) step) then
        [(clk + 1, step.resumed.id)] else []) ∧
      ∀ r ∈ new, r.kind = .recordSched := by
  have suffix : rest.Sublist t := by
    rw [← pos.cursor.split]
    exact List.sublist_append_right _ _
  have loads : Scheduled (loaded (clk + 1) rest) := loaded_scheduled scheduled suffix
  obtain ⟨pending, returned, _⟩ := returnAll_ok step.returns.tasks s (by
    simpa [pos.pending, Tidset.empty] using step.returns.nodup)
  let s₁ : Engine M P := { s with seq := { s.seq with pendingUnblocked := pending } }
  obtain ⟨rc, begun, cursor, before, output⟩ :=
    captureBegin_ok (s := s₁) mods wf pos.cursor pos.now pos.unblocked good.task
  rw [no_clones loads] at output
  let ry := answer (clk + 1) t
  let e := step.decide (prepareDecision (clk + 1) pending ry)
  let m := step.handled.apply ((loaded (clk + 1) rest).foldl (unmarshalInto mods) s.modules)
  let s₂ : Engine M P :=
    { seq := { s.seq with clk := clk + 1, unblocked := pending, pendingUnblocked := .empty }
      recorder := rc
      modules := m }
  have configured : mods.config s₂.modules = config := by
    rw [← pos.config, ← config_unmarshal mods loads s.modules]
    exact step.handled.keeps _
  have replaying : ry.status ≠ .done → e.replay = true := by
    intro status
    simpa [e, Step.decide, prepareDecision] using status
  obtain ⟨actions, ended, wake⟩ := captureEnd_ok (e := e) mods configured gran good.agrees good.planned
    (fun isCreate => (good.create isCreate).imp_left replaying)
  let s₃ : Engine M P :=
    { s₂ with
      seq := trackDecision step.cp e (nextAt config t (clk + 1) step)
        (e.shouldRecord || granularityRecords config.gran
          (nextAt config t (clk + 1) step != step.cp.id) e.isChpt) s₂.seq }
  obtain ⟨rc', resumed, cursor', output'⟩ := sequencerResume_ok (s := s₃) mods cursor before rfl rfl
    rfl (fun _ m => step.resumeHandled.apply m) good.resumed
  have configured' : mods.config (step.resumeHandled.apply s₃.modules) = config := by
    rw [step.resumeHandled.keeps]
    exact configured
  have marks : resumeMarks config step.resumed s₃.seq =
      step.isRecorded config (nextAt config t (clk + 1) step) := rfl
  rw [configured', marks] at output'
  let new := if step.isRecorded config (nextAt config t (clk + 1) step) then
    [schedRecord mods (step.resumeHandled.apply s₃.modules) step.resumed (clk + 1)] else []
  have run : runStep step s = .ok
      (preparePlan step.cp e step.outcome.next (nextAt config t (clk + 1) step) actions (clk + 1),
        { s₃ with recorder := rc', modules := step.resumeHandled.apply s₃.modules }) := by
    have captured : sequencerCapture mods step.dispatch step.cp s₁ = .ok
        (preparePlan step.cp e step.outcome.next (nextAt config t (clk + 1) step) actions (clk + 1),
          s₃) := by
      simp only [sequencerCapture, begun, ok_bind]
      exact ended
    simp only [runStep, returned, ok_bind, captured, resumed, s₁]
  refine ⟨_, _, remaining (clk + 1) rest, new, run, ⟨cursor', rfl, rfl, rfl, configured'⟩,
    ⟨rfl, rfl, wake⟩, ?_, ?_, ?_⟩
  · have nothing : s₃.recorder.output = s.recorder.output := by simpa using output
    rw [← nothing]
    exact output'
  · simp only [new]
    split <;> simp [entry, schedRecord]
  · intro r member
    simp only [new] at member
    split at member
    · rw [List.mem_singleton] at member
      rw [member]
      rfl
    · simp at member

theorem runSteps_ok {config : SequencerConfig} (gran : isGranularities config.gran = true)
    {t : List (Record P)} (wf : WellFormed t) (scheduled : Scheduled t) (steps : List (Step mods))
    {clk : Nat} {s : Engine M P} {rest : List (Record P)}
    (pos : Position mods config t clk s rest)
    (good : ∀ tick ∈ steps.zipIdx (clk + 1), Admissible config t tick.2 tick.1) :
    ∃ ps s' rest' new, runSteps steps s = .ok (ps, s') ∧
      Position mods config t (clk + steps.length) s' rest' ∧
      List.Forall₂ (fun tick p => Planned config t tick.2 tick.1 p) (steps.zipIdx (clk + 1)) ps ∧
      s'.recorder.output = s.recorder.output.map (· ++ new) ∧
      new.map entry = ((steps.zipIdx (clk + 1)).filter
        (fun tick => tick.1.isRecorded config (nextAt config t tick.2 tick.1))).map
          (fun tick => (tick.2, tick.1.resumed.id)) ∧
      ∀ r ∈ new, r.kind = .recordSched := by
  induction steps generalizing clk s rest with
  | nil => exact ⟨[], s, rest, [], rfl, pos, List.Forall₂.nil, by simp, rfl, by simp⟩
  | cons step steps ih =>
      rw [List.zipIdx_cons] at good ⊢
      obtain ⟨p, s₁, rest₁, new, run, pos₁, planned, output, entries, kinds⟩ :=
        runStep_ok gran wf scheduled pos (good (step, clk + 1) List.mem_cons_self)
      obtain ⟨ps, s', rest', later, runs, pos', plans, output', entries', kinds'⟩ :=
        ih pos₁ (fun tick member => good tick (List.mem_cons_of_mem _ member))
      refine ⟨p :: ps, s', rest', new ++ later, ?_, ?_, List.Forall₂.cons planned plans, ?_, ?_, ?_⟩
      · simp only [runSteps, run, ok_bind, runs]
      · rw [List.length_cons, Nat.add_comm steps.length 1, ← Nat.add_assoc]
        exact pos'
      · rw [output', output]
        cases s.recorder.output <;> simp
      · rw [List.map_append, entries, entries']
        by_cases recorded : step.isRecorded config (nextAt config t (clk + 1) step) = true <;>
          simp [recorded]
      · intro r member
        rcases List.mem_append.mp member with first | second
        · exact kinds r first
        · exact kinds' r second

/-- A run and its end: the plans and the output trace, with an EXIT record unless the run was
cut off. -/
def recordTrace (steps : List (Step mods)) (exit : Option (CapturePoint × Reason))
    (s : Engine M P) : Except Fault (List Plan × List (Record P)) := do
  let (ps, s) ← runSteps steps s
  match exit with
  | none => .ok (ps, s.recorder.output.getD [])
  | some (cp, reason) => do
      let s ← sequencerFini mods cp reason s
      .ok (ps, s.recorder.output.getD [])

/-- `t` has a SCHED record of the resumed task at each clock that `mark` selects, and ends in an
EXIT record of the last clock if `exited`. -/
structure RecordedBy (mark : Step mods × Nat → Bool) (steps : List (Step mods)) (exited : Bool)
    (t : List (Record P)) : Prop where
  intro ::
  split : ∃ new tail, t = new ++ tail ∧
    new.map entry =
      ((steps.zipIdx 1).filter mark).map (fun tick => (tick.2, tick.1.resumed.id)) ∧
    (∀ r ∈ new, r.kind = .recordSched) ∧
    (exited = false ∧ tail = [] ∨
      exited = true ∧ ∃ last, tail = [last] ∧ last.kind = .recordExit ∧ last.clk = steps.length)

theorem recordTrace_ok {config : SequencerConfig} (gran : isGranularities config.gran = true)
    {t : List (Record P)} (wf : WellFormed t) (scheduled : Scheduled t) (steps : List (Step mods))
    {input : Option (List (Record P))} (source : input = some t ∨ t = [] ∧ input = none) (m : M)
    (configured : mods.config m = config) (recording : Bool)
    (good : ∀ tick ∈ steps.zipIdx 1, Admissible config t tick.2 tick.1)
    (exit : Option (CapturePoint × Reason)) :
    ∃ ps out, recordTrace steps exit (engineInit input (if recording then some [] else none) m) =
        .ok (ps, out) ∧
      List.Forall₂ (fun tick p => Planned config t tick.2 tick.1 p) (steps.zipIdx 1) ps ∧
      (recording = true → RecordedBy
        (fun tick => tick.1.isRecorded config (nextAt config t tick.2 tick.1)) steps exit.isSome
        out) := by
  have forced : ∀ r ∈ t, r.kind = .recordForce → 0 < r.clk := by
    intro r member force
    rcases scheduled r member with kind | kind <;> simp [kind] at force
  have start : Position mods config t 0
      (engineInit input (if recording then some [] else none) m) t :=
    ⟨cursor_init wf forced source recording, rfl, rfl, rfl, configured⟩
  obtain ⟨ps, s, rest, new, run, pos, plans, output, entries, kinds⟩ :=
    runSteps_ok gran wf scheduled steps start good
  rw [Nat.zero_add] at pos entries plans
  have written : recording = true → s.recorder.output = some new := by
    rintro rfl
    simpa [engineInit, recorderInit] using output
  cases exit with
  | none =>
      refine ⟨ps, s.recorder.output.getD [], by simp [recordTrace, run], plans, ?_⟩
      intro on
      refine ⟨new, [], ?_, entries, kinds, Or.inl ⟨rfl, rfl⟩⟩
      simp [written on]
  | some final =>
      obtain ⟨cp, reason⟩ := final
      obtain ⟨rc, fini, output', _⟩ :=
        recorderFini_cursor mods pos.cursor s.modules cp.id reason
      refine ⟨ps, rc.output.getD [], ?_, plans, ?_⟩
      · simp [recordTrace, run, sequencerFini, pos.now, fini]
      · intro on
        refine ⟨new, [exitRecord mods s.modules steps.length cp.id reason], ?_, entries, kinds,
          Or.inr ⟨rfl, _, rfl, rfl, rfl⟩⟩
        simp [output', written on]

theorem decides_unique {t : List (Record P)} (order : t.Pairwise Follows) {clk : Nat}
    {a b : Record P} (inA : a ∈ t) (inB : b ∈ t) (decideA : decides clk a = true)
    (decideB : decides clk b = true) : a = b := by
  induction t with
  | nil => simp at inA
  | cons r rest ih =>
      have unique : decides clk r = true → ∀ later ∈ rest, decides clk later = false :=
        decision_unique order
      rcases List.mem_cons.mp inA with rfl | tailA <;> rcases List.mem_cons.mp inB with rfl | tailB
      · rfl
      · simp [unique decideA b tailB] at decideB
      · simp [unique decideB a tailA] at decideA
      · exact ih (List.pairwise_cons.mp order).2 tailA tailB

theorem answer_sched {t : List (Record P)} (order : t.Pairwise Follows) {r : Record P}
    (member : r ∈ t) (kind : r.kind = .recordSched) : answer r.clk t = ⟨.load, r.id⟩ := by
  have now : decides r.clk r = true := by simp [decides, isDecision, kind]
  cases found : t.find? (decides r.clk) with
  | none => simp [List.find?_eq_none.mp found r member] at now
  | some other =>
      have same : other = r := decides_unique order (List.mem_of_find?_eq_some found) member
        (List.find?_some found) now
      simp [answer, found, same, kind]

theorem answer_silent {t : List (Record P)} {clk : Nat}
    (silent : ∀ r ∈ t, decides clk r = false) :
    answer clk t = ⟨if t.any (notYet clk) then .cont else .done, noTask⟩ := by
  have none : t.find? (decides clk) = none := by
    rw [List.find?_eq_none]
    intro r member
    simp [silent r member]
  simp [answer, none]

theorem tick_unique {steps : List (Step mods)} {first second : Step mods × Nat}
    (inFirst : first ∈ steps.zipIdx 1) (inSecond : second ∈ steps.zipIdx 1)
    (same : first.2 = second.2) : first = second := by
  obtain ⟨step, clk⟩ := first
  obtain ⟨step', clk'⟩ := second
  obtain rfl : clk = clk' := same
  have one := (List.mem_zipIdx inFirst).2.2
  have two := (List.mem_zipIdx inSecond).2.2
  rw [one, two]

theorem tick_bounds {steps : List (Step mods)} {tick : Step mods × Nat}
    (member : tick ∈ steps.zipIdx 1) : 0 < tick.2 ∧ tick.2 ≤ steps.length := by
  have bounds := List.mem_zipIdx member
  omega

section RecordedBy

variable {mark : Step mods × Nat → Bool} {steps : List (Step mods)} {exited : Bool}
  {t : List (Record P)}

theorem RecordedBy.sched (recorded : RecordedBy mark steps exited t) {r : Record P}
    (member : r ∈ t) (kind : r.kind = .recordSched) :
    ∃ tick ∈ steps.zipIdx 1, mark tick = true ∧ entry r = (tick.2, tick.1.resumed.id) := by
  obtain ⟨new, tail, rfl, entries, _, ending⟩ := recorded.split
  rcases List.mem_append.mp member with inNew | inTail
  · have listed : entry r ∈ new.map entry := List.mem_map_of_mem inNew
    rw [entries] at listed
    obtain ⟨tick, selected, same⟩ := List.mem_map.mp listed
    obtain ⟨inside, marked⟩ := List.mem_filter.mp selected
    exact ⟨tick, inside, marked, same.symm⟩
  · rcases ending with ⟨_, rfl⟩ | ⟨_, last, rfl, exit, _⟩
    · simp at inTail
    · rw [List.mem_singleton] at inTail
      rw [inTail, exit] at kind
      simp at kind

theorem RecordedBy.marked_mem (recorded : RecordedBy mark steps exited t) {tick : Step mods × Nat}
    (member : tick ∈ steps.zipIdx 1) (marked : mark tick = true) :
    ∃ r ∈ t, r.kind = .recordSched ∧ r.clk = tick.2 ∧ r.id = tick.1.resumed.id := by
  obtain ⟨new, tail, rfl, entries, kinds, _⟩ := recorded.split
  have selected : (tick.2, tick.1.resumed.id) ∈
      ((steps.zipIdx 1).filter mark).map (fun tick => (tick.2, tick.1.resumed.id)) :=
    List.mem_map_of_mem (List.mem_filter.mpr ⟨member, marked⟩)
  rw [← entries] at selected
  obtain ⟨r, inNew, same⟩ := List.mem_map.mp selected
  obtain ⟨clk, id⟩ := Prod.mk.inj same
  exact ⟨r, List.mem_append_left _ inNew, kinds r inNew, clk, id⟩

theorem RecordedBy.scheduled (recorded : RecordedBy mark steps exited t) : Scheduled t := by
  obtain ⟨new, tail, rfl, _, kinds, ending⟩ := recorded.split
  intro r member
  rcases List.mem_append.mp member with inNew | inTail
  · exact Or.inl (kinds r inNew)
  · rcases ending with ⟨_, rfl⟩ | ⟨_, last, rfl, exit, _⟩
    · simp at inTail
    · rw [List.mem_singleton] at inTail
      rw [inTail]
      exact Or.inr exit

theorem RecordedBy.wellFormed (recorded : RecordedBy mark steps exited t) : WellFormed t := by
  have positive : ∀ r ∈ t, r.kind = .recordSched → 0 < r.clk ∧ r.clk ≤ steps.length := by
    intro r member kind
    obtain ⟨tick, inside, _, same⟩ := recorded.sched member kind
    have clk : r.clk = tick.2 := congrArg Prod.fst same
    rw [clk]
    exact tick_bounds inside
  have scheduled := recorded.scheduled
  obtain ⟨new, tail, rfl, entries, kinds, ending⟩ := recorded.split
  constructor
  · have clocks : (new.map entry).Pairwise (fun a b => a.1 < b.1) := by
      rw [entries, List.pairwise_map]
      have indexed : (steps.zipIdx 1).Pairwise (fun a b => a.2 < b.2) := by
        rw [← List.pairwise_map (f := Prod.snd) (R := fun a b => a < b), List.zipIdx_map_snd]
        exact List.pairwise_lt_range'
      exact indexed.sublist List.filter_sublist
    rw [List.pairwise_map] at clocks
    have follows : new.Pairwise Follows := by
      refine clocks.imp_of_mem ?_
      intro a b inA inB less
      exact ⟨by simp [kinds a inA], by simp [kinds b inB], Or.inl less⟩
    rcases ending with ⟨_, rfl⟩ | ⟨_, last, rfl, exit, clk⟩
    · simpa using follows
    · refine List.pairwise_append.mpr ⟨follows, List.pairwise_singleton _ _, ?_⟩
      intro a inA b inB
      rw [List.mem_singleton] at inB
      subst inB
      have bound := (positive a (List.mem_append_left _ inA) (kinds a inA)).2
      refine ⟨by simp [kinds a inA], by simp [exit], ?_⟩
      rw [clk]
      rcases Nat.lt_or_eq_of_le bound with less | same
      · exact Or.inl less
      · exact Or.inr ⟨same, Or.inr exit⟩
  · intro r member
    have kind := scheduled r member
    refine ⟨?_, ?_, fun sched => (positive r member sched).1⟩
    · rcases kind with kind | kind <;> simp [kind]
    · intro start
      rcases kind with kind | kind <;> simp [kind] at start

theorem RecordedBy.answer_marked (recorded : RecordedBy mark steps exited t)
    {tick : Step mods × Nat} (member : tick ∈ steps.zipIdx 1) (marked : mark tick = true) :
    answer tick.2 t = ⟨.load, tick.1.resumed.id⟩ := by
  obtain ⟨r, inside, kind, clk, id⟩ := recorded.marked_mem member marked
  rw [← clk, ← id]
  exact answer_sched recorded.wellFormed.order inside kind

theorem RecordedBy.unmarked (recorded : RecordedBy mark steps exited t)
    {tick : Step mods × Nat} (member : tick ∈ steps.zipIdx 1) (unmarked : mark tick = false) :
    ∀ r ∈ t, r.kind = .recordSched → r.clk ≠ tick.2 := by
  intro r inside kind clk
  obtain ⟨other, inOther, marked, same⟩ := recorded.sched inside kind
  have sameClk : other.2 = tick.2 := (congrArg Prod.fst same).symm.trans clk
  rw [tick_unique inOther member sameClk, unmarked] at marked
  simp at marked

theorem RecordedBy.answer_unmarked (recorded : RecordedBy mark steps exited t)
    {tick : Step mods × Nat} (member : tick ∈ steps.zipIdx 1) (unmarked : mark tick = false) :
    answer tick.2 t = ⟨if t.any (notYet tick.2) then .cont else .done, noTask⟩ := by
  refine answer_silent ?_
  intro r inside
  rcases recorded.scheduled r inside with kind | kind
  · simp [decides, recorded.unmarked member unmarked r inside kind]
  · simp [decides, isDecision, kind]

end RecordedBy

end Lotto.ScheduleRun
