import Lotto.Library.Lockstep
import Lotto.ScheduleRun

namespace Lotto.ScheduleFidelity

open Library.FaultRun Library.Lockstep
open RecorderReplay SequencerReturns SequencerRun ScheduleRun

variable {M N P : Type} {mods : Modules M P} {reader : Modules N P}

/-- A step of a recording run: a concrete decision is resumed by that task, or by the blocked
task itself within the slack, and `handle_creation` leaves task creation to ANY_TASK. -/
structure Valid (config : SequencerConfig) (step : Step mods) : Prop where
  task : step.cp.id ≠ noTask
  taskReal : step.cp.id ≠ anyTask
  next : step.outcome.next ≠ noTask
  resumed : step.resumed.id ≠ noTask
  resumedReal : step.resumed.id ≠ anyTask
  concrete : step.outcome.next ≠ anyTask → step.resumed.id = step.outcome.next ∨
    0 < config.slack ∧ step.cp.blocking = true ∧ step.resumed.id = step.cp.id
  create : step.cp.typeId = eventTaskCreate → step.outcome.next = anyTask

structure Same (step : Step mods) (restep : Step reader) : Prop where
  id : restep.cp.id = step.cp.id
  typeId : restep.cp.typeId = step.cp.typeId
  blocking : restep.cp.blocking = step.cp.blocking
  next : restep.outcome.next = step.outcome.next
  resumed : restep.resumed.id ≠ noTask

structure SameDecision (step : Step mods) (restep : Step reader) : Prop extends Same step restep where
  isChpt : restep.outcome.isChpt = step.outcome.isChpt
  shouldRecord : restep.outcome.shouldRecord = step.outcome.shouldRecord
  resumedId : restep.resumed.id = step.resumed.id
  resumedType : restep.resumed.typeId = step.resumed.typeId

/-- An ANY_TASK decision that is resumed at the bootstrap capture point and so never recorded. -/
def Unrecordable (step : Step mods) : Prop :=
  step.cp.typeId ≠ eventTaskCreate ∧ step.outcome.next = anyTask ∧ step.isBootstrap = true

/-- The plan resumes the task of the recording, or leaves a creation that the trace `t` does not
record to any task, without waking one. -/
def PlanFollows (t : List (Record P)) (tick : Step mods × Nat) (p : Plan) : Prop :=
  p.clk = tick.2 ∧ (p.next = tick.1.resumed.id ∨
    tick.1.cp.typeId = eventTaskCreate ∧
      (∀ r ∈ t, r.kind = .recordSched → r.clk ≠ tick.2) ∧
      p.next = anyTask ∧ p.actions &&& actionWake = 0)

theorem answer_nil (clk : Nat) : answer clk ([] : List (Record P)) = ⟨.done, noTask⟩ := rfl

theorem wellFormed_nil : WellFormed ([] : List (Record P)) := ⟨List.Pairwise.nil, by simp⟩

theorem admissible_fresh {config : SequencerConfig} {step : Step mods} (valid : Valid config step)
    (clk : Nat) : Admissible config ([] : List (Record P)) clk step where
  task := valid.task
  agrees := by
    intro load
    rw [answer_nil] at load
    simp at load
  planned := valid.next
  create := fun isCreate => Or.inr (valid.create isCreate)
  resumed := valid.resumed

def unrecordedNext (config : SequencerConfig) (waiting : Bool) (step : Step mods) : TaskId :=
  if waiting && (0 < config.slack && step.cp.blocking) then step.cp.id else step.outcome.next

section Replay

variable {config config' : SequencerConfig} {mark : Step mods × Nat → Bool}
  {steps : List (Step mods)} {exited : Bool} {t : List (Record P)} {tick : Step mods × Nat}

theorem nextAt_marked (recorded : RecordedBy mark steps exited t) (member : tick ∈ steps.zipIdx 1)
    (marked : mark tick = true) (restep : Step reader) :
    nextAt config' t tick.2 restep = tick.1.resumed.id := by
  simp [nextAt, plannedNext, recorded.answer_marked member marked]

theorem nextAt_unmarked (recorded : RecordedBy mark steps exited t)
    (member : tick ∈ steps.zipIdx 1) (unmarked : mark tick = false) (restep : Step reader) :
    nextAt config' t tick.2 restep =
      unrecordedNext config' (t.any (notYet tick.2)) restep := by
  rw [nextAt, plannedNext, recorded.answer_unmarked member unmarked]
  cases t.any (notYet tick.2) <;> simp [unrecordedNext]

theorem admissible_replay (recorded : RecordedBy mark steps exited t)
    (member : tick ∈ steps.zipIdx 1) (valid : Valid config tick.1) {restep : Step reader}
    (same : Same tick.1 restep) : Admissible config' t tick.2 restep := by
  have task : restep.cp.id ≠ noTask := by
    rw [same.id]
    exact valid.task
  have next : restep.outcome.next ≠ noTask := by
    rw [same.next]
    exact valid.next
  cases marked : mark tick with
  | true =>
      have answered := recorded.answer_marked member marked
      refine ⟨task, ?_, ?_, ?_, same.resumed⟩
      · intro _
        rw [answered, same.next, same.blocking]
        by_cases any : tick.1.outcome.next = anyTask
        · exact Or.inl any
        · rcases valid.concrete any with chosen | ⟨_, blocking, _⟩
          · exact Or.inr (Or.inl chosen.symm)
          · exact Or.inr (Or.inr blocking)
      · rw [nextAt_marked recorded member marked]
        exact valid.resumed
      · intro _
        rw [answered]
        exact Or.inl (by simp)
  | false =>
      have answered := recorded.answer_unmarked member marked
      have planned : nextAt config' t tick.2 restep =
          unrecordedNext config' (t.any (notYet tick.2)) restep :=
        nextAt_unmarked recorded member marked restep
      refine ⟨task, ?_, ?_, ?_, same.resumed⟩
      · intro load
        rw [answered] at load
        split at load <;> simp at load
      · rw [planned, unrecordedNext]
        split
        · exact task
        · exact next
      · intro isCreate
        cases wait : t.any (notYet tick.2) with
        | true =>
            left
            simp [answered, wait]
        | false =>
            right
            rw [planned, unrecordedNext, wait]
            rw [same.typeId] at isCreate
            simpa [same.next] using valid.create isCreate

end Replay

/-- With no slack, a clock is left unrecorded only for a creation, for a decision that was
resumed as it was made, or at the bootstrap capture point. -/
theorem unrecorded_cases {config : SequencerConfig} (slack : config.slack = 0) {step : Step mods}
    (valid : Valid config step) (recordable : ¬ Unrecordable step)
    (unrecorded : step.isRecorded config step.outcome.next = false) :
    step.cp.typeId = eventTaskCreate ∧ step.outcome.next = anyTask ∨
      step.resumed.id = step.outcome.next := by
  by_cases isCreate : step.cp.typeId = eventTaskCreate
  · exact Or.inl ⟨isCreate, valid.create isCreate⟩
  · right
    by_cases any : step.outcome.next = anyTask
    · have notFirst : step.isBootstrap = false := by
        by_contra first
        exact recordable ⟨isCreate, any, by simpa using first⟩
      have parts : step.asksRecord config step.outcome.next = false ∧
          step.outcome.next = step.resumed.id := by
        simpa [Step.isRecorded, notFirst, isCreate, slack] using unrecorded
      exact parts.2.symm
    · rcases valid.concrete any with chosen | ⟨positive, _⟩
      · exact chosen
      · omega

/-- A run recorded without slack is followed by every replay of its output trace, at every clock
and for any granularity of either run. -/
theorem replay_follows_recording (m : M) (slack : (mods.config m).slack = 0)
    (gran : isGranularities (mods.config m).gran = true) (steps : List (Step mods))
    (valid : ∀ step ∈ steps, Valid (mods.config m) step)
    (recordable : ∀ step ∈ steps, ¬ Unrecordable step) (exit : Option (CapturePoint × Reason))
    (n : N) (slack' : (reader.config n).slack = 0)
    (gran' : isGranularities (reader.config n).gran = true) (resteps : List (Step reader))
    (same : List.Forall₂ Same steps resteps) (recording : Bool)
    (exit' : Option (CapturePoint × Reason)) :
    ∃ plans out plans' out',
      recordTrace steps exit (engineInit none (some []) m) = .ok (plans, out) ∧
      recordTrace resteps exit'
        (engineInit (some out) (if recording then some [] else none) n) = .ok (plans', out') ∧
      List.Forall₂ (PlanFollows out) (steps.zipIdx 1) plans' := by
  have validTick : ∀ tick ∈ steps.zipIdx 1, Valid (mods.config m) tick.1 := fun tick member =>
    valid tick.1 (List.fst_mem_of_mem_zipIdx member)
  obtain ⟨plans, out, recordRun, _, record⟩ := recordTrace_ok gran wellFormed_nil (by simp [Scheduled])
    steps (Or.inr ⟨rfl, rfl⟩) m rfl true
    (fun tick member => admissible_fresh (validTick tick member) tick.2) exit
  have recorded := record rfl
  have pairs := forall₂_zipIdx same 1
  have good : ∀ retick ∈ resteps.zipIdx 1,
      Admissible (reader.config n) out retick.2 retick.1 := by
    intro retick member
    obtain ⟨tick, inside, clk, sameStep⟩ := forall₂_exists_left pairs member
    rw [← clk]
    exact admissible_replay recorded inside (validTick tick inside) sameStep
  obtain ⟨plans', out', replayRun, planned, _⟩ := recordTrace_ok gran' recorded.wellFormed
    recorded.scheduled resteps (Or.inl rfl) n rfl recording good exit'
  refine ⟨plans, out, plans', out', recordRun, replayRun, ?_⟩
  have joined := (List.forall₂_and_left _ _).mpr
    ⟨fun tick (member : tick ∈ steps.zipIdx 1) => member, forall₂_comp pairs planned⟩
  refine joined.imp ?_
  rintro tick p ⟨member, retick, ⟨clk, sameStep⟩, plan⟩
  refine ⟨plan.now.trans clk.symm, ?_⟩
  have next := plan.next
  rw [← clk] at next
  cases marked : tick.1.isRecorded (mods.config m) tick.1.outcome.next with
  | true =>
      left
      rw [next]
      exact nextAt_marked recorded member marked retick.1
  | false =>
      have silent : p.next = tick.1.outcome.next := by
        rw [next, nextAt_unmarked recorded member marked retick.1, unrecordedNext, slack',
          sameStep.next]
        simp
      have inSteps : tick.1 ∈ steps := List.fst_mem_of_mem_zipIdx member
      rcases unrecorded_cases slack (valid _ inSteps) (recordable _ inSteps) marked with
        ⟨isCreate, any⟩ | chosen
      · right
        refine ⟨isCreate, recorded.unmarked member marked, silent.trans any, ?_⟩
        exact plan.create (sameStep.typeId.trans isCreate)
      · left
        rw [silent, chosen]

def noEffect : Effect noModules := ⟨fun m => m, fun _ => rfl⟩

/-- Task `id` captures, the handlers choose `next` and `resumed` goes on, all with event type
`typeId`. -/
def sampleStep (id : TaskId) (typeId : TypeId) (next resumed : TaskId) : Step noModules :=
  { returns := .empty
    cp := plainPoint id typeId 0
    outcome :=
      { next, isChpt := true, shouldRecord := false, reason := .unknown, anyTaskFilter := none }
    handled := noEffect
    resumed := plainPoint resumed typeId 0
    resumeHandled := noEffect }

theorem sampleStep_valid {id next resumed : TaskId} {typeId : TypeId} (task : id ≠ noTask)
    (taskReal : id ≠ anyTask) (chosen : next ≠ noTask) (resumes : resumed ≠ noTask)
    (resumedReal : resumed ≠ anyTask) (concrete : next ≠ anyTask → resumed = next)
    (create : typeId ≠ eventTaskCreate) :
    Valid { gran := 0, slack := 0 } (sampleStep id typeId next resumed) :=
  ⟨task, taskReal, chosen, resumes, resumedReal, fun some => Or.inl (concrete some),
    fun isCreate => absurd isCreate create⟩

theorem sampleStep_same {id next resumed : TaskId} {typeId : TypeId} (resumes : resumed ≠ noTask) :
    SameDecision (sampleStep id typeId next resumed) (sampleStep id typeId next resumed) :=
  ⟨⟨rfl, rfl, rfl, rfl, resumes⟩, rfl, rfl, rfl, rfl⟩

theorem replay_follows_recording_any_task :
    ∃ plans out plans' out',
      recordTrace [sampleStep 1 5 anyTask 2] none (engineInit none (some []) ()) =
        .ok (plans, out) ∧
      recordTrace [sampleStep 1 5 anyTask 2] none (engineInit (some out) none ()) =
        .ok (plans', out') ∧
      List.Forall₂ (PlanFollows out) ([sampleStep 1 5 anyTask 2].zipIdx 1) plans' := by
  refine replay_follows_recording () rfl (by decide) [sampleStep 1 5 anyTask 2] ?_ ?_ none () rfl
    (by decide) [sampleStep 1 5 anyTask 2] ?_ false none
  · intro step member
    rw [List.mem_singleton] at member
    subst member
    exact sampleStep_valid (by decide) (by decide) (by decide) (by decide) (by decide) (by decide)
      (by decide)
  · intro step member
    rw [List.mem_singleton] at member
    subst member
    rintro ⟨_, _, first⟩
    exact absurd first (by decide)
  · exact List.Forall₂.cons (sampleStep_same (by decide)).toSame List.Forall₂.nil

/-- An ANY_TASK decision that task 1 resumes at a capture point of type 0 is not recorded, and
the replay plans ANY_TASK at a clock before the last record. -/
theorem bootstrap_decision_not_replayed :
    (∀ step ∈ [sampleStep 1 0 anyTask 1, sampleStep 1 0 anyTask 2],
      Valid (noModules.config ()) step) ∧
    ∃ plans out plans' out',
      recordTrace [sampleStep 1 0 anyTask 1, sampleStep 1 0 anyTask 2] none
        (engineInit none (some []) ()) = .ok (plans, out) ∧
      out.map entry = [(2, 2)] ∧
      recordTrace [sampleStep 1 0 anyTask 1, sampleStep 1 0 anyTask 2] none
        (engineInit (some out) none ()) = .ok (plans', out') ∧
      plans'.map Plan.next = [anyTask, 2] := by
  constructor
  · intro step member
    simp only [List.mem_cons, List.not_mem_nil, or_false] at member
    rcases member with rfl | rfl <;>
      exact sampleStep_valid (by decide) (by decide) (by decide) (by decide) (by decide) (by decide)
        (by decide)
  · exact ⟨_, _, _, _, rfl, rfl, rfl, rfl⟩

def Unrecorded (t : List (Record P)) (clk : Nat) : Prop :=
  ∀ r ∈ t, r.kind = .recordSched → r.clk ≠ clk

instance (t : List (Record P)) (clk : Nat) : Decidable (Unrecorded t clk) :=
  inferInstanceAs (Decidable (∀ r ∈ t, r.kind = .recordSched → r.clk ≠ clk))

/-- A decision of the trace `t` survives being replayed and recorded again under `config`: the
clock is recorded whether or not the decision is the task that is resumed, or the decision can be
told without a record. The replay plans the task of the record, or what the handlers decide. -/
def Kept (config : SequencerConfig) (t : List (Record P)) (last : Nat) (tick : Step mods × Nat) :
    Prop :=
  (tick.1.isBootstrap = false ∧ tick.1.asksRecord config
      (if Unrecorded t tick.2 then tick.1.outcome.next else tick.1.resumed.id) = true) ∨
    if 0 < config.slack ∧ tick.1.cp.blocking = true ∧ tick.2 < last then
      tick.1.resumed.id = tick.1.cp.id
    else
      tick.1.outcome.next = tick.1.resumed.id ∨
        tick.1.cp.typeId = eventTaskCreate ∧ Unrecorded t tick.2

section Rerecord

variable {config config₁ config₂ : SequencerConfig} {steps : List (Step mods)} {exited : Bool}
  {t₀ t₁ : List (Record P)} {tick : Step mods × Nat}

end Rerecord

end Lotto.ScheduleFidelity
