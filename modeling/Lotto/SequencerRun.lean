import Mathlib.Tactic.IntervalCases
import Lotto.RecorderReplay
import Lotto.SequencerReturns

namespace Lotto.SequencerRun

open Library.FaultRun
open RecorderReplay SequencerReturns

variable {M P : Type}

/-- What `record_granularities_from` can return: a set of the three granularities, ANY or
INVALID. -/
def isGranularities (gran : UInt64) : Bool :=
  gran < 8 || gran == 0xFFFFFFFF || gran == 0xFFFFFFFFFFFFFFFF

def granularityRecords (gran : UInt64) (switched isChpt : Bool) : Bool :=
  (gran &&& 1 != 0 && switched) || (gran &&& 2 != 0 && isChpt) || gran &&& 4 != 0

theorem isGranularities_cases {gran : UInt64} (valid : isGranularities gran = true) :
    gran ∈ [0, 1, 2, 3, 4, 5, 6, 7, 0xFFFFFFFF, 0xFFFFFFFFFFFFFFFF] := by
  simp only [isGranularities, Bool.or_eq_true, decide_eq_true_eq, beq_iff_eq] at valid
  rcases valid with (small | rfl) | rfl
  · have bound : gran.toNat < 8 := small
    have cast : gran = UInt64.ofNat gran.toNat := by simp
    rw [cast]
    interval_cases gran.toNat <;> decide
  · decide
  · decide

theorem granularityLoop_eq {gran : UInt64} (valid : isGranularities gran = true)
    (switched isChpt : Bool) :
    granularityLoop gran switched isChpt 33 1 = .ok (granularityRecords gran switched isChpt) := by
  have member := isGranularities_cases valid
  simp only [List.mem_cons, List.not_mem_nil, or_false] at member
  rcases member with rfl | rfl | rfl | rfl | rfl | rfl | rfl | rfl | rfl | rfl <;>
    cases switched <;> cases isChpt <;> rfl

def plannedNext (config : SequencerConfig) (cp : CapturePoint) (ry : Replay) (next : TaskId) :
    TaskId :=
  match ry.status with
  | .load | .force => ry.id
  | .done => next
  | .cont => if 0 < config.slack && cp.blocking then cp.id else next

def LoadAgrees (cp : CapturePoint) (ry : Replay) (next : TaskId) : Prop :=
  ry.status = .load → next = anyTask ∨ next = ry.id ∨ cp.blocking = true

theorem replayNext_planned {config : SequencerConfig} {cp : CapturePoint} {ry : Replay}
    {next : TaskId} (agrees : LoadAgrees cp ry next) :
    replayNext config cp ry next = .ok (plannedNext config cp ry next) := by
  cases status : ry.status <;> simp only [replayNext, plannedNext, status]
  have passes : (next == anyTask || next == ry.id || cp.blocking) = true := by
    simpa [or_assoc] using agrees status
  rw [passes]
  rfl

theorem planActions_ok {cp : CapturePoint} {next : TaskId} {e : Decision} (task : next ≠ noTask)
    (create : cp.typeId = eventTaskCreate → e.replay = true ∨ next = anyTask) :
    ∃ actions, planActions cp next e = .ok actions ∧
      (cp.typeId = eventTaskCreate → actions &&& actionWake = 0) := by
  have someTask : (next != noTask) = true := by simpa using task
  have actions : ∃ actions, actionsFor cp next e = .ok actions ∧
      (cp.typeId = eventTaskCreate → actions = actionBlock ||| actionYield ||| actionResume) := by
    by_cases isCreate : cp.typeId = eventTaskCreate
    · have passes : (e.replay || next == anyTask) = true := by simpa using create isCreate
      exact ⟨_, by simp only [actionsFor, isCreate, if_true, passes]; rfl, fun _ => rfl⟩
    · simp only [isCreate, false_implies, and_true]
      unfold actionsFor
      rw [if_neg isCreate]
      split_ifs
      all_goals exact ⟨_, by first | (rw [someTask]; rfl) | rfl⟩
  obtain ⟨plain, found, exact⟩ := actions
  unfold planActions
  split_ifs
  · exact ⟨_, rfl, fun _ => by decide⟩
  · refine ⟨plain ||| actionShutdown, by rw [found]; rfl, fun isCreate => ?_⟩
    rw [exact isCreate]
    decide
  · refine ⟨plain, found, fun isCreate => ?_⟩
    rw [exact isCreate]
    decide

theorem updateUnblocked_empty {seq : Sequencer} (unblocked : seq.unblocked = .empty)
    (pending : seq.pendingUnblocked = .empty) : updateUnblocked seq = .ok seq := by
  cases seq with
  | mk clk u p =>
      subst unblocked
      subst pending
      rfl

theorem captureBegin_merged (mods : Modules M P) {t : List (Record P)} (wf : WellFormed t)
    {clk : Nat} {s : Engine M P} {rest : List (Record P)} (cur : Cursor t clk s.recorder rest)
    (now : s.seq.clk = clk)
    (distinct : (s.seq.unblocked.tasks ++ s.seq.pendingUnblocked.tasks).Nodup) {cp : CapturePoint}
    (task : cp.id ≠ noTask) :
    ∃ rc merged, captureBegin mods cp s = .ok (answer (clk + 1) t,
        prepareDecision (clk + 1) merged (answer (clk + 1) t),
        { seq := { s.seq with clk := clk + 1, unblocked := merged, pendingUnblocked := .empty }
          recorder := rc
          modules := (loaded (clk + 1) rest).foldl (unmarshalInto mods) s.modules }) ∧
      merged.tasks = s.seq.unblocked.tasks ++ s.seq.pendingUnblocked.tasks ∧
      Cursor t (clk + 1) rc (remaining (clk + 1) rest) ∧ rc.recordClk ≤ clk ∧
      rc.output = s.recorder.output.map (· ++ (loaded (clk + 1) rest).filter isCloned) := by
  subst now
  obtain ⟨rc, replayed, cursor, before, output⟩ := recorderReplay_cursor mods wf cur s.modules
  obtain ⟨merged, update, tasks⟩ :=
    updateUnblocked_spec { s.seq with clk := s.seq.clk + 1 } distinct
  have someTask : (cp.id != noTask) = true := by simpa using task
  refine ⟨rc, merged, ?_, tasks, cursor, before, output⟩
  simp only [captureBegin, someTask, check_true, ok_bind, replayed, update]

theorem captureBegin_ok (mods : Modules M P) {t : List (Record P)} (wf : WellFormed t) {clk : Nat}
    {s : Engine M P} {rest : List (Record P)} (cur : Cursor t clk s.recorder rest)
    (now : s.seq.clk = clk) (idle : s.seq.unblocked = .empty) {cp : CapturePoint}
    (task : cp.id ≠ noTask) :
    ∃ rc, captureBegin mods cp s = .ok (answer (clk + 1) t,
        prepareDecision (clk + 1) s.seq.pendingUnblocked (answer (clk + 1) t),
        { seq := { s.seq with
            clk := clk + 1, unblocked := s.seq.pendingUnblocked, pendingUnblocked := .empty }
          recorder := rc
          modules := (loaded (clk + 1) rest).foldl (unmarshalInto mods) s.modules }) ∧
      Cursor t (clk + 1) rc (remaining (clk + 1) rest) ∧ rc.recordClk ≤ clk ∧
      rc.output = s.recorder.output.map (· ++ (loaded (clk + 1) rest).filter isCloned) := by
  obtain ⟨rc, merged, begun, tasks, kept⟩ := captureBegin_merged mods wf cur now
    (by simpa [idle, Tidset.empty] using s.seq.pendingUnblocked.nodup) task
  have same : merged = s.seq.pendingUnblocked := by
    apply Tidset.ext
    simpa [idle, Tidset.empty] using tasks
  subst same
  exact ⟨rc, begun, kept⟩

theorem captureEnd_ok (mods : Modules M P) {cp : CapturePoint} {ry : Replay} {d : TaskId}
    {e : Decision} {s : Engine M P} {config : SequencerConfig}
    (configured : mods.config s.modules = config) (gran : isGranularities config.gran = true)
    (agrees : LoadAgrees cp ry d) (task : plannedNext config cp ry d ≠ noTask)
    (create : cp.typeId = eventTaskCreate →
      e.replay = true ∨ plannedNext config cp ry d = anyTask) :
    ∃ actions, captureEnd mods cp ry d e s =
        .ok (preparePlan cp e d (plannedNext config cp ry d) actions s.seq.clk,
          { s with
            seq := trackDecision cp e (plannedNext config cp ry d)
              (e.shouldRecord || granularityRecords config.gran
                (plannedNext config cp ry d != cp.id) e.isChpt) s.seq }) ∧
      (cp.typeId = eventTaskCreate → actions &&& actionWake = 0) := by
  obtain ⟨actions, planned, wake⟩ := planActions_ok task create
  refine ⟨actions, ?_, wake⟩
  have replayed : replayNext config cp ry d = .ok (plannedNext config cp ry d) :=
    replayNext_planned agrees
  generalize plannedNext config cp ry d = next at *
  have someTask : (next != noTask) = true := by simpa using task
  have wakes : checkWake (preparePlan cp e d next actions s.seq.clk) = .ok () := by
    simp [checkWake, preparePlan, someTask]
  have record : decideRecord config cp e (preparePlan cp e d next actions s.seq.clk) =
      .ok (e.shouldRecord || granularityRecords config.gran (next != cp.id) e.isChpt) := by
    cases asked : e.shouldRecord with
    | true => simp [decideRecord, asked]
    | false => simp [decideRecord, asked, granularityShouldRecord, granularityLoop_eq gran, preparePlan]
  simp only [captureEnd, configured, replayed, planned, wakes, record, ok_bind]

def resumeMarks (config : SequencerConfig) (cp : CapturePoint) (seq : Sequencer) : Bool :=
  !(cp.id == 1 && cp.typeId == 0) && resumeRecords config cp seq

/-- `sequencer_resume` of the clock that was just captured. The returns in between are merged,
except by the main task's first resume. -/
theorem sequencerResume_merged (mods : Modules M P) {t : List (Record P)} {clk : Nat}
    {s : Engine M P} {rest : List (Record P)} (cur : Cursor t (clk + 1) s.recorder rest)
    (before : s.recorder.recordClk ≤ clk) (now : s.seq.clk = clk + 1)
    (distinct : (s.seq.unblocked.tasks ++ s.seq.pendingUnblocked.tasks).Nodup)
    (chain : CapturePoint → M → Except Fault M) {cp : CapturePoint} {m : M}
    (handled : chain cp s.modules = .ok m) (task : cp.id ≠ noTask) :
    ∃ rc seq, sequencerResume mods chain cp s = .ok { seq, recorder := rc, modules := m } ∧
      (seq = s.seq ∨ updateUnblocked s.seq = .ok seq) ∧ Cursor t (clk + 1) rc rest ∧
      rc.output = s.recorder.output.map (· ++
        if resumeMarks (mods.config m) cp s.seq then
          [schedRecord mods m cp (clk + 1)] else []) := by
  have started : s.seq.clk ≠ 0 := by omega
  have silent : s.recorder.output = s.recorder.output.map (· ++ ([] : List (Record P))) := by simp
  simp only [sequencerResume, handled, ok_bind, if_neg started]
  by_cases first : cp.id = 1 ∧ cp.typeId = 0
  · refine ⟨s.recorder, s.seq, by rw [if_pos first], Or.inl rfl, cur, ?_⟩
    simp [resumeMarks, first.1, first.2]
  · have marks : resumeMarks (mods.config m) cp s.seq = resumeRecords (mods.config m) cp s.seq := by
      have notFirst : (cp.id == 1 && cp.typeId == 0) = false := by simpa using first
      simp [resumeMarks, notFirst]
    obtain ⟨merged, update, _⟩ := updateUnblocked_spec s.seq distinct
    rw [if_neg first, marks, update]
    by_cases records : resumeRecords (mods.config m) cp s.seq = true
    · obtain ⟨rc, recorded, cursor, output⟩ := recorderRecord_cursor mods cur before m cp task
      refine ⟨rc, _, ?_, Or.inr rfl, cursor, by rw [if_pos records, output]⟩
      simp only [resumeRecord, records, if_true, now, recorded, ok_bind]
    · refine ⟨s.recorder, _, ?_, Or.inr rfl, cur, by rw [if_neg records]; exact silent⟩
      simp only [resumeRecord, if_neg records, ok_bind]

theorem sequencerResume_ok (mods : Modules M P) {t : List (Record P)} {clk : Nat}
    {s : Engine M P} {rest : List (Record P)} (cur : Cursor t (clk + 1) s.recorder rest)
    (before : s.recorder.recordClk ≤ clk) (now : s.seq.clk = clk + 1)
    (unblocked : s.seq.unblocked = .empty) (pending : s.seq.pendingUnblocked = .empty)
    (handlers : CapturePoint → M → M) {cp : CapturePoint} (task : cp.id ≠ noTask) :
    ∃ rc, sequencerResume mods (fun cp m => .ok (handlers cp m)) cp s =
        .ok { s with recorder := rc, modules := handlers cp s.modules } ∧
      Cursor t (clk + 1) rc rest ∧
      rc.output = s.recorder.output.map (· ++
        if resumeMarks (mods.config (handlers cp s.modules)) cp s.seq then
          [schedRecord mods (handlers cp s.modules) cp (clk + 1)] else []) := by
  obtain ⟨rc, seq, resumed, merged, kept⟩ := sequencerResume_merged mods cur before now
    (by simp [unblocked, pending, Tidset.empty]) (fun cp m => .ok (handlers cp m)) rfl task
  have same : seq = s.seq := by
    rcases merged with same | update
    · exact same
    · rw [updateUnblocked_empty unblocked pending] at update
      exact (Except.ok.inj update).symm
  subst same
  exact ⟨rc, resumed, kept⟩

end Lotto.SequencerRun
