import Lotto.Library.FaultRun
import Lotto.RecorderReplay

namespace Lotto.RecorderKinds

open Library.FaultRun
open RecorderReplay (isCloned recorderClock recorderRun)

variable {M P : Type}

/-- The calls of the engine into the recorder, and the handlers changing the module state in
between. -/
inductive RecorderOp (M P : Type) where
  | replay (clk : Nat)
  | record (cp : CapturePoint) (clk : Nat)
  | infoSave (r : Record P)
  | fini (clk : Nat) (id : TaskId) (reason : Reason)
  | handlers (m : M)

def RecorderOp.savesInfo : RecorderOp M P → Bool
  | .infoSave _ => true
  | _ => false

def recorderStep (mods : Modules M P) (s : Recorder P × M) :
    RecorderOp M P → Except Fault (Recorder P × M)
  | .replay clk => do
      let (_, rc, m) ← recorderReplay mods s.1 s.2 clk
      .ok (rc, m)
  | .record cp clk => do
      let rc ← recorderRecord mods s.1 s.2 cp clk
      .ok (rc, s.2)
  | .infoSave r => do
      let rc ← infoRecordSave s.1 r
      .ok (rc, s.2)
  | .fini clk id reason => do
      let rc ← recorderFini mods s.1 s.2 clk id reason
      .ok (rc, s.2)
  | .handlers m => .ok (s.1, m)

def recorderSteps (mods : Modules M P) (ops : List (RecorderOp M P)) (s : Recorder P × M) :
    Except Fault (Recorder P × M) :=
  ops.foldlM (recorderStep mods) s

def isUnexpected : Fault → Bool
  | .recorderUnexpected _ | .statemgrUnexpected _ => true
  | _ => false

def isAccepted : Kind → Bool
  | .recordSched | .recordStart | .recordExit | .recordConfig | .recordOpaque | .recordForce => true
  | _ => false

theorem check_error {cond : Bool} {fault found : Fault} (failed : check cond fault = .error found) :
    found = fault := by
  cases cond with
  | true => simp at failed
  | false => simpa using failed.symm

theorem recorderOut_ok {rc rc' : Recorder P} {r : Record P} (written : recorderOut rc r = .ok rc') :
    rc' = { rc with output := rc.output.map (· ++ [r]) } := by
  cases rc with
  | mk input output =>
      cases output with
      | none =>
          simp only [recorderOut, Except.ok.injEq] at written
          rw [← written]
          rfl
      | some out =>
          simp only [recorderOut, bind_eq_ok, Except.ok.injEq] at written
          obtain ⟨_, _, written⟩ := written
          rw [← written]
          rfl

theorem recorderOut_error {rc : Recorder P} {r : Record P} {fault : Fault}
    (failed : recorderOut rc r = .error fault) : isUnexpected fault = false := by
  simp only [recorderOut] at failed
  split at failed
  · simp at failed
  · simp only [bind_eq_error, reduceCtorEq, and_false, exists_false, or_false] at failed
    rw [check_error failed]
    rfl

theorem unmarshal_accepted (mods : Modules M P) {r : Record P} (accepted : isAccepted r.kind = true)
    (m : M) : ∃ m', statemgrRecordUnmarshal mods r m = .ok m' := by
  cases kind : r.kind <;> simp [kind, isAccepted] at accepted <;>
    exact ⟨_, by rw [statemgrRecordUnmarshal, kind]⟩

theorem unmarshal_not_info {mods : Modules M P} {r : Record P} {m m' : M}
    (unmarshal : statemgrRecordUnmarshal mods r m = .ok m') : r.kind ≠ .recordInfo := by
  intro kind
  simp [statemgrRecordUnmarshal, kind] at unmarshal

theorem replayRecord_error {clk : Nat} {r : Record P} (accepted : isAccepted r.kind = true)
    {ry : Replay} {rc : Recorder P} {fault : Fault}
    (failed : replayRecord clk r ry rc = .error fault) : isUnexpected fault = false := by
  cases kind : r.kind <;> simp [kind, isAccepted] at accepted <;>
    simp [replayRecord, kind, bind_eq_error] at failed
  · rcases failed with failed | ⟨_, failed⟩
    · rw [check_error failed]
      rfl
    · exact recorderOut_error failed
  · exact recorderOut_error failed
  · rcases failed with failed | ⟨_, failed⟩
    · rw [check_error failed]
      rfl
    · exact recorderOut_error failed

theorem replayRecord_ok {clk : Nat} {r : Record P} (notInfo : r.kind ≠ .recordInfo) {ry ry' : Replay}
    {rc rc' : Recorder P} (replayed : replayRecord clk r ry rc = .ok (ry', rc')) :
    rc' = { rc with output := rc.output.map (· ++ if isCloned r then [r] else []) } := by
  cases kind : r.kind <;>
    simp only [replayRecord, kind, bind_eq_ok, Except.ok.injEq, Prod.mk.injEq, reduceCtorEq,
      ne_eq, not_true_eq_false] at replayed notInfo
  case recordSched | recordExit | recordOpaque =>
    simp [isCloned, kind, Kind.isAfterKind_eq, ← replayed.2]
  case recordConfig =>
    obtain ⟨_, written, _, rfl⟩ := replayed
    simpa [isCloned, kind, Kind.isAfterKind_eq] using recorderOut_ok written
  case recordStart | recordForce =>
    obtain ⟨_, _, _, written, _, rfl⟩ := replayed
    simpa [isCloned, kind, Kind.isAfterKind_eq] using recorderOut_ok written

structure Advanced (rest : List (Record P)) (rc rc' : Recorder P) : Prop where
  input : ∀ left, rc'.input = some left → ∀ r ∈ left, r ∈ rest
  output : ∃ clones, rc'.output = rc.output.map (· ++ clones) ∧ ∀ r ∈ clones, isCloned r = true
  info : rc'.infoLoaded = rc.infoLoaded

theorem replayNext_advanced {mods : Modules M P} {clk : Nat} {rest : List (Record P)}
    {ry ry' : Replay} {rc rc' : Recorder P} {m m' : M}
    (replayed : recorderReplayNext mods clk rest ry rc m = .ok (ry', rc', m')) :
    Advanced rest rc rc' := by
  induction rest generalizing ry rc m with
  | nil =>
      simp only [recorderReplayNext, Except.ok.injEq, Prod.mk.injEq] at replayed
      obtain ⟨_, rfl, _⟩ := replayed
      exact ⟨by simp, ⟨[], by simp, by simp⟩, rfl⟩
  | cons r rest ih =>
      simp only [recorderReplayNext] at replayed
      split at replayed
      · have tail := ih replayed
        exact ⟨fun left kept later member => List.mem_cons_of_mem _ (tail.input left kept later member),
          tail.output, tail.info⟩
      · rw [bind_eq_ok] at replayed
        obtain ⟨_, _, replayed⟩ := replayed
        split at replayed
        · simp only [Except.ok.injEq, Prod.mk.injEq] at replayed
          obtain ⟨_, rfl, _⟩ := replayed
          exact ⟨by simp, ⟨[], by simp, by simp⟩, rfl⟩
        · simp only [bind_eq_ok, Prod.exists] at replayed
          obtain ⟨m₁, unmarshal, ry₁, rc₁, record, replayed⟩ := replayed
          have first := replayRecord_ok (unmarshal_not_info unmarshal) record
          have tail := ih replayed
          obtain ⟨clones, written, cloned⟩ := tail.output
          refine ⟨fun left kept later member => List.mem_cons_of_mem _ (tail.input left kept later member),
            ⟨(if isCloned r then [r] else []) ++ clones, ?_, ?_⟩, by rw [tail.info, first]⟩
          · rw [written, first]
            cases rc.output <;> simp
          · intro later member
            rcases List.mem_append.mp member with new | old
            · split at new <;> simp_all
            · exact cloned later old

theorem replayNext_error {mods : Modules M P} {clk : Nat} {rest : List (Record P)} {ry : Replay}
    {rc : Recorder P} {m : M} (accepted : ∀ r ∈ rest, isAccepted r.kind = true) {fault : Fault}
    (failed : recorderReplayNext mods clk rest ry rc m = .error fault) :
    isUnexpected fault = false := by
  induction rest generalizing ry rc m with
  | nil => simp [recorderReplayNext] at failed
  | cons r rest ih =>
      have acceptedTail : ∀ later ∈ rest, isAccepted later.kind = true := fun later member =>
        accepted later (List.mem_cons_of_mem _ member)
      simp only [recorderReplayNext] at failed
      split at failed
      · exact ih acceptedTail failed
      · rw [bind_eq_error] at failed
        rcases failed with failed | ⟨_, _, failed⟩
        · rw [check_error failed]
          rfl
        · split at failed
          · simp at failed
          · obtain ⟨m₁, unmarshal⟩ := unmarshal_accepted mods (accepted r List.mem_cons_self) m
            simp only [unmarshal, bind_eq_error, Except.ok.injEq, reduceCtorEq, false_or,
              exists_eq_left', Prod.exists] at failed
            rcases failed with failed | ⟨ry₁, rc₁, _, failed⟩
            · exact replayRecord_error (accepted r List.mem_cons_self) failed
            · exact ih acceptedTail failed

theorem recorderReplay_advanced {mods : Modules M P} {clk : Nat} {ry : Replay} {rc rc' : Recorder P}
    {m m' : M} (replayed : recorderReplay mods rc m clk = .ok (ry, rc', m')) :
    Advanced (rc.input.getD []) rc rc' := by
  simp only [recorderReplay, bind_eq_ok] at replayed
  obtain ⟨_, _, _, _, replayed⟩ := replayed
  split at replayed
  · rename_i idle
    simp only [Except.ok.injEq, Prod.mk.injEq] at replayed
    obtain ⟨_, rfl, _⟩ := replayed
    exact ⟨by simp [idle], ⟨[], by simp, by simp⟩, rfl⟩
  · rename_i trace present
    have next := replayNext_advanced replayed
    rw [present]
    exact ⟨next.input, next.output, next.info⟩

theorem recorderRecord_ok {mods : Modules M P} {clk : Nat} {rc rc' : Recorder P} {m : M}
    {cp : CapturePoint} (recorded : recorderRecord mods rc m cp clk = .ok rc') :
    rc'.input = rc.input ∧ rc'.infoLoaded = rc.infoLoaded ∧
      rc'.output = rc.output.map (· ++ [schedRecord mods m cp clk]) := by
  simp only [recorderRecord, bind_eq_ok] at recorded
  obtain ⟨_, _, _, _, _, _, _, _, _, _, recorded⟩ := recorded
  split at recorded
  · rename_i silent
    simp only [Except.ok.injEq] at recorded
    subst recorded
    have nothing : rc.output = none := by simpa using silent
    exact ⟨rfl, rfl, by simp [nothing]⟩
  · rw [bind_eq_ok] at recorded
    obtain ⟨rc₁, written, recorded⟩ := recorded
    simp only [Except.ok.injEq] at recorded
    rw [← recorded, recorderOut_ok written]
    exact ⟨rfl, rfl, rfl⟩

theorem recorderRecord_error {mods : Modules M P} {clk : Nat} {rc : Recorder P} {m : M}
    {cp : CapturePoint} {fault : Fault} (failed : recorderRecord mods rc m cp clk = .error fault) :
    isUnexpected fault = false := by
  simp only [recorderRecord, bind_eq_error] at failed
  rcases failed with failed | ⟨_, _, failed | ⟨_, _, failed | ⟨_, _, failed | ⟨_, _, failed |
    ⟨_, _, failed⟩⟩⟩⟩⟩
  case inr.inr.inr.inr.inr =>
    split at failed
    · simp at failed
    · simp only [bind_eq_error, reduceCtorEq, and_false, exists_false, or_false] at failed
      exact recorderOut_error failed
  all_goals
    rw [check_error failed]
    rfl

/-- Every operation only appends accepted records to the output, and INFO records exactly when
it saves one. -/
theorem recorderStep_output {mods : Modules M P} {op : RecorderOp M P} {s s' : Recorder P × M}
    (step : recorderStep mods s op = .ok s') :
    ∃ new, s'.1.output = s.1.output.map (· ++ new) ∧
      (∀ r ∈ new, isAccepted r.kind = true ∨ r.kind = .recordInfo) ∧
      ((∃ r ∈ new, r.kind = .recordInfo) ↔ op.savesInfo = true) := by
  cases op with
  | replay clk =>
      simp only [recorderStep, bind_eq_ok, Prod.exists, Except.ok.injEq] at step
      obtain ⟨_, rc, m, replayed, rfl⟩ := step
      obtain ⟨clones, written, cloned⟩ := (recorderReplay_advanced replayed).output
      have kinds : ∀ r ∈ clones, isAccepted r.kind = true ∧ r.kind ≠ .recordInfo := by
        intro r member
        have copy := cloned r member
        cases kind : r.kind <;> simp [isCloned, Kind.isAfterKind_eq, kind] at copy <;>
          simp [isAccepted]
      refine ⟨clones, written, fun r member => Or.inl (kinds r member).1, ?_⟩
      simp only [RecorderOp.savesInfo, Bool.false_eq_true, iff_false]
      rintro ⟨r, member, kind⟩
      exact (kinds r member).2 kind
  | record cp clk =>
      simp only [recorderStep, bind_eq_ok, Except.ok.injEq] at step
      obtain ⟨rc, recorded, rfl⟩ := step
      refine ⟨_, (recorderRecord_ok recorded).2.2, ?_, ?_⟩ <;>
        simp [schedRecord, isAccepted, RecorderOp.savesInfo]
  | infoSave r =>
      simp only [recorderStep, infoRecordSave, bind_eq_ok, Except.ok.injEq] at step
      obtain ⟨rc, ⟨_, info, written⟩, rfl⟩ := step
      have kind : r.kind = .recordInfo := by simpa using (check_ok_iff _ _).mp info
      refine ⟨[r], by rw [recorderOut_ok written], ?_, ?_⟩ <;> simp [kind, RecorderOp.savesInfo]
  | fini clk id reason =>
      simp only [recorderStep, recorderFini, bind_eq_ok, Except.ok.injEq] at step
      obtain ⟨rc, ⟨_, _, written⟩, rfl⟩ := step
      split at written
      · simp only [Except.ok.injEq] at written
        subst written
        exact ⟨[], by simp, by simp, by simp [RecorderOp.savesInfo]⟩
      · refine ⟨_, by rw [recorderOut_ok written], ?_, ?_⟩ <;>
          simp [exitRecord, isAccepted, RecorderOp.savesInfo]
  | handlers m =>
      simp only [recorderStep, Except.ok.injEq] at step
      subst step
      exact ⟨[], by simp, by simp, by simp [RecorderOp.savesInfo]⟩

theorem recorderSteps_output {mods : Modules M P} {ops : List (RecorderOp M P)}
    {s s' : Recorder P × M} (run : recorderSteps mods ops s = .ok s') :
    ∃ new, s'.1.output = s.1.output.map (· ++ new) ∧
      (∀ r ∈ new, isAccepted r.kind = true ∨ r.kind = .recordInfo) ∧
      ((∃ r ∈ new, r.kind = .recordInfo) ↔ ∃ op ∈ ops, op.savesInfo = true) := by
  induction ops generalizing s with
  | nil =>
      obtain rfl : s = s' := by simpa [recorderSteps, pure, Except.pure] using run
      exact ⟨[], by simp, by simp, by simp⟩
  | cons op ops ih =>
      simp only [recorderSteps, List.foldlM_cons, bind_eq_ok] at run
      obtain ⟨middle, step, run⟩ := run
      obtain ⟨new, written, accepted, saves⟩ := recorderStep_output step
      obtain ⟨later, written', accepted', saves'⟩ := ih run
      refine ⟨new ++ later, ?_, ?_, ?_⟩
      · rw [written', written]
        cases s.1.output <;> simp
      · intro r member
        rcases List.mem_append.mp member with inNew | inLater
        · exact accepted r inNew
        · exact accepted' r inLater
      · simp only [List.mem_append, or_and_right, exists_or, saves, saves', List.mem_cons,
          exists_eq_left]

theorem recorderClock_ok {mods : Modules M P} {rc rc' : Recorder P} {m m' : M}
    {resumed : Option CapturePoint} {ry : Replay}
    (clock : recorderClock mods rc m resumed = .ok (ry, rc', m')) :
    rc'.infoLoaded = rc.infoLoaded ∧
      ∀ left, rc'.input = some left → ∀ r ∈ left, r ∈ rc.input.getD [] := by
  simp only [recorderClock, bind_eq_ok, Prod.exists] at clock
  obtain ⟨ry₁, rc₁, m₁, replayed, clock⟩ := clock
  have advanced := recorderReplay_advanced replayed
  cases resumed with
  | none =>
      simp only [Except.ok.injEq, Prod.mk.injEq] at clock
      obtain ⟨_, rfl, _⟩ := clock
      exact ⟨advanced.info, advanced.input⟩
  | some cp =>
      simp only [bind_eq_ok, Except.ok.injEq, Prod.mk.injEq] at clock
      obtain ⟨rc₂, recorded, _, rfl, _⟩ := clock
      obtain ⟨input, info, _⟩ := recorderRecord_ok recorded
      rw [input, info]
      exact ⟨advanced.info, advanced.input⟩

theorem recorderClock_error {mods : Modules M P} {rc : Recorder P} {m : M}
    {resumed : Option CapturePoint} (accepted : ∀ r ∈ rc.input.getD [], isAccepted r.kind = true)
    {fault : Fault} (failed : recorderClock mods rc m resumed = .error fault) :
    isUnexpected fault = false := by
  simp only [recorderClock, bind_eq_error, Prod.exists] at failed
  rcases failed with failed | ⟨ry, rc₁, m₁, _, failed⟩
  · simp only [recorderReplay, bind_eq_error] at failed
    rcases failed with failed | ⟨_, _, failed | ⟨_, _, failed⟩⟩
    · rw [check_error failed]
      rfl
    · rw [check_error failed]
      rfl
    · split at failed
      · simp at failed
      · rename_i trace present
        exact replayNext_error (by simpa [present] using accepted) failed
  · cases resumed with
    | none => simp at failed
    | some cp =>
        simp only [bind_eq_error, reduceCtorEq, and_false, exists_false, or_false] at failed
        exact recorderRecord_error failed

theorem recorderRun_error {mods : Modules M P} {resumes : List (Option CapturePoint)}
    {rc : Recorder P} {m : M} (accepted : ∀ r ∈ rc.input.getD [], isAccepted r.kind = true)
    {fault : Fault} (failed : recorderRun mods resumes rc m = .error fault) :
    isUnexpected fault = false := by
  induction resumes generalizing rc m with
  | nil => simp [recorderRun] at failed
  | cons resumed resumes ih =>
      simp only [recorderRun, bind_eq_error, Prod.exists] at failed
      rcases failed with failed | ⟨ry, rc₁, m₁, clock, failed⟩
      · exact recorderClock_error accepted failed
      · have left : ∀ r ∈ rc₁.input.getD [], isAccepted r.kind = true := by
          intro r member
          cases input : rc₁.input with
          | none => simp [input] at member
          | some trace =>
              rw [input] at member
              exact accepted r ((recorderClock_ok clock).2 trace input r member)
        rcases failed with failed | ⟨_, _, _, _, impossible⟩
        · exact ih left failed
        · simp at impossible

theorem recorderRun_infoLoaded {mods : Modules M P} {resumes : List (Option CapturePoint)}
    {rc rc' : Recorder P} {m m' : M} {rys : List Replay}
    (run : recorderRun mods resumes rc m = .ok (rys, rc', m')) :
    rc'.infoLoaded = rc.infoLoaded := by
  induction resumes generalizing rc m rys with
  | nil =>
      simp only [recorderRun, Except.ok.injEq, Prod.mk.injEq] at run
      rw [run.2.1]
  | cons resumed resumes ih =>
      simp only [recorderRun, bind_eq_ok, Prod.exists, Except.ok.injEq, Prod.mk.injEq] at run
      obtain ⟨ry, rc₁, m₁, clock, rys₁, rc₂, m₂, run, _, rfl, rfl⟩ := run
      rw [ih run, (recorderClock_ok clock).1]

/-- What a reader of the written trace needs: no 'unexpected record' in any replay, and every
INFO record published exactly once, at its clock. -/
structure Replayable [DecidableEq P] (reader : Modules M P) (out : List (Record P)) (m : M) :
    Prop where
  expected : ∀ resumes output fault,
    recorderRun reader resumes (recorderInit (some out) output) m = .error fault →
      isUnexpected fault = false
  published : ∀ r ∈ out, r.kind = .recordInfo → ∃ rys rc m',
    recorderRun reader (List.replicate r.clk none) (recorderInit (some out) none) m =
      .ok (rys, rc, m') ∧ rc.infoLoaded.count (r.clk, r) = out.count r

theorem written_trace_replayable_iff [DecidableEq P] {N : Type} (mods : Modules M P)
    (input : Option (List (Record P))) (ops : List (RecorderOp M P)) (m m' : M) (rc : Recorder P)
    (run : recorderSteps mods ops (recorderInit input (some []), m) = .ok (rc, m'))
    (reader : Modules N P) (n : N) :
    Replayable reader (rc.output.getD []) n ↔ ∀ op ∈ ops, op.savesInfo = false := by
  obtain ⟨new, written, accepted, saves⟩ := recorderSteps_output run
  have out : rc.output.getD [] = new := by
    have appended : rc.output = some new := by simpa [recorderInit] using written
    simp [appended]
  rw [out]
  constructor
  · intro replayable op member
    by_contra saving
    obtain ⟨r, inNew, kind⟩ := saves.mpr ⟨op, member, by simpa using saving⟩
    obtain ⟨rys, rc', n', replay, once⟩ := replayable.published r inNew kind
    have silent : rc'.infoLoaded = [] := recorderRun_infoLoaded replay
    have present := List.count_pos_iff.mpr inNew
    rw [silent] at once
    simp only [List.count_nil] at once
    omega
  · intro none
    have clean : ∀ r ∈ new, r.kind ≠ .recordInfo := by
      intro r member kind
      obtain ⟨op, inOps, saving⟩ := saves.mp ⟨r, member, kind⟩
      simp [none op inOps] at saving
    constructor
    · intro resumes output fault failed
      refine recorderRun_error ?_ failed
      intro r member
      exact (accepted r member).resolve_right (clean r member)
    · intro r member kind
      exact absurd kind (clean r member)

theorem written_trace_replayable_iff_sched :
    Replayable noModules
      [schedRecord noModules () (plainPoint 2 0 0) 1] () := by
  have good := (written_trace_replayable_iff noModules none
    [.replay 1, .record (plainPoint 2 0 0) 1] () () _ rfl noModules ()).mpr (by decide)
  exact good

/-- A run that saves one INFO record at clock 1 writes a trace whose replay is fatal there. -/
theorem info_record_not_replayable :
    ∃ rc, recorderSteps noModules
        [.replay 1, .infoSave (RecorderReplay.sampleRecord .recordInfo 1 1)]
        (recorderInit none (some []), ()) = .ok (rc, ()) ∧
      rc.output = some [RecorderReplay.sampleRecord .recordInfo 1 1] ∧
      recorderRun noModules [none] (recorderInit rc.output none) () =
        .error (.statemgrUnexpected .recordInfo) ∧
      ¬ Replayable noModules (rc.output.getD []) () := by
  refine ⟨_, rfl, rfl, rfl, ?_⟩
  intro replayable
  have fatal := replayable.expected [none] none (.statemgrUnexpected .recordInfo) rfl
  simp [isUnexpected] at fatal

end Lotto.RecorderKinds
