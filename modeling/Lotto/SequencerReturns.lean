import Lotto.Library.FaultRun
import Lotto.Sequencer

namespace Lotto.SequencerReturns

open Library.FaultRun

variable {M P : Type}

/-- The steps of the tasks on the sequencer. A capture is split at the dispatch, so that
returns can fall between the merge and the clearing of the unblocked set. -/
inductive Event (M : Type) where
  | ret (cp : CapturePoint)
  | capture (cp : CapturePoint)
  | dispatched (handlers : CapturePoint → Decision → M → TaskId × Decision × M)
  | resume (handlers : CapturePoint → M → M) (cp : CapturePoint)

structure Run (M P : Type) where
  engine : Engine M P
  capturing : Option (CapturePoint × Replay × Decision)
  observed : List Tidset

def runStart (input output : Option (List (Record P))) (m : M) : Run M P :=
  { engine := engineInit input output m, capturing := none, observed := [] }

/-- One step; `observed` collects the unblocked sets passed to the handlers. -/
def runEvent (mods : Modules M P) (run : Run M P) : Event M → Except Fault (Run M P)
  | .ret cp => do
      let engine ← sequencerReturn cp run.engine
      .ok { run with engine }
  | .capture cp => do
      let (ry, e, engine) ← captureBegin mods cp run.engine
      .ok { engine, capturing := some (cp, ry, e), observed := run.observed ++ [e.unblocked] }
  | .dispatched handlers =>
      match run.capturing with
      | none => .ok run
      | some (cp, ry, e) => do
          let (next, e, modules) := handlers cp e run.engine.modules
          let (_, engine) ← captureEnd mods cp ry next e { run.engine with modules }
          .ok { run with engine, capturing := none }
  | .resume handlers cp => do
      let engine ← sequencerResume mods (fun cp m => .ok (handlers cp m)) cp run.engine
      .ok { run with engine }

def runEvents (mods : Modules M P) (events : List (Event M)) (run : Run M P) :
    Except Fault (Run M P) :=
  events.foldlM (runEvent mods) run

/-- The tasks inside a blocking call and the one inside `sequencer_capture`. -/
structure Schedule where
  awaiting : List TaskId
  capturing : Option CapturePoint

def Schedule.without (sched : Schedule) (id : TaskId) : List TaskId :=
  sched.awaiting.filter (· != id)

/-- A task returns at most once after a completed blocking capture and before its own next
resume or capture; captures and resumes do not overlap. -/
def Schedule.Allows (sched : Schedule) : Event M → Prop
  | .ret cp => cp.id ∈ sched.awaiting
  | .capture _ => sched.capturing = none
  | .dispatched _ => sched.capturing ≠ none
  | .resume _ _ => sched.capturing = none

def Schedule.next (sched : Schedule) : Event M → Schedule
  | .ret cp => { sched with awaiting := sched.without cp.id }
  | .capture cp => { awaiting := sched.without cp.id, capturing := some cp }
  | .dispatched _ =>
      match sched.capturing with
      | some cp =>
          { awaiting := if cp.blocking then cp.id :: sched.awaiting else sched.awaiting,
            capturing := none }
      | none => sched
  | .resume _ cp => { sched with awaiting := sched.without cp.id }

def Schedule.AllowsAll : Schedule → List (Event M) → Prop
  | _, [] => True
  | sched, event :: events => sched.Allows event ∧ (sched.next event).AllowsAll events

/-- The returns before each capture and after the previous one, and the returns after the last
capture, `since` being the ones so far. -/
def segments (since : List TaskId) : List (Event M) → List (List TaskId) × List TaskId
  | [] => ([], since)
  | .ret cp :: events => segments (since ++ [cp.id]) events
  | .capture _ :: events => (since :: (segments [] events).1, (segments [] events).2)
  | _ :: events => segments since events

def isReinsert : Fault → Bool
  | .insertUnblockedAgain | .insertPendingAgain => true
  | _ => false

def Quiet (fault : Fault) : Prop := isReinsert fault = false

/-- Every return since the last capture is in one of the two sets, once, and no task that is
still to return is among them. -/
structure Tracks (sched : Schedule) (since : List TaskId) (run : Run M P) : Prop where
  capturing : run.capturing.map Prod.fst = sched.capturing
  inside : run.capturing ≠ none → run.engine.seq.pendingUnblocked.tasks = since
  outside : run.capturing = none →
    run.engine.seq.unblocked.tasks ++ run.engine.seq.pendingUnblocked.tasks = since
  distinct : since.Nodup
  fresh : ∀ id ∈ sched.awaiting, id ∉ since
  owner : ∀ cp, sched.capturing = some cp → cp.id ∉ since ∧ cp.id ∉ sched.awaiting

theorem insertUnblocked_all (pending : List TaskId) (unblocked : Tidset)
    (distinct : (unblocked.tasks ++ pending).Nodup) :
    ∃ merged, pending.foldlM insertUnblocked unblocked = .ok merged ∧
      merged.tasks = unblocked.tasks ++ pending := by
  induction pending generalizing unblocked with
  | nil => exact ⟨unblocked, rfl, by simp⟩
  | cons id pending ih =>
      have absent : id ∉ unblocked.tasks := by
        intro member
        exact (List.nodup_append.mp distinct).2.2 id member id List.mem_cons_self rfl
      have inserted : (unblocked.insert id).tasks = unblocked.tasks ++ [id] := by
        simp [Tidset.insert, absent]
      obtain ⟨merged, fold, tasks⟩ := ih (unblocked.insert id) (by simpa [inserted] using distinct)
      refine ⟨merged, ?_, by rw [tasks, inserted, List.append_assoc, List.singleton_append]⟩
      have passes : (!unblocked.has id) = true := by simpa [Tidset.mem_def] using absent
      rw [List.foldlM_cons, insertUnblocked, passes]
      exact fold

theorem updateUnblocked_spec (seq : Sequencer)
    (distinct : (seq.unblocked.tasks ++ seq.pendingUnblocked.tasks).Nodup) :
    ∃ merged, updateUnblocked seq =
        .ok { seq with unblocked := merged, pendingUnblocked := .empty } ∧
      merged.tasks = seq.unblocked.tasks ++ seq.pendingUnblocked.tasks := by
  obtain ⟨merged, fold, tasks⟩ := insertUnblocked_all _ _ distinct
  exact ⟨merged, by simp [updateUnblocked, fold, bind, Except.bind], tasks⟩

theorem recorderOut_quiet (rc : Recorder P) (r : Record P) :
    Safe Quiet (fun _ => True) (recorderOut rc r) := by
  unfold recorderOut
  split
  · trivial
  · exact safe_check rfl fun _ => trivial

theorem unmarshal_quiet (mods : Modules M P) (r : Record P) (m : M) :
    Safe Quiet (fun _ => True) (statemgrRecordUnmarshal mods r m) := by
  cases kind : r.kind <;> simp only [statemgrRecordUnmarshal, kind]
  all_goals trivial

theorem replayRecord_quiet (clk : Nat) (r : Record P) (ry : Replay) (rc : Recorder P) :
    Safe Quiet (fun _ => True) (replayRecord clk r ry rc) := by
  have cloned : ∀ answer : Replay, Safe Quiet (fun _ => True)
      (recorderOutClone rc r >>= fun rc => .ok (answer, rc)) := fun answer =>
    (recorderOut_quiet rc r).bind fun _ _ => trivial
  cases kind : r.kind <;> simp only [replayRecord, kind]
  case recordForce | recordStart => exact safe_check rfl fun _ => cloned _
  case recordConfig => exact cloned _
  case recordInfo | recordSched | recordOpaque | recordExit => trivial
  case recordNone | recordShutdownLock => exact rfl

theorem recorderReplayNext_quiet (mods : Modules M P) (clk : Nat) (rest : List (Record P))
    (ry : Replay) (rc : Recorder P) (m : M) :
    Safe Quiet (fun _ => True) (recorderReplayNext mods clk rest ry rc m) := by
  induction rest generalizing ry rc m with
  | nil => trivial
  | cons r rest ih =>
      unfold recorderReplayNext
      split
      · exact ih ry rc m
      · refine safe_check rfl fun _ => ?_
        split
        · trivial
        · refine (unmarshal_quiet mods r m).bind fun m _ => ?_
          exact (replayRecord_quiet clk r ry _).bind fun result _ => ih result.1 result.2 m

theorem recorderReplay_quiet (mods : Modules M P) (rc : Recorder P) (m : M) (clk : Nat) :
    Safe Quiet (fun _ => True) (recorderReplay mods rc m clk) := by
  refine safe_check rfl fun _ => safe_check rfl fun _ => ?_
  dsimp only
  split
  · trivial
  · exact recorderReplayNext_quiet mods clk _ _ _ m

theorem recorderRecord_quiet (mods : Modules M P) (rc : Recorder P) (m : M) (cp : CapturePoint)
    (clk : Nat) : Safe Quiet (fun _ => True) (recorderRecord mods rc m cp clk) := by
  refine safe_check rfl fun _ => safe_check rfl fun _ => safe_check rfl fun _ =>
    safe_check rfl fun _ => safe_check rfl fun _ => ?_
  split
  · trivial
  · exact (recorderOut_quiet _ _).bind fun _ _ => trivial

theorem granularityLoop_quiet (gran : UInt64) (switched isChpt : Bool) (fuel : Nat) (i : UInt32) :
    Safe Quiet (fun _ => True) (granularityLoop gran switched isChpt fuel i) := by
  induction fuel generalizing i with
  | zero => exact rfl
  | succ fuel ih =>
      unfold granularityLoop
      split_ifs
      all_goals first | exact ih _ | trivial

theorem actionsFor_quiet (cp : CapturePoint) (next : TaskId) (e : Decision) :
    Safe Quiet (fun _ => True) (actionsFor cp next e) := by
  unfold actionsFor
  split_ifs
  all_goals first | trivial | exact safe_check rfl fun _ => trivial

theorem planActions_quiet (cp : CapturePoint) (next : TaskId) (e : Decision) :
    Safe Quiet (fun _ => True) (planActions cp next e) := by
  unfold planActions
  split_ifs
  · trivial
  · exact (actionsFor_quiet cp next e).bind fun _ _ => trivial
  · exact actionsFor_quiet cp next e

theorem replayNext_quiet (config : SequencerConfig) (cp : CapturePoint) (ry : Replay)
    (next : TaskId) : Safe Quiet (fun _ => True) (replayNext config cp ry next) := by
  cases status : ry.status <;> simp only [replayNext, status]
  case load => exact safe_check rfl fun _ => trivial
  all_goals trivial

theorem checkWake_quiet (p : Plan) : Safe Quiet (fun _ => True) (checkWake p) := by
  unfold checkWake check
  split_ifs <;> trivial

theorem decideRecord_quiet (config : SequencerConfig) (cp : CapturePoint) (e : Decision)
    (p : Plan) : Safe Quiet (fun _ => True) (decideRecord config cp e p) := by
  unfold decideRecord
  split
  · trivial
  · exact granularityLoop_quiet _ _ _ _ _

theorem resumeRecord_quiet (mods : Modules M P) (cp : CapturePoint) (s : Engine M P) :
    Safe Quiet (fun _ => True) (resumeRecord mods cp s) := by
  unfold resumeRecord
  split
  · exact recorderRecord_quiet _ _ _ _ _
  · trivial

theorem captureBegin_merges (mods : Modules M P) (cp : CapturePoint) (s : Engine M P)
    (distinct : (s.seq.unblocked.tasks ++ s.seq.pendingUnblocked.tasks).Nodup) :
    Safe Quiet
      (fun result => result.2.1.unblocked.tasks =
          s.seq.unblocked.tasks ++ s.seq.pendingUnblocked.tasks ∧
        result.2.2.seq.pendingUnblocked = .empty)
      (captureBegin mods cp s) := by
  refine safe_check rfl fun _ => ?_
  refine (recorderReplay_quiet mods s.recorder s.modules (s.seq.clk + 1)).bind fun replayed _ => ?_
  obtain ⟨merged, update, tasks⟩ := updateUnblocked_spec { s.seq with clk := s.seq.clk + 1 } distinct
  simp only [update, bind, Except.bind]
  exact ⟨tasks, rfl⟩

theorem captureEnd_clears (mods : Modules M P) (cp : CapturePoint) (ry : Replay) (next : TaskId)
    (e : Decision) (s : Engine M P) :
    Safe Quiet
      (fun result => result.2.seq.unblocked = .empty ∧
        result.2.seq.pendingUnblocked = s.seq.pendingUnblocked)
      (captureEnd mods cp ry next e s) := by
  refine (replayNext_quiet _ cp ry next).bind fun next _ => ?_
  refine (planActions_quiet cp next e).bind fun actions _ => ?_
  refine (checkWake_quiet _).bind fun _ _ => ?_
  exact (decideRecord_quiet _ cp e _).bind fun _ _ => Safe.ok ⟨rfl, rfl⟩

theorem sequencerResume_merges (mods : Modules M P) (handlers : CapturePoint → M → M)
    (cp : CapturePoint) (s : Engine M P)
    (distinct : (s.seq.unblocked.tasks ++ s.seq.pendingUnblocked.tasks).Nodup) :
    Safe Quiet
      (fun s' => s'.seq.unblocked.tasks ++ s'.seq.pendingUnblocked.tasks =
        s.seq.unblocked.tasks ++ s.seq.pendingUnblocked.tasks)
      (sequencerResume mods (fun cp m => .ok (handlers cp m)) cp s) := by
  have tail : ∀ s' : Engine M P, s'.seq = s.seq → Safe Quiet
      (fun s'' => s''.seq.unblocked.tasks ++ s''.seq.pendingUnblocked.tasks =
        s.seq.unblocked.tasks ++ s.seq.pendingUnblocked.tasks)
      (resumeRecord mods cp s' >>= fun recorder => updateUnblocked s'.seq >>= fun seq =>
        .ok { s' with recorder, seq }) := by
    intro s' same
    refine (resumeRecord_quiet mods cp s').bind fun recorder _ => ?_
    obtain ⟨merged, update, tasks⟩ := updateUnblocked_spec s.seq distinct
    rw [same, update]
    simpa [Tidset.empty, Safe, bind, Except.bind] using tasks
  simp only [sequencerResume, ok_bind]
  split_ifs
  · exact rfl
  · exact rfl
  · exact tail _ rfl

theorem addPendingUnblocked_spec (seq : Sequencer) (id : TaskId)
    (absent : id ∉ seq.pendingUnblocked.tasks) :
    ∃ pending, addPendingUnblocked seq id = .ok { seq with pendingUnblocked := pending } ∧
      pending.tasks = seq.pendingUnblocked.tasks ++ [id] := by
  have passes : (!seq.pendingUnblocked.has id) = true := by simpa [Tidset.mem_def] using absent
  exact ⟨seq.pendingUnblocked.insert id, by simp [addPendingUnblocked, passes, bind, Except.bind],
    by simp [Tidset.insert, absent]⟩

/-- The returns observed by `event` and the ones that are left for a later capture. -/
def observes (since : List TaskId) : Event M → List (List TaskId)
  | .capture _ => [since]
  | _ => []

def carries (since : List TaskId) : Event M → List TaskId
  | .ret cp => since ++ [cp.id]
  | .capture _ => []
  | _ => since

theorem segments_cons (since : List TaskId) (event : Event M) (events : List (Event M)) :
    segments since (event :: events) =
      (observes since event ++ (segments (carries since event) events).1,
        (segments (carries since event) events).2) := by
  cases event <;> rfl

theorem Schedule.mem_without {sched : Schedule} {id other : TaskId} :
    other ∈ sched.without id ↔ other ∈ sched.awaiting ∧ other ≠ id := by
  simp [Schedule.without]

/-- One step keeps track of the returns, and a capture passes on exactly the ones since the
capture before it. -/
theorem runEvent_tracks (mods : Modules M P) {sched : Schedule} {since : List TaskId}
    {run : Run M P} (tracks : Tracks sched since run) {event : Event M}
    (allowed : sched.Allows event) :
    Safe Quiet
      (fun run' => Tracks (sched.next event) (carries since event) run' ∧
        run'.observed.map Tidset.tasks = run.observed.map Tidset.tasks ++ observes since event)
      (runEvent mods run event) := by
  cases event with
  | ret cp =>
      have new : cp.id ∉ since := tracks.fresh cp.id allowed
      have absent : cp.id ∉ run.engine.seq.pendingUnblocked.tasks := by
        intro member
        cases capturing : run.capturing with
        | none =>
            rw [← tracks.outside capturing] at new
            exact new (List.mem_append_right _ member)
        | some open_ =>
            rw [← tracks.inside (by simp [capturing])] at new
            exact new member
      obtain ⟨pending, insert, tasks⟩ := addPendingUnblocked_spec run.engine.seq cp.id absent
      refine Safe.bind (safe_check rfl fun _ => ?_) fun engine (found : engine = { run.engine with
        seq := { run.engine.seq with pendingUnblocked := pending } }) => ?_
      · rw [insert]
        exact rfl
      · subst found
        refine ⟨⟨tracks.capturing, ?_, ?_, ?_, ?_, ?_⟩, by simp [observes]⟩
        · intro capturing
          rw [tasks, tracks.inside capturing]
          rfl
        · intro idle
          rw [tasks, ← List.append_assoc, tracks.outside idle]
          rfl
        · rw [carries, List.nodup_append_comm]
          exact List.nodup_cons.mpr ⟨new, tracks.distinct⟩
        · intro id member
          obtain ⟨waiting, other⟩ := Schedule.mem_without.mp member
          simpa [carries, other] using tracks.fresh id waiting
        · intro owner capturing
          have apart := tracks.owner owner capturing
          have other : owner.id ≠ cp.id := fun same => apart.2 (same ▸ allowed)
          refine ⟨by simpa [carries, other] using apart.1, fun member => ?_⟩
          exact apart.2 (Schedule.mem_without.mp member).1
  | capture cp =>
      have idle : run.capturing = none := by
        have closed : run.capturing.map Prod.fst = none := by rw [tracks.capturing, allowed]
        simpa using closed
      have queued := tracks.outside idle
      refine (captureBegin_merges mods cp run.engine (by rw [queued]; exact tracks.distinct)).bind
        fun result merged => ?_
      obtain ⟨ry, e, engine⟩ := result
      refine ⟨⟨rfl, ?_, by simp, List.nodup_nil, by simp [carries], ?_⟩, ?_⟩
      · intro _
        exact congrArg Tidset.tasks merged.2
      · intro owner capturing
        obtain rfl : cp = owner := by simpa [Schedule.next] using capturing
        exact ⟨by simp [carries], fun member => (Schedule.mem_without.mp member).2 rfl⟩
      · have passed : e.unblocked.tasks = since := merged.1.trans queued
        simp [observes, passed]
  | dispatched handlers =>
      cases capturing : run.capturing with
      | none =>
          have closed := tracks.capturing
          rw [capturing] at closed
          exact absurd closed.symm allowed
      | some begun =>
          obtain ⟨cp, ry, e⟩ := begun
          have opened : sched.capturing = some cp := by rw [← tracks.capturing, capturing]; rfl
          have apart := tracks.owner cp opened
          simp only [runEvent, capturing]
          refine (captureEnd_clears mods cp ry _ _ _).bind fun result cleared => ?_
          have pending : result.2.seq.pendingUnblocked.tasks = since := by
            rw [cleared.2]
            exact tracks.inside (by simp [capturing])
          refine ⟨⟨?_, by simp, ?_, tracks.distinct, ?_, ?_⟩, by simp [observes]⟩
          · simp [Schedule.next, opened]
          · intro _
            rw [cleared.1, pending]
            rfl
          · intro id member
            simp only [Schedule.next, opened] at member
            split at member
            · rcases List.mem_cons.mp member with rfl | waiting
              · exact apart.1
              · exact tracks.fresh id waiting
            · exact tracks.fresh id member
          · intro owner closed
            simp [Schedule.next, opened] at closed
  | resume handlers cp =>
      have idle : run.capturing = none := by
        have closed : run.capturing.map Prod.fst = none := by rw [tracks.capturing, allowed]
        simpa using closed
      have queued := tracks.outside idle
      refine (sequencerResume_merges mods handlers cp run.engine
        (by rw [queued]; exact tracks.distinct)).bind fun engine merged => ?_
      refine ⟨⟨tracks.capturing, ?_, ?_, tracks.distinct, ?_, ?_⟩, by simp [observes]⟩
      · intro capturing
        exact absurd idle capturing
      · intro _
        rw [merged, queued]
        rfl
      · intro id member
        exact tracks.fresh id (Schedule.mem_without.mp member).1
      · intro owner capturing
        have opened : sched.capturing = some owner := capturing
        rw [show sched.capturing = none from allowed] at opened
        simp at opened

theorem runEvents_tracks (mods : Modules M P) (events : List (Event M)) {sched : Schedule}
    {since : List TaskId} {run : Run M P} (tracks : Tracks sched since run)
    (allowed : sched.AllowsAll events) :
    Safe Quiet
      (fun run' => (∃ sched', Tracks sched' (segments since events).2 run') ∧
        run'.observed.map Tidset.tasks =
          run.observed.map Tidset.tasks ++ (segments since events).1)
      (runEvents mods events run) := by
  induction events generalizing sched since run with
  | nil => exact ⟨⟨sched, tracks⟩, by simp [segments]⟩
  | cons event events ih =>
      rw [runEvents, List.foldlM_cons, segments_cons]
      refine (runEvent_tracks mods tracks allowed.1).bind fun middle step => ?_
      refine (ih step.1 allowed.2).mono fun final tail => ⟨tail.1, ?_⟩
      rw [tail.2, step.2, List.append_assoc]

/-- Every return is passed to the handlers by the first capture whose merge comes after it, and
by no other one; nothing else is ever passed, what is left is still queued, and neither
insertion fails. -/
theorem returns_observed_exactly_once (mods : Modules M P) (input output : Option (List (Record P)))
    (m : M) (events : List (Event M)) (allowed : (Schedule.mk [] none).AllowsAll events) :
    match runEvents mods events (runStart input output m) with
    | .error fault => isReinsert fault = false
    | .ok run =>
        run.observed.map Tidset.tasks = (segments [] events).1 ∧
          (run.capturing = none →
            run.engine.seq.unblocked.tasks ++ run.engine.seq.pendingUnblocked.tasks =
              (segments [] events).2) := by
  have start : Tracks (Schedule.mk [] none) [] (runStart input output m) := by
    refine ⟨rfl, by simp [runStart], fun _ => rfl, List.nodup_nil, by simp, by simp⟩
  have safe := runEvents_tracks mods events start allowed
  split
  · rename_i fault failed
    rw [failed] at safe
    exact safe
  · rename_i run finished
    rw [finished] at safe
    obtain ⟨⟨sched, tracks⟩, observed⟩ := safe
    exact ⟨by simpa [runStart] using observed, tracks.outside⟩

def sampleCp (id : TaskId) (blocking : Bool) : CapturePoint :=
  { plainPoint id 1 0 with blocking }

def sampleHandlers (next : TaskId) : CapturePoint → Decision → Unit → TaskId × Decision × Unit :=
  fun _ e _ => (next, { e with isChpt := true }, ())

def sampleEvents : List (Event Unit) :=
  [.capture (sampleCp 1 true), .dispatched (sampleHandlers 2), .resume (fun _ m => m) (sampleCp 2 false),
    .capture (sampleCp 2 false), .ret (sampleCp 1 true), .dispatched (sampleHandlers 2),
    .resume (fun _ m => m) (sampleCp 2 false), .capture (sampleCp 2 false)]

theorem returns_observed_exactly_once_two_tasks :
    ∃ run, runEvents noModules sampleEvents (runStart none none ()) = .ok run ∧
      run.observed.map Tidset.tasks = [[], [], [1]] := by
  have allowed : (Schedule.mk [] none).AllowsAll sampleEvents := by
    simp [sampleEvents, sampleCp, plainPoint, Schedule.AllowsAll, Schedule.Allows, Schedule.next,
      Schedule.without]
  have once := returns_observed_exactly_once noModules none none () sampleEvents allowed
  exact ⟨_, rfl, once.1⟩

end Lotto.SequencerReturns
