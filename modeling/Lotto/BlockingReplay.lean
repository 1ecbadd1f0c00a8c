import Lotto.Library.Lockstep
import Lotto.RunTrace

namespace Lotto.BlockingReplay

open Library.FaultRun Library.Lockstep
open RecorderReplay SequencerReturns SequencerRun HandlerSpecs EngineRun RunTrace

variable {N N' P : Type} {mods : Modules N P} {reader : Modules N' P} {rules : Rules N P}
  {t rest : List (Record (Tidset × P))} {w : World N P}

/-- The captures of a run, the one that was not resumed yet included. -/
def captures (w : World N P) : List Captured := w.log.map Clock.toCaptured ++ w.running.toList

theorem captures_logged {k : Nat} {c : Clock} (found : w.log[k]? = some c) :
    (captures w)[k]? = some c.toCaptured := by
  have inside := (List.getElem?_eq_some_iff.mp found).1
  rw [captures, List.getElem?_append_left (by simpa using inside), List.getElem?_map, found]
  rfl

def afterCapture (blocked : Set TaskId) (c : Captured) : Set TaskId :=
  { id | id ≠ c.cp.id ∧ id ∈ blocked ∧ id ∉ c.returned ∨ blocks c.cp = true ∧ id = c.cp.id }

def unavailable (cs : List Captured) (k : Nat) : Set TaskId := (cs.take k).foldl afterCapture ∅

structure Subtracts (w : World N P) : Prop where
  now : ∀ id, id ∈ heldBack w.engine.modules.blocking ↔
    id ∈ unavailable (captures w) (captures w).length
  logged : ∀ k c, (captures w)[k]? = some c →
    ∀ id, id ∈ c.blocked ↔ id ∈ unavailable (captures w) (k + 1)

theorem unavailable_append (cs : List Captured) (c : Captured) :
    unavailable (cs ++ [c]) (cs ++ [c]).length = afterCapture (unavailable cs cs.length) c := by
  rw [unavailable, unavailable, List.take_length, List.take_length, List.foldl_append]
  rfl

theorem unavailable_append_of_le {cs : List Captured} (c : Captured) {k : Nat}
    (inside : k ≤ cs.length) : unavailable (cs ++ [c]) k = unavailable cs k := by
  rw [unavailable, unavailable, List.take_append_of_le_length inside]

theorem Subtracts.framed {w' : World N P} (subtracts : Subtracts w)
    (modules : Framed w.engine.modules w'.engine.modules) (same : captures w' = captures w) :
    Subtracts w' := by
  constructor
  · rw [modules.blocking, same]
    exact subtracts.now
  · rw [same]
    exact subtracts.logged

theorem subtracts_move {w' : World N P} (move : Move mods rules t rest w w')
    (subtracts : Subtracts w) : Subtracts w' := by
  cases move with
  | quiet modules recorder running log =>
      exact subtracts.framed modules (by rw [captures, captures, running, log])
  | @capture cp handlers prngNext decision plan e s idle valid admitted decided first opened unmarshalled
      second finished running log =>
      let c := captured cp decision plan w'.engine
      have more : captures w' = captures w ++ [c] := by simp [captures, running, log, idle, c]
      have held : ∀ id, id ∈ heldBack w'.engine.modules.blocking ↔
          id ∈ afterCapture (unavailable (captures w) (captures w).length) c := by
        intro id
        have before := subtracts.now id
        rw [finished.modules.blocking, opened.held id, before]
        simp only [afterCapture, c, captured, finished.modules.returned, Set.mem_ofPred_eq]
      constructor
      · rw [more, unavailable_append]
        exact held
      · intro k found present id
        rw [more] at present ⊢
        rcases getElem?_concat_cases present with ⟨old, before⟩ | ⟨rfl, rfl⟩
        · rw [unavailable_append_of_le c old]
          exact subtracts.logged k found before id
        · have whole : (captures w).length + 1 = (captures w ++ [c]).length := by simp
          rw [whole, unavailable_append]
          exact held id
  | @resume capture cp chain running task admitted published handled modules output stopped log =>
      exact subtracts.framed modules (by simp [captures, running, stopped, log])

def KeepsRecord (handler : Handler N) : Prop :=
  ∀ cp e m e' n, handler cp e m = .ok (e', n) → e.shouldRecord = true → e'.shouldRecord = true

def recordRules : Rules N P where
  captures _ _ handlers _ := ∀ handler ∈ handlers, KeepsRecord handler
  resumes _ _ _ := True
  boots _ := True
  chains _ := True

/-- The main task's resume at the capture point of type 0, which is never recorded. -/
def isBootstrap (cp : CapturePoint) : Bool := cp.id == 1 && cp.typeId == 0

structure RecordsReturns (w : World N P) (out : List (Record (Tidset × P))) : Prop where
  clocks : ∀ k c, w.log[k]? = some c → (∃ r ∈ out, r.kind = .recordSched ∧ r.clk = k + 1) ∨
    isBootstrap c.resumed = true ∨ returnedOthers c.cp c.returned = false
  running : ∀ c, w.running = some c → returnedOthers c.cp c.returned = true →
    w.engine.seq.shouldRecord = true

theorem captureRest_shouldRecord {handlers : List (Handler N)} {prngNext : N → UInt64 × N}
    {cp : CapturePoint} {ry : Replay} {e : Decision} {s s' : Engine (ModuleState N) (Tidset × P)}
    {next : TaskId} {p : Plan} (keeps : ∀ handler ∈ handlers, KeepsRecord handler)
    (asked : e.shouldRecord = true)
    (second : captureRest mods handlers prngNext cp ry e s = .ok (next, p, s')) :
    s'.seq.shouldRecord = true := by
  obtain ⟨⟨e₁, m₁⟩, handled, second⟩ := bind_eq_ok.mp second
  obtain ⟨⟨next₂, e₂, m₂⟩, selected, second⟩ := bind_eq_ok.mp second
  obtain ⟨⟨p₃, s₃⟩, ended, second⟩ := bind_eq_ok.mp second
  cases second
  have kept := (runHandlers_keeps (fun e e' => e.shouldRecord = true → e'.shouldRecord = true)
    (fun _ on => on) (fun first second on => second (first on)) handlers
    (fun handler member e m e' n => keeps handler member cp e m e' n) handled).1 asked
  obtain ⟨_, record, rfl, recorded⟩ := captureEnd_frame ended
  exact recorded ((selectNext_frame selected).2.trans kept)

theorem recordsReturns_move {w' : World N P} {out : List (Record (Tidset × P))}
    (move : Move mods recordRules t rest w w')
    (output : w.engine.recorder.output = some out) (records : RecordsReturns w out) :
    ∃ out', w'.engine.recorder.output = some out' ∧ RecordsReturns w' out' := by
  cases move with
  | quiet modules recorder running log shouldRecord =>
      refine ⟨out, by rw [recorder]; exact output, ?_, ?_⟩
      · rw [log]
        exact records.clocks
      · rw [running, shouldRecord]
        exact records.running
  | @capture cp handlers prngNext decision plan e s idle valid admitted decided first opened unmarshalled
      second finished running log =>
      refine ⟨_, by rw [finished.recorder, opened.output, output]; rfl, ?_, ?_⟩
      · intro k c found
        rw [log] at found
        rcases records.clocks k c found with ⟨r, member, kind, clk⟩ | other
        · exact Or.inl ⟨r, List.mem_append_left _ member, kind, clk⟩
        · exact Or.inr other
      · intro c current returned
        rw [running] at current
        cases current
        apply captureRest_shouldRecord admitted _ second
        apply opened.shouldRecord
        rw [← finished.modules.returned]
        exact returned
  | @resume capture cp chain running task admitted published handled modules written stopped log =>
      rw [output] at written
      refine ⟨_, written, ?_, by simp [stopped]⟩
      have clk : w.clk = w.log.length + 1 := by simp [World.clk, running]
      intro k c found
      rw [log] at found
      rcases getElem?_concat_cases found with ⟨_, before⟩ | ⟨rfl, rfl⟩
      · rcases records.clocks k c before with ⟨r, member, kind, at_⟩ | other
        · exact Or.inl ⟨r, List.mem_append_left _ member, kind, at_⟩
        · exact Or.inr other
      · dsimp only
        cases first : isBootstrap cp with
        | true => exact Or.inr (Or.inl rfl)
        | false =>
            cases returned : returnedOthers capture.cp capture.returned with
            | false => exact Or.inr (Or.inr rfl)
            | true =>
                have marks : resumeMarks ((withBlocking mods).config w'.engine.modules) cp
                    w.engine.seq = true := by
                  have asked := records.running capture running returned
                  simp only [isBootstrap] at first
                  simp [resumeMarks, first, resumeRecords, asked]
                rw [if_pos marks]
                exact Or.inl ⟨_, List.mem_append_right _ List.mem_cons_self, rfl, clk⟩

theorem returnedOthers_eq_false {cp : CapturePoint} {returned : Tidset}
    (alone : returnedOthers cp returned = false) {id : TaskId} (member : id ∈ returned) :
    id = cp.id := by
  have some : 0 < returned.size := Tidset.size_pos_iff.mpr ⟨id, member⟩
  have single : returned.size = 1 ∧ cp.id ∈ returned := by
    simpa [returnedOthers, some] using alone
  obtain ⟨only, tasks⟩ := List.length_eq_one_iff.mp single.1
  have first : cp.id = only := by simpa [Tidset.mem_def, tasks] using single.2
  have second : id = only := by simpa [Tidset.mem_def, tasks] using member
  exact second.trans first.symm

structure HoldsReturns (log : List Clock) (t : List (Record (Tidset × P))) : Prop
    extends TraceOf log t where
  returns : ∀ k c, log[k]? = some c → (∃ r ∈ t, r.kind = .recordSched ∧ r.clk = k + 1) ∨
    returnedOthers c.cp c.returned = false

def replayRules (t : List (Record (Tidset × P))) (log : List Clock) : Rules N P where
  captures w cp _ _ := (answer (w.clk + 1) t).status ≠ .done →
    ∀ c, log[w.clk]? = some c → SamePoint cp c.cp
  resumes _ _ _ := True
  boots _ := True
  chains _ := True

theorem HoldsReturns.replayed {log : List Clock} (holds : HoldsReturns log t) {k : Nat}
    (going : (answer (k + 1) t).status ≠ .done) : ∃ c, log[k]? = some c := by
  have inside : k < log.length := by
    by_contra outside
    apply going
    have silent : t.find? (decides (k + 1)) = none := by
      rw [List.find?_eq_none]
      intro r member now
      simp only [decides, Bool.and_eq_true, beq_iff_eq] at now
      have notExit : r.kind ≠ .recordExit := by
        intro exit
        simp [isDecision, exit] at now
      have bound := (holds.bound r member).2 notExit
      omega
    have nothing : t.any (notYet (k + 1)) = false := by
      rw [List.any_eq_false]
      intro r member wait
      have bound := holds.bound r member
      have later : k + 1 < r.clk ∨ r.kind.isAfterKind = true ∧ r.clk = k + 1 := by
        simpa [notYet] using wait
      rcases later with ahead | ⟨after, now⟩
      · omega
      · have notExit : r.kind ≠ .recordExit := by
          intro exit
          simp [exit, Kind.isAfterKind_eq] at after
        have early := bound.2 notExit
        omega
    simp [answer, silent, nothing]
  exact ⟨log.get ⟨k, inside⟩, List.getElem?_eq_getElem inside⟩

/-- A replayed capture has the point of the recorded one, and up to the current task the same
returned tasks. -/
def CapturesAgree (t : List (Record (Tidset × P))) (log : List Clock) (w : World N P) : Prop :=
  ∀ k c', (captures w)[k]? = some c' → (answer (k + 1) t).status ≠ .done →
    ∃ c, log[k]? = some c ∧ SamePoint c'.cp c.cp ∧
      ∀ id, id ≠ c.cp.id → (id ∈ c'.returned ↔ id ∈ c.returned)

theorem capturesAgree_move {log : List Clock} (holds : HoldsReturns log t) {w' : World N P}
    (move : Move mods (replayRules t log) t rest w w') (agree : CapturesAgree t log w) :
    CapturesAgree t log w' := by
  cases move with
  | quiet modules recorder running log_ =>
      have same : captures w' = captures w := by rw [captures, captures, running, log_]
      rw [CapturesAgree, same]
      exact agree
  | @capture cp handlers prngNext decision plan e s idle valid admitted decided first opened unmarshalled
      second finished running log_ =>
      have more : captures w' = captures w ++ [captured cp decision plan w'.engine] := by
        simp [captures, running, log_, idle]
      intro k c' present going
      rw [more] at present
      rcases getElem?_concat_cases present with ⟨_, before⟩ | ⟨rfl, rfl⟩
      · exact agree k c' before going
      · have clk : (captures w).length = w.clk := by simp [captures, World.clk, idle]
        rw [clk] at going ⊢
        obtain ⟨c, found⟩ := holds.replayed going
        refine ⟨c, found, admitted going c found, ?_⟩
        intro id other
        show id ∈ w'.engine.modules.returned ↔ _
        rw [finished.modules.returned]
        have replay : e.replay = true := by simpa [opened.replay] using going
        rcases opened.loads replay with ⟨r, member, kind, now, loaded⟩ | ⟨silent, empty⟩
        · obtain ⟨c₁, found₁, _, data⟩ := holds.sched r member kind
          rw [now, Nat.add_sub_cancel, found] at found₁
          cases found₁
          rw [loaded, data]
        · have alone : returnedOthers c.cp c.returned = false := by
            rcases holds.returns w.clk c found with ⟨r, member, kind, now⟩ | alone
            · exact absurd now (silent r member kind)
            · exact alone
          rw [empty]
          simp only [Tidset.not_mem_empty, false_iff]
          exact fun returned => other (returnedOthers_eq_false alone returned)
  | @resume capture cp chain running task admitted published handled modules output stopped log_ =>
      have same : captures w' = captures w := by simp [captures, running, stopped, log_]
      rw [CapturesAgree, same]
      exact agree

theorem answer_going {j k : Nat} (before : j ≤ k) (going : (answer k t).status ≠ .done) :
    (answer j t).status ≠ .done := by
  induction before with
  | refl => exact going
  | step _ ih => exact ih fun done => going (answer_done done)

theorem afterCapture_same {c c' : Captured} (point : SamePoint c'.cp c.cp)
    (returned : ∀ id, id ≠ c.cp.id → (id ∈ c'.returned ↔ id ∈ c.returned)) (blocked : Set TaskId) :
    afterCapture blocked c' = afterCapture blocked c := by
  have sameBlocks : blocks c'.cp = blocks c.cp := by
    rw [blocks, blocks, point.blocking, point.typeId]
  ext id
  simp only [afterCapture, Set.mem_ofPred_eq, point.id, sameBlocks]
  have same := returned id
  tauto

theorem unavailable_agree {w₀ : World N P} {w' : World N' P}
    (agree : CapturesAgree t w₀.log w') {k : Nat} {c' : Captured}
    (present : (captures w')[k]? = some c') (going : (answer (k + 1) t).status ≠ .done) :
    unavailable (captures w') (k + 1) = unavailable (captures w₀) (k + 1) := by
  have long : k + 1 ≤ (captures w').length := (List.getElem?_eq_some_iff.mp present).1
  apply foldl_take_agree (k + 1) long
  intro i less b found
  obtain ⟨c, logged, point, returned⟩ := agree i b found (answer_going less going)
  exact ⟨c.toCaptured, captures_logged logged, afterCapture_same point returned⟩

theorem reaches_holdsReturns {t₀ : List (Record (Tidset × P))} (wf : WellFormed t₀)
    (noForce : NoForce t₀) {input : Option (List (Record (Tidset × P)))}
    (source : input = some t₀ ∨ t₀ = [] ∧ input = none) {others : N}
    (recorded : Reaches mods recordRules (World.start input (some []) others) w)
    (kept : ∀ c ∈ w.log, isBootstrap c.resumed = true → returnedOthers c.cp c.returned = false)
    (leaves : Output mods w t) : HoldsReturns w.log t := by
  have start := start_inv wf noForce source true others
  obtain ⟨rest, inv⟩ := reaches_inv wf start recorded
  obtain ⟨out, trace⟩ := reaches_trace wf noForce source recorded
  obtain ⟨traceOf, subset⟩ := trace.output_traceOf inv leaves
  obtain ⟨out', output, records⟩ : ∃ out', w.engine.recorder.output = some out' ∧
      RecordsReturns w out' := by
    apply reaches_rule wf start _ _ recorded
    · exact ⟨[], rfl, by simp [World.start], by simp [World.start]⟩
    · rintro w w' rest rest' _ _ move ⟨out, output, records⟩
      exact recordsReturns_move move output records
  rw [trace.output] at output
  cases output
  refine ⟨traceOf, ?_⟩
  intro k c found
  rcases records.clocks k c found with ⟨r, member, at_⟩ | first | alone
  · exact Or.inl ⟨r, subset r member, at_⟩
  · exact Or.inr (kept c (List.mem_of_getElem? found) first)
  · exact Or.inr alone

theorem reaches_subtracts (wf : WellFormed t) (noForce : NoForce t)
    {input : Option (List (Record (Tidset × P)))} (source : input = some t ∨ t = [] ∧ input = none)
    (recording : Bool) {others : N}
    (reached : Reaches mods rules
      (World.start input (if recording then some [] else none) others) w) : Subtracts w := by
  refine reaches_rule wf (start_inv wf noForce source recording others) ?_ ?_ reached
  · refine ⟨?_, by simp [captures, World.start]⟩
    intro id
    simp [captures, World.start, unavailable, engineInit, moduleInit, blockingInit, heldBack,
      blockedTasks]
  · intro w w' rest rest' _ _ move
    exact subtracts_move move

/-- A recording run and a run that replays its trace, with any timing of the returns: at every
replayed clock the blocking handler takes the same tasks out of the task set as in the recording,
and its assertions hold in both. -/
theorem replayed_availability_agrees {t₀ : List (Record (Tidset × P))} (wf : WellFormed t₀)
    (noForce : NoForce t₀) {input : Option (List (Record (Tidset × P)))}
    (source : input = some t₀ ∨ t₀ = [] ∧ input = none) {others : N}
    (recorded : Reaches mods recordRules (World.start input (some []) others) w)
    (kept : ∀ c ∈ w.log, isBootstrap c.resumed = true → returnedOthers c.cp c.returned = false)
    (leaves : Output mods w t) (recording : Bool) {others' : N'} {w' : World N' P}
    (replayed : Reaches reader (replayRules t w.log)
      (World.start (some t) (if recording then some [] else none) others') w') :
    (∀ k c', (captures w')[k]? = some c' → (answer (k + 1) t).status ≠ .done →
      ∃ c, (captures w)[k]? = some c ∧ ∀ id, id ∈ c'.blocked ↔ id ∈ c.blocked) ∧
    (∀ cp, Valid w cp → ∃ result, captureFirst mods cp w.engine = .ok result) ∧
    ∀ cp, Valid w' cp → ∃ result, captureFirst reader cp w'.engine = .ok result := by
  have holds := reaches_holdsReturns wf noForce source recorded kept leaves
  have start' : Inv t (World.start (some t) (if recording then some [] else none) others') t :=
    start_inv holds.wf holds.noForce (Or.inl rfl) recording others'
  refine ⟨?_, ?_, ?_⟩
  · have agree : CapturesAgree t w.log w' := by
      refine reaches_rule holds.wf start' (by simp [CapturesAgree, captures, World.start]) ?_ replayed
      intro w₁ w₂ rest rest' _ _ move
      exact capturesAgree_move holds move
    have subtracts : Subtracts w := reaches_subtracts wf noForce source true recorded
    have subtracts' : Subtracts w' :=
      reaches_subtracts holds.wf holds.noForce (Or.inl rfl) recording replayed
    intro k c' present going
    obtain ⟨c, found⟩ := holds.replayed going
    have present₀ : (captures w)[k]? = some c.toCaptured := captures_logged found
    refine ⟨c.toCaptured, present₀, ?_⟩
    intro id
    rw [subtracts'.logged k c' present id, subtracts.logged k _ present₀ id,
      unavailable_agree agree present going]
  · intro cp valid
    obtain ⟨rest, inv⟩ := reaches_inv wf (start_inv wf noForce source true others) recorded
    obtain ⟨e, s, first, _, _⟩ := captureFirst_ok mods wf inv valid
    exact ⟨_, first⟩
  · intro cp valid
    obtain ⟨rest, inv⟩ := reaches_inv holds.wf start' replayed
    obtain ⟨e, s, first, _, _⟩ := captureFirst_ok reader holds.wf inv valid
    exact ⟨_, first⟩

def samplePoint (id : TaskId) (typeId : TypeId) (blocking : Bool) : CapturePoint :=
  { plainPoint id typeId 0 with blocking }

def recordHandler : Handler Unit := fun _ e m => .ok ({ e with shouldRecord := true }, m.others)

theorem recordHandler_keeps : KeepsRecord recordHandler := by
  intro cp e m e' n handled _
  cases handled
  rfl

def samplePlay (admits : World Unit Unit → CapturePoint → Bool) (acts : List (Act Unit))
    (input output : Option (List (Record (Tidset × Unit)))) : Option (World Unit Unit) :=
  play noModules (fun n => (0, n)) (fun _ m => .ok m.others) admits acts
    (World.start input output ())

def availability (w : World Unit Unit) : List (CapturePoint × List TaskId) :=
  (captures w).map fun c => (c.cp, c.blocked.tasks)

def sampleRecord (id : TaskId) (clk : Nat) (typeId : TypeId) (returned : Tidset) :
    Record (Tidset × Unit) :=
  { id, clk, chainId := 0, typeId, reason := .unknown, kind := .recordSched, pc := 0,
    data := (returned, ()) }

theorem samplePlay_recorded (acts : List (Act Unit)) (t : List (Record (Tidset × Unit)))
    (points : List (CapturePoint × CapturePoint)) (log : List (CapturePoint × List TaskId))
    (keeps : ∀ a ∈ acts, ∀ handler ∈ a.handlers, KeepsRecord handler)
    (played : (samplePlay (fun _ _ => true) acts none (some [])).map (fun w =>
      (w.engine.recorder.output, w.log.map (fun c => (c.cp, c.resumed)), availability w)) =
        some (some t, points, log)) :
    ∃ w : World Unit Unit, Reaches noModules recordRules (World.start none (some []) ()) w ∧
      Output noModules w t ∧ w.log.map (fun c => (c.cp, c.resumed)) = points ∧
      availability w = log := by
  obtain ⟨w, run, facts⟩ := Option.map_eq_some_iff.mp played
  obtain ⟨output, facts⟩ := Prod.mk.inj facts
  obtain ⟨logged, blocked⟩ := Prod.mk.inj facts
  refine ⟨w, play_reaches KeepsRecord ?_ ?_ trivial acts keeps run, Output.cut output, logged, blocked⟩
  · intro w cp handlers _ lawful
    exact lawful
  · intro w capture cp
    trivial

theorem samplePlay_replayed (acts : List (Act Unit)) (t : List (Record (Tidset × Unit)))
    {w : World Unit Unit} {points : List (CapturePoint × CapturePoint)}
    (logged : w.log.map (fun c => (c.cp, c.resumed)) = points)
    (log : List (CapturePoint × List TaskId))
    (played : (samplePlay (fun w' cp => (points[w'.clk]?).map Prod.fst == some cp) acts (some t)
      none).map availability = some log) :
    ∃ w' : World Unit Unit,
      Reaches noModules (replayRules t w.log) (World.start (some t) none ()) w' ∧
      availability w' = log := by
  obtain ⟨w', run, blocked⟩ := Option.map_eq_some_iff.mp played
  refine ⟨w', play_reaches (fun _ => True) ?_ ?_ trivial acts (fun _ _ _ _ => trivial) run, blocked⟩
  · intro w' cp handlers same _ _ c found
    have point : (points[w'.clk]?).map Prod.fst = some c.cp := by
      rw [← logged, List.getElem?_map, found]
      rfl
    rw [beq_iff_eq, point, Option.some.injEq] at same
    rw [same]
    exact ⟨rfl, rfl, rfl⟩
  · intro w capture cp
    trivial

theorem availability_some {w : World Unit Unit} {k : Nat} {cp : CapturePoint} {blocked : List TaskId}
    (found : (availability w)[k]? = some (cp, blocked)) :
    ∃ c, (captures w)[k]? = some c ∧ ∀ id, id ∈ c.blocked ↔ id ∈ blocked := by
  rw [availability, List.getElem?_map, Option.map_eq_some_iff] at found
  obtain ⟨c, present, same⟩ := found
  obtain ⟨_, rfl⟩ := Prod.mk.inj same
  exact ⟨c, present, fun id => Iff.rfl⟩

theorem replayed_availability_agrees_late_return :
    ∃ (w w' : World Unit Unit) (t : List (Record (Tidset × Unit))),
      Reaches noModules recordRules (World.start none (some []) ()) w ∧ Output noModules w t ∧
      Reaches noModules (replayRules t w.log) (World.start (some t) none ()) w' ∧
      availability w' = [(samplePoint 2 5 true, [2]), (samplePoint 1 6 false, [])] ∧
      (∀ k c', (captures w')[k]? = some c' → (answer (k + 1) t).status ≠ .done →
        ∃ c, (captures w)[k]? = some c ∧ ∀ id, id ∈ c'.blocked ↔ id ∈ c.blocked) ∧
      (∀ cp, Valid w cp → ∃ result, captureFirst noModules cp w.engine = .ok result) ∧
      ∀ cp, Valid w' cp → ∃ result, captureFirst noModules cp w'.engine = .ok result := by
  obtain ⟨w, recorded, leaves, logged, _⟩ := samplePlay_recorded
    [.capture (samplePoint 2 5 true) [], .resume (samplePoint 1 5 false),
      .ret (samplePoint 2 5 true), .capture (samplePoint 1 6 false) [],
      .resume (samplePoint 1 6 false)]
    [sampleRecord 1 1 5 .empty, sampleRecord 1 2 6 (Tidset.empty.insert 2)]
    [(samplePoint 2 5 true, samplePoint 1 5 false), (samplePoint 1 6 false, samplePoint 1 6 false)]
    [(samplePoint 2 5 true, [2]), (samplePoint 1 6 false, [])] (by simp [Act.handlers]) rfl
  obtain ⟨w', replayed, blocked⟩ := samplePlay_replayed
    [.capture (samplePoint 2 5 true) [], .resume (samplePoint 1 5 false),
      .capture (samplePoint 1 6 false) []]
    [sampleRecord 1 1 5 .empty, sampleRecord 1 2 6 (Tidset.empty.insert 2)] logged
    [(samplePoint 2 5 true, [2]), (samplePoint 1 6 false, [])] rfl
  refine ⟨w, w', _, recorded, leaves, replayed, blocked, ?_⟩
  refine replayed_availability_agrees ⟨List.Pairwise.nil, by simp⟩ (by simp [NoForce])
    (Or.inr ⟨rfl, rfl⟩) recorded ?_ leaves false replayed
  intro c member first
  have listed : (c.cp, c.resumed) ∈ w.log.map (fun c => (c.cp, c.resumed)) :=
    List.mem_map_of_mem member
  rw [logged] at listed
  simp only [List.mem_cons, Prod.mk.injEq, List.not_mem_nil, or_false] at listed
  rcases listed with ⟨_, resumed⟩ | ⟨_, resumed⟩ <;> rw [resumed] at first <;>
    exact absurd first (by decide)

/-- Task 2 returns before task 1's capture of type 0. The resume at that capture point is not
recorded, and in the replay task 2 is still unavailable. -/
theorem bootstrap_return_not_replayed :
    ∃ (w w' : World Unit Unit) (t : List (Record (Tidset × Unit))),
      Reaches noModules recordRules (World.start none (some []) ()) w ∧ Output noModules w t ∧
      Reaches noModules (replayRules t w.log) (World.start (some t) none ()) w' ∧
      (answer 2 t).status ≠ .done ∧
      ∃ c c', (captures w)[1]? = some c ∧ (captures w')[1]? = some c' ∧
        2 ∉ c.blocked ∧ 2 ∈ c'.blocked := by
  obtain ⟨w, recorded, leaves, logged, blocked⟩ := samplePlay_recorded
    [.capture (samplePoint 2 5 true) [], .resume (samplePoint 1 5 false),
      .ret (samplePoint 2 5 true), .capture (samplePoint 1 0 false) [],
      .resume (samplePoint 1 0 false), .capture (samplePoint 1 7 false) [recordHandler],
      .resume (samplePoint 1 7 false)]
    [sampleRecord 1 1 5 .empty, sampleRecord 1 3 7 .empty]
    [(samplePoint 2 5 true, samplePoint 1 5 false), (samplePoint 1 0 false, samplePoint 1 0 false),
      (samplePoint 1 7 false, samplePoint 1 7 false)]
    [(samplePoint 2 5 true, [2]), (samplePoint 1 0 false, []), (samplePoint 1 7 false, [])]
    (by simp [Act.handlers, recordHandler_keeps]) rfl
  obtain ⟨w', replayed, blocked'⟩ := samplePlay_replayed
    [.capture (samplePoint 2 5 true) [], .resume (samplePoint 1 5 false),
      .capture (samplePoint 1 0 false) []]
    [sampleRecord 1 1 5 .empty, sampleRecord 1 3 7 .empty] logged
    [(samplePoint 2 5 true, [2]), (samplePoint 1 0 false, [2])] rfl
  obtain ⟨c, present, sets⟩ := availability_some (w := w) (k := 1) (by rw [blocked]; rfl)
  obtain ⟨c', present', sets'⟩ := availability_some (w := w') (k := 1) (by rw [blocked']; rfl)
  refine ⟨w, w', _, recorded, leaves, replayed, by decide, c, c', present, present', ?_, ?_⟩
  · rw [sets]
    decide
  · rw [sets']
    decide

end Lotto.BlockingReplay
