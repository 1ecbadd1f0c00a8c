import Mathlib.Data.List.TakeWhile
import Lotto.Recorder

namespace Lotto.RecorderReplay

open Library.FaultRun

variable {M P : Type}

def isDecision (k : Kind) : Bool := k == .recordSched || k == .recordForce

/-- Order of two records of a trace: sorted by clock, at most one decision per clock, CONFIG
after the decision of its clock, START before and EXIT after everything else. -/
def Follows (a b : Record P) : Prop :=
  a.kind ≠ .recordExit ∧ b.kind ≠ .recordStart ∧
    (a.clk < b.clk ∨ a.clk = b.clk ∧ (b.kind = .recordConfig ∨ b.kind = .recordExit))

structure Written (r : Record P) : Prop where
  kind : r.kind = .recordStart ∨ r.kind = .recordSched ∨ r.kind = .recordForce ∨
    r.kind = .recordConfig ∨ r.kind = .recordExit
  start : r.kind = .recordStart → r.clk = 0
  sched : r.kind = .recordSched → 0 < r.clk

structure WellFormed (t : List (Record P)) : Prop where
  order : t.Pairwise Follows
  written : ∀ r ∈ t, Written r

def Ready (clk : Nat) (rest : List (Record P)) : Prop :=
  ∀ r ∈ rest, clk ≤ r.clk + 1 ∧ (isDecision r.kind = true → clk ≤ r.clk)

def loaded (clk : Nat) (rest : List (Record P)) : List (Record P) :=
  rest.takeWhile (fun r => !notYet clk r)

def remaining (clk : Nat) (rest : List (Record P)) : List (Record P) :=
  rest.dropWhile (fun r => !notYet clk r)

def isCloned (r : Record P) : Bool :=
  r.kind == .recordForce || r.kind.isAfterKind

def decides (clk : Nat) (r : Record P) : Bool := isDecision r.kind && r.clk == clk

/-- What `recorder_replay` answers at clock `clk` for a trace of which nothing was overdue. -/
def answer (clk : Nat) (t : List (Record P)) : Replay :=
  match t.find? (decides clk) with
  | some r => { status := if r.kind = .recordSched then .load else .force, id := r.id }
  | none => { status := if t.any (notYet clk) then .cont else .done, id := noTask }

def traceOf : List (Record P) → Option (List (Record P))
  | [] => none
  | r :: rest => some (r :: rest)

/-- The answer when a decision `ry` was already found earlier in the same call. -/
def answerAfter (clk : Nat) (ry : Replay) (t : List (Record P)) : Replay :=
  if ry.status = .done then answer clk t else ry

theorem written_bits (r : Record P) (good : Written r) : ¬ r.kind.bits &&& recordAny = 0 := by
  rcases good.kind with kind | kind | kind | kind | kind <;> rw [kind] <;> decide

theorem notYet_eq_false {clk : Nat} {r : Record P} (due : notYet clk r = false) :
    r.clk ≤ clk ∧ (r.kind.isAfterKind = true → r.clk ≠ clk) := by
  simp only [notYet, Bool.or_eq_false_iff, decide_eq_false_iff_not, Bool.and_eq_false_iff,
    beq_eq_false_iff_ne] at due
  exact ⟨by omega, fun after => due.2.resolve_left (by simp [after])⟩

theorem notYet_no_decision {clk : Nat} {r : Record P} {rest : List (Record P)}
    (order : (r :: rest).Pairwise Follows) (wait : notYet clk r = true) :
    ∀ later ∈ r :: rest, decides clk later = false := by
  have head : clk < r.clk ∨ r.kind.isAfterKind = true ∧ r.clk = clk := by
    simpa [notYet] using wait
  intro later member
  rcases List.mem_cons.mp member with rfl | member
  · rcases head with ahead | ⟨after, _⟩
    · simp [decides, Nat.ne_of_gt ahead]
    · rw [Kind.isAfterKind_eq, Bool.or_eq_true, beq_iff_eq, beq_iff_eq] at after
      rcases after with kind | kind <;> simp [decides, isDecision, kind]
  · have follows := (List.pairwise_cons.mp order).1 later member
    rcases follows.2.2 with apart | ⟨_, kind | kind⟩
    · have above : clk < later.clk := by omega
      simp [decides, Nat.ne_of_gt above]
    · simp [decides, isDecision, kind]
    · simp [decides, isDecision, kind]

theorem decision_unique {clk : Nat} {r : Record P} {rest : List (Record P)}
    (order : (r :: rest).Pairwise Follows) (now : decides clk r = true) :
    ∀ later ∈ rest, decides clk later = false := by
  intro later member
  have follows := (List.pairwise_cons.mp order).1 later member
  have same : r.clk = clk := by
    simp only [decides, Bool.and_eq_true, beq_iff_eq] at now
    exact now.2
  rcases follows.2.2 with apart | ⟨_, kind | kind⟩
  · have above : clk < later.clk := by omega
    simp [decides, Nat.ne_of_gt above]
  · simp [decides, isDecision, kind]
  · simp [decides, isDecision, kind]

def decided (clk : Nat) (ry : Replay) (r : Record P) : Replay :=
  if decides clk r then
    { status := if r.kind = .recordSched then .load else .force, id := r.id }
  else ry

theorem recorderOut_spec (rc : Recorder P) (r : Record P) (kind : r.kind ≠ .recordNone) :
    recorderOut rc r = .ok { rc with output := rc.output.map (· ++ [r]) } := by
  cases rc with
  | mk input output =>
      cases output with
      | none => rfl
      | some out =>
          have passes : (r.kind != Kind.recordNone) = true := by simpa using kind
          simp [recorderOut, passes, bind, Except.bind]

theorem replayRecord_spec (clk : Nat) (r : Record P) (good : Written r) (ry : Replay)
    (rc : Recorder P) (due : notYet clk r = false) (first : clk ≤ r.clk + 1)
    (onTime : isDecision r.kind = true → clk ≤ r.clk)
    (fresh : decides clk r = true → ry.status = .done) :
    replayRecord clk r ry rc = .ok (decided clk ry r,
      { rc with output := rc.output.map (· ++ if isCloned r then [r] else []) }) := by
  have bound := notYet_eq_false due
  have clock : isDecision r.kind = true → r.clk = clk := by
    intro decision
    have := onTime decision
    omega
  rcases good.kind with kind | kind | kind | kind | kind
  · have start := good.start kind
    have away : r.clk ≠ clk := bound.2 (by rw [kind]; decide)
    have one : clk = 1 := by omega
    simp [replayRecord, kind, one, recorderOutClone, recorderOut_spec, decided, decides,
      isDecision, isCloned, Kind.isAfterKind_eq, bind, Except.bind]
  · have now : decides clk r = true := by simp [decides, kind, isDecision, clock (by simp [kind, isDecision])]
    simp [replayRecord, kind, fresh now, decided, now, isCloned,
      Kind.isAfterKind_eq]
  · have now : decides clk r = true := by simp [decides, kind, isDecision, clock (by simp [kind, isDecision])]
    simp [replayRecord, kind, fresh now, decided, now, isCloned, recorderOutClone,
      recorderOut_spec, bind, Except.bind]
  · simp [replayRecord, kind, recorderOutClone, recorderOut_spec, decided, decides,
      isDecision, isCloned, Kind.isAfterKind_eq, bind, Except.bind]
  · simp [replayRecord, kind, decided, decides, isDecision, isCloned, Kind.isAfterKind_eq]

def unmarshalInto (mods : Modules M P) (m : M) (r : Record P) : M :=
  match r.kind with
  | .recordSched => mods.unmarshal .persistent r.data m
  | .recordStart => mods.unmarshal .start r.data m
  | .recordConfig => mods.unmarshal .config r.data m
  | _ => m

theorem unmarshal_written (mods : Modules M P) (r : Record P) (good : Written r) (m : M) :
    statemgrRecordUnmarshal mods r m = .ok (unmarshalInto mods m r) := by
  rcases good.kind with kind | kind | kind | kind | kind <;>
    simp only [statemgrRecordUnmarshal, unmarshalInto, kind]

theorem answer_cons_waiting {clk : Nat} {r : Record P} {rest : List (Record P)}
    (order : (r :: rest).Pairwise Follows) (wait : notYet clk r = true) :
    answer clk (r :: rest) = { status := .cont, id := noTask } := by
  have nothing : (r :: rest).find? (decides clk) = none := by
    rw [List.find?_eq_none]
    intro later member
    simp [notYet_no_decision order wait later member]
  simp [answer, nothing, wait]

theorem answer_cons_loaded {clk : Nat} {r : Record P} {rest : List (Record P)}
    (due : notYet clk r = false) :
    answer clk (r :: rest) =
      if decides clk r then
        { status := if r.kind = .recordSched then .load else .force, id := r.id }
      else answer clk rest := by
  cases now : decides clk r <;> simp [answer, now, due]

theorem answerAfter_decided {clk : Nat} {r : Record P} {rest : List (Record P)} {ry : Replay}
    (due : notYet clk r = false) (free : decides clk r = true → ry.status = .done) :
    answerAfter clk (decided clk ry r) rest = answerAfter clk ry (r :: rest) := by
  by_cases now : decides clk r = true
  · by_cases sched : r.kind = .recordSched
    · simp [answerAfter, answer_cons_loaded due, decided, now, free now, sched]
    · simp [answerAfter, answer_cons_loaded due, decided, now, free now, sched]
  · simp [answerAfter, answer_cons_loaded due, decided, now]

theorem recent_enough {clk : Nat} {r : Record P} (first : clk ≤ r.clk + 1) :
    (clk == 0 || decide (clk - 1 ≤ r.clk)) = true := by
  simp only [Bool.or_eq_true, beq_iff_eq, decide_eq_true_eq]
  omega

theorem replayNext_wait (mods : Modules M P) {clk : Nat} {r : Record P} (good : Written r)
    (first : clk ≤ r.clk + 1) (wait : notYet clk r = true) (rest : List (Record P)) (ry : Replay)
    (rc : Recorder P) (m : M) :
    recorderReplayNext mods clk (r :: rest) ry rc m =
      .ok ({ ry with status := if ry.status = .done then .cont else ry.status },
        { rc with input := some (r :: rest) }, m) := by
  simp only [recorderReplayNext, if_neg (written_bits r good), recent_enough first, wait,
    check_true, if_true, bind, Except.bind]

theorem replayNext_load (mods : Modules M P) {clk : Nat} {r : Record P} (good : Written r)
    (first : clk ≤ r.clk + 1) (due : notYet clk r = false) (rest : List (Record P)) (ry ry' : Replay)
    (rc rc' : Recorder P) (m m' : M) (unmarshal : statemgrRecordUnmarshal mods r m = .ok m')
    (record : replayRecord clk r ry { rc with unmarshalled := rc.unmarshalled ++ [(clk, r)] } =
      .ok (ry', rc')) :
    recorderReplayNext mods clk (r :: rest) ry rc m =
      recorderReplayNext mods clk rest ry' rc' m' := by
  simp only [recorderReplayNext, if_neg (written_bits r good), recent_enough first, due,
    check_true, unmarshal, record, bind, Except.bind]
  rfl

/-- One call of `_recorder_replay_next`: it loads the records up to the first one that has to
wait, clones the ones that belong in the output and keeps the rest for the next clock. -/
theorem replayNext_spec (mods : Modules M P) (clk : Nat) (rest : List (Record P))
    (order : rest.Pairwise Follows) (good : ∀ r ∈ rest, Written r) (ready : Ready clk rest)
    (ry : Replay)
    (fresh : ry = ⟨.done, noTask⟩ ∨ ry.status ≠ .done ∧ ∀ r ∈ rest, decides clk r = false)
    (rc : Recorder P) (m : M) :
    recorderReplayNext mods clk rest ry rc m = .ok (answerAfter clk ry rest,
      { rc with
        input := traceOf (remaining clk rest)
        output := rc.output.map (· ++ (loaded clk rest).filter isCloned)
        unmarshalled := rc.unmarshalled ++ (loaded clk rest).map (fun r => (clk, r)) },
      (loaded clk rest).foldl (unmarshalInto mods) m) := by
  induction rest generalizing ry rc m with
  | nil =>
      rcases fresh with rfl | ⟨busy, _⟩
      · simp [recorderReplayNext, answerAfter, answer, traceOf, remaining, loaded]
      · simp [recorderReplayNext, answerAfter, busy, traceOf, remaining, loaded]
  | cons r rest ih =>
      have good₁ := good r List.mem_cons_self
      have onTime := ready r List.mem_cons_self
      by_cases wait : notYet clk r = true
      · have stop : loaded clk (r :: rest) = [] := by simp [loaded, wait]
        have keep : remaining clk (r :: rest) = r :: rest := by simp [remaining, wait]
        rw [replayNext_wait mods good₁ onTime.1 wait]
        rcases fresh with rfl | ⟨busy, _⟩
        · simp [answerAfter, answer_cons_waiting order wait, stop, keep, traceOf]
        · simp [answerAfter, busy, stop, keep, traceOf]
      · have due : notYet clk r = false := by simpa using wait
        have orderTail := (List.pairwise_cons.mp order).2
        have goodTail : ∀ later ∈ rest, Written later := fun later member =>
          good later (List.mem_cons_of_mem _ member)
        have readyTail : Ready clk rest := fun later member =>
          ready later (List.mem_cons_of_mem _ member)
        have free : decides clk r = true → ry.status = .done := by
          intro now
          rcases fresh with rfl | ⟨_, none⟩
          · rfl
          · simp [none r List.mem_cons_self] at now
        have unmarshal := unmarshal_written mods r good₁ m
        let rc₁ : Recorder P := { rc with unmarshalled := rc.unmarshalled ++ [(clk, r)] }
        have record := replayRecord_spec clk r good₁ ry rc₁ due onTime.1 onTime.2 free
        -- a decision of this clock is the last one, so the rest of the call only adds state
        have freshTail : decided clk ry r = ⟨.done, noTask⟩ ∨
            (decided clk ry r).status ≠ .done ∧ ∀ later ∈ rest, decides clk later = false := by
          cases now : decides clk r with
          | true =>
              right
              refine ⟨?_, decision_unique order now⟩
              simp only [decided, now, if_true]
              split <;> decide
          | false =>
              simp only [decided, now]
              rcases fresh with rfl | ⟨busy, none⟩
              · exact Or.inl rfl
              · exact Or.inr ⟨busy, fun later member => none later (List.mem_cons_of_mem _ member)⟩
        have next := ih orderTail goodTail readyTail (decided clk ry r) freshTail
          { rc₁ with output := rc₁.output.map (· ++ if isCloned r then [r] else []) }
          (unmarshalInto mods m r)
        rw [replayNext_load mods good₁ onTime.1 due rest ry _ rc _ m _ unmarshal record, next,
          answerAfter_decided due free]
        have front : loaded clk (r :: rest) = r :: loaded clk rest := by simp [loaded, due]
        have back : remaining clk (r :: rest) = remaining clk rest := by simp [remaining, due]
        have clones : (r :: loaded clk rest).filter isCloned =
            (if isCloned r then [r] else []) ++ (loaded clk rest).filter isCloned := by
          by_cases cloned : isCloned r = true <;> simp [cloned]
        rw [front, back, clones, List.foldl_cons]
        cases rc.output <;> simp [rc₁]

theorem loaded_append_remaining (clk : Nat) (rest : List (Record P)) :
    loaded clk rest ++ remaining clk rest = rest :=
  List.takeWhile_append_dropWhile

theorem ready_remaining {clk : Nat} {rest : List (Record P)} (order : rest.Pairwise Follows) :
    Ready (clk + 1) (remaining clk rest) := by
  induction rest with
  | nil => intro r member; simp [remaining] at member
  | cons r rest ih =>
      cases wait : notYet clk r with
      | false =>
          have back : remaining clk (r :: rest) = remaining clk rest := by simp [remaining, wait]
          rw [back]
          exact ih (List.pairwise_cons.mp order).2
      | true =>
          have keep : remaining clk (r :: rest) = r :: rest := by simp [remaining, wait]
          have head : clk ≤ r.clk := by
            simp only [notYet, Bool.or_eq_true, decide_eq_true_eq, Bool.and_eq_true, beq_iff_eq] at wait
            omega
          rw [keep]
          intro later member
          have ahead : clk ≤ later.clk := by
            rcases List.mem_cons.mp member with rfl | inside
            · exact head
            · have follows := (List.pairwise_cons.mp order).1 later inside
              have := follows.2.2
              omega
          have idle := notYet_no_decision order wait later member
          refine ⟨by omega, fun decision => ?_⟩
          have apart : later.clk ≠ clk := by simpa [decides, decision] using idle
          omega

/-- When a record is handed to the state manager: START and CONFIG at the clock after their
own, a decision at its own clock, and EXIT at its own clock or, behind a CONFIG record of the
same clock, at the next one. -/
structure Stamped (clk : Nat) (r : Record P) : Prop where
  after : r.kind.isAfterKind = true → clk = r.clk + 1
  decision : isDecision r.kind = true → clk = r.clk
  exit : r.kind = .recordExit → clk = r.clk ∨ clk = r.clk + 1

theorem stamped_loaded {clk : Nat} {rest : List (Record P)} (ready : Ready clk rest) :
    ∀ r ∈ loaded clk rest, Stamped clk r ∧ r.clk ≤ clk := by
  intro r member
  have due : notYet clk r = false := by simpa using List.mem_takeWhile_imp member
  have bound := notYet_eq_false due
  have onTime := ready r ((List.takeWhile_sublist _).subset member)
  refine ⟨⟨fun after => ?_, fun decision => ?_, fun _ => ?_⟩, bound.1⟩
  · have := bound.2 after
    omega
  · have := onTime.2 decision
    omega
  · omega

theorem answer_append {clk : Nat} (past rest : List (Record P)) (old : ∀ r ∈ past, r.clk < clk) :
    answer clk (past ++ rest) = answer clk rest := by
  have idle : past.find? (decides clk) = none := by
    rw [List.find?_eq_none]
    intro r member
    have := old r member
    simp [decides, Nat.ne_of_lt this]
  have quiet : past.any (notYet clk) = false := by
    rw [List.any_eq_false]
    intro r member
    have := old r member
    simp only [notYet, Bool.or_eq_true, decide_eq_true_eq, Bool.and_eq_true, beq_iff_eq]
    omega
  simp [answer, List.find?_append, idle, List.any_append, quiet]

/-- One clock of a replaying engine: `recorder_replay` at the next clock and, where the
sequencer decides so, `recorder_record` of the resumed capture point at the same clock. -/
def recorderClock (mods : Modules M P) (rc : Recorder P) (m : M) (resumed : Option CapturePoint) :
    Except Fault (Replay × Recorder P × M) := do
  let clk := rc.replayClk + 1
  let (ry, rc, m) ← recorderReplay mods rc m clk
  match resumed with
  | none => .ok (ry, rc, m)
  | some cp => do
      let rc ← recorderRecord mods rc m cp clk
      .ok (ry, rc, m)

def recorderRun (mods : Modules M P) :
    List (Option CapturePoint) → Recorder P → M → Except Fault (List Replay × Recorder P × M)
  | [], rc, m => .ok ([], rc, m)
  | resumed :: rest, rc, m => do
      let (ry, rc, m) ← recorderClock mods rc m resumed
      let (rys, rc, m) ← recorderRun mods rest rc m
      .ok (ry :: rys, rc, m)

def Ordered (clk : Nat) (out : List (Record P)) : Prop :=
  out.Pairwise (fun a b => a.clk ≤ b.clk) ∧ ∀ r ∈ out, r.clk ≤ clk

/-- The recorder after `clk` clocks over the trace `t`: the log splits the trace, and what is
left of it is the input. -/
structure Cursor (t : List (Record P)) (clk : Nat) (rc : Recorder P) (rest : List (Record P)) :
    Prop where
  split : rc.unmarshalled.map Prod.snd ++ rest = t
  input : rc.input = some rest ∨ rest = [] ∧ rc.input = none
  ready : Ready (clk + 1) rest
  past : ∀ r ∈ rc.unmarshalled.map Prod.snd, r.clk < clk + 1
  stamped : ∀ entry ∈ rc.unmarshalled, Stamped entry.1 entry.2
  replayClk : rc.replayClk = clk
  recordClk : rc.recordClk ≤ clk
  running : rc.finito = false
  final : rc.finalr = true
  ordered : ∀ out, rc.output = some out → Ordered clk out

theorem ordered_append {clk next : Nat} {out new : List (Record P)} (before : Ordered clk out)
    (step : clk ≤ next) (sorted : new.Pairwise (fun a b => a.clk ≤ b.clk))
    (above : ∀ r ∈ new, clk ≤ r.clk) (below : ∀ r ∈ new, r.clk ≤ next) :
    Ordered next (out ++ new) := by
  refine ⟨List.pairwise_append.mpr ⟨before.1, sorted, ?_⟩, ?_⟩
  · intro a inOut b inNew
    exact Nat.le_trans (before.2 a inOut) (above b inNew)
  · intro r member
    rcases List.mem_append.mp member with old | new
    · exact Nat.le_trans (before.2 r old) step
    · exact below r new

theorem recorderReplay_eq (mods : Modules M P) {rc : Recorder P} {clk : Nat}
    (running : rc.finito = false) (contiguous : rc.replayClk = clk) (m : M) :
    recorderReplay mods rc m (clk + 1) =
      match rc.input with
      | none => .ok (⟨.done, noTask⟩, { rc with replayClk := clk + 1 }, m)
      | some trace => recorderReplayNext mods (clk + 1) trace ⟨.done, noTask⟩
          { rc with replayClk := clk + 1 } m := by
  subst contiguous
  cases found : rc.input <;> simp [recorderReplay, running, found]

/-- `recorder_replay` at the next clock keeps the cursor and gives the answer for the trace. -/
theorem recorderReplay_cursor (mods : Modules M P) {t : List (Record P)} (wf : WellFormed t)
    {clk : Nat} {rc : Recorder P} {rest : List (Record P)} (cur : Cursor t clk rc rest) (m : M) :
    ∃ rc', recorderReplay mods rc m (clk + 1) = .ok (answer (clk + 1) t, rc',
        (loaded (clk + 1) rest).foldl (unmarshalInto mods) m) ∧
      Cursor t (clk + 1) rc' (remaining (clk + 1) rest) ∧ rc'.recordClk ≤ clk ∧
      rc'.output = rc.output.map (· ++ (loaded (clk + 1) rest).filter isCloned) := by
  have suffix : rest.Sublist t := by
    rw [← cur.split]
    exact List.sublist_append_right _ _
  have order : rest.Pairwise Follows := wf.order.sublist suffix
  have good : ∀ r ∈ rest, Written r := fun r member => wf.written r (suffix.subset member)
  have next := replayNext_spec mods (clk + 1) rest order good cur.ready
    ⟨.done, noTask⟩ (Or.inl rfl) { rc with replayClk := clk + 1 } m
  have answers : answerAfter (clk + 1) ⟨.done, noTask⟩ rest = answer (clk + 1) t := by
    rw [← cur.split, answer_append _ _ cur.past]
    simp [answerAfter]
  let front := loaded (clk + 1) rest
  let rc' : Recorder P :=
    { rc with
      input := traceOf (remaining (clk + 1) rest)
      output := rc.output.map (· ++ front.filter isCloned)
      replayClk := clk + 1
      unmarshalled := rc.unmarshalled ++ front.map (fun r => (clk + 1, r)) }
  have marks := stamped_loaded cur.ready
  have log : rc'.unmarshalled.map Prod.snd = rc.unmarshalled.map Prod.snd ++ front := by
    simp [rc', Function.comp_def]
  have run : recorderReplay mods rc m (clk + 1) = .ok (answer (clk + 1) t, rc',
      front.foldl (unmarshalInto mods) m) := by
    rw [recorderReplay_eq mods cur.running cur.replayClk, ← answers]
    rcases cur.input with trace | ⟨empty, trace⟩
    · simpa only [trace] using next
    · subst empty
      simp only [trace]
      simpa [recorderReplayNext, trace, rc', front] using next
  refine ⟨rc', run, ?_, cur.recordClk, rfl⟩
  constructor
  · rw [log, List.append_assoc, loaded_append_remaining, cur.split]
  · cases shape : remaining (clk + 1) rest with
    | nil => exact Or.inr ⟨rfl, by simp [rc', shape, traceOf]⟩
    | cons r later => exact Or.inl (by simp [rc', shape, traceOf])
  · exact ready_remaining order
  · intro r member
    rw [log] at member
    rcases List.mem_append.mp member with old | new
    · exact Nat.lt_succ_of_lt (cur.past r old)
    · exact Nat.lt_succ_of_le (marks r new).2
  · intro entry member
    rcases List.mem_append.mp member with old | new
    · exact cur.stamped entry old
    · obtain ⟨r, inside, rfl⟩ := List.mem_map.mp new
      exact (marks r inside).1
  · rfl
  · exact Nat.le_succ_of_le cur.recordClk
  · exact cur.running
  · exact cur.final
  · intro out written
    obtain ⟨old, had, rfl⟩ := Option.map_eq_some_iff.mp written
    have sorted : (front.filter isCloned).Pairwise (fun a b => a.clk ≤ b.clk) := by
      have inFront : (front.filter isCloned).Sublist rest :=
        List.filter_sublist.trans (List.takeWhile_sublist _)
      refine (order.sublist inFront).imp ?_
      intro a b follows
      have := follows.2.2
      omega
    refine ordered_append (cur.ordered old had) (Nat.le_succ clk) sorted ?_ ?_
    · intro r member
      have onTime := cur.ready r ((List.takeWhile_sublist _).subset (List.mem_of_mem_filter member))
      omega
    · intro r member
      exact (marks r (List.mem_of_mem_filter member)).2

theorem recorderRecord_spec (mods : Modules M P) {rc : Recorder P} {clk : Nat} (m : M)
    {cp : CapturePoint} (running : rc.finito = false) (task : cp.id ≠ noTask)
    (later : rc.recordClk < clk) (replayed : rc.replayClk ≤ clk) :
    recorderRecord mods rc m cp clk = .ok { rc with
      recordClk := clk
      output := rc.output.map (· ++ [schedRecord mods m cp clk])
      replayEnded := rc.replayEnded || (rc.output.isSome && rc.input.isNone) } := by
  have positive : 0 < clk := Nat.lt_of_le_of_lt (Nat.zero_le _) later
  have kind : (schedRecord mods m cp clk).kind ≠ .recordNone := by simp [schedRecord]
  have someTask : (cp.id != noTask) = true := by simpa using task
  cases out : rc.output with
  | none =>
      simp [recorderRecord, running, someTask, positive, later, replayed, out, bind, Except.bind]
  | some old =>
      simp [recorderRecord, running, someTask, positive, later, replayed, out, recorderOut_spec,
        kind, bind, Except.bind]

theorem recorderRecord_cursor (mods : Modules M P) {t : List (Record P)} {clk : Nat}
    {rc : Recorder P} {rest : List (Record P)} (cur : Cursor t (clk + 1) rc rest)
    (before : rc.recordClk ≤ clk) (m : M) (cp : CapturePoint) (task : cp.id ≠ noTask) :
    ∃ rc', recorderRecord mods rc m cp (clk + 1) = .ok rc' ∧ Cursor t (clk + 1) rc' rest ∧
      rc'.output = rc.output.map (· ++ [schedRecord mods m cp (clk + 1)]) := by
  refine ⟨_, recorderRecord_spec mods m cur.running task (Nat.lt_succ_of_le before)
    (Nat.le_of_eq cur.replayClk), ?_, rfl⟩
  refine ⟨cur.split, cur.input, cur.ready, cur.past, cur.stamped, cur.replayClk, Nat.le_refl _,
    cur.running, cur.final, ?_⟩
  intro out written
  obtain ⟨old, had, rfl⟩ := Option.map_eq_some_iff.mp written
  have exact : ∀ r ∈ [schedRecord mods m cp (clk + 1)], r.clk = clk + 1 := by simp [schedRecord]
  exact ordered_append (cur.ordered old had) (Nat.le_refl _) (List.pairwise_singleton _ _)
    (fun r member => Nat.le_of_eq (exact r member).symm)
    (fun r member => Nat.le_of_eq (exact r member))

theorem recorderRun_cursor (mods : Modules M P) {t : List (Record P)} (wf : WellFormed t)
    (resumes : List (Option CapturePoint))
    (tasks : ∀ resumed ∈ resumes, ∀ cp ∈ resumed, cp.id ≠ noTask) {clk : Nat} {rc : Recorder P}
    {rest : List (Record P)} (cur : Cursor t clk rc rest) (m : M) :
    ∃ rc' m' rest', recorderRun mods resumes rc m =
        .ok ((List.range' (clk + 1) resumes.length).map (fun k => answer k t), rc', m') ∧
      Cursor t (clk + resumes.length) rc' rest' := by
  induction resumes generalizing clk rc rest m with
  | nil => exact ⟨rc, m, rest, rfl, cur⟩
  | cons resumed resumes ih =>
      obtain ⟨rc₁, replayed, cur₁, before, _⟩ := recorderReplay_cursor mods wf cur m
      generalize (loaded (clk + 1) rest).foldl (unmarshalInto mods) m = m₁ at replayed
      have clock : ∃ rc₂, recorderClock mods rc m resumed = .ok (answer (clk + 1) t, rc₂, m₁) ∧
          Cursor t (clk + 1) rc₂ (remaining (clk + 1) rest) := by
        cases resumed with
        | none =>
            exact ⟨rc₁, by simp [recorderClock, cur.replayClk, replayed, bind, Except.bind], cur₁⟩
        | some cp =>
            have task := tasks (some cp) List.mem_cons_self cp rfl
            obtain ⟨rc₂, recorded, cur₂, _⟩ := recorderRecord_cursor mods cur₁ before m₁ cp task
            exact ⟨rc₂, by simp [recorderClock, cur.replayClk, replayed, recorded, bind, Except.bind],
              cur₂⟩
      obtain ⟨rc₂, stepped, cur₂⟩ := clock
      obtain ⟨rc', m', rest', run, cur'⟩ := ih
        (fun later member => tasks later (List.mem_cons_of_mem _ member)) cur₂ m₁
      refine ⟨rc', m', rest', ?_, ?_⟩
      · simp [recorderRun, stepped, run, bind, Except.bind, List.range'_succ]
      · rw [List.length_cons, Nat.add_comm resumes.length 1, ← Nat.add_assoc]
        exact cur'

theorem recorderFini_cursor (mods : Modules M P) {t : List (Record P)} {clk : Nat}
    {rc : Recorder P} {rest : List (Record P)} (cur : Cursor t clk rc rest) (m : M) (id : TaskId)
    (reason : Reason) :
    ∃ rc', recorderFini mods rc m clk id reason = .ok rc' ∧
      rc'.output = rc.output.map (· ++ [exitRecord mods m clk id reason]) ∧
      ∀ out, rc'.output = some out → Ordered clk out := by
  have kind : (exitRecord mods m clk id reason).kind ≠ .recordNone := by simp [exitRecord]
  have run : recorderFini mods rc m clk id reason = .ok { rc with
      finito := true
      output := rc.output.map (· ++ [exitRecord mods m clk id reason]) } := by
    cases out : rc.output <;>
      simp [recorderFini, cur.running, cur.final, out, recorderOutSafe, recorderOut_spec, kind, bind,
        Except.bind]
  refine ⟨_, run, rfl, ?_⟩
  intro out written
  obtain ⟨old, had, rfl⟩ := Option.map_eq_some_iff.mp written
  have exact : ∀ r ∈ [exitRecord mods m clk id reason], r.clk = clk := by simp [exitRecord]
  exact ordered_append (cur.ordered old had) (Nat.le_refl clk) (List.pairwise_singleton _ _)
    (fun r member => Nat.le_of_eq (exact r member).symm)
    (fun r member => Nat.le_of_eq (exact r member))

theorem cursor_init {t : List (Record P)} {input : Option (List (Record P))} (wf : WellFormed t)
    (forced : ∀ r ∈ t, r.kind = .recordForce → 0 < r.clk)
    (source : input = some t ∨ t = [] ∧ input = none) (recording : Bool) :
    Cursor t 0 (recorderInit input (if recording then some [] else none)) t := by
  have ready : Ready (0 + 1) t := by
    intro r member
    refine ⟨by omega, fun decision => ?_⟩
    rcases Bool.or_eq_true_iff.mp decision with sched | force
    · exact (wf.written r member).sched (beq_iff_eq.mp sched)
    · exact forced r member (beq_iff_eq.mp force)
  constructor
  · rfl
  · exact source
  · exact ready
  · intro r member
    simp [recorderInit] at member
  · intro entry member
    simp [recorderInit] at member
  · rfl
  · exact Nat.le_refl 0
  · rfl
  · rfl
  · intro out written
    cases recording with
    | true =>
        have empty : out = [] := by simpa [recorderInit] using written.symm
        subst empty
        exact ⟨List.Pairwise.nil, by simp⟩
    | false => simp [recorderInit] at written

/-- Replaying a trace with FORCE records at positive clocks, for any number of clocks and with
any of them recorded again: each clock gets its answer, every record that is due is unmarshalled
exactly once and in its clock, and the output stays in clock order up to the EXIT record. -/
theorem recorder_replay_round_trip (mods : Modules M P) (t : List (Record P)) (wf : WellFormed t)
    (forced : ∀ r ∈ t, r.kind = .recordForce → 0 < r.clk) (recording : Bool)
    (resumes : List (Option CapturePoint))
    (tasks : ∀ resumed ∈ resumes, ∀ cp ∈ resumed, cp.id ≠ noTask) (m : M) :
    ∃ rc m' rest,
      recorderRun mods resumes
          (recorderInit (some t) (if recording then some [] else none)) m =
        .ok ((List.range' 1 resumes.length).map (fun k => answer k t), rc, m') ∧
      rc.unmarshalled.map Prod.snd ++ rest = t ∧
      (∀ entry ∈ rc.unmarshalled, Stamped entry.1 entry.2) ∧
      (∀ r ∈ rest, resumes.length ≤ r.clk ∧ (isDecision r.kind = true → resumes.length < r.clk)) ∧
      (∀ out, rc.output = some out → out.Pairwise (fun a b => a.clk ≤ b.clk)) ∧
      ∀ id reason, ∃ rc', recorderFini mods rc m' resumes.length id reason = .ok rc' ∧
        ∀ out, rc'.output = some out → out.Pairwise (fun a b => a.clk ≤ b.clk) := by
  obtain ⟨rc, m', rest, run, cur⟩ := recorderRun_cursor mods wf resumes tasks
    (cursor_init wf forced (Or.inl rfl) recording) m
  rw [Nat.zero_add] at run cur
  refine ⟨rc, m', rest, run, cur.split, cur.stamped, ?_, fun out written => (cur.ordered out written).1,
    ?_⟩
  · intro r member
    have later := cur.ready r member
    exact ⟨by omega, fun decision => later.2 decision⟩
  · intro id reason
    obtain ⟨rc', fini, _, ordered⟩ := recorderFini_cursor mods cur m' id reason
    exact ⟨rc', fini, fun out written => (ordered out written).1⟩

def sampleRecord (kind : Kind) (clk : Nat) (id : TaskId) : Record Unit :=
  { id, clk, chainId := 0, typeId := 0, reason := .unknown, kind, pc := 0, data := () }

def sampleTrace : List (Record Unit) :=
  [sampleRecord .recordStart 0 0, sampleRecord .recordSched 1 2, sampleRecord .recordConfig 1 0,
    sampleRecord .recordForce 3 1, sampleRecord .recordExit 3 0]

theorem sampleTrace_wellFormed : WellFormed sampleTrace := by
  constructor
  · simp [sampleTrace, sampleRecord, Follows]
  · intro r member
    simp only [sampleTrace, List.mem_cons, List.not_mem_nil, or_false] at member
    rcases member with rfl | rfl | rfl | rfl | rfl <;>
      exact ⟨by simp [sampleRecord], by simp [sampleRecord], by simp [sampleRecord]⟩

theorem recorder_replay_round_trip_sample :
    ∃ rc m' rest,
      recorderRun noModules [none, none, none] (recorderInit (some sampleTrace) (some [])) () =
        .ok ([⟨.load, 2⟩, ⟨.cont, noTask⟩, ⟨.force, 1⟩], rc, m') ∧
      rc.unmarshalled.map Prod.snd ++ rest = sampleTrace := by
  obtain ⟨rc, m', rest, run, split, _⟩ := recorder_replay_round_trip noModules sampleTrace
    sampleTrace_wellFormed (by decide) true [none, none, none] (by simp) ()
  exact ⟨rc, m', rest, run, split⟩

/-- A FORCE record at clock 0 is answered at clock 1, which has no record. -/
theorem force_at_clock_zero_answered_late :
    WellFormed [sampleRecord .recordForce 0 1] ∧
      (∀ r ∈ [sampleRecord .recordForce 0 1], r.clk ≠ 1) ∧
      (recorderRun noModules [none]
        (recorderInit (some [sampleRecord .recordForce 0 1]) none) ()).map Prod.fst =
        .ok [⟨.force, 1⟩] := by
  refine ⟨⟨List.pairwise_singleton _ _, ?_⟩, by decide, rfl⟩
  intro r member
  rw [List.mem_singleton] at member
  subst member
  exact ⟨by simp [sampleRecord], by simp [sampleRecord], by simp [sampleRecord]⟩

end Lotto.RecorderReplay
