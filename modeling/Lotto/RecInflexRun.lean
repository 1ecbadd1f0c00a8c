import Lotto.FastInflexRun
import Lotto.RecInflex

namespace Lotto.Rinflex.Recursive

open Library.FaultRun Library.Outcomes

section Searches

variable {O : Type} {exec : Nat → O → Executed × O}

def Unexpected (e : SearchError) : Prop := ∀ valid invalid, e ≠ .executionNotFound valid invalid

theorem postexec_unexpected (filter : Option (Executed → Bool)) (ran : Executed) :
    Safe Unexpected (fun _ => True) (postexec filter ran) := by
  rw [postexec]
  split
  · intro valid invalid same
    cases same
  · repeat' split
    all_goals trivial

theorem validRun_unexpected (clk patience : Nat) (o : O) :
    Safe Unexpected (fun _ => True) (validRun exec clk patience o) := by
  induction patience generalizing o with
  | zero =>
      intro valid invalid same
      cases same
  | succ patience ih =>
      apply (postexec_unexpected none _).bind
      intro outcome _
      cases outcome with
      | none => exact ih _
      | some outcome => trivial

theorem probe_unexpected (wanted : Outcome) (patience clk : Nat) (o : O) :
    Safe Unexpected (fun _ => True) (probe exec wanted patience clk o) :=
  (validRun_unexpected clk patience o).bind fun _ _ => trivial

theorem binarySearch_unexpected {σ : Type} {ask : Nat → σ → Except SearchError (Bool × σ)}
    (asked : ∀ clk s, Safe Unexpected (fun _ => True) (ask clk s)) (l r : Nat) (s : σ) :
    Safe Unexpected (fun _ => True) (binarySearch ask l r s) := by
  induction l, r, s using binarySearch.induct with
  | case1 l r s isOpen x ihLeft ihRight =>
      rw [binarySearch, if_pos isOpen]
      apply (asked _ s).bind
      rintro ⟨holds, s'⟩ _
      cases holds with
      | true => exact ihLeft s'
      | false => exact ihRight s'
  | case2 l r s closed =>
      rw [binarySearch, if_neg closed]
      trivial

theorem fastLoop_unexpected (args : InflexArgs) (wanted : Outcome) (patience fuel : Nat) :
    ∀ ip lastIp confidence (o : O), Safe Unexpected (fun _ => True)
      (fastLoop exec args wanted patience fuel ip lastIp confidence o) := by
  induction fuel with
  | zero =>
      intro ip lastIp confidence o valid invalid same
      cases same
  | succ fuel ih =>
      intro ip lastIp confidence o
      rw [fastLoop]
      split
      · apply (binarySearch_unexpected (probe_unexpected wanted patience) ip args.lastClk o).bind
        rintro ⟨ip', o'⟩ _
        dsimp only
        split
        · exact ih _ _ _ _
        · exact ih _ _ _ _
      · trivial

theorem always_unexpected {σ : Type} {ask : σ → Except SearchError (Bool × σ)}
    (asked : ∀ s, Safe Unexpected (fun _ => True) (ask s)) (rounds : Nat) (s : σ) :
    Safe Unexpected (fun _ => True) (always ask rounds s) := by
  induction rounds generalizing s with
  | zero => trivial
  | succ rounds ih =>
      apply (asked s).bind
      rintro ⟨holds, s'⟩ _
      cases holds with
      | true => exact ih s'
      | false => trivial

inductive Runs (exec : Nat → O → Executed × O) : O → List (Nat × Executed) → O → Prop where
  | done (o : O) : Runs exec o [] o
  | step {clk : Nat} {o o' : O} {log : List (Nat × Executed)} (rest : Runs exec (exec clk o).2 log o') :
      Runs exec o ((clk, (exec clk o).1) :: log) o'

theorem Runs.trans {o o₁ o₂ : O} {first second : List (Nat × Executed)} (one : Runs exec o first o₁)
    (two : Runs exec o₁ second o₂) : Runs exec o (first ++ second) o₂ := by
  induction one with
  | done => exact two
  | step _ ih => exact .step (ih two)

theorem validRun_runs {clk patience : Nat} {o o' : O} {outcome : Outcome}
    (valid : validRun exec clk patience o = .ok (outcome, o')) : ∃ log, Runs exec o log o' ∧
      ∀ past, validRun (logged exec) clk patience (o, past) = .ok (outcome, (o', past ++ log)) := by
  induction patience generalizing o with
  | zero => cases valid
  | succ patience ih =>
      obtain ⟨found, judged, valid⟩ := bind_eq_ok.mp valid
      cases found with
      | none =>
          obtain ⟨log, runs, later⟩ := ih valid
          exact ⟨_, .step runs, fun past => by
            simpa [validRun, logged, judged] using later (past ++ [(clk, (exec clk o).1)])⟩
      | some outcome' =>
          cases valid
          exact ⟨_, .step (.done _), fun past => by simp [validRun, logged, judged]⟩

theorem probe_runs {wanted : Outcome} {patience clk : Nat} {o o' : O} {holds : Bool}
    (asked : probe exec wanted patience clk o = .ok (holds, o')) : ∃ log, Runs exec o log o' ∧
      ∀ past, probe (logged exec) wanted patience clk (o, past) = .ok (holds, (o', past ++ log)) := by
  obtain ⟨⟨outcome, o₁⟩, valid, done⟩ := bind_eq_ok.mp asked
  cases done
  obtain ⟨log, runs, valid'⟩ := validRun_runs valid
  exact ⟨log, runs, fun past => by rw [probe, valid', ok_bind]⟩

theorem binarySearch_runs {wanted : Outcome} {patience l r c : Nat} {o o' : O}
    (found : binarySearch (probe exec wanted patience) l r o = .ok (c, o')) :
    ∃ log, Runs exec o log o' ∧ ∀ past,
      binarySearch (probe (logged exec) wanted patience) l r (o, past) = .ok (c, (o', past ++ log)) := by
  induction l, r, o using binarySearch.induct with
  | case1 l r o isOpen x ihLeft ihRight =>
      rw [binarySearch, if_pos isOpen] at found
      obtain ⟨⟨holds, o₁⟩, asked, rest⟩ := bind_eq_ok.mp found
      obtain ⟨log, runs, asked'⟩ := probe_runs asked
      have later : ∃ log, Runs exec o₁ log o' ∧ ∀ past,
          (if holds = true then binarySearch (probe (logged exec) wanted patience) l x (o₁, past)
            else binarySearch (probe (logged exec) wanted patience) (x + 1) r (o₁, past)) =
            .ok (c, (o', past ++ log)) := by
        cases holds with
        | true => exact ihLeft o₁ rest
        | false => exact ihRight o₁ rest
      obtain ⟨log', runs', rest'⟩ := later
      refine ⟨log ++ log', runs.trans runs', fun past => ?_⟩
      rw [binarySearch, if_pos isOpen]
      dsimp only
      rw [asked', ok_bind, ← List.append_assoc]
      exact rest' _
  | case2 l r o closed =>
      rw [binarySearch, if_neg closed] at found
      cases found
      exact ⟨[], .done _, fun past => by rw [binarySearch, if_neg closed, List.append_nil]⟩

theorem fastLoop_runs {args : InflexArgs} {wanted : Outcome}
    {patience fuel ip lastIp confidence ip' : Nat} {o o' : O}
    (found : fastLoop exec args wanted patience fuel ip lastIp confidence o = .ok (ip', o')) :
    ∃ log, Runs exec o log o' ∧ ∀ past,
      fastLoop (logged exec) args wanted patience fuel ip lastIp confidence (o, past) =
        .ok (ip', (o', past ++ log)) := by
  induction fuel generalizing ip lastIp confidence o with
  | zero => cases found
  | succ fuel ih =>
      rw [fastLoop] at found
      by_cases goesOn : confidence ≤ args.rounds ∧ ip < args.lastClk
      · rw [if_pos goesOn] at found
        obtain ⟨⟨ip₁, o₁⟩, searched, rest⟩ := bind_eq_ok.mp found
        obtain ⟨log, runs, searched'⟩ := binarySearch_runs searched
        have later : ∃ log, Runs exec o₁ log o' ∧ ∀ past, (if ip₁ = lastIp
            then fastLoop (logged exec) args wanted patience fuel ip₁ lastIp (confidence + 1) (o₁, past)
            else fastLoop (logged exec) args wanted patience fuel ip₁ ip₁ 1 (o₁, past)) =
            .ok (ip', (o', past ++ log)) := by
          dsimp only at rest
          split_ifs at rest ⊢
          · exact ih rest
          · exact ih rest
        obtain ⟨log', runs', rest'⟩ := later
        refine ⟨log ++ log', runs.trans runs', fun past => ?_⟩
        rw [fastLoop, if_pos goesOn, searched', ok_bind, ← List.append_assoc]
        exact rest' _
      · rw [if_neg goesOn] at found
        cases found
        exact ⟨[], .done _, fun past => by rw [fastLoop, if_neg goesOn, List.append_nil]⟩

theorem always_runs {wanted : Outcome} {patience clk rounds : Nat} {o o' : O} {holds : Bool}
    (asked : always (probe exec wanted patience clk) rounds o = .ok (holds, o')) :
    ∃ log, Runs exec o log o' := by
  induction rounds generalizing o with
  | zero =>
      cases asked
      exact ⟨[], .done _⟩
  | succ rounds ih =>
      obtain ⟨⟨one, o₁⟩, first, rest⟩ := bind_eq_ok.mp asked
      obtain ⟨log, runs, _⟩ := probe_runs first
      cases one with
      | true =>
          obtain ⟨log', runs'⟩ := ih rest
          exact ⟨log ++ log', runs.trans runs'⟩
      | false =>
          cases rest
          exact ⟨log, runs⟩

theorem fastLoop_found {args : InflexArgs} {wanted : Outcome} {patience fuel ip : Nat} {o o' : O}
    (found : fastLoop exec args wanted patience fuel args.min 0 0 o = .ok (ip, o')) :
    ∃ log, Runs exec o log o' ∧ Witnessed args wanted log ip := by
  obtain ⟨log, runs, found'⟩ := fastLoop_runs found
  exact ⟨log, runs, fastLoop_witnessed (found' [])⟩

end Searches

section Recording

variable {τ O : Type} {x : Executor τ O} {log : List (Nat × Executed)} {o o' : O}

structure Execution (τ : Type) where
  input : τ
  goal : Nat
  ran : Executed
  output : τ

def Execution.outcome (e : Execution τ) : Option Outcome :=
  match postexec none e.ran with
  | .ok outcome => outcome
  | .error _ => none

abbrev Recorded (τ O : Type) := O × List (Execution τ)

abbrev RecState (τ O : Type) := RecInflex τ (Recorded τ O)

def Executor.recorded (x : Executor τ O) : Executor τ (Recorded τ O) where
  exec input goal o :=
    let (ran, output, oracle) := x.exec input goal o.1
    (ran, output, oracle, o.2 ++ [⟨input, goal, ran, output⟩])
  lastClk := x.lastClk
  lastTid := x.lastTid
  attach := x.attach
  eventAt trace clk o := do
    let (event, oracle) ← x.eventAt trace clk o.1
    .ok (event, oracle, o.2)

theorem recorded_of_runs {trace : τ} {o o' : Recorded τ O}
    (runs : Runs (executes x.recorded trace) o log o') : ∃ new, o'.2 = o.2 ++ new ∧
      new.map (fun e => (e.goal, e.ran)) = log ∧ ∀ e ∈ new, e.input = trace := by
  induction runs with
  | done o => exact ⟨[], (List.append_nil _).symm, rfl, by simp⟩
  | @step clk o o' log _ ih =>
      obtain ⟨new, split, entries, inputs⟩ := ih
      refine ⟨⟨trace, clk, (x.exec trace clk o.1).1, (x.exec trace clk o.1).2.1⟩ :: new, ?_, ?_, ?_⟩
      · rw [split]
        simp [executes, Executor.recorded]
      · rw [List.map_cons, entries]
        rfl
      · simpa using inputs

theorem recorded_grows {trace : τ} {o o' : Recorded τ O}
    (runs : Runs (executes x.recorded trace) o log o') : o.2 <+: o'.2 := by
  obtain ⟨new, split, _⟩ := recorded_of_runs runs
  exact ⟨new, split.symm⟩

theorem answers_failed (new : List (Execution τ)) :
    (answers .fail (new.map fun e => (e.goal, e.ran))).count (0, true) =
      (new.filter fun e => e.goal == 0 && e.outcome == some .fail).length := by
  induction new with
  | nil => rfl
  | cons e new ih =>
      have split : answers .fail ((e :: new).map fun e => (e.goal, e.ran)) =
          answers .fail [(e.goal, e.ran)] ++ answers .fail (new.map fun e => (e.goal, e.ran)) :=
        answers_append [(e.goal, e.ran)] _
      rw [split, List.count_append, ih, List.filter_cons]
      cases judged : postexec none e.ran with
      | error fault => simp [answers, Execution.outcome, judged]
      | ok outcome =>
          rcases outcome with _ | _ | _ <;>
            by_cases zero : e.goal = 0 <;> simp [answers, Execution.outcome, judged, zero, Nat.add_comm]

def Produced (outcome : Outcome) (trace : τ) (made : List (Execution τ)) : Prop :=
  ∃ e ∈ made, e.output = trace ∧ e.outcome = some outcome

theorem Produced.later {outcome : Outcome} {trace : τ} {made more : List (Execution τ)}
    (produced : Produced outcome trace made) (grows : made <+: more) : Produced outcome trace more := by
  obtain ⟨e, member, left⟩ := produced
  exact ⟨e, grows.subset member, left⟩

theorem postexec_unfiltered {filter : Option (Executed → Bool)} {ran : Executed} {outcome : Outcome}
    (judged : postexec filter ran = .ok (some outcome)) : postexec none ran = .ok (some outcome) := by
  unfold postexec at *
  split_ifs at judged ⊢ <;> simp_all

end Recording

section Steps

variable {τ O : Type} {x : Executor τ O} {rounds fuel : Nat}

def Final (e : RecError) : Prop := ∀ valid invalid, e ≠ .search (.executionNotFound valid invalid)

theorem Unexpected.final {e : SearchError} (unexpected : Unexpected e) : Final (.search e) := by
  intro valid invalid same
  cases same
  exact unexpected valid invalid rfl

theorem panicked_final : Final .panicked := by
  intro valid invalid same
  cases same

/-- The constraints that are known: the order enforcer is given all of them, each relates an event
of one task to a later or concurrent one of another task, and no negated one is left. -/
structure Kept (s : RecState τ O) : Prop where
  mirror : s.cfgConstraints = s.constraints
  ids : (s.constraints.map Constraint.id).Pairwise (· < ·)
  fresh : ∀ c ∈ s.constraints, c.id < s.nextId
  kinds : ∀ c ∈ s.constraints, c.virt = c.positive
  tasks : ∀ c ∈ s.constraints, c.c.source.t.id ≠ c.c.target.t.id
  clocks : ∀ c ∈ s.constraints, c.c.source.clk = c.c.clk + 1 ∧ c.c.clk ≤ c.c.target.clk

/-- Nothing changes but the oracle, the next name and the traces apart from the failing one, and no
execution is forgotten. -/
structure Frame (s s' : RecState τ O) : Prop where
  constraints : s'.constraints = s.constraints
  cfgConstraints : s'.cfgConstraints = s.cfgConstraints
  nextId : s.nextId ≤ s'.nextId
  fail : s'.files .fail = s.files .fail
  recorded : s.oracle.2 <+: s'.oracle.2

def Stable (P : RecState τ O → Prop) : Prop := ∀ s s', Frame s s' → P s → P s'

theorem kept_stable : Stable (Kept (τ := τ) (O := O)) := by
  intro s s' frame kept
  obtain ⟨mirror, ids, fresh, kinds, tasks, clocks⟩ := kept
  constructor
  · rw [frame.cfgConstraints, frame.constraints, mirror]
  · rwa [frame.constraints]
  · rw [frame.constraints]
    exact fun c hc => Nat.lt_of_lt_of_le (fresh c hc) frame.nextId
  · rwa [frame.constraints]
  · rwa [frame.constraints]
  · rwa [frame.constraints]

variable {P : RecState τ O → Prop}

theorem get_triple (P : RecState τ O → Prop) {fail : RecError → RecState τ O → Prop} :
    Triple P (get : Rec τ (Recorded τ O) (RecState τ O)) (fun _ s => P s) fail :=
  Triple.get fun _ holds => holds

theorem searching_triple {α : Type} (stable : Stable P)
    {search : Recorded τ O → Except SearchError (α × Recorded τ O)}
    (unexpected : ∀ o, Safe Unexpected (fun _ => True) (search o))
    (grows : ∀ o a o', search o = .ok (a, o') → o.2 <+: o'.2) :
    Triple P (searching search) (fun a s => P s ∧ ∃ o, search o = .ok (a, s.oracle))
      fun e s => P s ∧ Final e := by
  intro s holds
  have safe := unexpected s.oracle
  rw [searching]
  cases ran : search s.oracle with
  | error e =>
      rw [ran] at safe
      exact ⟨holds, safe.final⟩
  | ok result =>
      have frame : Frame s { s with oracle := result.2 } :=
        ⟨rfl, rfl, Nat.le_refl _, rfl, grows _ _ _ ran⟩
      exact ⟨stable s _ frame holds, s.oracle, ran⟩

theorem before_triple (clk : Nat) :
    Triple P (before clk : Rec τ (Recorded τ O) Nat) (fun goal s => P s ∧ clk = goal + 1)
      fun e s => P s ∧ Final e := by
  rw [before]
  split
  · exact Triple.throw fun s holds => ⟨holds, panicked_final⟩
  · exact Triple.pure fun s holds => ⟨holds, by omega⟩

theorem getEventAtClk_triple (stable : Stable P) (trace : τ) (clk : Nat) :
    Triple P (getEventAtClk x.recorded trace clk) (fun event s => P s ∧ event.clk = clk)
      fun e s => P s ∧ Final e := by
  intro s holds
  rw [getEventAtClk]
  cases read : x.eventAt trace clk s.oracle.1 with
  | ok result =>
      simp only [Executor.recorded, read, ok_bind]
      exact ⟨stable s _ ⟨rfl, rfl, Nat.le_refl _, rfl, List.prefix_rfl⟩ holds, trivial⟩
  | error e =>
      simp only [Executor.recorded, read, error_bind]
      refine ⟨holds, ?_⟩
      intro valid invalid same
      cases same

theorem eventAtClock_triple (stable : Stable P) (file : File) (clock : Nat) :
    Triple P (eventAtClock x.recorded file clock)
      (fun found s => P s ∧ found.1.clk = found.2 ∧ found.2 ≤ clock ∧ clock ≤ found.2 + 1)
      fun e s => P s ∧ Final e := by
  refine (get_triple P).bind fun s₀ => ?_
  refine (getEventAtClk_triple stable _ clock).bind fun event => ?_
  split
  · have step : Triple (fun s => P s ∧ event.clk = clock) (before clock : Rec τ (Recorded τ O) Nat)
        (fun goal s => (P s ∧ event.clk = clock) ∧ clock = goal + 1)
        fun e s => P s ∧ Final e :=
      (before_triple clock).mono (fun s holds => holds) (fun goal s done => done)
        fun e s failed => ⟨failed.1.1, failed.2⟩
    refine step.bind fun earlier => ?_
    by_cases ahead : clock = earlier + 1 ∧ event.clk = clock
    · have read : Triple (fun s => (P s ∧ event.clk = clock) ∧ clock = earlier + 1)
          (getEventAtClk x.recorded (s₀.files file) earlier) (fun found s => P s ∧ found.clk = earlier)
          fun e s => P s ∧ Final e :=
        (getEventAtClk_triple stable _ earlier).mono (fun s holds => holds.1.1)
          (fun found s done => done) fun e s failed => failed
      refine read.bind fun beforeEvent => ?_
      split
      · exact Triple.pure fun s holds => ⟨holds.1, ahead.2, Nat.le_refl _, Nat.le_succ _⟩
      · exact Triple.pure fun s holds => ⟨holds.1, holds.2, by omega, by omega⟩
    · intro s holds
      exact absurd ⟨holds.2, holds.1.2⟩ ahead
  · exact Triple.pure fun s holds => ⟨holds.1, holds.2, Nat.le_refl _, Nat.le_succ _⟩

/-- A trace with the outcome was found, or the search was for a limited time. -/
def Traced (request : TraceRequest) : Except RecError Unit × τ × Recorded τ O → Prop
  | (.ok (), out, o) => Produced request.expected out o.2
  | (.error e, _, _) => request.unlimited = true → Final e

theorem getTraceLoop_traced (x : Executor τ O) (rounds : Nat) (request : TraceRequest)
    (filter : Executed → Bool) (input : τ) (n valid invalid : Nat) (out : τ) (o : Recorded τ O) :
    Traced request (getTraceLoop x.recorded rounds request filter input n valid invalid out o) ∧
      o.2 <+: (getTraceLoop x.recorded rounds request filter input n valid invalid out o).2.2.2 := by
  induction n generalizing valid invalid out o with
  | zero =>
      refine ⟨?_, List.prefix_rfl⟩
      intro unlimited v i same
      cases same
  | succ n ih =>
      rw [getTraceLoop]
      dsimp only
      by_cases limited : (!request.unlimited &&
          (decide ((if request.tryHard = true then rounds * 10 else rounds) < valid) ||
            valid == 0 && decide (rounds * 10 < invalid))) = true
      · rw [if_pos limited]
        refine ⟨?_, List.prefix_rfl⟩
        intro unlimited
        simp [unlimited] at limited
      · rw [if_neg limited]
        obtain ⟨ran, out', oracle, next⟩ : ∃ ran out' oracle,
            x.recorded.exec input request.replayGoal o =
              (ran, out', oracle, o.2 ++ [⟨input, request.replayGoal, ran, out'⟩]) := ⟨_, _, _, rfl⟩
        have grown : o.2 <+: o.2 ++ [⟨input, request.replayGoal, ran, out'⟩] := List.prefix_append _ _
        simp only [next]
        have again : ∀ valid invalid,
            Traced request (getTraceLoop x.recorded rounds request filter input n valid invalid out'
              (oracle, o.2 ++ [⟨input, request.replayGoal, ran, out'⟩])) ∧
            o.2 <+: (getTraceLoop x.recorded rounds request filter input n valid invalid out'
              (oracle, o.2 ++ [⟨input, request.replayGoal, ran, out'⟩])).2.2.2 := by
          intro valid invalid
          obtain ⟨traced, later⟩ := ih valid invalid out'
            (oracle, o.2 ++ [⟨input, request.replayGoal, ran, out'⟩])
          exact ⟨traced, grown.trans later⟩
        cases judged : postexec (some filter) ran with
        | error e =>
            refine ⟨?_, grown⟩
            intro unlimited
            have safe := postexec_unexpected (some filter) ran
            rw [judged] at safe
            exact safe.final
        | ok outcome =>
            cases outcome with
            | none => exact again _ _
            | some outcome =>
                by_cases same : outcome = request.expected
                · simp only [same, if_true]
                  refine ⟨⟨_, List.mem_append_right _ (List.mem_singleton_self _), rfl, ?_⟩, grown⟩
                  rw [Execution.outcome, postexec_unfiltered judged, same]
                · simp only [same, if_false]
                  exact again _ _

theorem getTrace_other (stable : Stable P) (request : TraceRequest) (filter : Executed → Bool)
    (input : File) {output : File} (other : output ≠ .fail) :
    Triple P (getTrace x.recorded rounds fuel request filter input output) (fun _ s => P s)
      fun e s => P s ∧ (request.unlimited = true → Final e) := by
  intro s holds
  have result := getTraceLoop_traced x rounds request filter
    (attached x.recorded s (s.files input) request.replayGoal) fuel 0 0 (s.files output) s.oracle
  rw [getTrace]
  generalize getTraceLoop x.recorded rounds request filter _ fuel 0 0 _ _ = found at result ⊢
  obtain ⟨outcome, out, oracle⟩ := found
  have kept : P { s.setFile output out with oracle } :=
    stable s _ ⟨rfl, rfl, Nat.le_refl _, by simp [RecInflex.setFile, Ne.symm other], result.2⟩ holds
  cases outcome with
  | ok u => exact kept
  | error e => exact ⟨kept, result.1⟩

theorem getTrace_produced (request : TraceRequest) (filter : Executed → Bool) (input output : File) :
    Triple Kept (getTrace x.recorded rounds fuel request filter input output)
      (fun _ s => Kept s ∧ Produced request.expected (s.files output) s.oracle.2)
      fun e s => Kept s ∧ (request.unlimited = true → Final e) := by
  intro s holds
  have result := getTraceLoop_traced x rounds request filter
    (attached x.recorded s (s.files input) request.replayGoal) fuel 0 0 (s.files output) s.oracle
  rw [getTrace]
  generalize getTraceLoop x.recorded rounds request filter _ fuel 0 0 _ _ = found at result ⊢
  obtain ⟨outcome, out, oracle⟩ := found
  have kept : Kept { s.setFile output out with oracle } := by
    obtain ⟨mirror, ids, fresh, kinds, tasks, clocks⟩ := holds
    exact ⟨mirror, ids, fresh, kinds, tasks, clocks⟩
  cases outcome with
  | ok u =>
      have produced : Produced request.expected out oracle.2 := result.1
      exact ⟨kept, by simpa [RecInflex.setFile] using produced⟩
  | error e => exact ⟨kept, result.1⟩

end Steps

section Pairs

variable {τ O : Type} {x : Executor τ O} {rounds fuel : Nat} {P : RecState τ O → Prop}

theorem Frame.trans {s s₁ s₂ : RecState τ O} (first : Frame s s₁) (second : Frame s₁ s₂) :
    Frame s s₂ where
  constraints := second.constraints.trans first.constraints
  cfgConstraints := second.cfgConstraints.trans first.cfgConstraints
  nextId := Nat.le_trans first.nextId second.nextId
  fail := second.fail.trans first.fail
  recorded := first.recorded.trans second.recorded

theorem pop_frame {s s' : RecState τ O} {c : PrimitiveConstraint} {virt positive : Bool}
    (frame : Frame (s.push c virt positive) s') : Frame s s'.pop where
  constraints := by simp [RecInflex.pop, frame.constraints, RecInflex.push]
  cfgConstraints := by simp [RecInflex.pop, frame.cfgConstraints, RecInflex.push]
  nextId := Nat.le_trans (Nat.le_succ _) frame.nextId
  fail := frame.fail
  recorded := frame.recorded

def Pushed (P : RecState τ O → Prop) (c : PrimitiveConstraint) (virt positive : Bool)
    (s' : RecState τ O) : Prop :=
  ∃ s, P s ∧ Frame (s.push c virt positive) s'

theorem pushed_stable (P : RecState τ O → Prop) (c : PrimitiveConstraint) (virt positive : Bool) :
    Stable (Pushed P c virt positive) := by
  rintro s' s'' frame ⟨s, holds, pushed⟩
  exact ⟨s, holds, pushed.trans frame⟩

theorem pushed_pop (stable : Stable P) {c : PrimitiveConstraint} {virt positive : Bool}
    {s' : RecState τ O} (pushed : Pushed P c virt positive s') : P s'.pop := by
  obtain ⟨s, holds, frame⟩ := pushed
  exact stable s _ (pop_frame frame) holds

theorem between_triple {α : Type} (stable : Stable P) {c : PrimitiveConstraint}
    {virt positive : Bool} {m : Rec τ (Recorded τ O) α} {fail : RecError → RecState τ O → Prop}
    (triple : Triple (Pushed P c virt positive) m (fun _ => Pushed P c virt positive)
      fun _ => Pushed P c virt positive) (tolerant : ∀ e s, P s → fail e s) :
    Triple P (between (RecInflex.push c virt positive) RecInflex.pop m) (fun _ s => P s) fail := by
  apply Triple.between
  refine triple.mono ?_ (fun a s pushed => pushed_pop stable pushed)
    fun e s pushed => tolerant e _ (pushed_pop stable pushed)
  rintro s' ⟨s, holds, rfl⟩
  exact ⟨s, holds, rfl, rfl, Nat.le_refl _, rfl, List.prefix_rfl⟩

theorem siblingCheck_triple (stable : Stable P) (goal : Nat) (pair : PrimitiveConstraint) :
    Triple P (siblingCheck x.recorded rounds fuel goal pair) (fun _ s => P s) fun e s => P s ∧ Final e := by
  have check : Triple P (between (RecInflex.push pair true true) RecInflex.pop (checkTrace x.recorded goal))
      (fun _ s => P s) fun e s => P s ∧ Final e := by
    intro s holds
    have pushed : Pushed P pair true true (s.push pair true true) :=
      ⟨s, holds, rfl, rfl, Nat.le_refl _, rfl, List.prefix_rfl⟩
    exact pushed_pop stable pushed
  refine check.bind fun trace => ?_
  have grows : ∀ o a o', always (probe (executes x.recorded trace) .fail fuel goal) rounds o =
      .ok (a, o') → o.2 <+: o'.2 := by
    intro o a o' asked
    obtain ⟨log, runs⟩ := always_runs asked
    exact recorded_grows runs
  exact (searching_triple stable (fun o => always_unexpected
    (fun o => probe_unexpected .fail fuel goal o) rounds o) grows).mono (fun s holds => holds)
      (fun a s done => done.1) fun e s failed => failed

theorem essentialityWitness_triple (stable : Stable P) (goal : Nat) (pair : PrimitiveConstraint) :
    Triple P (essentialityWitness x.recorded rounds fuel goal pair) (fun _ s => P s) fun _ s => P s := by
  apply between_triple stable _ fun e s holds => holds
  exact (getTrace_other (pushed_stable P _ _ _) _ _ _ (by decide)).mono (fun s holds => holds)
    (fun a s done => done) fun e s failed => failed.1

/-- The constraints are enough: of the executions so far, those that replay the trace to clock 0
only have failed often enough. -/
def Enough (x : Executor τ O) (rounds : Nat) (trace : τ) (made : List (Execution τ)) : Prop :=
  0 < x.lastClk trace → ∃ failed : List (Execution τ), failed.Sublist made ∧
    rounds + 1 ≤ failed.length ∧ ∀ e ∈ failed, e.input = trace ∧ e.goal = 0 ∧ e.outcome = some .fail

theorem length_le_count {α : Type} [BEq α] [LawfulBEq α] {a : α} (lists : List (List α))
    (all : ∀ l ∈ lists, a ∈ l) : lists.length ≤ lists.flatten.count a := by
  induction lists with
  | nil => simp
  | cons l lists ih =>
      have first : 0 < l.count a := List.count_pos_iff.mpr (all l List.mem_cons_self)
      have rest := ih fun l' hl' => all l' (List.mem_cons_of_mem l hl')
      rw [List.flatten_cons, List.count_append, List.length_cons]
      omega

theorem enough_of_witnessed {trace : τ} {min : Nat} {log : List (Nat × Executed)}
    {o o' : Recorded τ O} (runs : Runs (executes x.recorded trace) o log o')
    (witnessed : Witnessed ⟨min, x.lastClk trace, rounds⟩ .fail log 0) :
    Enough x rounds trace o'.2 := by
  intro long
  obtain ⟨new, split, entries, inputs⟩ := recorded_of_runs runs
  obtain ⟨earlier, found, confirmed, parts, count, here, -, all⟩ := witnessed.inside long
  have first : 0 < found.count (0, true) := List.count_pos_iff.mpr here
  have rest := length_le_count (a := (0, true)) confirmed fun l hl => (all l hl).1
  have enough : rounds + 1 ≤ (answers .fail log).count (0, true) := by
    rw [parts, List.count_append, List.count_append]
    rw [count] at rest
    dsimp only at rest
    omega
  rw [← entries, answers_failed] at enough
  refine ⟨_, ?_, enough, ?_⟩
  · rw [split]
    exact List.filter_sublist.trans (List.sublist_append_right _ _)
  · intro e member
    obtain ⟨member, failed⟩ := List.mem_filter.mp member
    have failed : e.goal = 0 ∧ e.outcome = some .fail := by simpa using failed
    exact ⟨inputs e member, failed⟩

theorem fastLoop_grows {trace : τ} {args : InflexArgs} {wanted : Outcome} {patience : Nat}
    (o : Recorded τ O) (ip : Nat) (o' : Recorded τ O)
    (searched : fastLoop (executes x.recorded trace) args wanted patience fuel args.min 0 0 o =
      .ok (ip, o')) : o.2 <+: o'.2 := by
  obtain ⟨log, runs, -⟩ := fastLoop_runs searched
  exact recorded_grows runs

theorem fail_stable (stable : Stable P) (s₀ : RecState τ O) :
    Stable fun s => P s ∧ s.files .fail = s₀.files .fail := by
  intro s s' frame holds
  exact ⟨stable s s' frame holds.1, frame.fail.trans holds.2⟩

theorem findInflex_triple (stable : Stable P) (min : Nat) :
    Triple P (findInflex x.recorded rounds fuel min)
      (fun found s => P s ∧ (∀ ip event, found = some (ip, event) → event.clk = ip ∧ min ≤ ip + 1) ∧
        (found = none → Enough x rounds (s.files .fail) s.oracle.2))
      fun e s => P s ∧ Final e := by
  have got : Triple P (get : Rec τ (Recorded τ O) (RecState τ O)) (fun s₀ s => P s ∧ s.files .fail = s₀.files .fail)
      fun e s => P s ∧ Final e := Triple.get fun s holds => ⟨holds, rfl⟩
  refine got.bind fun s₀ => ?_
  have stable₀ := fail_stable stable s₀
  refine Triple.bind (((searching_triple stable₀ (fun o =>
    fastLoop_unexpected _ .fail fuel fuel _ _ _ o) fastLoop_grows).mono (fun s holds => holds)
      (fun a s done => done) fun e s failed => ⟨failed.1.1, failed.2⟩)) fun ip => ?_
  split
  · rename_i zero
    apply Triple.pure
    rintro s ⟨⟨holds, same⟩, o, searched⟩
    obtain ⟨log, runs, witnessed⟩ := fastLoop_found searched
    refine ⟨holds, by simp, fun _ => ?_⟩
    rw [zero] at witnessed
    rw [same]
    exact enough_of_witnessed runs witnessed
  · by_cases above : min ≤ ip
    · refine Triple.bind ((eventAtClock_triple stable₀ .fail ip).mono (fun s done => done.1)
        (fun a s done => done) fun e s failed => ⟨failed.1.1, failed.2⟩) fun found => ?_
      obtain ⟨event, ipFixed⟩ := found
      apply Triple.pure
      rintro s ⟨⟨holds, same⟩, clk, _, near⟩
      refine ⟨holds, ?_, by simp⟩
      intro ip' event' same'
      cases same'
      exact ⟨clk, by dsimp only at near; omega⟩
    · rintro s ⟨_, o, searched⟩
      obtain ⟨log, runs, witnessed⟩ := fastLoop_found searched
      exact absurd witnessed.above above

theorem findInverseInflex_triple (stable : Stable P) (min : Nat) :
    Triple P (findInverseInflex x.recorded rounds fuel min)
      (fun found s => P s ∧ found.2.clk = found.1 ∧ min ≤ found.1 + 1)
      fun e s => P s ∧ Final e := by
  refine (get_triple P).bind fun s₀ => ?_
  refine Triple.bind (searching_triple stable (fun o =>
    fastLoop_unexpected _ .success fuel fuel _ _ _ o) fastLoop_grows) fun iip => ?_
  by_cases above : min ≤ iip
  · refine Triple.bind ((eventAtClock_triple stable .success iip).mono (fun s done => done.1)
      (fun a s done => done) fun e s failed => failed) fun found => ?_
    obtain ⟨event, iipFixed⟩ := found
    apply Triple.pure
    rintro s ⟨holds, clk, _, near⟩
    exact ⟨holds, clk, by dsimp only at near ⊢; omega⟩
  · rintro s ⟨_, o, searched⟩
    obtain ⟨log, runs, witnessed⟩ := fastLoop_found searched
    exact absurd witnessed.above above

end Pairs

section Analysis

variable {τ O : Type} {x : Executor τ O} {rounds fuel : Nat} {input : τ}

def Inv (input : τ) (s : RecState τ O) : Prop :=
  Kept s ∧ (s.files .fail = input ∨ Produced .fail (s.files .fail) s.oracle.2)

theorem inv_stable : Stable (Inv (O := O) input) := by
  rintro s s' frame ⟨kept, fails⟩
  refine ⟨kept_stable s s' frame kept, ?_⟩
  rw [frame.fail]
  exact fails.imp_right fun produced => produced.later frame.recorded

structure Orders (pair : PrimitiveConstraint) : Prop where
  tasks : pair.source.t.id ≠ pair.target.t.id
  source : pair.source.clk = pair.clk + 1
  target : pair.clk ≤ pair.target.clk

theorem push_kept {s : RecState τ O} (kept : Kept s) {pair : PrimitiveConstraint}
    (orders : Orders pair) (virt : Bool) : Kept (s.push pair virt virt) := by
  obtain ⟨mirror, ids, fresh, kinds, tasks, clocks⟩ := kept
  constructor
  · simp [RecInflex.push, mirror]
  · simp only [RecInflex.push, List.map_append, List.map_cons, List.map_nil]
    refine List.pairwise_append.mpr ⟨ids, List.pairwise_singleton _ _, ?_⟩
    intro id known new is_new
    obtain ⟨c, hc, rfl⟩ := List.mem_map.mp known
    rw [List.mem_singleton.mp is_new]
    exact fresh c hc
  · intro c hc
    rcases List.mem_append.mp hc with known | new
    · exact Nat.lt_succ_of_lt (fresh c known)
    · cases List.mem_singleton.mp new
      exact Nat.lt_succ_self _
  · intro c hc
    rcases List.mem_append.mp hc with known | new
    · exact kinds c known
    · cases List.mem_singleton.mp new
      rfl
  · intro c hc
    rcases List.mem_append.mp hc with known | new
    · exact tasks c known
    · cases List.mem_singleton.mp new
      exact orders.tasks
  · intro c hc
    rcases List.mem_append.mp hc with known | new
    · exact clocks c known
    · cases List.mem_singleton.mp new
      exact ⟨orders.source, orders.target⟩

theorem push_inv {s : RecState τ O} (inv : Inv input s) {pair : PrimitiveConstraint}
    (orders : Orders pair) (virt : Bool) : Inv input (s.push pair virt virt) :=
  ⟨push_kept inv.1 orders virt, inv.2⟩

theorem essentialityCheck_triple {ip iip goal : Nat} {pair : PrimitiveConstraint}
    (start : ip = goal + 1) (source : pair.source.clk = goal + 1) (n : Nat) :
    Triple (Inv input) (essentialityCheck x.recorded rounds fuel ip iip goal pair n)
      (fun _ s => Inv input s) fun e s => Inv input s ∧ Final e := by
  induction n with
  | zero =>
      refine Triple.throw fun s inv => ⟨inv, ?_⟩
      intro valid invalid same
      cases same
  | succ n ih =>
      have observed : Triple (Inv input) (observe (essentialityWitness x.recorded rounds fuel goal pair))
          (fun _ s => Inv input s) fun e s => Inv input s ∧ Final e :=
        Triple.observe (essentialityWitness_triple inv_stable goal pair)
      refine observed.bind fun witness => ?_
      split
      · exact Triple.pure fun s inv => inv
      · rename_i e other
        refine Triple.throw fun s inv => ⟨inv, ?_⟩
        intro valid invalid same
        cases same
        exact other valid invalid rfl
      · refine Triple.bind (eventAtClock_triple inv_stable .failAlt ip) fun found => ?_
        obtain ⟨altEvent, clk⟩ := found
        dsimp only
        split
        · exact Triple.throw fun s holds => ⟨holds.1, panicked_final⟩
        · rename_i tasks
          have pushes : Triple
              (fun s => Inv input s ∧ altEvent.clk = clk ∧ clk ≤ ip ∧ ip ≤ clk + 1)
              (alter (RecInflex.push ⟨pair.source, altEvent, goal⟩ true true) : Rec τ (Recorded τ O) Unit)
              (fun _ s => Inv input s) fun e s => Inv input s ∧ Final e := by
            refine Triple.alter fun s holds => push_inv holds.1 ⟨tasks, source, ?_⟩ true
            have near := holds.2
            dsimp only
            omega
          exact pushes.bind fun _ => ih

theorem nextFailure_triple (iip : Nat) :
    Triple (Inv input) (nextFailure x.recorded rounds fuel iip) (fun _ s => Inv input s)
      fun e s => Kept s ∧ Final e := by
  refine Triple.bind ((before_triple iip).mono (fun s inv => inv) (fun goal s done => done)
    fun e s failed => ⟨failed.1.1, failed.2⟩) fun goal => ?_
  exact (getTrace_produced _ _ _ _).mono (fun s holds => holds.1.1)
    (fun u s done => ⟨done.1, .inr done.2⟩) fun e s failed => ⟨failed.1, failed.2 rfl⟩

theorem pairCorrect_triple (goal : Nat) (pair : PrimitiveConstraint)
    (symmSet : List PrimitiveConstraint) :
    Triple (Inv input) (pairCorrect x.recorded rounds fuel goal pair symmSet)
      (fun correct s => Inv input s ∧ (correct = true → pair.source.t.id ≠ pair.target.t.id))
      fun e s => Kept s ∧ Final e := by
  rw [pairCorrect]
  split
  · exact Triple.pure fun s inv => ⟨inv, by simp⟩
  · rename_i tasks
    split
    · exact Triple.pure fun s inv => ⟨inv, fun _ => tasks⟩
    · exact (siblingCheck_triple inv_stable goal _).mono (fun s inv => inv)
        (fun b s inv => ⟨inv, fun _ => tasks⟩) fun e s failed => ⟨failed.1.1, failed.2⟩

def Found (x : Executor τ O) (rounds : Nat) (pair : Option PrimitiveConstraint) (s : RecState τ O) :
    Prop :=
  match pair with
  | none => Enough x rounds (s.files .fail) s.oracle.2
  | some pair => Orders pair

theorem inflexPair_triple (n : Nat) : ∀ inflexMin symmSet,
    Triple (Inv input) (inflexPair x.recorded rounds fuel n inflexMin symmSet)
      (fun pair s => Inv input s ∧ Found x rounds pair s) fun e s => Kept s ∧ Final e := by
  induction n with
  | zero =>
      intro inflexMin symmSet
      refine Triple.throw fun s inv => ⟨inv.1, ?_⟩
      intro valid invalid same
      cases same
  | succ n ih =>
      intro inflexMin symmSet
      refine Triple.bind ((findInflex_triple inv_stable inflexMin).mono (fun s inv => inv)
        (fun found s done => done) fun e s failed => ⟨failed.1.1, failed.2⟩) fun found => ?_
      cases found with
      | none => exact Triple.pure fun s done => ⟨done.1, done.2.2 rfl⟩
      | some found =>
          obtain ⟨ip, source⟩ := found
          by_cases known : source.clk = ip
          · refine Triple.bind ((before_triple ip).mono (fun s done => done.1)
              (fun goal s done => done) fun e s failed => ⟨failed.1.1, failed.2⟩) fun goal => ?_
            by_cases start : ip = goal + 1
            · refine Triple.bind ((getTrace_other inv_stable _ _ _ (by decide)).mono
                (fun s holds => holds.1) (fun u s done => done)
                fun e s failed => ⟨failed.1.1, failed.2 rfl⟩) fun _ => ?_
              refine Triple.bind ((findInverseInflex_triple inv_stable ip).mono
                (fun s inv => inv) (fun found s done => done)
                fun e s failed => ⟨failed.1.1, failed.2⟩) fun target => ?_
              obtain ⟨iip, target⟩ := target
              dsimp only
              by_cases placed : target.clk = iip ∧ ip ≤ iip + 1
              · refine Triple.bind ((pairCorrect_triple goal ⟨source, target, goal⟩ symmSet).mono
                  (fun s holds => holds.1) (fun correct s done => done)
                  fun e s failed => failed) fun correct => ?_
                have again : ∀ symm, Triple (fun s => Inv input s)
                    (do nextFailure x.recorded rounds fuel iip; inflexPair x.recorded rounds fuel n iip symm)
                    (fun pair s => Inv input s ∧ Found x rounds pair s)
                    fun e s => Kept s ∧ Final e :=
                  fun symm => (nextFailure_triple iip).bind fun _ => ih iip symm
                split
                · rename_i right
                  by_cases tasks : source.t.id = target.t.id
                  · intro s holds
                    exact absurd tasks (holds.2 right)
                  · refine Triple.bind ((essentialityCheck_triple start (known.trans start) fuel).mono
                      (fun s holds => holds.1) (fun verdict s inv => inv)
                      fun e s failed => ⟨failed.1.1, failed.2⟩) fun verdict => ?_
                    cases verdict with
                    | essential =>
                        refine Triple.pure fun s inv => ⟨inv, tasks, known.trans start, ?_⟩
                        dsimp only
                        omega
                    | restart => exact again symmSet
                · exact (again _).mono
                    (fun s (holds : Inv input s ∧ _) => holds.1) (fun pair s done => done)
                    fun e s failed => failed
              · intro s holds
                exact absurd holds.2 placed
            · intro s holds
              exact absurd holds.2 start
          · intro s holds
            exact absurd (holds.2.1 ip source rfl).1 known

theorem resetInput_triple (goal : Nat) :
    Triple (Inv input) (resetInput x.recorded rounds fuel goal) (fun _ s => Inv input s)
      fun _ s => Kept s := by
  refine (get_triple (Inv input)).bind fun s₀ => ?_
  split
  · exact Triple.throw fun s inv => inv.1
  · rename_i tid last
    refine Triple.bind ((getTrace_produced _ (fun ran => ran.id == tid) .fail .temp).mono
      (fun s (inv : Inv input s) => inv.1) (fun u s done => done) fun e s failed => failed.1)
      fun _ => ?_
    refine Triple.alter fun s done => ⟨?_, .inr (by simpa [RecInflex.setFile] using done.2)⟩
    obtain ⟨mirror, ids, fresh, kinds, tasks, clocks⟩ := done.1
    exact ⟨mirror, ids, fresh, kinds, tasks, clocks⟩

def Iterated (x : Executor τ O) (rounds : Nat) (input : τ)
    (result : Except RecError (Option PrimitiveConstraint)) (s : RecState τ O) : Prop :=
  match result with
  | .ok pair => Inv input s ∧ Found x rounds pair s
  | .error e => Kept s ∧ Final e

theorem findNextPair_triple {fail : RecError → RecState τ O → Prop} :
    Triple (Inv input) (observe (findNextPair x.recorded rounds fuel)) (Iterated x rounds input) fail :=
  Triple.observe (inflexPair_triple fuel 0 [])

structure Ended (x : Executor τ O) (rounds : Nat) (input : τ) (ending : Ending) (s : RecState τ O) :
    Prop where
  kept : Kept s
  found : ending ≠ .notFound
  sufficient : ending = .sufficient →
    (s.files .fail = input ∨ Produced .fail (s.files .fail) s.oracle.2) ∧
      Enough x rounds (s.files .fail) s.oracle.2

theorem mainLoop_triple (n : Nat) :
    Triple (Inv input) (mainLoop x.recorded rounds fuel n) (Ended x rounds input) fun _ s => Kept s := by
  induction n with
  | zero => exact Triple.throw fun s inv => inv.1
  | succ n ih =>
      refine findNextPair_triple.bind fun result => ?_
      split
      · exact Triple.throw fun s done => done.1
      · exact Triple.throw fun s done => done.1
      · rename_i valid invalid
        exact fun s done => absurd rfl (done.2 valid invalid)
      · exact Triple.pure fun s done => ⟨done.1, by simp, by simp⟩
      · exact Triple.pure fun s done => ⟨done.1.1, by simp, fun _ => ⟨done.1.2, done.2⟩⟩
      · rename_i pair
        have pushes : Triple (Iterated x rounds input (.ok (some pair)))
            (alter (RecInflex.push pair false false) : Rec τ (Recorded τ O) Unit) (fun _ s => Inv input s)
            fun _ s => Kept s :=
          Triple.alter fun s done => push_inv done.1 done.2 false
        exact pushes.bind fun _ => (resetInput_triple pair.clk).bind fun _ => ih

/-- In whatever way the recursive search ends, the constraints it prints are ordered pairs of
events of different tasks with names of their own, all given to the order enforcer and none of them
negated. It never ends for want of an execution, and it ends with enough constraints only after
the program has failed from the start in every round. -/
theorem recursive_search_sound (x : Executor τ O) (rounds fuel n : Nat) (input absent : τ) (o : O) :
    match mainLoop x.recorded rounds fuel n (RecInflex.start input absent (o, [])) with
    | (.ok ending, s) => Ended x rounds input ending s
    | (.error _, s) => Kept s := by
  have begins : Inv input (RecInflex.start input absent (o, [])) := by
    refine ⟨⟨rfl, ?_, ?_, ?_, ?_, ?_⟩, .inl rfl⟩ <;> simp [RecInflex.start]
  have ended : Triple (Inv input) (mainLoop x.recorded rounds fuel n) (Ended x rounds input)
      fun _ s => Kept s := mainLoop_triple n
  have outcome := ended _ begins
  cases ran : mainLoop x.recorded rounds fuel n (RecInflex.start input absent (o, [])) with
  | mk result s =>
      rw [ran] at outcome
      cases result <;> exact outcome

end Analysis

end Lotto.Rinflex.Recursive
