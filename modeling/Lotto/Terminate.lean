import Mathlib.Algebra.Group.Nat.Defs
import Lotto.Sequencer

namespace Lotto.Terminate

section Handler

inductive TerminateMode where
  | none | clk | chpt | preempt | replay | time
  deriving DecidableEq, Repr

inductive TerminateEvent where
  | success | failure | abandon
  deriving DecidableEq, Repr

structure TerminateConfig where
  mode : TerminateMode
  limit : UInt64
  kinds : TypeId → Option TerminateEvent

structure TerminateState where
  curChpt : UInt64
  curPreempt : UInt64
  last : TaskId
  deriving DecidableEq, Repr

def terminateStart : TerminateState := ⟨0, 0, 0⟩

def countCapture (e : Decision) (st : TerminateState) : TerminateState :=
  { st with
    curChpt := if e.isChpt then st.curChpt + 1 else st.curChpt
    curPreempt := if e.next ≠ st.last ∧ st.last > 0 then st.curPreempt + 1 else st.curPreempt }

def passed (config : TerminateConfig) (now : UInt64) (e : Decision) (st : TerminateState) : Bool :=
  match config.mode with
  | .none => false
  | .clk => decide (e.clk > config.limit.toNat)
  | .chpt => decide (st.curChpt > config.limit)
  | .preempt => decide (st.curPreempt > config.limit)
  | .replay => !e.replay
  | .time => decide (now > config.limit)

def terminationHandle (config : TerminateConfig) (now : UInt64) (cp : CapturePoint) (e : Decision)
    (st : TerminateState) : Decision × TerminateState :=
  match config.kinds cp.typeId with
  | some .success | some .abandon => ({ e with reason := .success }, st)
  | some .failure => ({ e with reason := .assertFail }, st)
  | none =>
      if e.reason.isShutdown then (e, st)
      else
        let st := countCapture e st
        (if passed config now e st then { e with reason := .shutdown } else e, st)

structure TerminateInput where
  now : UInt64
  cp : CapturePoint
  e : Decision
  deriving DecidableEq, Repr

def terminationRun (config : TerminateConfig) : List TerminateInput → TerminateState → List Decision
  | [], _ => []
  | input :: inputs, st =>
      let (e, st) := terminationHandle config input.now input.cp input.e st
      e :: terminationRun config inputs st

end Handler

variable {config : TerminateConfig} {inputs past : List TerminateInput} {input : TerminateInput}

def TerminateEvent.reason : TerminateEvent → Reason
  | .success | .abandon => .success
  | .failure => .assertFail

def changePoint (config : TerminateConfig) (input : TerminateInput) : Bool :=
  config.kinds input.cp.typeId == none && !input.e.reason.isShutdown && input.e.isChpt

/-- The limit of the mode is passed at a capture with all the captures up to it. -/
def Passed (config : TerminateConfig) (upTo : List TerminateInput) (input : TerminateInput) : Prop :=
  match config.mode with
  | .none | .preempt => False
  | .clk => config.limit.toNat < input.e.clk
  | .chpt => config.limit.toNat < upTo.countP (changePoint config) % 2 ^ 64
  | .replay => input.e.replay = false
  | .time => config.limit < input.now

/-- What a capture of a run becomes. A termination event has its reason, whatever the limit; any
other decision becomes a shutdown exactly if the limit is passed and it is not one already. -/
structure Decided (config : TerminateConfig) (upTo : List TerminateInput) (input : TerminateInput)
    (e' : Decision) : Prop where
  frame : e' = { input.e with reason := e'.reason }
  event : ∀ kind, config.kinds input.cp.typeId = some kind → e'.reason = kind.reason
  shutdown : config.kinds input.cp.typeId = none → input.e.reason.isShutdown = false →
    (e'.reason = .shutdown ↔ Passed config upTo input)
  kept : config.kinds input.cp.typeId = none →
    input.e.reason.isShutdown = true ∨ ¬Passed config upTo input → e' = input.e

/-- The counters after some captures. No task is ever remembered, so that no preemption is counted. -/
def counters (config : TerminateConfig) (past : List TerminateInput) : TerminateState :=
  ⟨.ofNat (past.countP (changePoint config)), 0, 0⟩

theorem passed_iff (upTo : List TerminateInput) :
    passed config input.now input.e (counters config upTo) = true ↔ Passed config upTo input := by
  unfold passed Passed
  cases config.mode <;> simp [counters, UInt64.lt_iff_toNat_lt]

theorem countCapture_counters (goesOn : config.kinds input.cp.typeId = none)
    (running : input.e.reason.isShutdown = false) :
    countCapture input.e (counters config past) = counters config (past ++ [input]) := by
  have marked : changePoint config input = input.e.isChpt := by simp [changePoint, goesOn, running]
  unfold counters
  rw [List.countP_append, List.countP_singleton, marked]
  cases chpt : input.e.isChpt <;> simp [countCapture, chpt, UInt64.ofNat_add]

theorem counters_uncounted (uncounted : changePoint config input = false) :
    counters config (past ++ [input]) = counters config past := by
  simp [counters, List.countP_append, uncounted]

theorem terminationHandle_decided (config : TerminateConfig) (past : List TerminateInput)
    (input : TerminateInput) :
    Decided config (past ++ [input]) input
        (terminationHandle config input.now input.cp input.e (counters config past)).1 ∧
      (terminationHandle config input.now input.cp input.e (counters config past)).2 =
        counters config (past ++ [input]) := by
  cases kind : config.kinds input.cp.typeId with
  | some event =>
      have uncounted : changePoint config input = false := by simp [changePoint, kind]
      rw [counters_uncounted uncounted]
      constructor
      · cases event <;> constructor <;> simp [terminationHandle, kind, TerminateEvent.reason]
      · cases event <;> simp [terminationHandle, kind]
  | none =>
      cases ended : input.e.reason.isShutdown with
      | true =>
          have uncounted : changePoint config input = false := by simp [changePoint, ended]
          rw [counters_uncounted uncounted, terminationHandle, kind]
          dsimp only
          rw [if_pos ended]
          exact ⟨⟨rfl, by simp [kind], by simp [ended], fun _ _ => rfl⟩, rfl⟩
      | false =>
          have running : input.e.reason ≠ .shutdown := by
            intro same
            rw [same] at ended
            cases ended
          rw [terminationHandle, kind]
          dsimp only
          rw [if_neg (by simp [ended]), countCapture_counters kind ended]
          refine ⟨?_, rfl⟩
          by_cases limit : Passed config (past ++ [input]) input
          · rw [if_pos ((passed_iff _).mpr limit)]
            exact ⟨rfl, by simp [kind], fun _ _ => ⟨fun _ => limit, fun _ => rfl⟩,
              fun _ other => by simp [ended, limit] at other⟩
          · rw [if_neg (fun reached => limit ((passed_iff _).mp reached))]
            exact ⟨rfl, by simp [kind],
              fun _ _ => ⟨fun same => absurd same running, fun reached => absurd reached limit⟩,
              fun _ _ => rfl⟩

theorem terminationRun_decided (config : TerminateConfig) (past inputs : List TerminateInput) :
    (terminationRun config inputs (counters config past)).length = inputs.length ∧
      ∀ k input, inputs[k]? = some input →
        ∃ e', (terminationRun config inputs (counters config past))[k]? = some e' ∧
          Decided config (past ++ inputs.take (k + 1)) input e' := by
  induction inputs generalizing past with
  | nil => exact ⟨rfl, by simp⟩
  | cons first inputs ih =>
      obtain ⟨decided, counted⟩ := terminationHandle_decided config past first
      obtain ⟨length, rest⟩ := ih (past ++ [first])
      rw [← counted] at length rest
      refine ⟨congrArg (· + 1) length, ?_⟩
      intro k input here
      cases k with
      | zero =>
          cases here
          exact ⟨_, rfl, decided⟩
      | succ k =>
          obtain ⟨e', found, decided'⟩ := rest k input here
          exact ⟨e', found, by simpa using decided'⟩

theorem passed_later (mode : config.mode = .chpt) (short : inputs.length < 2 ^ 64) {j k : Nat}
    (before : j ≤ k) (first later : TerminateInput)
    (reached : Passed config (inputs.take (j + 1)) first) :
    Passed config (inputs.take (k + 1)) later := by
  have fewer : (inputs.take (j + 1)).countP (changePoint config) ≤
      (inputs.take (k + 1)).countP (changePoint config) :=
    (List.take_sublist_take_left (by omega)).countP_le
  have bound : (inputs.take (k + 1)).countP (changePoint config) < 2 ^ 64 := by
    have counted := List.countP_le_length (p := changePoint config) (l := inputs.take (k + 1))
    rw [List.length_take] at counted
    omega
  unfold Passed at *
  rw [mode] at reached ⊢
  dsimp only at reached ⊢
  omega

/-- A termination event sets its reason, and any other decision becomes a shutdown exactly where the
limit of the mode is passed. The limit on preemptions is never reached, and the one on change points
stays passed. -/
theorem termination_exact (config : TerminateConfig) (inputs : List TerminateInput) :
    (terminationRun config inputs terminateStart).length = inputs.length ∧
      (∀ k input, inputs[k]? = some input → ∃ e', (terminationRun config inputs terminateStart)[k]? =
        some e' ∧ Decided config (inputs.take (k + 1)) input e') ∧
      (config.mode = .chpt → inputs.length < 2 ^ 64 → ∀ j k, j ≤ k → ∀ first later,
        Passed config (inputs.take (j + 1)) first → Passed config (inputs.take (k + 1)) later) := by
  obtain ⟨length, decided⟩ := terminationRun_decided config [] inputs
  exact ⟨length, decided, fun mode short j k before first later =>
    passed_later mode short before first later⟩

end Lotto.Terminate
