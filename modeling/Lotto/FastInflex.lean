import Lotto.Base

namespace Lotto

/-- `REASON_RUNTIME`. -/
def Reason.isRuntime : Reason → Bool
  | .runtimeSegfault | .runtimeSigint | .runtimeSigabrt | .runtimeSigterm | .runtimeSigkill
  | .runtimeSegvAccerr => true
  | _ => false

namespace Rinflex

inductive Outcome where
  | success | fail
  deriving DecidableEq, Repr

inductive SearchError where
  | lottoError | fuel
  | executionNotFound (valid invalid : Nat)
  deriving DecidableEq, Repr

/-- What an execution leaves: its exit code, the last record of its trace and what the order
enforcer wrote into the FINAL state. -/
structure Executed where
  exitcode : Int
  id : TaskId
  reason : Reason
  kind : Kind
  size : Nat
  constraints : Nat
  discards : Bool
  deriving DecidableEq, Repr

def Executed.shouldDiscard (r : Executed) : Bool :=
  r.kind == .recordExit && decide (0 < r.size) && (decide (0 < r.constraints) && r.discards)

def postexec (filter : Option (Executed → Bool)) (r : Executed) :
    Except SearchError (Option Outcome) :=
  if r.reason.isRuntime then .error .lottoError
  else if r.reason = .ignore then .ok none
  else if r.shouldDiscard then .ok none
  else if r.reason.isAbort then .ok (some .fail)
  else if !filter.all (fun passes => passes r) then .ok none
  else .ok (some (if r.exitcode = 0 then .success else .fail))

structure InflexArgs where
  min : Nat
  lastClk : Nat
  rounds : Nat
  deriving DecidableEq, Repr

variable {σ O : Type}

def binarySearch (pred : Nat → σ → Except SearchError (Bool × σ)) (l r : Nat) (s : σ) :
    Except SearchError (Nat × σ) :=
  if l < r then do
    let x := l + (r - l) / 2
    let (holds, s) ← pred x s
    if holds then binarySearch pred l x s else binarySearch pred (x + 1) r s
  else .ok (r, s)
termination_by r - l

def always (pred : σ → Except SearchError (Bool × σ)) : Nat → σ → Except SearchError (Bool × σ)
  | 0, s => .ok (true, s)
  | rounds + 1, s => do
      let (holds, s) ← pred s
      if holds then always pred rounds s else .ok (false, s)

section Searches

variable (exec : Nat → O → Executed × O)

/-- The loop that runs the program, replayed up to `clk`, until an execution is not discarded. -/
def validRun (clk : Nat) : Nat → O → Except SearchError (Outcome × O)
  | 0, _ => .error .fuel
  | fuel + 1, o => do
      let outcome ← postexec none (exec clk o).1
      match outcome with
      | some outcome => .ok (outcome, (exec clk o).2)
      | none => validRun clk fuel (exec clk o).2

/-- One probe of the fast searches: `wanted` is `is_fail` or `is_success`. -/
def probe (wanted : Outcome) (patience clk : Nat) (o : O) : Except SearchError (Bool × O) := do
  let (outcome, o) ← validRun exec clk patience o
  .ok (decide (outcome = wanted), o)

def fastLoop (args : InflexArgs) (wanted : Outcome) (patience : Nat) :
    Nat → Nat → Nat → Nat → O → Except SearchError (Nat × O)
  | 0, _, _, _, _ => .error .fuel
  | fuel + 1, ip, lastIp, confidence, o =>
      if confidence ≤ args.rounds ∧ ip < args.lastClk then do
        let (ip, o) ← binarySearch (probe exec wanted patience) ip args.lastClk o
        if ip = lastIp then fastLoop args wanted patience fuel ip lastIp (confidence + 1) o
        else fastLoop args wanted patience fuel ip ip 1 o
      else .ok (ip, o)

def runFast (args : InflexArgs) (patience fuel : Nat) (o : O) : Except SearchError (Nat × O) :=
  fastLoop exec args .fail patience fuel args.min 0 0 o

def runInverseFast (args : InflexArgs) (patience fuel : Nat) (o : O) :
    Except SearchError (Nat × O) :=
  fastLoop exec args .success patience fuel args.min 0 0 o

/-- The predicate of `run`: a number of executions have the outcome. -/
def forever (args : InflexArgs) (wanted : Outcome) (patience clk : Nat) (o : O) :
    Except SearchError (Bool × O) :=
  always (probe exec wanted patience clk) args.rounds o

def runSlow (args : InflexArgs) (patience : Nat) (o : O) : Except SearchError (Nat × O) :=
  binarySearch (forever exec args .fail patience) args.min args.lastClk o

structure TraceRequest where
  expected : Outcome
  replayGoal : Nat
  unlimited : Bool
  tryHard : Bool

end Searches

/-- An execution that is written down with the clock it was replayed to. -/
def logged (exec : Nat → O → Executed × O) (clk : Nat) (s : O × List (Nat × Executed)) :
    Executed × O × List (Nat × Executed) :=
  ((exec clk s.1).1, (exec clk s.1).2, s.2 ++ [(clk, (exec clk s.1).1)])

end Rinflex

end Lotto
