import Lotto.EventHandler
import Lotto.FastInflex
import Lotto.Library.Outcomes

namespace Lotto.Rinflex.Recursive

open Library.Outcomes

section Constraints

structure PrimitiveConstraint where
  source : Event
  target : Event
  clk : Nat
  deriving DecidableEq, Repr

def PrimitiveConstraint.flipped (c : PrimitiveConstraint) : PrimitiveConstraint :=
  { c with source := c.target, target := c.source }

def PrimitiveConstraint.equals (c other : PrimitiveConstraint) : Bool :=
  c.source.equals other.source && c.target.equals other.target

structure Constraint where
  c : PrimitiveConstraint
  virt : Bool
  positive : Bool
  id : Nat
  deriving DecidableEq, Repr

end Constraints

section State

inductive EventError where
  | clockNotFound | eventNotFound
  deriving DecidableEq, Repr

inductive RecError where
  | search (e : SearchError)
  | event (e : EventError)
  | panicked
  deriving DecidableEq, Repr

/-- What the analysis asks of the program and its traces: an execution that replays a trace up to
a clock and leaves a trace, the last clock and task of a trace, the trace with constraints attached
at a clock, and the event of a trace at a clock. -/
structure Executor (τ O : Type) where
  exec : τ → Nat → O → Executed × τ × O
  lastClk : τ → Nat
  lastTid : τ → Option TaskId
  attach : τ → Nat → List Constraint → τ
  eventAt : τ → Nat → O → Except EventError (Event × O)

inductive File where
  | fail | failAlt | success | temp
  deriving DecidableEq, Repr

/-- `RecInflex`, with the constraints in the configuration of the order enforcer and the oracle of
the executions. -/
structure RecInflex (τ O : Type) where
  files : File → τ
  constraints : List Constraint
  cfgConstraints : List Constraint
  nextId : Nat
  oracle : O

variable {τ O : Type}

def RecInflex.setFile (s : RecInflex τ O) (file : File) (trace : τ) : RecInflex τ O :=
  { s with files := fun other => if other = file then trace else s.files other }

/-- `push_real_constraint` and `push_virtual_constraint`. -/
def RecInflex.push (c : PrimitiveConstraint) (virt positive : Bool) (s : RecInflex τ O) :
    RecInflex τ O :=
  { s with
    constraints := s.constraints ++ [⟨c, virt, positive, s.nextId⟩]
    cfgConstraints := s.cfgConstraints ++ [⟨c, virt, positive, s.nextId⟩]
    nextId := s.nextId + 1 }

/-- `pop_constraint`. -/
def RecInflex.pop (s : RecInflex τ O) : RecInflex τ O :=
  { s with constraints := s.constraints.dropLast, cfgConstraints := s.cfgConstraints.dropLast }

abbrev Rec (τ O α : Type) := Comp RecError (RecInflex τ O) α

end State

section Steps

variable {τ O : Type} (x : Executor τ O) (rounds fuel : Nat)

def executes (trace : τ) (clk : Nat) (o : O) : Executed × O :=
  ((x.exec trace clk o).1, (x.exec trace clk o).2.2)

def searching {α : Type} (search : O → Except SearchError (α × O)) : Rec τ O α := fun s =>
  match search s.oracle with
  | .ok (a, oracle) => (.ok a, { s with oracle })
  | .error e => (.error (.search e), s)

def before (clk : Nat) : Rec τ O Nat :=
  if clk = 0 then throw .panicked else pure (clk - 1)

/-- `attach_constraints_to_trace`; the constraints of the configuration are what is attached. -/
def attached (s : RecInflex τ O) (input : τ) (goal : Nat) : τ :=
  if s.constraints = [] then input else x.attach input goal s.cfgConstraints

/-- The loop of `get_trace`, with the ticks of its progress bar and its output file. -/
def getTraceLoop (request : TraceRequest) (filter : Executed → Bool) (input : τ) :
    Nat → Nat → Nat → τ → O → Except RecError Unit × τ × O
  | 0, _, _, out, o => (.error (.search .fuel), out, o)
  | n + 1, valid, invalid, out, o =>
      let validRounds := if request.tryHard then rounds * 10 else rounds
      if !request.unlimited && (decide (validRounds < valid) ||
          valid == 0 && decide (rounds * 10 < invalid)) then
        (.error (.search (.executionNotFound valid invalid)), out, o)
      else
        let (ran, out, o) := x.exec input request.replayGoal o
        match postexec (some filter) ran with
        | .error e => (.error (.search e), out, o)
        | .ok none => getTraceLoop request filter input n valid (invalid + 1) out o
        | .ok (some outcome) =>
            if outcome = request.expected then (.ok (), out, o)
            else getTraceLoop request filter input n (valid + 1) invalid out o

def getTrace (request : TraceRequest) (filter : Executed → Bool) (input output : File) :
    Rec τ O Unit := fun s =>
  let (result, out, oracle) := getTraceLoop x rounds request filter
    (attached x s (s.files input) request.replayGoal) fuel 0 0 (s.files output) s.oracle
  (result, { s.setFile output out with oracle })

def getEventAtClk (trace : τ) (clk : Nat) : Rec τ O Event := fun s =>
  match x.eventAt trace clk s.oracle with
  | .ok (event, oracle) => (.ok { event with clk }, { s with oracle })
  | .error e => (.error (.event e), s)

def eventAtClock (file : File) (clock : Nat) : Rec τ O (Event × Nat) := do
  let s ← get
  let event ← getEventAtClk x (s.files file) clock
  if event.t.after then
    let earlier ← before clock
    let beforeEvent ← getEventAtClk x (s.files file) earlier
    if beforeEvent.t.after then pure (event, clock) else pure (beforeEvent, earlier)
  else pure (event, clock)

def findInflex (min : Nat) : Rec τ O (Option (Nat × Event)) := do
  let s ← get
  let args := ⟨min, x.lastClk (s.files .fail), rounds⟩
  let ip ← searching (runFast (executes x (s.files .fail)) args fuel fuel)
  if ip = 0 then pure none
  else do
    let (event, ipFixed) ← eventAtClock x .fail ip
    pure (some (ipFixed, event))

def findInverseInflex (min : Nat) : Rec τ O (Nat × Event) := do
  let s ← get
  let args := ⟨min, x.lastClk (s.files .success), rounds⟩
  let iip ← searching (runInverseFast (executes x (s.files .success)) args fuel fuel)
  let (event, iipFixed) ← eventAtClock x .success iip
  pure (iipFixed, event)

def checkTrace (goal : Nat) : Rec τ O τ := do
  let s ← get
  pure (attached x s (s.files .fail) goal)

def siblingCheck (goal : Nat) (pair : PrimitiveConstraint) : Rec τ O Bool := do
  let check ← between (RecInflex.push pair true true) RecInflex.pop (checkTrace x goal)
  searching (always (probe (executes x check) .fail fuel goal) rounds)

def essentialityWitness (goal : Nat) (pair : PrimitiveConstraint) : Rec τ O Unit :=
  between (RecInflex.push pair.flipped true false) RecInflex.pop
    (getTrace x rounds fuel ⟨.fail, goal, false, false⟩ (fun _ => true) .fail .failAlt)

end Steps

section Analysis

variable {τ O : Type} (x : Executor τ O) (rounds fuel : Nat)

inductive Verdict where
  | essential | restart
  deriving DecidableEq, Repr

def essentialityCheck (ip iip goal : Nat) (pair : PrimitiveConstraint) : Nat → Rec τ O Verdict
  | 0 => throw (.search .fuel)
  | n + 1 => do
      let witness ← observe (essentialityWitness x rounds fuel goal pair)
      match witness with
      | .error (.search (.executionNotFound valid _)) =>
          pure (if valid = 0 ∧ ip ≠ iip then .restart else .essential)
      | .error e => throw e
      | .ok () => do
          let (altEvent, _) ← eventAtClock x .failAlt ip
          if pair.source.t.id = altEvent.t.id then throw .panicked
          else do
            alter (RecInflex.push ⟨pair.source, altEvent, goal⟩ true true)
            essentialityCheck ip iip goal pair n

def nextFailure (iip : Nat) : Rec τ O Unit := do
  let goal ← before iip
  getTrace x rounds fuel ⟨.fail, goal, true, true⟩ (fun _ => true) .success .fail

def pairCorrect (goal : Nat) (pair : PrimitiveConstraint) (symmSet : List PrimitiveConstraint) :
    Rec τ O Bool :=
  if pair.source.t.id = pair.target.t.id then pure false
  else if symmSet.any (·.equals pair) then pure true
  else siblingCheck x rounds fuel goal pair

def inflexPair : Nat → Nat → List PrimitiveConstraint → Rec τ O (Option PrimitiveConstraint)
  | 0, _, _ => throw (.search .fuel)
  | n + 1, inflexMin, symmSet => do
      let found ← findInflex x rounds fuel inflexMin
      match found with
      | none => pure none
      | some (ip, source) => do
          let goal ← before ip
          getTrace x rounds fuel ⟨.success, goal, true, true⟩ (fun _ => true) .fail .success
          let (iip, target) ← findInverseInflex x rounds fuel ip
          let pair := ⟨source, target, goal⟩
          let correct ← pairCorrect x rounds fuel goal pair symmSet
          if correct then do
            let verdict ← essentialityCheck x rounds fuel ip iip goal pair fuel
            match verdict with
            | .essential => pure (some pair)
            | .restart => do
                nextFailure x rounds fuel iip
                inflexPair n iip symmSet
          else do
            nextFailure x rounds fuel iip
            inflexPair n iip (symmSet ++ [pair])

def findNextPair : Rec τ O (Option PrimitiveConstraint) := inflexPair x rounds fuel fuel 0 []

def resetInput (goal : Nat) : Rec τ O Unit := do
  let s ← get
  match x.lastTid (s.files .fail) with
  | none => throw .panicked
  | some tid => do
      getTrace x rounds fuel ⟨.fail, goal, true, true⟩ (fun ran => ran.id == tid) .fail .temp
      alter fun s => s.setFile .fail (s.files .temp)

inductive Ending where
  | sufficient | notFound
  | unhandled (e : RecError)
  deriving DecidableEq, Repr

def mainLoop : Nat → Rec τ O Ending
  | 0 => throw (.search .fuel)
  | n + 1 => do
      let next ← observe (findNextPair x rounds fuel)
      match next with
      | .error .panicked => throw .panicked
      | .error (.search .fuel) => throw (.search .fuel)
      | .error (.search (.executionNotFound _ _)) => pure .notFound
      | .error e => pure (.unhandled e)
      | .ok none => pure .sufficient
      | .ok (some pair) => do
          alter (RecInflex.push pair false false)
          resetInput x rounds fuel pair.clk
          mainLoop n

/-- `RecInflex::new_with_flags`, without constraints; the other files are not there yet. -/
def RecInflex.start (input absent : τ) (oracle : O) : RecInflex τ O :=
  { files := fun file => if file = .fail then input else absent
    constraints := [], cfgConstraints := [], nextId := 0, oracle }

end Analysis

end Lotto.Rinflex.Recursive
