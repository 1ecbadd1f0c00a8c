import Lotto.Tidset

namespace Lotto.Explore

open Library.FaultRun

variable {P : Type}

/-- The records of a flat trace, the last one first: `trace_last` is its head and `trace_forget`
its tail. -/
abbrev Trace (P : Type) := List (Record P)

def ignoredTypes : List TypeId := [eventTaskCreate]

def typesHas (types : List TypeId) (type : TypeId) : Bool := types.contains type

/-- The records that the loop of `_get_last_record_smaller_or_equal_than_clock` forgets. -/
def skips (clock : Nat) (r : Record P) : Bool :=
  decide (clock < r.clk) || r.kind.bits &&& Kind.recordSched.bits == 0 || r.typeId == 0 ||
    typesHas ignoredTypes r.typeId

/-- `_get_last_record_smaller_or_equal_than_clock`: the record that it returns is the last one of
the trace that it leaves. -/
def getLastRecordSmallerOrEqualThanClock (clock : Nat) : Trace P → Trace P
  | [] => []
  | r :: t => if skips clock r then getLastRecordSmallerOrEqualThanClock clock t else r :: t

def dropScheduled (clk : Nat) : Trace P → Trace P
  | [] => []
  | r :: t =>
      if r.clk = clk ∧ r.kind.bits &&& (Kind.recordSched.bits ||| Kind.recordForce.bits) ≠ 0 then
        dropScheduled clk t
      else r :: t

/-- The record that `cli_trace_schedule_task` appends. `blank` is a payload of size zero. -/
def forced (blank : P) (clk : Nat) (task : TaskId) : Record P :=
  { id := task, clk, chainId := 0, typeId := 0, reason := .unknown, kind := .recordForce, pc := 0
    data := blank }

def cliTraceScheduleTask (blank : P) (task : TaskId) : Trace P → Except Fault (Trace P)
  | [] => .error .scheduleNoRecord
  | r :: t => .ok (forced blank r.clk task :: dropScheduled r.clk (r :: t))

/-- What `_explore_interval` depends on: `get_available_tasks` after the payload of a record is
unmarshalled, the empty payload, and `execute` with the index of the round and the trace to replay,
which returns the exit code and the trace that it records. -/
structure Driver (P : Type) where
  available : P → Tidset
  blank : P
  execute : Nat → Trace P → Int × Trace P

structure Search (P : Type) where
  err : Int
  isError : Bool
  input : Trace P
  round : Nat

/-- The loop over the other tasks that were available at a record. `explore` is the call on the
trace of a round. -/
def tryChoices (driver : Driver P) (expectFailure : Bool)
    (explore : Trace P → Nat → Except Fault (Int × Nat)) :
    List TaskId → Search P → Except Fault (Search P)
  | [], s => .ok s
  | task :: choices, s =>
      if (!expectFailure && s.err == 0) || (expectFailure && s.err != 0) then do
        let input ← cliTraceScheduleTask driver.blank task s.input
        let (err, output) := driver.execute s.round input
        let s := { err, isError := err != 0, input, round := s.round + 1 }
        if (expectFailure != s.isError) || (expectFailure && err == 130) then .ok s
        else do
          let (err, round) ← explore output s.round
          tryChoices driver expectFailure explore choices
            { s with err, isError := err != 0, round }
      else .ok s

/-- The loop over the records of the input, with their number as fuel. `explore` is told the clock
to start from. -/
def exploreLoop (driver : Driver P) (expectFailure : Bool)
    (explore : Nat → Trace P → Nat → Except Fault (Int × Nat)) (least most : Nat) :
    Nat → Search P → Except Fault (Search P)
  | 0, _ => .error .exploreFuel
  | fuel + 1, s =>
      match s.input with
      | [] => .ok s
      | current :: _ =>
          if expectFailure == s.isError ∧ least ≤ most ∧ least ≤ current.clk then do
            let replayChoices := driver.available current.data
            let s ←
              if replayChoices.size ≤ (replayChoices.has current.id).toNat then .ok s
              else
                tryChoices driver expectFailure (explore ((current.clk + 1) % UInt64.size))
                  (replayChoices.remove current.id).tasks s
            let input := getLastRecordSmallerOrEqualThanClock most s.input.tail
            exploreLoop driver expectFailure explore least most fuel { s with input }
          else .ok s

def uint64Max : Nat := UInt64.size - 1

/-- `_explore_interval`, with a bound on the depth of its calls: the error and the index of the next
round. -/
def exploreInterval (driver : Driver P) (most : Nat) (expectFailure : Bool) :
    Nat → Nat → Trace P → Nat → Except Fault (Int × Nat)
  | 0, _, _, _ => .error .exploreFuel
  | depth + 1, least, input, round => do
      let input := getLastRecordSmallerOrEqualThanClock most input
      let s ← exploreLoop driver expectFailure
        (exploreInterval driver most expectFailure depth) least most (input.length + 1)
        { err := expectFailure.toNat, isError := expectFailure, input, round }
      .ok (s.err, s.round)

end Lotto.Explore
