import Mathlib.Data.Finset.Basic
import Mathlib.Data.List.AList
import Lotto.EventArgs

namespace Lotto.SpinLoop

open Library.FaultRun
open Lotto.Rusty

inductive AddressState where
  | initial | readNeverWrote | safe | final
  deriving DecidableEq, Repr

abbrev Loop := TaskId × Nat

structure State where
  blockedTasks : Finset TaskId
  loopDepth : AList fun _ : TaskId => Nat
  monitoringAddress : AList fun _ : Address => List Loop
  readingAddresses : AList fun _ : Loop => List Address
  stateWriteWithinLoop : AList fun _ : Loop => AList fun _ : Address => AddressState
  comaximalLoops : Finset Loop
  lastWriteChangedBlockedList : Bool
  numWritesByBlockedLoops : AList fun _ : Address => Nat
  blockedLoopsWritingHere : AList fun _ : Address => List Loop
  writesInBlockedLoop : AList fun _ : Loop => List Address
  lastActionWasFailedSpinEnd : Finset TaskId
  isChpt : Bool
  deriving DecidableEq

def default : State :=
  { blockedTasks := ∅, loopDepth := ∅, monitoringAddress := ∅, readingAddresses := ∅
    stateWriteWithinLoop := ∅, comaximalLoops := ∅, lastWriteChangedBlockedList := false
    numWritesByBlockedLoops := ∅, blockedLoopsWritingHere := ∅, writesInBlockedLoop := ∅
    lastActionWasFailedSpinEnd := ∅, isChpt := false }

def unmonitor (loop : Loop) (monitoring : AList fun _ : Address => List Loop) (addr : Address) :
    Except Fault (AList fun _ : Address => List Loop) :=
  match monitoring.lookup addr with
  | none => .error .spinNotMonitored
  | some loops => .ok (monitoring.insert addr (loops.filter (· != loop)))

def unwrite (loop : Loop)
    (tables : (AList fun _ : Address => Nat) × AList fun _ : Address => List Loop) (addr : Address) :
    (AList fun _ : Address => Nat) × AList fun _ : Address => List Loop :=
  let curCnt := (tables.1.lookup addr).getD 0
  (if 1 < curCnt then tables.1.insert addr (curCnt - 1) else tables.1.erase addr,
    match tables.2.lookup addr with
    | some loops => tables.2.insert addr (loops.filter (· != loop))
    | none => tables.2)

/-- The end of `remove_loop_from_observation` for the current loop of a blocked task. -/
def unblock (loop : Loop) (st : State) : Except Fault State :=
  match st.writesInBlockedLoop.lookup loop with
  | none => .error .spinNoBlockedWrites
  | some writeList =>
      let tables := writeList.foldl (unwrite loop)
        (st.numWritesByBlockedLoops, st.blockedLoopsWritingHere)
      .ok { st with
        blockedTasks := st.blockedTasks.erase loop.1
        numWritesByBlockedLoops := tables.1
        blockedLoopsWritingHere := tables.2
        writesInBlockedLoop := st.writesInBlockedLoop.erase loop }

def removeLoopFromObservation (loop : Loop) (st : State) : Except Fault (Bool × State) := do
  check (decide (loop ∈ st.comaximalLoops)) .spinNotComaximal
  match st.readingAddresses.lookup loop with
  | none => .error .spinNoReading
  | some reading => do
      let monitoringAddress ← reading.foldlM (unmonitor loop) st.monitoringAddress
      let st := { st with
        comaximalLoops := st.comaximalLoops.erase loop
        monitoringAddress
        readingAddresses := st.readingAddresses.erase loop
        stateWriteWithinLoop := st.stateWriteWithinLoop.erase loop }
      match st.loopDepth.lookup loop.1 with
      | none => .error .spinNoDepth
      | some depth =>
          if depth = loop.2 ∧ loop.1 ∈ st.blockedTasks then do
            let st ← unblock loop st
            .ok (true, st)
          else .ok (false, st)

def notify (curId : TaskId) (acc : Bool × State) (loop : Loop) : Except Fault (Bool × State) :=
  if loop.1 ≠ curId then do
    let removed ← removeLoopFromObservation loop acc.2
    .ok (acc.1 || removed.1, removed.2)
  else .ok acc

def updateAddressStateMachineForWrite (loop : Loop) (addr : Address) (st : State) :
    Except Fault (Bool × State) :=
  if loop ∈ st.comaximalLoops then
    match st.stateWriteWithinLoop.lookup loop with
    | none => .error .spinNoState
    | some map =>
        match (map.lookup addr).getD .initial with
        | .initial | .safe =>
            .ok (false, { st with
              stateWriteWithinLoop :=
                st.stateWriteWithinLoop.insert loop (map.insert addr .safe) })
        | .readNeverWrote => removeLoopFromObservation loop st
        | .final => .error .spinFinal
  else .ok (false, st)

def ownWrite (curId : TaskId) (addr : Address) (acc : Bool × State) (idx : Nat) :
    Except Fault (Bool × State) := do
  let updated ← updateAddressStateMachineForWrite (curId, idx + 1) addr acc.2
  .ok (acc.1 || updated.1, updated.2)

def executeWriteEvent (curId : TaskId) (addr : Address) (st : State) :
    Except Fault (Bool × State) := do
  let notified ← ((st.monitoringAddress.lookup addr).getD []).foldlM (notify curId) (false, st)
  match notified.2.loopDepth.lookup curId with
  | none => .ok notified
  | some curDepth => (List.range curDepth).foldlM (ownWrite curId addr) notified

def updateAddressStateMachineForRead (loop : Loop) (addr : Address) (st : State) :
    Except Fault State :=
  match st.stateWriteWithinLoop.lookup loop with
  | none => .error .spinNoState
  | some map =>
      .ok { st with
        stateWriteWithinLoop := st.stateWriteWithinLoop.insert loop
          (if addr ∈ map then map else map.insert addr .readNeverWrote) }

/-- A read from an address that blocked loops would write: neither the reader nor the writers are
observed any longer. -/
def readPermanent (loop : Loop) (addr : Address) (st : State) : Except Fault State := do
  let removed ← removeLoopFromObservation loop st
  match removed.2.blockedLoopsWritingHere.lookup addr with
  | none => .error .spinNoWriters
  | some writers =>
      writers.foldlM (fun st writer => (removeLoopFromObservation writer st).map Prod.snd) removed.2

def addRead (tid : TaskId) (addr : Address) (st : State) (idx : Nat) : Except Fault State :=
  let loop : Loop := (tid, idx + 1)
  if loop ∈ st.comaximalLoops then
    if addr ∈ st.numWritesByBlockedLoops then readPermanent loop addr st
    else
      let curReading := (st.readingAddresses.lookup loop).getD []
      if addr ∈ curReading then
        .ok { st with readingAddresses := st.readingAddresses.insert loop curReading }
      else
        let curWatchlist := (st.monitoringAddress.lookup addr).getD []
        updateAddressStateMachineForRead loop addr
          { st with
            readingAddresses := st.readingAddresses.insert loop (curReading ++ [addr])
            monitoringAddress := st.monitoringAddress.insert addr (curWatchlist ++ [loop]) }
  else .ok st

/-- `add_read_to_all_active_loops_of_task`, which is `execute_read_event`. -/
def executeReadEvent (tid : TaskId) (addr : Address) (st : State) : Except Fault State :=
  match st.loopDepth.lookup tid with
  | none => .ok st
  | some curDepth => (List.range curDepth).foldlM (addRead tid addr) st

/-- The assertions of `mark_spin_loop_begin` and the entries of the new iteration. -/
def beginLoop (loop : Loop) (st : State) : Except Fault State := do
  check (decide (loop.1 ∉ st.blockedTasks)) .spinStartBlocked
  check (decide (loop ∉ st.readingAddresses)) .spinStartReading
  check (decide (loop ∉ st.comaximalLoops)) .spinStartComaximal
  check (decide (loop ∉ st.stateWriteWithinLoop)) .spinStartState
  check (decide (loop ∉ st.writesInBlockedLoop)) .spinStartWrites
  .ok { st with
    readingAddresses := st.readingAddresses.insert loop []
    comaximalLoops := insert loop st.comaximalLoops
    stateWriteWithinLoop := st.stateWriteWithinLoop.insert loop ∅ }

/-- The depth of the loop that a `spin_start` begins, which is the old one after a failed
`spin_end`. -/
def enterLoop (tid : TaskId) (st : State) : State :=
  let depth := (st.loopDepth.lookup tid).getD 0
  if depth = 0 ∨ tid ∉ st.lastActionWasFailedSpinEnd then
    { st with loopDepth := st.loopDepth.insert tid (depth + 1) }
  else { st with lastActionWasFailedSpinEnd := st.lastActionWasFailedSpinEnd.erase tid }

def markSpinLoopBegin (tid : TaskId) (st : State) : Except Fault State :=
  let st := enterLoop tid st
  match st.loopDepth.lookup tid with
  | none => .error .spinNoDepth
  | some depth => do
      -- a blocked task may be scheduled where no other one is left
      let st ← if tid ∈ st.blockedTasks then
          (removeLoopFromObservation (tid, depth) st).map Prod.snd
        else .ok st
      beginLoop (tid, depth) st

def safeAddresses (map : AList fun _ : Address => AddressState) : List Address :=
  map.keys.filter fun addr => map.lookup addr == some .safe

def countWrite (loop : Loop) (st : State) (write : Address) : State :=
  { st with
    numWritesByBlockedLoops := st.numWritesByBlockedLoops.insert write
      ((st.numWritesByBlockedLoops.lookup write).getD 0 + 1)
    blockedLoopsWritingHere := st.blockedLoopsWritingHere.insert write
      ((st.blockedLoopsWritingHere.lookup write).getD [] ++ [loop]) }

def blockLoop (order : List Address → List Address) (loop : Loop) (st : State) :
    Except Fault State :=
  let st := { st with blockedTasks := insert loop.1 st.blockedTasks }
  match st.stateWriteWithinLoop.lookup loop with
  | none => .ok st
  | some map => do
      let listWrites := order (safeAddresses map)
      let st ← listWrites.foldlM
        (fun st write => (executeWriteEvent loop.1 write st).map Prod.snd) st
      let st := listWrites.foldl (countWrite loop) st
      .ok { st with writesInBlockedLoop := st.writesInBlockedLoop.insert loop listWrites }

def markSpinLoopEnd (order : List Address → List Address) (tid : TaskId) (condFlag : UInt32)
    (st : State) : Except Fault (Bool × State) :=
  match st.loopDepth.lookup tid with
  | none => .error .spinOutside
  | some curDepth =>
      let loop : Loop := (tid, curDepth)
      if condFlag ≠ 0 then do
        let st ← if loop ∈ st.comaximalLoops then
            (removeLoopFromObservation loop st).map Prod.snd
          else .ok st
        .ok (false, { st with
          loopDepth := if 1 < curDepth then st.loopDepth.insert tid (curDepth - 1)
            else st.loopDepth.erase tid })
      else
        let st := { st with
          lastActionWasFailedSpinEnd := insert tid st.lastActionWasFailedSpinEnd }
        if loop ∈ st.comaximalLoops then do
          let st ← blockLoop order loop st
          .ok (true, st)
        else .ok (false, st)

def handleSpinStartContext (tid : TaskId) (st : State) : Except Fault State :=
  markSpinLoopBegin tid st

def handleSpinEndContext (order : List Address → List Address) (tid : TaskId) (condFlag : UInt32)
    (st : State) : Except Fault State := do
  let ended ← markSpinLoopEnd order tid condFlag st
  .ok { ended.2 with isChpt := ended.2.isChpt || ended.1 }

end Lotto.SpinLoop
