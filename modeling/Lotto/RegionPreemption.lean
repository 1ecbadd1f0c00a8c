import Lotto.Library.KeyMap
import Lotto.Base
import Lotto.Sequencer

namespace Lotto

open Library.FaultRun Library.KeyMap

structure RegionPreemptionConfig where
  enabled : Bool
  defaultOn : Bool
  deriving DecidableEq, Repr

structure RegionState where
  counters : Map Nat
  task : TaskId
  warned : Bool
  warn : Bool
  deriving DecidableEq

def regionStart : RegionState := { counters := ∅, task := noTask, warned := false, warn := false }

def exitRegion (tid : TaskId) (st : RegionState) : Except Fault RegionState :=
  match st.counters.lookup tid with
  | none => .error .regionUnknown
  | some counter => do
      check (0 < counter) .regionCounter
      .ok { st with
        counters :=
          if counter - 1 = 0 then st.counters.erase tid else st.counters.replace tid (counter - 1)
        task := if st.task = tid then noTask else st.task }

def exitTask (tid : TaskId) (st : RegionState) : RegionState :=
  { st with
    counters := st.counters.erase tid
    task := if st.task = tid then noTask else st.task }

def enterRegion (st : RegionState) : RegionState :=
  if st.task = noTask then st
  else
    match st.counters.lookup st.task with
    | some counter =>
        { st with counters := st.counters.replace st.task (counter + 1), task := noTask }
    | none => { st with counters := st.counters.insert st.task 1, task := noTask }

def regionCheck (config : RegionPreemptionConfig) (tid : TaskId) (st : RegionState) : RegionState :=
  if !st.warn || !config.defaultOn || st.counters.keys.length == 0 then st
  else if (st.counters.lookup tid).isNone then { st with warned := true } else st

def regionLeave (cp : CapturePoint) (st : RegionState) : Except Fault RegionState :=
  if cp.typeId = eventRegionPreemptionOut then exitRegion cp.id st
  else if cp.typeId = eventTaskFini then .ok (exitTask cp.id st)
  else .ok st

def regionPins (config : RegionPreemptionConfig) (cp : CapturePoint) (e : Decision)
    (st : RegionState) : Bool :=
  !e.readonly && e.selector == .undefined &&
    (st.counters.lookup cp.id).isSome == config.defaultOn && e.tset.has cp.id && !e.skip

def pinDecision (pins : Bool) (cp : CapturePoint) (e : Decision) : Except Fault Decision :=
  if pins then do
    let tset ← e.tset.makeFirst cp.id
    .ok { e with selector := .first, readonly := true, tset }
  else .ok e

def regionEnter (cp : CapturePoint) (st : RegionState) : Except Fault RegionState :=
  let st := enterRegion st
  if cp.typeId = eventRegionPreemptionIn then do
    check (st.task == noTask) .regionPending
    .ok { st with task := cp.id }
  else .ok st

def regionPreemptionHandle (config : RegionPreemptionConfig) (cp : CapturePoint) (e : Decision)
    (st : RegionState) : Except Fault (Decision × RegionState) := do
  check (cp.id != noTask) .regionNoTask
  if !config.enabled then .ok (e, st)
  else do
    let st ← regionLeave cp (regionCheck config cp.id st)
    let warn := regionPins config cp e st
    let e ← pinDecision warn cp e
    let st ← regionEnter cp { st with warn }
    .ok (e, st)

/-- The handler's state after the captures of a run, each with the decision that the handlers in front
leave. A capture that one of them skips stops there, and `ON_SEQUENCER_CAPTURE` does not go on to this
handler. -/
def regionRun (config : RegionPreemptionConfig) (captures : List (CapturePoint × Decision))
    (st : RegionState) : Except Fault RegionState :=
  captures.foldlM (fun st c =>
    if c.2.skip then .ok st else (regionPreemptionHandle config c.1 c.2 st).map (·.2)) st

end Lotto
