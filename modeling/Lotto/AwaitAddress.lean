import Mathlib.Data.List.AList
import Lotto.EventArgs

namespace Lotto.AwaitAddress

open Library.FaultRun
open Lotto.Rusty

structure State where
  blockedTasks : AList fun _ : TaskId => Address
  monitoredAddresses : AList fun _ : Address => List TaskId
  isChpt : Bool
  deriving DecidableEq

def new : State := { blockedTasks := ∅, monitoredAddresses := ∅, isChpt := false }

/-- `block_cur_task_on_addr`. Its `debug_assert!` is checked only where `debug` is set. -/
def blockCurTaskOnAddr (debug : Bool) (currentTaskId : TaskId) (addr : Address) (st : State) :
    Except Fault State :=
  let old := st.blockedTasks.lookup currentTaskId
  let st := { st with blockedTasks := st.blockedTasks.insert currentTaskId addr }
  if old = some addr then .ok st
  else
    match st.monitoredAddresses.lookup addr with
    | some waitingTasks => do
        check (!debug || !waitingTasks.contains currentTaskId) .awaitWaitingTwice
        .ok { st with
          monitoredAddresses :=
            st.monitoredAddresses.insert addr (waitingTasks ++ [currentTaskId]) }
    | none =>
        .ok { st with monitoredAddresses := st.monitoredAddresses.insert addr [currentTaskId] }

def removeBlocked (blockedTasks : AList fun _ : TaskId => Address) (task : TaskId) :
    Except Fault (AList fun _ : TaskId => Address) := do
  check (decide (task ∈ blockedTasks)) .awaitNotInSync
  .ok (blockedTasks.erase task)

def unblockAddrNow (addr : Address) (st : State) : Except Fault (List TaskId × State) :=
  match st.monitoredAddresses.lookup addr with
  | some waitingTasks => do
      let st := { st with monitoredAddresses := st.monitoredAddresses.erase addr }
      let blockedTasks ← waitingTasks.foldlM removeBlocked st.blockedTasks
      .ok (waitingTasks, { st with blockedTasks })
  | none => .ok ([], st)

def handleAwaitContext (debug : Bool) (tid : TaskId) (address : Address) (st : State) :
    Except Fault State := do
  let st ← blockCurTaskOnAddr debug tid address st
  .ok { st with isChpt := true }

def handleExecute (args : EventArgs) (st : State) : Except Fault State :=
  match args with
  | .addressOnly .beforeWrite addr _ => (unblockAddrNow addr st).map Prod.snd
  | .addressValue .beforeAWrite addr _ _ | .addressValue .beforeRMW addr _ _ =>
      (unblockAddrNow addr st).map Prod.snd
  | .addressTwoValuesEvent .beforeCMPXCHG addr _ _ _ => (unblockAddrNow addr st).map Prod.snd
  | _ => .ok st

/-- What the handler is called for: an await of a task, or an executed event. -/
inductive Move where
  | await (tid : TaskId) (address : Address)
  | execute (args : EventArgs)
  deriving DecidableEq, Repr

def step (debug : Bool) : Move → State → Except Fault State
  | .await tid address, st => handleAwaitContext debug tid address st
  | .execute args, st => handleExecute args st

end Lotto.AwaitAddress
