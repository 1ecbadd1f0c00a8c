import Lotto.ContextInfo
import Lotto.SpinLoop

namespace Lotto.SpinLoop

open Library.FaultRun
open Lotto.Rusty

/-- The events of `handle_execute`, with the change point that they give. -/
def executeEvent (mem : Cells) (tid : TaskId) (args : EventArgs) (st : State) :
    Except Fault (Bool × State) :=
  match args with
  | .addressOnly .beforeRead addr _ | .addressOnly .beforeARead addr _ => do
      let st ← executeReadEvent tid addr st
      .ok (false, st)
  | .addressOnly .beforeWrite addr _ => executeWriteEvent tid addr st
  | .addressValue .beforeRMW addr size value => do
      let st ← executeReadEvent tid addr st
      let current ← getValueFromAddr mem addr size
      if current ≠ value then executeWriteEvent tid addr st
      else .ok (false, st)
  | .addressValue .beforeAWrite addr _ _ => executeWriteEvent tid addr st
  | .addressTwoValuesEvent .beforeCMPXCHG addr size value1 _ => do
      let current ← getValueFromAddr mem addr size
      if current ≠ value1 then do
        let st ← executeReadEvent tid addr st
        .ok (false, st)
      else do
        let st ← executeReadEvent tid addr st
        executeWriteEvent tid addr st
  | .noChanges => .ok (false, st)

def handleExecute (mem : Cells) (tid : TaskId) (args : EventArgs) (st : State) :
    Except Fault State := do
  let executed ← executeEvent mem tid args st
  .ok { executed.2 with lastWriteChangedBlockedList := executed.1 }

structure Dispatch where
  st : State
  table : AList fun _ : TaskId => EventArgs
  deriving DecidableEq

def callRightHandler (order : List Address → List Address) (tid : TaskId) (event : Event)
    (st : State) : Except Fault State :=
  match event with
  | .spinStart => handleSpinStartContext tid st
  | .spinEnd cond => handleSpinEndContext order tid cond st
  | _ => .ok st

/-- `publish_arrival`: the arguments of the event are those of the memory at its arrival. -/
def publishArrival (mem : Cells) (order : List Address → List Address) (tid : TaskId)
    (ctx : Capture) (d : Dispatch) : Except Fault Dispatch := do
  let args ← EventArgs.new mem ctx
  let st ← callRightHandler order tid ctx.event d.st
  .ok { st, table := d.table.insert tid args }

/-- `publish_execute_ctx`. A task that has no event in the table runs with an empty context. -/
def publishExecute (mem : Cells) (tid : TaskId) (d : Dispatch) : Except Fault Dispatch := do
  let st ← handleExecute mem tid ((d.table.lookup tid).getD .noChanges) d.st
  .ok { st, table := d.table.erase tid }

end Lotto.SpinLoop
