import Lotto.Base

namespace Lotto

structure SequencerConfig where
  gran : UInt64
  slack : Nat
  deriving DecidableEq, Repr

/-- The state manager as the recorder sees it. `M` is the registered module state, `P` a
record payload; `unmarshal` includes the subscribers of the AFTER_UNMARSHAL event it
publishes. The sequencer's configuration is CONFIG state, so a PERSISTENT payload cannot
touch it. -/
structure Modules (M P : Type) where
  config : M → SequencerConfig
  marshal : StateType → M → P
  unmarshal : StateType → P → M → M
  config_persistent : ∀ data m, config (unmarshal .persistent data m) = config m

def noModules : Modules Unit Unit where
  config := fun _ => { gran := 0, slack := 0 }
  marshal := fun _ _ => ()
  unmarshal := fun _ _ m => m
  config_persistent := fun _ _ => rfl

/-- `_recorder` and its contract ghost. `unmarshalled` logs each record handed to the state
manager with the clock of the call, `infoLoaded` each record published through INFO_RECORD_LOAD
with that clock, and `replayEnded` whether REPLAY_END was published. -/
structure Recorder (P : Type) where
  input : Option (List (Record P))
  output : Option (List (Record P))
  finalr : Bool
  recordClk : Nat
  replayClk : Nat
  finito : Bool
  unmarshalled : List (Nat × Record P)
  infoLoaded : List (Nat × Record P)
  replayEnded : Bool

def recorderInit {P : Type} (input output : Option (List (Record P))) : Recorder P :=
  { input, output, finalr := true, recordClk := 0, replayClk := 0, finito := false,
    unmarshalled := [], infoLoaded := [], replayEnded := false }

variable {M P : Type}

def statemgrRecordUnmarshal (mods : Modules M P) (r : Record P) (m : M) : Except Fault M :=
  match r.kind with
  | .recordSched => .ok (mods.unmarshal .persistent r.data m)
  | .recordForce | .recordOpaque | .recordExit => .ok m
  | .recordStart => .ok (mods.unmarshal .start r.data m)
  | .recordConfig => .ok (mods.unmarshal .config r.data m)
  | kind => .error (.statemgrUnexpected kind)

def recorderOut (rc : Recorder P) (r : Record P) : Except Fault (Recorder P) :=
  match rc.output with
  | none => .ok rc
  | some out => do
      check (r.kind != .recordNone) .outRecordNone
      .ok { rc with output := some (out ++ [r]) }

/-- `_recorder_out_safe`: `trace_append_safe` of a flat trace is its `trace_append`. -/
def recorderOutSafe (rc : Recorder P) (r : Record P) : Except Fault (Recorder P) :=
  recorderOut rc r

def recorderOutClone (rc : Recorder P) (r : Record P) : Except Fault (Recorder P) :=
  recorderOut rc r

def replayRecord (clk : Nat) (r : Record P) (ry : Replay) (rc : Recorder P) :
    Except Fault (Replay × Recorder P) :=
  match r.kind with
  | .recordInfo => .ok (ry, { rc with infoLoaded := rc.infoLoaded ++ [(clk, r)] })
  | .recordForce => do
      check (ry.status == .done) .forceNotFirst
      let rc ← recorderOutClone rc r
      .ok ({ status := .force, id := r.id }, rc)
  | .recordSched =>
      .ok ({ status := if ry.status = .done then .load else ry.status, id := r.id }, rc)
  | .recordOpaque => .ok (ry, rc)
  | .recordExit => .ok (ry, rc)
  | .recordStart => do
      check (clk == 1) .startNotFirstClock
      let rc ← recorderOutClone rc r
      .ok (ry, rc)
  | .recordConfig => do
      let rc ← recorderOutClone rc r
      .ok (ry, rc)
  | kind => .error (.recorderUnexpected kind)

def notYet (clk : Nat) (r : Record P) : Bool :=
  clk < r.clk || (r.kind.isAfterKind && r.clk == clk)

def recorderReplayNext (mods : Modules M P) (clk : Nat) :
    List (Record P) → Replay → Recorder P → M → Except Fault (Replay × Recorder P × M)
  | [], ry, rc, m => .ok (ry, { rc with input := none }, m)
  | r :: rest, ry, rc, m =>
      -- `trace_next(input, RECORD_ANY)` drops the records that fail the filter
      if r.kind.bits &&& recordAny = 0 then recorderReplayNext mods clk rest ry rc m
      else do
        check (clk == 0 || clk - 1 ≤ r.clk) .recordTooOld
        if notYet clk r then
          .ok ({ ry with status := if ry.status = .done then .cont else ry.status },
            { rc with input := some (r :: rest) }, m)
        else do
          let m ← statemgrRecordUnmarshal mods r m
          let rc := { rc with unmarshalled := rc.unmarshalled ++ [(clk, r)] }
          let (ry, rc) ← replayRecord clk r ry rc
          recorderReplayNext mods clk rest ry rc m

def recorderReplay (mods : Modules M P) (rc : Recorder P) (m : M) (clk : Nat) :
    Except Fault (Replay × Recorder P × M) := do
  check (!rc.finito) .recorderAfterFini
  check (clk == rc.replayClk + 1) .replayClkContiguous
  let rc := { rc with replayClk := rc.replayClk + 1 }
  let ry : Replay := { status := .done, id := noTask }
  match rc.input with
  | none => .ok (ry, rc, m)
  | some trace => recorderReplayNext mods clk trace ry rc m

/-- The record that `recorder_record` writes for a resumed capture point. -/
def schedRecord (mods : Modules M P) (m : M) (cp : CapturePoint) (clk : Nat) : Record P :=
  { id := cp.id, clk, chainId := cp.chainId, typeId := cp.typeId, reason := .unknown,
    kind := .recordSched, pc := cp.pc, data := mods.marshal .persistent m }

def recorderRecord (mods : Modules M P) (rc : Recorder P) (m : M) (cp : CapturePoint)
    (clk : Nat) : Except Fault (Recorder P) := do
  check (!rc.finito) .recorderAfterFini
  check (cp.id != noTask) .recordNoTask
  check (0 < clk) .recordClkZero
  check (rc.recordClk < clk) .recordClkMonotonic
  let rc := { rc with recordClk := clk }
  check (rc.replayClk ≤ clk) .recordClkBehindReplay
  if rc.output.isNone then .ok rc
  else do
    let rc ← recorderOut rc (schedRecord mods m cp clk)
    .ok { rc with replayEnded := rc.replayEnded || rc.input.isNone }

def infoRecordSave (rc : Recorder P) (r : Record P) : Except Fault (Recorder P) := do
  check (r.kind == .recordInfo) .infoSaveKind
  recorderOutClone rc r

def exitRecord (mods : Modules M P) (m : M) (clk : Nat) (id : TaskId) (reason : Reason) :
    Record P :=
  { id, clk, chainId := 0, typeId := 0, reason, kind := .recordExit, pc := 0,
    data := mods.marshal (if reason.isRecordFinal then .final else .empty) m }

def recorderFini (mods : Modules M P) (rc : Recorder P) (m : M) (clk : Nat) (id : TaskId)
    (reason : Reason) : Except Fault (Recorder P) := do
  check (!rc.finito) .recorderAfterFini
  let rc := { rc with finito := true }
  if rc.output.isNone || !rc.finalr then .ok rc
  else recorderOutSafe rc (exitRecord mods m clk id reason)

end Lotto
