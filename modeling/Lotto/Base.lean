import Mathlib.Data.List.AList
import Lotto.Library.FaultRun

namespace Lotto

open Library.FaultRun

abbrev TaskId := UInt64

def noTask : TaskId := 0

def anyTask : TaskId := ~~~noTask

abbrev TypeId := Nat

def eventTaskInit : TypeId := 170
def eventTaskFini : TypeId := 171
def eventTaskCreate : TypeId := 172
def eventMutexAcquire : TypeId := 142
def eventMutexTryacquire : TypeId := 143
def eventMutexRelease : TypeId := 144
def eventDeadlockRsrcAcquiring : TypeId := 151
def eventDeadlockRsrcReleased : TypeId := 152
def eventRegionPreemptionIn : TypeId := 198
def eventRegionPreemptionOut : TypeId := 199

def eSrch : Nat := 3
def eBusy : Nat := 16
def eInval : Nat := 22
def eDeadlk : Nat := 35

/-- The fields of `capture_point` that the engine and the modelled handlers read.
`payloadAddr` is the address stored in the payload of the mutex events. -/
structure CapturePoint where
  chainId : Nat
  typeId : TypeId
  blocking : Bool
  id : TaskId
  pc : UInt64
  payloadAddr : UInt64
  deriving DecidableEq, Repr

def plainPoint (id : TaskId) (typeId : TypeId) (payloadAddr : UInt64) : CapturePoint :=
  { chainId := 0, typeId, blocking := false, id, pc := 0, payloadAddr }

inductive Reason where
  | unknown | deterministic | nondeterministic | blocking | watchdog | sysYield | userYield
  | userOrder | assertFail | rsrcDeadlock | segfault | segvAccerr | sigint | sigabrt
  | sigterm | sigkill | success | ignore | abort | shutdown | runtimeSegfault
  | runtimeSegvAccerr | runtimeSigint | runtimeSigabrt | runtimeSigterm | runtimeSigkill
  | impasse
  deriving DecidableEq, Repr

def Reason.isShutdown : Reason → Bool
  | .shutdown | .success | .ignore => true
  | _ => false

def Reason.isAbort : Reason → Bool
  | .assertFail | .rsrcDeadlock | .segfault | .sigint | .sigabrt | .abort
  | .runtimeSegfault | .runtimeSigint | .runtimeSigabrt | .impasse | .sigterm
  | .runtimeSigterm | .sigkill | .runtimeSigkill | .segvAccerr | .runtimeSegvAccerr => true
  | _ => false

def Reason.isTerminate (r : Reason) : Bool := r.isShutdown || r.isAbort

def Reason.isRecordFinal : Reason → Bool
  | .success | .assertFail | .shutdown | .abort => true
  | _ => false

inductive Kind where
  | recordNone | recordInfo | recordSched | recordStart | recordExit | recordConfig
  | recordShutdownLock | recordOpaque | recordForce
  deriving DecidableEq, Repr

def Kind.bits : Kind → UInt32
  | .recordNone => 0x00
  | .recordInfo => 0x01
  | .recordSched => 0x02
  | .recordStart => 0x04
  | .recordExit => 0x08
  | .recordConfig => 0x10
  | .recordShutdownLock => 0x20
  | .recordOpaque => 0x40
  | .recordForce => 0x80

def recordAny : UInt32 := ~~~0

def Kind.isAfterKind (k : Kind) : Bool :=
  k.bits &&& (Kind.recordStart.bits ||| Kind.recordConfig.bits) != 0

theorem Kind.isAfterKind_eq (k : Kind) :
    k.isAfterKind = (k == .recordStart || k == .recordConfig) := by
  cases k <;> decide

/-- A trace record with payload of type `P`. The list link is left to the trace. -/
structure Record (P : Type) where
  id : TaskId
  clk : Nat
  chainId : Nat
  typeId : TypeId
  reason : Reason
  kind : Kind
  pc : UInt64
  data : P
  deriving DecidableEq, Repr

inductive ReplayStatus where
  | done | load | force | cont
  deriving DecidableEq, Repr

structure Replay where
  status : ReplayStatus
  id : TaskId
  deriving DecidableEq, Repr

inductive StateType where
  | ephemeral | start | config | persistent | final | empty
  deriving DecidableEq, Repr

inductive Fault where
  | recorderAfterFini | replayClkContiguous | recordNoTask | recordClkZero
  | recordClkMonotonic | recordClkBehindReplay | outRecordNone | recordTooOld
  | forceNotFirst | startNotFirstClock | infoSaveKind
  | recorderUnexpected (kind : Kind)
  | statemgrUnexpected (kind : Kind)
  | captureNoTask | replayLoadMismatch | wakeNoTask | dispatchNotChpt
  | createNotAnyTask | actionsNoTask | unknownGranularity
  | insertUnblockedAgain | insertPendingAgain | returnNotBlocking
  | creationNoTask | creationIsChpt | creationTset | taskReregistered | taskUnregistered
  | blockingNoTask | blockingIsChpt | blockingAlreadyBlocked
  | planNoTask | planSlack | planFini | planCreate | planSelf | planBlocking | planMismatch
  | mutexWaiting | mutexCount | mutexWaiterInsert | mutexWaiterRemove | mutexDisrespected
  | mutexReleaseCount | mutexStrict | mutexFilter | mutexDeadlockSearch | mutexNoTask
  | mutexEventAddr
  | rwlockNoTask | rwlockFilter | rwlockBothLocked | rwlockWaiterInsert
  | rwlockWriteLocked | rwlockReadLocked | rwlockWriter | rwlockReaderCount
  | filteringNoTask | filteringType | filteringPrng
  | marshableNoSize | headerOutOfBounds | deadCanary | unmarshalNotRegistered
  | unmarshalOutOfBounds | unmarshalSize | recordHeaderCut | recordOverrun | marshalOverrun
  | mediatorFinito | mediatorAction | mediatorBlockDone | mediatorFini | mediatorReason
  | mediatorNotResumable | mediatorNotDone | mediatorNotReturning
  | switcherNext | switcherNoTask
  | traceFuel | tracePayload | tracePending
  | chunkedCreateSize | chunkedFlushSize | chunkedClearSize | chunkedLoadSize | chunkedSameChunk
  | chunkedSetChunk | chunkedPopNull | chunkedForgetNull
  | tidmapNoTask | mapRegistered | tidsetNoElement
  | regionNoTask | regionUnknown | regionCounter | regionPending
  | timeoutNoTask | clockBackwards
  | joinNoTask | joinUnknown | joinLoop | joinExitUnknown | joinExitTwice
  | joinFiniUnknown | joinFiniWaitee | joinNullTask | joinDetachUnknown | joinDetachWaits
  | joinFilter
  | deadlockNoTask | deadlockSearch
  | evecNoTask | evecWaiting | evecFilter | evecNextTask | evecMoveSelf | evecTimeoutWaiting
  | evecTimeoutNone
  | pollNoTask | pollUnknownFd | pollCount | pollFilter | pollWaiters
  | scheduleNoRecord | exploreFuel
  | inflexFuel | inflexRange
  | awaitWaitingTwice | awaitNotInSync
  | spinNotComaximal | spinNoReading | spinNotMonitored | spinNoDepth | spinNoBlockedWrites
  | spinNoState | spinFinal | spinNoWriters | spinStartBlocked | spinStartReading
  | spinStartComaximal | spinStartState | spinStartWrites | spinOutside
  | eventUncapture | eventNoRealAccess | enforcerNoEvent | eventNoRealModify | enforcerBlockCount
  | enforcerUnderflow | sizedRead | valueWidth | valueLength | rmwValue | rmwName
  | trimNull | trimGoal | chunksMissing
  | tidsetTasks | tidsetSetNoTask | tidsetFuel
  | unmarshalCapacity | unmarshalCount | freeDead | useDead | outOfMemory | bufferCut
  | bddDepth | bddLeaf | bddNull | bddFuel
  | mempoolNull | mempoolBucket | mempoolOverflow | mempoolAlignment | mempoolCanary | mempoolOutside
  | rspCharacter | rspWidth | rspHexLeft | rspEmpty | rspEscapedEmpty | rspStart | rspOutside
  | rspChecksum | threadIdLength | threadIdDot | threadIdField | threadIdRange | threadIdMinus
  | flagCallback | flagType | flagUnknown
  | moduleDuplicate | moduleSlots | moduleName
  | preloadNull | preloadOutside
  | leakNull | leakUnknown | leakDead
  | uafAlignment | uafNoMemory | uafBefore | uafBehind | uafQueue
  | streamOpen | streamScan
  | freedItem
  | taskMapRegistered | taskMapUnknown | taskMapFini | zeroDivisor | prngRange | watchdogNoTask
  | enforceMismatch | enforceWidth | mapsName | stableType
  | gdbPacketLength | gdbQueue | gdbNothingSent | gdbUnexpected | gdbMessage
  | rinflexPair
  deriving DecidableEq, Repr

/-- `ASSERT(cond)`. -/
def check (cond : Bool) (fault : Fault) : Except Fault Unit :=
  if cond then .ok () else .error fault

@[simp] theorem check_true (fault : Fault) : check true fault = .ok () := rfl

@[simp] theorem check_false (fault : Fault) : check false fault = .error fault := rfl

theorem check_ok_iff (cond : Bool) (fault : Fault) : check cond fault = .ok () ↔ cond = true := by
  cases cond <;> simp [check]

theorem safe_check {β : Type} {tolerated : Fault → Prop} {post : β → Prop} {cond : Bool}
    {fault : Fault} {rest : Unit → Except Fault β} (harmless : tolerated fault)
    (passed : cond = true → Safe tolerated post (rest ())) :
    Safe tolerated post (check cond fault >>= rest) := by
  cases cond with
  | true => exact passed rfl
  | false => exact harmless

abbrev Map (α : Type) := AList (fun _ : UInt64 => α)

/-- `map_find` and, for an unknown key, `map_register` of the item `new`. -/
def findOrInit {α : Type} (new : α) (key : UInt64) (map : Map α) : α × Map α :=
  match map.lookup key with
  | some item => (item, map)
  | none => (new, map.insert key new)

end Lotto
