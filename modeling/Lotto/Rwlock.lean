import Lotto.Mutex

namespace Lotto

inductive RwlockEvent where
  | rdlock | wrlock | unlock | tryrdlock | trywrlock | timedrdlock | timedwrlock
  deriving DecidableEq, Repr

/-- `struct rwlock`, keyed by the address of the lock. `readers` holds the number of recursive
read locks of each reader. -/
structure Rwlock where
  writer : TaskId
  readers : Map Int
  readWaiters : Tidset
  writeWaiters : Tidset
  deriving DecidableEq

abbrev RwlockState := Map Rwlock

def rwlockNew : Rwlock :=
  { writer := noTask, readers := ∅, readWaiters := .empty, writeWaiters := .empty }

def rwlockInit : UInt64 → RwlockState → Rwlock × RwlockState := findOrInit rwlockNew

/-- `_rwlock_is_read_locked`. -/
def isReadLocked (lock : Rwlock) : Except Fault Bool := do
  check (lock.readers.entries.length == 0 || lock.writer == noTask) .rwlockBothLocked
  .ok (0 < lock.readers.entries.length)

/-- `_rwlock_is_read_locked_by`. The assertion of `tidmap_find` on the task is left to the callers. -/
def isReadLockedBy (lock : Rwlock) (id : TaskId) : Bool := (lock.readers.lookup id).isSome

/-- `_rwlock_is_write_locked`. -/
def isWriteLocked (lock : Rwlock) : Bool := lock.writer != noTask

def waitsForLock (id : TaskId) (lock : Rwlock) : Except Fault Bool :=
  if isWriteLocked lock then .ok (lock.writeWaiters.has id || lock.readWaiters.has id)
  else do
    let readLocked ← isReadLocked lock
    if readLocked then .ok (lock.writeWaiters.has id)
    else .ok (0 < lock.writeWaiters.size && lock.readWaiters.has id)

/-- `_should_wait`. -/
def shouldWaitRwlock (locks : RwlockState) (id : TaskId) : Except Fault Bool :=
  (locks.entries.map Sigma.snd).anyM (waitsForLock id)

def handleRdlock (id : TaskId) (addr : UInt64) (locks : RwlockState) :
    Except Fault (RwlockState × Bool) := do
  let (lock, locks) := rwlockInit addr locks
  if isWriteLocked lock && lock.writer == id then .ok (locks, true)
  else do
    check (!lock.readWaiters.has id) .rwlockWaiterInsert
    .ok (locks.replace addr { lock with readWaiters := lock.readWaiters.insert id }, false)

def handleWrlock (id : TaskId) (addr : UInt64) (locks : RwlockState) :
    Except Fault (RwlockState × Bool) := do
  let (lock, locks) := rwlockInit addr locks
  let readLocked ← isReadLocked lock
  if isWriteLocked lock && lock.writer == id ||
      readLocked && isReadLockedBy lock id then .ok (locks, true)
  else do
    check (!lock.writeWaiters.has id) .rwlockWaiterInsert
    .ok (locks.replace addr { lock with writeWaiters := lock.writeWaiters.insert id }, false)

def addReader (id : TaskId) (lock : Rwlock) : Rwlock :=
  match lock.readers.lookup id with
  | some cnt => { lock with readers := lock.readers.replace id (cnt + 1) }
  | none => { lock with readers := lock.readers.insert id 1 }

def posthandleRdlock (id : TaskId) (addr : UInt64) (locks : RwlockState) :
    Except Fault RwlockState := do
  let (lock, locks) := rwlockInit addr locks
  check (!isWriteLocked lock) .rwlockWriteLocked
  if !lock.readWaiters.has id then .ok locks
  else do
    check (id != noTask) .rwlockNoTask
    .ok (locks.replace addr (addReader id { lock with readWaiters := lock.readWaiters.remove id }))

def posthandleTryrdlock (id : TaskId) (addr : UInt64) (locks : RwlockState) :
    Except Fault (Nat × RwlockState) := do
  let (lock, locks) := rwlockInit addr locks
  if isWriteLocked lock then .ok (if lock.writer = id then eDeadlk else eBusy, locks)
  else if 0 < lock.writeWaiters.size then .ok (eBusy, locks)
  else do
    check (id != noTask) .rwlockNoTask
    .ok (0, locks.replace addr (addReader id lock))

def posthandleWrlock (id : TaskId) (addr : UInt64) (locks : RwlockState) :
    Except Fault RwlockState := do
  let (lock, locks) := rwlockInit addr locks
  let readLocked ← isReadLocked lock
  check (!readLocked) .rwlockReadLocked
  check (lock.writer == noTask) .rwlockWriter
  if !lock.writeWaiters.has id then .ok locks
  else .ok (locks.replace addr
    { lock with writeWaiters := lock.writeWaiters.remove id, writer := id })

def posthandleTrywrlock (id : TaskId) (addr : UInt64) (locks : RwlockState) :
    Except Fault (Nat × RwlockState) := do
  let (lock, locks) := rwlockInit addr locks
  if lock.writer = id then .ok (eDeadlk, locks)
  else do
    let readLocked ← isReadLocked lock
    if readLocked || isWriteLocked lock then .ok (eBusy, locks)
    else .ok (0, locks.replace addr { lock with writer := id })

/-- `_posthandle_unlock`. An unlock of a lock that the task does not hold is only logged, unless
the lock has a writer. -/
def posthandleUnlock (id : TaskId) (addr : UInt64) (locks : RwlockState) :
    Except Fault RwlockState := do
  let (lock, locks) := rwlockInit addr locks
  if lock.writer ≠ noTask then do
    check (lock.writer == id) .rwlockWriter
    .ok (locks.replace addr { lock with writer := noTask })
  else do
    check (id != noTask) .rwlockNoTask
    match lock.readers.lookup id with
    | none => .ok locks
    | some cnt => do
        check (0 ≤ cnt) .rwlockReaderCount
        .ok (locks.replace addr { lock with
          readers := if cnt - 1 = 0 then lock.readers.erase id
            else lock.readers.replace id (cnt - 1) })

/-- The rwlock handler's `_should_wait` as the any-task filter of a decision. -/
def rwlockShouldWait : Nat := 2

def enterWaiters (e : Decision) (handled : Except Fault (RwlockState × Bool)) :
    Except Fault (Decision × RwlockState) := do
  let (locks, deadlock) ← handled
  check (e.anyTaskFilter == none) .rwlockFilter
  .ok ({ e with
    reason := if deadlock then .rsrcDeadlock else e.reason
    isChpt := true, anyTaskFilter := some rwlockShouldWait }, locks)

def rwlockSwitch (event : Option RwlockEvent) (cp : CapturePoint) (e : Decision)
    (locks : RwlockState) : Except Fault (Decision × RwlockState) :=
  match event with
  | some .rdlock | some .timedrdlock =>
      enterWaiters e (handleRdlock cp.id cp.payloadAddr locks)
  | some .wrlock | some .timedwrlock =>
      enterWaiters e (handleWrlock cp.id cp.payloadAddr locks)
  | some .tryrdlock | some .trywrlock | some .unlock => .ok ({ e with isChpt := true }, locks)
  | none => .ok (e, locks)

def subtractWaiters (tset : Tidset) (lock : Rwlock) : Except Fault Tidset := do
  let readLocked ← isReadLocked lock
  if readLocked then .ok (tset.subtract lock.writeWaiters)
  else if isWriteLocked lock then
    .ok ((tset.subtract lock.readWaiters).subtract lock.writeWaiters)
  else if lock.writeWaiters.size ≠ 0 then .ok (tset.subtract lock.readWaiters)
  else .ok tset

def rwlockHandle (event : TypeId → Option RwlockEvent) (cp : CapturePoint) (e : Decision)
    (locks : RwlockState) : Except Fault (Decision × RwlockState) :=
  if e.skip then .ok (e, locks)
  else do
    check (cp.id != noTask) .rwlockNoTask
    let (e, locks) ← rwlockSwitch (event cp.typeId) cp e locks
    let tset ← (locks.entries.map Sigma.snd).foldlM subtractWaiters e.tset
    .ok ({ e with tset }, locks)

/-- The subscriber of CHAIN_SEQUENCER_RESUME. The results of the try-locks go to the payload. -/
def rwlockResume (event : TypeId → Option RwlockEvent) (cp : CapturePoint) (locks : RwlockState) :
    Except Fault RwlockState :=
  match event cp.typeId with
  | some .rdlock | some .timedrdlock => posthandleRdlock cp.id cp.payloadAddr locks
  | some .wrlock | some .timedwrlock => posthandleWrlock cp.id cp.payloadAddr locks
  | some .unlock => posthandleUnlock cp.id cp.payloadAddr locks
  | some .tryrdlock => (posthandleTryrdlock cp.id cp.payloadAddr locks).map Prod.snd
  | some .trywrlock => (posthandleTrywrlock cp.id cp.payloadAddr locks).map Prod.snd
  | none => .ok locks

end Lotto
