import Lotto.Base
import Lotto.Sequencer
import Lotto.Timeout

namespace Lotto

structure Pollfd where
  fd : Int32
  events : BitVec 16
  revents : BitVec 16
  deriving DecidableEq, Repr

structure PollArgs where
  fds : List Pollfd
  timeout : Int
  ret : Int
  deriving DecidableEq, Repr

/-- `struct polled_fd`, keyed by the fd plus one. The arrays fit into memory, so that a counter does
not overflow. -/
structure PolledFd where
  events : BitVec 16
  waiters : Tidset
  counts : Fin 16 → Int

structure PollState where
  polls : Map PollArgs
  fds : Map PolledFd
  helpCounter : Nat
  shouldCleanup : Bool
  timeouts : Map Timespec

def pollStart : PollState :=
  { polls := ∅, fds := ∅, helpCounter := 0, shouldCleanup := false, timeouts := ∅ }

inductive PollEvent where
  | poll (args : PollArgs)
  | other
  deriving DecidableEq, Repr

structure PollCapture where
  id : TaskId
  event : PollEvent
  deriving DecidableEq, Repr

def nsecInMsec : Int := 1000000

def nsecInSec : Int := 1000000000

def pollDeadline (timeout : Int) (clock : Timespec) : Timespec :=
  let timeoutNs := timeout * nsecInMsec % 18446744073709551616
  let deadlineNs := (clock.tvNsec + timeoutNs) % 18446744073709551616
  { tvSec := clock.tvSec + deadlineNs / nsecInSec, tvNsec := deadlineNs % nsecInSec }

def fdKey (fd : Int32) : UInt64 := UInt64.ofInt (fd.toInt + 1)

def fdOf (key : UInt64) : Int32 := Int32.ofInt (key.toNat - 1)

/-- `POLLERR | POLLHUP | POLLNVAL`. -/
def pollErrors : BitVec 16 := 0x38

def addEvents (change : Int) (events : BitVec 16) (counts : Fin 16 → Int) : Fin 16 → Int :=
  fun bit => if events.getLsbD bit then counts bit + change else counts bit

def polledNew : PolledFd := { events := 0, waiters := .empty, counts := fun _ => 0 }

def clearEntry (p : Pollfd) : Pollfd :=
  if p.fd < 0 then { p with revents := 0 }
  else { p with revents := 0, events := p.events ||| pollErrors }

/-- The body of the loop of `_wait`. The initialiser of `map_find_or_register` also runs for an fd
that is registered already. -/
def watch (tid : TaskId) (fds : Map PolledFd) (p : Pollfd) : Except Fault (Map PolledFd) :=
  if p.fd < 0 then .ok fds
  else do
    check (fdKey p.fd != noTask) .tidmapNoTask
    let (item, fds) := findOrInit polledNew (fdKey p.fd) fds
    .ok (fds.replace (fdKey p.fd) {
      events := item.events ||| p.events
      waiters := Tidset.empty.insert tid
      counts := addEvents 1 p.events item.counts })

def pollTimeouts (tid : TaskId) (timeout : Int) (clock : Timespec) (timeouts : Map Timespec) :
    Except Fault (Map Timespec) :=
  if timeout = 0 ∨ timeout = -1 then .ok timeouts
  else handlerTimeoutRegister tid (pollDeadline timeout clock) timeouts

def pollWait (tid : TaskId) (args : PollArgs) (clock : Timespec) (st : PollState) :
    Except Fault PollState := do
  check (tid != noTask) .tidmapNoTask
  check (st.polls.lookup tid).isNone .mapRegistered
  let timeouts ← pollTimeouts tid args.timeout clock st.timeouts
  let entries := args.fds.map clearEntry
  let fds ← entries.foldlM (watch tid) st.fds
  .ok { st with polls := st.polls.insert tid { args with fds := entries }, fds, timeouts }

def deliverEntry (fd : Int32) (revents : BitVec 16) (p : Pollfd) : Pollfd :=
  if p.fd = fd then { p with revents := p.revents ||| (p.events &&& revents) } else p

def deliver (fd : Int32) (revents : BitVec 16) (args : PollArgs) : PollArgs :=
  let entries := args.fds.map (deliverEntry fd revents)
  { args with
    fds := entries
    ret := args.ret + entries.countP fun p => p.fd == fd && p.revents != 0 }

def deliverTo (fd : Int32) (revents : BitVec 16) (polls : Map PollArgs) (tid : TaskId) :
    Except Fault (Map PollArgs) := do
  check (tid != noTask) .tidmapNoTask
  match polls.lookup tid with
  | none => .error .pollNoTask
  | some args => .ok (polls.replace tid (deliver fd revents args))

/-- The body of the loop of `_propagate_events`, on the waiters and the number of events left. -/
def propagate (fds : Map PolledFd) (acc : Map PollArgs × Int) (result : Int32 × BitVec 16) :
    Except Fault (Map PollArgs × Int) :=
  if result.2 = 0 then .ok acc
  else do
    check (fdKey result.1 != noTask) .tidmapNoTask
    match fds.lookup (fdKey result.1) with
    | none => .error .pollUnknownFd
    | some item => do
        let polls ← item.waiters.tasks.foldlM (deliverTo result.1 result.2) acc.1
        .ok (polls, acc.2 - 1)

def propagateEvents (results : List (Int32 × BitVec 16)) (nevents : Int) (st : PollState) :
    Except Fault PollState := do
  let (polls, left) ← results.foldlM (propagate st.fds) (st.polls, nevents)
  check (left == 0) .pollCount
  .ok { st with polls }

/-- `sys_poll`: the number of events and the masks, for an array of fds with their masks. -/
abbrev SysPoll := List (Int32 × BitVec 16) → Int × List (BitVec 16)

def pollArray (fds : Map PolledFd) : List (Int32 × BitVec 16) :=
  fds.entries.map fun it => (fdOf it.1, it.2.events)

def pollFds (sysPoll : SysPoll) (st : PollState) : Except Fault PollState :=
  if st.fds.keys.length = 0 then .ok st
  else
    let result := sysPoll (pollArray st.fds)
    if result.1 = 0 then .ok st
    else propagateEvents (((pollArray st.fds).map Prod.fst).zip result.2) result.1 st

/-- The body of the loop of `_cleanup_poll`, which does not skip negative fds. -/
def unwatch (id : TaskId) (fds : Map PolledFd) (p : Pollfd) : Except Fault (Map PolledFd) := do
  check (fdKey p.fd != noTask) .tidmapNoTask
  match fds.lookup (fdKey p.fd) with
  | none => .error .pollUnknownFd
  | some item => .ok (fds.replace (fdKey p.fd) { item with
      counts := addEvents (-1) p.events item.counts, waiters := item.waiters.remove id })

def cleanupPoll (id : TaskId) (args : PollArgs) (st : PollState) : Except Fault PollState := do
  let fds ← args.fds.foldlM (unwatch id) st.fds
  .ok { st with fds }

def cleanupEntry (st : PollState) (it : Sigma fun _ : UInt64 => PollArgs) :
    Except Fault PollState :=
  if it.2.ret = 0 ∧ 0 < it.2.fds.length ∧ it.2.timeout ≠ 0 then .ok st
  else do
    let st ← cleanupPoll it.1 it.2 st
    let timeouts ← handlerTimeoutDeregister it.1 st.timeouts
    .ok { st with timeouts, polls := st.polls.erase it.1 }

/-- `_cleanup_polls`. The next waiter is read before the current one is deregistered. -/
def cleanupPolls (st : PollState) : Except Fault PollState :=
  st.polls.entries.foldlM cleanupEntry st

def unpolled (item : PolledFd) : Bool := (List.finRange 16).all fun bit => item.counts bit == 0

def cleanupFd (fds : Map PolledFd) (it : Sigma fun _ : UInt64 => PolledFd) :
    Except Fault (Map PolledFd) :=
  if unpolled it.2 then do
    check (it.2.waiters.size == 0) .pollWaiters
    .ok (fds.erase it.1)
  else .ok fds

def cleanupFds (st : PollState) : Except Fault PollState := do
  let fds ← st.fds.entries.foldlM cleanupFd st.fds
  .ok { st with fds }

def pollTrigger (id : TaskId) (st : PollState) : Except Fault PollState := do
  check (id != noTask) .tidmapNoTask
  match st.polls.lookup id with
  | none => .ok st
  | some args => do
      let st ← cleanupPoll id args st
      .ok { st with polls := st.polls.erase id }

def pollHelpInterval : Nat := 8

def pollShouldWait : Nat := 5

/-- The cleanup that `_poll_help_waiters` starts with. Nothing asks for it. -/
def cleanupRequested (st : PollState) : Except Fault PollState :=
  if st.shouldCleanup then cleanupFds { st with shouldCleanup := false } else .ok st

def pollAtInterval (sysPoll : SysPoll) (st : PollState) : Except Fault PollState :=
  if st.helpCounter % pollHelpInterval = 0 then pollFds sysPoll st else .ok st

def helpWaiters (sysPoll : SysPoll) (st : PollState) : Except Fault PollState := do
  let st ← cleanupRequested st
  let st ← pollAtInterval sysPoll { st with helpCounter := st.helpCounter + 1 }
  let st ← cleanupPolls st
  cleanupFds st

def pollFilter (id : TaskId) (e : Decision) (st : PollState) : Except Fault Decision := do
  check (!e.tset.has noTask) .tidmapNoTask
  let e := { e with tset := e.tset.filter fun task => (st.polls.lookup task).isNone }
  check (id != noTask) .tidmapNoTask
  if (st.polls.lookup id).isSome then do
    check (e.anyTaskFilter == none) .pollFilter
    .ok { e with isChpt := true, anyTaskFilter := some pollShouldWait }
  else .ok e

def pollRegisterWaiter (cp : PollCapture) (clock : Timespec) (st : PollState) :
    Except Fault PollState :=
  match cp.event with
  | .poll args => pollWait cp.id args clock st
  | .other => .ok st

def pollHandle (cp : PollCapture) (clock : Timespec) (sysPoll : SysPoll) (e : Decision)
    (st : PollState) : Except Fault (Decision × PollState) := do
  let st ← pollRegisterWaiter cp clock st
  let st ← helpWaiters sysPoll st
  let e ← pollFilter cp.id e st
  .ok (e, st)

end Lotto
