import Mathlib.Data.Prod.Lex
import Mathlib.Order.Lattice
import Lotto.Base
import Lotto.Tidset

namespace Lotto

@[ext] structure Timespec where
  tvSec : Int
  tvNsec : Int
  deriving DecidableEq, Repr

def timespecCompare (ts1 ts2 : Timespec) : Int :=
  if ts1.tvSec < ts2.tvSec then -1
  else if ts1.tvSec > ts2.tvSec then 1
  else if ts1.tvNsec < ts2.tvNsec then -1
  else if ts1.tvNsec > ts2.tvNsec then 1
  else 0

def lottoClockLeap (ts now : Timespec) : Except Fault Timespec :=
  if timespecCompare ts now = 0 then .ok now
  else do
    check (0 < timespecCompare ts now) .clockBackwards
    .ok ts

/-- What the handler works on: the deadlines of `_state`, the clock, the task set of the event and
the tasks `EVENT_TIMEOUT_TRIGGER` has been published for. -/
structure TimeoutState where
  timeouts : Map Timespec
  clock : Timespec
  tset : Tidset
  triggered : List TaskId
  deriving DecidableEq

def triggerTimeout (id : TaskId) (st : TimeoutState) : TimeoutState :=
  { st with triggered := st.triggered ++ [id], tset := st.tset.insert id }

def deregisterTimeout (id : TaskId) (st : TimeoutState) : TimeoutState :=
  { st with timeouts := st.timeouts.erase id }

/-- `_check_deadlines`. The next item is read before the current one is deregistered. -/
def checkDeadlines (st : TimeoutState) : TimeoutState :=
  st.timeouts.entries.foldl (fun st' it =>
    if 0 < timespecCompare it.2 st.clock then st'
    else deregisterTimeout it.1 (triggerTimeout it.1 st')) st

structure MinTimeout where
  key : TaskId
  deadline : Timespec
  multiple : Bool
  deriving DecidableEq, Repr

def int32Max : Timespec := { tvSec := 2147483647, tvNsec := 0 }

def minStart : MinTimeout := { key := noTask, deadline := int32Max, multiple := false }

def minStep (least : MinTimeout) (it : Sigma fun _ : UInt64 => Timespec) : MinTimeout :=
  let cmp := timespecCompare it.2 least.deadline
  if 0 < cmp then least
  else { key := it.1, deadline := it.2, multiple := least.key != noTask && cmp == 0 }

def timeLeap (st : TimeoutState) : Except Fault TimeoutState := do
  let least := st.timeouts.entries.foldl minStep minStart
  check (least.key != noTask) .timeoutNoTask
  let clock ← lottoClockLeap least.deadline st.clock
  let st := { st with clock }
  if least.multiple then .ok (checkDeadlines st)
  else .ok (deregisterTimeout least.key (triggerTimeout least.key st))

def timeoutHandle (st : TimeoutState) : Except Fault TimeoutState :=
  if st.timeouts.keys.length = 0 then .ok st
  else
    let st := checkDeadlines st
    if 0 < st.tset.size then .ok st else timeLeap st

def handlerTimeoutRegister (id : TaskId) (deadline : Timespec) (timeouts : Map Timespec) :
    Except Fault (Map Timespec) := do
  check (id != noTask) .tidmapNoTask
  let (_, timeouts) := findOrInit deadline id timeouts
  .ok (timeouts.replace id deadline)

def handlerTimeoutDeregister (id : TaskId) (timeouts : Map Timespec) :
    Except Fault (Map Timespec) := do
  check (id != noTask) .tidmapNoTask
  .ok (timeouts.erase id)

namespace Timespec

def key (ts : Timespec) : Int ×ₗ Int := toLex (ts.tvSec, ts.tvNsec)

theorem key_injective : Function.Injective key := by
  intro a b same
  have pair : (a.tvSec, a.tvNsec) = (b.tvSec, b.tvNsec) := toLex.injective same
  rw [Prod.mk.injEq] at pair
  exact Timespec.ext pair.1 pair.2

instance : LinearOrder Timespec := LinearOrder.lift' key key_injective

theorem lt_iff {a b : Timespec} :
    a < b ↔ a.tvSec < b.tvSec ∨ a.tvSec = b.tvSec ∧ a.tvNsec < b.tvNsec :=
  Prod.Lex.toLex_lt_toLex

end Timespec

theorem timespecCompare_pos {a b : Timespec} : 0 < timespecCompare a b ↔ b < a := by
  rw [Timespec.lt_iff, timespecCompare]
  split_ifs <;> omega

theorem timespecCompare_eq_zero {a b : Timespec} : timespecCompare a b = 0 ↔ a = b := by
  rw [Timespec.ext_iff, timespecCompare]
  split_ifs <;> simp only [Int.reduceEq, false_iff, true_iff] <;> omega

end Lotto
