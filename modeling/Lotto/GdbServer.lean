import Lotto.Library.FaultRun
import Lotto.Base
import Lotto.RspUtil

namespace Lotto.Gdb

open RspUtil

def gdbMaxPacketLength : Nat := 16384

section Breaks

/-- `gdb_wp_type_t`. -/
inductive WpType where
  | none | write | read | access
  deriving DecidableEq, Repr

structure EventWp where
  size : UInt64
  type : WpType
  deriving DecidableEq, Repr

/-- `struct gdb_break` without the breakpoints at a clock, which monitor commands set; the
items of `event_bp_t` have no more than their key. -/
structure GdbBreak where
  breakpoints : Map Unit
  watchpoints : Map EventWp
  deriving DecidableEq

def gdbAddBreakpoint (pc : UInt64) (b : GdbBreak) : GdbBreak :=
  match b.breakpoints.lookup pc with
  | some _ => b
  | none => { b with breakpoints := b.breakpoints.insert pc () }

def gdbDelBreakpoint (pc : UInt64) (b : GdbBreak) : GdbBreak :=
  match b.breakpoints.lookup pc with
  | none => b
  | some _ => { b with breakpoints := b.breakpoints.erase pc }

def gdbHasBreakpoint (pc : UInt64) (b : GdbBreak) : Bool := (b.breakpoints.lookup pc).isSome

def gdbAddWatchpoint (addr size : UInt64) (type : WpType) (b : GdbBreak) : GdbBreak :=
  match b.watchpoints.lookup addr with
  | some _ => b
  | none => { b with watchpoints := b.watchpoints.insert addr { size, type } }

def gdbDelWatchpoint (addr _size : UInt64) (_type : WpType) (b : GdbBreak) : GdbBreak :=
  match b.watchpoints.lookup addr with
  | none => b
  | some _ => { b with watchpoints := b.watchpoints.erase addr }

def watches (addr : UInt64) (isWrite : Bool) (key : UInt64) (wp : EventWp) : Bool :=
  decide (key ≤ addr) && decide (addr < key + wp.size) &&
    (wp.type == .access || wp.type == .write && isWrite || wp.type == .read && !isWrite)

end Breaks

section Sending

def plus : UInt8 := 0x2B

end Sending

section Messages

def comma : UInt8 := 0x2C

def digitZero : UInt8 := 0x30

def insertCmd : UInt8 := 0x5A

def removeCmd : UInt8 := 0x7A

end Messages

end Lotto.Gdb
