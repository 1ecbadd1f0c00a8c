import Lotto.GdbServer
import Lotto.Library.KeyMap
import Lotto.RspHex
import Lotto.RspPackets

namespace Lotto.Gdb

open Library.FaultRun Library.KeyMap RspUtil RspPackets RspHex

section Queue

variable {s : GdbSend} {pending rest : List Packet} {fd : Int} {pkt : List UInt8}

end Queue

section Commands

inductive BreakKind where
  | software | hardware | write | read | access
  deriving DecidableEq, Repr

def BreakKind.digit : BreakKind → UInt8
  | .software => digitZero
  | .hardware => digitZero + 1
  | .write => digitZero + 2
  | .read => digitZero + 3
  | .access => digitZero + 4

structure BreakOp where
  insert : Bool
  kind : BreakKind
  addr : UInt64
  size : UInt64
  deriving DecidableEq, Repr

def BreakOp.message (op : BreakOp) : List UInt8 :=
  (if op.insert then insertCmd else removeCmd) :: op.kind.digit :: comma ::
    (hexString op.addr ++ comma :: hexString op.size)

def BreakOp.apply (op : BreakOp) (b : GdbBreak) : GdbBreak :=
  match op.kind, op.insert with
  | .software, true | .hardware, true => gdbAddBreakpoint op.addr b
  | .software, false | .hardware, false => gdbDelBreakpoint op.addr b
  | .write, true => gdbAddWatchpoint op.addr op.size .write b
  | .read, true => gdbAddWatchpoint op.addr op.size .read b
  | .access, true => gdbAddWatchpoint op.addr op.size .access b
  | .write, false => gdbDelWatchpoint op.addr op.size .write b
  | .read, false => gdbDelWatchpoint op.addr op.size .read b
  | .access, false => gdbDelWatchpoint op.addr op.size .access b

variable {op : BreakOp} {c : UInt8} {calls : GdbCalls} {fd : Int}

end Commands

section Sessions

variable {calls : GdbCalls} {fd : Int} {s : GdbServer} {pending : List Packet}

/-- What arrives at once: acknowledgements (`+`) and requests to send again (`-`), a command and
some bytes behind it. -/
structure Chunk where
  signs : List Bool
  op : BreakOp
  rest : List UInt8
  deriving DecidableEq, Repr

def sign (good : Bool) : UInt8 := if good then plus else minus

def Chunk.bytes (c : Chunk) : List UInt8 := c.signs.map sign ++ (packet c.op.message ++ c.rest)

/-- Whether a breakpoint is set after some commands: the last one for it decides. -/
def pointAfter (ops : List BreakOp) (pc : UInt64) : Bool :=
  ops.foldl (fun present op =>
    match op.kind with
    | .software | .hardware => if op.addr = pc then op.insert else present
    | _ => present) false

def BreakKind.type : BreakKind → WpType
  | .write => .write
  | .read => .read
  | .access => .access
  | _ => .none

/-- The watchpoint at an address after some commands: the first one that is set stays, and every
removal at the address takes it away, whatever its kind. -/
def watchAfter (ops : List BreakOp) (addr : UInt64) : Option EventWp :=
  ops.foldl (fun present op =>
    match op.kind with
    | .software | .hardware => present
    | kind =>
        if op.addr = addr then
          if op.insert then some (present.getD { size := op.size, type := kind.type }) else none
        else present) none

structure Agrees (ops : List BreakOp) (b : GdbBreak) : Prop where
  points : ∀ pc, gdbHasBreakpoint pc b = pointAfter ops pc
  watches : ∀ addr, b.watchpoints.lookup addr = watchAfter ops addr

variable {ops : List BreakOp} {b : GdbBreak}

theorem hasBreakpoint_add (addr pc : UInt64) :
    gdbHasBreakpoint pc (gdbAddBreakpoint addr b) = if addr = pc then true else gdbHasBreakpoint pc b := by
  simp only [gdbHasBreakpoint, gdbAddBreakpoint]
  split
  · rename_i found
    by_cases same : addr = pc
    · subst same
      simp [found]
    · simp [same]
  · by_cases same : addr = pc
    · subst same
      simp
    · rw [AList.lookup_insert_ne (Ne.symm same), if_neg same]

theorem hasBreakpoint_del (addr pc : UInt64) :
    gdbHasBreakpoint pc (gdbDelBreakpoint addr b) = if addr = pc then false else gdbHasBreakpoint pc b := by
  simp only [gdbHasBreakpoint, gdbDelBreakpoint]
  split
  · rename_i none
    by_cases same : addr = pc
    · subst same
      simp [none]
    · simp [same]
  · by_cases same : addr = pc
    · subst same
      simp
    · rw [AList.lookup_erase_ne (Ne.symm same), if_neg same]

theorem watchpoints_add (addr size : UInt64) (type : WpType) (key : UInt64) :
    (gdbAddWatchpoint addr size type b).watchpoints.lookup key =
      if addr = key then some ((b.watchpoints.lookup key).getD { size, type })
      else b.watchpoints.lookup key := by
  unfold gdbAddWatchpoint
  split
  · rename_i found
    by_cases same : addr = key
    · subst same
      simp [found]
    · simp [same]
  · rename_i none
    by_cases same : addr = key
    · subst same
      simp [none]
    · rw [AList.lookup_insert_ne (Ne.symm same), if_neg same]

theorem watchpoints_del (addr size : UInt64) (type : WpType) (key : UInt64) :
    (gdbDelWatchpoint addr size type b).watchpoints.lookup key =
      if addr = key then none else b.watchpoints.lookup key := by
  unfold gdbDelWatchpoint
  split
  · rename_i none
    by_cases same : addr = key
    · subst same
      simp [none]
    · simp [same]
  · by_cases same : addr = key
    · subst same
      simp
    · rw [AList.lookup_erase_ne (Ne.symm same), if_neg same]

@[simp] theorem watchpoints_addBreakpoint (pc : UInt64) :
    (gdbAddBreakpoint pc b).watchpoints = b.watchpoints := by
  unfold gdbAddBreakpoint
  split <;> rfl

@[simp] theorem watchpoints_delBreakpoint (pc : UInt64) :
    (gdbDelBreakpoint pc b).watchpoints = b.watchpoints := by
  unfold gdbDelBreakpoint
  split <;> rfl

@[simp] theorem hasBreakpoint_addWatchpoint (addr size : UInt64) (type : WpType) (pc : UInt64) :
    gdbHasBreakpoint pc (gdbAddWatchpoint addr size type b) = gdbHasBreakpoint pc b := by
  unfold gdbAddWatchpoint
  split <;> rfl

@[simp] theorem hasBreakpoint_delWatchpoint (addr size : UInt64) (type : WpType) (pc : UInt64) :
    gdbHasBreakpoint pc (gdbDelWatchpoint addr size type b) = gdbHasBreakpoint pc b := by
  unfold gdbDelWatchpoint
  split <;> rfl

theorem Agrees.apply (agrees : Agrees ops b) (op : BreakOp) : Agrees (ops ++ [op]) (op.apply b) where
  points := by
    intro pc
    rw [pointAfter, List.foldl_append, ← pointAfter, ← agrees.points pc]
    simp only [BreakOp.apply, List.foldl_cons, List.foldl_nil]
    cases op.kind <;> cases op.insert <;> simp [hasBreakpoint_add, hasBreakpoint_del]
  watches := by
    intro addr
    rw [watchAfter, List.foldl_append, ← watchAfter, ← agrees.watches addr]
    simp only [BreakOp.apply, List.foldl_cons, List.foldl_nil]
    cases op.kind <;> cases op.insert <;>
      simp [watchpoints_add, watchpoints_del, BreakKind.type]

/-- The chunks of a session that a client sends: each fits into the buffer, and nothing is requested
again before there was a reply. -/
def Proper (chunks : List Chunk) : Prop :=
  (∀ c ∈ chunks, c.bytes.length < gdbMaxPacketLength) ∧ ∀ c, chunks.head? = some c → false ∉ c.signs

end Sessions

end Lotto.Gdb
