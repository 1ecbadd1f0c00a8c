import Lotto.Library.ByteCodec
import Lotto.Base

namespace Lotto

open Library.ByteCodec

def canary : Nat := 0xbadfeed

def maxSlots : Nat := 1024

/-- The functions of a `marshable_t`. `size` may be NULL, and `unmarshal` fails when it would
read past the end of the memory. -/
structure Marshable (V : Type) where
  size : Option (V → Nat)
  marshal : V → List UInt8
  unmarshal : V → List UInt8 → Option (V × List UInt8)

/-- `MARSHABLE_STATIC`: the struct is copied byte by byte. `stamp` stands for its leading
`marshable_t`, pointers included, which is written but never read back; the value is the `n`
bytes behind it. -/
def marshableStatic (stamp : List UInt8) (n : Nat) : Marshable (List UInt8) where
  size := some fun _ => stamp.length + n
  marshal := fun payload => stamp ++ payload
  unmarshal := fun _ buf =>
    if stamp.length + n ≤ buf.length then
      some ((buf.drop stamp.length).take n, buf.drop (stamp.length + n))
    else none

structure Node (V : Type) where
  m : Marshable V
  value : V

structure Entry (V : Type) where
  chain : List (Node V)
  slot : Fin maxSlots

/-- `statemgr_t`: the entries in registration order. -/
abbrev StateGroup (V : Type) := List (Entry V)

variable {V : Type}

def statemgrRegister (slot : Fin maxSlots) (node : Node V) : StateGroup V → StateGroup V
  | [] => [{ chain := [node], slot }]
  | entry :: entries =>
      if entry.slot = slot then { entry with chain := entry.chain ++ [node] } :: entries
      else entry :: statemgrRegister slot node entries

def marshableSize : List (Node V) → Except Fault Nat
  | [] => .ok 0
  | node :: next =>
      match node.m.size with
      | none => .error .marshableNoSize
      | some size => do
          let rest ← marshableSize next
          .ok (size node.value + rest)

def marshableMarshal (chain : List (Node V)) : List UInt8 :=
  chain.flatMap fun node => node.m.marshal node.value

def marshableUnmarshal : List (Node V) → List UInt8 → Except Fault (List (Node V) × List UInt8)
  | [], buf => .ok ([], buf)
  | node :: next, buf =>
      match node.m.unmarshal node.value buf with
      | none => .error .unmarshalOutOfBounds
      | some (value, buf) => do
          let (next, buf) ← marshableUnmarshal next buf
          .ok ({ node with value } :: next, buf)

structure Header where
  index : Nat
  size : Nat
  empty : Bool
  slot : Nat
  deriving DecidableEq, Repr

def headerSize : Nat := 32

/-- `_header_marshal`: the canary, two size_t fields, a bool with its padding and an int. -/
def headerMarshal (h : Header) : List UInt8 :=
  bytesLE 8 canary ++ bytesLE 8 h.index ++ bytesLE 8 h.size ++ bytesLE 1 h.empty.toNat ++
    bytesLE 3 0 ++ bytesLE 4 h.slot

def headerFields (buf : List UInt8) : Option (Nat × Header) := do
  let (found, buf) ← takeLE 8 buf
  let (index, buf) ← takeLE 8 buf
  let (size, buf) ← takeLE 8 buf
  let (empty, buf) ← takeLE 1 buf
  let (_, buf) ← takeLE 3 buf
  let (slot, _) ← takeLE 4 buf
  some (found, { index, size, empty := empty != 0, slot })

def headerUnmarshal (buf : List UInt8) : Except Fault Header :=
  match headerFields buf with
  | none => .error .headerOutOfBounds
  | some (found, h) => do
      check (found == canary) .deadCanary
      .ok h

def addHeader (buf : List UInt8) : List UInt8 := buf.drop headerSize

/-- An entry that takes part in marshaling: not NULL and with a size function. -/
def isMarshaled (entry : Entry V) : Bool :=
  match entry.chain with
  | [] => false
  | node :: _ => node.m.size.isSome

def statemgrSize : StateGroup V → Except Fault Nat
  | [] => .ok 0
  | entry :: entries =>
      if isMarshaled entry then do
        let size ← marshableSize entry.chain
        let rest ← statemgrSize entries
        .ok (size + headerSize + rest)
      else statemgrSize entries

/-- The loop of `_statemgr_marshal` from index `i` on: the bytes it writes. -/
def statemgrMarshalFrom : Nat → StateGroup V → List UInt8
  | _, [] => []
  | i, entry :: entries =>
      if isMarshaled entry then
        let payload := marshableMarshal entry.chain
        headerMarshal { index := i, size := payload.length, empty := false, slot := entry.slot } ++
          payload ++ statemgrMarshalFrom (i + 1) entries
      else statemgrMarshalFrom (i + 1) entries

def statemgrMarshal (mgr : StateGroup V) : List UInt8 := statemgrMarshalFrom 0 mgr

/-- `statemgr_marshal` of `STATE_TYPE_EMPTY`, `empties` being the structs registered for it: a
header alone, without a slot of its own. -/
def statemgrMarshalEmpty (empties : StateGroup V) : Except Fault (List UInt8) := do
  let size ← statemgrSize empties
  .ok (headerMarshal { index := 0, size, empty := true, slot := 0 })

def recordAlloc (size : Nat) : List UInt8 := List.replicate size 0

def marshalInto (data bytes : List UInt8) : Except Fault (List UInt8) := do
  check (bytes.length ≤ data.length) .marshalOverrun
  .ok (bytes ++ data.drop bytes.length)

/-- The payload of the EXIT record that `recorder_fini` writes without FINAL state: the record
was allocated for the FINAL structs `finals`, and no struct is registered as EMPTY. -/
def emptyExitPayload (finals : StateGroup V) : Except Fault (List UInt8) := do
  let size ← statemgrSize finals
  let bytes ← statemgrMarshalEmpty ([] : StateGroup V)
  marshalInto (recordAlloc size) bytes

/-- A decoder over a group: the entries, the rest of the memory and, for
`_statemgr_record_unmarshal`, the bytes up to the end of the record. `handed` logs the slots and
the payloads handed to their marshables. -/
structure Decoder (V : Type) where
  mgr : StateGroup V
  buf : List UInt8
  left : Option Nat
  handed : List (Fin maxSlots × List UInt8)

/-- The scan of the entry table at one header. Every round reads the header again; the result is
the first entry of its slot with the entries before and behind it. -/
def scanEntries (buf : List UInt8) (left : Option Nat) :
    StateGroup V → Except Fault (Option (Header × StateGroup V × Entry V × StateGroup V))
  | [] => .ok none
  | entry :: entries =>
      if left = some 0 then .ok none
      else do
        check (left.all (headerSize ≤ ·)) .recordHeaderCut
        let h ← headerUnmarshal buf
        if h.slot ≠ entry.slot then do
          let found ← scanEntries buf left entries
          .ok (found.map fun (h, before, hit, behind) => (h, entry :: before, hit, behind))
        else .ok (some (h, [], entry, entries))

def decodeHit (d : Decoder V) (h : Header) (before : StateGroup V) (hit : Entry V)
    (behind : StateGroup V) : Except Fault (Decoder V) := do
  check (!hit.chain.isEmpty) .unmarshalNotRegistered
  let payload := addHeader d.buf
  let (chain, next) ← marshableUnmarshal hit.chain payload
  let used := payload.length - next.length
  check (used == h.size) .unmarshalSize
  check (d.left.all (headerSize + used ≤ ·)) .recordOverrun
  .ok { mgr := before ++ { hit with chain } :: behind, buf := next
        left := d.left.map (· - (headerSize + used))
        handed := d.handed ++ [(hit.slot, payload.take used)] }

/-- The decoding loop. After every hit the scan restarts at the first entry; the first argument
is how many more hits the counter allows. -/
def decodeLoop : Nat → Decoder V → Except Fault (Decoder V)
  | 0, d => .ok d
  | hits + 1, d => do
      match ← scanEntries d.buf d.left d.mgr with
      | none => .ok d
      | some (h, before, hit, behind) => do
          let d ← decodeHit d h before hit behind
          decodeLoop hits d

def statemgrUnmarshal (mgr : StateGroup V) (buf : List UInt8) : Except Fault (Decoder V) :=
  decodeLoop mgr.length { mgr, buf, left := none, handed := [] }

/-- `_statemgr_record_unmarshal`. -/
def statemgrRecordUnmarshalGroup (mgr : StateGroup V) (buf : List UInt8) (size : Nat) :
    Except Fault (Decoder V) :=
  decodeLoop mgr.length { mgr, buf, left := some size, handed := [] }

end Lotto
