import Lotto.Library.ByteCodec
import Lotto.Base

namespace Lotto

open Library.ByteCodec

structure TraceRecord where
  next : UInt64
  id : TaskId
  clk : UInt64
  chainId : UInt16
  typeId : UInt16
  reason : UInt32
  kind : UInt32
  pc : UInt64
  data : List UInt8
  sized : data.length < UInt64.size
  deriving DecidableEq, Repr

/-- The record without the link of the trace that holds it. -/
def TraceRecord.content (r : TraceRecord) : TraceRecord := { r with next := 0 }

/-- `sizeof(record_t)`. -/
def recordSize : Nat := 56

def recordHeader (r : TraceRecord) : List UInt8 :=
  bytesLE 8 r.next.toNat ++ bytesLE 8 r.id.toNat ++ bytesLE 8 r.clk.toNat ++
    bytesLE 2 r.chainId.toNat ++ bytesLE 2 r.typeId.toNat ++ bytesLE 4 r.reason.toNat ++
    bytesLE 4 r.kind.toNat ++ bytesLE 4 0 ++ bytesLE 8 r.data.length ++ bytesLE 8 r.pc.toNat

/-- The `sizeof(record_t) + record->size` bytes that the traces write. -/
def recordBytes (r : TraceRecord) : List UInt8 := recordHeader r ++ r.data

def encode (records : List TraceRecord) : List UInt8 := records.flatMap recordBytes

theorem nil_sized : ([] : List UInt8).length < UInt64.size := by
  decide

def plainRecord (kind : UInt32) (clk : UInt64) : TraceRecord :=
  { next := 0, id := 1, clk, chainId := 0, typeId := 0, reason := 0, kind, pc := 0, data := []
    sized := nil_sized }

def readFields (header : List UInt8) : Option (TraceRecord × UInt64) := do
  let (next, header) ← takeLE 8 header
  let (id, header) ← takeLE 8 header
  let (clk, header) ← takeLE 8 header
  let (chainId, header) ← takeLE 2 header
  let (typeId, header) ← takeLE 2 header
  let (reason, header) ← takeLE 4 header
  let (kind, header) ← takeLE 4 header
  let (_, header) ← takeLE 4 header
  let (size, header) ← takeLE 8 header
  let (pc, _) ← takeLE 8 header
  some ({ next := .ofNat next, id := .ofNat id, clk := .ofNat clk, chainId := .ofNat chainId
          typeId := .ofNat typeId, reason := .ofNat reason, kind := .ofNat kind, pc := .ofNat pc
          data := [], sized := nil_sized }, .ofNat size)

/-- Reads the header and the payload of a record from a stream with `unread` bytes left, or finds
how many bytes were left instead of a header. -/
def readRecord (unread : List UInt8) : Except Fault ((Nat ⊕ TraceRecord) × List UInt8) :=
  let header := unread.take recordSize
  let unread := unread.drop recordSize
  match readFields header with
  | none => .ok (.inl header.length, unread)
  | some (fields, size) =>
      let data := unread.take size.toNat
      if full : data.length = size.toNat then
        .ok (.inr { fields with data, sized := full ▸ size.toNat_lt_size }, unread.drop size.toNat)
      else .error .tracePayload

def TraceRecord.matches (filter : UInt32) (r : TraceRecord) : Bool := r.kind &&& filter != 0

abbrev FlatTrace := List TraceRecord

def flatAppend (t : FlatTrace) (r : TraceRecord) : FlatTrace := t ++ [r]

def flatAdvance (t : FlatTrace) : FlatTrace := t.tail

def flatNext (filter : UInt32) : FlatTrace → Option TraceRecord × FlatTrace
  | [] => (none, [])
  | r :: t => if r.matches filter then (some r, r :: t) else flatNext filter t

def flatLast (t : FlatTrace) : Option TraceRecord := t.getLast?

def flatForget (t : FlatTrace) : FlatTrace := t.dropLast

def flatSaveTo (t : FlatTrace) : List UInt8 := encode t

/-- The loop of `_load` of the flat trace, with the bytes left as fuel. -/
def flatLoadLoop : Nat → FlatTrace → List UInt8 → Except Fault FlatTrace
  | 0, _, _ => .error .traceFuel
  | fuel + 1, t, unread => do
      let (found, unread) ← readRecord unread
      match found with
      | .inl count => do
          check (count == 0) .tracePending
          .ok t
      | .inr r => flatLoadLoop fuel (flatAppend t r) unread

/-- `_load` of a new flat trace over a stream with the given bytes. -/
def flatLoad (bytes : List UInt8) : Except Fault FlatTrace := flatLoadLoop (bytes.length + 1) [] bytes

structure FileTrace where
  cur : Option TraceRecord
  bytes : List UInt8
  unread : List UInt8
  deriving DecidableEq, Repr

def fileCreate (bytes : List UInt8) : FileTrace := { cur := none, bytes, unread := bytes }

def fileAppend (bytes : List UInt8) (r : TraceRecord) : List UInt8 := bytes ++ recordBytes r

def fileAdvance (t : FileTrace) : FileTrace := { t with cur := none }

def fileScan (filter : UInt32) : Nat → List UInt8 → Except Fault (Option TraceRecord × List UInt8)
  | 0, _ => .error .traceFuel
  | fuel + 1, unread => do
      let (found, unread) ← readRecord unread
      match found with
      | .inl _ => .ok (none, unread)
      | .inr r => if r.matches filter then .ok (some r, unread) else fileScan filter fuel unread

def fileGetNext (filter : UInt32) (t : FileTrace) : Except Fault (Option TraceRecord × FileTrace) :=
  match t.cur.filter (TraceRecord.matches filter) with
  | some r => .ok (some r, t)
  | none => do
      let (found, unread) ← fileScan filter (t.unread.length + 1) t.unread
      .ok (found, { t with unread })

def fileNext (filter : UInt32) (t : FileTrace) : Except Fault (Option TraceRecord × FileTrace) := do
  let (found, t) ← fileGetNext filter t
  .ok (found, { t with cur := found })

def fileLastLoop : Nat → Option TraceRecord → FileTrace → Except Fault (Option TraceRecord × FileTrace)
  | 0, _, _ => .error .traceFuel
  | fuel + 1, result, t => do
      let (found, t) ← fileGetNext recordAny t
      match found with
      | none => .ok (result, t)
      | some r => fileLastLoop fuel (some r) t

def fileLast (t : FileTrace) : Except Fault (Option TraceRecord × FileTrace) := do
  let t := { t with unread := t.bytes, cur := none }
  let (result, t) ← fileLastLoop (t.unread.length + 1) none t
  .ok (result, { t with cur := result })

/-- The loop of `_save_to` of the file trace, with the bytes written so far. -/
def fileSaveLoop : Nat → List UInt8 → FileTrace → Except Fault (List UInt8 × FileTrace)
  | 0, _, _ => .error .traceFuel
  | fuel + 1, written, t => do
      let (found, t) ← fileNext recordAny t
      match found with
      | none => .ok (written, t)
      | some r => fileSaveLoop fuel (written ++ recordBytes r) (fileAdvance t)

def fileSaveTo (t : FileTrace) : Except Fault (List UInt8 × FileTrace) :=
  fileSaveLoop (t.unread.length + 1) [] (fileAdvance t)

end Lotto
