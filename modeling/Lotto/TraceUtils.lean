import Lotto.ChunkedSpecs

namespace Lotto

open ChunkedSpecs

structure TraceImpl (σ : Type) where
  append : σ → TraceRecord → Except Fault σ
  next : UInt32 → σ → Except Fault (Option TraceRecord × σ)
  advance : σ → Except Fault σ
  last : σ → Except Fault (Option TraceRecord × σ)
  forget : σ → Except Fault σ
  fuel : σ → Nat

def flatImpl : TraceImpl FlatTrace where
  append t r := .ok (flatAppend t r)
  next filter t := .ok (flatNext filter t)
  advance t := .ok (flatAdvance t)
  last t := .ok (flatLast t, t)
  forget t := .ok (flatForget t)
  fuel t := t.length + 1

def chunkedImpl : TraceImpl ChunkedTrace where
  append := chunkedAppend
  next := chunkedNext
  advance := chunkedAdvance
  last := chunkedLast
  forget := chunkedForget
  fuel t := chunkedFuel t + 1

namespace TraceUtils

variable {σ : Type} (impl : TraceImpl σ)

/-- The loops that forget the last record while it meets a condition. The last record that is left is
returned as well. -/
def trimLoop (drops : TraceRecord → Bool) : Nat → σ → Except Fault (Option TraceRecord × σ)
  | 0, _ => .error .traceFuel
  | fuel + 1, t => do
      let (record, t) ← impl.last t
      match record with
      | none => .ok (none, t)
      | some r =>
          if drops r then do
            let t ← impl.forget t
            trimLoop drops fuel t
          else .ok (some r, t)

def trim (drops : TraceRecord → Bool) (t : σ) : Except Fault (Option TraceRecord × σ) :=
  trimLoop impl drops (impl.fuel t) t

/-- `record_alloc(0)` with the kind and the clock that `_truncate_trace` sets. -/
def opaqueRecord (clk : UInt64) : TraceRecord :=
  { next := 0, id := 0, clk, chainId := 0, typeId := 0, reason := 0, kind := Kind.recordOpaque.bits
    pc := 0, data := [], sized := nil_sized }

def nextLoop : Nat → UInt64 → σ → Except Fault UInt64
  | 0, _, _ => .error .traceFuel
  | fuel + 1, ans, t => do
      let (record, t) ← impl.last t
      match record with
      | none => .ok ans
      | some r =>
          if ans < r.clk then do
            let t ← impl.forget t
            nextLoop fuel r.clk t
          else .ok ans

def nextClock (load : Except Fault σ) (clk : UInt64) : Except Fault UInt64 := do
  let t ← load
  nextLoop impl (impl.fuel t) clk t

def previousLoop (clk : UInt64) : Nat → UInt64 → σ → Except Fault UInt64
  | 0, _, _ => .error .traceFuel
  | fuel + 1, ans, t => do
      let (record, t) ← impl.next recordAny t
      match record with
      | none => .ok ans
      | some r =>
          if r.clk < clk then do
            let t ← impl.advance t
            previousLoop clk fuel r.clk t
          else .ok ans

def previousClock (load : Except Fault σ) (clk : UInt64) : Except Fault UInt64 := do
  let t ← load
  let (_, t') ← impl.next Kind.recordStart.bits t
  previousLoop impl clk (impl.fuel t) clk t'

end TraceUtils

section Files

/-- `stream_chunked_copy_chunks` from the chunk `first` on, into another directory. -/
def copyChunks (source : List (List UInt8)) (first : Nat) : Nat → List (List UInt8) → List (List UInt8)
  | 0, sink => sink
  | count + 1, sink => copyChunks source (first + 1) count (putChunk sink first (source.getD first []))

/-- `_save_to` of the chunked trace. The sink is the directory of the trace itself, or another one with
the chunks that are in it, into which the files are copied as they are. -/
def chunkedSaveTo (disk : List UInt8 → List UInt8) (t : ChunkedTrace) (sink : Option (List (List UInt8))) :
    Except Fault (ChunkedTrace × List (List UInt8)) := do
  let t ← chunkedSave t
  match sink with
  | none => .ok (t, t.stream.chunks.take t.nchunks)
  | some chunks => do
      check (t.nchunks == 0 || decide (t.nchunks - 1 < t.stream.total)) .chunksMissing
      .ok (t, (copyChunks (streamFiles disk t.stream) 0 t.nchunks chunks).take t.nchunks)

/-- `cli_trace_load` of a directory with the given chunks. -/
def chunkedLoadFrom (chunkSize : Nat) (chunks : List (List UInt8)) : Except Fault ChunkedTrace := do
  let t ← chunkedCreate (streamOpen chunks) chunkSize
  chunkedLoad t

end Files

end Lotto
