import Lotto.Trace

namespace Lotto

/-- A chunked stream that stores the bytes of each chunk: its position and whether the current chunk
was written to since it was opened. The first write to an opened chunk replaces its bytes. `total` is
`total_files`, which counts a chunk again whenever it is opened to be written. -/
structure ChunkStream where
  chunks : List (List UInt8)
  current : Nat
  unread : List UInt8
  writing : Bool
  total : Nat
  deriving DecidableEq, Repr

def streamOpen (chunks : List (List UInt8)) : ChunkStream :=
  { chunks, current := 0, unread := chunks.getD 0 [], writing := false, total := 0 }

def streamCreate : ChunkStream := streamOpen []

/-- `_scan_files`, which every operation but `_write` and `_next_chunk` does while `total_files` is 0. -/
def streamScan (s : ChunkStream) : ChunkStream :=
  { s with total := if s.total = 0 then s.chunks.length else s.total }

def streamWrite (s : ChunkStream) (bytes : List UInt8) : ChunkStream :=
  let kept := if s.writing then s.chunks.getD s.current [] else []
  { s with
    chunks := if s.current < s.chunks.length then s.chunks.set s.current (kept ++ bytes)
      else s.chunks ++ [kept ++ bytes]
    unread := [], writing := true
    total := if s.writing then s.total else s.total + 1 }

/-- `stream_chunked_set_chunk`; there is no such chunk if it fails. -/
def streamSetChunk (s : ChunkStream) (chunk : Nat) : Option ChunkStream :=
  (s.chunks[chunk]?).map fun bytes =>
    { streamScan s with current := chunk, unread := bytes, writing := false }

/-- `stream_chunked_next_chunk`, which does not fail. Nothing is read until a chunk is set. -/
def streamNextChunk (s : ChunkStream) : ChunkStream :=
  { s with current := s.current + 1, unread := [], writing := false }

/-- `stream_chunked_truncate` leaves the current file open where there are not more files. -/
def streamTruncate (s : ChunkStream) (limit : Nat) : ChunkStream :=
  let s := streamScan s
  if s.total ≤ limit then s
  else { chunks := s.chunks.take limit, current := limit - 1, unread := [], writing := false, total := limit }

def streamReopen (s : ChunkStream) : ChunkStream := streamOpen s.chunks

/-- What is in the files: of a chunk that is still being written, what `disk` says of its bytes. -/
def streamFiles (disk : List UInt8 → List UInt8) (s : ChunkStream) : List (List UInt8) :=
  if s.writing then s.chunks.modify s.current disk else s.chunks

structure ChunkedTrace where
  mem : List TraceRecord
  stream : ChunkStream
  chunkSize : Nat
  currentChunk : Nat
  startChunk : Nat
  nchunks : Nat
  currentSize : Nat
  backed : Bool
  deriving DecidableEq, Repr

def chunkedCreate (stream : ChunkStream) (chunkSize : Nat) : Except Fault ChunkedTrace := do
  check (0 < chunkSize) .chunkedCreateSize
  .ok { mem := [], stream, chunkSize, currentChunk := 0, startChunk := 0, nchunks := 0
        currentSize := 0, backed := true }

def flushChunk (t : ChunkedTrace) : Except Fault ChunkedTrace :=
  if t.mem.isEmpty then .ok { t with backed := true }
  else do
    check (t.currentSize == t.mem.length) .chunkedFlushSize
    .ok { t with
      backed := true, mem := [], currentSize := 0
      stream := t.mem.foldl (fun s r => streamWrite s (recordBytes r.content)) t.stream
      nchunks := if t.currentChunk = t.nchunks then t.nchunks + 1 else t.nchunks }

def nextChunk (t : ChunkedTrace) : ChunkedTrace :=
  { t with stream := streamNextChunk t.stream, currentChunk := t.currentChunk + 1 }

def chunkedAppend (t : ChunkedTrace) (r : TraceRecord) : Except Fault ChunkedTrace := do
  let t ← if t.currentSize = t.chunkSize then do
      let t ← flushChunk t
      .ok (nextChunk t)
    else .ok t
  .ok { t with mem := t.mem ++ [r.content], currentSize := t.currentSize + 1, backed := false }

/-- `_clear`: each freed record counts `current_size` down to 0. -/
def chunkedClear (t : ChunkedTrace) : Except Fault ChunkedTrace := do
  check (t.currentSize == t.mem.length) .chunkedClearSize
  .ok { t with mem := [], currentSize := 0 }

def loadLoop : Nat → ChunkedTrace → Except Fault ChunkedTrace
  | 0, _ => .error .traceFuel
  | fuel + 1, t => do
      let (found, unread) ← readRecord t.stream.unread
      let t := { t with stream := { t.stream with unread } }
      match found with
      | .inl count => do
          check (count == 0) .tracePending
          .ok t
      | .inr r => do
          let t ← chunkedAppend t r
          loadLoop fuel t

def loadChunk (t : ChunkedTrace) : Except Fault ChunkedTrace := do
  let t ← if t.backed then .ok t else flushChunk t
  let t ← chunkedClear t
  let t ← loadLoop (t.stream.unread.length + 1) { t with stream := streamScan t.stream }
  check (t.currentSize == t.chunkSize || t.nchunks ≤ 1 || t.currentChunk + 1 == t.nchunks)
    .chunkedLoadSize
  .ok { t with backed := true }

def setChunk (t : ChunkedTrace) (chunk : Nat) : Except Fault ChunkedTrace := do
  check (t.currentChunk != chunk) .chunkedSameChunk
  let t ← if t.backed then .ok t else flushChunk t
  match streamSetChunk t.stream chunk with
  | none => .error .chunkedSetChunk
  | some stream => loadChunk { t with stream, currentChunk := chunk }

def loadNextChunk (t : ChunkedTrace) : Except Fault ChunkedTrace :=
  if t.nchunks = 0 then loadChunk t
  else if t.currentChunk + 1 < t.nchunks then setChunk t (t.currentChunk + 1)
  else .ok t

def chunkedPeek (t : ChunkedTrace) : Except Fault (Option TraceRecord × ChunkedTrace) := do
  let t ← if t.startChunk < t.currentChunk then setChunk t t.startChunk else .ok t
  if t.mem.isEmpty then do
    let t ← loadNextChunk t
    let t := { t with startChunk := t.currentChunk }
    .ok (t.mem.head?, t)
  else .ok (t.mem.head?, t)

/-- `_advance` with `_pop`, which reads the `next` of the record it peeks at. -/
def chunkedAdvance (t : ChunkedTrace) : Except Fault ChunkedTrace := do
  let (found, t) ← chunkedPeek t
  match found with
  | none => .error .chunkedPopNull
  | some _ => .ok { t with mem := t.mem.tail, currentSize := t.currentSize - 1, backed := false }

def chunkedNextLoop (filter : UInt32) :
    Nat → Option TraceRecord → ChunkedTrace → Except Fault (Option TraceRecord × ChunkedTrace)
  | _, none, t => .ok (none, t)
  | 0, some _, _ => .error .traceFuel
  | fuel + 1, some r, t =>
      if r.matches filter then .ok (some r, t)
      else do
        let t ← chunkedAdvance t
        let (found, t) ← chunkedPeek t
        chunkedNextLoop filter fuel found t

def chunkedFuel (t : ChunkedTrace) : Nat :=
  t.mem.length + (t.stream.chunks.map List.length).sum + 1

def chunkedNext (filter : UInt32) (t : ChunkedTrace) : Except Fault (Option TraceRecord × ChunkedTrace) := do
  let (found, t') ← chunkedPeek t
  chunkedNextLoop filter (chunkedFuel t) found t'

def chunkedLoad (t : ChunkedTrace) : Except Fault ChunkedTrace := do
  let t ← loadChunk t
  let t := { t with nchunks := (streamScan t.stream).total }
  check (t.chunkSize == t.currentSize || t.nchunks == 0 ||
    t.nchunks == 1 && t.currentSize < t.chunkSize) .chunkedLoadSize
  .ok t

def chunkedSave (t : ChunkedTrace) : Except Fault ChunkedTrace := do
  let t ← flushChunk t
  .ok { t with stream := streamTruncate t.stream t.nchunks }

def chunkedLast (t : ChunkedTrace) : Except Fault (Option TraceRecord × ChunkedTrace) :=
  if t.nchunks ≤ t.currentChunk + 1 then do
    let t ← if t.mem.isEmpty ∧ 0 < t.currentChunk then setChunk t (t.currentChunk - 1) else .ok t
    .ok (t.mem.getLast?, t)
  else do
    let t ← setChunk t (t.nchunks - 1)
    .ok (t.mem.getLast?, t)

/-- The end of `_forget`: the tail is freed, and an empty chunk is left for the one before it. -/
def forgetTail (t : ChunkedTrace) : Except Fault ChunkedTrace := do
  check (!t.mem.isEmpty) .chunkedForgetNull
  let t := { t with mem := t.mem.dropLast, currentSize := t.currentSize - 1 }
  if t.currentSize = 0 ∧ t.currentChunk ≠ 0 then do
    let t ← setChunk t (t.currentChunk - 1)
    .ok { t with nchunks := t.nchunks - 1 }
  else .ok t

def chunkedForget (t : ChunkedTrace) : Except Fault ChunkedTrace := do
  let t ← if t.currentChunk + 1 < t.nchunks then setChunk t (t.nchunks - 1) else .ok t
  if t.mem.isEmpty then
    if t.currentChunk = 0 then .ok t
    else do
      let t ← setChunk t (t.currentChunk - 1)
      forgetTail { t with nchunks := t.nchunks - 1 }
  else forgetTail t

def chunkedReload (t : ChunkedTrace) : Except Fault ChunkedTrace := do
  let t ← chunkedCreate (streamReopen t.stream) t.chunkSize
  chunkedLoad t

end Lotto
