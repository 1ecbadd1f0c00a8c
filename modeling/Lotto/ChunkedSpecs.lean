import Lotto.TraceChunked
import Lotto.TraceFormat

namespace Lotto.ChunkedSpecs

open Library.FaultRun TraceFormat

def putChunk (chunks : List (List UInt8)) (chunk : Nat) (bytes : List UInt8) : List (List UInt8) :=
  if chunk < chunks.length then chunks.set chunk bytes else chunks ++ [bytes]

section Chunks

variable {chunks : List (List UInt8)} {chunk : Nat}

theorem putChunk_get (known : chunk ≤ chunks.length) (bytes : List UInt8) (i : Nat) :
    (putChunk chunks chunk bytes)[i]? = if i = chunk then some bytes else chunks[i]? := by
  unfold putChunk
  split
  · rename_i inside
    rw [List.getElem?_set]
    by_cases here : chunk = i
    · subst here
      simp [inside]
    · simp [here, Ne.symm here]
  · have last : chunk = chunks.length := by omega
    subst last
    by_cases here : i = chunks.length
    · simp [here]
    · rw [if_neg here]
      by_cases inside : i < chunks.length
      · rw [List.getElem?_append_left inside]
      · have beyond : chunks.length + 1 ≤ i := by omega
        rw [List.getElem?_eq_none (by simpa using beyond), List.getElem?_eq_none (by omega)]

theorem putChunk_length (known : chunk ≤ chunks.length) (bytes : List UInt8) :
    (putChunk chunks chunk bytes).length = max chunks.length (chunk + 1) := by
  unfold putChunk
  split
  · rw [List.length_set]
    omega
  · rw [List.length_append, List.length_singleton]
    omega

theorem putChunk_putChunk (known : chunk ≤ chunks.length) (first second : List UInt8) :
    putChunk (putChunk chunks chunk first) chunk second = putChunk chunks chunk second := by
  refine List.ext_getElem? ?_
  intro i
  have still : chunk ≤ (putChunk chunks chunk first).length := by
    rw [putChunk_length known]
    omega
  rw [putChunk_get still, putChunk_get known, putChunk_get known]
  split <;> rfl

end Chunks

section Stream

variable {s : ChunkStream}

theorem streamWrite_fresh (fresh : s.writing = false) (bytes : List UInt8) :
    streamWrite s bytes =
      { s with
        chunks := putChunk s.chunks s.current bytes, unread := [], writing := true
        total := s.total + 1 } := by
  simp only [streamWrite, fresh, Bool.false_eq_true, if_false, List.nil_append, putChunk]

theorem streamWrite_more {chunks : List (List UInt8)} {current total : Nat} {unread : List UInt8}
    (known : current ≤ chunks.length) (old bytes : List UInt8) :
    streamWrite { chunks := putChunk chunks current old, current, unread, writing := true, total } bytes =
      { chunks := putChunk chunks current (old ++ bytes), current, unread := [], writing := true, total } := by
  have there : (putChunk chunks current old)[current]? = some old := by
    rw [putChunk_get known, if_pos rfl]
  have kept : (putChunk chunks current old).getD current [] = old := by
    rw [List.getD_eq_getElem?_getD, there]
    rfl
  have same := putChunk_putChunk known old (old ++ bytes)
  simp only [streamWrite, if_true, kept, ← same]
  rfl

theorem write_records (fresh : s.writing = false) (known : s.current ≤ s.chunks.length)
    {records : List TraceRecord} (some : records ≠ []) :
    records.foldl (fun s r => streamWrite s (recordBytes r.content)) s =
      { s with chunks := putChunk s.chunks s.current (encode (records.map TraceRecord.content))
               unread := [], writing := true, total := s.total + 1 } := by
  have more : ∀ (records : List TraceRecord) (old unread : List UInt8),
      records.foldl (fun s r => streamWrite s (recordBytes r.content))
        { s with
          chunks := putChunk s.chunks s.current old, unread, writing := true, total := s.total + 1 } =
      { s with chunks := putChunk s.chunks s.current (old ++ encode (records.map TraceRecord.content))
               unread := if records = [] then unread else [], writing := true, total := s.total + 1 } := by
    intro records
    induction records with
    | nil => intro old unread; simp [encode]
    | cons r records ih =>
        intro old unread
        rw [List.foldl_cons, streamWrite_more known, ih]
        simp [encode]
  cases records with
  | nil => exact absurd rfl some
  | cons r records =>
      rw [List.foldl_cons, streamWrite_fresh fresh, more]
      simp [encode]

theorem streamScan_again (current : Nat) (unread : List UInt8) (writing : Bool) :
    streamScan { streamScan s with current, unread, writing } = { streamScan s with current, unread, writing } := by
  by_cases none : s.total = 0
  · simp only [streamScan, none, if_true, ite_self]
  · simp only [streamScan, none, if_false]

theorem streamTruncate_chunks (counted : s.chunks.length ≤ s.total) (limit : Nat) :
    (streamTruncate s limit).chunks = s.chunks.take limit := by
  rw [streamTruncate]
  split
  · rename_i few
    change (if s.total = 0 then s.chunks.length else s.total) ≤ limit at few
    have none : s.total = 0 → s.chunks.length = 0 := fun zero => by omega
    rw [List.take_of_length_le (by split at few <;> omega)]
    rfl
  · rfl

theorem streamScan_counts (counted : s.chunks.length ≤ s.total) :
    s.chunks.length ≤ (streamScan s).total := by
  simp only [streamScan]
  split <;> omega

theorem streamScan_total (s : ChunkStream) : s.total ≤ (streamScan s).total := by
  simp only [streamScan]
  split <;> omega

theorem streamTruncate_counts (counted : s.chunks.length ≤ s.total) (limit : Nat) :
    (streamTruncate s limit).chunks.length ≤ (streamTruncate s limit).total := by
  rw [streamTruncate]
  split
  · exact streamScan_counts counted
  · exact List.length_take_le _ _

theorem streamTruncate_zero (counted : s.chunks.length ≤ s.total) (position : s.current = 0)
    (fresh : s.writing = false) (unread : s.unread = []) : streamTruncate s 0 = streamCreate := by
  rw [streamTruncate]
  by_cases none : s.total = 0
  · have empty : s.chunks = [] := List.eq_nil_of_length_eq_zero (by omega)
    simp [streamScan, none, empty, position, fresh, unread, streamCreate, streamOpen]
  · simp [streamScan, none, streamCreate, streamOpen]

theorem streamTruncate_closes {limit : Nat} (more : limit < s.total) :
    (streamTruncate s limit).writing = false ∧ (streamTruncate s limit).total = limit := by
  have beyond : ¬ (streamScan s).total ≤ limit := by
    change ¬ (if s.total = 0 then s.chunks.length else s.total) ≤ limit
    rw [if_neg (by omega)]
    omega
  rw [streamTruncate]
  simp only [if_neg beyond, and_self]

end Stream

/-- The trace that `trace_chunked_create` makes over an empty stream. -/
def newTrace (chunkSize : Nat) : ChunkedTrace :=
  { mem := [], stream := streamCreate, chunkSize, currentChunk := 0, startChunk := 0, nchunks := 0
    currentSize := 0, backed := true }

theorem chunkedCreate_eq {chunkSize : Nat} (room : 0 < chunkSize) :
    chunkedCreate streamCreate chunkSize = .ok (newTrace chunkSize) := by
  have positive : decide (0 < chunkSize) = true := by simpa using room
  simp only [chunkedCreate, positive, check_true, ok_bind, newTrace]

variable {t t' : ChunkedTrace} {R : List TraceRecord}

theorem chunkedAppend_room (room : t.currentSize ≠ t.chunkSize) (r : TraceRecord) :
    chunkedAppend t r = .ok { t with
      mem := t.mem ++ [r.content], currentSize := t.currentSize + 1, backed := false } := by
  simp only [chunkedAppend, if_neg room, ok_bind]

theorem loadLoop_ok (records : List TraceRecord) {t : ChunkedTrace} {fuel : Nat}
    (unread : t.stream.unread = encode records) (enough : (encode records).length < fuel)
    (fits : t.currentSize + records.length ≤ t.chunkSize) :
    loadLoop fuel t = .ok { t with
      mem := t.mem ++ records.map TraceRecord.content, currentSize := t.currentSize + records.length
      backed := t.backed && records.isEmpty, stream := { t.stream with unread := [] } } := by
  induction records generalizing t fuel with
  | nil =>
      cases fuel with
      | zero => omega
      | succ fuel =>
          have none : t.stream.unread = [] := unread
          simp [loadLoop, none, readRecord_nil]
  | cons r records ih =>
      cases fuel with
      | zero => omega
      | succ fuel =>
          have read : readRecord t.stream.unread = .ok (.inr r, encode records) := by
            rw [unread]
            exact readRecord_recordBytes r (encode records)
          have size : (encode (r :: records)).length = (recordBytes r).length + (encode records).length := by
            rw [encode, List.flatMap_cons, List.length_append]
            rfl
          have header := recordBytes_length r
          rw [List.length_cons] at fits
          rw [loadLoop, read, ok_bind]
          simp only
          rw [chunkedAppend_room (by change t.currentSize ≠ t.chunkSize; omega), ok_bind,
            ih rfl (by simp only [recordSize] at header; omega) (by simp only; omega)]
          simp [Nat.add_comm, Nat.add_left_comm]

theorem loadChunk_ok (backed : t.backed = true) (size : t.currentSize = t.mem.length)
    (unread : t.stream.unread = encode R) (plain : ∀ r ∈ R, r.content = r)
    (fits : R.length ≤ t.chunkSize)
    (counted : R.length = t.chunkSize ∨ t.nchunks ≤ 1 ∨ t.currentChunk + 1 = t.nchunks) :
    loadChunk t = .ok { t with
      mem := R, currentSize := R.length, stream := { streamScan t.stream with unread := [] } } := by
  have clean : R.map TraceRecord.content = R :=
    (List.map_congr_left plain).trans (List.map_id R)
  have cleared : chunkedClear t = .ok { t with mem := [], currentSize := 0 } := by
    simp [chunkedClear, size]
  have passes : (R.length == t.chunkSize || decide (t.nchunks ≤ 1) ||
      t.currentChunk + 1 == t.nchunks) = true := by
    simpa [or_assoc] using counted
  have loop := loadLoop_ok R
    (t := { t with mem := [], currentSize := 0, stream := streamScan t.stream }) unread
    (Nat.lt_succ_self _) (by simpa using fits)
  rw [← show t.stream.unread = encode R from unread] at loop
  simp only [loadChunk, backed, if_true, ok_bind, cleared]
  simp only [backed] at loop
  simp only [Nat.succ_eq_add_one, Nat.zero_add, List.nil_append, clean] at loop
  rw [loop]
  simp only [ok_bind, passes, check_true]

theorem setChunk_ok {chunk : Nat} (backed : t.backed = true) (size : t.currentSize = t.mem.length)
    (apart : t.currentChunk ≠ chunk) (stored : t.stream.chunks[chunk]? = some (encode R))
    (plain : ∀ r ∈ R, r.content = r) (fits : R.length ≤ t.chunkSize)
    (counted : R.length = t.chunkSize ∨ t.nchunks ≤ 1 ∨ chunk + 1 = t.nchunks) :
    setChunk t chunk = .ok { t with
      mem := R, currentSize := R.length, currentChunk := chunk
      stream := { streamScan t.stream with current := chunk, unread := [], writing := false } } := by
  have other : (t.currentChunk != chunk) = true := by simpa using apart
  have found : streamSetChunk t.stream chunk =
      some { streamScan t.stream with current := chunk, unread := encode R, writing := false } := by
    rw [streamSetChunk, stored]
    rfl
  have loaded := loadChunk_ok (R := R) (t := { t with
      stream := { streamScan t.stream with current := chunk, unread := encode R, writing := false }
      currentChunk := chunk }) backed size rfl plain fits counted
  simp only [setChunk, other, check_true, ok_bind, backed, if_true, found]
  simp only [backed, streamScan_again] at loaded
  exact loaded

theorem flushChunk_none (none : t.mem = []) : flushChunk t = .ok { t with backed := true } := by
  simp [flushChunk, none]

theorem flushChunk_some (some : t.mem ≠ []) (size : t.currentSize = t.mem.length)
    (plain : ∀ r ∈ t.mem, r.content = r) (fresh : t.stream.writing = false)
    (known : t.stream.current ≤ t.stream.chunks.length) :
    flushChunk t = .ok { t with
      backed := true, mem := [], currentSize := 0
      stream := { t.stream with
        chunks := putChunk t.stream.chunks t.stream.current (encode t.mem), unread := [], writing := true
        total := t.stream.total + 1 }
      nchunks := if t.currentChunk = t.nchunks then t.nchunks + 1 else t.nchunks } := by
  have clean : t.mem.map TraceRecord.content = t.mem :=
    (List.map_congr_left plain).trans (List.map_id t.mem)
  have filled : t.mem.isEmpty = false := by simpa using some
  simp only [flushChunk, filled, Bool.false_eq_true, if_false, size, beq_self_eq_true, check_true,
    ok_bind, write_records fresh known some, clean]

theorem setChunk_flush {chunk : Nat} (unbacked : t.backed = false) (flushed : flushChunk t = .ok t')
    (backed : t'.backed = true) (same : t'.currentChunk = t.currentChunk) :
    setChunk t chunk = setChunk t' chunk := by
  simp only [setChunk, unbacked, Bool.false_eq_true, if_false, flushed, ok_bind, backed, if_true,
    same]

theorem setChunk_empty (none : t.mem = []) (chunk : Nat) :
    setChunk t chunk = setChunk { t with backed := true } chunk := by
  cases backed : t.backed with
  | true => rw [← backed]
  | false => exact setChunk_flush backed (flushChunk_none none) rfl rfl

theorem loadChunk_empty (none : t.mem = []) (size : t.currentSize = 0) (unread : t.stream.unread = [])
    (few : t.nchunks ≤ 1) :
    loadChunk t = .ok { t with backed := true, stream := streamScan t.stream } := by
  have flushed : loadChunk t = loadChunk { t with backed := true } := by
    cases backed : t.backed with
    | true => rw [← backed]
    | false =>
        simp only [loadChunk, backed, Bool.false_eq_true, if_false, flushChunk_none none, ok_bind, if_true]
  have read := loadChunk_ok (R := []) (t := { t with backed := true }) rfl
    (by simp only [none, size, List.length_nil]) unread (by simp) (Nat.zero_le _) (.inr (.inl few))
  have same : (streamScan t.stream).unread = [] := unread
  rw [flushed, read]
  simp only [none, size, List.length_nil, ← same]

theorem chunkedReload_ok (room : 0 < t.chunkSize) (first : t.stream.chunks.getD 0 [] = encode R)
    (plain : ∀ r ∈ R, r.content = r) (fits : R.length ≤ t.chunkSize)
    (whole : 1 < t.stream.chunks.length → R.length = t.chunkSize) :
    chunkedReload t = .ok
      { mem := R
        stream := { t.stream with
          current := 0, unread := [], writing := false, total := t.stream.chunks.length }
        chunkSize := t.chunkSize, currentChunk := 0, startChunk := 0
        nchunks := t.stream.chunks.length, currentSize := R.length, backed := true } := by
  have positive : decide (0 < t.chunkSize) = true := by simpa using room
  have read := loadChunk_ok (R := R)
    (t := { mem := [], stream := streamReopen t.stream, chunkSize := t.chunkSize, currentChunk := 0
            startChunk := 0, nchunks := 0, currentSize := 0, backed := true })
    rfl rfl first plain fits (.inr (.inl (Nat.zero_le 1)))
  have checked : (t.chunkSize == R.length || t.stream.chunks.length == 0 ||
      t.stream.chunks.length == 1 && decide (R.length < t.chunkSize)) = true := by
    simp only [Bool.or_eq_true, beq_iff_eq, Bool.and_eq_true, decide_eq_true_eq]
    omega
  have scanned : (streamScan { streamScan (streamReopen t.stream) with unread := [] }).total =
      t.stream.chunks.length := congrArg ChunkStream.total (streamScan_again _ [] false)
  simp only [chunkedReload, chunkedCreate, positive, check_true, ok_bind, chunkedLoad, read]
  simp only [scanned, checked, check_true, ok_bind]
  rfl

end Lotto.ChunkedSpecs
