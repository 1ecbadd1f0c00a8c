import Lotto.ChunkedInvariant

namespace Lotto.TraceRoundTrip

open Library.FaultRun TraceFormat ChunkedSpecs ChunkedInvariant

structure Reading where
  filter : UInt32
  consumes : Bool
  deriving DecidableEq, Repr

def flatRead : List Reading → FlatTrace → List (Option TraceRecord)
  | [], _ => []
  | reading :: readings, t =>
      let (found, t) := flatNext reading.filter t
      found :: flatRead readings (if found.isSome && reading.consumes then flatAdvance t else t)

def fileRead : List Reading → FileTrace → Except Fault (List (Option TraceRecord))
  | [], _ => .ok []
  | reading :: readings, t => do
      let (found, t) ← fileNext reading.filter t
      let rest ← fileRead readings (if found.isSome && reading.consumes then fileAdvance t else t)
      .ok (found :: rest)

def chunkedRead : List Reading → ChunkedTrace → Except Fault (List (Option TraceRecord))
  | [], _ => .ok []
  | reading :: readings, t => do
      let (found, t) ← chunkedNext reading.filter t
      let t ← if found.isSome && reading.consumes then chunkedAdvance t else .ok t
      let rest ← chunkedRead readings t
      .ok (found :: rest)

def chunkedWrite (chunkSize : Nat) (records : List TraceRecord) : Except Fault ChunkedTrace := do
  let t ← chunkedCreate streamCreate chunkSize
  records.foldlM chunkedAppend t

/-- `next(RECORD_ANY)` and `advance`, once more than there are records. -/
def readAll (records : List TraceRecord) : List Reading :=
  List.replicate (records.length + 1) { filter := recordAny, consumes := true }

section Readers

theorem flatRead_all {records : List TraceRecord} (kinds : ∀ r ∈ records, r.kind ≠ 0) :
    flatRead (readAll records) records = records.map some ++ [none] := by
  induction records with
  | nil => rfl
  | cons r records ih =>
      have passes : r.matches recordAny = true := (matches_any r).mpr (kinds r (by simp))
      have rest := ih fun r' member => kinds r' (List.mem_cons_of_mem r member)
      rw [readAll, List.length_cons, List.replicate_succ, flatRead]
      simp only [flatNext, passes, if_true, Option.isSome_some, Bool.and_self, flatAdvance,
        List.tail_cons, List.map_cons, List.cons_append]
      rw [← rest]
      rfl

theorem fileAdvance_left {t : FileTrace} {whole left : List TraceRecord} (known : Left t whole left)
    {r : TraceRecord} (cur : t.cur = some r) : Left (fileAdvance t) whole left.tail := by
  obtain ⟨file, unread, parses, rfl⟩ := known
  refine ⟨file, unread, parses, ?_⟩
  rw [cur]
  rfl

/-- The file trace finds what the flat trace finds in the records that are left of its stream. -/
theorem fileRead_left (readings : List Reading) {t : FileTrace} {whole left : List TraceRecord}
    (known : Left t whole left) : fileRead readings t = .ok (flatRead readings left) := by
  induction readings generalizing t left with
  | nil => rfl
  | cons reading readings ih =>
      obtain ⟨t', next, still, cur⟩ := fileNext_left known reading.filter
      have after : Left (if (flatNext reading.filter left).1.isSome && reading.consumes then
          fileAdvance t' else t') whole
          (if (flatNext reading.filter left).1.isSome && reading.consumes then
            flatAdvance (flatNext reading.filter left).2 else (flatNext reading.filter left).2) := by
        split
        · rename_i consumed
          obtain ⟨r, found⟩ := Option.isSome_iff_exists.mp (Bool.and_eq_true_iff.mp consumed).1
          exact fileAdvance_left still (cur.trans found)
        · exact still
      simp only [fileRead, next, ok_bind, ih after, flatRead]

theorem chunkedRead_holds (readings : List Reading) {t : ChunkedTrace} {C : Nat → List TraceRecord}
    {F : List TraceRecord} (known : Holds t C F) (first : t.currentChunk = t.startChunk) :
    chunkedRead readings t = .ok (flatRead readings F) := by
  induction readings generalizing t C F with
  | nil => rfl
  | cons reading readings ih =>
      have peekable : Peekable t F := .inl ⟨first, C, known⟩
      obtain ⟨u, C, next, front⟩ := peekable.next known.enough reading.filter
      simp only [chunkedRead, next, ok_bind, flatRead]
      split
      · rename_i consumed
        obtain ⟨r, found⟩ := Option.isSome_iff_exists.mp (Bool.and_eq_true_iff.mp consumed).1
        have some : (flatNext reading.filter F).2 ≠ [] := by
          rw [flatNext_head, found]
          simp
        obtain ⟨t', C', advanced, now, still⟩ := front.peekable.advance some
        simp only [advanced, ok_bind, ih now still, flatAdvance]
      · simp only [ok_bind, ih front.holds front.first]

end Readers

section Writers

theorem flatAppend_all (records t : List TraceRecord) : records.foldl flatAppend t = t ++ records := by
  induction records generalizing t with
  | nil => exact (List.append_nil t).symm
  | cons r records ih =>
      rw [List.foldl_cons, ih, flatAppend, List.append_assoc]
      rfl

theorem fileAppend_all (records : List TraceRecord) (bytes : List UInt8) :
    records.foldl fileAppend bytes = bytes ++ encode records := by
  induction records generalizing bytes with
  | nil => exact (List.append_nil bytes).symm
  | cons r records ih =>
      rw [List.foldl_cons, ih, fileAppend, List.append_assoc]
      rfl

structure Written (t : ChunkedTrace) (F : List TraceRecord) : Prop where
  holds : ∃ C, Holds t C F
  start : t.startChunk = 0
  last : t.nchunks ≤ t.currentChunk + 1
  filled : t.mem ≠ [] ∨ t.nchunks = 0 ∧ t.mem = []

theorem written_append {t : ChunkedTrace} {F : List TraceRecord} (written : Written t F)
    (r : TraceRecord) :
    ∃ t', chunkedAppend t r = .ok t' ∧ Written t' (F ++ [r.content]) := by
  obtain ⟨C, known⟩ := written.holds
  obtain ⟨t', C', appended, now, ends, filled⟩ := known.append written.last r
  exact ⟨t', appended, ⟨C', now⟩, ends.start.trans written.start, ends.last, .inl filled⟩

theorem written_all (records : List TraceRecord) {t : ChunkedTrace} {F : List TraceRecord}
    (written : Written t F) : ∃ t', records.foldlM chunkedAppend t = .ok t' ∧
      Written t' (F ++ records.map TraceRecord.content) := by
  induction records generalizing t F with
  | nil => exact ⟨t, rfl, by rw [List.map_nil, List.append_nil]; exact written⟩
  | cons r records ih =>
      obtain ⟨u, appended, now⟩ := written_append written r
      obtain ⟨t', rest, done⟩ := ih now
      rw [List.append_assoc] at done
      refine ⟨t', ?_, done⟩
      rw [List.foldlM_cons, appended, ok_bind]
      exact rest

theorem chunkedWrite_written {chunkSize : Nat} (room : 0 < chunkSize) (records : List TraceRecord) :
    ∃ t, chunkedWrite chunkSize records = .ok t ∧ Written t (records.map TraceRecord.content) := by
  have created : Written (newTrace chunkSize) [] :=
    ⟨⟨fun _ => [], holds_create room rfl rfl rfl (Nat.le_refl _) _⟩, rfl, Nat.zero_le _, .inr ⟨rfl, rfl⟩⟩
  obtain ⟨t, appended, written⟩ := written_all records created
  refine ⟨t, ?_, written⟩
  rw [chunkedWrite, chunkedCreate_eq room, ok_bind]
  exact appended

theorem written_reload {t : ChunkedTrace} {F : List TraceRecord} (written : Written t F) :
    ∃ saved t' C, chunkedSave t = .ok saved ∧ chunkedReload saved = .ok t' ∧ Holds t' C F ∧
      Opened saved t' := by
  obtain ⟨C, known⟩ := written.holds
  rcases written.filled with filled | ⟨empty, none⟩
  · have last := written.last
    obtain ⟨saved, C', done, rests, -⟩ := known.save written.start filled (fun inner => by omega)
    obtain ⟨t', reloaded, now, opened⟩ := rests.reload
    exact ⟨saved, t', C', done, reloaded, now, opened⟩
  · obtain ⟨saved, done, still, chunks, nothing, -⟩ := known.save_empty none empty
    obtain ⟨t', reloaded, now, opened⟩ := reload_empty still.room chunks C
    exact ⟨saved, t', C, done, reloaded, nothing ▸ now, opened⟩

end Writers

/-- Appends, saves, opens the stream again, loads and reads. -/
def chunkedRoundTrip (chunkSize : Nat) (records : List TraceRecord) (readings : List Reading) :
    Except Fault (List (Option TraceRecord)) := do
  let t ← chunkedWrite chunkSize records
  let t ← chunkedSave t
  let t ← chunkedReload t
  chunkedRead readings t

theorem chunkedRoundTrip_eq {chunkSize : Nat} (room : 0 < chunkSize) (records : List TraceRecord)
    (readings : List Reading) : chunkedRoundTrip chunkSize records readings =
      .ok (flatRead readings (records.map TraceRecord.content)) := by
  obtain ⟨t, appended, written⟩ := chunkedWrite_written room records
  obtain ⟨saved, t', C, done, reloaded, known, opened⟩ := written_reload written
  rw [chunkedRoundTrip, appended, ok_bind, done, ok_bind, reloaded, ok_bind]
  exact chunkedRead_holds readings known opened.first

/-- Every trace reads back the records that it wrote, and a file trace finds in the bytes that a flat
trace loads what the flat trace finds. -/
theorem trace_round_trip (records : List TraceRecord) (kinds : ∀ r ∈ records, r.kind ≠ 0)
    (chunkSize : Nat) (room : 0 < chunkSize) :
    (∃ t, flatLoad (flatSaveTo (records.foldl flatAppend [])) = .ok t ∧
      flatRead (readAll records) t = records.map some ++ [none]) ∧
    fileRead (readAll records) (fileCreate (records.foldl fileAppend [])) =
      .ok (records.map some ++ [none]) ∧
    chunkedRoundTrip chunkSize records (readAll records) =
      .ok (records.map (fun r => some r.content) ++ [none]) ∧
    ∀ bytes t readings, flatLoad bytes = .ok t →
      fileRead readings (fileCreate bytes) = .ok (flatRead readings t) := by
  refine ⟨⟨records, ?_, flatRead_all kinds⟩, ?_, ?_, ?_⟩
  · rw [flatAppend_all, List.nil_append]
    exact flatLoad_flatSaveTo records
  · rw [fileAppend_all, List.nil_append, fileRead_left _ (left_create (parses_encode records)),
      flatRead_all kinds]
  · have contents : ∀ r ∈ records.map TraceRecord.content, r.kind ≠ 0 := by
      intro r member
      obtain ⟨original, there, rfl⟩ := List.mem_map.mp member
      exact kinds original there
    have all := flatRead_all contents
    rw [readAll, List.length_map, List.map_map] at all
    rw [chunkedRoundTrip_eq room, readAll, all]
    rfl
  · intro bytes t readings loaded
    exact fileRead_left readings (left_create (flatLoad_iff.mp loaded))

def payloadRecord (clk : UInt64) (data : List UInt8) (sized : data.length < UInt64.size) : TraceRecord :=
  { plainRecord 2 clk with next := 64, id := 2, chainId := 1, typeId := 3, reason := 4, pc := 5, data, sized }

def sampleRecords : List TraceRecord :=
  [payloadRecord 1 [] nil_sized, payloadRecord 2 [7, 8, 9] (by decide), payloadRecord 3 [1] (by decide)]

theorem trace_round_trip_chunks :
    (∃ t, flatLoad (flatSaveTo (sampleRecords.foldl flatAppend [])) = .ok t ∧
      flatRead (readAll sampleRecords) t = sampleRecords.map some ++ [none]) ∧
    fileRead (readAll sampleRecords) (fileCreate (sampleRecords.foldl fileAppend [])) =
      .ok (sampleRecords.map some ++ [none]) ∧
    chunkedRoundTrip 2 sampleRecords (readAll sampleRecords) =
      .ok (sampleRecords.map (fun r => some r.content) ++ [none]) := by
  obtain ⟨flat, file, chunked, _⟩ := trace_round_trip sampleRecords (by decide) 2 (by decide)
  exact ⟨flat, file, chunked⟩

end Lotto.TraceRoundTrip
