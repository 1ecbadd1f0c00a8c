import Lotto.TraceFormat

namespace Lotto.TraceFileRun

open Library.FaultRun TraceFormat

inductive ReadOp where
  | next (filter : UInt32)
  | advance
  | last
  | saveTo
  deriving DecidableEq, Repr

inductive ReadOutput where
  | nothing
  | record (found : Option TraceRecord)
  | bytes (written : List UInt8)
  deriving DecidableEq, Repr

def flatDo : ReadOp → FlatTrace → ReadOutput × FlatTrace
  | .next filter, t => (.record (flatNext filter t).1, (flatNext filter t).2)
  | .advance, t => (.nothing, flatAdvance t)
  | .last, t => (.record (flatLast t), t)
  | .saveTo, t => (.bytes (flatSaveTo t), t)

def fileDo : ReadOp → FileTrace → Except Fault (ReadOutput × FileTrace)
  | .next filter, t => do
      let (found, t) ← fileNext filter t
      .ok (.record found, t)
  | .advance, t => .ok (.nothing, fileAdvance t)
  | .last, t => do
      let (found, t) ← fileLast t
      .ok (.record found, t)
  | .saveTo, t => do
      let (written, t) ← fileSaveTo t
      .ok (.bytes written, t)

/-- Each operation gives the same on both traces, and both go on at the same record. -/
def InStep (whole : List TraceRecord) : List ReadOp → FileTrace → FlatTrace → Prop
  | [], _, _ => True
  | op :: ops, file, flat => ∃ file', fileDo op file = .ok ((flatDo op flat).1, file') ∧
      Left file' whole (flatDo op flat).2 ∧ InStep whole ops file' (flatDo op flat).2

/-- The condition on one operation, `flat` being the records that are not consumed. -/
def Keeps (whole : List TraceRecord) (file : FileTrace) (flat : FlatTrace) : ReadOp → Prop
  | .next _ => True
  | .advance => file.cur.isSome = true ∨ flat = []
  | .last => (flat.length = 1 ∧ ∀ r ∈ flat, r.kind ≠ 0) ∨ flat = [] ∧ ∀ r ∈ whole, r.kind = 0
  | .saveTo => flat = []

/-- Every operation meets the condition in the state it is done in. -/
def Meets (whole : List TraceRecord) : List ReadOp → FileTrace → FlatTrace → Prop
  | [], _, _ => True
  | op :: ops, file, flat => Keeps whole file flat op ∧
      match fileDo op file with
      | .ok (_, file') => Meets whole ops file' (flatDo op flat).2
      | .error _ => True

section Loops

variable {t : FileTrace} {whole left : List TraceRecord}

theorem parses_length {unread : List UInt8} {records : List TraceRecord}
    (parses : Parses unread records) : records.length ≤ unread.length := by
  induction parses with
  | nil => rfl
  | cons read _ ih =>
      have shorter := readRecord_shorter read
      rw [List.length_cons]
      omega

theorem flatNext_any (records : List TraceRecord) :
    flatNext recordAny records = (none, []) ∧ records.filter (TraceRecord.matches recordAny) = [] ∨
      ∃ r rest, flatNext recordAny records = (some r, r :: rest) ∧ rest.length < records.length ∧
        records.filter (TraceRecord.matches recordAny) =
          r :: rest.filter (TraceRecord.matches recordAny) := by
  induction records with
  | nil => exact Or.inl ⟨rfl, rfl⟩
  | cons r records ih =>
      rw [flatNext]
      by_cases passes : r.matches recordAny = true
      · rw [if_pos passes]
        exact Or.inr ⟨r, records, rfl, by simp, by simp [passes]⟩
      · rw [if_neg passes]
        rcases ih with ⟨none, empty⟩ | ⟨next, rest, found, shorter, same⟩
        · exact Or.inl ⟨none, by simp [passes, empty]⟩
        · exact Or.inr ⟨next, rest, found, by rw [List.length_cons]; omega, by simp [passes, same]⟩

theorem fileGetNext_left (cur : t.cur = none) {unread : List TraceRecord}
    (parses : Parses t.unread unread) (filter : UInt32) : ∃ rest,
      fileGetNext filter t = .ok ((flatNext filter unread).1, { t with unread := rest }) ∧
      Parses rest (flatNext filter unread).2.tail := by
  obtain ⟨rest, scanned, tail⟩ := fileScan_of_parses filter parses (Nat.lt_succ_self _)
  refine ⟨rest, ?_, tail⟩
  simp only [fileGetNext, cur, Option.filter_none, scanned, ok_bind]

theorem fileLastLoop_left (cur : t.cur = none) {unread : List TraceRecord}
    (parses : Parses t.unread unread) {fuel : Nat} (enough : unread.length < fuel)
    (result : Option TraceRecord) : ∃ rest, Parses rest [] ∧
      fileLastLoop fuel result t = .ok
        ((unread.filter (TraceRecord.matches recordAny)).getLast?.or result, { t with unread := rest }) := by
  induction fuel generalizing t unread result with
  | zero => omega
  | succ fuel ih =>
      obtain ⟨rest, got, tail⟩ := fileGetNext_left cur parses recordAny
      rcases flatNext_any unread with ⟨none, empty⟩ | ⟨r, behind, found, shorter, same⟩
      · rw [none] at got tail
        refine ⟨rest, tail, ?_⟩
        simp only [fileLastLoop, got, ok_bind, empty, List.getLast?_nil, Option.none_or]
      · rw [found] at got tail
        obtain ⟨rest', parses', done⟩ := ih (t := { t with unread := rest }) cur tail
          (show behind.length < fuel by omega) (some r)
        refine ⟨rest', parses', ?_⟩
        simp only [fileLastLoop, got, ok_bind, done, same, List.getLast?_cons, List.tail_cons]
        cases (behind.filter (TraceRecord.matches recordAny)).getLast? <;> rfl

theorem fileLast_left (known : Left t whole left) : ∃ t', fileLast t =
      .ok ((whole.filter (TraceRecord.matches recordAny)).getLast?, t') ∧
      Left t' whole (whole.filter (TraceRecord.matches recordAny)).getLast?.toList := by
  have file := known.file
  obtain ⟨rest, parses, done⟩ :=
    fileLastLoop_left (t := { t with unread := t.bytes, cur := none }) rfl file
      (Nat.lt_succ_of_le (parses_length file)) none
  rw [Option.or_none] at done
  refine ⟨{ t with
      cur := (whole.filter (TraceRecord.matches recordAny)).getLast?, unread := rest }, ?_,
    known.file, [], parses, (List.append_nil _).symm⟩
  simp only [fileLast, done, ok_bind]

theorem fileSaveLoop_left (cur : t.cur = none) {unread : List TraceRecord} (file : Parses t.bytes whole)
    (parses : Parses t.unread unread) {fuel : Nat} (enough : unread.length < fuel)
    (written : List UInt8) : ∃ t', Left t' whole [] ∧ fileSaveLoop fuel written t =
      .ok (written ++ encode (unread.filter (TraceRecord.matches recordAny)), t') := by
  induction fuel generalizing t unread written with
  | zero => omega
  | succ fuel ih =>
      obtain ⟨rest, got, tail⟩ := fileGetNext_left cur parses recordAny
      rcases flatNext_any unread with ⟨none, empty⟩ | ⟨r, behind, found, shorter, same⟩
      · rw [none] at got tail
        refine ⟨{ t with cur := Option.none, unread := rest }, ⟨file, [], tail, rfl⟩, ?_⟩
        simp only [fileSaveLoop, fileNext, got, ok_bind, empty, encode, List.flatMap_nil,
          List.append_nil]
      · rw [found] at got tail
        obtain ⟨t', nothing, done⟩ := ih (t := { t with cur := none, unread := rest }) rfl file tail
          (show behind.length < fuel by omega) (written ++ recordBytes r)
        refine ⟨t', nothing, ?_⟩
        simp only [fileSaveLoop, fileNext, got, ok_bind, fileAdvance, done, same, encode,
          List.flatMap_cons, List.append_assoc, List.tail_cons]

theorem fileSaveTo_left (known : Left t whole left) :
    ∃ written t', fileSaveTo t = .ok (written, t') ∧ Left t' whole [] ∧ (left = [] → written = []) := by
  obtain ⟨file, unread, parses, same⟩ := known
  obtain ⟨t', nothing, done⟩ := fileSaveLoop_left (t := fileAdvance t) rfl file parses
    (Nat.lt_succ_of_le (parses_length parses)) []
  refine ⟨_, t', done, nothing, ?_⟩
  intro none
  rw [none] at same
  obtain ⟨_, rfl⟩ := List.append_eq_nil_iff.mp same.symm
  rfl

end Loops

theorem flat_eq_last_iff {whole flat : List TraceRecord} (suffix : flat <:+ whole) :
    flat = (whole.filter (TraceRecord.matches recordAny)).getLast?.toList ↔
      (flat.length = 1 ∧ ∀ r ∈ flat, r.kind ≠ 0) ∨ flat = [] ∧ ∀ r ∈ whole, r.kind = 0 := by
  constructor
  · intro same
    cases last : (whole.filter (TraceRecord.matches recordAny)).getLast? with
    | none =>
        rw [last] at same
        refine Or.inr ⟨same, fun r member => ?_⟩
        by_contra kind
        have inside : r ∈ whole.filter (TraceRecord.matches recordAny) :=
          List.mem_filter.mpr ⟨member, (matches_any r).mpr kind⟩
        rw [List.getLast?_eq_none_iff.mp last] at inside
        cases inside
    | some r =>
        rw [last] at same
        have inside := List.mem_of_getLast? last
        have kind := (matches_any r).mp (List.mem_filter.mp inside).2
        rw [same]
        exact Or.inl ⟨rfl, by simpa using kind⟩
  · rintro (⟨one, kinds⟩ | ⟨rfl, none⟩)
    · obtain ⟨r, rfl⟩ := List.length_eq_one_iff.mp one
      obtain ⟨before, rfl⟩ := suffix
      have passes := (matches_any r).mpr (kinds r List.mem_cons_self)
      simp [passes]
    · have empty : whole.filter (TraceRecord.matches recordAny) = [] := by
        rw [List.filter_eq_nil_iff]
        intro r member passes
        exact (matches_any r).mp passes (none r member)
      rw [empty]
      rfl

theorem done_iff {whole left flat : List TraceRecord} {file file' : FileTrace} {op : ReadOp}
    {out wanted : ReadOutput} (done : fileDo op file = .ok (out, file')) (left' : Left file' whole left) :
    (∃ file'', fileDo op file = .ok (wanted, file'') ∧ Left file'' whole flat) ↔
      out = wanted ∧ left = flat := by
  constructor
  · rintro ⟨file'', again, there⟩
    rw [done, Except.ok.injEq, Prod.mk.injEq] at again
    exact ⟨again.1, left'.unique (again.2 ▸ there)⟩
  · rintro ⟨rfl, rfl⟩
    exact ⟨file', done, left'⟩

theorem unread_eq_tail_iff {cur : Option TraceRecord} {unread flat : List TraceRecord}
    (same : flat = cur.toList ++ unread) : unread = flat.tail ↔ cur.isSome = true ∨ flat = [] := by
  cases cur with
  | some r =>
      rw [same]
      exact iff_of_true rfl (.inl rfl)
  | none =>
      obtain rfl : flat = unread := same
      cases flat with
      | nil => exact iff_of_true rfl (.inr rfl)
      | cons r flat => simp

/-- An operation gives the same on both traces and leaves both at the same record exactly if it meets
the condition. -/
theorem step_iff {whole flat : List TraceRecord} {file : FileTrace} (known : Left file whole flat)
    (suffix : flat <:+ whole) (op : ReadOp) :
    (∃ file', fileDo op file = .ok ((flatDo op flat).1, file') ∧ Left file' whole (flatDo op flat).2) ↔
      Keeps whole file flat op := by
  cases op with
  | next filter =>
      obtain ⟨file', done, left, _⟩ := fileNext_left known filter
      refine iff_of_true ⟨file', ?_, left⟩ trivial
      simp only [fileDo, done, ok_bind, flatDo]
  | advance =>
      obtain ⟨parses, unread, rest, same⟩ := known
      have left : Left (fileAdvance file) whole unread := ⟨parses, unread, rest, rfl⟩
      have done : fileDo .advance file = .ok (.nothing, fileAdvance file) := rfl
      rw [done_iff done left]
      exact (and_iff_right rfl).trans (unread_eq_tail_iff same)
  | last =>
      obtain ⟨file', last, left⟩ := fileLast_left known
      have done : fileDo .last file =
          .ok (.record (whole.filter (TraceRecord.matches recordAny)).getLast?, file') := by
        simp only [fileDo, last, ok_bind]
      rw [done_iff done left]
      refine Iff.trans ?_ (flat_eq_last_iff suffix)
      constructor
      · rintro ⟨_, only⟩
        exact only.symm
      · intro only
        refine ⟨?_, only.symm⟩
        rw [flatDo, flatLast, only]
        cases (whole.filter (TraceRecord.matches recordAny)).getLast? <;> rfl
  | saveTo =>
      obtain ⟨written, file', saved, left, silent⟩ := fileSaveTo_left known
      have done : fileDo .saveTo file = .ok (.bytes written, file') := by
        simp only [fileDo, saved, ok_bind]
      rw [done_iff done left]
      constructor
      · rintro ⟨_, none⟩
        exact none.symm
      · intro none
        obtain rfl : flat = [] := none
        rw [silent rfl]
        exact ⟨rfl, rfl⟩

theorem flatDo_suffix (op : ReadOp) (flat : FlatTrace) : (flatDo op flat).2 <:+ flat := by
  have skips : ∀ (filter : UInt32) (t : FlatTrace), (flatNext filter t).2 <:+ t := by
    intro filter t
    induction t with
    | nil => exact List.suffix_rfl
    | cons r t ih =>
        rw [flatNext]
        split
        · exact List.suffix_rfl
        · exact ih.trans (List.suffix_cons r t)
  cases op with
  | next filter => exact skips filter flat
  | advance => exact List.tail_suffix flat
  | last => exact List.suffix_rfl
  | saveTo => exact List.suffix_rfl

theorem run_iff {whole flat : List TraceRecord} {file : FileTrace} (known : Left file whole flat)
    (suffix : flat <:+ whole) (ops : List ReadOp) :
    InStep whole ops file flat ↔ Meets whole ops file flat := by
  induction ops generalizing file flat with
  | nil => exact Iff.rfl
  | cons op ops ih =>
      have step := step_iff known suffix op
      have still := (flatDo_suffix op flat).trans suffix
      rw [InStep, Meets, ← step]
      constructor
      · rintro ⟨file', done, left, rest⟩
        refine ⟨⟨file', done, left⟩, ?_⟩
        rw [done]
        exact (ih left still).mp rest
      · rintro ⟨⟨file', done, left⟩, rest⟩
        rw [done] at rest
        exact ⟨file', done, left, (ih left still).mpr rest⟩

def flatOutputs : List ReadOp → FlatTrace → List ReadOutput
  | [], _ => []
  | op :: ops, t => (flatDo op t).1 :: flatOutputs ops (flatDo op t).2

def fileOutputs : List ReadOp → FileTrace → Except Fault (List ReadOutput)
  | [], _ => .ok []
  | op :: ops, t => do
      let (out, t) ← fileDo op t
      let outs ← fileOutputs ops t
      .ok (out :: outs)

theorem InStep.outputs {whole flat : List TraceRecord} {file : FileTrace} {ops : List ReadOp}
    (same : InStep whole ops file flat) : fileOutputs ops file = .ok (flatOutputs ops flat) := by
  induction ops generalizing file flat with
  | nil => rfl
  | cons op ops ih =>
      obtain ⟨file', done, _, rest⟩ := same
      simp only [fileOutputs, done, ok_bind, ih rest, flatOutputs]

/-- The file trace does what the flat trace does over the same stream, operation by operation and
with the same records left, exactly if every operation meets the condition; then it returns the same
records and writes the same bytes. -/
theorem file_in_step_iff (bytes : List UInt8) (flat : FlatTrace) (loaded : flatLoad bytes = .ok flat)
    (ops : List ReadOp) :
    (InStep flat ops (fileCreate bytes) flat ↔ Meets flat ops (fileCreate bytes) flat) ∧
    (Meets flat ops (fileCreate bytes) flat →
      fileOutputs ops (fileCreate bytes) = .ok (flatOutputs ops flat)) := by
  have exact_ := run_iff (left_create (flatLoad_iff.mp loaded)) List.suffix_rfl ops
  exact ⟨exact_, fun meets => (exact_.mpr meets).outputs⟩

instance (whole : List TraceRecord) (file : FileTrace) (flat : FlatTrace) (op : ReadOp) :
    Decidable (Keeps whole file flat op) :=
  match op with
  | .next _ => isTrue trivial
  | .advance => inferInstanceAs (Decidable (_ ∨ _))
  | .last => inferInstanceAs (Decidable (_ ∨ _))
  | .saveTo => inferInstanceAs (Decidable (flat = []))

instance Meets.decidable (whole : List TraceRecord) :
    ∀ ops file flat, Decidable (Meets whole ops file flat)
  | [], _, _ => isTrue trivial
  | op :: ops, file, flat =>
      haveI : Decidable (match fileDo op file with
          | .ok (_, file') => Meets whole ops file' (flatDo op flat).2
          | .error _ => True) :=
        match fileDo op file with
        | .ok (_, file') => Meets.decidable whole ops file' (flatDo op flat).2
        | .error _ => isTrue trivial
      inferInstanceAs (Decidable (_ ∧ _))

/-- Two records are read, the last one is asked for while it is the only one left, and nothing is
left to save. -/
theorem file_in_step_reading :
    fileOutputs [.next recordAny, .advance, .next recordAny, .last, .advance, .saveTo]
        (fileCreate (encode [plainRecord 1 1, plainRecord 1 2])) =
      .ok (flatOutputs [.next recordAny, .advance, .next recordAny, .last, .advance, .saveTo]
        [plainRecord 1 1, plainRecord 1 2]) := by
  refine (file_in_step_iff (encode [plainRecord 1 1, plainRecord 1 2]) [plainRecord 1 1, plainRecord 1 2]
    (flatLoad_flatSaveTo _) _).2 ?_
  decide +kernel

/-- The last of two records is asked for before the first one is read. -/
theorem last_moves_file : ∃ flat, flatLoad (encode [plainRecord 1 1, plainRecord 1 2]) = .ok flat ∧
    flatOutputs [.last, .next recordAny] flat =
      [.record (some (plainRecord 1 2)), .record (some (plainRecord 1 1))] ∧
    fileOutputs [.last, .next recordAny] (fileCreate (encode [plainRecord 1 1, plainRecord 1 2])) =
      .ok [.record (some (plainRecord 1 2)), .record (some (plainRecord 1 2))] := by
  refine ⟨[plainRecord 1 1, plainRecord 1 2], flatLoad_flatSaveTo _, ?_⟩
  decide +kernel

end Lotto.TraceFileRun
