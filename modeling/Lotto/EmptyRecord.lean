import Lotto.StatemgrFormat

namespace Lotto.EmptyRecord

open Library.ByteCodec Library.FaultRun StatemgrFormat

variable {V : Type}

def emptyHeader : Header := { index := 0, size := 0, empty := true, slot := 0 }

theorem marshalEmpty_eq :
    statemgrMarshalEmpty ([] : StateGroup V) = .ok (headerMarshal emptyHeader) := rfl

theorem emptyHeader_unmarshal (tail : List UInt8) :
    headerUnmarshal (headerMarshal emptyHeader ++ tail) = .ok emptyHeader :=
  headerUnmarshal_headerMarshal (by decide) (by decide) (by decide) tail

theorem statemgrSize_pos_iff {finals : StateGroup V} {n : Nat} (sized : statemgrSize finals = .ok n) :
    headerSize ≤ n ↔ ∃ w ∈ finals, isMarshaled w = true := by
  induction finals generalizing n with
  | nil =>
      obtain rfl : 0 = n := Except.ok.inj sized
      simp [headerSize]
  | cons w finals ih =>
      cases marshaled : isMarshaled w with
      | true =>
          simp only [statemgrSize, marshaled, if_true] at sized
          obtain ⟨size, _, sized⟩ := bind_eq_ok.mp sized
          obtain ⟨rest, _, sized⟩ := bind_eq_ok.mp sized
          obtain rfl : size + headerSize + rest = n := Except.ok.inj sized
          have room : headerSize ≤ size + headerSize + rest := by omega
          simp [room, marshaled]
      | false =>
          simp only [statemgrSize, marshaled, Bool.false_eq_true, if_false] at sized
          simpa [marshaled] using ih sized

theorem emptyExitPayload_ok_iff {finals : StateGroup V} {n : Nat}
    (sized : statemgrSize finals = .ok n) (payload : List UInt8) :
    emptyExitPayload finals = .ok payload ↔ (∃ w ∈ finals, isMarshaled w = true) ∧
      payload = headerMarshal emptyHeader ++ recordAlloc (n - headerSize) := by
  rw [← statemgrSize_pos_iff sized]
  simp only [emptyExitPayload, sized, marshalEmpty_eq, ok_bind, marshalInto, headerMarshal_length,
    recordAlloc, List.length_replicate, List.drop_replicate]
  by_cases room : headerSize ≤ n
  · simp [room, eq_comm]
  · simp [room]

theorem headerUnmarshal_cleared (n : Nat) : ∃ fault, headerUnmarshal (recordAlloc n) = .error fault := by
  have digits : ∀ width m found rest, takeLE width (List.replicate m 0) = some (found, rest) → found = 0 := by
    intro width
    induction width with
    | zero =>
        intro m found rest read
        simp only [takeLE, Option.some.injEq, Prod.mk.injEq] at read
        exact read.1.symm
    | succ width ih =>
        intro m found rest read
        cases m with
        | zero => simp [takeLE] at read
        | succ m =>
            simp only [List.replicate_succ, takeLE, Option.map_eq_some_iff] at read
            obtain ⟨⟨lower, behind⟩, inner, equal⟩ := read
            have zero := ih m lower behind inner
            simp only [Prod.mk.injEq] at equal
            rw [← equal.1, zero]
            rfl
  cases fields : headerFields (recordAlloc n) with
  | none => exact ⟨_, by simp only [headerUnmarshal, fields]; rfl⟩
  | some result =>
      obtain ⟨found, h⟩ := result
      have first : found = 0 := by
        simp only [headerFields, recordAlloc] at fields
        obtain ⟨⟨value, rest⟩, read, fields⟩ := Option.bind_eq_some_iff.mp fields
        have zero := digits 8 n value rest read
        simp only [Option.bind_eq_bind, Option.bind_eq_some_iff, Option.some.injEq, Prod.mk.injEq] at fields
        grind
      exact ⟨.deadCanary, by simp [headerUnmarshal, fields, first, canary]⟩

/-- An unmarshal function that only moves forward through the buffer. -/
def Forward (m : Marshable V) : Prop :=
  ∀ current buf v rest, m.unmarshal current buf = some (v, rest) → rest <:+ buf

theorem unmarshal_suffix {chain chain' : List (Node V)} (forward : ∀ node ∈ chain, Forward node.m)
    {buf rest : List UInt8} (run : marshableUnmarshal chain buf = .ok (chain', rest)) :
    rest <:+ buf := by
  induction chain generalizing buf chain' with
  | nil =>
      obtain ⟨_, rfl⟩ := Prod.mk.inj (Except.ok.inj run)
      exact List.suffix_refl _
  | cons node chain ih =>
      simp only [marshableUnmarshal] at run
      cases first : node.m.unmarshal node.value buf with
      | none => simp [first] at run
      | some result =>
          simp only [first] at run
          obtain ⟨⟨next, behind⟩, tail, done⟩ := bind_eq_ok.mp run
          obtain ⟨_, rfl⟩ := Prod.mk.inj (Except.ok.inj done)
          have inner := ih (fun later member => forward later (List.mem_cons_of_mem _ member)) tail
          exact inner.trans (forward node List.mem_cons_self _ _ _ _ first)

/-- What a reader needs of an EXIT record without state: it was written within its bounds, no
check fails on it and every registered struct stays as it is. -/
def Harmless (finals reader : StateGroup V) : Prop :=
  ∃ payload d, emptyExitPayload finals = .ok payload ∧ statemgrUnmarshal reader payload = .ok d ∧
    d.mgr = reader

/-- A reader whose only struct sits on slot 0 and takes nothing from the cleared payload. -/
def ReadsNothing (reader : StateGroup V) (n : Nat) : Prop :=
  ∃ r, reader = [r] ∧ (r.slot : Nat) = 0 ∧ r.chain ≠ [] ∧
    marshableUnmarshal r.chain (recordAlloc n) = .ok (r.chain, recordAlloc n)

theorem unmarshal_without_slot {reader : StateGroup V} (free : ∀ r ∈ reader, (r.slot : Nat) ≠ 0)
    (tail : List UInt8) :
    statemgrUnmarshal reader (headerMarshal emptyHeader ++ tail) = .ok
      { mgr := reader, buf := headerMarshal emptyHeader ++ tail, left := none, handed := [] } := by
  have miss := scan_miss (emptyHeader_unmarshal tail) reader (fun r member => (free r member).symm)
  rw [statemgrUnmarshal]
  cases reader.length with
  | zero => rfl
  | succ hits => simp only [decodeLoop, miss, ok_bind]

theorem first_slot_zero {reader : StateGroup V} (used : ¬ ∀ r ∈ reader, (r.slot : Nat) ≠ 0) :
    ∃ before hit behind, reader = before ++ hit :: behind ∧ (hit.slot : Nat) = 0 ∧
      ∀ r ∈ before, (r.slot : Nat) ≠ 0 := by
  induction reader with
  | nil => simp at used
  | cons r reader ih =>
      by_cases zero : (r.slot : Nat) = 0
      · exact ⟨[], r, reader, rfl, zero, by simp⟩
      · obtain ⟨before, hit, behind, rfl, found, free⟩ := ih (by simpa [zero] using used)
        refine ⟨r :: before, hit, behind, rfl, found, ?_⟩
        simpa [zero] using free

theorem decodeHit_cleared {d d' : Decoder V} {before behind : StateGroup V} {hit : Entry V} {n : Nat}
    (forward : ∀ node ∈ hit.chain, Forward node.m) (left : d.left = none)
    (bytes : d.buf = headerMarshal emptyHeader ++ recordAlloc n)
    (run : decodeHit d emptyHeader before hit behind = .ok d') :
    hit.chain ≠ [] ∧ d'.buf = recordAlloc n ∧ d'.left = none ∧ ∃ chain,
      marshableUnmarshal hit.chain (recordAlloc n) = .ok (chain, recordAlloc n) ∧
      d'.mgr = before ++ { hit with chain } :: behind := by
  simp only [decodeHit, bytes, addHeader_append, left, Option.all_none, check_true, ok_bind] at run
  obtain ⟨_, registered, run⟩ := bind_eq_ok.mp run
  obtain ⟨⟨chain, next⟩, restored, run⟩ := bind_eq_ok.mp run
  obtain ⟨_, size, run⟩ := bind_eq_ok.mp run
  obtain rfl : _ = d' := Except.ok.inj run
  have suffix := unmarshal_suffix forward restored
  have whole : next = recordAlloc n := by
    refine suffix.eq_of_length ?_
    have equal : (recordAlloc n).length - next.length = 0 :=
      beq_iff_eq.mp ((check_ok_iff _ _).mp size)
    have short := suffix.length_le
    omega
  subst whole
  refine ⟨?_, rfl, rfl, chain, restored, rfl⟩
  intro empty
  simp [empty] at registered

theorem unmarshal_with_slot {reader : StateGroup V} (forward : ∀ r ∈ reader, ∀ node ∈ r.chain, Forward node.m)
    (used : ¬ ∀ r ∈ reader, (r.slot : Nat) ≠ 0) (n : Nat) :
    (∃ d, statemgrUnmarshal reader (headerMarshal emptyHeader ++ recordAlloc n) = .ok d ∧
      d.mgr = reader) ↔ ReadsNothing reader n := by
  obtain ⟨before, hit, behind, rfl, zero, free⟩ := first_slot_zero used
  have scan := scan_hit (show Fits none headerSize from rfl) (emptyHeader_unmarshal (recordAlloc n))
    before hit behind (fun r member => (free r member).symm) zero.symm
  have chainForward := forward hit (by simp)
  constructor
  · rintro ⟨d, run, kept⟩
    have hits : (before ++ hit :: behind).length = (before.length + behind.length) + 1 := by
      simp only [List.length_append, List.length_cons]
      omega
    rw [statemgrUnmarshal, hits] at run
    simp only [decodeLoop, scan, ok_bind] at run
    obtain ⟨d', step, run⟩ := bind_eq_ok.mp run
    obtain ⟨registered, buf, left, chain, restored, mgr⟩ := decodeHit_cleared chainForward rfl rfl step
    -- with a second entry the loop would go on at the cleared bytes
    cases more : before.length + behind.length with
    | zero =>
        obtain ⟨noBefore, noBehind⟩ : before = [] ∧ behind = [] := by
          simpa [List.length_eq_zero_iff] using more
        subst noBefore noBehind
        rw [more] at run
        obtain rfl : d' = d := Except.ok.inj run
        rw [kept] at mgr
        obtain rfl : hit.chain = chain := by
          have same : hit = { hit with chain } := by simpa using mgr
          exact congrArg Entry.chain same
        exact ⟨hit, rfl, zero, registered, restored⟩
    | succ rounds =>
        rw [more] at run
        obtain ⟨fault, dead⟩ := headerUnmarshal_cleared n
        obtain ⟨first, rest, shape⟩ : ∃ first rest, d'.mgr = first :: rest := by
          rw [mgr]
          cases before with
          | nil => exact ⟨_, _, rfl⟩
          | cons r before => exact ⟨_, _, rfl⟩
        simp [decodeLoop, scanEntries, shape, buf, left, dead] at run
  · rintro ⟨r, single, _, registered, restored⟩
    obtain ⟨rfl, rfl, rfl⟩ : before = [] ∧ hit = r ∧ behind = [] := by
      cases before with
      | nil => simpa using single
      | cons first before => simp at single
    rw [List.nil_append, unmarshal_single registered rfl (by decide) zero.symm, restored]
    simp [emptyHeader]

/-- When an EXIT record without state is harmless: the record was allocated for at least one
struct, and no reader takes its header for the one of slot 0. -/
theorem harmless_iff (finals reader : StateGroup V) (n : Nat) (sized : statemgrSize finals = .ok n)
    (forward : ∀ r ∈ reader, ∀ node ∈ r.chain, Forward node.m) :
    Harmless finals reader ↔ (∃ w ∈ finals, isMarshaled w = true) ∧
      ((∀ r ∈ reader, (r.slot : Nat) ≠ 0) ∨ ReadsNothing reader (n - headerSize)) := by
  have split : Harmless finals reader ↔ (∃ w ∈ finals, isMarshaled w = true) ∧
      ∃ d, statemgrUnmarshal reader (headerMarshal emptyHeader ++ recordAlloc (n - headerSize)) =
        .ok d ∧ d.mgr = reader := by
    simp only [Harmless, emptyExitPayload_ok_iff sized]
    constructor
    · rintro ⟨payload, d, ⟨marshaled, rfl⟩, run, kept⟩
      exact ⟨marshaled, d, run, kept⟩
    · rintro ⟨marshaled, d, run, kept⟩
      exact ⟨_, d, ⟨marshaled, rfl⟩, run, kept⟩
  rw [split]
  refine and_congr_right fun _ => ?_
  by_cases free : ∀ r ∈ reader, (r.slot : Nat) ≠ 0
  · exact iff_of_true ⟨_, unmarshal_without_slot free _, rfl⟩ (Or.inl free)
  · rw [unmarshal_with_slot forward free]
    exact (or_iff_right free).symm

theorem static_forward (stamp : List UInt8) (n : Nat) : Forward (marshableStatic stamp n) := by
  intro current buf v rest read
  simp only [marshableStatic] at read
  split at read
  · obtain ⟨_, rfl⟩ := Prod.mk.inj (Option.some.inj read)
    exact List.drop_suffix _ _
  · cases read

instance : NeZero maxSlots := ⟨by decide⟩

def sampleFinal (slot : Fin maxSlots) : Entry (List UInt8) :=
  { chain := [⟨marshableStatic (List.replicate 48 0) 1, [7]⟩], slot }

/-- Without FINAL structs the header is written behind a record of size 0; with a struct on slot 0
its size check fails. -/
theorem empty_record_harmful :
    emptyExitPayload ([] : StateGroup (List UInt8)) = .error .marshalOverrun ∧
    (emptyExitPayload [sampleFinal 0] >>= statemgrUnmarshal [sampleFinal 0]).map Decoder.buf =
      .error .unmarshalSize ∧
    ¬ Harmless ([] : StateGroup (List UInt8)) [] ∧
    ¬ Harmless [sampleFinal 0] [sampleFinal 0] := by
  have overrun : emptyExitPayload ([] : StateGroup (List UInt8)) = .error .marshalOverrun := rfl
  have rejected : (emptyExitPayload [sampleFinal 0] >>= statemgrUnmarshal [sampleFinal 0]).map
      Decoder.buf = .error .unmarshalSize := rfl
  refine ⟨overrun, rejected, ?_, ?_⟩
  · rintro ⟨payload, d, written, _⟩
    rw [overrun] at written
    cases written
  · rintro ⟨payload, d, written, run, _⟩
    rw [written, ok_bind, run] at rejected
    cases rejected

theorem harmless_without_slot_zero : Harmless [sampleFinal 5] [sampleFinal 5] := by
  refine (harmless_iff [sampleFinal 5] [sampleFinal 5] 81 rfl ?_).mpr
    ⟨⟨sampleFinal 5, by simp, rfl⟩, Or.inl ?_⟩
  · intro r member node inside
    obtain rfl : r = sampleFinal 5 := by simpa using member
    obtain rfl : node = ⟨marshableStatic (List.replicate 48 0) 1, [7]⟩ := by
      simpa [sampleFinal] using inside
    exact static_forward _ _
  · intro r member
    obtain rfl : r = sampleFinal 5 := by simpa using member
    decide

end Lotto.EmptyRecord
