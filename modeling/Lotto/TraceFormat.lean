import Lotto.Trace

namespace Lotto.TraceFormat

open Library.ByteCodec Library.FaultRun

section Records

theorem recordHeader_length (r : TraceRecord) : (recordHeader r).length = recordSize := by
  simp [recordHeader, recordSize]

theorem recordBytes_length (r : TraceRecord) : (recordBytes r).length = recordSize + r.data.length := by
  rw [recordBytes, List.length_append, recordHeader_length]

theorem length_le_encode (records : List TraceRecord) : records.length ≤ (encode records).length := by
  induction records with
  | nil => exact Nat.le_refl _
  | cons r records ih =>
      have header := recordBytes_length r
      have split : encode (r :: records) = recordBytes r ++ encode records := rfl
      rw [split, List.length_append, List.length_cons, header, recordSize]
      omega

theorem readFields_recordHeader (r : TraceRecord) : readFields (recordHeader r) =
    some ({ r with data := [], sized := nil_sized }, .ofNat r.data.length) := by
  have wide : ∀ n : UInt64, n.toNat < 256 ^ 8 := fun n => n.toNat_lt
  have half : ∀ n : UInt32, n.toNat < 256 ^ 4 := fun n => n.toNat_lt
  have short : ∀ n : UInt16, n.toNat < 256 ^ 2 := fun n => n.toNat_lt
  have size : r.data.length < 256 ^ 8 := r.sized
  have padding : 0 < 256 ^ 4 := by decide
  have ends : recordHeader r = recordHeader r ++ [] := (List.append_nil _).symm
  rw [ends, readFields, recordHeader]
  simp only [List.append_assoc]
  rw [bind_takeLE (wide r.next), bind_takeLE (wide r.id), bind_takeLE (wide r.clk),
    bind_takeLE (short r.chainId), bind_takeLE (short r.typeId), bind_takeLE (half r.reason),
    bind_takeLE (half r.kind), bind_takeLE padding, bind_takeLE size, bind_takeLE (wide r.pc)]
  simp only [UInt64.ofNat_toNat, UInt32.ofNat_toNat, UInt16.ofNat_toNat]

theorem readRecord_recordBytes (r : TraceRecord) (tail : List UInt8) :
    readRecord (recordBytes r ++ tail) = .ok (.inr r, tail) := by
  have header : (recordBytes r ++ tail).take recordSize = recordHeader r := by
    rw [recordBytes, List.append_assoc, List.take_append_of_le_length, ← recordHeader_length r,
      List.take_length]
    rw [recordHeader_length]
  have behind : (recordBytes r ++ tail).drop recordSize = r.data ++ tail := by
    rw [recordBytes, List.append_assoc, ← recordHeader_length r, List.drop_left]
  have size : (UInt64.ofNat r.data.length).toNat = r.data.length :=
    UInt64.toNat_ofNat_of_lt' r.sized
  have data : (r.data ++ tail).take r.data.length = r.data := by simp
  simp only [readRecord, header, behind, readFields_recordHeader, size, data, dite_true,
    List.drop_left]

theorem readRecord_nil : readRecord [] = .ok (.inl 0, []) := rfl

theorem readRecord_shorter {unread rest : List UInt8} {r : TraceRecord}
    (read : readRecord unread = .ok (.inr r, rest)) : rest.length < unread.length := by
  cases unread with
  | nil =>
      rw [readRecord_nil] at read
      cases read
  | cons byte unread =>
      simp only [readRecord] at read
      split at read
      · cases read
      · split at read
        · cases read
          simp only [List.length_drop, List.length_cons, recordSize]
          omega
        · cases read

end Records

inductive Parses : List UInt8 → List TraceRecord → Prop
  | nil : Parses [] []
  | cons {unread rest : List UInt8} {r : TraceRecord} {records : List TraceRecord}
      (read : readRecord unread = .ok (.inr r, rest)) (tail : Parses rest records) :
      Parses unread (r :: records)

theorem parses_encode (records : List TraceRecord) : Parses (encode records) records := by
  induction records with
  | nil => exact .nil
  | cons r records ih => exact .cons (readRecord_recordBytes r (encode records)) ih

section Flat

variable {bytes unread : List UInt8} {records : List TraceRecord} {t : FlatTrace}

theorem flatLoadLoop_of_parses (parses : Parses unread records) {fuel : Nat}
    (enough : unread.length < fuel) (t : FlatTrace) :
    flatLoadLoop fuel t unread = .ok (t ++ records) := by
  induction parses generalizing fuel t with
  | nil =>
      cases fuel with
      | zero => omega
      | succ fuel => simp [flatLoadLoop, readRecord_nil]
  | @cons _ rest r _ read _ ih =>
      have shorter := readRecord_shorter read
      cases fuel with
      | zero => omega
      | succ fuel =>
          rw [flatLoadLoop, read, ok_bind]
          have loaded := ih (show rest.length < fuel by omega) (flatAppend t r)
          rw [flatAppend, List.append_assoc] at loaded
          exact loaded

theorem parses_of_flatLoadLoop {fuel : Nat} {result : FlatTrace}
    (loaded : flatLoadLoop fuel t unread = .ok result) :
    ∃ records, Parses unread records ∧ result = t ++ records := by
  induction fuel generalizing t unread with
  | zero => cases loaded
  | succ fuel ih =>
      rw [flatLoadLoop] at loaded
      obtain ⟨⟨found, rest⟩, read, loaded⟩ := bind_eq_ok.mp loaded
      cases found with
      | inl count =>
          obtain ⟨_, empty, done⟩ := bind_eq_ok.mp loaded
          cases done
          obtain rfl : count = 0 := by simpa using (check_ok_iff _ _).mp empty
          refine ⟨[], ?_, (List.append_nil _).symm⟩
          obtain rfl : unread = [] := by
            simp only [readRecord] at read
            split at read
            · simp only [Except.ok.injEq, Prod.mk.injEq, Sum.inl.injEq, List.length_eq_zero_iff,
                List.take_eq_nil_iff] at read
              exact read.1.resolve_left (by decide)
            · split at read <;> cases read
          exact .nil
      | inr r =>
          obtain ⟨records, parses, same⟩ := ih loaded
          refine ⟨r :: records, .cons read parses, ?_⟩
          rw [same, flatAppend, List.append_assoc]
          rfl

theorem flatLoad_iff : flatLoad bytes = .ok t ↔ Parses bytes t := by
  constructor
  · intro loaded
    obtain ⟨records, parses, same⟩ := parses_of_flatLoadLoop loaded
    rw [List.nil_append] at same
    exact same ▸ parses
  · intro parses
    exact flatLoadLoop_of_parses parses (Nat.lt_succ_self _) []

theorem flatLoad_flatSaveTo (t : FlatTrace) : flatLoad (flatSaveTo t) = .ok t :=
  flatLoad_iff.mpr (parses_encode t)

theorem parses_unique {unread : List UInt8} {first second : List TraceRecord}
    (one : Parses unread first) (other : Parses unread second) : first = second := by
  have loaded := flatLoad_iff.mpr one
  rw [flatLoad_iff.mpr other] at loaded
  cases loaded
  rfl

theorem flatNext_head (filter : UInt32) (t : FlatTrace) :
    (flatNext filter t).2 = (flatNext filter t).1.toList ++ (flatNext filter t).2.tail := by
  induction t with
  | nil => rfl
  | cons r t ih =>
      rw [flatNext]
      split
      · rfl
      · exact ih

theorem matches_any (r : TraceRecord) : r.matches recordAny = true ↔ r.kind ≠ 0 := by
  have same : r.kind &&& recordAny = r.kind := by simp [recordAny]
  simp [TraceRecord.matches, same]

end Flat

section File

structure Left (t : FileTrace) (whole left : List TraceRecord) : Prop where
  file : Parses t.bytes whole
  rest : ∃ unread, Parses t.unread unread ∧ left = t.cur.toList ++ unread

variable {t : FileTrace} {whole left : List TraceRecord} {filter : UInt32}

theorem left_create {bytes : List UInt8} (parses : Parses bytes whole) :
    Left (fileCreate bytes) whole whole :=
  ⟨parses, whole, parses, rfl⟩

theorem Left.unique (one : Left t whole left) {other : List TraceRecord} (two : Left t whole other) :
    left = other := by
  obtain ⟨_, unread, parses, rfl⟩ := one
  obtain ⟨_, again, parses', rfl⟩ := two
  rw [parses_unique parses parses']

theorem fileScan_of_parses (filter : UInt32) {unread : List UInt8} {records : List TraceRecord}
    (parses : Parses unread records) {fuel : Nat} (enough : unread.length < fuel) :
    ∃ rest, fileScan filter fuel unread = .ok ((flatNext filter records).1, rest) ∧
      Parses rest (flatNext filter records).2.tail := by
  induction parses generalizing fuel with
  | nil =>
      cases fuel with
      | zero => omega
      | succ fuel => exact ⟨[], by simp [fileScan, readRecord_nil, flatNext], .nil⟩
  | @cons _ rest r _ read tail ih =>
      have shorter := readRecord_shorter read
      cases fuel with
      | zero => omega
      | succ fuel =>
          rw [fileScan, read, ok_bind, flatNext]
          by_cases passes : r.matches filter = true
          · exact ⟨rest, by simp [passes], by simpa [passes] using tail⟩
          · obtain ⟨rest', scanned, parses⟩ := ih (show rest.length < fuel by omega)
            exact ⟨rest', by simpa [passes] using scanned, by simpa [passes] using parses⟩

theorem fileNext_left (known : Left t whole left) (filter : UInt32) :
    ∃ t', fileNext filter t = .ok ((flatNext filter left).1, t') ∧
      Left t' whole (flatNext filter left).2 ∧ t'.cur = (flatNext filter left).1 := by
  obtain ⟨file, unread, parses, rfl⟩ := known
  have scanning : flatNext filter (t.cur.toList ++ unread) = flatNext filter unread →
      t.cur.filter (TraceRecord.matches filter) = none →
      ∃ t', fileNext filter t = .ok ((flatNext filter (t.cur.toList ++ unread)).1, t') ∧
        Left t' whole (flatNext filter (t.cur.toList ++ unread)).2 ∧
        t'.cur = (flatNext filter (t.cur.toList ++ unread)).1 := by
    intro skipped none
    obtain ⟨rest, scanned, left⟩ := fileScan_of_parses filter parses (Nat.lt_succ_self _)
    rw [skipped]
    simp only [fileNext, fileGetNext, none, scanned, ok_bind]
    exact ⟨_, rfl, ⟨file, _, left, flatNext_head filter unread⟩, rfl⟩
  cases cur : t.cur with
  | none =>
      rw [cur] at scanning
      exact scanning rfl rfl
  | some r =>
      rw [cur] at scanning
      by_cases passes : r.matches filter = true
      · have found : flatNext filter ((some r).toList ++ unread) = (some r, r :: unread) := by
          simp [flatNext, passes]
        have kept : Option.filter (TraceRecord.matches filter) (some r) = some r := by
          simp [passes]
        rw [found]
        simp only [fileNext, fileGetNext, cur, kept, ok_bind]
        exact ⟨_, rfl, ⟨file, unread, parses, rfl⟩, rfl⟩
      · exact scanning (by simp [flatNext, passes]) (by simp [passes])

end File

end Lotto.TraceFormat
