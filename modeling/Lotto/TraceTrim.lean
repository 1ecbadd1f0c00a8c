import Mathlib.Data.List.DropRight
import Lotto.ChunkedRun
import Lotto.InflexSearch
import Lotto.TraceRoundTrip
import Lotto.TraceUtils

namespace Lotto.TraceTrim

open Library.FaultRun Library.Gather ChunkedSpecs ChunkedInvariant TraceFormat TraceRoundTrip TraceUtils
open Inflex (Sorted)

section Loops

variable {σ : Type} {impl : TraceImpl σ} {held ended : σ → List TraceRecord → Prop} {t : σ}
  {F : List TraceRecord}

/-- A trace works from its back like the list of its records. The traces whose end was looked at are
`ended`. -/
structure FromBack (impl : TraceImpl σ) (held ended : σ → List TraceRecord → Prop) : Prop where
  held_of_ended : ∀ {t F}, ended t F → held t F
  fuel : ∀ {t F}, held t F → F.length < impl.fuel t
  last : ∀ {t F}, held t F → ∃ t', impl.last t = .ok (F.getLast?, t') ∧ ended t' F
  forget : ∀ {t F}, held t F → ∃ t', impl.forget t = .ok t' ∧ ended t' F.dropLast
  append : ∀ {t F} (r : TraceRecord), ended t F → r.content = r →
    ∃ t', impl.append t r = .ok t' ∧ ended t' (F ++ [r])

def upTo (clk : UInt64) (F : List TraceRecord) : List TraceRecord :=
  F.filter fun r => decide (r.clk ≤ clk)

/-- The placeholder that `_truncate_trace` puts behind the records that it kept. -/
def placeholder (target : UInt64) (kept : List TraceRecord) : List TraceRecord :=
  if ∃ r ∈ kept, r.clk = target then [] else [opaqueRecord target]

end Loops

section Instances

variable {t : ChunkedTrace} {C : Nat → List TraceRecord} {F : List TraceRecord}

theorem flat_fromBack : FromBack flatImpl (fun t F => t = F) (fun t F => t = F) where
  held_of_ended same := same
  fuel := by
    rintro t F rfl
    exact Nat.lt_succ_self _
  last := by
    rintro t F rfl
    exact ⟨t, rfl, rfl⟩
  forget := by
    rintro t F rfl
    exact ⟨t.dropLast, rfl, rfl⟩
  append := by
    rintro t F r rfl -
    exact ⟨t ++ [r], rfl, rfl⟩

inductive Origin
  | empty
  | filled
  deriving DecidableEq, Repr

variable {origin : Origin}

structure Whole (origin : Origin) (chunkSize : Nat) (t : ChunkedTrace) (F : List TraceRecord) : Prop where
  holds : ∃ C, Holds t C F
  start : t.startChunk = 0
  chunkSize : t.chunkSize = chunkSize
  backed : t.currentChunk + 1 < t.nchunks → t.backed = true
  spare : origin = .filled → Spare t

structure Ended (origin : Origin) (chunkSize : Nat) (t : ChunkedTrace) (F : List TraceRecord) : Prop where
  holds : ∃ C, Holds t C F
  start : t.startChunk = 0
  chunkSize : t.chunkSize = chunkSize
  last : t.nchunks ≤ t.currentChunk + 1
  spare : origin = .filled → Spare t

theorem Ended.whole {chunkSize : Nat} (ended : Ended origin chunkSize t F) : Whole origin chunkSize t F :=
  ⟨ended.holds, ended.start, ended.chunkSize, fun inner => absurd ended.last (by omega), ended.spare⟩

theorem Whole.ended {chunkSize : Nat} {t' : ChunkedTrace} {G : List TraceRecord}
    (whole : Whole origin chunkSize t F) (known : Holds t' C G) (ends : AtEnd t t') :
    Ended origin chunkSize t' G :=
  ⟨⟨C, known⟩, ends.start.trans whole.start, ends.chunkSize.trans whole.chunkSize, ends.last,
    fun filled => ends.spare (whole.spare filled)⟩

theorem chunked_fromBack (origin : Origin) (chunkSize : Nat) :
    FromBack chunkedImpl (Whole origin chunkSize) (Ended origin chunkSize) where
  held_of_ended := Ended.whole
  fuel := by
    intro t F whole
    obtain ⟨C, known⟩ := whole.holds
    exact Nat.lt_succ_of_le known.enough
  last := by
    intro t F whole
    obtain ⟨C, known⟩ := whole.holds
    have filled : t.nchunks ≤ t.currentChunk + 1 → t.mem = [] → t.currentChunk = 0 := by
      intro _ none
      by_contra ahead
      have start := whole.start
      exact known.ahead (by omega) none
    obtain ⟨t', C', found, now, ends⟩ := known.last whole.backed filled
    exact ⟨t', found, whole.ended now ends⟩
  forget := by
    intro t F whole
    obtain ⟨C, known⟩ := whole.holds
    obtain ⟨t', C', forgot, now, ends⟩ := known.forget whole.backed fun _ first =>
      .inl (first.trans whole.start)
    exact ⟨t', forgot, whole.ended now ends⟩
  append := by
    intro t F r ended plain
    obtain ⟨C, known⟩ := ended.holds
    obtain ⟨t', C', appended, now, ends, _⟩ := known.append ended.last r
    rw [plain] at now
    exact ⟨t', appended, ended.whole.ended now ends⟩

end Instances

section Saving

theorem copyChunks_get (source : List (List UInt8)) (count first : Nat) (sink : List (List UInt8))
    (known : first ≤ sink.length) (i : Nat) :
    (copyChunks source first count sink)[i]? =
      if first ≤ i ∧ i < first + count then some (source.getD i []) else sink[i]? := by
  induction count generalizing first sink with
  | zero =>
      rw [copyChunks, if_neg (by omega)]
  | succ count ih =>
      have longer : first + 1 ≤ (putChunk sink first (source.getD first [])).length := by
        rw [putChunk_length known]
        exact Nat.le_max_right _ _
      rw [copyChunks, ih (first + 1) _ longer, putChunk_get known]
      by_cases here : i = first
      · subst here
        rw [if_neg (by omega), if_pos rfl, if_pos (by omega)]
      · rw [if_neg here]
        by_cases inside : first ≤ i ∧ i < first + (count + 1)
        · rw [if_pos inside, if_pos (by omega)]
        · rw [if_neg inside, if_neg (by omega)]

theorem copyChunks_take {source : List (List UInt8)} {count : Nat} (enough : count ≤ source.length)
    (sink : List (List UInt8)) : (copyChunks source 0 count sink).take count = source.take count := by
  apply List.ext_getElem?
  intro i
  rw [List.getElem?_take, List.getElem?_take]
  by_cases inside : i < count
  · rw [if_pos inside, if_pos inside, copyChunks_get source count 0 sink (Nat.zero_le _),
      if_pos (by omega), List.getD_eq_getElem?_getD, List.getElem?_eq_getElem (by omega)]
    rfl
  · rw [if_neg inside, if_neg inside]

variable {t : ChunkedTrace} {F : List TraceRecord} {chunkSize : Nat} {origin : Origin}

def Loads (origin : Origin) (chunkSize : Nat) (chunks : List (List UInt8)) (F : List TraceRecord) : Prop :=
  ∃ t, chunkedLoadFrom chunkSize chunks = .ok t ∧ Whole origin chunkSize t F ∧
    t.currentChunk = t.startChunk

theorem loads_of_reload {C : Nat → List TraceRecord} {u t : ChunkedTrace} (known : Holds t C F)
    (reloaded : chunkedReload u = .ok t) (opened : Opened u t) (size : u.chunkSize = chunkSize)
    (filled : origin = .filled → u.stream.chunks ≠ []) : Loads origin chunkSize u.stream.chunks F := by
  subst size
  exact ⟨t, reloaded, ⟨⟨C, known⟩, opened.start, opened.chunkSize, fun _ => opened.backed,
    fun same => opened.spare (filled same)⟩, opened.first⟩

/-- Where a trace is saved completely: in its own directory, or in any one if it began with chunks. The
chunk that another trace wrote last may not be in its file when the files are copied. -/
def SavesTo (origin : Origin) (sink : Option (List (List UInt8))) : Prop :=
  sink = none ∨ origin = .filled

theorem Whole.filled (whole : Whole origin chunkSize t F) (some : F ≠ []) : t.mem ≠ [] := by
  intro none
  obtain ⟨C, known⟩ := whole.holds
  by_cases last : t.nchunks ≤ t.currentChunk + 1
  · have first : t.currentChunk = 0 := by
      by_contra ahead
      have start := whole.start
      exact known.ahead (by omega) none
    apply some
    rw [known.fewer last, none, gather_empty (by omega)]
    rfl
  · have full := (known.untouched (by omega) (whole.backed (by omega))).2
    have room := known.room
    rw [none, List.length_nil] at full
    omega

theorem Whole.save (whole : Whole origin chunkSize t F) (some : F ≠ []) (disk : List UInt8 → List UInt8)
    {sink : Option (List (List UInt8))} (saves : SavesTo origin sink) :
    ∃ t' chunks, chunkedSaveTo disk t sink = .ok (t', chunks) ∧ Loads .filled chunkSize chunks F := by
  obtain ⟨C, known⟩ := whole.holds
  obtain ⟨u, C', saved, now, size, closes⟩ := known.save whole.start (whole.filled some)
    fun inner => (known.untouched inner (whole.backed inner)).2
  have length := now.length
  -- the sink has the chunks of the trace, whatever was in it
  have all : u.stream.chunks.take u.nchunks = u.stream.chunks := by
    rw [← length, List.take_length]
  have inside := now.inside
  have copied : chunkedSaveTo disk t sink = .ok (u, u.stream.chunks) := by
    cases sink with
    | none => simp only [chunkedSaveTo, saved, ok_bind, all]
    | some chunks =>
        obtain ⟨closed, total⟩ := closes (whole.spare (saves.resolve_left (Option.some_ne_none chunks)))
        have files : streamFiles disk u.stream = u.stream.chunks := by
          rw [streamFiles, closed, if_neg Bool.false_ne_true]
        have present : (u.nchunks == 0 || decide (u.nchunks - 1 < u.stream.total)) = true := by
          rw [Bool.or_eq_true, decide_eq_true_iff]
          right
          omega
        simp only [chunkedSaveTo, saved, ok_bind, present, check_true, files, copyChunks_take length.ge, all]
  obtain ⟨t', reloaded, after, opened⟩ := now.reload
  refine ⟨u, _, copied, loads_of_reload after reloaded opened (size.trans whole.chunkSize) ?_⟩
  intro _
  rw [← List.length_pos_iff]
  omega

end Saving

section Traces

variable {chunkSize : Nat} {t : ChunkedTrace} {F : List TraceRecord} {origin : Origin}

/-- The chunked traces of the given chunk size, with their records: those that are created in an empty
directory or loaded, and then looked at or changed at their end. -/
inductive IsTrace (chunkSize : Nat) : Origin → ChunkedTrace → List TraceRecord → Prop
  | created {t : ChunkedTrace} (create : chunkedCreate streamCreate chunkSize = .ok t) :
      IsTrace chunkSize .empty t []
  | appended {origin : Origin} {t t' : ChunkedTrace} {F : List TraceRecord} {r : TraceRecord}
      (trace : IsTrace chunkSize origin t F) (last : t.nchunks ≤ t.currentChunk + 1)
      (append : chunkedAppend t r = .ok t') : IsTrace chunkSize origin t' (F ++ [r.content])
  | looked {origin : Origin} {t t' : ChunkedTrace} {F : List TraceRecord} {r : Option TraceRecord}
      (trace : IsTrace chunkSize origin t F) (last : chunkedLast t = .ok (r, t')) :
      IsTrace chunkSize origin t' F
  | forgotten {origin : Origin} {t t' : ChunkedTrace} {F : List TraceRecord}
      (trace : IsTrace chunkSize origin t F) (forget : chunkedForget t = .ok t') :
      IsTrace chunkSize origin t' F.dropLast
  | loaded {origin : Origin} {t saved t' : ChunkedTrace} {F : List TraceRecord}
      {disk : List UInt8 → List UInt8} {sink : Option (List (List UInt8))} {chunks : List (List UInt8)}
      (trace : IsTrace chunkSize origin t F) (some : F ≠ []) (saves : SavesTo origin sink)
      (save : chunkedSaveTo disk t sink = .ok (saved, chunks))
      (load : chunkedLoadFrom chunkSize chunks = .ok t') : IsTrace chunkSize .filled t' F

theorem IsTrace.whole (room : 0 < chunkSize) (trace : IsTrace chunkSize origin t F) :
    Whole origin chunkSize t F := by
  have back := fun origin => chunked_fromBack origin chunkSize
  induction trace with
  | created create =>
      rw [chunkedCreate_eq room] at create
      cases create
      exact ⟨⟨fun _ => [], holds_create room rfl rfl rfl (Nat.le_refl _) _⟩, rfl, rfl, fun _ => rfl,
        fun filled => by cases filled⟩
  | appended _ last append whole =>
      obtain ⟨C, known⟩ := whole.holds
      obtain ⟨t', C', appended, now, ends, _⟩ := known.append last _
      rw [append] at appended
      cases appended
      exact (whole.ended now ends).whole
  | looked _ last whole =>
      obtain ⟨t', found, now⟩ := (back _).last whole
      cases last.symm.trans found
      exact now.whole
  | forgotten _ forget whole =>
      obtain ⟨t', forgot, now⟩ := (back _).forget whole
      cases forget.symm.trans forgot
      exact now.whole
  | loaded _ some saves save load whole =>
      obtain ⟨u, chunks, saved, t', reloaded, now, _⟩ := whole.save some _ saves
      cases save.symm.trans saved
      cases load.symm.trans reloaded
      exact now

end Traces

section Trim

def Ends (F : List TraceRecord) (clk : UInt64) : Prop := (F.getLast?.map fun r => r.clk) = some clk

instance (F : List TraceRecord) (clk : UInt64) : Decidable (Ends F clk) :=
  inferInstanceAs (Decidable (_ = _))

theorem Ends.last {F : List TraceRecord} {clk : UInt64} (ends : Ends F clk) :
    ∃ last, F.getLast? = some last ∧ last.clk = clk := by
  unfold Ends at ends
  rw [Option.map_eq_some_iff] at ends
  exact ends

def recordsAt (clks : List UInt64) : List TraceRecord := clks.map (plainRecord 1)

end Trim

end Lotto.TraceTrim
