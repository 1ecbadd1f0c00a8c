import Lotto.Library.Gather
import Lotto.ChunkedSpecs

namespace Lotto.ChunkedInvariant

open Library.FaultRun Library.Gather TraceFormat ChunkedSpecs

structure Stored (chunks : List (List UInt8)) (chunkSize i : Nat) (block : List TraceRecord) : Prop where
  bytes : chunks[i]? = some (encode block)
  plain : ∀ r ∈ block, r.content = r
  filled : block ≠ []
  fits : block.length ≤ chunkSize

structure Rests (t : ChunkedTrace) (s m : Nat) (C : Nat → List TraceRecord) : Prop where
  backed : t.backed = true
  size : t.currentSize = t.mem.length
  room : 0 < t.chunkSize
  stored : ∀ i, s ≤ i → i < m → Stored t.stream.chunks t.chunkSize i (C i)
  whole : ∀ i, s ≤ i → i + 1 < m → (C i).length = t.chunkSize
  total : t.stream.chunks.length ≤ t.stream.total

/-- The trace holds `F`: the block in memory, those before it and those behind it. -/
structure Holds (t : ChunkedTrace) (C : Nat → List TraceRecord) (F : List TraceRecord) : Prop where
  room : 0 < t.chunkSize
  size : t.currentSize = t.mem.length
  fits : t.mem.length ≤ t.chunkSize
  plain : ∀ r ∈ t.mem, r.content = r
  started : t.startChunk ≤ t.currentChunk
  counted : t.currentChunk ≤ t.nchunks
  edge : t.currentChunk = t.startChunk ∨ t.nchunks ≤ t.currentChunk + 1
  position : t.stream.current = t.currentChunk
  fresh : t.stream.writing = false
  known : t.nchunks ≤ t.stream.chunks.length
  total : t.stream.chunks.length ≤ t.stream.total
  stored : ∀ i, t.startChunk ≤ i → i < t.nchunks → i ≠ t.currentChunk →
    Stored t.stream.chunks t.chunkSize i (C i)
  whole : ∀ i, t.startChunk ≤ i → i < t.nchunks → i ≠ t.currentChunk →
    i + 1 < t.nchunks ∨ i < t.currentChunk → (C i).length = t.chunkSize
  untouched : t.currentChunk + 1 < t.nchunks → t.backed = true →
    t.stream.chunks[t.currentChunk]? = some (encode t.mem) ∧ t.mem.length = t.chunkSize
  ahead : t.startChunk < t.currentChunk → t.mem ≠ []
  unread : t.nchunks = 0 → t.stream.unread = []
  records : F = gather C t.startChunk t.currentChunk ++
    (t.mem ++ gather C (t.currentChunk + 1) t.nchunks)

/-- The block in memory is stored as it is, or will be before it is left. -/
def Kept (t : ChunkedTrace) : Prop :=
  t.backed = true → t.currentChunk < t.nchunks ∧
    t.stream.chunks[t.currentChunk]? = some (encode t.mem)

def loaded (t : ChunkedTrace) (chunk : Nat) (block : List TraceRecord) : ChunkedTrace :=
  { t with
    mem := block, currentSize := block.length, currentChunk := chunk
    stream := { streamScan t.stream with current := chunk, unread := [], writing := false } }

/-- The files that were counted cover the chunk in memory as well, once one of them was opened again to
be written. -/
def Spare (t : ChunkedTrace) : Prop := max t.nchunks (t.currentChunk + 1) ≤ t.stream.total

variable {t u : ChunkedTrace} {C : Nat → List TraceRecord} {F : List TraceRecord} {s m j : Nat}

theorem spare_loaded {block : List TraceRecord} {n : Nat} (inside : j + 1 ≤ max t.nchunks (t.currentChunk + 1))
    (fewer : n ≤ t.nchunks) (spare : Spare t) : Spare { loaded t j block with nchunks := n } := by
  have counted := streamScan_total t.stream
  unfold Spare at spare
  change max n (j + 1) ≤ (streamScan t.stream).total
  omega

theorem Rests.known (rests : Rests t s m C) (some : s < m) : m ≤ t.stream.chunks.length := by
  obtain ⟨inside, _⟩ := List.getElem?_eq_some_iff.mp (rests.stored (m - 1) (by omega) (by omega)).bytes
  omega

theorem Rests.holds (rests : Rests t s m C) (low : s ≤ j) (high : j < m)
    (edge : j = s ∨ j + 1 = m) {n : Nat} (count : n = m ∨ j + 1 = m ∧ n = j) :
    Holds { loaded t j (C j) with startChunk := s, nchunks := n } C (gather C s m) := by
  have here := rests.stored j low high
  have known := rests.known (Nat.lt_of_le_of_lt low high)
  constructor
  case room => exact rests.room
  case size => rfl
  case fits => exact here.fits
  case plain => exact here.plain
  case started => exact low
  case counted => simp only [loaded]; omega
  case edge => simp only [loaded]; omega
  case position => rfl
  case fresh => rfl
  case known =>
    change n ≤ t.stream.chunks.length
    omega
  case total => exact streamScan_counts rests.total
  case stored =>
    intro i above below _
    exact rests.stored i above (by simp only at below; omega)
  case whole =>
    intro i above below _ inner
    exact rests.whole i above (by simp only [loaded] at below inner; omega)
  case untouched =>
    intro inner _
    exact ⟨here.bytes, rests.whole j low (by simp only [loaded] at inner; omega)⟩
  case ahead => exact fun _ => here.filled
  case unread => exact fun _ => rfl
  case records =>
    rcases count with same | ⟨last, same⟩
    · rw [same]
      change _ = gather C s j ++ (C j ++ gather C (j + 1) m)
      rw [← gather_cons high, gather_append low (Nat.le_of_lt high)]
    · rw [same, ← last]
      change _ = gather C s j ++ (C j ++ gather C (j + 1) j)
      rw [gather_empty (Nat.le_succ j), List.append_nil, gather_snoc low]

theorem Rests.checked (rests : Rests t s m C) (low : s ≤ j) (high : j < m) :
    (C j).length = t.chunkSize ∨ j + 1 = m := by
  rcases Nat.eq_or_lt_of_le (Nat.succ_le_of_lt high) with last | inner
  · exact .inr last
  · exact .inl (rests.whole j low inner)

theorem Rests.setChunk_eq (rests : Rests t s m C) (apart : t.currentChunk ≠ j) (low : s ≤ j)
    (high : j < m) (checked : (C j).length = t.chunkSize ∨ j + 1 = t.nchunks) :
    setChunk t j = .ok (loaded t j (C j)) := by
  have here := rests.stored j low high
  exact setChunk_ok rests.backed rests.size apart here.bytes here.plain here.fits
    (checked.imp_right Or.inr)

structure Turned (t : ChunkedTrace) (j : Nat) (F : List TraceRecord) (t' : ChunkedTrace) : Prop where
  holds : ∃ C, Holds t' C F
  chunk : t'.currentChunk = j
  start : t'.startChunk = t.startChunk
  filled : t'.mem ≠ []
  chunkSize : t'.chunkSize = t.chunkSize
  spare : Spare t → Spare t'

theorem Rests.turn (rests : Rests t t.startChunk t.nchunks C) (apart : t.currentChunk ≠ j)
    (low : t.startChunk ≤ j) (high : j < t.nchunks) (edge : j = t.startChunk ∨ j + 1 = t.nchunks) :
    ∃ t', setChunk t j = .ok t' ∧ Turned t j (gather C t.startChunk t.nchunks) t' ∧
      t'.nchunks = t.nchunks := by
  have here := rests.stored j low high
  refine ⟨loaded t j (C j), rests.setChunk_eq apart low high (rests.checked low high), ?_, rfl⟩
  refine ⟨⟨C, rests.holds low high edge (.inl rfl)⟩, rfl, rfl, here.filled, rfl, ?_⟩
  exact spare_loaded (by omega) (Nat.le_refl _)

theorem Rests.follow {r : TraceRecord} (rests : Rests t t.startChunk m C)
    (started : t.startChunk ≤ t.currentChunk) (here : t.currentChunk + 1 = m) (count : t.nchunks = m)
    (full : (C t.currentChunk).length = t.chunkSize) (position : t.stream.current = t.currentChunk) :
    Holds { nextChunk t with mem := [r.content], currentSize := 1, backed := false } C
      (gather C t.startChunk m ++ [r.content]) := by
  have known := rests.known (show t.startChunk < m by omega)
  constructor
  case room => exact rests.room
  case size => rfl
  case fits => exact rests.room
  case plain =>
    intro r' member
    obtain rfl := List.mem_singleton.mp member
    rfl
  case started => exact Nat.le_succ_of_le started
  case counted => exact (here.trans count.symm).le
  case edge => simp only [nextChunk]; omega
  case position => exact congrArg (· + 1) position
  case fresh => rfl
  case known => exact count ▸ known
  case total => exact rests.total
  case stored =>
    intro i low high _
    exact rests.stored i low (count ▸ high)
  case whole =>
    intro i low high _ _
    change i < t.nchunks at high
    by_cases last : i = t.currentChunk
    · exact last ▸ full
    · exact rests.whole i low (by omega)
  case untouched => exact fun _ backed => by cases backed
  case ahead => exact fun _ => by simp
  case unread => exact fun none => by simp only [nextChunk] at none; omega
  case records =>
    change _ = gather C t.startChunk (t.currentChunk + 1) ++
      ([r.content] ++ gather C (t.currentChunk + 1 + 1) t.nchunks)
    have none : gather C (t.currentChunk + 1 + 1) t.nchunks = [] := gather_empty (by omega)
    rw [none, here, List.append_nil]

structure Flushed (t u : ChunkedTrace) : Prop where
  empty : u.mem = []
  chunk : u.currentChunk = t.currentChunk
  start : u.startChunk = t.startChunk
  count : u.nchunks = max t.nchunks (t.currentChunk + 1)
  position : u.stream.current = t.currentChunk
  chunkSize : u.chunkSize = t.chunkSize
  total : u.stream.total = t.stream.total + 1

theorem Flushed.spare (flushed : Flushed t u) (spare : Spare t) : Spare u := by
  unfold Spare at spare ⊢
  rw [flushed.count, flushed.chunk, flushed.total]
  omega

structure AtEnd (t t' : ChunkedTrace) : Prop where
  start : t'.startChunk = t.startChunk
  last : t'.nchunks ≤ t'.currentChunk + 1
  chunkSize : t'.chunkSize = t.chunkSize
  spare : Spare t → Spare t'

structure Front (t : ChunkedTrace) (C : Nat → List TraceRecord) (F : List TraceRecord) : Prop where
  holds : Holds t C F
  first : t.currentChunk = t.startChunk
  rest : t.mem = [] → F = []

section Holds

variable (known : Holds t C F)
include known

theorem Holds.fewer : t.nchunks ≤ t.currentChunk + 1 →
    F = gather C t.startChunk t.currentChunk ++ t.mem := by
  intro last
  rw [known.records, gather_empty last, List.append_nil]

theorem Holds.rests (filled : t.mem ≠ []) (backed : t.backed = true) (kept : Kept t) :
    Rests t t.startChunk t.nchunks (Function.update C t.currentChunk t.mem) := by
  obtain ⟨inside, bytes⟩ := kept backed
  refine ⟨backed, known.size, known.room, ?_, ?_, known.total⟩
  · intro i low high
    by_cases here : i = t.currentChunk
    · subst here
      rw [Function.update_self]
      exact ⟨bytes, known.plain, filled, known.fits⟩
    · rw [Function.update_of_ne here]
      exact known.stored i low high here
  · intro i low high
    by_cases here : i = t.currentChunk
    · subst here
      rw [Function.update_self]
      exact (known.untouched high backed).2
    · rw [Function.update_of_ne here]
      exact known.whole i low (by omega) here (.inl high)

theorem Holds.gathered : F = gather (Function.update C t.currentChunk t.mem) t.startChunk
    (max t.nchunks (t.currentChunk + 1)) := by
  have inside : t.currentChunk < max t.nchunks (t.currentChunk + 1) := by omega
  have behind : gather C (t.currentChunk + 1) t.nchunks =
      gather C (t.currentChunk + 1) (max t.nchunks (t.currentChunk + 1)) := by
    by_cases inner : t.currentChunk + 1 ≤ t.nchunks
    · rw [Nat.max_eq_left inner]
    · rw [gather_empty (by omega), gather_empty (by omega)]
  rw [known.records, behind, ← gather_append known.started (Nat.le_of_lt inside), gather_cons inside,
    gather_update _ (.inr (Nat.le_refl _)), gather_update _ (.inl (Nat.lt_succ_self _)),
    Function.update_self]

theorem Holds.flush (filled : t.mem ≠ [])
    (full : t.currentChunk + 1 < t.nchunks → t.mem.length = t.chunkSize) :
    ∃ u, flushChunk t = .ok u ∧ Flushed t u ∧
      Rests u t.startChunk (max t.nchunks (t.currentChunk + 1))
        (Function.update C t.currentChunk t.mem) := by
  have inside : t.stream.current ≤ t.stream.chunks.length := by
    rw [known.position]
    exact known.counted.trans known.known
  have counted : (if t.currentChunk = t.nchunks then t.nchunks + 1 else t.nchunks) =
      max t.nchunks (t.currentChunk + 1) := by
    have below := known.counted
    split <;> omega
  refine ⟨_, flushChunk_some filled known.size known.plain known.fresh inside,
    ⟨rfl, rfl, rfl, counted, known.position, rfl, rfl⟩, rfl, rfl, known.room, ?_, ?_, ?_⟩
  · intro i low high
    by_cases here : i = t.currentChunk
    · subst here
      rw [Function.update_self]
      refine ⟨?_, known.plain, filled, known.fits⟩
      rw [putChunk_get inside, if_pos known.position.symm]
    · have block := known.stored i low (by have := known.counted; omega) here
      rw [Function.update_of_ne here]
      refine ⟨?_, block.plain, block.filled, block.fits⟩
      rw [putChunk_get inside, if_neg (known.position ▸ here)]
      exact block.bytes
  · intro i low high
    by_cases here : i = t.currentChunk
    · subst here
      rw [Function.update_self]
      exact full (by omega)
    · rw [Function.update_of_ne here]
      exact known.whole i low (by have := known.counted; omega) here (by omega)
  · have longer := putChunk_length inside (encode t.mem)
    have total := known.total
    simp only [longer]
    omega

theorem Holds.leave (filled : t.mem ≠ []) (kept : Kept t)
    (backed : t.currentChunk + 1 < t.nchunks → t.backed = true) :
    ∃ u C, (∀ j, setChunk t j = setChunk u j) ∧ Rests u u.startChunk u.nchunks C ∧
      F = gather C u.startChunk u.nchunks ∧ u.currentChunk = t.currentChunk ∧
      u.startChunk = t.startChunk ∧ u.nchunks = max t.nchunks (t.currentChunk + 1) ∧
      u.chunkSize = t.chunkSize ∧ (Spare t → Spare u) := by
  by_cases old : t.backed = true
  · have inside : max t.nchunks (t.currentChunk + 1) = t.nchunks :=
      Nat.max_eq_left (kept old).1
    have gathered := known.gathered
    rw [inside] at gathered
    exact ⟨t, _, fun _ => rfl, known.rests filled old kept, gathered, rfl, rfl, inside.symm, rfl, id⟩
  · have last : t.nchunks ≤ t.currentChunk + 1 := by
      by_contra inner
      exact old (backed (by omega))
    obtain ⟨u, flushed, same, rests⟩ := known.flush filled (fun inner => absurd inner (by omega))
    have unbacked : t.backed = false := by simpa using old
    refine ⟨u, Function.update C t.currentChunk t.mem, fun j => ?_, ?_, ?_, same.chunk, same.start,
      same.count, same.chunkSize, same.spare⟩
    · exact setChunk_flush unbacked flushed rests.backed same.chunk
    · rw [same.start, same.count]
      exact rests
    · rw [same.start, same.count]
      exact known.gathered

theorem Holds.turn (filled : t.mem ≠ []) (kept : Kept t)
    (backed : t.currentChunk + 1 < t.nchunks → t.backed = true) (apart : t.currentChunk ≠ j)
    (low : t.startChunk ≤ j) (high : j < max t.nchunks (t.currentChunk + 1))
    (edge : j = t.startChunk ∨ j + 1 = max t.nchunks (t.currentChunk + 1)) :
    ∃ t', setChunk t j = .ok t' ∧ Turned t j F t' ∧
      t'.nchunks = max t.nchunks (t.currentChunk + 1) := by
  obtain ⟨u, C', same, rests, records, chunk, start, count, size, spare⟩ :=
    known.leave filled kept backed
  obtain ⟨t', set, turned, kept⟩ := rests.turn (chunk ▸ apart) (start ▸ low) (count ▸ high)
    (start ▸ count ▸ edge)
  rw [← records] at turned
  exact ⟨t', (same j).trans set, { turned with
    start := turned.start.trans start, chunkSize := turned.chunkSize.trans size
    spare := fun old => turned.spare (spare old) }, kept.trans count⟩

theorem Holds.refill {block : List TraceRecord} (backed : Bool) (fits : block.length ≤ t.chunkSize)
    (plain : ∀ r ∈ block, r.content = r) (last : backed = true → t.nchunks ≤ t.currentChunk + 1)
    (ahead : t.startChunk < t.currentChunk → block ≠ []) :
    Holds { t with mem := block, currentSize := block.length, backed } C
      (gather C t.startChunk t.currentChunk ++ (block ++ gather C (t.currentChunk + 1) t.nchunks)) :=
  { known with
    size := rfl, fits, plain, ahead, records := rfl
    untouched := fun inner old => absurd inner (Nat.not_lt.mpr (last old)) }

theorem Holds.recount {total : Nat} (counted : t.stream.chunks.length ≤ total) :
    Holds { t with stream := { t.stream with total } } C F :=
  { known with total := counted }

theorem Holds.append_room (last : t.nchunks ≤ t.currentChunk + 1) (room : t.currentSize ≠ t.chunkSize)
    (r : TraceRecord) :
    ∃ t' C', chunkedAppend t r = .ok t' ∧ Holds t' C' (F ++ [r.content]) ∧
      AtEnd t t' ∧ t'.mem ≠ [] := by
  have more : (t.mem ++ [r.content]).length ≤ t.chunkSize := by
    have old := known.fits
    rw [known.size] at room
    rw [List.length_append, List.length_singleton]
    omega
  have plain : ∀ r' ∈ t.mem ++ [r.content], r'.content = r' := by
    intro r' member
    rcases List.mem_append.mp member with old | new
    · exact known.plain r' old
    · obtain rfl := List.mem_singleton.mp new
      rfl
  have size : t.currentSize + 1 = (t.mem ++ [r.content]).length := by
    rw [known.size, List.length_append, List.length_singleton]
  refine ⟨_, C, chunkedAppend_room room r, ?_, ⟨rfl, last, rfl, id⟩, by simp⟩
  rw [size]
  have now := known.refill false more plain (fun old => by cases old) (fun _ => by simp)
  rw [gather_empty last, List.append_nil, ← List.append_assoc, ← known.fewer last] at now
  exact now

theorem Holds.append_full (last : t.nchunks ≤ t.currentChunk + 1) (full : t.currentSize = t.chunkSize)
    (r : TraceRecord) :
    ∃ t' C', chunkedAppend t r = .ok t' ∧ Holds t' C' (F ++ [r.content]) ∧
      AtEnd t t' ∧ t'.mem ≠ [] := by
  have filled : t.mem ≠ [] := by
    intro none
    have := known.room
    have := known.size
    simp only [none, List.length_nil] at this
    omega
  obtain ⟨u, flushed, same, rests⟩ := known.flush filled (fun _ => known.size ▸ full)
  have appended : chunkedAppend t r = .ok { nextChunk u with
      mem := [r.content], currentSize := 1, backed := false } := by
    have size : u.currentSize = 0 := by
      rw [rests.size, same.empty]
      rfl
    simp only [chunkedAppend, if_pos full, flushed, ok_bind, nextChunk, same.empty, size,
      List.nil_append, Nat.zero_add]
  have block : (Function.update C t.currentChunk t.mem u.currentChunk).length = u.chunkSize := by
    rw [same.chunk, same.chunkSize, Function.update_self, ← full, known.size]
  have behind : u.currentChunk + 1 = max t.nchunks (t.currentChunk + 1) := by
    rw [same.chunk, Nat.max_eq_right last]
  have now := Rests.follow (r := r) (same.start ▸ rests) (same.start ▸ same.chunk ▸ known.started)
    behind same.count block (same.position.trans same.chunk.symm)
  rw [same.start, ← known.gathered] at now
  refine ⟨_, _, appended, now, ⟨same.start, ?_, same.chunkSize, ?_⟩, by simp⟩
  · change u.nchunks ≤ u.currentChunk + 1 + 1
    rw [same.count, behind]
    exact Nat.le_succ _
  · intro spare
    unfold Spare at spare
    change max u.nchunks (u.currentChunk + 1 + 1) ≤ u.stream.total
    rw [same.count, same.chunk, same.total]
    omega

theorem Holds.append (last : t.nchunks ≤ t.currentChunk + 1) (r : TraceRecord) :
    ∃ t' C', chunkedAppend t r = .ok t' ∧ Holds t' C' (F ++ [r.content]) ∧
      AtEnd t t' ∧ t'.mem ≠ [] := by
  by_cases full : t.currentSize = t.chunkSize
  · exact known.append_full last full r
  · exact known.append_room last full r

theorem Holds.start (first : t.currentChunk = t.startChunk) :
    F = t.mem ++ gather C (t.currentChunk + 1) t.nchunks := by
  rw [known.records, gather_empty first.le, List.nil_append]

omit known in
theorem Front.head (front : Front t C F) : F.head? = t.mem.head? := by
  cases filled : t.mem with
  | nil => rw [front.rest filled]
  | cons r block =>
      rw [front.holds.start front.first, filled]
      rfl

theorem Holds.peek_next (first : t.currentChunk = t.startChunk) (none : t.mem = []) :
    ∃ t' C', loadNextChunk t = .ok t' ∧ Front { t' with startChunk := t'.currentChunk } C' F := by
  have size : t.currentSize = 0 := by
    rw [known.size, none]
    rfl
  have rest : F = gather C (t.currentChunk + 1) t.nchunks := by
    rw [known.start first, none, List.nil_append]
  by_cases fewer : t.nchunks ≤ t.currentChunk + 1
  · have nothing : F = [] := rest.trans (gather_empty fewer)
    have still : ∀ backed, Holds { t with startChunk := t.currentChunk, backed } C F := by
      intro backed
      have now := known.refill backed (known.fits) known.plain (fun _ => fewer) known.ahead
      rw [← known.records, ← known.size, ← first] at now
      exact now
    by_cases counted : t.nchunks = 0
    · refine ⟨{ t with backed := true, stream := streamScan t.stream }, C, ?_,
        (still true).recount (streamScan_counts known.total), rfl, fun _ => nothing⟩
      rw [loadNextChunk, if_pos counted]
      exact loadChunk_empty none size (known.unread counted) (by omega)
    · refine ⟨t, C, ?_, still t.backed, rfl, fun _ => nothing⟩
      rw [loadNextChunk, if_neg counted, if_neg (by omega)]
  · have rests : Rests { t with backed := true } (t.currentChunk + 1) t.nchunks C :=
      ⟨rfl, known.size, known.room, fun i low high => known.stored i (by omega) high (by omega),
        fun i low high => known.whole i (by omega) (by omega) (by omega) (.inl high), known.total⟩
    have inside : t.currentChunk + 1 < t.nchunks := by omega
    have set := rests.setChunk_eq (j := t.currentChunk + 1) (Nat.ne_of_lt (Nat.lt_succ_self _))
      (Nat.le_refl _) inside (rests.checked (Nat.le_refl _) inside)
    refine ⟨loaded { t with backed := true } (t.currentChunk + 1) (C (t.currentChunk + 1)), C, ?_, ?_,
      rfl, ?_⟩
    · rw [loadNextChunk, if_neg (by omega), if_pos inside, setChunk_empty none]
      exact set
    · rw [rest]
      exact rests.holds (Nat.le_refl _) inside (.inl rfl) (.inl rfl)
    · intro empty
      exact absurd empty (rests.stored _ (Nat.le_refl _) inside).filled

theorem Holds.peek_here (first : t.currentChunk = t.startChunk) :
    ∃ t' C', chunkedPeek t = .ok (F.head?, t') ∧ Front t' C' F := by
  have stay : ¬ t.startChunk < t.currentChunk := by omega
  cases filled : t.mem with
  | cons r block =>
      have head : F.head? = t.mem.head? := by
        rw [known.start first, filled]
        rfl
      refine ⟨t, C, ?_, known, first, fun none => ?_⟩
      · simp only [chunkedPeek, if_neg stay, ok_bind, filled, List.isEmpty_cons, Bool.false_eq_true,
          if_false, head]
      · rw [filled] at none
        cases none
  | nil =>
      have peeked : chunkedPeek t = (do
          let t ← loadNextChunk t
          .ok (t.mem.head?, { t with startChunk := t.currentChunk })) := by
        simp only [chunkedPeek, if_neg stay, ok_bind, filled, List.isEmpty_nil, if_true]
      obtain ⟨t', C', next, front⟩ := known.peek_next first filled
      rw [peeked, next, ok_bind]
      exact ⟨_, C', by rw [front.head], front⟩

end Holds

/-- `_peek` finds the first record of the trace, in the block in memory or in the first one that it
loads instead. -/
def Peekable (t : ChunkedTrace) (F : List TraceRecord) : Prop :=
  (t.currentChunk = t.startChunk ∧ ∃ C, Holds t C F) ∨
  (t.startChunk < t.currentChunk ∧ ∃ t', setChunk t t.startChunk = .ok t' ∧ Turned t t.startChunk F t')

theorem Holds.peekable (known : Holds t C F) (kept : t.startChunk < t.currentChunk → Kept t) :
    Peekable t F := by
  rcases Nat.eq_or_lt_of_le known.started with first | ahead
  · exact .inl ⟨first.symm, C, known⟩
  · have last : t.nchunks ≤ t.currentChunk + 1 := known.edge.resolve_left (by omega)
    obtain ⟨t', set, turned, _⟩ := known.turn (known.ahead ahead) (kept ahead) (by omega)
      (Nat.ne_of_gt ahead) (Nat.le_refl _) (by omega) (.inl rfl)
    exact .inr ⟨ahead, t', set, turned⟩

theorem Front.peekable (front : Front t C F) : Peekable t F := .inl ⟨front.first, C, front.holds⟩

theorem Peekable.peek (peekable : Peekable t F) :
    ∃ t' C', chunkedPeek t = .ok (F.head?, t') ∧ Front t' C' F := by
  rcases peekable with ⟨first, C, known⟩ | ⟨ahead, t', set, turned⟩
  · exact known.peek_here first
  · obtain ⟨C, known⟩ := turned.holds
    have first : t'.currentChunk = t'.startChunk := turned.chunk.trans turned.start.symm
    have same : chunkedPeek t = chunkedPeek t' := by
      have stay : ¬ t'.startChunk < t'.currentChunk := by omega
      simp only [chunkedPeek, if_pos ahead, set, ok_bind, if_neg stay]
    rw [same]
    exact known.peek_here first

theorem Front.pop (front : Front t C F) (some : F ≠ []) :
    Holds { t with mem := t.mem.tail, currentSize := t.currentSize - 1, backed := false } C F.tail := by
  have known := front.holds
  have size : t.currentSize - 1 = t.mem.tail.length := by
    rw [known.size, List.length_tail]
  have fits : t.mem.tail.length ≤ t.chunkSize := by
    rw [List.length_tail]
    exact (Nat.sub_le _ _).trans known.fits
  have now := known.refill false fits
    (fun r member => known.plain r (List.mem_of_mem_tail member)) (fun old => by cases old)
    (fun ahead => by have := front.first; omega)
  have rest : F.tail = t.mem.tail ++ gather C (t.currentChunk + 1) t.nchunks := by
    rw [known.start front.first]
    exact List.tail_append_of_ne_nil (fun none => some (front.rest none))
  rw [gather_empty front.first.le, List.nil_append, ← rest, ← size] at now
  exact now

theorem Peekable.advance (peekable : Peekable t F) (some : F ≠ []) :
    ∃ t' C', chunkedAdvance t = .ok t' ∧ Holds t' C' F.tail ∧ t'.currentChunk = t'.startChunk := by
  obtain ⟨u, C, peeked, front⟩ := peekable.peek
  obtain ⟨r, found⟩ := Option.isSome_iff_exists.mp (List.isSome_head?.mpr some)
  rw [found] at peeked
  refine ⟨_, C, ?_, front.pop some, front.first⟩
  simp only [chunkedAdvance, peeked, ok_bind]

theorem Front.next_loop (front : Front t C F) (filter : UInt32) {fuel : Nat} (enough : F.length ≤ fuel) :
    ∃ t' C', chunkedNextLoop filter fuel F.head? t = .ok ((flatNext filter F).1, t') ∧
      Front t' C' (flatNext filter F).2 := by
  induction F generalizing t C fuel with
  | nil => exact ⟨t, C, by cases fuel <;> rfl, front⟩
  | cons r F ih =>
      cases fuel with
      | zero => simp at enough
      | succ fuel =>
          by_cases passes : r.matches filter = true
          · refine ⟨t, C, ?_, ?_⟩
            · simp only [List.head?_cons, chunkedNextLoop, passes, if_true, flatNext]
            · simpa only [flatNext, passes, if_true] using front
          · obtain ⟨u, C, advanced, known, first⟩ := front.peekable.advance (by simp)
            obtain ⟨v, C, peeked, still⟩ := known.peek_here first
            obtain ⟨t', C', looped, after⟩ := ih still (Nat.le_of_succ_le_succ enough)
            refine ⟨t', C', ?_, ?_⟩
            · rw [List.tail_cons] at peeked
              rw [List.head?_cons, chunkedNextLoop, if_neg passes, flatNext, if_neg passes, advanced,
                ok_bind, peeked, ok_bind]
              exact looped
            · rw [flatNext, if_neg passes]
              exact after

section Fuel

theorem stored_length {first last : Nat} (stored : ∀ i, first ≤ i → i < last →
    Stored t.stream.chunks t.chunkSize i (C i)) :
    (gather C first last).length ≤ (t.stream.chunks.map List.length).sum := by
  refine length_gather_le fun i low high => ⟨(encode (C i)).length, ?_, length_le_encode _⟩
  rw [List.getElem?_map, (stored i low high).bytes]
  rfl

theorem Holds.enough (known : Holds t C F) : F.length ≤ chunkedFuel t := by
  rw [known.records, List.length_append, List.length_append, chunkedFuel]
  rcases known.edge with first | last
  · have behind := stored_length fun i (low : t.currentChunk + 1 ≤ i) (high : i < t.nchunks) =>
      known.stored i (show t.startChunk ≤ i by omega) high (show i ≠ t.currentChunk by omega)
    rw [gather_empty first.le, List.length_nil]
    omega
  · have before := stored_length fun i low (high : i < t.currentChunk) =>
      known.stored i low (by have := known.counted; omega) (Nat.ne_of_lt high)
    rw [gather_empty last, List.length_nil]
    omega

theorem Rests.enough (rests : Rests t s m C) : (gather C s m).length ≤ chunkedFuel t := by
  have blocks := stored_length rests.stored
  rw [chunkedFuel]
  omega

end Fuel

theorem Peekable.next (peekable : Peekable t F) (enough : F.length ≤ chunkedFuel t) (filter : UInt32) :
    ∃ t' C', chunkedNext filter t = .ok ((flatNext filter F).1, t') ∧
      Front t' C' (flatNext filter F).2 := by
  obtain ⟨u, C, peeked, front⟩ := peekable.peek
  obtain ⟨t', C', looped, after⟩ := front.next_loop filter enough
  refine ⟨t', C', ?_, after⟩
  rw [chunkedNext, peeked, ok_bind]
  exact looped

section Back

theorem Holds.getLast (known : Holds t C F) (last : t.nchunks ≤ t.currentChunk + 1)
    (filled : t.mem = [] → t.currentChunk = 0) : F.getLast? = t.mem.getLast? := by
  rw [known.fewer last]
  by_cases none : t.mem = []
  · rw [none, gather_empty (by rw [filled none]; exact Nat.zero_le _)]
    rfl
  · exact List.getLast?_append_of_ne_nil _ none

theorem Turned.chunkedLast_eq {t' : ChunkedTrace} (inner : t.currentChunk + 1 < t.nchunks)
    (set : setChunk t (t.nchunks - 1) = .ok t') (turned : Turned t (t.nchunks - 1) F t')
    (count : t'.nchunks = t.nchunks) : chunkedLast t = .ok (F.getLast?, t') := by
  obtain ⟨C, known⟩ := turned.holds
  have found := known.getLast (by have := turned.chunk; omega) (fun none => absurd none turned.filled)
  rw [chunkedLast, if_neg (by omega), set, ok_bind, found]

theorem Holds.turn_end (known : Holds t C F) (inner : t.currentChunk + 1 < t.nchunks)
    (backed : t.backed = true) :
    ∃ t', setChunk t (t.nchunks - 1) = .ok t' ∧ Turned t (t.nchunks - 1) F t' ∧
      t'.nchunks = t.nchunks := by
  obtain ⟨bytes, full⟩ := known.untouched inner backed
  have filled : t.mem ≠ [] := by
    rw [← List.length_pos_iff, full]
    exact known.room
  have started := known.started
  have whole : max t.nchunks (t.currentChunk + 1) = t.nchunks := Nat.max_eq_left inner.le
  have turned := known.turn (j := t.nchunks - 1) filled (fun _ => ⟨by omega, bytes⟩) (fun _ => backed)
    (by omega) (by omega) (by omega) (by omega)
  rw [whole] at turned
  exact turned

theorem Holds.last (known : Holds t C F) (backed : t.currentChunk + 1 < t.nchunks → t.backed = true)
    (filled : t.nchunks ≤ t.currentChunk + 1 → t.mem = [] → t.currentChunk = 0) :
    ∃ t' C', chunkedLast t = .ok (F.getLast?, t') ∧ Holds t' C' F ∧ AtEnd t t' := by
  by_cases last : t.nchunks ≤ t.currentChunk + 1
  · refine ⟨t, C, ?_, known, rfl, last, rfl, id⟩
    have stay : ¬ (t.mem.isEmpty = true ∧ 0 < t.currentChunk) := by
      rintro ⟨none, inner⟩
      have := filled last (by simpa using none)
      omega
    rw [chunkedLast, if_pos last, if_neg stay, ok_bind, known.getLast last (filled last)]
  · have inner : t.currentChunk + 1 < t.nchunks := by omega
    obtain ⟨t', set, turned, count⟩ := known.turn_end inner (backed inner)
    obtain ⟨C', now⟩ := turned.holds
    exact ⟨t', C', turned.chunkedLast_eq inner set count, now, turned.start,
      by rw [count, turned.chunk]; omega, turned.chunkSize, turned.spare⟩

theorem Holds.forget_tail (known : Holds t C F) (last : t.nchunks ≤ t.currentChunk + 1)
    (filled : t.mem ≠ [])
    (inner : t.currentChunk = t.startChunk → t.currentChunk = 0 ∨ 1 < t.mem.length) :
    ∃ t' C', forgetTail t = .ok t' ∧ Holds t' C' F.dropLast ∧ AtEnd t t' := by
  have some : (!t.mem.isEmpty) = true := by simpa using filled
  have size : t.currentSize - 1 = t.mem.dropLast.length := by
    rw [known.size, List.length_dropLast]
  have rest : F.dropLast = gather C t.startChunk t.currentChunk ++ t.mem.dropLast := by
    rw [known.fewer last, List.dropLast_append_of_ne_nil filled]
  by_cases leaves : t.currentSize - 1 = 0 ∧ t.currentChunk ≠ 0
  · -- the chunk before it is loaded and the empty one is no longer counted
    obtain ⟨empty, later⟩ := leaves
    have none : t.mem.dropLast = [] := List.eq_nil_of_length_eq_zero (size.symm.trans empty)
    have before : t.startChunk ≤ t.currentChunk - 1 := by
      have started := known.started
      have one := known.size
      by_contra first
      have more := inner (by omega)
      omega
    have counted := known.counted
    have rests : Rests { t with mem := [], currentSize := 0, backed := true } t.startChunk
        t.currentChunk C :=
      ⟨rfl, rfl, known.room, fun i low high => known.stored i low (by omega) (by omega),
        fun i low high => known.whole i low (by omega) (by omega) (.inr (by omega)), known.total⟩
    have full := known.whole (t.currentChunk - 1) before (by omega) (by omega) (.inr (by omega))
    have set := rests.setChunk_eq (j := t.currentChunk - 1) (by simp only; omega) before (by omega)
      (.inl full)
    refine ⟨{ loaded { t with mem := [], currentSize := 0, backed := true } (t.currentChunk - 1)
      (C (t.currentChunk - 1)) with nchunks := t.nchunks - 1 }, C, ?_, ?_, rfl, ?_, rfl, ?_⟩
    · simp only [forgetTail, some, check_true, ok_bind]
      rw [if_pos ⟨empty, later⟩, none, empty, setChunk_empty rfl, set, ok_bind]
      rfl
    · rw [rest, none, List.append_nil]
      exact rests.holds before (by omega) (.inr (by omega)) (by omega)
    · simp only [loaded]
      omega
    · exact spare_loaded (t := { t with mem := [], currentSize := 0, backed := true })
        (by simp only; omega) (Nat.sub_le _ _)
  · refine ⟨{ t with mem := t.mem.dropLast, currentSize := t.currentSize - 1 }, C, ?_, ?_, rfl, last,
      rfl, id⟩
    · simp only [forgetTail, some, check_true, ok_bind]
      rw [if_neg leaves]
    · have now := known.refill (t.backed)
        (show t.mem.dropLast.length ≤ t.chunkSize by
          rw [List.length_dropLast]; exact (Nat.sub_le _ _).trans known.fits)
        (fun r member => known.plain r (List.dropLast_subset _ member)) (fun _ => last)
        (fun ahead none => leaves ⟨by rw [size, none]; rfl, by omega⟩)
      rw [gather_empty last, List.append_nil, ← rest, ← size] at now
      exact now

theorem Turned.forget {t' : ChunkedTrace} (turned : Turned t (t.nchunks - 1) F t')
    (inner : t.currentChunk + 1 < t.nchunks) (set : setChunk t (t.nchunks - 1) = .ok t')
    (count : t'.nchunks = t.nchunks) (started : t.startChunk ≤ t.currentChunk) :
    ∃ t' C', chunkedForget t = .ok t' ∧ Holds t' C' F.dropLast ∧ AtEnd t t' := by
  obtain ⟨C, known⟩ := turned.holds
  have chunk := turned.chunk
  have start := turned.start
  have some : t'.mem.isEmpty = false := by simpa using turned.filled
  simp only [chunkedForget, if_pos inner, set, ok_bind, some, Bool.false_eq_true, if_false]
  obtain ⟨u, C', forgot, now, ends⟩ := known.forget_tail (by omega) turned.filled
    (fun first => by omega)
  exact ⟨u, C', forgot, now, ends.start.trans start, ends.last,
    ends.chunkSize.trans turned.chunkSize, fun spare => ends.spare (turned.spare spare)⟩

theorem Holds.forget (known : Holds t C F) (backed : t.currentChunk + 1 < t.nchunks → t.backed = true)
    (inner : t.nchunks ≤ t.currentChunk + 1 → t.currentChunk = t.startChunk →
      t.currentChunk = 0 ∨ 1 < t.mem.length) :
    ∃ t' C', chunkedForget t = .ok t' ∧ Holds t' C' F.dropLast ∧ AtEnd t t' := by
  by_cases last : t.nchunks ≤ t.currentChunk + 1
  · by_cases none : t.mem = []
    · have first : t.currentChunk = t.startChunk := by
        have := known.started
        by_contra ahead
        exact known.ahead (by omega) none
      have zero : t.currentChunk = 0 := (inner last first).resolve_right (by simp [none])
      refine ⟨t, C, ?_, ?_⟩
      · simp only [chunkedForget, if_neg (Nat.not_lt.mpr last), ok_bind, none, List.isEmpty_nil, if_true,
          if_pos zero]
      · have nothing : F = [] := by
          rw [known.fewer last, none, gather_empty first.le]
          rfl
        rw [nothing] at known ⊢
        exact ⟨known, rfl, last, rfl, id⟩
    · have some : t.mem.isEmpty = false := by simpa using none
      simp only [chunkedForget, if_neg (Nat.not_lt.mpr last), ok_bind, some, Bool.false_eq_true, if_false]
      exact known.forget_tail last none (inner last)
  · have more : t.currentChunk + 1 < t.nchunks := by omega
    obtain ⟨t', set, turned, count⟩ := known.turn_end more (backed more)
    exact turned.forget more set count known.started

end Back

section Save

structure Saved (t : ChunkedTrace) (C : Nat → List TraceRecord) (F : List TraceRecord) : Prop where
  rests : Rests t 0 t.nchunks C
  start : t.startChunk = 0
  inside : t.currentChunk < t.nchunks
  length : t.stream.chunks.length = t.nchunks
  records : F = gather C 0 t.nchunks

theorem Holds.save (known : Holds t C F) (start : t.startChunk = 0) (filled : t.mem ≠ [])
    (full : t.currentChunk + 1 < t.nchunks → t.mem.length = t.chunkSize) :
    ∃ t' C', chunkedSave t = .ok t' ∧ Saved t' C' F ∧ t'.chunkSize = t.chunkSize ∧
      (Spare t → t'.stream.writing = false ∧ t'.stream.total = t'.nchunks) := by
  obtain ⟨u, flushed, same, rests⟩ := known.flush filled full
  have gathered := known.gathered
  rw [start, ← same.count] at gathered rests
  have inside : t.currentChunk < u.nchunks := by
    rw [same.count]
    omega
  have length := rests.known (Nat.zero_lt_of_lt inside)
  have chunks := streamTruncate_chunks rests.total u.nchunks
  refine ⟨{ u with stream := streamTruncate u.stream u.nchunks }, _, ?_, ⟨?_, same.start.trans start,
    same.chunk ▸ inside, ?_, gathered⟩, same.chunkSize, ?_⟩
  · rw [chunkedSave, flushed, ok_bind]
  · refine { rests with
      stored := fun i low high => ?_, total := streamTruncate_counts rests.total u.nchunks }
    have block := rests.stored i low high
    refine ⟨?_, block.plain, block.filled, block.fits⟩
    simp only [chunks]
    rw [List.getElem?_take_of_lt high]
    exact block.bytes
  · simp only [chunks]
    exact List.length_take_of_le length
  · intro spare
    unfold Spare at spare
    apply streamTruncate_closes
    rw [same.count, same.total]
    omega

theorem Holds.save_empty (known : Holds t C F) (none : t.mem = []) (empty : t.nchunks = 0) :
    ∃ t', chunkedSave t = .ok t' ∧ Holds t' C F ∧ t'.stream.chunks = [] ∧ F = [] ∧
      t'.chunkSize = t.chunkSize := by
  have zero : t.currentChunk = 0 := by
    have := known.counted
    omega
  have nothing : F = [] := by
    rw [known.records, none, gather_empty (by omega), gather_empty (by omega)]
    rfl
  have still := known.refill true known.fits known.plain (fun _ => by omega) known.ahead
  rw [← known.records, ← known.size] at still
  have truncated : streamTruncate t.stream t.nchunks = streamCreate := by
    rw [empty]
    exact streamTruncate_zero known.total (known.position.trans zero) known.fresh (known.unread empty)
  refine ⟨{ t with backed := true, stream := streamCreate }, ?_, ?_, rfl, nothing, rfl⟩
  · rw [chunkedSave, flushChunk_none none, ok_bind, ← truncated]
  · exact { still with
      position := zero.symm, fresh := rfl, known := empty.le, total := Nat.le_refl _
      stored := fun i _ high => by simp only [empty] at high; omega
      untouched := fun inner => by simp only [empty] at inner; omega
      unread := fun _ => rfl }

theorem holds_create {stream : ChunkStream} {chunkSize : Nat} (room : 0 < chunkSize)
    (position : stream.current = 0) (fresh : stream.writing = false) (unread : stream.unread = [])
    (total : stream.chunks.length ≤ stream.total) (C : Nat → List TraceRecord) :
    Holds { mem := [], stream, chunkSize, currentChunk := 0, startChunk := 0, nchunks := 0
            currentSize := 0, backed := true } C [] := by
  constructor
  case records => rfl
  all_goals simp [room, position, fresh, unread, total]

structure Opened (t t' : ChunkedTrace) : Prop where
  first : t'.currentChunk = t'.startChunk
  start : t'.startChunk = 0
  chunkSize : t'.chunkSize = t.chunkSize
  backed : t'.backed = true
  spare : t.stream.chunks ≠ [] → Spare t'

theorem Saved.reload (saved : Saved t C F) :
    ∃ t', chunkedReload t = .ok t' ∧ Holds t' C F ∧ Opened t t' := by
  have some : 0 < t.nchunks := Nat.zero_lt_of_lt saved.inside
  have block := saved.rests.stored 0 (Nat.le_refl _) some
  have first : t.stream.chunks.getD 0 [] = encode (C 0) := by
    rw [List.getD_eq_getElem?_getD, block.bytes]
    rfl
  have reloaded := chunkedReload_ok saved.rests.room first block.plain block.fits (fun more =>
    saved.rests.whole 0 (Nat.le_refl _) (saved.length ▸ more))
  have now := saved.rests.holds (Nat.le_refl _) some (.inl rfl) (.inl rfl)
  rw [← saved.records, ← saved.length] at now
  refine ⟨_, reloaded, ?_, rfl, rfl, rfl, rfl, ?_⟩
  · rw [← saved.rests.backed]
    exact now.recount (Nat.le_refl _)
  · intro filled
    have more := List.length_pos_iff.mpr filled
    simp only [Spare]
    omega

theorem reload_empty (room : 0 < t.chunkSize) (empty : t.stream.chunks = []) (C : Nat → List TraceRecord) :
    ∃ t', chunkedReload t = .ok t' ∧ Holds t' C [] ∧ Opened t t' := by
  have first : t.stream.chunks.getD 0 [] = encode [] := by
    rw [empty]
    rfl
  have reloaded := chunkedReload_ok room first (by simp) (Nat.zero_le _) (fun more => by simp [empty] at more)
  refine ⟨_, reloaded, ?_, rfl, rfl, rfl, rfl, fun filled => absurd empty filled⟩
  rw [empty]
  exact holds_create room rfl rfl rfl (by simp [empty]) C

end Save

end Lotto.ChunkedInvariant
