import Lotto.TraceTrim

namespace Lotto.InflexClocks

open Library.FaultRun ChunkedSpecs ChunkedInvariant TraceFormat TraceUtils TraceTrim
open Inflex (Sorted Recorded)

/-- The smallest recorded clock greater than `clk`, or `clk` if there is none. -/
def IsNext (F : List TraceRecord) (clk next : UInt64) : Prop :=
  (next = clk ∧ ∀ r ∈ F, r.clk ≤ clk) ∨
    ((∃ r ∈ F, r.clk = next) ∧ clk < next ∧ ∀ r ∈ F, clk < r.clk → next ≤ r.clk)

/-- The greatest recorded clock smaller than `clk`, or `clk` if there is none. -/
def IsPrevious (F : List TraceRecord) (clk previous : UInt64) : Prop :=
  (previous = clk ∧ ∀ r ∈ F, clk ≤ r.clk) ∨
    ((∃ r ∈ F, r.clk = previous) ∧ previous < clk ∧ ∀ r ∈ F, r.clk < clk → r.clk ≤ previous)

def fromStart (F : List TraceRecord) : List TraceRecord :=
  F.dropWhile fun r => !r.matches Kind.recordStart.bits

def OneBehind (F : List TraceRecord) (clk : UInt64) : Prop :=
  ∀ r ∈ F, ∀ s ∈ F, clk < r.clk → clk < s.clk → r.clk = s.clk

/-- Whatever is before the clock is followed, still before the clock, by a record that is not `NONE`
and does not precede the first `START`. -/
def SeenBefore (F : List TraceRecord) (clk : UInt64) : Prop :=
  ∀ r ∈ F, r.clk < clk → ∃ s ∈ fromStart F, s.matches recordAny = true ∧ s.clk < clk ∧ r.clk ≤ s.clk

section Next

variable {σ : Type} {impl : TraceImpl σ} {held ended : σ → List TraceRecord → Prop} {t : σ}
  {F : List TraceRecord}

def lastBehind (F : List TraceRecord) (clk : UInt64) : UInt64 :=
  match F.getLast? with
  | none => clk
  | some r => if clk < r.clk then r.clk else clk

theorem sorted_last {last : TraceRecord} (sorted : Sorted F) (final : F.getLast? = some last)
    {r : TraceRecord} (member : r ∈ F) : r.clk ≤ last.clk := by
  obtain ⟨before, rfl⟩ := List.getLast?_eq_some_iff.mp final
  rw [UInt64.le_iff_toNat_le]
  rcases List.mem_append.mp member with early | here
  · exact (List.pairwise_append.mp sorted).2.2 r early last (List.mem_singleton_self last)
  · rw [List.mem_singleton.mp here]

theorem nextLoop_eq (back : FromBack impl held ended) (known : held t F) (sorted : Sorted F)
    {fuel : Nat} (enough : F.length < fuel) (clk : UInt64) :
    nextLoop impl fuel clk t = .ok (lastBehind F clk) := by
  obtain ⟨u, found, now⟩ := back.last known
  obtain ⟨fuel, rfl⟩ : ∃ more, fuel = more + 1 := ⟨fuel - 1, by omega⟩
  rw [nextLoop, found, ok_bind, lastBehind]
  cases final : F.getLast? with
  | none => rfl
  | some last =>
      by_cases behind : clk < last.clk
      · obtain ⟨v, forgot, after⟩ := back.forget (back.held_of_ended now)
        obtain ⟨before, rfl⟩ := List.getLast?_eq_some_iff.mp final
        rw [List.dropLast_concat] at after
        rw [List.length_append, List.length_singleton] at enough
        obtain ⟨w, again, -⟩ := back.last (back.held_of_ended after)
        obtain ⟨fuel, rfl⟩ : ∃ more, fuel = more + 1 := ⟨fuel - 1, by omega⟩
        simp only [if_pos behind, forgot, ok_bind]
        rw [nextLoop, again, ok_bind]
        cases next : before.getLast? with
        | none => rfl
        | some r =>
            have member : r ∈ before := List.mem_of_getLast? next
            have ordered := sorted_last sorted final (List.mem_append_left _ member)
            simp only [if_neg (UInt64.not_lt.mpr ordered)]
      · simp only [if_neg behind]

theorem lastBehind_iff (sorted : Sorted F) (clk : UInt64) :
    IsNext F clk (lastBehind F clk) ↔ OneBehind F clk := by
  rw [lastBehind]
  cases final : F.getLast? with
  | none =>
      rw [List.getLast?_eq_none_iff] at final
      subst final
      simp [IsNext, OneBehind]
  | some last =>
      have highest := fun r => sorted_last (r := r) sorted final
      have member : last ∈ F := List.mem_of_getLast? final
      by_cases behind : clk < last.clk
      · simp only [if_pos behind]
        constructor
        · intro next r inside s there above beyond
          rcases next with ⟨same, -⟩ | ⟨-, -, smallest⟩
          · rw [same] at behind
            exact absurd behind (UInt64.lt_irrefl _)
          · have first := UInt64.le_antisymm (highest r inside) (smallest r inside above)
            have second := UInt64.le_antisymm (highest s there) (smallest s there beyond)
            exact first.trans second.symm
        · intro one
          right
          refine ⟨⟨last, member, rfl⟩, behind, ?_⟩
          intro r inside above
          rw [one r inside last member above behind]
          exact UInt64.le_refl _
      · simp only [if_neg behind]
        have bounded : ∀ r ∈ F, r.clk ≤ clk := by
          intro r inside
          exact UInt64.le_trans (highest r inside) (UInt64.not_lt.mp behind)
        constructor
        · intro _ r inside s _ above
          exact absurd above (UInt64.not_lt.mpr (bounded r inside))
        · intro _
          exact .inl ⟨rfl, bounded⟩

end Next

section Previous

variable {σ : Type} {impl : TraceImpl σ} {held : σ → List TraceRecord → Prop} {t : σ}
  {F : List TraceRecord}

structure FromFront (impl : TraceImpl σ) (held : σ → List TraceRecord → Prop) : Prop where
  fuel : ∀ {t F}, held t F → F.length < impl.fuel t
  next : ∀ {t F} (filter : UInt32), held t F →
    ∃ t', impl.next filter t = .ok ((flatNext filter F).1, t') ∧ held t' (flatNext filter F).2
  advance : ∀ {t F}, held t F → F ≠ [] → ∃ t', impl.advance t = .ok t' ∧ held t' F.tail

theorem flat_fromFront : FromFront flatImpl (fun t F => t = F) where
  fuel := by
    rintro t F rfl
    exact Nat.lt_succ_self _
  next := by
    rintro t F filter rfl
    exact ⟨(flatNext filter t).2, rfl, rfl⟩
  advance := by
    rintro t F rfl -
    exact ⟨t.tail, rfl, rfl⟩

def Starts (t : ChunkedTrace) (F : List TraceRecord) : Prop :=
  (∃ C, Holds t C F) ∧ t.currentChunk = t.startChunk

theorem chunked_fromFront : FromFront chunkedImpl Starts where
  fuel := by
    intro t F starts
    obtain ⟨⟨C, known⟩, -⟩ := starts
    exact Nat.lt_succ_of_le known.enough
  next := by
    intro t F filter starts
    obtain ⟨⟨C, known⟩, first⟩ := starts
    have peekable : Peekable t F := .inl ⟨first, C, known⟩
    obtain ⟨t', C', next, front⟩ := peekable.next known.enough filter
    exact ⟨t', next, ⟨C', front.holds⟩, front.first⟩
  advance := by
    intro t F starts some
    obtain ⟨⟨C, known⟩, first⟩ := starts
    have peekable : Peekable t F := .inl ⟨first, C, known⟩
    obtain ⟨t', C', advanced, now, still⟩ := peekable.advance some
    exact ⟨t', advanced, ⟨C', now⟩, still⟩

theorem flatNext_dropWhile (filter : UInt32) (F : List TraceRecord) :
    flatNext filter F = ((F.dropWhile fun r => !r.matches filter).head?,
      F.dropWhile fun r => !r.matches filter) := by
  induction F with
  | nil => rfl
  | cons r F ih =>
      by_cases found : r.matches filter = true
      · rw [flatNext, if_pos found, List.dropWhile_cons_of_neg (by simpa using found)]
        rfl
      · rw [flatNext, if_neg found, ih, List.dropWhile_cons_of_pos (by simpa using found)]

theorem previousLoop_skip (clk ans : Nat) (F : List TraceRecord) :
    Inflex.previousLoop clk ans F =
      Inflex.previousLoop clk ans (F.dropWhile fun r => !r.matches recordAny) := by
  induction F with
  | nil => rfl
  | cons r F ih =>
      by_cases found : r.matches recordAny = true
      · rw [List.dropWhile_cons_of_neg (by simpa using found)]
      · rw [Inflex.previousLoop, if_neg found, List.dropWhile_cons_of_pos (by simpa using found), ih]

theorem previousLoop_eq (front : FromFront impl held) (clk : UInt64) {fuel : Nat} (known : held t F)
    (enough : F.length < fuel) (ans : UInt64) :
    ∃ previous, previousLoop impl clk fuel ans t = .ok previous ∧
      previous.toNat = Inflex.previousLoop clk.toNat ans.toNat F := by
  induction fuel generalizing t F ans with
  | zero => omega
  | succ fuel ih =>
      obtain ⟨u, found, now⟩ := front.next recordAny known
      rw [previousLoop, found, ok_bind, previousLoop_skip]
      rw [flatNext_dropWhile] at now ⊢
      have shorter := (List.dropWhile_suffix (fun r => !TraceRecord.matches recordAny r) (l := F)).length_le
      cases rest : F.dropWhile fun r => !r.matches recordAny with
      | nil => exact ⟨ans, rfl, rfl⟩
      | cons r G =>
          rw [rest] at now shorter
          rw [List.length_cons] at shorter
          have matched : r.matches recordAny = true := by
            have kept := List.head_dropWhile_not (fun r => !TraceRecord.matches recordAny r)
              (l := F) (by rw [rest]; exact List.cons_ne_nil r G)
            simpa [rest] using kept
          rw [Inflex.previousLoop, if_pos matched]
          by_cases before : r.clk < clk
          · obtain ⟨v, advanced, after⟩ := front.advance now (List.cons_ne_nil r G)
            simp only [List.head?_cons, if_pos before, advanced, ok_bind]
            rw [if_pos (UInt64.lt_iff_toNat_lt.mp before)]
            exact ih after (by rw [List.tail_cons]; omega) r.clk
          · simp only [List.head?_cons, if_neg before]
            rw [if_neg (fun below => before (UInt64.lt_iff_toNat_lt.mpr below))]
            exact ⟨ans, rfl, rfl⟩

theorem previousClock_eq (front : FromFront impl held) {load : Except Fault σ} (loaded : load = .ok t)
    (known : held t F) (clk : UInt64) :
    ∃ previous, previousClock impl load clk = .ok previous ∧
      previous.toNat = Inflex.previousLoop clk.toNat clk.toNat (fromStart F) := by
  obtain ⟨u, found, now⟩ := front.next Kind.recordStart.bits known
  rw [flatNext_dropWhile] at found now
  have shorter := (List.dropWhile_suffix
    (fun r => !TraceRecord.matches Kind.recordStart.bits r) (l := F)).length_le
  have enough : (fromStart F).length < impl.fuel t := shorter.trans_lt (front.fuel known)
  obtain ⟨previous, looped, same⟩ := previousLoop_eq front clk now enough clk
  refine ⟨previous, ?_, same⟩
  rw [previousClock, loaded, ok_bind, found, ok_bind]
  exact looped

theorem previous_iff (sorted : Sorted F) (clk previous : UInt64)
    (scanned : previous.toNat = Inflex.previousLoop clk.toNat clk.toNat (fromStart F)) :
    IsPrevious F clk previous ↔ SeenBefore F clk := by
  have suffix : fromStart F <:+ F := List.dropWhile_suffix _
  have ordered : Sorted (fromStart F) := sorted.sublist suffix.sublist
  have result := Inflex.previousLoop_spec clk.toNat clk.toNat (fromStart F) ordered
  rw [← scanned] at result
  rcases result with ⟨stays, unseen⟩ | ⟨recorded, smaller, greatest⟩
  · -- nothing before the clock is seen
    have same : previous = clk := UInt64.toNat_inj.mp stays
    subst same
    constructor
    · intro isPrevious r inside before
      rcases isPrevious with ⟨-, none⟩ | ⟨-, below, -⟩
      · exact absurd before (UInt64.not_lt.mpr (none r inside))
      · exact absurd below (UInt64.lt_irrefl _)
    · intro seen
      left
      refine ⟨rfl, ?_⟩
      intro r inside
      apply UInt64.not_lt.mp
      intro before
      obtain ⟨s, there, matched, early, -⟩ := seen r inside before
      have late := unseen s.clk.toNat ⟨s, there, matched, rfl⟩
      rw [UInt64.lt_iff_toNat_lt] at early
      omega
  · obtain ⟨s, there, matched, same⟩ := recorded
    have found : s.clk = previous := UInt64.toNat_inj.mp same
    have below : previous < clk := UInt64.lt_iff_toNat_lt.mpr smaller
    constructor
    · intro isPrevious r inside before
      rcases isPrevious with ⟨stays, -⟩ | ⟨-, -, largest⟩
      · rw [stays] at below
        exact absurd below (UInt64.lt_irrefl _)
      · rw [← found] at below largest
        exact ⟨s, there, matched, below, largest r inside before⟩
    · intro seen
      right
      refine ⟨⟨s, suffix.subset there, found⟩, below, ?_⟩
      intro r inside before
      obtain ⟨u, visible, kept, early, above⟩ := seen r inside before
      have bound := greatest u.clk.toNat ⟨u, visible, kept, rfl⟩ (UInt64.lt_iff_toNat_lt.mp early)
      exact UInt64.le_trans above (UInt64.le_iff_toNat_le.mpr bound)

end Previous

section Clocks

def FindsNeighbours {σ : Type} (impl : TraceImpl σ) (load : Except Fault σ) (F : List TraceRecord)
    (clk : UInt64) : Prop :=
  ∃ next previous, nextClock impl load clk = .ok next ∧ IsNext F clk next ∧
    previousClock impl load clk = .ok previous ∧ IsPrevious F clk previous

theorem neighbours_iff {σ : Type} {impl : TraceImpl σ} {held ended front : σ → List TraceRecord → Prop}
    (back : FromBack impl held ended) (forth : FromFront impl front) {load : Except Fault σ} {t : σ}
    {F : List TraceRecord} (loaded : load = .ok t) (known : held t F) (starts : front t F)
    (sorted : Sorted F) (clk : UInt64) :
    FindsNeighbours impl load F clk ↔ OneBehind F clk ∧ SeenBefore F clk := by
  have next : nextClock impl load clk = .ok (lastBehind F clk) := by
    rw [nextClock, loaded, ok_bind]
    exact nextLoop_eq back known sorted (back.fuel known) clk
  obtain ⟨previous, found, scanned⟩ := previousClock_eq forth loaded starts clk
  rw [← lastBehind_iff sorted clk, ← previous_iff sorted clk previous scanned]
  constructor
  · intro finds
    obtain ⟨n, p, foundNext, isNext, foundPrevious, isPrevious⟩ := finds
    cases next.symm.trans foundNext
    cases found.symm.trans foundPrevious
    exact ⟨isNext, isPrevious⟩
  · intro both
    exact ⟨_, previous, next, both.1, found, both.2⟩

inductive IsDirectory (chunkSize : Nat) : List (List UInt8) → List TraceRecord → Prop
  | empty : IsDirectory chunkSize [] []
  | saved {origin : Origin} {t saved : ChunkedTrace} {F : List TraceRecord}
      {disk : List UInt8 → List UInt8} {sink : Option (List (List UInt8))} {chunks : List (List UInt8)}
      (trace : IsTrace chunkSize origin t F) (some : F ≠ []) (saves : SavesTo origin sink)
      (save : chunkedSaveTo disk t sink = .ok (saved, chunks)) : IsDirectory chunkSize chunks F

theorem IsDirectory.loads {chunkSize : Nat} {chunks : List (List UInt8)} {F : List TraceRecord}
    (room : 0 < chunkSize) (directory : IsDirectory chunkSize chunks F) :
    ∃ origin, Loads origin chunkSize chunks F := by
  cases directory with
  | empty =>
      obtain ⟨t, reloaded, known, opened⟩ :=
        reload_empty (t := newTrace chunkSize) room rfl fun _ => []
      exact ⟨.empty, loads_of_reload known reloaded opened rfl fun filled => by cases filled⟩
  | saved trace some saves save =>
      obtain ⟨u, chunks, saved, loads⟩ := (trace.whole room).save some _ saves
      cases save.symm.trans saved
      exact ⟨.filled, loads⟩

/-- `_next_clock` and `_previous_clock` find the neighbours of a clock exactly if the records behind it
have one clock, and what is before it is seen from the first `START` on. -/
theorem neighbouring_clocks_iff (F : List TraceRecord) (sorted : Sorted F) (clk : UInt64) :
    (FindsNeighbours flatImpl (flatLoad (flatSaveTo F)) F clk ↔ OneBehind F clk ∧ SeenBefore F clk) ∧
    ∀ chunkSize chunks, 0 < chunkSize → IsDirectory chunkSize chunks F →
      (FindsNeighbours chunkedImpl (chunkedLoadFrom chunkSize chunks) F clk ↔
        OneBehind F clk ∧ SeenBefore F clk) := by
  constructor
  · exact neighbours_iff flat_fromBack flat_fromFront (flatLoad_flatSaveTo F) rfl rfl sorted clk
  · intro chunkSize chunks room directory
    obtain ⟨origin, t, loaded, whole, first⟩ := directory.loads room
    exact neighbours_iff (chunked_fromBack origin chunkSize) chunked_fromFront loaded whole
      ⟨whole.holds, first⟩ sorted clk

def startedTrace : List TraceRecord :=
  plainRecord Kind.recordStart.bits 0 :: recordsAt [1, 2, 3]

theorem neighbouring_clocks_two :
    FindsNeighbours flatImpl (flatLoad (flatSaveTo startedTrace)) startedTrace 2 := by
  apply (neighbouring_clocks_iff startedTrace (by decide) 2).1.mpr
  unfold OneBehind SeenBefore
  decide

/-- Two records are behind clock 1: `_next_clock` goes on to the last one. -/
theorem next_clock_skips :
    Sorted startedTrace ∧ nextClock flatImpl (flatLoad (flatSaveTo startedTrace)) 1 = .ok 3 ∧
      IsNext startedTrace 1 2 ∧ ¬ IsNext startedTrace 1 3 := by
  refine ⟨by decide, ?_, ?_⟩
  · rw [flatLoad_flatSaveTo]
    decide
  · unfold IsNext
    decide

end Clocks

end Lotto.InflexClocks
