import Lotto.MempoolRuns

namespace Lotto.MempoolLimits

open Library.FaultRun Library.GuardedRun Library.ByteMemory Mempool MempoolBlocks MempoolCalls
  MempoolRuns

variable {mp mp' : Pool} {live : List Held} {tiles tiles' : List (Nat × Nat)}
  {free free' : Nat → List Nat} {s : Session} {b e p n size : Nat} {h : Held} {m : Bytes}

section Requests

theorem bucketize_small (small : n ≤ 32) : bucketize n = 0 := by
  simp [bucketize, sizes, List.findIdx_cons, small]

theorem bucketOf_some (bound : n < word) :
    (∃ size, sizes[bucketOf n]? = some size) ↔ n + 32 ≤ maxSize ∨ word ≤ n + 32 := by
  constructor
  · rintro ⟨size, bucket⟩
    by_contra neither
    obtain ⟨large, no_wrap⟩ := not_or.mp neither
    rw [bucketOf, metadataSize, Nat.mod_eq_of_lt (by omega),
      bucketize_none (by omega)] at bucket
    cases bucket
  · rintro (fits | wraps)
    · obtain ⟨size, bucket, -⟩ := bucketize_spec fits
      exact ⟨size, bucketOf_eq fits ▸ bucket⟩
    · refine ⟨32, ?_⟩
      rw [bucketOf, metadataSize, bucketize_small (by rw [word] at *; omega)]
      rfl

theorem bucketOf_none (bound : n < word) (large : ¬n + 32 ≤ maxSize) (no_wrap : ¬word ≤ n + 32) :
    sizes[bucketOf n]? = none := by
  rw [← Option.not_isSome_iff_eq_none, Option.isSome_iff_exists, bucketOf_some bound]
  exact not_or.mpr ⟨large, no_wrap⟩

theorem bucketOf_wraps (bound : n < word) (wraps : word ≤ n + 32) : bucketOf n = 0 := by
  rw [bucketOf, metadataSize, bucketize_small (by rw [word] at *; omega)]

/-- `alloc` returns a block of the pool with room for the request that no other pointer has and that
`free` accepts, or the pool has no space left. -/
def Served (mp : Pool) (live : List Held) (n : Nat) : Prop :=
  match alloc mp n with
  | .ok (p, mp') =>
      let e := entryOf p mp'.bytes
      let block := (e, sizeField e mp'.bytes)
      e + metadataSize ≤ p ∧ p + n ≤ e + block.2 ∧ mp.memory ≤ e ∧
        e + block.2 ≤ mp.memory + mp.capacity ∧ (∀ h ∈ live, Apart block (h.entry, h.size)) ∧
        ∃ mp'', Mempool.free mp' p = .ok mp''
  | .error f => f = .mempoolOverflow

/-- A block that was taken serves a request without a wrap, unless an empty request is put at the end of
the pool. -/
theorem alloc_served (arr : Arranged mp live tiles free) (fits : n + 32 ≤ maxSize)
    (bucket : sizes[bucketOf n]? = some size) (left : ¬Spent mp (bucketOf n) size) :
    Served mp live n ↔ taken mp (bucketOf n) + 32 < mp.memory + mp.capacity := by
  obtain ⟨mp', tiles', free', given, fresh, back, sealed⟩ := alloc_spec arr bucket left
  set e := taken mp (bucketOf n)
  have header := fresh.arranged.header _ _ fresh.tile
  obtain ⟨low, high, wide, -⟩ := fresh.arranged.wide fresh.tile
  have start := fresh.arranged.starts
  have used := fresh.arranged.used
  rw [fresh.memory] at low high start
  rw [fresh.capacity] at used
  have room : n + 32 ≤ size := by
    have least := bucketize_le bucket
    rw [maxSize] at fits
    rwa [metadataSize, Nat.mod_eq_of_lt (by rw [word]; omega)] at least
  rw [Served, given]
  simp only [back, header]
  constructor
  · rintro ⟨-, -, -, -, -, mp'', freed⟩
    by_contra outside
    rw [free_outside sealed (by omega) (by rw [fresh.memory, fresh.capacity]; omega)] at freed
    cases freed
  · intro inside
    refine ⟨Nat.le_refl _, by omega, low, by omega, fun h member => ?_, ?_⟩
    · have other : e ≠ h.entry := fun same => fresh.notLive (same ▸ List.mem_map_of_mem member)
      have whole := fresh.give (h := ⟨e + 32, n, 1, e, size⟩) (plain_good bucket back sealed)
      exact fresh.arranged.tiled.apart fresh.tile (whole.held h (List.mem_cons_of_mem _ member)).1
        other
    · have whole := fresh.give (h := ⟨e + 32, n, 1, e, size⟩) (plain_good bucket back sealed)
      obtain ⟨mp'', free'', freed, -⟩ := free_spec whole (by
        rw [fresh.memory, fresh.capacity]
        exact inside)
      exact ⟨mp'', freed⟩

/-- `alloc` serves a request unless the request and the header have no bucket, or wrap and there is space,
or the request is empty and its block is at the end of the pool. -/
theorem alloc_served_iff {bytes : Bytes} {pool cap : Nat} (region : Region pool cap)
    (init : initStatic bytes pool cap = .ok mp) (reached : Reachable (system false mp) s)
    (bound : n < word) :
    Served s.mp s.live n ↔
      (n + 32 ≤ maxSize ∧ (n = 0 → taken s.mp 0 + 32 ≠ s.mp.memory + s.mp.capacity)) ∨
        (word ≤ n + 32 ∧ Spent s.mp 0 32) := by
  obtain ⟨tiles, free, arr⟩ := (reachable_inv region init reached).arranged
  by_cases fits : n + 32 ≤ maxSize
  · have no_wrap : ¬word ≤ n + 32 := by
      rw [maxSize] at fits
      rw [word]
      omega
    simp only [fits, no_wrap, true_and, false_and, or_false]
    obtain ⟨size, bucket⟩ := (bucketOf_some bound).mpr (.inl fits)
    have least := bucketize_le bucket
    rw [metadataSize, Nat.mod_eq_of_lt (by omega)] at least
    by_cases spent : Spent s.mp (bucketOf n) size
    · rw [Served, alloc_spent arr bucket spent]
      refine iff_of_true rfl ?_
      rintro rfl
      obtain ⟨none_free, full⟩ := spent
      have first : bucketOf 0 = 0 := by decide
      rw [first] at none_free bucket
      cases bucket
      rw [taken, if_neg (not_not.mpr none_free)]
      omega
    · rw [alloc_served arr fits bucket spent]
      obtain ⟨mp', tiles', free', -, fresh, -⟩ := alloc_spec arr bucket spent
      obtain ⟨-, high, -⟩ := fresh.arranged.wide fresh.tile
      have used := fresh.arranged.used
      rw [fresh.memory] at high
      rw [fresh.capacity] at used
      constructor
      · rintro inside rfl
        exact Nat.ne_of_lt inside
      · intro not_end
        by_cases empty : n = 0
        · subst empty
          have first : bucketOf 0 = 0 := by decide
          have apart := not_end rfl
          rw [first] at high ⊢
          omega
        · omega
  · by_cases wraps : word ≤ n + 32
    · simp only [fits, wraps, true_and, false_and, false_or]
      have first := bucketOf_wraps bound wraps
      have bucket : sizes[bucketOf n]? = some 32 := by
        rw [first]
        rfl
      by_cases spent : Spent s.mp 0 32
      · rw [Served, alloc_spent arr bucket (first ▸ spent)]
        exact iff_of_true rfl spent
      · refine iff_of_false (fun served => ?_) spent
        obtain ⟨mp', tiles', free', given, fresh, back, sealed⟩ := alloc_spec arr bucket (first ▸ spent)
        rw [Served, given] at served
        obtain ⟨-, room, -⟩ := served
        simp only [back, fresh.arranged.header _ _ fresh.tile] at room
        rw [word] at wraps
        omega
    · simp only [fits, wraps, false_and, or_false, iff_false]
      intro served
      rw [Served, alloc_large (bucketOf_none bound fits wraps)] at served
      cases served

theorem alloc_served_start : Served (zeroPool 1024) [] 90 ↔
    (90 + 32 ≤ maxSize ∧ (90 = 0 → taken (zeroPool 1024) 0 + 32 ≠ 8 + 1024)) ∨
      (word ≤ 90 + 32 ∧ Spent (zeroPool 1024) 0 32) := by
  have init : initStatic (fun _ => 0) 8 1024 = .ok (zeroPool 1024) := rfl
  exact alloc_served_iff ⟨by decide, by decide, by decide⟩ init .start (by decide)

/-- A request of the largest bucket's size, one that wraps, and an empty one in a pool for one block. -/
theorem alloc_not_served : ¬Served (zeroPool 1024) [] 8388608 ∧
    ¬Served (zeroPool 1024) [] 18446744073709551615 ∧ ¬Served (zeroPool 32) [] 0 := by
  refine ⟨fun served => ?_, fun served => ?_, fun served => ?_⟩
  · rw [Served, alloc_large (by decide)] at served
    cases served
  · have room : ((alloc (zeroPool 1024) 18446744073709551615).toOption.map fun r =>
        decide (r.1 + 18446744073709551615 ≤
          entryOf r.1 r.2.bytes + sizeField (entryOf r.1 r.2.bytes) r.2.bytes)) = some false := by
      decide +kernel
    rw [Served] at served
    cases given : alloc (zeroPool 1024) 18446744073709551615 with
    | error f =>
        rw [given] at room
        cases room
    | ok r =>
        rw [given] at served room
        exact of_decide_eq_false (Option.some.inj room) served.2.1
  · have refused : ((alloc (zeroPool 32) 0).toOption.map fun r =>
        (Mempool.free r.2 r.1).toOption.isSome) = some false := by
      decide +kernel
    rw [Served] at served
    cases given : alloc (zeroPool 32) 0 with
    | error f =>
        rw [given] at refused
        cases refused
    | ok r =>
        rw [given] at served refused
        obtain ⟨-, -, -, -, -, mp'', freed⟩ := served
        have refused : (Mempool.free r.2 r.1).toOption.isSome = false := Option.some.inj refused
        rw [freed] at refused
        cases refused

end Requests

section Copies

/-- `realloc` returns a block that begins with the bytes of the old one, as far as both go, and reads no
bytes behind the old one. -/
def Preserves (mp : Pool) (h : Held) (n : Nat) : Prop :=
  match realloc mp h.pointer n with
  | .ok (ptr, count, mp') =>
      let usable := h.entry + h.size - h.pointer
      let e := entryOf ptr mp'.bytes
      ptr + min usable n ≤ e + sizeField e mp'.bytes ∧
        (∀ i < min usable n, mp'.bytes (ptr + i) = mp.bytes (h.pointer + i)) ∧ count ≤ usable
  | .error f => f = .mempoolOverflow

theorem copied_le (good : h.Good m) (bound : n < word) (moves : ¬Stays h n) (wide : 32 ≤ h.size)
    (most : h.size ≤ maxSize) :
    copied h n ≤ h.entry + h.size - h.pointer ↔ h.pointer = h.entry + 32 := by
  have no_wrap := no_wrap good bound moves
  obtain ⟨after, room, -, -, -⟩ := good
  rw [maxSize] at most
  rw [Stays] at moves
  rw [word] at *
  rw [copied]
  split <;> omega

/-- `realloc` preserves the content of a pointer that stays in its block, and of one that moves if it is
right behind the header of its block. -/
theorem realloc_preserves_iff {bytes : Bytes} {pool cap : Nat} (region : Region pool cap)
    (init : initStatic bytes pool cap = .ok mp) (reached : Reachable (system false mp) s)
    (member : h ∈ s.live) (bound : n < word) :
    Preserves s.mp h n ↔
      h.pointer < s.mp.memory + s.mp.capacity ∧
        (Stays h n ∨ n + 32 ≤ maxSize ∧ (h.pointer = h.entry + 32 ∨
          ∃ size, sizes[bucketOf n]? = some size ∧ Spent s.mp (bucketOf n) size)) := by
  obtain ⟨tiles, free, arr⟩ := (reachable_inv region init reached).arranged
  obtain ⟨tile, good⟩ := arr.held h member
  obtain ⟨low, high, wide, size_good, -⟩ := arr.wide tile
  have most := (sizes_good h.size size_good).2.1
  have after := good.after
  by_cases inside : h.pointer < s.mp.memory + s.mp.capacity
  · by_cases stays : Stays h n
    · simp only [inside, stays, true_or, and_true, iff_true]
      rw [Preserves, realloc_live arr member inside, if_pos stays]
      simp only [good.back, arr.header _ _ tile]
      have room := good.room
      refine ⟨by omega, fun _ _ => trivial, Nat.zero_le _⟩
    · simp only [inside, stays, true_and, false_or]
      by_cases fits : n + 32 ≤ maxSize
      · obtain ⟨size, bucket⟩ := (bucketOf_some bound).mpr (.inl fits)
        simp only [fits, true_and, bucket, Option.some.injEq, exists_eq_left']
        by_cases spent : Spent s.mp (bucketOf n) size
        · simp only [spent, or_true, iff_true]
          rw [Preserves, realloc_error arr member inside stays (alloc_spent arr bucket spent)]
        · simp only [spent, or_false]
          have perm : s.live.Perm (h :: s.live.erase h) := List.perm_cons_erase member
          obtain ⟨e, mp', tiles', free', moved, done, -, same⟩ :=
            realloc_moves (arr.perm perm) inside bound stays bucket spent
          obtain ⟨tile', good'⟩ := done.held _ List.mem_cons_self
          have least := bucketize_le bucket
          have no_wrap := no_wrap good bound stays
          rw [metadataSize, Nat.mod_eq_of_lt no_wrap] at least
          rw [Preserves, moved]
          simp only
          rw [good'.back, done.header _ _ tile', ← copied_le good bound stays wide most]
          refine ⟨fun holds => holds.2.2, fun enough => ⟨by simp only; omega, fun i below => ?_, enough⟩⟩
          have all := (copied_le good bound stays wide most).mp enough
          refine same i ?_ (by omega)
          rw [copied]
          rw [Stays, word] at stays
          rw [word] at no_wrap
          rw [maxSize] at most
          split <;> omega
      · simp only [fits, false_and, iff_false]
        intro holds
        have no_wrap := no_wrap good bound stays
        have large := bucketOf_none bound fits (Nat.not_le_of_lt no_wrap)
        rw [Preserves, realloc_error arr member inside stays (alloc_large large)] at holds
        cases holds
  · simp only [inside, false_and, iff_false]
    intro holds
    rw [Preserves, realloc_outside good.marked (by omega) (Nat.le_of_not_lt inside)] at holds
    cases holds

theorem not_preserves {r : Nat × Nat × Pool} (moved : realloc mp h.pointer n = .ok r)
    (much : h.entry + h.size - h.pointer < r.2.1) : ¬Preserves mp h n := by
  intro kept
  rw [Preserves, moved] at kept
  exact Nat.not_le_of_lt much kept.2.2

theorem toOption_some {α : Type} {x : Except Fault α} {a : α} (some_ : x.toOption = some a) :
    x = .ok a := by
  cases x with
  | error f => cases some_
  | ok b =>
      cases some_
      rfl

theorem live_after (c : Call) (cap : Nat) (h : Held)
    (legal : Legal (system false (zeroPool cap)) [c] (system false (zeroPool cap)).start)
    (found : ((run (system false (zeroPool cap)) [c] { mp := zeroPool cap, live := [] }).toOption.map
      fun s => s.live) = some [h]) :
    ∃ s, run (system false (zeroPool cap)) [c] { mp := zeroPool cap, live := [] } = .ok s ∧
      Reachable (system false (zeroPool cap)) s ∧ h ∈ s.live := by
  obtain ⟨s, ran⟩ := legal.runs
  have start : (system false (zeroPool cap)).start = { mp := zeroPool cap, live := [] } := rfl
  rw [start] at ran
  rw [ran] at found
  refine ⟨s, ran, legal.reachable .start ran, ?_⟩
  rw [show s.live = [h] from Option.some.inj found]
  exact List.mem_singleton_self h

theorem realloc_preserves_plain : ∃ s h,
    run (system false (zeroPool 1024)) [.alloc 1] { mp := zeroPool 1024, live := [] } = .ok s ∧
      h ∈ s.live ∧ (Preserves s.mp h 200 ↔
        h.pointer < s.mp.memory + s.mp.capacity ∧
          (Stays h 200 ∨ 200 + 32 ≤ maxSize ∧ (h.pointer = h.entry + 32 ∨
            ∃ size, sizes[bucketOf 200]? = some size ∧ Spent s.mp (bucketOf 200) size))) := by
  have init : initStatic (fun _ => 0) 8 1024 = .ok (zeroPool 1024) := rfl
  obtain ⟨s, ran, reached, member⟩ := live_after (.alloc 1) 1024 ⟨40, 1, 1, 8, 128⟩
    (by decide +kernel) (by decide +kernel)
  exact ⟨s, _, ran, member,
    realloc_preserves_iff ⟨by decide, by decide, by decide⟩ init reached member (by decide)⟩

/-- A pointer at an offset of 40 in a block of 128 bytes, of which 96 are copied. -/
theorem realloc_reads_behind : ∃ s h,
    run (system false (zeroPool 1024)) [.alignedAlloc 16 1] { mp := zeroPool 1024, live := [] } = .ok s ∧
      h ∈ s.live ∧ ¬Preserves s.mp h 200 := by
  obtain ⟨s, ran, -, member⟩ := live_after (.alignedAlloc 16 1) 1024 ⟨48, 1, 16, 8, 128⟩
    (by decide +kernel) (by decide +kernel)
  have much : ((run (system false (zeroPool 1024)) [.alignedAlloc 16 1]
      { mp := zeroPool 1024, live := [] }).toOption.bind fun s =>
        (realloc s.mp 48 200).toOption.map fun r => r.2.1) = some 96 := by decide +kernel
  rw [ran] at much
  obtain ⟨s', same, much⟩ := Option.bind_eq_some_iff.mp much
  cases same
  obtain ⟨r, moved, count⟩ := Option.map_eq_some_iff.mp much
  refine ⟨s, ⟨48, 1, 16, 8, 128⟩, ran, member, not_preserves (toOption_some moved) ?_⟩
  rw [count]
  decide

end Copies

end Lotto.MempoolLimits
