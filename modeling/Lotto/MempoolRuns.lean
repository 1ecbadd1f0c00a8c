import Mathlib.Algebra.Group.Nat.Defs
import Mathlib.Algebra.Order.BigOperators.Group.List
import Mathlib.Algebra.Order.Group.Nat
import Lotto.Library.GuardedRun
import Lotto.MempoolCalls

namespace Lotto.MempoolRuns

open Library.FaultRun Library.GuardedRun Library.ByteMemory Library.Links Library.Tiling Mempool
  MempoolBlocks MempoolCalls

structure Session where
  mp : Pool
  live : List Held

inductive Call where
  | alloc (n : Nat)
  | alignedAlloc (alignment n : Nat)
  | realloc (p n : Nat)
  | free (p : Nat)
  | write (x : Nat) (v : UInt8)
  deriving DecidableEq, Repr

def hold (p n alignment : Nat) (mp : Pool) : Held :=
  let e := entryOf p mp.bytes
  { pointer := p, request := n, alignment, entry := e, size := sizeField e mp.bytes }

def drop (p : Nat) (live : List Held) : List Held := live.eraseP fun h => h.pointer == p

def step : Call → Session → Except Fault Session
  | .alloc n, s => do
      let (p, mp) ← alloc s.mp n
      .ok { mp, live := hold p n 1 mp :: s.live }
  | .alignedAlloc a n, s => do
      let (p, mp) ← alignedAlloc s.mp a n
      .ok { mp, live := hold p n a mp :: s.live }
  | .realloc p n, s => do
      let (ptr, _, mp) ← realloc s.mp p n
      .ok { mp, live := hold ptr n 1 mp :: drop p s.live }
  | .free p, s => do
      let mp ← Mempool.free s.mp p
      .ok { mp, live := drop p s.live }
  | .write x v, s => .ok { s with mp := { s.mp with bytes := Function.update s.mp.bytes x v } }

/-- A user gives live pointers back and writes into their blocks. A `strict` one asks for bytes that a
bucket has room for, and reallocates plain pointers only. -/
def Valid (strict : Bool) (s : Session) : Call → Prop
  | .alloc n => n < word ∧ (strict = true → 1 ≤ n ∧ n + 32 ≤ maxSize)
  | .alignedAlloc a n => (∃ k < 64, a = 2 ^ k) ∧ n + a + 31 ≤ maxSize ∧ (strict = true → 1 ≤ n)
  | .realloc p n => n < word ∧ (strict = true → 1 ≤ n ∧ n + 32 ≤ maxSize) ∧
      (p = 0 ∨ ∃ h ∈ s.live, h.pointer = p ∧ (strict = true → h.alignment = 1))
  | .free p => p = 0 ∨ ∃ h ∈ s.live, h.pointer = p
  | .write x _ => ∃ h ∈ s.live, h.pointer ≤ x ∧ x < h.entry + h.size

instance (strict : Bool) (s : Session) : ∀ c, Decidable (Valid strict s c)
  | .alloc n => inferInstanceAs (Decidable (n < word ∧ (strict = true → 1 ≤ n ∧ n + 32 ≤ maxSize)))
  | .alignedAlloc a n =>
      inferInstanceAs (Decidable ((∃ k < 64, a = 2 ^ k) ∧ n + a + 31 ≤ maxSize ∧ (strict = true → 1 ≤ n)))
  | .realloc p n =>
      inferInstanceAs (Decidable (n < word ∧ (strict = true → 1 ≤ n ∧ n + 32 ≤ maxSize) ∧
        (p = 0 ∨ ∃ h ∈ s.live, h.pointer = p ∧ (strict = true → h.alignment = 1))))
  | .free p => inferInstanceAs (Decidable (p = 0 ∨ ∃ h ∈ s.live, h.pointer = p))
  | .write x _ => inferInstanceAs (Decidable (∃ h ∈ s.live, h.pointer ≤ x ∧ x < h.entry + h.size))

structure Region (pool cap : Nat) : Prop where
  words : 8 ∣ pool
  ends : pool + cap ≤ word
  small : cap < 9223372036854775808

def system (strict : Bool) (mp : Pool) : Guarded Session Call Fault where
  start := { mp, live := [] }
  step := step
  allowed := Valid strict

instance (strict : Bool) (mp : Pool) (s : Session) (c : Call) :
    Decidable ((system strict mp).allowed s c) := inferInstanceAs (Decidable (Valid strict s c))

structure Inv (strict : Bool) (s : Session) : Prop where
  arranged : ∃ tiles free, Arranged s.mp s.live tiles free
  allocated : s.mp.allocated = (s.live.map Held.size).sum
  asked : strict = true → ∀ h ∈ s.live, 1 ≤ h.request ∧ h.request + 32 ≤ maxSize

def Tolerated (strict : Bool) (f : Fault) : Prop :=
  f = .mempoolOverflow ∨ strict = false ∧ (f = .mempoolOutside ∨ f = .mempoolBucket)

def Ends (strict : Bool) (r : Except Fault Session) : Prop :=
  (∃ s, r = .ok s ∧ Inv strict s) ∨ ∃ f, r = .error f ∧ Tolerated strict f

variable {mp mp' : Pool} {live : List Held} {tiles tiles' : List (Nat × Nat)}
  {free free' : Nat → List Nat} {strict : Bool} {s s' : Session} {b e p n a size : Nat} {h : Held}
  {m : Bytes}

section Totals

theorem total_le (arr : Arranged mp live tiles free) : (live.map Held.size).sum ≤ mp.next := by
  have distinct : (live.map fun h => (h.entry, h.size)).Nodup := by
    refine List.Nodup.of_map Prod.fst ?_
    rw [List.map_map]
    exact arr.distinct
  have part : (live.map fun h => (h.entry, h.size)).Subperm tiles := by
    refine distinct.subperm fun tile member => ?_
    obtain ⟨h, live', rfl⟩ := List.mem_map.mp member
    exact (arr.held h live').1
  obtain ⟨l, perm, sub⟩ := part
  have most := (sub.map Prod.snd).sum_le_sum fun _ _ => Nat.zero_le _
  have sum := arr.tiled.sum
  have same : live.map (Prod.snd ∘ fun h => (h.entry, h.size)) = live.map Held.size := rfl
  rw [(perm.map Prod.snd).sum_eq, List.map_map, same] at most
  omega

theorem drop_perm (member : ∃ h ∈ live, h.pointer = p) :
    ∃ h, h.pointer = p ∧ live.Perm (h :: drop p live) := by
  obtain ⟨h, here, same⟩ := member
  obtain ⟨h', l₁, l₂, -, found, whole, rest⟩ :=
    List.exists_of_eraseP (p := fun h : Held => h.pointer == p) here (beq_iff_eq.mpr same)
  refine ⟨h', beq_iff_eq.mp found, ?_⟩
  rw [drop, rest, whole]
  exact List.perm_middle

theorem drop_null (arr : Arranged mp live tiles free) : drop 0 live = live := by
  refine List.eraseP_of_forall_not fun h member => ?_
  have after := (arr.held h member).2.after
  rw [beq_iff_eq]
  omega

theorem fits_block (arr : Arranged mp live tiles free) (member : h ∈ live)
    (asked : h.request + 32 ≤ maxSize) : h.pointer + h.request ≤ h.entry + h.size := by
  obtain ⟨tile, good⟩ := arr.held h member
  have most := (sizes_good h.size (arr.wide tile).2.2.2.1).2.1
  have room := good.room
  rw [maxSize] at most asked
  rwa [granted_eq (by rw [word]; omega)] at room

theorem inside_pool (arr : Arranged mp live tiles free) (member : h ∈ live)
    (asked : 1 ≤ h.request ∧ h.request + 32 ≤ maxSize) : h.pointer < mp.memory + mp.capacity := by
  have room := fits_block arr member asked.2
  obtain ⟨-, high, -⟩ := arr.wide (arr.held h member).1
  have used := arr.used
  omega

end Totals

section Steps

theorem grows (inv : Inv strict s) (fresh : Fresh s.mp s.live h.entry h.size mp' tiles' free')
    (good : h.Good mp'.bytes) (asked : strict = true → 1 ≤ h.request ∧ h.request + 32 ≤ maxSize) :
    Inv strict { mp := mp', live := h :: s.live } := by
  have arr := fresh.give good
  have total := total_le arr
  have used := arr.used
  have small := arr.small
  refine ⟨⟨_, _, arr⟩, ?_, fun is_strict h' member => ?_⟩
  · rw [List.map_cons, List.sum_cons] at *
    rw [fresh.allocated, inv.allocated, Nat.mod_eq_of_lt (by rw [word]; omega), Nat.add_comm]
  · obtain rfl | old := List.mem_cons.mp member
    · exact asked is_strict
    · exact inv.asked is_strict h' old

theorem hold_eq (arr : Arranged mp live tiles free) (tile : (e, size) ∈ tiles)
    (back : entryOf p mp.bytes = e) :
    hold p n a mp = { pointer := p, request := n, alignment := a, entry := e, size } := by
  rw [hold, back, arr.header e size tile]

theorem ends_ok (inv : Inv strict s) : Ends strict (.ok s) := .inl ⟨s, rfl, inv⟩

theorem ends_full : Ends strict (.error .mempoolOverflow) := .inr ⟨_, rfl, .inl rfl⟩

theorem ends_error {f : Fault} (loose : strict ≠ true) (fault : f = .mempoolOutside ∨ f = .mempoolBucket) :
    Ends strict (.error f) :=
  .inr ⟨f, rfl, .inr ⟨Bool.eq_false_of_not_eq_true loose, fault⟩⟩

theorem no_bucket (asked : strict = true → 1 ≤ n ∧ n + 32 ≤ maxSize)
    (bucket : sizes[bucketOf n]? = none) : strict ≠ true := by
  intro is_strict
  have fits := (asked is_strict).2
  obtain ⟨size, some_bucket, -⟩ := bucketize_spec fits
  rw [bucketOf_eq fits, some_bucket] at bucket
  cases bucket

theorem alloc_safe (inv : Inv strict s) (valid : Valid strict s (.alloc n)) :
    Ends strict (step (.alloc n) s) := by
  obtain ⟨tiles, free, arr⟩ := inv.arranged
  cases bucket : sizes[bucketOf n]? with
  | none =>
      rw [step, alloc_large bucket, error_bind]
      exact ends_error (no_bucket valid.2 bucket) (.inr rfl)
  | some size =>
      by_cases spent : Spent s.mp (bucketOf n) size
      · rw [step, alloc_spent arr bucket spent, error_bind]
        exact ends_full
      · obtain ⟨mp', tiles', free', given, fresh, back, sealed⟩ := alloc_spec arr bucket spent
        rw [step, given, ok_bind]
        simp only [hold_eq fresh.arranged fresh.tile back]
        exact ends_ok (grows inv fresh (plain_good bucket back sealed) valid.2)

theorem alignedAlloc_safe (inv : Inv strict s) (valid : Valid strict s (.alignedAlloc a n)) :
    Ends strict (step (.alignedAlloc a n) s) := by
  obtain ⟨tiles, free, arr⟩ := inv.arranged
  obtain ⟨⟨k, -, power⟩, fits, asked⟩ := valid
  have positive : 0 < a := power ▸ Nat.two_pow_pos k
  have all : n + a - 1 + 32 ≤ maxSize := by omega
  obtain ⟨size, bucket, room⟩ := bucketize_spec all
  rw [← bucketOf_eq all] at bucket
  by_cases spent : Spent s.mp (bucketOf (n + a - 1)) size
  · rw [step, alignedAlloc_error positive fits (alloc_spent arr bucket spent), error_bind]
    exact ends_full
  · obtain ⟨p, mp', tiles', free', given, fresh, back, sealed, after, inside, aligned⟩ :=
      alignedAlloc_spec arr power fits bucket spent
    rw [step, given, ok_bind]
    simp only [hold_eq fresh.arranged fresh.tile back]
    have most := (sizes_good size (size_of_bucket bucket).1).2.1
    refine ends_ok (grows inv fresh ⟨after, ?_, back, sealed, aligned⟩ fun is_strict =>
      ⟨asked is_strict, by simp only; omega⟩)
    simp only
    rw [maxSize] at most fits
    rw [granted_eq (by rw [word]; omega)]
    exact inside

theorem shrinks (inv : Inv strict s) (perm : s.live.Perm (h :: live))
    (arr : Arranged s.mp s.live tiles free) :
    (s.mp.allocated + (word - h.size)) % word = (live.map Held.size).sum := by
  have total := total_le arr
  have used := arr.used
  have small := arr.small
  have counted := inv.allocated
  rw [(perm.map Held.size).sum_eq, List.map_cons, List.sum_cons] at counted total
  rw [counted, word]
  omega

theorem free_safe (inv : Inv strict s) (valid : Valid strict s (.free p)) :
    Ends strict (step (.free p) s) := by
  obtain ⟨tiles, free, arr⟩ := inv.arranged
  obtain rfl | live := valid
  · rw [step, Mempool.free, if_pos rfl, ok_bind, drop_null arr]
    exact ends_ok inv
  · obtain ⟨h, rfl, perm⟩ := drop_perm live
    have member : h ∈ s.live := perm.mem_iff.mpr List.mem_cons_self
    obtain ⟨tile, good⟩ := arr.held h member
    by_cases inside : h.pointer < s.mp.memory + s.mp.capacity
    · obtain ⟨mp', free', freed, arr', counter, -⟩ := free_spec (arr.perm perm) inside
      rw [step, freed, ok_bind]
      refine ends_ok ⟨⟨_, _, arr'⟩, ?_, fun is_strict h' old => ?_⟩
      · rw [counter]
        exact shrinks inv perm arr
      · exact inv.asked is_strict h' (perm.mem_iff.mpr (List.mem_cons_of_mem _ old))
    · have after := good.after
      rw [step, free_outside good.marked (by omega) (Nat.le_of_not_lt inside), error_bind]
      exact ends_error (fun is_strict => inside (inside_pool arr member (inv.asked is_strict h member)))
        (.inl rfl)

theorem write_safe {x : Nat} {v : UInt8} (inv : Inv strict s) (valid : Valid strict s (.write x v)) :
    Ends strict (step (.write x v) s) := by
  obtain ⟨tiles, free, arr⟩ := inv.arranged
  obtain ⟨h, member, low, high⟩ := valid
  refine ends_ok ⟨⟨tiles, free, arr.fill member fun y apart => Function.update_of_ne (by omega) _ _⟩,
    inv.allocated, inv.asked⟩

theorem others_asked (inv : Inv strict s) (perm : s.live.Perm (h :: live)) :
    strict = true → ∀ h' ∈ live, 1 ≤ h'.request ∧ h'.request + 32 ≤ maxSize := fun is_strict h' old =>
  inv.asked is_strict h' (perm.mem_iff.mpr (List.mem_cons_of_mem _ old))

theorem stays_safe (inv : Inv strict s) (arr : Arranged s.mp s.live tiles free)
    (perm : s.live.Perm (h :: live)) (stays : Stays h n)
    (asked : strict = true → 1 ≤ n ∧ n + 32 ≤ maxSize) :
    Inv strict { mp := s.mp, live := ⟨h.pointer, n, 1, h.entry, h.size⟩ :: live } := by
  obtain ⟨rest, tile, good, notFree, notLive⟩ := (arr.perm perm).drop
  have new : (⟨h.pointer, n, 1, h.entry, h.size⟩ : Held).Good s.mp.bytes := by
    obtain ⟨after, room, back, marked, -⟩ := good
    refine ⟨after, ?_, back, marked, Nat.one_dvd _⟩
    rw [Stays] at stays
    rw [granted]
    simp only
    omega
  refine ⟨⟨tiles, free, rest.give tile new notFree notLive⟩, ?_, fun is_strict h' member => ?_⟩
  · rw [inv.allocated, (perm.map Held.size).sum_eq]
    rfl
  · obtain rfl | old := List.mem_cons.mp member
    · exact asked is_strict
    · exact others_asked inv perm is_strict h' old

theorem moves_safe (inv : Inv strict s) (arr : Arranged s.mp s.live tiles free)
    (perm : s.live.Perm (h :: live)) (asked : strict = true → 1 ≤ n ∧ n + 32 ≤ maxSize)
    (done : Arranged mp' (⟨e + 32, n, 1, e, size⟩ :: live) tiles' free')
    (counter : mp'.allocated = ((s.mp.allocated + size) % word + (word - h.size)) % word) :
    Inv strict { mp := mp', live := ⟨e + 32, n, 1, e, size⟩ :: live } := by
  refine ⟨⟨tiles', free', done⟩, ?_, fun is_strict h' member => ?_⟩
  · have total := total_le done
    have used := done.used
    have small := done.small
    have before := shrinks inv perm arr
    have less := total_le arr
    have used₀ := arr.used
    have small₀ := arr.small
    have counted := inv.allocated
    rw [(perm.map Held.size).sum_eq] at counted less
    simp only [List.map_cons, List.sum_cons] at *
    rw [word] at *
    omega
  · obtain rfl | old := List.mem_cons.mp member
    · exact asked is_strict
    · exact others_asked inv perm is_strict h' old

theorem realloc_safe (inv : Inv strict s) (valid : Valid strict s (.realloc p n)) :
    Ends strict (step (.realloc p n) s) := by
  obtain ⟨tiles, free, arr⟩ := inv.arranged
  obtain ⟨bound, asked, rfl | ⟨h₀, live₀, same, -⟩⟩ := valid
  · -- without a pointer it is `alloc`
    have same : step (.realloc 0 n) s = step (.alloc n) s := by
      rw [step, step, realloc, if_pos rfl, drop_null arr]
      cases alloc s.mp n <;> rfl
    rw [same]
    exact alloc_safe inv ⟨bound, asked⟩
  · obtain ⟨h, rfl, perm⟩ := drop_perm ⟨h₀, live₀, same⟩
    have member : h ∈ s.live := perm.mem_iff.mpr List.mem_cons_self
    obtain ⟨tile, good⟩ := arr.held h member
    by_cases inside : h.pointer < s.mp.memory + s.mp.capacity
    · by_cases stays : Stays h n
      · rw [step, realloc_live arr member inside, if_pos stays, ok_bind]
        simp only [hold_eq arr tile good.back]
        exact ends_ok (stays_safe inv arr perm stays asked)
      · cases bucket : sizes[bucketOf n]? with
        | none =>
            rw [step, realloc_error arr member inside stays (alloc_large bucket), error_bind]
            exact ends_error (no_bucket asked bucket) (.inr rfl)
        | some size =>
            by_cases spent : Spent s.mp (bucketOf n) size
            · rw [step, realloc_error arr member inside stays (alloc_spent arr bucket spent),
                error_bind]
              exact ends_full
            · obtain ⟨e, mp', tiles', free', moved, done, counter, -⟩ :=
                realloc_moves (arr.perm perm) inside bound stays bucket spent
              obtain ⟨tile', good'⟩ := done.held _ List.mem_cons_self
              rw [step, moved, ok_bind]
              simp only [hold_eq done tile' good'.back]
              exact ends_ok (moves_safe inv arr perm asked done counter)
    · have after := good.after
      rw [step, realloc_outside good.marked (by omega) (Nat.le_of_not_lt inside), error_bind]
      exact ends_error (fun is_strict => inside (inside_pool arr member (inv.asked is_strict h member)))
        (.inl rfl)

theorem step_safe {c : Call} (inv : Inv strict s) (valid : Valid strict s c) :
    Ends strict (step c s) := by
  cases c with
  | alloc n => exact alloc_safe inv valid
  | alignedAlloc a n => exact alignedAlloc_safe inv valid
  | realloc p n => exact realloc_safe inv valid
  | free p => exact free_safe inv valid
  | write x v => exact write_safe inv valid

theorem start_inv {bytes : Bytes} {pool cap : Nat} (region : Region pool cap)
    (init : initStatic bytes pool cap = .ok mp) : Inv strict { mp, live := [] } := by
  obtain ⟨⟨⟩, some_pool, rest⟩ := bind_eq_ok.mp init
  cases rest
  have start : pool ≠ 0 := by
    intro null
    subst null
    cases some_pool
  refine ⟨⟨[], fun _ => [], ?_⟩, rfl, fun _ h member => absurd member List.not_mem_nil⟩
  refine ⟨Nat.pos_of_ne_zero start, region.words, region.ends, region.small, Nat.zero_le _, rfl, ?_, ?_,
    ?_, ?_, ?_, List.nodup_nil, ?_⟩
  · intro e size tile
    exact absurd tile List.not_mem_nil
  · intro b bound
    rfl
  · intro b bound e member
    exact absurd member List.not_mem_nil
  · intro b bound
    exact List.nodup_nil
  · intro h member
    exact absurd member List.not_mem_nil
  · intro b bound e member
    exact absurd member List.not_mem_nil

theorem reachable_inv {bytes : Bytes} {pool cap : Nat} (region : Region pool cap)
    (init : initStatic bytes pool cap = .ok mp) (reached : Reachable (system strict mp) s) :
    Inv strict s := by
  refine reached.keeps (start_inv region init) fun s c s' inv valid stepped => ?_
  obtain ⟨s', ran, kept⟩ | ⟨f, ran, -⟩ := step_safe inv valid
  · cases ran.symm.trans stepped
    exact kept
  · cases ran.symm.trans stepped

end Steps

section Soundness

def blocks (s : Session) (free : Nat → List Nat) : List (Nat × Nat) :=
  s.live.map (fun h => (h.entry, h.size)) ++
    (List.range 18).flatMap fun b => (free b).map fun e => (e, sizeField e s.mp.bytes)

def Apart (x y : Nat × Nat) : Prop := x.1 + x.2 ≤ y.1 ∨ y.1 + y.2 ≤ x.1

structure Sound (s : Session) (free : Nat → List Nat) : Prop where
  chains : ∀ b < 18, Linked 0 (link s.mp.bytes) (s.mp.stack b) (free b)
  entries : ∀ b < 18, ∀ e ∈ free b, sizes[b]? = some (sizeField e s.mp.bytes)
  disjoint : (blocks s free).Pairwise Apart
  inside : s.mp.next ≤ s.mp.capacity ∧
    ∀ x ∈ blocks s free, s.mp.memory ≤ x.1 ∧ x.1 + x.2 ≤ s.mp.memory + s.mp.next
  buckets : ∀ h ∈ s.live, h.size ∈ sizes ∧ sizeField h.entry s.mp.bytes = h.size
  room : ∀ h ∈ s.live, h.entry + metadataSize ≤ h.pointer ∧
    h.pointer + h.request ≤ h.entry + h.size ∧ h.alignment ∣ h.pointer
  allocated : s.mp.allocated = (s.live.map Held.size).sum

theorem Arranged.freed (arr : Arranged mp live tiles free) {x : Nat × Nat} (bound : b < 18)
    (member : x ∈ (free b).map fun e => (e, sizeField e mp.bytes)) :
    x ∈ tiles ∧ x.1 ∈ free b ∧ sizes[b]? = some x.2 := by
  obtain ⟨e, freed, rfl⟩ := List.mem_map.mp member
  obtain ⟨size, bucket, tile⟩ := arr.stacked b bound e freed
  rw [arr.header e size tile]
  exact ⟨tile, freed, bucket⟩

theorem blocks_tiles (arr : Arranged s.mp s.live tiles free) {x : Nat × Nat}
    (member : x ∈ blocks s free) : x ∈ tiles := by
  obtain live | stacked := List.mem_append.mp member
  · obtain ⟨h, held, rfl⟩ := List.mem_map.mp live
    exact (arr.held h held).1
  · obtain ⟨b, bound, freed⟩ := List.mem_flatMap.mp stacked
    exact (Arranged.freed arr (List.mem_range.mp bound) freed).1

theorem blocks_apart (arr : Arranged s.mp s.live tiles free) : (blocks s free).Pairwise Apart := by
  have apart {x y : Nat × Nat} (first : x ∈ tiles) (second : y ∈ tiles) (other : x.1 ≠ y.1) :
      Apart x y := arr.tiled.apart first second other
  refine List.pairwise_append.mpr ⟨?_, ?_, ?_⟩
  · rw [List.pairwise_map]
    have distinct := List.pairwise_map.mp arr.distinct
    exact distinct.imp_of_mem fun first second other =>
      apart (arr.held _ first).1 (arr.held _ second).1 other
  · refine List.pairwise_flatMap.mpr ⟨fun b bound => ?_, ?_⟩
    · have bound := List.mem_range.mp bound
      rw [List.pairwise_map]
      refine (arr.once b bound).imp_of_mem fun {e e'} first second other => ?_
      exact apart (Arranged.freed arr bound (List.mem_map_of_mem first)).1
        (Arranged.freed arr bound (List.mem_map_of_mem second)).1 other
    · refine List.nodup_range.imp_of_mem fun {b b'} first second other x here y there => ?_
      obtain ⟨tile, -, bucket⟩ := Arranged.freed arr (List.mem_range.mp first) here
      obtain ⟨tile', -, bucket'⟩ := Arranged.freed arr (List.mem_range.mp second) there
      refine apart tile tile' fun same => other ?_
      obtain ⟨e, size⟩ := x
      obtain ⟨e', size'⟩ := y
      obtain rfl : e = e' := same
      obtain rfl := arr.size_eq tile tile'
      exact bucket_unique bucket bucket'
  · intro x live y stacked
    obtain ⟨h, held, rfl⟩ := List.mem_map.mp live
    obtain ⟨b, bound, freed⟩ := List.mem_flatMap.mp stacked
    have bound := List.mem_range.mp bound
    obtain ⟨tile, entry, -⟩ := Arranged.freed arr bound freed
    refine apart (arr.held h held).1 tile fun same => ?_
    exact arr.apart b bound y.1 entry (same ▸ List.mem_map_of_mem held)

theorem Inv.sound (inv : Inv true s) : ∃ free, Sound s free := by
  obtain ⟨tiles, free, arr⟩ := inv.arranged
  refine ⟨free, arr.chains, fun b bound e freed => ?_, blocks_apart arr,
    ⟨arr.used, fun x member => ?_⟩, fun h member => ?_, fun h member => ?_, inv.allocated⟩
  · exact (Arranged.freed arr bound (List.mem_map_of_mem freed)).2.2
  · exact arr.tiled.inside (blocks_tiles arr member)
  · have tile := (arr.held h member).1
    exact ⟨(arr.wide tile).2.2.2.1, arr.header _ _ tile⟩
  · have good := (arr.held h member).2
    exact ⟨good.after, fits_block arr member (inv.asked rfl h member).2, good.aligned⟩

/-- From an aligned region on, calls with live pointers and requests that fit a bucket keep the blocks
apart, and only the end of the pool stops them. -/
theorem pool_sound {bytes : Bytes} {pool cap : Nat} (region : Region pool cap)
    (init : initStatic bytes pool cap = .ok mp) (reached : Reachable (system true mp) s) :
    (∃ free, Sound s free) ∧
      ∀ c, Valid true s c → (∃ s', step c s = .ok s') ∨ step c s = .error .mempoolOverflow := by
  have inv := reachable_inv region init reached
  refine ⟨inv.sound, fun c valid => ?_⟩
  obtain ⟨s', ran, -⟩ | ⟨f, ran, rfl | ⟨loose, -⟩⟩ := step_safe inv valid
  · exact .inl ⟨s', ran⟩
  · exact .inr ran
  · cases loose

def zeroPool (cap : Nat) : Pool where
  bytes := fun _ => 0
  memory := 8
  capacity := cap
  next := 0
  stack := fun _ => 0
  allocated := 0

/-- A plain and an aligned pointer, of which the plain one is written and moves, and the other one is
given back. -/
def history : List Call :=
  [.alloc 1, .alignedAlloc 16 1, .write 40 7, .realloc 40 100, .free 176, .alloc 90]

theorem pool_sound_history : ∃ s,
    run (system true (zeroPool 1024)) history { mp := zeroPool 1024, live := [] } = .ok s ∧
      (∃ free, Sound s free) ∧
      ∀ c, Valid true s c → (∃ s', step c s = .ok s') ∨ step c s = .error .mempoolOverflow := by
  have legal : Legal (system true (zeroPool 1024)) history (system true (zeroPool 1024)).start := by
    decide +kernel
  have init : initStatic (fun _ => 0) 8 1024 = .ok (zeroPool 1024) := rfl
  obtain ⟨s, ran⟩ := legal.runs
  exact ⟨s, ran, pool_sound ⟨by decide, by decide, by decide⟩ init (legal.reachable .start ran)⟩

end Soundness

end Lotto.MempoolRuns
