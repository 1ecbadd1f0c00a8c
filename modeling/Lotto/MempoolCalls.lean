import Lotto.MempoolBlocks

namespace Lotto.MempoolCalls

open Library.FaultRun Library.ByteMemory Library.Links Library.Tiling Mempool MempoolBlocks

variable {mp mp' : Pool} {live : List Held} {tiles tiles' : List (Nat × Nat)}
  {free free' : Nat → List Nat} {b e p n size : Nat} {h : Held} {m : Bytes}

section Taking

/-- There is neither an entry on the stack nor space behind the used part. -/
def Spent (mp : Pool) (b size : Nat) : Prop := mp.stack b = 0 ∧ mp.capacity < mp.next + size

instance : Decidable (Spent mp b size) := inferInstanceAs (Decidable (_ ∧ _))

def taken (mp : Pool) (b : Nat) : Nat :=
  if mp.stack b ≠ 0 then mp.stack b else mp.memory + mp.next

structure Fresh (mp : Pool) (live : List Held) (e size : Nat) (mp' : Pool)
    (tiles' : List (Nat × Nat)) (free' : Nat → List Nat) : Prop where
  arranged : Arranged mp' live tiles' free'
  tile : (e, size) ∈ tiles'
  notFree : ∀ b < 18, e ∉ free' b
  notLive : e ∉ live.map Held.entry
  memory : mp'.memory = mp.memory
  capacity : mp'.capacity = mp.capacity
  allocated : mp'.allocated = (mp.allocated + size) % word
  kept : ∀ x, x < e ∨ e + size ≤ x → mp'.bytes x = mp.bytes x

theorem sizeField_storeWord {v : Nat} : sizeField e (storeWord e v m) = sizeField e m := by
  have kept : Agree (e + 8) 8 m (storeWord e v m) := by
    intro x low _
    exact storeWord_outside (by omega)
  exact loadWord_agree kept (Nat.le_refl _) (Nat.le_refl _)

theorem popEntry_spec (arr : Arranged mp live tiles free) (bucket : sizes[b]? = some size)
    (some_entry : mp.stack b ≠ 0) :
    ∃ free', Fresh mp live (mp.stack b) size (popEntry mp b size).2 tiles free' := by
  have bound := (size_of_bucket bucket).2
  have chain := arr.chains b bound
  cases first : free b with
  | nil =>
      rw [first] at chain
      exact absurd chain some_entry
  | cons e rest =>
      rw [first] at chain
      obtain ⟨same, -, -⟩ := chain
      have member : e ∈ free b := first ▸ List.mem_cons_self
      obtain ⟨size', bucket', tile⟩ := arr.stacked b bound e member
      rw [bucket] at bucket'
      cases bucket'
      have notLive := arr.apart b bound e member
      have notFree (b' : Nat) (bound' : b' < 18) : e ∉ Function.update free b rest b' := by
        intro again
        by_cases here : b' = b
        · subst here
          rw [Function.update_self] at again
          have distinct := arr.once b' bound
          rw [first] at distinct
          exact (List.nodup_cons.mp distinct).1 again
        · rw [Function.update_of_ne here] at again
          obtain ⟨size', bucket', tile'⟩ := arr.stacked b' bound' e again
          cases arr.size_eq tile tile'
          exact here (bucket_unique bucket' bucket)
      have header : sizeField e (storeWord e 0 mp.bytes) = size := by
        rw [sizeField_storeWord]
        exact arr.header e size tile
      have wide := (arr.wide tile).2.2.1
      have written := (arr.pop bound first).frame tile
        (fun x outside => storeWord_outside (by omega)) header notFree notLive
      rw [same]
      refine ⟨_, ?_, tile, notFree, notLive, rfl, rfl, rfl, fun x outside => ?_⟩
      · rw [popEntry, same]
        exact written.counter _
      · rw [popEntry, same]
        exact storeWord_outside (by omega)

theorem bumpEntry_spec (arr : Arranged mp live tiles free) (good : size ∈ sizes)
    (fits : mp.next + size ≤ mp.capacity) :
    ∃ mp' tiles', bumpEntry mp size = .ok (mp.memory + mp.next, mp') ∧
      Fresh mp live (mp.memory + mp.next) size mp' tiles' free := by
  have small := arr.small
  obtain ⟨wide, bound, -⟩ := sizes_good size good
  have exact_sum : (mp.next + size) % word = mp.next + size := by
    rw [word]
    omega
  have value : size < word := by
    rw [maxSize] at bound
    rw [word]
    omega
  set e := mp.memory + mp.next with start
  have outside (x : Nat) (apart : x < e ∨ e + 16 ≤ x) :
      storeWord (e + 8) size (storeWord e 0 mp.bytes) x = mp.bytes x := by
    rw [storeWord_outside (by omega), storeWord_outside (by omega)]
  have header : sizeField e (storeWord (e + 8) size (storeWord e 0 mp.bytes)) = size :=
    loadWord_store value
  have longer := (arr.behind fun x below => outside x (.inl below)).extend good fits header
  refine ⟨{ mp with
    bytes := storeWord (e + 8) size (storeWord e 0 mp.bytes)
    next := mp.next + size
    allocated := (mp.allocated + size) % word }, tiles ++ [(e, size)], ?_, ?_⟩
  · rw [bumpEntry, exact_sum, check, if_pos (decide_eq_true fits)]
    rfl
  · refine ⟨longer.counter _, List.mem_append_right _ List.mem_cons_self, ?_, ?_, rfl, rfl, rfl,
      fun x apart => outside x (by omega)⟩
    · intro b bound member
      obtain ⟨size', -, tile⟩ := arr.stacked b bound e member
      obtain ⟨-, inside, some_size, -⟩ := arr.wide tile
      omega
    · intro member
      obtain ⟨h, old, here⟩ := List.mem_map.mp member
      obtain ⟨-, inside, some_size, -⟩ := arr.wide (arr.held h old).1
      omega

theorem takeEntry_spec (arr : Arranged mp live tiles free) (bucket : sizes[b]? = some size)
    (left : ¬Spent mp b size) :
    ∃ mp' tiles' free', takeEntry mp b size = .ok (taken mp b, mp') ∧
      Fresh mp live (taken mp b) size mp' tiles' free' := by
  by_cases some_entry : mp.stack b ≠ 0
  · obtain ⟨free', fresh⟩ := popEntry_spec arr bucket some_entry
    refine ⟨(popEntry mp b size).2, tiles, free', ?_, ?_⟩
    · rw [takeEntry, if_pos some_entry, taken, if_pos some_entry]
      rfl
    · rw [taken, if_pos some_entry]
      exact fresh
  · have fits : mp.next + size ≤ mp.capacity := by
      by_contra full
      exact left ⟨not_not.mp some_entry, Nat.lt_of_not_le full⟩
    obtain ⟨mp', tiles', took, fresh⟩ := bumpEntry_spec arr (size_of_bucket bucket).1 fits
    refine ⟨mp', tiles', free, ?_, ?_⟩
    · rw [takeEntry, if_neg some_entry, taken, if_neg some_entry]
      exact took
    · rw [taken, if_neg some_entry]
      exact fresh

theorem takeEntry_spent (arr : Arranged mp live tiles free) (good : size ∈ sizes)
    (spent : Spent mp b size) : takeEntry mp b size = .error .mempoolOverflow := by
  obtain ⟨none_free, full⟩ := spent
  have small := arr.small
  have used := arr.used
  have bound := (sizes_good size good).2.1
  have exact_sum : (mp.next + size) % word = mp.next + size := by
    rw [maxSize] at bound
    rw [word]
    omega
  rw [takeEntry, if_neg (not_not.mpr none_free), bumpEntry, exact_sum, check,
    if_neg (by simpa using full)]
  rfl

end Taking

section Allocating

def bucketOf (n : Nat) : Nat := bucketize ((n + metadataSize) % word)

theorem granted_room (bucket : sizes[bucketOf n]? = some size) : 32 + granted 32 n ≤ size := by
  have bound := bucketize_le bucket
  have wide := (sizes_good size (size_of_bucket bucket).1).1
  rw [metadataSize, Nat.add_comm] at bound
  rw [granted]
  omega

theorem bucketOf_eq (fits : n + 32 ≤ maxSize) : bucketOf n = bucketize (n + 32) := by
  rw [maxSize] at fits
  rw [bucketOf, metadataSize, Nat.mod_eq_of_lt (by rw [word]; omega)]

theorem Fresh.mark (fresh : Fresh mp live e size mp' tiles' free') (after : e + 32 ≤ p)
    (inside : p ≤ e + size) :
    Fresh mp live e size { mp' with bytes := mark e p mp'.bytes } tiles' free' ∧
      entryOf p (mark e p mp'.bytes) = e ∧ canaryOf p (mark e p mp'.bytes) = canary := by
  have arr := fresh.arranged
  obtain ⟨-, high, -, -⟩ := arr.wide fresh.tile
  have used := arr.used
  have ends := arr.ends
  have outside (x : Nat) (apart : x < e + 16 ∨ e + size ≤ x) :
      Mempool.mark e p mp'.bytes x = mp'.bytes x := mark_outside (by omega) (by omega)
  have header : sizeField e (Mempool.mark e p mp'.bytes) = size := by
    have same : Agree (e + 8) 8 mp'.bytes (Mempool.mark e p mp'.bytes) :=
      fun x low high => outside x (by omega)
    rw [sizeField, loadWord_agree same (Nat.le_refl _) (Nat.le_refl _)]
    exact arr.header e size fresh.tile
  refine ⟨{ fresh with
    arranged := arr.frame fresh.tile (fun x apart => outside x (by omega)) header fresh.notFree
      fresh.notLive
    kept := fun x apart => (outside x (by omega)).trans (fresh.kept x apart) },
    entryOf_mark (by omega) (by omega), canaryOf_mark⟩

theorem plain_good (bucket : sizes[bucketOf n]? = some size)
    (back : entryOf (e + 32) m = e) (sealed : canaryOf (e + 32) m = canary) :
    (⟨e + 32, n, 1, e, size⟩ : Held).Good m := by
  have room := granted_room bucket
  refine ⟨Nat.le_refl _, ?_, back, sealed, Nat.one_dvd _⟩
  simp only [Nat.add_sub_cancel_left]
  omega

theorem Fresh.give (fresh : Fresh mp live h.entry h.size mp' tiles' free')
    (good : h.Good mp'.bytes) : Arranged mp' (h :: live) tiles' free' :=
  fresh.arranged.give fresh.tile good fresh.notFree fresh.notLive

theorem alloc_spec (arr : Arranged mp live tiles free) (bucket : sizes[bucketOf n]? = some size)
    (left : ¬Spent mp (bucketOf n) size) :
    ∃ mp' tiles' free', alloc mp n = .ok (taken mp (bucketOf n) + 32, mp') ∧
      Fresh mp live (taken mp (bucketOf n)) size mp' tiles' free' ∧
      entryOf (taken mp (bucketOf n) + 32) mp'.bytes = taken mp (bucketOf n) ∧
      canaryOf (taken mp (bucketOf n) + 32) mp'.bytes = canary := by
  obtain ⟨mp', tiles', free', took, fresh⟩ := takeEntry_spec arr bucket left
  set e := taken mp (bucketOf n)
  obtain ⟨low, -, wide, -⟩ := fresh.arranged.wide fresh.tile
  have some_entry : e ≠ 0 := by
    have start := fresh.arranged.starts
    omega
  obtain ⟨marked, back, sealed⟩ := fresh.mark (Nat.le_refl _) (Nat.add_le_add_left wide e)
  refine ⟨_, tiles', free', ?_, marked, back, sealed⟩
  rw [bucketOf] at bucket took
  simp only [alloc, bucket, took, ok_bind, if_neg some_entry]
  rfl

theorem alloc_spent (arr : Arranged mp live tiles free) (bucket : sizes[bucketOf n]? = some size)
    (spent : Spent mp (bucketOf n) size) : alloc mp n = .error .mempoolOverflow := by
  have full := takeEntry_spent arr (size_of_bucket bucket).1 spent
  rw [bucketOf] at bucket full
  simp only [alloc, bucket, full, error_bind]

theorem alloc_large (large : sizes[bucketOf n]? = none) : alloc mp n = .error .mempoolBucket := by
  rw [bucketOf] at large
  simp only [alloc, large]

end Allocating

section Aligning

theorem aligned_next {a c : Nat} (positive : 0 < a) : a ∣ c + a - c % a := by
  have parts := Nat.mod_add_div c a
  have below := Nat.mod_lt c positive
  have next : c + a - c % a = a * (c / a) + a := by omega
  rw [next]
  exact ⟨c / a + 1, by rw [Nat.mul_add, Nat.mul_one]⟩

theorem small_power {a k : Nat} (power : a = 2 ^ k) (small : a ≤ 8) : a ∣ 8 := by
  have exponent : k ≤ 3 := by
    by_contra large
    have grows : 2 ^ 4 ≤ 2 ^ k := Nat.pow_le_pow_right (by decide) (by omega)
    omega
  rw [power]
  exact Nat.pow_dvd_pow 2 exponent

theorem aligned_request {a : Nat} (positive : 0 < a) (fits : n + a + 31 ≤ maxSize) :
    (n + a + (word - 1)) % word = n + a - 1 := by
  rw [maxSize] at fits
  rw [word]
  omega

theorem alignedAlloc_spec {a k : Nat} (arr : Arranged mp live tiles free) (power : a = 2 ^ k)
    (fits : n + a + 31 ≤ maxSize) (bucket : sizes[bucketOf (n + a - 1)]? = some size)
    (left : ¬Spent mp (bucketOf (n + a - 1)) size) :
    ∃ p mp' tiles' free', alignedAlloc mp a n = .ok (p, mp') ∧
      Fresh mp live (taken mp (bucketOf (n + a - 1))) size mp' tiles' free' ∧
      entryOf p mp'.bytes = taken mp (bucketOf (n + a - 1)) ∧ canaryOf p mp'.bytes = canary ∧
      taken mp (bucketOf (n + a - 1)) + 32 ≤ p ∧
      p + n ≤ taken mp (bucketOf (n + a - 1)) + size ∧ a ∣ p := by
  have positive : 0 < a := power ▸ Nat.two_pow_pos k
  obtain ⟨mp', tiles', free', given, fresh, back, sealed⟩ := alloc_spec arr bucket left
  set e := taken mp (bucketOf (n + a - 1))
  have room : n + a - 1 + 32 ≤ size := by
    have bound := bucketize_le bucket
    rwa [metadataSize, Nat.mod_eq_of_lt (by rw [maxSize] at fits; rw [word]; omega)] at bound
  have request := aligned_request positive fits
  have below := Nat.mod_lt (e + 32) positive
  by_cases placed : (e + 32) % a = 0
  · refine ⟨e + 32, mp', tiles', free', ?_, fresh, back, sealed, Nat.le_refl _, by omega,
      Nat.dvd_of_mod_eq_zero placed⟩
    simp only [alignedAlloc, request, given, ok_bind, decide_eq_true positive.ne', check_true, placed,
      if_true]
  · have large : a > poolAlignment := by
      by_contra small
      rw [poolAlignment] at small
      have word_entry := (fresh.arranged.wide fresh.tile).2.2.2.2
      have divides : a ∣ e + 32 := (small_power power (by omega)).trans
        (Nat.dvd_add word_entry (by decide))
      exact placed (Nat.mod_eq_zero_of_dvd divides)
    have after : e + 32 ≤ e + 32 + a - (e + 32) % a := by omega
    obtain ⟨marked, back', sealed'⟩ := fresh.mark after (by omega)
    refine ⟨_, _, tiles', free', ?_, marked, back', sealed', after, by omega, aligned_next positive⟩
    have tested : check (decide (a > poolAlignment)) .mempoolAlignment = .ok () := by
      rw [check, if_pos (decide_eq_true large)]
    simp only [alignedAlloc, request, given, ok_bind, decide_eq_true positive.ne', check_true, placed,
      if_false, tested, back]

theorem alignedAlloc_error {a : Nat} {f : Fault} (positive : 0 < a) (fits : n + a + 31 ≤ maxSize)
    (failed : alloc mp (n + a - 1) = .error f) : alignedAlloc mp a n = .error f := by
  have request := aligned_request positive fits
  simp only [alignedAlloc, request, failed, error_bind]

end Aligning

section Freeing

theorem inPool_iff : mp.inPool p = true ↔ mp.memory ≤ p ∧ p < mp.memory + mp.capacity := by
  rw [Pool.inPool, Bool.and_eq_true, decide_eq_true_eq, decide_eq_true_eq]

theorem live_inPool (arr : Arranged mp live tiles free) (member : h ∈ live)
    (inside : h.pointer < mp.memory + mp.capacity) : mp.inPool h.pointer = true := by
  obtain ⟨tile, good⟩ := arr.held h member
  obtain ⟨low, -⟩ := arr.wide tile
  have after := good.after
  exact inPool_iff.mpr ⟨by omega, inside⟩

theorem not_inPool (outside : mp.memory + mp.capacity ≤ p) : mp.inPool p = false := by
  rw [Bool.eq_false_iff, Ne, inPool_iff]
  omega

theorem free_spec (arr : Arranged mp (h :: live) tiles free)
    (inside : h.pointer < mp.memory + mp.capacity) :
    ∃ mp' free', Mempool.free mp h.pointer = .ok mp' ∧ Arranged mp' live tiles free' ∧
      mp'.allocated = (mp.allocated + (word - h.size)) % word ∧
      (∀ x, x < h.entry ∨ h.entry + 8 ≤ x → mp'.bytes x = mp.bytes x) := by
  obtain ⟨rest, tile, good, notFree, notLive⟩ := arr.drop
  obtain ⟨low, high, wide, size_good, -⟩ := arr.wide tile
  have some_pointer : h.pointer ≠ 0 := by
    have after := good.after
    omega
  have within := live_inPool arr List.mem_cons_self inside
  have header := arr.header _ _ tile
  have bucket := bucketize_size h.size size_good
  set b := bucketize h.size
  have bound := (size_of_bucket bucket).2
  have small : mp.stack b < word := by
    have chain := arr.chains b bound
    cases first : free b with
    | nil =>
        rw [first] at chain
        rw [show mp.stack b = 0 from chain]
        decide
    | cons e rest =>
        rw [first] at chain
        obtain ⟨same, -, -⟩ := chain
        obtain ⟨size', -, tile'⟩ := arr.stacked b bound e (first ▸ List.mem_cons_self)
        obtain ⟨-, high', wide', -, -⟩ := arr.wide tile'
        have used := arr.used
        have ends := arr.ends
        omega
  have outside (x : Nat) (apart : x < h.entry ∨ h.entry + 8 ≤ x) :
      storeWord h.entry (mp.stack b) mp.bytes x = mp.bytes x := storeWord_outside apart
  have written := rest.frame tile (fun x apart => outside x (by omega))
    (sizeField_storeWord.trans header) notFree notLive
  have pushed := written.push tile bucket (loadWord_store small) notFree notLive
  refine ⟨_, _, ?_, pushed.counter ((mp.allocated + (word - h.size)) % word), rfl, outside⟩
  simp only [Mempool.free, if_neg some_pointer, good.marked, beq_self_eq_true, check_true, ok_bind,
    within, good.back, header]
  rw [show sizes[bucketize h.size]? = some h.size from bucket]

theorem free_outside (marked : canaryOf p mp.bytes = canary) (some_pointer : p ≠ 0)
    (outside : mp.memory + mp.capacity ≤ p) : Mempool.free mp p = .error .mempoolOutside := by
  have refused := not_inPool outside
  simp only [Mempool.free, if_neg some_pointer, marked, beq_self_eq_true, check_true, ok_bind, refused,
    check_false, error_bind]

end Freeing

section Reallocating

/-- A pointer keeps its block if its block is large enough. -/
def Stays (h : Held) (n : Nat) : Prop := (h.pointer - h.entry + n) % word ≤ h.size

instance : Decidable (Stays h n) := inferInstanceAs (Decidable (_ ≤ _))

theorem sizes_gap : ∀ s ∈ sizes, ∀ s' ∈ sizes, s - 32 < s' → s ≤ s' := by decide +kernel

theorem no_wrap (good : h.Good m) (bound : n < word) (moves : ¬Stays h n) :
    n + 32 < word := by
  obtain ⟨after, room, -, -, -⟩ := good
  rw [Stays] at moves
  rw [word] at *
  omega

theorem realloc_live (arr : Arranged mp live tiles free) (member : h ∈ live)
    (inside : h.pointer < mp.memory + mp.capacity) :
    realloc mp h.pointer n =
      if Stays h n then .ok (h.pointer, 0, mp)
      else alloc mp n >>= fun (r : Nat × Pool) =>
        if r.1 = 0 then Mempool.free r.2 h.pointer >>= fun mp => .ok (0, 0, mp)
        else (do
          check (r.2.inPool h.pointer) .mempoolOutside
          check (canaryOf h.pointer r.2.bytes == canary) .mempoolCanary
          let size := sizeField h.entry r.2.bytes
          let room := (size + (word - metadataSize)) % word
          let count := if room < (n + metadataSize) % word then room else n
          let mp ← Mempool.free { r.2 with bytes := copy r.1 h.pointer count r.2.bytes } h.pointer
          .ok (r.1, count, mp)) := by
  obtain ⟨tile, good⟩ := arr.held h member
  obtain ⟨low, high, wide, -⟩ := arr.wide tile
  have after := good.after
  have start := arr.starts
  have used := arr.used
  have ends := arr.ends
  have within := live_inPool arr member inside
  have offset : (h.pointer + (word - h.entry) + n) % word = (h.pointer - h.entry + n) % word := by
    have below : h.entry < word := by omega
    rw [show h.pointer + (word - h.entry) + n = h.pointer - h.entry + n + word by omega,
      Nat.add_mod_right]
  rw [realloc, if_neg (by omega : ¬h.pointer = 0)]
  simp only [good.marked, beq_self_eq_true, check_true, ok_bind, within, good.back,
    arr.header _ _ tile, offset, ge_iff_le]
  rfl

theorem realloc_outside (marked : canaryOf p mp.bytes = canary) (some_pointer : p ≠ 0)
    (outside : mp.memory + mp.capacity ≤ p) : realloc mp p n = .error .mempoolOutside := by
  have refused := not_inPool outside
  simp only [realloc, if_neg some_pointer, marked, beq_self_eq_true, check_true, ok_bind, refused,
    check_false, error_bind]

def copied (h : Held) (n : Nat) : Nat := if h.size - 32 < n + 32 then h.size - 32 else n

theorem realloc_moves (arr : Arranged mp (h :: live) tiles free)
    (inside : h.pointer < mp.memory + mp.capacity) (bound : n < word) (moves : ¬Stays h n)
    (bucket : sizes[bucketOf n]? = some size) (left : ¬Spent mp (bucketOf n) size) :
    ∃ e mp' tiles' free', realloc mp h.pointer n = .ok (e + 32, copied h n, mp') ∧
      Arranged mp' (⟨e + 32, n, 1, e, size⟩ :: live) tiles' free' ∧
      mp'.allocated = ((mp.allocated + size) % word + (word - h.size)) % word ∧
      (∀ i < copied h n, h.pointer + i < h.entry + h.size →
        mp'.bytes (e + 32 + i) = mp.bytes (h.pointer + i)) := by
  obtain ⟨tile, good⟩ := arr.held h List.mem_cons_self
  have no_wrap := no_wrap good bound moves
  obtain ⟨mp', tiles', free', given, fresh, back, sealed⟩ := alloc_spec arr bucket left
  set e := taken mp (bucketOf n)
  have fits : n + 32 ≤ size := by
    have least := bucketize_le bucket
    rwa [metadataSize, Nat.mod_eq_of_lt no_wrap] at least
  obtain ⟨low, high, -, -⟩ := fresh.arranged.wide fresh.tile
  have start := fresh.arranged.starts
  -- the new block becomes live
  have new : (⟨e + 32, n, 1, e, size⟩ : Held).Good mp'.bytes :=
    plain_good bucket back sealed
  have both := (fresh.give (h := ⟨e + 32, n, 1, e, size⟩) new).perm (List.Perm.swap _ _ _)
  obtain ⟨tile', good'⟩ := both.held h List.mem_cons_self
  obtain ⟨low', high', wide', size_good', -⟩ := both.wide tile'
  have other : e ≠ h.entry := fun same => fresh.notLive (same ▸ List.mem_map_of_mem List.mem_cons_self)
  have separate := both.tiled.apart fresh.tile tile' other
  have enough : copied h n + 32 ≤ size := by
    rw [copied]
    split
    · have gap := sizes_gap h.size size_good' size (size_of_bucket bucket).1 (by omega)
      omega
    · exact fits
  -- the copy stays inside the new block
  have filled := both.fill (h := ⟨e + 32, n, 1, e, size⟩) (by simp)
    (m := copy (e + 32) h.pointer (copied h n) mp'.bytes) fun x apart => if_neg (by
      simp only at apart
      omega)
  have inside' : h.pointer < mp'.memory + mp'.capacity := by
    rw [fresh.memory, fresh.capacity]
    exact inside
  obtain ⟨mp'', free'', freed, done, counter, outside⟩ := free_spec filled inside'
  refine ⟨e, mp'', tiles', free'', ?_, done, counter.trans (by rw [fresh.allocated]),
    fun i below within => ?_⟩
  · have pool := live_inPool both List.mem_cons_self inside'
    have room : (h.size + (word - metadataSize)) % word = h.size - 32 := by
      have most := (sizes_good h.size size_good').2.1
      rw [maxSize] at most
      rw [word, metadataSize]
      omega
    have request : (n + metadataSize) % word = n + 32 := Nat.mod_eq_of_lt no_wrap
    rw [realloc_live arr List.mem_cons_self inside, if_neg moves, given, ok_bind]
    simp only [if_neg (by omega : ¬e + 32 = 0), pool, check_true, ok_bind, good'.marked,
      beq_self_eq_true, both.header _ _ tile', room, request]
    rw [copied] at freed
    rw [freed, copied]
    rfl
  · have after := good'.after
    have written := outside (e + 32 + i) (by omega)
    simp only [copy_apply below] at written
    rw [written]
    exact fresh.kept _ (by omega)

theorem realloc_error {f : Fault} (arr : Arranged mp live tiles free) (member : h ∈ live)
    (inside : h.pointer < mp.memory + mp.capacity) (moves : ¬Stays h n)
    (failed : alloc mp n = .error f) : realloc mp h.pointer n = .error f := by
  rw [realloc_live arr member inside, if_neg moves, failed, error_bind]

end Reallocating

end Lotto.MempoolCalls
