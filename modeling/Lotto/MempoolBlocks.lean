import Mathlib.Algebra.Order.Monoid.Unbundled.Basic
import Mathlib.Data.List.Perm.Subperm
import Lotto.Mempool

namespace Lotto.MempoolBlocks

open Library.FaultRun Library.ByteMemory Library.Links Library.Tiling Mempool

structure Held where
  pointer : Nat
  request : Nat
  alignment : Nat
  entry : Nat
  size : Nat
  deriving DecidableEq, Repr

variable {mp mp' : Pool} {live : List Held} {tiles : List (Nat × Nat)} {free : Nat → List Nat}
  {b e p n size : Nat} {h : Held} {m m' : Bytes}

section Sizes

theorem sizes_good : ∀ s ∈ sizes, 32 ≤ s ∧ s ≤ maxSize ∧ 8 ∣ s := by decide

theorem bucketize_size : ∀ s ∈ sizes, sizes[bucketize s]? = some s := by decide

theorem sizes_nodup : sizes.Nodup := by decide

theorem bucketize_spec (fits : n ≤ maxSize) :
    ∃ size, sizes[bucketize n]? = some size ∧ n ≤ size := by
  have last : maxSize ∈ sizes := by decide
  have found : bucketize n < sizes.length :=
    List.findIdx_lt_length_of_exists ⟨maxSize, last, decide_eq_true fits⟩
  exact ⟨_, List.getElem?_eq_getElem found, of_decide_eq_true (List.findIdx_getElem (w := found))⟩

theorem bucketize_le (bucket : sizes[bucketize n]? = some size) : n ≤ size := by
  obtain ⟨found, rfl⟩ := List.getElem?_eq_some_iff.mp bucket
  exact of_decide_eq_true (List.findIdx_getElem (w := found))

theorem bucketize_none (large : maxSize < n) : sizes[bucketize n]? = none := by
  rw [List.getElem?_eq_none_iff]
  refine Nat.le_of_eq (List.findIdx_eq_length.mpr fun s member => ?_).symm
  have bound := (sizes_good s member).2.1
  exact decide_eq_false (by omega)

theorem size_of_bucket (bucket : sizes[b]? = some size) : size ∈ sizes ∧ b < 18 := by
  obtain ⟨below, rfl⟩ := List.getElem?_eq_some_iff.mp bucket
  exact ⟨List.getElem_mem below, below⟩

theorem bucket_unique {b' : Nat} (first : sizes[b]? = some size) (second : sizes[b']? = some size) :
    b = b' :=
  (List.getElem?_inj (size_of_bucket first).2 sizes_nodup).mp (first.trans second.symm)

end Sizes

section Words

theorem loadWord_agree {a count x : Nat} (agree : Agree a count m m') (low : a ≤ x)
    (high : x + 8 ≤ a + count) : loadWord x m' = loadWord x m := load_agree agree low high

theorem loadWord_store {a v : Nat} (bound : v < word) : loadWord a (storeWord a v m) = v :=
  load_store bound

theorem storeWord_outside {a v x : Nat} (outside : x < a ∨ a + 8 ≤ x) : storeWord a v m x = m x :=
  store_outside outside

theorem mark_outside {x : Nat} (least : 16 ≤ p) (outside : x < p - 16 ∨ p ≤ x) :
    mark e p m x = m x := by
  rw [mark, storeWord_outside (by omega), storeWord_outside (by omega)]

theorem entryOf_mark (least : 16 ≤ p) (bound : e < word) : entryOf p (mark e p m) = e := by
  have kept : Agree (p - 16) 8 (storeWord (p - 16) e m) (mark e p m) := by
    intro x low high
    exact storeWord_outside (by omega)
  rw [entryOf, loadWord_agree kept (Nat.le_refl _) (Nat.le_refl _), loadWord_store bound]

theorem canaryOf_mark : canaryOf p (mark e p m) = canary := loadWord_store (by decide)

end Words

section Blocks

def granted (offset n : Nat) : Nat := (offset + n) % word - offset

theorem granted_eq {offset : Nat} (bound : offset + n < word) : granted offset n = n := by
  rw [granted, Nat.mod_eq_of_lt bound, Nat.add_sub_cancel_left]

/-- A live pointer lies behind the header of its block, which has room for its request, and has its
mark before it. -/
structure Held.Good (h : Held) (m : Bytes) : Prop where
  after : h.entry + 32 ≤ h.pointer
  room : h.pointer + granted (h.pointer - h.entry) h.request ≤ h.entry + h.size
  back : entryOf h.pointer m = h.entry
  marked : canaryOf h.pointer m = canary
  aligned : h.alignment ∣ h.pointer

def link (m : Bytes) (e : Nat) : Option Nat := some (loadWord e m)

/-- The used part of the pool is made of blocks with their sizes in them. The free stacks and the live
pointers have different ones. -/
structure Arranged (mp : Pool) (live : List Held) (tiles : List (Nat × Nat))
    (free : Nat → List Nat) : Prop where
  starts : 0 < mp.memory
  words : 8 ∣ mp.memory
  ends : mp.memory + mp.capacity ≤ word
  small : mp.capacity < 9223372036854775808
  used : mp.next ≤ mp.capacity
  tiled : Tiled (· ∈ sizes) mp.memory tiles (mp.memory + mp.next)
  header : ∀ e size, (e, size) ∈ tiles → sizeField e mp.bytes = size
  chains : ∀ b < 18, Linked 0 (link mp.bytes) (mp.stack b) (free b)
  stacked : ∀ b < 18, ∀ e ∈ free b, ∃ size, sizes[b]? = some size ∧ (e, size) ∈ tiles
  once : ∀ b < 18, (free b).Nodup
  held : ∀ h ∈ live, (h.entry, h.size) ∈ tiles ∧ h.Good mp.bytes
  distinct : (live.map Held.entry).Nodup
  apart : ∀ b < 18, ∀ e ∈ free b, e ∉ live.map Held.entry

theorem Held.Good.agree (good : h.Good m) (agree : Agree h.entry h.size m m') : h.Good m' := by
  obtain ⟨after, room, back, marked, aligned⟩ := good
  refine ⟨after, room, ?_, ?_, aligned⟩
  · rw [entryOf, loadWord_agree agree (by omega) (by omega)]
    exact back
  · rw [canaryOf, loadWord_agree agree (by omega) (by omega)]
    exact marked

theorem Arranged.wide (arr : Arranged mp live tiles free) (tile : (e, size) ∈ tiles) :
    mp.memory ≤ e ∧ e + size ≤ mp.memory + mp.next ∧ 32 ≤ size ∧ size ∈ sizes ∧ 8 ∣ e := by
  obtain ⟨low, high⟩ := arr.tiled.inside tile
  have good := arr.tiled.size_good tile
  exact ⟨low, high, (sizes_good size good).1, good,
    arr.tiled.dvd arr.words (fun s member => (sizes_good s member).2.2) tile⟩

theorem Arranged.size_eq {size' : Nat} (arr : Arranged mp live tiles free)
    (first : (e, size) ∈ tiles) (second : (e, size') ∈ tiles) : size = size' :=
  arr.tiled.size_eq (fun s member => Nat.lt_of_lt_of_le (by decide) (sizes_good s member).1) first second

/-- What the words of the blocks, the links and the live pointers are is all that the bytes matter. -/
theorem Arranged.rewrite (arr : Arranged mp live tiles free)
    (headers : ∀ e size, (e, size) ∈ tiles → sizeField e m = sizeField e mp.bytes)
    (links : ∀ b < 18, ∀ e ∈ free b, loadWord e m = loadWord e mp.bytes)
    (marks : ∀ h ∈ live, h.Good m) : Arranged { mp with bytes := m } live tiles free :=
  { arr with
    header := fun e size tile => (headers e size tile).trans (arr.header e size tile)
    chains := fun b bound => (arr.chains b bound).congr fun e member =>
      congrArg some (links b bound e member)
    held := fun h member => ⟨(arr.held h member).1, marks h member⟩ }

theorem Arranged.frame (arr : Arranged mp live tiles free) (tile : (e, size) ∈ tiles)
    (same : ∀ x, x < e ∨ e + size ≤ x → m x = mp.bytes x) (header : sizeField e m = size)
    (notFree : ∀ b < 18, e ∉ free b) (notLive : e ∉ live.map Held.entry) :
    Arranged { mp with bytes := m } live tiles free := by
  have others (e' size' : Nat) (tile' : (e', size') ∈ tiles) (other : e' ≠ e) :
      Agree e' size' mp.bytes m := by
    intro x low high
    have separate := arr.tiled.apart tile' tile other
    exact same x (by omega)
  refine arr.rewrite (fun e' size' tile' => ?_) (fun b bound e' member => ?_) fun h member => ?_
  · by_cases here : e' = e
    · subst here
      rw [header, arr.header _ _ tile]
    · have wide := (arr.wide tile').2.2.1
      exact loadWord_agree (others e' size' tile' here) (by omega) (by omega)
  · obtain ⟨size', -, tile'⟩ := arr.stacked b bound e' member
    have wide := (arr.wide tile').2.2.1
    refine loadWord_agree (others e' size' tile' ?_) (Nat.le_refl _) (by omega)
    rintro rfl
    exact notFree b bound member
  · obtain ⟨tile', good⟩ := arr.held h member
    refine good.agree (others h.entry h.size tile' ?_)
    intro here
    exact notLive (here ▸ List.mem_map_of_mem member)

theorem Arranged.counter (arr : Arranged mp live tiles free) (allocated : Nat) :
    Arranged { mp with allocated := allocated } live tiles free := { arr with }

theorem Arranged.perm {live' : List Held} (arr : Arranged mp live tiles free)
    (perm : live.Perm live') : Arranged mp live' tiles free :=
  { arr with
    held := fun h member => arr.held h (perm.mem_iff.mpr member)
    distinct := (perm.map Held.entry).nodup_iff.mp arr.distinct
    apart := fun b bound e member live => arr.apart b bound e member
      ((perm.map Held.entry).mem_iff.mpr live) }

theorem Arranged.give (arr : Arranged mp live tiles free) (tile : (h.entry, h.size) ∈ tiles)
    (good : h.Good mp.bytes) (notFree : ∀ b < 18, h.entry ∉ free b)
    (notLive : h.entry ∉ live.map Held.entry) : Arranged mp (h :: live) tiles free :=
  { arr with
    held := fun h' member => by
      obtain rfl | old := List.mem_cons.mp member
      · exact ⟨tile, good⟩
      · exact arr.held h' old
    distinct := List.nodup_cons.mpr ⟨notLive, arr.distinct⟩
    apart := fun b bound e member live => by
      obtain rfl | old := List.mem_cons.mp live
      · exact notFree b bound member
      · exact arr.apart b bound e member old }

theorem Arranged.drop (arr : Arranged mp (h :: live) tiles free) :
    Arranged mp live tiles free ∧ (h.entry, h.size) ∈ tiles ∧ h.Good mp.bytes ∧
      (∀ b < 18, h.entry ∉ free b) ∧ h.entry ∉ live.map Held.entry := by
  obtain ⟨notLive, distinct⟩ := List.nodup_cons.mp arr.distinct
  obtain ⟨tile, good⟩ := arr.held h List.mem_cons_self
  refine ⟨{ arr with
    held := fun h' member => arr.held h' (List.mem_cons_of_mem _ member)
    distinct := distinct
    apart := fun b bound e member live => arr.apart b bound e member (List.mem_cons_of_mem _ live) },
    tile, good, fun b bound member => arr.apart b bound _ member List.mem_cons_self, notLive⟩

theorem Arranged.pop {rest : List Nat} (arr : Arranged mp live tiles free) (bound : b < 18)
    (first : free b = e :: rest) :
    Arranged { mp with stack := Function.update mp.stack b (loadWord e mp.bytes) } live tiles
      (Function.update free b rest) := by
  have chain := arr.chains b bound
  rw [first] at chain
  obtain ⟨-, -, y, next, behind⟩ := chain
  have fewer (b' x : Nat) (member : x ∈ Function.update free b rest b') : x ∈ free b' := by
    by_cases here : b' = b
    · subst here
      rw [Function.update_self] at member
      rw [first]
      exact List.mem_cons_of_mem _ member
    · rwa [Function.update_of_ne here] at member
  refine { arr with
    chains := fun b' bound' => ?_
    stacked := fun b' bound' x member => arr.stacked b' bound' x (fewer b' x member)
    once := fun b' bound' => ?_
    apart := fun b' bound' x member => arr.apart b' bound' x (fewer b' x member) }
  · by_cases here : b' = b
    · subst here
      obtain rfl : loadWord e mp.bytes = y := Option.some.inj next
      simp only [Function.update_self]
      exact behind
    · simp only [Function.update_of_ne here]
      exact arr.chains b' bound'
  · by_cases here : b' = b
    · subst here
      rw [Function.update_self]
      have distinct := arr.once b' bound'
      rw [first] at distinct
      exact (List.nodup_cons.mp distinct).2
    · rw [Function.update_of_ne here]
      exact arr.once b' bound'

theorem Arranged.push (arr : Arranged mp live tiles free) (tile : (e, size) ∈ tiles)
    (bucket : sizes[b]? = some size) (next : loadWord e mp.bytes = mp.stack b)
    (notFree : ∀ b < 18, e ∉ free b) (notLive : e ∉ live.map Held.entry) :
    Arranged { mp with stack := Function.update mp.stack b e } live tiles
      (Function.update free b (e :: free b)) := by
  have bound := (size_of_bucket bucket).2
  have some_entry : e ≠ 0 := by
    have low := (arr.wide tile).1
    have start := arr.starts
    omega
  have more (b' x : Nat) (member : x ∈ Function.update free b (e :: free b) b') :
      (b' = b ∧ x = e) ∨ x ∈ free b' := by
    by_cases here : b' = b
    · subst here
      rw [Function.update_self] at member
      obtain rfl | old := List.mem_cons.mp member
      · exact .inl ⟨rfl, rfl⟩
      · exact .inr old
    · rw [Function.update_of_ne here] at member
      exact .inr member
  refine { arr with
    chains := fun b' bound' => ?_
    stacked := fun b' bound' x member => ?_
    once := fun b' bound' => ?_
    apart := fun b' bound' x member => ?_ }
  · by_cases here : b' = b
    · subst here
      simp only [Function.update_self]
      exact ⟨rfl, some_entry, _, congrArg some next, arr.chains b' bound'⟩
    · simp only [Function.update_of_ne here]
      exact arr.chains b' bound'
  · obtain ⟨rfl, rfl⟩ | old := more b' x member
    · exact ⟨size, bucket, tile⟩
    · exact arr.stacked b' bound' x old
  · by_cases here : b' = b
    · subst here
      rw [Function.update_self]
      exact List.nodup_cons.mpr ⟨notFree b' bound', arr.once b' bound'⟩
    · rw [Function.update_of_ne here]
      exact arr.once b' bound'
  · obtain ⟨rfl, rfl⟩ | old := more b' x member
    · exact notLive
    · exact arr.apart b' bound' x old

theorem Arranged.extend (arr : Arranged mp live tiles free) (good : size ∈ sizes)
    (fits : mp.next + size ≤ mp.capacity)
    (header : sizeField (mp.memory + mp.next) mp.bytes = size) :
    Arranged { mp with next := mp.next + size } live
      (tiles ++ [(mp.memory + mp.next, size)]) free :=
  { arr with
    used := fits
    tiled := by
      have longer := arr.tiled.concat good
      rwa [Nat.add_assoc] at longer
    header := fun e' size' tile => by
      obtain old | new := List.mem_append.mp tile
      · exact arr.header e' size' old
      · cases List.mem_singleton.mp new
        exact header
    stacked := fun b bound x member => by
      obtain ⟨size', bucket, tile⟩ := arr.stacked b bound x member
      exact ⟨size', bucket, List.mem_append_left _ tile⟩
    held := fun h member => ⟨List.mem_append_left _ (arr.held h member).1, (arr.held h member).2⟩ }

theorem Arranged.fill (arr : Arranged mp live tiles free) (member : h ∈ live)
    (same : ∀ x, x < h.pointer ∨ h.entry + h.size ≤ x → m x = mp.bytes x) :
    Arranged { mp with bytes := m } live tiles free := by
  obtain ⟨tile, good⟩ := arr.held h member
  have after := good.after
  have others (e' size' : Nat) (tile' : (e', size') ∈ tiles) (other : e' ≠ h.entry) :
      Agree e' size' mp.bytes m := by
    intro x low high
    have separate := arr.tiled.apart tile' tile other
    exact same x (by omega)
  have before : Agree h.entry (h.pointer - h.entry) mp.bytes m := fun x _ high => same x (by omega)
  refine arr.rewrite (fun e' size' tile' => ?_) (fun b bound e' freed => ?_) fun h' live' => ?_
  · by_cases here : e' = h.entry
    · subst here
      exact loadWord_agree before (by omega) (by omega)
    · have wide := (arr.wide tile').2.2.1
      exact loadWord_agree (others e' size' tile' here) (by omega) (by omega)
  · obtain ⟨size', -, tile'⟩ := arr.stacked b bound e' freed
    have wide := (arr.wide tile').2.2.1
    refine loadWord_agree (others e' size' tile' ?_) (Nat.le_refl _) (by omega)
    rintro rfl
    exact arr.apart b bound _ freed (List.mem_map_of_mem member)
  · obtain ⟨tile', good'⟩ := arr.held h' live'
    by_cases here : h'.entry = h.entry
    · obtain rfl := List.inj_on_of_nodup_map arr.distinct live' member here
      obtain ⟨-, room, back, marked, aligned⟩ := good'
      refine ⟨after, room, ?_, ?_, aligned⟩
      · rw [entryOf, loadWord_agree before (by omega) (by omega)]
        exact back
      · rw [canaryOf, loadWord_agree before (by omega) (by omega)]
        exact marked
    · exact good'.agree (others h'.entry h'.size tile' here)

theorem Arranged.behind (arr : Arranged mp live tiles free)
    (same : ∀ x < mp.memory + mp.next, m x = mp.bytes x) :
    Arranged { mp with bytes := m } live tiles free := by
  have kept (e' size' : Nat) (tile : (e', size') ∈ tiles) : Agree e' size' mp.bytes m := by
    intro x _ high
    have inside := (arr.wide tile).2.1
    exact same x (by omega)
  refine arr.rewrite (fun e' size' tile => ?_) (fun b bound e' member => ?_) fun h member => ?_
  · have wide := (arr.wide tile).2.2.1
    exact loadWord_agree (kept e' size' tile) (by omega) (by omega)
  · obtain ⟨size', -, tile⟩ := arr.stacked b bound e' member
    have wide := (arr.wide tile).2.2.1
    exact loadWord_agree (kept e' size' tile) (Nat.le_refl _) (by omega)
  · obtain ⟨tile, good⟩ := arr.held h member
    exact good.agree (kept h.entry h.size tile)

end Blocks

end Lotto.MempoolBlocks
