import Lotto.Library.Comparator
import Mathlib.Logic.Function.Basic

namespace Lotto.VecUnion

open Library.Comparator

structure Vec (α : Type) where
  items : Nat → α
  cnt : Nat
  cap : Nat

abbrev Vecs (α : Type) : Type := Nat → Vec α

variable {α : Type}

def contents (v : Vec α) : List α := (List.range v.cnt).map v.items

section Operations

def vecReserve (fresh : Nat → α) (v : Vec α) (cap : Nat) : Vec α :=
  if cap ≤ v.cap then v
  else { v with cap := cap, items := fun i => if i < v.cap then v.items i else fresh i }

def vecConcat (fresh : Nat → α) (left right : Vec α) : Vec α :=
  let left := vecReserve fresh left (left.cnt + right.cnt)
  { left with
    items := fun i =>
      if left.cnt ≤ i ∧ i < left.cnt + right.cnt then right.items (i - left.cnt) else left.items i
    cnt := left.cnt + right.cnt }

def vecSort (qsort : List α → List α) (v : Vec α) : Vec α :=
  { v with items := fun i => (qsort (contents v))[i]?.getD (v.items i) }

def unionLoop (compar : α → α → Int) : Nat → Nat → Nat → (Nat → α) → Nat × (Nat → α)
  | 0, _, j, items => (j, items)
  | n + 1, i, j, items =>
      if j = 0 ∨ compar (items i) (items (j - 1)) ≠ 0 then
        unionLoop compar n (i + 1) (j + 1)
          (if j ≠ i then Function.update items j (items i) else items)
      else unionLoop compar n (i + 1) j items

def vecUnion (fresh : Nat → α) (qsort : List α → List α) (compar : α → α → Int) (left right : Nat)
    (s : Vecs α) : Vecs α :=
  let v := vecSort qsort (vecConcat fresh (s left) (s right))
  let result := unionLoop compar v.cnt 0 0 v.items
  Function.update s left { v with items := result.2, cnt := result.1 }

end Operations

def Sorts (compar : α → α → Int) (qsort : List α → List α) : Prop :=
  ∀ l, (qsort l).Perm l ∧ (qsort l).Pairwise fun a b => compar a b ≤ 0

def Vec.Valid (v : Vec α) : Prop := v.cnt ≤ v.cap

/-- `left` is the sorted union of both vectors; no other vector has changed. -/
structure Union (compar : α → α → Int) (left right : Nat) (s s' : Vecs α) : Prop where
  increasing : (contents (s' left)).Pairwise fun a b => compar a b < 0
  covers : ∀ a ∈ contents (s left) ++ contents (s right), ∃ b ∈ contents (s' left), compar a b = 0
  inside : ∀ b ∈ contents (s' left), b ∈ contents (s left) ++ contents (s right)
  valid : (s' left).Valid
  others : ∀ other, other ≠ left → s' other = s other

variable {compar : α → α → Int} {qsort : List α → List α} {fresh items source : Nat → α}
  {v left right : Vec α} {s : Vecs α} {i j n : Nat} {x : α}

section Buffer

def front (items : Nat → α) (j : Nat) : List α := (List.range j).map items

theorem front_succ (items : Nat → α) (j : Nat) : front items (j + 1) = front items j ++ [items j] := by
  rw [front, List.range_succ, List.map_append, List.map_singleton, front]

theorem front_congr (same : ∀ k < j, items k = source k) : front items j = front source j := by
  apply List.map_congr_left
  intro k member
  exact same k (List.mem_range.mp member)

theorem front_update (items : Nat → α) (j : Nat) (x : α) :
    front (Function.update items j x) (j + 1) = front items j ++ [x] := by
  have kept : front (Function.update items j x) j = front items j :=
    front_congr fun k below => Function.update_of_ne (Nat.ne_of_lt below) x items
  rw [front_succ, kept, Function.update_self]

theorem front_append (items : Nat → α) (j n : Nat) :
    front items (j + n) = front items j ++ front (fun k => items (j + k)) n := by
  rw [front, List.range_add, List.map_append, List.map_map]
  rfl

theorem length_front (items : Nat → α) (j : Nat) : (front items j).length = j := by
  rw [front, List.length_map, List.length_range]

theorem front_getD (l : List α) (items : Nat → α) :
    front (fun i => l[i]?.getD (items i)) l.length = l := by
  apply List.ext_getElem
  · exact length_front _ _
  · intro i below inside
    simp [front, inside]

end Buffer

section Concat

theorem vecReserve_front (fresh : Nat → α) (valid : left.Valid) (cap : Nat) :
    front (vecReserve fresh left cap).items left.cnt = contents left := by
  rw [vecReserve]
  split
  · rfl
  · apply front_congr
    intro k below
    exact if_pos (Nat.lt_of_lt_of_le below valid)

theorem vecReserve_cnt (left : Vec α) (cap : Nat) : (vecReserve fresh left cap).cnt = left.cnt := by
  rw [vecReserve]
  split <;> rfl

theorem vecReserve_cap (fresh : Nat → α) (left : Vec α) (cap : Nat) :
    cap ≤ (vecReserve fresh left cap).cap := by
  rw [vecReserve]
  split
  · assumption
  · exact Nat.le_refl cap

theorem contents_vecConcat (valid : left.Valid) (right : Vec α) :
    contents (vecConcat fresh left right) = contents left ++ contents right := by
  have first := vecReserve_front fresh valid (left.cnt + right.cnt)
  rw [← first]
  change front _ _ = _ ++ front right.items right.cnt
  rw [vecConcat]
  simp only [vecReserve_cnt]
  rw [front_append]
  congr 1
  · apply front_congr
    intro k below
    exact if_neg (by omega)
  · apply front_congr
    intro k below
    rw [if_pos (by omega), Nat.add_sub_cancel_left]

theorem contents_vecSort (sorts : Sorts compar qsort) (v : Vec α) :
    contents (vecSort qsort v) = qsort (contents v) := by
  have length : (qsort (contents v)).length = v.cnt := by
    rw [(sorts (contents v)).1.length_eq, contents, List.length_map, List.length_range]
  have places := front_getD (qsort (contents v)) v.items
  rw [length] at places
  exact places

end Concat

section Loop

/-- The loop has written one item for each class of the items that it has read, and has not touched
the others. -/
structure Written (compar : α → α → Int) (source : Nat → α) (i j : Nat) (items : Nat → α) : Prop where
  behind : j ≤ i
  ahead : ∀ k, i ≤ k → items k = source k
  classes : Classes compar (front source i) (front items j)

theorem Written.last (order : TotalOrder compar) (written : Written compar source i (j + 1) items) :
    ∀ a ∈ front items (j + 1), compar a (items j) ≤ 0 := by
  intro a member
  have increasing := written.classes.increasing
  rw [front_succ] at member increasing
  rcases List.mem_append.mp member with old | single
  · exact Int.le_of_lt ((List.pairwise_append.mp increasing).2.2 a old _ (List.mem_singleton_self _))
  · rw [List.mem_singleton.mp single]
    exact Int.le_of_eq (order.refl (items j))

theorem write_keeps (written : Written compar source i j items) :
    (∀ k, i + 1 ≤ k →
      (if j ≠ i then Function.update items j (items i) else items) k = source k) ∧
    front (if j ≠ i then Function.update items j (items i) else items) (j + 1) =
      front items j ++ [source i] := by
  rw [← written.ahead i (Nat.le_refl i)]
  split
  · refine ⟨?_, front_update items j (items i)⟩
    intro k above
    rw [Function.update_of_ne (by have := written.behind; omega)]
    exact written.ahead k (by omega)
  · next same =>
      rw [not_not] at same
      refine ⟨fun k above => written.ahead k (by omega), ?_⟩
      rw [front_succ, same]

theorem Written.step (order : TotalOrder compar) (written : Written compar source i j items)
    (sorted : ∀ a ∈ front source i, compar a (source i) ≤ 0) :
    (j = 0 ∨ compar (items i) (items (j - 1)) ≠ 0 → Written compar source (i + 1) (j + 1)
      (if j ≠ i then Function.update items j (items i) else items)) ∧
    (¬(j = 0 ∨ compar (items i) (items (j - 1)) ≠ 0) → Written compar source (i + 1) j items) := by
  have here := written.ahead i (Nat.le_refl i)
  constructor
  · intro writes
    obtain ⟨ahead, text⟩ := write_keeps written
    refine ⟨Nat.succ_le_succ written.behind, ahead, ?_⟩
    rw [text, front_succ]
    cases j with
    | zero =>
        have none : front source i = [] := by
          apply List.eq_nil_iff_forall_not_mem.mpr
          intro a member
          obtain ⟨b, inside, -⟩ := written.classes.covers a member
          exact absurd inside List.not_mem_nil
        rw [none]
        exact Classes.first order (source i)
    | succ j =>
        have differs := writes.resolve_left (Nat.succ_ne_zero j)
        rw [here, Nat.add_sub_cancel] at differs
        have written' : items j ∈ front items (j + 1) := by
          rw [front_succ]
          exact List.mem_append_right _ (List.mem_singleton_self _)
        exact written.classes.add order sorted (written.last order)
          (written.classes.inside _ written') differs
  · intro skips
    rw [not_or, not_not] at skips
    obtain ⟨some, same⟩ := skips
    obtain ⟨j, rfl⟩ := Nat.exists_eq_succ_of_ne_zero some
    refine ⟨Nat.le_succ_of_le written.behind, fun k above => written.ahead k (by omega), ?_⟩
    rw [front_succ]
    rw [here] at same
    apply written.classes.skip _ same
    rw [Nat.succ_eq_add_one, Nat.add_sub_cancel, front_succ]
    exact List.mem_append_right _ (List.mem_singleton_self _)

theorem unionLoop_written (order : TotalOrder compar)
    (sorted : (front source (i + n)).Pairwise fun a b => compar a b ≤ 0)
    (written : Written compar source i j items) :
    Written compar source (i + n) (unionLoop compar n i j items).1
      (unionLoop compar n i j items).2 := by
  induction n generalizing i j items with
  | zero => exact written
  | succ n ih =>
      have next : i + (n + 1) = i + 1 + n := by omega
      rw [next] at sorted ⊢
      have first := sorted
      rw [front_append, front_succ] at first
      have before := (List.pairwise_append.mp (List.pairwise_append.mp first).1).2.2
      have step := written.step order fun a member =>
        before a member _ (List.mem_singleton_self _)
      rw [unionLoop]
      split
      case isTrue writes => exact ih sorted (step.1 writes)
      case isFalse skips => exact ih sorted (step.2 skips)

end Loop

/-- The union of two vectors is sorted and has one item for each class of theirs. -/
theorem vec_union_sorted (order : TotalOrder compar) (sorts : Sorts compar qsort) (s : Vecs α)
    (fresh : Nat → α) (left right : Nat) (valid : (s left).Valid) (distinct : left ≠ right) :
    Union compar left right s (vecUnion fresh qsort compar left right s) ∧
      vecUnion fresh qsort compar left right s right = s right := by
  have others : ∀ other, other ≠ left → vecUnion fresh qsort compar left right s other = s other :=
    fun other differs => Function.update_of_ne differs _ _
  refine ⟨?_, others right distinct.symm⟩
  have text := contents_vecSort sorts (vecConcat fresh (s left) (s right))
  rw [contents_vecConcat valid] at text
  obtain ⟨perm, sorted⟩ := sorts (contents (s left) ++ contents (s right))
  rw [← text] at perm sorted
  have start : Written compar (vecSort qsort (vecConcat fresh (s left) (s right))).items 0 0
      (vecSort qsort (vecConcat fresh (s left) (s right))).items :=
    ⟨Nat.le_refl 0, fun _ _ => rfl, Classes.nil compar⟩
  have sorted' := sorted
  rw [contents, ← front, ← Nat.zero_add (vecSort qsort _).cnt] at sorted'
  have written := unionLoop_written order sorted' start
  have here : vecUnion fresh qsort compar left right s left = _ := Function.update_self _ _ _
  rw [Nat.zero_add] at written
  constructor
  case others => exact others
  case increasing =>
    rw [here]
    exact written.classes.increasing
  case covers =>
    intro a member
    rw [here]
    exact written.classes.covers a (perm.mem_iff.mpr member)
  case inside =>
    rw [here]
    intro b member
    exact perm.mem_iff.mp (written.classes.inside b member)
  case valid =>
    rw [here]
    have count : (vecConcat fresh (s left) (s right)).cnt = (s left).cnt + (s right).cnt := by
      rw [vecConcat, vecReserve_cnt]
    have room := vecReserve_cap fresh (s left) ((s left).cnt + (s right).cnt)
    have fits := written.behind
    change _ ≤ (vecReserve fresh (s left) ((s left).cnt + (s right).cnt)).cap
    exact Nat.le_trans (Nat.le_trans fits (Nat.le_of_eq count)) room

section Numbers

def difference (a b : Int) : Int := a - b

theorem difference_order : TotalOrder difference := by
  constructor
  case swap =>
    intro a b
    rw [difference, difference]
    omega
  case trans =>
    intro a b c
    rw [difference, difference, difference]
    omega

def sortNumbers (l : List Int) : List Int := l.mergeSort fun a b => decide (a ≤ b)

theorem sortNumbers_sorts : Sorts difference sortNumbers := by
  intro l
  refine ⟨List.mergeSort_perm l _, ?_⟩
  have sorted : (sortNumbers l).Pairwise fun a b => decide (a ≤ b) = true := by
    apply List.pairwise_mergeSort
    · intro a b c
      simp only [decide_eq_true_iff]
      exact Int.le_trans
    · intro a b
      simp only [Bool.or_eq_true, decide_eq_true_iff]
      exact Int.le_total a b
  apply sorted.imp
  intro a b le
  rw [decide_eq_true_iff] at le
  rw [difference]
  omega

def numbers : Vecs Int
  | 0 => ⟨fun i => if i = 1 then 1 else 2, 3, 4⟩
  | _ => ⟨fun i => if i = 1 then 1 else 3, 2, 2⟩

end Numbers

theorem numbers_union :
    Union difference 0 1 numbers (vecUnion (fun _ => 0) sortNumbers difference 0 1 numbers) ∧
      vecUnion (fun _ => 0) sortNumbers difference 0 1 numbers 1 = numbers 1 :=
  vec_union_sorted difference_order sortNumbers_sorts numbers (fun _ => 0) 0 1 (Nat.le_succ 3)
    (by decide)

end Lotto.VecUnion
