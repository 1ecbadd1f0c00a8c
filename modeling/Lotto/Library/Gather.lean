import Mathlib.Logic.Function.Basic
import Mathlib.Algebra.Ring.Nat
import Mathlib.Data.List.Basic

namespace Library.Gather

variable {α : Type}

/-- The blocks from `first` up to `last`, which is left out, in one list. -/
def gather (blocks : Nat → List α) (first last : Nat) : List α :=
  (List.range' first (last - first)).flatMap blocks

variable {blocks other : Nat → List α} {first last : Nat}

theorem gather_empty (none : last ≤ first) : gather blocks first last = [] := by
  rw [gather, Nat.sub_eq_zero_of_le none]
  rfl

theorem gather_cons (some : first < last) :
    gather blocks first last = blocks first ++ gather blocks (first + 1) last := by
  obtain ⟨n, rfl⟩ : ∃ n, last = first + 1 + n := ⟨last - (first + 1), by omega⟩
  have whole : first + 1 + n - first = n + 1 := by omega
  have rest : first + 1 + n - (first + 1) = n := by omega
  rw [gather, gather, whole, rest, List.range'_succ, List.flatMap_cons]

theorem gather_snoc (order : first ≤ last) :
    gather blocks first (last + 1) = gather blocks first last ++ blocks last := by
  obtain ⟨n, rfl⟩ : ∃ n, last = first + n := ⟨last - first, by omega⟩
  have whole : first + n + 1 - first = n + 1 := by omega
  have rest : first + n - first = n := by omega
  rw [gather, gather, whole, rest, List.range'_concat, List.flatMap_append, List.flatMap_singleton,
    Nat.one_mul]

theorem gather_append {middle : Nat} (low : first ≤ middle) (high : middle ≤ last) :
    gather blocks first middle ++ gather blocks middle last = gather blocks first last := by
  obtain ⟨n, rfl⟩ : ∃ n, middle = first + n := ⟨middle - first, by omega⟩
  obtain ⟨k, rfl⟩ : ∃ k, last = first + n + k := ⟨last - (first + n), by omega⟩
  have before : first + n - first = n := by omega
  have behind : first + n + k - (first + n) = k := by omega
  have whole : first + n + k - first = n + k := by omega
  rw [gather, gather, gather, before, behind, whole, ← List.flatMap_append, List.range'_append_1]

theorem gather_congr (same : ∀ i, first ≤ i → i < last → blocks i = other i) :
    gather blocks first last = gather other first last := by
  refine List.flatMap_congr ?_
  intro i member
  obtain ⟨low, high⟩ := List.mem_range'_1.mp member
  exact same i low (by omega)

theorem gather_update {i : Nat} (block : List α) (outside : i < first ∨ last ≤ i) :
    gather (Function.update blocks i block) first last = gather blocks first last := by
  refine gather_congr ?_
  intro j low high
  have apart : j ≠ i := by omega
  exact Function.update_of_ne apart block blocks

theorem length_gather_le {sizes : List Nat}
    (bounded : ∀ i, first ≤ i → i < last → ∃ n, sizes[i]? = some n ∧ (blocks i).length ≤ n) :
    (gather blocks first last).length ≤ sizes.sum := by
  have upto : (gather blocks first last).length ≤ (sizes.take last).sum := by
    induction last with
    | zero =>
        rw [gather_empty (Nat.zero_le first)]
        exact Nat.zero_le _
    | succ last ih =>
        have before := ih fun i low high => bounded i low (Nat.lt_succ_of_lt high)
        by_cases order : first ≤ last
        · obtain ⟨n, found, fits⟩ := bounded last order (Nat.lt_succ_self last)
          obtain ⟨inside, rfl⟩ := List.getElem?_eq_some_iff.mp found
          rw [gather_snoc order, List.length_append, List.take_succ_eq_append_getElem inside,
            List.sum_append, List.sum_singleton]
          omega
        · rw [gather_empty (by omega)]
          exact Nat.zero_le _
  calc
    (gather blocks first last).length ≤ (sizes.take last).sum := upto
    _ ≤ (sizes.take last).sum + (sizes.drop last).sum := Nat.le_add_right _ _
    _ = sizes.sum := by rw [← List.sum_append, List.take_append_drop]

end Library.Gather
