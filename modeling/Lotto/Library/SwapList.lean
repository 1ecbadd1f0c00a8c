import Mathlib.Data.List.Basic
import Mathlib.Data.List.Nodup
import Mathlib.Data.List.Perm.Basic

namespace Library.SwapList

variable {α : Type}

/-- What is left of `x :: xs` once its head is overwritten by its last element and the
array is shortened by one. -/
def lastFirst (xs : List α) : List α :=
  match xs.getLast? with
  | none => []
  | some last => last :: xs.dropLast

theorem lastFirst_perm (xs : List α) : (lastFirst xs).Perm xs := by
  rcases List.eq_nil_or_concat xs with rfl | ⟨front, last, rfl⟩
  · exact List.Perm.nil
  · simpa [lastFirst] using (List.perm_append_singleton last front).symm

@[simp] theorem lastFirst_length (xs : List α) : (lastFirst xs).length = xs.length :=
  (lastFirst_perm xs).length_eq

/-- Array filtering in place: an element that fails the test is replaced by the last one,
and the same position is tested again. The first argument bounds the number of tests. -/
def swapFilterFuel (keep : α → Bool) : Nat → List α → List α
  | 0, _ => []
  | _ + 1, [] => []
  | fuel + 1, x :: xs =>
      if keep x then x :: swapFilterFuel keep fuel xs
      else swapFilterFuel keep fuel (lastFirst xs)

def swapFilter (keep : α → Bool) (xs : List α) : List α :=
  swapFilterFuel keep xs.length xs

theorem swapFilterFuel_perm (keep : α → Bool) (fuel : Nat) (xs : List α)
    (enough : xs.length ≤ fuel) : (swapFilterFuel keep fuel xs).Perm (xs.filter keep) := by
  induction fuel generalizing xs with
  | zero =>
      have empty : xs = [] := List.length_eq_zero_iff.mp (Nat.le_zero.mp enough)
      subst empty
      exact List.Perm.nil
  | succ fuel ih =>
      cases xs with
      | nil => exact List.Perm.nil
      | cons x xs =>
          have room : xs.length ≤ fuel := Nat.le_of_succ_le_succ enough
          by_cases kept : keep x
          · simpa [swapFilterFuel, kept] using ih xs room
          · have moved := ih (lastFirst xs) (by simpa using room)
            simpa [swapFilterFuel, kept] using moved.trans ((lastFirst_perm xs).filter keep)

theorem swapFilter_perm (keep : α → Bool) (xs : List α) :
    (swapFilter keep xs).Perm (xs.filter keep) :=
  swapFilterFuel_perm keep xs.length xs (Nat.le_refl _)

@[simp] theorem mem_swapFilter (keep : α → Bool) (xs : List α) (a : α) :
    a ∈ swapFilter keep xs ↔ a ∈ xs ∧ keep a = true := by
  rw [(swapFilter_perm keep xs).mem_iff, List.mem_filter]

theorem swapFilter_nodup (keep : α → Bool) (xs : List α) (distinct : xs.Nodup) :
    (swapFilter keep xs).Nodup :=
  (swapFilter_perm keep xs).nodup_iff.mpr (distinct.filter keep)

variable [DecidableEq α]

/-- Removal from an unordered array: the first occurrence is overwritten by the last
element. -/
def swapErase (a : α) : List α → List α
  | [] => []
  | x :: xs => if x = a then lastFirst xs else x :: swapErase a xs

theorem swapErase_perm (a : α) (xs : List α) : (swapErase a xs).Perm (xs.erase a) := by
  induction xs with
  | nil => exact List.Perm.nil
  | cons x xs ih =>
      by_cases same : x = a
      · subst same
        simpa [swapErase] using lastFirst_perm xs
      · simpa [swapErase, same] using ih

theorem mem_swapErase (a b : α) (xs : List α) (distinct : xs.Nodup) :
    b ∈ swapErase a xs ↔ b ≠ a ∧ b ∈ xs := by
  rw [(swapErase_perm a xs).mem_iff, distinct.mem_erase_iff]

theorem swapErase_nodup (a : α) (xs : List α) (distinct : xs.Nodup) :
    (swapErase a xs).Nodup :=
  (swapErase_perm a xs).nodup_iff.mpr (distinct.erase a)

end Library.SwapList
