import Mathlib.Data.List.Chain
import Mathlib.Data.List.Sort

namespace Library.Preference

variable {α : Type}

def Best (before : α → α → Prop) (candidates : List α) (a : α) : Prop :=
  a ∈ candidates ∧ ∀ b ∈ candidates, before a b

section Best

variable {before : α → α → Prop} {candidates : List α}

theorem best_head [DecidableRel before] [Std.Total before] [IsTrans α before] (some : candidates ≠ [])
    (default : α) : Best before candidates ((candidates.insertionSort before).getD 0 default) := by
  have ordered := List.pairwise_insertionSort before candidates
  have same := List.perm_insertionSort before candidates
  cases sorted : candidates.insertionSort before with
  | nil =>
      rw [sorted] at same
      exact absurd same.symm.eq_nil some
  | cons head rest =>
      rw [sorted] at ordered same
      refine ⟨same.mem_iff.mp List.mem_cons_self, ?_⟩
      intro b member
      rcases List.mem_cons.mp (same.mem_iff.mpr member) with rfl | later
      · exact (Std.Total.total b b).elim id id
      · exact (List.pairwise_cons.mp ordered).1 b later

end Best

def countPairs (holds : α → α → Bool) : List α → Nat
  | a :: b :: rest => (holds a b).toNat + countPairs holds (b :: rest)
  | _ => 0

section Pairs

variable {p q r : α → α → Bool} {good : α → α → Prop}

theorem countPairs_le (implied : ∀ a b, good a b → p a b = true → q a b = true ∨ r a b = true)
    {xs : List α} (chain : xs.IsChain good) :
    countPairs p xs ≤ countPairs q xs + countPairs r xs := by
  induction xs with
  | nil => exact Nat.le_refl 0
  | cons a rest ih =>
      cases rest with
      | nil => exact Nat.le_refl 0
      | cons b rest =>
          obtain ⟨here, later⟩ := List.isChain_cons_cons.mp chain
          have step : (p a b).toNat ≤ (q a b).toNat + (r a b).toNat := by
            cases now : p a b with
            | false => simp
            | true => rcases implied a b here now with one | one <;> simp [one]
          have behind := ih later
          simp only [countPairs]
          omega

theorem countPairs_counter (counter : α → Nat) {a : α} {xs : List α}
    (grows : ∀ a b, good a b → counter a + (p a b).toNat ≤ counter b)
    (chain : (a :: xs).IsChain good) :
    counter a + countPairs p (a :: xs) ≤ counter ((a :: xs).getLast (List.cons_ne_nil a xs)) := by
  induction xs generalizing a with
  | nil => simp [countPairs]
  | cons b rest ih =>
      obtain ⟨here, later⟩ := List.isChain_cons_cons.mp chain
      have step := grows a b here
      have behind := ih later
      simp only [countPairs]
      rw [List.getLast_cons (List.cons_ne_nil b rest)]
      omega

end Pairs

end Library.Preference
