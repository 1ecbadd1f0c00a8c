import Mathlib.Data.List.Forall2

namespace Library.Lockstep

variable {α β γ : Type} {R : α → β → Prop} {S : β → γ → Prop}

theorem forall₂_zipIdx {as : List α} {bs : List β} (related : List.Forall₂ R as bs) (start : Nat) :
    List.Forall₂ (fun a b => a.2 = b.2 ∧ R a.1 b.1) (as.zipIdx start) (bs.zipIdx start) := by
  induction related generalizing start with
  | nil => exact List.Forall₂.nil
  | cons first _ ih =>
      rw [List.zipIdx_cons, List.zipIdx_cons]
      exact List.Forall₂.cons ⟨rfl, first⟩ (ih (start + 1))

theorem forall₂_exists_left {as : List α} {bs : List β} (related : List.Forall₂ R as bs) {b : β}
    (member : b ∈ bs) : ∃ a ∈ as, R a b := by
  induction related with
  | nil => simp at member
  | cons first _ ih =>
      rcases List.mem_cons.mp member with rfl | inside
      · exact ⟨_, List.mem_cons_self, first⟩
      · obtain ⟨a, found, holds⟩ := ih inside
        exact ⟨a, List.mem_cons_of_mem _ found, holds⟩

theorem forall₂_comp {as : List α} {bs : List β} {cs : List γ} (first : List.Forall₂ R as bs)
    (second : List.Forall₂ S bs cs) : List.Forall₂ (fun a c => ∃ b, R a b ∧ S b c) as cs := by
  induction first generalizing cs with
  | nil =>
      cases second
      exact List.Forall₂.nil
  | cons head _ ih =>
      cases second with
      | cons head' tail => exact List.Forall₂.cons ⟨_, head, head'⟩ (ih tail)

theorem getElem?_concat_cases {as : List α} {last found : α} {k : Nat}
    (present : (as ++ [last])[k]? = some found) :
    k < as.length ∧ as[k]? = some found ∨ k = as.length ∧ found = last := by
  rcases Nat.lt_or_ge k as.length with old | new
  · rw [List.getElem?_append_left old] at present
    exact Or.inl ⟨old, present⟩
  · have bound := (List.getElem?_eq_some_iff.mp present).1
    rw [List.length_append, List.length_singleton] at bound
    have end_ : k = as.length := by omega
    subst end_
    rw [List.getElem?_concat_length, Option.some.injEq] at present
    exact Or.inr ⟨rfl, present.symm⟩

theorem foldl_take_agree {f : γ → α → γ} {g : γ → β → γ} {as : List α} {bs : List β} (k : Nat)
    (long : k ≤ bs.length)
    (alike : ∀ i < k, ∀ b, bs[i]? = some b → ∃ a, as[i]? = some a ∧ ∀ acc, g acc b = f acc a)
    (start : γ) : (bs.take k).foldl g start = (as.take k).foldl f start := by
  induction k with
  | zero => rfl
  | succ k ih =>
      have before := ih (Nat.le_of_succ_le long) fun i less => alike i (Nat.lt_succ_of_lt less)
      have last : bs[k]? = some (bs.get ⟨k, long⟩) := List.getElem?_eq_getElem long
      obtain ⟨a, found, acts⟩ := alike k (Nat.lt_succ_self k) _ last
      rw [List.take_add_one, List.take_add_one, last, found]
      simp only [Option.toList_some, List.foldl_append, List.foldl_cons, List.foldl_nil, before, acts]

end Library.Lockstep
