import Mathlib.Data.List.Nodup
import Mathlib.Logic.Function.Basic

namespace Library.Links

variable {α : Type} {null x y a p : α} {next next' : α → Option α} {front back nodes : List α}

/-- A singly linked list from a pointer on. `next` is defined on the nodes that can be read. -/
def Linked (null : α) (next : α → Option α) : α → List α → Prop
  | x, [] => x = null
  | x, a :: nodes => x = a ∧ a ≠ null ∧ ∃ y, next a = some y ∧ Linked null next y nodes

theorem Linked.congr (linked : Linked null next x nodes)
    (same : ∀ a ∈ nodes, next' a = next a) : Linked null next' x nodes := by
  induction nodes generalizing x with
  | nil => exact linked
  | cons a nodes ih =>
      obtain ⟨first, live, y, link, rest⟩ := linked
      refine ⟨first, live, y, ?_, ih rest fun b member => same b (List.mem_cons_of_mem _ member)⟩
      rw [same a List.mem_cons_self, link]

theorem Linked.readable (linked : Linked null next x nodes) (member : a ∈ nodes) :
    ∃ y, next a = some y := by
  induction nodes generalizing x with
  | nil => exact absurd member List.not_mem_nil
  | cons b nodes ih =>
      obtain ⟨-, -, y, link, rest⟩ := linked
      obtain rfl | later := List.mem_cons.mp member
      · exact ⟨y, link⟩
      · exact ih rest later

theorem Linked.behind (linked : Linked null next x (front ++ a :: back)) :
    ∃ y, next a = some y ∧ Linked null next y back := by
  induction front generalizing x with
  | nil => exact linked.2.2
  | cons b front ih =>
      obtain ⟨-, -, y, -, rest⟩ := linked
      exact ih rest

theorem Linked.bypass [DecidableEq α] (linked : Linked null next x (front ++ p :: a :: back))
    (distinct : (front ++ p :: a :: back).Nodup) (behind : next a = some y) :
    Linked null (Function.update next p (some y)) x (front ++ p :: back) := by
  induction front generalizing x with
  | nil =>
      obtain ⟨first, live, z, -, -, -, w, link, rest⟩ := linked
      have other : p ∉ a :: back := (List.nodup_cons.mp distinct).1
      rw [behind] at link
      cases link
      refine ⟨first, live, y, by rw [Function.update_self], rest.congr fun b member => ?_⟩
      rw [Function.update_of_ne]
      rintro rfl
      exact other (List.mem_cons_of_mem _ member)
  | cons b front ih =>
      obtain ⟨first, live, z, link, rest⟩ := linked
      obtain ⟨other, distinct⟩ := List.nodup_cons.mp distinct
      refine ⟨first, live, z, ?_, ih rest distinct⟩
      rw [Function.update_of_ne, link]
      rintro rfl
      exact other (List.mem_append_right _ List.mem_cons_self)

end Library.Links
