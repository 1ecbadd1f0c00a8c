import Mathlib.Data.List.Basic

namespace Library.Comparator

/-- A comparator that is a total order up to equality, by the sign of its result. -/
structure TotalOrder {α : Type} (compar : α → α → Int) : Prop where
  swap : ∀ a b, compar a b < 0 ↔ 0 < compar b a
  trans : ∀ a b c, compar a b ≤ 0 → compar b c ≤ 0 → compar a c ≤ 0

structure Classes {α : Type} (compar : α → α → Int) (source result : List α) : Prop where
  increasing : result.Pairwise fun a b => compar a b < 0
  covers : ∀ a ∈ source, ∃ b ∈ result, compar a b = 0
  inside : ∀ b ∈ result, b ∈ source

variable {α : Type} {compar : α → α → Int} {source result : List α} {a b c x y : α}

section Order

theorem TotalOrder.refl (order : TotalOrder compar) (a : α) : compar a a = 0 := by
  have swap := order.swap a a
  omega

end Order

section Classes

theorem Classes.nil (compar : α → α → Int) : Classes compar [] [] :=
  ⟨.nil, by simp, by simp⟩

theorem Classes.add (order : TotalOrder compar) (classes : Classes compar source result)
    (sorted : ∀ a ∈ source, compar a x ≤ 0)
    (last : ∀ a ∈ result, compar a y ≤ 0) (known : y ∈ source) (differs : compar x y ≠ 0) :
    Classes compar (source ++ [x]) (result ++ [x]) := by
  have below : compar y x < 0 := by
    have high := sorted y known
    have swap := order.swap x y
    have back := order.swap y x
    omega
  constructor
  case increasing =>
    refine List.pairwise_append.mpr ⟨classes.increasing, List.pairwise_singleton _ x, ?_⟩
    intro a member b single
    rw [List.mem_singleton.mp single]
    by_contra high
    have swap := order.swap x a
    have back := order.swap a x
    have round := order.trans x a y (by omega) (last a member)
    have swapped := order.swap y x
    omega
  case covers =>
    intro a member
    rcases List.mem_append.mp member with old | single
    · obtain ⟨b, inside, same⟩ := classes.covers a old
      exact ⟨b, List.mem_append_left _ inside, same⟩
    · rw [List.mem_singleton.mp single]
      exact ⟨x, List.mem_append_right _ (List.mem_singleton_self x), order.refl x⟩
  case inside =>
    intro b member
    rcases List.mem_append.mp member with old | single
    · exact List.mem_append_left _ (classes.inside b old)
    · exact List.mem_append_right _ single

theorem Classes.first (order : TotalOrder compar) (x : α) : Classes compar [x] [x] := by
  constructor
  case increasing => exact List.pairwise_singleton _ x
  case covers =>
    intro a member
    exact ⟨x, List.mem_singleton_self x, by rw [List.mem_singleton.mp member, order.refl]⟩
  case inside => exact fun _ member => member

theorem Classes.skip (classes : Classes compar source result) (member : y ∈ result)
    (same : compar x y = 0) : Classes compar (source ++ [x]) result := by
  constructor
  case increasing => exact classes.increasing
  case covers =>
    intro a inside
    rcases List.mem_append.mp inside with old | single
    · exact classes.covers a old
    · rw [List.mem_singleton.mp single]
      exact ⟨y, member, same⟩
  case inside => exact fun b inside => List.mem_append_left _ (classes.inside b inside)

end Classes

end Library.Comparator
