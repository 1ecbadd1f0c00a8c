import Mathlib.Algebra.Ring.Nat
import Mathlib.Data.List.Nodup

namespace Library.Tiling

def Tiled (good : Nat → Prop) : Nat → List (Nat × Nat) → Nat → Prop
  | a, [], z => a = z
  | a, (e, size) :: tiles, z => e = a ∧ good size ∧ Tiled good (a + size) tiles z

variable {good : Nat → Prop} {a z e e' size size' : Nat} {tiles : List (Nat × Nat)}

theorem Tiled.size_good (tiled : Tiled good a tiles z) (member : (e, size) ∈ tiles) : good size := by
  induction tiles generalizing a with
  | nil => exact absurd member List.not_mem_nil
  | cons tile tiles ih =>
      obtain ⟨e', size'⟩ := tile
      obtain ⟨-, holds, rest⟩ := tiled
      obtain same | later := List.mem_cons.mp member
      · cases same
        exact holds
      · exact ih rest later

theorem Tiled.sum (tiled : Tiled good a tiles z) : a + (tiles.map Prod.snd).sum = z := by
  induction tiles generalizing a with
  | nil => exact tiled
  | cons tile tiles ih =>
      obtain ⟨e, size⟩ := tile
      have rest := ih tiled.2.2
      rw [List.map_cons, List.sum_cons]
      omega

theorem Tiled.inside (tiled : Tiled good a tiles z) (member : (e, size) ∈ tiles) :
    a ≤ e ∧ e + size ≤ z := by
  induction tiles generalizing a with
  | nil => exact absurd member List.not_mem_nil
  | cons tile tiles ih =>
      obtain ⟨e', size'⟩ := tile
      obtain ⟨rfl, -, rest⟩ := tiled
      obtain same | later := List.mem_cons.mp member
      · cases same
        have total := rest.sum
        omega
      · have bounds := ih rest later
        omega

theorem Tiled.apart (tiled : Tiled good a tiles z) (first : (e, size) ∈ tiles)
    (second : (e', size') ∈ tiles) (other : e ≠ e') : e + size ≤ e' ∨ e' + size' ≤ e := by
  induction tiles generalizing a with
  | nil => exact absurd first List.not_mem_nil
  | cons tile tiles ih =>
      obtain ⟨_, _, rest⟩ := tiled
      obtain same | later := List.mem_cons.mp first
      · obtain same' | later' := List.mem_cons.mp second
        · rw [← same'] at same
          exact absurd (congrArg Prod.fst same) other
        · have bounds := rest.inside later'
          cases same
          omega
      · obtain same' | later' := List.mem_cons.mp second
        · have bounds := rest.inside later
          cases same'
          omega
        · exact ih rest later later'

theorem Tiled.size_eq (tiled : Tiled good a tiles z) (positive : ∀ size, good size → 0 < size)
    (first : (e, size) ∈ tiles) (second : (e, size') ∈ tiles) : size = size' := by
  induction tiles generalizing a with
  | nil => exact absurd first List.not_mem_nil
  | cons tile tiles ih =>
      obtain ⟨start, holds, rest⟩ := tiled
      have wide := positive _ holds
      obtain same | later := List.mem_cons.mp first
      · obtain same' | later' := List.mem_cons.mp second
        · rw [← same'] at same
          exact congrArg Prod.snd same
        · have bounds := rest.inside later'
          cases same
          omega
      · obtain same' | later' := List.mem_cons.mp second
        · have bounds := rest.inside later
          cases same'
          omega
        · exact ih rest later later'

theorem Tiled.dvd {d : Nat} (tiled : Tiled good a tiles z) (start : d ∣ a)
    (sizes : ∀ size, good size → d ∣ size) (member : (e, size) ∈ tiles) : d ∣ e := by
  induction tiles generalizing a with
  | nil => exact absurd member List.not_mem_nil
  | cons tile tiles ih =>
      obtain ⟨rfl, holds, rest⟩ := tiled
      obtain same | later := List.mem_cons.mp member
      · cases same
        exact start
      · exact ih rest (Nat.dvd_add start (sizes _ holds)) later

theorem Tiled.concat (tiled : Tiled good a tiles z) (holds : good size) :
    Tiled good a (tiles ++ [(z, size)]) (z + size) := by
  induction tiles generalizing a with
  | nil =>
      cases tiled
      exact ⟨rfl, holds, rfl⟩
  | cons tile tiles ih =>
      obtain ⟨start, first, rest⟩ := tiled
      exact ⟨start, first, ih rest⟩

end Library.Tiling
