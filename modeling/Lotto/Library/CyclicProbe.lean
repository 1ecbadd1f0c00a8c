import Mathlib.Data.Nat.Find
import Mathlib.Data.Nat.ModEq

namespace Library.CyclicProbe

/-- The slot that is some steps behind another one, around the end of the table. -/
def slot (size home e : Nat) : Nat := (home + e) % size

def walk (size : Nat) (passes : Nat → Bool) : Nat → Nat → Option Nat
  | 0, _ => none
  | fuel + 1, i => if passes i then walk size passes fuel ((i + 1) % size) else some i

variable {size home i e m fuel : Nat}

theorem slot_lt (inside : home < size) (e : Nat) : slot size home e < size :=
  Nat.mod_lt _ (Nat.zero_lt_of_lt inside)

theorem slot_zero (inside : home < size) : slot size home 0 = home := Nat.mod_eq_of_lt inside

theorem slot_succ (size home e : Nat) : slot size home (e + 1) = (slot size home e + 1) % size := by
  rw [slot, slot, Nat.mod_add_mod, Nat.add_assoc]

theorem exists_slot (inside : home < size) (target : i < size) : ∃ e < size, slot size home e = i := by
  by_cases ahead : home ≤ i
  · refine ⟨i - home, by omega, ?_⟩
    rw [slot, Nat.add_sub_cancel' ahead]
    exact Nat.mod_eq_of_lt target
  · refine ⟨i + size - home, by omega, ?_⟩
    have round : home + (i + size - home) = i + size := by omega
    rw [slot, round, Nat.add_mod_right]
    exact Nat.mod_eq_of_lt target

theorem slot_ne_home (inside : home < size) (away : 0 < e) (round : e < size) :
    slot size home e ≠ home := by
  rw [slot]
  by_cases around : home + e < size
  · rw [Nat.mod_eq_of_lt around]
    omega
  · rw [Nat.mod_eq_sub_mod (Nat.not_lt.mp around), Nat.mod_eq_of_lt (by omega)]
    omega

theorem exists_first (stops : Nat → Prop) (inside : home < size) (target : i < size)
    (stop : stops i) :
    ∃ m < size, stops (slot size home m) ∧ ∀ e < m, ¬stops (slot size home e) := by
  classical
  obtain ⟨e, round, rfl⟩ := exists_slot inside target
  have exists_stop : ∃ m, stops (slot size home m) := ⟨e, stop⟩
  refine ⟨Nat.find exists_stop, ?_, Nat.find_spec exists_stop, fun _ => Nat.find_min exists_stop⟩
  exact (Nat.find_min' exists_stop stop).trans_lt round

theorem walk_slot {passes : Nat → Bool} (before : ∀ k, e ≤ k → k < m → passes (slot size home k) = true)
    (stop : passes (slot size home m) = false) (reached : e ≤ m) (enough : m < e + fuel) :
    walk size passes fuel (slot size home e) = some (slot size home m) := by
  induction fuel generalizing e with
  | zero => omega
  | succ fuel ih =>
      rw [walk]
      rcases Nat.eq_or_lt_of_le reached with rfl | ahead
      · rw [stop, if_neg Bool.false_ne_true]
      · rw [before e (Nat.le_refl e) ahead, if_pos rfl, ← slot_succ]
        exact ih (fun k low high => before k (Nat.le_of_succ_le low) high) ahead (by omega)

end Library.CyclicProbe
