import Mathlib.Data.List.Infix

namespace Library.Repeats

variable {α : Type} {a b : α} {m n : Nat} {log : List α}

/-- The log, newest entry first, starts with `a` exactly `m` times in a row. -/
def Streak (a : α) (m : Nat) (log : List α) : Prop :=
  ∃ older, log = List.replicate m a ++ older ∧ older.head? ≠ some a

theorem Streak.none (a : α) : Streak a 0 [] := ⟨[], rfl, by simp⟩

theorem Streak.more (streak : Streak a m log) : Streak a (m + 1) (a :: log) := by
  obtain ⟨older, rfl, ends⟩ := streak
  exact ⟨older, rfl, ends⟩

theorem Streak.first (differs : log.head? ≠ some a) : Streak a 1 (a :: log) :=
  ⟨log, rfl, differs⟩

theorem Streak.broken (differs : a ≠ b) (log : List α) : Streak a 0 (b :: log) :=
  ⟨b :: log, rfl, by simpa using differs.symm⟩

theorem Streak.front_iff (streak : Streak a m log) : List.replicate n a <+: log ↔ n ≤ m := by
  obtain ⟨older, rfl, ends⟩ := streak
  constructor
  · intro front
    by_contra long
    obtain ⟨k, rfl⟩ := Nat.exists_eq_add_of_lt (Nat.lt_of_not_le long)
    have split : List.replicate (m + k + 1) a = List.replicate m a ++ a :: List.replicate k a := by
      rw [Nat.add_assoc, List.replicate_add, List.replicate_succ]
    rw [split, List.prefix_append_right_inj] at front
    obtain ⟨rest, rfl⟩ := front
    exact ends rfl
  · intro short
    obtain ⟨k, rfl⟩ := Nat.exists_eq_add_of_le short
    rw [List.replicate_add, List.append_assoc]
    exact List.prefix_append _ _

/-- A log in which `a` is never repeated `n` times stays so as long as the newest streak is
shorter. -/
theorem Streak.keeps (streak : Streak a m (b :: log)) (short : m < n)
    (calm : ¬List.replicate n a <:+: log) : ¬List.replicate n a <:+: b :: log := by
  rw [List.infix_cons_iff, streak.front_iff, not_or]
  exact ⟨Nat.not_le.mpr short, calm⟩

end Library.Repeats
