import Mathlib.Data.Nat.Bitwise

namespace Library.Dyadic

/-- `base` is the first of the `2 ^ d` numbers that agree with it above their lowest `d` bits. -/
def Aligned (d base : Nat) : Prop := 2 ^ d ∣ base

/-- `x` is one of the `2 ^ d` numbers from `base` on. -/
def Inside (d base x : Nat) : Prop := base ≤ x ∧ x < base + 2 ^ d

variable {d base x : Nat}

theorem aligned_zero (d : Nat) : Aligned d 0 := Nat.dvd_zero _

theorem Aligned.lower (aligned : Aligned (d + 1) base) : Aligned d base :=
  Nat.dvd_trans (Nat.pow_dvd_pow 2 d.le_succ) aligned

theorem Aligned.upper (aligned : Aligned (d + 1) base) : Aligned d (base + 2 ^ d) :=
  Nat.dvd_add aligned.lower (Nat.dvd_refl _)

theorem Inside.lower (inside : Inside d base x) : Inside (d + 1) base x :=
  ⟨inside.1, inside.2.trans_le (Nat.add_le_add_left (Nat.pow_le_pow_right Nat.two_pos d.le_succ) base)⟩

theorem Inside.upper (inside : Inside d (base + 2 ^ d) x) : Inside (d + 1) base x := by
  obtain ⟨low, high⟩ := inside
  have double : 2 ^ (d + 1) = 2 ^ d + 2 ^ d := by rw [Nat.pow_succ, Nat.mul_two]
  exact ⟨by omega, by omega⟩

theorem Inside.half (inside : Inside (d + 1) base x) : Inside d base x ∨ Inside d (base + 2 ^ d) x := by
  obtain ⟨low, high⟩ := inside
  have double : 2 ^ (d + 1) = 2 ^ d + 2 ^ d := by rw [Nat.pow_succ, Nat.mul_two]
  rcases Nat.lt_or_ge x (base + 2 ^ d) with below | above
  · exact .inl ⟨low, below⟩
  · exact .inr ⟨above, by omega⟩

theorem inside_zero_iff : Inside 0 base x ↔ x = base := by
  rw [Inside, Nat.pow_zero]
  omega

theorem Aligned.testBit_lower (aligned : Aligned (d + 1) base) (inside : Inside d base x) :
    x.testBit d = false := by
  obtain ⟨q, rfl⟩ := aligned
  obtain ⟨r, rfl⟩ := Nat.exists_eq_add_of_le inside.1
  have small : r < 2 ^ d := Nat.lt_of_add_lt_add_left inside.2
  rw [Nat.testBit_two_pow_mul_add q (small.trans (Nat.pow_lt_pow_right (by decide) d.lt_succ_self)),
    if_pos d.lt_succ_self]
  exact Nat.testBit_lt_two_pow small

theorem Aligned.testBit_upper (aligned : Aligned (d + 1) base) (inside : Inside d (base + 2 ^ d) x) :
    x.testBit d = true := by
  obtain ⟨r, rfl⟩ := Nat.exists_eq_add_of_le inside.1
  have small : r < 2 ^ d := Nat.lt_of_add_lt_add_left inside.2
  rw [Nat.add_comm base, Nat.add_assoc, Nat.testBit_two_pow_add_eq, Bool.not_eq_true']
  exact aligned.testBit_lower ⟨Nat.le_add_right _ _, Nat.add_lt_add_left small _⟩

theorem xor_two_pow (clear : x.testBit d = false) : x ^^^ 2 ^ d = x + 2 ^ d := by
  apply Nat.eq_of_testBit_eq
  intro i
  rw [Nat.testBit_xor, Nat.testBit_two_pow, Nat.add_comm]
  rcases Nat.lt_trichotomy i d with below | rfl | above
  · rw [Nat.testBit_two_pow_add_gt below, decide_eq_false (Nat.ne_of_gt below), Bool.xor_false]
  · rw [Nat.testBit_two_pow_add_eq, clear]
    simp
  · rw [decide_eq_false (Nat.ne_of_lt above), Bool.xor_false]
    have even : x / 2 ^ d % 2 = 0 := by
      rw [Nat.testBit_eq_decide_div_mod_eq, decide_eq_false_iff_not] at clear
      omega
    obtain ⟨k, rfl⟩ := Nat.exists_eq_add_of_le (Nat.succ_le_of_lt above)
    rw [Nat.add_comm d.succ, Nat.testBit_add, Nat.testBit_add]
    apply congrArg (Nat.testBit · k)
    rw [Nat.pow_succ, ← Nat.div_div_eq_div_mul, ← Nat.div_div_eq_div_mul,
      Nat.add_div_left x (Nat.two_pow_pos d)]
    omega

theorem Aligned.xor (aligned : Aligned (d + 1) base) : base ^^^ 2 ^ d = base + 2 ^ d :=
  xor_two_pow (aligned.testBit_lower ⟨le_rfl, Nat.lt_add_of_pos_right (Nat.two_pow_pos d)⟩)

theorem Aligned.xor_last (aligned : Aligned (d + 1) base) :
    (base + 2 ^ (d + 1) - 1) ^^^ 2 ^ d = base + 2 ^ d - 1 := by
  have positive := Nat.two_pow_pos d
  have double : 2 ^ (d + 1) = 2 ^ d + 2 ^ d := by rw [Nat.pow_succ, Nat.mul_two]
  have clear : (base + 2 ^ d - 1).testBit d = false := by
    apply aligned.testBit_lower
    exact ⟨by omega, by omega⟩
  have last : base + 2 ^ (d + 1) - 1 = (base + 2 ^ d - 1) ^^^ 2 ^ d := by
    rw [xor_two_pow clear]
    omega
  rw [last, Nat.xor_assoc, Nat.xor_self, Nat.xor_zero]

theorem Aligned.or (aligned : Aligned (d + 1) base) : base ||| 2 ^ d = base + 2 ^ d := by
  rw [← aligned.xor]
  apply Nat.eq_of_testBit_eq
  intro i
  rw [Nat.testBit_or, Nat.testBit_xor, Nat.testBit_two_pow]
  by_cases same : d = i
  · subst same
    rw [aligned.testBit_lower ⟨le_rfl, Nat.lt_add_of_pos_right (Nat.two_pow_pos d)⟩, Bool.false_or,
      Bool.false_xor]
  · simp [same]

theorem Aligned.xor_upper (aligned : Aligned (d + 1) base) : (base + 2 ^ d) ^^^ 2 ^ d = base := by
  rw [← aligned.xor, Nat.xor_assoc, Nat.xor_self, Nat.xor_zero]

end Library.Dyadic
