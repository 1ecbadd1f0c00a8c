import Mathlib.Data.Nat.ModEq

namespace Library.ByteMemory

abbrev Bytes := Nat → UInt8

def load : Nat → Nat → Bytes → Nat
  | 0, _, _ => 0
  | width + 1, a, m => (m a).toNat + 256 * load width (a + 1) m

def store : Nat → Nat → Nat → Bytes → Bytes
  | 0, _, _, m => m
  | width + 1, a, n, m => Function.update (store width (a + 1) (n / 256) m) a (UInt8.ofNat n)

def copy (target source count : Nat) (m : Bytes) : Bytes := fun x =>
  if target ≤ x ∧ x < target + count then m (source + (x - target)) else m x

def Agree (a count : Nat) (m m' : Bytes) : Prop := ∀ x, a ≤ x → x < a + count → m' x = m x

variable {width count a b n x : Nat} {m m' : Bytes}

theorem store_outside (outside : x < a ∨ a + width ≤ x) : store width a n m x = m x := by
  induction width generalizing a n with
  | zero => rfl
  | succ width ih =>
      rw [store, Function.update_of_ne (by omega)]
      exact ih (by omega)

theorem load_agree (agree : Agree a count m m') (low : a ≤ b) (high : b + width ≤ a + count) :
    load width b m' = load width b m := by
  induction width generalizing b with
  | zero => rfl
  | succ width ih => rw [load, load, agree b low (by omega), ih (by omega) (by omega)]

theorem load_store (bound : n < 256 ^ width) : load width a (store width a n m) = n := by
  induction width generalizing a n with
  | zero =>
      rw [Nat.pow_zero, Nat.lt_one_iff] at bound
      exact bound.symm
  | succ width ih =>
      have agree : Agree (a + 1) width (store width (a + 1) (n / 256) m)
          (store (width + 1) a n m) := by
        intro x low _
        exact Function.update_of_ne (by omega) _ _
      have higher : n / 256 < 256 ^ width := by
        rw [Nat.div_lt_iff_lt_mul (by decide), ← Nat.pow_succ]
        exact bound
      have digit : (UInt8.ofNat n).toNat = n % 256 := UInt8.toNat_ofNat'
      rw [load, load_agree agree le_rfl le_rfl, ih higher, store, Function.update_self, digit,
        Nat.mod_add_div]

theorem copy_apply {target source i : Nat} (inside : i < count) :
    copy target source count m (target + i) = m (source + i) := by
  rw [copy, if_pos ⟨Nat.le_add_right _ _, Nat.add_lt_add_left inside target⟩, Nat.add_sub_cancel_left]

end Library.ByteMemory
