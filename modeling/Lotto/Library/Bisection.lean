import Mathlib.Data.List.Basic
import Mathlib.Data.Nat.Size

namespace Library.Bisection

/-- A bisection between `l` and `r` with the answers that it is given ends at `c`. An answer of
`true` cuts the upper half. -/
inductive Narrows : Nat → Nat → List (Nat × Bool) → Nat → Prop where
  | done {l r : Nat} (closed : r ≤ l) : Narrows l r [] r
  | lower {l r c : Nat} {answers : List (Nat × Bool)} (isOpen : l < r)
      (rest : Narrows l (l + (r - l) / 2) answers c) :
      Narrows l r ((l + (r - l) / 2, true) :: answers) c
  | upper {l r c : Nat} {answers : List (Nat × Bool)} (isOpen : l < r)
      (rest : Narrows (l + (r - l) / 2 + 1) r answers c) :
      Narrows l r ((l + (r - l) / 2, false) :: answers) c

variable {l r c x : Nat} {b : Bool} {answers : List (Nat × Bool)}

theorem Narrows.between (narrows : Narrows l r answers c) (ordered : l ≤ r) : l ≤ c ∧ c ≤ r := by
  induction narrows with
  | done => omega
  | lower isOpen _ ih =>
      have := ih (by omega)
      omega
  | upper isOpen _ ih =>
      have := ih (by omega)
      omega

theorem Narrows.range (narrows : Narrows l r answers c) (member : (x, b) ∈ answers) :
    l ≤ x ∧ x < r := by
  induction narrows with
  | done => cases member
  | lower isOpen _ ih =>
      rcases List.mem_cons.mp member with same | member
      · cases same
        omega
      · have := ih member
        omega
  | upper isOpen _ ih =>
      rcases List.mem_cons.mp member with same | member
      · cases same
        omega
      · have := ih member
        omega

theorem Narrows.threshold (narrows : Narrows l r answers c) (ordered : l ≤ r)
    (member : (x, b) ∈ answers) : b = true ↔ c ≤ x := by
  induction narrows with
  | done => cases member
  | lower isOpen rest ih =>
      have inside := rest.between (by omega)
      rcases List.mem_cons.mp member with same | member
      · cases same
        simpa using inside.2
      · exact ih (by omega) member
  | upper isOpen rest ih =>
      have inside := rest.between (by omega)
      rcases List.mem_cons.mp member with same | member
      · cases same
        simp only [Bool.false_eq_true, false_iff]
        omega
      · exact ih (by omega) member

theorem Narrows.hit (narrows : Narrows l r answers c) (below : c < r) : (c, true) ∈ answers := by
  induction narrows with
  | done => omega
  | @lower l r c answers isOpen rest ih =>
      by_cases last : c < l + (r - l) / 2
      · exact List.mem_cons_of_mem _ (ih last)
      · have inside := rest.between (by omega)
        have same : c = l + (r - l) / 2 := by omega
        rw [← same]
        exact List.mem_cons_self
  | upper _ _ ih => exact List.mem_cons_of_mem _ (ih below)

theorem Narrows.miss (narrows : Narrows l r answers c) (ordered : l ≤ r) (above : l < c) :
    (c - 1, false) ∈ answers := by
  induction narrows with
  | done => omega
  | lower _ _ ih => exact List.mem_cons_of_mem _ (ih (by omega) above)
  | @upper l r c answers isOpen rest ih =>
      by_cases first : l + (r - l) / 2 + 1 < c
      · exact List.mem_cons_of_mem _ (ih (by omega) first)
      · have inside := rest.between (by omega)
        have same : c - 1 = l + (r - l) / 2 := by omega
        rw [same]
        exact List.mem_cons_self

theorem Narrows.length_le (narrows : Narrows l r answers c) : answers.length ≤ (r - l).size := by
  have half : ∀ {n m : Nat}, 0 < n → m ≤ n / 2 → m.size + 1 ≤ n.size := by
    intro n m positive smaller
    have halved : m.size ≤ (n / 2).size := Nat.size_le_size smaller
    have digit : n.size = (n / 2).size + 1 := by
      rw [← Nat.div2_val]
      conv_lhs => rw [← Nat.bit_bodd_div2 n]
      exact Nat.size_bit (by rw [Nat.bit_bodd_div2]; omega)
    omega
  induction narrows with
  | done => simp
  | @lower l r c answers isOpen rest ih =>
      exact Nat.le_trans (Nat.succ_le_succ ih) (half (by omega) (by omega))
  | @upper l r c answers isOpen rest ih =>
      exact Nat.le_trans (Nat.succ_le_succ ih) (half (by omega) (by omega))

theorem Narrows.smallest {pred : Nat → Prop} (narrows : Narrows l r answers c) (ordered : l ≤ r)
    (monotone : ∀ x y, x ≤ y → pred x → pred y)
    (answered : ∀ x b, (x, b) ∈ answers → (b = true ↔ pred x)) :
    (c < r → pred c) ∧ ∀ x, l ≤ x → x < c → ¬pred x := by
  refine ⟨?_, ?_⟩
  · intro below
    exact (answered c true (narrows.hit below)).mp rfl
  · intro x lower smaller holds
    have missed := answered _ _ (narrows.miss ordered (by omega))
    simp only [Bool.false_eq_true, false_iff] at missed
    exact missed (monotone x (c - 1) (by omega) holds)

end Library.Bisection
