import Lotto.BddIteration

namespace Lotto.AddressBdd

open Library.FaultRun Library.Ownership Library.Dyadic Marshal MarshalSpecs

section Bits

variable {d w A : Nat}

def join (d A w : Nat) : Nat := A / 2 ^ d * 2 ^ d + w

theorem testBit_join (small : w < 2 ^ d) (i : Nat) :
    (join d A w).testBit i = if i < d then w.testBit i else A.testBit i := by
  rw [join, Nat.mul_comm, Nat.testBit_two_pow_mul_add _ small]
  split
  · rfl
  · rename_i high
    rw [Nat.testBit_div_two_pow, Nat.sub_add_cancel (Nat.not_lt.mp high)]

theorem join_mod (small : w < 2 ^ d) : join d A w % 2 ^ d = w := by
  rw [join, Nat.add_comm, Nat.add_mul_mod_self_right, Nat.mod_eq_of_lt small]

theorem join_or (small : w < 2 ^ d) : join d A w ||| 2 ^ d = join (d + 1) A (2 ^ d + w) := by
  have large : 2 ^ d + w < 2 ^ (d + 1) := by
    rw [Nat.pow_succ]
    omega
  apply Nat.eq_of_testBit_eq
  intro i
  rw [Nat.testBit_or, testBit_join small, testBit_join large, Nat.testBit_two_pow]
  rcases Nat.lt_trichotomy i d with below | rfl | above
  · rw [if_pos below, if_pos (below.trans d.lt_succ_self), decide_eq_false (Nat.ne_of_gt below),
      Bool.or_false, Nat.testBit_two_pow_add_gt below]
  · rw [if_pos (Nat.lt_succ_self _), decide_eq_true rfl, Bool.or_true, Nat.testBit_two_pow_add_eq,
      Nat.testBit_lt_two_pow small]
    rfl
  · rw [if_neg (by omega), if_neg (by omega), decide_eq_false (Nat.ne_of_lt above), Bool.or_false]

theorem join_and (small : w < 2 ^ d) (bound : A < 2 ^ 64) (deep : d < 64) :
    join d A w &&& (2 ^ 64 - (2 ^ d + 1)) = join (d + 1) A w := by
  have large : w < 2 ^ (d + 1) := small.trans (Nat.pow_lt_pow_right (by decide) d.lt_succ_self)
  apply Nat.eq_of_testBit_eq
  intro i
  rw [Nat.testBit_and, Nat.testBit_two_pow_sub_succ (Nat.pow_lt_pow_right (by decide) deep),
    testBit_join small, testBit_join large, Nat.testBit_two_pow]
  rcases Nat.lt_trichotomy i d with below | rfl | above
  · rw [if_pos below, if_pos (below.trans d.lt_succ_self), decide_eq_false (Nat.ne_of_gt below),
      decide_eq_true (below.trans deep)]
    simp
  · rw [if_pos (Nat.lt_succ_self _), Nat.testBit_lt_two_pow small, decide_eq_true rfl]
    simp
  · rw [if_neg (by omega), if_neg (by omega), decide_eq_false (Nat.ne_of_lt above)]
    rcases Nat.lt_or_ge i 64 with inside | outside
    · simp [inside]
    · rw [Nat.testBit_lt_two_pow (bound.trans_le (Nat.pow_le_pow_right Nat.two_pos outside))]
      rfl

theorem join_keep (small : w < 2 ^ d) (clear : A.testBit d = false) : join d A w = join (d + 1) A w := by
  have large : w < 2 ^ (d + 1) := small.trans (Nat.pow_lt_pow_right (by decide) d.lt_succ_self)
  apply Nat.eq_of_testBit_eq
  intro i
  rw [testBit_join small, testBit_join large]
  rcases Nat.lt_trichotomy i d with below | rfl | above
  · rw [if_pos below, if_pos (below.trans d.lt_succ_self)]
  · rw [if_neg (Nat.lt_irrefl _), if_pos (Nat.lt_succ_self _), clear, Nat.testBit_lt_two_pow small]
  · rw [if_neg (by omega), if_neg (by omega)]

theorem join_take (small : w < 2 ^ d) (set : A.testBit d = true) :
    join d A w = join (d + 1) A (2 ^ d + w) := by
  rw [← join_or small]
  apply Nat.eq_of_testBit_eq
  intro i
  rw [Nat.testBit_or, testBit_join small, Nat.testBit_two_pow]
  by_cases same : d = i
  · subst same
    rw [if_neg (Nat.lt_irrefl _), set]
    rfl
  · simp [same]

end Bits

/-- The addresses, below bit `d`, at which the search for `A` under the mask `M` can end. -/
inductive Leads (A M : Nat) : Node → Nat → Nat → Prop
  | leaf (d : Nat) : Leads A M (.terminal true) d (A % 2 ^ d)
  | zero {p q : UInt64} {low high : Node} {d w : Nat}
      (free : M.testBit d = true → A.testBit d = false) (below : Leads A M low d w) :
      Leads A M (.inner p q low high) (d + 1) w
  | one {p q : UInt64} {low high : Node} {d w : Nat}
      (free : M.testBit d = true → A.testBit d = true) (above : Leads A M high d w) :
      Leads A M (.inner p q low high) (d + 1) (2 ^ d + w)

section Search

variable {A M d w : Nat} {node : Node}

theorem Leads.lt (leads : Leads A M node d w) : w < 2 ^ d := by
  induction leads with
  | leaf d => exact Nat.mod_lt _ (Nat.two_pow_pos d)
  | @zero _ _ _ _ d w _ _ ih => exact ih.trans (Nat.pow_lt_pow_right (by decide) d.lt_succ_self)
  | @one _ _ _ _ d w _ _ ih =>
      rw [Nat.pow_succ]
      omega

/-- What the search below bit `d` tells: it returns one of its ends, and it returns an end with a bit
below `d` if some end has one that is not above all bits of `A`. -/
structure Found (A M : Nat) (node : Node) (d : Nat) (result : UInt64) : Prop where
  ends : result ≠ 0 → ∃ w, Leads A M node d w ∧ result.toNat = join d A w
  low : result.toNat % 2 ^ d ≠ 0 ↔ ∃ w, Leads A M node d w ∧ ∃ k, w.testBit k = true ∧ 2 ^ k ≤ A
  high : 2 ^ d ≤ A → (result ≠ 0 ↔ ∃ w, Leads A M node d w)

variable {p q : UInt64} {low high : Node} {result bit : UInt64}

theorem Leads.inner_zero (leads : Leads A M (.inner p q low high) (d + 1) w)
    (none : ∀ w, ¬Leads A M high d w) : Leads A M low d w := by
  cases leads with
  | zero _ below => exact below
  | one _ above => exact absurd above (none _)

theorem Found.mod (found : Found A M node d result) (some : result ≠ 0) :
    ∃ w, Leads A M node d w ∧ result.toNat = join d A w ∧ result.toNat % 2 ^ d = w := by
  obtain ⟨w, leads, same⟩ := found.ends some
  exact ⟨w, leads, same, by rw [same, join_mod leads.lt]⟩

theorem found_true (addr : UInt64) (M d : Nat) : Found addr.toNat M (.terminal true) d addr where
  ends := by
    intro _
    refine ⟨_, .leaf d, ?_⟩
    rw [join, Nat.div_add_mod']
  low := by
    constructor
    · intro some
      obtain ⟨k, set⟩ := Nat.exists_testBit_of_ne_zero some
      refine ⟨_, .leaf d, k, set, ?_⟩
      exact (Nat.ge_two_pow_of_testBit set).trans (Nat.mod_le _ _)
    · rintro ⟨w, leads, k, set, -⟩
      cases leads
      intro zero
      rw [zero, Nat.zero_testBit] at set
      exact Bool.false_ne_true set
  high := by
    intro large
    apply iff_of_true _ ⟨_, .leaf d⟩
    rintro rfl
    exact absurd large (Nat.not_le_of_lt (Nat.two_pow_pos d))

theorem found_false (A M d : Nat) : Found A M (.terminal false) d 0 where
  ends := fun some => absurd rfl some
  low := by
    apply iff_of_false
    · simp
    · rintro ⟨w, leads, -⟩
      cases leads
  high := by
    intro _
    apply iff_of_false (fun some => some rfl)
    rintro ⟨w, leads⟩
    cases leads

theorem testBit_upper {k : Nat} (w : Nat) (below : k < d) :
    (2 ^ d + w).testBit k = w.testBit k := Nat.testBit_two_pow_add_gt below w

theorem Found.masked_one (found : Found A M high d result) (masked : M.testBit d = true)
    (set : A.testBit d = true) : Found A M (.inner p q low high) (d + 1) result := by
  have large : 2 ^ d ≤ A := Nat.ge_two_pow_of_testBit set
  have only {w : Nat} (leads : Leads A M (.inner p q low high) (d + 1) w) :
      ∃ w', Leads A M high d w' := by
    cases leads with
    | zero free => exact absurd (free masked) (by simp [set])
    | one _ above => exact ⟨_, above⟩
  refine ⟨?_, ?_, ?_⟩
  · intro some
    obtain ⟨w, leads, same⟩ := found.ends some
    exact ⟨_, .one (fun _ => set) leads, same.trans (join_take leads.lt set)⟩
  · constructor
    · intro some
      have nonzero : result ≠ 0 := by
        rintro rfl
        exact some (Nat.zero_mod _)
      obtain ⟨w, leads, -⟩ := found.ends nonzero
      refine ⟨_, .one (fun _ => set) leads, d, ?_, large⟩
      rw [Nat.testBit_two_pow_add_eq, Nat.testBit_lt_two_pow leads.lt]
      rfl
    · rintro ⟨w, leads, -⟩
      obtain ⟨w, leads, same⟩ := found.ends ((found.high large).mpr (only leads))
      have upper : Leads A M (.inner p q low high) (d + 1) (2 ^ d + w) := .one (fun _ => set) leads
      have positive := Nat.two_pow_pos d
      rw [same, join_take leads.lt set, join_mod upper.lt]
      omega
  · intro _
    rw [found.high large]
    constructor
    · rintro ⟨w, leads⟩
      exact ⟨_, .one (fun _ => set) leads⟩
    · rintro ⟨w, leads⟩
      exact only leads

theorem Found.masked_zero (found : Found A M low d result) (masked : M.testBit d = true)
    (clear : A.testBit d = false) : Found A M (.inner p q low high) (d + 1) result := by
  have lift {w : Nat} (leads : Leads A M low d w) : Leads A M (.inner p q low high) (d + 1) w :=
    .zero (fun _ => clear) leads
  have only {w : Nat} (leads : Leads A M (.inner p q low high) (d + 1) w) : Leads A M low d w := by
    cases leads with
    | zero _ below => exact below
    | one free => exact absurd (free masked) (by simp [clear])
  have both (w : Nat) : Leads A M (.inner p q low high) (d + 1) w ↔ Leads A M low d w := ⟨only, lift⟩
  have same : result.toNat % 2 ^ (d + 1) = result.toNat % 2 ^ d := by
    by_cases none : result = 0
    · rw [none]
      rfl
    · obtain ⟨w, leads, value, mod⟩ := found.mod none
      rw [mod, value, join_keep leads.lt clear, join_mod (lift leads).lt]
  refine ⟨?_, ?_, ?_⟩
  · intro some
    obtain ⟨w, leads, value⟩ := found.ends some
    exact ⟨w, lift leads, value.trans (join_keep leads.lt clear)⟩
  · rw [same, found.low]
    simp only [both]
  · intro large
    have enough : 2 ^ d ≤ A := (Nat.pow_le_pow_right Nat.two_pos d.le_succ).trans large
    rw [found.high enough]
    simp only [both]

theorem Found.free_one (upper : Found A M high d result) (free : M.testBit d = false) (some : result ≠ 0)
    (flag : bit.toNat = 2 ^ d) : Found A M (.inner p q low high) (d + 1) (result ||| bit) := by
  have lift {w : Nat} (leads : Leads A M high d w) :
      Leads A M (.inner p q low high) (d + 1) (2 ^ d + w) :=
    .one (fun masked => absurd masked (by simp [free])) leads
  have positive := Nat.two_pow_pos d
  obtain ⟨w, leads, value, mod⟩ := upper.mod some
  have now : (result ||| bit).toNat = join (d + 1) A (2 ^ d + w) := by
    rw [UInt64.toNat_or, flag, value, join_or leads.lt]
  have rest : (result ||| bit).toNat % 2 ^ (d + 1) ≠ 0 := by
    rw [now, join_mod (lift leads).lt]
    omega
  have nonzero : result ||| bit ≠ 0 := by
    intro zero
    rw [zero] at rest
    exact rest (Nat.zero_mod _)
  refine ⟨fun _ => ⟨_, lift leads, now⟩, iff_of_true rest ?_, fun _ => iff_of_true nonzero ⟨_, lift leads⟩⟩
  by_cases large : 2 ^ d ≤ A
  · refine ⟨_, lift leads, d, ?_, large⟩
    rw [Nat.testBit_two_pow_add_eq, Nat.testBit_lt_two_pow leads.lt]
    rfl
  · have own : result.toNat % 2 ^ d ≠ 0 := by
      rw [mod]
      intro zero
      rw [join, Nat.div_eq_of_lt (Nat.lt_of_not_le large), zero] at value
      exact some (UInt64.toNat_inj.mp (by rw [value]; simp))
    obtain ⟨v, leads', k, set, small⟩ := upper.low.mp own
    have below : k < d := by
      by_contra high
      have big : 2 ^ d ≤ 2 ^ k := Nat.pow_le_pow_right Nat.two_pos (Nat.not_lt.mp high)
      omega
    exact ⟨_, lift leads', k, (testBit_upper v below).trans set, small⟩

theorem Found.free_zero (upper : Found A M high d 0) (lower : Found A M low d result)
    (free : M.testBit d = false) (flag : bit.toNat = 2 ^ d) (bound : A < 2 ^ 64) (deep : d < 64) :
    Found A M (.inner p q low high) (d + 1) (result &&& ~~~bit) := by
  have lift {w : Nat} (leads : Leads A M low d w) : Leads A M (.inner p q low high) (d + 1) w :=
    .zero (fun masked => absurd masked (by simp [free])) leads
  have none (large : 2 ^ d ≤ A) (w : Nat) : ¬Leads A M high d w := fun leads =>
    (upper.high large).mpr ⟨w, leads⟩ rfl
  have cleared (some : result ≠ 0) :
      ∃ w, Leads A M low d w ∧ (result &&& ~~~bit).toNat = join (d + 1) A w ∧
        result.toNat % 2 ^ d = w := by
    obtain ⟨w, leads, value, mod⟩ := lower.mod some
    refine ⟨w, leads, ?_, mod⟩
    have mask : (~~~bit).toNat = 2 ^ 64 - (2 ^ d + 1) := by
      rw [UInt64.toNat_not, flag]
      show 2 ^ 64 - 1 - 2 ^ d = _
      omega
    rw [UInt64.toNat_and, mask, value, join_and leads.lt bound deep]
  have same : (result &&& ~~~bit).toNat % 2 ^ (d + 1) = result.toNat % 2 ^ d := by
    by_cases zero : result = 0
    · rw [zero, UInt64.zero_and]
      rfl
    · obtain ⟨w, leads, value, mod⟩ := cleared zero
      rw [value, mod, join_mod (lift leads).lt]
  have given (some : result &&& ~~~bit ≠ 0) : result ≠ 0 := by
    rintro rfl
    exact some UInt64.zero_and
  refine ⟨?_, ?_, ?_⟩
  · intro some
    obtain ⟨w, leads, value, -⟩ := cleared (given some)
    exact ⟨w, lift leads, value⟩
  · rw [same, lower.low]
    constructor
    · rintro ⟨w, leads, some⟩
      exact ⟨w, lift leads, some⟩
    · rintro ⟨w, leads, k, set, small⟩
      by_cases large : 2 ^ d ≤ A
      · exact ⟨w, leads.inner_zero (none large), k, set, small⟩
      · cases leads with
        | zero _ below => exact ⟨w, below, k, set, small⟩
        | @one _ _ _ _ _ v _ above =>
            have below : k < d := by
              by_contra high
              have big : 2 ^ d ≤ 2 ^ k := Nat.pow_le_pow_right Nat.two_pos (Nat.not_lt.mp high)
              omega
            rw [testBit_upper v below] at set
            exact absurd (Nat.zero_mod _) (upper.low.mpr ⟨v, above, k, set, small⟩)
  · intro large
    have enough : 2 ^ d ≤ A := (Nat.pow_le_pow_right Nat.two_pos d.le_succ).trans large
    constructor
    · intro some
      obtain ⟨w, leads, -⟩ := cleared (given some)
      exact ⟨w, lift leads⟩
    · rintro ⟨w, leads⟩
      have some : result ≠ 0 := (lower.high enough).mpr ⟨w, leads.inner_zero (none enough)⟩
      obtain ⟨v, -, value, -⟩ := cleared some
      intro zero
      have positive : 0 < A / 2 ^ (d + 1) * 2 ^ (d + 1) :=
        Nat.mul_pos (Nat.div_pos large (Nat.two_pow_pos _)) (Nat.two_pow_pos _)
      rw [zero, join, UInt64.toNat_zero] at value
      omega

theorem maskedNode_found (addr mask : UInt64) (flag : bit.toNat = 2 ^ d / 2) (fits : node.Fits d) :
    Found addr.toNat mask.toNat node d (maskedNode addr mask node bit) := by
  induction node generalizing d bit with
  | terminal v =>
      cases v with
      | false => exact found_false _ _ d
      | true => exact found_true addr _ d
  | inner p q low high low_ih high_ih =>
      obtain ⟨d, rfl, lower, upper⟩ := fits.halves
      rw [Nat.pow_succ, Nat.mul_div_cancel _ Nat.two_pos] at flag
      have deep : d < 64 := by
        apply (Nat.pow_lt_pow_iff_right (show 1 < 2 by decide)).mp
        rw [← flag]
        exact bit.toNat_lt
      have half : (bit >>> 1).toNat = 2 ^ d / 2 := by
        rw [UInt64.toNat_shiftRight, flag]
        exact Nat.shiftRight_eq_div_pow _ 1
      have below := low_ih half lower
      have above := high_ih half upper
      have tests (x : UInt64) : bit &&& x ≠ 0 ↔ x.toNat.testBit d = true := by
        rw [UInt64.and_comm]
        exact and_flag_ne_zero flag
      rw [maskedNode]
      split
      · rename_i masked
        rw [tests] at masked
        split
        · rename_i set
          exact above.masked_one masked ((tests addr).mp set)
        · rename_i clear
          rw [tests, Bool.not_eq_true] at clear
          exact below.masked_zero masked clear
      · rename_i free
        rw [tests, Bool.not_eq_true] at free
        by_cases some : maskedNode addr mask high (bit >>> 1) = 0
        · rw [some] at above
          simp only [some, ne_eq, not_true_eq_false, if_false]
          exact above.free_zero below free flag addr.toNat_lt deep
        · simp only [ne_eq, some, not_false_eq_true, if_true]
          exact above.free_one free some flag

theorem leads_iff {base : Nat} (fits : node.Fits d) (aligned : Aligned d base) :
    Leads A M node d w ↔ ∃ leaf ∈ node.leaves d base, base + w = leaf.base + A % 2 ^ leaf.level ∧
      ∀ i < d, M.testBit i = true → w.testBit i = A.testBit i := by
  induction node generalizing d base w with
  | terminal v =>
      cases v with
      | false =>
          apply iff_of_false
          · rintro ⟨⟩
          · simp [Node.leaves]
      | true =>
          simp only [Node.leaves, List.mem_singleton, exists_eq_left, Nat.add_left_cancel_iff]
          constructor
          · rintro ⟨⟩
            refine ⟨rfl, ?_⟩
            intro i below _
            simp [Nat.testBit_mod_two_pow, below]
          · rintro ⟨rfl, -⟩
            exact .leaf d
  | inner p q low high low_ih high_ih =>
      obtain ⟨d, rfl, lower, upper⟩ := fits.halves
      simp only [leaves_inner, List.mem_append]
      constructor
      · intro leads
        have small := leads.lt
        cases leads with
        | zero free below =>
            obtain ⟨leaf, member, value, bits⟩ := (low_ih lower aligned.lower).mp below
            refine ⟨leaf, .inl member, value, ?_⟩
            intro i inside masked
            rcases Nat.lt_succ_iff_lt_or_eq.mp inside with under | rfl
            · exact bits i under masked
            · rw [free masked, Nat.testBit_lt_two_pow below.lt]
        | @one _ _ _ _ _ v free above =>
            obtain ⟨leaf, member, value, bits⟩ := (high_ih upper aligned.upper).mp above
            refine ⟨leaf, .inr member, by omega, ?_⟩
            intro i inside masked
            rcases Nat.lt_succ_iff_lt_or_eq.mp inside with under | rfl
            · rw [testBit_upper v under, bits i under masked]
            · rw [free masked, Nat.testBit_two_pow_add_eq, Nat.testBit_lt_two_pow above.lt]
              rfl
      · rintro ⟨leaf, member | member, value, bits⟩
        · have within := leaves_within lower aligned.lower member
          have small := Nat.mod_lt A (Nat.two_pow_pos leaf.level)
          have last := within.last
          have below : w < 2 ^ d := by omega
          apply Leads.zero
          · intro masked
            rw [← bits d d.lt_succ_self masked, Nat.testBit_lt_two_pow below]
          · apply (low_ih lower aligned.lower).mpr
            exact ⟨leaf, member, value, fun i under => bits i (under.trans d.lt_succ_self)⟩
        · have within := leaves_within upper aligned.upper member
          have small := Nat.mod_lt A (Nat.two_pow_pos leaf.level)
          have first := within.first
          have last := within.last
          obtain ⟨v, rfl⟩ := Nat.exists_eq_add_of_le (show 2 ^ d ≤ w by omega)
          have below : v < 2 ^ d := by omega
          apply Leads.one
          · intro masked
            rw [← bits d d.lt_succ_self masked, Nat.testBit_two_pow_add_eq, Nat.testBit_lt_two_pow below]
            rfl
          · apply (high_ih upper aligned.upper).mpr
            refine ⟨leaf, member, by omega, ?_⟩
            intro i under masked
            rw [← bits i (under.trans d.lt_succ_self) masked, testBit_upper v under]

end Search

section Lookup

def Lookup (bdd : Bdd) (addr mask : UInt64) : Prop :=
  (bdd.getMasked addr mask ≠ 0 →
      bdd.getMasked addr mask ∈ bdd.contents ∧ bdd.getMasked addr mask &&& mask = addr &&& mask) ∧
    (bdd.getMasked addr mask = 0 → ¬∃ x ∈ bdd.contents, x ≠ 0 ∧ x &&& mask = addr &&& mask)

/-- The address that the search makes of a leaf: it starts with the bits of the leaf and ends with
those of the address. -/
def Leaf.value (leaf : Leaf) (addr : UInt64) : Nat := leaf.base + addr.toNat % 2 ^ leaf.level

/-- A leaf that matches and whose value has a bit that is not above all bits of the address. -/
def Leaf.Reached (leaf : Leaf) (addr mask : UInt64) : Prop :=
  leaf.value addr &&& mask.toNat = addr.toNat &&& mask.toNat ∧
    ∃ k, (leaf.value addr).testBit k = true ∧ 2 ^ k ≤ addr.toNat

theorem and_eq_and_iff {v A M : Nat} (first : v < 2 ^ 64) (second : A < 2 ^ 64) :
    v &&& M = A &&& M ↔ ∀ i < 64, M.testBit i = true → v.testBit i = A.testBit i := by
  constructor
  · intro same i _ masked
    have bits := congrArg (Nat.testBit · i) same
    simpa [masked] using bits
  · intro bits
    apply Nat.eq_of_testBit_eq
    intro i
    rw [Nat.testBit_and, Nat.testBit_and]
    cases masked : M.testBit i with
    | false => simp
    | true =>
        rcases Nat.lt_or_ge i 64 with inside | outside
        · rw [bits i inside masked]
        · have large : 2 ^ 64 ≤ 2 ^ i := Nat.pow_le_pow_right Nat.two_pos outside
          rw [Nat.testBit_lt_two_pow (first.trans_le large), Nat.testBit_lt_two_pow (second.trans_le large)]

variable {bdd : Bdd} {addr mask : UInt64}

theorem value_lt (addr : UInt64) (shaped : Shaped 64 0 bdd.root) {leaf : Leaf} (member : leaf ∈ bdd.root.leaves 64 0) :
    leaf.value addr ∈ leaf.numbers ∧ leaf.value addr < 2 ^ 64 := by
  have within := leaves_within shaped.fits (aligned_zero 64) member
  have small := Nat.mod_lt addr.toNat (Nat.two_pow_pos leaf.level)
  have last := within.last
  rw [Leaf.value, mem_numbers]
  omega

theorem leads_root_iff (shaped : Shaped 64 0 bdd.root) (w : Nat) :
    Leads addr.toNat mask.toNat bdd.root 64 w ↔ ∃ leaf ∈ bdd.root.leaves 64 0,
      w = leaf.value addr ∧ leaf.value addr &&& mask.toNat = addr.toNat &&& mask.toNat := by
  rw [leads_iff shaped.fits (aligned_zero 64)]
  apply exists_congr
  intro leaf
  apply and_congr_right
  intro member
  have small := (value_lt addr shaped member).2
  rw [Nat.zero_add, ← Leaf.value]
  apply and_congr_right
  rintro rfl
  exact (and_eq_and_iff small addr.toNat_lt).symm

theorem getMasked_ne_zero_iff (shaped : Shaped 64 0 bdd.root) :
    bdd.getMasked addr mask ≠ 0 ↔ ∃ leaf ∈ bdd.root.leaves 64 0, leaf.Reached addr mask := by
  have found := maskedNode_found addr mask level_whole.bit shaped.fits
  have whole : bdd.getMasked addr mask ≠ 0 ↔ (bdd.getMasked addr mask).toNat % 2 ^ 64 ≠ 0 := by
    rw [Nat.mod_eq_of_lt (bdd.getMasked addr mask).toNat_lt]
    exact not_congr UInt64.toNat_inj.symm
  rw [whole, Bdd.getMasked, found.low]
  constructor
  · rintro ⟨w, leads, bit⟩
    obtain ⟨leaf, member, rfl, matched⟩ := (leads_root_iff shaped w).mp leads
    exact ⟨leaf, member, matched, bit⟩
  · rintro ⟨leaf, member, matched, bit⟩
    exact ⟨_, (leads_root_iff shaped _).mpr ⟨leaf, member, rfl, matched⟩, bit⟩

theorem getMasked_member (shaped : Shaped 64 0 bdd.root) (some : bdd.getMasked addr mask ≠ 0) :
    bdd.getMasked addr mask ∈ bdd.contents ∧ bdd.getMasked addr mask &&& mask = addr &&& mask := by
  have found := maskedNode_found addr mask level_whole.bit shaped.fits
  obtain ⟨w, leads, value⟩ := found.ends some
  obtain ⟨leaf, member, rfl, matched⟩ := (leads_root_iff shaped w).mp leads
  rw [join, Nat.div_eq_of_lt addr.toNat_lt, Nat.zero_mul, Nat.zero_add] at value
  constructor
  · rw [mem_contents, Bdd.getMasked, value]
    exact ((mem_leaves_iff shaped.fits (aligned_zero 64) _).mp
      ⟨leaf, member, (value_lt addr shaped member).1⟩).2
  · rw [← UInt64.toNat_inj, UInt64.toNat_and, UInt64.toNat_and, Bdd.getMasked, value]
    exact matched

theorem lookup_iff (shaped : Shaped 64 0 bdd.root) :
    Lookup bdd addr mask ↔
      ((∃ x ∈ bdd.contents, x ≠ 0 ∧ x &&& mask = addr &&& mask) →
        ∃ leaf ∈ bdd.root.leaves 64 0, leaf.Reached addr mask) := by
  rw [Lookup, and_iff_right (getMasked_member shaped), ← getMasked_ne_zero_iff shaped, ne_eq]
  exact imp_not_comm

end Lookup

/-- The masked lookup is correct and complete if and only if there is no nonzero match, or the search
reaches some leaf. -/
theorem masked_lookup_iff (a : Allocator) (maxDepth : Nat) (ops : List Op) (h h' : Memory) (bdd : Bdd)
    (built : build a maxDepth ops h = .ok (bdd, h')) (addr mask : UInt64) :
    Lookup bdd addr mask ↔
      ((∃ x ∈ bdd.contents, x ≠ 0 ∧ x &&& mask = addr &&& mask) →
        ∃ leaf ∈ bdd.root.leaves 64 0, leaf.Reached addr mask) :=
  lookup_iff (built_shaped built).1

theorem lower_half_lookup :
    Lookup ⟨.inner 4096 0 (.terminal true) (.terminal false), 1, (1 : UInt64) <<< (63 : UInt64)⟩ 8 8 := by
  apply (masked_lookup_iff counting 1 [.set 4 8] ⟨∅, 0⟩ _ _ rfl 8 8).mpr
  intro _
  exact ⟨⟨0, 63⟩, List.mem_singleton_self _, by decide, 3, by decide, by decide⟩

/-- In the upper half, nothing is found for the address 0 without a mask. -/
theorem upper_half_missed :
    ¬∀ (a : Allocator) (maxDepth : Nat) (ops : List Op) (h h' : Memory) (bdd : Bdd),
      build a maxDepth ops h = .ok (bdd, h') → ∀ addr mask, Lookup bdd addr mask := by
  intro holds
  have lookup := holds counting 1 [.set lastAddress 1] ⟨∅, 0⟩ _ _ rfl 0 0
  apply lookup.2 (by decide)
  exact ⟨lastAddress, mem_contents.mpr (by decide), by decide, by decide⟩

end Lotto.AddressBdd
