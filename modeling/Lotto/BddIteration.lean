import Lotto.BddRun

namespace Lotto.AddressBdd

open Library.FaultRun Library.Ownership Library.Dyadic Marshal MarshalSpecs

structure Leaf where
  base : Nat
  level : Nat
  deriving DecidableEq, Repr

def Leaf.numbers (leaf : Leaf) : List Nat := List.range' leaf.base (2 ^ leaf.level)

/-- The true terminals of a node with `d` levels from `base` on, in their order. -/
def Node.leaves : Node → Nat → Nat → List Leaf
  | .terminal true, d, base => [⟨base, d⟩]
  | .terminal false, _, _ => []
  | .inner _ _ zero one, d, base => zero.leaves (d - 1) base ++ one.leaves (d - 1) (base + 2 ^ (d - 1))

section Leaves

variable {d base : Nat} {leaf : Leaf}

theorem leaves_inner (p q : UInt64) (low high : Node) (d base : Nat) :
    (Node.inner p q low high).leaves (d + 1) base =
      low.leaves d base ++ high.leaves d (base + 2 ^ d) := rfl

structure Leaf.Within (leaf : Leaf) (d base : Nat) : Prop where
  aligned : Aligned leaf.level leaf.base
  first : base ≤ leaf.base
  last : leaf.base + 2 ^ leaf.level ≤ base + 2 ^ d

theorem leaves_within {node : Node} (fits : node.Fits d) (aligned : Aligned d base)
    (member : leaf ∈ node.leaves d base) : leaf.Within d base := by
  induction node generalizing d base with
  | terminal v =>
      cases v with
      | false => cases member
      | true =>
          cases List.mem_singleton.mp member
          exact ⟨aligned, le_rfl, le_rfl⟩
  | inner p q low high low_ih high_ih =>
      obtain ⟨d, rfl, lower, upper⟩ := fits.halves
      have positive := Nat.two_pow_pos d
      have double : 2 ^ (d + 1) = 2 ^ d + 2 ^ d := by rw [Nat.pow_succ, Nat.mul_two]
      rw [leaves_inner, List.mem_append] at member
      rcases member with below | above
      · have within := low_ih lower aligned.lower below
        exact ⟨within.aligned, within.first, within.last.trans (by omega)⟩
      · have within := high_ih upper aligned.upper above
        exact ⟨within.aligned, (Nat.le_add_right _ _).trans within.first,
          within.last.trans (by omega)⟩

theorem leaves_ordered {node : Node} (fits : node.Fits d) (aligned : Aligned d base) :
    (node.leaves d base).Pairwise fun a b => a.base + 2 ^ a.level ≤ b.base := by
  induction node generalizing d base with
  | terminal v =>
      cases v with
      | false => exact List.Pairwise.nil
      | true => exact List.pairwise_singleton _ _
  | inner p q low high low_ih high_ih =>
      obtain ⟨d, rfl, lower, upper⟩ := fits.halves
      rw [leaves_inner, List.pairwise_append]
      refine ⟨low_ih lower aligned.lower, high_ih upper aligned.upper, ?_⟩
      intro one below two above
      exact (leaves_within lower aligned.lower below).last.trans
        (leaves_within upper aligned.upper above).first

theorem mem_numbers {x : Nat} : x ∈ leaf.numbers ↔ leaf.base ≤ x ∧ x < leaf.base + 2 ^ leaf.level :=
  List.mem_range'_1

theorem mem_leaves_iff {node : Node} (fits : node.Fits d) (aligned : Aligned d base) (x : Nat) :
    (∃ leaf ∈ node.leaves d base, x ∈ leaf.numbers) ↔ Inside d base x ∧ node.holds d x = true := by
  induction node generalizing d base with
  | terminal v =>
      cases v with
      | false => simp [Node.leaves, Node.holds]
      | true => simp [Node.leaves, Node.holds, mem_numbers, Inside]
  | inner p q low high low_ih high_ih =>
      obtain ⟨d, rfl, lower, upper⟩ := fits.halves
      simp only [leaves_inner, List.mem_append, or_and_right, exists_or]
      rw [low_ih lower aligned.lower, high_ih upper aligned.upper]
      constructor
      · rintro (⟨half, holds⟩ | ⟨half, holds⟩)
        · exact ⟨half.lower, (holds_low aligned half).trans holds⟩
        · exact ⟨half.upper, (holds_high aligned half).trans holds⟩
      · rintro ⟨inside, holds⟩
        rcases inside.half with half | half
        · exact .inl ⟨half, (holds_low aligned half).symm.trans holds⟩
        · exact .inr ⟨half, (holds_high aligned half).symm.trans holds⟩

theorem before_odd_leaf {node : Node} (fits : node.Fits d) (reduced : node.Reduced)
    (aligned : Aligned d base) (positive : 0 < d) {x : Nat} (member : ⟨x + 1, 0⟩ ∈ node.leaves d base)
    (odd : x % 2 = 0) : Inside d base x ∧ node.holds d x = false := by
  induction node generalizing d base with
  | terminal v =>
      cases v with
      | false => cases member
      | true =>
          cases List.mem_singleton.mp member
          exact absurd positive (Nat.lt_irrefl 0)
  | inner p q low high low_ih high_ih =>
      obtain ⟨d, rfl, lower, upper⟩ := fits.halves
      obtain ⟨differ, lower', upper'⟩ := reduced
      rw [leaves_inner, List.mem_append] at member
      have even : 2 ∣ base := Nat.dvd_trans (Nat.pow_dvd_pow 2 (Nat.succ_le_succ d.zero_le)) aligned
      rcases Nat.eq_zero_or_pos d with rfl | more
      · rcases member with below | above
        · have within := leaves_within lower aligned.lower below
          have same := Nat.le_antisymm (Nat.le_of_add_le_add_right within.last) within.first
          simp only at same
          omega
        · have within := leaves_within upper aligned.upper above
          have same := Nat.le_antisymm (Nat.le_of_add_le_add_right within.last) within.first
          simp only [Nat.pow_zero, Nat.add_right_cancel_iff] at same
          subst same
          have inside : Inside 0 x x := inside_zero_iff.mpr rfl
          refine ⟨inside.lower, ?_⟩
          rw [holds_low aligned inside]
          cases high with
          | inner => exact absurd upper.1 (Nat.lt_irrefl 0)
          | terminal w =>
              cases low with
              | inner => exact absurd lower.1 (Nat.lt_irrefl 0)
              | terminal v =>
                  cases w with
                  | false => cases above
                  | true =>
                      cases v with
                      | false => rfl
                      | true => exact absurd rfl (differ true rfl)
      · rcases member with below | above
        · obtain ⟨inside, clear⟩ := low_ih lower lower' aligned.lower more below
          exact ⟨inside.lower, (holds_low aligned inside).trans clear⟩
        · obtain ⟨inside, clear⟩ := high_ih upper upper' aligned.upper more above
          exact ⟨inside.upper, (holds_high aligned inside).trans clear⟩

end Leaves

section Spots

/-- A node of a tree with its place: its levels, its first address, the address of its parent, and
the leaves that come after it. -/
inductive Spot (root : Node) : Nat → Nat → UInt64 → Node → List Leaf → Prop
  | root : Spot root 64 0 0 root []
  | zero {d base : Nat} {parent p q : UInt64} {low high : Node} {rest : List Leaf}
      (above : Spot root (d + 1) base parent (.inner p q low high) rest) :
      Spot root d base p low (high.leaves d (base + 2 ^ d) ++ rest)
  | one {d base : Nat} {parent p q : UInt64} {low high : Node} {rest : List Leaf}
      (above : Spot root (d + 1) base parent (.inner p q low high) rest) :
      Spot root d (base + 2 ^ d) p high rest

theorem at_eq_none {address : UInt64} {node : Node} (outside : address ∉ node.addresses) :
    node.at address = none := by
  induction node with
  | terminal v => rfl
  | inner p q low high low_ih high_ih =>
      rw [Node.addresses, Multiset.mem_add, Multiset.mem_add, Multiset.mem_singleton, not_or,
        not_or] at outside
      obtain ⟨other, lower, upper⟩ := outside
      rw [Node.at, if_neg (Ne.symm other), low_ih lower, high_ih upper]
      rfl

theorem at_isSome {address : UInt64} {node : Node} (inside : address ∈ node.addresses) :
    (node.at address).isSome = true := by
  induction node with
  | terminal v => exact absurd inside (Multiset.notMem_zero address)
  | inner p q low high low_ih high_ih =>
      rw [Node.addresses, Multiset.mem_add, Multiset.mem_add, Multiset.mem_singleton] at inside
      rw [Node.at]
      split
      · rfl
      · rename_i other
        rw [Option.isSome_or, Bool.or_eq_true]
        rcases inside with same | lower | upper
        · exact absurd same.symm other
        · exact .inl (low_ih lower)
        · exact .inr (high_ih upper)

structure Placed (root : Node) (d base : Nat) (parent : UInt64) (node : Node) (rest : List Leaf) :
    Prop where
  shaped : Shaped d parent node
  nodup : node.addresses.Nodup
  found : ∀ address ∈ node.addresses, root.at address = node.at address
  aligned : Aligned d base
  bound : base + 2 ^ d ≤ 2 ^ 64
  after : ∀ leaf ∈ rest, base + 2 ^ d ≤ leaf.base ∧ leaf.base + 2 ^ leaf.level ≤ 2 ^ 64

variable {root node : Node} {d base : Nat} {parent : UInt64} {rest : List Leaf}

theorem Spot.placed (spot : Spot root d base parent node rest) (shaped : Shaped 64 0 root)
    (nodup : root.addresses.Nodup) : Placed root d base parent node rest := by
  induction spot with
  | root => exact ⟨shaped, nodup, fun _ _ => rfl, aligned_zero 64, by decide, nofun⟩
  | @zero d base parent p q low high rest above ih =>
      have positive := Nat.two_pow_pos d
      have double : 2 ^ (d + 1) = 2 ^ d + 2 ^ d := by rw [Nat.pow_succ, Nat.mul_two]
      have bound := ih.bound
      have parts := Multiset.nodup_add.mp ih.nodup
      have halves := Multiset.nodup_add.mp parts.2.1
      refine ⟨ih.shaped.zero, halves.1, ?_, ih.aligned.lower, by omega, ?_⟩
      · intro address inside
        have member := Multiset.mem_add.mpr (.inl inside : address ∈ low.addresses ∨ address ∈ high.addresses)
        have other : p ≠ address := by
          rintro rfl
          exact Multiset.disjoint_left.mp parts.2.2 (Multiset.mem_singleton_self p) member
        obtain ⟨target, hit⟩ := Option.isSome_iff_exists.mp (at_isSome inside)
        rw [ih.found address (Multiset.mem_add.mpr (.inr member)), Node.at, if_neg other, hit]
        rfl
      · intro leaf member
        rcases List.mem_append.mp member with own | later
        · have within := leaves_within ih.shaped.one.fits ih.aligned.upper own
          exact ⟨within.first, within.last.trans (by omega)⟩
        · have after := ih.after leaf later
          exact ⟨by omega, after.2⟩
  | @one d base parent p q low high rest above ih =>
      have positive := Nat.two_pow_pos d
      have double : 2 ^ (d + 1) = 2 ^ d + 2 ^ d := by rw [Nat.pow_succ, Nat.mul_two]
      have bound := ih.bound
      have parts := Multiset.nodup_add.mp ih.nodup
      have halves := Multiset.nodup_add.mp parts.2.1
      refine ⟨ih.shaped.one, halves.2.1, ?_, ih.aligned.upper, by omega, ?_⟩
      · intro address inside
        have member := Multiset.mem_add.mpr (.inr inside : address ∈ low.addresses ∨ address ∈ high.addresses)
        have other : p ≠ address := by
          rintro rfl
          exact Multiset.disjoint_left.mp parts.2.2 (Multiset.mem_singleton_self p) member
        have apart : address ∉ low.addresses := fun lower =>
          Multiset.disjoint_left.mp halves.2.2 lower inside
        rw [ih.found address (Multiset.mem_add.mpr (.inr member)), Node.at, if_neg other,
          at_eq_none apart]
        rfl
      · intro leaf later
        have after := ih.after leaf later
        exact ⟨by omega, after.2⟩

theorem Spot.suffix (spot : Spot root d base parent node rest) :
    node.leaves d base ++ rest <:+ root.leaves 64 0 := by
  induction spot with
  | root => rw [List.append_nil]
  | zero above ih =>
      rw [← List.append_assoc]
      exact ih
  | one above ih =>
      apply List.IsSuffix.trans _ ih
      rw [leaves_inner, List.append_assoc]
      exact List.suffix_append _ _

theorem Placed.deep (placed : Placed root (d + 1) base parent node rest) : d < 64 := by
  have bound := placed.bound
  by_contra high
  have large : 2 ^ 64 < 2 ^ (d + 1) := Nat.pow_lt_pow_right (by decide) (by omega)
  omega

theorem Placed.lookup {p q : UInt64} {low high : Node}
    (placed : Placed root d base parent (.inner p q low high) rest) :
    root.at p = some (.inner p parent low high) := by
  rw [placed.found p (mem_addresses p q low high), Node.at, if_pos rfl, placed.shaped.link]

end Spots

section Find

variable {root node : Node} {d base : Nat} {parent : UInt64} {rest : List Leaf}

structure AtLeaf (root : Node) (it : Iterator) (leaf : Leaf) (rest : List Leaf) : Prop where
  spot : Spot root leaf.level leaf.base it.parentNode (.terminal true) rest
  node : it.node = .terminal true
  base : it.base.toNat = leaf.base
  bit : it.currentBit.toNat = 2 ^ leaf.level % 2 ^ 64

structure Begins (root : Node) (it : Iterator) (leaf : Leaf) (rest : List Leaf) : Prop where
  here : AtLeaf root it leaf rest
  offset : it.offset.toNat = if leaf.base = 0 then 1 else 0

theorem findTrue_none (empty : node.leaves d base = []) (parent bit start : UInt64) (it : Iterator) :
    findTrueSubNode parent node bit start it = (false, it) := by
  induction node generalizing d base parent bit start it with
  | terminal v =>
      cases v with
      | false => rfl
      | true => cases empty
  | inner p q low high low_ih high_ih =>
      obtain ⟨lower, upper⟩ := List.append_eq_nil_iff.mp empty
      rw [findTrueSubNode]
      simp only [low_ih lower, high_ih upper, Bool.false_eq_true, if_false]

theorem halfBit {bit : UInt64} (flag : bit.toNat = 2 ^ (d + 1) % 2 ^ 64) (low : d < 64) :
    (if bit ≠ 0 then bit >>> 1 else leadingOne).toNat = 2 ^ d := by
  split
  · rename_i some
    have small : 2 ^ (d + 1) < 2 ^ 64 := by
      apply Nat.pow_lt_pow_right (by decide)
      by_contra high
      have whole : d + 1 = 64 := by omega
      rw [whole, Nat.mod_self] at flag
      exact some (UInt64.toNat_inj.mp flag)
    rw [UInt64.toNat_shiftRight, flag, Nat.mod_eq_of_lt small]
    show 2 ^ (d + 1) >>> 1 = 2 ^ d
    rw [Nat.shiftRight_eq_div_pow, Nat.pow_one, Nat.pow_succ, Nat.mul_div_cancel _ Nat.two_pos]
  · rename_i none
    have whole : d + 1 = 64 := by
      by_contra other
      have small : 2 ^ (d + 1) < 2 ^ 64 := Nat.pow_lt_pow_right (by decide) (by omega)
      rw [not_not.mp none, Nat.mod_eq_of_lt small] at flag
      exact absurd flag (Nat.ne_of_lt (Nat.two_pow_pos (d + 1)))
    obtain rfl : d = 63 := by omega
    rfl

theorem two_pow_mod (low : d < 64) : 2 ^ d % 2 ^ 64 = 2 ^ d :=
  Nat.mod_eq_of_lt (Nat.pow_lt_pow_right (by decide) low)

theorem findTrue_some {leaf : Leaf} {more : List Leaf} (shaped : Shaped 64 0 root)
    (nodup : root.addresses.Nodup) (spot : Spot root d base parent node rest)
    (leaves : node.leaves d base = leaf :: more) {bit start : UInt64} (at_ : start.toNat = base)
    (flag : bit.toNat = 2 ^ d % 2 ^ 64) (it : Iterator) :
    ∃ it', findTrueSubNode parent node bit start it = (true, it') ∧ Begins root it' leaf (more ++ rest) := by
  induction node generalizing d base parent rest leaf more bit start it with
  | terminal v =>
      cases v with
      | false => cases leaves
      | true =>
          cases leaves
          refine ⟨_, rfl, ⟨spot, rfl, at_, flag⟩, ?_⟩
          subst at_
          by_cases none : start = 0
          · simp [none]
          · have some : start.toNat ≠ 0 := fun same => none (UInt64.toNat_inj.mp same)
            simp [none, some]
  | inner p q low high low_ih high_ih =>
      obtain ⟨d, rfl, lower, upper⟩ := (spot.placed shaped nodup).shaped.fits.halves
      have placed := spot.placed shaped nodup
      have deep := placed.deep
      have half := halfBit flag deep
      have flag' := half.trans (two_pow_mod deep).symm
      rw [findTrueSubNode]
      rw [leaves_inner] at leaves
      cases first : low.leaves d base with
      | nil =>
          rw [first, List.nil_append] at leaves
          have start' : (start ||| if bit ≠ 0 then bit >>> 1 else leadingOne).toNat = base + 2 ^ d := by
            rw [UInt64.toNat_or, half, at_, placed.aligned.or]
          simp only [findTrue_none first, Bool.false_eq_true, if_false]
          exact high_ih spot.one leaves start' flag' it
      | cons head tail =>
          rw [first, List.cons_append, List.cons.injEq] at leaves
          obtain ⟨rfl, rfl⟩ := leaves
          obtain ⟨it', found, begins⟩ := low_ih spot.zero first at_ flag' it
          simp only [found, if_true]
          refine ⟨it', rfl, ?_⟩
          rw [List.append_assoc]
          exact begins

theorem and_flag_ne_zero {x bit : UInt64} (flag : bit.toNat = 2 ^ d) :
    x &&& bit ≠ 0 ↔ x.toNat.testBit d = true := by
  have bits : (x &&& bit).toNat = (x.toNat.testBit d).toNat * 2 ^ d := by
    rw [UInt64.toNat_and, flag, Nat.and_two_pow]
  rw [← not_iff_not, not_not, ← UInt64.toNat_inj, bits, UInt64.toNat_zero]
  cases x.toNat.testBit d with
  | false => simp
  | true => simp

structure Leaving (it : Iterator) (d base : Nat) (parent : UInt64) : Prop where
  parent : it.parentNode = parent
  base : it.base.toNat = base
  bit : it.currentBit.toNat = 2 ^ d % 2 ^ 64

theorem findNext_climb {p q : UInt64} {low high : Node} (shaped : Shaped 64 0 root)
    (nodup : root.addresses.Nodup) (above : Spot root (d + 1) base parent (.inner p q low high) rest)
    {it : Iterator} (leaving : Leaving it d (base + 2 ^ d) p) (fuel : Nat) :
    ∃ it', findNextTrueNode root (fuel + 1) it = findNextTrueNode root fuel it' ∧
      Leaving it' (d + 1) base parent := by
  have placed := above.placed shaped nodup
  have deep := placed.deep
  have flag : it.currentBit.toNat = 2 ^ d := leaving.bit.trans (two_pow_mod deep)
  have found : root.at it.parentNode = some (.inner p parent low high) := by
    rw [leaving.parent, placed.lookup]
  have real : it.parentNode ≠ 0 := by
    rw [leaving.parent]
    exact placed.shaped.address
  have upper : it.base &&& it.currentBit ≠ 0 := by
    rw [and_flag_ne_zero flag, leaving.base]
    apply placed.aligned.testBit_upper
    exact ⟨le_rfl, Nat.lt_add_of_pos_right (Nat.two_pow_pos d)⟩
  refine ⟨{ it with
    base := it.base ^^^ it.currentBit
    currentBit := it.currentBit <<< 1
    node := .inner p parent low high
    parentNode := parent }, ?_, rfl, ?_, ?_⟩
  · simp only [findNextTrueNode, real, if_false, found, upper, ne_eq, not_false_eq_true, if_true]
  · show (it.base ^^^ it.currentBit).toNat = base
    rw [UInt64.toNat_xor, leaving.base, flag, placed.aligned.xor_upper]
  · show (it.currentBit <<< 1).toNat = 2 ^ (d + 1) % 2 ^ 64
    rw [UInt64.toNat_shiftLeft, flag, show UInt64.toNat 1 % 64 = 1 from rfl, Nat.shiftLeft_eq,
      Nat.pow_one, Nat.pow_succ 2 d]

theorem findNext_spot (shaped : Shaped 64 0 root) (nodup : root.addresses.Nodup)
    (spot : Spot root d base parent node rest) {it : Iterator} (leaving : Leaving it d base parent)
    {fuel : Nat} (enough : 2 * (64 - d) < fuel) :
    (rest = [] → ∃ it', findNextTrueNode root fuel it = .ok (false, it')) ∧
      ∀ leaf more, rest = leaf :: more →
        ∃ it', findNextTrueNode root fuel it = .ok (true, it') ∧ Begins root it' leaf more := by
  induction spot generalizing it fuel with
  | root =>
      obtain ⟨fuel, rfl⟩ := Nat.exists_eq_add_one_of_ne_zero (Nat.ne_zero_of_lt enough)
      refine ⟨fun _ => ⟨it, ?_⟩, nofun⟩
      simp [findNextTrueNode, leaving.parent]
  | @one d base parent p q low high rest above ih =>
      have bound := (above.placed shaped nodup).bound
      obtain ⟨fuel, rfl⟩ := Nat.exists_eq_add_one_of_ne_zero (Nat.ne_zero_of_lt enough)
      obtain ⟨it', climbs, leaving'⟩ := findNext_climb shaped nodup above leaving fuel
      rw [climbs]
      have deep := (above.placed shaped nodup).deep
      exact ih leaving' (by omega)
  | @zero d base parent p q low high rest above ih =>
      have placed := above.placed shaped nodup
      obtain ⟨fuel, rfl⟩ := Nat.exists_eq_add_one_of_ne_zero (Nat.ne_zero_of_lt enough)
      have deep := placed.deep
      have flag : it.currentBit.toNat = 2 ^ d := leaving.bit.trans (two_pow_mod deep)
      have found : root.at it.parentNode = some (.inner p parent low high) := by
        rw [leaving.parent, placed.lookup]
      have real : it.parentNode ≠ 0 := by
        rw [leaving.parent]
        exact placed.shaped.address
      have clear : it.base.toNat.testBit d = false := by
        rw [leaving.base]
        apply placed.aligned.testBit_lower
        exact ⟨le_rfl, Nat.lt_add_of_pos_right (Nat.two_pow_pos d)⟩
      have lower : ¬it.base &&& it.currentBit ≠ 0 := by
        rw [and_flag_ne_zero flag, clear]
        exact Bool.false_ne_true
      have flipped : (it.base ^^^ it.currentBit).toNat = base + 2 ^ d := by
        rw [UInt64.toNat_xor, flag, xor_two_pow clear, leaving.base]
      simp only [findNextTrueNode, real, if_false, found, lower]
      cases first : high.leaves d (base + 2 ^ d) with
      | nil =>
          simp only [findTrue_none first, Bool.false_eq_true, if_false, List.nil_append]
          obtain ⟨fuel, rfl⟩ := Nat.exists_eq_add_one_of_ne_zero (show fuel ≠ 0 by omega)
          have turned : Leaving { it with base := it.base ^^^ it.currentBit, node := high } d
              (base + 2 ^ d) p := ⟨leaving.parent, flipped, leaving.bit⟩
          obtain ⟨it', climbs, leaving'⟩ := findNext_climb shaped nodup above turned fuel
          rw [climbs]
          exact ih leaving' (by omega)
      | cons head tail =>
          obtain ⟨it', hit, begins⟩ := findTrue_some shaped nodup above.one first flipped leaving.bit
            { it with base := it.base ^^^ it.currentBit, node := high }
          rw [← leaving.parent] at hit
          refine ⟨nofun, ?_⟩
          intro leaf more same
          rw [List.cons_append, List.cons.injEq] at same
          obtain ⟨rfl, rfl⟩ := same
          simp only [hit, if_true]
          exact ⟨it', rfl, begins⟩

end Find

end Lotto.AddressBdd
