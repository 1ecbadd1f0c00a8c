import Lotto.Library.Dyadic
import Lotto.MarshalSpecs
import Lotto.AddressBdd

namespace Lotto.AddressBdd

open Library.FaultRun Library.Ownership Library.Dyadic Marshal MarshalSpecs

section Trees

def Node.holds : Node → Nat → Nat → Bool
  | .terminal v, _, _ => v
  | .inner _ _ zero one, d, x => if x.testBit (d - 1) then one.holds (d - 1) x else zero.holds (d - 1) x

def Node.addresses : Node → Multiset UInt64
  | .terminal _ => 0
  | .inner address _ zero one => {address} + (zero.addresses + one.addresses)

theorem mem_addresses (address link : UInt64) (zero one : Node) :
    address ∈ (Node.inner address link zero one).addresses :=
  Multiset.mem_add.mpr (.inl (Multiset.mem_singleton_self address))

def Node.Linked : Node → UInt64 → Prop
  | .terminal _, _ => True
  | .inner address link zero one, parent => link = parent ∧ zero.Linked address ∧ one.Linked address

def Node.Reduced : Node → Prop
  | .terminal _ => True
  | .inner _ _ zero one =>
      (∀ v, zero = .terminal v → one ≠ .terminal v) ∧ zero.Reduced ∧ one.Reduced

def Node.Fits : Node → Nat → Prop
  | .terminal _, _ => True
  | .inner _ _ zero one, d => 0 < d ∧ zero.Fits (d - 1) ∧ one.Fits (d - 1)

theorem Node.Fits.halves {d : Nat} {address link : UInt64} {zero one : Node}
    (fits : (Node.inner address link zero one).Fits d) :
    ∃ k, d = k + 1 ∧ zero.Fits k ∧ one.Fits k := by
  obtain ⟨positive, lower, upper⟩ := fits
  exact ⟨d - 1, (Nat.sub_add_cancel positive).symm, lower, upper⟩

structure Shaped (d : Nat) (parent : UInt64) (node : Node) : Prop where
  linked : node.Linked parent
  reduced : node.Reduced
  fits : node.Fits d
  named : 0 ∉ node.addresses

variable {d : Nat} {parent p q : UInt64} {low high : Node}

theorem shaped_terminal (d : Nat) (parent : UInt64) (v : Bool) : Shaped d parent (.terminal v) :=
  ⟨trivial, trivial, trivial, Multiset.notMem_zero 0⟩

theorem Shaped.zero (shaped : Shaped (d + 1) parent (.inner p q low high)) :
    Shaped d p low :=
  ⟨shaped.linked.2.1, shaped.reduced.2.1, shaped.fits.2.1,
    fun inside => shaped.named (Multiset.mem_add.mpr (.inr (Multiset.mem_add.mpr (.inl inside))))⟩

theorem Shaped.one (shaped : Shaped (d + 1) parent (.inner p q low high)) :
    Shaped d p high :=
  ⟨shaped.linked.2.2, shaped.reduced.2.2, shaped.fits.2.2,
    fun inside => shaped.named (Multiset.mem_add.mpr (.inr (Multiset.mem_add.mpr (.inr inside))))⟩

theorem Shaped.address (shaped : Shaped d parent (.inner p q low high)) : p ≠ 0 := by
  rintro rfl
  exact shaped.named (mem_addresses 0 q low high)

theorem Shaped.link (shaped : Shaped d parent (.inner p q low high)) : q = parent :=
  shaped.linked.1

theorem Shaped.node (real : p ≠ 0) (lower : Shaped d p low) (upper : Shaped d p high)
    (differ : ∀ v, low = .terminal v → high ≠ .terminal v) :
    Shaped (d + 1) parent (.inner p parent low high) where
  linked := ⟨rfl, lower.linked, upper.linked⟩
  reduced := ⟨differ, lower.reduced, upper.reduced⟩
  fits := ⟨d.succ_pos, lower.fits, upper.fits⟩
  named := by
    rw [Node.addresses, Multiset.mem_add, Multiset.mem_add, Multiset.mem_singleton]
    rintro (same | inside | inside)
    · exact real same.symm
    · exact lower.named inside
    · exact upper.named inside

end Trees

section Levels

structure Level (d : Nat) (first last bit : UInt64) : Prop where
  aligned : Aligned d first.toNat
  last : last.toNat + 1 = first.toNat + 2 ^ d
  bit : bit.toNat = 2 ^ d / 2

variable {d : Nat} {first last bit : UInt64}

theorem level_whole : Level 64 0 lastAddress leadingOne := ⟨aligned_zero 64, by decide, by decide⟩

theorem Level.shift (level : Level (d + 1) first last bit) : (bit >>> 1).toNat = 2 ^ d / 2 := by
  rw [UInt64.toNat_shiftRight, level.bit, Nat.pow_succ, Nat.mul_div_cancel _ Nat.two_pos]
  exact Nat.shiftRight_eq_div_pow _ 1

theorem Level.flag (level : Level (d + 1) first last bit) : bit.toNat = 2 ^ d := by
  rw [level.bit, Nat.pow_succ, Nat.mul_div_cancel _ Nat.two_pos]

theorem Level.zero (level : Level (d + 1) first last bit) :
    Level d first (last ^^^ bit) (bit >>> 1) where
  aligned := level.aligned.lower
  last := by
    have positive := Nat.two_pow_pos d
    have whole : last.toNat = first.toNat + 2 ^ (d + 1) - 1 := by
      rw [← level.last, Nat.add_sub_cancel]
    rw [UInt64.toNat_xor, level.flag, whole, level.aligned.xor_last]
    omega
  bit := level.shift

theorem Level.first_one (level : Level (d + 1) first last bit) :
    (first ^^^ bit).toNat = first.toNat + 2 ^ d := by
  rw [UInt64.toNat_xor, level.flag, level.aligned.xor]

theorem Level.one (level : Level (d + 1) first last bit) :
    Level d (first ^^^ bit) last (bit >>> 1) where
  aligned := by
    rw [level.first_one]
    exact level.aligned.upper
  last := by
    rw [level.first_one, level.last, Nat.pow_succ]
    omega
  bit := level.shift

end Levels

section Set

variable {a : Allocator} {d : Nat} {parent : UInt64} {h : Memory}

theorem freeNode_handles {node : Node} (named : 0 ∉ node.addresses) (h : Memory) :
    Handles .outOfMemory ⟨h.live, node.addresses⟩ (freeNode node h) (fun h' => ⟨h'.live, 0⟩)
      fun _ => True := by
  induction node generalizing h with
  | terminal v => exact Handles.done rfl trivial
  | inner p q zero one zero_ih one_ih =>
      rw [Node.addresses, Multiset.mem_add, Multiset.mem_add, Multiset.mem_singleton, not_or,
        not_or] at named
      obtain ⟨real, low, high⟩ := named
      have order : {p} + (zero.addresses + one.addresses) =
          one.addresses + (zero.addresses + {p}) := by
        rw [add_comm, add_comm zero.addresses one.addresses, add_assoc]
      rw [freeNode, Node.addresses, order]
      apply ((one_ih high h).frame _).bind
      intro h _
      rw [Heap.frame, zero_add]
      apply ((zero_ih low h).frame {p}).bind
      intro h _
      rw [Heap.frame, zero_add, ← blockAt_pos (Ne.symm real)]
      exact free_handles p h

structure Opened (d : Nat) (parent : UInt64) (node opened : Node) (p : UInt64) (low high : Node) :
    Prop where
  split : opened = .inner p parent low high
  real : p ≠ 0
  lower : Shaped d p low
  upper : Shaped d p high
  same : ∀ x, opened.holds (d + 1) x = node.holds (d + 1) x

theorem nodeOpen_keeps {node : Node} (shaped : Shaped (d + 1) parent node) :
    Keeps .outOfMemory ⟨h.live, node.addresses⟩ (nodeOpen a parent node h)
      (fun r => ⟨r.2.live, r.1.addresses⟩)
      fun r => ∃ p low high, Opened d parent node r.1 p low high := by
  cases node with
  | terminal v =>
      rw [nodeOpen, nodeSplit]
      apply (malloc_handles a h).keeps.bind
      rintro ⟨p, h⟩ real
      refine Keeps.done ?_ ⟨p, .terminal v, .terminal v, rfl, real, shaped_terminal d p v,
        shaped_terminal d p v, ?_⟩
      · simp [Node.addresses, blockAt_pos real]
      · simp [Node.holds]
  | inner p q low high =>
      refine Keeps.done rfl ⟨p, low, high, ?_, shaped.address, shaped.zero, shaped.one, fun _ => rfl⟩
      rw [shaped.link]

theorem same_eq_false {low high : Node} (sound : Sound ⟨h.live, low.addresses + high.addresses⟩)
    (differ : ∀ v, low = .terminal v → high ≠ .terminal v) : low.same high = false := by
  cases low with
  | terminal v =>
      cases high with
      | terminal w =>
          have other : v ≠ w := by
            rintro rfl
            exact differ v rfl rfl
          exact beq_eq_false_iff_ne.mpr other
      | inner => rfl
  | inner p =>
      cases high with
      | terminal => rfl
      | inner q =>
          have other : p ≠ q := by
            rintro rfl
            have apart := Multiset.disjoint_of_nodup_add sound.nodup
            exact Multiset.disjoint_left.mp apart (mem_addresses p _ _ _) (mem_addresses p _ _ _)
          exact beq_eq_false_iff_ne.mpr other

theorem nodeMerge_keeps {p : UInt64} {low high : Node} (real : p ≠ 0) (lower : Shaped d p low)
    (upper : Shaped d p high) :
    Keeps .outOfMemory ⟨h.live, (Node.inner p parent low high).addresses⟩
      (nodeMerge p parent low high h) (fun r => ⟨r.2.live, r.1.addresses⟩)
      fun r => Shaped (d + 1) parent r.1 ∧
        ∀ x, r.1.holds (d + 1) x = (Node.inner p parent low high).holds (d + 1) x := by
  apply Keeps.assume
  intro sound
  by_cases equal : ∃ v, low = .terminal v ∧ high = .terminal v
  · obtain ⟨v, rfl, rfl⟩ := equal
    have same : (Node.terminal v).same (.terminal v) = true := beq_self_eq_true v
    have named : 0 ∉ (Node.inner p parent (.terminal v) (.terminal v)).addresses := by
      simpa [Node.addresses] using real.symm
    rw [nodeMerge, if_pos same]
    apply (freeNode_handles named h).keeps.bind
    intro h _
    refine Keeps.done rfl ⟨shaped_terminal _ _ v, ?_⟩
    intro x
    simp [Node.holds]
  · have differ : ∀ v, low = .terminal v → high ≠ .terminal v :=
      fun v left right => equal ⟨v, left, right⟩
    have parts : Sound ⟨h.live, low.addresses + high.addresses⟩ :=
      sound.of_le (Multiset.le_add_left _ _)
    rw [nodeMerge, same_eq_false parts differ]
    exact Keeps.done rfl ⟨.node real lower upper differ, fun _ => rfl⟩

def Updates (addrStart addrEnd : UInt64) (value : Bool) (d first : Nat) (node node' : Node) : Prop :=
  ∀ x, Inside d first x →
    node'.holds d x =
      if addrStart.toNat ≤ x ∧ x ≤ addrEnd.toNat then value else node.holds d x

theorem Level.inside {first last bit : UInt64} (level : Level d first last bit) {x : Nat} :
    Inside d first.toNat x ↔ first.toNat ≤ x ∧ x ≤ last.toNat := by
  rw [Inside, ← level.last, Nat.lt_succ_iff]

section Bounds

variable {addrStart addrEnd first last bit : UInt64} {value : Bool} {node : Node}

theorem updates_apart (level : Level d first last bit)
    (apart : (addrStart > last || addrEnd < first || node.same (.terminal value)) = true) :
    Updates addrStart addrEnd value d first.toNat node node := by
  intro x inside
  rw [level.inside] at inside
  rw [Bool.or_eq_true, Bool.or_eq_true, decide_eq_true_iff, decide_eq_true_iff, gt_iff_lt,
    UInt64.lt_iff_toNat_lt, UInt64.lt_iff_toNat_lt] at apart
  split
  · rename_i covered
    rcases apart with (right | left) | same
    · omega
    · omega
    · cases node with
      | terminal v => exact beq_iff_eq.mp same
      | inner => cases same
  · rfl

theorem updates_covered (level : Level d first last bit)
    (covered : (addrStart ≤ first && addrEnd ≥ last) = true) :
    Updates addrStart addrEnd value d first.toNat node (.terminal value) := by
  intro x inside
  rw [level.inside] at inside
  rw [Bool.and_eq_true, decide_eq_true_iff, decide_eq_true_iff, UInt64.le_iff_toNat_le, ge_iff_le,
    UInt64.le_iff_toNat_le] at covered
  rw [if_pos ⟨covered.1.trans inside.1, inside.2.trans covered.2⟩]
  rfl

theorem covers_single (level : Level 0 first last bit)
    (near : ¬(addrStart > last || addrEnd < first || node.same (.terminal value)) = true) :
    (addrStart ≤ first && addrEnd ≥ last) = true := by
  have single := level.last
  rw [Nat.pow_zero] at single
  simp only [Bool.or_eq_true, not_or, decide_eq_true_iff, gt_iff_lt, UInt64.not_lt,
    UInt64.le_iff_toNat_le] at near
  simp only [Bool.and_eq_true, decide_eq_true_iff, UInt64.le_iff_toNat_le, ge_iff_le]
  omega

end Bounds

theorem holds_low {p q : UInt64} {low high : Node} {first x : Nat} (aligned : Aligned (d + 1) first)
    (inside : Inside d first x) :
    (Node.inner p q low high).holds (d + 1) x = low.holds d x := by
  rw [Node.holds, Nat.add_sub_cancel, aligned.testBit_lower inside]
  rfl

theorem holds_high {p q : UInt64} {low high : Node} {first x : Nat} (aligned : Aligned (d + 1) first)
    (inside : Inside d (first + 2 ^ d) x) :
    (Node.inner p q low high).holds (d + 1) x = high.holds d x := by
  rw [Node.holds, Nat.add_sub_cancel, aligned.testBit_upper inside]
  rfl

theorem Updates.halves {addrStart addrEnd : UInt64} {value : Bool} {first : Nat} {p q : UInt64}
    {low high low' high' : Node} (aligned : Aligned (d + 1) first)
    (lower : Updates addrStart addrEnd value d first low low')
    (upper : Updates addrStart addrEnd value d (first + 2 ^ d) high high') :
    Updates addrStart addrEnd value (d + 1) first (.inner p q low high) (.inner p q low' high') := by
  intro x inside
  rcases inside.half with below | above
  · rw [holds_low aligned below, holds_low aligned below, lower x below]
  · rw [holds_high aligned above, holds_high aligned above, upper x above]

theorem setRange_keeps {addrStart addrEnd : UInt64} {value : Bool} {fuel : Nat} {node : Node}
    {first last bit : UInt64} (enough : d < fuel) (level : Level d first last bit)
    (shaped : Shaped d parent node) (h : Memory) :
    Keeps .outOfMemory ⟨h.live, node.addresses⟩
      (setRange a addrStart addrEnd value fuel parent node first last bit h)
      (fun r => ⟨r.2.live, r.1.addresses⟩)
      fun r => Shaped d parent r.1 ∧ Updates addrStart addrEnd value d first.toNat node r.1 := by
  induction fuel generalizing d parent node first last bit h with
  | zero => exact absurd enough (Nat.not_lt_zero d)
  | succ fuel ih =>
      rw [setRange]
      split
      · rename_i apart
        exact Keeps.done rfl ⟨shaped, updates_apart level apart⟩
      · rename_i near
        split
        · rename_i covered
          apply (freeNode_handles shaped.named h).keeps.bind
          intro h _
          exact Keeps.done rfl ⟨shaped_terminal d parent value, updates_covered level covered⟩
        · rename_i partly
          cases d with
          | zero => exact absurd (covers_single level near) partly
          | succ d =>
              have fits : d < fuel := Nat.lt_of_succ_lt_succ enough
              apply (nodeOpen_keeps shaped).bind
              rintro ⟨opened, h⟩ ⟨p, low, high, ⟨rfl, real, lower, upper, same⟩⟩
              have order : {p} + (low.addresses + high.addresses) =
                  low.addresses + ({p} + high.addresses) := add_left_comm _ _ _
              simp only [Node.addresses, order]
              apply ((ih fits level.zero lower h).frame _).bind
              rintro ⟨low', h⟩ ⟨lower', below⟩
              have order' : low'.addresses + ({p} + high.addresses) =
                  high.addresses + ({p} + low'.addresses) := by
                rw [add_left_comm, add_comm low'.addresses, add_left_comm]
              simp only [Heap.frame, order']
              apply ((ih fits level.one upper h).frame _).bind
              rintro ⟨high', h⟩ ⟨upper', above⟩
              rw [level.first_one] at above
              have order'' : high'.addresses + ({p} + low'.addresses) =
                  (Node.inner p parent low' high').addresses := by
                rw [Node.addresses, add_left_comm, add_comm high'.addresses]
              simp only [Heap.frame, order'']
              apply (nodeMerge_keeps real lower' upper').mono
              rintro r ⟨shaped', merged⟩
              refine ⟨shaped', ?_⟩
              intro x inside
              rw [merged, below.halves level.aligned above x inside, same]

end Set

end Lotto.AddressBdd
