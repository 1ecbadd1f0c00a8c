import Mathlib.Data.List.Range
import Lotto.BddIteration

namespace Lotto.AddressBdd

open Library.FaultRun Library.Ownership Library.Dyadic Marshal MarshalSpecs

inductive Iterates (root : Node) : Iterator → List UInt64 → Prop
  | stop {it it' : Iterator} (next : iteratorNext root it = .ok (0, it')) : Iterates root it []
  | yield {it it' : Iterator} {address : UInt64} {later : List UInt64}
      (next : iteratorNext root it = .ok (address, it')) (real : address ≠ 0)
      (rest : Iterates root it' later) : Iterates root it (address :: later)

theorem Iterates.unique {root : Node} {it : Iterator} {l l' : List UInt64} (first : Iterates root it l)
    (second : Iterates root it l') : l = l' := by
  induction first generalizing l' with
  | stop next =>
      cases second with
      | stop => rfl
      | yield next' real =>
          rw [next] at next'
          cases next'
          exact absurd rfl real
  | yield next real _ ih =>
      cases second with
      | stop next' =>
          rw [next] at next'
          cases next'
          exact absurd rfl real
      | yield next' _ rest' =>
          rw [next] at next'
          cases next'
          rw [ih rest']

theorem sizeLoop_iterates {root : Node} {it : Iterator} {l : List UInt64} (iterates : Iterates root it l)
    {fuel : Nat} (enough : l.length < fuel) (result : UInt64) :
    sizeLoop root fuel it result = .ok (result + .ofNat l.length) := by
  induction iterates generalizing fuel result with
  | stop next =>
      obtain ⟨fuel, rfl⟩ := Nat.exists_eq_add_one_of_ne_zero (Nat.ne_zero_of_lt enough)
      simp [sizeLoop, next]
  | @yield it it' address later next real _ ih =>
      obtain ⟨fuel, rfl⟩ := Nat.exists_eq_add_one_of_ne_zero (Nat.ne_zero_of_lt enough)
      have left : later.length < fuel := Nat.lt_of_succ_lt_succ enough
      have count : result + 1 + UInt64.ofNat later.length = result + .ofNat (later.length + 1) := by
        rw [UInt64.ofNat_add, UInt64.add_assoc, UInt64.add_comm 1]
        rfl
      simp only [sizeLoop, next, ok_bind, real, ne_eq, not_false_eq_true, if_true, ih left,
        List.length_cons, count]

section Yields

/-- `UINTPTR_MAX`. -/
def lastNumber : Nat := 2 ^ 64 - 1

def Leaf.yields (leaf : Leaf) : List Nat :=
  leaf.base :: (List.range' (leaf.base + 1) (2 ^ leaf.level - 1)).filter (· ≠ lastNumber)

variable {root : Node} {it : Iterator} {leaf : Leaf} {rest : List Leaf} {d base : Nat}
  {parent : UInt64}

theorem lastAddress_toNat : lastAddress.toNat = lastNumber := by decide

theorem next_within {o : Nat} (here : AtLeaf root it leaf rest) (offset : it.offset.toNat = o)
    (inside : o < 2 ^ leaf.level) (bound : leaf.base + 2 ^ leaf.level ≤ 2 ^ 64)
    (nonzero : leaf.base = 0 → 0 < o) (other : leaf.base + o ≠ lastNumber) :
    ∃ it', iteratorNext root it = .ok (.ofNat (leaf.base + o), it') ∧ AtLeaf root it' leaf rest ∧
      it'.offset.toNat = o + 1 := by
  rw [lastNumber] at other
  have sum : (it.base + it.offset).toNat = leaf.base + o := by
    rw [UInt64.toNat_add, here.base, offset, Nat.mod_eq_of_lt (by omega)]
  have open_ : it.base + it.offset ≠ lastAddress := by
    intro same
    rw [same, lastAddress_toNat] at sum
    exact other sum.symm
  have stays : it.offset ≠ it.currentBit := by
    intro same
    have flag := here.bit
    rw [← same, offset] at flag
    rcases Nat.lt_or_ge (2 ^ leaf.level) (2 ^ 64) with small | whole
    · rw [Nat.mod_eq_of_lt small] at flag
      omega
    · have full : 2 ^ leaf.level = 2 ^ 64 := by omega
      rw [full, Nat.mod_self] at flag
      have positive := nonzero (by omega)
      omega
  have value : it.base + it.offset = .ofNat (leaf.base + o) := by
    rw [← sum, UInt64.ofNat_toNat]
  refine ⟨{ it with offset := it.offset + 1 }, ?_, ⟨here.spot, here.node, here.base, here.bit⟩, ?_⟩
  · have leafNode : it.node.same (.terminal true) = true := by
      rw [here.node]
      rfl
    rw [iteratorNext, if_neg open_, if_neg stays]
    simp only [ok_bind, Bool.not_true, Bool.false_eq_true, if_false, leafNode, check_true, value]
  · show (it.offset + 1).toNat = o + 1
    rw [UInt64.toNat_add, offset, show UInt64.toNat 1 = 1 from rfl, Nat.mod_eq_of_lt (by omega)]

theorem next_last (sum : (it.base + it.offset).toNat = lastNumber) : Iterates root it [] := by
  have same : it.base + it.offset = lastAddress := by
    rw [← UInt64.toNat_inj, sum, lastAddress_toNat]
  apply Iterates.stop
  rw [iteratorNext, if_pos same]

/-- The addresses of a leaf are returned, up to the last address, and then what comes after it. -/
theorem iterates_within {k o : Nat} (here : AtLeaf root it leaf rest) (offset : it.offset.toNat = o)
    (left : o + k = 2 ^ leaf.level) (bound : leaf.base + 2 ^ leaf.level ≤ 2 ^ 64)
    (nonzero : leaf.base = 0 → 0 < o) {later : List UInt64}
    (final : leaf.base + 2 ^ leaf.level = 2 ^ 64 → later = [])
    (leave : ∀ it, AtLeaf root it leaf rest → it.offset.toNat = 2 ^ leaf.level →
      Iterates root it later) :
    Iterates root it
      (((List.range' (leaf.base + o) k).filter (· ≠ lastNumber)).map UInt64.ofNat ++ later) := by
  induction k generalizing o it with
  | zero => exact leave it here (offset.trans left)
  | succ k ih =>
      by_cases last : leaf.base + o = lastNumber
      · have sum : (it.base + it.offset).toNat = lastNumber := by
          rw [UInt64.toNat_add, here.base, offset, last]
          rfl
        rw [lastNumber] at last
        obtain rfl : k = 0 := by omega
        rw [final (by omega)]
        have none : (List.range' (leaf.base + o) 1).filter (· ≠ lastNumber) = [] := by
          simp [last, lastNumber]
        rw [none]
        exact next_last sum
      · obtain ⟨it', next, here', offset'⟩ := next_within here offset (by omega) bound nonzero last
        have rest := ih here' offset' (by omega) fun _ => o.succ_pos
        have some : decide (leaf.base + o ≠ lastNumber) = true := decide_eq_true last
        rw [List.range'_succ, List.filter_cons_of_pos (p := fun x => decide (x ≠ lastNumber)) some]
        apply Iterates.yield next _ rest
        intro zero
        have small : leaf.base + o < 2 ^ 64 := by omega
        rw [← UInt64.toNat_inj, UInt64.toNat_ofNat_of_lt' small, UInt64.toNat_zero] at zero
        have positive := nonzero (by omega)
        omega

theorem next_leaf (shaped : Shaped 64 0 root) (nodup : root.addresses.Nodup)
    (here : AtLeaf root it leaf rest) (offset : it.offset.toNat = 2 ^ leaf.level)
    (bound : leaf.base + 2 ^ leaf.level ≤ 2 ^ 64) (other : leaf.base + 2 ^ leaf.level ≠ lastNumber) :
    (rest = [] → Iterates root it []) ∧
      ∀ next more, rest = next :: more →
        ∃ it', iteratorNext root it = .ok (.ofNat next.base, it') ∧ AtLeaf root it' next more ∧
          it'.offset.toNat = 1 := by
  rw [lastNumber] at other
  have small : 2 ^ leaf.level < 2 ^ 64 := by
    rw [← offset]
    exact it.offset.toNat_lt
  have open_ : it.base + it.offset ≠ lastAddress := by
    intro same
    have sum := congrArg UInt64.toNat same
    rw [UInt64.toNat_add, here.base, offset, lastAddress_toNat, lastNumber] at sum
    omega
  have ends : it.offset = it.currentBit := by
    rw [← UInt64.toNat_inj, offset, here.bit, Nat.mod_eq_of_lt small]
  have leaving : Leaving it leaf.level leaf.base it.parentNode := ⟨rfl, here.base, here.bit⟩
  have moves := findNext_spot shaped nodup here.spot leaving (show 2 * (64 - leaf.level) < 130 by omega)
  constructor
  · intro empty
    obtain ⟨it', found⟩ := moves.1 empty
    apply Iterates.stop
    rw [iteratorNext, if_neg open_, if_pos ends, found]
    rfl
  · intro next more same
    obtain ⟨it', found, begins⟩ := moves.2 next more same
    have after := (here.spot.placed shaped nodup).after next (same ▸ List.mem_cons_self)
    have positive := Nat.two_pow_pos leaf.level
    have start : it'.offset.toNat = 0 := begins.offset.trans (if_neg (by omega))
    have value : it'.base + it'.offset = .ofNat next.base := by
      rw [← UInt64.toNat_inj, UInt64.toNat_add, start, begins.here.base, Nat.add_zero, ← begins.here.base,
        UInt64.ofNat_toNat, Nat.mod_eq_of_lt it'.base.toNat_lt]
    have leafNode : it'.node.same (.terminal true) = true := by
      rw [begins.here.node]
      rfl
    refine ⟨{ it' with offset := it'.offset + 1 }, ?_,
      ⟨begins.here.spot, begins.here.node, begins.here.base, begins.here.bit⟩, ?_⟩
    · rw [iteratorNext, if_neg open_, if_pos ends, found]
      simp only [ok_bind, Bool.not_true, Bool.false_eq_true, if_false, leafNode, check_true, value]
    · show (it'.offset + 1).toNat = 1
      rw [UInt64.toNat_add, start]
      rfl

theorem leaf_of_single {next : Leaf} (first : lastNumber ≤ next.base)
    (last : next.base + 2 ^ next.level ≤ 2 ^ 64) : next = ⟨lastNumber, 0⟩ := by
  have positive := Nat.two_pow_pos next.level
  rw [lastNumber] at first ⊢
  have single : 2 ^ next.level = 1 := by omega
  have level : next.level = 0 := by
    by_contra some
    have double : 2 ^ 1 ≤ 2 ^ next.level := Nat.pow_le_pow_right Nat.two_pos (Nat.pos_of_ne_zero some)
    omega
  obtain ⟨base, level'⟩ := next
  simp only at level positive first last
  subst level
  rw [Nat.pow_zero] at last
  congr
  omega

theorem leaf_end_ne_last (shaped : Shaped 64 0 root) (nodup : root.addresses.Nodup) {next : Leaf}
    {more : List Leaf} (spot : Spot root d base parent (.terminal true) (next :: more)) :
    base + 2 ^ d ≠ lastNumber := by
  intro ends
  have after := (spot.placed shaped nodup).after next List.mem_cons_self
  rw [ends] at after
  have single := leaf_of_single after.1 after.2
  have leaves := spot.suffix.subset
  have member : ⟨lastNumber - 1 + 1, 0⟩ ∈ root.leaves 64 0 := by
    rw [show lastNumber - 1 + 1 = lastNumber by decide, ← single]
    exact leaves (List.mem_append_right _ List.mem_cons_self)
  have clear := before_odd_leaf shaped.fits shaped.reduced (aligned_zero 64) (by decide) member (by decide)
  have own : ⟨base, d⟩ ∈ root.leaves 64 0 :=
    leaves (List.mem_append_left _ (List.mem_singleton_self _))
  have positive := Nat.two_pow_pos d
  have inside : lastNumber - 1 ∈ (Leaf.mk base d).numbers := by
    rw [mem_numbers, ← ends]
    show base ≤ base + 2 ^ d - 1 ∧ base + 2 ^ d - 1 < base + 2 ^ d
    omega
  have set := (mem_leaves_iff shaped.fits (aligned_zero 64) _).mp ⟨_, own, inside⟩
  rw [clear.2] at set
  exact Bool.false_ne_true set.2

theorem iterates_rest (shaped : Shaped 64 0 root) (nodup : root.addresses.Nodup)
    (here : AtLeaf root it leaf rest) (offset : it.offset.toNat = 2 ^ leaf.level) :
    Iterates root it ((rest.flatMap Leaf.yields).map UInt64.ofNat) := by
  induction rest generalizing leaf it with
  | nil =>
      have placed := here.spot.placed shaped nodup
      by_cases last : leaf.base + 2 ^ leaf.level = lastNumber
      · apply next_last
        rw [UInt64.toNat_add, here.base, offset, last]
        rfl
      · exact (next_leaf shaped nodup here offset placed.bound last).1 rfl
  | cons next more ih =>
      have placed := here.spot.placed shaped nodup
      have other := leaf_end_ne_last shaped nodup here.spot
      obtain ⟨it', found, here', offset'⟩ :=
        (next_leaf shaped nodup here offset placed.bound other).2 next more rfl
      have placed' := here'.spot.placed shaped nodup
      have after := placed.after next List.mem_cons_self
      have positive := Nat.two_pow_pos leaf.level
      have positive' := Nat.two_pow_pos next.level
      have nonzero : next.base ≠ 0 := by omega
      have within := iterates_within (k := 2 ^ next.level - 1) here' offset' (by omega) placed'.bound
        (fun zero => absurd zero nonzero)
        (fun ends => by
          cases more with
          | nil => rfl
          | cons third others =>
              have beyond := placed'.after third List.mem_cons_self
              have positive'' := Nat.two_pow_pos third.level
              omega)
        fun it done offset => ih done offset
      rw [List.flatMap_cons, Leaf.yields, List.cons_append, List.map_cons, List.map_append]
      apply Iterates.yield found _ within
      intro zero
      have small : next.base < 2 ^ 64 := by omega
      rw [← UInt64.toNat_inj, UInt64.toNat_ofNat_of_lt' small, UInt64.toNat_zero] at zero
      exact nonzero zero

def yields : List Leaf → List Nat
  | [] => []
  | leaf :: rest =>
      leaf.numbers.filter (fun x => x ≠ 0 ∧ x ≠ lastNumber) ++ rest.flatMap Leaf.yields

theorem numbers_filter (leaf : Leaf) :
    leaf.numbers.filter (fun x => x ≠ 0 ∧ x ≠ lastNumber) =
      (List.range' (leaf.base + if leaf.base = 0 then 1 else 0)
        (2 ^ leaf.level - if leaf.base = 0 then 1 else 0)).filter (· ≠ lastNumber) := by
  rw [Leaf.numbers]
  by_cases zero : leaf.base = 0
  · obtain ⟨n, count⟩ := Nat.exists_eq_add_one_of_ne_zero (Nat.two_pow_pos leaf.level).ne'
    rw [if_pos zero, zero, count, List.range'_succ, Nat.add_sub_cancel, List.filter_cons_of_neg (by simp)]
    apply List.filter_congr
    intro x member
    have positive := (List.mem_range'_1.mp member).1
    simp [Nat.ne_of_gt positive]
  · rw [if_neg zero, Nat.add_zero, Nat.sub_zero]
    apply List.filter_congr
    intro x member
    have low := (List.mem_range'_1.mp member).1
    have nonzero : x ≠ 0 := by omega
    simp [nonzero]

theorem iterator_yields {bdd : Bdd} (shaped : Shaped 64 0 bdd.root) (nodup : bdd.root.addresses.Nodup) :
    Iterates bdd.root bdd.iterator ((yields (bdd.root.leaves 64 0)).map UInt64.ofNat) := by
  cases leaves : bdd.root.leaves 64 0 with
  | nil =>
      apply next_last
      simp only [Bdd.iterator, findTrue_none leaves, Bool.false_eq_true, if_false]
      rfl
  | cons leaf rest =>
      obtain ⟨it, found, begins⟩ := findTrue_some shaped nodup .root leaves
        (show UInt64.toNat 0 = 0 from rfl) (show UInt64.toNat 0 = 2 ^ 64 % 2 ^ 64 from rfl)
        { node := bdd.root, parentNode := 0, currentBit := 0, offset := 0, base := 0 }
      rw [List.append_nil] at begins
      have placed := begins.here.spot.placed shaped nodup
      have positive := Nat.two_pow_pos leaf.level
      have started : bdd.iterator = it := by
        simp only [Bdd.iterator, found, if_true]
      rw [started, yields, List.map_append, numbers_filter]
      apply iterates_within begins.here begins.offset _ placed.bound
      · intro zero
        rw [if_pos zero]
        exact Nat.one_pos
      · intro ends
        cases rest with
        | nil => rfl
        | cons next more =>
            have beyond := placed.after next List.mem_cons_self
            have positive' := Nat.two_pow_pos next.level
            omega
      · exact fun it done offset => iterates_rest shaped nodup done offset
      · split <;> omega

end Yields

section Exactness

def wanted (leaves : List Leaf) : List Nat :=
  (leaves.flatMap Leaf.numbers).filter fun x => x ≠ 0 ∧ x ≠ lastNumber

/-- The iterator returns the members of the set but the two sentinels, in their order, and
`address_bdd_size` returns how many they are. -/
def Exact (bdd : Bdd) : Prop :=
  ∃ l, Iterates bdd.root bdd.iterator l ∧ l.Pairwise (· < ·) ∧
    (∀ x, x ∈ l ↔ x ∈ bdd.contents ∧ x ≠ 0 ∧ x ≠ lastAddress) ∧
    ∃ n, bdd.size = .ok n ∧ n.toNat = l.length

/-- If the last address is a member, so is the one before it, or there is no other member. -/
def LastJoined (s : Set UInt64) : Prop :=
  lastAddress ∈ s → lastAddress - 1 ∈ s ∨ ∀ x ∈ s, x = lastAddress

variable {root : Node} {bdd : Bdd} {leaf : Leaf} {leaves rest : List Leaf}

theorem yields_of_ne (zero : leaf.base ≠ 0) (last : leaf.base ≠ lastNumber) :
    leaf.yields = leaf.numbers.filter fun x => x ≠ 0 ∧ x ≠ lastNumber := by
  obtain ⟨n, count⟩ := Nat.exists_eq_add_one_of_ne_zero (Nat.two_pow_pos leaf.level).ne'
  rw [Leaf.yields, Leaf.numbers, count, Nat.add_sub_cancel, List.range'_succ,
    List.filter_cons_of_pos (by simp [zero, last])]
  congr 1
  apply List.filter_congr
  intro x member
  have low := (List.mem_range'_1.mp member).1
  have nonzero : x ≠ 0 := by omega
  simp [nonzero]

theorem yields_eq_wanted (zero : ∀ leaf ∈ rest, leaf.base ≠ 0)
    (last : ∀ leaf ∈ rest, leaf.base ≠ lastNumber) : yields (leaf :: rest) = wanted (leaf :: rest) := by
  rw [yields, wanted, List.flatMap_cons, List.filter_append]
  congr 1
  induction rest with
  | nil => rfl
  | cons next more ih =>
      rw [List.forall_mem_cons] at zero last
      rw [List.flatMap_cons, List.flatMap_cons, List.filter_append, yields_of_ne zero.1 last.1,
        ih zero.2 last.2]

theorem wanted_sorted (fits : root.Fits 64) : (wanted (root.leaves 64 0)).Pairwise (· < ·) := by
  apply List.Pairwise.filter
  rw [List.pairwise_flatMap]
  refine ⟨fun leaf _ => List.pairwise_lt_range', ?_⟩
  apply (leaves_ordered fits (aligned_zero 64)).imp
  intro a b before x inside y after
  exact (mem_numbers.mp inside).2.trans_le (before.trans (mem_numbers.mp after).1)

theorem mem_wanted (fits : root.Fits 64) (x : Nat) :
    x ∈ wanted (root.leaves 64 0) ↔
      (x < 2 ^ 64 ∧ root.holds 64 x = true) ∧ x ≠ 0 ∧ x ≠ lastNumber := by
  rw [wanted, List.mem_filter, List.mem_flatMap, mem_leaves_iff fits (aligned_zero 64),
    decide_eq_true_iff, Inside, Nat.zero_add, and_iff_right (Nat.zero_le x)]

theorem length_wanted (fits : root.Fits 64) : (wanted (root.leaves 64 0)).length < 2 ^ 64 := by
  have nodup : (wanted (root.leaves 64 0)).Nodup := (wanted_sorted fits).imp Nat.ne_of_lt
  have within : wanted (root.leaves 64 0) ⊆ List.range' 1 (2 ^ 64 - 1) := by
    intro x member
    have bounds := (mem_wanted fits x).mp member
    rw [List.mem_range'_1]
    omega
  have short := (List.subperm_of_subset nodup within).length_le
  rw [List.length_range'] at short
  omega

theorem exact_of_yields (shaped : Shaped 64 0 bdd.root) (nodup : bdd.root.addresses.Nodup)
    (same : yields (bdd.root.leaves 64 0) = wanted (bdd.root.leaves 64 0)) : Exact bdd := by
  have iterates := iterator_yields shaped nodup
  rw [same] at iterates
  have short := length_wanted shaped.fits
  refine ⟨_, iterates, ?_, ?_, .ofNat (wanted (bdd.root.leaves 64 0)).length, ?_, ?_⟩
  · rw [List.pairwise_map]
    apply (wanted_sorted shaped.fits).imp_of_mem
    intro x y low high below
    have small := ((mem_wanted shaped.fits x).mp low).1.1
    have small' := ((mem_wanted shaped.fits y).mp high).1.1
    rw [UInt64.lt_iff_toNat_lt, UInt64.toNat_ofNat_of_lt' small, UInt64.toNat_ofNat_of_lt' small']
    exact below
  · intro x
    have zero : x ≠ 0 ↔ x.toNat ≠ 0 := not_congr UInt64.toNat_inj.symm
    have last : x ≠ lastAddress ↔ x.toNat ≠ lastNumber := by
      rw [← lastAddress_toNat]
      exact not_congr UInt64.toNat_inj.symm
    rw [zero, last, mem_contents, List.mem_map]
    constructor
    · rintro ⟨y, member, rfl⟩
      have known := (mem_wanted shaped.fits y).mp member
      rw [UInt64.toNat_ofNat_of_lt' known.1.1]
      exact ⟨known.1.2, known.2⟩
    · rintro ⟨holds, known⟩
      exact ⟨x.toNat, (mem_wanted shaped.fits _).mpr ⟨⟨x.toNat_lt, holds⟩, known⟩, UInt64.ofNat_toNat⟩
  · rw [Bdd.size, sizeLoop_iterates iterates]
    · rw [UInt64.zero_add, List.length_map]
    · rw [List.length_map]
      exact short
  · rw [UInt64.toNat_ofNat_of_lt' short, List.length_map]

theorem later_within (shaped : Shaped 64 0 root) (split : root.leaves 64 0 = leaf :: rest) {next : Leaf}
    (member : next ∈ rest) :
    leaf.base + 2 ^ leaf.level ≤ next.base ∧ next.base + 2 ^ next.level ≤ 2 ^ 64 := by
  have ordered := leaves_ordered shaped.fits (aligned_zero 64)
  have inside : next ∈ root.leaves 64 0 := split ▸ List.mem_cons_of_mem leaf member
  have within := leaves_within shaped.fits (aligned_zero 64) inside
  rw [split, List.pairwise_cons] at ordered
  exact ⟨ordered.1 next member, by simpa using within.last⟩

theorem leaf_of_member (shaped : Shaped 64 0 bdd.root) {x : UInt64} (member : x ∈ bdd.contents) :
    ∃ leaf ∈ bdd.root.leaves 64 0, x.toNat ∈ leaf.numbers :=
  (mem_leaves_iff shaped.fits (aligned_zero 64) _).mpr ⟨inside_whole x, member⟩

theorem member_of_leaf (shaped : Shaped 64 0 bdd.root) {x : UInt64} (member : leaf ∈ bdd.root.leaves 64 0)
    (inside : x.toNat ∈ leaf.numbers) : x ∈ bdd.contents :=
  ((mem_leaves_iff shaped.fits (aligned_zero 64) _).mp ⟨leaf, member, inside⟩).2

/-- The last address is a leaf of its own after other leaves, if and only if it is a member, the one
before it is not, and there are others. -/
theorem later_last_iff (shaped : Shaped 64 0 bdd.root) (split : bdd.root.leaves 64 0 = leaf :: rest) :
    (∃ next ∈ rest, next.base = lastNumber) ↔ ¬LastJoined bdd.contents := by
  constructor
  · rintro ⟨next, member, last⟩ joined
    have bounds := later_within shaped split member
    have single := leaf_of_single last.ge bounds.2
    subst single
    have inside : ⟨lastNumber, 0⟩ ∈ bdd.root.leaves 64 0 := split ▸ List.mem_cons_of_mem leaf member
    have here : lastAddress ∈ bdd.contents := by
      apply member_of_leaf shaped inside
      rw [mem_numbers, lastAddress_toNat]
      exact ⟨le_rfl, by decide⟩
    rcases joined here with before | alone
    · have odd : ⟨lastNumber - 1 + 1, 0⟩ ∈ bdd.root.leaves 64 0 := inside
      have clear := before_odd_leaf shaped.fits shaped.reduced (aligned_zero 64) (by decide) odd (by decide)
      have set := mem_contents.mp before
      rw [show (lastAddress - 1).toNat = lastNumber - 1 by decide, clear.2] at set
      exact Bool.false_ne_true set
    · have positive := Nat.two_pow_pos leaf.level
      have bound : leaf.base + 2 ^ leaf.level ≤ lastNumber := bounds.1
      have small : leaf.base < 2 ^ 64 := by
        rw [lastNumber] at bound
        omega
      have first : UInt64.ofNat leaf.base ∈ bdd.contents := by
        apply member_of_leaf shaped (split ▸ List.mem_cons_self : leaf ∈ _)
        rw [mem_numbers, UInt64.toNat_ofNat_of_lt' small]
        omega
      have same := congrArg UInt64.toNat (alone _ first)
      rw [UInt64.toNat_ofNat_of_lt' small, lastAddress_toNat] at same
      omega
  · intro apart
    rw [LastJoined] at apart
    push Not at apart
    obtain ⟨here, before, x, other, differs⟩ := apart
    obtain ⟨next, member, inside⟩ := leaf_of_member shaped here
    have within := leaves_within shaped.fits (aligned_zero 64) member
    rw [mem_numbers, lastAddress_toNat] at inside
    have bound : next.base + 2 ^ next.level ≤ 2 ^ 64 := by simpa using within.last
    have base : next.base = lastNumber := by
      by_contra lower
      apply before
      apply member_of_leaf shaped member
      rw [mem_numbers, show (lastAddress - 1).toNat = lastNumber - 1 by decide]
      omega
    rw [split, List.mem_cons] at member
    rcases member with rfl | later
    · exfalso
      obtain ⟨leaf', member', inside'⟩ := leaf_of_member shaped other
      rw [mem_numbers] at inside'
      have small := x.toNat_lt
      have positive := Nat.two_pow_pos next.level
      rw [split, List.mem_cons] at member'
      have low : lastNumber ≤ x.toNat := by
        rcases member' with rfl | later
        · omega
        · have bounds := later_within shaped split later
          omega
      apply differs
      rw [← UInt64.toNat_inj, lastAddress_toNat]
      rw [lastNumber] at low ⊢
      omega
    · exact ⟨next, later, base⟩

theorem exact_iff (shaped : Shaped 64 0 bdd.root) (nodup : bdd.root.addresses.Nodup) :
    Exact bdd ↔ LastJoined bdd.contents := by
  cases split : bdd.root.leaves 64 0 with
  | nil =>
      apply iff_of_true
      · apply exact_of_yields shaped nodup
        rw [split]
        rfl
      · intro here
        obtain ⟨leaf, member, -⟩ := leaf_of_member shaped here
        rw [split] at member
        cases member
  | cons leaf rest =>
      rw [← not_iff_not, ← later_last_iff shaped split]
      constructor
      · intro inexact
        by_contra none
        push Not at none
        apply inexact
        apply exact_of_yields shaped nodup
        rw [split]
        apply yields_eq_wanted _ none
        intro next member
        have bounds := later_within shaped split member
        have positive := Nat.two_pow_pos leaf.level
        omega
      · rintro ⟨next, member, last⟩ ⟨l, iterates, -, members, -⟩
        have same := iterates.unique (iterator_yields shaped nodup)
        have returned : lastAddress ∈ l := by
          rw [same, List.mem_map]
          refine ⟨lastNumber, ?_, by decide⟩
          rw [split, yields, List.mem_append, List.mem_flatMap]
          right
          refine ⟨next, member, ?_⟩
          rw [Leaf.yields, last]
          exact List.mem_cons_self
        exact ((members lastAddress).mp returned).2.2 rfl

end Exactness

/-- The iteration over a tree that calls have built is exact if and only if the last address is no
member that stands apart from others. -/
theorem iteration_exact_iff (a : Allocator) (maxDepth : Nat) (ops : List Op) (h h' : Memory) (bdd : Bdd)
    (built : build a maxDepth ops h = .ok (bdd, h')) : Exact bdd ↔ LastJoined bdd.contents := by
  obtain ⟨shaped, nodup⟩ := built_shaped built
  exact exact_iff shaped nodup

theorem lower_half_iterates :
    Exact ⟨.inner 4096 0 (.terminal true) (.terminal false), 1, (1 : UInt64) <<< (63 : UInt64)⟩ := by
  apply (iteration_exact_iff counting 1 [.set 4 8] ⟨∅, 0⟩ _ _ rfl).mpr
  intro here
  exact absurd (mem_contents.mp here) (by decide)

/-- The address 5 and the last one: the iterator returns the last one too. -/
theorem last_address_returned :
    ∃ bdd h', build counting 64 [.set 5 1, .set lastAddress 1] ⟨∅, 0⟩ = .ok (bdd, h') ∧ ¬Exact bdd := by
  have proper : ∀ op ∈ [Op.set 5 1, .set lastAddress 1], op.Proper := by
    simp only [List.forall_mem_cons]
    exact ⟨⟨by decide, by decide⟩, ⟨by decide, by decide⟩, nofun⟩
  have runs : (build counting 64 [.set 5 1, .set lastAddress 1] ⟨∅, 0⟩).isOk = true := by
    decide +kernel
  rcases build_keeps counting le_rfl [.set 5 1, .set lastAddress 1] ⟨∅, 0⟩ with
    stopped | ⟨⟨bdd, h'⟩, run, ⟨grown, same⟩, sound⟩
  · rw [stopped] at runs
    cases runs
  · refine ⟨bdd, h', run, ?_⟩
    have contents := same 0 (by decide) (by decide) proper
    rw [exact_iff grown.shaped sound.nodup, contents]
    intro joined
    have last : lastAddress ∈ described (2 ^ 0) [.set 5 1, .set lastAddress 1] := by
      right
      rw [mem_rounded]
      decide
    rcases joined last with before | alone
    · rcases before with (none | five) | last
      · exact none
      · rw [mem_rounded] at five
        exact absurd five (by decide)
      · rw [mem_rounded] at last
        exact absurd last (by decide)
    · have five : 5 ∈ described (2 ^ 0) [.set 5 1, .set lastAddress 1] := by
        left
        right
        rw [mem_rounded]
        decide
      exact absurd (alone 5 five) (by decide)

end Lotto.AddressBdd
