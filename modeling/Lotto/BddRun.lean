import Mathlib.Data.Set.Basic
import Lotto.BddSpecs

namespace Lotto.AddressBdd

open Library.FaultRun Library.Ownership Library.Dyadic Marshal MarshalSpecs

inductive Op where
  | set (addr size : UInt64)
  | unset (addr size : UInt64)
  deriving DecidableEq, Repr

def Op.run (a : Allocator) (bdd : Bdd) (h : Memory) : Op → Except Fault (Bdd × Memory)
  | .set addr size => bdd.set a addr size h
  | .unset addr size => bdd.unset a addr size h

def runOps (a : Allocator) : List Op → Bdd → Memory → Except Fault (Bdd × Memory)
  | [], bdd, h => .ok (bdd, h)
  | op :: ops, bdd, h => do
      let (bdd, h) ← op.run a bdd h
      runOps a ops bdd h

def build (a : Allocator) (maxDepth : Nat) (ops : List Op) (h : Memory) : Except Fault (Bdd × Memory) := do
  let bdd ← Bdd.new maxDepth
  runOps a ops bdd h

section Sets

def span (addr size : UInt64) : Set UInt64 :=
  {x | addr.toNat ≤ x.toNat ∧ x.toNat < addr.toNat + size.toNat}

def rounded (unit : Nat) (addr size : UInt64) : Set UInt64 :=
  {x | addr.toNat / unit * unit ≤ x.toNat ∧
    x.toNat < (addr.toNat + size.toNat + unit - 1) / unit * unit}

def ProperRange (addr size : UInt64) : Prop := size ≠ 0 ∧ addr.toNat + size.toNat ≤ 2 ^ 64

def Op.Proper : Op → Prop
  | .set addr size => ProperRange addr size
  | .unset addr size => ProperRange addr size

def Op.apply (unit : Nat) (s : Set UInt64) : Op → Set UInt64
  | .set addr size => s ∪ rounded unit addr size
  | .unset addr size => s \ rounded unit addr size

def described (unit : Nat) (ops : List Op) : Set UInt64 := ops.foldl (Op.apply unit) ∅

def Bdd.contents (bdd : Bdd) : Set UInt64 := {x | bdd.root.holds 64 x.toNat = true}

theorem mem_contents {bdd : Bdd} {x : UInt64} :
    x ∈ bdd.contents ↔ bdd.root.holds 64 x.toNat = true := Iff.rfl

theorem mem_rounded {unit : Nat} {addr size x : UInt64} :
    x ∈ rounded unit addr size ↔ addr.toNat / unit * unit ≤ x.toNat ∧
      x.toNat < (addr.toNat + size.toNat + unit - 1) / unit * unit := Iff.rfl

end Sets

section Units

variable {maxDepth : Nat}

theorem unit_toNat (positive : 1 ≤ maxDepth) (bounded : maxDepth ≤ 64) :
    ((1 : UInt64) <<< UInt64.ofNat (64 - maxDepth)).toNat = 2 ^ (64 - maxDepth) := by
  have small : 64 - maxDepth < 64 := by omega
  have fits : 2 ^ (64 - maxDepth) < 2 ^ 64 := Nat.pow_lt_pow_right (by decide) small
  rw [UInt64.toNat_shiftLeft, UInt64.toNat_ofNat_of_lt' (small.trans (by decide)),
    Nat.mod_eq_of_lt small, Nat.shiftLeft_eq]
  simpa using fits

theorem and_clear (x : Nat) {k : Nat} (small : x < 2 ^ 64) (bits : k ≤ 64) :
    x &&& (2 ^ 64 - 2 ^ k) = x / 2 ^ k * 2 ^ k := by
  apply Nat.eq_of_testBit_eq
  intro i
  have mask : (2 ^ 64 - 2 ^ k).testBit i = (decide (i < 64) && !decide (i < k)) := by
    have positive := Nat.two_pow_pos k
    have below : 2 ^ k - 1 < 2 ^ 64 := by
      have := Nat.pow_le_pow_right Nat.two_pos bits
      omega
    rw [show 2 ^ 64 - 2 ^ k = 2 ^ 64 - (2 ^ k - 1 + 1) by omega, Nat.testBit_two_pow_sub_succ below,
      Nat.testBit_two_pow_sub_one]
  rw [Nat.testBit_and, mask, Nat.testBit_mul_two_pow]
  rcases Nat.lt_or_ge i k with low | high
  · simp [low]
  · rw [decide_eq_true high, decide_eq_false (Nat.not_lt.mpr high), Nat.testBit_div_two_pow,
      Nat.sub_add_cancel high]
    rcases Nat.lt_or_ge i 64 with inside | outside
    · simp [inside]
    · rw [Nat.testBit_lt_two_pow (small.trans_le (Nat.pow_le_pow_right Nat.two_pos outside))]
      rfl

theorem floorAddress_toNat {unit : UInt64} {k : Nat} (size : unit.toNat = 2 ^ k) (bits : k < 64)
    (addr : UInt64) : (floorAddress addr unit).toNat = addr.toNat / 2 ^ k * 2 ^ k := by
  have positive := Nat.two_pow_pos k
  have fits := Nat.pow_lt_pow_right (show 1 < 2 by decide) bits
  have mask : (~~~(unit - 1)).toNat = 2 ^ 64 - 2 ^ k := by
    rw [UInt64.toNat_not, UInt64.toNat_sub_of_le, size]
    · show 2 ^ 64 - 1 - (2 ^ k - 1) = _
      omega
    · rw [UInt64.le_iff_toNat_le, size]
      exact positive
  rw [floorAddress, UInt64.toNat_and, mask, and_clear addr.toNat addr.toNat_lt bits.le]

theorem ceilAddress_toNat {unit : UInt64} {k : Nat} (size : unit.toNat = 2 ^ k) (bits : k < 64)
    (addr : UInt64) : (ceilAddress addr unit).toNat + 1 = (addr.toNat / 2 ^ k + 1) * 2 ^ k := by
  have positive := Nat.two_pow_pos k
  have whole : 2 ^ 64 = 2 ^ (64 - k) * 2 ^ k := by
    rw [← Nat.pow_add, Nat.sub_add_cancel bits.le]
  have last : (addr.toNat / 2 ^ k + 1) * 2 ^ k ≤ 2 ^ 64 := by
    rw [whole]
    apply Nat.mul_le_mul_right
    rw [Nat.succ_le_iff, Nat.div_lt_iff_lt_mul positive, ← whole]
    exact addr.toNat_lt
  have floor := floorAddress_toNat size bits addr
  rw [Nat.add_mul, Nat.one_mul] at last ⊢
  have sum : floorAddress addr unit + unit - 1 = floorAddress addr unit + (unit - 1) := by
    rw [UInt64.sub_eq_add_neg, UInt64.sub_eq_add_neg, UInt64.add_assoc]
  have one : (unit - 1).toNat = 2 ^ k - 1 := by
    rw [UInt64.toNat_sub_of_le, size]
    · rfl
    · rw [UInt64.le_iff_toNat_le, size]
      exact positive
  rw [ceilAddress, sum, UInt64.toNat_add, one, floor, Nat.mod_eq_of_lt (by omega)]
  omega

theorem last_toNat {addr size : UInt64} (proper : ProperRange addr size) :
    (addr + size - 1).toNat + 1 = addr.toNat + size.toNat := by
  obtain ⟨some, fits⟩ := proper
  have positive : 1 ≤ size := by
    rw [UInt64.le_iff_toNat_le]
    exact Nat.one_le_iff_ne_zero.mpr fun none => some (UInt64.toNat_inj.mp none)
  have sum : addr + size - 1 = addr + (size - 1) := by
    rw [UInt64.sub_eq_add_neg, UInt64.sub_eq_add_neg, UInt64.add_assoc]
  have one : (size - 1).toNat = size.toNat - 1 := UInt64.toNat_sub_of_le _ _ positive
  rw [UInt64.le_iff_toNat_le] at positive
  have above : 1 ≤ size.toNat := positive
  rw [sum, UInt64.toNat_add, one, Nat.mod_eq_of_lt (by omega)]
  omega

theorem bounds_iff {unit addr size x : UInt64} {k : Nat} (sized : unit.toNat = 2 ^ k) (bits : k < 64)
    (proper : ProperRange addr size) :
    ((floorAddress addr unit).toNat ≤ x.toNat ∧
        x.toNat ≤ (ceilAddress (addr + size - 1) unit).toNat) ↔ x ∈ rounded (2 ^ k) addr size := by
  have positive := Nat.two_pow_pos k
  have last := last_toNat proper
  have ceil := ceilAddress_toNat sized bits (addr + size - 1)
  have up : (addr.toNat + size.toNat + 2 ^ k - 1) / 2 ^ k = (addr + size - 1).toNat / 2 ^ k + 1 := by
    rw [← last, Nat.add_right_comm, Nat.add_sub_cancel, Nat.add_div_right _ positive]
  rw [mem_rounded, floorAddress_toNat sized bits, up, ← ceil, Nat.lt_succ_iff]

end Units

section Run

variable {a : Allocator} {h : Memory}

structure Grown (unit : UInt64) (bdd : Bdd) : Prop where
  shaped : Shaped 64 0 bdd.root
  sized : bdd.sizeUnit = unit

theorem setValue_keeps {unit : UInt64} {bdd : Bdd} (grown : Grown unit bdd) (addr size : UInt64)
    (value : Bool) (h : Memory) :
    Keeps .outOfMemory ⟨h.live, bdd.root.addresses⟩ (bdd.setValue a addr size value h)
      (fun r => ⟨r.2.live, r.1.root.addresses⟩)
      fun r => Grown unit r.1 ∧ (size ≠ 0 →
        Updates (floorAddress addr unit) (ceilAddress (addr + size - 1) unit) value 64 0 bdd.root
          r.1.root) := by
  rw [Bdd.setValue]
  split
  · rename_i empty
    exact Keeps.done rfl ⟨grown, fun some => absurd empty some⟩
  · apply (setRange_keeps (by decide) level_whole grown.shaped h).bind
    rintro ⟨root, h⟩ ⟨shaped, updates⟩
    refine Keeps.done rfl ⟨⟨shaped, grown.sized⟩, fun _ => ?_⟩
    rw [grown.sized] at updates
    exact updates

theorem inside_whole (x : UInt64) : Inside 64 0 x.toNat := by
  rw [Inside, Nat.zero_add]
  exact ⟨Nat.zero_le _, x.toNat_lt⟩

theorem run_keeps {unit : UInt64} {bdd : Bdd} (grown : Grown unit bdd) (op : Op) (h : Memory) :
    Keeps .outOfMemory ⟨h.live, bdd.root.addresses⟩ (op.run a bdd h)
      (fun r => ⟨r.2.live, r.1.root.addresses⟩)
      fun r => Grown unit r.1 ∧ ∀ k, unit.toNat = 2 ^ k → k < 64 → op.Proper →
        r.1.contents = op.apply (2 ^ k) bdd.contents := by
  cases op with
  | set addr size =>
      apply (setValue_keeps grown addr size true h).mono
      rintro r ⟨now, updates⟩
      refine ⟨now, ?_⟩
      intro k sized bits proper
      ext x
      have value := updates proper.1 x.toNat (inside_whole x)
      rw [Op.apply, mem_contents, value, Set.mem_union, mem_contents]
      split
      · rename_i inside
        exact iff_of_true rfl (.inr ((bounds_iff sized bits proper).mp inside))
      · rename_i outside
        rw [bounds_iff sized bits proper] at outside
        exact (or_iff_left outside).symm
  | unset addr size =>
      apply (setValue_keeps grown addr size false h).mono
      rintro r ⟨now, updates⟩
      refine ⟨now, ?_⟩
      intro k sized bits proper
      ext x
      have value := updates proper.1 x.toNat (inside_whole x)
      rw [Op.apply, mem_contents, value, Set.mem_sdiff, mem_contents]
      split
      · rename_i inside
        exact iff_of_false Bool.false_ne_true fun both => both.2 ((bounds_iff sized bits proper).mp inside)
      · rename_i outside
        rw [bounds_iff sized bits proper] at outside
        exact (and_iff_left outside).symm

theorem runOps_keeps {unit : UInt64} (ops : List Op) {bdd : Bdd} (grown : Grown unit bdd) (h : Memory) :
    Keeps .outOfMemory ⟨h.live, bdd.root.addresses⟩ (runOps a ops bdd h)
      (fun r => ⟨r.2.live, r.1.root.addresses⟩)
      fun r => Grown unit r.1 ∧ ∀ k, unit.toNat = 2 ^ k → k < 64 → (∀ op ∈ ops, op.Proper) →
        r.1.contents = ops.foldl (Op.apply (2 ^ k)) bdd.contents := by
  induction ops generalizing bdd h with
  | nil => exact Keeps.done rfl ⟨grown, fun _ _ _ _ => rfl⟩
  | cons op ops ih =>
      rw [runOps]
      apply (run_keeps grown op h).bind
      rintro ⟨bdd', h⟩ ⟨now, step⟩
      apply (ih now h).mono
      rintro r ⟨last, rest⟩
      refine ⟨last, ?_⟩
      intro k sized bits proper
      rw [List.forall_mem_cons] at proper
      rw [rest k sized bits proper.2, step k sized bits proper.1, List.foldl_cons]

theorem build_keeps (a : Allocator) {maxDepth : Nat} (bounded : maxDepth ≤ 64) (ops : List Op)
    (h : Memory) :
    build a maxDepth ops h = .error .outOfMemory ∨ ∃ r, build a maxDepth ops h = .ok r ∧
      (Grown ((1 : UInt64) <<< UInt64.ofNat (64 - maxDepth)) r.1 ∧
        ∀ k, ((1 : UInt64) <<< UInt64.ofNat (64 - maxDepth)).toNat = 2 ^ k → k < 64 →
          (∀ op ∈ ops, op.Proper) → r.1.contents = described (2 ^ k) ops) ∧
      Sound ⟨r.2.live, r.1.root.addresses⟩ := by
  have empty : Sound (⟨h.live, 0 + 0⟩ : Heap UInt64) := ⟨Multiset.nodup_zero, nofun⟩
  have start : Grown ((1 : UInt64) <<< UInt64.ofNat (64 - maxDepth))
      ⟨.terminal false, maxDepth, (1 : UInt64) <<< UInt64.ofNat (64 - maxDepth)⟩ :=
    ⟨shaped_terminal 64 0 false, rfl⟩
  rw [build, Bdd.new, decide_eq_true bounded, check_true, ok_bind, ok_bind]
  rcases runOps_keeps ops start h 0 empty with stopped | ⟨r, run, ⟨grown, same⟩, sound⟩
  · exact .inl stopped
  · right
    refine ⟨r, run, ⟨grown, ?_⟩, sound.of_le (Multiset.le_add_right _ _)⟩
    intro k sized bits proper
    rw [same k sized bits proper, described]
    apply congrArg (fun s => ops.foldl (Op.apply (2 ^ k)) s)
    ext x
    exact iff_of_false Bool.false_ne_true (Set.notMem_empty x)

theorem built_shaped {maxDepth : Nat} {ops : List Op} {h' : Memory} {bdd : Bdd}
    (built : build a maxDepth ops h = .ok (bdd, h')) :
    Shaped 64 0 bdd.root ∧ bdd.root.addresses.Nodup := by
  have bounded : maxDepth ≤ 64 := by
    by_contra deep
    rw [build, Bdd.new, decide_eq_false deep] at built
    cases built
  rcases build_keeps a bounded ops h with stopped | ⟨r, run, ⟨grown, -⟩, sound⟩
  · rw [built] at stopped
    cases stopped
  · rw [built] at run
    cases run
    exact ⟨grown.shaped, sound.nodup⟩

end Run

section Ranges

variable {d : Nat} {first last bit addrStart addrEnd : UInt64} {value : Bool}

theorem checkRange_iff {node : Node} (level : Level d first last bit) (fits : node.Fits d)
    (ordered : addrStart.toNat ≤ addrEnd.toNat) :
    checkRange addrStart addrEnd value node first last bit = true ↔
      ∀ x, Inside d first.toNat x → addrStart.toNat ≤ x → x ≤ addrEnd.toNat →
        node.holds d x = value := by
  induction node generalizing d first last bit with
  | terminal v =>
      rw [checkRange, Bool.or_eq_true, Bool.or_eq_true, decide_eq_true_iff, decide_eq_true_iff,
        gt_iff_lt, UInt64.lt_iff_toNat_lt, UInt64.lt_iff_toNat_lt, beq_iff_eq]
      constructor
      · rintro ((right | left) | same) x inside low high
        · have upper := (level.inside.mp inside).2
          omega
        · have lower := (level.inside.mp inside).1
          omega
        · exact same
      · intro holds
        by_cases near : addrStart.toNat ≤ last.toNat ∧ first.toNat ≤ addrEnd.toNat
        · right
          have bounds := level.last
          have positive := Nat.two_pow_pos d
          apply holds (max addrStart.toNat first.toNat) (level.inside.mpr ⟨by omega, by omega⟩)
          · exact le_max_left _ _
          · omega
        · omega
  | inner p q low high low_ih high_ih =>
      obtain ⟨d, rfl, lower, upper⟩ := fits.halves
      rw [checkRange, Bool.or_eq_true, Bool.or_eq_true, decide_eq_true_iff, decide_eq_true_iff,
        gt_iff_lt, UInt64.lt_iff_toNat_lt, UInt64.lt_iff_toNat_lt, Bool.and_eq_true,
        low_ih level.zero lower, high_ih level.one upper, level.first_one]
      constructor
      · rintro ((right | left) | ⟨below, above⟩) x inside least greatest
        · have upper := (level.inside.mp inside).2
          omega
        · have lower := (level.inside.mp inside).1
          omega
        · rcases inside.half with half | half
          · rw [holds_low level.aligned half]
            exact below x half least greatest
          · rw [holds_high level.aligned half]
            exact above x half least greatest
      · intro holds
        right
        constructor
        · intro x half least greatest
          rw [← holds x half.lower least greatest]
          exact (holds_low level.aligned half).symm
        · intro x half least greatest
          rw [← holds x half.upper least greatest]
          exact (holds_high level.aligned half).symm

theorem checkRange_span {bdd : Bdd} (shaped : Shaped 64 0 bdd.root) {addr size : UInt64}
    (proper : ProperRange addr size) (value : Bool) :
    checkRange addr (addr + size - 1) value bdd.root 0 lastAddress leadingOne = true ↔
      ∀ x ∈ span addr size, bdd.root.holds 64 x.toNat = value := by
  have last := last_toNat proper
  have some : 0 < size.toNat := Nat.pos_of_ne_zero fun none => proper.1 (UInt64.toNat_inj.mp none)
  rw [checkRange_iff level_whole shaped.fits (by omega)]
  constructor
  · rintro holds x ⟨low, high⟩
    exact holds x.toNat (inside_whole x) low (by omega)
  · intro holds x inside low high
    have small : x < 2 ^ 64 := by simpa using inside.2
    have same : (UInt64.ofNat x).toNat = x := UInt64.toNat_ofNat_of_lt' small
    rw [← same]
    apply holds
    show addr.toNat ≤ (UInt64.ofNat x).toNat ∧ (UInt64.ofNat x).toNat < addr.toNat + size.toNat
    rw [same]
    omega

theorem getAnd_iff {bdd : Bdd} (shaped : Shaped 64 0 bdd.root) {addr size : UInt64}
    (proper : ProperRange addr size) :
    bdd.getAnd addr size = true ↔ ∀ x ∈ span addr size, x ∈ bdd.contents :=
  checkRange_span shaped proper true

theorem getOr_iff {bdd : Bdd} (shaped : Shaped 64 0 bdd.root) {addr size : UInt64}
    (proper : ProperRange addr size) :
    bdd.getOr addr size = true ↔ ∃ x ∈ span addr size, x ∈ bdd.contents := by
  rw [Bdd.getOr, Bool.not_eq_true', ← Bool.not_eq_true, checkRange_span shaped proper]
  simp [Bdd.contents]

end Ranges

/-- After any calls on proper ranges the tree denotes the described set, `get_and` and `get_or`
answer for it, and the tree is reduced and linked. -/
theorem address_bdd_denotes (a : Allocator) (maxDepth : Nat) (positive : 1 ≤ maxDepth)
    (bounded : maxDepth ≤ 64) (ops : List Op) (proper : ∀ op ∈ ops, op.Proper) (h : Memory)
    (enough : build a maxDepth ops h ≠ .error .outOfMemory) :
    ∃ bdd h', build a maxDepth ops h = .ok (bdd, h') ∧
      bdd.contents = described (2 ^ (64 - maxDepth)) ops ∧
      (∀ addr size, ProperRange addr size →
        (bdd.getAnd addr size = true ↔
          ∀ x ∈ span addr size, x ∈ described (2 ^ (64 - maxDepth)) ops) ∧
        (bdd.getOr addr size = true ↔
          ∃ x ∈ span addr size, x ∈ described (2 ^ (64 - maxDepth)) ops)) ∧
      bdd.root.Reduced ∧ bdd.root.Linked 0 := by
  have unit := unit_toNat positive bounded
  have bits : 64 - maxDepth < 64 := by omega
  rcases build_keeps a bounded ops h with stopped | ⟨⟨bdd, h'⟩, run, ⟨⟨shaped, -⟩, same⟩, -⟩
  · exact absurd stopped enough
  · have contents := same _ unit bits proper
    rw [← contents]
    refine ⟨bdd, h', run, rfl, ?_, shaped.reduced, shaped.linked⟩
    intro addr size range
    exact ⟨getAnd_iff shaped range, getOr_iff shaped range⟩

theorem lower_half_denoted :
    ∃ bdd h', build counting 1 [.set 4 8] ⟨∅, 0⟩ = .ok (bdd, h') ∧
      bdd.contents = described (2 ^ 63) [.set 4 8] ∧
      (∀ addr size, ProperRange addr size →
        (bdd.getAnd addr size = true ↔ ∀ x ∈ span addr size, x ∈ described (2 ^ 63) [.set 4 8]) ∧
        (bdd.getOr addr size = true ↔ ∃ x ∈ span addr size, x ∈ described (2 ^ 63) [.set 4 8])) ∧
      bdd.root.Reduced ∧ bdd.root.Linked 0 := by
  apply address_bdd_denotes counting 1 le_rfl (by decide) [.set 4 8]
  · intro op inside
    cases List.mem_singleton.mp inside
    exact ⟨by decide, by decide⟩
  · nofun

end Lotto.AddressBdd
