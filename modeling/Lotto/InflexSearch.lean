import Lotto.Inflex

namespace Lotto.Inflex

open Library.FaultRun

def Smallest (pred : Nat → Bool) (clk : Nat) : Prop :=
  pred clk = true ∧ ∀ earlier < clk, pred earlier = false

/-- What the searches assume of the predicate: once it holds it holds at every later clock. -/
def Monotone (pred : Nat → Bool) : Prop :=
  ∀ earlier later, earlier ≤ later → pred earlier = true → pred later = true

def Sorted (input : FlatTrace) : Prop :=
  input.Pairwise fun r s => r.clk.toNat ≤ s.clk.toNat

instance (input : FlatTrace) : Decidable (Sorted input) :=
  inferInstanceAs (Decidable (List.Pairwise _ _))

def StartsAtZero (input : FlatTrace) : Prop :=
  ∃ r ∈ input, r.matches Kind.recordStart.bits = true ∧ r.clk.toNat = 0

/-- A clock at which the input has a record that `RECORD_ANY` matches. -/
def Recorded (input : FlatTrace) (clk : Nat) : Prop :=
  ∃ r ∈ input, r.matches recordAny = true ∧ r.clk.toNat = clk

variable {pred : Nat → Bool} {input : FlatTrace}

theorem Monotone.false_before (mono : Monotone pred) {earlier later : Nat}
    (before : earlier ≤ later) (fails : pred later = false) : pred earlier = false := by
  cases holds : pred earlier with
  | false => rfl
  | true =>
      rw [mono earlier later before holds] at fails
      exact fails

theorem Monotone.smallest_of_step (mono : Monotone pred) {clk : Nat} (holds : pred clk = true)
    (fails : pred (clk - 1) = false) : Smallest pred clk := by
  refine ⟨holds, ?_⟩
  intro earlier before
  exact mono.false_before (by omega) fails

theorem Smallest.unique {a b : Nat} (first : Smallest pred a) (second : Smallest pred b) :
    a = b := by
  by_contra differ
  rcases Nat.lt_or_gt_of_ne differ with before | after
  · exact absurd first.1 (by rw [second.2 a before]; decide)
  · exact absurd second.1 (by rw [first.2 b after]; decide)

theorem binarySearch_smallest (mono : Monotone pred) (l r : Nat) (ordered : l ≤ r)
    (below : ∀ clk < l, pred clk = false) (holds : pred r = true) :
    Smallest pred (binarySearch pred l r) := by
  fun_induction binarySearch pred l r with
  | case1 l r smaller x found ih => exact ih (by omega) below found
  | case2 l r smaller x missed ih =>
      refine ih (by omega) ?_ holds
      intro clk before
      exact mono.false_before (Nat.le_of_lt_succ before) (by simpa using missed)
  | case3 l r done =>
      obtain rfl : l = r := by omega
      exact ⟨holds, below⟩

theorem previousLoop_spec (clk ans : Nat) (t : FlatTrace) (sorted : Sorted t) :
    (previousLoop clk ans t = ans ∧ ∀ c, Recorded t c → clk ≤ c) ∨
      (Recorded t (previousLoop clk ans t) ∧ previousLoop clk ans t < clk ∧
        ∀ c, Recorded t c → c < clk → c ≤ previousLoop clk ans t) := by
  induction t generalizing ans with
  | nil =>
      left
      refine ⟨rfl, ?_⟩
      intro c recorded
      obtain ⟨r, member, -⟩ := recorded
      cases member
  | cons r t ih =>
      obtain ⟨first, rest⟩ := List.pairwise_cons.mp sorted
      by_cases found : r.matches recordAny = true
      · by_cases before : r.clk.toNat < clk
        · rw [previousLoop, if_pos found, if_pos before]
          right
          obtain ⟨stays, later⟩ | ⟨recorded, smaller, largest⟩ := ih r.clk.toNat rest
          · rw [stays]
            refine ⟨⟨r, List.mem_cons_self, found, rfl⟩, before, ?_⟩
            intro c recorded smaller
            obtain ⟨s, member, matched, rfl⟩ := recorded
            rcases List.mem_cons.mp member with rfl | member
            · exact le_refl _
            · exact absurd (later _ ⟨s, member, matched, rfl⟩) (by omega)
          · refine ⟨?_, smaller, ?_⟩
            · obtain ⟨s, member, matched, same⟩ := recorded
              exact ⟨s, List.mem_cons_of_mem r member, matched, same⟩
            · intro c recordedHere early
              obtain ⟨s, member, matched, rfl⟩ := recordedHere
              rcases List.mem_cons.mp member with rfl | member
              · obtain ⟨u, inside, -, same⟩ := recorded
                rw [← same]
                exact first u inside
              · exact largest _ ⟨s, member, matched, rfl⟩ early
        · rw [previousLoop, if_pos found, if_neg before]
          left
          refine ⟨rfl, ?_⟩
          intro c recorded
          obtain ⟨s, member, -, rfl⟩ := recorded
          rcases List.mem_cons.mp member with rfl | member
          · omega
          · have := first s member
            omega
      · have skipped : ∀ c, Recorded (r :: t) c ↔ Recorded t c := by
          intro c
          simp [Recorded, found]
        rw [previousLoop, if_neg found]
        simp only [skipped]
        exact ih ans rest

theorem flatNext_split (filter : UInt32) (t : FlatTrace) :
    ∃ dropped, t = dropped ++ (flatNext filter t).2 ∧
      ∀ r ∈ dropped, r.matches filter = false := by
  induction t with
  | nil => exact ⟨[], rfl, by simp⟩
  | cons r t ih =>
      by_cases found : r.matches filter = true
      · exact ⟨[], by simp [flatNext, found], by simp⟩
      · obtain ⟨dropped, whole, none⟩ := ih
        refine ⟨r :: dropped, ?_, ?_⟩
        · rw [flatNext, if_neg found, List.cons_append, ← whole]
        · intro s member
          rcases List.mem_cons.mp member with rfl | member
          · simpa using found
          · exact none s member

theorem matches_start_any {r : TraceRecord} (start : r.matches Kind.recordStart.bits = true) :
    r.matches recordAny = true := by
  simp only [TraceRecord.matches, recordAny, bne_iff_ne, ne_eq] at start ⊢
  intro none
  have unknown : r.kind = 0 := by simpa using none
  exact start (by rw [unknown]; rfl)

structure Previous (input : FlatTrace) (clk prev : Nat) : Prop where
  recorded : Recorded input prev
  smaller : prev < clk
  largest : ∀ c, Recorded input c → c < clk → c ≤ prev

theorem previousClock_spec (sorted : Sorted input) (start : StartsAtZero input) {clk : Nat}
    (positive : 0 < clk) : Previous input clk (previousClock input clk) := by
  obtain ⟨dropped, whole, none⟩ := flatNext_split Kind.recordStart.bits input
  obtain ⟨r, member, isStart, zero⟩ := start
  rw [whole] at member
  have inside : r ∈ (flatNext Kind.recordStart.bits input).2 := by
    rcases List.mem_append.mp member with early | late
    · rw [none r early] at isStart
      cases isStart
    · exact late
  unfold Sorted at sorted
  rw [whole, List.pairwise_append] at sorted
  obtain ⟨-, sortedRest, across⟩ := sorted
  have recordedStart : Recorded (flatNext Kind.recordStart.bits input).2 0 :=
    ⟨r, inside, matches_start_any isStart, zero⟩
  obtain ⟨-, later⟩ | ⟨recorded, smaller, largest⟩ :=
    previousLoop_spec clk clk _ sortedRest
  · exact absurd (later 0 recordedStart) (by omega)
  · refine ⟨?_, smaller, ?_⟩
    · obtain ⟨s, here, matched, same⟩ := recorded
      refine ⟨s, ?_, matched, same⟩
      rw [whole]
      exact List.mem_append_right _ here
    · intro c recordedHere early
      obtain ⟨s, here, matched, rfl⟩ := recordedHere
      rw [whole] at here
      rcases List.mem_append.mp here with before | after
      · -- the records before the first START lie at clock 0
        have := across s before r inside
        omega
      · exact largest _ ⟨s, after, matched, rfl⟩ early

/-- What the coarse search hands to the fine one: the clocks between `first` and `last` have no
record, and the predicate turns true among them. -/
structure Bracket (input : FlatTrace) (lastClk : Nat) (pred : Nat → Bool) (first last : Nat) :
    Prop where
  previous : Previous input last first
  fails : pred first = false
  holds : pred last = true
  probed : last = lastClk ∨ Recorded input last
  bounded : last ≤ lastClk

/-- The coarse search, from a state in which the predicate holds at `last` and `clk` is the clock
to probe after it. -/
theorem linearLoop_coarse (sorted : Sorted input) (start : StartsAtZero input)
    (zero : pred 0 = false) {lastClk : Nat} (fuel clk last : Nat) (enough : clk < fuel)
    (previous : Previous input last clk) (holds : pred last = true)
    (probed : last = lastClk ∨ Recorded input last) (bounded : last ≤ lastClk) :
    ∃ first last', linearLoop pred (previousClock input) fuel clk 0 last = .ok (first, last') ∧
      Bracket input lastClk pred first last' := by
  induction fuel generalizing clk last with
  | zero => omega
  | succ fuel ih =>
      rw [linearLoop]
      by_cases positive : 0 < clk
      · rw [if_pos positive]
        cases found : pred clk with
        | true =>
            have next := previousClock_spec sorted start positive
            have smaller := next.smaller
            have before := previous.smaller
            simpa only [if_true] using
              ih (previousClock input clk) clk (by omega) next found (.inr previous.recorded)
                (by omega)
        | false =>
            exact ⟨clk, last, by simp, previous, found, holds, probed, bounded⟩
      · rw [if_neg positive]
        obtain rfl : clk = 0 := by omega
        exact ⟨0, last, rfl, previous, zero, holds, probed, bounded⟩

theorem linearSearch_coarse (sorted : Sorted input) (start : StartsAtZero input)
    (zero : pred 0 = false) {lastClk : Nat} (holds : pred lastClk = true) {fuel : Nat}
    (enough : lastClk < fuel) :
    ∃ first last, linearSearch fuel pred (some (previousClock input)) 0 lastClk =
      .ok (first, last) ∧ Bracket input lastClk pred first last := by
  have positive : 0 < lastClk := by
    rcases Nat.eq_zero_or_pos lastClk with rfl | positive
    · rw [zero] at holds
      cases holds
    · exact positive
  have next := previousClock_spec sorted start positive
  obtain ⟨fuel, rfl⟩ : ∃ n, fuel = n + 1 := ⟨fuel - 1, by omega⟩
  rw [linearSearch, Option.getD_some, linearLoop, if_pos positive, if_pos holds]
  have smaller := next.smaller
  exact linearLoop_coarse sorted start zero fuel _ lastClk (by omega) next holds (.inl rfl)
    (le_refl lastClk)

theorem linearLoop_fine (mono : Monotone pred) {first : Nat} (fails : pred first = false)
    (fuel clk : Nat) (enough : clk < fuel) (after : first ≤ clk) (holds : pred (clk + 1) = true) :
    ∃ first' ip, linearLoop pred (fun clk => clk - 1) fuel clk first (clk + 1) =
      .ok (first', ip) ∧ Smallest pred ip := by
  induction fuel generalizing clk with
  | zero => omega
  | succ fuel ih =>
      rw [linearLoop]
      by_cases later : first < clk
      · rw [if_pos later]
        cases found : pred clk with
        | true =>
            obtain ⟨clk, rfl⟩ : ∃ n, clk = n + 1 := ⟨clk - 1, by omega⟩
            simpa only [if_true, Nat.add_sub_cancel] using
              ih clk (by omega) (by omega) found
        | false =>
            exact ⟨clk, clk + 1, by simp, mono.smallest_of_step holds found⟩
      · rw [if_neg later]
        obtain rfl : clk = first := by omega
        exact ⟨clk, clk + 1, rfl, mono.smallest_of_step holds fails⟩

/-- The fine search starts one clock before the bracket's end: it ends there when the predicate
does not hold at that clock, and else at the smallest clock. -/
theorem linearSearch_fine (mono : Monotone pred) {first last fuel : Nat}
    (fails : pred first = false) (ordered : first < last) (enough : last ≤ fuel) :
    ∃ first' ip, linearSearch fuel pred none first (last - 1) = .ok (first', ip) ∧
      if pred (last - 1) = true then Smallest pred ip else ip = last - 1 := by
  obtain ⟨fuel, rfl⟩ : ∃ n, fuel = n + 1 := ⟨fuel - 1, by omega⟩
  rw [linearSearch, Option.getD_none, linearLoop]
  cases found : pred (last - 1) with
  | false =>
      by_cases later : first < last - 1
      · exact ⟨last - 1, last - 1, by simp [later], by simp⟩
      · exact ⟨first, last - 1, by simp [later], by simp⟩
  | true =>
      have later : first < last - 1 := by
        rcases Nat.lt_or_ge first (last - 1) with later | same
        · exact later
        · obtain rfl : first = last - 1 := by omega
          rw [fails] at found
          cases found
      obtain ⟨clk, same⟩ : ∃ clk, last - 1 = clk + 1 := ⟨last - 2, by omega⟩
      rw [same] at found later ⊢
      simpa only [if_pos later, if_true, Nat.add_sub_cancel] using
        linearLoop_fine mono fails fuel clk (by omega) (by omega) found

/-- The linear method terminates, and it misses the inflection point by one where the coarse
search has probed that very clock. -/
theorem linearInflex_ends (sorted : Sorted input) (start : StartsAtZero input)
    (mono : Monotone pred) (zero : pred 0 = false) {lastClk : Nat} (holds : pred lastClk = true)
    {fuel : Nat} (enough : lastClk < fuel) :
    ∃ first last ip, linearInflex fuel input lastClk pred = .ok ip ∧
      Bracket input lastClk pred first last ∧
      if pred (last - 1) = true then Smallest pred ip else ip = last - 1 := by
  obtain ⟨first, last, coarse, bracket⟩ := linearSearch_coarse sorted start zero holds enough
  have ordered := bracket.previous.smaller
  have bounded := bracket.bounded
  obtain ⟨first', ip, fine, result⟩ :=
    linearSearch_fine mono bracket.fails ordered (Nat.le_trans bounded (Nat.le_of_lt enough))
  refine ⟨first, last, ip, ?_, bracket, result⟩
  have inRange : decide (first ≤ last) = true := by simpa using Nat.le_of_lt ordered
  have positive : 0 < last := by omega
  simp [linearInflex, coarse, inRange, positive, fine]

/-- The linear method ends with the result of the binary search, the smallest clock at which the
predicate holds, exactly when that clock is neither `last_clk` nor the clock of a record. -/
theorem linearInflex_agrees_iff (sorted : Sorted input) (start : StartsAtZero input)
    (mono : Monotone pred) (zero : pred 0 = false) {lastClk : Nat} (holds : pred lastClk = true)
    {fuel : Nat} (enough : lastClk < fuel) :
    (∃ ip, linearInflex fuel input lastClk pred = .ok ip ∧ ip = binarySearch pred 0 lastClk ∧
        Smallest pred ip) ↔
      ∀ clk, clk = lastClk ∨ Recorded input clk → 0 < clk → clk ≤ lastClk →
        pred clk = true → pred (clk - 1) = true := by
  have binary := binarySearch_smallest mono 0 lastClk (Nat.zero_le _) (by simp) holds
  obtain ⟨first, last, ip, ended, bracket, result⟩ :=
    linearInflex_ends sorted start mono zero holds enough
  have ordered := bracket.previous.smaller
  constructor
  · intro agrees clk probed positive bounded found
    obtain ⟨ip', ended', -, smallest⟩ := agrees
    obtain rfl := Except.ok.inj (ended.symm.trans ended')
    by_contra missed
    have step := mono.smallest_of_step found (by simpa using missed)
    -- the bracket has no recorded clock inside, so the step lies at its end
    have atEnd : clk = last := by
      rcases Nat.lt_trichotomy clk last with before | same | after
      · have recorded : Recorded input clk := by
          rcases probed with rfl | recorded
          · exact absurd bracket.bounded (by omega)
          · exact recorded
        have early := bracket.previous.largest clk recorded before
        rw [mono.false_before early bracket.fails] at found
        cases found
      · exact same
      · have early := step.2 last after
        rw [bracket.holds] at early
        cases early
    obtain rfl := step.unique smallest
    rw [atEnd, if_neg (by rw [← atEnd]; exact missed)] at result
    omega
  · intro stepsElsewhere
    have later := stepsElsewhere last bracket.probed (by omega) bracket.bounded bracket.holds
    rw [if_pos later] at result
    exact ⟨ip, ended, result.unique binary, result⟩

def failsFromThree (clk : Nat) : Bool := decide (3 ≤ clk)

theorem failsFromThree_monotone : Monotone failsFromThree := by
  intro earlier later before
  simp only [failsFromThree, decide_eq_true_eq]
  omega

theorem linearInflex_agrees_between_records :
    linearInflex 6 [plainRecord Kind.recordStart.bits 0, plainRecord Kind.recordSched.bits 5] 5 failsFromThree =
        .ok 3 ∧
      (∃ ip, linearInflex 6 [plainRecord Kind.recordStart.bits 0, plainRecord Kind.recordSched.bits 5] 5
          failsFromThree = .ok ip ∧ ip = binarySearch failsFromThree 0 5 ∧
        Smallest failsFromThree ip) := by
  have sorted : Sorted [plainRecord Kind.recordStart.bits 0, plainRecord Kind.recordSched.bits 5] := by
    simp [Sorted, plainRecord]
  have start : StartsAtZero [plainRecord Kind.recordStart.bits 0, plainRecord Kind.recordSched.bits 5] :=
    ⟨plainRecord Kind.recordStart.bits 0, by simp, by decide, rfl⟩
  refine ⟨by decide, ?_⟩
  refine (linearInflex_agrees_iff sorted start failsFromThree_monotone rfl rfl (by decide)).mpr ?_
  intro clk probed positive bounded found
  obtain rfl : clk = 5 := by
    rcases probed with rfl | recorded
    · rfl
    · simp only [Recorded, plainRecord, List.mem_cons, List.not_mem_nil, or_false] at recorded
      obtain ⟨r, rfl | rfl, -, rfl⟩ := recorded
      · cases positive
      · rfl
  rfl

/-- With a record at clock 3 the linear method ends at clock 2. -/
theorem linearInflex_misses_recorded_step :
    Sorted [plainRecord Kind.recordStart.bits 0, plainRecord Kind.recordSched.bits 3, plainRecord Kind.recordSched.bits 5] ∧
      StartsAtZero
        [plainRecord Kind.recordStart.bits 0, plainRecord Kind.recordSched.bits 3, plainRecord Kind.recordSched.bits 5] ∧
      Monotone failsFromThree ∧ failsFromThree 0 = false ∧ failsFromThree 5 = true ∧
      linearInflex 6
          [plainRecord Kind.recordStart.bits 0, plainRecord Kind.recordSched.bits 3, plainRecord Kind.recordSched.bits 5] 5
          failsFromThree = .ok 2 ∧
      binarySearch failsFromThree 0 5 = 3 ∧ Smallest failsFromThree 3 := by
  have smallest : Smallest failsFromThree 3 := by
    refine ⟨rfl, ?_⟩
    intro earlier before
    simp only [failsFromThree, decide_eq_false_iff_not]
    omega
  have binary := binarySearch_smallest failsFromThree_monotone 0 5 (by decide) (by simp) rfl
  refine ⟨?_, ?_, failsFromThree_monotone, rfl, rfl, by decide, binary.unique smallest, smallest⟩
  · simp [Sorted, plainRecord]
  · exact ⟨plainRecord Kind.recordStart.bits 0, by simp, by decide, rfl⟩

end Lotto.Inflex
