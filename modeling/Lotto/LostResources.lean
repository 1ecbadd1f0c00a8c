import Lotto.DeadlockBags

namespace Lotto.DeadlockBags

open Library.KeyMap Library.SwapList

/-- The addresses of the resources whose bags have the task, in the order of the iteration. -/
def heldBy (id : TaskId) (resources : Map Rsrc) : List UInt64 :=
  resources.keys.filter fun addr => decide (id ∈ bagOf resources addr)

def Shared (id : TaskId) (resources : Map Rsrc) (addr : UInt64) : Prop :=
  ∃ other ∈ bagOf resources addr, other ≠ id

def MarkedLost (id : TaskId) (lost : Map Rsrc) (addr : UInt64) : Prop :=
  ∃ rsrc, lost.lookup addr = some rsrc ∧ id ∈ rsrc.tasks

/-- What one iteration of `_mark_lost` over a bag with the task leaves in `ret`. -/
def verdict (config : DeadlockConfig) (id : TaskId) (bag : List TaskId) : Bool :=
  decide (0 < (bag.erase id).length) || config.lostResourceCheck

variable {config : DeadlockConfig} {id : TaskId} {acc : Bool × DeadlockState}

theorem mem_heldBy {resources : Map Rsrc} {addr : UInt64} :
    addr ∈ heldBy id resources ↔ id ∈ bagOf resources addr := by
  rw [heldBy, List.mem_filter, decide_eq_true_eq]
  constructor
  · exact And.right
  · intro inside
    refine ⟨?_, inside⟩
    cases found : resources.lookup addr with
    | none => simp [bagOf, found] at inside
    | some rsrc => exact AList.mem_keys.mp (mem_of_lookup found)

theorem markLostStep_bag (config : DeadlockConfig) (id : TaskId) (acc : Bool × DeadlockState)
    (addr a : UInt64) :
    (bagOf (markLostStep config id acc addr).2.resources a).Perm
      (if a = addr then (bagOf acc.2.resources a).erase id else bagOf acc.2.resources a) := by
  unfold markLostStep
  cases found : acc.2.resources.lookup addr with
  | none =>
      by_cases same : a = addr
      · subst same
        simp [bagOf, found]
      · rw [if_neg same]
  | some it =>
      by_cases inside : id ∈ it.tasks
      · simp only [if_pos inside]
        rw [bagOf_replace (mem_of_lookup found)]
        by_cases same : a = addr
        · subst same
          rw [if_pos rfl, if_pos rfl, bagOf_some found]
          exact swapErase_perm id it.tasks
        · rw [if_neg same, if_neg same]
      · simp only [if_neg inside]
        by_cases same : a = addr
        · subst same
          rw [if_pos rfl, bagOf_some found, List.erase_of_not_mem inside]
        · rw [if_neg same]

theorem markLostStep_ret (addr : UInt64) :
    (markLostStep config id acc addr).1 =
      if id ∈ bagOf acc.2.resources addr then verdict config id (bagOf acc.2.resources addr)
      else acc.1 := by
  unfold markLostStep
  cases found : acc.2.resources.lookup addr with
  | none => simp [bagOf, found]
  | some it =>
      rw [bagOf_some found]
      by_cases inside : id ∈ it.tasks
      · simp only [if_pos inside, verdict, (swapErase_perm id it.tasks).length_eq]
      · simp only [if_neg inside]

theorem markLostStep_marks (addr a : UInt64)
    (marked : MarkedLost id acc.2.lost a ∨ a = addr ∧ id ∈ bagOf acc.2.resources addr) :
    MarkedLost id (markLostStep config id acc addr).2.lost a := by
  unfold markLostStep
  cases found : acc.2.resources.lookup addr with
  | none =>
      rcases marked with marked | ⟨-, inside⟩
      · exact marked
      · simp [bagOf, found] at inside
  | some it =>
      rw [bagOf_some found] at marked
      by_cases inside : id ∈ it.tasks
      · simp only [if_pos inside, rsrcInit, findOrInit, MarkedLost]
        cases known : acc.2.lost.lookup addr with
        | none =>
            rw [lookup_replace (by simp)]
            by_cases same : a = addr
            · simp [same]
            · rw [if_neg same, AList.lookup_insert_ne same]
              exact marked.resolve_right (fun both => same both.1)
        | some rsrc =>
            rw [lookup_replace (mem_of_lookup known)]
            by_cases same : a = addr
            · simp [same]
            · rw [if_neg same]
              exact marked.resolve_right (fun both => same both.1)
      · simp only [if_neg inside]
        exact marked.resolve_right (fun both => inside both.2)

/-- The iterations over distinct addresses each take one entry of the task out of their bag. -/
theorem markLoop_bag (config : DeadlockConfig) (id : TaskId) (keys : List UInt64)
    (distinct : keys.Nodup) (acc : Bool × DeadlockState) (a : UInt64) :
    (bagOf (keys.foldl (markLostStep config id) acc).2.resources a).Perm
      (if a ∈ keys then (bagOf acc.2.resources a).erase id else bagOf acc.2.resources a) := by
  induction keys generalizing acc with
  | nil => simp
  | cons key keys ih =>
      obtain ⟨absent, distinct⟩ := List.nodup_cons.mp distinct
      have first := markLostStep_bag config id acc key a
      have rest := ih distinct (markLostStep config id acc key)
      rw [List.foldl_cons]
      refine rest.trans ?_
      by_cases here : a = key
      · subst here
        rw [if_pos rfl] at first
        rw [if_neg absent, if_pos List.mem_cons_self]
        exact first
      · rw [if_neg here] at first
        by_cases later : a ∈ keys
        · rw [if_pos later, if_pos (List.mem_cons_of_mem key later)]
          exact first.erase id
        · rw [if_neg later, if_neg (by simp [here, later])]
          exact first

theorem verdict_perm (config : DeadlockConfig) (id : TaskId) {bag bag' : List TaskId}
    (same : bag.Perm bag') : verdict config id bag = verdict config id bag' := by
  rw [verdict, verdict, (same.erase id).length_eq]

theorem markLoop_ret (keys : List UInt64) (distinct : keys.Nodup) (acc : Bool × DeadlockState) :
    (keys.foldl (markLostStep config id) acc).1 =
      (keys.filter fun addr => decide (id ∈ bagOf acc.2.resources addr)).getLast?.elim acc.1
        fun addr => verdict config id (bagOf acc.2.resources addr) := by
  induction keys generalizing acc with
  | nil => rfl
  | cons key keys ih =>
      obtain ⟨absent, distinct⟩ := List.nodup_cons.mp distinct
      have others : ∀ addr ∈ keys, (bagOf (markLostStep config id acc key).2.resources addr).Perm
          (bagOf acc.2.resources addr) := by
        intro addr later
        have bag := markLostStep_bag config id acc key addr
        rw [if_neg] at bag
        · exact bag
        · intro same
          exact absent (same ▸ later)
      have held : (keys.filter fun addr =>
            decide (id ∈ bagOf (markLostStep config id acc key).2.resources addr)) =
          keys.filter fun addr => decide (id ∈ bagOf acc.2.resources addr) := by
        apply List.filter_congr
        intro addr later
        simp only [(others addr later).mem_iff]
      rw [List.foldl_cons, ih distinct, held, markLostStep_ret]
      cases last : (keys.filter fun addr => decide (id ∈ bagOf acc.2.resources addr)).getLast? with
      | none =>
          rw [List.getLast?_eq_none_iff] at last
          by_cases inside : id ∈ bagOf acc.2.resources key
          · simp [inside, last]
          · simp [inside, last]
      | some addr =>
          have later : addr ∈ keys := (List.mem_filter.mp (List.mem_of_getLast? last)).1
          have same := verdict_perm config id (others addr later)
          by_cases inside : id ∈ bagOf acc.2.resources key
          · simp [inside, List.getLast?_cons, last, same]
          · simp [inside, last, same]

theorem markLoop_marks (keys : List UInt64) (distinct : keys.Nodup) (acc : Bool × DeadlockState)
    (a : UInt64)
    (marked : MarkedLost id acc.2.lost a ∨ a ∈ keys ∧ id ∈ bagOf acc.2.resources a) :
    MarkedLost id (keys.foldl (markLostStep config id) acc).2.lost a := by
  induction keys generalizing acc with
  | nil => exact marked.resolve_right (fun both => List.not_mem_nil both.1)
  | cons key keys ih =>
      obtain ⟨absent, distinct⟩ := List.nodup_cons.mp distinct
      rw [List.foldl_cons]
      apply ih distinct
      rcases marked with marked | ⟨member, inside⟩
      · exact .inl (markLostStep_marks key a (.inl marked))
      by_cases here : a = key
      · subst here
        exact .inl (markLostStep_marks a a (.inr ⟨rfl, inside⟩))
      · have bag := markLostStep_bag config id acc key a
        rw [if_neg here] at bag
        exact .inr ⟨(List.mem_cons.mp member).resolve_left here, bag.mem_iff.mpr inside⟩

theorem erase_nonempty_iff {bag : List TaskId} (single : bag.count id ≤ 1) :
    0 < (bag.erase id).length ↔ ∃ other ∈ bag, other ≠ id := by
  rw [List.length_pos_iff_exists_mem]
  constructor
  · intro left
    obtain ⟨other, member⟩ := left
    refine ⟨other, List.mem_of_mem_erase member, ?_⟩
    intro same
    subst same
    have again := List.count_pos_iff.mpr member
    rw [List.count_erase_self] at again
    omega
  · intro shared
    obtain ⟨other, member, apart⟩ := shared
    exact ⟨other, (List.mem_erase_of_ne apart).mpr member⟩

section Detection

variable (config : DeadlockConfig) (id : TaskId) (st : DeadlockState)

theorem markLost_bag (addr : UInt64) :
    (bagOf (markLost config id st).2.resources addr).Perm
      ((bagOf st.resources addr).erase id) := by
  have bag := markLoop_bag config id st.resources.keys st.resources.nodupKeys (false, st) addr
  by_cases known : addr ∈ st.resources.keys
  · rw [if_pos known] at bag
    exact bag
  · rw [if_neg known] at bag
    have empty : bagOf st.resources addr = [] := by
      have unknown : st.resources.lookup addr = none := by
        rw [AList.lookup_eq_none]
        exact fun member => known (AList.mem_keys.mp member)
      rw [bagOf, unknown]
      rfl
    simpa [markLost, empty] using bag

theorem markLost_ret : (markLost config id st).1 =
    (heldBy id st.resources).getLast?.elim false
      fun addr => verdict config id (bagOf st.resources addr) :=
  markLoop_ret st.resources.keys st.resources.nodupKeys (false, st)

theorem markLost_marks (addr : UInt64) (held : id ∈ bagOf st.resources addr) :
    MarkedLost id (markLost config id st).2.lost addr := by
  have known : addr ∈ st.resources.keys := (List.mem_filter.mp (mem_heldBy.mpr held)).1
  exact markLoop_marks st.resources.keys st.resources.nodupKeys (false, st) addr
    (.inr ⟨known, held⟩)

/-- What `_mark_lost` is for: it finds whether a resource of the finishing task deadlocks another
task, and hands the resources over to the lost ones. -/
structure DetectsLost : Prop where
  found : (markLost config id st).1 = true ↔
    (∃ addr, id ∈ bagOf st.resources addr ∧ Shared id st.resources addr) ∨
      config.lostResourceCheck = true ∧ ∃ addr, id ∈ bagOf st.resources addr
  gone : ∀ addr, id ∉ bagOf (markLost config id st).2.resources addr
  marked : ∀ addr, id ∈ bagOf st.resources addr →
    MarkedLost id (markLost config id st).2.lost addr

theorem markLost_gone_iff : (∀ addr, id ∉ bagOf (markLost config id st).2.resources addr) ↔
    ∀ addr, (bagOf st.resources addr).count id ≤ 1 := by
  refine forall_congr' ?_
  intro addr
  rw [(markLost_bag config id st addr).mem_iff, ← List.count_pos_iff, List.count_erase_self]
  omega

/-- `_mark_lost` meets its purpose exactly when the task is at most once in each bag and, unless
every held resource is to be reported, the last of its resources in the order of the iteration has
another task as soon as one of them has. -/
theorem markLost_detects_iff : DetectsLost config id st ↔
    (∀ addr, (bagOf st.resources addr).count id ≤ 1) ∧
      (config.lostResourceCheck = true ∨
        ∀ addr last, id ∈ bagOf st.resources addr → Shared id st.resources addr →
          (heldBy id st.resources).getLast? = some last → Shared id st.resources last) := by
  have ret := markLost_ret config id st
  constructor
  · intro detects
    have single := (markLost_gone_iff config id st).mp detects.gone
    refine ⟨single, ?_⟩
    cases strict : config.lostResourceCheck with
    | true => exact .inl rfl
    | false =>
        right
        intro addr last held shared ended
        have reported := detects.found.mpr (.inl ⟨addr, held, shared⟩)
        rw [ret, ended] at reported
        simp only [Option.elim_some, verdict, strict, Bool.or_false, decide_eq_true_eq] at reported
        exact (erase_nonempty_iff (single last)).mp reported
  · intro condition
    obtain ⟨single, lastShared⟩ := condition
    refine ⟨?_, (markLost_gone_iff config id st).mpr single, markLost_marks config id st⟩
    rw [ret]
    cases ended : (heldBy id st.resources).getLast? with
    | none =>
        have free : ∀ addr, id ∉ bagOf st.resources addr := by
          intro addr held
          rw [← mem_heldBy, List.getLast?_eq_none_iff.mp ended] at held
          cases held
        simp [free]
    | some last =>
        have held : id ∈ bagOf st.resources last := mem_heldBy.mp (List.mem_of_getLast? ended)
        cases strict : config.lostResourceCheck with
        | true =>
            have reported : verdict config id (bagOf st.resources last) = true := by
              simp [verdict, strict]
            simp only [Option.elim_some, reported, true_iff]
            exact .inr ⟨trivial, last, held⟩
        | false =>
            simp only [Option.elim_some, verdict, strict, Bool.or_false, decide_eq_true_eq,
              erase_nonempty_iff (single last), Bool.false_eq_true, false_and, or_false]
            constructor
            · intro shared
              exact ⟨last, held, shared⟩
            · intro someShared
              obtain ⟨addr, heldThere, shared⟩ := someShared
              rcases lastShared with strict' | lastShared
              · rw [strict] at strict'
                cases strict'
              · exact lastShared addr last heldThere shared ended

end Detection

/-- Task 1 finishes with the mutexes 16, for which task 2 waits, and 32, for which nobody does: the
iteration over 32 comes last and resets the result. -/
def waitedForFirst : DeadlockState :=
  { resources := AList.insert 16 { tasks := [1, 2], owner := 1 }
      (AList.insert 32 { tasks := [1], owner := 1 } ∅)
    lost := ∅ }

def acquiredTwice : DeadlockState :=
  { resources := AList.insert 16 { tasks := [1, 1], owner := 1 } ∅, lost := ∅ }

theorem markLost_misses_waiter :
    ¬DetectsLost bagConfig 1 waitedForFirst ∧ ¬DetectsLost bagConfig 1 acquiredTwice := by
  constructor
  · intro detects
    have found := detects.found.mpr (.inl ⟨16, by decide, 2, by decide, by decide⟩)
    exact absurd found (by decide)
  · intro detects
    exact detects.gone 16 (by decide)

end Lotto.DeadlockBags
