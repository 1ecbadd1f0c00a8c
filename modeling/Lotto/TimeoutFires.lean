import Mathlib.Data.List.Induction
import Mathlib.Data.List.Nodup
import Lotto.Library.FaultRun
import Lotto.Library.KeyMap
import Lotto.Timeout

namespace Lotto.TimeoutFires

open Library.FaultRun Library.KeyMap

section Registration

theorem handlerTimeoutRegister_ok {tid : TaskId} (named : tid ≠ noTask) (deadline : Timespec)
    (timeouts : Map Timespec) :
    ∃ timeouts', handlerTimeoutRegister tid deadline timeouts = .ok timeouts' ∧
      ∀ x, timeouts'.lookup x = if x = tid then some deadline else timeouts.lookup x := by
  have name : (tid != noTask) = true := by
    simpa using named
  unfold handlerTimeoutRegister
  rw [name, check_true, ok_bind]
  cases found : timeouts.lookup tid with
  | none =>
      simp only [findOrInit, found]
      refine ⟨_, rfl, ?_⟩
      intro x
      rw [lookup_replace (by simp)]
      by_cases same : x = tid
      · rw [if_pos same, if_pos same]
      · rw [if_neg same, if_neg same, AList.lookup_insert_ne same]
  | some old =>
      simp only [findOrInit, found]
      exact ⟨_, rfl, fun x => lookup_replace (mem_of_lookup found) x deadline⟩

theorem handlerTimeoutDeregister_ok {id : TaskId} {timeouts : Map Timespec} (named : id ≠ noTask) :
    handlerTimeoutDeregister id timeouts = .ok (timeouts.erase id) := by
  have checked : (id != noTask) = true := by
    simpa using named
  rw [handlerTimeoutDeregister, checked, check_true, ok_bind]

end Registration

abbrev Item := Sigma fun _ : UInt64 => Timespec

def Due (st : TimeoutState) (id : TaskId) : Prop :=
  ∃ deadline, st.timeouts.lookup id = some deadline ∧ deadline ≤ st.clock

/-- No task is available, none is due, and some task waits for its deadline. -/
structure Starved (st : TimeoutState) : Prop where
  idle : st.tset.size = 0
  waiting : st.timeouts.keys ≠ []
  early : ∀ id, ¬ Due st id

def Earliest (st : TimeoutState) (id : TaskId) (deadline : Timespec) : Prop :=
  st.timeouts.lookup id = some deadline ∧
    ∀ other later, st.timeouts.lookup other = some later → deadline ≤ later

def Fired (st : TimeoutState) (id : TaskId) : Prop :=
  Due st id ∨ Starved st ∧ ∃ deadline, Earliest st id deadline

/-- What one call has to do with the deadlines, the clock and the task set. -/
structure Fires (st st' : TimeoutState) : Prop where
  once : ∀ id, Fired st id → st'.triggered.count id = st.triggered.count id + 1
  silent : ∀ id, ¬ Fired st id → st'.triggered.count id = st.triggered.count id
  available : ∀ id, id ∈ st'.tset ↔ id ∈ st.tset ∨ Fired st id
  gone : ∀ id, Fired st id → st'.timeouts.lookup id = none
  kept : ∀ id, ¬ Fired st id → st'.timeouts.lookup id = st.timeouts.lookup id
  leap : Starved st → ∃ id, Earliest st id st'.clock
  clock : ¬ Starved st → st'.clock = st.clock

def fireAll (ids : List TaskId) (st : TimeoutState) : TimeoutState :=
  ids.foldl (fun st id => deregisterTimeout id (triggerTimeout id st)) st

section FireAll

variable (ids : List TaskId) (st : TimeoutState)

theorem fireAll_triggered : (fireAll ids st).triggered = st.triggered ++ ids := by
  unfold fireAll
  induction ids generalizing st with
  | nil => simp
  | cons id ids ih =>
      rw [List.foldl_cons, ih]
      simp [triggerTimeout, deregisterTimeout]

theorem fireAll_clock : (fireAll ids st).clock = st.clock := by
  unfold fireAll
  induction ids generalizing st with
  | nil => rfl
  | cons id ids ih =>
      rw [List.foldl_cons, ih]
      rfl

theorem fireAll_tset {task : TaskId} : task ∈ (fireAll ids st).tset ↔ task ∈ st.tset ∨ task ∈ ids := by
  unfold fireAll
  induction ids generalizing st with
  | nil => simp
  | cons id ids ih =>
      rw [List.foldl_cons, ih]
      simp [triggerTimeout, deregisterTimeout, or_assoc]

theorem fireAll_lookup (task : TaskId) : (fireAll ids st).timeouts.lookup task =
    if task ∈ ids then none else st.timeouts.lookup task := by
  unfold fireAll
  induction ids generalizing st with
  | nil => simp
  | cons id ids ih =>
      rw [List.foldl_cons, ih]
      by_cases same : task = id
      · subst same
        simp [triggerTimeout, deregisterTimeout]
      · simp [triggerTimeout, deregisterTimeout, same]

end FireAll

section Deadlines

variable {st : TimeoutState} {id : TaskId}

/-- The tasks that `_check_deadlines` triggers, in the order of the map. -/
def dueIds (st : TimeoutState) : List TaskId :=
  (st.timeouts.entries.filter fun it => !decide (st.clock < it.2)).map (·.1)

theorem checkDeadlines_eq (st : TimeoutState) : checkDeadlines st = fireAll (dueIds st) st := by
  have loop : ∀ (items : List Item) (st' : TimeoutState),
      items.foldl (fun st' it =>
        if 0 < timespecCompare it.2 st.clock then st'
        else deregisterTimeout it.1 (triggerTimeout it.1 st')) st' =
      fireAll ((items.filter fun it => !decide (st.clock < it.2)).map (·.1)) st' := by
    intro items
    induction items with
    | nil =>
        intro st'
        rfl
    | cons it items ih =>
        intro st'
        rw [List.foldl_cons, ih]
        by_cases later : st.clock < it.2
        · simp [timespecCompare_pos, later]
        · simp [timespecCompare_pos, later, fireAll]
  exact loop _ st

theorem mem_dueIds : id ∈ dueIds st ↔ Due st id := by
  simp only [dueIds, List.mem_map, List.mem_filter, Bool.not_eq_true', decide_eq_false_iff_not,
    not_lt]
  constructor
  · rintro ⟨it, ⟨member, early⟩, rfl⟩
    exact ⟨it.2, AList.mem_lookup_iff.mpr member, early⟩
  · rintro ⟨deadline, found, early⟩
    exact ⟨⟨id, deadline⟩, ⟨AList.mem_lookup_iff.mp found, early⟩, rfl⟩

theorem dueIds_nodup (st : TimeoutState) : (dueIds st).Nodup :=
  (List.filter_sublist.map _).nodup st.timeouts.nodupKeys

theorem fires_fireAll {ids : List TaskId} (clock : Timespec) (nodup : ids.Nodup)
    (exact' : ∀ id, id ∈ ids ↔ Fired st id)
    (leap : Starved st → ∃ id, Earliest st id clock) (still : ¬ Starved st → clock = st.clock) :
    Fires st (fireAll ids { st with clock }) where
  once := by
    intro id fired
    rw [fireAll_triggered, List.count_append, List.count_eq_one_of_mem nodup ((exact' id).mpr fired)]
  silent := by
    intro id quiet
    rw [fireAll_triggered, List.count_append,
      List.count_eq_zero_of_not_mem fun member => quiet ((exact' id).mp member), Nat.add_zero]
  available := by
    intro id
    rw [fireAll_tset, exact']
  gone := by
    intro id fired
    rw [fireAll_lookup, if_pos ((exact' id).mpr fired)]
  kept := by
    intro id quiet
    rw [fireAll_lookup, if_neg fun member => quiet ((exact' id).mp member)]
  leap := by
    intro starved
    rw [fireAll_clock]
    exact leap starved
  clock := by
    intro fed
    rw [fireAll_clock]
    exact still fed

end Deadlines

section Search

/-- What the search of `_time_leap` knows after some items: no deadline within the bound of the
first `min`, or the least one with whether another item has it too. -/
inductive Scanned (items : List Item) (least : MinTimeout) : Prop where
  | beyond (start : least = minStart) (late : ∀ it ∈ items, int32Max < it.2)
  | found (named : least.key ≠ noTask) (member : ⟨least.key, least.deadline⟩ ∈ items)
      (within : least.deadline ≤ int32Max) (bound : ∀ it ∈ items, least.deadline ≤ it.2)
      (multiple : least.multiple = true ↔ ∃ it ∈ items, it.1 ≠ least.key ∧ it.2 = least.deadline)

variable {items : List Item} {least : MinTimeout} {it : Item}

theorem minStep_later (later : least.deadline < it.2) : minStep least it = least := by
  simp [minStep, timespecCompare_pos, later]

theorem minStep_equal (equal : it.2 = least.deadline) :
    minStep least it = { key := it.1, deadline := it.2, multiple := least.key != noTask } := by
  have zero : timespecCompare it.2 least.deadline = 0 := timespecCompare_eq_zero.mpr equal
  simp [minStep, zero]

theorem minStep_earlier (earlier : it.2 < least.deadline) :
    minStep least it = { key := it.1, deadline := it.2, multiple := false } := by
  have skip : ¬ 0 < timespecCompare it.2 least.deadline := by
    rw [timespecCompare_pos]
    exact not_lt.mpr earlier.le
  have other : timespecCompare it.2 least.deadline ≠ 0 := by
    rw [Ne, timespecCompare_eq_zero]
    exact earlier.ne
  simp [minStep, skip, other]

theorem Scanned.new (named : it.1 ≠ noTask) (within : it.2 ≤ int32Max)
    (least : ∀ other ∈ items, it.2 < other.2) :
    Scanned (items ++ [it]) { key := it.1, deadline := it.2, multiple := false } := by
  refine .found named (by simp) within ?_ ?_
  · intro other member
    rcases List.mem_append.mp member with old | last
    · exact (least other old).le
    · rw [List.mem_singleton.mp last]
  · simp only [Bool.false_eq_true, false_iff, not_exists, not_and]
    intro other member apart
    rcases List.mem_append.mp member with old | last
    · exact (least other old).ne'
    · rw [List.mem_singleton.mp last] at apart
      exact absurd rfl apart

theorem Scanned.snoc (scanned : Scanned items least) (named : it.1 ≠ noTask)
    (fresh : it.1 ∉ items.map (·.1)) : Scanned (items ++ [it]) (minStep least it) := by
  cases scanned with
  | beyond start late =>
      subst start
      by_cases inside : it.2 ≤ int32Max
      · have below : ∀ other ∈ items, it.2 < other.2 := fun other member =>
          lt_of_le_of_lt inside (late other member)
        have step : minStep minStart it = { key := it.1, deadline := it.2, multiple := false } := by
          rcases lt_or_eq_of_le inside with earlier | equal
          · exact minStep_earlier earlier
          · rw [minStep_equal equal]
            rfl
        rw [step]
        exact .new named inside below
      · rw [minStep_later (not_le.mp inside)]
        refine .beyond rfl ?_
        intro other member
        rcases List.mem_append.mp member with old | last
        · exact late other old
        · rw [List.mem_singleton.mp last]
          exact not_le.mp inside
  | found known member within bound multiple =>
      rcases lt_trichotomy it.2 least.deadline with earlier | equal | later
      · rw [minStep_earlier earlier]
        refine .new named (earlier.le.trans within) ?_
        intro other old
        exact lt_of_lt_of_le earlier (bound other old)
      · have flag : (least.key != noTask) = true := by
          simpa using known
        rw [minStep_equal equal, flag]
        refine .found named (by simp) (equal ▸ within) ?_ ?_
        · intro other inside
          rcases List.mem_append.mp inside with old | last
          · exact equal ▸ bound other old
          · rw [List.mem_singleton.mp last]
        · simp only [true_iff]
          refine ⟨⟨least.key, least.deadline⟩, by simp [member], ?_, equal.symm⟩
          intro same
          exact fresh (same ▸ List.mem_map_of_mem member)
      · rw [minStep_later later]
        refine .found known (by simp [member]) within ?_ ?_
        · intro other inside
          rcases List.mem_append.mp inside with old | last
          · exact bound other old
          · rw [List.mem_singleton.mp last]
            exact later.le
        · rw [multiple]
          constructor
          · rintro ⟨other, old, facts⟩
            exact ⟨other, by simp [old], facts⟩
          · rintro ⟨other, inside, apart, equal⟩
            rcases List.mem_append.mp inside with old | last
            · exact ⟨other, old, apart, equal⟩
            · rw [List.mem_singleton.mp last] at equal
              exact absurd equal later.ne'

theorem search_scanned (items : List Item) (distinct : (items.map (·.1)).Nodup)
    (named : ∀ it ∈ items, it.1 ≠ noTask) : Scanned items (items.foldl minStep minStart) := by
  induction items using List.reverseRecOn with
  | nil => exact .beyond rfl fun _ member => absurd member List.not_mem_nil
  | append_singleton items it ih =>
      rw [List.map_append, List.nodup_append_comm] at distinct
      obtain ⟨fresh, rest⟩ := List.nodup_cons.mp distinct
      rw [List.foldl_append]
      apply Scanned.snoc
      · exact ih rest fun other member => named other (by simp [member])
      · exact named it (by simp)
      · exact fresh

end Search

section Handle

variable {st : TimeoutState}

theorem entries_named (named : noTask ∉ st.timeouts) :
    ∀ it ∈ st.timeouts.entries, it.1 ≠ noTask := by
  intro it member same
  apply named
  rw [← same, AList.mem_keys]
  exact List.mem_map_of_mem member

theorem Starved.ahead (starved : Starved st) {id : TaskId} {deadline : Timespec}
    (found : st.timeouts.lookup id = some deadline) : st.clock < deadline := by
  apply not_le.mp
  intro early
  exact starved.early id ⟨deadline, found, early⟩

theorem leap_ahead {ts now : Timespec} (ahead : now < ts) : lottoClockLeap ts now = .ok ts := by
  have other : timespecCompare ts now ≠ 0 := by
    rw [Ne, timespecCompare_eq_zero]
    exact ahead.ne'
  simp [lottoClockLeap, other, timespecCompare_pos.mpr ahead]

theorem Starved.fired_iff (starved : Starved st) {least : TaskId} {deadline : Timespec}
    (earliest : Earliest st least deadline) (id : TaskId) :
    Fired st id ↔ st.timeouts.lookup id = some deadline := by
  constructor
  · rintro (due | ⟨_, other, found, bound⟩)
    · exact absurd due (starved.early id)
    · have same : other = deadline :=
        le_antisymm (bound least deadline earliest.1) (earliest.2 id other found)
      rw [found, same]
  · intro found
    exact Or.inr ⟨starved, deadline, found, earliest.2⟩

theorem timeLeap_fires (named : noTask ∉ st.timeouts) (starved : Starved st)
    (within : ∃ id deadline, st.timeouts.lookup id = some deadline ∧ deadline ≤ int32Max) :
    ∃ st', timeLeap st = .ok st' ∧ Fires st st' := by
  obtain ⟨near, deadline, found, inside⟩ := within
  generalize search : st.timeouts.entries.foldl minStep minStart = least
  have scanned := search_scanned st.timeouts.entries st.timeouts.nodupKeys (entries_named named)
  rw [search] at scanned
  cases scanned with
  | beyond _ late =>
      have beyond := late ⟨near, deadline⟩ (AList.mem_lookup_iff.mp found)
      exact absurd beyond (not_lt.mpr inside)
  | found known member _ bound multiple =>
      have earliest : Earliest st least.key least.deadline := by
        refine ⟨AList.mem_lookup_iff.mpr member, ?_⟩
        intro other later there
        exact bound ⟨other, later⟩ (AList.mem_lookup_iff.mp there)
      have leaped := leap_ahead (starved.ahead earliest.1)
      have key : (least.key != noTask) = true := by
        simpa using known
      have fires : ∀ ids : List TaskId, ids.Nodup →
          (∀ id, id ∈ ids ↔ st.timeouts.lookup id = some least.deadline) →
          Fires st (fireAll ids { st with clock := least.deadline }) := by
        intro ids nodup just
        apply fires_fireAll least.deadline nodup
        · intro id
          rw [just, starved.fired_iff earliest]
        · exact fun _ => ⟨least.key, earliest⟩
        · exact fun fed => absurd starved fed
      simp only [timeLeap, search, key, check_true, ok_bind, leaped]
      by_cases shared : least.multiple = true
      · rw [if_pos shared, checkDeadlines_eq]
        refine ⟨_, rfl, fires _ (dueIds_nodup _) ?_⟩
        intro id
        rw [mem_dueIds]
        constructor
        · rintro ⟨other, there, early⟩
          rw [there, le_antisymm early (earliest.2 id other there)]
        · intro there
          exact ⟨least.deadline, there, le_refl _⟩
      · rw [if_neg shared]
        refine ⟨_, rfl, fires [least.key] (List.nodup_singleton _) ?_⟩
        intro id
        rw [List.mem_singleton]
        constructor
        · rintro rfl
          exact earliest.1
        · intro there
          by_contra apart
          apply shared
          exact multiple.mpr ⟨⟨id, least.deadline⟩, AList.mem_lookup_iff.mp there, apart, rfl⟩

theorem timeLeap_fails (named : noTask ∉ st.timeouts)
    (beyond : ∀ id deadline, st.timeouts.lookup id = some deadline → int32Max < deadline) :
    timeLeap st = .error .timeoutNoTask := by
  generalize search : st.timeouts.entries.foldl minStep minStart = least
  have scanned := search_scanned st.timeouts.entries st.timeouts.nodupKeys (entries_named named)
  rw [search] at scanned
  cases scanned with
  | beyond start _ =>
      rw [start] at search
      simp only [timeLeap, search]
      rfl
  | found _ member within _ _ =>
      exact absurd within (not_le.mpr (beyond _ _ (AList.mem_lookup_iff.mpr member)))

theorem handle_fed (fed : ¬ Starved st) : ∃ st', timeoutHandle st = .ok st' ∧ Fires st st' := by
  have due : ∀ id, Fired st id ↔ Due st id := by
    intro id
    refine ⟨?_, Or.inl⟩
    rintro (due | ⟨starved, _⟩)
    · exact due
    · exact absurd starved fed
  have fires : Fires st (fireAll (dueIds st) st) := by
    apply fires_fireAll st.clock (dueIds_nodup st)
    · intro id
      rw [mem_dueIds, due]
    · exact fun starved => absurd starved fed
    · exact fun _ => rfl
  unfold timeoutHandle
  by_cases none : st.timeouts.keys.length = 0
  · rw [if_pos none]
    have empty : dueIds st = [] := by
      have items : st.timeouts.entries = [] := by
        simpa [AList.keys, List.keys] using none
      simp [dueIds, items]
    rw [empty] at fires
    exact ⟨st, rfl, fires⟩
  · rw [if_neg none, checkDeadlines_eq]
    have busy : 0 < (fireAll (dueIds st) st).tset.size := by
      rw [Tidset.size_pos_iff]
      by_contra idle
      apply fed
      refine ⟨?_, ?_, ?_⟩
      · by_contra some
        obtain ⟨id, member⟩ := Tidset.size_pos_iff.mp (Nat.pos_of_ne_zero some)
        exact idle ⟨id, (fireAll_tset _ _).mpr (Or.inl member)⟩
      · intro nil
        exact none (by rw [nil]; rfl)
      · intro id there
        exact idle ⟨id, (fireAll_tset _ _).mpr (Or.inr (mem_dueIds.mpr there))⟩
    exact ⟨_, if_pos busy, fires⟩

theorem handle_starved (starved : Starved st) : timeoutHandle st = timeLeap st := by
  have empty : dueIds st = [] := by
    apply List.eq_nil_iff_forall_not_mem.mpr
    intro id member
    exact starved.early id (mem_dueIds.mp member)
  have some : st.timeouts.keys.length ≠ 0 := by
    intro zero
    exact starved.waiting (List.eq_nil_of_length_eq_zero zero)
  have idle : ¬ 0 < st.tset.size := by
    rw [starved.idle]
    exact Nat.lt_irrefl 0
  rw [timeoutHandle, if_neg some, checkDeadlines_eq, empty]
  exact if_neg idle

end Handle

/-- One call fires the right timeouts exactly where a starved system has a deadline within the
bound of the search. -/
theorem timeouts_fire_iff (st : TimeoutState) (named : noTask ∉ st.timeouts) :
    (∃ st', timeoutHandle st = .ok st' ∧ Fires st st') ↔
      (Starved st →
        ∃ id deadline, st.timeouts.lookup id = some deadline ∧ deadline ≤ int32Max) := by
  by_cases starved : Starved st
  · rw [handle_starved starved]
    constructor
    · rintro ⟨st', ran, _⟩ _
      by_contra none
      have beyond : ∀ id deadline, st.timeouts.lookup id = some deadline → int32Max < deadline := by
        intro id deadline found
        apply not_le.mp
        intro inside
        exact none ⟨id, deadline, found, inside⟩
      rw [timeLeap_fails named beyond] at ran
      cases ran
    · intro within
      exact timeLeap_fires named starved (within starved)
  · exact ⟨fun _ again => absurd again starved, fun _ => handle_fed starved⟩

def sharedDeadline : TimeoutState :=
  { timeouts := AList.insert 1 ⟨5, 0⟩ (AList.insert 2 ⟨9, 0⟩ (AList.insert 3 ⟨5, 0⟩ ∅))
    clock := ⟨0, 0⟩, tset := .empty, triggered := [] }

theorem timeouts_fire_shared : ∃ st', timeoutHandle sharedDeadline = .ok st' ∧
    Fires sharedDeadline st' :=
  (timeouts_fire_iff sharedDeadline (by decide)).mpr
    fun _ => ⟨1, ⟨5, 0⟩, by decide, not_lt.mp (timespecCompare_pos.not.mp (by decide))⟩

def polledForever : TimeoutState :=
  { timeouts := AList.insert 1 ⟨18446744073, 707551616⟩ ∅
    clock := ⟨0, 0⟩, tset := .empty, triggered := [] }

theorem polled_forever_fails :
    ¬ ∀ st : TimeoutState, noTask ∉ st.timeouts →
      ∃ st', timeoutHandle st = .ok st' ∧ Fires st st' := by
  intro fires
  obtain ⟨st', ran, _⟩ := fires polledForever (by decide)
  have failed : timeoutHandle polledForever = .error .timeoutNoTask := by decide
  rw [failed] at ran
  cases ran

end Lotto.TimeoutFires
