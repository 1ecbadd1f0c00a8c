import Mathlib.Data.List.Chain
import Lotto.RegionPreemption

namespace Lotto.RegionNesting

open Library.FaultRun Library.KeyMap

abbrev Capture := CapturePoint × Decision

def depthAfter (id : TaskId) (depth : Nat) (cp : CapturePoint) : Nat :=
  if cp.id ≠ id then depth
  else if cp.typeId = eventRegionPreemptionIn then depth + 1
  else if cp.typeId = eventRegionPreemptionOut then depth - 1
  else if cp.typeId = eventTaskFini then 0
  else depth

def nestingDepth (id : TaskId) (captures : List Capture) : Nat :=
  captures.foldl (fun depth c => depthAfter id depth c.1) 0

structure WellBracketed (captures : List Capture) : Prop where
  tasks : ∀ c ∈ captures, c.1.id ≠ noTask
  closes : ∀ before c, before ++ [c] <+: captures → c.1.typeId = eventRegionPreemptionOut →
    0 < nestingDepth c.1.id before

def counterOf (st : RegionState) (id : TaskId) : Nat := (st.counters.lookup id).getD 0

def entries (st : RegionState) (id : TaskId) : Nat :=
  counterOf st id + if st.task = id then 1 else 0

def Tracks (st : RegionState) (captures : List Capture) : Prop :=
  ∀ id, id ≠ noTask → entries st id = nestingDepth id captures

/-- No assertion fails and the handler knows the depth of every task, after every capture. A
task that has finished has depth zero. -/
def NestingKept (config : RegionPreemptionConfig) (captures : List Capture) : Prop :=
  ∀ before, before <+: captures →
    ∃ st, regionRun config before regionStart = .ok st ∧ Tracks st before

/-- A capture that does not reach the handler leaves the depth of its task alone. -/
def Harmless (before : List Capture) (c : Capture) : Prop :=
  c.2.skip = true → depthAfter c.1.id (nestingDepth c.1.id before) c.1 = nestingDepth c.1.id before

def delivered (captures : List Capture) : List Capture := captures.filter fun c => !c.2.skip

def ClosesAtOnce (c d : Capture) : Prop :=
  c.1.typeId = eventRegionPreemptionIn ∧ d.1.typeId = eventRegionPreemptionOut ∧ c.1.id = d.1.id

instance (c d : Capture) : Decidable (ClosesAtOnce c d) :=
  inferInstanceAs (Decidable (_ ∧ _))

/-- The handler sees every entry and exit, and no exit right after its entry. -/
structure Observed (captures : List Capture) : Prop where
  harmless : ∀ before c, before ++ [c] <+: captures → Harmless before c
  apart : (delivered captures).IsChain fun c d => ¬ClosesAtOnce c d

section Handler

variable {config : RegionPreemptionConfig} {cp : CapturePoint} {e : Decision} {st st' : RegionState}

theorem enterRegion_task (st : RegionState) : (enterRegion st).task = noTask := by
  unfold enterRegion
  by_cases idle : st.task = noTask
  · rw [if_pos idle]
    exact idle
  · rw [if_neg idle]
    cases st.counters.lookup st.task <;> rfl

theorem enterRegion_counter {id : TaskId} (named : id ≠ noTask) (st : RegionState) :
    counterOf (enterRegion st) id = entries st id := by
  unfold enterRegion entries
  by_cases idle : st.task = noTask
  · have other : st.task ≠ id := by
      rw [idle]
      exact Ne.symm named
    simp [idle, Ne.symm named]
  · rw [if_neg idle]
    cases found : st.counters.lookup st.task with
    | none =>
        by_cases same : st.task = id
        · subst same
          simp [counterOf, found]
        · simp [counterOf, AList.lookup_insert_ne (Ne.symm same), same]
    | some counter =>
        have known : st.task ∈ st.counters := AList.lookup_isSome.mp (by simp [found])
        by_cases same : st.task = id
        · subst same
          simp [counterOf, lookup_replace known, found]
        · simp [counterOf, lookup_replace known, same, Ne.symm same]

theorem regionEnter_ok (cp : CapturePoint) (st : RegionState) :
    ∃ st', regionEnter cp st = .ok st' ∧
      st'.task = (if cp.typeId = eventRegionPreemptionIn then cp.id else noTask) ∧
      ∀ id, id ≠ noTask → entries st' id =
        entries st id + if cp.typeId = eventRegionPreemptionIn ∧ cp.id = id then 1 else 0 := by
  unfold regionEnter
  by_cases enters : cp.typeId = eventRegionPreemptionIn
  · refine ⟨{ enterRegion st with task := cp.id }, ?_, ?_, ?_⟩
    · simp [enters, enterRegion_task]
    · simp [enters]
    · intro id named
      have counted := enterRegion_counter named st
      simp only [entries, enters, true_and] at counted ⊢
      rw [← counted]
      rfl
  · refine ⟨enterRegion st, ?_, ?_, ?_⟩
    · simp [enters]
    · simp [enters, enterRegion_task]
    · intro id named
      have counted := enterRegion_counter named st
      simp only [entries, enterRegion_task, Ne.symm named, enters, false_and, if_false,
        Nat.add_zero] at counted ⊢
      exact counted

theorem exitRegion_ok {tid : TaskId} (inside : 0 < counterOf st tid) (counted : st.task ≠ tid) :
    ∃ st', exitRegion tid st = .ok st' ∧
      ∀ id, entries st' id = if id = tid then entries st id - 1 else entries st id := by
  unfold exitRegion
  cases found : st.counters.lookup tid with
  | none => simp [counterOf, found] at inside
  | some counter =>
      have positive : 0 < counter := by
        simpa [counterOf, found] using inside
      have known : tid ∈ st.counters := AList.lookup_isSome.mp (by simp [found])
      refine ⟨_, by simp only [positive, decide_true, check_true, ok_bind]; rfl, ?_⟩
      intro id
      by_cases same : id = tid
      · subst same
        by_cases last : counter - 1 = 0
        · simp [entries, counterOf, counted, last, found]
        · simp [entries, counterOf, counted, last, lookup_replace known, found]
      · by_cases last : counter - 1 = 0
        · simp [entries, counterOf, counted, last, same]
        · simp [entries, counterOf, counted, last, lookup_replace known, same]

theorem exitRegion_deferred {tid : TaskId} (named : tid ≠ noTask) (deferred : st.task = tid)
    (ran : exitRegion tid st = .ok st') : entries st' tid + 2 = entries st tid := by
  unfold exitRegion at ran
  cases found : st.counters.lookup tid with
  | none => simp [found] at ran
  | some counter =>
      have known : tid ∈ st.counters := AList.lookup_isSome.mp (by simp [found])
      rw [found] at ran
      obtain ⟨_, positive, ran⟩ := bind_eq_ok.mp ran
      rw [check_ok_iff, decide_eq_true_iff] at positive
      cases ran
      have before : entries st tid = counter + 1 := by
        simp [entries, counterOf, found, deferred]
      rw [before]
      by_cases last : counter - 1 = 0
      · simp [entries, counterOf, deferred, last, Ne.symm named]
        omega
      · simp [entries, counterOf, deferred, last, lookup_replace known, Ne.symm named]
        omega

theorem exitTask_entries (tid id : TaskId) (named : id ≠ noTask) (st : RegionState) :
    entries (exitTask tid st) id = if id = tid then 0 else entries st id := by
  by_cases same : id = tid
  · subst same
    by_cases deferred : st.task = id
    · simp [entries, counterOf, exitTask, deferred, Ne.symm named]
    · simp [entries, counterOf, exitTask, deferred]
  · by_cases deferred : st.task = tid
    · simp [entries, counterOf, exitTask, deferred, same, Ne.symm same, Ne.symm named]
    · simp [entries, counterOf, exitTask, deferred, same]

theorem regionCheck_task (config : RegionPreemptionConfig) (tid : TaskId) (st : RegionState) :
    (regionCheck config tid st).task = st.task := by
  unfold regionCheck
  split_ifs <;> rfl

theorem regionCheck_counters (config : RegionPreemptionConfig) (tid : TaskId) (st : RegionState) :
    (regionCheck config tid st).counters = st.counters := by
  unfold regionCheck
  split_ifs <;> rfl

theorem regionCheck_entries (config : RegionPreemptionConfig) (tid id : TaskId)
    (st : RegionState) : entries (regionCheck config tid st) id = entries st id := by
  simp only [entries, counterOf, regionCheck_task, regionCheck_counters]

theorem pinDecision_ok (config : RegionPreemptionConfig) (cp : CapturePoint) (e : Decision)
    (st : RegionState) : ∃ e', pinDecision (regionPins config cp e st) cp e = .ok e' := by
  unfold pinDecision
  by_cases pins : regionPins config cp e st = true
  · have member : cp.id ∈ e.tset := by
      simp only [regionPins, Bool.and_eq_true] at pins
      simpa using pins.1.2
    obtain ⟨tset, first, _⟩ := Tidset.makeFirst_ok member
    rw [if_pos pins, first, ok_bind]
    exact ⟨_, rfl⟩
  · rw [if_neg pins]
    exact ⟨e, rfl⟩

theorem handle_ok_iff (enabled : config.enabled = true) (named : cp.id ≠ noTask) :
    (∃ e', regionPreemptionHandle config cp e st = .ok (e', st')) ↔
      ∃ mid, regionLeave cp (regionCheck config cp.id st) = .ok mid ∧
        regionEnter cp { mid with warn := regionPins config cp e mid } = .ok st' := by
  have name : (cp.id != noTask) = true := by
    simpa using named
  unfold regionPreemptionHandle
  rw [name, check_true, ok_bind, enabled]
  simp only [Bool.not_true, Bool.false_eq_true, if_false]
  constructor
  · rintro ⟨e', ran⟩
    obtain ⟨mid, left, ran⟩ := bind_eq_ok.mp ran
    obtain ⟨pinned, _, ran⟩ := bind_eq_ok.mp ran
    obtain ⟨last, entered, ran⟩ := bind_eq_ok.mp ran
    cases ran
    exact ⟨mid, left, entered⟩
  · rintro ⟨mid, left, entered⟩
    obtain ⟨e', pinned⟩ := pinDecision_ok config cp e mid
    refine ⟨e', ?_⟩
    rw [left, ok_bind, pinned, ok_bind, entered, ok_bind]

theorem out_ne_in : eventRegionPreemptionOut ≠ eventRegionPreemptionIn := by decide

theorem fini_ne_in : eventTaskFini ≠ eventRegionPreemptionIn := by decide

theorem fini_ne_out : eventTaskFini ≠ eventRegionPreemptionOut := by decide

def depthLeft (id : TaskId) (depth : Nat) (cp : CapturePoint) : Nat :=
  if cp.typeId = eventRegionPreemptionIn then depth else depthAfter id depth cp

theorem depthAfter_enter (id : TaskId) (depth : Nat) (cp : CapturePoint) :
    depthAfter id depth cp = depthLeft id depth cp +
      if cp.typeId = eventRegionPreemptionIn ∧ cp.id = id then 1 else 0 := by
  unfold depthLeft depthAfter
  by_cases same : cp.id = id <;> by_cases enters : cp.typeId = eventRegionPreemptionIn <;>
    simp [same, enters]

theorem regionLeave_counts
    (closes : cp.typeId = eventRegionPreemptionOut → st.task ≠ cp.id ∧ 0 < counterOf st cp.id) :
    ∃ mid, regionLeave cp st = .ok mid ∧
      ∀ id, id ≠ noTask → entries mid id = depthLeft id (entries st id) cp := by
  unfold regionLeave depthLeft depthAfter
  by_cases exits : cp.typeId = eventRegionPreemptionOut
  · obtain ⟨counted, inside⟩ := closes exits
    obtain ⟨mid, left, after⟩ := exitRegion_ok inside counted
    refine ⟨mid, by rw [if_pos exits, left], ?_⟩
    intro id _
    rw [after id, exits, if_neg out_ne_in, if_neg out_ne_in, if_pos rfl]
    by_cases same : cp.id = id
    · simp [same]
    · simp [same, Ne.symm same]
  · by_cases ends : cp.typeId = eventTaskFini
    · refine ⟨exitTask cp.id st, by rw [if_neg exits, if_pos ends], ?_⟩
      intro id name
      rw [exitTask_entries _ _ name, ends, if_neg fini_ne_in, if_neg fini_ne_in,
        if_neg fini_ne_out, if_pos rfl]
      by_cases same : cp.id = id
      · simp [same]
      · simp [same, Ne.symm same]
    · refine ⟨st, by rw [if_neg exits, if_neg ends], ?_⟩
      intro id _
      by_cases enters : cp.typeId = eventRegionPreemptionIn
      · rw [if_pos enters]
      · simp [enters, exits, ends]

theorem handle_counts (enabled : config.enabled = true) (named : cp.id ≠ noTask)
    (closes : cp.typeId = eventRegionPreemptionOut → st.task ≠ cp.id ∧ 0 < counterOf st cp.id) :
    ∃ e' st', regionPreemptionHandle config cp e st = .ok (e', st') ∧
      st'.task = (if cp.typeId = eventRegionPreemptionIn then cp.id else noTask) ∧
      ∀ id, id ≠ noTask → entries st' id = depthAfter id (entries st id) cp := by
  have still : cp.typeId = eventRegionPreemptionOut →
      (regionCheck config cp.id st).task ≠ cp.id ∧
        0 < counterOf (regionCheck config cp.id st) cp.id := by
    intro exits
    simpa only [regionCheck_task, counterOf, regionCheck_counters] using closes exits
  obtain ⟨mid, left, counted⟩ := regionLeave_counts still
  obtain ⟨st', entered, pending, total⟩ :=
    regionEnter_ok cp { mid with warn := regionPins config cp e mid }
  obtain ⟨e', ran⟩ := (handle_ok_iff enabled named).mpr ⟨mid, left, entered⟩
  refine ⟨e', st', ran, pending, ?_⟩
  intro id name
  calc
    entries st' id = entries mid id +
        if cp.typeId = eventRegionPreemptionIn ∧ cp.id = id then 1 else 0 := total id name
    _ = depthAfter id (entries st id) cp := by
      rw [counted id name, regionCheck_entries, ← depthAfter_enter]

theorem handle_loses (enabled : config.enabled = true) (named : cp.id ≠ noTask)
    (exits : cp.typeId = eventRegionPreemptionOut) (deferred : st.task = cp.id) {e' : Decision}
    (ran : regionPreemptionHandle config cp e st = .ok (e', st')) :
    entries st' cp.id ≠ depthAfter cp.id (entries st cp.id) cp := by
  obtain ⟨mid, left, entered⟩ := (handle_ok_iff enabled named).mp ⟨e', ran⟩
  rw [regionLeave, if_pos exits] at left
  have lost := exitRegion_deferred named (by rw [regionCheck_task, deferred]) left
  obtain ⟨last, again, _, total⟩ :=
    regionEnter_ok cp { mid with warn := regionPins config cp e mid }
  rw [entered] at again
  cases again
  have same : entries st' cp.id = entries mid cp.id := by
    have total := total cp.id named
    rw [if_neg (by simp [exits, out_ne_in])] at total
    exact total
  rw [regionCheck_entries] at lost
  simp only [depthAfter, exits, out_ne_in, ne_eq, not_true_eq_false, if_false, if_true]
  omega

end Handler

def pendingAfter (captures : List Capture) : TaskId :=
  match (delivered captures).getLast? with
  | some c => if c.1.typeId = eventRegionPreemptionIn then c.1.id else noTask
  | none => noTask

section Run

variable {config : RegionPreemptionConfig} {captures : List Capture} {c : Capture}
  {st st' : RegionState}

theorem nestingDepth_snoc (id : TaskId) (captures : List Capture) (c : Capture) :
    nestingDepth id (captures ++ [c]) = depthAfter id (nestingDepth id captures) c.1 := by
  simp [nestingDepth]

theorem delivered_skipped (captures : List Capture) (skipped : c.2.skip = true) :
    delivered (captures ++ [c]) = delivered captures := by
  simp [delivered, skipped]

theorem delivered_reaches (captures : List Capture) (reaches : ¬c.2.skip = true) :
    delivered (captures ++ [c]) = delivered captures ++ [c] := by
  simp [delivered, reaches]

theorem regionRun_skipped (captures : List Capture) (skipped : c.2.skip = true)
    (st : RegionState) : regionRun config (captures ++ [c]) st = regionRun config captures st := by
  have whole : regionRun config (captures ++ [c]) st =
      regionRun config captures st >>= fun mid => .ok mid := by
    unfold regionRun
    rw [List.foldlM_append]
    simp [skipped]
  rw [whole]
  cases regionRun config captures st <;> rfl

theorem regionRun_reaches (reaches : ¬c.2.skip = true) :
    regionRun config (captures ++ [c]) st = .ok st' ↔
      ∃ mid, regionRun config captures st = .ok mid ∧
        ∃ e', regionPreemptionHandle config c.1 c.2 mid = .ok (e', st') := by
  unfold regionRun
  rw [List.foldlM_append, bind_eq_ok]
  refine exists_congr fun mid => and_congr_right fun _ => ?_
  simp only [List.foldlM_cons, List.foldlM_nil, if_neg reaches]
  cases handled : regionPreemptionHandle config c.1 c.2 mid with
  | error fault => simp [Except.map]
  | ok result =>
      obtain ⟨e', last⟩ := result
      simp [Except.map]

theorem WellBracketed.init (well : WellBracketed (captures ++ [c])) : WellBracketed captures where
  tasks := fun d member => well.tasks d (List.mem_append_left _ member)
  closes := fun before d inside exits =>
    well.closes before d (inside.trans (List.prefix_append _ _)) exits

theorem wellBracketed_nil : WellBracketed [] where
  tasks := fun _ member => absurd member List.not_mem_nil
  closes := by
    intro before c inside
    simpa using List.prefix_nil.mp inside

theorem WellBracketed.snoc (well : WellBracketed captures) (named : c.1.id ≠ noTask)
    (closes : c.1.typeId = eventRegionPreemptionOut → 0 < nestingDepth c.1.id captures) :
    WellBracketed (captures ++ [c]) where
  tasks := by
    intro d member
    rcases List.mem_append.mp member with old | new
    · exact well.tasks d old
    · rw [List.mem_singleton.mp new]
      exact named
  closes := by
    intro before d inside exits
    rcases List.prefix_concat_iff.mp inside with whole | earlier
    · obtain ⟨rfl, rfl⟩ := List.append_inj' whole rfl |>.imp id List.singleton_inj.mp
      exact closes exits
    · exact well.closes before d earlier exits

theorem Observed.init (observed : Observed (captures ++ [c])) : Observed captures where
  harmless := fun before d inside =>
    observed.harmless before d (inside.trans (List.prefix_append _ _))
  apart := by
    by_cases skipped : c.2.skip = true
    · rw [← delivered_skipped captures skipped]
      exact observed.apart
    · have apart := observed.apart
      rw [delivered_reaches captures skipped] at apart
      exact apart.left_of_append

theorem observed_nil : Observed [] where
  harmless := by
    intro before c inside
    simpa using List.prefix_nil.mp inside
  apart := List.isChain_nil

theorem Observed.snoc (observed : Observed captures) (harmless : Harmless captures c)
    (apart : ¬c.2.skip = true → ∀ d ∈ (delivered captures).getLast?, ¬ClosesAtOnce d c) :
    Observed (captures ++ [c]) where
  harmless := by
    intro before d inside
    rcases List.prefix_concat_iff.mp inside with whole | earlier
    · obtain ⟨rfl, rfl⟩ := List.append_inj' whole rfl |>.imp id List.singleton_inj.mp
      exact harmless
    · exact observed.harmless before d earlier
  apart := by
    by_cases skipped : c.2.skip = true
    · rw [delivered_skipped captures skipped]
      exact observed.apart
    · rw [delivered_reaches captures skipped]
      refine List.isChain_append.mpr ⟨observed.apart, List.isChain_singleton _, ?_⟩
      intro d last d' first
      cases first
      exact apart skipped d last

/-- A capture that does not reach the handler and changes no depth of its own task changes none. -/
theorem Harmless.depths (harmless : Harmless captures c) (skipped : c.2.skip = true)
    (id : TaskId) : nestingDepth id (captures ++ [c]) = nestingDepth id captures := by
  rw [nestingDepth_snoc]
  by_cases same : c.1.id = id
  · subst same
    exact harmless skipped
  · rw [depthAfter, if_pos same]

/-- What the handler's state is after captures none of which closes a deferred entry. -/
structure Follows (st : RegionState) (captures : List Capture) : Prop where
  tracks : Tracks st captures
  pending : st.task = pendingAfter captures

theorem closesAtOnce_iff (named : c.1.id ≠ noTask) :
    (∀ d ∈ (delivered captures).getLast?, ¬ClosesAtOnce d c) ↔
      (c.1.typeId = eventRegionPreemptionOut → pendingAfter captures ≠ c.1.id) := by
  cases last : (delivered captures).getLast? with
  | none =>
      simp [pendingAfter, last, Ne.symm named]
  | some d =>
      by_cases enters : d.1.typeId = eventRegionPreemptionIn
      · simp [pendingAfter, last, ClosesAtOnce, enters]
      · simp [pendingAfter, last, ClosesAtOnce, enters, Ne.symm named]

theorem Follows.snoc (follows : Follows st captures) (enabled : config.enabled = true)
    (well : WellBracketed (captures ++ [c])) (reaches : ¬c.2.skip = true)
    (apart : ∀ d ∈ (delivered captures).getLast?, ¬ClosesAtOnce d c) :
    ∃ e' st', regionPreemptionHandle config c.1 c.2 st = .ok (e', st') ∧
      Follows st' (captures ++ [c]) := by
  have named : c.1.id ≠ noTask := well.tasks c (by simp)
  have counted : c.1.typeId = eventRegionPreemptionOut →
      st.task ≠ c.1.id ∧ 0 < counterOf st c.1.id := by
    intro exits
    have other : st.task ≠ c.1.id := by
      rw [follows.pending]
      exact (closesAtOnce_iff named).mp apart exits
    have inside := well.closes captures c (List.prefix_refl _) exits
    rw [← follows.tracks _ named, entries, if_neg other] at inside
    exact ⟨other, inside⟩
  obtain ⟨e', st', handled, pending, total⟩ := handle_counts (e := c.2) enabled named counted
  refine ⟨e', st', handled, ?_, ?_⟩
  · intro id name
    rw [total id name, follows.tracks id name, nestingDepth_snoc]
  · simp [pending, pendingAfter, delivered_reaches captures reaches]

theorem follows_of_observed (enabled : config.enabled = true) (well : WellBracketed captures)
    (observed : Observed captures) :
    ∃ st, regionRun config captures regionStart = .ok st ∧ Follows st captures := by
  induction captures using List.reverseRecOn with
  | nil =>
      refine ⟨regionStart, rfl, ?_, rfl⟩
      intro id named
      simp [entries, counterOf, regionStart, nestingDepth, Ne.symm named]
  | append_singleton captures c ih =>
      obtain ⟨mid, ran, follows⟩ := ih well.init observed.init
      by_cases skipped : c.2.skip = true
      · have harmless := observed.harmless captures c (List.prefix_refl _)
        refine ⟨mid, by rw [regionRun_skipped captures skipped, ran], ?_, ?_⟩
        · intro id named
          rw [follows.tracks id named, harmless.depths skipped]
        · rw [follows.pending, pendingAfter, pendingAfter, delivered_skipped captures skipped]
      · have apart : ∀ d ∈ (delivered captures).getLast?, ¬ClosesAtOnce d c := by
          have apart := observed.apart
          rw [delivered_reaches captures skipped] at apart
          exact fun d last => (List.isChain_append.mp apart).2.2 d last c rfl
        obtain ⟨e', st', handled, follows⟩ := follows.snoc enabled well skipped apart
        exact ⟨st', (regionRun_reaches skipped).mpr ⟨mid, ran, e', handled⟩, follows⟩

theorem observed_of_kept (enabled : config.enabled = true) (well : WellBracketed captures)
    (kept : NestingKept config captures) : Observed captures := by
  induction captures using List.reverseRecOn with
  | nil => exact observed_nil
  | append_singleton captures c ih =>
      have earlier := ih well.init fun before inside =>
        kept before (inside.trans (List.prefix_append _ _))
      have named : c.1.id ≠ noTask := well.tasks c (by simp)
      obtain ⟨mid, ran, follows⟩ := follows_of_observed enabled well.init earlier
      obtain ⟨st', ranOn, tracks⟩ := kept _ (List.prefix_refl _)
      refine earlier.snoc ?_ ?_
      · -- the state of the handler, and so the depth that it knows, is the old one
        intro skipped
        rw [regionRun_skipped captures skipped, ran] at ranOn
        cases ranOn
        rw [← nestingDepth_snoc, ← tracks _ named, follows.tracks _ named]
      · intro reaches
        rw [closesAtOnce_iff named]
        intro exits deferred
        obtain ⟨mid', ran', e', handled⟩ := (regionRun_reaches reaches).mp ranOn
        rw [ran] at ran'
        cases ran'
        apply handle_loses enabled named exits (by rw [follows.pending, deferred]) handled
        rw [tracks _ named, nestingDepth_snoc, follows.tracks _ named]

end Run

/-- The handler follows the nesting of every task exactly where it sees every entry and exit and no
task leaves a region in the next capture that it sees after the one it entered it with. -/
theorem nesting_kept_iff (config : RegionPreemptionConfig) (captures : List Capture)
    (enabled : config.enabled = true) (well : WellBracketed captures) :
    NestingKept config captures ↔ Observed captures := by
  refine ⟨observed_of_kept enabled well, ?_⟩
  intro observed before inside
  have short : WellBracketed before := {
    tasks := fun c member => well.tasks c (inside.subset member)
    closes := fun first c within exits => well.closes first c (within.trans inside) exits }
  have early : Observed before := {
    harmless := fun first c within => observed.harmless first c (within.trans inside)
    apart := by
      obtain ⟨rest, rfl⟩ := inside
      have apart := observed.apart
      rw [delivered, List.filter_append] at apart
      exact apart.left_of_append }
  obtain ⟨st, ran, follows⟩ := follows_of_observed enabled short early
  exact ⟨st, ran, follows.tracks⟩

def regionCapture (id : TaskId) (typeId : TypeId) : Capture :=
  (plainPoint id typeId 0, plainDecision bothTasks)

def eventClockRead : TypeId := 197

def skippedCapture (id : TaskId) (typeId : TypeId) : Capture :=
  ((regionCapture id typeId).1, { (regionCapture id typeId).2 with skip := true })

def overlapping : List Capture :=
  [] ++ [regionCapture 1 eventRegionPreemptionIn] ++ [regionCapture 2 eventRegionPreemptionIn] ++
    [skippedCapture 1 eventClockRead] ++ [regionCapture 1 eventRegionPreemptionOut] ++
    [regionCapture 2 eventTaskFini]

theorem overlapping_bracketed : WellBracketed overlapping :=
  ((((wellBracketed_nil.snoc (by decide) (by decide)).snoc (by decide) (by decide)).snoc
    (by decide) (by decide)).snoc (by decide) (by decide)).snoc (by decide) (by decide)

theorem reaches {before : List Capture} {id : TaskId} {typeId : TypeId} :
    Harmless before (regionCapture id typeId) := fun skipped => absurd skipped Bool.false_ne_true

theorem overlapping_observed : Observed overlapping :=
  ((((observed_nil.snoc reaches (by decide)).snoc reaches (by decide)).snoc
    (fun _ => by decide) (by decide)).snoc reaches (by decide)).snoc reaches (by decide)

theorem nesting_kept_overlapping :
    NestingKept { enabled := true, defaultOn := true } overlapping :=
  (nesting_kept_iff _ _ rfl overlapping_bracketed).mpr overlapping_observed

/-- A region without a capture inside: the exit finds no entry of its task. -/
theorem empty_region_fails :
    ¬ ∀ (config : RegionPreemptionConfig) (captures : List Capture), config.enabled = true →
      WellBracketed captures → NestingKept config captures := by
  intro kept
  have bracketed : WellBracketed
      ([] ++ [regionCapture 1 eventRegionPreemptionIn] ++
        [regionCapture 1 eventRegionPreemptionOut]) :=
    (wellBracketed_nil.snoc (by decide) (by decide)).snoc (by decide) (by decide)
  obtain ⟨st, ran, _⟩ := kept { enabled := true, defaultOn := true } _ rfl bracketed _
    (List.prefix_refl _)
  have failed : regionRun { enabled := true, defaultOn := true }
      ([] ++ [regionCapture 1 eventRegionPreemptionIn] ++
        [regionCapture 1 eventRegionPreemptionOut]) regionStart = .error .regionUnknown := by
    decide
  rw [failed] at ran
  cases ran

end Lotto.RegionNesting
