import Lotto.Library.GuardedRun
import Lotto.PollSpecs
import Lotto.TimeoutFires

namespace Lotto.PollCounts

open Library.FaultRun Library.GuardedRun Library.KeyMap PollSpecs TimeoutFires

def polledEntries (polls : Map PollArgs) : List Pollfd := polls.entries.flatMap fun it => it.2.fds

def Polls (polls : Map PollArgs) (tid : TaskId) (fd : Int32) : Prop :=
  ∃ args, polls.lookup tid = some args ∧ ∃ p ∈ args.fds, p.fd = fd

structure Consistent (st : PollState) : Prop where
  waiters : ∀ tid fd, 0 ≤ fd.toInt → (tid ∈ waitersAt st.fds fd ↔ Polls st.polls tid fd)
  counts : ∀ fd bit, 0 ≤ fd.toInt →
    countAt st.fds fd bit = (polledEntries st.polls).countP (onBit fd bit)
  registered : ∀ key, key ∈ st.fds ↔
    ∃ fd : Int32, 0 ≤ fd.toInt ∧ key = fdKey fd ∧ ∃ bit, countAt st.fds fd bit ≠ 0

structure Core (st : PollState) : Prop where
  waiters : ∀ tid fd, 0 ≤ fd.toInt → (tid ∈ waitersAt st.fds fd ↔ Polls st.polls tid fd)
  counts : ∀ fd bit, 0 ≤ fd.toInt →
    countAt st.fds fd bit = (polledEntries st.polls).countP (onBit fd bit)
  keys : ∀ key ∈ st.fds, ∃ fd : Int32, 0 ≤ fd.toInt ∧ key = fdKey fd
  entries : ∀ tid args, st.polls.lookup tid = some args → tid ≠ noTask ∧
    ∀ p ∈ args.fds, 0 ≤ p.fd.toInt ∧ p.events.getLsbD 3 = true

variable {st st' : PollState} {polls : Map PollArgs} {tid id : TaskId} {args args' : PollArgs}

section Entries

theorem polledEntries_insert (absent : polls.lookup tid = none) :
    polledEntries (polls.insert tid args) = args.fds ++ polledEntries polls := by
  have unknown : tid ∉ polls := by
    intro known
    have found := AList.lookup_isSome.mpr known
    rw [absent] at found
    cases found
  rw [polledEntries, AList.entries_insert_of_notMem unknown, List.flatMap_cons, polledEntries]

theorem polledEntries_erase (found : polls.lookup tid = some args) :
    (polledEntries polls).Perm (args.fds ++ polledEntries (polls.erase tid)) := by
  have known : tid ∈ polls.entries.keys := AList.mem_keys.mpr (mem_of_lookup found)
  obtain ⟨value, before, after, _, whole, erased⟩ := List.exists_of_kerase known
  have same : value = args := by
    have entry : (⟨tid, value⟩ : Sigma fun _ : UInt64 => PollArgs) ∈ polls.entries := by
      rw [whole]
      simp
    have there := AList.mem_lookup_iff.mpr entry
    rw [found] at there
    exact (Option.some.inj there).symm
  have rest : (polls.erase tid).entries = before ++ after := erased
  rw [polledEntries, polledEntries, whole, rest, same]
  simp only [List.flatMap_append, List.flatMap_cons]
  exact List.perm_append_comm_assoc _ _ _

theorem polledEntries_replace {q : Pollfd → Bool} (found : polls.lookup tid = some args)
    (same : args'.fds.countP q = args.fds.countP q) :
    (polledEntries (polls.replace tid args')).countP q = (polledEntries polls).countP q := by
  have items : ∀ items : List (Sigma fun _ : UInt64 => PollArgs), items.dlookup tid = some args →
      ((items.kreplace tid args').flatMap fun it => it.2.fds).countP q =
        (items.flatMap fun it => it.2.fds).countP q := by
    intro items
    induction items with
    | nil => simp
    | cons it items ih =>
        intro first
        obtain ⟨key, value⟩ := it
        by_cases here : tid = key
        · subst here
          rw [List.dlookup_cons_eq] at first
          cases first
          simp [List.kreplace, List.lookmap_cons_some, List.countP_append, same]
        · rw [List.dlookup_cons_ne _ _ here] at first
          have later := ih first
          simp only [List.kreplace] at later ⊢
          simp [List.lookmap_cons_none, here, List.countP_append, later]
  exact items polls.entries found

end Entries

section Steps

theorem Core.alone (core : Core st) {item : PolledFd} {key : UInt64}
    (found : st.fds.lookup key = some item) (zero : unpolled item = true) :
    item.waiters.size = 0 := by
  obtain ⟨fd, nonneg, rfl⟩ := core.keys key (mem_of_lookup found)
  by_contra some
  obtain ⟨tid, member⟩ := Tidset.size_pos_iff.mp (Nat.pos_of_ne_zero some)
  rw [← waitersAt_found found] at member
  obtain ⟨args, polls, p, entry, same⟩ := (core.waiters tid fd nonneg).mp member
  -- the entry of the waiter has an error event
  have counted : (polledEntries st.polls).countP (onBit fd 3) ≠ 0 := by
    intro none
    have absent := List.countP_eq_zero.mp none p
      (List.mem_flatMap.mpr ⟨⟨tid, args⟩, AList.mem_lookup_iff.mp polls, entry⟩)
    have holds : onBit fd 3 p = true := by
      rw [onBit, same, beq_self_eq_true, Bool.true_and]
      exact ((core.entries tid args polls).2 p entry).2
    exact absent holds
  have count := core.counts fd 3 nonneg
  rw [countAt_found found, unpolled_iff.mp zero 3] at count
  omega

theorem cleanupFds_core (core : Core st) :
    ∃ st', cleanupFds st = .ok st' ∧ Core st' ∧ Consistent st' ∧ st'.polls = st.polls ∧
      st'.helpCounter = st.helpCounter := by
  obtain ⟨fds', ran, lookups⟩ := cleanupFds_loop st.fds st.fds.entries (by
    intro it member zero
    exact core.alone (AList.mem_lookup_iff.mpr member) zero)
  have kept : ∀ key v, fds'.lookup key = some v ↔ st.fds.lookup key = some v ∧ unpolled v = false := by
    intro key v
    rw [lookups]
    refine and_congr_right fun found => ?_
    rw [Bool.eq_false_iff, not_iff_not]
    refine ⟨?_, fun zero => ⟨⟨key, v⟩, AList.mem_lookup_iff.mp found, rfl, zero⟩⟩
    rintro ⟨⟨_, v'⟩, member, rfl, zero⟩
    have same := AList.mem_lookup_iff.mpr member
    rw [found] at same
    cases same
    exact zero
  have dropped : ∀ key, fds'.lookup key = none →
      ∀ v, st.fds.lookup key = some v → unpolled v = true := by
    intro key gone v found
    by_contra counts
    have there := (kept key v).mpr ⟨found, Bool.eq_false_iff.mpr counts⟩
    rw [gone] at there
    cases there
  have waiters : ∀ tid fd, tid ∈ waitersAt fds' fd ↔ tid ∈ waitersAt st.fds fd := by
    intro tid fd
    cases after : fds'.lookup (fdKey fd) with
    | some item => rw [waitersAt_found after, waitersAt_found ((kept _ item).mp after).1]
    | none =>
        rw [waitersAt_missing after]
        cases before : st.fds.lookup (fdKey fd) with
        | none => rw [waitersAt_missing before]
        | some item =>
            have empty := core.alone before (dropped _ after item before)
            rw [waitersAt_found before]
            refine ⟨fun member => absurd member (Tidset.not_mem_empty tid), fun member => ?_⟩
            have positive := Tidset.size_pos_iff.mpr ⟨tid, member⟩
            omega
  have counts : ∀ fd bit, countAt fds' fd bit = countAt st.fds fd bit := by
    intro fd bit
    cases after : fds'.lookup (fdKey fd) with
    | some item => rw [countAt_found after, countAt_found ((kept _ item).mp after).1]
    | none =>
        rw [countAt_missing after]
        cases before : st.fds.lookup (fdKey fd) with
        | none => rw [countAt_missing before]
        | some item =>
            rw [countAt_found before, unpolled_iff.mp (dropped _ after item before) bit]
  have keys : ∀ key ∈ fds', ∃ fd : Int32, 0 ≤ fd.toInt ∧ key = fdKey fd := by
    intro key known
    obtain ⟨item, found⟩ := Option.isSome_iff_exists.mp (AList.lookup_isSome.mpr known)
    exact core.keys key (mem_of_lookup ((kept key item).mp found).1)
  have after : Core { st with fds := fds' } := by
    refine ⟨?_, ?_, keys, core.entries⟩
    · intro tid fd nonneg
      rw [waiters]
      exact core.waiters tid fd nonneg
    · intro fd bit nonneg
      rw [counts]
      exact core.counts fd bit nonneg
  refine ⟨{ st with fds := fds' }, by rw [cleanupFds, ran, ok_bind], after,
    ⟨after.waiters, after.counts, ?_⟩, rfl, rfl⟩
  intro key
  refine ⟨?_, ?_⟩
  · intro known
    obtain ⟨fd, nonneg, rfl⟩ := keys key known
    obtain ⟨item, found⟩ := Option.isSome_iff_exists.mp (AList.lookup_isSome.mpr known)
    refine ⟨fd, nonneg, rfl, ?_⟩
    by_contra none
    have zero : unpolled item = true := by
      apply unpolled_iff.mpr
      intro bit
      rw [← countAt_found found]
      by_contra some
      exact none ⟨bit, some⟩
    rw [((kept _ item).mp found).2] at zero
    cases zero
  · rintro ⟨fd, _, rfl, bit, some⟩
    cases found : fds'.lookup (fdKey fd) with
    | none => exact absurd (countAt_missing found bit) some
    | some item => exact mem_of_lookup found

theorem cleanupPoll_core (core : Core st) (found : st.polls.lookup id = some args) :
    ∃ fds, cleanupPoll id args st = .ok { st with fds } ∧
      Core { st with fds, polls := st.polls.erase id } := by
  have entries := (core.entries id args found).2
  obtain ⟨fds, ran, after⟩ := unwatchAll id st.fds args.fds (by
    intro p member
    have nonneg := (entries p member).1
    have waits := (core.waiters id p.fd nonneg).mpr ⟨args, found, p, member, rfl⟩
    obtain ⟨item, there⟩ := registered_of_waiter waits
    exact ⟨nonneg, mem_of_lookup there⟩)
  have erased : ∀ tid fd, Polls (st.polls.erase id) tid fd ↔ tid ≠ id ∧ Polls st.polls tid fd := by
    intro tid fd
    simp only [Polls, lookup_erase_some]
    tauto
  refine ⟨fds, by rw [cleanupPoll, ran, ok_bind], ?_, ?_, ?_, ?_⟩
  · intro tid fd nonneg
    rw [after.waiters fd nonneg, core.waiters tid fd nonneg, erased]
    by_cases same : tid = id
    · subst same
      have own : Polls st.polls tid fd ↔ ∃ p ∈ args.fds, p.fd = fd := by
        simp [Polls, found]
      rw [own]
      simp
    · simp [same]
  · intro fd bit nonneg
    have all := (polledEntries_erase found).countP_eq (onBit fd bit)
    rw [List.countP_append] at all
    rw [after.counts fd bit nonneg, core.counts fd bit nonneg, all]
    push_cast
    omega
  · intro key known
    exact core.keys key ((after.keys key).mp known)
  · intro tid args' found'
    exact core.entries tid args' (lookup_erase_some.mp found').2

theorem cleanupPolls_loop (its : List (Sigma fun _ : UInt64 => PollArgs))
    (distinct : (its.map Sigma.fst).Nodup) (core : Core st)
    (entries : ∀ it ∈ its, st.polls.lookup it.1 = some it.2) :
    ∃ st', its.foldlM cleanupEntry st = .ok st' ∧ Core st' ∧
      (∀ tid, st.polls.lookup tid = none → st'.polls.lookup tid = none) := by
  induction its generalizing st with
  | nil => exact ⟨st, rfl, core, fun _ none => none⟩
  | cons it its ih =>
      obtain ⟨absent, distinct⟩ := List.nodup_cons.mp distinct
      have found := entries it List.mem_cons_self
      by_cases waits : it.2.ret = 0 ∧ 0 < it.2.fds.length ∧ it.2.timeout ≠ 0
      · obtain ⟨st', ran, kept, fewer⟩ := ih distinct core fun it' member =>
          entries it' (List.mem_cons_of_mem _ member)
        refine ⟨st', ?_, kept, fewer⟩
        rw [List.foldlM_cons, cleanupEntry, if_pos waits, ok_bind, ran]
      · obtain ⟨fds, cleaned, after⟩ := cleanupPoll_core core found
        have named := (core.entries it.1 it.2 found).1
        have later : ∀ it' ∈ its, (st.polls.erase it.1).lookup it'.1 = some it'.2 := by
          intro it' member
          refine lookup_erase_some.mpr ⟨?_, entries it' (List.mem_cons_of_mem _ member)⟩
          intro same
          exact absent (same ▸ List.mem_map_of_mem member)
        have core' : Core { st with
            fds, timeouts := st.timeouts.erase it.1, polls := st.polls.erase it.1 } :=
          ⟨after.waiters, after.counts, after.keys, after.entries⟩
        obtain ⟨st', ran, kept, fewer⟩ := ih distinct core' later
        refine ⟨st', ?_, kept, ?_⟩
        · rw [List.foldlM_cons, cleanupEntry, if_neg waits, cleaned, ok_bind,
            handlerTimeoutDeregister_ok named]
          exact ran
        · intro tid none
          apply fewer
          by_cases same : tid = it.1
          · rw [same]
            exact AList.lookup_erase _ _
          · exact (AList.lookup_erase_ne same).trans none

theorem cleanupPolls_core (core : Core st) :
    ∃ st', cleanupPolls st = .ok st' ∧ Core st' ∧
      (∀ tid, st.polls.lookup tid = none → st'.polls.lookup tid = none) :=
  cleanupPolls_loop st.polls.entries st.polls.nodupKeys core fun _ member =>
    AList.mem_lookup_iff.mpr member

theorem pollWait_core (clock : Timespec) (core : Core st) (named : tid ≠ noTask)
    (awake : st.polls.lookup tid = none) (nonneg : ∀ p ∈ args.fds, 0 ≤ p.fd.toInt)
    (unshared : ∀ p ∈ args.fds, (waitersAt st.fds p.fd).size = 0) :
    ∃ st', pollWait tid args clock st = .ok st' ∧ Core st' ∧ st'.helpCounter = st.helpCounter ∧
      (∀ x, x ≠ tid → st.polls.lookup x = none → st'.polls.lookup x = none) := by
  have checked : (tid != noTask) = true := by
    simpa using named
  have cleared : ∀ p ∈ args.fds.map clearEntry,
      0 ≤ p.fd.toInt ∧ p.events.getLsbD 3 = true ∧ (waitersAt st.fds p.fd).size = 0 := by
    intro p member
    obtain ⟨q, there, rfl⟩ := List.mem_map.mp member
    have own := nonneg q there
    rw [clearEntry, if_neg (not_neg_iff.mpr own)]
    refine ⟨own, ?_, unshared q there⟩
    simp [pollErrors]
  obtain ⟨fds, watched, after⟩ := watchAll tid st.fds (args.fds.map clearEntry)
    fun p member => (cleared p member).1
  obtain ⟨timeouts, registers⟩ : ∃ timeouts,
      pollTimeouts tid args.timeout clock st.timeouts = .ok timeouts := by
    rw [pollTimeouts]
    split_ifs
    · exact ⟨_, rfl⟩
    · obtain ⟨timeouts, registered, -⟩ :=
        handlerTimeoutRegister_ok named (pollDeadline args.timeout clock) st.timeouts
      exact ⟨timeouts, registered⟩
  refine ⟨{ st with
    polls := st.polls.insert tid { args with fds := args.fds.map clearEntry }, fds, timeouts },
    ?_, ⟨?_, ?_, ?_, ?_⟩, rfl, ?_⟩
  · rw [pollWait, checked, check_true, ok_bind, awake, registers]
    simp only [Option.isNone_none, check_true, ok_bind, watched]
  · intro x fd fdNonneg
    rw [after.waiters fd fdNonneg]
    have others : ∀ y, y ≠ tid → (Polls (st.polls.insert tid
        { args with fds := args.fds.map clearEntry }) y fd ↔ Polls st.polls y fd) := by
      intro y other
      simp [Polls, AList.lookup_insert_ne other]
    have own : Polls (st.polls.insert tid { args with fds := args.fds.map clearEntry }) tid fd ↔
        ∃ p ∈ args.fds.map clearEntry, p.fd = fd := by
      simp [Polls, AList.lookup_insert]
    by_cases polled : ∃ p ∈ args.fds.map clearEntry, p.fd = fd
    · rw [if_pos polled]
      by_cases same : x = tid
      · subst same
        simp only [own, polled]
      · rw [others x same, ← core.waiters x fd fdNonneg]
        refine ⟨fun wrong => absurd wrong same, fun member => ?_⟩
        obtain ⟨p, entry, rfl⟩ := polled
        have positive := Tidset.size_pos_iff.mpr ⟨x, member⟩
        have empty := (cleared p entry).2.2
        omega
    · rw [if_neg polled, core.waiters x fd fdNonneg]
      by_cases same : x = tid
      · subst same
        rw [own]
        refine ⟨?_, fun wrong => absurd wrong polled⟩
        rintro ⟨args, found, _⟩
        rw [awake] at found
        cases found
      · rw [others x same]
  · intro fd bit fdNonneg
    rw [after.counts fd bit fdNonneg, core.counts fd bit fdNonneg, polledEntries_insert awake,
      List.countP_append]
    push_cast
    omega
  · intro key known
    rcases after.keys key known with before | ⟨p, member, same⟩
    · exact core.keys key before
    · exact ⟨p.fd, (cleared p member).1, same⟩
  · intro x args' found
    rcases lookup_insert_some.mp found with ⟨rfl, rfl⟩ | ⟨_, found⟩
    · exact ⟨named, fun p member => ⟨(cleared p member).1, (cleared p member).2.1⟩⟩
    · exact core.entries x args' found
  · intro x other none
    exact (AList.lookup_insert_ne other).trans none

end Steps

section Delivery

variable {fd : Int32} {revents : BitVec 16}

theorem deliverEntry_fd (p : Pollfd) : (deliverEntry fd revents p).fd = p.fd := by
  unfold deliverEntry
  split_ifs <;> rfl

theorem deliverEntry_events (p : Pollfd) : (deliverEntry fd revents p).events = p.events := by
  unfold deliverEntry
  split_ifs <;> rfl

theorem deliver_counts (args : PollArgs) (fd' : Int32) (bit : Fin 16) :
    (deliver fd revents args).fds.countP (onBit fd' bit) = args.fds.countP (onBit fd' bit) := by
  have same : onBit fd' bit ∘ deliverEntry fd revents = onBit fd' bit := by
    funext p
    simp only [Function.comp_apply, onBit, deliverEntry_fd, deliverEntry_events]
  rw [deliver, List.countP_map, same]

theorem deliver_polls (args : PollArgs) (fd' : Int32) :
    (∃ p ∈ (deliver fd revents args).fds, p.fd = fd') ↔ ∃ p ∈ args.fds, p.fd = fd' := by
  simp [deliver, deliverEntry_fd]

theorem Core.deliver (core : Core st) (found : st.polls.lookup tid = some args) :
    Core { st with polls := st.polls.replace tid (deliver fd revents args) } := by
  have known := mem_of_lookup found
  have polls : ∀ x fd', Polls (st.polls.replace tid (Lotto.deliver fd revents args)) x fd' ↔
      Polls st.polls x fd' := by
    intro x fd'
    unfold Polls
    by_cases same : x = tid
    · subst same
      simp only [lookup_replace known, if_true, found, Option.some.injEq, exists_eq_left']
      exact deliver_polls args fd'
    · simp only [lookup_replace known, if_neg same]
  refine ⟨?_, ?_, core.keys, ?_⟩
  · intro x fd' nonneg
    rw [polls]
    exact core.waiters x fd' nonneg
  · intro fd' bit nonneg
    rw [polledEntries_replace found (deliver_counts args fd' bit)]
    exact core.counts fd' bit nonneg
  · intro x args' found'
    rcases (lookup_replace_some known).mp found' with ⟨rfl, rfl⟩ | ⟨_, found'⟩
    · obtain ⟨named, entries⟩ := core.entries _ args found
      refine ⟨named, ?_⟩
      intro p member
      obtain ⟨q, there, rfl⟩ := List.mem_map.mp member
      rw [deliverEntry_fd, deliverEntry_events]
      exact entries q there
    · exact core.entries x args' found'

def SameTasks (polls polls' : Map PollArgs) : Prop :=
  ∀ tid, polls.lookup tid = none → polls'.lookup tid = none

theorem deliverTo_core (revents : BitVec 16) (tasks : List TaskId) (core : Core { st with polls })
    (waiters : ∀ x ∈ tasks, x ∈ waitersAt st.fds fd) (nonneg : 0 ≤ fd.toInt) :
    ∃ polls', tasks.foldlM (deliverTo fd revents) polls = .ok polls' ∧
      Core { st with polls := polls' } ∧ SameTasks polls polls' := by
  induction tasks generalizing polls with
  | nil => exact ⟨polls, rfl, core, fun _ none => none⟩
  | cons x tasks ih =>
      obtain ⟨args, found, _⟩ := (core.waiters x fd nonneg).mp (waiters x List.mem_cons_self)
      have named : (x != noTask) = true := by
        simpa using (core.entries x args found).1
      obtain ⟨polls', ran, kept, same⟩ := ih (core.deliver found) fun y member =>
        waiters y (List.mem_cons_of_mem _ member)
      refine ⟨polls', ?_, kept, ?_⟩
      · rw [List.foldlM_cons, deliverTo, named, check_true, ok_bind]
        simp only [show polls.lookup x = some args from found]
        exact ran
      · intro y none
        apply same
        have other : y ≠ x := by
          rintro rfl
          rw [show polls.lookup y = some args from found] at none
          cases none
        rw [lookup_replace (mem_of_lookup found), if_neg other]
        exact none

theorem propagate_core (results : List (Int32 × BitVec 16)) (nevents : Int)
    (core : Core { st with polls })
    (registered : ∀ r ∈ results, 0 ≤ r.1.toInt ∧ fdKey r.1 ∈ st.fds) :
    ∃ polls', results.foldlM (propagate st.fds) (polls, nevents) =
        .ok (polls', nevents - results.countP fun r => r.2 != 0) ∧
      Core { st with polls := polls' } ∧ SameTasks polls polls' := by
  induction results generalizing polls nevents with
  | nil => exact ⟨polls, by simp [pure, Except.pure], core, fun _ none => none⟩
  | cons r results ih =>
      have later := fun r' member => registered r' (List.mem_cons_of_mem _ member)
      by_cases quiet : r.2 = 0
      · obtain ⟨polls', ran, kept, same⟩ := ih nevents core later
        refine ⟨polls', ?_, kept, same⟩
        rw [List.foldlM_cons, propagate, if_pos quiet, ok_bind, ran]
        simp [quiet]
      · obtain ⟨nonneg, known⟩ := registered r List.mem_cons_self
        obtain ⟨item, found⟩ := Option.isSome_iff_exists.mp (AList.lookup_isSome.mpr known)
        have named : (fdKey r.1 != noTask) = true := by
          simpa using fdKey_ne nonneg
        obtain ⟨mid, delivered, core', tasks⟩ :=
          deliverTo_core r.2 item.waiters.tasks core (by
            intro x member
            rw [waitersAt_found found]
            exact member) nonneg
        obtain ⟨polls', ran, kept, same⟩ := ih (nevents - 1) core' later
        refine ⟨polls', ?_, kept, fun y none => same y (tasks y none)⟩
        rw [List.foldlM_cons, propagate, if_neg quiet, named, check_true, ok_bind, found]
        simp only [delivered, ok_bind, ran]
        have one : (r :: results).countP (fun r => r.2 != 0) =
            results.countP (fun r => r.2 != 0) + 1 := by
          rw [List.countP_cons, if_pos (by simpa using quiet)]
        rw [one]
        simp only [Except.ok.injEq, Prod.mk.injEq, true_and]
        omega

end Delivery

section Help

/-- What the manual says about `poll`: it fills in a mask for every fd, and returns the number of
those that are not empty, or -1. -/
def Documented (sysPoll : SysPoll) : Prop :=
  ∀ fds, (sysPoll fds).2.length = fds.length ∧
    ((sysPoll fds).1 = (sysPoll fds).2.countP (· != 0) ∨
      (sysPoll fds).1 = -1 ∧ ∀ r ∈ (sysPoll fds).2, r = 0)

variable {sysPoll : SysPoll}

theorem Core.array (core : Core st) {fd : Int32} (member : fd ∈ (pollArray st.fds).map Prod.fst) :
    0 ≤ fd.toInt ∧ fdKey fd ∈ st.fds := by
  simp only [pollArray, List.map_map, List.mem_map, Function.comp_apply] at member
  obtain ⟨it, entry, rfl⟩ := member
  have known := mem_of_lookup (AList.mem_lookup_iff.mpr entry)
  obtain ⟨fd, nonneg, key⟩ := core.keys it.1 known
  rw [key] at known
  rw [key, fdOf_fdKey nonneg]
  exact ⟨nonneg, known⟩

theorem pollFds_core (core : Core st) (documented : Documented sysPoll)
    (succeeds : ∀ fds, 0 ≤ (sysPoll fds).1) :
    ∃ st', pollFds sysPoll st = .ok st' ∧ Core st' ∧ SameTasks st.polls st'.polls := by
  unfold pollFds
  by_cases none : st.fds.keys.length = 0
  · exact ⟨st, if_pos none, core, fun _ absent => absent⟩
  · rw [if_neg none]
    by_cases nothing : (sysPoll (pollArray st.fds)).1 = 0
    · exact ⟨st, if_pos nothing, core, fun _ absent => absent⟩
    · obtain ⟨length, result⟩ := documented (pollArray st.fds)
      have positive := succeeds (pollArray st.fds)
      have count : (sysPoll (pollArray st.fds)).1 = (sysPoll (pollArray st.fds)).2.countP (· != 0) := by
        rcases result with count | ⟨failed, _⟩
        · exact count
        · omega
      obtain ⟨polls, ran, kept, same⟩ := propagate_core
        (((pollArray st.fds).map Prod.fst).zip (sysPoll (pollArray st.fds)).2)
        (sysPoll (pollArray st.fds)).1 (show Core { st with polls := st.polls } from core) (by
          intro r member
          exact core.array (List.of_mem_zip member).1)
      have masks : (((pollArray st.fds).map Prod.fst).zip (sysPoll (pollArray st.fds)).2).countP
          (fun r => r.2 != 0) = (sysPoll (pollArray st.fds)).2.countP (· != 0) := by
        have second : (((pollArray st.fds).map Prod.fst).zip (sysPoll (pollArray st.fds)).2).map
            Prod.snd = (sysPoll (pollArray st.fds)).2 := by
          apply List.map_snd_zip
          simp [length]
        conv_rhs => rw [← second, List.countP_map]
        rfl
      refine ⟨{ st with polls }, ?_, kept, same⟩
      rw [if_neg nothing, propagateEvents, ran, ok_bind, masks, count]
      simp

theorem cleanupRequested_core (core : Core st) :
    ∃ st', cleanupRequested st = .ok st' ∧ Core st' ∧ st'.polls = st.polls ∧
      st'.helpCounter = st.helpCounter := by
  unfold cleanupRequested
  split_ifs
  · have same : Core { st with shouldCleanup := false } :=
      ⟨core.waiters, core.counts, core.keys, core.entries⟩
    obtain ⟨st', ran, kept, _, polls, counter⟩ := cleanupFds_core same
    exact ⟨st', ran, kept, polls, counter⟩
  · exact ⟨st, rfl, core, rfl, rfl⟩

theorem helpWaiters_core (core : Core st) (documented : Documented sysPoll)
    (succeeds : (st.helpCounter + 1) % pollHelpInterval = 0 → ∀ fds, 0 ≤ (sysPoll fds).1) :
    ∃ st', helpWaiters sysPoll st = .ok st' ∧ Core st' ∧ Consistent st' ∧
      SameTasks st.polls st'.polls := by
  obtain ⟨st₁, requested, core₁, polls₁, counter⟩ := cleanupRequested_core core
  have counted : Core { st₁ with helpCounter := st₁.helpCounter + 1 } :=
    ⟨core₁.waiters, core₁.counts, core₁.keys, core₁.entries⟩
  obtain ⟨st₂, polled, core₂, tasks⟩ : ∃ st₂,
      pollAtInterval sysPoll { st₁ with helpCounter := st₁.helpCounter + 1 } = .ok st₂ ∧
        Core st₂ ∧ SameTasks st₁.polls st₂.polls := by
    unfold pollAtInterval
    by_cases due : (st₁.helpCounter + 1) % pollHelpInterval = 0
    · rw [if_pos due]
      exact pollFds_core counted documented (succeeds (counter ▸ due))
    · exact ⟨_, if_neg due, counted, fun _ absent => absent⟩
  obtain ⟨st₃, released, core₃, fewer⟩ := cleanupPolls_core core₂
  obtain ⟨st₄, cleaned, core₄, consistent, polls₄, _⟩ := cleanupFds_core core₃
  refine ⟨st₄, ?_, core₄, consistent, ?_⟩
  · rw [helpWaiters, requested, ok_bind, polled, ok_bind, released, ok_bind, cleaned]
  · intro tid absent
    rw [polls₄]
    exact fewer tid (tasks tid (by rw [polls₁]; exact absent))

theorem pollFilter_ok {e : Decision} (named : id ≠ noTask) (tset : noTask ∉ e.tset)
    (unfiltered : (st.polls.lookup id).isSome = true → e.anyTaskFilter = none) :
    ∃ e', pollFilter id e st = .ok e' := by
  have clean : (!e.tset.has noTask) = true := by
    simpa using tset
  have name : (id != noTask) = true := by
    simpa using named
  unfold pollFilter
  rw [clean, check_true, ok_bind, name, check_true, ok_bind]
  by_cases waiting : (st.polls.lookup id).isSome = true
  · have filter : (e.anyTaskFilter == none) = true := by
      simp [unfiltered waiting]
    simp only [if_pos waiting, filter, check_true, ok_bind]
    exact ⟨_, rfl⟩
  · simp only [if_neg waiting]
    exact ⟨_, rfl⟩

end Help

section Run

inductive Move where
  | capture (cp : PollCapture) (clock : Timespec) (sysPoll : SysPoll) (e : Decision)
  | trigger (id : TaskId)

def step (m : Move) (st : PollState) : Except Fault PollState :=
  match m with
  | .capture cp clock sysPoll e => (pollHandle cp clock sysPoll e st).map Prod.snd
  | .trigger id => pollTrigger id st

def isPoll : PollEvent → Bool
  | .poll _ => true
  | .other => false

/-- What the engine and the system promise: a task that polls is not captured, and its event has no
filter yet. -/
def Allowed (st : PollState) : Move → Prop
  | .capture cp _ sysPoll e => cp.id ≠ noTask ∧ st.polls.lookup cp.id = none ∧
      Documented sysPoll ∧ noTask ∉ e.tset ∧ (isPoll cp.event = true → e.anyTaskFilter = none)
  | .trigger id => id ≠ noTask

def Unshared (st : PollState) : PollEvent → Prop
  | .poll args => ∀ p ∈ args.fds, 0 ≤ p.fd.toInt ∧ (waitersAt st.fds p.fd).size = 0
  | .other => True

/-- Steps that reach none of the handler's slips: `sys_poll` does not fail when it is called, and no
deadline of a polling task passes. -/
def Sound (st : PollState) : Move → Prop
  | .capture cp _ sysPoll _ => Unshared st cp.event ∧
      ((st.helpCounter + 1) % pollHelpInterval = 0 → ∀ fds, 0 ≤ (sysPoll fds).1)
  | .trigger id => st.polls.lookup id = none

def system (condition : PollState → Move → Prop) : Guarded PollState Move Fault where
  start := pollStart
  step := step
  allowed := fun st m => Allowed st m ∧ condition st m

theorem capture_steps {cp : PollCapture} {clock : Timespec} {sysPoll : SysPoll} {e : Decision}
    (core : Core st) (allowed : Allowed st (.capture cp clock sysPoll e))
    (sound : Sound st (.capture cp clock sysPoll e)) :
    ∃ st', step (.capture cp clock sysPoll e) st = .ok st' ∧ Core st' ∧ Consistent st' := by
  obtain ⟨named, awake, documented, tset, unfiltered⟩ := allowed
  obtain ⟨unshared, succeeds⟩ := sound
  obtain ⟨st₁, registered, core₁, counter, waits⟩ : ∃ st₁,
      pollRegisterWaiter cp clock st = .ok st₁ ∧ Core st₁ ∧ st₁.helpCounter = st.helpCounter ∧
        (isPoll cp.event = false → st₁.polls.lookup cp.id = none) := by
    unfold pollRegisterWaiter
    cases event : cp.event with
    | poll args =>
        rw [event] at unshared
        obtain ⟨st₁, ran, kept, counter, _⟩ := pollWait_core clock core named awake
          (fun p member => (unshared p member).1) fun p member => (unshared p member).2
        exact ⟨st₁, ran, kept, counter, fun wrong => Bool.noConfusion wrong⟩
    | other => exact ⟨st, rfl, core, rfl, fun _ => awake⟩
  obtain ⟨st₂, helped, core₂, consistent, same⟩ :=
    helpWaiters_core core₁ documented (by rw [counter]; exact succeeds)
  obtain ⟨e', filtered⟩ : ∃ e', pollFilter cp.id e st₂ = .ok e' := by
    apply pollFilter_ok named tset
    intro waiting
    apply unfiltered
    by_contra other
    rw [same cp.id (waits (Bool.eq_false_iff.mpr other))] at waiting
    cases waiting
  refine ⟨st₂, ?_, core₂, consistent⟩
  simp only [step, pollHandle, registered, helped, filtered, ok_bind, Except.map]

theorem trigger_steps (allowed : Allowed st (.trigger id)) (sound : Sound st (.trigger id)) :
    step (.trigger id) st = .ok st := by
  have different : id ≠ noTask := allowed
  have named : (id != noTask) = true := by
    simpa using different
  have absent : st.polls.lookup id = none := sound
  simp only [step, pollTrigger, named, check_true, ok_bind, absent]

theorem consistent_kept : Kept (system Sound) fun st => Core st ∧ Consistent st where
  start := by
    refine ⟨⟨?_, ?_, ?_, ?_⟩, ?_, ?_, ?_⟩ <;>
      simp [system, pollStart, waitersAt, countAt, Polls, polledEntries]
  step := by
    rintro st m ⟨core, consistent⟩ ⟨allowed, sound⟩
    cases m with
    | capture cp clock sysPoll e => exact capture_steps core allowed sound
    | trigger id => exact ⟨st, trigger_steps allowed sound, core, consistent⟩

end Run

/-- In every run whose steps reach none of the handler's slips the bookkeeping is consistent in
every state, and no assertion fails. -/
theorem poll_consistent (st : PollState) (reached : Reachable (system Sound) st) :
    Consistent st ∧ ∀ m, Allowed st m → Sound st m → ∃ st', step m st = .ok st' := by
  refine ⟨(consistent_kept.reachable reached).2, ?_⟩
  intro m allowed sound
  exact consistent_kept.steps reached ⟨allowed, sound⟩

def noEvents : SysPoll := fun fds => (0, fds.map fun _ => 0)

theorem noEvents_documented : Documented noEvents := by
  intro fds
  have none : (fds.map fun _ => (0 : BitVec 16)).countP (· != 0) = 0 := by
    apply List.countP_eq_zero.mpr
    intro r member
    obtain ⟨_, _, rfl⟩ := List.mem_map.mp member
    decide
  refine ⟨List.length_map _, Or.inl ?_⟩
  simp only [noEvents, none]
  rfl

def pollsThree (id : TaskId) : Move :=
  .capture ⟨id, .poll { fds := [⟨3, 1, 0⟩], timeout := -1, ret := 0 }⟩ ⟨0, 0⟩ noEvents
    { prepareDecision 1 .empty { status := .done, id := noTask } with
      tset := (Tidset.empty.insert 1).insert 2 }

theorem pollsThree_allowed {st : PollState} {id : TaskId} (named : id ≠ noTask)
    (awake : st.polls.lookup id = none) : Allowed st (pollsThree id) :=
  ⟨named, awake, noEvents_documented, by decide, fun _ => rfl⟩

theorem one_polls_consistent :
    ∃ st, Reachable (system Sound) st ∧ 1 ∈ waitersAt st.fds 3 ∧ Consistent st := by
  have seen : (step (pollsThree 1) pollStart).map (fun st => (waitersAt st.fds 3).has 1) =
      .ok true := by decide
  obtain ⟨st, ran, waits⟩ := map_eq_ok.mp seen
  have sound : Sound pollStart (pollsThree 1) := by
    refine ⟨?_, fun _ fds => le_refl 0⟩
    intro p member
    cases List.mem_singleton.mp member
    exact ⟨by decide, rfl⟩
  have reached : Reachable (system Sound) st :=
    Reachable.start.step ⟨pollsThree_allowed (by decide) rfl, sound⟩ ran
  exact ⟨st, reached, Tidset.has_eq_true.mp waits, (poll_consistent st reached).1⟩

/-- A second task that polls the same fd takes the first one out of its waiters. -/
theorem shared_fd_inconsistent :
    ¬ ∀ st, Reachable (system fun _ _ => True) st → Consistent st := by
  intro consistent
  have first : (step (pollsThree 1) pollStart).map (fun st => (st.polls.lookup 2).isNone) =
      .ok true := by decide
  have seen : (step (pollsThree 1) pollStart >>= step (pollsThree 2)).map (fun st =>
      ((st.polls.lookup 1).map fun args => args.fds.map Pollfd.fd, (waitersAt st.fds 3).has 1)) =
      .ok (some [3], false) := by decide
  obtain ⟨st, both, facts⟩ := map_eq_ok.mp seen
  obtain ⟨st₁, ran₁, ran₂⟩ := bind_eq_ok.mp both
  rw [ran₁] at first
  have awake := Option.isNone_iff_eq_none.mp (Except.ok.inj first)
  have reached₁ : Reachable (system fun _ _ => True) st₁ :=
    Reachable.start.step ⟨pollsThree_allowed (by decide : (1 : TaskId) ≠ noTask) rfl, trivial⟩ ran₁
  have reached := reached₁.step ⟨pollsThree_allowed (by decide : (2 : TaskId) ≠ noTask) awake, trivial⟩ ran₂
  obtain ⟨polls, absent⟩ := Prod.mk.inj facts
  obtain ⟨args, found, entries⟩ := Option.map_eq_some_iff.mp polls
  have waits := (consistent st reached).waiters 1 3 (by decide)
  apply Tidset.has_eq_false.mp absent
  apply waits.mpr
  refine ⟨args, found, ?_⟩
  have member : (3 : Int32) ∈ args.fds.map Pollfd.fd := by
    rw [entries]
    exact List.mem_singleton.mpr rfl
  obtain ⟨p, entry, same⟩ := List.mem_map.mp member
  exact ⟨p, entry, same⟩

end Lotto.PollCounts
