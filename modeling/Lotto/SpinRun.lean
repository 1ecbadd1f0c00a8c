import Lotto.SpinTables

namespace Lotto.SpinLoop

open Library.FaultRun Library.GuardedRun Library.KeyMap
open Lotto.Rusty

section Begin

variable {st st' : State} {l : Loop} {tid : TaskId} {d : Nat}

theorem removeLoop_failed (l : Loop) (st : State) (failed : Finset TaskId) :
    removeLoopFromObservation l { st with lastActionWasFailedSpinEnd := failed } =
      (removeLoopFromObservation l st).map fun out =>
        (out.1, { out.2 with lastActionWasFailedSpinEnd := failed }) := by
  rw [removeLoopFromObservation, removeLoopFromObservation]
  by_cases member : l ∈ st.comaximalLoops
  · simp only [member, decide_true, check_true, ok_bind]
    cases st.readingAddresses.lookup l with
    | none => rfl
    | some reading =>
        dsimp only
        cases reading.foldlM (unmonitor l) st.monitoringAddress with
        | error => rfl
        | ok monitoring =>
            simp only [ok_bind]
            cases st.loopDepth.lookup l.1 with
            | none => rfl
            | some depth =>
                dsimp only
                split
                · rw [unblock, unblock]
                  dsimp only
                  cases st.writesInBlockedLoop.lookup l with
                  | none => rfl
                  | some writes => rfl
                · rfl
  · simp only [member, decide_false, check_false, error_bind]
    rfl

theorem Tables.unfail (tables : Tables none st) (free : tid ∉ st.blockedTasks) :
    Tables none { st with
      lastActionWasFailedSpinEnd := st.lastActionWasFailedSpinEnd.erase tid } := by
  refine ⟨tables.reading, tables.states, tables.monitored, tables.once, tables.depths,
    tables.blocked, tables.writes, tables.writers, tables.writersOnce, tables.counts, ?_, ?_,
    tables.unfinal⟩
  · intro t member
    apply Finset.mem_erase_of_ne_of_mem _ (tables.failed t member)
    rintro rfl
    exact free member
  · intro t member
    exact tables.away t (Finset.mem_of_mem_erase member)

theorem Tables.setDepth (tables : Tables none st) (free : tid ∉ st.blockedTasks)
    (calm : tid ∉ st.lastActionWasFailedSpinEnd) {loopDepth : AList fun _ : TaskId => Nat}
    (others : ∀ t, t ≠ tid → loopDepth.lookup t = st.loopDepth.lookup t)
    (mine : ∀ n, (tid, n) ∈ st.comaximalLoops → ∃ d, loopDepth.lookup tid = some d ∧ n ≤ d) :
    Tables none { st with loopDepth } := by
  refine ⟨tables.reading, tables.states, tables.monitored, tables.once, ?_, ?_, ?_, tables.writers,
    tables.writersOnce, tables.counts, tables.failed, ?_, tables.unfinal⟩
  · intro k member
    obtain ⟨d, known, low, high⟩ := tables.depths k member
    by_cases same : k.1 = tid
    · obtain ⟨d', known', high'⟩ := mine k.2 (by rw [← same]; exact member)
      exact ⟨d', by rw [same]; exact known', low, high'⟩
    · exact ⟨d, by rw [others k.1 same]; exact known, low, high⟩
  · intro t member
    rw [others t (fun same => free (same ▸ member))]
    exact tables.blocked t member
  · intro k ws listed
    have before := tables.writes k ws listed
    rw [others k.1 (fun same => free (same ▸ before.1))]
    exact before
  · intro t member
    rw [others t (fun same => calm (same ▸ member))]
    exact tables.away t member

def begun (l : Loop) (st : State) : State :=
  { st with
    readingAddresses := st.readingAddresses.insert l []
    comaximalLoops := insert l st.comaximalLoops
    stateWriteWithinLoop := st.stateWriteWithinLoop.insert l ∅ }

theorem beginLoop_ok (tables : Tables none st) (free : l.1 ∉ st.blockedTasks)
    (fresh : l ∉ st.comaximalLoops) : beginLoop l st = .ok (begun l st) := by
  have unread : l ∉ st.readingAddresses := fun member => fresh ((tables.reading l).mpr member)
  have unknown : l ∉ st.stateWriteWithinLoop := fun member => fresh ((tables.states l).mpr member)
  have unlisted : l ∉ st.writesInBlockedLoop := by
    intro member
    obtain ⟨ws, listed⟩ := Option.isSome_iff_exists.mp (AList.lookup_isSome.mpr member)
    exact free (tables.writes l ws listed).1
  rw [beginLoop]
  simp only [free, unread, fresh, unknown, unlisted, not_false_eq_true, decide_true, check_true,
    ok_bind]
  rfl

theorem Tables.begun (tables : Tables none st) (calm : l.1 ∉ st.lastActionWasFailedSpinEnd)
    (depth : st.loopDepth.lookup l.1 = some l.2) (inside : 1 ≤ l.2)
    (fresh : l ∉ st.comaximalLoops) : Tables none (begun l st) := by
  have unwatched : ∀ a, l ∉ monitors st a := by
    intro a watches
    obtain ⟨as, found, -⟩ := (tables.monitored a l).mp watches
    exact fresh ((tables.reading l).mpr (mem_of_lookup found))
  refine ⟨?_, ?_, ?_, tables.once, ?_, ?_, tables.writes, tables.writers, tables.writersOnce,
    tables.counts, tables.failed, ?_, ?_⟩
  · intro k
    rw [SpinLoop.begun, Finset.mem_insert, AList.mem_insert, tables.reading]
  · intro k
    rw [SpinLoop.begun, Finset.mem_insert, AList.mem_insert, tables.states]
  · intro a k
    refine (tables.monitored a k).trans ?_
    rw [SpinLoop.begun]
    simp only [lookup_insert_some]
    by_cases same : k = l
    · rw [← tables.monitored, same]
      simp [unwatched a]
    · simp [same]
  · intro k member
    cases Finset.mem_insert.mp member with
    | inl same =>
        rw [same]
        exact ⟨l.2, depth, inside, Nat.le_refl _⟩
    | inr before => exact tables.depths k before
  · intro t member idle
    obtain ⟨d, known, current, listed⟩ := tables.blocked t member idle
    exact ⟨d, known, Finset.mem_insert_of_mem current, listed⟩
  · intro t member unblocked d known
    rw [SpinLoop.begun, Finset.mem_insert, not_or]
    refine ⟨?_, tables.away t member unblocked d known⟩
    rintro rfl
    exact calm member
  · intro k map a found
    rcases lookup_insert_some.mp found with ⟨-, rfl⟩ | ⟨-, found⟩
    · simp
    · exact tables.unfinal k map a found

structure Begun (l : Loop) (st st' : State) : Prop where
  comaximal : ∀ k ∈ st'.comaximalLoops, k = l ∨ k ∈ st.comaximalLoops
  fresh : reads st' l = []
  reading : ∀ k ∈ st'.comaximalLoops, k ≠ l → reads st' k = reads st k
  blocked : st'.blockedTasks ⊆ st.blockedTasks
  depth : ∀ t, st'.loopDepth.lookup t = if t = l.1 then some l.2 else st.loopDepth.lookup t
  failed : ∀ t, t ∈ st'.lastActionWasFailedSpinEnd ↔ t ≠ l.1 ∧ t ∈ st.lastActionWasFailedSpinEnd

theorem reads_begun (l : Loop) (st : State) (k : Loop) :
    reads (begun l st) k = if k = l then [] else reads st k := by
  rw [reads, SpinLoop.begun]
  dsimp only
  split
  next same => rw [same, AList.lookup_insert, Option.getD_some]
  next other => rw [AList.lookup_insert_ne other, reads]

theorem markSpinLoopBegin_first (tables : Tables none st)
    (calm : tid ∉ st.lastActionWasFailedSpinEnd) :
    ∃ st', markSpinLoopBegin tid st = .ok st' ∧ Tables none st' ∧
      Begun (tid, (st.loopDepth.lookup tid).getD 0 + 1) st st' := by
  generalize above : (st.loopDepth.lookup tid).getD 0 = d
  have free : tid ∉ st.blockedTasks := fun member => calm (tables.failed tid member)
  have fresh : (tid, d + 1) ∉ st.comaximalLoops := by
    intro member
    obtain ⟨d', known, -, high⟩ := tables.depths (tid, d + 1) member
    rw [known, Option.getD_some] at above
    dsimp only at high
    omega
  have tables' : Tables none { st with loopDepth := st.loopDepth.insert tid (d + 1) } := by
    apply tables.setDepth free calm
    · exact fun t other => AList.lookup_insert_ne other
    · intro n member
      obtain ⟨d', known, -, high⟩ := tables.depths (tid, n) member
      rw [known, Option.getD_some] at above
      refine ⟨d + 1, AList.lookup_insert _, ?_⟩
      dsimp only at high
      omega
  have depth : (st.loopDepth.insert tid (d + 1)).lookup tid = some (d + 1) :=
    AList.lookup_insert _
  refine ⟨_, ?_, tables'.begun calm depth (Nat.le_add_left 1 d) fresh, ?_, ?_, ?_, ?_, ?_, ?_⟩
  · rw [markSpinLoopBegin, enterLoop]
    simp only [above, calm, not_false_eq_true, or_true, if_true, depth, free, if_false, ok_bind]
    exact beginLoop_ok tables' free fresh
  · exact fun k member => Finset.mem_insert.mp member
  · rw [reads_begun, if_pos rfl]
  · intro k _ other
    rw [reads_begun, if_neg other]
    rfl
  · exact Finset.Subset.refl _
  · intro t
    show (st.loopDepth.insert tid (d + 1)).lookup t = _
    split
    next same => rw [same, depth]
    next other => exact AList.lookup_insert_ne other
  · intro t
    show t ∈ st.lastActionWasFailedSpinEnd ↔ _
    constructor
    · intro member
      refine ⟨?_, member⟩
      rintro rfl
      exact calm member
    · exact And.right

theorem leaveIteration_ok (tables : Tables none st)
    (again : tid ∈ st.lastActionWasFailedSpinEnd) (depth : st.loopDepth.lookup tid = some d) :
    ∃ middle, (if tid ∈ st.blockedTasks then
        (removeLoopFromObservation (tid, d) st).map Prod.snd else .ok st) = .ok middle ∧
      Tables none middle ∧ Shrunk st middle ∧ tid ∉ middle.blockedTasks ∧
      (tid, d) ∉ middle.comaximalLoops := by
  by_cases blocked : tid ∈ st.blockedTasks
  · obtain ⟨d', known, current, -⟩ := tables.blocked tid blocked nofun
    rw [depth] at known
    obtain rfl := Option.some.inj known
    obtain ⟨res, middle, ran, removed⟩ := removeLoop_ok tables current nofun
    refine ⟨middle, ?_, removed.tables tables, removed.shrunk, ?_, ?_⟩
    · rw [if_pos blocked, ran]
      rfl
    · rw [removed.blocked, if_pos depth]
      exact Finset.notMem_erase _ _
    · rw [removed.comaximal]
      exact Finset.notMem_erase _ _
  · exact ⟨st, if_neg blocked, tables, Shrunk.refl st, blocked,
      tables.away tid again blocked d depth⟩

theorem markSpinLoopBegin_again (tables : Tables none st)
    (again : tid ∈ st.lastActionWasFailedSpinEnd) (depth : st.loopDepth.lookup tid = some d)
    (inside : 1 ≤ d) :
    ∃ st', markSpinLoopBegin tid st = .ok st' ∧ Tables none st' ∧ Begun (tid, d) st st' := by
  obtain ⟨middle, ran, tables', shrunk, free, fresh⟩ := leaveIteration_ok tables again depth
  have tables'' := tables'.unfail free
  have here : middle.loopDepth.lookup tid = some d := by
    rw [shrunk.depth]
    exact depth
  refine ⟨_, ?_, tables''.begun (Finset.notMem_erase _ _) here inside fresh, ?_, ?_, ?_, ?_, ?_, ?_⟩
  · have deep : ¬ (d = 0 ∨ tid ∉ st.lastActionWasFailedSpinEnd) := by
      rw [not_or]
      exact ⟨by omega, not_not.mpr again⟩
    rw [markSpinLoopBegin, enterLoop]
    simp only [depth, Option.getD_some, deep, if_false]
    rw [← shrunk.failed]
    split at ran
    next blocked =>
      obtain ⟨out, removed, same⟩ := map_eq_ok.mp ran
      rw [if_pos blocked, removeLoop_failed, removed, ← same]
      rw [← same] at tables'' free fresh
      exact beginLoop_ok tables'' free fresh
    next unblocked =>
      cases ran
      rw [if_neg unblocked]
      exact beginLoop_ok tables'' free fresh
  · intro k member
    apply (Finset.mem_insert.mp member).imp_right
    exact fun left => shrunk.comaximal left
  · rw [reads_begun, if_pos rfl]
  · intro k member other
    rw [reads_begun, if_neg other]
    have left := Finset.mem_of_mem_insert_of_ne member other
    show (middle.readingAddresses.lookup k).getD [] = _
    rw [shrunk.reading k left, reads]
  · exact shrunk.blocked
  · intro t
    show middle.loopDepth.lookup t = _
    rw [shrunk.depth]
    split
    next same => rw [same, depth]
    next => rfl
  · intro t
    show t ∈ middle.lastActionWasFailedSpinEnd.erase tid ↔ _
    rw [shrunk.failed, Finset.mem_erase]

end Begin

section End

variable {st st' st'' : State} {l : Loop} {tid : TaskId} {d : Nat}

structure Narrowed (st st' : State) : Prop where
  comaximal : st'.comaximalLoops ⊆ st.comaximalLoops
  reading : ∀ k ∈ st'.comaximalLoops, reads st' k = reads st k

theorem Shrunk.narrowed (shrunk : Shrunk st st') : Narrowed st st' := by
  refine ⟨shrunk.comaximal, ?_⟩
  intro k member
  rw [reads, reads, shrunk.reading k member]

theorem markSpinLoopEnd_leaves (order : List Address → List Address) (tables : Tables none st)
    (calm : tid ∉ st.lastActionWasFailedSpinEnd) (depth : st.loopDepth.lookup tid = some d)
    {condFlag : UInt32} (leaves : condFlag ≠ 0) :
    ∃ st', markSpinLoopEnd order tid condFlag st = .ok (false, st') ∧ Tables none st' ∧
      Narrowed st st' ∧ st'.blockedTasks ⊆ st.blockedTasks ∧
      (∀ t, st'.loopDepth.lookup t =
        if t = tid then if 1 < d then some (d - 1) else none else st.loopDepth.lookup t) ∧
      st'.lastActionWasFailedSpinEnd = st.lastActionWasFailedSpinEnd := by
  have removal : ∃ middle, (if (tid, d) ∈ st.comaximalLoops then
        (removeLoopFromObservation (tid, d) st).map Prod.snd else .ok st) = .ok middle ∧
      Tables none middle ∧ Shrunk st middle ∧ (tid, d) ∉ middle.comaximalLoops := by
    by_cases current : (tid, d) ∈ st.comaximalLoops
    · obtain ⟨res, middle, ran, removed⟩ := removeLoop_ok tables current nofun
      refine ⟨middle, ?_, removed.tables tables, removed.shrunk, ?_⟩
      · rw [if_pos current, ran]
        rfl
      · rw [removed.comaximal]
        exact Finset.notMem_erase _ _
    · exact ⟨st, if_neg current, tables, Shrunk.refl st, current⟩
  obtain ⟨middle, ran, tables', shrunk, gone⟩ := removal
  have calm' : tid ∉ middle.lastActionWasFailedSpinEnd := by
    rw [shrunk.failed]
    exact calm
  have lookups : ∀ t, (if 1 < d then middle.loopDepth.insert tid (d - 1)
      else middle.loopDepth.erase tid).lookup t =
        if t = tid then if 1 < d then some (d - 1) else none else st.loopDepth.lookup t := by
    intro t
    rw [← shrunk.depth]
    by_cases same : t = tid
    · rw [same, if_pos rfl]
      split
      · exact AList.lookup_insert _
      · exact AList.lookup_erase _ _
    · rw [if_neg same]
      split
      · exact AList.lookup_insert_ne same
      · exact AList.lookup_erase_ne same
  refine ⟨{ middle with loopDepth := if 1 < d then middle.loopDepth.insert tid (d - 1)
    else middle.loopDepth.erase tid }, ?_, ?_, ⟨shrunk.comaximal, shrunk.narrowed.reading⟩,
    shrunk.blocked, lookups, shrunk.failed⟩
  · rw [markSpinLoopEnd]
    simp only [depth, leaves, ne_eq, not_false_eq_true, if_true]
    split at ran
    next current => rw [if_pos current, ran, ok_bind]
    next away =>
      cases ran
      rw [if_neg away, ok_bind]
  · apply tables'.setDepth (fun member => calm' (tables'.failed tid member)) calm'
    · intro t other
      rw [lookups, if_neg other, shrunk.depth]
    · intro n member
      obtain ⟨d', known, low, high⟩ := tables'.depths (tid, n) member
      rw [shrunk.depth, depth] at known
      obtain rfl := Option.some.inj known
      have other : n ≠ d := by
        rintro rfl
        exact gone member
      dsimp only at low high
      rw [lookups, if_pos rfl, if_pos (by omega)]
      exact ⟨d - 1, rfl, by omega⟩

theorem repeatWrites_ok (writes : List Address) (tables : Tables (some tid) st)
    (depth : st.loopDepth.lookup tid = some d) (safe : ∀ a ∈ writes, SafeAt st (tid, d) a)
    (current : (tid, d) ∈ st.comaximalLoops) :
    ∃ st', writes.foldlM (fun st write => (executeWriteEvent tid write st).map Prod.snd) st =
      .ok st' ∧ Tables (some tid) st' ∧ Shrunk st st' ∧ (tid, d) ∈ st'.comaximalLoops := by
  induction writes generalizing st with
  | nil => exact ⟨st, rfl, tables, Shrunk.refl st, current⟩
  | cons first rest ih =>
      have ready := safe first List.mem_cons_self
      obtain ⟨res, middle, ran, tables', shrunk, -, kept⟩ := executeWriteEvent_ok tables tid first
        (fun t same => (Option.some.inj same).symm)
        (fun d' _ here => by
          rw [depth] at here
          obtain rfl := Option.some.inj here
          exact ready)
      obtain ⟨st', ran', tables'', shrunk', current'⟩ := ih tables'
        (by rw [shrunk.depth]; exact depth)
        (fun a later => kept (tid, d) a rfl ready (safe a (List.mem_cons_of_mem _ later)))
        (kept (tid, d) first rfl ready ready).1
      refine ⟨st', ?_, tables'', shrunk.trans shrunk', current'⟩
      rw [List.foldlM_cons, ran]
      exact ran'

theorem countAll (l : Loop) (writes : List Address) (distinct : writes.Nodup) (st : State)
    (a : Address) :
    (writes.foldl (countWrite l) st).numWritesByBlockedLoops.lookup a =
      (if a ∈ writes then some ((st.numWritesByBlockedLoops.lookup a).getD 0 + 1)
        else st.numWritesByBlockedLoops.lookup a) ∧
    writersAt (writes.foldl (countWrite l) st) a =
      if a ∈ writes then writersAt st a ++ [l] else writersAt st a := by
  induction writes generalizing st with
  | nil => simp
  | cons first rest ih =>
      obtain ⟨absent, distinct⟩ := List.nodup_cons.mp distinct
      obtain ⟨counts, writers⟩ := ih distinct (countWrite l st first)
      rw [List.foldl_cons, counts, writers]
      by_cases same : a = first
      · rw [same, if_neg absent, if_neg absent, if_pos List.mem_cons_self,
          if_pos List.mem_cons_self, writersAt, countWrite]
        dsimp only
        rw [AList.lookup_insert, AList.lookup_insert]
        exact ⟨rfl, rfl⟩
      · have other : (countWrite l st first).numWritesByBlockedLoops.lookup a =
              st.numWritesByBlockedLoops.lookup a ∧
            writersAt (countWrite l st first) a = writersAt st a := by
          rw [writersAt, countWrite]
          dsimp only
          rw [AList.lookup_insert_ne same, AList.lookup_insert_ne same]
          exact ⟨rfl, rfl⟩
        rw [other.1, other.2]
        simp [same]

theorem countAll_rest (l : Loop) (writes : List Address) (st : State) :
    writes.foldl (countWrite l) st = { st with
      numWritesByBlockedLoops := (writes.foldl (countWrite l) st).numWritesByBlockedLoops
      blockedLoopsWritingHere := (writes.foldl (countWrite l) st).blockedLoopsWritingHere } := by
  induction writes generalizing st with
  | nil => rfl
  | cons first rest ih =>
      rw [List.foldl_cons]
      calc rest.foldl (countWrite l) (countWrite l st first)
        _ = _ := ih (countWrite l st first)
        _ = _ := rfl

theorem Tables.count (tables : Tables (some tid) st) (depth : st.loopDepth.lookup tid = some d)
    (current : (tid, d) ∈ st.comaximalLoops) (blocked : tid ∈ st.blockedTasks)
    {writes : List Address} (distinct : writes.Nodup)
    {counts : AList fun _ : Address => Nat} {writers : AList fun _ : Address => List Loop}
    (counted : ∀ a, counts.lookup a =
      if a ∈ writes then some ((st.numWritesByBlockedLoops.lookup a).getD 0 + 1)
      else st.numWritesByBlockedLoops.lookup a)
    (listed : ∀ a, (writers.lookup a).getD [] =
      if a ∈ writes then writersAt st a ++ [(tid, d)] else writersAt st a) :
    Tables none { st with
      numWritesByBlockedLoops := counts
      blockedLoopsWritingHere := writers
      writesInBlockedLoop := st.writesInBlockedLoop.insert (tid, d) writes } := by
  have unlisted : ∀ ws n, st.writesInBlockedLoop.lookup (tid, n) ≠ some ws :=
    fun ws n found => (tables.writes (tid, n) ws found).2.1 rfl
  have silent : ∀ a, (tid, d) ∉ writersAt st a := by
    intro a writes
    obtain ⟨ws, found, -⟩ := (tables.writers a (tid, d)).mp writes
    exact unlisted ws d found
  refine ⟨tables.reading, tables.states, tables.monitored, tables.once, tables.depths, ?_, ?_, ?_,
    ?_, ?_, tables.failed, tables.away, tables.unfinal⟩
  · intro t member _
    by_cases same : t = tid
    · rw [same]
      exact ⟨d, depth, current, (AList.mem_insert _).mpr (Or.inl rfl)⟩
    · obtain ⟨d', known, current', known'⟩ := tables.blocked t member
        (fun here => same (Option.some.inj here))
      exact ⟨d', known, current', (AList.mem_insert _).mpr (Or.inr known')⟩
  · intro k ws found
    cases lookup_insert_some.mp found with
    | inl new =>
        rw [new.1]
        exact ⟨blocked, nofun, depth, new.2 ▸ distinct⟩
    | inr old =>
        obtain ⟨member, -, here, distinct'⟩ := tables.writes k ws old.2
        exact ⟨member, nofun, here, distinct'⟩
  · intro a k
    show k ∈ (writers.lookup a).getD [] ↔ _
    rw [listed a]
    simp only [lookup_insert_some]
    by_cases same : k = (tid, d)
    · subst same
      by_cases written : a ∈ writes
      · simp [written]
      · simp [written, silent a]
    · by_cases written : a ∈ writes
      · simp [written, same, tables.writers]
      · simp [written, same, tables.writers]
  · intro a
    show ((writers.lookup a).getD []).Nodup
    rw [listed a]
    split
    · rw [List.nodup_append_comm]
      exact List.nodup_cons.mpr ⟨silent a, tables.writersOnce a⟩
    · exact tables.writersOnce a
  · intro a
    show counts.lookup a = if (writers.lookup a).getD [] = [] then none
      else some ((writers.lookup a).getD []).length
    rw [listed a, counted a, tables.counts a]
    by_cases written : a ∈ writes
    · rw [if_pos written, if_pos written,
        if_neg (List.append_ne_nil_of_right_ne_nil _ (List.cons_ne_nil _ _)), List.length_append]
      split
      next empty => simp [empty]
      next => rfl
    · rw [if_neg written, if_neg written]

theorem safeAddresses_nodup (map : AList fun _ : Address => AddressState) :
    (safeAddresses map).Nodup :=
  (AList.nodupKeys map).filter _

theorem blockLoop_ok (st : State) (order : List Address → List Address)
    (reordered : ∀ as, (order as).Perm as)
    (tables : Tables (some tid) { st with blockedTasks := insert tid st.blockedTasks })
    (depth : st.loopDepth.lookup tid = some d) (current : (tid, d) ∈ st.comaximalLoops)
    (failed : tid ∈ st.lastActionWasFailedSpinEnd) :
    ∃ st', blockLoop order (tid, d) st = .ok st' ∧ Tables none st' ∧ Narrowed st st' ∧
      st'.blockedTasks ⊆ insert tid st.blockedTasks ∧ st'.loopDepth = st.loopDepth ∧
      st'.lastActionWasFailedSpinEnd = st.lastActionWasFailedSpinEnd := by
  obtain ⟨map, found⟩ := Option.isSome_iff_exists.mp
    (AList.lookup_isSome.mpr ((tables.states (tid, d)).mp current))
  change st.stateWriteWithinLoop.lookup (tid, d) = some map at found
  have distinct : (order (safeAddresses map)).Nodup :=
    (reordered _).nodup_iff.mpr (safeAddresses_nodup map)
  have safe : ∀ a ∈ order (safeAddresses map),
      SafeAt { st with blockedTasks := insert tid st.blockedTasks } (tid, d) a := by
    intro a member
    have safe := (List.mem_filter.mp ((reordered _).mem_iff.mp member)).2
    exact ⟨current, map, found, beq_iff_eq.mp safe⟩
  obtain ⟨middle, ran, tables', shrunk, still⟩ := repeatWrites_ok _ tables depth safe current
  have here : middle.loopDepth.lookup tid = some d := by
    rw [shrunk.depth]
    exact depth
  have blocked : tid ∈ middle.blockedTasks := by
    by_contra unblocked
    refine tables'.away tid ?_ unblocked d here still
    rw [shrunk.failed]
    exact failed
  have counted := countAll (tid, d) _ distinct middle
  have rest := countAll_rest (tid, d) (order (safeAddresses map)) middle
  refine ⟨_, ?_, tables'.count here still blocked distinct (fun a => (counted a).1)
    (fun a => (counted a).2), ⟨shrunk.comaximal, shrunk.narrowed.reading⟩, shrunk.blocked,
    shrunk.depth, shrunk.failed⟩
  rw [blockLoop]
  simp only [found]
  rw [ran, ok_bind, rest]

theorem markSpinLoopEnd_repeats (order : List Address → List Address)
    (reordered : ∀ as, (order as).Perm as) (tables : Tables none st)
    (calm : tid ∉ st.lastActionWasFailedSpinEnd) (depth : st.loopDepth.lookup tid = some d) :
    ∃ res st', markSpinLoopEnd order tid 0 st = .ok (res, st') ∧ Tables none st' ∧
      Narrowed st st' ∧ st'.blockedTasks ⊆ insert tid st.blockedTasks ∧
      st'.loopDepth = st.loopDepth ∧
      st'.lastActionWasFailedSpinEnd = insert tid st.lastActionWasFailedSpinEnd := by
  have free : tid ∉ st.blockedTasks := fun member => calm (tables.failed tid member)
  rw [markSpinLoopEnd]
  simp only [depth, ne_eq, not_true_eq_false, if_false]
  by_cases current : (tid, d) ∈ st.comaximalLoops
  · rw [if_pos current]
    have tables' : Tables (some tid) { st with
        lastActionWasFailedSpinEnd := insert tid st.lastActionWasFailedSpinEnd
        blockedTasks := insert tid st.blockedTasks } := by
      refine ⟨tables.reading, tables.states, tables.monitored, tables.once, tables.depths, ?_, ?_,
        tables.writers, tables.writersOnce, tables.counts, ?_, ?_, tables.unfinal⟩
      · intro t member other
        have before := Finset.mem_of_mem_insert_of_ne member (fun same => other (by rw [same]))
        exact tables.blocked t before nofun
      · intro k ws listed
        obtain ⟨member, -, here, distinct⟩ := tables.writes k ws listed
        refine ⟨Finset.mem_insert_of_mem member, ?_, here, distinct⟩
        intro same
        exact free (Option.some.inj same ▸ member)
      · intro t member
        cases Finset.mem_insert.mp member with
        | inl same => exact Finset.mem_insert.mpr (Or.inl same)
        | inr before => exact Finset.mem_insert_of_mem (tables.failed t before)
      · intro t member unblocked
        rw [Finset.mem_insert, not_or] at unblocked
        exact tables.away t (Finset.mem_of_mem_insert_of_ne member unblocked.1) unblocked.2
    obtain ⟨st', ran, tables'', narrowed, blocked, depth', failed⟩ := blockLoop_ok
      { st with lastActionWasFailedSpinEnd := insert tid st.lastActionWasFailedSpinEnd } order
      reordered tables' depth current (Finset.mem_insert_self _ _)
    rw [ran, ok_bind]
    exact ⟨true, st', rfl, tables'', ⟨narrowed.comaximal, narrowed.reading⟩, blocked, depth', failed⟩
  · rw [if_neg current]
    refine ⟨false, _, rfl, ?_, ⟨Finset.Subset.refl _, fun _ _ => rfl⟩, Finset.subset_insert _ _, rfl,
      rfl⟩
    refine ⟨tables.reading, tables.states, tables.monitored, tables.once, tables.depths,
      tables.blocked, tables.writes, tables.writers, tables.writersOnce, tables.counts, ?_, ?_,
      tables.unfinal⟩
    · exact fun t member => Finset.mem_insert_of_mem (tables.failed t member)
    · intro t member unblocked d' known
      by_cases same : t = tid
      · rw [same, depth] at known
        rw [same, ← Option.some.inj known]
        exact current
      · exact tables.away t (Finset.mem_of_mem_insert_of_ne member same) unblocked d' known

end End

/-- The handler and the program it watches: how deep each task is in its loops, and whether its last
`spin_end` has failed. -/
structure World where
  st : State
  depth : TaskId → Nat
  repeats : TaskId → Bool

inductive Move where
  | spinStart (tid : TaskId)
  | spinEnd (tid : TaskId) (condFlag : UInt32) (order : List Address → List Address)
  | read (tid : TaskId) (addr : Address)
  | write (tid : TaskId) (addr : Address)

/-- The loops of a task are well bracketed, and it begins a loop anew after a failed `spin_end`. The
addresses of a hash map come in any order. -/
def Allowed (w : World) : Move → Prop
  | .spinEnd tid _ order => 0 < w.depth tid ∧ w.repeats tid = false ∧ ∀ as, (order as).Perm as
  | _ => True

def World.started (w : World) (tid : TaskId) (st : State) : World :=
  { st
    depth := if w.repeats tid then w.depth else Function.update w.depth tid (w.depth tid + 1)
    repeats := Function.update w.repeats tid false }

def World.ended (w : World) (tid : TaskId) (condFlag : UInt32) (st : State) : World :=
  if condFlag ≠ 0 then { w with st, depth := Function.update w.depth tid (w.depth tid - 1) }
  else { w with st, repeats := Function.update w.repeats tid true }

def step : Move → World → Except Fault World
  | .spinStart tid, w => do
      let st ← handleSpinStartContext tid w.st
      .ok (w.started tid st)
  | .spinEnd tid condFlag order, w => do
      let st ← handleSpinEndContext order tid condFlag w.st
      .ok (w.ended tid condFlag st)
  | .read tid addr, w => do
      let st ← executeReadEvent tid addr w.st
      .ok { w with st }
  | .write tid addr, w => do
      let written ← executeWriteEvent tid addr w.st
      .ok { w with st := written.2 }

def start : World := { st := default, depth := fun _ => 0, repeats := fun _ => false }

def system : Guarded World Move Fault := { start, step, allowed := Allowed }

structure Held (w : World) : Prop where
  tables : Tables none w.st
  depth : ∀ t, w.st.loopDepth.lookup t = if w.depth t = 0 then none else some (w.depth t)
  failed : ∀ t, t ∈ w.st.lastActionWasFailedSpinEnd ↔ w.repeats t = true
  inside : ∀ t, w.repeats t = true → 0 < w.depth t

section Run

variable {w : World}

theorem Tables.start : Tables none default := by
  refine ⟨?_, ?_, ?_, ?_, ?_, ?_, ?_, ?_, ?_, ?_, ?_, ?_, ?_⟩ <;>
    simp [default, monitors, writersAt]

theorem Tables.flags {busy : Option TaskId} {st : State} (tables : Tables busy st)
    (isChpt lastWriteChangedBlockedList : Bool) :
    Tables busy { st with isChpt, lastWriteChangedBlockedList } :=
  ⟨tables.reading, tables.states, tables.monitored, tables.once, tables.depths, tables.blocked,
    tables.writes, tables.writers, tables.writersOnce, tables.counts, tables.failed, tables.away,
    tables.unfinal⟩

theorem Held.depth_of_pos (held : Held w) {t : TaskId} (pos : 0 < w.depth t) :
    w.st.loopDepth.lookup t = some (w.depth t) := by
  rw [held.depth t, if_neg (Nat.pos_iff_ne_zero.mp pos)]

theorem Held.depth_getD (held : Held w) (t : TaskId) :
    (w.st.loopDepth.lookup t).getD 0 = w.depth t := by
  rw [held.depth t]
  split
  next zero => rw [zero, Option.getD_none]
  next => rfl

theorem Held.setState (held : Held w) {st : State} (tables : Tables none st)
    (depth : st.loopDepth = w.st.loopDepth)
    (failed : st.lastActionWasFailedSpinEnd = w.st.lastActionWasFailedSpinEnd) :
    Held { w with st } := by
  refine ⟨tables, ?_, ?_, held.inside⟩
  · intro t
    rw [depth]
    exact held.depth t
  · intro t
    rw [failed]
    exact held.failed t

theorem Held.spinStart (held : Held w) (tid : TaskId) :
    ∃ st, handleSpinStartContext tid w.st = .ok st ∧ Held (w.started tid st) ∧
      Begun (tid, (w.started tid st).depth tid) w.st st := by
  cases again : w.repeats tid with
  | false =>
      have calm : tid ∉ w.st.lastActionWasFailedSpinEnd := by
        rw [held.failed, again]
        exact Bool.false_ne_true
      obtain ⟨st', ran, tables, begun⟩ := markSpinLoopBegin_first held.tables calm
      rw [held.depth_getD] at begun
      simp only [World.started, again]
      refine ⟨st', ran, ⟨tables, ?_, ?_, ?_⟩, by simpa using begun⟩
      · intro t
        rw [begun.depth t]
        by_cases same : t = tid
        · simp [same]
        · simp [same, held.depth t]
      · intro t
        rw [begun.failed t, held.failed t]
        by_cases same : t = tid
        · simp [same]
        · simp [same]
      · intro t
        by_cases same : t = tid
        · simp [same]
        · simpa [same, again] using held.inside t
  | true =>
      have failed := (held.failed tid).mpr again
      have pos := held.inside tid again
      obtain ⟨st', ran, tables, begun⟩ :=
        markSpinLoopBegin_again held.tables failed (held.depth_of_pos pos) pos
      simp only [World.started, again]
      refine ⟨st', ran, ⟨tables, ?_, ?_, ?_⟩, by simpa using begun⟩
      · intro t
        rw [begun.depth t]
        by_cases same : t = tid
        · simp [same, Nat.pos_iff_ne_zero.mp pos]
        · simp [same, held.depth t]
      · intro t
        rw [begun.failed t, held.failed t]
        by_cases same : t = tid
        · simp [same]
        · simp [same]
      · intro t
        by_cases same : t = tid
        · simp [same]
        · simpa [same, again] using held.inside t

theorem Held.spinEnd (held : Held w) {tid : TaskId} (condFlag : UInt32)
    {order : List Address → List Address} (pos : 0 < w.depth tid) (once : w.repeats tid = false)
    (reordered : ∀ as, (order as).Perm as) :
    ∃ st, handleSpinEndContext order tid condFlag w.st = .ok st ∧ Held (w.ended tid condFlag st) ∧
      Narrowed w.st st := by
  have calm : tid ∉ w.st.lastActionWasFailedSpinEnd := by
    rw [held.failed, once]
    exact Bool.false_ne_true
  by_cases leaves : condFlag = 0
  · subst leaves
    obtain ⟨res, st', ran, tables, narrowed, -, depth, failed⟩ :=
      markSpinLoopEnd_repeats order reordered held.tables calm (held.depth_of_pos pos)
    simp only [World.ended, ne_eq, not_true_eq_false, if_false]
    refine ⟨{ st' with isChpt := st'.isChpt || res }, ?_, ⟨tables.flags _ _, ?_, ?_, ?_⟩,
      ⟨narrowed.comaximal, narrowed.reading⟩⟩
    · rw [handleSpinEndContext, ran]
      rfl
    · intro t
      dsimp only
      rw [depth]
      exact held.depth t
    · intro t
      dsimp only
      rw [failed, Finset.mem_insert, held.failed t]
      by_cases same : t = tid
      · simp [same]
      · simp [same]
    · intro t
      by_cases same : t = tid
      · simp [same, pos]
      · simpa [same] using held.inside t
  · obtain ⟨st', ran, tables, narrowed, -, depth, failed⟩ :=
      markSpinLoopEnd_leaves order held.tables calm (held.depth_of_pos pos) leaves
    simp only [World.ended, if_pos leaves]
    refine ⟨{ st' with isChpt := st'.isChpt || false }, ?_, ⟨tables.flags _ _, ?_, ?_, ?_⟩,
      ⟨narrowed.comaximal, narrowed.reading⟩⟩
    · rw [handleSpinEndContext, ran]
      rfl
    · intro t
      dsimp only
      rw [depth t]
      by_cases same : t = tid
      · by_cases deep : 1 < w.depth tid
        · have more : w.depth tid - 1 ≠ 0 := by omega
          simp [same, deep, more]
        · have last : w.depth tid - 1 = 0 := by omega
          simp [same, deep, last]
      · simpa [same] using held.depth t
    · intro t
      dsimp only
      rw [failed]
      exact held.failed t
    · intro t again
      have other : t ≠ tid := by
        rintro rfl
        rw [once] at again
        cases again
      dsimp only
      rw [Function.update_of_ne other]
      exact held.inside t again

theorem held_kept : Kept system Held := by
  refine ⟨⟨Tables.start, ?_, ?_, ?_⟩, ?_⟩
  · exact fun _ => rfl
  · intro t
    simp [system, start, default]
  · intro t again
    cases again
  · intro w move held allowed
    cases move with
    | spinStart tid =>
        obtain ⟨st, ran, held', -⟩ := held.spinStart tid
        refine ⟨w.started tid st, ?_, held'⟩
        show step (.spinStart tid) w = _
        rw [step, ran, ok_bind]
    | spinEnd tid condFlag order =>
        obtain ⟨st, ran, held', -⟩ := held.spinEnd condFlag allowed.1 allowed.2.1 allowed.2.2
        refine ⟨w.ended tid condFlag st, ?_, held'⟩
        show step (.spinEnd tid condFlag order) w = _
        rw [step, ran, ok_bind]
    | read tid addr =>
        obtain ⟨st', ran, tables, grown, -⟩ := executeReadEvent_ok held.tables tid addr
        refine ⟨{ w with st := st' }, ?_, held.setState tables grown.depth grown.failed⟩
        show step (.read tid addr) w = _
        rw [step, ran, ok_bind]
    | write tid addr =>
        obtain ⟨res, st', ran, tables, shrunk, -, -⟩ :=
          executeWriteEvent_ok held.tables tid addr nofun nofun
        refine ⟨{ w with st := st' }, ?_, held.setState tables shrunk.depth shrunk.failed⟩
        show step (.write tid addr) w = _
        rw [step, ran, ok_bind]

end Run

/-- The tables of the spin-loop handler stay in step with each other in every run of tasks with well
bracketed loops, and none of its assertions fails. -/
theorem spin_tables_agree {w : World} (reached : Reachable system w) :
    (∀ l, (l ∈ w.st.comaximalLoops ↔ l ∈ w.st.readingAddresses) ∧
      (l ∈ w.st.comaximalLoops ↔ l ∈ w.st.stateWriteWithinLoop)) ∧
    (∀ a l, (l ∈ monitors w.st a ↔ ∃ as, w.st.readingAddresses.lookup l = some as ∧ a ∈ as) ∧
      (monitors w.st a).count l ≤ 1) ∧
    (∀ t ∈ w.st.blockedTasks, ∃ d, w.st.loopDepth.lookup t = some d ∧
      (t, d) ∈ w.st.comaximalLoops ∧ (t, d) ∈ w.st.writesInBlockedLoop) ∧
    (∀ a, (w.st.numWritesByBlockedLoops.lookup a).getD 0 = (writersAt w.st a).length) ∧
    ∀ move, Allowed w move → ∃ w', step move w = .ok w' := by
  have held := held_kept.reachable reached
  refine ⟨?_, ?_, ?_, ?_, ?_⟩
  · exact fun l => ⟨held.tables.reading l, held.tables.states l⟩
  · exact fun a l => ⟨held.tables.monitored a l, List.nodup_iff_count_le_one.mp
      (held.tables.once a) l⟩
  · exact fun t member => held.tables.blocked t member nofun
  · intro a
    rw [held.tables.counts a]
    split
    next empty => rw [empty, Option.getD_none, List.length_nil]
    next => rw [Option.getD_some]
  · exact fun move allowed => held_kept.steps reached allowed

theorem eight_nonzero : (8 : UInt64) ≠ 0 := by decide

theorem sixteen_nonzero : (16 : UInt64) ≠ 0 := by decide

def waitsBlocked : List Move :=
  [.spinStart 1, .write 1 ⟨8, eight_nonzero⟩, .read 1 ⟨16, sixteen_nonzero⟩, .spinEnd 1 0 id]

theorem spin_tables_agree_waiting : ∃ w, Reachable system w ∧ w.st.blockedTasks = {1} ∧
    (∃ d, (1, d) ∈ w.st.comaximalLoops ∧ (1, d) ∈ w.st.writesInBlockedLoop) ∧
    (w.st.numWritesByBlockedLoops.lookup ⟨8, eight_nonzero⟩).getD 0 =
      (writersAt w.st ⟨8, eight_nonzero⟩).length := by
  have legal : Legal system waitsBlocked start :=
    ⟨trivial, trivial, trivial, ⟨by decide, by decide, fun _ => List.Perm.refl _⟩, trivial⟩
  obtain ⟨w, ran⟩ := legal.runs
  have seen : (run system waitsBlocked start).map (fun w => w.st.blockedTasks) = .ok {1} := by
    decide
  rw [ran] at seen
  have blocked : w.st.blockedTasks = {1} := Except.ok.inj seen
  have reached := legal.reachable Reachable.start ran
  obtain ⟨-, -, listed, counts, -⟩ := spin_tables_agree reached
  obtain ⟨d, -, current, writes⟩ := listed 1 (by rw [blocked]; exact Finset.mem_singleton_self 1)
  exact ⟨w, reached, blocked, ⟨d, current, writes⟩, counts _⟩

end Lotto.SpinLoop
