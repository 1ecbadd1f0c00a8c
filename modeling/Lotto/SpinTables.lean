import Lotto.Library.GuardedRun
import Lotto.Library.KeyMap
import Lotto.SpinLoop

namespace Lotto.SpinLoop

open Library.FaultRun Library.GuardedRun Library.KeyMap
open Lotto.Rusty

def monitors (st : State) (a : Address) : List Loop := (st.monitoringAddress.lookup a).getD []

def writersAt (st : State) (a : Address) : List Loop :=
  (st.blockedLoopsWritingHere.lookup a).getD []

structure Tables (busy : Option TaskId) (st : State) : Prop where
  reading : ∀ l, l ∈ st.comaximalLoops ↔ l ∈ st.readingAddresses
  states : ∀ l, l ∈ st.comaximalLoops ↔ l ∈ st.stateWriteWithinLoop
  monitored : ∀ a l, l ∈ monitors st a ↔ ∃ as, st.readingAddresses.lookup l = some as ∧ a ∈ as
  once : ∀ a, (monitors st a).Nodup
  depths : ∀ l ∈ st.comaximalLoops, ∃ d, st.loopDepth.lookup l.1 = some d ∧ 1 ≤ l.2 ∧ l.2 ≤ d
  blocked : ∀ t ∈ st.blockedTasks, some t ≠ busy → ∃ d, st.loopDepth.lookup t = some d ∧
    (t, d) ∈ st.comaximalLoops ∧ (t, d) ∈ st.writesInBlockedLoop
  writes : ∀ l ws, st.writesInBlockedLoop.lookup l = some ws → l.1 ∈ st.blockedTasks ∧
    some l.1 ≠ busy ∧ st.loopDepth.lookup l.1 = some l.2 ∧ ws.Nodup
  writers : ∀ a l, l ∈ writersAt st a ↔ ∃ ws, st.writesInBlockedLoop.lookup l = some ws ∧ a ∈ ws
  writersOnce : ∀ a, (writersAt st a).Nodup
  counts : ∀ a, st.numWritesByBlockedLoops.lookup a =
    if writersAt st a = [] then none else some (writersAt st a).length
  failed : ∀ t ∈ st.blockedTasks, t ∈ st.lastActionWasFailedSpinEnd
  away : ∀ t ∈ st.lastActionWasFailedSpinEnd, t ∉ st.blockedTasks →
    ∀ d, st.loopDepth.lookup t = some d → (t, d) ∉ st.comaximalLoops
  unfinal : ∀ l map a, st.stateWriteWithinLoop.lookup l = some map → map.lookup a ≠ some .final

structure Removed (l : Loop) (st st' : State) : Prop where
  comaximal : st'.comaximalLoops = st.comaximalLoops.erase l
  depth : st'.loopDepth = st.loopDepth
  failed : st'.lastActionWasFailedSpinEnd = st.lastActionWasFailedSpinEnd
  blocked : st'.blockedTasks =
    if st.loopDepth.lookup l.1 = some l.2 then st.blockedTasks.erase l.1 else st.blockedTasks
  reading : st'.readingAddresses = st.readingAddresses.erase l
  states : st'.stateWriteWithinLoop = st.stateWriteWithinLoop.erase l
  monitors : ∀ a, monitors st' a = (monitors st a).filter (· != l)
  writes : ∀ k, st'.writesInBlockedLoop.lookup k =
    if k = l then none else st.writesInBlockedLoop.lookup k
  writers : ∀ a, writersAt st' a = (writersAt st a).filter (· != l)
  counts : ∀ a, st'.numWritesByBlockedLoops.lookup a =
    if writersAt st' a = [] then none else some (writersAt st' a).length
  listed : ∀ a ∈ st.blockedLoopsWritingHere, a ∈ st'.blockedLoopsWritingHere

section Removal

variable {busy : Option TaskId} {st st' : State} {l : Loop}

theorem unmonitorAll_ok (l : Loop) (reading : List Address)
    (monitoring : AList fun _ : Address => List Loop) (known : ∀ a ∈ reading, a ∈ monitoring) :
    ∃ out, reading.foldlM (unmonitor l) monitoring = .ok out ∧
      ∀ a, (out.lookup a).getD [] = if a ∈ reading then
        ((monitoring.lookup a).getD []).filter (· != l) else (monitoring.lookup a).getD [] := by
  induction reading generalizing monitoring with
  | nil => exact ⟨monitoring, rfl, by simp⟩
  | cons first rest ih =>
      obtain ⟨loops, found⟩ := Option.isSome_iff_exists.mp
        (AList.lookup_isSome.mpr (known first List.mem_cons_self))
      obtain ⟨out, ran, lookups⟩ := ih (monitoring.insert first (loops.filter (· != l)))
        (fun a later => (AList.mem_insert _).mpr (Or.inr (known a (List.mem_cons_of_mem _ later))))
      refine ⟨out, ?_, ?_⟩
      · rw [List.foldlM_cons, unmonitor, found]
        exact ran
      · intro a
        rw [lookups a]
        by_cases same : a = first
        · subst same
          simp [found]
        · rw [AList.lookup_insert_ne same]
          simp [same]

def oneLess (cnt : Nat) : Option Nat := if 1 < cnt then some (cnt - 1) else none

theorem unwriteAll (l : Loop) (writes : List Address) (distinct : writes.Nodup)
    (tables : (AList fun _ : Address => Nat) × AList fun _ : Address => List Loop) (a : Address) :
    (writes.foldl (unwrite l) tables).1.lookup a =
      (if a ∈ writes then oneLess ((tables.1.lookup a).getD 0) else tables.1.lookup a) ∧
    ((writes.foldl (unwrite l) tables).2.lookup a).getD [] =
      if a ∈ writes then ((tables.2.lookup a).getD []).filter (· != l)
      else (tables.2.lookup a).getD [] := by
  induction writes generalizing tables with
  | nil => simp
  | cons first rest ih =>
      obtain ⟨absent, distinct⟩ := List.nodup_cons.mp distinct
      obtain ⟨counts, loops⟩ := ih distinct (unwrite l tables first)
      rw [List.foldl_cons, counts, loops]
      by_cases same : a = first
      · subst same
        rw [if_neg absent, if_neg absent, if_pos List.mem_cons_self, if_pos List.mem_cons_self]
        refine ⟨?_, ?_⟩
        · rw [unwrite, oneLess]
          dsimp only
          split
          · rw [AList.lookup_insert]
          · rw [AList.lookup_erase]
        · rw [unwrite]
          cases found : tables.2.lookup a with
          | none => simp [found]
          | some loops => simp
      · have other : (unwrite l tables first).1.lookup a = tables.1.lookup a ∧
            (unwrite l tables first).2.lookup a = tables.2.lookup a := by
          rw [unwrite]
          dsimp only
          refine ⟨?_, ?_⟩
          · split
            · exact AList.lookup_insert_ne same
            · exact AList.lookup_erase_ne same
          · split
            · exact AList.lookup_insert_ne same
            · rfl
        rw [other.1, other.2]
        simp [same]

theorem mem_unwriteAll (l : Loop) (writes : List Address)
    (tables : (AList fun _ : Address => Nat) × AList fun _ : Address => List Loop) (a : Address)
    (known : a ∈ tables.2) : a ∈ (writes.foldl (unwrite l) tables).2 := by
  induction writes generalizing tables with
  | nil => exact known
  | cons first rest ih =>
      rw [List.foldl_cons]
      apply ih
      rw [unwrite]
      dsimp only
      split
      · exact (AList.mem_insert _).mpr (Or.inr known)
      · exact known

theorem filter_ne_self {loops : List Loop} (absent : l ∉ loops) :
    loops.filter (· != l) = loops := by
  rw [List.filter_eq_self]
  intro k member
  simp only [bne_iff_ne, ne_eq]
  rintro rfl
  exact absent member

theorem Tables.unwatched (tables : Tables busy st) {as : List Address} {a : Address}
    (found : st.readingAddresses.lookup l = some as) (unread : a ∉ as) : l ∉ monitors st a := by
  intro watched
  obtain ⟨as', found', member⟩ := (tables.monitored a l).mp watched
  rw [found] at found'
  obtain rfl := Option.some.inj found'
  exact unread member

theorem oneLess_length {loops : List Loop} (distinct : loops.Nodup) (member : l ∈ loops) :
    oneLess loops.length =
      if loops.filter (· != l) = [] then none else some (loops.filter (· != l)).length := by
  have shorter : (loops.filter (· != l)).length = loops.length - 1 := by
    rw [← distinct.erase_eq_filter, List.length_erase_of_mem member]
  have empty : loops.filter (· != l) = [] ↔ loops.length - 1 = 0 := by
    rw [← List.length_eq_zero_iff, shorter]
  simp only [empty, shorter, oneLess]
  by_cases many : 1 < loops.length
  · rw [if_pos many, if_neg (by omega)]
  · rw [if_neg many, if_pos (by omega)]

theorem Tables.unmonitor (tables : Tables busy st) {as : List Address}
    (found : st.readingAddresses.lookup l = some as) :
    ∃ monitoring, as.foldlM (unmonitor l) st.monitoringAddress = .ok monitoring ∧
      ∀ a, (monitoring.lookup a).getD [] = (SpinLoop.monitors st a).filter (· != l) := by
  have known : ∀ a ∈ as, a ∈ st.monitoringAddress := by
    intro a read
    have watched : l ∈ SpinLoop.monitors st a := (tables.monitored a l).mpr ⟨as, found, read⟩
    rw [SpinLoop.monitors] at watched
    cases loops : st.monitoringAddress.lookup a with
    | none => simp [loops] at watched
    | some _ => exact mem_of_lookup loops
  obtain ⟨monitoring, unmonitored, lookups⟩ := unmonitorAll_ok l as st.monitoringAddress known
  refine ⟨monitoring, unmonitored, fun a => ?_⟩
  rw [lookups a]
  by_cases read : a ∈ as
  · rw [if_pos read, SpinLoop.monitors]
  · rw [if_neg read, filter_ne_self (tables.unwatched found read), SpinLoop.monitors]

theorem Tables.unwrite (tables : Tables busy st) {ws : List Address}
    (listed : st.writesInBlockedLoop.lookup l = some ws)
    {out : (AList fun _ : Address => Nat) × AList fun _ : Address => List Loop}
    (ran : ws.foldl (SpinLoop.unwrite l) (st.numWritesByBlockedLoops, st.blockedLoopsWritingHere) =
      out) (a : Address) :
    (out.2.lookup a).getD [] = (writersAt st a).filter (· != l) ∧
      out.1.lookup a = if (out.2.lookup a).getD [] = [] then none
        else some ((out.2.lookup a).getD []).length := by
  obtain ⟨-, -, -, distinct⟩ := tables.writes l ws listed
  obtain ⟨counts, loops⟩ :=
    unwriteAll l ws distinct (st.numWritesByBlockedLoops, st.blockedLoopsWritingHere) a
  rw [ran] at counts loops
  have writers : (out.2.lookup a).getD [] = (writersAt st a).filter (· != l) := by
    rw [loops]
    split
    next => rfl
    next unlisted =>
      symm
      apply filter_ne_self
      intro writes
      obtain ⟨ws', listed', member'⟩ := (tables.writers a l).mp writes
      rw [listed] at listed'
      obtain rfl := Option.some.inj listed'
      exact unlisted member'
  refine ⟨writers, ?_⟩
  rw [writers, counts, tables.counts a]
  by_cases written : a ∈ ws
  · have writes : l ∈ writersAt st a := (tables.writers a l).mpr ⟨ws, listed, written⟩
    rw [if_pos written, if_neg (List.ne_nil_of_mem writes), Option.getD_some]
    exact oneLess_length (tables.writersOnce a) writes
  · have same : (writersAt st a).filter (· != l) = writersAt st a := by
      rw [← writers, loops, if_neg written]
      rfl
    rw [if_neg written, same]

theorem Tables.silent (tables : Tables busy st) (unlisted : st.writesInBlockedLoop.lookup l = none)
    (a : Address) : (writersAt st a).filter (· != l) = writersAt st a := by
  apply filter_ne_self
  intro writes
  obtain ⟨ws, listed, -⟩ := (tables.writers a l).mp writes
  rw [unlisted] at listed
  cases listed

/-- A loop under observation can be removed, unless it is the one that is about to be blocked. -/
theorem removeLoop_ok (tables : Tables busy st) (member : l ∈ st.comaximalLoops)
    (idle : some l.1 = busy → st.loopDepth.lookup l.1 ≠ some l.2) :
    ∃ res st', removeLoopFromObservation l st = .ok (res, st') ∧ Removed l st st' := by
  obtain ⟨as, found⟩ := Option.isSome_iff_exists.mp
    (AList.lookup_isSome.mpr ((tables.reading l).mp member))
  obtain ⟨monitoring, unmonitored, watching⟩ := tables.unmonitor found
  obtain ⟨d, depth, -, -⟩ := tables.depths l member
  rw [removeLoopFromObservation]
  simp only [member, decide_true, check_true, ok_bind, found, unmonitored, depth]
  by_cases current : d = l.2 ∧ l.1 ∈ st.blockedTasks
  · rw [if_pos current]
    have here : st.loopDepth.lookup l.1 = some l.2 := by rw [depth, current.1]
    obtain ⟨d', depth', -, listed⟩ := tables.blocked l.1 current.2 (fun same => idle same here)
    rw [here] at depth'
    obtain rfl := Option.some.inj depth'
    obtain ⟨ws, listed⟩ := Option.isSome_iff_exists.mp (AList.lookup_isSome.mpr listed)
    have still := mem_unwriteAll l ws (st.numWritesByBlockedLoops, st.blockedLoopsWritingHere)
    simp only [unblock, listed, ok_bind]
    generalize ran : ws.foldl (unwrite l) (st.numWritesByBlockedLoops, st.blockedLoopsWritingHere) = out
      at still
    have unwritten := tables.unwrite listed ran
    refine ⟨true, _, rfl, rfl, rfl, rfl, ?_, rfl, rfl, watching, ?_, fun a => (unwritten a).1,
      fun a => (unwritten a).2, still⟩
    · dsimp only
      rw [if_pos here]
    · intro k
      by_cases same : k = l
      · subst same
        rw [if_pos rfl]
        exact AList.lookup_erase _ _
      · rw [if_neg same]
        exact AList.lookup_erase_ne same
  · rw [if_neg current]
    have unlisted : st.writesInBlockedLoop.lookup l = none := by
      cases listed : st.writesInBlockedLoop.lookup l with
      | none => rfl
      | some ws =>
          obtain ⟨blocked, -, here, -⟩ := tables.writes l ws listed
          rw [depth] at here
          exact absurd ⟨Option.some.inj here, blocked⟩ current
    refine ⟨false, _, rfl, rfl, rfl, rfl, ?_, rfl, rfl, watching, ?_,
      fun a => (tables.silent unlisted a).symm, tables.counts, fun _ known => known⟩
    · dsimp only
      rw [depth]
      split
      next here =>
        rw [Finset.erase_eq_of_notMem]
        exact fun blocked => current ⟨Option.some.inj here, blocked⟩
      next => rfl
    · intro k
      split
      next same => rw [same, unlisted]
      next => rfl

theorem mem_filter_ne {loops : List Loop} {k : Loop} :
    k ∈ loops.filter (· != l) ↔ k ∈ loops ∧ k ≠ l := by
  simp

theorem Removed.tables (removed : Removed l st st') (tables : Tables busy st) :
    Tables busy st' := by
  obtain ⟨comaximal, depth, failed, blocked, reading, states, monitors, writes, writers, counts, -⟩ :=
    removed
  have kept : ∀ t ∈ st'.blockedTasks, t ∈ st.blockedTasks ∧
      (t = l.1 → st.loopDepth.lookup l.1 ≠ some l.2) := by
    intro t member
    rw [blocked] at member
    split at member
    next here =>
      obtain ⟨differs, member⟩ := Finset.mem_erase.mp member
      exact ⟨member, fun same => absurd same differs⟩
    next elsewhere => exact ⟨member, fun _ => elsewhere⟩
  refine ⟨?_, ?_, ?_, ?_, ?_, ?_, ?_, ?_, ?_, counts, ?_, ?_, ?_⟩
  · intro k
    rw [comaximal, reading, Finset.mem_erase, AList.mem_erase, tables.reading]
  · intro k
    rw [comaximal, states, Finset.mem_erase, AList.mem_erase, tables.states]
  · intro a k
    rw [monitors, mem_filter_ne, tables.monitored, reading]
    simp only [lookup_erase_some]
    tauto
  · intro a
    rw [monitors]
    exact (tables.once a).filter _
  · intro k member
    rw [comaximal] at member
    rw [depth]
    exact tables.depths k (Finset.mem_of_mem_erase member)
  · intro t member idle
    obtain ⟨member, apart⟩ := kept t member
    obtain ⟨d, here, current, listed⟩ := tables.blocked t member idle
    have other : (t, d) ≠ l := by
      rintro rfl
      exact apart rfl here
    refine ⟨d, by rw [depth]; exact here, ?_, ?_⟩
    · rw [comaximal]
      exact Finset.mem_erase_of_ne_of_mem other current
    · rw [← AList.lookup_isSome, writes, if_neg other]
      exact AList.lookup_isSome.mpr listed
  · intro k ws listed
    rw [writes] at listed
    split at listed
    · cases listed
    next other =>
      obtain ⟨member, idle, here, distinct⟩ := tables.writes k ws listed
      refine ⟨?_, idle, by rw [depth]; exact here, distinct⟩
      rw [blocked]
      split
      next current =>
        apply Finset.mem_erase_of_ne_of_mem _ member
        intro same
        rw [same, current] at here
        exact other (Prod.ext same (Option.some.inj here).symm)
      next => exact member
  · intro a k
    rw [writers, mem_filter_ne, tables.writers]
    simp only [writes]
    by_cases same : k = l
    · simp [same]
    · simp [same]
  · intro a
    rw [writers]
    exact (tables.writersOnce a).filter _
  · intro t member
    rw [failed]
    exact tables.failed t (kept t member).1
  · intro t member free d here
    rw [failed] at member
    rw [depth] at here
    rw [comaximal]
    intro current
    obtain ⟨other, current⟩ := Finset.mem_erase.mp current
    by_cases was : t ∈ st.blockedTasks
    · -- a task that is no longer blocked has lost its current loop
      rw [blocked] at free
      split at free
      next gone =>
        have same : t = l.1 := by
          by_contra differs
          exact free (Finset.mem_erase_of_ne_of_mem differs was)
        rw [same, gone] at here
        exact other (Prod.ext same (Option.some.inj here).symm)
      next => exact free was
    · exact tables.away t member was d here current
  · intro k map a found
    rw [states] at found
    exact tables.unfinal k map a (lookup_erase_some.mp found).2

end Removal

structure Shrunk (st st' : State) : Prop where
  comaximal : st'.comaximalLoops ⊆ st.comaximalLoops
  depth : st'.loopDepth = st.loopDepth
  failed : st'.lastActionWasFailedSpinEnd = st.lastActionWasFailedSpinEnd
  blocked : st'.blockedTasks ⊆ st.blockedTasks
  reading : ∀ l ∈ st'.comaximalLoops,
    st'.readingAddresses.lookup l = st.readingAddresses.lookup l

def SafeAt (st : State) (l : Loop) (a : Address) : Prop :=
  l ∈ st.comaximalLoops ∧
    ∃ map, st.stateWriteWithinLoop.lookup l = some map ∧ map.lookup a = some .safe

section Shrinking

variable {busy : Option TaskId} {st st' st'' : State} {l : Loop} {cur : TaskId} {addr : Address}

theorem Shrunk.refl (st : State) : Shrunk st st :=
  ⟨Finset.Subset.refl _, rfl, rfl, Finset.Subset.refl _, fun _ _ => rfl⟩

theorem Shrunk.trans (one : Shrunk st st') (two : Shrunk st' st'') : Shrunk st st'' := by
  refine ⟨two.comaximal.trans one.comaximal, two.depth.trans one.depth,
    two.failed.trans one.failed, two.blocked.trans one.blocked, ?_⟩
  intro l member
  rw [two.reading l member, one.reading l (two.comaximal member)]

theorem Removed.shrunk (removed : Removed l st st') : Shrunk st st' := by
  refine ⟨?_, removed.depth, removed.failed, ?_, ?_⟩
  · rw [removed.comaximal]
    exact Finset.erase_subset _ _
  · rw [removed.blocked]
    split
    · exact Finset.erase_subset _ _
    · exact Finset.Subset.refl _
  · intro k member
    rw [removed.comaximal] at member
    rw [removed.reading]
    exact AList.lookup_erase_ne (Finset.ne_of_mem_erase member)

theorem Removed.safeAt (removed : Removed l st st') {k : Loop} (other : k ≠ l) {a : Address}
    (safe : SafeAt st k a) : SafeAt st' k a := by
  obtain ⟨member, map, found, state⟩ := safe
  refine ⟨?_, map, ?_, state⟩
  · rw [removed.comaximal]
    exact Finset.mem_erase_of_ne_of_mem other member
  · rw [removed.states, AList.lookup_erase_ne other]
    exact found

theorem mem_removed (removed : Removed l st st') {k : Loop} :
    k ∈ st'.comaximalLoops ↔ k ≠ l ∧ k ∈ st.comaximalLoops := by
  rw [removed.comaximal, Finset.mem_erase]

theorem notifyAll_ok (loops : List Loop) (distinct : loops.Nodup) (tables : Tables busy st)
    (watching : ∀ l ∈ loops, l.1 ≠ cur → l ∈ st.comaximalLoops)
    (own : ∀ t, busy = some t → t = cur) (acc : Bool) :
    ∃ res st', loops.foldlM (notify cur) (acc, st) = .ok (res, st') ∧ Tables busy st' ∧
      Shrunk st st' ∧ (∀ l ∈ loops, l.1 ≠ cur → l ∉ st'.comaximalLoops) ∧
      ∀ l a, l.1 = cur → SafeAt st l a → SafeAt st' l a := by
  induction loops generalizing st acc with
  | nil =>
      exact ⟨acc, st, rfl, tables, Shrunk.refl st, fun _ member => absurd member List.not_mem_nil,
        fun _ _ _ safe => safe⟩
  | cons first rest ih =>
      obtain ⟨absent, distinct⟩ := List.nodup_cons.mp distinct
      by_cases mine : first.1 = cur
      · obtain ⟨res, st', ran, tables', shrunk, gone, safe⟩ := ih distinct tables
          (fun l later => watching l (List.mem_cons_of_mem _ later)) acc
        refine ⟨res, st', ?_, tables', shrunk, ?_, safe⟩
        · rw [List.foldlM_cons, notify, if_neg (not_not.mpr mine)]
          exact ran
        · intro l member other
          rcases List.mem_cons.mp member with rfl | later
          · exact absurd mine other
          · exact gone l later other
      · have idle : some first.1 = busy → st.loopDepth.lookup first.1 ≠ some first.2 :=
          fun same => absurd (own first.1 same.symm) mine
        obtain ⟨removed, middle, ran, effect⟩ :=
          removeLoop_ok tables (watching first List.mem_cons_self mine) idle
        have still : ∀ l ∈ rest, l.1 ≠ cur → l ∈ middle.comaximalLoops := by
          intro l later other
          apply (mem_removed effect).mpr
          refine ⟨?_, watching l (List.mem_cons_of_mem _ later) other⟩
          rintro rfl
          exact absent later
        obtain ⟨res, st', ran', tables', shrunk, gone, safe⟩ :=
          ih distinct (effect.tables tables) still (acc || removed)
        refine ⟨res, st', ?_, tables', effect.shrunk.trans shrunk, ?_, ?_⟩
        · rw [List.foldlM_cons, notify, if_pos mine, ran]
          exact ran'
        · intro l member other
          rcases List.mem_cons.mp member with rfl | later
          · intro back
            exact ((mem_removed effect).mp (shrunk.comaximal back)).1 rfl
          · exact gone l later other
        · intro l a same before
          apply safe l a same
          apply effect.safeAt _ before
          rintro rfl
          exact mine same

theorem Tables.setState (tables : Tables busy st) (member : l ∈ st.comaximalLoops)
    (map : AList fun _ : Address => AddressState) (unfinal : ∀ a, map.lookup a ≠ some .final) :
    Tables busy { st with stateWriteWithinLoop := st.stateWriteWithinLoop.insert l map } := by
  refine ⟨tables.reading, ?_, tables.monitored, tables.once, tables.depths, tables.blocked,
    tables.writes, tables.writers, tables.writersOnce, tables.counts, tables.failed, tables.away, ?_⟩
  · intro k
    rw [AList.mem_insert, ← tables.states]
    constructor
    · exact Or.inr
    · intro either
      rcases either with rfl | member'
      · exact member
      · exact member'
  · intro k map' a found
    rcases lookup_insert_some.mp found with ⟨-, rfl⟩ | ⟨-, found⟩
    · exact unfinal a
    · exact tables.unfinal k map' a found

theorem updateForWrite_ok (tables : Tables busy st) (l : Loop) (addr : Address)
    (ready : some l.1 = busy → st.loopDepth.lookup l.1 = some l.2 → SafeAt st l addr) :
    ∃ res st', updateAddressStateMachineForWrite l addr st = .ok (res, st') ∧ Tables busy st' ∧
      Shrunk st st' ∧ ∀ k, SafeAt st k addr → ∀ a, SafeAt st k a → SafeAt st' k a := by
  rw [updateAddressStateMachineForWrite]
  by_cases member : l ∈ st.comaximalLoops
  · rw [if_pos member]
    obtain ⟨map, found⟩ := Option.isSome_iff_exists.mp
      (AList.lookup_isSome.mpr ((tables.states l).mp member))
    -- the first write of an iteration and the later ones leave the address safe
    have written : ∃ res st', Except.ok (false, { st with
          stateWriteWithinLoop := st.stateWriteWithinLoop.insert l (map.insert addr .safe) }) =
        (Except.ok (res, st') : Except Fault (Bool × State)) ∧ Tables busy st' ∧ Shrunk st st' ∧
        ∀ k, SafeAt st k addr → ∀ a, SafeAt st k a → SafeAt st' k a := by
      refine ⟨false, _, rfl, tables.setState member _ ?_,
        ⟨Finset.Subset.refl _, rfl, rfl, Finset.Subset.refl _, fun _ _ => rfl⟩, ?_⟩
      · intro a final
        rcases lookup_insert_some.mp final with ⟨-, safe⟩ | ⟨-, final⟩
        · cases safe
        · exact tables.unfinal l map a found final
      · intro k _ a safe
        obtain ⟨inside, map', found', state⟩ := safe
        by_cases same : k = l
        · subst same
          rw [found] at found'
          obtain rfl := Option.some.inj found'
          refine ⟨inside, map.insert addr .safe, AList.lookup_insert _, ?_⟩
          apply lookup_insert_some.mpr
          by_cases here : a = addr
          · exact Or.inl ⟨here, rfl⟩
          · exact Or.inr ⟨here, state⟩
        · exact ⟨inside, map', by rw [AList.lookup_insert_ne same]; exact found', state⟩
    simp only [found]
    cases state : map.lookup addr with
    | none => exact written
    | some before =>
        cases before with
        | initial => exact written
        | safe => exact written
        | final => exact absurd state (tables.unfinal l map addr found)
        | readNeverWrote =>
            have unsafe_here : ¬ SafeAt st l addr := by
              intro safe
              obtain ⟨-, map', found', state'⟩ := safe
              rw [found] at found'
              obtain rfl := Option.some.inj found'
              rw [state] at state'
              cases state'
            obtain ⟨res, st', ran, removed⟩ := removeLoop_ok tables member
              (fun same here => unsafe_here (ready same here))
            refine ⟨res, st', ran, removed.tables tables, removed.shrunk, ?_⟩
            intro k safe a before
            apply removed.safeAt _ before
            rintro rfl
            exact unsafe_here safe
  · rw [if_neg member]
    exact ⟨false, st, rfl, tables, Shrunk.refl st, fun _ _ _ safe => safe⟩

theorem ownWriteAll_ok (idxs : List Nat) (tables : Tables busy st)
    (ready : ∀ d, some cur = busy → st.loopDepth.lookup cur = some d → SafeAt st (cur, d) addr)
    (acc : Bool) :
    ∃ res st', idxs.foldlM (ownWrite cur addr) (acc, st) = .ok (res, st') ∧ Tables busy st' ∧
      Shrunk st st' ∧ ∀ k, SafeAt st k addr → ∀ a, SafeAt st k a → SafeAt st' k a := by
  induction idxs generalizing st acc with
  | nil => exact ⟨acc, st, rfl, tables, Shrunk.refl st, fun _ _ _ safe => safe⟩
  | cons idx rest ih =>
      obtain ⟨removed, middle, ran, tables', shrunk, safe⟩ :=
        updateForWrite_ok tables (cur, idx + 1) addr (ready (idx + 1))
      obtain ⟨res, st', ran', tables'', shrunk', safe'⟩ := ih tables'
        (fun d same here => by
          rw [shrunk.depth] at here
          have before := ready d same here
          exact safe _ before addr before) (acc || removed)
      refine ⟨res, st', ?_, tables'', shrunk.trans shrunk', ?_⟩
      · rw [List.foldlM_cons, ownWrite, ran]
        exact ran'
      · intro k before a safeA
        exact safe' k (safe k before addr before) a (safe k before a safeA)

theorem executeWriteEvent_ok (tables : Tables busy st) (cur : TaskId) (addr : Address)
    (own : ∀ t, busy = some t → t = cur)
    (ready : ∀ d, some cur = busy → st.loopDepth.lookup cur = some d → SafeAt st (cur, d) addr) :
    ∃ res st', executeWriteEvent cur addr st = .ok (res, st') ∧ Tables busy st' ∧ Shrunk st st' ∧
      (∀ l ∈ st'.comaximalLoops, l.1 ≠ cur → l ∉ monitors st addr) ∧
      ∀ l a, l.1 = cur → SafeAt st l addr → SafeAt st l a → SafeAt st' l a := by
  have watching : ∀ l ∈ monitors st addr, l.1 ≠ cur → l ∈ st.comaximalLoops := by
    intro l watches _
    obtain ⟨as, found, -⟩ := (tables.monitored addr l).mp watches
    exact (tables.reading l).mpr (mem_of_lookup found)
  obtain ⟨chpt, middle, notified, tables', shrunk, gone, safe⟩ :=
    notifyAll_ok (monitors st addr) (tables.once addr) tables watching own false
  rw [executeWriteEvent, show (st.monitoringAddress.lookup addr).getD [] = monitors st addr from rfl,
    notified, ok_bind]
  dsimp only
  cases depth : middle.loopDepth.lookup cur with
  | none =>
      refine ⟨chpt, middle, rfl, tables', shrunk, ?_, fun l a same _ => safe l a same⟩
      exact fun l left other watches => gone l watches other left
  | some d =>
      obtain ⟨res, st', ran, tables'', shrunk', safe'⟩ := ownWriteAll_ok (List.range d) tables'
        (fun d same here => by
          rw [shrunk.depth] at here
          exact safe (cur, d) addr rfl (ready d same here)) chpt
      refine ⟨res, st', ran, tables'', shrunk.trans shrunk', ?_, ?_⟩
      · exact fun l left other watches => gone l watches other (shrunk'.comaximal left)
      · intro l a same here before
        exact safe' l (safe l addr same here) a (safe l a same before)

end Shrinking

def reads (st : State) (l : Loop) : List Address := (st.readingAddresses.lookup l).getD []

structure Grown (st st' : State) : Prop where
  comaximal : st'.comaximalLoops ⊆ st.comaximalLoops
  depth : st'.loopDepth = st.loopDepth
  failed : st'.lastActionWasFailedSpinEnd = st.lastActionWasFailedSpinEnd
  blocked : st'.blockedTasks ⊆ st.blockedTasks
  reading : ∀ l ∈ st'.comaximalLoops, reads st l ⊆ reads st' l

section Reading

variable {busy : Option TaskId} {st st' st'' : State} {l : Loop} {addr : Address}

theorem Shrunk.grown (shrunk : Shrunk st st') : Grown st st' := by
  refine ⟨shrunk.comaximal, shrunk.depth, shrunk.failed, shrunk.blocked, ?_⟩
  intro l member
  rw [reads, reads, shrunk.reading l member]
  exact List.Subset.refl _

theorem Grown.trans (one : Grown st st') (two : Grown st' st'') : Grown st st'' := by
  refine ⟨two.comaximal.trans one.comaximal, two.depth.trans one.depth,
    two.failed.trans one.failed, two.blocked.trans one.blocked, ?_⟩
  intro l member
  exact List.Subset.trans (one.reading l (two.comaximal member)) (two.reading l member)

theorem Tables.setReading (tables : Tables busy st) (member : l ∈ st.comaximalLoops)
    (as : List Address) (monitoring : AList fun _ : Address => List Loop)
    (once : ∀ a, ((monitoring.lookup a).getD []).Nodup)
    (watch : ∀ a k, k ∈ (monitoring.lookup a).getD [] ↔
      k ≠ l ∧ k ∈ monitors st a ∨ k = l ∧ a ∈ as) :
    Tables busy { st with
      readingAddresses := st.readingAddresses.insert l as
      monitoringAddress := monitoring } := by
  refine ⟨?_, tables.states, ?_, once, tables.depths, tables.blocked, tables.writes, tables.writers,
    tables.writersOnce, tables.counts, tables.failed, tables.away, tables.unfinal⟩
  · intro k
    rw [AList.mem_insert, ← tables.reading]
    constructor
    · exact Or.inr
    · intro either
      rcases either with rfl | member'
      · exact member
      · exact member'
  · intro a k
    refine (watch a k).trans ?_
    simp only [lookup_insert_some]
    rw [tables.monitored]
    by_cases same : k = l
    · simp [same]
    · simp [same]

theorem removeAll_ok (writers : List Loop) (distinct : writers.Nodup) (tables : Tables none st)
    (watched : ∀ l ∈ writers, l ∈ st.comaximalLoops) :
    ∃ st', writers.foldlM (fun st writer => (removeLoopFromObservation writer st).map Prod.snd) st =
      .ok st' ∧ Tables none st' ∧ Shrunk st st' := by
  induction writers generalizing st with
  | nil => exact ⟨st, rfl, tables, Shrunk.refl st⟩
  | cons first rest ih =>
      obtain ⟨absent, distinct⟩ := List.nodup_cons.mp distinct
      obtain ⟨res, middle, ran, removed⟩ :=
        removeLoop_ok tables (watched first List.mem_cons_self) nofun
      obtain ⟨st', ran', tables', shrunk⟩ := ih distinct (removed.tables tables) (by
        intro l later
        apply (mem_removed removed).mpr
        refine ⟨?_, watched l (List.mem_cons_of_mem _ later)⟩
        rintro rfl
        exact absent later)
      refine ⟨st', ?_, tables', removed.shrunk.trans shrunk⟩
      rw [List.foldlM_cons, ran]
      exact ran'

theorem Tables.writer_watched (tables : Tables none st) {a : Address} (writes : l ∈ writersAt st a) :
    l ∈ st.comaximalLoops := by
  obtain ⟨ws, listed, -⟩ := (tables.writers a l).mp writes
  obtain ⟨blocked, -, here, -⟩ := tables.writes l ws listed
  obtain ⟨d, here', current, -⟩ := tables.blocked l.1 blocked nofun
  rw [here] at here'
  obtain rfl := Option.some.inj here'
  exact current

theorem readPermanent_ok (tables : Tables none st) (member : l ∈ st.comaximalLoops)
    (counted : addr ∈ st.numWritesByBlockedLoops) :
    ∃ st', readPermanent l addr st = .ok st' ∧ Tables none st' ∧ Shrunk st st' ∧
      l ∉ st'.comaximalLoops := by
  obtain ⟨res, middle, ran, removed⟩ := removeLoop_ok tables member nofun
  have tables' := removed.tables tables
  have known : addr ∈ st.blockedLoopsWritingHere := by
    cases found : st.blockedLoopsWritingHere.lookup addr with
    | some writers => exact mem_of_lookup found
    | none =>
        have count := tables.counts addr
        rw [writersAt, found, Option.getD_none, if_pos rfl] at count
        exact absurd (AList.lookup_isSome.mpr counted) (by rw [count]; simp)
  obtain ⟨writers, found⟩ := Option.isSome_iff_exists.mp
    (AList.lookup_isSome.mpr (removed.listed addr known))
  have same : writersAt middle addr = writers := by
    rw [writersAt, found, Option.getD_some]
  obtain ⟨st', ran', tables'', shrunk⟩ := removeAll_ok writers
    (same ▸ tables'.writersOnce addr) tables'
    (fun k writes => tables'.writer_watched (same.symm ▸ writes))
  refine ⟨st', ?_, tables'', removed.shrunk.trans shrunk, ?_⟩
  · rw [readPermanent, ran, ok_bind]
    simp only [found]
    exact ran'
  · intro back
    exact ((mem_removed removed).mp (shrunk.comaximal back)).1 rfl

theorem Tables.reads_eq (tables : Tables busy st) (member : l ∈ st.comaximalLoops) :
    st.readingAddresses.lookup l = some (reads st l) := by
  obtain ⟨as, found⟩ := Option.isSome_iff_exists.mp
    (AList.lookup_isSome.mpr ((tables.reading l).mp member))
  rw [reads, found, Option.getD_some]

theorem getD_insert {β γ : Type} [DecidableEq β] (t : AList fun _ : β => List γ) (k j : β)
    (v : List γ) :
    ((t.insert k v).lookup j).getD [] = if j = k then v else (t.lookup j).getD [] := by
  by_cases here : j = k
  · rw [here, AList.lookup_insert, if_pos rfl, Option.getD_some]
  · rw [AList.lookup_insert_ne here, if_neg here]

theorem readAgain (tables : Tables none st) (member : l ∈ st.comaximalLoops)
    (known : addr ∈ reads st l) :
    Tables none { st with readingAddresses := st.readingAddresses.insert l (reads st l) } ∧
      Grown st { st with readingAddresses := st.readingAddresses.insert l (reads st l) } ∧
      addr ∈ reads { st with readingAddresses := st.readingAddresses.insert l (reads st l) } l := by
  have found := tables.reads_eq member
  have same (k : Loop) :
      reads { st with readingAddresses := st.readingAddresses.insert l (reads st l) } k =
        reads st k := by
    rw [reads, getD_insert]
    split
    next here => rw [here]
    next => rfl
  refine ⟨tables.setReading member (reads st l) st.monitoringAddress tables.once ?_,
    ⟨Finset.Subset.refl _, rfl, rfl, Finset.Subset.refl _, ?_⟩, ?_⟩
  · intro a k
    rw [show (st.monitoringAddress.lookup a).getD [] = monitors st a from rfl]
    by_cases here : k = l
    · rw [here, tables.monitored, found]
      simp
    · simp [here]
  · intro k _ a inside
    rw [same k]
    exact inside
  · rw [same l]
    exact known

def watching (l : Loop) (addr : Address) (st : State) : State :=
  { st with
    readingAddresses := st.readingAddresses.insert l (reads st l ++ [addr])
    monitoringAddress := st.monitoringAddress.insert addr (monitors st addr ++ [l]) }

theorem reads_watching (l k : Loop) (addr : Address) (st : State) :
    reads (watching l addr st) k = if k = l then reads st l ++ [addr] else reads st k :=
  getD_insert _ _ _ _

theorem watching_tables (tables : Tables none st) (member : l ∈ st.comaximalLoops)
    (new : addr ∉ reads st l) : Tables none (watching l addr st) := by
  have found := tables.reads_eq member
  have unwatched := tables.unwatched found new
  have watchers (a : Address) : ((st.monitoringAddress.insert addr (monitors st addr ++ [l])).lookup
      a).getD [] = if a = addr then monitors st addr ++ [l] else monitors st a := getD_insert _ _ _ _
  refine tables.setReading member (reads st l ++ [addr])
    (st.monitoringAddress.insert addr (monitors st addr ++ [l])) ?_ ?_
  · intro a
    rw [watchers a]
    split
    next =>
      rw [List.nodup_append_comm]
      exact List.nodup_cons.mpr ⟨unwatched, tables.once addr⟩
    next => exact tables.once a
  · intro a k
    rw [watchers a]
    by_cases same : k = l
    · rw [same]
      by_cases here : a = addr
      · simp [here]
      · simp [here, tables.monitored, found]
    · by_cases here : a = addr
      · simp [here, same]
      · simp [here, same]

theorem watching_ok (tables : Tables none st) (member : l ∈ st.comaximalLoops)
    (new : addr ∉ reads st l) :
    ∃ st', updateAddressStateMachineForRead l addr (watching l addr st) = .ok st' ∧ Tables none st' ∧
      Grown st st' ∧ addr ∈ reads st' l := by
  have tables' := watching_tables tables member new
  obtain ⟨map, states⟩ := Option.isSome_iff_exists.mp
    (AList.lookup_isSome.mpr ((tables.states l).mp member))
  have states' : (watching l addr st).stateWriteWithinLoop.lookup l = some map := states
  rw [updateAddressStateMachineForRead]
  simp only [states']
  refine ⟨_, rfl, tables'.setState member _ ?_,
    ⟨Finset.Subset.refl _, rfl, rfl, Finset.Subset.refl _, ?_⟩, ?_⟩
  · intro a final
    split at final
    · exact tables.unfinal l map a states final
    · rcases lookup_insert_some.mp final with ⟨-, wrong⟩ | ⟨-, final⟩
      · cases wrong
      · exact tables.unfinal l map a states final
  · intro k _ a inside
    show a ∈ reads (watching l addr st) k
    rw [reads_watching]
    split
    next here => exact List.mem_append_left _ (here ▸ inside)
    next => exact inside
  · show addr ∈ reads (watching l addr st) l
    rw [reads_watching, if_pos rfl]
    exact List.mem_append_right _ (List.mem_singleton_self addr)

theorem addRead_ok (tables : Tables none st) (tid : TaskId) (addr : Address) (idx : Nat) :
    ∃ st', addRead tid addr st idx = .ok st' ∧ Tables none st' ∧ Grown st st' ∧
      ((tid, idx + 1) ∈ st'.comaximalLoops → addr ∈ reads st' (tid, idx + 1)) := by
  rw [addRead]
  generalize at_depth : ((tid, idx + 1) : Loop) = l
  by_cases member : l ∈ st.comaximalLoops
  · rw [if_pos member]
    by_cases counted : addr ∈ st.numWritesByBlockedLoops
    · rw [if_pos counted]
      obtain ⟨st', ran, tables', shrunk, gone⟩ := readPermanent_ok tables member counted
      exact ⟨st', ran, tables', shrunk.grown, fun back => absurd back gone⟩
    · rw [if_neg counted]
      rw [show (st.readingAddresses.lookup l).getD [] = reads st l from rfl]
      by_cases known : addr ∈ reads st l
      · rw [if_pos known]
        obtain ⟨tables', grown, watched⟩ := readAgain tables member known
        exact ⟨_, rfl, tables', grown, fun _ => watched⟩
      · rw [if_neg known]
        obtain ⟨st', ran, tables', grown, watched⟩ := watching_ok tables member known
        exact ⟨st', ran, tables', grown, fun _ => watched⟩
  · rw [if_neg member]
    exact ⟨st, rfl, tables, (Shrunk.refl st).grown, fun back => absurd back member⟩

theorem addReadAll_ok (tables : Tables none st) (tid : TaskId) (addr : Address) (idxs : List Nat) :
    ∃ st', idxs.foldlM (addRead tid addr) st = .ok st' ∧ Tables none st' ∧ Grown st st' ∧
      ∀ idx ∈ idxs, (tid, idx + 1) ∈ st'.comaximalLoops → addr ∈ reads st' (tid, idx + 1) := by
  induction idxs generalizing st with
  | nil =>
      exact ⟨st, rfl, tables, (Shrunk.refl st).grown, fun _ none => absurd none List.not_mem_nil⟩
  | cons first rest ih =>
      obtain ⟨middle, ran, tables', grown, added⟩ := addRead_ok tables tid addr first
      obtain ⟨st', ran', tables'', grown', added'⟩ := ih tables'
      refine ⟨st', ?_, tables'', grown.trans grown', ?_⟩
      · rw [List.foldlM_cons, ran]
        exact ran'
      · intro idx member left
        cases List.mem_cons.mp member with
        | inl same =>
            subst same
            exact grown'.reading _ left (added (grown'.comaximal left))
        | inr later => exact added' idx later left

theorem executeReadEvent_ok (tables : Tables none st) (tid : TaskId) (addr : Address) :
    ∃ st', executeReadEvent tid addr st = .ok st' ∧ Tables none st' ∧ Grown st st' ∧
      ∀ l ∈ st'.comaximalLoops, l.1 = tid → addr ∈ reads st' l := by
  rw [executeReadEvent]
  cases depth : st.loopDepth.lookup tid with
  | none =>
      refine ⟨st, rfl, tables, (Shrunk.refl st).grown, ?_⟩
      intro l member same
      obtain ⟨d, known, -⟩ := tables.depths l member
      rw [same, depth] at known
      cases known
  | some d =>
      obtain ⟨st', ran, tables', grown, added⟩ := addReadAll_ok tables tid addr (List.range d)
      refine ⟨st', ran, tables', grown, ?_⟩
      intro l member same
      obtain ⟨d', known, low, high⟩ := tables'.depths l member
      rw [same, grown.depth, depth] at known
      have here : (tid, l.2 - 1 + 1) = l := by
        apply Prod.ext same.symm
        show l.2 - 1 + 1 = l.2
        omega
      have inside : l.2 - 1 ∈ List.range d := by
        have bound := Option.some.inj known
        rw [List.mem_range]
        omega
      rw [← here] at member ⊢
      exact added (l.2 - 1) inside member

end Reading

end Lotto.SpinLoop
