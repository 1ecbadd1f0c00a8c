import Lotto.Library.FaultRun
import Lotto.Library.KeyMap
import Lotto.Poll

namespace Lotto.PollSpecs

open Library.FaultRun Library.KeyMap

section Keys

variable {fd fd' : Int32}

theorem fdKey_toNat (nonneg : 0 ≤ fd.toInt) : ((fdKey fd).toNat : Int) = fd.toInt + 1 := by
  have bound := fd.toInt_lt
  rw [fdKey, UInt64.ofInt, UInt64.toNat_ofNat']
  omega

theorem fdKey_ne (nonneg : 0 ≤ fd.toInt) : fdKey fd ≠ noTask := by
  intro none
  have value := fdKey_toNat nonneg
  rw [none] at value
  have zero : noTask.toNat = 0 := rfl
  omega

theorem fdKey_inj (nonneg : 0 ≤ fd.toInt) (nonneg' : 0 ≤ fd'.toInt) (same : fdKey fd = fdKey fd') :
    fd = fd' := by
  have value := fdKey_toNat nonneg
  have value' := fdKey_toNat nonneg'
  rw [same] at value
  apply Int32.toInt_inj.mp
  omega

theorem fdOf_fdKey (nonneg : 0 ≤ fd.toInt) : fdOf (fdKey fd) = fd := by
  rw [fdOf, fdKey_toNat nonneg]
  simp

theorem not_neg_iff : ¬ fd < 0 ↔ 0 ≤ fd.toInt := by
  rw [Int32.lt_iff_toInt_lt]
  simp

end Keys

def waitersAt (fds : Map PolledFd) (fd : Int32) : Tidset :=
  match fds.lookup (fdKey fd) with
  | some item => item.waiters
  | none => .empty

def countAt (fds : Map PolledFd) (fd : Int32) (bit : Fin 16) : Int :=
  match fds.lookup (fdKey fd) with
  | some item => item.counts bit
  | none => 0

def onBit (fd : Int32) (bit : Fin 16) (p : Pollfd) : Bool := p.fd == fd && p.events.getLsbD bit

variable {fds fds' : Map PolledFd} {item : PolledFd} {fd : Int32} {tid : TaskId}

theorem waitersAt_found (found : fds.lookup (fdKey fd) = some item) :
    waitersAt fds fd = item.waiters := by
  rw [waitersAt, found]

theorem waitersAt_missing (missing : fds.lookup (fdKey fd) = none) :
    waitersAt fds fd = .empty := by
  rw [waitersAt, missing]

theorem countAt_found (found : fds.lookup (fdKey fd) = some item) (bit : Fin 16) :
    countAt fds fd bit = item.counts bit := by
  rw [countAt, found]

theorem countAt_missing (missing : fds.lookup (fdKey fd) = none) (bit : Fin 16) :
    countAt fds fd bit = 0 := by
  rw [countAt, missing]

theorem registered_of_waiter (member : tid ∈ waitersAt fds fd) :
    ∃ item, fds.lookup (fdKey fd) = some item := by
  cases found : fds.lookup (fdKey fd) with
  | none =>
      rw [waitersAt_missing found] at member
      exact absurd member (Tidset.not_mem_empty tid)
  | some item => exact ⟨item, rfl⟩

structure Sets (p : Pollfd) (item : PolledFd) (fds fds' : Map PolledFd) : Prop where
  lookup : ∀ key, fds'.lookup key = if key = fdKey p.fd then some item else fds.lookup key

variable {p : Pollfd}

theorem Sets.waiters (sets : Sets p item fds fds') (own : 0 ≤ p.fd.toInt) (nonneg : 0 ≤ fd.toInt) :
    waitersAt fds' fd = if fd = p.fd then item.waiters else waitersAt fds fd := by
  rw [waitersAt, sets.lookup]
  by_cases same : fd = p.fd
  · rw [if_pos (by rw [same]), if_pos same]
  · rw [if_neg fun key => same (fdKey_inj nonneg own key), if_neg same, waitersAt]

theorem Sets.counts (sets : Sets p item fds fds') (own : 0 ≤ p.fd.toInt) (nonneg : 0 ≤ fd.toInt)
    (bit : Fin 16) :
    countAt fds' fd bit = if fd = p.fd then item.counts bit else countAt fds fd bit := by
  rw [countAt, sets.lookup]
  by_cases same : fd = p.fd
  · rw [if_pos (by rw [same]), if_pos same]
  · rw [if_neg fun key => same (fdKey_inj nonneg own key), if_neg same, countAt]

theorem addEvents_apply (change : Int) (p : Pollfd) (counts : Fin 16 → Int) (bit : Fin 16) :
    addEvents change p.events counts bit =
      counts bit + if onBit p.fd bit p = true then change else 0 := by
  simp only [addEvents, onBit, beq_self_eq_true, Bool.true_and]
  by_cases set : p.events.getLsbD bit = true
  · rw [if_pos set, if_pos set]
  · rw [if_neg set, if_neg set, Int.add_zero]

theorem onBit_other (other : fd ≠ p.fd) (bit : Fin 16) : onBit fd bit p = false := by
  simp [onBit, Ne.symm other]

section Watching

def watchedItem (tid : TaskId) (p : Pollfd) (item : PolledFd) : PolledFd :=
  { events := item.events ||| p.events
    waiters := Tidset.empty.insert tid
    counts := addEvents 1 p.events item.counts }

theorem watch_sets (tid : TaskId) (fds : Map PolledFd) (own : 0 ≤ p.fd.toInt) : ∃ fds' item, watch tid fds p = .ok fds' ∧
    Sets p item fds fds' ∧ item.waiters = Tidset.empty.insert tid ∧
      ∀ bit, item.counts bit =
        countAt fds p.fd bit + if onBit p.fd bit p = true then 1 else 0 := by
  have named : (fdKey p.fd != noTask) = true := by
    simpa using fdKey_ne own
  unfold watch
  rw [if_neg (not_neg_iff.mpr own), named, check_true, ok_bind]
  cases found : fds.lookup (fdKey p.fd) with
  | none =>
      simp only [findOrInit, found]
      refine ⟨_, watchedItem tid p polledNew, rfl, ⟨?_⟩, rfl, ?_⟩
      · intro key
        rw [lookup_replace (by simp)]
        by_cases same : key = fdKey p.fd
        · rw [if_pos same, if_pos same]
          rfl
        · rw [if_neg same, if_neg same, AList.lookup_insert_ne same]
      · intro bit
        apply (addEvents_apply 1 p polledNew.counts bit).trans
        rw [countAt_missing found]
        rfl
  | some old =>
      simp only [findOrInit, found]
      refine ⟨_, watchedItem tid p old, rfl, ⟨?_⟩, rfl, ?_⟩
      · intro key
        exact lookup_replace (mem_of_lookup found) key _
      · intro bit
        apply (addEvents_apply 1 p old.counts bit).trans
        rw [countAt_found found]

structure Watched (tid : TaskId) (entries : List Pollfd) (fds fds' : Map PolledFd) : Prop where
  waiters : ∀ fd, 0 ≤ fd.toInt → ∀ x, x ∈ waitersAt fds' fd ↔
    if ∃ p ∈ entries, p.fd = fd then x = tid else x ∈ waitersAt fds fd
  counts : ∀ fd bit, 0 ≤ fd.toInt →
    countAt fds' fd bit = countAt fds fd bit + entries.countP (onBit fd bit)
  keys : ∀ key ∈ fds', key ∈ fds ∨ ∃ p ∈ entries, key = fdKey p.fd

theorem watchAll (tid : TaskId) (fds : Map PolledFd) (entries : List Pollfd)
    (nonneg : ∀ p ∈ entries, 0 ≤ p.fd.toInt) :
    ∃ fds', entries.foldlM (watch tid) fds = .ok fds' ∧ Watched tid entries fds fds' := by
  induction entries generalizing fds with
  | nil => exact ⟨fds, rfl, by simp, by simp, fun key known => Or.inl known⟩
  | cons p entries ih =>
      have own := nonneg p List.mem_cons_self
      obtain ⟨mid, item, watched, sets, waiter, counts⟩ := watch_sets tid fds own
      obtain ⟨fds', rest, after⟩ :=
        ih mid fun q member => nonneg q (List.mem_cons_of_mem _ member)
      refine ⟨fds', by rw [List.foldlM_cons, watched, ok_bind, rest], ?_, ?_, ?_⟩
      · intro fd fdNonneg x
        rw [after.waiters fd fdNonneg, sets.waiters own fdNonneg]
        by_cases later : ∃ q ∈ entries, q.fd = fd
        · have whole : ∃ q ∈ p :: entries, q.fd = fd := by
            obtain ⟨q, member, same⟩ := later
            exact ⟨q, List.mem_cons_of_mem _ member, same⟩
          rw [if_pos later, if_pos whole]
        · rw [if_neg later]
          by_cases here : fd = p.fd
          · rw [if_pos here, if_pos ⟨p, List.mem_cons_self, here.symm⟩, waiter]
            simp
          · have none : ¬ ∃ q ∈ p :: entries, q.fd = fd := by
              rintro ⟨q, member, same⟩
              rcases List.mem_cons.mp member with rfl | member
              · exact here same.symm
              · exact later ⟨q, member, same⟩
            rw [if_neg here, if_neg none]
      · intro fd bit fdNonneg
        rw [after.counts fd bit fdNonneg, sets.counts own fdNonneg, List.countP_cons]
        by_cases here : fd = p.fd
        · rw [if_pos here, counts bit, here]
          split_ifs <;> omega
        · rw [if_neg here, onBit_other here]
          simp
      · intro key known
        rcases after.keys key known with before | ⟨q, member, same⟩
        · by_cases here : key = fdKey p.fd
          · exact Or.inr ⟨p, List.mem_cons_self, here⟩
          · left
            obtain ⟨v, found⟩ := Option.isSome_iff_exists.mp (AList.lookup_isSome.mpr before)
            rw [sets.lookup, if_neg here] at found
            exact mem_of_lookup found
        · exact Or.inr ⟨q, List.mem_cons_of_mem _ member, same⟩

end Watching

section Unwatching

structure Unwatched (id : TaskId) (entries : List Pollfd) (fds fds' : Map PolledFd) : Prop where
  waiters : ∀ fd, 0 ≤ fd.toInt → ∀ x, x ∈ waitersAt fds' fd ↔
    x ∈ waitersAt fds fd ∧ ¬(x = id ∧ ∃ p ∈ entries, p.fd = fd)
  counts : ∀ fd bit, 0 ≤ fd.toInt →
    countAt fds' fd bit = countAt fds fd bit - entries.countP (onBit fd bit)
  keys : ∀ key, key ∈ fds' ↔ key ∈ fds

theorem unwatch_sets (id : TaskId) (own : 0 ≤ p.fd.toInt)
    (found : fds.lookup (fdKey p.fd) = some item) :
    ∃ fds' item', unwatch id fds p = .ok fds' ∧ Sets p item' fds fds' ∧
      item'.waiters = item.waiters.remove id ∧
      ∀ bit, item'.counts bit =
        countAt fds p.fd bit + if onBit p.fd bit p = true then -1 else 0 := by
  have named : (fdKey p.fd != noTask) = true := by
    simpa using fdKey_ne own
  unfold unwatch
  rw [named, check_true, ok_bind, found]
  refine ⟨_, { item with counts := addEvents (-1) p.events item.counts, waiters := item.waiters.remove id },
    rfl, ⟨?_⟩, rfl, ?_⟩
  · intro key
    exact lookup_replace (mem_of_lookup found) key _
  · intro bit
    apply (addEvents_apply (-1) p item.counts bit).trans
    rw [countAt_found found]

theorem unwatchAll (id : TaskId) (fds : Map PolledFd) (entries : List Pollfd)
    (known : ∀ p ∈ entries, 0 ≤ p.fd.toInt ∧ fdKey p.fd ∈ fds) :
    ∃ fds', entries.foldlM (unwatch id) fds = .ok fds' ∧ Unwatched id entries fds fds' := by
  induction entries generalizing fds with
  | nil => exact ⟨fds, rfl, by simp, by simp, fun key => Iff.rfl⟩
  | cons p entries ih =>
      obtain ⟨own, registered⟩ := known p List.mem_cons_self
      obtain ⟨item, found⟩ := Option.isSome_iff_exists.mp (AList.lookup_isSome.mpr registered)
      obtain ⟨mid, item', ran, sets, waiters, counts⟩ := unwatch_sets id own found
      have keys : ∀ key, key ∈ mid ↔ key ∈ fds := by
        intro key
        rw [← AList.lookup_isSome, ← AList.lookup_isSome, sets.lookup]
        by_cases here : key = fdKey p.fd
        · rw [here, if_pos rfl, found]
          simp
        · rw [if_neg here]
      obtain ⟨fds', rest, after⟩ := ih mid fun q member => by
        obtain ⟨nonneg, registered⟩ := known q (List.mem_cons_of_mem _ member)
        exact ⟨nonneg, (keys _).mpr registered⟩
      refine ⟨fds', by rw [List.foldlM_cons, ran, ok_bind, rest], ?_, ?_, ?_⟩
      · intro fd fdNonneg x
        rw [after.waiters fd fdNonneg, sets.waiters own fdNonneg]
        by_cases here : fd = p.fd
        · subst here
          rw [if_pos rfl, waiters, Tidset.mem_remove, waitersAt_found found]
          simp
          tauto
        · rw [if_neg here]
          simp [Ne.symm here]
      · intro fd bit fdNonneg
        rw [after.counts fd bit fdNonneg, sets.counts own fdNonneg, List.countP_cons]
        by_cases here : fd = p.fd
        · rw [if_pos here, counts bit, here]
          split_ifs <;> omega
        · rw [if_neg here, onBit_other here]
          simp
      · intro key
        rw [after.keys, keys]

end Unwatching

section Cleanup

theorem unpolled_iff : unpolled item = true ↔ ∀ bit, item.counts bit = 0 := by
  simp [unpolled, List.all_eq_true]

theorem cleanupFds_loop (fds : Map PolledFd) (its : List (Sigma fun _ : UInt64 => PolledFd))
    (alone : ∀ it ∈ its, unpolled it.2 = true → it.2.waiters.size = 0) :
    ∃ fds', its.foldlM cleanupFd fds = .ok fds' ∧ ∀ key v, fds'.lookup key = some v ↔
      fds.lookup key = some v ∧ ¬ ∃ it ∈ its, it.1 = key ∧ unpolled it.2 = true := by
  induction its generalizing fds with
  | nil => exact ⟨fds, rfl, by simp⟩
  | cons it its ih =>
      have later := fun it' member => alone it' (List.mem_cons_of_mem _ member)
      by_cases zero : unpolled it.2 = true
      · obtain ⟨fds', rest, lookups⟩ := ih (fds.erase it.1) later
        refine ⟨fds', ?_, ?_⟩
        · have empty : (it.2.waiters.size == 0) = true := by
            simpa using alone it List.mem_cons_self zero
          rw [List.foldlM_cons, cleanupFd, if_pos zero, empty, check_true, ok_bind]
          exact rest
        · intro key v
          rw [lookups, lookup_erase_some]
          simp only [List.mem_cons, exists_eq_or_imp, zero, and_true, not_or]
          rw [eq_comm (a := it.1)]
          tauto
      · obtain ⟨fds', rest, lookups⟩ := ih fds later
        refine ⟨fds', ?_, ?_⟩
        · rw [List.foldlM_cons, cleanupFd, if_neg zero]
          exact rest
        · intro key v
          rw [lookups]
          simp [zero]

end Cleanup

end Lotto.PollSpecs
