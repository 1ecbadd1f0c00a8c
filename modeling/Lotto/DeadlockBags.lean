import Lotto.Library.KeyMap
import Lotto.Deadlock
import Lotto.MutexRun

namespace Lotto.DeadlockBags

open Library.FaultRun Library.GuardedRun Library.KeyMap Library.SwapList MutexSpecs MutexRun

/-- The tasks in the bag of a resource, none if it is not registered. -/
def bagOf (resources : Map Rsrc) (addr : UInt64) : List TaskId :=
  (resources.lookup addr).elim [] (·.tasks)

structure SameBags (resources out : Map Rsrc) : Prop where
  keys : out.keys = resources.keys
  bags : ∀ addr, (bagOf out addr).Perm (bagOf resources addr)

section Search

variable {resources out last : Map Rsrc} {addr : UInt64}

theorem SameBags.refl (resources : Map Rsrc) : SameBags resources resources :=
  ⟨rfl, fun _ => List.Perm.refl _⟩

theorem SameBags.trans (first : SameBags resources out) (second : SameBags out last) :
    SameBags resources last :=
  ⟨second.keys.trans first.keys, fun addr => (second.bags addr).trans (first.bags addr)⟩

theorem bagOf_some {it : Rsrc} (found : resources.lookup addr = some it) :
    bagOf resources addr = it.tasks := by
  rw [bagOf, found]
  rfl

theorem bagOf_replace {key : UInt64} {it : Rsrc} (known : key ∈ resources) (addr : UInt64) :
    bagOf (resources.replace key it) addr = if addr = key then it.tasks else bagOf resources addr := by
  rw [bagOf, lookup_replace known]
  by_cases same : addr = key
  · rw [if_pos same, if_pos same]
    rfl
  · rw [if_neg same, if_neg same]
    rfl

theorem bagEntries_eq (resources : Map Rsrc) :
    bagEntries resources = (resources.keys.map fun key => (bagOf resources key).length).sum := rfl

theorem SameBags.entries (same : SameBags resources out) :
    bagEntries out = bagEntries resources := by
  simp only [bagEntries_eq, same.keys, (same.bags _).length_eq]

theorem sum_less {keys : List UInt64} {f g : UInt64 → Nat} {key : UInt64} (distinct : keys.Nodup)
    (member : key ∈ keys) (here : g key + 1 = f key) (others : ∀ a, a ≠ key → g a = f a) :
    (keys.map g).sum + 1 = (keys.map f).sum := by
  induction keys with
  | nil => cases member
  | cons first keys ih =>
      obtain ⟨new, distinct⟩ := List.nodup_cons.mp distinct
      rw [List.map_cons, List.map_cons, List.sum_cons, List.sum_cons]
      by_cases same : first = key
      · subst same
        have rest : keys.map g = keys.map f := by
          apply List.map_congr_left
          intro a inside
          apply others
          rintro rfl
          exact new inside
        rw [rest]
        omega
      · have later := ih distinct ((List.mem_cons.mp member).resolve_left (Ne.symm same))
        rw [others first same]
        omega

theorem bagEntries_taken {it : Rsrc} {cur : TaskId} (found : resources.lookup addr = some it)
    (inside : cur ∈ it.tasks) :
    bagEntries (resources.replace addr { it with tasks := swapErase cur it.tasks }) + 1 =
      bagEntries resources := by
  have known := mem_of_lookup found
  rw [bagEntries_eq, bagEntries_eq, AList.keys_replace]
  apply sum_less resources.nodupKeys (AList.mem_keys.mp known)
  · rw [bagOf_replace known, if_pos rfl, bagOf_some found, (swapErase_perm cur it.tasks).length_eq,
      List.length_erase_of_mem inside]
    have positive := List.length_pos_of_mem inside
    omega
  · intro a other
    rw [bagOf_replace known, if_neg other]

/-- A recursive call that leaves the bags as they are, if they have fewer than `bound` entries. -/
def Keeps (bound : Nat) (iter : Map Rsrc → Except Fault (Bool × Map Rsrc)) : Prop :=
  ∀ resources, bagEntries resources < bound →
    ∃ res out, iter resources = .ok (res, out) ∧ SameBags resources out

theorem putBack {it : Rsrc} {cur : TaskId} (found : resources.lookup addr = some it)
    (inside : cur ∈ it.tasks)
    (same : SameBags (resources.replace addr { it with tasks := swapErase cur it.tasks }) out) :
    ∃ it', out.lookup addr = some it' ∧
      SameBags resources (out.replace addr { it' with tasks := it'.tasks ++ [cur] }) := by
  have known := mem_of_lookup found
  have kept : addr ∈ out := by
    rw [AList.mem_keys, same.keys, AList.keys_replace]
    exact AList.mem_keys.mp known
  obtain ⟨it', there⟩ := Option.isSome_iff_exists.mp (AList.lookup_isSome.mpr kept)
  refine ⟨it', there, ?_, ?_⟩
  · rw [AList.keys_replace, same.keys, AList.keys_replace]
  · intro a
    have bag := same.bags a
    rw [bagOf_replace known] at bag
    rw [bagOf_replace kept]
    by_cases here : a = addr
    · subst here
      rw [if_pos rfl] at bag ⊢
      rw [bagOf_some there] at bag
      rw [bagOf_some found]
      have taken : (swapErase cur it.tasks).Perm (it.tasks.erase cur) := swapErase_perm cur it.tasks
      calc
        List.Perm (it'.tasks ++ [cur]) (cur :: it'.tasks) := List.perm_append_singleton _ _
        List.Perm _ (cur :: it.tasks.erase cur) := (bag.trans taken).cons cur
        List.Perm _ it.tasks := (List.perm_cons_erase inside).symm
    · rw [if_neg here] at bag ⊢
      exact bag

theorem searchResources_same {bound : Nat}
    {iter : UInt64 → Map Rsrc → Except Fault (Bool × Map Rsrc)} (keeps : ∀ key, Keeps bound (iter key))
    (cur : TaskId) (keys : List UInt64) (resources : Map Rsrc) (small : bagEntries resources ≤ bound) :
    ∃ res out, searchResources iter cur keys resources = .ok (res, out) ∧
      SameBags resources out := by
  induction keys generalizing resources with
  | nil => exact ⟨false, resources, rfl, SameBags.refl resources⟩
  | cons key keys ih =>
      rw [searchResources]
      cases found : resources.lookup key with
      | none => exact ih resources small
      | some it =>
          by_cases inside : cur ∈ it.tasks
          · have fewer := bagEntries_taken found inside
            obtain ⟨res, out, ran, same⟩ := keeps key _ (show
              bagEntries (resources.replace key { it with tasks := swapErase cur it.tasks }) < bound
                by omega)
            obtain ⟨it', there, back⟩ := putBack found inside same
            simp only [if_pos inside, ran, ok_bind, there]
            cases res with
            | true => exact ⟨true, _, rfl, back⟩
            | false =>
                obtain ⟨res, last, ran, same⟩ := ih _ (by rw [back.entries]; exact small)
                exact ⟨res, last, ran, back.trans same⟩
          · simp only [if_neg inside]
            exact ih resources small

theorem searchTasks_same (bound : Nat)
    {search : TaskId → Map Rsrc → Except Fault (Bool × Map Rsrc)}
    (keeps : ∀ cur, Keeps (bound + 1) (search cur)) (tid : TaskId) (key : UInt64) (places : List Nat)
    (resources : Map Rsrc) (small : bagEntries resources ≤ bound) :
    ∃ res out, searchTasks search tid key places resources = .ok (res, out) ∧
      SameBags resources out := by
  induction places generalizing resources with
  | nil => exact ⟨false, resources, rfl, SameBags.refl resources⟩
  | cons idx places ih =>
      rw [searchTasks]
      dsimp only
      split
      · exact ih resources small
      · obtain ⟨res, out, ran, same⟩ := keeps _ resources (Nat.lt_succ_of_le small)
        rw [ran, ok_bind]
        cases res with
        | true => exact ⟨true, out, rfl, same⟩
        | false =>
            obtain ⟨res, last, ran, again⟩ := ih out (by rw [same.entries]; exact small)
            exact ⟨res, last, ran, same.trans again⟩

/-- The search ends, since every level of it has one entry less, and only permutes the bags. -/
theorem checkDeadlockIter_same (fuel : Nat) (tid : TaskId) (key : UInt64) (cycle : TaskId) :
    Keeps fuel (checkDeadlockIter fuel tid key cycle) := by
  induction fuel generalizing tid key cycle with
  | zero =>
      intro resources none
      omega
  | succ fuel ih =>
      intro resources small
      rw [checkDeadlockIter]
      split
      · exact ⟨false, resources, rfl, SameBags.refl resources⟩
      split
      · exact ⟨true, resources, rfl, SameBags.refl resources⟩
      cases resources.lookup key with
      | none => exact ⟨false, resources, rfl, SameBags.refl resources⟩
      | some rsrc =>
          dsimp only
          split
          · exact ⟨false, resources, rfl, SameBags.refl resources⟩
          apply searchTasks_same fuel _ _ _ _ _ (Nat.le_of_lt_succ small)
          intro cur middle few
          apply searchResources_same _ _ _ _ (Nat.le_of_lt_succ few)
          intro other
          exact ih cur other _

theorem checkRsrcDeadlock_same (tid : TaskId) (key : UInt64) (st : DeadlockState) :
    ∃ res out, checkRsrcDeadlock tid key st = .ok (res, { st with resources := out }) ∧
      SameBags st.resources out := by
  obtain ⟨res, out, ran, same⟩ :=
    checkDeadlockIter_same (bagEntries st.resources + 1) tid key noTask st.resources
      (Nat.lt_succ_self _)
  exact ⟨res, out, by rw [checkRsrcDeadlock, ran, ok_bind], same⟩

end Search

section Effects

variable {st : DeadlockState} {owner : UInt64 → TaskId}

theorem acquiring_bag (owner : UInt64 → TaskId) (id : TaskId) (addr : UInt64) (st : DeadlockState)
    (a : UInt64) : bagOf (acquiring owner id addr st).resources a =
      if a = addr then bagOf st.resources a ++ [id] else bagOf st.resources a := by
  cases found : st.resources.lookup addr with
  | none =>
      have known : addr ∈ st.resources.insert addr { tasks := [], owner := noTask } := by simp
      simp only [acquiring, rsrcInit, findOrInit, found]
      rw [bagOf_replace known]
      by_cases same : a = addr
      · subst same
        simp [bagOf, found]
      · rw [if_neg same, if_neg same, bagOf, AList.lookup_insert_ne same]
        rfl
  | some rsrc =>
      simp only [acquiring, rsrcInit, findOrInit, found]
      rw [bagOf_replace (mem_of_lookup found)]
      by_cases same : a = addr
      · subst same
        rw [if_pos rfl, if_pos rfl, bagOf_some found]
      · rw [if_neg same, if_neg same]

theorem released_bag (config : DeadlockConfig) (owner : UInt64 → TaskId) (id : TaskId)
    (addr : UInt64) (st : DeadlockState) (a : UInt64) :
    (bagOf (released config owner id addr st).2.resources a).Perm
      (if a = addr then (bagOf st.resources a).erase id else bagOf st.resources a) := by
  cases found : st.resources.lookup addr with
  | none =>
      simp only [released, found]
      by_cases same : a = addr
      · subst same
        simp [bagOf, found]
      · rw [if_neg same]
  | some rsrc =>
      have known := mem_of_lookup found
      have erased := swapErase_perm id rsrc.tasks
      simp only [released, found]
      by_cases last : (swapErase id rsrc.tasks).length = 0
      · rw [if_pos last]
        by_cases same : a = addr
        · subst same
          rw [List.eq_nil_of_length_eq_zero last] at erased
          rw [if_pos rfl, bagOf_some found, bagOf, AList.lookup_erase]
          exact erased
        · rw [if_neg same, bagOf, AList.lookup_erase_ne same]
          rfl
      · rw [if_neg last, bagOf_replace known]
        by_cases same : a = addr
        · subst same
          rw [if_pos rfl, if_pos rfl, bagOf_some found]
          exact erased
        · rw [if_neg same, if_neg same]

def bagAfter (ret : Nat) (cp : CapturePoint) (addr : UInt64) (bag : List TaskId) : List TaskId :=
  if addr ≠ cp.payloadAddr then bag
  else if cp.typeId = eventMutexAcquire ∨ cp.typeId = eventMutexTryacquire ∧ ret = 0 then
    bag ++ [cp.id]
  else if cp.typeId = eventMutexRelease ∨ cp.typeId = eventDeadlockRsrcReleased then
    bag.erase cp.id
  else bag

theorem deadlockSwitch_bag (config : DeadlockConfig) (owner : UInt64 → TaskId) (ret : Nat)
    {cp : CapturePoint} (e : Decision) (st : DeadlockState) (going : cp.typeId ≠ eventTaskFini) :
    ∃ e' st', deadlockSwitch config owner ret cp.id cp e st = .ok (e', st') ∧
      ∀ a, (bagOf st'.resources a).Perm (bagAfter ret cp a (bagOf st.resources a)) := by
  obtain ⟨deadlock, out, ran, same⟩ := checkRsrcDeadlock_same cp.id cp.payloadAddr st
  unfold deadlockSwitch bagAfter
  by_cases acquire : cp.typeId = eventMutexAcquire
  · refine ⟨_, _, by rw [if_pos acquire, ran, ok_bind], ?_⟩
    intro a
    rw [acquiring_bag]
    by_cases here : a = cp.payloadAddr
    · simp only [here, acquire, true_or, ne_eq, not_true_eq_false, if_false, if_true]
      exact (same.bags _).append_right _
    · simpa [here] using same.bags a
  by_cases tries : cp.typeId = eventMutexTryacquire
  · refine ⟨_, _, by rw [if_neg acquire, if_pos tries], ?_⟩
    intro a
    have other : eventMutexTryacquire ≠ eventMutexRelease := by decide
    have foreign : eventMutexTryacquire ≠ eventDeadlockRsrcReleased := by decide
    have apart : eventMutexTryacquire ≠ eventMutexAcquire := by decide
    by_cases zero : ret = 0
    · rw [if_pos zero, acquiring_bag]
      by_cases here : a = cp.payloadAddr
      · simp [here, tries, zero]
      · simp [here]
    · rw [if_neg zero]
      by_cases here : a = cp.payloadAddr
      · simp [here, tries, zero, other, foreign, apart]
      · simp [here]
  by_cases noted : cp.typeId = eventDeadlockRsrcAcquiring
  · refine ⟨_, _, by rw [if_neg acquire, if_neg tries, if_pos noted, ran, ok_bind], ?_⟩
    intro a
    have other : eventDeadlockRsrcAcquiring ≠ eventMutexRelease := by decide
    have foreign : eventDeadlockRsrcAcquiring ≠ eventDeadlockRsrcReleased := by decide
    rw [noted] at acquire tries
    by_cases here : a = cp.payloadAddr
    · simpa [here, acquire, tries, noted, other, foreign] using same.bags cp.payloadAddr
    · simpa [here] using same.bags a
  by_cases release : cp.typeId = eventMutexRelease ∨ cp.typeId = eventDeadlockRsrcReleased
  · refine ⟨_, _, by rw [if_neg acquire, if_neg tries, if_neg noted, if_pos release], ?_⟩
    intro a
    have gone := released_bag config owner cp.id cp.payloadAddr st a
    by_cases here : a = cp.payloadAddr
    · rw [if_pos here] at gone
      simpa [here, acquire, tries, release] using gone
    · rw [if_neg here] at gone
      simpa [here] using gone
  refine ⟨e, st, by rw [if_neg acquire, if_neg tries, if_neg noted, if_neg release, if_neg going], ?_⟩
  intro a
  by_cases here : a = cp.payloadAddr <;> simp [here, acquire, tries, release]

theorem deadlockHandle_bag (config : DeadlockConfig) (owner : UInt64 → TaskId) (ret : Nat)
    {cp : CapturePoint} {e : Decision} (st : DeadlockState) (enabled : config.enabled = true)
    (acted : e.skip = false) (named : cp.id ≠ noTask) (going : cp.typeId ≠ eventTaskFini) :
    ∃ e' st', deadlockHandle config owner noTask ret cp e st = .ok (e', st') ∧
      ∀ a, (bagOf st'.resources a).Perm (bagAfter ret cp a (bagOf st.resources a)) := by
  have name : (cp.id != noTask) = true := by
    simpa using named
  have real : noTask ≠ anyTask := by decide
  obtain ⟨e', st', ran, bags⟩ := deadlockSwitch_bag config owner ret e st going
  refine ⟨e', st', ?_, bags⟩
  simp [deadlockHandle, enabled, acted, real, name, ran]

end Effects

/-- The mutex handler, the deadlock handler, and what the tasks hold: `held` has an entry for every
mutex acquisition that is pending or completed and not released yet, `notes` for every annotated
one. -/
structure World where
  mutex : MutexRun.World
  dead : DeadlockState
  held : List (TaskId × UInt64)
  notes : List (TaskId × UInt64)

def target (cp : CapturePoint) : TaskId × UInt64 := (cp.id, cp.payloadAddr)

def mutexOwner (st : MutexState) (addr : UInt64) : TaskId := (st.mutexes.lookup addr).elim noTask (·.owner)

def heldAfter (cp : CapturePoint) (held : List (TaskId × UInt64)) : List (TaskId × UInt64) :=
  if cp.typeId = eventMutexAcquire then target cp :: held
  else if cp.typeId = eventMutexRelease then held.erase (target cp)
  else held

def notesAfter (cp : CapturePoint) (notes : List (TaskId × UInt64)) : List (TaskId × UInt64) :=
  if cp.typeId = eventDeadlockRsrcAcquiring then target cp :: notes
  else if cp.typeId = eventDeadlockRsrcReleased then notes.erase (target cp)
  else notes

/-- A capture runs both handlers; the payload of a try-acquire has the result 0 that its
subscriber starts with. A try-acquire is held once its resume has succeeded. -/
def step (config : MutexConfig) (dconfig : DeadlockConfig) : Move → World → Except Fault World
  | .capture cp e, w => do
      let (e, st) ← mutexHandle config cp e w.mutex.st
      let mutex : MutexRun.World :=
        { w.mutex with st, pending := cp :: w.mutex.pending, tset := e.tset }
      let (_, dead) ← deadlockHandle dconfig (mutexOwner st) noTask 0 cp e w.dead
      .ok { mutex, dead, held := heldAfter cp w.held, notes := notesAfter cp w.notes }
  | .resume cp, w => do
      let mutex ← move config (.resume cp) w.mutex
      let taken := cp.typeId = eventMutexTryacquire ∧ accessOf cp w.mutex.st = some .acquired
      .ok { w with mutex, held := if taken then target cp :: w.held else w.held }

/-- Captures and resumes as the mutex handler sees them. A task releases the annotated resources it
has acquired, and goes on running. -/
def Allowed (w : World) : Move → Prop
  | .capture cp e => Captures w.mutex cp e ∧ cp.typeId ≠ eventTaskFini ∧
      (cp.typeId = eventDeadlockRsrcReleased → target cp ∈ w.notes)
  | .resume cp => ResumesFrom w.mutex cp

/-- Steps that reach neither slip: no annotated resource is acquired, and a try-acquire is captured
only for a mutex that is free or its task's own, and resumed at once. -/
def Faithful (w : World) : Move → Prop
  | .capture cp _ => (∀ p ∈ w.mutex.pending, p.typeId ≠ eventMutexTryacquire) ∧
      cp.typeId ≠ eventDeadlockRsrcAcquiring ∧
      (cp.typeId = eventMutexTryacquire →
        (mtxAt w.mutex.st cp.payloadAddr).owner = noTask ∨
          (mtxAt w.mutex.st cp.payloadAddr).owner = cp.id)
  | .resume cp => ∀ p ∈ w.mutex.pending, p.typeId = eventMutexTryacquire → p = cp

def system (config : MutexConfig) (dconfig : DeadlockConfig) (condition : World → Move → Prop) :
    Guarded World Move Fault where
  start := { mutex := (MutexRun.system config).start, dead := deadlockStart, held := [], notes := [] }
  step := step config dconfig
  allowed := fun w m => Allowed w m ∧ condition w m

/-- The bags are the acquisitions that are not released yet. -/
def Mirrors (w : World) : Prop :=
  ∀ addr id, (bagOf w.dead.resources addr).count id =
    w.held.count (id, addr) + w.notes.count (id, addr)

inductive Follows (w : World) : Prop where
  | settled (distinct : Distinct w.mutex.pending) (bare : w.notes = [])
      (quiet : ∀ p ∈ w.mutex.pending, p.typeId ≠ eventMutexTryacquire) (mirrors : Mirrors w)
  | trying (cp : CapturePoint) (distinct : Distinct w.mutex.pending) (bare : w.notes = [])
      (tries : cp.typeId = eventMutexTryacquire)
      (only : ∀ p ∈ w.mutex.pending, p.typeId = eventMutexTryacquire → p = cp)
      (pending : cp ∈ w.mutex.pending)
      (free : (mtxAt w.mutex.st cp.payloadAddr).owner = noTask ∨
        (mtxAt w.mutex.st cp.payloadAddr).owner = cp.id)
      (ahead : ∀ addr id, (bagOf w.dead.resources addr).count id =
        w.held.count (id, addr) + if (id, addr) = target cp then 1 else 0)

section Counting

variable {α : Type} [DecidableEq α] [BEq α] [LawfulBEq α] (l : List α) (a b : α)

theorem count_cons_if : (b :: l).count a = l.count a + if a = b then 1 else 0 := by
  by_cases same : a = b
  · simp [same]
  · rw [List.count_cons_of_ne (Ne.symm same), if_neg same, Nat.add_zero]

theorem count_snoc_if : (l ++ [b]).count a = l.count a + if a = b then 1 else 0 := by
  rw [(List.perm_append_singleton b l).count_eq, count_cons_if]

theorem count_erase_if : (l.erase b).count a = l.count a - if a = b then 1 else 0 := by
  by_cases same : a = b
  · subst same
    rw [List.count_erase_self, if_pos rfl]
  · rw [List.count_erase_of_ne same, if_neg same, Nat.sub_zero]

end Counting

section Run

variable {config : MutexConfig} {dconfig : DeadlockConfig} {w w' : World} {cp : CapturePoint}
  {e : Decision}

theorem mutexHandle_tries {st st' : MutexState} {e' : Decision}
    (tries : cp.typeId = eventMutexTryacquire)
    (ran : mutexHandle config cp e st = .ok (e', st')) : st' = st := by
  obtain ⟨_, _, _, same⟩ := mutexHandle_cases ran
  apply same
  rw [tries]
  exact Or.inl (by decide)

theorem mutexHandle_skip {st st' : MutexState} {e' : Decision}
    (ran : mutexHandle config cp e st = .ok (e', st')) : e'.skip = e.skip := by
  exact (mutexHandle_cases ran).2.1

theorem capture_ok (ran : step config dconfig (.capture cp e) w = .ok w') :
    ∃ e' st e'' dead, mutexHandle config cp e w.mutex.st = .ok (e', st) ∧
      deadlockHandle dconfig (mutexOwner st) noTask 0 cp e' w.dead = .ok (e'', dead) ∧
      w' = {
        mutex := { w.mutex with st, pending := cp :: w.mutex.pending, tset := e'.tset }
        dead, held := heldAfter cp w.held, notes := notesAfter cp w.notes } := by
  obtain ⟨⟨e', st⟩, handled, ran⟩ := bind_eq_ok.mp ran
  obtain ⟨⟨e'', dead⟩, dead', ran⟩ := bind_eq_ok.mp ran
  cases ran
  exact ⟨e', st, e'', dead, handled, dead', rfl⟩

theorem mirrors_capture (mirrors : Mirrors w) (bare : w.notes = []) {dead : DeadlockState}
    (tries : cp.typeId ≠ eventMutexTryacquire) (given : cp.typeId ≠ eventDeadlockRsrcReleased)
    (bags : ∀ a, (bagOf dead.resources a).Perm (bagAfter 0 cp a (bagOf w.dead.resources a)))
    (addr : UInt64) (id : TaskId) :
    (bagOf dead.resources addr).count id = (heldAfter cp w.held).count (id, addr) := by
  have before : (bagOf w.dead.resources addr).count id = w.held.count (id, addr) := by
    rw [mirrors addr id, bare, List.count_nil, Nat.add_zero]
  rw [(bags addr).count_eq, bagAfter, heldAfter]
  by_cases here : addr = cp.payloadAddr
  · have pair : (id, addr) = target cp ↔ id = cp.id := by
      simp [target, here]
    by_cases acquire : cp.typeId = eventMutexAcquire
    · rw [if_neg (by simpa using here), if_pos (Or.inl acquire), if_pos acquire, count_snoc_if,
        count_cons_if, before]
      simp only [pair]
    · by_cases gone : cp.typeId = eventMutexRelease
      · rw [if_neg (by simpa using here), if_neg (by simp [acquire, tries]), if_pos (Or.inl gone),
          if_neg acquire, if_pos gone, count_erase_if, count_erase_if, before]
        simp only [pair]
      · rw [if_neg (by simpa using here), if_neg (by simp [acquire, tries]),
          if_neg (by simp [gone, given]), if_neg acquire, if_neg gone, before]
  · have other : target cp ≠ (id, addr) := by
      intro same
      exact here (Prod.mk.inj same).2.symm
    rw [if_pos here, before]
    by_cases acquire : cp.typeId = eventMutexAcquire
    · rw [if_pos acquire, List.count_cons_of_ne other]
    · rw [if_neg acquire]
      by_cases gone : cp.typeId = eventMutexRelease
      · rw [if_pos gone, List.count_erase_of_ne (Ne.symm other)]
      · rw [if_neg gone]

theorem notes_bare (bare : w.notes = []) (given : cp.typeId ≠ eventDeadlockRsrcAcquiring) :
    notesAfter cp w.notes = [] := by
  rw [notesAfter, if_neg given, bare]
  split <;> rfl

theorem follows_capture (enabled : dconfig.enabled = true) (follows : Follows w)
    (allowed : Allowed w (.capture cp e)) (faithful : Faithful w (.capture cp e))
    (ran : step config dconfig (.capture cp e) w = .ok w') : Follows w' := by
  obtain ⟨captures, going, given⟩ := allowed
  obtain ⟨quiet, unnoted, free⟩ := faithful
  obtain ⟨e', st, e'', dead, handled, dead', rfl⟩ := capture_ok ran
  have acted : e'.skip = false := (mutexHandle_skip handled).trans captures.unskipped
  cases follows with
  | trying p _ _ tries _ pending => exact absurd tries (quiet p pending)
  | settled distinct bare _ mirrors =>
      obtain ⟨e3, st3, again, bags⟩ :=
        deadlockHandle_bag dconfig (mutexOwner st) 0 w.dead enabled acted captures.task going
      rw [dead'] at again
      cases again
      have distinct' : Distinct (cp :: w.mutex.pending) :=
        distinct.cons captures.task captures.running
      have unreleased : cp.typeId ≠ eventDeadlockRsrcReleased := by
        intro released
        have member := given released
        rw [bare] at member
        cases member
      by_cases tries : cp.typeId = eventMutexTryacquire
      · refine .trying cp distinct' (notes_bare bare unnoted) tries ?_ List.mem_cons_self ?_ ?_
        · intro p member other
          rcases List.mem_cons.mp member with same | old
          · exact same
          · exact absurd other (quiet p old)
        · rw [mutexHandle_tries tries handled]
          exact free tries
        · intro addr id
          have before : (bagOf w.dead.resources addr).count id = w.held.count (id, addr) := by
            rw [mirrors addr id, bare, List.count_nil, Nat.add_zero]
          have kept : heldAfter cp w.held = w.held := by
            have acquire : eventMutexTryacquire ≠ eventMutexAcquire := by decide
            have release : eventMutexTryacquire ≠ eventMutexRelease := by decide
            rw [heldAfter, tries, if_neg acquire, if_neg release]
          rw [(bags addr).count_eq, bagAfter, kept]
          by_cases here : addr = cp.payloadAddr
          · rw [if_neg (by simpa using here), if_pos (Or.inr ⟨tries, rfl⟩), count_snoc_if, before]
            simp [target, here]
          · rw [if_pos here, before]
            simp [target, here]
      · refine .settled distinct' (notes_bare bare unnoted) ?_ ?_
        · intro p member
          rcases List.mem_cons.mp member with rfl | old
          · exact tries
          · exact quiet p old
        · intro addr id
          have after := mirrors_capture mirrors bare tries unreleased bags addr id
          rw [notes_bare bare unnoted, List.count_nil, Nat.add_zero]
          exact after

theorem tryacquire_free {st st' : MutexState} {ret : Nat}
    (ran : posthandleTryacquire cp.id cp.payloadAddr st = .ok (ret, st'))
    (free : (mtxAt st cp.payloadAddr).owner = noTask ∨ (mtxAt st cp.payloadAddr).owner = cp.id) :
    ret = 0 := by
  obtain ⟨mutexes, init, _⟩ := mutexInit_spec cp.payloadAddr st
  unfold posthandleTryacquire at ran
  obtain ⟨_, _, ran⟩ := bind_eq_ok.mp ran
  simp only [init] at ran
  by_cases none : (mtxAt st cp.payloadAddr).owner = noTask
  · rw [if_pos none] at ran
    obtain ⟨_, _, ran⟩ := bind_eq_ok.mp ran
    cases ran
    rfl
  · rw [if_neg none, if_pos (free.resolve_left none)] at ran
    cases ran
    rfl

theorem accessOf_tries {st : MutexState} (tries : cp.typeId = eventMutexTryacquire)
    (free : (mtxAt st cp.payloadAddr).owner = noTask ∨ (mtxAt st cp.payloadAddr).owner = cp.id)
    {st' : MutexState} (ran : mutexResume config cp st = .ok st') :
    accessOf cp st = some .acquired := by
  have other : eventMutexTryacquire ≠ eventMutexAcquire := by decide
  rw [mutexResume, tries, if_neg other, if_pos rfl] at ran
  rw [accessOf, tries, if_neg other, if_pos rfl]
  cases tried : posthandleTryacquire cp.id cp.payloadAddr st with
  | error fault =>
      rw [tried] at ran
      cases ran
  | ok result =>
      obtain ⟨ret, last⟩ := result
      rw [tryacquire_free tried free]
      rfl

theorem follows_resume (follows : Follows w) (allowed : Allowed w (.resume cp))
    (faithful : Faithful w (.resume cp))
    (ran : step config dconfig (.resume cp) w = .ok w') : Follows w' := by
  obtain ⟨mutex, moved, ran⟩ := bind_eq_ok.mp ran
  obtain ⟨st, resumed, moved⟩ := bind_eq_ok.mp moved
  cases moved
  cases ran
  have left : ∀ p ∈ without w.mutex.pending cp.id, p ∈ w.mutex.pending ∧ p.id ≠ cp.id :=
    fun p member => mem_without.mp member
  cases follows with
  | settled distinct bare quiet mirrors =>
      have other : ¬ (cp.typeId = eventMutexTryacquire ∧
          accessOf cp w.mutex.st = some .acquired) :=
        fun both => quiet cp allowed.pending both.1
      refine .settled (distinct.without cp.id) bare ?_ ?_
      · intro p member
        exact quiet p (left p member).1
      · intro addr id
        simp only [if_neg other]
        exact mirrors addr id
  | trying p distinct bare tries only pending free ahead =>
      have same : p = cp := faithful p pending tries
      subst same
      have taken : p.typeId = eventMutexTryacquire ∧ accessOf p w.mutex.st = some .acquired :=
        ⟨tries, accessOf_tries tries free resumed⟩
      refine .settled (distinct.without p.id) bare ?_ ?_
      · intro q member again
        obtain ⟨inside, apart⟩ := left q member
        rw [only q inside again] at apart
        exact apart rfl
      · intro addr id
        simp only [if_pos taken]
        rw [ahead addr id, bare, List.count_nil, count_cons_if, Nat.add_zero]

theorem follows_reachable (enabled : dconfig.enabled = true)
    (reached : Reachable (system config dconfig Faithful) w) : Follows w := by
  refine Reachable.keeps ?_ ?_ reached
  · exact .settled distinct_nil rfl (by simp [system, MutexRun.system]) (fun addr id => rfl)
  · rintro s m s' follows ⟨allowed, faithful⟩ stepped
    cases m with
    | capture cp e => exact follows_capture enabled follows allowed faithful stepped
    | resume cp =>
        have resumed : step config dconfig (.resume cp) s = .ok s' := stepped
        exact follows_resume follows allowed faithful resumed

def Releases (w : World) (cp : CapturePoint) : Prop :=
  cp.typeId = eventMutexRelease ∧ target cp ∈ w.held ∨
    cp.typeId = eventDeadlockRsrcReleased ∧ target cp ∈ w.notes

theorem releases_one (enabled : dconfig.enabled = true) (mirrors : Mirrors w)
    (captures : Captures w.mutex cp e) (releases : Releases w cp)
    (ran : step config dconfig (.capture cp e) w = .ok w') :
    (w.dead.resources.lookup cp.payloadAddr).isSome = true ∧
      ∀ addr id, (bagOf w'.dead.resources addr).count id +
        (if (id, addr) = target cp then 1 else 0) = (bagOf w.dead.resources addr).count id := by
  have held : 0 < (bagOf w.dead.resources cp.payloadAddr).count cp.id := by
    rw [mirrors]
    rcases releases with ⟨_, member⟩ | ⟨_, member⟩
    · exact Nat.add_pos_left (List.count_pos_iff.mpr member) _
    · exact Nat.add_pos_right _ (List.count_pos_iff.mpr member)
  have release : cp.typeId = eventMutexRelease ∨ cp.typeId = eventDeadlockRsrcReleased :=
    releases.imp And.left And.left
  obtain ⟨e', st, e'', dead, handled, dead', rfl⟩ := capture_ok ran
  have acted : e'.skip = false := (mutexHandle_skip handled).trans captures.unskipped
  have going : cp.typeId ≠ eventTaskFini := by
    rcases release with event | event <;> rw [event] <;> decide
  have plain : ¬ (cp.typeId = eventMutexAcquire ∨ cp.typeId = eventMutexTryacquire ∧ 0 = 0) := by
    rcases release with event | event <;> rw [event] <;> decide
  obtain ⟨_, _, again, bags⟩ :=
    deadlockHandle_bag dconfig (mutexOwner st) 0 w.dead enabled acted captures.task going
  rw [dead'] at again
  cases again
  refine ⟨?_, ?_⟩
  · cases found : w.dead.resources.lookup cp.payloadAddr with
    | none => simp [bagOf, found] at held
    | some rsrc => rfl
  · intro addr id
    rw [(bags addr).count_eq, bagAfter]
    by_cases here : addr = cp.payloadAddr
    · subst here
      rw [if_neg (by simp), if_neg plain, if_pos release, count_erase_if]
      by_cases same : id = cp.id
      · subst same
        simp only [target, if_true]
        omega
      · simp [target, same]
    · rw [if_pos here, if_neg (by simp [target, here]), Nat.add_zero]

end Run

/-- At every capture of a run of faithful steps the bags are what the tasks hold, the deadlock
handler returns, and a release of what its task holds removes one entry. -/
theorem bags_mirror_holdings (config : MutexConfig) (dconfig : DeadlockConfig)
    (enabled : dconfig.enabled = true) (w : World)
    (reached : Reachable (system config dconfig Faithful) w) (cp : CapturePoint) (e : Decision)
    (allowed : (system config dconfig Faithful).allowed w (.capture cp e)) :
    Mirrors w ∧
    (∀ owner (e' : Decision), e'.skip = false →
      ∃ e'' dead, deadlockHandle dconfig owner noTask 0 cp e' w.dead = .ok (e'', dead)) ∧
    ∀ w', Releases w cp → step config dconfig (.capture cp e) w = .ok w' →
      (w.dead.resources.lookup cp.payloadAddr).isSome = true ∧
        ∀ addr id, (bagOf w'.dead.resources addr).count id +
          (if (id, addr) = target cp then 1 else 0) = (bagOf w.dead.resources addr).count id := by
  obtain ⟨⟨captures, going, _⟩, quiet, _, _⟩ := allowed
  have mirrors : Mirrors w := by
    cases follows_reachable enabled reached with
    | settled _ _ _ mirrors => exact mirrors
    | trying p _ _ tries _ pending => exact absurd tries (quiet p pending)
  refine ⟨mirrors, ?_, ?_⟩
  · intro owner e' acted
    obtain ⟨e'', dead, ran, _⟩ :=
      deadlockHandle_bag dconfig owner 0 w.dead enabled acted captures.task going
    exact ⟨e'', dead, ran⟩
  · intro w' releases ran
    exact releases_one enabled mirrors captures releases ran

instance (w : World) (m : Move) : Decidable (Allowed w m) :=
  match m with
  | .capture cp e => inferInstanceAs (Decidable (Captures w.mutex cp e ∧ _ ∧ (_ → _)))
  | .resume cp => inferInstanceAs (Decidable (ResumesFrom w.mutex cp))

instance (w : World) (m : Move) : Decidable (Faithful w m) :=
  match m with
  | .capture _ _ => inferInstanceAs (Decidable ((∀ p ∈ w.mutex.pending, _) ∧ _ ∧ (_ → _)))
  | .resume _ => inferInstanceAs (Decidable (∀ p ∈ w.mutex.pending, _ → _))

instance (config : MutexConfig) (dconfig : DeadlockConfig) (condition : World → Move → Prop)
    [∀ w m, Decidable (condition w m)] (w : World) (m : Move) :
    Decidable ((system config dconfig condition).allowed w m) :=
  inferInstanceAs (Decidable (_ ∧ _))

def bagConfig : DeadlockConfig :=
  { enabled := true, extraReleaseCheck := true, lostResourceCheck := false }

def takenTwice : List Move :=
  [captureOf (plainPoint 1 eventMutexTryacquire 16), .resume (plainPoint 1 eventMutexTryacquire 16),
    captureOf (plainPoint 1 eventMutexAcquire 16), .resume (plainPoint 1 eventMutexAcquire 16)]

theorem bags_mirror_taken_twice :
    ∃ w, Reachable (system ⟨true, true⟩ bagConfig Faithful) w ∧ Mirrors w ∧
      (bagOf w.dead.resources 16).count 1 = 2 := by
  have legal : Legal (system ⟨true, true⟩ bagConfig Faithful) takenTwice
      (system ⟨true, true⟩ bagConfig Faithful).start := by decide
  have seen : (run (system ⟨true, true⟩ bagConfig Faithful) takenTwice
      (system ⟨true, true⟩ bagConfig Faithful).start).map (fun w =>
        (w.held, w.notes, decide ((system ⟨true, true⟩ bagConfig Faithful).allowed w
          (captureOf (plainPoint 1 eventMutexRelease 16))))) =
      .ok ([(1, 16), (1, 16)], [], true) := by decide
  obtain ⟨w, ran⟩ := legal.runs
  rw [ran] at seen
  obtain ⟨held, rest⟩ := Prod.mk.inj (Except.ok.inj seen)
  obtain ⟨notes, allowed⟩ := Prod.mk.inj rest
  have reached := legal.reachable Reachable.start ran
  obtain ⟨mirrors, _, _⟩ := bags_mirror_holdings ⟨true, true⟩ bagConfig rfl w reached _ _
    (of_decide_eq_true allowed)
  refine ⟨w, reached, mirrors, ?_⟩
  rw [mirrors 16 1, held, notes]
  decide

def failedTry : List Move :=
  [captureOf (plainPoint 1 eventMutexAcquire 16), .resume (plainPoint 1 eventMutexAcquire 16),
    captureOf (plainPoint 2 eventMutexTryacquire 16), .resume (plainPoint 2 eventMutexTryacquire 16)]

/-- The bag keeps the entry of the try-acquire that failed. -/
theorem failed_try_stays :
    ¬ ∀ (w : World) (cp : CapturePoint) (e : Decision),
      Reachable (system ⟨true, true⟩ bagConfig fun _ _ => True) w →
      (system ⟨true, true⟩ bagConfig fun _ _ => True).allowed w (.capture cp e) → Mirrors w := by
  intro mirrors
  have legal : Legal (system ⟨true, true⟩ bagConfig fun _ _ => True) failedTry
      (system ⟨true, true⟩ bagConfig fun _ _ => True).start := by decide
  have seen : (run (system ⟨true, true⟩ bagConfig fun _ _ => True) failedTry
      (system ⟨true, true⟩ bagConfig fun _ _ => True).start).map (fun w =>
        ((bagOf w.dead.resources 16).count 2, w.held.count (2, 16), w.notes.count (2, 16),
          decide ((system ⟨true, true⟩ bagConfig fun _ _ => True).allowed w
            (captureOf (plainPoint 2 0 0))))) = .ok (1, 0, 0, true) := by decide
  obtain ⟨w, ran⟩ := legal.runs
  rw [ran] at seen
  obtain ⟨bag, rest⟩ := Prod.mk.inj (Except.ok.inj seen)
  obtain ⟨held, rest⟩ := Prod.mk.inj rest
  obtain ⟨notes, allowed⟩ := Prod.mk.inj rest
  have reached := legal.reachable Reachable.start ran
  have same := mirrors w _ _ reached (of_decide_eq_true allowed) 16 2
  rw [bag, held, notes] at same
  cases same

end Lotto.DeadlockBags
