import Mathlib.Data.List.Nodup
import Lotto.Library.KeyMap
import Lotto.Library.FaultRun
import Lotto.Mutex

namespace Lotto.MutexSpecs

open Library.FaultRun Library.KeyMap

section Find

variable {α : Type} (new : α) (key : UInt64) (map : Map α)

structure Found (item : α) (map' : Map α) : Prop where
  known : key ∈ map'
  here : map'.lookup key = some item
  others : ∀ a, a ≠ key → map'.lookup a = map.lookup a
  source : map.lookup key = some item ∨ map.lookup key = none ∧ item = new

theorem findOrInit_found : ∃ item map', findOrInit new key map = (item, map') ∧
    Found new key map item map' := by
  cases found : map.lookup key with
  | some item =>
      refine ⟨item, map, by simp [findOrInit, found], ?_, found, fun _ _ => rfl, Or.inl found⟩
      exact AList.lookup_isSome.mp (by simp [found])
  | none =>
      refine ⟨new, map.insert key new, by simp [findOrInit, found], ?_, ?_, ?_, Or.inr ⟨found, rfl⟩⟩
      · simp
      · exact AList.lookup_insert map
      · intro a other
        exact AList.lookup_insert_ne other

end Find

section Find

variable {α : Type} {new item : α} {key : UInt64} {map map' : Map α}
  {holds : UInt64 → α → Prop}

theorem findOrInit_known (found : map.lookup key = some item) :
    findOrInit new key map = (item, map) := by
  simp [findOrInit, found]

theorem Found.good (found : Found new key map item map') (all : All holds map)
    (init : holds key new) : holds key item := by
  rcases found.source with old | ⟨_, rfl⟩
  · exact all key item old
  · exact init

theorem Found.apart (found : Found new key map item map') (all : All holds map) :
    ∀ a b, a ≠ key → map'.lookup a = some b → holds a b := by
  intro a b other there
  rw [found.others a other] at there
  exact all a b there

theorem Found.all_of (found : Found new key map item map') (here : holds key item)
    (apart : ∀ a b, a ≠ key → map'.lookup a = some b → holds a b) : All holds map' := by
  intro a b there
  by_cases same : a = key
  · subst same
    rw [found.here] at there
    cases there
    exact here
  · exact apart a b same there

theorem Found.all (found : Found new key map item map') (all : All holds map)
    (init : holds key new) : All holds map' :=
  found.all_of (found.good all init) (found.apart all)

end Find

section Items

variable {α : Type} (new : α)

def itemAt (map : Map α) (key : UInt64) : α := (map.lookup key).getD new

def Puts (key : UInt64) (item : α) (map map' : Map α) : Prop :=
  ∀ a, itemAt new map' a = if a = key then item else itemAt new map a

theorem Puts.refl (key : UInt64) (map : Map α) : Puts new key (itemAt new map key) map map := by
  intro a
  split
  · rename_i same
    rw [same]
  · rfl

theorem puts_replace {key : UInt64} {map : Map α} (known : key ∈ map) (item : α) :
    Puts new key item map (map.replace key item) := by
  intro a
  simp only [itemAt, lookup_replace known]
  split <;> rfl

theorem findOrInit_puts (key : UInt64) (map : Map α) : ∃ map',
    findOrInit new key map = (itemAt new map key, map') ∧
    Puts new key (itemAt new map key) map map' ∧
    ∀ item, Puts new key item map (map'.replace key item) := by
  obtain ⟨item, map', init, found⟩ := findOrInit_found new key map
  have here : itemAt new map key = item := by
    rcases found.source with old | ⟨unknown, rfl⟩
    · simp [itemAt, old]
    · simp [itemAt, unknown]
  have others : ∀ a, a ≠ key → itemAt new map' a = itemAt new map a := by
    intro a other
    simp only [itemAt, found.others a other]
  refine ⟨map', by rw [init, here], ?_, ?_⟩
  · intro a
    split
    · rename_i same
      rw [same, here, itemAt, found.here]
      rfl
    · rename_i other
      exact others a other
  · intro item' a
    rw [puts_replace new found.known item' a]
    split
    · rfl
    · rename_i other
      exact others a other

end Items

structure GoodMtx (pending : List CapturePoint) (addr : UInt64) (mtx : Mtx) : Prop where
  free : mtx.owner = noTask → mtx.count = 0
  waits : ∀ id ∈ mtx.waiters, id ≠ mtx.owner ∧ ∃ p ∈ pending, p.id = id ∧
    p.typeId = eventMutexAcquire ∧ p.payloadAddr = addr

/-- What holds of the mutex handler in every reachable state. Nothing ever enters the handler's
own set of waiters. -/
structure MutexInv (pending : List CapturePoint) (st : MutexState) : Prop where
  calm : ∀ id, id ∉ st.waiters
  mutexes : All (GoodMtx pending) st.mutexes

structure Resumes (isLock : TypeId → Bool) (p cp : CapturePoint) : Prop where
  typeId : cp.typeId = p.typeId
  addr : isLock p.typeId = true → cp.payloadAddr = p.payloadAddr

theorem Resumes.mono {isLock isLock' : TypeId → Bool} {p cp : CapturePoint}
    (resumes : Resumes isLock p cp) (fewer : ∀ ty, isLock' ty = true → isLock ty = true) :
    Resumes isLock' p cp :=
  ⟨resumes.typeId, fun lock => resumes.addr (fewer _ lock)⟩

section Mutex

variable {config : MutexConfig} {pending : List CapturePoint} {cp : CapturePoint} {e e' : Decision}
  {st st' : MutexState} {addr : UInt64}

theorem mutexInv_start : MutexInv [] mutexStart := ⟨Tidset.not_mem_empty, All.empty⟩

theorem goodMtx_init : GoodMtx pending addr mtxInit :=
  ⟨fun _ => rfl, fun id member => absurd member (Tidset.not_mem_empty id)⟩

theorem GoodMtx.mono {pending' : List CapturePoint} (more : ∀ p ∈ pending, p ∈ pending') {mtx : Mtx}
    (good : GoodMtx pending addr mtx) : GoodMtx pending' addr mtx := by
  refine ⟨good.free, ?_⟩
  intro id member
  obtain ⟨other, p, inside, event⟩ := good.waits id member
  exact ⟨other, p, more p inside, event⟩

theorem MutexInv.mono {pending' : List CapturePoint} (more : ∀ p ∈ pending, p ∈ pending')
    (inv : MutexInv pending st) : MutexInv pending' st :=
  ⟨inv.calm, inv.mutexes.mono fun _ _ good => good.mono more⟩

structure Acquiring (id : TaskId) (mtx mtx' : Mtx) : Prop where
  owner : mtx'.owner = mtx.owner
  count : mtx'.count = mtx.count
  waits : mtx.owner ≠ id → id ∈ mtx'.waiters

theorem handleAcquire_inv (inv : MutexInv pending st) (acquire : cp.typeId = eventMutexAcquire)
    (handled : handleAcquire cp.id cp.payloadAddr st = .ok st') :
    MutexInv (cp :: pending) st' ∧ ∃ mtx mtx', Acquiring cp.id mtx mtx' ∧
      st'.mutexes.lookup cp.payloadAddr = some mtx' ∧
      (st.mutexes.lookup cp.payloadAddr = some mtx ∨
        st.mutexes.lookup cp.payloadAddr = none ∧ mtx = mtxInit) := by
  have later := inv.mono (fun p member => List.mem_cons_of_mem cp member)
  obtain ⟨_, _, handled⟩ := bind_eq_ok.mp handled
  obtain ⟨mtx, mutexes, init, found⟩ := findOrInit_found mtxInit cp.payloadAddr st.mutexes
  simp only [mutexInit, init] at handled
  have good := found.good later.mutexes goodMtx_init
  split at handled
  · rename_i own
    cases handled
    refine ⟨⟨inv.calm, found.all later.mutexes goodMtx_init⟩, mtx, mtx, ⟨rfl, rfl, ?_⟩, found.here,
      found.source⟩
    exact fun other => absurd own other
  · rename_i other
    obtain ⟨_, _, handled⟩ := bind_eq_ok.mp handled
    cases handled
    refine ⟨⟨inv.calm, All.replace found.known (found.apart later.mutexes) ⟨good.free, ?_⟩⟩,
      mtx, { mtx with waiters := mtx.waiters.insert cp.id },
      ⟨rfl, rfl, fun _ => Tidset.mem_insert.mpr (Or.inr rfl)⟩, ?_, found.source⟩
    · intro id member
      rcases Tidset.mem_insert.mp member with old | rfl
      · exact good.waits id old
      · exact ⟨Ne.symm other, cp, List.mem_cons_self, rfl, acquire, rfl⟩
    · rw [lookup_replace found.known, if_pos rfl]

theorem mutexHandle_cases (handled : mutexHandle config cp e st = .ok (e', st')) :
    e'.replay = e.replay ∧ e'.skip = e.skip ∧
      (e.skip = false →
        (cp.typeId = eventMutexAcquire → handleAcquire cp.id cp.payloadAddr st = .ok st') ∧
        (cp.typeId = eventMutexRelease →
          config.strict = true → (st.mutexes.lookup cp.payloadAddr).isSome = true)) ∧
      (cp.typeId ≠ eventMutexAcquire ∨ e.skip = true → st' = st) := by
  unfold mutexHandle at handled
  split at handled
  · rename_i skipped
    cases handled
    exact ⟨rfl, rfl, fun runs => absurd skipped (by simp [runs]), fun _ => rfl⟩
  · rename_i runs
    obtain ⟨_, _, handled⟩ := bind_eq_ok.mp handled
    obtain ⟨⟨e₁, st₁⟩, switched, handled⟩ := bind_eq_ok.mp handled
    dsimp only at handled
    obtain ⟨_, strict, handled⟩ := bind_eq_ok.mp handled
    obtain ⟨_, _, handled⟩ := bind_eq_ok.mp handled
    cases handled
    unfold mutexSwitch at switched
    split at switched
    · rename_i acquire
      obtain ⟨st₂, acquired, switched⟩ := bind_eq_ok.mp switched
      obtain ⟨_, _, switched⟩ := bind_eq_ok.mp switched
      cases switched
      refine ⟨rfl, rfl, fun _ => ⟨fun _ => acquired, ?_⟩, ?_⟩
      · intro release
        rw [acquire] at release
        exact absurd release (by decide)
      · rintro (other | skipped)
        · exact absurd acquire other
        · exact absurd skipped runs
    · rename_i notAcquire
      obtain ⟨rfl, replay, skip⟩ : st' = st ∧ e₁.replay = e.replay ∧ e₁.skip = e.skip := by
        split at switched <;> cases switched <;> exact ⟨rfl, rfl, rfl⟩
      refine ⟨replay, skip, fun _ => ⟨fun acquire => absurd acquire notAcquire, ?_⟩, fun _ => rfl⟩
      intro release isStrict
      rw [checkRelease, if_pos release, strictCheckRelease, check_ok_iff, isStrict] at strict
      simpa using strict

theorem mutexHandle_inv (inv : MutexInv pending st)
    (handled : mutexHandle config cp e st = .ok (e', st')) : MutexInv (cp :: pending) st' := by
  obtain ⟨_, _, runs, same⟩ := mutexHandle_cases handled
  by_cases skipped : e.skip = true
  · rw [same (Or.inr skipped)]
    exact inv.mono (fun p member => List.mem_cons_of_mem cp member)
  · rw [Bool.not_eq_true] at skipped
    by_cases acquire : cp.typeId = eventMutexAcquire
    · exact (handleAcquire_inv inv acquire ((runs skipped).1 acquire)).1
    · rw [same (Or.inl acquire)]
      exact inv.mono (fun p member => List.mem_cons_of_mem cp member)

def without (pending : List CapturePoint) (id : TaskId) : List CapturePoint :=
  pending.filter (fun p => p.id != id)

theorem mem_without {p : CapturePoint} {id : TaskId} :
    p ∈ without pending id ↔ p ∈ pending ∧ p.id ≠ id := by
  simp [without]

structure Distinct (pending : List CapturePoint) : Prop where
  tasks : ∀ p ∈ pending, p.id ≠ noTask
  single : (pending.map CapturePoint.id).Nodup

theorem distinct_nil : Distinct [] := ⟨by simp, List.nodup_nil⟩

theorem Distinct.cons (distinct : Distinct pending) (task : cp.id ≠ noTask)
    (running : ∀ p ∈ pending, p.id ≠ cp.id) : Distinct (cp :: pending) := by
  refine ⟨?_, List.nodup_cons.mpr ⟨?_, distinct.single⟩⟩
  · intro p member
    rcases List.mem_cons.mp member with rfl | inside
    · exact task
    · exact distinct.tasks p inside
  · intro member
    obtain ⟨p, inside, same⟩ := List.mem_map.mp member
    exact running p inside same

theorem Distinct.without (distinct : Distinct pending) (id : TaskId) :
    Distinct (without pending id) :=
  ⟨fun p member => distinct.tasks p (mem_without.mp member).1,
    distinct.single.sublist (List.Sublist.map _ List.filter_sublist)⟩

theorem Distinct.same (distinct : Distinct pending) {p : CapturePoint} (inside : p ∈ pending)
    (member : cp ∈ pending) (same : p.id = cp.id) : p = cp :=
  List.inj_on_of_nodup_map distinct.single inside member same

theorem GoodMtx.without {mtx : Mtx} (good : GoodMtx pending addr mtx) {id : TaskId}
    (absent : id ∉ mtx.waiters) : GoodMtx (without pending id) addr mtx := by
  refine ⟨good.free, ?_⟩
  intro waiter member
  obtain ⟨other, p, inside, rfl, event⟩ := good.waits waiter member
  refine ⟨other, p, mem_without.mpr ⟨inside, ?_⟩, rfl, event⟩
  rintro rfl
  exact absent member

theorem GoodMtx.not_waiting {mtx : Mtx} (good : GoodMtx pending addr mtx)
    (resumes : ∀ p ∈ pending, p.id = cp.id → Resumes isMutexEvent p cp)
    (other : cp.typeId ≠ eventMutexAcquire ∨ addr ≠ cp.payloadAddr) : cp.id ∉ mtx.waiters := by
  intro member
  obtain ⟨_, p, inside, id, event, same⟩ := good.waits cp.id member
  have resumed := resumes p inside id
  rcases other with other | other
  · exact other (resumed.typeId.trans event)
  · rw [resumed.addr (by rw [event]; rfl)] at other
    exact other same.symm

theorem posthandleAcquire_cases {id : TaskId}
    (handled : posthandleAcquire id addr st = .ok st') :
    ∃ mtx mtx' mutexes, Found mtxInit addr st.mutexes mtx mutexes ∧ takeFree id mtx = .ok mtx' ∧
      mtx'.owner = id ∧
      st' = { st with mutexes := mutexes.replace addr { mtx' with count := mtx'.count + 1 } } := by
  obtain ⟨_, _, handled⟩ := bind_eq_ok.mp handled
  obtain ⟨mtx, mutexes, init, found⟩ := findOrInit_found mtxInit addr st.mutexes
  simp only [mutexInit, init] at handled
  obtain ⟨mtx', taken, handled⟩ := bind_eq_ok.mp handled
  obtain ⟨_, owned, handled⟩ := bind_eq_ok.mp handled
  rw [check_ok_iff, beq_iff_eq] at owned
  cases handled
  exact ⟨mtx, mtx', mutexes, found, taken, owned, rfl⟩

theorem takeFree_waiters {id : TaskId} {mtx mtx' : Mtx} (good : GoodMtx pending addr mtx)
    (taken : takeFree id mtx = .ok mtx') (owned : mtx'.owner = id) :
    (∀ waiter ∈ mtx'.waiters, waiter ∈ mtx.waiters) ∧ id ∉ mtx'.waiters := by
  unfold takeFree at taken
  split at taken
  · obtain ⟨_, _, taken⟩ := bind_eq_ok.mp taken
    obtain ⟨_, _, taken⟩ := bind_eq_ok.mp taken
    cases taken
    exact ⟨fun waiter member => (Tidset.mem_remove.mp member).2,
      fun member => (Tidset.mem_remove.mp member).1 rfl⟩
  · cases taken
    exact ⟨fun _ member => member, fun member => (good.waits id member).1 owned.symm⟩

theorem posthandleAcquire_inv (inv : MutexInv pending st) (task : cp.id ≠ noTask)
    (resumes : ∀ p ∈ pending, p.id = cp.id → Resumes isMutexEvent p cp)
    (handled : posthandleAcquire cp.id cp.payloadAddr st = .ok st') :
    MutexInv (without pending cp.id) st' := by
  obtain ⟨mtx, mtx', mutexes, found, taken, owned, rfl⟩ := posthandleAcquire_cases handled
  have good := found.good inv.mutexes goodMtx_init
  obtain ⟨fewer, absent⟩ := takeFree_waiters good taken owned
  refine ⟨inv.calm, All.replace found.known ?_ ⟨?_, ?_⟩⟩
  · intro a b other there
    have goodB := found.apart inv.mutexes a b other there
    exact goodB.without (goodB.not_waiting resumes (Or.inr other))
  · intro free
    exact absurd (owned.symm.trans free) task
  · intro waiter member
    obtain ⟨_, p, inside, rfl, event⟩ := good.waits waiter (fewer waiter member)
    have apart : p.id ≠ cp.id := by
      rintro same
      rw [same] at member
      exact absent member
    exact ⟨by rw [owned]; exact apart, p, mem_without.mpr ⟨inside, apart⟩, rfl, event⟩

theorem MutexInv.resumed (inv : MutexInv pending st)
    (resumes : ∀ p ∈ pending, p.id = cp.id → Resumes isMutexEvent p cp)
    (other : cp.typeId ≠ eventMutexAcquire) : MutexInv (without pending cp.id) st := by
  refine ⟨inv.calm, ?_⟩
  intro a b there
  have good := inv.mutexes a b there
  exact good.without (good.not_waiting resumes (Or.inl other))

theorem posthandleTryacquire_inv {id : TaskId} {ret : Nat} (inv : MutexInv pending st)
    (task : id ≠ noTask) (running : ∀ p ∈ pending, p.id ≠ id)
    (handled : posthandleTryacquire id addr st = .ok (ret, st')) : MutexInv pending st' := by
  obtain ⟨_, _, handled⟩ := bind_eq_ok.mp handled
  obtain ⟨mtx, mutexes, init, found⟩ := findOrInit_found mtxInit addr st.mutexes
  simp only [mutexInit, init] at handled
  have good := found.good inv.mutexes goodMtx_init
  have taken : ∀ count, GoodMtx pending addr { mtx with owner := id, count } := by
    refine fun count => ⟨fun free => absurd free task, ?_⟩
    intro waiter member
    obtain ⟨_, p, inside, rfl, event⟩ := good.waits waiter member
    exact ⟨running p inside, p, inside, rfl, event⟩
  split at handled
  · obtain ⟨_, _, handled⟩ := bind_eq_ok.mp handled
    cases handled
    exact ⟨inv.calm, All.replace found.known (found.apart inv.mutexes) (taken _)⟩
  · split at handled
    · rename_i own
      cases handled
      have same : ({ mtx with count := mtx.count + 1 } : Mtx) =
          { mtx with owner := id, count := mtx.count + 1 } := by rw [← own]
      rw [same]
      exact ⟨inv.calm, All.replace found.known (found.apart inv.mutexes) (taken _)⟩
    · cases handled
      exact ⟨inv.calm, found.all inv.mutexes goodMtx_init⟩

theorem posthandleRelease_inv (inv : MutexInv pending st) (tasks : ∀ p ∈ pending, p.id ≠ noTask)
    (handled : posthandleRelease config addr st = .ok st') : MutexInv pending st' := by
  unfold posthandleRelease at handled
  split at handled
  · obtain ⟨_, _, handled⟩ := bind_eq_ok.mp handled
    cases handled
    exact inv
  · rename_i mtx found
    have known : addr ∈ st.mutexes := AList.lookup_isSome.mp (by simp [found])
    have good := inv.mutexes addr mtx found
    have apart : ∀ a b, a ≠ addr → st.mutexes.lookup a = some b → GoodMtx pending a b :=
      fun a b _ there => inv.mutexes a b there
    obtain ⟨_, held, handled⟩ := bind_eq_ok.mp handled
    rw [check_ok_iff, decide_eq_true_eq] at held
    split at handled
    · rename_i more
      cases handled
      refine ⟨inv.calm, All.replace known apart ⟨?_, good.waits⟩⟩
      intro free
      have zero := good.free free
      omega
    · rename_i last
      split at handled
      · cases handled
        exact ⟨inv.calm, All.erase apart⟩
      · cases handled
        refine ⟨inv.calm, All.replace known apart ⟨fun _ => ?_, ?_⟩⟩
        · show mtx.count - 1 = 0
          omega
        · intro waiter member
          obtain ⟨_, p, inside, rfl, event⟩ := good.waits waiter member
          exact ⟨tasks p inside, p, inside, rfl, event⟩

theorem mutexResume_inv (inv : MutexInv pending st) (task : cp.id ≠ noTask)
    (tasks : ∀ p ∈ pending, p.id ≠ noTask)
    (resumes : ∀ p ∈ pending, p.id = cp.id → Resumes isMutexEvent p cp)
    (handled : mutexResume config cp st = .ok st') : MutexInv (without pending cp.id) st' := by
  unfold mutexResume at handled
  split at handled
  · exact posthandleAcquire_inv inv task resumes handled
  · rename_i notAcquire
    have still := inv.resumed resumes notAcquire
    split at handled
    · cases tried : posthandleTryacquire cp.id cp.payloadAddr st with
      | error fault =>
          rw [tried] at handled
          cases handled
      | ok result =>
          rw [tried] at handled
          cases handled
          exact posthandleTryacquire_inv still task (fun p member => (mem_without.mp member).2) tried
    · split at handled
      · exact posthandleRelease_inv still
          (fun p member => tasks p (mem_without.mp member).1) handled
      · cases handled
        exact still

structure MutexReady (cp : CapturePoint) (st : MutexState) : Prop where
  acquire : cp.typeId = eventMutexAcquire → ∀ mtx, st.mutexes.lookup cp.payloadAddr = some mtx →
    mtx.owner = noTask ∨ mtx.owner = cp.id
  release : cp.typeId = eventMutexRelease → ∀ mtx, st.mutexes.lookup cp.payloadAddr = some mtx →
    0 < mtx.count

theorem posthandleAcquire_ok_iff {id : TaskId} {mtx : Mtx} (calm : ∀ id, id ∉ st.waiters)
    (found : st.mutexes.lookup addr = some mtx) (task : id ≠ noTask)
    (free : mtx.owner = noTask → mtx.count = 0) (waits : mtx.owner ≠ id → id ∈ mtx.waiters) :
    (∃ st', posthandleAcquire id addr st = .ok st') ↔ mtx.owner = noTask ∨ mtx.owner = id := by
  have quiet : st.waiters.has id = false := Tidset.has_eq_false.mpr (calm id)
  unfold posthandleAcquire
  simp only [quiet, Bool.not_false, check_true, ok_bind, mutexInit, findOrInit_known found]
  by_cases noOwner : mtx.owner = noTask
  · have waiting : mtx.waiters.has id = true :=
      Tidset.has_eq_true.mpr (waits (by rw [noOwner]; exact task.symm))
    simp [takeFree, noOwner, free noOwner, waiting]
  · by_cases own : mtx.owner = id
    · simp [takeFree, own, task]
    · have other : (mtx.owner == id) = false := by simpa using own
      simp [takeFree, noOwner, own, other]

theorem posthandleTryacquire_ok (id : TaskId) (addr : UInt64) (inv : MutexInv pending st) :
    ∃ result, posthandleTryacquire id addr st = .ok result := by
  have quiet : st.waiters.has id = false := Tidset.has_eq_false.mpr (inv.calm id)
  obtain ⟨mtx, mutexes, init, found⟩ := findOrInit_found mtxInit addr st.mutexes
  have good := found.good inv.mutexes goodMtx_init
  unfold posthandleTryacquire
  simp only [quiet, Bool.not_false, check_true, ok_bind, mutexInit, init]
  by_cases noOwner : mtx.owner = noTask
  · simp [noOwner, good.free noOwner]
  · rw [if_neg noOwner]
    split <;> exact ⟨_, rfl⟩

theorem posthandleRelease_ok_iff :
    (∃ st', posthandleRelease config addr st = .ok st') ↔
      (st.mutexes.lookup addr = none → config.strict = false) ∧
        ∀ mtx, st.mutexes.lookup addr = some mtx → 0 < mtx.count := by
  unfold posthandleRelease
  cases found : st.mutexes.lookup addr with
  | none => cases strict : config.strict <;> simp
  | some mtx =>
      by_cases held : 0 < mtx.count
      · by_cases more : 1 < mtx.count
        · simp [held, more]
        · by_cases last : mtx.waiters.size = 0 <;> simp [held, more, last]
      · simp [held]

/-- After its capture half, the resume half of the mutex handler passes exactly if the mutex was
ready. -/
theorem mutexResume_ok_iff (inv : MutexInv pending st) (task : cp.id ≠ noTask)
    (runs : e.skip = false) (handled : mutexHandle config cp e st = .ok (e', st')) :
    (∃ st'', mutexResume config cp st' = .ok st'') ↔ MutexReady cp st := by
  obtain ⟨_, _, ran, same⟩ := mutexHandle_cases handled
  obtain ⟨acquires, releases⟩ := ran runs
  unfold mutexResume
  by_cases acquire : cp.typeId = eventMutexAcquire
  · obtain ⟨inv', mtx, mtx', acquiring, found, source⟩ :=
      handleAcquire_inv inv acquire (acquires acquire)
    rw [if_pos acquire, posthandleAcquire_ok_iff inv'.calm found task (inv'.mutexes _ _ found).free
      (by rw [acquiring.owner]; exact acquiring.waits), acquiring.owner]
    constructor
    · intro free
      refine ⟨?_, fun release => absurd (acquire.symm.trans release) (by decide)⟩
      intro _ other there
      rcases source with old | ⟨unknown, _⟩
      · rw [old] at there
        cases there
        exact free
      · rw [unknown] at there
        cases there
    · intro ready
      rcases source with old | ⟨_, rfl⟩
      · exact ready.acquire acquire mtx old
      · exact Or.inl rfl
  · rw [if_neg acquire, same (Or.inl acquire)]
    by_cases tries : cp.typeId = eventMutexTryacquire
    · obtain ⟨result, tried⟩ :=
        posthandleTryacquire_ok cp.id cp.payloadAddr inv
      rw [if_pos tries, tried]
      refine ⟨fun _ => ⟨fun is => absurd is acquire, ?_⟩, fun _ => ⟨_, rfl⟩⟩
      intro release
      exact absurd (tries.symm.trans release) (by decide)
    · rw [if_neg tries]
      by_cases release : cp.typeId = eventMutexRelease
      · rw [if_pos release, posthandleRelease_ok_iff]
        constructor
        · rintro ⟨_, held⟩
          exact ⟨fun is => absurd is acquire, fun _ => held⟩
        · intro ready
          refine ⟨?_, ready.release release⟩
          intro unknown
          by_contra strict
          rw [Bool.not_eq_false] at strict
          simp [unknown] at releases
          simp [releases release] at strict
      · rw [if_neg release]
        exact ⟨fun _ => ⟨fun is => absurd is acquire, fun is => absurd is release⟩,
          fun _ => ⟨_, rfl⟩⟩

end Mutex

end Lotto.MutexSpecs
