import Lotto.Library.GuardedRun
import Lotto.MutexSpecs

namespace Lotto.MutexRun

open Library.FaultRun Library.GuardedRun Library.KeyMap MutexSpecs

def mtxAt (st : MutexState) (addr : UInt64) : Mtx := itemAt mtxInit st.mutexes addr

structure Touches (addr : UInt64) (mtx' : Mtx) (st st' : MutexState) : Prop where
  here : mtxAt st' addr = mtx'
  others : ∀ a, a ≠ addr → mtxAt st' a = mtxAt st a
  calm : st'.waiters = st.waiters

section Filter

variable {st : MutexState} {id : TaskId}

theorem shouldWait_iff : st.shouldWait id = true ↔
    ∃ addr, (mtxAt st addr).owner ≠ noTask ∧ id ∈ (mtxAt st addr).waiters := by
  simp only [MutexState.shouldWait, List.any_eq_true, Bool.and_eq_true, bne_iff_ne,
    Tidset.has_eq_true]
  constructor
  · rintro ⟨⟨addr, mtx⟩, inside, owned, waits⟩
    have found : st.mutexes.lookup addr = some mtx := AList.mem_lookup_iff.mpr inside
    refine ⟨addr, ?_⟩
    rw [mtxAt, itemAt, found]
    exact ⟨owned, waits⟩
  · rintro ⟨addr, owned, waits⟩
    cases found : st.mutexes.lookup addr with
    | none =>
        rw [mtxAt, itemAt, found] at owned
        exact absurd rfl owned
    | some mtx =>
        rw [mtxAt, itemAt, found] at owned waits
        exact ⟨⟨addr, mtx⟩, AList.mem_lookup_iff.mp found, owned, waits⟩

theorem removeWaiters_spec (st : MutexState) (self : TaskId) (tset : Tidset) :
    (∀ id, id ∈ (removeWaiters st.mutexes self tset).1 ↔ id ∈ tset ∧ st.shouldWait id = false) ∧
      (removeWaiters st.mutexes self tset).2 = st.shouldWait self := by
  have general : ∀ (items : List (Sigma fun _ : UInt64 => Mtx)) (tset : Tidset) (found : Bool),
      let result := items.foldl (fun acc it =>
        if it.2.owner = noTask then (acc.1, acc.2)
        else (acc.1.subtract it.2.waiters, acc.2 || it.2.waiters.has self)) (tset, found)
      (∀ id, id ∈ result.1 ↔ id ∈ tset ∧
        items.any (fun it => it.2.owner != noTask && it.2.waiters.has id) = false) ∧
      result.2 = (found || items.any fun it => it.2.owner != noTask && it.2.waiters.has self) := by
    intro items
    induction items with
    | nil => simp
    | cons it items ih =>
        intro tset found
        rw [List.foldl_cons]
        by_cases free : it.2.owner = noTask
        · simpa [free] using ih tset found
        · obtain ⟨members, waits⟩ := ih (tset.subtract it.2.waiters) (found || it.2.waiters.has self)
          simp only [if_neg free]
          refine ⟨fun id => ?_, ?_⟩
          · rw [members id]
            simp [free, and_assoc]
          · have owned : (it.2.owner != noTask) = true := by simpa using free
            rw [waits, List.any_cons, owned, Bool.true_and, Bool.or_assoc]
  obtain ⟨members, waits⟩ := general st.mutexes.entries tset false
  exact ⟨members, waits.trans (Bool.false_or _)⟩

end Filter

section Effects

variable {st : MutexState} {id : TaskId} {addr : UInt64}

theorem touches_of_puts {mutexes : Map Mtx} {mtx' : Mtx}
    (puts : Puts mtxInit addr mtx' st.mutexes mutexes) : Touches addr mtx' st { st with mutexes } :=
  ⟨(puts addr).trans (if_pos rfl), fun a other => (puts a).trans (if_neg other), rfl⟩

theorem mutexInit_spec (addr : UInt64) (st : MutexState) : ∃ mutexes,
    mutexInit addr st.mutexes = (mtxAt st addr, mutexes) ∧
    Touches addr (mtxAt st addr) st { st with mutexes } ∧
    ∀ mtx', Touches addr mtx' st { st with mutexes := mutexes.replace addr mtx' } := by
  obtain ⟨mutexes, init, same, puts⟩ := findOrInit_puts mtxInit addr st.mutexes
  exact ⟨mutexes, init, touches_of_puts same, fun mtx' => touches_of_puts (puts mtx')⟩

def enqueue (id : TaskId) (mtx : Mtx) : Mtx :=
  if mtx.owner = id then mtx else { mtx with waiters := mtx.waiters.insert id }

theorem handleAcquire_ok (calm : ∀ id, id ∉ st.waiters) (fresh : id ∉ (mtxAt st addr).waiters) :
    ∃ st', handleAcquire id addr st = .ok st' ∧ Touches addr (enqueue id (mtxAt st addr)) st st' := by
  obtain ⟨mutexes, init, same, touches⟩ := mutexInit_spec addr st
  have quiet : st.waiters.has id = false := Tidset.has_eq_false.mpr (calm id)
  have absent : (mtxAt st addr).waiters.has id = false := Tidset.has_eq_false.mpr fresh
  simp only [handleAcquire, quiet, Bool.not_false, check_true, ok_bind, init]
  by_cases own : (mtxAt st addr).owner = id
  · simp only [enqueue, if_pos own]
    exact ⟨_, rfl, same⟩
  · simp only [enqueue, if_neg own, absent, Bool.not_false, check_true, ok_bind]
    exact ⟨_, rfl, touches _⟩

/-- A resumed acquire owns the mutex once more than before. -/
def take (id : TaskId) (mtx : Mtx) : Mtx :=
  if mtx.owner = noTask then
    { waiters := mtx.waiters.remove id, owner := id, count := mtx.count + 1 }
  else { mtx with count := mtx.count + 1 }

theorem posthandleAcquire_ok (addr : UInt64) (calm : ∀ id, id ∉ st.waiters)
    (free : (mtxAt st addr).owner = noTask → (mtxAt st addr).count = 0 ∧ id ∈ (mtxAt st addr).waiters)
    (owned : (mtxAt st addr).owner ≠ noTask → (mtxAt st addr).owner = id) :
    ∃ st', posthandleAcquire id addr st = .ok st' ∧ Touches addr (take id (mtxAt st addr)) st st' := by
  obtain ⟨mutexes, init, _, touches⟩ := mutexInit_spec addr st
  have quiet : st.waiters.has id = false := Tidset.has_eq_false.mpr (calm id)
  simp only [posthandleAcquire, quiet, Bool.not_false, check_true, ok_bind, init]
  by_cases none : (mtxAt st addr).owner = noTask
  · obtain ⟨zero, waits⟩ := free none
    have inside : (mtxAt st addr).waiters.has id = true := Tidset.has_eq_true.mpr waits
    simp only [takeFree, take, if_pos none, zero, inside, beq_self_eq_true, check_true, ok_bind]
    exact ⟨_, rfl, touches _⟩
  · have own : ((mtxAt st addr).owner == id) = true := beq_iff_eq.mpr (owned none)
    simp only [takeFree, take, if_neg none, ok_bind, own, check_true]
    exact ⟨_, rfl, touches _⟩

def tryTake (id : TaskId) (mtx : Mtx) : Mtx :=
  if mtx.owner = noTask ∨ mtx.owner = id then { mtx with owner := id, count := mtx.count + 1 }
  else mtx

theorem posthandleTryacquire_touches (id : TaskId) (addr : UInt64) (calm : ∀ id, id ∉ st.waiters)
    (free : (mtxAt st addr).owner = noTask → (mtxAt st addr).count = 0) :
    ∃ ret st', posthandleTryacquire id addr st = .ok (ret, st') ∧
      Touches addr (tryTake id (mtxAt st addr)) st st' ∧
      (ret = 0 ↔ (mtxAt st addr).owner = noTask ∨ (mtxAt st addr).owner = id) := by
  obtain ⟨mutexes, init, same, touches⟩ := mutexInit_spec addr st
  have quiet : st.waiters.has id = false := Tidset.has_eq_false.mpr (calm id)
  simp only [posthandleTryacquire, quiet, Bool.not_false, check_true, ok_bind, init]
  by_cases none : (mtxAt st addr).owner = noTask
  · simp only [tryTake, none, true_or, if_true, free none, beq_self_eq_true, check_true, ok_bind]
    exact ⟨0, _, rfl, touches _, by simp⟩
  · by_cases own : (mtxAt st addr).owner = id
    · have kept : ({ mtxAt st addr with owner := id, count := (mtxAt st addr).count + 1 } : Mtx) =
          { mtxAt st addr with count := (mtxAt st addr).count + 1 } := by rw [← own]
      rw [if_neg none, if_pos own, tryTake, if_pos (Or.inr own), kept]
      exact ⟨0, _, rfl, touches _, by simp [own]⟩
    · rw [if_neg none, if_neg own, tryTake, if_neg (by simp [none, own])]
      exact ⟨eBusy, _, rfl, same, by simp [none, own, eBusy]⟩

def drop (mtx : Mtx) : Mtx :=
  if 0 < mtx.count - 1 then { mtx with count := mtx.count - 1 }
  else { mtx with count := mtx.count - 1, owner := noTask }

theorem posthandleRelease_ok (config : MutexConfig) (held : 0 < (mtxAt st addr).count) :
    ∃ st', posthandleRelease config addr st = .ok st' ∧ Touches addr (drop (mtxAt st addr)) st st' := by
  cases found : st.mutexes.lookup addr with
  | none => simp [mtxAt, itemAt, found, mtxInit] at held
  | some mtx =>
      have here : mtxAt st addr = mtx := by rw [mtxAt, itemAt, found]; rfl
      have known : addr ∈ st.mutexes := AList.lookup_isSome.mp (by simp [found])
      rw [here] at held ⊢
      have touches : ∀ mtx', Touches addr mtx' st { st with mutexes := st.mutexes.replace addr mtx' } :=
        fun mtx' => touches_of_puts (puts_replace mtxInit known mtx')
      simp only [posthandleRelease, found, held, decide_true, check_true, ok_bind]
      by_cases more : 0 < mtx.count - 1
      · exact ⟨_, if_pos more, by rw [drop, if_pos more]; exact touches _⟩
      · rw [if_neg more, drop, if_neg more]
        by_cases alone : mtx.waiters.size = 0
        · refine ⟨_, if_pos alone, ?_, fun a other => ?_, rfl⟩
          · -- the entry is removed, which is what a free mutex without waiters looks like
            have empty : mtx.waiters = .empty := Tidset.ext (List.eq_nil_of_length_eq_zero alone)
            have zero : mtx.count - 1 = 0 := by omega
            simp [mtxAt, itemAt, AList.lookup_erase, mtxInit, empty, zero]
          · simp only [mtxAt, itemAt, AList.lookup_erase_ne other]
        · exact ⟨_, if_neg alone, touches _⟩

end Effects

inductive Access where
  | acquired | released
  deriving DecidableEq, Repr

/-- The handler between two steps: the tasks suspended at a capture, the task set as filtered by
the last capture and the acquisitions and releases so far. -/
structure World where
  st : MutexState
  pending : List CapturePoint
  tset : Tidset
  log : List (TaskId × UInt64 × Access)

inductive Move where
  | capture (cp : CapturePoint) (e : Decision)
  | resume (cp : CapturePoint)

def accessOf (cp : CapturePoint) (st : MutexState) : Option Access :=
  if cp.typeId = eventMutexAcquire then some .acquired
  else if cp.typeId = eventMutexTryacquire then
    match posthandleTryacquire cp.id cp.payloadAddr st with
    | .ok (0, _) => some .acquired
    | _ => none
  else if cp.typeId = eventMutexRelease then some .released
  else none

def move (config : MutexConfig) : Move → World → Except Fault World
  | .capture cp e, w => do
      let (e, st) ← mutexHandle config cp e w.st
      .ok { w with st, pending := cp :: w.pending, tset := e.tset }
  | .resume cp, w => do
      let st ← mutexResume config cp w.st
      .ok { st, pending := without w.pending cp.id, tset := .empty
            log := w.log ++ (accessOf cp w.st).toList.map fun access =>
              (cp.id, cp.payloadAddr, access) }

/-- A capture by a task that is not suspended, of a release only if it owns the mutex. -/
structure Captures (w : World) (cp : CapturePoint) (e : Decision) : Prop where
  task : cp.id ≠ noTask
  running : ∀ p ∈ w.pending, p.id ≠ cp.id
  unskipped : e.skip = false
  unfiltered : cp.typeId = eventMutexAcquire → e.anyTaskFilter = none
  owner : cp.typeId = eventMutexRelease → (mtxAt w.st cp.payloadAddr).owner = cp.id

structure ResumesFrom (w : World) (cp : CapturePoint) : Prop where
  pending : cp ∈ w.pending
  admitted : cp.id ∈ w.tset ∨ w.st.shouldWait cp.id = false

def Allowed (w : World) : Move → Prop
  | .capture cp e => Captures w cp e
  | .resume cp => ResumesFrom w cp

def system (config : MutexConfig) : Guarded World Move Fault where
  start := { st := mutexStart, pending := [], tset := .empty, log := [] }
  step := move config
  allowed := Allowed

def balance (log : List (TaskId × UInt64 × Access)) (id : TaskId) (addr : UInt64) : Int :=
  log.count (id, addr, .acquired) - log.count (id, addr, .released)

@[simp] theorem balance_nil (id : TaskId) (addr : UInt64) : balance [] id addr = 0 := rfl

def Access.sign : Access → Int
  | .acquired => 1
  | .released => -1

theorem balance_append (log : List (TaskId × UInt64 × Access)) (id other : TaskId)
    (addr a : UInt64) (access : Access) : balance (log ++ [(id, addr, access)]) other a =
      balance log other a + if other = id ∧ a = addr then access.sign else 0 := by
  by_cases same : other = id ∧ a = addr
  · obtain ⟨rfl, rfl⟩ := same
    cases access <;> simp [balance, List.count_append, Access.sign] <;> omega
  · have apart : ∀ kind, ((id, addr, access) == (other, a, kind)) = false := by
      intro kind
      rw [beq_eq_false_iff_ne]
      intro equal
      simp only [Prod.mk.injEq] at equal
      exact same ⟨equal.1.symm, equal.2.1.symm⟩
    simp [balance, List.count_append, List.count_cons, apart, same]

structure Counts (log : List (TaskId × UInt64 × Access)) (addr : UInt64) (mtx : Mtx) : Prop where
  nonneg : 0 ≤ mtx.count
  free : mtx.owner = noTask ↔ mtx.count = 0
  held : ∀ id, balance log id addr = if id = mtx.owner then mtx.count else 0

section Counts

variable {log : List (TaskId × UInt64 × Access)} {addr : UInt64} {mtx mtx' : Mtx} {id : TaskId}

theorem Counts.acquired (counts : Counts log addr mtx) (task : id ≠ noTask)
    (free : mtx.owner = noTask ∨ mtx.owner = id) (owner : mtx'.owner = id)
    (count : mtx'.count = mtx.count + 1) : Counts (log ++ [(id, addr, .acquired)]) addr mtx' := by
  have nonneg := counts.nonneg
  refine ⟨by omega, ?_, ?_⟩
  · rw [owner, count]
    exact iff_of_false task (by omega)
  · intro other
    rw [balance_append, counts.held other, owner, count]
    by_cases same : other = id
    · rcases free with none | own
      · simp [none, same, task, counts.free.mp none, Access.sign]
      · simp [own, same, Access.sign]
    · rcases free with none | own
      · simp [none, same, counts.free.mp none]
      · simp [own, same]

theorem Counts.released (counts : Counts log addr mtx) (task : id ≠ noTask) (own : mtx.owner = id)
    (positive : 0 < mtx.count) (owner : mtx'.owner = if 0 < mtx.count - 1 then id else noTask)
    (count : mtx'.count = mtx.count - 1) : Counts (log ++ [(id, addr, .released)]) addr mtx' := by
  refine ⟨by omega, ?_, ?_⟩
  · rw [owner, count]
    split
    · exact iff_of_false task (by omega)
    · exact iff_of_true rfl (by omega)
  · intro other
    rw [balance_append, counts.held other, owner, count, own]
    by_cases more : 0 < mtx.count - 1
    · rw [if_pos more]
      by_cases same : other = id
      · simp only [same, and_self, if_true, Access.sign]
        omega
      · simp [same]
    · have last : mtx.count = 1 := by omega
      rw [if_neg more, last]
      by_cases same : other = id
      · simp [same, task, Access.sign]
      · simp [same]

end Counts

structure Exclusive (w : World) : Prop where
  calm : ∀ id, id ∉ w.st.waiters
  distinct : Distinct w.pending
  counts : ∀ addr, Counts w.log addr (mtxAt w.st addr)
  waits : ∀ addr id, id ∈ (mtxAt w.st addr).waiters → id ≠ (mtxAt w.st addr).owner ∧
    ∃ p ∈ w.pending, p.id = id ∧ p.typeId = eventMutexAcquire ∧ p.payloadAddr = addr
  acquiring : ∀ p ∈ w.pending, p.typeId = eventMutexAcquire →
    (mtxAt w.st p.payloadAddr).owner = p.id ∨ p.id ∈ (mtxAt w.st p.payloadAddr).waiters
  releasing : ∀ p ∈ w.pending, p.typeId = eventMutexRelease →
    (mtxAt w.st p.payloadAddr).owner = p.id
  filtered : ∀ id ∈ w.tset, w.st.shouldWait id = false

theorem exclusive_start (config : MutexConfig) : Exclusive (system config).start where
  calm := Tidset.not_mem_empty
  distinct := distinct_nil
  counts := fun addr => ⟨Int.le_refl 0, by simp [system, mtxAt, itemAt, mutexStart, mtxInit],
    fun id => (ite_self 0).symm⟩
  waits := by simp [system, mtxAt, itemAt, mutexStart, mtxInit]
  acquiring := by simp [system]
  releasing := by simp [system]
  filtered := by simp [system]

theorem Exclusive.waits_here {w : World} (inv : Exclusive w) {cp : CapturePoint}
    (pending : cp ∈ w.pending) {addr : UInt64} (waiting : cp.id ∈ (mtxAt w.st addr).waiters) :
    cp.typeId = eventMutexAcquire ∧ cp.payloadAddr = addr := by
  obtain ⟨_, p, inside, same, event⟩ := inv.waits addr cp.id waiting
  rw [inv.distinct.same inside pending same] at event
  exact event

theorem Exclusive.waits_apart {w : World} (inv : Exclusive w) {cp : CapturePoint}
    (pending : cp ∈ w.pending) (other : cp.typeId ≠ eventMutexAcquire) {addr : UInt64} {id : TaskId}
    (waiting : id ∈ (mtxAt w.st addr).waiters) : id ≠ cp.id := by
  rintro rfl
  exact other (inv.waits_here pending waiting).1

theorem Exclusive.resumed {w : World} (inv : Exclusive w) {cp : CapturePoint} {st' : MutexState}
    {mtx' : Mtx} {log' : List (TaskId × UInt64 × Access)} (pending : cp ∈ w.pending)
    (touches : Touches cp.payloadAddr mtx' w.st st')
    (counts : Counts log' cp.payloadAddr mtx')
    (apart : ∀ id a, a ≠ cp.payloadAddr → balance log' id a = balance w.log id a)
    (waits : ∀ id ∈ mtx'.waiters, id ∈ (mtxAt w.st cp.payloadAddr).waiters ∧ id ≠ cp.id ∧
      id ≠ mtx'.owner)
    (stays : ∀ id ∈ (mtxAt w.st cp.payloadAddr).waiters, id ≠ cp.id → id ∈ mtx'.waiters)
    (owns : ∀ id, id ≠ cp.id → id ≠ noTask → (mtxAt w.st cp.payloadAddr).owner = id →
      mtx'.owner = id) :
    Exclusive { st := st', pending := without w.pending cp.id, tset := .empty, log := log' } := by
  have still : ∀ p ∈ without w.pending cp.id, p ∈ w.pending ∧ p.id ≠ cp.id :=
    fun p member => mem_without.mp member
  refine ⟨?_, ?_, ?_, ?_, ?_, ?_, fun id member => absurd member (Tidset.not_mem_empty id)⟩
  · intro id
    rw [touches.calm]
    exact inv.calm id
  · exact inv.distinct.without cp.id
  · intro addr
    by_cases here : addr = cp.payloadAddr
    · subst here
      rw [touches.here]
      exact counts
    · obtain ⟨nonneg, free, held⟩ := inv.counts addr
      rw [touches.others addr here]
      exact ⟨nonneg, free, fun id => by rw [apart id addr here]; exact held id⟩
  · intro addr id member
    by_cases here : addr = cp.payloadAddr
    · subst here
      rw [touches.here] at member ⊢
      obtain ⟨old, other, notOwner⟩ := waits id member
      obtain ⟨_, p, inside, rfl, event⟩ := inv.waits _ id old
      exact ⟨notOwner, p, mem_without.mpr ⟨inside, other⟩, rfl, event⟩
    · rw [touches.others addr here] at member ⊢
      obtain ⟨notOwner, p, inside, rfl, event⟩ := inv.waits addr id member
      refine ⟨notOwner, p, mem_without.mpr ⟨inside, ?_⟩, rfl, event⟩
      intro same
      rw [inv.distinct.same inside pending same] at event
      exact here event.2.symm
  · intro p member acquire
    obtain ⟨inside, other⟩ := still p member
    have before := inv.acquiring p inside acquire
    by_cases here : p.payloadAddr = cp.payloadAddr
    · rw [here] at before ⊢
      rw [touches.here]
      rcases before with owner | waiting
      · exact Or.inl (owns p.id other (inv.distinct.tasks p inside) owner)
      · exact Or.inr (stays p.id waiting other)
    · rw [touches.others _ here]
      exact before
  · intro p member release
    obtain ⟨inside, other⟩ := still p member
    have before := inv.releasing p inside release
    by_cases here : p.payloadAddr = cp.payloadAddr
    · rw [here] at before ⊢
      rw [touches.here]
      exact owns p.id other (inv.distinct.tasks p inside) before
    · rw [touches.others _ here]
      exact before

theorem Exclusive.admitted {w : World} (inv : Exclusive w) {cp : CapturePoint}
    (resumes : ResumesFrom w cp) : w.st.shouldWait cp.id = false := by
  rcases resumes.admitted with member | free
  · exact inv.filtered cp.id member
  · exact free

theorem Exclusive.acquirable {w : World} (inv : Exclusive w) {cp : CapturePoint}
    (resumes : ResumesFrom w cp) (acquire : cp.typeId = eventMutexAcquire) :
    ((mtxAt w.st cp.payloadAddr).owner = noTask → cp.id ∈ (mtxAt w.st cp.payloadAddr).waiters) ∧
    ((mtxAt w.st cp.payloadAddr).owner ≠ noTask → (mtxAt w.st cp.payloadAddr).owner = cp.id) := by
  have before := inv.acquiring cp resumes.pending acquire
  refine ⟨?_, ?_⟩
  · intro free
    rcases before with owner | waiting
    · exact absurd (owner.symm.trans free) (inv.distinct.tasks cp resumes.pending)
    · exact waiting
  · intro owned
    rcases before with owner | waiting
    · exact owner
    · have blocked := shouldWait_iff.mpr ⟨cp.payloadAddr, owned, waiting⟩
      rw [inv.admitted resumes] at blocked
      cases blocked

theorem resume_acquire {config : MutexConfig} {w : World} (inv : Exclusive w) {cp : CapturePoint}
    (resumes : ResumesFrom w cp) (acquire : cp.typeId = eventMutexAcquire) :
    ∃ w', move config (.resume cp) w = .ok w' ∧ Exclusive w' := by
  have counts := inv.counts cp.payloadAddr
  obtain ⟨waiting, own⟩ := inv.acquirable resumes acquire
  have task := inv.distinct.tasks cp resumes.pending
  obtain ⟨st', handled, touches⟩ := posthandleAcquire_ok cp.payloadAddr inv.calm
    (fun noOwner => ⟨counts.free.mp noOwner, waiting noOwner⟩) own
  simp only [move, mutexResume, if_pos acquire, handled, ok_bind]
  refine ⟨_, rfl, ?_⟩
  have owner : (take cp.id (mtxAt w.st cp.payloadAddr)).owner = cp.id := by
    unfold take
    split
    · rfl
    · rename_i owned
      exact own owned
  have count : (take cp.id (mtxAt w.st cp.payloadAddr)).count =
      (mtxAt w.st cp.payloadAddr).count + 1 := by
    unfold take
    split <;> rfl
  simp only [accessOf, if_pos acquire, Option.toList_some, List.map_cons, List.map_nil]
  have free : (mtxAt w.st cp.payloadAddr).owner = noTask ∨ (mtxAt w.st cp.payloadAddr).owner = cp.id :=
    Classical.or_iff_not_imp_left.mpr own
  refine inv.resumed resumes.pending touches (counts.acquired task free owner count) ?_ ?_ ?_ ?_
  · intro id a other
    simp [balance_append, other]
  · intro id member
    rw [owner]
    unfold take at member
    split at member
    · obtain ⟨other, old⟩ := Tidset.mem_remove.mp member
      exact ⟨old, other, other⟩
    · rename_i owned
      have notOwner := (inv.waits _ id member).1
      rw [own owned] at notOwner
      exact ⟨member, notOwner, notOwner⟩
  · intro id member other
    unfold take
    split
    · exact Tidset.mem_remove.mpr ⟨other, member⟩
    · exact member
  · intro id other task' owned
    by_cases none : (mtxAt w.st cp.payloadAddr).owner = noTask
    · exact absurd (owned.symm.trans none) task'
    · exact absurd (owned.symm.trans (own none)) other

theorem Touches.refl (addr : UInt64) (st : MutexState) : Touches addr (mtxAt st addr) st st :=
  ⟨rfl, fun _ _ => rfl, rfl⟩

theorem Exclusive.unchanged {w : World} (inv : Exclusive w) {cp : CapturePoint} {st' : MutexState}
    (pending : cp ∈ w.pending) (other : cp.typeId ≠ eventMutexAcquire)
    (touches : Touches cp.payloadAddr (mtxAt w.st cp.payloadAddr) w.st st') :
    Exclusive { st := st', pending := without w.pending cp.id, tset := .empty, log := w.log } := by
  refine inv.resumed pending touches (inv.counts _) (fun _ _ _ => rfl) ?_ (fun _ member _ => member)
    (fun _ _ _ owned => owned)
  intro id member
  exact ⟨member, inv.waits_apart pending other member, (inv.waits _ id member).1⟩

theorem resume_tryacquire {config : MutexConfig} {w : World} (inv : Exclusive w) {cp : CapturePoint}
    (resumes : ResumesFrom w cp) (tries : cp.typeId = eventMutexTryacquire) :
    ∃ w', move config (.resume cp) w = .ok w' ∧ Exclusive w' := by
  have other : cp.typeId ≠ eventMutexAcquire := by
    rw [tries]
    decide
  have counts := inv.counts cp.payloadAddr
  have task := inv.distinct.tasks cp resumes.pending
  obtain ⟨ret, st', handled, touches, success⟩ :=
    posthandleTryacquire_touches cp.id cp.payloadAddr inv.calm counts.free.mp
  simp only [move, mutexResume, if_neg other, if_pos tries, handled, Except.map, ok_bind]
  refine ⟨_, rfl, ?_⟩
  simp only [accessOf, if_neg other, if_pos tries, handled]
  by_cases taken : (mtxAt w.st cp.payloadAddr).owner = noTask ∨ (mtxAt w.st cp.payloadAddr).owner = cp.id
  · obtain rfl : ret = 0 := success.mpr taken
    simp only [tryTake, if_pos taken] at touches
    refine inv.resumed resumes.pending touches (counts.acquired task taken rfl rfl) ?_ ?_
      (fun _ member _ => member) ?_
    · intro id a apart
      simp [balance_append, apart]
    · intro id member
      have away := inv.waits_apart resumes.pending other member
      exact ⟨member, away, away⟩
    · intro id away task' owned
      rcases taken with none | own
      · exact absurd (owned.symm.trans none) task'
      · exact absurd (owned.symm.trans own) away
  · have failed : ret ≠ 0 := fun zero => taken (success.mp zero)
    simp only [tryTake, if_neg taken] at touches
    have none : (match (Except.ok (ret, st') : Except Fault (Nat × MutexState)) with
        | .ok (0, _) => some Access.acquired
        | _ => none) = none := by
      cases ret with
      | zero => exact absurd rfl failed
      | succ n => rfl
    rw [none]
    simpa using inv.unchanged resumes.pending other touches

theorem resume_release {config : MutexConfig} {w : World} (inv : Exclusive w) {cp : CapturePoint}
    (resumes : ResumesFrom w cp) (release : cp.typeId = eventMutexRelease) :
    ∃ w', move config (.resume cp) w = .ok w' ∧ Exclusive w' := by
  have notAcquire : cp.typeId ≠ eventMutexAcquire := by
    rw [release]
    decide
  have notTry : cp.typeId ≠ eventMutexTryacquire := by
    rw [release]
    decide
  have counts := inv.counts cp.payloadAddr
  have task := inv.distinct.tasks cp resumes.pending
  have own := inv.releasing cp resumes.pending release
  have positive : 0 < (mtxAt w.st cp.payloadAddr).count := by
    have nonzero : (mtxAt w.st cp.payloadAddr).count ≠ 0 := by
      intro zero
      exact task (own.symm.trans (counts.free.mpr zero))
    have nonneg := counts.nonneg
    omega
  obtain ⟨st', handled, touches⟩ := posthandleRelease_ok config positive
  simp only [move, mutexResume, if_neg notAcquire, if_neg notTry, if_pos release, handled, ok_bind]
  refine ⟨_, rfl, ?_⟩
  simp only [accessOf, if_neg notAcquire, if_neg notTry, if_pos release, Option.toList_some,
    List.map_cons, List.map_nil]
  have waiters : (drop (mtxAt w.st cp.payloadAddr)).waiters = (mtxAt w.st cp.payloadAddr).waiters := by
    unfold drop
    split <;> rfl
  have count : (drop (mtxAt w.st cp.payloadAddr)).count = (mtxAt w.st cp.payloadAddr).count - 1 := by
    unfold drop
    split <;> rfl
  have owner : (drop (mtxAt w.st cp.payloadAddr)).owner =
      if 0 < (mtxAt w.st cp.payloadAddr).count - 1 then cp.id else noTask := by
    unfold drop
    split
    · exact own
    · rfl
  refine inv.resumed resumes.pending touches (counts.released task own positive owner count) ?_ ?_ ?_ ?_
  · intro id a apart
    simp [balance_append, apart]
  · intro id member
    rw [waiters] at member
    have away := inv.waits_apart resumes.pending notAcquire member
    refine ⟨member, away, ?_⟩
    rw [owner]
    split
    · exact away
    · obtain ⟨_, p, inside, rfl, _⟩ := inv.waits _ id member
      exact inv.distinct.tasks p inside
  · intro id member _
    rw [waiters]
    exact member
  · intro id away _ owned
    exact absurd (owned.symm.trans own) away

theorem resume_other {config : MutexConfig} {w : World} (inv : Exclusive w) {cp : CapturePoint}
    (resumes : ResumesFrom w cp) (other : isMutexEvent cp.typeId = false) :
    ∃ w', move config (.resume cp) w = .ok w' ∧ Exclusive w' := by
  obtain ⟨⟨notAcquire, notTry⟩, notRelease⟩ : (cp.typeId ≠ eventMutexAcquire ∧
      cp.typeId ≠ eventMutexTryacquire) ∧ cp.typeId ≠ eventMutexRelease := by
    simpa [isMutexEvent] using other
  simp only [move, mutexResume, if_neg notAcquire, if_neg notTry, if_neg notRelease, ok_bind]
  refine ⟨_, rfl, ?_⟩
  simp only [accessOf, if_neg notAcquire, if_neg notTry, if_neg notRelease, Option.toList_none,
    List.map_nil, List.append_nil]
  exact inv.unchanged resumes.pending notAcquire (Touches.refl _ _)

theorem resume_kept {config : MutexConfig} {w : World} (inv : Exclusive w) {cp : CapturePoint}
    (resumes : ResumesFrom w cp) : ∃ w', move config (.resume cp) w = .ok w' ∧ Exclusive w' := by
  by_cases acquire : cp.typeId = eventMutexAcquire
  · exact resume_acquire inv resumes acquire
  · by_cases tries : cp.typeId = eventMutexTryacquire
    · exact resume_tryacquire inv resumes tries
    · by_cases release : cp.typeId = eventMutexRelease
      · exact resume_release inv resumes release
      · exact resume_other inv resumes (by simp [isMutexEvent, acquire, tries, release])

/-- Nothing is ever entered into the handler's own set of waiters, so the search for a deadlock
ends at the first owner it meets. -/
theorem checkDeadlock_calm {st : MutexState} {id : TaskId} {addr : UInt64} (calm : ∀ id, id ∉ st.waiters)
    (task : id ≠ noTask) (owned : (mtxAt st addr).owner ≠ noTask)
    (other : (mtxAt st addr).owner ≠ id) (fuel : Nat) :
    checkDeadlock st (fuel + 1) id addr noTask = .ok false := by
  cases found : st.mutexes.lookup addr with
  | none =>
      rw [mtxAt, itemAt, found] at owned
      exact absurd rfl owned
  | some mtx =>
      rw [mtxAt, itemAt, found] at owned other
      have quiet : st.waiters.has mtx.owner = false := Tidset.has_eq_false.mpr (calm _)
      have named : (id != noTask) = true := by simpa using task
      have held : (mtx.owner != noTask) = true := by simpa using owned
      have apart : (mtx.owner != id) = true := by simpa using other
      simp only [checkDeadlock, named, check_true, ok_bind, if_neg (Ne.symm task), found, held, apart,
        quiet, Bool.not_false, if_true]

structure Captured (w : World) (cp : CapturePoint) (st' : MutexState) : Prop where
  acquire : cp.typeId = eventMutexAcquire →
    Touches cp.payloadAddr (enqueue cp.id (mtxAt w.st cp.payloadAddr)) w.st st'
  other : cp.typeId ≠ eventMutexAcquire → st' = w.st

theorem mutexSwitch_ok {w : World} (inv : Exclusive w) {cp : CapturePoint} {e : Decision}
    (captures : Captures w cp e) : ∃ e' st', mutexSwitch cp e w.st = .ok (e', st') ∧
      e'.tset = e.tset ∧ e'.reason = e.reason ∧ Captured w cp st' := by
  unfold mutexSwitch
  by_cases acquire : cp.typeId = eventMutexAcquire
  · have fresh : cp.id ∉ (mtxAt w.st cp.payloadAddr).waiters := by
      intro waiting
      obtain ⟨_, p, inside, same, _⟩ := inv.waits _ _ waiting
      exact captures.running p inside same
    obtain ⟨st', handled, touches⟩ := handleAcquire_ok inv.calm fresh
    have filter : (e.anyTaskFilter == none) = true := by simp [captures.unfiltered acquire]
    simp only [if_pos acquire, handled, ok_bind, filter, check_true]
    exact ⟨_, st', rfl, rfl, rfl, fun _ => touches, fun other => absurd acquire other⟩
  · rw [if_neg acquire]
    have same : Captured w cp w.st := ⟨fun is => absurd is acquire, fun _ => rfl⟩
    split
    · exact ⟨_, w.st, rfl, rfl, rfl, same⟩
    · exact ⟨e, w.st, rfl, rfl, rfl, same⟩

section Capture

variable {config : MutexConfig} {w : World} {cp : CapturePoint} {e : Decision} {st' : MutexState}

theorem Captured.mutex (captured : Captured w cp st') (addr : UInt64) :
    (mtxAt st' addr).owner = (mtxAt w.st addr).owner ∧
    (mtxAt st' addr).count = (mtxAt w.st addr).count ∧
    ∀ id, id ∈ (mtxAt st' addr).waiters ↔ id ∈ (mtxAt w.st addr).waiters ∨
      id = cp.id ∧ cp.typeId = eventMutexAcquire ∧ cp.payloadAddr = addr ∧
        (mtxAt w.st addr).owner ≠ cp.id := by
  by_cases acquire : cp.typeId = eventMutexAcquire
  · have touches := captured.acquire acquire
    by_cases here : addr = cp.payloadAddr
    · subst here
      rw [touches.here, enqueue]
      split
      · rename_i own
        exact ⟨rfl, rfl, fun id => by simp [own]⟩
      · rename_i other
        exact ⟨rfl, rfl, fun id => by simp [acquire, other]⟩
    · rw [touches.others addr here]
      exact ⟨rfl, rfl, fun id => by simp [Ne.symm here]⟩
  · rw [captured.other acquire]
    exact ⟨rfl, rfl, fun id => by simp [acquire]⟩

theorem Captured.calm (captured : Captured w cp st') : st'.waiters = w.st.waiters := by
  by_cases acquire : cp.typeId = eventMutexAcquire
  · exact (captured.acquire acquire).calm
  · rw [captured.other acquire]

/-- The task of a capture waits only for a mutex that it is acquiring and another task owns. -/
theorem Captured.self_waits (captured : Captured w cp st') (inv : Exclusive w)
    (captures : Captures w cp e) (waits : st'.shouldWait cp.id = true) :
    cp.typeId = eventMutexAcquire ∧ (mtxAt st' cp.payloadAddr).owner ≠ noTask ∧
      (mtxAt st' cp.payloadAddr).owner ≠ cp.id := by
  obtain ⟨addr, owned, waiting⟩ := shouldWait_iff.mp waits
  obtain ⟨owner, _, waiters⟩ := captured.mutex addr
  rcases (waiters cp.id).mp waiting with old | ⟨_, acquire, rfl, other⟩
  · obtain ⟨_, p, inside, same, _⟩ := inv.waits _ _ old
    exact absurd same (captures.running p inside)
  · exact ⟨acquire, owned, by rw [owner]; exact other⟩

theorem mutexHandle_ok (config : MutexConfig) (inv : Exclusive w) (captures : Captures w cp e) :
    ∃ e' st', mutexHandle config cp e w.st = .ok (e', st') ∧ e'.reason = e.reason ∧
      (∀ id, id ∈ e'.tset ↔ id ∈ e.tset ∧ st'.shouldWait id = false) ∧ Captured w cp st' := by
  obtain ⟨e₁, st', switched, tset, reason, captured⟩ := mutexSwitch_ok inv captures
  obtain ⟨members, waits⟩ := removeWaiters_spec st' cp.id e₁.tset
  have task : (cp.id != noTask) = true := by simpa using captures.task
  have released : checkRelease config cp st' = .ok () := by
    unfold checkRelease
    split
    · rename_i release
      have known : (st'.mutexes.lookup cp.payloadAddr).isSome = true := by
        have own := captures.owner release
        rw [← (captured.mutex cp.payloadAddr).1] at own
        cases found : st'.mutexes.lookup cp.payloadAddr with
        | some mtx => rfl
        | none =>
            rw [mtxAt, itemAt, found] at own
            exact absurd own.symm captures.task
      simp [strictCheckRelease, known]
    · rfl
  have searched : mutexDeadlocked config cp (st'.shouldWait cp.id) st' = .ok false := by
    unfold mutexDeadlocked
    split
    · rename_i search
      obtain ⟨acquire, owned, other⟩ := captured.self_waits inv captures search.2.1
      have calm : ∀ id, id ∉ st'.waiters := by
        rw [captured.calm]
        exact inv.calm
      have event : isMutexEvent cp.typeId = true := by simp [isMutexEvent, acquire]
      simp only [mutexEventAddr, event, check_true, ok_bind]
      exact checkDeadlock_calm calm captures.task owned other _
    · rfl
  refine ⟨{ e₁ with tset := (removeWaiters st'.mutexes cp.id e₁.tset).1 }, st', ?_, reason, ?_,
    captured⟩
  · simp only [mutexHandle, captures.unskipped, Bool.false_eq_true, if_false, task, check_true,
      ok_bind, switched, waits, released, searched]
  · intro id
    rw [← tset]
    exact members id

theorem capture_kept (inv : Exclusive w) (captures : Captures w cp e) :
    ∃ w', move config (.capture cp e) w = .ok w' ∧ Exclusive w' := by
  obtain ⟨e', st', handled, _, members, captured⟩ := mutexHandle_ok config inv captures
  simp only [move, handled, ok_bind]
  refine ⟨_, rfl, ?_, inv.distinct.cons captures.task captures.running, ?_, ?_, ?_, ?_,
    fun id member => ((members id).mp member).2⟩
  · simp only [captured.calm]
    exact inv.calm
  · intro addr
    obtain ⟨nonneg, free, held⟩ := inv.counts addr
    obtain ⟨owner, count, _⟩ := captured.mutex addr
    exact ⟨by rw [count]; exact nonneg, by rw [owner, count]; exact free,
      fun id => by rw [owner, count]; exact held id⟩
  · intro addr id member
    obtain ⟨owner, _, waiters⟩ := captured.mutex addr
    rw [owner]
    rcases (waiters id).mp member with old | ⟨rfl, acquire, rfl, other⟩
    · obtain ⟨notOwner, p, inside, event⟩ := inv.waits addr id old
      exact ⟨notOwner, p, List.mem_cons_of_mem _ inside, event⟩
    · exact ⟨Ne.symm other, cp, List.mem_cons_self, rfl, acquire, rfl⟩
  · intro p member acquire
    obtain ⟨owner, _, waiters⟩ := captured.mutex p.payloadAddr
    rw [owner, waiters]
    rcases List.mem_cons.mp member with rfl | inside
    · by_cases own : (mtxAt w.st p.payloadAddr).owner = p.id
      · exact Or.inl own
      · exact Or.inr (Or.inr ⟨rfl, acquire, rfl, own⟩)
    · rcases inv.acquiring p inside acquire with own | waiting
      · exact Or.inl own
      · exact Or.inr (Or.inl waiting)
  · intro p member release
    rw [(captured.mutex p.payloadAddr).1]
    rcases List.mem_cons.mp member with rfl | inside
    · exact captures.owner release
    · exact inv.releasing p inside release

end Capture

theorem exclusive_kept (config : MutexConfig) : Kept (system config) Exclusive where
  start := exclusive_start config
  step := by
    intro w m inv allowed
    cases m with
    | capture cp e => exact capture_kept inv allowed
    | resume cp => exact resume_kept inv allowed

/-- Mutual exclusion in every reachable state of the mutex handler: no allowed step fails a check,
a mutex counts the acquisitions of its one owner, a task waits only for the mutex that it is
acquiring, and the task set loses exactly the tasks that should wait. -/
theorem mutex_exclusion (config : MutexConfig) (w : World) (reached : Reachable (system config) w) :
    (∀ m, Allowed w m → ∃ w', move config m w = .ok w') ∧
    (∀ addr mtx, w.st.mutexes.lookup addr = some mtx →
      (mtx.owner = noTask ↔ mtx.count = 0) ∧ balance w.log mtx.owner addr = mtx.count ∧
      ∀ id, id ≠ mtx.owner → balance w.log id addr = 0) ∧
    (∀ addr, w.st.mutexes.lookup addr = none → ∀ id, balance w.log id addr = 0) ∧
    (∀ addr mtx, w.st.mutexes.lookup addr = some mtx → ∀ id ∈ mtx.waiters,
      (∃ p ∈ w.pending, p.id = id ∧ p.typeId = eventMutexAcquire ∧ p.payloadAddr = addr) ∧
      ∀ other mtx', w.st.mutexes.lookup other = some mtx' → id ∈ mtx'.waiters → other = addr) ∧
    (∀ tset self id, id ∈ (removeWaiters w.st.mutexes self tset).1 ↔
      id ∈ tset ∧ w.st.shouldWait id = false) := by
  have inv := (exclusive_kept config).reachable reached
  have here : ∀ addr mtx, w.st.mutexes.lookup addr = some mtx → mtxAt w.st addr = mtx := by
    intro addr mtx found
    rw [mtxAt, itemAt, found]
    rfl
  refine ⟨fun m allowed => (exclusive_kept config).steps reached allowed, ?_, ?_, ?_,
    fun tset self => (removeWaiters_spec w.st self tset).1⟩
  · intro addr mtx found
    obtain ⟨_, free, held⟩ := here addr mtx found ▸ inv.counts addr
    exact ⟨free, by simp [held], fun id other => by simp [held, other]⟩
  · intro addr unknown id
    have held := (inv.counts addr).held id
    simpa [mtxAt, itemAt, unknown, mtxInit] using held
  · intro addr mtx found id member
    obtain ⟨_, p, inside, rfl, event⟩ := inv.waits addr id (here addr mtx found ▸ member)
    refine ⟨⟨p, inside, rfl, event⟩, ?_⟩
    intro other mtx' found' member'
    have elsewhere := inv.waits_here inside (here other mtx' found' ▸ member')
    rw [← elsewhere.2]
    exact event.2

instance (w : World) (cp : CapturePoint) (e : Decision) : Decidable (Captures w cp e) :=
  decidable_of_iff (cp.id ≠ noTask ∧ (∀ p ∈ w.pending, p.id ≠ cp.id) ∧ e.skip = false ∧
      (cp.typeId = eventMutexAcquire → e.anyTaskFilter = none) ∧
      (cp.typeId = eventMutexRelease → (mtxAt w.st cp.payloadAddr).owner = cp.id))
    ⟨fun ⟨a, b, c, d, e⟩ => ⟨a, b, c, d, e⟩, fun ⟨a, b, c, d, e⟩ => ⟨a, b, c, d, e⟩⟩

instance (w : World) (cp : CapturePoint) : Decidable (ResumesFrom w cp) :=
  decidable_of_iff (cp ∈ w.pending ∧ (cp.id ∈ w.tset ∨ w.st.shouldWait cp.id = false))
    ⟨fun ⟨a, b⟩ => ⟨a, b⟩, fun ⟨a, b⟩ => ⟨a, b⟩⟩

instance (config : MutexConfig) (w : World) (m : Move) : Decidable ((system config).allowed w m) :=
  match m with
  | .capture cp e => inferInstanceAs (Decidable (Captures w cp e))
  | .resume cp => inferInstanceAs (Decidable (ResumesFrom w cp))

def captureOf (cp : CapturePoint) : Move := .capture cp (plainDecision bothTasks)

def contended : List Move :=
  [captureOf (plainPoint 1 eventMutexAcquire 16), .resume (plainPoint 1 eventMutexAcquire 16),
    captureOf (plainPoint 2 eventMutexAcquire 16), captureOf (plainPoint 1 eventMutexTryacquire 16),
    .resume (plainPoint 1 eventMutexTryacquire 16)]

theorem mutex_exclusion_contended :
    ∃ w, Reachable (system ⟨true, true⟩) w ∧ balance w.log 1 16 = 2 ∧ balance w.log 2 16 = 0 ∧
      2 ∉ (removeWaiters w.st.mutexes 1 bothTasks).1 := by
  have legal : Legal (system ⟨true, true⟩) contended (system ⟨true, true⟩).start := by decide
  have seen : (run (system ⟨true, true⟩) contended (system ⟨true, true⟩).start).map (fun w =>
      ((w.st.mutexes.lookup 16).map fun mtx => (mtx.owner, mtx.count), w.st.shouldWait 2)) =
        .ok (some (1, 2), true) := by decide
  obtain ⟨w, ran⟩ := legal.runs
  rw [ran] at seen
  obtain ⟨found, waits⟩ := Prod.mk.inj (Except.ok.inj seen)
  obtain ⟨mtx, there, fields⟩ := Option.map_eq_some_iff.mp found
  obtain ⟨owner, count⟩ := Prod.mk.inj fields
  have reached := legal.reachable Reachable.start ran
  obtain ⟨_, counts, _, _, filter⟩ := mutex_exclusion ⟨true, true⟩ w reached
  obtain ⟨_, held, others⟩ := counts 16 mtx there
  refine ⟨w, reached, ?_, others 2 (by rw [owner]; decide), ?_⟩
  · rw [← owner, held, count]
  · intro member
    have free := ((filter bothTasks 1 2).mp member).2
    rw [waits] at free
    cases free

end Lotto.MutexRun
