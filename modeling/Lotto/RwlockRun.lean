import Lotto.Library.GuardedRun
import Lotto.RwlockSpecs

namespace Lotto.RwlockRun

open Library.FaultRun Library.GuardedRun Library.KeyMap MutexSpecs RwlockSpecs

def lockAt (locks : RwlockState) (addr : UInt64) : Rwlock := itemAt rwlockNew locks addr

def Excludes (lock : Rwlock) : Prop := lock.readers.entries = [] ∨ lock.writer = noTask

section Filter

variable {lock : Rwlock} {locks : RwlockState} {id : TaskId}

theorem Excludes.isReadLocked_ok (excludes : Excludes lock) :
    isReadLocked lock = .ok (decide (0 < lock.readers.entries.length)) := by
  have exclusive : (lock.readers.entries.length == 0 || lock.writer == noTask) = true := by
    rcases excludes with none | free
    · simp [none]
    · simp [free]
  simp [isReadLocked, exclusive]

def blocks (lock : Rwlock) (id : TaskId) : Bool :=
  if isWriteLocked lock then lock.writeWaiters.has id || lock.readWaiters.has id
  else if 0 < lock.readers.entries.length then lock.writeWaiters.has id
  else 0 < lock.writeWaiters.size && lock.readWaiters.has id

theorem waitsForLock_eq (excludes : Excludes lock) : waitsForLock id lock = .ok (blocks lock id) := by
  unfold waitsForLock blocks
  cases isWriteLocked lock with
  | true => rfl
  | false =>
      simp only [Bool.false_eq_true, if_false, excludes.isReadLocked_ok, ok_bind, decide_eq_true_eq]
      split <;> rfl

theorem subtractWaiters_ok (excludes : Excludes lock) (tset : Tidset) :
    ∃ rest, subtractWaiters tset lock = .ok rest ∧
      ∀ id, id ∈ rest ↔ id ∈ tset ∧ blocks lock id = false := by
  unfold subtractWaiters blocks
  simp only [excludes.isReadLocked_ok, ok_bind, decide_eq_true_eq]
  by_cases readLocked : 0 < lock.readers.entries.length
  · -- the two functions test the writer and the readers in different orders
    have free : isWriteLocked lock = false := by
      rcases excludes with none | free
      · simp [none] at readLocked
      · simp [isWriteLocked, free]
    exact ⟨_, if_pos readLocked, fun id => by simp [readLocked, free]⟩
  · rw [if_neg readLocked]
    cases written : isWriteLocked lock with
    | true =>
        refine ⟨_, rfl, fun id => ?_⟩
        simp [and_assoc, and_comm]
    | false =>
        by_cases waited : lock.writeWaiters.size = 0
        · exact ⟨tset, by simp [waited], fun id => by simp [readLocked, waited]⟩
        · have some : 0 < lock.writeWaiters.size := Nat.pos_of_ne_zero waited
          exact ⟨tset.subtract lock.readWaiters, by simp [waited], fun id => by simp [readLocked, some]⟩

theorem filter_spec (excludes : ∀ addr, Excludes (lockAt locks addr)) (tset : Tidset) :
    ∃ rest, (locks.entries.map Sigma.snd).foldlM subtractWaiters tset = .ok rest ∧
      (∀ id, ∃ wait, shouldWaitRwlock locks id = .ok wait ∧
        (id ∈ rest ↔ id ∈ tset ∧ wait = false) ∧
        (wait = false → ∀ addr, blocks (lockAt locks addr) id = false)) := by
  have every : ∀ lock ∈ locks.entries.map Sigma.snd, Excludes lock := by
    intro lock member
    obtain ⟨⟨addr, item⟩, inside, rfl⟩ := List.mem_map.mp member
    have found : locks.lookup addr = some item := AList.mem_lookup_iff.mpr inside
    have good := excludes addr
    rw [lockAt, itemAt, found] at good
    exact good
  have general : ∀ (items : List Rwlock) (tset : Tidset), (∀ lock ∈ items, Excludes lock) →
      ∃ rest, items.foldlM subtractWaiters tset = .ok rest ∧ ∀ id,
        items.anyM (waitsForLock id) = .ok (items.any fun lock => blocks lock id) ∧
        (id ∈ rest ↔ id ∈ tset ∧ (items.any fun lock => blocks lock id) = false) := by
    intro items
    induction items with
    | nil =>
        intro tset _
        exact ⟨tset, rfl, fun id => ⟨rfl, by simp⟩⟩
    | cons lock items ih =>
        intro tset good
        have here := good lock List.mem_cons_self
        obtain ⟨mid, subtracted, members⟩ := subtractWaiters_ok here tset
        obtain ⟨rest, done, tail⟩ := ih mid (fun later member => good later (List.mem_cons_of_mem _ member))
        refine ⟨rest, by rw [List.foldlM_cons, subtracted, ok_bind, done], fun id => ?_⟩
        obtain ⟨waits, filtered⟩ := tail id
        constructor
        · rw [List.anyM_cons, waitsForLock_eq here, ok_bind, List.any_cons]
          cases blocks lock id with
          | true => rfl
          | false => simpa using waits
        · rw [filtered, members, List.any_cons, Bool.or_eq_false_iff, and_assoc]
  obtain ⟨rest, done, tail⟩ := general _ tset every
  refine ⟨rest, done, fun id => ⟨_, (tail id).1, (tail id).2, ?_⟩⟩
  intro free addr
  cases found : locks.lookup addr with
  | none =>
      rw [lockAt, itemAt, found]
      rfl
  | some lock =>
      have member : lock ∈ locks.entries.map Sigma.snd :=
        List.mem_map.mpr ⟨⟨addr, lock⟩, AList.mem_lookup_iff.mp found, rfl⟩
      rw [lockAt, itemAt, found]
      exact Bool.not_eq_true _ |>.mp fun blocked =>
        Bool.false_ne_true (free.symm.trans (List.any_eq_true.mpr ⟨lock, member, blocked⟩))

end Filter

inductive Access where
  | readLocked | readUnlocked | writeLocked | writeUnlocked
  deriving DecidableEq, Repr

abbrev Log := List (TaskId × UInt64 × Access)

/-- How often the task did the one thing to the lock more than the other. -/
def balance (log : Log) (id : TaskId) (addr : UInt64) (gain loss : Access) : Int :=
  log.count (id, addr, gain) - log.count (id, addr, loss)

def reading (log : Log) (id : TaskId) (addr : UInt64) : Int :=
  balance log id addr .readLocked .readUnlocked

def writing (log : Log) (id : TaskId) (addr : UInt64) : Int :=
  balance log id addr .writeLocked .writeUnlocked

theorem balance_append (log : Log) (id other : TaskId) (addr a : UInt64)
    (access gain loss : Access) : balance (log ++ [(id, addr, access)]) other a gain loss =
      balance log other a gain loss + if other = id ∧ a = addr then
        (if access = gain then 1 else 0) - (if access = loss then 1 else 0) else 0 := by
  have one : ∀ kind, (([(id, addr, access)].count (other, a, kind) : Nat) : Int) =
      if other = id ∧ a = addr then (if access = kind then 1 else 0) else 0 := by
    intro kind
    rw [List.count_singleton]
    by_cases same : other = id ∧ a = addr
    · obtain ⟨rfl, rfl⟩ := same
      by_cases equal : access = kind <;> simp [equal]
    · have apart : ((id, addr, access) == (other, a, kind)) = false := by
        rw [beq_eq_false_iff_ne]
        intro equal
        simp only [Prod.mk.injEq] at equal
        exact same ⟨equal.1.symm, equal.2.1.symm⟩
      simp [apart, same]
  simp only [balance, List.count_append, Int.natCast_add, one]
  split <;> omega

/-- The handler between two steps: the tasks suspended at a capture, the task set as filtered by
the last capture, what was locked and unlocked so far, and whether a capture reported a
deadlock. -/
structure World where
  locks : RwlockState
  pending : List CapturePoint
  tset : Tidset
  log : Log
  flagged : Bool

inductive Move where
  | capture (cp : CapturePoint) (e : Decision)
  | resume (cp : CapturePoint)

def accessIf (result : Except Fault (Nat × RwlockState)) (access : Access) : Option Access :=
  match result with
  | .ok (0, _) => some access
  | _ => none

/-- What the resume of an event means to its task: a lock request returns with the lock, a try-lock
only if it succeeded, and an unlock gives back what the task holds. -/
def accessOf (event : Option RwlockEvent) (cp : CapturePoint) (locks : RwlockState) : Option Access :=
  match event with
  | some .rdlock | some .timedrdlock => some .readLocked
  | some .wrlock | some .timedwrlock => some .writeLocked
  | some .tryrdlock => accessIf (posthandleTryrdlock cp.id cp.payloadAddr locks) .readLocked
  | some .trywrlock => accessIf (posthandleTrywrlock cp.id cp.payloadAddr locks) .writeLocked
  | some .unlock =>
      some (if (lockAt locks cp.payloadAddr).writer = cp.id then .writeUnlocked else .readUnlocked)
  | none => none

def move (event : TypeId → Option RwlockEvent) : Move → World → Except Fault World
  | .capture cp e, w => do
      let (e, locks) ← rwlockHandle event cp e w.locks
      .ok { w with locks, pending := cp :: w.pending, tset := e.tset
                   flagged := e.reason == .rsrcDeadlock }
  | .resume cp, w => do
      let locks ← rwlockResume event cp w.locks
      .ok { w with locks, pending := without w.pending cp.id, tset := .empty
                   log := w.log ++ (accessOf (event cp.typeId) cp w.locks).toList.map fun access =>
                     (cp.id, cp.payloadAddr, access) }

/-- The task holds the lock as its writer or as one of its readers. -/
def Holds (lock : Rwlock) (id : TaskId) : Prop :=
  lock.writer = id ∨ (lock.readers.lookup id).isSome = true

instance (lock : Rwlock) (id : TaskId) : Decidable (Holds lock id) :=
  inferInstanceAs (Decidable (_ ∨ _))

variable {event : TypeId → Option RwlockEvent}

/-- A capture by a task that is not suspended, of an unlock only if it holds the lock, as long as
no deadlock was reported. -/
structure Captures (event : TypeId → Option RwlockEvent) (w : World) (cp : CapturePoint)
    (e : Decision) : Prop where
  running : ∀ p ∈ w.pending, p.id ≠ cp.id
  goesOn : w.flagged = false
  task : cp.id ≠ noTask
  unskipped : e.skip = false
  unfiltered : isRead (event cp.typeId) = true ∨ isWrite (event cp.typeId) = true →
    e.anyTaskFilter = none
  holder : event cp.typeId = some .unlock → Holds (lockAt w.locks cp.payloadAddr) cp.id

structure ResumesFrom (w : World) (cp : CapturePoint) : Prop where
  pending : cp ∈ w.pending
  goesOn : w.flagged = false
  admitted : cp.id ∈ w.tset ∨ shouldWaitRwlock w.locks cp.id = .ok false

def Allowed (event : TypeId → Option RwlockEvent) (w : World) : Move → Prop
  | .capture cp e => Captures event w cp e
  | .resume cp => ResumesFrom w cp

def system (event : TypeId → Option RwlockEvent) : Guarded World Move Fault where
  start := { locks := ∅, pending := [], tset := .empty, log := [], flagged := false }
  step := move event
  allowed := Allowed event

structure Counts (log : Log) (addr : UInt64) (lock : Rwlock) : Prop where
  excludes : Excludes lock
  readers : ∀ id, reading log id addr = (lock.readers.lookup id).getD 0
  positive : ∀ id cnt, lock.readers.lookup id = some cnt → 0 < cnt
  writer : ∀ id, id ≠ noTask → writing log id addr = if lock.writer = id then 1 else 0

structure Exclusive (event : TypeId → Option RwlockEvent) (w : World) : Prop where
  distinct : Distinct w.pending
  counts : ∀ addr, Counts w.log addr (lockAt w.locks addr)
  reads : ∀ addr, ∀ id ∈ (lockAt w.locks addr).readWaiters, Suspended event isRead w.pending addr id
  writes : ∀ addr, ∀ id ∈ (lockAt w.locks addr).writeWaiters, Suspended event isWrite w.pending addr id
  readEntered : w.flagged = false → ∀ p ∈ w.pending, isRead (event p.typeId) = true →
    p.id ∈ (lockAt w.locks p.payloadAddr).readWaiters
  writeEntered : w.flagged = false → ∀ p ∈ w.pending, isWrite (event p.typeId) = true →
    p.id ∈ (lockAt w.locks p.payloadAddr).writeWaiters
  unlocking : ∀ p ∈ w.pending, event p.typeId = some .unlock →
    Holds (lockAt w.locks p.payloadAddr) p.id
  filtered : ∀ id ∈ w.tset, ∀ addr, blocks (lockAt w.locks addr) id = false

theorem counts_new (addr : UInt64) : Counts [] addr rwlockNew where
  excludes := Or.inl rfl
  readers := fun _ => rfl
  positive := fun id cnt found => by simp [rwlockNew] at found
  writer := fun id task => (if_neg (Ne.symm task)).symm

theorem exclusive_start (event : TypeId → Option RwlockEvent) :
    Exclusive event (system event).start where
  distinct := distinct_nil
  counts := counts_new
  reads := fun _ id member => absurd member (Tidset.not_mem_empty id)
  writes := fun _ id member => absurd member (Tidset.not_mem_empty id)
  readEntered := by simp [system]
  writeEntered := by simp [system]
  unlocking := by simp [system]
  filtered := fun id member => absurd member (Tidset.not_mem_empty id)

structure Serves (id : TaskId) (lock lock' : Rwlock) : Prop where
  reads : ∀ a, a ∈ lock'.readWaiters ↔ a ∈ lock.readWaiters ∧ a ≠ id
  writes : ∀ a, a ∈ lock'.writeWaiters ↔ a ∈ lock.writeWaiters ∧ a ≠ id
  holds : ∀ a, a ≠ id → a ≠ noTask → Holds lock a → Holds lock' a

theorem Exclusive.resumed {w : World} (inv : Exclusive event w) {cp : CapturePoint}
    {locks' : RwlockState} {lock' : Rwlock} {log' : Log} (pending : cp ∈ w.pending)
    (goesOn : w.flagged = false) (puts : Puts rwlockNew cp.payloadAddr lock' w.locks locks')
    (counts : Counts log' cp.payloadAddr lock')
    (apart : ∀ id a, a ≠ cp.payloadAddr → reading log' id a = reading w.log id a ∧
      writing log' id a = writing w.log id a)
    (serves : Serves cp.id (lockAt w.locks cp.payloadAddr) lock') :
    Exclusive event { w with locks := locks', pending := without w.pending cp.id, tset := .empty
                             log := log' } := by
  have here : lockAt locks' cp.payloadAddr = lock' := (puts _).trans (if_pos rfl)
  have others : ∀ a, a ≠ cp.payloadAddr → lockAt locks' a = lockAt w.locks a :=
    fun a other => (puts a).trans (if_neg other)
  have still : ∀ p ∈ without w.pending cp.id, p ∈ w.pending ∧ p.id ≠ cp.id :=
    fun p member => mem_without.mp member
  refine ⟨inv.distinct.without cp.id, ?_, ?_, ?_, ?_, ?_, ?_,
    fun id member => absurd member (Tidset.not_mem_empty id)⟩
  · intro addr
    by_cases at_ : addr = cp.payloadAddr
    · rw [at_, here]
      exact counts
    · obtain ⟨excludes, readers, positive, writer⟩ := inv.counts addr
      rw [others addr at_]
      exact ⟨excludes, fun id => by rw [(apart id addr at_).1]; exact readers id, positive,
        fun id task => by rw [(apart id addr at_).2]; exact writer id task⟩
  · intro addr id member
    by_cases at_ : addr = cp.payloadAddr
    · rw [at_, here] at member
      obtain ⟨old, away⟩ := (serves.reads id).mp member
      rw [at_]
      exact (inv.reads _ id old).without away
    · rw [others addr at_] at member
      have suspended := inv.reads addr id member
      refine suspended.without ?_
      rintro rfl
      exact at_ (suspended.here inv.distinct pending).2.symm
  · intro addr id member
    by_cases at_ : addr = cp.payloadAddr
    · rw [at_, here] at member
      obtain ⟨old, away⟩ := (serves.writes id).mp member
      rw [at_]
      exact (inv.writes _ id old).without away
    · rw [others addr at_] at member
      have suspended := inv.writes addr id member
      refine suspended.without ?_
      rintro rfl
      exact at_ (suspended.here inv.distinct pending).2.symm
  · intro _ p member read
    obtain ⟨inside, away⟩ := still p member
    have before := inv.readEntered goesOn p inside read
    by_cases at_ : p.payloadAddr = cp.payloadAddr
    · rw [at_] at before ⊢
      rw [here]
      exact (serves.reads p.id).mpr ⟨before, away⟩
    · rw [others _ at_]
      exact before
  · intro _ p member write
    obtain ⟨inside, away⟩ := still p member
    have before := inv.writeEntered goesOn p inside write
    by_cases at_ : p.payloadAddr = cp.payloadAddr
    · rw [at_] at before ⊢
      rw [here]
      exact (serves.writes p.id).mpr ⟨before, away⟩
    · rw [others _ at_]
      exact before
  · intro p member unlock
    obtain ⟨inside, away⟩ := still p member
    have before := inv.unlocking p inside unlock
    by_cases at_ : p.payloadAddr = cp.payloadAddr
    · rw [at_] at before ⊢
      rw [here]
      exact serves.holds p.id away (inv.distinct.tasks p inside) before
    · rw [others _ at_]
      exact before

theorem Exclusive.admitted {w : World} (inv : Exclusive event w) {cp : CapturePoint}
    (resumes : ResumesFrom w cp) (addr : UInt64) : blocks (lockAt w.locks addr) cp.id = false := by
  rcases resumes.admitted with member | free
  · exact inv.filtered cp.id member addr
  · obtain ⟨_, _, each⟩ := filter_spec (fun addr => (inv.counts addr).excludes) .empty
    obtain ⟨wait, waits, _, clear⟩ := each cp.id
    rw [free] at waits
    cases waits
    exact clear rfl addr

theorem Exclusive.not_waiting {w : World} (inv : Exclusive event w) {cp : CapturePoint}
    (pending : cp ∈ w.pending) (addr : UInt64) :
    (isRead (event cp.typeId) = false → cp.id ∉ (lockAt w.locks addr).readWaiters) ∧
    (isWrite (event cp.typeId) = false → cp.id ∉ (lockAt w.locks addr).writeWaiters) := by
  constructor
  · intro other member
    have read := ((inv.reads addr cp.id member).here inv.distinct pending).1
    rw [other] at read
    cases read
  · intro other member
    have write := ((inv.writes addr cp.id member).here inv.distinct pending).1
    rw [other] at write
    cases write

section Effects

variable {locks : RwlockState} {id : TaskId} {addr : UInt64}

theorem rwlockInit_spec (addr : UInt64) (locks : RwlockState) : ∃ locks₁,
    rwlockInit addr locks = (lockAt locks addr, locks₁) ∧
    Puts rwlockNew addr (lockAt locks addr) locks locks₁ ∧
    ∀ lock', Puts rwlockNew addr lock' locks (locks₁.replace addr lock') :=
  findOrInit_puts rwlockNew addr locks

theorem addReader_lookup (id : TaskId) (lock : Rwlock) (a : TaskId) :
    (addReader id lock).readers.lookup a =
      if a = id then some ((lock.readers.lookup id).getD 0 + 1) else lock.readers.lookup a := by
  cases found : lock.readers.lookup id with
  | none =>
      simp only [addReader, found, Option.getD_none]
      by_cases same : a = id
      · subst same
        rw [if_pos rfl, AList.lookup_insert]
        rfl
      · rw [if_neg same, AList.lookup_insert_ne same]
  | some cnt =>
      have known : id ∈ lock.readers := AList.lookup_isSome.mp (by simp [found])
      simp only [addReader, found, Option.getD_some, lookup_replace known]

theorem addReader_frame (id : TaskId) (lock : Rwlock) :
    (addReader id lock).writer = lock.writer ∧
    (addReader id lock).readWaiters = lock.readWaiters ∧
    (addReader id lock).writeWaiters = lock.writeWaiters := by
  unfold addReader
  split <;> exact ⟨rfl, rfl, rfl⟩

theorem posthandleRdlock_ok (task : id ≠ noTask) (free : (lockAt locks addr).writer = noTask)
    (waits : id ∈ (lockAt locks addr).readWaiters) :
    ∃ locks', posthandleRdlock id addr locks = .ok locks' ∧
      Puts rwlockNew addr (addReader id { lockAt locks addr with
        readWaiters := (lockAt locks addr).readWaiters.remove id }) locks locks' := by
  obtain ⟨locks₁, init, _, puts⟩ := rwlockInit_spec addr locks
  have unlocked : isWriteLocked (lockAt locks addr) = false := by simp [isWriteLocked, free]
  have inside : (lockAt locks addr).readWaiters.has id = true := Tidset.has_eq_true.mpr waits
  have named : (id != noTask) = true := by simpa using task
  simp only [posthandleRdlock, init, unlocked, inside, named, Bool.not_false, Bool.not_true,
    check_true, ok_bind, Bool.false_eq_true, if_false]
  exact ⟨_, rfl, puts _⟩

theorem posthandleWrlock_ok (free : (lockAt locks addr).writer = noTask)
    (none : (lockAt locks addr).readers.entries = [])
    (waits : id ∈ (lockAt locks addr).writeWaiters) :
    ∃ locks', posthandleWrlock id addr locks = .ok locks' ∧
      Puts rwlockNew addr { lockAt locks addr with
        writeWaiters := (lockAt locks addr).writeWaiters.remove id, writer := id } locks locks' := by
  obtain ⟨locks₁, init, _, puts⟩ := rwlockInit_spec addr locks
  have inside : (lockAt locks addr).writeWaiters.has id = true := Tidset.has_eq_true.mpr waits
  have unread : isReadLocked (lockAt locks addr) = .ok false := by
    rw [Excludes.isReadLocked_ok (Or.inl none), none]
    rfl
  simp only [posthandleWrlock, init, unread, free, inside, ok_bind, Bool.not_false, Bool.not_true,
    check_true, beq_self_eq_true, Bool.false_eq_true, if_false]
  exact ⟨_, rfl, puts _⟩

theorem posthandleTryrdlock_ok (addr : UInt64) (locks : RwlockState) (task : id ≠ noTask) :
    ∃ ret locks', posthandleTryrdlock id addr locks = .ok (ret, locks') ∧
      (ret = 0 ∧ (lockAt locks addr).writer = noTask ∧
          Puts rwlockNew addr (addReader id (lockAt locks addr)) locks locks' ∨
        ret ≠ 0 ∧ Puts rwlockNew addr (lockAt locks addr) locks locks') := by
  obtain ⟨locks₁, init, same, puts⟩ := rwlockInit_spec addr locks
  have named : (id != noTask) = true := by simpa using task
  simp only [posthandleTryrdlock, init]
  by_cases locked : isWriteLocked (lockAt locks addr) = true
  · refine ⟨_, _, if_pos locked, Or.inr ⟨?_, same⟩⟩
    split <;> simp [eDeadlk, eBusy]
  · rw [if_neg locked]
    have free : (lockAt locks addr).writer = noTask := by simpa [isWriteLocked] using locked
    by_cases waited : 0 < (lockAt locks addr).writeWaiters.size
    · exact ⟨_, _, if_pos waited, Or.inr ⟨by decide, same⟩⟩
    · rw [if_neg waited, named, check_true, ok_bind]
      exact ⟨0, _, rfl, Or.inl ⟨rfl, free, puts _⟩⟩

theorem posthandleTrywrlock_ok (id : TaskId) (excludes : Excludes (lockAt locks addr)) :
    ∃ ret locks', posthandleTrywrlock id addr locks = .ok (ret, locks') ∧
      (ret = 0 ∧ (lockAt locks addr).writer = noTask ∧ (lockAt locks addr).readers.entries = [] ∧
          Puts rwlockNew addr { lockAt locks addr with writer := id } locks locks' ∨
        ret ≠ 0 ∧ Puts rwlockNew addr (lockAt locks addr) locks locks') := by
  obtain ⟨locks₁, init, same, puts⟩ := rwlockInit_spec addr locks
  simp only [posthandleTrywrlock, init]
  by_cases own : (lockAt locks addr).writer = id
  · exact ⟨_, _, if_pos own, Or.inr ⟨by decide, same⟩⟩
  · rw [if_neg own, excludes.isReadLocked_ok, ok_bind]
    by_cases busy : (decide (0 < (lockAt locks addr).readers.entries.length) ||
        isWriteLocked (lockAt locks addr)) = true
    · exact ⟨_, _, if_pos busy, Or.inr ⟨by decide, same⟩⟩
    · rw [if_neg busy]
      obtain ⟨none, free⟩ : (lockAt locks addr).readers.entries = [] ∧
          (lockAt locks addr).writer = noTask := by
        simpa [isWriteLocked, List.length_eq_zero_iff] using busy
      exact ⟨0, _, rfl, Or.inl ⟨rfl, free, none, puts _⟩⟩

def dropReader (id : TaskId) (cnt : Int) (lock : Rwlock) : Rwlock :=
  { lock with readers := if cnt - 1 = 0 then lock.readers.erase id else lock.readers.replace id (cnt - 1) }

theorem dropReader_lookup {cnt : Int} {lock : Rwlock} (found : lock.readers.lookup id = some cnt)
    (a : TaskId) : (dropReader id cnt lock).readers.lookup a =
      if a = id then (if cnt - 1 = 0 then none else some (cnt - 1)) else lock.readers.lookup a := by
  have known : id ∈ lock.readers := AList.lookup_isSome.mp (by simp [found])
  unfold dropReader
  by_cases last : cnt - 1 = 0
  · simp only [if_pos last]
    by_cases same : a = id
    · subst same
      rw [if_pos rfl, AList.lookup_erase]
    · rw [if_neg same, AList.lookup_erase_ne same]
  · simp only [if_neg last, lookup_replace known]

theorem posthandleUnlock_writer (writer : (lockAt locks addr).writer = id) (task : id ≠ noTask) :
    ∃ locks', posthandleUnlock id addr locks = .ok locks' ∧
      Puts rwlockNew addr { lockAt locks addr with writer := noTask } locks locks' := by
  obtain ⟨locks₁, init, _, puts⟩ := rwlockInit_spec addr locks
  have locked : (lockAt locks addr).writer ≠ noTask := by
    rw [writer]
    exact task
  have own : ((lockAt locks addr).writer == id) = true := beq_iff_eq.mpr writer
  simp only [posthandleUnlock, init, if_pos locked, own, check_true, ok_bind]
  exact ⟨_, rfl, puts _⟩

theorem posthandleUnlock_reader {cnt : Int} (free : (lockAt locks addr).writer = noTask)
    (task : id ≠ noTask) (found : (lockAt locks addr).readers.lookup id = some cnt) (held : 0 < cnt) :
    ∃ locks', posthandleUnlock id addr locks = .ok locks' ∧
      Puts rwlockNew addr (dropReader id cnt (lockAt locks addr)) locks locks' := by
  obtain ⟨locks₁, init, _, puts⟩ := rwlockInit_spec addr locks
  have named : (id != noTask) = true := by simpa using task
  have nonneg : decide (0 ≤ cnt) = true := by simpa using Int.le_of_lt held
  have unlocked : ¬ (lockAt locks addr).writer ≠ noTask := by simp [free]
  simp only [posthandleUnlock, init, if_neg unlocked, named, found, nonneg, check_true, ok_bind]
  exact ⟨_, rfl, puts _⟩

end Effects

section Resume

variable {w : World} {cp : CapturePoint} {log : Log} {lock lock' : Rwlock} {id : TaskId} {addr : UInt64}

theorem reading_append (log : Log) (id other : TaskId) (addr a : UInt64) (access : Access) :
    reading (log ++ [(id, addr, access)]) other a = reading log other a +
      if other = id ∧ a = addr then
        (if access = .readLocked then 1 else 0) - (if access = .readUnlocked then 1 else 0)
      else 0 :=
  balance_append log id other addr a access _ _

theorem writing_append (log : Log) (id other : TaskId) (addr a : UInt64) (access : Access) :
    writing (log ++ [(id, addr, access)]) other a = writing log other a +
      if other = id ∧ a = addr then
        (if access = .writeLocked then 1 else 0) - (if access = .writeUnlocked then 1 else 0)
      else 0 :=
  balance_append log id other addr a access _ _

theorem apart_append (log : Log) (id : TaskId) (addr : UInt64) (access : Access) (other : TaskId)
    (a : UInt64) (away : a ≠ addr) :
    reading (log ++ [(id, addr, access)]) other a = reading log other a ∧
      writing (log ++ [(id, addr, access)]) other a = writing log other a := by
  simp [reading_append, writing_append, away]

theorem Counts.read (counts : Counts log addr lock) (free : lock'.writer = noTask)
    (before : lock.writer = noTask)
    (readers : ∀ a, lock'.readers.lookup a =
      if a = id then some ((lock.readers.lookup id).getD 0 + 1) else lock.readers.lookup a) :
    Counts (log ++ [(id, addr, .readLocked)]) addr lock' where
  excludes := Or.inr free
  readers := by
    intro a
    rw [reading_append, counts.readers a, readers a]
    by_cases same : a = id
    · subst same
      simp
    · simp [same]
  positive := by
    intro a cnt found
    rw [readers a] at found
    by_cases same : a = id
    · rw [if_pos same] at found
      cases found
      cases old : lock.readers.lookup id with
      | none => decide
      | some cnt =>
          have held := counts.positive id cnt old
          simp only [Option.getD_some]
          omega
    · rw [if_neg same] at found
      exact counts.positive a cnt found
  writer := by
    intro a task
    rw [writing_append, counts.writer a task, before, free]
    simp

theorem Counts.write (counts : Counts log addr lock)
    (before : lock.writer = noTask) (none : lock.readers.entries = [])
    (writer : lock'.writer = id) (readers : lock'.readers = lock.readers) :
    Counts (log ++ [(id, addr, .writeLocked)]) addr lock' where
  excludes := Or.inl (by rw [readers]; exact none)
  readers := by
    intro a
    rw [reading_append, counts.readers a, readers]
    simp
  positive := by
    rw [readers]
    exact counts.positive
  writer := by
    intro a other
    rw [writing_append, counts.writer a other, before, writer, if_neg (Ne.symm other)]
    by_cases same : a = id
    · simp [same]
    · simp [same, Ne.symm same]

theorem Counts.unwrite (counts : Counts log addr lock) (writer : lock.writer = id) :
    Counts (log ++ [(id, addr, .writeUnlocked)]) addr { lock with writer := noTask } where
  excludes := Or.inr rfl
  readers := by
    intro a
    simp [reading_append, counts.readers a]
  positive := counts.positive
  writer := by
    intro a other
    rw [writing_append, counts.writer a other, writer, if_neg (Ne.symm other)]
    by_cases same : a = id
    · simp [same]
    · simp [same, Ne.symm same]

theorem Counts.unread (counts : Counts log addr lock) (free : lock.writer = noTask) {cnt : Int}
    (found : lock.readers.lookup id = some cnt) :
    Counts (log ++ [(id, addr, .readUnlocked)]) addr (dropReader id cnt lock) where
  excludes := Or.inr free
  readers := by
    intro a
    rw [reading_append, counts.readers a, dropReader_lookup found a]
    by_cases same : a = id
    · subst same
      by_cases last : cnt - 1 = 0
      · simp only [found, last, and_self, if_true, Option.getD_some, Option.getD_none]
        simp
        omega
      · simp only [found, last, and_self, if_true, if_false, Option.getD_some]
        simp
        omega
    · simp [same]
  positive := by
    intro a count there
    have held := counts.positive id cnt found
    rw [dropReader_lookup found a] at there
    by_cases same : a = id
    · rw [if_pos same] at there
      by_cases last : cnt - 1 = 0
      · simp [last] at there
      · rw [if_neg last] at there
        cases there
        omega
    · rw [if_neg same] at there
      exact counts.positive a count there
  writer := by
    intro a other
    have before : (dropReader id cnt lock).writer = noTask := free
    rw [writing_append, counts.writer a other, before, free]
    simp

theorem Serves.refl (reads : id ∉ lock.readWaiters) (writes : id ∉ lock.writeWaiters) :
    Serves id lock lock where
  reads := fun _ => ⟨fun member => ⟨member, fun same => reads (same ▸ member)⟩, And.left⟩
  writes := fun _ => ⟨fun member => ⟨member, fun same => writes (same ▸ member)⟩, And.left⟩
  holds := fun _ _ _ held => held

theorem holds_of_lookup {a : TaskId} (held : Holds lock a)
    (same : lock'.readers.lookup a = lock.readers.lookup a)
    (writer : lock.writer = a → lock'.writer = a) : Holds lock' a := by
  rcases held with owner | reader
  · exact Or.inl (writer owner)
  · exact Or.inr (by rw [same]; exact reader)

theorem isWrite_of_isRead {kind : Option RwlockEvent} (read : isRead kind = true) :
    isWrite kind = false := by
  revert read
  cases kind with
  | none => decide
  | some kind => cases kind <;> decide

theorem rwlockResume_read {locks : RwlockState} (read : isRead (event cp.typeId) = true) :
    rwlockResume event cp locks = posthandleRdlock cp.id cp.payloadAddr locks := by
  unfold rwlockResume
  split <;> simp_all [isRead]

theorem rwlockResume_write {locks : RwlockState} (write : isWrite (event cp.typeId) = true) :
    rwlockResume event cp locks = posthandleWrlock cp.id cp.payloadAddr locks := by
  unfold rwlockResume
  split <;> simp_all [isWrite]

theorem resume_read (inv : Exclusive event w) (resumes : ResumesFrom w cp)
    (read : isRead (event cp.typeId) = true) :
    ∃ w', move event (.resume cp) w = .ok w' ∧ Exclusive event w' := by
  have waits := inv.readEntered resumes.goesOn cp resumes.pending read
  have task := inv.distinct.tasks cp resumes.pending
  have free : (lockAt w.locks cp.payloadAddr).writer = noTask := by
    by_contra locked
    have admitted := inv.admitted resumes cp.payloadAddr
    simp [blocks, isWriteLocked, locked, Tidset.has_eq_true.mpr waits] at admitted
  obtain ⟨locks', handled, puts⟩ := posthandleRdlock_ok task free waits
  have ran := (rwlockResume_read read).trans handled
  have access : accessOf (event cp.typeId) cp w.locks = some .readLocked := by
    unfold accessOf
    split <;> simp_all [isRead]
  simp only [move, ran, ok_bind, access, Option.toList_some, List.map_cons, List.map_nil]
  refine ⟨_, rfl, ?_⟩
  let left : Rwlock := { lockAt w.locks cp.payloadAddr with
    readWaiters := (lockAt w.locks cp.payloadAddr).readWaiters.remove cp.id }
  obtain ⟨writer, readWaiters, writeWaiters⟩ := addReader_frame cp.id left
  refine inv.resumed resumes.pending resumes.goesOn puts
    ((inv.counts _).read (writer.trans free) free (addReader_lookup cp.id left))
    (fun id a away => apart_append _ _ _ _ id a away) ⟨?_, ?_, ?_⟩
  · intro a
    rw [readWaiters, Tidset.mem_remove, and_comm]
  · intro a
    rw [writeWaiters]
    have absent := (inv.not_waiting resumes.pending cp.payloadAddr).2 (isWrite_of_isRead read)
    exact ⟨fun member => ⟨member, fun same => absent (same ▸ member)⟩, And.left⟩
  · intro a away _ held
    refine holds_of_lookup held ?_ (fun owner => writer.trans owner)
    rw [addReader_lookup, if_neg away]

theorem resume_write (inv : Exclusive event w) (resumes : ResumesFrom w cp)
    (write : isWrite (event cp.typeId) = true) :
    ∃ w', move event (.resume cp) w = .ok w' ∧ Exclusive event w' := by
  have waits := inv.writeEntered resumes.goesOn cp resumes.pending write
  have inside := Tidset.has_eq_true.mpr waits
  have admitted := inv.admitted resumes cp.payloadAddr
  have free : (lockAt w.locks cp.payloadAddr).writer = noTask := by
    by_contra locked
    simp [blocks, isWriteLocked, locked, inside] at admitted
  have none : (lockAt w.locks cp.payloadAddr).readers.entries = [] := by
    by_contra some
    have positive := List.length_pos_iff.mpr some
    simp [blocks, isWriteLocked, free, positive, inside] at admitted
  have notRead : isRead (event cp.typeId) = false := by
    rw [← Bool.not_eq_true]
    intro read
    rw [isWrite_of_isRead read] at write
    cases write
  obtain ⟨locks', handled, puts⟩ := posthandleWrlock_ok free none waits
  have ran := (rwlockResume_write write).trans handled
  have access : accessOf (event cp.typeId) cp w.locks = some .writeLocked := by
    unfold accessOf
    split <;> simp_all [isWrite]
  simp only [move, ran, ok_bind, access, Option.toList_some, List.map_cons, List.map_nil]
  refine ⟨_, rfl, inv.resumed resumes.pending resumes.goesOn puts
    ((inv.counts _).write free none rfl rfl) (fun id a away => apart_append _ _ _ _ id a away)
    ⟨?_, ?_, ?_⟩⟩
  · intro a
    have absent := (inv.not_waiting resumes.pending cp.payloadAddr).1 notRead
    exact ⟨fun member => ⟨member, fun same => absent (same ▸ member)⟩, And.left⟩
  · intro a
    rw [Tidset.mem_remove, and_comm]
  · intro a _ task held
    refine holds_of_lookup held rfl ?_
    intro owner
    exact absurd (owner.symm.trans free) task

theorem Exclusive.served (inv : Exclusive event w) (resumes : ResumesFrom w cp)
    {locks' : RwlockState} (access : Option Access)
    (notRead : isRead (event cp.typeId) = false) (notWrite : isWrite (event cp.typeId) = false)
    (ran : rwlockResume event cp w.locks = .ok locks')
    (found : accessOf (event cp.typeId) cp w.locks = access)
    (puts : Puts rwlockNew cp.payloadAddr lock' w.locks locks')
    (counts : Counts (w.log ++ access.toList.map fun access => (cp.id, cp.payloadAddr, access))
      cp.payloadAddr lock')
    (reads : lock'.readWaiters = (lockAt w.locks cp.payloadAddr).readWaiters)
    (writes : lock'.writeWaiters = (lockAt w.locks cp.payloadAddr).writeWaiters)
    (holds : ∀ a, a ≠ cp.id → a ≠ noTask → Holds (lockAt w.locks cp.payloadAddr) a → Holds lock' a) :
    ∃ w', move event (.resume cp) w = .ok w' ∧ Exclusive event w' := by
  have absent := inv.not_waiting resumes.pending cp.payloadAddr
  have same := Serves.refl (absent.1 notRead) (absent.2 notWrite)
  simp only [move, ran, ok_bind, found]
  refine ⟨_, rfl, inv.resumed resumes.pending resumes.goesOn puts counts ?_
    ⟨by rw [reads]; exact same.reads, by rw [writes]; exact same.writes, holds⟩⟩
  intro id a away
  cases access with
  | none => simp
  | some access => exact apart_append _ _ _ _ id a away

theorem Exclusive.idle (inv : Exclusive event w) (resumes : ResumesFrom w cp) {locks' : RwlockState}
    (notRead : isRead (event cp.typeId) = false) (notWrite : isWrite (event cp.typeId) = false)
    (ran : rwlockResume event cp w.locks = .ok locks')
    (nothing : accessOf (event cp.typeId) cp w.locks = none)
    (puts : Puts rwlockNew cp.payloadAddr (lockAt w.locks cp.payloadAddr) w.locks locks') :
    ∃ w', move event (.resume cp) w = .ok w' ∧ Exclusive event w' :=
  inv.served resumes none notRead notWrite ran nothing puts (by simpa using inv.counts _) rfl rfl
    (fun _ _ _ held => held)

theorem resume_tryread (inv : Exclusive event w) (resumes : ResumesFrom w cp)
    (tries : event cp.typeId = some .tryrdlock) :
    ∃ w', move event (.resume cp) w = .ok w' ∧ Exclusive event w' := by
  have task := inv.distinct.tasks cp resumes.pending
  obtain ⟨ret, locks', handled, outcome⟩ :=
    posthandleTryrdlock_ok cp.payloadAddr w.locks task
  have ran : rwlockResume event cp w.locks = .ok locks' := by
    simp only [rwlockResume, tries, handled, Except.map]
  rcases outcome with ⟨rfl, free, puts⟩ | ⟨failed, puts⟩
  · obtain ⟨writer, reads, writes⟩ := addReader_frame cp.id (lockAt w.locks cp.payloadAddr)
    refine inv.served resumes (some .readLocked) (by simp [tries, isRead])
      (by simp [tries, isWrite]) ran (by simp only [tries, accessOf, handled, accessIf]) puts
      ((inv.counts _).read (writer.trans free) free (addReader_lookup _ _)) reads writes ?_
    intro a away _ held
    refine holds_of_lookup held ?_ (fun owner => writer.trans owner)
    rw [addReader_lookup, if_neg away]
  · have nothing : accessOf (event cp.typeId) cp w.locks = none := by
      simp only [tries, accessOf, handled, accessIf]
      cases ret with
      | zero => exact absurd rfl failed
      | succ n => rfl
    exact inv.idle resumes (by simp [tries, isRead]) (by simp [tries, isWrite]) ran nothing puts

theorem resume_trywrite (inv : Exclusive event w) (resumes : ResumesFrom w cp)
    (tries : event cp.typeId = some .trywrlock) :
    ∃ w', move event (.resume cp) w = .ok w' ∧ Exclusive event w' := by
  obtain ⟨ret, locks', handled, outcome⟩ :=
    posthandleTrywrlock_ok cp.id (inv.counts cp.payloadAddr).excludes
  have ran : rwlockResume event cp w.locks = .ok locks' := by
    simp only [rwlockResume, tries, handled, Except.map]
  rcases outcome with ⟨rfl, free, none, puts⟩ | ⟨failed, puts⟩
  · refine inv.served resumes (some .writeLocked) (by simp [tries, isRead])
      (by simp [tries, isWrite]) ran (by simp only [tries, accessOf, handled, accessIf]) puts
      ((inv.counts _).write free none rfl rfl) rfl rfl ?_
    intro a _ task held
    refine holds_of_lookup held rfl ?_
    intro owner
    exact absurd (owner.symm.trans free) task
  · have nothing : accessOf (event cp.typeId) cp w.locks = none := by
      simp only [tries, accessOf, handled, accessIf]
      cases ret with
      | zero => exact absurd rfl failed
      | succ n => rfl
    exact inv.idle resumes (by simp [tries, isRead]) (by simp [tries, isWrite]) ran nothing puts

theorem resume_unlock (inv : Exclusive event w) (resumes : ResumesFrom w cp)
    (unlock : event cp.typeId = some .unlock) :
    ∃ w', move event (.resume cp) w = .ok w' ∧ Exclusive event w' := by
  have task := inv.distinct.tasks cp resumes.pending
  have counts := inv.counts cp.payloadAddr
  by_cases writer : (lockAt w.locks cp.payloadAddr).writer = cp.id
  · obtain ⟨locks', handled, puts⟩ := posthandleUnlock_writer writer task
    refine inv.served resumes (some .writeUnlocked) (by simp [unlock, isRead])
      (by simp [unlock, isWrite]) (by simp only [rwlockResume, unlock, handled])
      (by simp only [unlock, accessOf, if_pos writer]) puts (counts.unwrite writer) rfl rfl ?_
    intro a away _ held
    refine holds_of_lookup held rfl ?_
    intro owner
    exact absurd (owner.symm.trans writer) away
  · rcases inv.unlocking cp resumes.pending unlock with owner | reader
    · exact absurd owner writer
    obtain ⟨cnt, found⟩ := Option.isSome_iff_exists.mp reader
    have free : (lockAt w.locks cp.payloadAddr).writer = noTask := by
      rcases counts.excludes with none | free
      · simp [AList.lookup, none] at found
      · exact free
    have held := counts.positive cp.id cnt found
    obtain ⟨locks', handled, puts⟩ := posthandleUnlock_reader free task found held
    refine inv.served resumes (some .readUnlocked) (by simp [unlock, isRead])
      (by simp [unlock, isWrite]) (by simp only [rwlockResume, unlock, handled])
      (by simp only [unlock, accessOf, if_neg writer]) puts (counts.unread free found) rfl rfl ?_
    intro a away _ held
    refine holds_of_lookup held ?_ (fun owner => owner)
    rw [dropReader_lookup found a, if_neg away]

theorem resume_kept (inv : Exclusive event w) (resumes : ResumesFrom w cp) :
    ∃ w', move event (.resume cp) w = .ok w' ∧ Exclusive event w' := by
  cases kind : event cp.typeId with
  | none =>
      have ran : rwlockResume event cp w.locks = .ok w.locks := by simp only [rwlockResume, kind]
      have nothing : accessOf (event cp.typeId) cp w.locks = none := by simp only [kind, accessOf]
      have same : Puts rwlockNew cp.payloadAddr (lockAt w.locks cp.payloadAddr) w.locks w.locks :=
        Puts.refl rwlockNew _ _
      exact inv.idle resumes (by simp [kind, isRead]) (by simp [kind, isWrite]) ran nothing same
  | some kind' =>
      cases kind' with
      | rdlock => exact resume_read inv resumes (by simp [kind, isRead])
      | timedrdlock => exact resume_read inv resumes (by simp [kind, isRead])
      | wrlock => exact resume_write inv resumes (by simp [kind, isWrite])
      | timedwrlock => exact resume_write inv resumes (by simp [kind, isWrite])
      | unlock => exact resume_unlock inv resumes kind
      | tryrdlock => exact resume_tryread inv resumes kind
      | trywrlock => exact resume_trywrite inv resumes kind

end Resume

def readDeadlock (lock : Rwlock) (id : TaskId) : Bool := isWriteLocked lock && lock.writer == id

def writeDeadlock (lock : Rwlock) (id : TaskId) : Bool :=
  readDeadlock lock id || decide (0 < lock.readers.entries.length) && isReadLockedBy lock id

def deadlocks (kind : Option RwlockEvent) (lock : Rwlock) (id : TaskId) : Bool :=
  isRead kind && readDeadlock lock id || isWrite kind && writeDeadlock lock id

def entered (kind : Option RwlockEvent) (id : TaskId) (lock : Rwlock) : Rwlock :=
  if deadlocks kind lock id then lock
  else { lock with
    readWaiters := if isRead kind then lock.readWaiters.insert id else lock.readWaiters
    writeWaiters := if isWrite kind then lock.writeWaiters.insert id else lock.writeWaiters }

section Capture

variable {w : World} {cp : CapturePoint} {e : Decision} {locks locks' : RwlockState} {lock : Rwlock}
  {id : TaskId} {addr : UInt64} {kind : Option RwlockEvent}

theorem handleRdlock_ok (fresh : id ∉ (lockAt locks addr).readWaiters)
    (read : isRead kind = true) : ∃ locks',
      handleRdlock id addr locks = .ok (locks', deadlocks kind (lockAt locks addr) id) ∧
      Puts rwlockNew addr (entered kind id (lockAt locks addr)) locks locks' := by
  obtain ⟨locks₁, init, same, puts⟩ := rwlockInit_spec addr locks
  have notWrite := isWrite_of_isRead read
  have absent : (lockAt locks addr).readWaiters.has id = false := Tidset.has_eq_false.mpr fresh
  simp only [handleRdlock, init, entered, deadlocks, read, notWrite, Bool.true_and, Bool.false_and,
    Bool.or_false, if_true, Bool.false_eq_true, if_false, readDeadlock]
  cases isWriteLocked (lockAt locks addr) && (lockAt locks addr).writer == id with
  | true => exact ⟨locks₁, rfl, same⟩
  | false =>
      simp only [Bool.false_eq_true, if_false, absent, Bool.not_false, check_true, ok_bind]
      exact ⟨_, rfl, puts _⟩

theorem handleWrlock_ok (excludes : Excludes (lockAt locks addr))
    (fresh : id ∉ (lockAt locks addr).writeWaiters) (write : isWrite kind = true)
    (notRead : isRead kind = false) : ∃ locks',
      handleWrlock id addr locks = .ok (locks', deadlocks kind (lockAt locks addr) id) ∧
      Puts rwlockNew addr (entered kind id (lockAt locks addr)) locks locks' := by
  obtain ⟨locks₁, init, same, puts⟩ := rwlockInit_spec addr locks
  have absent : (lockAt locks addr).writeWaiters.has id = false := Tidset.has_eq_false.mpr fresh
  simp only [handleWrlock, init, excludes.isReadLocked_ok, ok_bind, entered, deadlocks, write, notRead,
    Bool.true_and, Bool.false_and, Bool.false_or, if_true, Bool.false_eq_true, if_false,
    writeDeadlock, readDeadlock]
  cases isWriteLocked (lockAt locks addr) && (lockAt locks addr).writer == id ||
      decide (0 < (lockAt locks addr).readers.entries.length) && isReadLockedBy (lockAt locks addr) id with
  | true => exact ⟨locks₁, rfl, same⟩
  | false =>
      simp only [Bool.false_eq_true, if_false, absent, Bool.not_false, check_true, ok_bind]
      exact ⟨_, rfl, puts _⟩

theorem rwlockSwitch_ok (inv : Exclusive event w) (captures : Captures event w cp e) :
    ∃ e' locks', rwlockSwitch (event cp.typeId) cp e w.locks = .ok (e', locks') ∧ e'.tset = e.tset ∧
      e'.reason = (if deadlocks (event cp.typeId) (lockAt w.locks cp.payloadAddr) cp.id
        then .rsrcDeadlock else e.reason) ∧
      Puts rwlockNew cp.payloadAddr (entered (event cp.typeId) cp.id (lockAt w.locks cp.payloadAddr))
        w.locks locks' := by
  have suspended : ∀ {kind}, ¬ Suspended event kind w.pending cp.payloadAddr cp.id := by
    rintro kind ⟨p, inside, same, _⟩
    exact captures.running p inside same
  have entering : ∀ {handled : Except Fault (RwlockState × Bool)},
      isRead (event cp.typeId) = true ∨ isWrite (event cp.typeId) = true →
      (∃ locks', handled = .ok (locks',
          deadlocks (event cp.typeId) (lockAt w.locks cp.payloadAddr) cp.id) ∧
        Puts rwlockNew cp.payloadAddr (entered (event cp.typeId) cp.id (lockAt w.locks cp.payloadAddr))
          w.locks locks') →
      ∃ e' locks', enterWaiters e handled = .ok (e', locks') ∧ e'.tset = e.tset ∧
        e'.reason = (if deadlocks (event cp.typeId) (lockAt w.locks cp.payloadAddr) cp.id
          then .rsrcDeadlock else e.reason) ∧
        Puts rwlockNew cp.payloadAddr (entered (event cp.typeId) cp.id (lockAt w.locks cp.payloadAddr))
          w.locks locks' := by
    rintro handled request ⟨locks', rfl, puts⟩
    have filter : (e.anyTaskFilter == none) = true := by simp [captures.unfiltered request]
    simp only [enterWaiters, ok_bind, filter, check_true]
    exact ⟨_, locks', rfl, rfl, rfl, puts⟩
  have reads := fun read : isRead (event cp.typeId) = true =>
    entering (Or.inl read) (handleRdlock_ok (fun member => suspended (inv.reads _ _ member)) read)
  have writes := fun (write : isWrite (event cp.typeId) = true) notRead =>
    entering (Or.inr write) (handleWrlock_ok (inv.counts _).excludes
      (fun member => suspended (inv.writes _ _ member)) write notRead)
  have aside : isRead (event cp.typeId) = false → isWrite (event cp.typeId) = false →
      deadlocks (event cp.typeId) (lockAt w.locks cp.payloadAddr) cp.id = false ∧
        entered (event cp.typeId) cp.id (lockAt w.locks cp.payloadAddr) =
          lockAt w.locks cp.payloadAddr := by
    intro notRead notWrite
    simp [entered, deadlocks, notRead, notWrite]
  have same := Puts.refl rwlockNew cp.payloadAddr w.locks
  revert reads writes aside
  cases event cp.typeId with
  | none =>
      intro _ _ aside
      rw [(aside rfl rfl).1, (aside rfl rfl).2]
      exact ⟨e, w.locks, rfl, rfl, rfl, same⟩
  | some kind =>
      intro reads writes aside
      cases kind with
      | rdlock | timedrdlock => exact reads rfl
      | wrlock | timedwrlock => exact writes rfl rfl
      | tryrdlock | trywrlock | unlock =>
          rw [(aside rfl rfl).1, (aside rfl rfl).2]
          exact ⟨_, w.locks, rfl, rfl, rfl, same⟩

structure Captured (event : TypeId → Option RwlockEvent) (w : World) (cp : CapturePoint)
    (locks' : RwlockState) : Prop where
  writer : ∀ addr, (lockAt locks' addr).writer = (lockAt w.locks addr).writer
  readers : ∀ addr, (lockAt locks' addr).readers = (lockAt w.locks addr).readers
  reads : ∀ addr id, id ∈ (lockAt locks' addr).readWaiters ↔ id ∈ (lockAt w.locks addr).readWaiters ∨
    id = cp.id ∧ addr = cp.payloadAddr ∧ isRead (event cp.typeId) = true ∧
      deadlocks (event cp.typeId) (lockAt w.locks cp.payloadAddr) cp.id = false
  writes : ∀ addr id, id ∈ (lockAt locks' addr).writeWaiters ↔
    id ∈ (lockAt w.locks addr).writeWaiters ∨
    id = cp.id ∧ addr = cp.payloadAddr ∧ isWrite (event cp.typeId) = true ∧
      deadlocks (event cp.typeId) (lockAt w.locks cp.payloadAddr) cp.id = false

theorem captured_of_puts (puts : Puts rwlockNew cp.payloadAddr
      (entered (event cp.typeId) cp.id (lockAt w.locks cp.payloadAddr)) w.locks locks') :
    Captured event w cp locks' := by
  have each : ∀ addr, lockAt locks' addr = if addr = cp.payloadAddr
      then entered (event cp.typeId) cp.id (lockAt w.locks cp.payloadAddr)
      else lockAt w.locks addr := puts
  constructor
  all_goals
    intro addr
    rw [each addr]
    by_cases here : addr = cp.payloadAddr
    · subst here
      rw [if_pos rfl, entered]
      cases deadlocks (event cp.typeId) (lockAt w.locks cp.payloadAddr) cp.id with
      | true => simp
      | false =>
          cases isRead (event cp.typeId) <;> cases isWrite (event cp.typeId) <;> simp
    · simp [here]

theorem Captured.excludes (captured : Captured event w cp locks') (inv : Exclusive event w)
    (addr : UInt64) : Excludes (lockAt locks' addr) := by
  rw [Excludes, captured.readers, captured.writer]
  exact (inv.counts addr).excludes

/-- A capture reports a deadlock exactly if its task holds the lock against its own request, and it
takes exactly the tasks that should wait from the task set. -/
theorem rwlockHandle_ok (inv : Exclusive event w) (captures : Captures event w cp e) :
    ∃ e' locks', rwlockHandle event cp e w.locks = .ok (e', locks') ∧
      e'.reason = (if deadlocks (event cp.typeId) (lockAt w.locks cp.payloadAddr) cp.id
        then .rsrcDeadlock else e.reason) ∧
      (∀ id, ∃ wait, shouldWaitRwlock locks' id = .ok wait ∧
        (id ∈ e'.tset ↔ id ∈ e.tset ∧ wait = false) ∧
        (wait = false → ∀ addr, blocks (lockAt locks' addr) id = false)) ∧
      Captured event w cp locks' := by
  obtain ⟨e₁, locks', switched, tset, reason, puts⟩ := rwlockSwitch_ok inv captures
  have captured : Captured event w cp locks' := captured_of_puts puts
  obtain ⟨rest, filtered, each⟩ := filter_spec (captured.excludes inv) e₁.tset
  have task : (cp.id != noTask) = true := by simpa using captures.task
  refine ⟨{ e₁ with tset := rest }, locks', ?_, reason, ?_, captured⟩
  · simp only [rwlockHandle, captures.unskipped, Bool.false_eq_true, if_false, task, check_true,
      ok_bind, switched, filtered]
  · rw [← tset]
    exact each

theorem capture_kept (inv : Exclusive event w) (captures : Captures event w cp e) :
    ∃ w', move event (.capture cp e) w = .ok w' ∧ Exclusive event w' := by
  obtain ⟨e', locks', handled, reason, members, captured⟩ := rwlockHandle_ok inv captures
  simp only [move, handled, ok_bind]
  have quiet : (e'.reason == .rsrcDeadlock) = false →
      deadlocks (event cp.typeId) (lockAt w.locks cp.payloadAddr) cp.id = false := by
    intro unflagged
    rw [← Bool.not_eq_true]
    intro flagged
    rw [reason, if_pos flagged] at unflagged
    cases unflagged
  have still : ∀ {kind addr id}, Suspended event kind w.pending addr id →
      Suspended event kind (cp :: w.pending) addr id := by
    rintro kind addr id ⟨p, inside, rest⟩
    exact ⟨p, List.mem_cons_of_mem _ inside, rest⟩
  refine ⟨_, rfl, inv.distinct.cons captures.task captures.running, ?_, ?_, ?_, ?_, ?_, ?_, ?_⟩
  · intro addr
    obtain ⟨excludes, readers, positive, writer⟩ := inv.counts addr
    refine ⟨captured.excludes inv addr, ?_, ?_, ?_⟩
    · rw [captured.readers]
      exact readers
    · rw [captured.readers]
      exact positive
    · rw [captured.writer]
      exact writer
  · intro addr id member
    rcases (captured.reads addr id).mp member with old | ⟨rfl, rfl, read, _⟩
    · exact still (inv.reads addr id old)
    · exact ⟨cp, List.mem_cons_self, rfl, read, rfl⟩
  · intro addr id member
    rcases (captured.writes addr id).mp member with old | ⟨rfl, rfl, write, _⟩
    · exact still (inv.writes addr id old)
    · exact ⟨cp, List.mem_cons_self, rfl, write, rfl⟩
  · intro unflagged p member read
    rw [captured.reads]
    rcases List.mem_cons.mp member with rfl | inside
    · exact Or.inr ⟨rfl, rfl, read, quiet unflagged⟩
    · exact Or.inl (inv.readEntered captures.goesOn p inside read)
  · intro unflagged p member write
    rw [captured.writes]
    rcases List.mem_cons.mp member with rfl | inside
    · exact Or.inr ⟨rfl, rfl, write, quiet unflagged⟩
    · exact Or.inl (inv.writeEntered captures.goesOn p inside write)
  · intro p member unlock
    rw [Holds, captured.writer, captured.readers]
    rcases List.mem_cons.mp member with rfl | inside
    · exact captures.holder unlock
    · exact inv.unlocking p inside unlock
  · intro id member
    obtain ⟨wait, _, kept, clear⟩ := members id
    exact clear (kept.mp member).2

end Capture

theorem exclusive_kept (event : TypeId → Option RwlockEvent) : Kept (system event) (Exclusive event) where
  start := exclusive_start event
  step := by
    intro w m inv allowed
    cases m with
    | capture cp e => exact capture_kept inv allowed
    | resume cp => exact resume_kept inv allowed

/-- Exclusion in every reachable state of the rwlock handler: no allowed step fails a check, a lock
with a writer has no readers, the writer and the count of each reader are what the tasks locked and
did not unlock, and a capture takes exactly the tasks that should wait from the task set. -/
theorem rwlock_exclusion (event : TypeId → Option RwlockEvent) (w : World)
    (reached : Reachable (system event) w) :
    (∀ m, Allowed event w m → ∃ w', move event m w = .ok w') ∧
    (∀ addr lock, w.locks.lookup addr = some lock →
      (lock.writer ≠ noTask → ∀ id, lock.readers.lookup id = none) ∧
      (∀ id, id ≠ noTask → writing w.log id addr = if lock.writer = id then 1 else 0) ∧
      (∀ id, reading w.log id addr = (lock.readers.lookup id).getD 0) ∧
      ∀ id cnt, lock.readers.lookup id = some cnt → 0 < cnt) ∧
    (∀ addr, w.locks.lookup addr = none → ∀ id, id ≠ noTask →
      writing w.log id addr = 0 ∧ reading w.log id addr = 0) ∧
    (∀ cp e e' locks', Captures event w cp e → rwlockHandle event cp e w.locks = .ok (e', locks') →
      ∀ id, ∃ wait, shouldWaitRwlock locks' id = .ok wait ∧
        (id ∈ e'.tset ↔ id ∈ e.tset ∧ wait = false)) := by
  have inv := (exclusive_kept event).reachable reached
  refine ⟨fun m allowed => (exclusive_kept event).steps reached allowed, ?_, ?_, ?_⟩
  · intro addr lock found
    have counts := inv.counts addr
    rw [lockAt, itemAt, found, Option.getD_some] at counts
    refine ⟨?_, counts.writer, counts.readers, counts.positive⟩
    intro locked id
    rcases counts.excludes with none | free
    · simp [AList.lookup, none]
    · exact absurd free locked
  · intro addr unknown id task
    have counts := inv.counts addr
    rw [lockAt, itemAt, unknown, Option.getD_none] at counts
    refine ⟨?_, counts.readers id⟩
    rw [counts.writer id task, if_neg]
    exact Ne.symm task
  · intro cp e e' locks' captures handled id
    obtain ⟨_, _, same, _, members, _⟩ := rwlockHandle_ok inv captures
    rw [handled] at same
    cases same
    obtain ⟨wait, waits, kept, _⟩ := members id
    exact ⟨wait, waits, kept⟩

instance (w : World) (cp : CapturePoint) (e : Decision) : Decidable (Captures event w cp e) :=
  decidable_of_iff ((∀ p ∈ w.pending, p.id ≠ cp.id) ∧ w.flagged = false ∧ cp.id ≠ noTask ∧
      e.skip = false ∧
      (isRead (event cp.typeId) = true ∨ isWrite (event cp.typeId) = true → e.anyTaskFilter = none) ∧
      (event cp.typeId = some .unlock → Holds (lockAt w.locks cp.payloadAddr) cp.id))
    ⟨fun ⟨a, b, c, d, e, f⟩ => ⟨a, b, c, d, e, f⟩, fun ⟨a, b, c, d, e, f⟩ => ⟨a, b, c, d, e, f⟩⟩

def passes (locks : RwlockState) (id : TaskId) : Bool :=
  match shouldWaitRwlock locks id with
  | .ok wait => !wait
  | .error _ => false

theorem passes_iff {locks : RwlockState} {id : TaskId} :
    passes locks id = true ↔ shouldWaitRwlock locks id = .ok false := by
  unfold passes
  cases shouldWaitRwlock locks id with
  | error fault => simp
  | ok wait => simp

instance (w : World) (cp : CapturePoint) : Decidable (ResumesFrom w cp) :=
  decidable_of_iff (cp ∈ w.pending ∧ w.flagged = false ∧
      (cp.id ∈ w.tset ∨ passes w.locks cp.id = true))
    ⟨fun ⟨a, b, c⟩ => ⟨a, b, c.imp_right passes_iff.mp⟩,
      fun ⟨a, b, c⟩ => ⟨a, b, c.imp_right passes_iff.mpr⟩⟩

instance (w : World) (m : Move) : Decidable ((system event).allowed w m) :=
  match m with
  | .capture cp e => inferInstanceAs (Decidable (Captures event w cp e))
  | .resume cp => inferInstanceAs (Decidable (ResumesFrom w cp))

def lockEvent (ty : TypeId) : Option RwlockEvent :=
  [none, some .rdlock, some .wrlock, some .unlock, some .tryrdlock, some .trywrlock,
    some .timedrdlock, some .timedwrlock].getD ty none

def contended : List Move :=
  [.capture (plainPoint 1 1 16) (plainDecision bothTasks), .resume (plainPoint 1 1 16),
    .capture (plainPoint 1 4 16) (plainDecision bothTasks), .resume (plainPoint 1 4 16),
    .capture (plainPoint 2 7 16) (plainDecision bothTasks)]

theorem rwlock_exclusion_contended :
    ∃ w, Reachable (system lockEvent) w ∧ reading w.log 1 16 = 2 ∧ writing w.log 2 16 = 0 := by
  have legal : Legal (system lockEvent) contended (system lockEvent).start := by decide
  have seen : (run (system lockEvent) contended (system lockEvent).start).map (fun w =>
      (w.locks.lookup 16).map fun lock => (lock.writer, lock.readers.lookup 1)) =
        .ok (some (noTask, some 2)) := by decide
  obtain ⟨w, ran⟩ := legal.runs
  rw [ran] at seen
  obtain ⟨lock, there, fields⟩ := Option.map_eq_some_iff.mp (Except.ok.inj seen)
  obtain ⟨writer, count⟩ := Prod.mk.inj fields
  have reached := legal.reachable Reachable.start ran
  obtain ⟨_, counts, _, _⟩ := rwlock_exclusion lockEvent w reached
  obtain ⟨_, writes, reads, _⟩ := counts 16 lock there
  refine ⟨w, reached, ?_, ?_⟩
  · rw [reads, count]
    rfl
  · rw [writes 2 (by decide), writer]
    rfl

end Lotto.RwlockRun
