import Lotto.MutexSpecs
import Lotto.Rwlock

namespace Lotto.RwlockSpecs

open Library.FaultRun Library.KeyMap
open MutexSpecs

def isRead : Option RwlockEvent → Bool
  | some .rdlock | some .timedrdlock => true
  | _ => false

def isWrite : Option RwlockEvent → Bool
  | some .wrlock | some .timedwrlock => true
  | _ => false

variable {event : TypeId → Option RwlockEvent} {pending : List CapturePoint} {cp : CapturePoint}
  {e e' : Decision} {locks locks' : RwlockState} {addr : UInt64} {lock : Rwlock}

def Suspended (event : TypeId → Option RwlockEvent) (kind : Option RwlockEvent → Bool)
    (pending : List CapturePoint) (addr : UInt64) (id : TaskId) : Prop :=
  ∃ p ∈ pending, p.id = id ∧ kind (event p.typeId) = true ∧ p.payloadAddr = addr

structure GoodRwlock (event : TypeId → Option RwlockEvent) (pending : List CapturePoint)
    (addr : UInt64) (lock : Rwlock) : Prop where
  exclusive : lock.readers.entries = [] ∨ lock.writer = noTask
  counts : All (fun _ cnt => 0 < cnt) lock.readers
  reads : ∀ id ∈ lock.readWaiters, Suspended event isRead pending addr id
  writes : ∀ id ∈ lock.writeWaiters, Suspended event isWrite pending addr id

def RwlockInv (event : TypeId → Option RwlockEvent) (pending : List CapturePoint)
    (locks : RwlockState) : Prop :=
  All (GoodRwlock event pending) locks

theorem goodRwlock_new : GoodRwlock event pending addr rwlockNew where
  exclusive := Or.inl rfl
  counts := All.empty
  reads := fun id member => absurd member (Tidset.not_mem_empty id)
  writes := fun id member => absurd member (Tidset.not_mem_empty id)

theorem GoodRwlock.mono {pending' : List CapturePoint} (more : ∀ p ∈ pending, p ∈ pending')
    (good : GoodRwlock event pending addr lock) : GoodRwlock event pending' addr lock where
  exclusive := good.exclusive
  counts := good.counts
  reads := by
    intro id member
    obtain ⟨p, inside, suspended⟩ := good.reads id member
    exact ⟨p, more p inside, suspended⟩
  writes := by
    intro id member
    obtain ⟨p, inside, suspended⟩ := good.writes id member
    exact ⟨p, more p inside, suspended⟩

theorem RwlockInv.mono {pending' : List CapturePoint} (more : ∀ p ∈ pending, p ∈ pending')
    (inv : RwlockInv event pending locks) : RwlockInv event pending' locks :=
  All.mono inv fun _ _ good => good.mono more

theorem isReadLocked_ok (good : GoodRwlock event pending addr lock) :
    isReadLocked lock = .ok (decide (0 < lock.readers.entries.length)) := by
  have exclusive : (lock.readers.entries.length == 0 || lock.writer == noTask) = true := by
    rcases good.exclusive with none | free
    · simp [none]
    · simp [free]
  simp [isReadLocked, exclusive]

structure Entering (lock lock' : Rwlock) : Prop where
  writer : lock'.writer = lock.writer
  readers : lock'.readers = lock.readers

theorem handleRdlock_inv {deadlock : Bool} (inv : RwlockInv event pending locks)
    (read : isRead (event cp.typeId) = true)
    (handled : handleRdlock cp.id cp.payloadAddr locks = .ok (locks', deadlock)) :
    RwlockInv event (cp :: pending) locks' ∧ ∃ lock lock', Entering lock lock' ∧
      locks'.lookup cp.payloadAddr = some lock' ∧
      (locks.lookup cp.payloadAddr = some lock ∨
        locks.lookup cp.payloadAddr = none ∧ lock = rwlockNew) ∧
      (lock.writer = noTask → cp.id ∈ lock'.readWaiters) := by
  have later : RwlockInv event (cp :: pending) locks :=
    inv.mono (fun p member => List.mem_cons_of_mem cp member)
  obtain ⟨lock, locks₁, init, found⟩ := findOrInit_found rwlockNew cp.payloadAddr locks
  simp only [handleRdlock, rwlockInit, init] at handled
  have good := found.good later goodRwlock_new
  split at handled
  · rename_i own
    cases handled
    refine ⟨found.all later goodRwlock_new, lock, lock, ⟨rfl, rfl⟩, found.here, found.source, ?_⟩
    intro free
    simp [isWriteLocked, free] at own
  · obtain ⟨_, _, handled⟩ := bind_eq_ok.mp handled
    cases handled
    refine ⟨All.replace found.known (found.apart later)
        ⟨good.exclusive, good.counts, ?_, good.writes⟩,
      lock, { lock with readWaiters := lock.readWaiters.insert cp.id }, ⟨rfl, rfl⟩, ?_, found.source,
      fun _ => Tidset.mem_insert.mpr (Or.inr rfl)⟩
    · intro id member
      rcases Tidset.mem_insert.mp member with old | rfl
      · exact good.reads id old
      · exact ⟨cp, List.mem_cons_self, rfl, read, rfl⟩
    · rw [lookup_replace found.known, if_pos rfl]

theorem handleWrlock_inv {deadlock : Bool} (inv : RwlockInv event pending locks)
    (write : isWrite (event cp.typeId) = true)
    (handled : handleWrlock cp.id cp.payloadAddr locks = .ok (locks', deadlock)) :
    RwlockInv event (cp :: pending) locks' ∧ ∃ lock lock', Entering lock lock' ∧
      locks'.lookup cp.payloadAddr = some lock' ∧
      (locks.lookup cp.payloadAddr = some lock ∨
        locks.lookup cp.payloadAddr = none ∧ lock = rwlockNew) ∧
      (lock.writer = noTask → lock.readers.entries = [] → cp.id ∈ lock'.writeWaiters) := by
  have later : RwlockInv event (cp :: pending) locks :=
    inv.mono (fun p member => List.mem_cons_of_mem cp member)
  obtain ⟨lock, locks₁, init, found⟩ := findOrInit_found rwlockNew cp.payloadAddr locks
  simp only [handleWrlock, rwlockInit, init] at handled
  have good := found.good later goodRwlock_new
  rw [isReadLocked_ok good, ok_bind] at handled
  split at handled
  · rename_i own
    cases handled
    refine ⟨found.all later goodRwlock_new, lock, lock, ⟨rfl, rfl⟩, found.here, found.source, ?_⟩
    intro free none
    simp [isWriteLocked, free, none] at own
  · obtain ⟨_, _, handled⟩ := bind_eq_ok.mp handled
    cases handled
    refine ⟨All.replace found.known (found.apart later)
        ⟨good.exclusive, good.counts, good.reads, ?_⟩,
      lock, { lock with writeWaiters := lock.writeWaiters.insert cp.id }, ⟨rfl, rfl⟩, ?_, found.source,
      fun _ _ => Tidset.mem_insert.mpr (Or.inr rfl)⟩
    · intro id member
      rcases Tidset.mem_insert.mp member with old | rfl
      · exact good.writes id old
      · exact ⟨cp, List.mem_cons_self, rfl, write, rfl⟩
    · rw [lookup_replace found.known, if_pos rfl]

theorem enterWaiters_cases {handled : Except Fault (RwlockState × Bool)}
    (entered : enterWaiters e handled = .ok (e', locks')) :
    e'.replay = e.replay ∧ e'.skip = e.skip ∧ ∃ deadlock, handled = .ok (locks', deadlock) := by
  obtain ⟨⟨locks₁, deadlock⟩, handled, entered⟩ := bind_eq_ok.mp entered
  obtain ⟨_, _, entered⟩ := bind_eq_ok.mp entered
  cases entered
  exact ⟨rfl, rfl, deadlock, handled⟩

theorem rwlockSwitch_cases {ev : Option RwlockEvent}
    (switched : rwlockSwitch ev cp e locks = .ok (e', locks')) :
    e'.replay = e.replay ∧ e'.skip = e.skip ∧
      (isRead ev = true → ∃ d, handleRdlock cp.id cp.payloadAddr locks = .ok (locks', d)) ∧
      (isWrite ev = true → ∃ d, handleWrlock cp.id cp.payloadAddr locks = .ok (locks', d)) ∧
      (isRead ev = false → isWrite ev = false → locks' = locks) := by
  rcases ev with _ | ev
  · cases switched
    simp [isRead, isWrite]
  · cases ev with
    | rdlock | timedrdlock =>
        obtain ⟨replay, skip, handled⟩ := enterWaiters_cases switched
        exact ⟨replay, skip, fun _ => handled, by simp [isWrite], by simp [isRead]⟩
    | wrlock | timedwrlock =>
        obtain ⟨replay, skip, handled⟩ := enterWaiters_cases switched
        exact ⟨replay, skip, by simp [isRead], fun _ => handled, by simp [isWrite]⟩
    | unlock | tryrdlock | trywrlock =>
        cases switched
        simp [isRead, isWrite]

theorem rwlockHandle_cases (handled : rwlockHandle event cp e locks = .ok (e', locks')) :
    e'.replay = e.replay ∧ e'.skip = e.skip ∧ (e.skip = true → locks' = locks) ∧
      (e.skip = false → ∃ e₁, rwlockSwitch (event cp.typeId) cp e locks = .ok (e₁, locks')) := by
  unfold rwlockHandle at handled
  split at handled
  · rename_i skipped
    cases handled
    exact ⟨rfl, rfl, fun _ => rfl, fun runs => absurd skipped (by simp [runs])⟩
  · rename_i runs
    obtain ⟨_, _, handled⟩ := bind_eq_ok.mp handled
    obtain ⟨⟨e₁, locks₁⟩, switched, handled⟩ := bind_eq_ok.mp handled
    obtain ⟨_, _, handled⟩ := bind_eq_ok.mp handled
    cases handled
    obtain ⟨replay, skip, _⟩ := rwlockSwitch_cases switched
    exact ⟨replay, skip, fun skipped => absurd skipped runs, fun _ => ⟨e₁, switched⟩⟩

theorem rwlockHandle_inv (inv : RwlockInv event pending locks)
    (handled : rwlockHandle event cp e locks = .ok (e', locks')) :
    RwlockInv event (cp :: pending) locks' := by
  have later : RwlockInv event (cp :: pending) locks :=
    inv.mono (fun p member => List.mem_cons_of_mem cp member)
  obtain ⟨_, _, same, ran⟩ := rwlockHandle_cases handled
  by_cases skipped : e.skip = true
  · rw [same skipped]
    exact later
  · rw [Bool.not_eq_true] at skipped
    obtain ⟨e₁, switched⟩ := ran skipped
    obtain ⟨_, _, reads, writes, kept⟩ := rwlockSwitch_cases switched
    cases read : isRead (event cp.typeId) with
    | true =>
        obtain ⟨d, handled⟩ := reads read
        exact (handleRdlock_inv inv read handled).1
    | false =>
        cases write : isWrite (event cp.typeId) with
        | true =>
            obtain ⟨d, handled⟩ := writes write
            exact (handleWrlock_inv inv write handled).1
        | false =>
            rw [kept read write]
            exact later

def isRwlockEvent (event : TypeId → Option RwlockEvent) (ty : TypeId) : Bool := (event ty).isSome

theorem not_suspended {kind : Option RwlockEvent → Bool} (lockEvents : kind none = false)
    (resumes : ∀ p ∈ pending, p.id = cp.id → Resumes (isRwlockEvent event) p cp)
    (other : kind (event cp.typeId) = false ∨ addr ≠ cp.payloadAddr) :
    ¬ Suspended event kind pending addr cp.id := by
  rintro ⟨p, inside, id, suspended, same⟩
  have resumed := resumes p inside id
  have isEvent : isRwlockEvent event p.typeId = true := by
    cases known : event p.typeId with
    | none =>
        rw [known, lockEvents] at suspended
        cases suspended
    | some ev => simp [isRwlockEvent, known]
  rcases other with other | other
  · rw [resumed.typeId, suspended] at other
    cases other
  · rw [resumed.addr isEvent] at other
    exact other same.symm

theorem Suspended.without {kind : Option RwlockEvent → Bool} {waiter id : TaskId}
    (suspended : Suspended event kind pending addr waiter) (other : waiter ≠ id) :
    Suspended event kind (without pending id) addr waiter := by
  obtain ⟨p, inside, rfl, rest⟩ := suspended
  exact ⟨p, mem_without.mpr ⟨inside, other⟩, rfl, rest⟩

theorem Suspended.here {kind : Option RwlockEvent → Bool} (distinct : Distinct pending)
    (member : cp ∈ pending) (suspended : Suspended event kind pending addr cp.id) :
    kind (event cp.typeId) = true ∧ cp.payloadAddr = addr := by
  obtain ⟨p, inside, same, found⟩ := suspended
  rw [distinct.same inside member same] at found
  exact found

theorem GoodRwlock.without (good : GoodRwlock event pending addr lock)
    (resumes : ∀ p ∈ pending, p.id = cp.id → Resumes (isRwlockEvent event) p cp)
    (read : isRead (event cp.typeId) = false ∨ addr ≠ cp.payloadAddr ∨ cp.id ∉ lock.readWaiters)
    (write : isWrite (event cp.typeId) = false ∨ addr ≠ cp.payloadAddr ∨
      cp.id ∉ lock.writeWaiters) :
    GoodRwlock event (without pending cp.id) addr lock where
  exclusive := good.exclusive
  counts := good.counts
  reads := by
    intro id member
    apply (good.reads id member).without
    rintro rfl
    rcases or_assoc.mpr read with other | absent
    · exact not_suspended rfl resumes other (good.reads _ member)
    · exact absent member
  writes := by
    intro id member
    apply (good.writes id member).without
    rintro rfl
    rcases or_assoc.mpr write with other | absent
    · exact not_suspended rfl resumes other (good.writes _ member)
    · exact absent member

theorem others_resumed {locks₁ : RwlockState}
    (found : Found rwlockNew cp.payloadAddr locks lock locks₁) (inv : RwlockInv event pending locks)
    (resumes : ∀ p ∈ pending, p.id = cp.id → Resumes (isRwlockEvent event) p cp) :
    ∀ a b, a ≠ cp.payloadAddr → locks₁.lookup a = some b →
      GoodRwlock event (without pending cp.id) a b := by
  intro a b other there
  apply (found.apart inv a b other there).without resumes
  · exact Or.inr (Or.inl other)
  · exact Or.inr (Or.inl other)

theorem addReader_counts {id : TaskId} (counts : All (fun _ cnt => 0 < cnt) lock.readers) :
    All (fun _ cnt => 0 < cnt) (addReader id lock).readers := by
  unfold addReader
  split
  · rename_i cnt found
    have positive := counts id cnt found
    have known : id ∈ lock.readers := AList.lookup_isSome.mp (by simp [found])
    exact All.replace known (fun a b _ there => counts a b there) (by omega)
  · exact All.insert counts (by decide)

theorem GoodRwlock.addReader {id : TaskId} (good : GoodRwlock event pending addr lock)
    (free : lock.writer = noTask) : GoodRwlock event pending addr (addReader id lock) := by
  have same : (Lotto.addReader id lock).writer = lock.writer ∧
      (Lotto.addReader id lock).readWaiters = lock.readWaiters ∧
      (Lotto.addReader id lock).writeWaiters = lock.writeWaiters := by
    unfold Lotto.addReader
    split <;> exact ⟨rfl, rfl, rfl⟩
  obtain ⟨writer, readWaiters, writeWaiters⟩ := same
  constructor
  · exact Or.inr (writer.trans free)
  · exact addReader_counts good.counts
  · rw [readWaiters]
    exact good.reads
  · rw [writeWaiters]
    exact good.writes

theorem posthandleRdlock_inv (inv : RwlockInv event pending locks)
    (resumes : ∀ p ∈ pending, p.id = cp.id → Resumes (isRwlockEvent event) p cp)
    (write : isWrite (event cp.typeId) = false)
    (handled : posthandleRdlock cp.id cp.payloadAddr locks = .ok locks') :
    RwlockInv event (without pending cp.id) locks' := by
  obtain ⟨lock, locks₁, init, found⟩ := findOrInit_found rwlockNew cp.payloadAddr locks
  simp only [posthandleRdlock, rwlockInit, init] at handled
  have good := found.good inv goodRwlock_new
  obtain ⟨_, unlocked, handled⟩ := bind_eq_ok.mp handled
  have free : lock.writer = noTask := by
    rw [check_ok_iff] at unlocked
    simpa [isWriteLocked] using unlocked
  have apart := others_resumed found inv resumes
  split at handled
  · rename_i absent
    cases handled
    apply found.all_of _ apart
    exact good.without resumes (Or.inr (Or.inr (by simpa using absent))) (Or.inl write)
  · obtain ⟨_, _, handled⟩ := bind_eq_ok.mp handled
    cases handled
    have fewer : GoodRwlock event pending cp.payloadAddr
        { lock with readWaiters := lock.readWaiters.remove cp.id } :=
      ⟨good.exclusive, good.counts,
        fun id member => good.reads id (Tidset.mem_remove.mp member).2, good.writes⟩
    have left := fewer.without resumes
      (Or.inr (Or.inr fun member => (Tidset.mem_remove.mp member).1 rfl)) (Or.inl write)
    exact All.replace found.known apart (left.addReader free)

theorem posthandleWrlock_inv (inv : RwlockInv event pending locks)
    (resumes : ∀ p ∈ pending, p.id = cp.id → Resumes (isRwlockEvent event) p cp)
    (read : isRead (event cp.typeId) = false)
    (handled : posthandleWrlock cp.id cp.payloadAddr locks = .ok locks') :
    RwlockInv event (without pending cp.id) locks' := by
  obtain ⟨lock, locks₁, init, found⟩ := findOrInit_found rwlockNew cp.payloadAddr locks
  simp only [posthandleWrlock, rwlockInit, init] at handled
  have good := found.good inv goodRwlock_new
  rw [isReadLocked_ok good, ok_bind] at handled
  obtain ⟨_, unread, handled⟩ := bind_eq_ok.mp handled
  obtain ⟨_, _, handled⟩ := bind_eq_ok.mp handled
  have none : lock.readers.entries = [] := by
    rw [check_ok_iff] at unread
    simpa using unread
  have apart := others_resumed found inv resumes
  split at handled
  · rename_i absent
    cases handled
    apply found.all_of _ apart
    exact good.without resumes (Or.inl read) (Or.inr (Or.inr (by simpa using absent)))
  · cases handled
    have fewer : GoodRwlock event pending cp.payloadAddr
        { lock with writeWaiters := lock.writeWaiters.remove cp.id, writer := cp.id } :=
      ⟨Or.inl none, good.counts, good.reads,
        fun id member => good.writes id (Tidset.mem_remove.mp member).2⟩
    apply All.replace found.known apart
    apply fewer.without resumes (Or.inl read)
    exact Or.inr (Or.inr fun member => (Tidset.mem_remove.mp member).1 rfl)

theorem posthandleTryrdlock_inv {id : TaskId} {ret : Nat} (inv : RwlockInv event pending locks)
    (handled : posthandleTryrdlock id addr locks = .ok (ret, locks')) :
    RwlockInv event pending locks' := by
  obtain ⟨lock, locks₁, init, found⟩ := findOrInit_found rwlockNew addr locks
  simp only [posthandleTryrdlock, rwlockInit, init] at handled
  have good := found.good inv goodRwlock_new
  split at handled
  · cases handled
    exact found.all inv goodRwlock_new
  · rename_i unlocked
    split at handled
    · cases handled
      exact found.all inv goodRwlock_new
    · obtain ⟨_, _, handled⟩ := bind_eq_ok.mp handled
      cases handled
      apply All.replace found.known (found.apart inv)
      exact good.addReader (by simpa [isWriteLocked] using unlocked)

theorem posthandleTrywrlock_inv {id : TaskId} {ret : Nat} (inv : RwlockInv event pending locks)
    (handled : posthandleTrywrlock id addr locks = .ok (ret, locks')) :
    RwlockInv event pending locks' := by
  obtain ⟨lock, locks₁, init, found⟩ := findOrInit_found rwlockNew addr locks
  simp only [posthandleTrywrlock, rwlockInit, init] at handled
  have good := found.good inv goodRwlock_new
  split at handled
  · cases handled
    exact found.all inv goodRwlock_new
  · rw [isReadLocked_ok good, ok_bind] at handled
    split at handled
    · cases handled
      exact found.all inv goodRwlock_new
    · rename_i unlocked
      cases handled
      have none : lock.readers.entries = [] := by
        simp only [Bool.or_eq_true, decide_eq_true_eq, not_or] at unlocked
        exact List.length_eq_zero_iff.mp (Nat.eq_zero_of_not_pos unlocked.1)
      exact All.replace found.known (found.apart inv)
        ⟨Or.inl none, good.counts, good.reads, good.writes⟩

theorem posthandleUnlock_inv {id : TaskId} (inv : RwlockInv event pending locks)
    (handled : posthandleUnlock id addr locks = .ok locks') : RwlockInv event pending locks' := by
  obtain ⟨lock, locks₁, init, found⟩ := findOrInit_found rwlockNew addr locks
  simp only [posthandleUnlock, rwlockInit, init] at handled
  have good := found.good inv goodRwlock_new
  split at handled
  · obtain ⟨_, _, handled⟩ := bind_eq_ok.mp handled
    cases handled
    exact All.replace found.known (found.apart inv)
      ⟨Or.inr rfl, good.counts, good.reads, good.writes⟩
  · rename_i free
    rw [not_not] at free
    obtain ⟨_, _, handled⟩ := bind_eq_ok.mp handled
    split at handled
    · cases handled
      exact found.all inv goodRwlock_new
    · rename_i cnt there
      obtain ⟨_, _, handled⟩ := bind_eq_ok.mp handled
      cases handled
      refine All.replace found.known (found.apart inv)
        ⟨Or.inr free, ?_, good.reads, good.writes⟩
      have positive := good.counts id cnt there
      have known : id ∈ lock.readers := AList.lookup_isSome.mp (by simp [there])
      have rest : ∀ a b, a ≠ id → lock.readers.lookup a = some b → 0 < b :=
        fun a b _ other => good.counts a b other
      show All _ (if cnt - 1 = 0 then lock.readers.erase id else lock.readers.replace id (cnt - 1))
      split
      · exact All.erase rest
      · exact All.replace known rest (by omega)

theorem RwlockInv.resumed (inv : RwlockInv event pending locks)
    (resumes : ∀ p ∈ pending, p.id = cp.id → Resumes (isRwlockEvent event) p cp)
    (read : isRead (event cp.typeId) = false) (write : isWrite (event cp.typeId) = false) :
    RwlockInv event (without pending cp.id) locks :=
  fun a b there => (inv a b there).without resumes (Or.inl read) (Or.inl write)

theorem map_snd_ok {α β ε : Type} {x : Except ε (α × β)} {b : β}
    (mapped : x.map Prod.snd = .ok b) : ∃ a, x = .ok (a, b) := by
  cases x with
  | error fault => cases mapped
  | ok result =>
      cases mapped
      exact ⟨result.1, rfl⟩

theorem rwlockResume_inv (inv : RwlockInv event pending locks)
    (resumes : ∀ p ∈ pending, p.id = cp.id → Resumes (isRwlockEvent event) p cp)
    (handled : rwlockResume event cp locks = .ok locks') :
    RwlockInv event (without pending cp.id) locks' := by
  unfold rwlockResume at handled
  cases type : event cp.typeId with
  | none =>
      rw [type] at handled
      cases handled
      exact inv.resumed resumes (by simp [type, isRead]) (by simp [type, isWrite])
  | some ev =>
      rw [type] at handled
      cases ev with
      | rdlock | timedrdlock =>
          exact posthandleRdlock_inv inv resumes (by simp [type, isWrite]) handled
      | wrlock | timedwrlock =>
          exact posthandleWrlock_inv inv resumes (by simp [type, isRead]) handled
      | unlock =>
          exact posthandleUnlock_inv
            (inv.resumed resumes (by simp [type, isRead]) (by simp [type, isWrite])) handled
      | tryrdlock =>
          obtain ⟨ret, tried⟩ := map_snd_ok handled
          exact posthandleTryrdlock_inv
            (inv.resumed resumes (by simp [type, isRead]) (by simp [type, isWrite])) tried
      | trywrlock =>
          obtain ⟨ret, tried⟩ := map_snd_ok handled
          exact posthandleTrywrlock_inv
            (inv.resumed resumes (by simp [type, isRead]) (by simp [type, isWrite])) tried

structure RwlockReady (event : TypeId → Option RwlockEvent) (cp : CapturePoint)
    (locks : RwlockState) : Prop where
  read : isRead (event cp.typeId) = true → ∀ lock, locks.lookup cp.payloadAddr = some lock →
    lock.writer = noTask
  write : isWrite (event cp.typeId) = true → ∀ lock, locks.lookup cp.payloadAddr = some lock →
    lock.writer = noTask ∧ lock.readers.entries = []
  unlock : event cp.typeId = some .unlock → ∀ lock, locks.lookup cp.payloadAddr = some lock →
    lock.writer = noTask ∨ lock.writer = cp.id

theorem posthandleRdlock_ok_iff {id : TaskId} (task : id ≠ noTask)
    (found : locks.lookup addr = some lock) :
    (∃ locks', posthandleRdlock id addr locks = .ok locks') ↔ lock.writer = noTask := by
  have known : (id != noTask) = true := by simpa using task
  simp only [posthandleRdlock, rwlockInit, findOrInit_known found]
  by_cases free : lock.writer = noTask
  · simp only [isWriteLocked, free, bne_self_eq_false, Bool.not_false, check_true, ok_bind, known,
      iff_true]
    split <;> exact ⟨_, rfl⟩
  · have locked : isWriteLocked lock = true := by simpa [isWriteLocked] using free
    simp [locked, free]

theorem posthandleWrlock_ok_iff {id : TaskId} (good : GoodRwlock event pending addr lock)
    (found : locks.lookup addr = some lock) :
    (∃ locks', posthandleWrlock id addr locks = .ok locks') ↔
      lock.writer = noTask ∧ lock.readers.entries = [] := by
  simp only [posthandleWrlock, rwlockInit, findOrInit_known found, isReadLocked_ok good, ok_bind]
  by_cases none : lock.readers.entries = []
  · by_cases free : lock.writer = noTask
    · simp only [none, free, List.length_nil, Nat.lt_irrefl, decide_false, Bool.not_false,
        check_true, ok_bind, beq_self_eq_true, and_self, iff_true]
      split <;> exact ⟨_, rfl⟩
    · have owned : (lock.writer == noTask) = false := by simpa using free
      simp [none, free, owned]
  · have some : 0 < lock.readers.entries.length := List.length_pos_iff.mpr none
    simp [none, some]

theorem posthandleUnlock_ok_iff {id : TaskId} {locks₁ : RwlockState} (task : id ≠ noTask)
    (good : GoodRwlock event pending addr lock)
    (init : findOrInit rwlockNew addr locks = (lock, locks₁)) :
    (∃ locks', posthandleUnlock id addr locks = .ok locks') ↔
      lock.writer = noTask ∨ lock.writer = id := by
  have known : (id != noTask) = true := by simpa using task
  simp only [posthandleUnlock, rwlockInit, init]
  by_cases free : lock.writer = noTask
  · simp only [free, ne_eq, not_true_eq_false, if_false, known, check_true, ok_bind, true_or,
      iff_true]
    cases reader : lock.readers.lookup id with
    | none => exact ⟨_, rfl⟩
    | some cnt =>
        have counted : decide (0 ≤ cnt) = true :=
          decide_eq_true (Int.le_of_lt (good.counts id cnt reader))
        simp [counted]
  · by_cases own : lock.writer = id
    · simp [own, task]
    · have other : (lock.writer == id) = false := by simpa using own
      simp [free, own, other]

theorem posthandleTryrdlock_ok {id : TaskId} (addr : UInt64) (locks : RwlockState)
    (task : id ≠ noTask) :
    ∃ result, posthandleTryrdlock id addr locks = .ok result := by
  have known : (id != noTask) = true := by simpa using task
  obtain ⟨lock, locks₁, init, _⟩ := findOrInit_found rwlockNew addr locks
  simp only [posthandleTryrdlock, rwlockInit, init, known, check_true, ok_bind]
  split
  · exact ⟨_, rfl⟩
  · split <;> exact ⟨_, rfl⟩

theorem posthandleTrywrlock_ok (id : TaskId) (addr : UInt64)
    (inv : RwlockInv event pending locks) :
    ∃ result, posthandleTrywrlock id addr locks = .ok result := by
  obtain ⟨lock, locks₁, init, found⟩ := findOrInit_found rwlockNew addr locks
  have good := found.good inv goodRwlock_new
  simp only [posthandleTrywrlock, rwlockInit, init, isReadLocked_ok good, ok_bind]
  split
  · exact ⟨_, rfl⟩
  · split <;> exact ⟨_, rfl⟩

theorem source_iff (holds : Rwlock → Prop) (init : holds rwlockNew)
    (source : locks.lookup addr = some lock ∨ locks.lookup addr = none ∧ lock = rwlockNew) :
    holds lock ↔ ∀ before, locks.lookup addr = some before → holds before := by
  rcases source with old | ⟨unknown, rfl⟩
  · simp [old]
  · simp [unknown, init]

/-- After its capture half, the resume half of the rwlock handler passes exactly if the lock was
ready. -/
theorem rwlockResume_ok_iff (inv : RwlockInv event pending locks) (task : cp.id ≠ noTask)
    (runs : e.skip = false) (handled : rwlockHandle event cp e locks = .ok (e', locks')) :
    (∃ locks'', rwlockResume event cp locks' = .ok locks'') ↔ RwlockReady event cp locks := by
  obtain ⟨_, _, _, ran⟩ := rwlockHandle_cases handled
  obtain ⟨e₁, switched⟩ := ran runs
  obtain ⟨_, _, reads, writes, kept⟩ := rwlockSwitch_cases switched
  have readCase : isRead (event cp.typeId) = true →
      ((∃ locks'', posthandleRdlock cp.id cp.payloadAddr locks' = .ok locks'') ↔
        ∀ lock, locks.lookup cp.payloadAddr = some lock → lock.writer = noTask) := by
    intro read
    obtain ⟨_, entered⟩ := reads read
    obtain ⟨_, lock, lock', entering, found, source, _⟩ := handleRdlock_inv inv read entered
    rw [posthandleRdlock_ok_iff task found, entering.writer]
    exact source_iff (fun lock => lock.writer = noTask) rfl source
  have writeCase : isWrite (event cp.typeId) = true →
      ((∃ locks'', posthandleWrlock cp.id cp.payloadAddr locks' = .ok locks'') ↔
        ∀ lock, locks.lookup cp.payloadAddr = some lock →
          lock.writer = noTask ∧ lock.readers.entries = []) := by
    intro write
    obtain ⟨_, entered⟩ := writes write
    obtain ⟨inv', lock, lock', entering, found, source, _⟩ := handleWrlock_inv inv write entered
    rw [posthandleWrlock_ok_iff (inv' _ _ found) found, entering.writer, entering.readers]
    exact source_iff (fun lock => lock.writer = noTask ∧ lock.readers.entries = []) ⟨rfl, rfl⟩ source
  unfold rwlockResume
  cases type : event cp.typeId with
  | none =>
      refine ⟨fun _ => ⟨?_, ?_, ?_⟩, fun _ => ⟨_, rfl⟩⟩ <;> simp [type, isRead, isWrite]
  | some ev =>
      rw [type] at readCase writeCase kept
      cases ev with
      | rdlock | timedrdlock =>
          have iff := readCase rfl
          constructor
          · intro passed
            refine ⟨fun _ => iff.mp passed, ?_, ?_⟩ <;> simp [type, isWrite]
          · intro ready
            exact iff.mpr (ready.read (by simp [type, isRead]))
      | wrlock | timedwrlock =>
          have iff := writeCase rfl
          constructor
          · intro passed
            refine ⟨?_, fun _ => iff.mp passed, ?_⟩ <;> simp [type, isRead]
          · intro ready
            exact iff.mpr (ready.write (by simp [type, isWrite]))
      | unlock =>
          rw [kept rfl rfl]
          obtain ⟨lock, locks₁, init, found⟩ := findOrInit_found rwlockNew cp.payloadAddr locks
          have iff := (posthandleUnlock_ok_iff task (found.good inv goodRwlock_new) init).trans
            (source_iff (fun lock => lock.writer = noTask ∨ lock.writer = cp.id) (Or.inl rfl)
              found.source)
          constructor
          · intro passed
            refine ⟨?_, ?_, fun _ => iff.mp passed⟩ <;> simp [type, isRead, isWrite]
          · intro ready
            exact iff.mpr (ready.unlock type)
      | tryrdlock =>
          obtain ⟨result, tried⟩ :=
            posthandleTryrdlock_ok cp.payloadAddr locks' task
          refine ⟨fun _ => ⟨?_, ?_, ?_⟩, fun _ => ⟨result.2, by simp only [tried]; rfl⟩⟩ <;>
            simp [type, isRead, isWrite]
      | trywrlock =>
          rw [kept rfl rfl]
          obtain ⟨result, tried⟩ :=
            posthandleTrywrlock_ok cp.id cp.payloadAddr inv
          refine ⟨fun _ => ⟨?_, ?_, ?_⟩, fun _ => ⟨result.2, by simp only [tried]; rfl⟩⟩ <;>
            simp [type, isRead, isWrite]

end Lotto.RwlockSpecs
