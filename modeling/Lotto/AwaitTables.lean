import Lotto.Library.KeyMap
import Lotto.AwaitAddress

namespace Lotto.AwaitAddress

open Library.FaultRun
open Library.KeyMap
open Lotto.Rusty

structure InSync (st : State) : Prop where
  linked : ∀ task addr, st.blockedTasks.lookup task = some addr ↔
    ∃ waiting, st.monitoredAddresses.lookup addr = some waiting ∧ task ∈ waiting
  once : ∀ addr waiting, st.monitoredAddresses.lookup addr = some waiting → waiting.Nodup

def written : EventArgs → Option Address
  | .addressOnly .beforeWrite addr _ => some addr
  | .addressValue _ addr _ _ => some addr
  | .addressTwoValuesEvent _ addr _ _ _ => some addr
  | .addressOnly _ _ _ | .noChanges => none

def Unblocks (addr : Address) (st st' : State) : Prop :=
  ∀ task, st'.blockedTasks.lookup task =
    if st.blockedTasks.lookup task = some addr then none else st.blockedTasks.lookup task

def AwaitsInPlace : Move → State → Prop
  | .await tid address, st => ∀ old, st.blockedTasks.lookup tid = some old → old = address
  | .execute _, _ => True

variable {debug : Bool} {st st' : State}

theorem InSync.new : InSync AwaitAddress.new := by
  constructor
  · intro task addr
    simp [AwaitAddress.new]
  · intro addr waiting found
    simp [AwaitAddress.new] at found

theorem removeBlocked_ok {blocked : AList fun _ : TaskId => Address} {task : TaskId}
    (known : task ∈ blocked) : removeBlocked blocked task = .ok (blocked.erase task) := by
  simp [removeBlocked, known]

theorem removeAll_ok (waiting : List TaskId) (blocked : AList fun _ : TaskId => Address)
    (distinct : waiting.Nodup) (known : ∀ task ∈ waiting, task ∈ blocked) :
    ∃ left, waiting.foldlM removeBlocked blocked = .ok left ∧
      ∀ task, left.lookup task = if task ∈ waiting then none else blocked.lookup task := by
  induction waiting generalizing blocked with
  | nil => exact ⟨blocked, rfl, by simp⟩
  | cons first rest ih =>
      obtain ⟨absent, distinct⟩ := List.nodup_cons.mp distinct
      have stillKnown : ∀ task ∈ rest, task ∈ blocked.erase first := by
        intro task member
        rw [AList.mem_erase]
        refine ⟨?_, known task (List.mem_cons_of_mem first member)⟩
        intro same
        exact absent (same ▸ member)
      obtain ⟨left, removed, rest'⟩ := ih (blocked.erase first) distinct stillKnown
      refine ⟨left, ?_, ?_⟩
      · rw [List.foldlM_cons, removeBlocked_ok (known first List.mem_cons_self), ok_bind, removed]
      · intro task
        rw [rest' task]
        by_cases same : task = first
        · subst same
          simp
        · simp [same, AList.lookup_erase_ne same]

theorem unblockAddrNow_ok (inv : InSync st) (addr : Address) :
    ∃ waiting st', unblockAddrNow addr st = .ok (waiting, st') ∧ Unblocks addr st st' ∧
      InSync st' := by
  cases found : st.monitoredAddresses.lookup addr with
  | none =>
      refine ⟨[], st, by simp [unblockAddrNow, found], ?_, inv⟩
      intro task
      have free : st.blockedTasks.lookup task ≠ some addr := by
        intro blocked
        obtain ⟨waiting, listed, -⟩ := (inv.linked task addr).mp blocked
        rw [found] at listed
        cases listed
      rw [if_neg free]
  | some waiting =>
      have member : ∀ task, task ∈ waiting ↔ st.blockedTasks.lookup task = some addr := by
        intro task
        rw [inv.linked]
        simp [found]
      obtain ⟨left, removed, lookups⟩ := removeAll_ok waiting st.blockedTasks
        (inv.once addr waiting found)
        (fun task listed => mem_of_lookup ((member task).mp listed))
      refine ⟨waiting, { st with
          blockedTasks := left, monitoredAddresses := st.monitoredAddresses.erase addr },
        by simp [unblockAddrNow, found, removed], ?_, ?_, ?_⟩
      · intro task
        simp only [lookups task, member task]
      · intro task other
        simp only [lookups task, member task, lookup_erase_some]
        by_cases same : other = addr
        · simp [same]
        · by_cases blocked : st.blockedTasks.lookup task = some addr
          · have elsewhere := (inv.linked task other).not.mp (by rw [blocked]; simpa using Ne.symm same)
            simpa [blocked, same] using elsewhere
          · rw [if_neg blocked, inv.linked]
            simp [same]
      · intro other waiting' listed
        rw [lookup_erase_some] at listed
        exact inv.once other waiting' listed.2

/-- A write unblocks exactly the tasks that wait for its address, and every other event leaves
the tables alone. -/
theorem handleExecute_ok (inv : InSync st) (args : EventArgs) :
    ∃ st', handleExecute args st = .ok st' ∧
      (∀ addr, written args = some addr → Unblocks addr st st') ∧ InSync st' := by
  have unblocks : ∀ addr, ∃ st', (unblockAddrNow addr st).map Prod.snd = .ok st' ∧
      (∀ addr', some addr = some addr' → Unblocks addr' st st') ∧ InSync st' := by
    intro addr
    obtain ⟨waiting, st', ran, effect, inv'⟩ := unblockAddrNow_ok inv addr
    refine ⟨st', by rw [ran]; rfl, ?_, inv'⟩
    intro addr' same
    obtain rfl := Option.some.inj same
    exact effect
  cases args with
  | noChanges => exact ⟨st, rfl, by simp [written], inv⟩
  | addressOnly cat addr size =>
      cases cat with
      | beforeWrite => exact unblocks addr
      | beforeARead => exact ⟨st, rfl, by simp [written], inv⟩
      | beforeRead => exact ⟨st, rfl, by simp [written], inv⟩
  | addressValue cat addr size value =>
      cases cat with
      | beforeAWrite => exact unblocks addr
      | beforeRMW => exact unblocks addr
  | addressTwoValuesEvent cat addr size value1 value2 => exact unblocks addr

/-- The tables once `tid` stands after the tasks that wait for `addr` already. -/
def entered (st : State) (tid : TaskId) (addr : Address) (before : List TaskId) : State :=
  { st with
    blockedTasks := st.blockedTasks.insert tid addr
    monitoredAddresses := st.monitoredAddresses.insert addr (before ++ [tid]) }

theorem blockCurTaskOnAddr_free (inv : InSync st) {tid : TaskId} {addr : Address}
    (free : st.blockedTasks.lookup tid = none) :
    ∃ st', blockCurTaskOnAddr debug tid addr st = .ok st' ∧ InSync st' := by
  have unlisted : ∀ other waiting, st.monitoredAddresses.lookup other = some waiting →
      tid ∉ waiting := by
    intro other waiting found listed
    have blocked := (inv.linked tid other).mpr ⟨waiting, found, listed⟩
    rw [free] at blocked
    cases blocked
  have inSync : ∀ before : List TaskId, before.Nodup → tid ∉ before →
      (∀ task, st.blockedTasks.lookup task = some addr ↔ task ∈ before) →
      InSync (entered st tid addr before) := by
    intro before distinct absent listed
    constructor
    · intro task other
      simp only [entered, lookup_insert_some]
      by_cases here : other = addr
      · subst here
        by_cases same : task = tid
        · simp [same]
        · simp [same, listed]
      · by_cases same : task = tid
        · subst same
          have none : ¬∃ waiting, st.monitoredAddresses.lookup other = some waiting ∧
              task ∈ waiting := by
            intro ⟨waiting, found, member⟩
            exact unlisted other waiting found member
          simpa [here] using none
        · simp only [same, here, false_and, ne_eq, not_false_eq_true, true_and, false_or]
          exact inv.linked task other
    · intro other waiting found
      rw [entered, lookup_insert_some] at found
      rcases found with ⟨rfl, rfl⟩ | ⟨-, found⟩
      · exact List.nodup_append.mpr ⟨distinct, by simp, by
          intro a member b last
          obtain rfl := List.mem_singleton.mp last
          intro same
          exact absent (same ▸ member)⟩
      · exact inv.once other waiting found
  cases found : st.monitoredAddresses.lookup addr with
  | none =>
      refine ⟨entered st tid addr [], by simp [blockCurTaskOnAddr, free, found, entered], ?_⟩
      refine inSync [] List.nodup_nil (by simp) ?_
      intro task
      rw [inv.linked]
      simp [found]
  | some before =>
      have absent := unlisted addr before found
      refine ⟨entered st tid addr before,
        by simp [blockCurTaskOnAddr, free, found, absent, entered], ?_⟩
      refine inSync before (inv.once addr before found) absent ?_
      intro task
      rw [inv.linked]
      simp [found]

theorem handleAwaitContext_ok (inv : InSync st) {tid : TaskId} {addr : Address}
    (inPlace : AwaitsInPlace (.await tid addr) st) :
    ∃ st', handleAwaitContext debug tid addr st = .ok st' ∧ InSync st' := by
  have marked : ∀ st : State, InSync st → InSync { st with isChpt := true } := by
    intro st inv
    exact ⟨inv.linked, inv.once⟩
  cases old : st.blockedTasks.lookup tid with
  | none =>
      obtain ⟨st', blocked, inv'⟩ := blockCurTaskOnAddr_free inv old
      exact ⟨{ st' with isChpt := true }, by rw [handleAwaitContext, blocked]; rfl, marked st' inv'⟩
  | some addr' =>
      obtain rfl := inPlace addr' old
      have same : ∀ task, (st.blockedTasks.insert tid addr').lookup task =
          st.blockedTasks.lookup task := by
        intro task
        by_cases here : task = tid
        · rw [here, AList.lookup_insert, old]
        · rw [AList.lookup_insert_ne here]
      refine ⟨{ st with blockedTasks := st.blockedTasks.insert tid addr', isChpt := true },
        by simp [handleAwaitContext, blockCurTaskOnAddr, old], ?_, inv.once⟩
      intro task addr
      simp only [same]
      exact inv.linked task addr

theorem handleAwaitContext_stale (inv : InSync st) {tid : TaskId} {addr old : Address}
    (blocked : st.blockedTasks.lookup tid = some old) (elsewhere : old ≠ addr)
    (ran : handleAwaitContext debug tid addr st = .ok st') : ¬InSync st' := by
  obtain ⟨waiting, listed, member⟩ := (inv.linked tid old).mp blocked
  have kept : st'.blockedTasks.lookup tid = some addr ∧
      st'.monitoredAddresses.lookup old = some waiting := by
    obtain ⟨entered, stepped, marked⟩ := bind_eq_ok.mp ran
    obtain rfl := Except.ok.inj marked
    simp only [blockCurTaskOnAddr, blocked, Option.some.injEq, elsewhere, if_false] at stepped
    split at stepped
    · obtain ⟨-, -, rest⟩ := bind_eq_ok.mp stepped
      obtain rfl := Except.ok.inj rest
      simp [AList.lookup_insert_ne elsewhere, listed]
    · obtain rfl := Except.ok.inj stepped
      simp [AList.lookup_insert_ne elsewhere, listed]
  intro inv'
  have stale := (inv'.linked tid old).mpr ⟨waiting, kept.2, member⟩
  rw [kept.1] at stale
  exact elsewhere (Option.some.inj stale).symm

/-- Along the run the tables are in step, no step panics, and each write unblocks the waiters of
its address. -/
def StaysInSync (debug : Bool) : List Move → State → Prop
  | [], st => InSync st
  | move :: moves, st => InSync st ∧ ∃ st', step debug move st = .ok st' ∧
      (∀ args addr, move = .execute args → written args = some addr → Unblocks addr st st') ∧
      StaysInSync debug moves st'

/-- Each await of the run is one in place, in the state that it is made in. -/
def AlwaysInPlace (debug : Bool) : List Move → State → Prop
  | [], _ => True
  | move :: moves, st => AwaitsInPlace move st ∧
      ∀ st', step debug move st = .ok st' → AlwaysInPlace debug moves st'

theorem StaysInSync.head {moves : List Move} (stays : StaysInSync debug moves st) : InSync st := by
  cases moves with
  | nil => exact stays
  | cons move moves => exact stays.1

theorem step_ok (debug : Bool) (inv : InSync st) {move : Move} (inPlace : AwaitsInPlace move st) :
    ∃ st', step debug move st = .ok st' ∧
      (∀ args addr, move = .execute args → written args = some addr → Unblocks addr st st') ∧
      InSync st' := by
  cases move with
  | await tid address =>
      obtain ⟨st', ran, inv'⟩ := handleAwaitContext_ok inv inPlace
      exact ⟨st', ran, by simp, inv'⟩
  | execute args =>
      obtain ⟨st', ran, effect, inv'⟩ := handleExecute_ok inv args
      refine ⟨st', ran, ?_, inv'⟩
      intro args' addr same changes
      obtain rfl := Move.execute.inj same
      exact effect addr changes

theorem step_inPlace (inv : InSync st) {move : Move} (ran : step debug move st = .ok st')
    (inv' : InSync st') : AwaitsInPlace move st := by
  cases move with
  | execute args => trivial
  | await tid address =>
      intro old blocked
      by_contra elsewhere
      exact handleAwaitContext_stale inv blocked elsewhere ran inv'

theorem staysInSync_iff (debug : Bool) (moves : List Move) (inv : InSync st) :
    StaysInSync debug moves st ↔ AlwaysInPlace debug moves st := by
  induction moves generalizing st with
  | nil => simp [StaysInSync, AlwaysInPlace, inv]
  | cons move moves ih =>
      constructor
      · intro stays
        obtain ⟨-, st', ran, -, rest⟩ := stays
        refine ⟨step_inPlace inv ran rest.head, ?_⟩
        intro st'' ran'
        obtain rfl := Except.ok.inj (ran.symm.trans ran')
        exact (ih rest.head).mp rest
      · intro inPlace
        obtain ⟨st', ran, effect, inv'⟩ := step_ok debug inv inPlace.1
        exact ⟨inv, st', ran, effect, (ih inv').mpr (inPlace.2 st' ran)⟩

/-- The tables of the handler stay inverse to each other, without a panic, in exactly the runs in
which a task that is still blocked awaits no other address. -/
theorem tables_stay_in_sync_iff (debug : Bool) (moves : List Move) :
    StaysInSync debug moves new ↔ AlwaysInPlace debug moves new :=
  staysInSync_iff debug moves InSync.new

def addrX : Address := ⟨16, by decide⟩
def addrY : Address := ⟨32, by decide⟩

/-- A task that awaits `x` and, resumed although blocked, awaits `y`. -/
def reawait : List Move := [.await 1 addrX, .await 1 addrY]

def writes : List Move :=
  [.execute (.addressOnly .beforeWrite addrX 8), .execute (.addressOnly .beforeWrite addrY 8)]

theorem reawait_breaks_tables :
    ¬StaysInSync true reawait new ∧ ¬StaysInSync true (reawait ++ writes) new ∧
      (reawait ++ writes).foldlM (fun st move => step true move st) new =
        .error .awaitNotInSync := by
  have moved : ∀ moves, ¬StaysInSync true (reawait ++ moves) new := by
    intro moves stays
    have inPlace := (staysInSync_iff true (reawait ++ moves) InSync.new).mp stays
    have second := (inPlace.2 _ rfl).1 addrX rfl
    exact absurd second (by decide)
  exact ⟨moved [], moved writes, by decide⟩

end Lotto.AwaitAddress
