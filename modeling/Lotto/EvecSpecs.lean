import Lotto.Library.FaultRun
import Lotto.Library.KeyMap
import Lotto.Evec

namespace Lotto.EvecSpecs

open Library.FaultRun Library.KeyMap

/-- `lotto_dbg_evec_waiters_of`, with no waiters for an unknown event. -/
def waitersOf (evecs : Map Evec) (eid : UInt64) : Tidset :=
  match evecs.lookup eid with
  | some evec => evec.waiters
  | none => .empty

def deadlineOf (evecs : Map Evec) (eid : UInt64) (id : TaskId) : Option EvecDeadline :=
  (evecs.lookup eid).bind fun evec => evec.deadlines.lookup id

section Updates

variable {evecs evecs' : Map Evec} {eid : UInt64} {evec v : Evec}

def Sets (eid : UInt64) (v : Evec) (evecs evecs' : Map Evec) : Prop :=
  ∀ e, evecs'.lookup e = if e = eid then some v else evecs.lookup e

theorem waitersOf_found (found : evecs.lookup eid = some evec) :
    waitersOf evecs eid = evec.waiters := by
  rw [waitersOf, found]

theorem waitersOf_missing (missing : evecs.lookup eid = none) :
    waitersOf evecs eid = .empty := by
  rw [waitersOf, missing]

theorem deadlineOf_found (found : evecs.lookup eid = some evec) (id : TaskId) :
    deadlineOf evecs eid id = evec.deadlines.lookup id := by
  rw [deadlineOf, found]
  rfl

theorem Sets.waitersOf (sets : Sets eid v evecs evecs') (e : UInt64) :
    waitersOf evecs' e = if e = eid then v.waiters else EvecSpecs.waitersOf evecs e := by
  rw [EvecSpecs.waitersOf, sets e]
  by_cases same : e = eid
  · rw [if_pos same, if_pos same]
  · rw [if_neg same, if_neg same, EvecSpecs.waitersOf]

theorem Sets.deadlineOf (sets : Sets eid v evecs evecs') (e : UInt64) (id : TaskId) :
    deadlineOf evecs' e id =
      if e = eid then v.deadlines.lookup id else EvecSpecs.deadlineOf evecs e id := by
  rw [EvecSpecs.deadlineOf, sets e]
  by_cases same : e = eid
  · rw [if_pos same, if_pos same]
    rfl
  · rw [if_neg same, if_neg same, EvecSpecs.deadlineOf]

theorem sets_replace (found : evecs.lookup eid = some evec) :
    Sets eid v evecs (evecs.replace eid v) :=
  fun e => lookup_replace (mem_of_lookup found) e v

theorem evecInit_lookup (eid : UInt64) (evecs : Map Evec) :
    Sets eid (evecInit eid evecs).1 evecs (evecInit eid evecs).2 := by
  intro e
  cases found : evecs.lookup eid with
  | none =>
      simp only [evecInit, findOrInit, found]
      by_cases same : e = eid
      · rw [same, AList.lookup_insert, if_pos rfl]
      · rw [AList.lookup_insert_ne same, if_neg same]
  | some evec =>
      simp only [evecInit, findOrInit, found]
      by_cases same : e = eid
      · rw [same, found, if_pos rfl]
      · rw [if_neg same]

theorem sets_init (eid : UInt64) (evecs : Map Evec) (v : Evec) :
    Sets eid v evecs ((evecInit eid evecs).2.replace eid v) := by
  have here : (evecInit eid evecs).2.lookup eid = some (evecInit eid evecs).1 := by
    rw [evecInit_lookup, if_pos rfl]
  intro e
  rw [sets_replace here e, evecInit_lookup eid evecs e]
  by_cases same : e = eid
  · rw [if_pos same, if_pos same]
  · rw [if_neg same, if_neg same, if_neg same]

theorem evecInit_waiters (eid : UInt64) (evecs : Map Evec) :
    (evecInit eid evecs).1.waiters = waitersOf evecs eid := by
  cases found : evecs.lookup eid with
  | none => simp [evecInit, findOrInit, found, waitersOf, evecNew]
  | some evec => simp [evecInit, findOrInit, found, waitersOf]

theorem evecInit_deadlines (eid : UInt64) (evecs : Map Evec) (id : TaskId) :
    (evecInit eid evecs).1.deadlines.lookup id = deadlineOf evecs eid id := by
  cases found : evecs.lookup eid with
  | none => simp [evecInit, findOrInit, found, deadlineOf, evecNew]
  | some evec => simp [evecInit, findOrInit, found, deadlineOf]

end Updates

variable {st st' : EvecState} {id : TaskId} {eid : UInt64}

section Registration

structure Prepared (id : TaskId) (eid : UInt64) (st st' : EvecState) : Prop where
  members : ∀ x e, x ∈ waitersOf st'.evecs e ↔ x ∈ waitersOf st.evecs e ∨ x = id ∧ e = eid
  deadlines : ∀ e x, deadlineOf st'.evecs e x = deadlineOf st.evecs e x
  waiters : st'.waiters = st.waiters
  stores : st'.stores = st.stores

theorem posthandlePrepare_spec (ran : posthandlePrepare id eid st = .ok st') :
    Prepared id eid st st' := by
  obtain ⟨_, _, rest⟩ := bind_eq_ok.mp ran
  obtain rfl := Except.ok.inj rest
  have sets := sets_init eid st.evecs
    { waiters := (evecInit eid st.evecs).1.waiters.insert id
      deadlines := (evecInit eid st.evecs).1.deadlines }
  refine ⟨?_, ?_, rfl, rfl⟩
  · intro x e
    apply (iff_of_eq (congrArg (x ∈ ·) (sets.waitersOf e))).trans
    by_cases same : e = eid
    · subst same
      rw [if_pos rfl, Tidset.mem_insert, evecInit_waiters]
      simp
    · rw [if_neg same]
      simp [same]
  · intro e x
    apply (sets.deadlineOf e x).trans
    by_cases same : e = eid
    · subst same
      rw [if_pos rfl, evecInit_deadlines]
    · rw [if_neg same]

structure Cancelled (id : TaskId) (eid : UInt64) (st st' : EvecState) : Prop where
  members : ∀ x e, x ∈ waitersOf st'.evecs e ↔ x ∈ waitersOf st.evecs e ∧ ¬(x = id ∧ e = eid)
  deadlines : ∀ e x, deadlineOf st'.evecs e x = deadlineOf st.evecs e x
  waiters : st'.waiters = st.waiters
  stores : st'.stores = st.stores

theorem members_remove {evecs evecs' : Map Evec} {evec v : Evec} {next : TaskId}
    (found : evecs.lookup eid = some evec) (sets : Sets eid v evecs evecs')
    (removed : v.waiters = evec.waiters.remove next) (x : TaskId) (e : UInt64) :
    x ∈ waitersOf evecs' e ↔ x ∈ waitersOf evecs e ∧ ¬(x = next ∧ e = eid) := by
  rw [sets.waitersOf]
  by_cases same : e = eid
  · subst same
    rw [if_pos rfl, removed, Tidset.mem_remove, waitersOf_found found]
    simp [and_comm]
  · rw [if_neg same]
    simp [same]

theorem posthandleCancel_spec (ran : posthandleCancel id eid st = .ok st') :
    Cancelled id eid st st' := by
  unfold posthandleCancel at ran
  cases found : st.evecs.lookup eid with
  | none =>
      rw [found] at ran
      cases ran
      refine ⟨?_, fun _ _ => rfl, rfl, rfl⟩
      intro x e
      refine ⟨fun member => ⟨member, ?_⟩, And.left⟩
      rintro ⟨_, rfl⟩
      rw [waitersOf_missing found] at member
      exact Tidset.not_mem_empty x member
  | some evec =>
      rw [found] at ran
      obtain ⟨_, _, rest⟩ := bind_eq_ok.mp ran
      cases rest
      have sets := sets_replace found (v := { evec with waiters := evec.waiters.remove id })
      refine ⟨members_remove found sets rfl, ?_, rfl, rfl⟩
      intro e x
      rw [sets.deadlineOf]
      by_cases same : e = eid
      · subst same
        rw [if_pos rfl, deadlineOf_found found]
      · rw [if_neg same]

end Registration

section Blocking

structure Waited (id : TaskId) (eid : UInt64) (st st' : EvecState) : Prop where
  evecs : st'.evecs = st.evecs
  waiters : ∀ x, x ∈ st'.waiters ↔ x ∈ st.waiters ∨ x = id ∧ id ∈ waitersOf st.evecs eid
  stores : st'.stores = st.stores

theorem handleWait_spec (ran : handleWait id eid st = .ok st') : Waited id eid st st' := by
  unfold handleWait at ran
  cases found : st.evecs.lookup eid with
  | none =>
      rw [found] at ran
      obtain rfl := Except.ok.inj ran
      exact ⟨rfl, by simp [waitersOf_missing found], rfl⟩
  | some evec =>
      rw [found] at ran
      obtain ⟨_, _, rest⟩ := bind_eq_ok.mp ran
      by_cases member : id ∈ evec.waiters
      · rw [if_neg (by simp [member])] at rest
        obtain rfl := Except.ok.inj rest
        exact ⟨rfl, by simp [waitersOf_found found, member], rfl⟩
      · rw [if_pos (by simp [member])] at rest
        obtain rfl := Except.ok.inj rest
        exact ⟨rfl, by simp [waitersOf_found found, member], rfl⟩

structure TimedWaited (id : TaskId) (eid : UInt64) (ret : UInt64) (st st' : EvecState) : Prop where
  members : ∀ e, waitersOf st'.evecs e = waitersOf st.evecs e
  fresh : deadlineOf st.evecs eid id = none
  deadlines : ∀ e x d, deadlineOf st'.evecs e x = some d ↔
    (e = eid ∧ x = id ∧ d = { deadline := { st.now with tvSec := st.now.tvSec + 20 }, ret }) ∨
      ¬(e = eid ∧ x = id) ∧ deadlineOf st.evecs e x = some d
  waiters : ∀ x, x ∈ st'.waiters ↔ x ∈ st.waiters ∨ x = id
  stores : st'.stores = st.stores

/-- The ways through `_handle_timed_wait`: a task that is no member of the evec, a member without a
time, and a member that blocks. -/
theorem handleTimedWait_cases {abstime : Option Timespec} {ret : UInt64}
    (ran : handleTimedWait id eid abstime ret st = .ok st') :
    (id ∉ waitersOf st.evecs eid ∧ st' = st) ∨
    (id ∈ waitersOf st.evecs eid ∧ abstime = none ∧ st'.evecs = st.evecs ∧
      st'.waiters = st.waiters ∧ st'.stores = (ret, .invalid) :: st.stores) ∨
    (id ∈ waitersOf st.evecs eid ∧ (∃ t, abstime = some t) ∧ TimedWaited id eid ret st st') := by
  unfold handleTimedWait at ran
  cases found : st.evecs.lookup eid with
  | none =>
      rw [found] at ran
      exact Or.inl ⟨by simp [waitersOf_missing found], (Except.ok.inj ran).symm⟩
  | some evec =>
      rw [found] at ran
      obtain ⟨_, _, rest⟩ := bind_eq_ok.mp ran
      rw [waitersOf_found found]
      by_cases member : id ∈ evec.waiters
      · right
        rw [if_neg (by simp [member])] at rest
        obtain ⟨_, unregistered, rest⟩ := bind_eq_ok.mp rest
        cases abstime with
        | none =>
            obtain ⟨timeouts, _, rest⟩ := bind_eq_ok.mp rest
            obtain rfl := Except.ok.inj rest
            exact Or.inl ⟨member, rfl, rfl, rfl, rfl⟩
        | some t =>
            obtain ⟨timeouts, _, rest⟩ := bind_eq_ok.mp rest
            obtain rfl := Except.ok.inj rest
            refine Or.inr ⟨member, ⟨t, rfl⟩, ?_⟩
            have absent : evec.deadlines.lookup id = none := by
              rw [check_ok_iff, Option.isNone_iff_eq_none] at unregistered
              exact unregistered
            have sets := sets_replace found (v := { evec with
              deadlines := evec.deadlines.insert id
                { deadline := { st.now with tvSec := st.now.tvSec + 20 }, ret } })
            refine ⟨?_, (deadlineOf_found found id).trans absent, ?_, ?_, rfl⟩
            · intro e
              apply (sets.waitersOf e).trans
              by_cases same : e = eid
              · subst same
                rw [if_pos rfl, waitersOf_found found]
              · rw [if_neg same]
            · intro e x d
              apply (iff_of_eq (congrArg (· = some d) (sets.deadlineOf e x))).trans
              by_cases same : e = eid
              · subst same
                rw [if_pos rfl, lookup_insert_some, deadlineOf_found found]
                simp
              · simp [same]
            · intro x
              exact Tidset.mem_insert
      · rw [if_pos (by simp [member])] at rest
        exact Or.inl ⟨member, (Except.ok.inj rest).symm⟩

end Blocking

section Waking

structure Woken (next : TaskId) (eid : UInt64) (st st' : EvecState) : Prop where
  members : ∀ x e, x ∈ waitersOf st'.evecs e ↔ x ∈ waitersOf st.evecs e ∧ ¬(x = next ∧ e = eid)
  deadlines : ∀ e x d, deadlineOf st'.evecs e x = some d ↔
    deadlineOf st.evecs e x = some d ∧ ¬(x = next ∧ e = eid)
  waiters : ∀ x, x ∈ st'.waiters ↔ x ∈ st.waiters ∧ x ≠ next
  stores : st'.stores = ((deadlineOf st.evecs eid next).toList.map fun d => (d.ret, .invalid)) ++
    st.stores
  own : waitersOf st'.evecs eid = (waitersOf st.evecs eid).remove next

theorem wakeTask_spec {next : TaskId} {evec : Evec} (found : st.evecs.lookup eid = some evec)
    (ran : wakeTask next eid evec st = .ok st') : Woken next eid st st' := by
  obtain ⟨_, _, rest⟩ := bind_eq_ok.mp ran
  cases deadline : evec.deadlines.lookup next with
  | none =>
      rw [deadline] at rest
      obtain rfl := Except.ok.inj rest
      have sets := sets_replace found (v := { evec with waiters := evec.waiters.remove next })
      refine ⟨members_remove found sets rfl, ?_, by simp [and_comm], ?_, ?_⟩
      · intro e x d
        apply (iff_of_eq (congrArg (· = some d) (sets.deadlineOf e x))).trans
        by_cases same : e = eid
        · subst same
          rw [if_pos rfl, deadlineOf_found found]
          refine ⟨fun entry => ⟨entry, ?_⟩, And.left⟩
          rintro ⟨rfl, _⟩
          rw [deadline] at entry
          cases entry
        · simp [same]
      · simp [deadlineOf_found found, deadline]
      · rw [sets.waitersOf, if_pos rfl, waitersOf_found found]
  | some d =>
      rw [deadline] at rest
      obtain ⟨timeouts, _, rest⟩ := bind_eq_ok.mp rest
      obtain rfl := Except.ok.inj rest
      have sets := sets_replace found
        (v := { waiters := evec.waiters.remove next, deadlines := evec.deadlines.erase next })
      refine ⟨members_remove found sets rfl, ?_, by simp [and_comm], ?_, ?_⟩
      · intro e x d
        apply (iff_of_eq (congrArg (· = some d) (sets.deadlineOf e x))).trans
        by_cases same : e = eid
        · subst same
          rw [if_pos rfl, deadlineOf_found found, lookup_erase_some]
          simp [and_comm]
        · simp [same]
      · simp [deadlineOf_found found, deadline]
      · rw [sets.waitersOf, if_pos rfl, waitersOf_found found]

theorem wakeTask_runs {next : TaskId} (eid : UInt64) (evec : Evec) (st : EvecState) (named : next ≠ noTask) :
    ∃ st', wakeTask next eid evec st = .ok st' := by
  have checked : (next != noTask) = true := by simpa using named
  unfold wakeTask handlerTimeoutDeregister
  cases evec.deadlines.lookup next with
  | none => exact ⟨_, by rw [checked, check_true]; rfl⟩
  | some d => exact ⟨_, by rw [checked, check_true]; rfl⟩

def wakePicks : Nat → List Nat → Tidset → List TaskId
  | 0, _, _ => []
  | cnt + 1, randoms, waiters =>
      if waiters.size = 0 then []
      else
        let next := wakeChoice (randoms.headD 0) waiters
        next :: wakePicks cnt randoms.tail (waiters.remove next)

theorem wakeChoice_mem (random : Nat) {waiters : Tidset} (some : waiters.size ≠ 0) :
    wakeChoice random waiters ∈ waiters :=
  Tidset.get_mem (Nat.mod_lt _ (Nat.pos_of_ne_zero some))

theorem mem_of_wakePicks {cnt : Nat} {randoms : List Nat} {waiters : Tidset} {x : TaskId}
    (picked : x ∈ wakePicks cnt randoms waiters) : x ∈ waiters := by
  induction cnt generalizing randoms waiters with
  | zero => cases picked
  | succ cnt ih =>
      rw [wakePicks] at picked
      by_cases none : waiters.size = 0
      · rw [if_pos none] at picked
        cases picked
      · rw [if_neg none] at picked
        rcases List.mem_cons.mp picked with rfl | later
        · exact wakeChoice_mem _ none
        · exact (Tidset.mem_remove.mp (ih later)).2

structure WokenAll (picks : List TaskId) (eid : UInt64) (st st' : EvecState) : Prop where
  members : ∀ x e, x ∈ waitersOf st'.evecs e ↔ x ∈ waitersOf st.evecs e ∧ ¬(x ∈ picks ∧ e = eid)
  deadlines : ∀ e x d, deadlineOf st'.evecs e x = some d ↔
    deadlineOf st.evecs e x = some d ∧ ¬(x ∈ picks ∧ e = eid)
  waiters : ∀ x, x ∈ st'.waiters ↔ x ∈ st.waiters ∧ x ∉ picks
  stores : ∃ new, st'.stores = new ++ st.stores ∧ ∀ store ∈ new,
    ∃ x ∈ picks, ∃ d, deadlineOf st.evecs eid x = some d ∧ store = (d.ret, .invalid)

theorem WokenAll.none (eid : UInt64) (st : EvecState) : WokenAll [] eid st st :=
  ⟨by simp, by simp, by simp, [], rfl, by simp⟩

theorem WokenAll.cons {next : TaskId} {picks : List TaskId} {st₁ : EvecState}
    (first : Woken next eid st st₁) (rest : WokenAll picks eid st₁ st') :
    WokenAll (next :: picks) eid st st' := by
  refine ⟨?_, ?_, ?_, ?_⟩
  · intro x e
    rw [rest.members, first.members, List.mem_cons]
    tauto
  · intro e x d
    rw [rest.deadlines, first.deadlines, List.mem_cons]
    tauto
  · intro x
    rw [rest.waiters, first.waiters, List.mem_cons]
    tauto
  · obtain ⟨new, stores, each⟩ := rest.stores
    refine ⟨new ++ (deadlineOf st.evecs eid next).toList.map fun d => (d.ret, .invalid), ?_, ?_⟩
    · rw [stores, first.stores, List.append_assoc]
    · intro store member
      rcases List.mem_append.mp member with later | here
      · obtain ⟨x, picked, d, entry, same⟩ := each store later
        exact ⟨x, List.mem_cons_of_mem _ picked, d, ((first.deadlines eid x d).mp entry).1, same⟩
      · obtain ⟨d, entry, same⟩ := List.mem_map.mp here
        exact ⟨next, List.mem_cons_self, d, Option.mem_toList.mp entry, same.symm⟩

theorem posthandleWake_spec {cnt : Nat} {randoms : List Nat}
    (ran : posthandleWake eid cnt randoms st = .ok st') :
    WokenAll (wakePicks cnt randoms (waitersOf st.evecs eid)) eid st st' := by
  induction cnt generalizing randoms st with
  | zero =>
      obtain rfl := Except.ok.inj ran
      exact WokenAll.none eid st
  | succ cnt ih =>
      rw [posthandleWake] at ran
      rw [wakePicks]
      cases found : st.evecs.lookup eid with
      | none =>
          rw [found] at ran
          obtain rfl := Except.ok.inj ran
          rw [if_pos (by rw [waitersOf_missing found]; rfl)]
          exact WokenAll.none eid st
      | some evec =>
          rw [found] at ran
          by_cases none : evec.waiters.size = 0
          · simp only [if_pos none] at ran
            obtain rfl := Except.ok.inj ran
            rw [waitersOf_found found, if_pos none]
            exact WokenAll.none eid st
          · simp only [if_neg none] at ran
            obtain ⟨st₁, woke, ran⟩ := bind_eq_ok.mp ran
            have first := wakeTask_spec found woke
            rw [waitersOf_found found, if_neg none]
            apply WokenAll.cons first
            have own := first.own
            rw [waitersOf_found found] at own
            rw [← own]
            exact ih ran

theorem posthandleWake_runs (cnt : Nat) (randoms : List Nat)
    (named : ∀ x ∈ waitersOf st.evecs eid, x ≠ noTask) :
    ∃ st', posthandleWake eid cnt randoms st = .ok st' := by
  induction cnt generalizing randoms st with
  | zero => exact ⟨st, rfl⟩
  | succ cnt ih =>
      rw [posthandleWake]
      cases found : st.evecs.lookup eid with
      | none => exact ⟨st, rfl⟩
      | some evec =>
          by_cases none : evec.waiters.size = 0
          · exact ⟨st, by simp only [if_pos none]⟩
          · rw [waitersOf_found found] at named
            have name := named _ (wakeChoice_mem (randoms.headD 0) none)
            obtain ⟨st₁, woke⟩ := wakeTask_runs eid evec st name
            have own := (wakeTask_spec found woke).own
            simp only [if_neg none, woke, ok_bind]
            apply ih
            intro x member
            rw [own, waitersOf_found found] at member
            exact named x (Tidset.mem_remove.mp member).2

end Waking

section Moving

theorem mem_foldl_insert (tasks : List TaskId) (s : Tidset) (x : TaskId) :
    x ∈ tasks.foldl Tidset.insert s ↔ x ∈ s ∨ x ∈ tasks := by
  induction tasks generalizing s with
  | nil => simp
  | cons task tasks ih =>
      rw [List.foldl_cons, ih, Tidset.mem_insert, List.mem_cons]
      tauto

theorem moveDeadlines_lookup {its : List (Sigma fun _ : UInt64 => EvecDeadline)}
    {acc acc' : Map EvecDeadline × Map Timespec} (ran : its.foldlM moveDeadline acc = .ok acc')
    (x : TaskId) (d : EvecDeadline) :
    acc'.1.lookup x = some d ↔ acc.1.lookup x = some d ∨ ⟨x, d⟩ ∈ its := by
  induction its generalizing acc with
  | nil =>
      cases ran
      simp
  | cons it its ih =>
      rw [List.foldlM_cons] at ran
      obtain ⟨acc₁, moved, ran⟩ := bind_eq_ok.mp ran
      obtain ⟨_, unregistered, moved⟩ := bind_eq_ok.mp moved
      obtain ⟨timeouts, _, moved⟩ := bind_eq_ok.mp moved
      obtain rfl := Except.ok.inj moved
      rw [check_ok_iff, Option.isNone_iff_eq_none] at unregistered
      rw [ih ran, lookup_insert_some, List.mem_cons]
      have entry : (⟨x, d⟩ : Sigma fun _ : UInt64 => EvecDeadline) = it ↔ x = it.1 ∧ d = it.2 := by
        obtain ⟨key, value⟩ := it
        simp
      rw [entry]
      by_cases same : x = it.1
      · rw [same, unregistered]
        simp
      · simp [same]

structure Moved (src dst : UInt64) (st st' : EvecState) : Prop where
  members : ∀ x e, x ∈ waitersOf st'.evecs e ↔
    e ≠ src ∧ (x ∈ waitersOf st.evecs e ∨ e = dst ∧ x ∈ waitersOf st.evecs src)
  deadlines : ∀ e x d, deadlineOf st'.evecs e x = some d ↔
    e ≠ src ∧ (deadlineOf st.evecs e x = some d ∨ e = dst ∧ deadlineOf st.evecs src x = some d)
  waiters : st'.waiters = st.waiters
  stores : st'.stores = st.stores

theorem erase_lookup {evecs : Map Evec} (src e : UInt64) :
    (evecs.erase src).lookup e = if e = src then none else evecs.lookup e := by
  by_cases same : e = src
  · rw [same, AList.lookup_erase, if_pos rfl]
  · rw [AList.lookup_erase_ne same, if_neg same]

theorem waitersOf_erase (evecs : Map Evec) (src e : UInt64) :
    waitersOf (evecs.erase src) e = if e = src then .empty else waitersOf evecs e := by
  rw [waitersOf, erase_lookup]
  by_cases same : e = src
  · rw [if_pos same, if_pos same]
  · rw [if_neg same, if_neg same, waitersOf]

theorem deadlineOf_erase (evecs : Map Evec) (src e : UInt64) (x : TaskId) :
    deadlineOf (evecs.erase src) e x = if e = src then none else deadlineOf evecs e x := by
  rw [deadlineOf, erase_lookup]
  by_cases same : e = src
  · rw [if_pos same, if_pos same]
    rfl
  · rw [if_neg same, if_neg same, deadlineOf]

/-- The ways through `_posthandle_move`: nothing to move, a move within one evec, and a move
between two. -/
theorem posthandleMove_cases {src dst : UInt64} (ran : posthandleMove id src dst st = .ok st') :
    ((waitersOf st.evecs src).size = 0 ∧ st' = st) ∨
    ((waitersOf st.evecs src).size ≠ 0 ∧ src = dst ∧ st' = { st with evecs := st.evecs.erase src }) ∨
    ((waitersOf st.evecs src).size ≠ 0 ∧ src ≠ dst ∧ Moved src dst st st') := by
  obtain ⟨_, _, ran⟩ := bind_eq_ok.mp ran
  cases found : st.evecs.lookup src with
  | none =>
      rw [found] at ran
      left
      exact ⟨by rw [waitersOf_missing found]; rfl, (Except.ok.inj ran).symm⟩
  | some esrc =>
      rw [found] at ran
      rw [waitersOf_found found]
      by_cases none : esrc.waiters.size = 0
      · simp only [if_pos none] at ran
        exact Or.inl ⟨none, (Except.ok.inj ran).symm⟩
      · simp only [if_neg none] at ran
        right
        by_cases same : src = dst
        · simp only [if_pos same] at ran
          obtain ⟨_, _, rest⟩ := bind_eq_ok.mp ran
          exact Or.inl ⟨none, same, (Except.ok.inj rest).symm⟩
        · simp only [if_neg same] at ran
          obtain ⟨_, _, ran⟩ := bind_eq_ok.mp ran
          obtain ⟨⟨deadlines, timeouts⟩, moved, rest⟩ := bind_eq_ok.mp ran
          obtain rfl := Except.ok.inj rest
          refine Or.inr ⟨none, same, ?_⟩
          have sets := sets_init dst st.evecs
            { waiters := esrc.waiters.tasks.foldl Tidset.insert (evecInit dst st.evecs).1.waiters
              deadlines }
          refine ⟨?_, ?_, rfl, rfl⟩
          · intro x e
            apply (iff_of_eq (congrArg (x ∈ ·) (waitersOf_erase _ src e))).trans
            by_cases gone : e = src
            · simp [gone]
            · rw [if_neg gone, sets.waitersOf, waitersOf_found found]
              by_cases here : e = dst
              · subst here
                rw [if_pos rfl, mem_foldl_insert, evecInit_waiters]
                simp [gone, Tidset.mem_def]
              · simp [gone, here]
          · intro e x d
            apply (iff_of_eq (congrArg (· = some d) (deadlineOf_erase _ src e x))).trans
            by_cases gone : e = src
            · simp [gone]
            · rw [if_neg gone, sets.deadlineOf, deadlineOf_found found]
              by_cases here : e = dst
              · subst here
                rw [if_pos rfl, moveDeadlines_lookup moved, evecInit_deadlines]
                simp only [gone, ne_eq, not_false_iff, true_and]
                rw [← Option.mem_def (a := d) (b := esrc.deadlines.lookup x), AList.mem_lookup_iff]
              · simp [gone, here]

end Moving

section Expiry

def Quiet (clock : Timespec) (evecs : Map Evec) : Prop :=
  ∀ item ∈ evecs.entries, ∀ it ∈ item.2.deadlines.entries, clock < it.2.deadline

instance (clock : Timespec) (evecs : Map Evec) : Decidable (Quiet clock evecs) :=
  inferInstanceAs (Decidable (∀ item ∈ evecs.entries, ∀ it ∈ item.2.deadlines.entries,
    clock < it.2.deadline))

theorem Quiet.later {clock : Timespec} {evecs : Map Evec} {d : EvecDeadline}
    (quiet : Quiet clock evecs) (entry : deadlineOf evecs eid id = some d) : clock < d.deadline := by
  obtain ⟨evec, found, entry⟩ := Option.bind_eq_some_iff.mp entry
  exact quiet ⟨eid, evec⟩ (AList.mem_lookup_iff.mp found) ⟨id, d⟩ (AList.mem_lookup_iff.mp entry)

theorem deadlineMet_iff {now : Timespec} {d : EvecDeadline} :
    deadlineMet now d = true ↔ d.deadline ≤ now := by
  rw [deadlineMet, decide_eq_true_iff, ← not_lt, ← not_lt, timespecCompare_pos]

theorem mem_metDeadlines {it : Sigma fun _ : UInt64 => EvecDeadline} :
    it ∈ metDeadlines st eid ↔
      deadlineOf st.evecs eid it.1 = some it.2 ∧ it.2.deadline ≤ st.now := by
  unfold metDeadlines deadlineOf
  cases found : st.evecs.lookup eid with
  | none => simp
  | some evec =>
      rw [List.mem_filter, deadlineMet_iff]
      apply and_congr_left
      intro _
      exact AList.mem_lookup_iff.symm

theorem metDeadlines_quiet (quiet : Quiet st.now st.evecs) (eid : UInt64) :
    metDeadlines st eid = [] := by
  apply List.eq_nil_iff_forall_not_mem.mpr
  intro it member
  obtain ⟨entry, met⟩ := mem_metDeadlines.mp member
  exact absurd met (not_le.mpr (quiet.later entry))

theorem checkTimeouts_quiet (shouldPublish : Bool) (quiet : Quiet st.now st.evecs)
    (ran : checkTimeouts shouldPublish st = .ok st') : st' = st := by
  have nothing : ∀ keys : List UInt64, keys.foldlM (expireMet shouldPublish) st = .ok st := by
    intro keys
    induction keys with
    | nil => rfl
    | cons eid keys ih =>
        rw [List.foldlM_cons, expireMet, metDeadlines_quiet quiet eid]
        exact ih
  obtain ⟨st₁, looped, rest⟩ := bind_eq_ok.mp ran
  rw [nothing] at looped
  cases looped
  obtain ⟨_, _, rest⟩ := bind_eq_ok.mp rest
  exact (Except.ok.inj rest).symm

structure Expired (id : TaskId) (eid : UInt64) (d : EvecDeadline) (st st' : EvecState) : Prop where
  blocked : id ∈ st.waiters
  members : ∀ e, waitersOf st'.evecs e = waitersOf st.evecs e
  deadlines : ∀ e x d, deadlineOf st'.evecs e x = some d ↔
    deadlineOf st.evecs e x = some d ∧ ¬(x = id ∧ e = eid)
  waiters : ∀ x, x ∈ st'.waiters ↔ x ∈ st.waiters ∧ x ≠ id
  stores : st'.stores = (d.ret, .timeout) :: st.stores
  now : st'.now = st.now

theorem deregisterDeadline_specs (eid : UInt64) (id : TaskId) (evecs : Map Evec) :
    (∀ e, waitersOf (deregisterDeadline eid id evecs) e = waitersOf evecs e) ∧
      ∀ e x d, deadlineOf (deregisterDeadline eid id evecs) e x = some d ↔
        deadlineOf evecs e x = some d ∧ ¬(x = id ∧ e = eid) := by
  unfold deregisterDeadline
  cases found : evecs.lookup eid with
  | none =>
      refine ⟨fun _ => rfl, ?_⟩
      intro e x d
      refine ⟨fun entry => ⟨entry, ?_⟩, And.left⟩
      rintro ⟨_, rfl⟩
      rw [deadlineOf, found] at entry
      cases entry
  | some evec =>
      have sets := sets_replace found (v := { evec with deadlines := evec.deadlines.erase id })
      refine ⟨?_, ?_⟩
      · intro e
        apply (sets.waitersOf e).trans
        by_cases same : e = eid
        · rw [if_pos same, same, waitersOf_found found]
        · rw [if_neg same]
      · intro e x d
        apply (iff_of_eq (congrArg (· = some d) (sets.deadlineOf e x))).trans
        by_cases same : e = eid
        · subst same
          rw [if_pos rfl, lookup_erase_some, deadlineOf_found found]
          simp [and_comm]
        · simp [same]

theorem expire_spec {shouldPublish : Bool} {it : Sigma fun _ : UInt64 => EvecDeadline}
    (ran : expire shouldPublish eid st it = .ok st') : Expired it.1 eid it.2 st st' := by
  obtain ⟨_, blocked, ran⟩ := bind_eq_ok.mp ran
  obtain ⟨timeouts, _, rest⟩ := bind_eq_ok.mp ran
  obtain rfl := Except.ok.inj rest
  rw [check_ok_iff, Tidset.has_eq_true] at blocked
  obtain ⟨members, deadlines⟩ := deregisterDeadline_specs eid it.1 st.evecs
  exact ⟨blocked, members, deadlines, by simp [and_comm], rfl, rfl⟩

end Expiry

end Lotto.EvecSpecs
