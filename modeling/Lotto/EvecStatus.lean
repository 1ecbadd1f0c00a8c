import Lotto.EvecRun

namespace Lotto.EvecStatus

open Library.FaultRun Library.GuardedRun Library.KeyMap EvecSpecs EvecRun

def validAbstime : Option Timespec → Bool
  | none => false
  | some t => decide (0 ≤ t.tvNsec ∧ t.tvNsec < 1000000000)

def isTimedWait : EvecEvent → Bool
  | .timedWait _ _ _ => true
  | _ => false

/-- A timed wait of an event that its task has prepared finds the task still in the evec, not woken
since then, and has no time or a valid one. -/
def WaitsInTime (w : World) (id : TaskId) : EvecEvent → Prop
  | .timedWait addr abstime _ => (id, addr) ∈ w.prepared →
      id ∈ waitersOf w.st.evecs addr ∧ (id, addr) ∉ w.woken ∧
        (abstime = none ∨ validAbstime abstime = true)
  | _ => True

def SparesTimed (w : World) (randoms : List Nat) : EvecEvent → Prop
  | .wake addr cnt => ∀ x ∈ wakePicks cnt randoms (waitersOf w.st.evecs addr), x ∈ w.st.waiters →
      ∀ s ∈ w.stopped.lookup x, isTimedWait s.event = false
  | _ => True

def Sound (w : World) : Move → Prop
  | .capture cp _ _ => WaitsInTime w cp.id cp.event
  | .trigger _ _ => True
  | .resume id randoms => ∀ s ∈ w.stopped.lookup id, SparesTimed w randoms s.event

instance (w : World) (id : TaskId) : ∀ event, Decidable (WaitsInTime w id event)
  | .timedWait _ _ _ => inferInstanceAs (Decidable (_ → _ ∧ _ ∧ _))
  | .prepare _ | .wait _ | .cancel _ | .wake _ _ | .move _ _ | .other => isTrue trivial

-- the task ids are finitely many, so the instances over the lists and the options are named
instance (w : World) (randoms : List Nat) : ∀ event, Decidable (SparesTimed w randoms event)
  | .wake addr cnt =>
      haveI (x : TaskId) :
          Decidable (x ∈ w.st.waiters → ∀ s ∈ w.stopped.lookup x, isTimedWait s.event = false) :=
        haveI := Option.decidableForallMem (p := fun s : Stopped => isTimedWait s.event = false)
          (w.stopped.lookup x)
        inferInstanceAs (Decidable (_ → _))
      List.decidableBAll _ (wakePicks cnt randoms (waitersOf w.st.evecs addr))
  | .prepare _ | .wait _ | .timedWait _ _ _ | .cancel _ | .move _ _ | .other => isTrue trivial

instance (w : World) : ∀ m, Decidable (Sound w m)
  | .capture _ _ _ => inferInstanceAs (Decidable (WaitsInTime _ _ _))
  | .trigger _ _ => isTrue trivial
  | .resume id _ => Option.decidableForallMem (w.stopped.lookup id)

/-- What `lotto_evec_timed_wait` returns, by its documentation, to a task that can go on after a
timed wait of an event it has prepared. -/
structure Answered (w : World) (id : TaskId) (abstime : Option Timespec) (ret : UInt64) : Prop where
  ok : statusAt ret w.st = some .ok ↔ (id, .wake) ∈ w.released
  timeout : statusAt ret w.st = some .timeout ↔ (id, .deadline) ∈ w.released
  invalid : statusAt ret w.st = some .invalid ↔ validAbstime abstime = false

def AllAnswered (w : World) : Prop :=
  ∀ id addr abstime ret, w.stopped.lookup id = some ⟨.timedWait addr abstime ret, true⟩ →
    id ∉ w.st.waiters → Answered w id abstime ret

/-- Every deadline is that of a blocked task that is stopped at a timed wait, with the address of
its status. -/
structure Deadlined (stopped : Map Stopped) (st : EvecState) : Prop where
  owner : ∀ e x d, deadlineOf st.evecs e x = some d → x ∈ st.waiters ∧
    ∃ addr t prepared, stopped.lookup x = some ⟨.timedWait addr (some t) d.ret, prepared⟩
  single : ∀ e e' x d d', deadlineOf st.evecs e x = some d → deadlineOf st.evecs e' x = some d' →
    e = e'

def Apart (stopped : Map Stopped) : Prop :=
  ∀ x y s s' ret, stopped.lookup x = some s → stopped.lookup y = some s' →
    statusPtr s.event = some ret → statusPtr s'.event = some ret → x = y

/-- A stopped timed wait: without a time it goes on with the status of an invalid one, else it is
blocked until its deadline. -/
def Timed (st : EvecState) (released : List (TaskId × Release)) (id : TaskId) (ret : UInt64) :
    Option Timespec → Prop
  | none => id ∉ st.waiters ∧ statusAt ret st = some .invalid ∧ ∀ r, (id, r) ∉ released
  | some t => validAbstime (some t) = true ∧ statusAt ret st = some .timeout ∧
      (id, .wake) ∉ released ∧ (id ∉ st.waiters ↔ (id, .deadline) ∈ released)

structure Inv (w : World) : Prop where
  deadlined : Deadlined w.stopped w.st
  apart : Apart w.stopped
  timed : ∀ id addr abstime ret, w.stopped.lookup id = some ⟨.timedWait addr abstime ret, true⟩ →
    Timed w.st w.released id ret abstime

variable {st st' : EvecState} {stopped : Map Stopped}

theorem mem_releases {release : Release} {before after : Tidset} {id : TaskId} {r : Release} :
    (id, r) ∈ releases release before after ↔ r = release ∧ id ∈ before ∧ id ∉ after := by
  simp only [releases, List.mem_map, List.mem_filter, Prod.mk.injEq, Bool.not_eq_true',
    Tidset.has_eq_false]
  refine ⟨?_, ?_⟩
  · rintro ⟨x, ⟨before, after⟩, rfl, rfl⟩
    exact ⟨rfl, before, after⟩
  · rintro ⟨rfl, before, after⟩
    exact ⟨id, ⟨before, after⟩, rfl, rfl⟩

theorem statusAt_cons {ret addr : UInt64} {status : TimedWaitStatus}
    (stores : st'.stores = (addr, status) :: st.stores) :
    statusAt ret st' = if addr = ret then some status else statusAt ret st := by
  unfold statusAt
  rw [stores, List.find?_cons]
  by_cases same : addr = ret
  · simp [same]
  · have other : (addr == ret) = false := beq_eq_false_iff_ne.mpr same
    rw [if_neg same]
    simp only [other]

theorem statusAt_same {ret : UInt64} (stores : st'.stores = st.stores) :
    statusAt ret st' = statusAt ret st := by
  rw [statusAt, stores, statusAt]

section Scan

/-- What a scan of the deadlines does: it releases timed waits that have a time, and stores only
their timeouts. -/
structure Scan (stopped : Map Stopped) (st st' : EvecState) : Prop where
  members : ∀ e, waitersOf st'.evecs e = waitersOf st.evecs e
  waiters : ∀ x, x ∈ st'.waiters → x ∈ st.waiters
  stores : ∀ ret, statusAt ret st' = statusAt ret st ∨ statusAt ret st' = some .timeout
  untimed : ∀ x addr ret prepared, stopped.lookup x = some ⟨.timedWait addr none ret, prepared⟩ →
    statusAt ret st' = statusAt ret st

theorem Scan.refl (stopped : Map Stopped) (st : EvecState) : Scan stopped st st :=
  ⟨fun _ => rfl, fun _ blocked => blocked, fun _ => Or.inl rfl, fun _ _ _ _ _ => rfl⟩

theorem Scan.trans {mid : EvecState} (first : Scan stopped st mid) (second : Scan stopped mid st') :
    Scan stopped st st' := by
  refine ⟨?_, ?_, ?_, ?_⟩
  · intro e
    rw [second.members, first.members]
  · intro x blocked
    exact first.waiters x (second.waiters x blocked)
  · intro ret
    rcases second.stores ret with same | timeout
    · rw [same]
      exact first.stores ret
    · exact Or.inr timeout
  · intro x addr ret prepared untimed
    rw [second.untimed x addr ret prepared untimed, first.untimed x addr ret prepared untimed]

variable {id : TaskId} {eid : UInt64} {d : EvecDeadline}

theorem expired_scan (deadlined : Deadlined stopped st) (apart : Apart stopped)
    (entry : deadlineOf st.evecs eid id = some d) (expired : Expired id eid d st st') :
    Scan stopped st st' := by
  obtain ⟨_, addr, t, prepared, owner⟩ := deadlined.owner eid id d entry
  refine ⟨expired.members, fun x blocked => ((expired.waiters x).mp blocked).1, ?_, ?_⟩
  · intro ret
    rw [statusAt_cons expired.stores]
    by_cases same : d.ret = ret
    · exact Or.inr (if_pos same)
    · exact Or.inl (if_neg same)
  · intro x addr' ret prepared' untimed
    rw [statusAt_cons expired.stores, if_neg]
    rintro rfl
    have same := apart id x _ _ d.ret owner untimed rfl rfl
    rw [← same, owner] at untimed
    simp at untimed

theorem expired_deadlined (deadlined : Deadlined stopped st)
    (entry : deadlineOf st.evecs eid id = some d) (expired : Expired id eid d st st') :
    Deadlined stopped st' := by
  refine ⟨?_, ?_⟩
  · intro e x d' entry'
    obtain ⟨entry', other⟩ := (expired.deadlines e x d').mp entry'
    obtain ⟨blocked, owner⟩ := deadlined.owner e x d' entry'
    refine ⟨(expired.waiters x).mpr ⟨blocked, ?_⟩, owner⟩
    rintro rfl
    exact other ⟨rfl, deadlined.single e eid x d' d entry' entry⟩
  · intro e e' x d₁ d₂ first second
    exact deadlined.single e e' x d₁ d₂ ((expired.deadlines e x d₁).mp first).1
      ((expired.deadlines e' x d₂).mp second).1

theorem expireAll_scan {shouldPublish : Bool} (apart : Apart stopped)
    (its : List (Sigma fun _ : UInt64 => EvecDeadline)) (distinct : (its.map Sigma.fst).Nodup)
    (deadlined : Deadlined stopped st)
    (entries : ∀ it ∈ its, deadlineOf st.evecs eid it.1 = some it.2)
    (ran : its.foldlM (expire shouldPublish eid) st = .ok st') :
    Scan stopped st st' ∧ Deadlined stopped st' := by
  induction its generalizing st with
  | nil =>
      cases ran
      exact ⟨Scan.refl stopped _, deadlined⟩
  | cons it its ih =>
      rw [List.foldlM_cons] at ran
      obtain ⟨mid, expires, ran⟩ := bind_eq_ok.mp ran
      have expired := expire_spec expires
      have entry := entries it List.mem_cons_self
      obtain ⟨absent, distinct⟩ := List.nodup_cons.mp distinct
      have later : ∀ it' ∈ its, deadlineOf mid.evecs eid it'.1 = some it'.2 := by
        intro it' member
        refine (expired.deadlines eid it'.1 it'.2).mpr
          ⟨entries it' (List.mem_cons_of_mem _ member), ?_⟩
        rintro ⟨same, _⟩
        exact absent (same ▸ List.mem_map_of_mem member)
      obtain ⟨scan, kept⟩ :=
        ih distinct (expired_deadlined deadlined entry expired) later ran
      exact ⟨(expired_scan deadlined apart entry expired).trans scan, kept⟩

theorem metDeadlines_distinct (st : EvecState) (eid : UInt64) :
    ((metDeadlines st eid).map Sigma.fst).Nodup := by
  unfold metDeadlines
  cases st.evecs.lookup eid with
  | none => exact List.nodup_nil
  | some evec => exact List.Nodup.sublist (List.filter_sublist.map Sigma.fst) evec.deadlines.nodupKeys

theorem expireMet_scan {shouldPublish : Bool} (apart : Apart stopped) (keys : List UInt64)
    (deadlined : Deadlined stopped st)
    (ran : keys.foldlM (expireMet shouldPublish) st = .ok st') :
    Scan stopped st st' ∧ Deadlined stopped st' := by
  induction keys generalizing st with
  | nil =>
      cases ran
      exact ⟨Scan.refl stopped _, deadlined⟩
  | cons eid keys ih =>
      rw [List.foldlM_cons] at ran
      obtain ⟨mid, expires, ran⟩ := bind_eq_ok.mp ran
      obtain ⟨first, kept⟩ := expireAll_scan apart _ (metDeadlines_distinct st eid) deadlined
        (fun it member => (mem_metDeadlines.mp member).1) expires
      obtain ⟨rest, kept⟩ := ih kept ran
      exact ⟨first.trans rest, kept⟩

theorem checkTimeouts_scan {shouldPublish : Bool} (apart : Apart stopped)
    (deadlined : Deadlined stopped st) (ran : checkTimeouts shouldPublish st = .ok st') :
    Scan stopped st st' ∧ Deadlined stopped st' := by
  obtain ⟨checked, looped, rest⟩ := bind_eq_ok.mp ran
  obtain ⟨_, _, rest⟩ := bind_eq_ok.mp rest
  obtain rfl := Except.ok.inj rest
  exact expireMet_scan apart _ deadlined looped

end Scan

section Steps

variable {w w' : World} {released released' : List (TaskId × Release)} {id : TaskId} {ret : UInt64}
  {abstime : Option Timespec}

theorem Timed.same (timed : Timed st released id ret abstime)
    (waiters : id ∈ st'.waiters ↔ id ∈ st.waiters) (status : statusAt ret st' = statusAt ret st)
    (same : ∀ r, (id, r) ∈ released' ↔ (id, r) ∈ released) :
    Timed st' released' id ret abstime := by
  cases abstime with
  | none =>
      obtain ⟨awake, invalid, unreleased⟩ := timed
      exact ⟨fun blocked => awake (waiters.mp blocked), status.trans invalid,
        fun r member => unreleased r ((same r).mp member)⟩
  | some t =>
      obtain ⟨valid, timeout, unwoken, deadline⟩ := timed
      refine ⟨valid, status.trans timeout, fun member => unwoken ((same .wake).mp member), ?_⟩
      rw [waiters, same]
      exact deadline

theorem Timed.scan (timed : Timed st released id ret abstime)
    (fewer : id ∈ st'.waiters → id ∈ st.waiters)
    (status : statusAt ret st' = statusAt ret st ∨ statusAt ret st' = some .timeout)
    (untimed : abstime = none → statusAt ret st' = statusAt ret st)
    (more : ∀ r, (id, r) ∈ released' ↔
      (r = .deadline ∧ id ∈ st.waiters ∧ id ∉ st'.waiters) ∨ (id, r) ∈ released) :
    Timed st' released' id ret abstime := by
  cases abstime with
  | none =>
      obtain ⟨awake, invalid, unreleased⟩ := timed
      refine ⟨fun blocked => awake (fewer blocked), (untimed rfl).trans invalid, ?_⟩
      intro r member
      rcases (more r).mp member with ⟨_, blocked, _⟩ | member
      · exact awake blocked
      · exact unreleased r member
  | some t =>
      obtain ⟨valid, timeout, unwoken, deadline⟩ := timed
      refine ⟨valid, ?_, ?_, ?_⟩
      · rcases status with same | stored
        · exact same.trans timeout
        · exact stored
      · intro member
        rcases (more .wake).mp member with ⟨wrong, _⟩ | member
        · cases wrong
        · exact unwoken member
      · rw [more]
        tauto

theorem afterTrigger_released (w : World) (st : EvecState) (r : Release) :
    (id, r) ∈ (afterTrigger w st).released ↔
      (r = .deadline ∧ id ∈ w.st.waiters ∧ id ∉ st.waiters) ∨ (id, r) ∈ w.released := by
  rw [afterTrigger, List.mem_append, mem_releases]

theorem trigger_keeps {clock : Timespec} (inv : Inv w)
    (stepped : step (.trigger id clock) w = .ok w') : Inv w' := by
  obtain ⟨st, ran, rfl⟩ := trigger_ok stepped
  have scanned : Scan w.stopped w.st st ∧ Deadlined w.stopped st := by
    unfold evecTrigger at ran
    by_cases ignored : (w.st.receivedTimeout || !w.st.waiters.has id) = true
    · rw [if_pos ignored] at ran
      obtain rfl := Except.ok.inj ran
      exact ⟨Scan.refl _ _, inv.deadlined⟩
    · rw [if_neg ignored] at ran
      have before : Deadlined w.stopped { w.st with receivedTimeout := true, now := clock } :=
        ⟨inv.deadlined.owner, inv.deadlined.single⟩
      obtain ⟨scan, kept⟩ := checkTimeouts_scan inv.apart before ran
      exact ⟨⟨scan.members, scan.waiters, scan.stores, scan.untimed⟩, kept⟩
  obtain ⟨scan, kept⟩ := scanned
  refine ⟨kept, inv.apart, ?_⟩
  intro x addr abstime ret found
  apply (inv.timed x addr abstime ret found).scan (scan.waiters x) (scan.stores ret)
  · rintro rfl
    exact scan.untimed x addr ret true found
  · exact afterTrigger_released w st

theorem apart_erase (apart : Apart stopped) (id : TaskId) : Apart (stopped.erase id) := by
  intro x y s s' ret first second
  exact apart x y s s' ret (lookup_erase_some.mp first).2 (lookup_erase_some.mp second).2

theorem inv_resume {event : EvecEvent} (inv : Inv w) (awake : id ∉ w.st.waiters)
    (entries : ∀ e x d, deadlineOf st.evecs e x = some d → ∃ e', deadlineOf w.st.evecs e' x = some d)
    (single : ∀ e e' x d d', deadlineOf st.evecs e x = some d →
      deadlineOf st.evecs e' x = some d' → e = e')
    (fewer : ∀ x, x ∈ st.waiters → x ∈ w.st.waiters)
    (blocked : ∀ x s, w.stopped.lookup x = some s → isTimedWait s.event = true →
      x ∈ w.st.waiters → x ∈ st.waiters)
    (stores : st.stores = w.st.stores) : Inv (afterResume id event w st) := by
  refine ⟨⟨?_, single⟩, apart_erase inv.apart id, ?_⟩
  · intro e x d entry
    obtain ⟨e', before⟩ := entries e x d entry
    obtain ⟨waiting, addr, t, prepared, owner⟩ := inv.deadlined.owner e' x d before
    have other : x ≠ id := by
      rintro rfl
      exact awake waiting
    exact ⟨blocked x _ owner rfl waiting, addr, t, prepared, lookup_erase_some.mpr ⟨other, owner⟩⟩
  · intro x addr abstime ret found
    obtain ⟨_, found⟩ := lookup_erase_some.mp found
    have waiters : x ∈ st.waiters ↔ x ∈ w.st.waiters := ⟨fewer x, blocked x _ found rfl⟩
    apply (inv.timed x addr abstime ret found).same waiters (statusAt_same stores)
    intro r
    show (x, r) ∈ releases .wake w.st.waiters st.waiters ++ w.released ↔ _
    rw [List.mem_append, mem_releases, waiters]
    tauto

theorem resume_keeps {randoms : List Nat} (inv : Inv w) (allowed : Allowed w (.resume id randoms))
    (sound : Sound w (.resume id randoms)) (stepped : step (.resume id randoms) w = .ok w') :
    Inv w' := by
  obtain ⟨isStopped, awake⟩ := allowed
  obtain ⟨⟨event, prepared⟩, stopped⟩ := Option.isSome_iff_exists.mp isStopped
  have spares : SparesTimed w randoms event := sound _ stopped
  obtain ⟨st, name, ran, rfl⟩ := resume_ok stopped stepped
  obtain ⟨_, _, ran⟩ := bind_eq_ok.mp ran
  have single := inv.deadlined.single
  cases event with
  | prepare addr =>
      have changed := posthandlePrepare_spec ran
      refine inv_resume inv awake ?_ ?_ ?_ ?_ changed.stores
      · intro e x d entry
        exact ⟨e, (changed.deadlines e x).symm.trans entry⟩
      · intro e e' x d d'
        rw [changed.deadlines, changed.deadlines]
        exact single e e' x d d'
      · simp [changed.waiters]
      · simp [changed.waiters]
  | cancel addr =>
      have changed := posthandleCancel_spec ran
      refine inv_resume inv awake ?_ ?_ ?_ ?_ changed.stores
      · intro e x d entry
        exact ⟨e, (changed.deadlines e x).symm.trans entry⟩
      · intro e e' x d d'
        rw [changed.deadlines, changed.deadlines]
        exact single e e' x d d'
      · simp [changed.waiters]
      · simp [changed.waiters]
  | wake addr cnt =>
      have changed := posthandleWake_spec ran
      refine inv_resume inv awake ?_ ?_ ?_ ?_ ?_
      · intro e x d entry
        exact ⟨e, ((changed.deadlines e x d).mp entry).1⟩
      · intro e e' x d d' first second
        exact single e e' x d d' ((changed.deadlines e x d).mp first).1
          ((changed.deadlines e' x d').mp second).1
      · intro x blocked
        exact ((changed.waiters x).mp blocked).1
      · intro x s found timed blocked
        refine (changed.waiters x).mpr ⟨blocked, ?_⟩
        intro picked
        rw [spares x picked blocked s found] at timed
        cases timed
      · -- a store would be for the deadline of a blocked task
        obtain ⟨new, stores, each⟩ := changed.stores
        have none : new = [] := by
          apply List.eq_nil_iff_forall_not_mem.mpr
          intro store member
          obtain ⟨x, picked, d, entry, _⟩ := each store member
          obtain ⟨blocked, _, _, _, owner⟩ := inv.deadlined.owner addr x d entry
          exact Bool.noConfusion (spares x picked blocked _ owner)
        rw [stores, none, List.nil_append]
  | move src dst =>
      rcases posthandleMove_cases ran with ⟨_, rfl⟩ | ⟨_, _, rfl⟩ | ⟨_, _, changed⟩
      · exact inv_resume inv awake (fun e x d entry => ⟨e, entry⟩) single (fun _ blocked => blocked)
          (fun _ _ _ _ blocked => blocked) rfl
      · have left : ∀ e x d, deadlineOf (w.st.evecs.erase src) e x = some d →
            deadlineOf w.st.evecs e x = some d := by
          intro e x d entry
          rw [deadlineOf_erase] at entry
          split_ifs at entry
          exact entry
        refine inv_resume inv awake ?_ ?_ (fun _ blocked => blocked)
          (fun _ _ _ _ blocked => blocked) rfl
        · intro e x d entry
          exact ⟨e, left e x d entry⟩
        · intro e e' x d d' first second
          exact single e e' x d d' (left e x d first) (left e' x d' second)
      · refine inv_resume inv awake ?_ ?_ ?_ ?_ changed.stores
        · intro e x d entry
          rcases (changed.deadlines e x d).mp entry with ⟨_, here | ⟨_, there⟩⟩
          · exact ⟨e, here⟩
          · exact ⟨src, there⟩
        · intro e e' x d d' first second
          obtain ⟨kept, here | ⟨rfl, there⟩⟩ := (changed.deadlines e x d).mp first
          · obtain ⟨kept', here' | ⟨_, there'⟩⟩ := (changed.deadlines e' x d').mp second
            · exact single e e' x d d' here here'
            · exact absurd (single e src x d d' here there') kept
          · obtain ⟨kept', here' | ⟨rfl, _⟩⟩ := (changed.deadlines e' x d').mp second
            · exact absurd (single e' src x d' d here' there) kept'
            · rfl
        · simp [changed.waiters]
        · simp [changed.waiters]
  | wait _ | timedWait _ _ _ | other =>
      obtain rfl := Except.ok.inj ran
      exact inv_resume inv awake (fun e x d entry => ⟨e, entry⟩) single (fun _ blocked => blocked)
        (fun _ _ _ _ blocked => blocked) rfl

end Steps

section Captures

variable {w w' : World} {cp : EvecCapture}

/-- What the switch of `_evec_handle` does: it blocks at most the captured task, with a deadline for
its timed wait, and stores at most the status of that. -/
structure Switched (cp : EvecCapture) (st st' : EvecState) : Prop where
  others : ∀ x, x ≠ cp.id → (x ∈ st'.waiters ↔ x ∈ st.waiters)
  stores : ∀ ret, statusPtr cp.event ≠ some ret → statusAt ret st' = statusAt ret st
  deadlines : ∀ e x d, deadlineOf st'.evecs e x = some d → deadlineOf st.evecs e x = some d ∨
    x = cp.id ∧ cp.id ∈ st'.waiters ∧ ∃ t, cp.event = .timedWait e (some t) d.ret

theorem Switched.refl (cp : EvecCapture) (st : EvecState) : Switched cp st st :=
  ⟨fun _ _ => Iff.rfl, fun _ _ => rfl, fun _ _ _ entry => Or.inl entry⟩

theorem evecSwitch_spec (ran : evecSwitch cp st = .ok st') : Switched cp st st' := by
  obtain ⟨id, event⟩ := cp
  cases event with
  | wait addr =>
      have changed := handleWait_spec ran
      refine ⟨?_, fun _ _ => statusAt_same changed.stores, ?_⟩
      · intro x other
        simp [changed.waiters, show x ≠ id from other]
      · intro e x d entry
        rw [changed.evecs] at entry
        exact Or.inl entry
  | timedWait addr abstime ret =>
      rcases handleTimedWait_cases ran with ⟨_, rfl⟩ | ⟨_, _, evecs, waiters, stores⟩ |
        ⟨_, ⟨t, rfl⟩, changed⟩
      · exact Switched.refl _ _
      · refine ⟨fun x _ => by rw [waiters], ?_, ?_⟩
        · intro other apart
          rw [statusAt_cons stores, if_neg]
          rintro rfl
          exact apart rfl
        · intro e x d entry
          rw [evecs] at entry
          exact Or.inl entry
      · refine ⟨?_, fun _ _ => statusAt_same changed.stores, ?_⟩
        · intro x other
          simp [changed.waiters, show x ≠ id from other]
        · intro e x d entry
          rcases (changed.deadlines e x d).mp entry with ⟨rfl, rfl, rfl⟩ | ⟨_, entry⟩
          · exact Or.inr ⟨rfl, (changed.waiters x).mpr (Or.inr rfl), t, rfl⟩
          · exact Or.inl entry
  | prepare _ | cancel _ | wake _ _ | move _ _ | other =>
      obtain rfl := Except.ok.inj ran
      exact Switched.refl _ _

def scanned (cp : EvecCapture) (clock : Timespec) (st : EvecState) : EvecState :=
  { publishTimedWait cp.event st with now := clock, receivedTimeout := false }

theorem scanned_evecs (cp : EvecCapture) (clock : Timespec) (st : EvecState) :
    (scanned cp clock st).evecs = st.evecs := by
  obtain ⟨id, event⟩ := cp
  cases event <;> rfl

theorem scanned_waiters (cp : EvecCapture) (clock : Timespec) (st : EvecState) :
    (scanned cp clock st).waiters = st.waiters := by
  obtain ⟨id, event⟩ := cp
  cases event <;> rfl

theorem scanned_status (cp : EvecCapture) (clock : Timespec) (st : EvecState) {ret : UInt64} :
    statusAt ret (scanned cp clock st) =
      if statusPtr cp.event = some ret then some .timeout else statusAt ret st := by
  obtain ⟨id, event⟩ := cp
  cases event with
  | timedWait addr abstime ptr =>
      have stores : (scanned ⟨id, .timedWait addr abstime ptr⟩ clock st).stores =
        (ptr, .timeout) :: st.stores := rfl
      rw [statusAt_cons stores]
      simp [statusPtr]
  | _ => rfl

theorem apart_insert {s : Stopped} {id : TaskId} (apart : Apart stopped)
    (fresh : ∀ item ∈ stopped.entries,
      statusPtr s.event = none ∨ statusPtr item.2.event ≠ statusPtr s.event) :
    Apart (stopped.insert id s) := by
  have new : ∀ x s' ret, stopped.lookup x = some s' → statusPtr s.event = some ret →
      statusPtr s'.event ≠ some ret := by
    intro x s' ret found own
    rcases fresh ⟨x, s'⟩ (AList.mem_lookup_iff.mp found) with none | other
    · rw [own] at none
      cases none
    · rw [← own]
      exact other
  intro x y s₁ s₂ ret first second ptr ptr'
  rcases lookup_insert_some.mp first with ⟨rfl, rfl⟩ | ⟨_, before⟩
  · rcases lookup_insert_some.mp second with ⟨rfl, _⟩ | ⟨_, before'⟩
    · rfl
    · exact absurd ptr' (new y s₂ ret before' ptr)
  · rcases lookup_insert_some.mp second with ⟨_, rfl⟩ | ⟨_, before'⟩
    · exact absurd ptr (new x s₁ ret before ptr')
    · exact apart x y s₁ s₂ ret before before' ptr ptr'

theorem deadlined_insert {prepared : Bool} (deadlined : Deadlined stopped st)
    (awake : cp.id ∉ st.waiters) (switched : Switched cp st st') :
    Deadlined (stopped.insert cp.id ⟨cp.event, prepared⟩) st' := by
  have older : ∀ e x d, deadlineOf st.evecs e x = some d → x ≠ cp.id := by
    rintro e x d entry rfl
    exact awake (deadlined.owner e _ d entry).1
  refine ⟨?_, ?_⟩
  · intro e x d entry
    rcases switched.deadlines e x d entry with entry | ⟨rfl, blocked, t, event⟩
    · obtain ⟨blocked, addr, t, flag, owner⟩ := deadlined.owner e x d entry
      have other := older e x d entry
      exact ⟨(switched.others x other).mpr blocked, addr, t, flag,
        lookup_insert_some.mpr (Or.inr ⟨other, owner⟩)⟩
    · exact ⟨blocked, e, t, prepared, lookup_insert_some.mpr (Or.inl ⟨rfl, by rw [event]⟩)⟩
  · intro e e' x d d' first second
    rcases switched.deadlines e x d first with first | ⟨rfl, _, t, event⟩
    · rcases switched.deadlines e' x d' second with second | ⟨same, _⟩
      · exact deadlined.single e e' x d d' first second
      · exact absurd same (older e x d first)
    · rcases switched.deadlines e' _ d' second with second | ⟨_, _, t', event'⟩
      · exact absurd rfl (older e' _ d' second)
      · rw [event] at event'
        exact (EvecEvent.timedWait.inj event').1

theorem afterCapture_released {x : TaskId} (other : x ≠ cp.id) (w : World) (st : EvecState)
    (r : Release) : (x, r) ∈ (afterCapture cp w st).released ↔
      (r = .deadline ∧ x ∈ w.st.waiters ∧ x ∉ st.waiters) ∨ (x, r) ∈ w.released := by
  have early : (x, r) ∉ (if listed cp w.woken then [(cp.id, Release.wake)] else []) := by
    split_ifs <;> simp [other]
  simp only [afterCapture, List.mem_append, early, false_or, List.mem_filter, mem_releases]
  simp [other]

theorem afterCapture_unreleased (unwoken : listed cp w.woken = false) (st : EvecState)
    (r : Release) : (cp.id, r) ∉ (afterCapture cp w st).released := by
  simp [afterCapture, unwoken]

theorem timed_new {id : TaskId} {addr ret : UInt64} {abstime : Option Timespec}
    (prepared : (id, addr) ∈ w.prepared) (sound : WaitsInTime w id (.timedWait addr abstime ret))
    (members : waitersOf st.evecs addr = waitersOf w.st.evecs addr) (awake : id ∉ st.waiters)
    (published : statusAt ret st = some .timeout)
    (ran : evecSwitch ⟨id, .timedWait addr abstime ret⟩ st = .ok st') :
    Timed st' (afterCapture ⟨id, .timedWait addr abstime ret⟩ w st').released id ret abstime := by
  obtain ⟨member, unwoken, times⟩ := sound prepared
  have unlisted : listed ⟨id, .timedWait addr abstime ret⟩ w.woken = false := by
    simpa [listed, waitsOn] using unwoken
  have unreleased := afterCapture_unreleased unlisted st'
  rw [← members] at member
  rcases handleTimedWait_cases ran with ⟨absent, _⟩ | ⟨_, rfl, _, waiters, stores⟩ |
    ⟨_, ⟨t, rfl⟩, changed⟩
  · exact absurd member absent
  · refine ⟨by rw [waiters]; exact awake, ?_, unreleased⟩
    rw [statusAt_cons stores, if_pos rfl]
  · have valid : validAbstime (some t) = true := by
      rcases times with none | valid
      · cases none
      · exact valid
    refine ⟨valid, (statusAt_same changed.stores).trans published, unreleased _, ?_⟩
    have blocked : id ∈ st'.waiters := (changed.waiters id).mpr (Or.inr rfl)
    simpa [blocked] using unreleased .deadline

theorem capture_keeps {clock : Timespec} {e : Decision} (inv : Inv w)
    (allowed : Allowed w (.capture cp clock e)) (sound : Sound w (.capture cp clock e))
    (stepped : step (.capture cp clock e) w = .ok w') : Inv w' := by
  obtain ⟨awake, unstopped, fresh⟩ := allowed
  obtain ⟨checked, st, checks, switches, rfl⟩ := capture_ok stepped
  have before : Deadlined w.stopped (scanned cp clock w.st) := by
    refine ⟨?_, ?_⟩
    · rw [scanned_evecs, scanned_waiters]
      exact inv.deadlined.owner
    · rw [scanned_evecs]
      exact inv.deadlined.single
  obtain ⟨scan, deadlined⟩ := checkTimeouts_scan inv.apart before checks
  have switched := evecSwitch_spec switches
  have still : cp.id ∉ checked.waiters := by
    intro blocked
    apply awake
    rw [← scanned_waiters cp clock]
    exact scan.waiters _ blocked
  refine ⟨deadlined_insert deadlined still switched, apart_insert inv.apart fresh, ?_⟩
  intro x addr abstime ret found
  rcases lookup_insert_some.mp found with ⟨rfl, same⟩ | ⟨other, found⟩
  · obtain ⟨event, flag⟩ := Stopped.mk.inj same
    obtain ⟨id, _⟩ := cp
    cases event
    have prepared : (id, addr) ∈ w.prepared := by
      simpa [listed, waitsOn] using flag.symm
    have published : statusAt ret checked = some .timeout := by
      rcases scan.stores ret with same | timeout
      · rw [same, scanned_status]
        exact if_pos rfl
      · exact timeout
    have members : waitersOf checked.evecs addr = waitersOf w.st.evecs addr := by
      rw [scan.members, scanned_evecs]
    exact timed_new prepared sound members still published switches
  · have elsewhere : statusPtr cp.event ≠ some ret := by
      rcases fresh ⟨x, _⟩ (AList.mem_lookup_iff.mp found) with none | apart
      · rw [none]
        simp
      · exact apart.symm
    have unpublished : statusAt ret (scanned cp clock w.st) = statusAt ret w.st := by
      rw [scanned_status, if_neg elsewhere]
    have kept : statusAt ret (afterCapture cp w st).st = statusAt ret checked :=
      switched.stores ret elsewhere
    apply (inv.timed x addr abstime ret found).scan
    · intro blocked
      rw [← scanned_waiters cp clock]
      exact scan.waiters x ((switched.others x other).mp blocked)
    · rw [kept, ← unpublished]
      exact scan.stores ret
    · rintro rfl
      rw [kept, ← unpublished]
      exact scan.untimed x addr ret true found
    · exact afterCapture_released other w st

theorem reachable_inv (reached : Reachable (system Sound) w) : Inv w := by
  have first : Inv (system Sound).start := by
    refine ⟨⟨?_, ?_⟩, ?_, ?_⟩ <;> simp [system, start, evecStart, deadlineOf, Apart]
  refine Reachable.keeps first ?_ reached
  intro w m w' inv allowed stepped
  obtain ⟨allowed, sound⟩ := allowed
  cases m with
  | capture cp clock e => exact capture_keeps inv allowed sound stepped
  | trigger id clock => exact trigger_keeps inv stepped
  | resume id randoms => exact resume_keeps inv allowed sound stepped

end Captures

/-- In every run whose steps reach none of the handler's slips every timed wait of an event that its
task has prepared returns what the documentation says. -/
theorem timed_wait_answered (w : World) (reached : Reachable (system Sound) w) : AllAnswered w := by
  intro id addr abstime ret found awake
  have timed := (reachable_inv reached).timed id addr abstime ret found
  cases abstime with
  | none =>
      obtain ⟨_, invalid, unreleased⟩ := timed
      refine ⟨?_, ?_, ?_⟩
      · simp [invalid, unreleased]
      · simp [invalid, unreleased]
      · simp [invalid, validAbstime]
  | some t =>
      obtain ⟨valid, timeout, unwoken, deadline⟩ := timed
      refine ⟨?_, ?_, ?_⟩
      · simp [timeout, unwoken]
      · simp [timeout, deadline.mp awake]
      · simp [timeout, valid]

def timedWaits : List Move :=
  [stops 1 (.prepare 5) 0, .resume 1 [], stops 1 (.timedWait 5 (some ⟨1, 0⟩) 64) 0]

theorem timed_wait_times_out :
    ∃ w, Reachable (system Sound) w ∧ (1, .deadline) ∈ w.released ∧
      Answered w 1 (some ⟨1, 0⟩) 64 := by
  have legal : Legal (system Sound) (timedWaits ++ [stops 2 .other 20]) (system Sound).start := by
    decide
  have seen : (run (system Sound) (timedWaits ++ [stops 2 .other 20]) (system Sound).start).map
      (fun w => (w.stopped.lookup 1, decide (1 ∉ w.st.waiters ∧ (1, .deadline) ∈ w.released))) =
      .ok (some ⟨.timedWait 5 (some ⟨1, 0⟩) 64, true⟩, true) := by decide
  obtain ⟨w, ran⟩ := legal.runs
  rw [ran] at seen
  obtain ⟨stopped, facts⟩ := Prod.mk.inj (Except.ok.inj seen)
  obtain ⟨awake, released⟩ := of_decide_eq_true facts
  have reached := legal.reachable Reachable.start ran
  exact ⟨w, reached, released, timed_wait_answered w reached 1 5 _ 64 stopped awake⟩

def wokenInTime : List Move := timedWaits ++ [stops 2 (.wake 5 1) 0, .resume 2 [0]]

theorem woken_invalid :
    ¬ ∀ w, Reachable (system fun _ _ => True) w → AllAnswered w := by
  intro answered
  have legal : Legal (system fun _ _ => True) wokenInTime (system fun _ _ => True).start := by
    decide
  have seen : (run (system fun _ _ => True) wokenInTime (system fun _ _ => True).start).map
      (fun w => (w.stopped.lookup 1, decide (1 ∉ w.st.waiters), statusAt 64 w.st)) =
      .ok (some ⟨.timedWait 5 (some ⟨1, 0⟩) 64, true⟩, true, some .invalid) := by decide
  obtain ⟨w, ran⟩ := legal.runs
  rw [ran] at seen
  simp only [Except.map, Except.ok.injEq, Prod.mk.injEq, decide_eq_true_eq] at seen
  obtain ⟨stopped, awake, status⟩ := seen
  have told := answered w (legal.reachable Reachable.start ran) 1 5 _ 64 stopped awake
  have wrong := told.invalid.mp status
  simp [validAbstime] at wrong

end Lotto.EvecStatus
