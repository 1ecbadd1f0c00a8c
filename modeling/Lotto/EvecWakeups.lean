import Lotto.EvecRun

namespace Lotto.EvecWakeups

open Library.FaultRun Library.GuardedRun Library.KeyMap EvecSpecs EvecRun

def Alone (st : EvecState) (id : TaskId) (addr : UInt64) : Prop :=
  id ∈ waitersOf st.evecs addr → ∀ item ∈ st.evecs.entries, item.1 ≠ addr → id ∉ item.2.waiters

/-- Moves that keep the waiters: there are none, or none of them is blocked and the evec is moved to
itself, or each of them is blocked or has prepared the other event as well. -/
def MovesWaiters (st : EvecState) (src dst : UInt64) : Prop :=
  (waitersOf st.evecs src).size = 0 ∨
  src = dst ∧ (∀ x ∈ (waitersOf st.evecs src).tasks, x ∉ st.waiters) ∨
  src ≠ dst ∧ ∀ x ∈ (waitersOf st.evecs src).tasks, x ∈ st.waiters ∨ x ∈ waitersOf st.evecs dst

def KeepsWaiters (st : EvecState) : EvecEvent → Prop
  | .move src dst => MovesWaiters st src dst
  | _ => True

def WaitsAlone (st : EvecState) (id : TaskId) : EvecEvent → Prop
  | .wait addr => Alone st id addr
  | .timedWait addr abstime _ =>
      Alone st id addr ∧ (abstime = none → id ∉ waitersOf st.evecs addr)
  | _ => True

/-- Steps that reach none of the handler's slips: no deadline is met at a capture or a trigger, a
task waits for the only event it has prepared, a timed wait without a time is of an event that is
not prepared, and a move keeps the waiters. -/
def Sound (w : World) : Move → Prop
  | .capture cp clock _ => Quiet clock w.st.evecs ∧ WaitsAlone w.st cp.id cp.event
  | .trigger id clock =>
      w.st.receivedTimeout = true ∨ id ∉ w.st.waiters ∨ Quiet clock w.st.evecs
  | .resume id _ => ∀ s ∈ w.stopped.lookup id, KeepsWaiters w.st s.event

instance (st : EvecState) (id : TaskId) (addr : UInt64) : Decidable (Alone st id addr) :=
  inferInstanceAs (Decidable (_ → ∀ item ∈ st.evecs.entries, item.1 ≠ addr → id ∉ item.2.waiters))

instance (st : EvecState) (id : TaskId) : ∀ event, Decidable (WaitsAlone st id event)
  | .wait _ => inferInstanceAs (Decidable (Alone _ _ _))
  | .timedWait _ _ _ => inferInstanceAs (Decidable (_ ∧ _))
  | .prepare _ | .cancel _ | .wake _ _ | .move _ _ | .other => isTrue trivial

-- the task ids are finitely many, so the instance over the lists is named
instance (st : EvecState) (src dst : UInt64) : Decidable (MovesWaiters st src dst) :=
  haveI := List.decidableBAll (fun x => x ∉ st.waiters) (waitersOf st.evecs src).tasks
  haveI := List.decidableBAll (fun x => x ∈ st.waiters ∨ x ∈ waitersOf st.evecs dst)
    (waitersOf st.evecs src).tasks
  inferInstanceAs (Decidable (_ ∨ _ ∧ _ ∨ _ ∧ _))

instance (st : EvecState) : ∀ event, Decidable (KeepsWaiters st event)
  | .move _ _ => inferInstanceAs (Decidable (MovesWaiters _ _ _))
  | .prepare _ | .wait _ | .timedWait _ _ _ | .cancel _ | .wake _ _ | .other => isTrue trivial

instance (w : World) : ∀ m, Decidable (Sound w m)
  | .capture _ _ _ => inferInstanceAs (Decidable (_ ∧ _))
  | .trigger _ _ => inferInstanceAs (Decidable (_ ∨ _ ∨ _))
  | .resume id _ => Option.decidableForallMem (w.stopped.lookup id)

/-- A wake on an evec with a blocked task and none that is merely prepared releases a blocked task,
whatever the random numbers are. -/
def WakeReleases (w : World) : Prop :=
  ∀ addr cnt randoms, 0 < cnt → (∃ x ∈ waitersOf w.st.evecs addr, x ∈ w.st.waiters) →
    (∀ x ∈ waitersOf w.st.evecs addr, (x, addr) ∈ w.prepared → x ∈ w.st.waiters) →
    ∃ st', posthandleWake addr cnt randoms w.st = .ok st' ∧ ∃ x ∈ w.st.waiters, x ∉ st'.waiters

/-- Every blocked task is in one evec, and every member of an evec is blocked or has prepared. -/
structure NoneLost (w : World) : Prop where
  blocked : ∀ x ∈ w.st.waiters, ∃! e, x ∈ waitersOf w.st.evecs e
  members : ∀ x e, x ∈ waitersOf w.st.evecs e → x ∈ w.st.waiters ∨ (x, e) ∈ w.prepared
  wakes : WakeReleases w

structure Inv (st : EvecState) (prepared : List (TaskId × UInt64)) : Prop where
  blocked : ∀ x ∈ st.waiters, ∃! e, x ∈ waitersOf st.evecs e
  members : ∀ x e, x ∈ waitersOf st.evecs e → x ∈ st.waiters ∨ (x, e) ∈ prepared
  named : ∀ x e, x ∈ waitersOf st.evecs e → x ≠ noTask

variable {st st' : EvecState} {prepared : List (TaskId × UInt64)} {id : TaskId} {eid : UInt64}

section Steps

theorem Inv.same {prepared' : List (TaskId × UInt64)} (inv : Inv st prepared)
    (evecs : ∀ e, waitersOf st'.evecs e = waitersOf st.evecs e)
    (waiters : ∀ x, x ∈ st'.waiters ↔ x ∈ st.waiters)
    (kept : ∀ x e, (x, e) ∈ prepared → x ∈ waitersOf st.evecs e → x ∉ st.waiters →
      (x, e) ∈ prepared') : Inv st' prepared' := by
  refine ⟨?_, ?_, ?_⟩
  · intro x blocked
    simp only [evecs]
    exact inv.blocked x ((waiters x).mp blocked)
  · intro x e member
    rw [evecs] at member
    rw [waiters]
    by_cases blocked : x ∈ st.waiters
    · exact Or.inl blocked
    · rcases inv.members x e member with blocked' | listed
      · exact absurd blocked' blocked
      · exact Or.inr (kept x e listed member blocked)
  · intro x e member
    rw [evecs] at member
    exact inv.named x e member

theorem Inv.prepare (inv : Inv st prepared) (changed : Prepared id eid st st') (name : id ≠ noTask)
    (awake : id ∉ st.waiters) : Inv st' ((id, eid) :: prepared) := by
  refine ⟨?_, ?_, ?_⟩
  · intro x blocked
    rw [changed.waiters] at blocked
    have other : x ≠ id := by
      rintro rfl
      exact awake blocked
    simpa [changed.members, other] using inv.blocked x blocked
  · intro x e member
    rw [changed.waiters]
    rcases (changed.members x e).mp member with member | ⟨rfl, rfl⟩
    · rcases inv.members x e member with blocked | listed
      · exact Or.inl blocked
      · exact Or.inr (List.mem_cons_of_mem _ listed)
    · exact Or.inr List.mem_cons_self
  · intro x e member
    rcases (changed.members x e).mp member with member | ⟨rfl, rfl⟩
    · exact inv.named x e member
    · exact name

theorem Inv.cancel (inv : Inv st prepared) (changed : Cancelled id eid st st')
    (awake : id ∉ st.waiters) : Inv st' (prepared.filter fun p => p != (id, eid)) := by
  refine ⟨?_, ?_, ?_⟩
  · intro x blocked
    rw [changed.waiters] at blocked
    have other : x ≠ id := by
      rintro rfl
      exact awake blocked
    simpa [changed.members, other] using inv.blocked x blocked
  · intro x e member
    obtain ⟨member, other⟩ := (changed.members x e).mp member
    rw [changed.waiters]
    rcases inv.members x e member with blocked | listed
    · exact Or.inl blocked
    · refine Or.inr (List.mem_filter.mpr ⟨listed, ?_⟩)
      simpa using other
  · intro x e member
    exact inv.named x e ((changed.members x e).mp member).1

theorem Inv.block {prepared' : List (TaskId × UInt64)} (inv : Inv st prepared)
    (evecs : ∀ e, waitersOf st'.evecs e = waitersOf st.evecs e)
    (waiters : ∀ x, x ∈ st'.waiters ↔ x ∈ st.waiters ∨ x = id)
    (member : id ∈ waitersOf st.evecs eid)
    (only : ∀ e, id ∈ waitersOf st.evecs e → e = eid)
    (kept : ∀ x e, (x, e) ∈ prepared → ¬(x = id ∧ e = eid) → (x, e) ∈ prepared') :
    Inv st' prepared' := by
  refine ⟨?_, ?_, ?_⟩
  · intro x blocked
    simp only [evecs]
    rcases (waiters x).mp blocked with blocked | rfl
    · exact inv.blocked x blocked
    · exact ⟨eid, member, only⟩
  · intro x e member
    rw [evecs] at member
    rw [waiters]
    by_cases here : x = id ∧ e = eid
    · exact Or.inl (Or.inr here.1)
    · rcases inv.members x e member with blocked | listed
      · exact Or.inl (Or.inl blocked)
      · exact Or.inr (kept x e listed here)
  · intro x e member
    rw [evecs] at member
    exact inv.named x e member

theorem Inv.wake {picks : List TaskId} (inv : Inv st prepared)
    (changed : WokenAll picks eid st st') (members : ∀ x ∈ picks, x ∈ waitersOf st.evecs eid) :
    Inv st' prepared := by
  refine ⟨?_, ?_, ?_⟩
  · intro x blocked
    obtain ⟨blocked, unpicked⟩ := (changed.waiters x).mp blocked
    simpa [changed.members, unpicked] using inv.blocked x blocked
  · intro x e member
    obtain ⟨member, stays⟩ := (changed.members x e).mp member
    rcases inv.members x e member with blocked | listed
    · left
      refine (changed.waiters x).mpr ⟨blocked, ?_⟩
      intro picked
      obtain ⟨only, _, unique⟩ := inv.blocked x blocked
      have same : e = eid := (unique e member).trans (unique eid (members x picked)).symm
      exact stays ⟨picked, same⟩
    · exact Or.inr listed
  · intro x e member
    exact inv.named x e ((changed.members x e).mp member).1

theorem Inv.move {src dst : UInt64} (inv : Inv st prepared) (changed : Moved src dst st st')
    (apart : src ≠ dst)
    (carried : ∀ x ∈ waitersOf st.evecs src, x ∈ st.waiters ∨ x ∈ waitersOf st.evecs dst) :
    Inv st' prepared := by
  refine ⟨?_, ?_, ?_⟩
  · intro x blocked
    rw [changed.waiters] at blocked
    obtain ⟨e, member, unique⟩ := inv.blocked x blocked
    by_cases moved : e = src
    · subst moved
      refine ⟨dst, (changed.members x dst).mpr ⟨apart.symm, Or.inr ⟨rfl, member⟩⟩, ?_⟩
      intro e' member'
      obtain ⟨other, here | ⟨same, _⟩⟩ := (changed.members x e').mp member'
      · exact absurd (unique e' here) other
      · exact same
    · refine ⟨e, (changed.members x e).mpr ⟨moved, Or.inl member⟩, ?_⟩
      intro e' member'
      obtain ⟨_, here | ⟨_, there⟩⟩ := (changed.members x e').mp member'
      · exact unique e' here
      · exact absurd (unique src there).symm moved
  · intro x e member
    rw [changed.waiters]
    obtain ⟨_, here | ⟨rfl, there⟩⟩ := (changed.members x e).mp member
    · exact inv.members x e here
    · rcases carried x there with blocked | here
      · exact Or.inl blocked
      · exact inv.members x e here
  · intro x e member
    obtain ⟨_, here | ⟨_, there⟩⟩ := (changed.members x e).mp member
    · exact inv.named x e here
    · exact inv.named x src there

theorem Inv.drop {src : UInt64} (inv : Inv st prepared)
    (unblocked : ∀ x ∈ waitersOf st.evecs src, x ∉ st.waiters) :
    Inv { st with evecs := st.evecs.erase src } prepared := by
  have left : ∀ x e, x ∈ waitersOf (st.evecs.erase src) e ↔ e ≠ src ∧ x ∈ waitersOf st.evecs e := by
    intro x e
    rw [waitersOf_erase]
    by_cases same : e = src
    · simp [same]
    · simp [same]
  refine ⟨?_, ?_, ?_⟩
  · intro x blocked
    obtain ⟨e, member, unique⟩ := inv.blocked x blocked
    refine ⟨e, (left x e).mpr ⟨?_, member⟩, ?_⟩
    · rintro rfl
      exact unblocked x member blocked
    · intro e' member'
      exact unique e' ((left x e').mp member').2
  · intro x e member
    exact inv.members x e ((left x e).mp member).2
  · intro x e member
    exact inv.named x e ((left x e).mp member).2

theorem Alone.only {addr : UInt64} (alone : Alone st id addr) (member : id ∈ waitersOf st.evecs addr)
    (e : UInt64) (there : id ∈ waitersOf st.evecs e) : e = addr := by
  by_contra other
  cases found : st.evecs.lookup e with
  | none =>
      rw [waitersOf_missing found] at there
      exact Tidset.not_mem_empty id there
  | some evec =>
      rw [waitersOf_found found] at there
      exact alone member ⟨e, evec⟩ (AList.mem_lookup_iff.mp found) other there

theorem mem_afterWait {cp : EvecCapture} {w : World} {x : TaskId} {e : UInt64} :
    (x, e) ∈ (afterCapture cp w st).prepared ↔
      (x, e) ∈ w.prepared ∧ ¬(x = cp.id ∧ waitsOn cp.event = some e) := by
  simp [afterCapture, List.mem_filter, -not_and, not_and_or]

theorem Inv.pass {cp : EvecCapture} {w : World} (inv : Inv st w.prepared)
    (evecs : ∀ e, waitersOf st'.evecs e = waitersOf st.evecs e)
    (waiters : ∀ x, x ∈ st'.waiters ↔ x ∈ st.waiters)
    (absent : ∀ addr, waitsOn cp.event = some addr → cp.id ∉ waitersOf st.evecs addr) :
    Inv st' (afterCapture cp w st').prepared := by
  apply inv.same evecs waiters
  intro x e listed member _
  refine mem_afterWait.mpr ⟨listed, ?_⟩
  rintro ⟨rfl, waits⟩
  exact absent e waits member

theorem Inv.switch {cp : EvecCapture} {w : World} (inv : Inv st w.prepared)
    (ran : evecSwitch cp st = .ok st') (sound : WaitsAlone st cp.id cp.event) :
    Inv st' (afterCapture cp w st').prepared := by
  obtain ⟨id, event⟩ := cp
  cases event with
  | wait addr =>
      have changed := handleWait_spec ran
      have evecs : ∀ e, waitersOf st'.evecs e = waitersOf st.evecs e := by
        intro e
        rw [changed.evecs]
      by_cases member : id ∈ waitersOf st.evecs addr
      · apply inv.block evecs (by simpa [member] using changed.waiters) member (sound.only member)
        intro x e listed other
        refine mem_afterWait.mpr ⟨listed, ?_⟩
        rintro ⟨rfl, waits⟩
        cases waits
        exact other ⟨rfl, rfl⟩
      · apply inv.pass evecs (by simpa [member] using changed.waiters)
        rintro _ ⟨⟩
        exact member
  | timedWait addr abstime ret =>
      obtain ⟨alone, timed⟩ := sound
      rcases handleTimedWait_cases ran with ⟨absent, rfl⟩ | ⟨member, untimed, _⟩ |
        ⟨member, _, changed⟩
      · apply inv.pass (fun _ => rfl) (fun _ => Iff.rfl)
        rintro _ ⟨⟩
        exact absent
      · exact absurd member (timed untimed)
      · apply inv.block changed.members changed.waiters member (alone.only member)
        intro x e listed other
        refine mem_afterWait.mpr ⟨listed, ?_⟩
        rintro ⟨rfl, waits⟩
        cases waits
        exact other ⟨rfl, rfl⟩
  | prepare _ | cancel _ | wake _ _ | move _ _ | other =>
      obtain rfl := Except.ok.inj ran
      apply inv.pass (fun _ => rfl) (fun _ => Iff.rfl)
      rintro _ ⟨⟩

end Steps

section Run

theorem publishTimedWait_evecs (event : EvecEvent) (st : EvecState) :
    (publishTimedWait event st).evecs = st.evecs := by
  cases event <;> rfl

theorem publishTimedWait_waiters (event : EvecEvent) (st : EvecState) :
    (publishTimedWait event st).waiters = st.waiters := by
  cases event <;> rfl

variable {w w' : World}

theorem capture_keeps {cp : EvecCapture} {clock : Timespec} {e : Decision}
    (inv : Inv w.st w.prepared) (sound : Sound w (.capture cp clock e))
    (stepped : step (.capture cp clock e) w = .ok w') : Inv w'.st w'.prepared := by
  obtain ⟨checked, st, scanned, switched, rfl⟩ := capture_ok stepped
  obtain ⟨quiet, alone⟩ := sound
  have same := checkTimeouts_quiet true (by rw [publishTimedWait_evecs]; exact quiet) scanned
  have evecs : checked.evecs = w.st.evecs := by
    rw [same, publishTimedWait_evecs]
  have waiters : checked.waiters = w.st.waiters := by
    rw [same, publishTimedWait_waiters]
  have before : Inv checked w.prepared :=
    inv.same (by simp [evecs]) (by simp [waiters]) fun _ _ listed _ _ => listed
  refine before.switch switched ?_
  unfold WaitsAlone Alone at alone ⊢
  rw [evecs]
  exact alone

theorem trigger_keeps {id : TaskId} {clock : Timespec} (inv : Inv w.st w.prepared)
    (sound : Sound w (.trigger id clock)) (stepped : step (.trigger id clock) w = .ok w') :
    Inv w'.st w'.prepared := by
  obtain ⟨st, ran, rfl⟩ := trigger_ok stepped
  unfold evecTrigger at ran
  by_cases ignored : (w.st.receivedTimeout || !w.st.waiters.has id) = true
  · rw [if_pos ignored] at ran
    obtain rfl := Except.ok.inj ran
    exact inv
  · rw [if_neg ignored] at ran
    have quiet : Quiet clock w.st.evecs := by
      rcases sound with received | absent | quiet
      · simp [received] at ignored
      · simp [absent] at ignored
      · exact quiet
    obtain rfl := checkTimeouts_quiet false quiet ran
    exact inv.same (fun _ => rfl) (fun _ => Iff.rfl) fun _ _ listed _ _ => listed

theorem resume_keeps {id : TaskId} {randoms : List Nat} (inv : Inv w.st w.prepared)
    (allowed : Allowed w (.resume id randoms)) (sound : Sound w (.resume id randoms))
    (stepped : step (.resume id randoms) w = .ok w') : Inv w'.st w'.prepared := by
  obtain ⟨isStopped, awake⟩ := allowed
  obtain ⟨⟨event, prepared⟩, stopped⟩ := Option.isSome_iff_exists.mp isStopped
  obtain ⟨st, name, ran, rfl⟩ := resume_ok stopped stepped
  obtain ⟨_, _, ran⟩ := bind_eq_ok.mp ran
  cases event with
  | prepare addr => exact inv.prepare (posthandlePrepare_spec ran) name awake
  | cancel addr => exact inv.cancel (posthandleCancel_spec ran) awake
  | wake addr cnt =>
      apply inv.wake (posthandleWake_spec ran)
      intro x picked
      exact mem_of_wakePicks picked
  | move src dst =>
      have keeps : MovesWaiters w.st src dst := sound ⟨.move src dst, prepared⟩ stopped
      rcases posthandleMove_cases ran with ⟨_, rfl⟩ | ⟨some, same, rfl⟩ | ⟨some, apart, changed⟩
      · exact inv
      · rcases keeps with none | ⟨_, unblocked⟩ | ⟨apart, _⟩
        · exact absurd none some
        · exact inv.drop unblocked
        · exact absurd same apart
      · rcases keeps with none | ⟨same, _⟩ | ⟨_, carried⟩
        · exact absurd none some
        · exact absurd same apart
        · exact inv.move changed apart carried
  | wait _ | timedWait _ _ _ | other =>
      obtain rfl := Except.ok.inj ran
      exact inv

theorem inv_start : Inv start.st start.prepared := by
  refine ⟨?_, ?_, ?_⟩
  · intro x blocked
    exact absurd blocked (Tidset.not_mem_empty x)
  · intro x e member
    exact absurd member (Tidset.not_mem_empty x)
  · intro x e member
    exact absurd member (Tidset.not_mem_empty x)

theorem reachable_inv (reached : Reachable (system Sound) w) : Inv w.st w.prepared := by
  induction reached with
  | start => exact inv_start
  | @step _ _ m _ allowed stepped inv =>
      obtain ⟨allowed, sound⟩ := allowed
      cases m with
      | capture cp clock e => exact capture_keeps inv sound stepped
      | trigger id clock => exact trigger_keeps inv sound stepped
      | resume id randoms => exact resume_keeps inv allowed sound stepped

theorem Inv.wakeReleases (inv : Inv w.st w.prepared) : WakeReleases w := by
  intro addr cnt randoms positive blocked merely
  obtain ⟨st', ran⟩ := posthandleWake_runs cnt randoms fun x => inv.named x addr
  refine ⟨st', ran, ?_⟩
  have changed := posthandleWake_spec ran
  obtain ⟨y, there, _⟩ := blocked
  have some : (waitersOf w.st.evecs addr).size ≠ 0 :=
    Nat.pos_iff_ne_zero.mp (Tidset.size_pos_iff.mpr ⟨y, there⟩)
  have member := wakeChoice_mem (randoms.headD 0) some
  refine ⟨wakeChoice (randoms.headD 0) (waitersOf w.st.evecs addr), ?_, ?_⟩
  · rcases inv.members _ addr member with blocked | listed
    · exact blocked
    · exact merely _ member listed
  · intro kept
    apply ((changed.waiters _).mp kept).2
    obtain ⟨cnt, rfl⟩ := Nat.exists_eq_add_one.mpr positive
    rw [wakePicks, if_neg some]
    exact List.mem_cons_self

theorem evec_noneLost (w : World) (reached : Reachable (system Sound) w) : NoneLost w := by
  have inv := reachable_inv reached
  exact ⟨inv.blocked, inv.members, inv.wakeReleases⟩

end Run

def waitsFor (id : TaskId) (addr : UInt64) (second : Int) : List Move :=
  [stops id (.prepare addr) second, .resume id [], stops id (.wait addr) second]

theorem noneLost_two :
    ∃ w, Reachable (system Sound) w ∧ 1 ∈ w.st.waiters ∧ 2 ∈ w.st.waiters ∧ NoneLost w := by
  have legal : Legal (system Sound) (waitsFor 1 5 0 ++ waitsFor 2 5 0) (system Sound).start := by
    decide
  have seen : (run (system Sound) (waitsFor 1 5 0 ++ waitsFor 2 5 0) (system Sound).start).map
      (fun w => decide (1 ∈ w.st.waiters ∧ 2 ∈ w.st.waiters)) = .ok true := by decide
  obtain ⟨w, ran⟩ := legal.runs
  rw [ran] at seen
  obtain ⟨first, second⟩ := of_decide_eq_true (Except.ok.inj seen)
  have reached := legal.reachable Reachable.start ran
  exact ⟨w, reached, first, second, evec_noneLost w reached⟩

def deadlinePasses : List Move :=
  [stops 1 (.prepare 5) 0, .resume 1 [], stops 1 (.timedWait 5 (some ⟨1, 0⟩) 64) 0,
    stops 2 .other 20, .resume 2 []] ++ waitsFor 2 5 20

/-- A wake can be spent on the task that no longer waits. -/
theorem deadline_loses_wake :
    ¬ ∀ w, Reachable (system fun _ _ => True) w → NoneLost w := by
  intro noneLost
  have legal : Legal (system fun _ _ => True) deadlinePasses (system fun _ _ => True).start := by
    decide
  have seen : (run (system fun _ _ => True) deadlinePasses (system fun _ _ => True).start).map
      (fun w => (waitersOf w.st.evecs 5, w.prepared, w.st.waiters,
        (posthandleWake 5 1 [0] w.st).map EvecState.waiters)) =
      .ok ((Tidset.empty.insert 1).insert 2, [], Tidset.empty.insert 2,
        .ok (Tidset.empty.insert 2)) := by decide
  obtain ⟨w, ran⟩ := legal.runs
  rw [ran] at seen
  simp only [Except.map, Except.ok.injEq, Prod.mk.injEq] at seen
  obtain ⟨members, none, waiters, woken⟩ := seen
  have wakes := (noneLost w (legal.reachable Reachable.start ran)).wakes 5 1 [0] Nat.one_pos
  rw [members, none, waiters] at wakes
  obtain ⟨st', woke, x, blocked, released⟩ := wakes ⟨2, by decide, by decide⟩ (by simp)
  rw [woke] at woken
  rw [Except.ok.inj woken] at released
  exact released blocked

end Lotto.EvecWakeups
