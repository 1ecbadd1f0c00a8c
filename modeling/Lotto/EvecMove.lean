import Lotto.EvecRun
import Lotto.TimeoutFires

namespace Lotto.EvecMove

open Library.FaultRun Library.GuardedRun Library.KeyMap EvecSpecs EvecRun TimeoutFires

/-- What a move has to do: the waiters and deadlines of `src` join those of `dst`, and nothing else
changes. -/
structure Conserved (src dst : UInt64) (st st' : EvecState) : Prop where
  waiters : ∀ x, x ∈ waitersOf st'.evecs dst ↔
    x ∈ waitersOf st.evecs src ∨ x ∈ waitersOf st.evecs dst
  deadlines : ∀ x d, deadlineOf st'.evecs dst x = some d ↔
    deadlineOf st.evecs src x = some d ∨ deadlineOf st.evecs dst x = some d
  source : src ≠ dst → ∀ x, x ∉ waitersOf st'.evecs src ∧ deadlineOf st'.evecs src x = none
  others : ∀ e, e ≠ src → e ≠ dst → st'.evecs.lookup e = st.evecs.lookup e
  blocked : st'.waiters = st.waiters
  registered : ∀ x, st'.timeouts.lookup x = st.timeouts.lookup x
  stores : st'.stores = st.stores
  housed : ∀ x ∈ st'.waiters, ∃ e, x ∈ waitersOf st'.evecs e

/-- The moves that conserve the waiters: of an evec without waiters and deadlines, or between two
evecs that do not have the moving task, when no task has a deadline in both and the deadlines of
`src` are those of the timeout handler. -/
def Movable (id : TaskId) (src dst : UInt64) (st : EvecState) : Prop :=
  (waitersOf st.evecs src).size = 0 ∧ (src = dst ∨ ∀ x, deadlineOf st.evecs src x = none) ∨
  (waitersOf st.evecs src).size ≠ 0 ∧ src ≠ dst ∧
    id ∉ waitersOf st.evecs src ∧ id ∉ waitersOf st.evecs dst ∧
    ∀ x d, deadlineOf st.evecs src x = some d →
      deadlineOf st.evecs dst x = none ∧ st.timeouts.lookup x = some d.deadline

structure Housed (st : EvecState) : Prop where
  named : ∀ x e, x ∈ waitersOf st.evecs e → x ≠ noTask
  timed : ∀ e x d, deadlineOf st.evecs e x = some d → x ≠ noTask
  housed : ∀ x ∈ st.waiters, ∃ e, x ∈ waitersOf st.evecs e

variable {st st' : EvecState} {id : TaskId} {src dst : UInt64}

section Deadlines

variable {its : List (Sigma fun _ : UInt64 => EvecDeadline)}
  {acc acc' : Map EvecDeadline × Map Timespec}

theorem register_lookup {deadline : Timespec} {timeouts timeouts' : Map Timespec}
    (ran : handlerTimeoutRegister id deadline timeouts = .ok timeouts') (x : TaskId) :
    timeouts'.lookup x = if x = id then some deadline else timeouts.lookup x := by
  have named : id ≠ noTask := by
    intro none
    simp [handlerTimeoutRegister, none] at ran
  obtain ⟨timeouts', again, lookups⟩ := handlerTimeoutRegister_ok named deadline timeouts
  obtain rfl := Except.ok.inj (ran.symm.trans again)
  exact lookups x

theorem moveDeadlines_fresh (distinct : (its.map Sigma.fst).Nodup)
    (ran : its.foldlM moveDeadline acc = .ok acc') : ∀ it ∈ its, acc.1.lookup it.1 = none := by
  induction its generalizing acc with
  | nil => simp
  | cons it its ih =>
      obtain ⟨absent, distinct⟩ := List.nodup_cons.mp distinct
      rw [List.foldlM_cons] at ran
      obtain ⟨mid, moved, ran⟩ := bind_eq_ok.mp ran
      obtain ⟨_, unregistered, moved⟩ := bind_eq_ok.mp moved
      obtain ⟨timeouts, -, moved⟩ := bind_eq_ok.mp moved
      obtain rfl := Except.ok.inj moved
      rw [check_ok_iff, Option.isNone_iff_eq_none] at unregistered
      intro other member
      rcases List.mem_cons.mp member with rfl | later
      · exact unregistered
      · have apart : other.1 ≠ it.1 := by
          intro same
          exact absent (same ▸ List.mem_map_of_mem later)
        have fresh := ih distinct ran other later
        rw [AList.lookup_insert_ne apart] at fresh
        exact fresh

theorem moveDeadlines_timeouts (distinct : (its.map Sigma.fst).Nodup)
    (ran : its.foldlM moveDeadline acc = .ok acc') (x : TaskId) :
    (∀ d, ⟨x, d⟩ ∈ its → acc'.2.lookup x = some d.deadline) ∧
      (x ∉ its.map Sigma.fst → acc'.2.lookup x = acc.2.lookup x) := by
  induction its generalizing acc with
  | nil =>
      obtain rfl := Except.ok.inj ran
      simp
  | cons it its ih =>
      obtain ⟨absent, distinct⟩ := List.nodup_cons.mp distinct
      rw [List.foldlM_cons] at ran
      obtain ⟨mid, moved, ran⟩ := bind_eq_ok.mp ran
      obtain ⟨-, -, moved⟩ := bind_eq_ok.mp moved
      obtain ⟨timeouts, registered, moved⟩ := bind_eq_ok.mp moved
      obtain rfl := Except.ok.inj moved
      obtain ⟨entries, rest⟩ := ih distinct ran
      have first := register_lookup registered x
      constructor
      · intro d member
        rcases List.mem_cons.mp member with same | later
        · subst same
          rw [rest absent, first, if_pos rfl]
        · exact entries d later
      · intro outside
        rw [List.map_cons, List.mem_cons, not_or] at outside
        rw [rest outside.2, first, if_neg outside.1]

theorem moveDeadlines_runs (acc : Map EvecDeadline × Map Timespec)
    (distinct : (its.map Sigma.fst).Nodup) (named : ∀ it ∈ its, it.1 ≠ noTask) (fresh : ∀ it ∈ its, acc.1.lookup it.1 = none) :
    ∃ acc', its.foldlM moveDeadline acc = .ok acc' := by
  induction its generalizing acc with
  | nil => exact ⟨acc, rfl⟩
  | cons it its ih =>
      obtain ⟨absent, distinct⟩ := List.nodup_cons.mp distinct
      obtain ⟨timeouts, registered, -⟩ :=
        handlerTimeoutRegister_ok (named it List.mem_cons_self) it.2.deadline acc.2
      have unregistered : (acc.1.lookup it.1).isNone = true := by
        rw [fresh it List.mem_cons_self]
        rfl
      rw [List.foldlM_cons, moveDeadline, unregistered, check_true, ok_bind, registered, ok_bind,
        ok_bind]
      apply ih _ distinct
      · exact fun other later => named other (List.mem_cons_of_mem it later)
      · intro other later
        have apart : other.1 ≠ it.1 := by
          intro same
          exact absent (same ▸ List.mem_map_of_mem later)
        rw [AList.lookup_insert_ne apart]
        exact fresh other (List.mem_cons_of_mem it later)

end Deadlines

section Move

variable {esrc : Evec}

def merged (esrc : Evec) (dst : UInt64) (evecs : Map Evec) : Tidset :=
  esrc.waiters.tasks.foldl Tidset.insert (evecInit dst evecs).1.waiters

def movedState (esrc : Evec) (src dst : UInt64) (st : EvecState)
    (acc : Map EvecDeadline × Map Timespec) : EvecState :=
  { st with
    evecs := ((evecInit dst st.evecs).2.replace dst
      { waiters := merged esrc dst st.evecs, deadlines := acc.1 }).erase src
    timeouts := acc.2 }

theorem mem_merged (found : st.evecs.lookup src = some esrc) (x : TaskId) :
    x ∈ merged esrc dst st.evecs ↔ x ∈ waitersOf st.evecs src ∨ x ∈ waitersOf st.evecs dst := by
  rw [merged, mem_foldl_insert, evecInit_waiters, waitersOf_found found, or_comm]
  rfl

theorem posthandleMove_between (awake : id ∉ st.waiters) (found : st.evecs.lookup src = some esrc)
    (some : esrc.waiters.size ≠ 0) (apart : src ≠ dst) :
    posthandleMove id src dst st = .ok st' ↔ id ∉ merged esrc dst st.evecs ∧
      ∃ acc, esrc.deadlines.entries.foldlM moveDeadline
        ((evecInit dst st.evecs).1.deadlines, st.timeouts) = .ok acc ∧
        st' = movedState esrc src dst st acc := by
  have idle : (!st.waiters.has id) = true := by
    simpa using awake
  rw [posthandleMove, idle, check_true, ok_bind]
  simp only [found, if_neg some, if_neg apart]
  rw [bind_eq_ok]
  constructor
  · intro ran
    obtain ⟨_, spared, ran⟩ := ran
    obtain ⟨acc, looped, rest⟩ := bind_eq_ok.mp ran
    rw [check_ok_iff] at spared
    refine ⟨by simpa [merged] using spared, acc, looped, ?_⟩
    exact (Except.ok.inj rest).symm
  · intro ran
    obtain ⟨spared, acc, looped, rfl⟩ := ran
    have spare : (!(merged esrc dst st.evecs).has id) = true := by
      simpa using spared
    refine ⟨(), by rw [check_ok_iff]; exact spare, ?_⟩
    rw [looped, ok_bind]
    rfl

theorem movedState_lookup (acc : Map EvecDeadline × Map Timespec) (e : UInt64) :
    (movedState esrc src dst st acc).evecs.lookup e =
      if e = src then none
      else if e = dst then some { waiters := merged esrc dst st.evecs, deadlines := acc.1 }
      else st.evecs.lookup e := by
  rw [movedState, erase_lookup, sets_init dst st.evecs _ e]

theorem movedState_waiters (found : st.evecs.lookup src = some esrc)
    (acc : Map EvecDeadline × Map Timespec) (e : UInt64) (x : TaskId) :
    x ∈ waitersOf (movedState esrc src dst st acc).evecs e ↔
      e ≠ src ∧ (x ∈ waitersOf st.evecs e ∨ e = dst ∧ x ∈ waitersOf st.evecs src) := by
  rw [waitersOf, movedState_lookup]
  by_cases gone : e = src
  · simp [gone]
  · rw [if_neg gone]
    by_cases here : e = dst
    · subst here
      rw [if_pos rfl, mem_merged found]
      simp [gone, or_comm]
    · rw [if_neg here]
      simp [gone, here, waitersOf]

theorem movedState_deadlines (found : st.evecs.lookup src = some esrc)
    {acc : Map EvecDeadline × Map Timespec}
    (looped : esrc.deadlines.entries.foldlM moveDeadline
      ((evecInit dst st.evecs).1.deadlines, st.timeouts) = .ok acc)
    (e : UInt64) (x : TaskId) (d : EvecDeadline) :
    deadlineOf (movedState esrc src dst st acc).evecs e x = some d ↔
      e ≠ src ∧ (deadlineOf st.evecs e x = some d ∨
        e = dst ∧ deadlineOf st.evecs src x = some d) := by
  rw [deadlineOf, movedState_lookup]
  by_cases gone : e = src
  · simp [gone]
  · rw [if_neg gone]
    by_cases here : e = dst
    · subst here
      have entries := moveDeadlines_lookup looped x d
      rw [evecInit_deadlines, ← AList.mem_lookup_iff, Option.mem_def,
        ← deadlineOf_found found] at entries
      simpa [gone] using entries
    · rw [if_neg here]
      simp [gone, here, deadlineOf]

theorem mem_deadlines (found : st.evecs.lookup src = some esrc) {x : TaskId} {d : EvecDeadline} :
    deadlineOf st.evecs src x = some d ↔ ⟨x, d⟩ ∈ esrc.deadlines.entries := by
  rw [deadlineOf_found found, ← Option.mem_def, AList.mem_lookup_iff]

end Move

section Conservation

variable {esrc : Evec}

theorem conserved_empty (inv : Housed st) (nobody : (waitersOf st.evecs src).size = 0)
    (untimed : src = dst ∨ ∀ x, deadlineOf st.evecs src x = none) : Conserved src dst st st := by
  have empty : ∀ x, x ∉ waitersOf st.evecs src := by
    intro x member
    have some := Tidset.size_pos_iff.mpr ⟨x, member⟩
    omega
  refine ⟨?_, ?_, ?_, fun _ _ _ => rfl, rfl, fun _ => rfl, rfl, inv.housed⟩
  · intro x
    simp [empty x]
  · intro x d
    rcases untimed with rfl | untimed
    · simp
    · simp [untimed x]
  · intro apart x
    exact ⟨empty x, untimed.resolve_left apart x⟩

theorem posthandleMove_empty (awake : id ∉ st.waiters)
    (none : (waitersOf st.evecs src).size = 0) : posthandleMove id src dst st = .ok st := by
  have idle : (!st.waiters.has id) = true := by
    simpa using awake
  rw [posthandleMove, idle, check_true, ok_bind]
  cases found : st.evecs.lookup src with
  | none => rfl
  | some esrc =>
      rw [waitersOf_found found] at none
      simp only [if_pos none]

theorem conserved_between (inv : Housed st) (found : st.evecs.lookup src = some esrc)
    (apart : src ≠ dst) {acc : Map EvecDeadline × Map Timespec}
    (looped : esrc.deadlines.entries.foldlM moveDeadline
      ((evecInit dst st.evecs).1.deadlines, st.timeouts) = .ok acc)
    (registered : ∀ x d, deadlineOf st.evecs src x = some d →
      st.timeouts.lookup x = some d.deadline) :
    Conserved src dst st (movedState esrc src dst st acc) := by
  refine ⟨?_, ?_, ?_, ?_, rfl, ?_, rfl, ?_⟩
  · intro x
    rw [movedState_waiters found]
    simp [Ne.symm apart, or_comm]
  · intro x d
    rw [movedState_deadlines found looped]
    simp [Ne.symm apart, or_comm]
  · intro _ x
    constructor
    · rw [movedState_waiters found]
      simp
    · rw [Option.eq_none_iff_forall_ne_some]
      intro d entry
      exact ((movedState_deadlines found looped src x d).mp entry).1 rfl
  · intro e notSrc notDst
    rw [movedState_lookup, if_neg notSrc, if_neg notDst]
  · intro x
    obtain ⟨entries, rest⟩ := moveDeadlines_timeouts esrc.deadlines.nodupKeys looped x
    cases entry : deadlineOf st.evecs src x with
    | none =>
        apply rest
        intro member
        obtain ⟨it, inside, rfl⟩ := List.mem_map.mp member
        rw [(mem_deadlines found).mpr inside] at entry
        cases entry
    | some d =>
        calc
          acc.2.lookup x = some d.deadline := entries d ((mem_deadlines found).mp entry)
          _ = st.timeouts.lookup x := (registered x d entry).symm
  · intro x blocked
    obtain ⟨e, member⟩ := inv.housed x blocked
    by_cases same : e = src
    · subst same
      exact ⟨dst, (movedState_waiters found acc dst x).mpr ⟨Ne.symm apart, .inr ⟨rfl, member⟩⟩⟩
    · exact ⟨e, (movedState_waiters found acc e x).mpr ⟨same, .inl member⟩⟩

theorem Movable.conserves (movable : Movable id src dst st) (inv : Housed st)
    (awake : id ∉ st.waiters) :
    ∃ st', posthandleMove id src dst st = .ok st' ∧ Conserved src dst st st' := by
  rcases movable with ⟨none, untimed⟩ | ⟨some, apart, notSrc, notDst, single⟩
  · exact ⟨st, posthandleMove_empty awake none, conserved_empty inv none untimed⟩
  · cases found : st.evecs.lookup src with
    | none =>
        rw [waitersOf_missing found] at some
        exact absurd rfl some
    | some esrc =>
        rw [waitersOf_found found] at some
        have fresh : ∀ it ∈ esrc.deadlines.entries,
            (evecInit dst st.evecs).1.deadlines.lookup it.1 = none := by
          intro it inside
          rw [evecInit_deadlines]
          exact (single it.1 it.2 ((mem_deadlines found).mpr inside)).1
        obtain ⟨acc, looped⟩ := moveDeadlines_runs
          ((evecInit dst st.evecs).1.deadlines, st.timeouts) esrc.deadlines.nodupKeys
          (fun it inside => inv.timed src it.1 it.2 ((mem_deadlines found).mpr inside)) fresh
        refine ⟨movedState esrc src dst st acc, ?_, ?_⟩
        · apply (posthandleMove_between awake found some apart).mpr
          refine ⟨?_, acc, looped, rfl⟩
          rw [mem_merged found, not_or]
          exact ⟨notSrc, notDst⟩
        · exact conserved_between inv found apart looped fun x d entry => (single x d entry).2

theorem Conserved.movable (ran : posthandleMove id src dst st = .ok st')
    (conserved : Conserved src dst st st') (awake : id ∉ st.waiters) : Movable id src dst st := by
  rcases posthandleMove_cases ran with ⟨none, rfl⟩ | ⟨some, rfl, rfl⟩ | ⟨some, apart, -⟩
  · left
    refine ⟨none, ?_⟩
    by_cases same : src = dst
    · exact .inl same
    · exact .inr fun x => (conserved.source same x).2
  · obtain ⟨x, member⟩ := Tidset.size_pos_iff.mp (Nat.pos_of_ne_zero some)
    have moved := (conserved.waiters x).mpr (.inl member)
    rw [waitersOf_erase, if_pos rfl] at moved
    exact absurd moved (Tidset.not_mem_empty x)
  · right
    refine ⟨some, apart, ?_⟩
    cases found : st.evecs.lookup src with
    | none =>
        rw [waitersOf_missing found] at some
        exact absurd rfl some
    | some esrc =>
        rw [waitersOf_found found] at some
        obtain ⟨spared, acc, looped, rfl⟩ :=
          (posthandleMove_between awake found some apart).mp ran
        rw [mem_merged found, not_or] at spared
        refine ⟨spared.1, spared.2, ?_⟩
        intro x d entry
        have inside := (mem_deadlines found).mp entry
        have fresh := moveDeadlines_fresh esrc.deadlines.nodupKeys looped ⟨x, d⟩ inside
        rw [evecInit_deadlines] at fresh
        refine ⟨fresh, ?_⟩
        rw [← conserved.registered x]
        exact (moveDeadlines_timeouts esrc.deadlines.nodupKeys looped x).1 d inside

end Conservation

section Run

variable {w w' : World}

def NamesTwo (st : EvecState) : EvecEvent → Prop
  | .move src dst => src ≠ dst ∨ (waitersOf st.evecs src).size = 0
  | _ => True

instance (st : EvecState) : ∀ event, Decidable (NamesTwo st event)
  | .move _ _ => inferInstanceAs (Decidable (_ ∨ _))
  | .prepare _ | .wait _ | .timedWait _ _ _ | .cancel _ | .wake _ _ | .other => isTrue trivial

def MovesApart (w : World) : Move → Prop
  | .resume id _ => ∀ s ∈ w.stopped.lookup id, NamesTwo w.st s.event
  | _ => True

instance (w : World) : ∀ m, Decidable (MovesApart w m)
  | .resume _ _ => inferInstanceAs (Decidable (∀ s ∈ _, NamesTwo _ _))
  | .capture _ _ _ | .trigger _ _ => isTrue trivial

structure Shrinks (st st' : EvecState) : Prop where
  members : ∀ e, waitersOf st'.evecs e = waitersOf st.evecs e
  deadlines : ∀ e x d, deadlineOf st'.evecs e x = some d → deadlineOf st.evecs e x = some d
  waiters : ∀ x, x ∈ st'.waiters → x ∈ st.waiters

theorem Shrinks.refl (st : EvecState) : Shrinks st st :=
  ⟨fun _ => rfl, fun _ _ _ entry => entry, fun _ member => member⟩

theorem Shrinks.trans {mid : EvecState} (first : Shrinks st mid) (second : Shrinks mid st') :
    Shrinks st st' :=
  ⟨fun e => (second.members e).trans (first.members e),
    fun e x d entry => first.deadlines e x d (second.deadlines e x d entry),
    fun x member => first.waiters x (second.waiters x member)⟩

theorem Housed.shrinks (inv : Housed st) (shrinks : Shrinks st st') : Housed st' := by
  refine ⟨?_, ?_, ?_⟩
  · intro x e member
    rw [shrinks.members] at member
    exact inv.named x e member
  · intro e x d entry
    exact inv.timed e x d (shrinks.deadlines e x d entry)
  · intro x blocked
    obtain ⟨e, member⟩ := inv.housed x (shrinks.waiters x blocked)
    exact ⟨e, by rw [shrinks.members]; exact member⟩

theorem expire_shrinks {shouldPublish : Bool} {eid : UInt64}
    {it : Sigma fun _ : UInt64 => EvecDeadline} (ran : expire shouldPublish eid st it = .ok st') :
    Shrinks st st' := by
  have expired := expire_spec ran
  exact ⟨expired.members, fun e x d entry => ((expired.deadlines e x d).mp entry).1,
    fun x member => ((expired.waiters x).mp member).1⟩

theorem foldlM_shrinks {α : Type} {f : EvecState → α → Except Fault EvecState}
    (each : ∀ st a st', f st a = .ok st' → Shrinks st st') (items : List α)
    (ran : items.foldlM f st = .ok st') : Shrinks st st' := by
  induction items generalizing st with
  | nil =>
      obtain rfl := Except.ok.inj ran
      exact Shrinks.refl st
  | cons a items ih =>
      rw [List.foldlM_cons] at ran
      obtain ⟨mid, first, rest⟩ := bind_eq_ok.mp ran
      exact (each st a mid first).trans (ih rest)

theorem checkTimeouts_shrinks {shouldPublish : Bool}
    (ran : checkTimeouts shouldPublish st = .ok st') : Shrinks st st' := by
  obtain ⟨mid, looped, rest⟩ := bind_eq_ok.mp ran
  obtain ⟨-, -, rest⟩ := bind_eq_ok.mp rest
  obtain rfl := Except.ok.inj rest
  apply foldlM_shrinks _ st.evecs.keys looped
  intro before eid after expired
  exact foldlM_shrinks (fun _ _ _ ran => expire_shrinks ran) (metDeadlines before eid) expired

theorem Housed.switch {cp : EvecCapture} (inv : Housed st) (name : cp.id ≠ noTask)
    (ran : evecSwitch cp st = .ok st') : Housed st' := by
  have same : ∀ st', .ok st = (.ok st' : Except Fault EvecState) → Housed st' := by
    intro st' same
    obtain rfl := Except.ok.inj same
    exact inv
  obtain ⟨id, event⟩ := cp
  cases event with
  | wait addr =>
      have ran : handleWait id addr st = .ok st' := ran
      have waited := handleWait_spec ran
      refine ⟨?_, ?_, ?_⟩
      · rw [waited.evecs]
        exact inv.named
      · rw [waited.evecs]
        exact inv.timed
      · intro x blocked
        rw [waited.evecs]
        rcases (waited.waiters x).mp blocked with before | ⟨rfl, member⟩
        · exact inv.housed x before
        · exact ⟨addr, member⟩
  | timedWait addr abstime ret =>
      have ran : handleTimedWait id addr abstime ret st = .ok st' := ran
      rcases handleTimedWait_cases ran with
        ⟨-, rfl⟩ | ⟨-, -, evecs, waiters, -⟩ | ⟨member, -, waited⟩
      · exact inv
      · refine ⟨?_, ?_, ?_⟩
        · rw [evecs]
          exact inv.named
        · rw [evecs]
          exact inv.timed
        · rw [evecs, waiters]
          exact inv.housed
      · refine ⟨?_, ?_, ?_⟩
        · intro x e inside
          rw [waited.members] at inside
          exact inv.named x e inside
        · intro e x d entry
          rcases (waited.deadlines e x d).mp entry with ⟨-, rfl, -⟩ | ⟨-, before⟩
          · exact name
          · exact inv.timed e x d before
        · intro x blocked
          rcases (waited.waiters x).mp blocked with before | rfl
          · obtain ⟨e, inside⟩ := inv.housed x before
            exact ⟨e, by rw [waited.members]; exact inside⟩
          · exact ⟨addr, by rw [waited.members]; exact member⟩
  | prepare addr => exact same st' ran
  | cancel addr => exact same st' ran
  | wake addr cnt => exact same st' ran
  | move src dst => exact same st' ran
  | other => exact same st' ran

theorem publishTimedWait_shrinks (event : EvecEvent) (clock : Timespec) (st : EvecState) :
    Shrinks st { publishTimedWait event st with now := clock, receivedTimeout := false } := by
  cases event <;> exact ⟨fun _ => rfl, fun _ _ _ entry => entry, fun _ member => member⟩

theorem capture_housed {cp : EvecCapture} {clock : Timespec} {e : Decision} (inv : Housed w.st)
    (stepped : step (.capture cp clock e) w = .ok w') : Housed w'.st := by
  have name : cp.id ≠ noTask := by
    obtain ⟨_, ran, -⟩ := map_eq_ok.mp stepped
    obtain ⟨_, named, -⟩ := bind_eq_ok.mp ran
    rw [check_ok_iff] at named
    simpa using named
  obtain ⟨checked, st, scanned, switched, rfl⟩ := capture_ok stepped
  have shrinks := (publishTimedWait_shrinks cp.event clock w.st).trans
    (checkTimeouts_shrinks scanned)
  exact (inv.shrinks shrinks).switch name switched

theorem trigger_housed {id : TaskId} {clock : Timespec} (inv : Housed w.st)
    (stepped : step (.trigger id clock) w = .ok w') : Housed w'.st := by
  obtain ⟨st, ran, rfl⟩ := trigger_ok stepped
  unfold evecTrigger at ran
  split at ran
  · obtain rfl := Except.ok.inj ran
    exact inv
  · have begun : Shrinks w.st { w.st with receivedTimeout := true, now := clock } :=
      ⟨fun _ => rfl, fun _ _ _ entry => entry, fun _ member => member⟩
    exact inv.shrinks (begun.trans (checkTimeouts_shrinks ran))

theorem Housed.prepare {eid : UInt64} (inv : Housed st) (name : id ≠ noTask)
    (changed : Prepared id eid st st') : Housed st' := by
  refine ⟨?_, ?_, ?_⟩
  · intro x e member
    rcases (changed.members x e).mp member with before | ⟨rfl, -⟩
    · exact inv.named x e before
    · exact name
  · intro e x d entry
    rw [changed.deadlines] at entry
    exact inv.timed e x d entry
  · intro x blocked
    rw [changed.waiters] at blocked
    obtain ⟨e, member⟩ := inv.housed x blocked
    exact ⟨e, (changed.members x e).mpr (.inl member)⟩

theorem Housed.cancel {eid : UInt64} (inv : Housed st) (awake : id ∉ st.waiters)
    (changed : Cancelled id eid st st') : Housed st' := by
  refine ⟨?_, ?_, ?_⟩
  · intro x e member
    exact inv.named x e ((changed.members x e).mp member).1
  · intro e x d entry
    rw [changed.deadlines] at entry
    exact inv.timed e x d entry
  · intro x blocked
    rw [changed.waiters] at blocked
    obtain ⟨e, member⟩ := inv.housed x blocked
    refine ⟨e, (changed.members x e).mpr ⟨member, ?_⟩⟩
    intro both
    exact awake (both.1 ▸ blocked)

theorem Housed.wake {picks : List TaskId} {eid : UInt64} (inv : Housed st)
    (changed : WokenAll picks eid st st') : Housed st' := by
  refine ⟨?_, ?_, ?_⟩
  · intro x e member
    exact inv.named x e ((changed.members x e).mp member).1
  · intro e x d entry
    exact inv.timed e x d ((changed.deadlines e x d).mp entry).1
  · intro x blocked
    obtain ⟨before, unpicked⟩ := (changed.waiters x).mp blocked
    obtain ⟨e, member⟩ := inv.housed x before
    exact ⟨e, (changed.members x e).mpr ⟨member, fun both => unpicked both.1⟩⟩

theorem Housed.move (inv : Housed st) (apart : src ≠ dst) (changed : Moved src dst st st') :
    Housed st' := by
  refine ⟨?_, ?_, ?_⟩
  · intro x e member
    rcases ((changed.members x e).mp member).2 with before | ⟨-, before⟩
    · exact inv.named x e before
    · exact inv.named x src before
  · intro e x d entry
    rcases ((changed.deadlines e x d).mp entry).2 with before | ⟨-, before⟩
    · exact inv.timed e x d before
    · exact inv.timed src x d before
  · intro x blocked
    rw [changed.waiters] at blocked
    obtain ⟨e, member⟩ := inv.housed x blocked
    by_cases same : e = src
    · subst same
      exact ⟨dst, (changed.members x dst).mpr ⟨Ne.symm apart, .inr ⟨rfl, member⟩⟩⟩
    · exact ⟨e, (changed.members x e).mpr ⟨same, .inl member⟩⟩

theorem resume_housed {id : TaskId} {randoms : List Nat} (inv : Housed w.st)
    (allowed : Allowed w (.resume id randoms)) (apart : MovesApart w (.resume id randoms))
    (stepped : step (.resume id randoms) w = .ok w') : Housed w'.st := by
  obtain ⟨stopped, awake⟩ := allowed
  obtain ⟨s, found⟩ := Option.isSome_iff_exists.mp stopped
  obtain ⟨st, name, ran, rfl⟩ := resume_ok found stepped
  obtain ⟨-, -, ran⟩ := bind_eq_ok.mp ran
  have same : ∀ st', .ok w.st = (.ok st' : Except Fault EvecState) → Housed st' := by
    intro st' same
    obtain rfl := Except.ok.inj same
    exact inv
  cases event : s.event with
  | prepare addr =>
      rw [event] at ran
      exact inv.prepare name (posthandlePrepare_spec ran)
  | cancel addr =>
      rw [event] at ran
      exact inv.cancel awake (posthandleCancel_spec ran)
  | wake addr cnt =>
      rw [event] at ran
      exact inv.wake (posthandleWake_spec ran)
  | move src dst =>
      rw [event] at ran
      rcases posthandleMove_cases ran with ⟨-, rfl⟩ | ⟨some, rfl, -⟩ | ⟨-, different, moved⟩
      · exact inv
      · have two := apart s found
        rw [event] at two
        exact absurd (two.resolve_left (by simp)) some
      · exact inv.move different moved
  | wait addr =>
      rw [event] at ran
      exact same st ran
  | timedWait addr abstime ret =>
      rw [event] at ran
      exact same st ran
  | other =>
      rw [event] at ran
      exact same st ran

theorem start_housed : Housed start.st := by
  refine ⟨?_, ?_, ?_⟩
  · intro x e member
    exact absurd member (Tidset.not_mem_empty x)
  · intro e x d entry
    cases entry
  · intro x blocked
    exact absurd blocked (Tidset.not_mem_empty x)

theorem reachable_housed (reached : Reachable (system MovesApart) w) : Housed w.st := by
  induction reached with
  | start => exact start_housed
  | @step _ _ m _ both stepped inv =>
      obtain ⟨allowed, apart⟩ := both
      cases m with
      | capture cp clock e => exact capture_housed inv stepped
      | trigger id clock => exact trigger_housed inv stepped
      | resume id randoms => exact resume_housed inv allowed apart stepped

end Run

/-- In every state of a run whose moves name two evecs, or one that nobody waits for, a move
conserves the waiters exactly if it is a movable one. -/
theorem move_conserves_iff (w : World) (reached : Reachable (system MovesApart) w) (id : TaskId)
    (awake : id ∉ w.st.waiters) (src dst : UInt64) :
    (∃ st', posthandleMove id src dst w.st = .ok st' ∧ Conserved src dst w.st st') ↔
      Movable id src dst w.st := by
  constructor
  · intro moves
    obtain ⟨st', ran, conserved⟩ := moves
    exact Conserved.movable ran conserved awake
  · intro movable
    exact movable.conserves (reachable_housed reached) awake

def timedWaiter : List Move :=
  [stops 1 (.prepare 5) 0, .resume 1 [], stops 1 (.timedWait 5 (some ⟨1, 0⟩) 64) 0]

theorem timed_waiter_moved :
    ∃ w, Reachable (system MovesApart) w ∧ 1 ∈ waitersOf w.st.evecs 5 ∧
      ∃ st', posthandleMove 2 5 7 w.st = .ok st' ∧ Conserved 5 7 w.st st' := by
  have legal : Legal (system MovesApart) timedWaiter (system MovesApart).start := by decide
  have seen : (run (system MovesApart) timedWaiter (system MovesApart).start).map EvecRun.World.st =
      .ok { evecs := AList.insert 5 ⟨Tidset.empty.insert 1, AList.insert 1 ⟨⟨20, 0⟩, 64⟩ ∅⟩ ∅
            waiters := Tidset.empty.insert 1, now := ⟨0, 0⟩, receivedTimeout := false
            timeouts := AList.insert 1 ⟨20, 0⟩ ∅, stores := [(64, .timeout)] } := rfl
  obtain ⟨w, ran⟩ := legal.runs
  rw [ran] at seen
  have state := Except.ok.inj seen
  have reached := legal.reachable Reachable.start ran
  refine ⟨w, reached, by rw [state]; decide, ?_⟩
  refine (move_conserves_iff w reached 2 (by rw [state]; decide) 5 7).mpr ?_
  refine .inr ⟨by rw [state]; decide, by decide, by rw [state]; decide, by rw [state]; decide, ?_⟩
  intro x d entry
  rw [state] at entry ⊢
  obtain ⟨evec, found, entry⟩ := Option.bind_eq_some_iff.mp entry
  obtain rfl := Option.some.inj found
  rcases lookup_insert_some.mp entry with ⟨rfl, rfl⟩ | ⟨-, none⟩
  · exact ⟨rfl, rfl⟩
  · cases none

def waiter : List Move := [stops 1 (.prepare 5) 0, .resume 1 [], stops 1 (.wait 5) 0]

/-- A move of the event 5 to itself leaves task 1 blocked without an evec. -/
theorem self_move_loses_waiter :
    ∃ w, Reachable (system MovesApart) w ∧ 2 ∉ w.st.waiters ∧
      (∃ st', posthandleMove 2 5 5 w.st = .ok st' ∧ 1 ∈ st'.waiters ∧
        ∀ e, 1 ∉ waitersOf st'.evecs e) ∧
      ¬∃ st', posthandleMove 2 5 5 w.st = .ok st' ∧ Conserved 5 5 w.st st' := by
  have legal : Legal (system MovesApart) waiter (system MovesApart).start := by decide
  have seen : (run (system MovesApart) waiter (system MovesApart).start).map EvecRun.World.st =
      .ok { evecs := AList.insert 5 ⟨Tidset.empty.insert 1, ∅⟩ ∅
            waiters := Tidset.empty.insert 1, now := ⟨0, 0⟩, receivedTimeout := false
            timeouts := ∅, stores := [] } := rfl
  obtain ⟨w, ran⟩ := legal.runs
  rw [ran] at seen
  have state := Except.ok.inj seen
  have reached := legal.reachable Reachable.start ran
  refine ⟨w, reached, by rw [state]; decide, ?_, ?_⟩
  · refine ⟨{ w.st with evecs := ∅ }, by rw [state]; rfl, by rw [state]; decide, ?_⟩
    intro e
    exact Tidset.not_mem_empty 1
  · intro moves
    obtain ⟨st', moved, conserved⟩ := moves
    have movable := Conserved.movable moved conserved (by rw [state]; decide)
    rcases movable with ⟨none, -⟩ | ⟨-, apart, -⟩
    · rw [state] at none
      exact absurd none (by decide)
    · exact apart rfl

end Lotto.EvecMove
