import Mathlib.Logic.Relation
import Lotto.MutexRun

namespace Lotto.MutexDeadlock

open Library.FaultRun Library.GuardedRun MutexRun

def WaitsFor (st : MutexState) (task owner : TaskId) : Prop :=
  ∃ addr, task ∈ (mtxAt st addr).waiters ∧ (mtxAt st addr).owner = owner ∧ owner ≠ noTask

/-- A blocking acquire of a mutex whose owner waits, directly or through others, for the
acquiring task. -/
def ClosesCycle (st : MutexState) (id : TaskId) (addr : UInt64) : Prop :=
  (mtxAt st addr).owner ≠ noTask ∧ (mtxAt st addr).owner ≠ id ∧
    Relation.ReflTransGen (WaitsFor st) (mtxAt st addr).owner id

/-- The capture reports a deadlock exactly if there is one, and the search for it ends. -/
def Detects (config : MutexConfig) (cp : CapturePoint) (e : Decision) (st : MutexState) : Prop :=
  ∃ e' st', mutexHandle config cp e st = .ok (e', st') ∧
    (e'.reason = .rsrcDeadlock ↔ ClosesCycle st cp.id cp.payloadAddr)

/-- A blocking acquire of a mutex the task does not own, under the deadlock check. -/
structure BlockingAcquire (config : MutexConfig) (w : World) (cp : CapturePoint) (e : Decision) :
    Prop where
  captures : Captures w cp e
  acquire : cp.typeId = eventMutexAcquire
  other : (mtxAt w.st cp.payloadAddr).owner ≠ cp.id
  enabled : config.deadlockCheck = true
  unflagged : e.reason ≠ .rsrcDeadlock

/-- The search ends without a failed check but never finds anything, so a blocking acquire is
judged rightly exactly if it closes no cycle. -/
theorem detects_iff_no_cycle (config : MutexConfig) (w : World)
    (reached : Reachable (system config) w) (cp : CapturePoint) (e : Decision)
    (acquires : BlockingAcquire config w cp e) :
    (∃ e' st', mutexHandle config cp e w.st = .ok (e', st')) ∧
    (Detects config cp e w.st ↔ ¬ ClosesCycle w.st cp.id cp.payloadAddr) := by
  have inv := (exclusive_kept config).reachable reached
  obtain ⟨e', st', handled, reason, _⟩ := mutexHandle_ok config inv acquires.captures
  refine ⟨⟨e', st', handled⟩, ?_⟩
  have silent : e'.reason ≠ .rsrcDeadlock := by
    rw [reason]
    exact acquires.unflagged
  constructor
  · rintro ⟨e'', st'', again, detects⟩ cycle
    rw [handled] at again
    cases again
    exact silent (detects.mpr cycle)
  · intro none
    exact ⟨e', st', handled, iff_of_false silent none⟩

def pause (id : TaskId) : CapturePoint := plainPoint id 0 0

def crossing : List Move :=
  [captureOf (pause 2),
    captureOf (plainPoint 1 eventMutexAcquire 16), .resume (plainPoint 1 eventMutexAcquire 16),
    captureOf (pause 1), .resume (pause 2),
    captureOf (plainPoint 2 eventMutexAcquire 32), .resume (plainPoint 2 eventMutexAcquire 32),
    captureOf (pause 2), .resume (pause 1),
    captureOf (plainPoint 1 eventMutexAcquire 32), .resume (pause 2)]

def lastDecision : Decision :=
  { prepareDecision 7 .empty { status := .done, id := noTask } with tset := bothTasks }

theorem crossing_legal :
    Legal (system ⟨true, true⟩) crossing (system ⟨true, true⟩).start := by decide

/-- After `crossing`, task 2 closes the cycle 2, 16, 1, 32, 2 and the handler reports nothing. -/
theorem cycle_not_detected : ∃ w, Reachable (system ⟨true, true⟩) w ∧
    Captures w (plainPoint 2 eventMutexAcquire 16) lastDecision ∧
    ClosesCycle w.st 2 16 ∧
    (mutexHandle ⟨true, true⟩ (plainPoint 2 eventMutexAcquire 16) lastDecision w.st).map
      (fun result => result.1.reason) = .ok .unknown ∧
    ¬ Detects ⟨true, true⟩ (plainPoint 2 eventMutexAcquire 16) lastDecision w.st := by
  have seen : (run (system ⟨true, true⟩) crossing (system ⟨true, true⟩).start).map (fun w =>
      ((mtxAt w.st 16).owner, (mtxAt w.st 32).owner, (mtxAt w.st 32).waiters.has 1,
        decide (Captures w (plainPoint 2 eventMutexAcquire 16) lastDecision),
        (mutexHandle ⟨true, true⟩ (plainPoint 2 eventMutexAcquire 16) lastDecision w.st).map
          (fun result => result.1.reason))) =
      .ok (1, 2, true, true, .ok .unknown) := by decide
  obtain ⟨w, ran⟩ := crossing_legal.runs
  rw [ran] at seen
  simp only [Except.map, Except.ok.injEq, Prod.mk.injEq, decide_eq_true_eq, Tidset.has_eq_true] at seen
  obtain ⟨first, second, waits, captures, silent⟩ := seen
  have cycle : ClosesCycle w.st 2 16 := by
    refine ⟨by rw [first]; decide, by rw [first]; decide, ?_⟩
    rw [first]
    exact Relation.ReflTransGen.single ⟨32, waits, second, by decide⟩
  refine ⟨w, crossing_legal.reachable Reachable.start ran, captures, cycle, silent, ?_⟩
  rintro ⟨e', st', handled, detects⟩
  rw [handled] at silent
  have unknown : e'.reason = .unknown := Except.ok.inj silent
  rw [detects.mpr cycle] at unknown
  cases unknown

theorem detects_without_cycle : ∃ w, Reachable (system ⟨true, true⟩) w ∧
    (mtxAt w.st 16).owner = 1 ∧
    Detects ⟨true, true⟩ (plainPoint 2 eventMutexAcquire 16) lastDecision w.st := by
  have legal : Legal (system ⟨true, true⟩) [captureOf (plainPoint 1 eventMutexAcquire 16),
      .resume (plainPoint 1 eventMutexAcquire 16)] (system ⟨true, true⟩).start := by decide
  have seen : (run (system ⟨true, true⟩) [captureOf (plainPoint 1 eventMutexAcquire 16),
      .resume (plainPoint 1 eventMutexAcquire 16)] (system ⟨true, true⟩).start).map (fun w =>
      ((mtxAt w.st 16).owner, w.pending,
        decide (Captures w (plainPoint 2 eventMutexAcquire 16) lastDecision))) =
      .ok (1, [], true) := by decide
  obtain ⟨w, ran⟩ := legal.runs
  rw [ran] at seen
  simp only [Except.map, Except.ok.injEq, Prod.mk.injEq, decide_eq_true_eq] at seen
  obtain ⟨owner, nobody, captures⟩ := seen
  have reached := legal.reachable Reachable.start ran
  have inv := (exclusive_kept ⟨true, true⟩).reachable reached
  have acquires : BlockingAcquire ⟨true, true⟩ w (plainPoint 2 eventMutexAcquire 16) lastDecision :=
    ⟨captures, rfl, by show (mtxAt w.st 16).owner ≠ 2; rw [owner]; decide, rfl, by decide⟩
  refine ⟨w, reached, owner, (detects_iff_no_cycle _ w reached _ _ acquires).2.mpr ?_⟩
  rintro ⟨_, _, path⟩
  change Relation.ReflTransGen (WaitsFor w.st) (mtxAt w.st 16).owner 2 at path
  rw [owner] at path
  cases path.cases_head with
  | inl same => exact absurd same (by decide)
  | inr step =>
      obtain ⟨_, ⟨addr, waits, _⟩, _⟩ := step
      obtain ⟨_, p, inside, _⟩ := inv.waits addr 1 waits
      rw [nobody] at inside
      cases inside

end Lotto.MutexDeadlock
