import Lotto.Base
import Lotto.Library.Repeats

namespace Lotto.Busyabort

open Library.Repeats

section Handler

/-- `busyabort_config_t`, with the result of `is_memaccess` for the event types. -/
structure BusyabortConfig where
  enabled : Bool
  threshold : UInt64
  isMemaccess : TypeId → Bool

structure Access where
  tid : TaskId
  typeId : TypeId
  pc : UInt64
  deriving DecidableEq, Repr

structure BusyState where
  last : Access
  repeatCount : UInt64
  deriving DecidableEq, Repr

def busyStart : BusyState := ⟨⟨0, 0, 0⟩, 0⟩

def access (cp : CapturePoint) : Access := ⟨cp.id, cp.typeId, cp.pc⟩

def countAccess (a : Access) (st : BusyState) : BusyState :=
  if st.last = a then { st with repeatCount := st.repeatCount + 1 } else ⟨a, 1⟩

def busyabortHandle (config : BusyabortConfig) (cp : CapturePoint) (st : BusyState) :
    Option BusyState :=
  if !config.enabled then some st
  else if !config.isMemaccess cp.typeId then some st
  else if config.threshold = 0 then some st
  else
    let st := countAccess (access cp) st
    if st.repeatCount < config.threshold then some st else none

def busyabortRun (config : BusyabortConfig) : List CapturePoint → BusyState → Option BusyState
  | [], st => some st
  | cp :: captures, st => (busyabortHandle config cp st).bind (busyabortRun config captures)

def accesses (config : BusyabortConfig) (captures : List CapturePoint) : List Access :=
  (captures.filter fun cp => config.isMemaccess cp.typeId).map access

end Handler

variable {config : BusyabortConfig} {st : BusyState} {log : List Access} {a : Access}
  {cp : CapturePoint}

structure Counts (config : BusyabortConfig) (st : BusyState) (log : List Access) : Prop where
  streak : Streak st.last st.repeatCount.toNat log
  newest : ∀ a, log.head? = some a → a = st.last
  below : st.repeatCount.toNat < config.threshold.toNat
  calm : ∀ a, ¬List.replicate config.threshold.toNat a <:+: log

theorem counts_start (some : config.threshold ≠ 0) : Counts config busyStart [] := by
  have positive : 0 < config.threshold.toNat := by
    apply Nat.pos_of_ne_zero
    exact fun zero => some (UInt64.toNat_inj.mp zero)
  refine ⟨Streak.none _, by simp, positive, ?_⟩
  intro a found
  rw [List.infix_nil, List.replicate_eq_nil_iff] at found
  omega

theorem countAccess_streak (counts : Counts config st log) (a : Access) :
    Streak a (countAccess a st).repeatCount.toNat (a :: log) ∧ (countAccess a st).last = a ∧
      0 < (countAccess a st).repeatCount.toNat := by
  have below := counts.below
  have limit := config.threshold.toNat_lt
  rw [countAccess]
  split
  next same =>
    have more : (st.repeatCount + 1).toNat = st.repeatCount.toNat + 1 := by
      rw [UInt64.toNat_add]
      change (st.repeatCount.toNat + 1) % 2 ^ 64 = _
      omega
    refine ⟨?_, same, ?_⟩
    · change Streak a (st.repeatCount + 1).toNat (a :: log)
      rw [more, ← same]
      exact counts.streak.more
    · change 0 < (st.repeatCount + 1).toNat
      omega
  next differs =>
    refine ⟨Streak.first ?_, rfl, Nat.one_pos⟩
    intro head
    exact differs (counts.newest a head).symm

theorem busyabortHandle_step (enabled : config.enabled = true) (some' : config.threshold ≠ 0)
    (here : config.isMemaccess cp.typeId = true) (counts : Counts config st log) :
    (∃ st', busyabortHandle config cp st = some st' ∧ Counts config st' (access cp :: log)) ∨
      busyabortHandle config cp st = none ∧
        List.replicate config.threshold.toNat (access cp) <:+: access cp :: log := by
  obtain ⟨streak, last, -⟩ := countAccess_streak counts (access cp)
  have asked : busyabortHandle config cp st =
      if (countAccess (access cp) st).repeatCount < config.threshold then
        some (countAccess (access cp) st) else none := by
    simp [busyabortHandle, enabled, here, some']
  by_cases below : (countAccess (access cp) st).repeatCount < config.threshold
  · refine .inl ⟨_, asked.trans (if_pos below), ?_⟩
    rw [UInt64.lt_iff_toNat_lt] at below
    refine ⟨?_, ?_, below, ?_⟩
    · rw [last]
      exact streak
    · rw [last]
      exact fun a head => (Option.some.inj head).symm
    · intro a
      by_cases same : a = access cp
      · rw [same]
        exact streak.keeps below (counts.calm _)
      · exact (Streak.broken same log).keeps (by omega) (counts.calm a)
  · refine .inr ⟨asked.trans (if_neg below), ?_⟩
    rw [UInt64.lt_iff_toNat_lt] at below
    exact (streak.front_iff.mpr (Nat.le_of_not_lt below)).isInfix

theorem busyabortRun_none_iff (enabled : config.enabled = true) (some' : config.threshold ≠ 0)
    (captures : List CapturePoint) (counts : Counts config st log) :
    busyabortRun config captures st = none ↔
      ∃ a, List.replicate config.threshold.toNat a <:+: (accesses config captures).reverse ++ log := by
  induction captures generalizing st log with
  | nil =>
      rw [busyabortRun]
      simpa [accesses] using counts.calm
  | cons cp captures ih =>
      cases here : config.isMemaccess cp.typeId with
      | false =>
          have ignored : busyabortHandle config cp st = some st := by
            simp [busyabortHandle, here]
          rw [busyabortRun, ignored, Option.bind_some, ih counts]
          simp [accesses, here]
      | true =>
          have text : (accesses config (cp :: captures)).reverse ++ log =
              (accesses config captures).reverse ++ access cp :: log := by
            simp [accesses, here]
          rw [busyabortRun, text]
          rcases busyabortHandle_step enabled some' here counts with
            ⟨st', asked, counts'⟩ | ⟨aborted, found⟩
          · rw [asked, Option.bind_some, ih counts']
          · rw [aborted, Option.bind_none]
            exact ⟨fun _ => ⟨_, found.trans (List.suffix_append _ _).isInfix⟩, fun _ => rfl⟩

/-- The program is aborted exactly if it makes the same access as often in a row as the threshold
says, whatever else the tasks do in between that is no access. -/
theorem busyabort_aborts_iff (config : BusyabortConfig) (captures : List CapturePoint) :
    busyabortRun config captures busyStart = none ↔ config.enabled = true ∧ config.threshold ≠ 0 ∧
      ∃ a, List.replicate config.threshold.toNat a <:+: accesses config captures := by
  by_cases works : config.enabled = true ∧ config.threshold ≠ 0
  · rw [busyabortRun_none_iff works.1 works.2 captures (counts_start works.2), List.append_nil]
    constructor
    · rintro ⟨a, found⟩
      refine ⟨works.1, works.2, a, ?_⟩
      rwa [← List.reverse_infix, List.reverse_replicate]
    · rintro ⟨-, -, a, found⟩
      refine ⟨a, ?_⟩
      rwa [← List.reverse_infix, List.reverse_replicate, List.reverse_reverse]
  · have idle : ∀ cp st, busyabortHandle config cp st = some st := by
      intro cp st
      rw [not_and_or, Bool.not_eq_true, not_not] at works
      rcases works with off | zero
      · simp [busyabortHandle, off]
      · simp [busyabortHandle, zero]
    have runs : ∀ st, busyabortRun config captures st = some st := by
      intro st
      induction captures with
      | nil => rfl
      | cons cp captures ih => rw [busyabortRun, idle, Option.bind_some, ih]
    rw [runs]
    constructor
    · exact fun impossible => absurd impossible (by simp)
    · exact fun aborts => absurd ⟨aborts.1, aborts.2.1⟩ works

end Lotto.Busyabort
