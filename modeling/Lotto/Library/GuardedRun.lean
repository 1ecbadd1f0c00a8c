import Lotto.Library.FaultRun

namespace Library.GuardedRun

variable {σ ι ε : Type}

structure Guarded (σ ι ε : Type) where
  start : σ
  step : ι → σ → Except ε σ
  allowed : σ → ι → Prop

inductive Reachable (sys : Guarded σ ι ε) : σ → Prop where
  | start : Reachable sys sys.start
  | step {s s' : σ} {i : ι} (before : Reachable sys s) (allowed : sys.allowed s i)
      (stepped : sys.step i s = .ok s') : Reachable sys s'

theorem Reachable.keeps {sys : Guarded σ ι ε} {inv : σ → Prop} (first : inv sys.start)
    (stays : ∀ s i s', inv s → sys.allowed s i → sys.step i s = .ok s' → inv s') {s : σ}
    (reached : Reachable sys s) : inv s := by
  induction reached with
  | start => exact first
  | step _ allowed stepped ih => exact stays _ _ _ ih allowed stepped

structure Kept (sys : Guarded σ ι ε) (inv : σ → Prop) : Prop where
  start : inv sys.start
  step : ∀ s i, inv s → sys.allowed s i → ∃ s', sys.step i s = .ok s' ∧ inv s'

variable {sys : Guarded σ ι ε} {inv : σ → Prop}

theorem Kept.reachable (kept : Kept sys inv) {s : σ} (reached : Reachable sys s) : inv s := by
  induction reached with
  | start => exact kept.start
  | @step s s' i _ allowed stepped ih =>
      obtain ⟨next, same, holds⟩ := kept.step s i ih allowed
      rw [stepped] at same
      cases same
      exact holds

theorem Kept.steps (kept : Kept sys inv) {s : σ} (reached : Reachable sys s) {i : ι}
    (allowed : sys.allowed s i) : ∃ s', sys.step i s = .ok s' := by
  obtain ⟨s', stepped, _⟩ := kept.step s i (kept.reachable reached) allowed
  exact ⟨s', stepped⟩

def Legal (sys : Guarded σ ι ε) : List ι → σ → Prop
  | [], _ => True
  | i :: is, s => sys.allowed s i ∧
      match sys.step i s with
      | .ok s' => Legal sys is s'
      | .error _ => False

instance Legal.decidable (sys : Guarded σ ι ε) [∀ s i, Decidable (sys.allowed s i)] :
    ∀ is s, Decidable (Legal sys is s)
  | [], _ => isTrue trivial
  | i :: is, s =>
      haveI : Decidable (match sys.step i s with
          | .ok s' => Legal sys is s'
          | .error _ => False) :=
        match sys.step i s with
        | .ok s' => Legal.decidable sys is s'
        | .error _ => isFalse id
      inferInstanceAs (Decidable (_ ∧ _))

def run (sys : Guarded σ ι ε) (is : List ι) (s : σ) : Except ε σ :=
  is.foldlM (fun s i => sys.step i s) s

theorem Legal.runs {is : List ι} {s : σ} (legal : Legal sys is s) : ∃ s', run sys is s = .ok s' := by
  induction is generalizing s with
  | nil => exact ⟨s, rfl⟩
  | cons i is ih =>
      obtain ⟨_, rest⟩ := legal
      rw [run, List.foldlM_cons]
      cases stepped : sys.step i s with
      | error e => simp [stepped] at rest
      | ok next =>
          rw [stepped] at rest
          exact ih rest

theorem Legal.reachable {is : List ι} {s s' : σ} (legal : Legal sys is s)
    (before : Reachable sys s) (ran : run sys is s = .ok s') : Reachable sys s' := by
  induction is generalizing s with
  | nil =>
      cases ran
      exact before
  | cons i is ih =>
      obtain ⟨allowed, rest⟩ := legal
      rw [run, List.foldlM_cons] at ran
      obtain ⟨next, stepped, ran⟩ := FaultRun.bind_eq_ok.mp ran
      rw [stepped] at rest
      exact ih rest (before.step allowed stepped) ran

end Library.GuardedRun
