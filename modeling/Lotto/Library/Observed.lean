import Mathlib.Data.List.Basic

namespace Library.Observed

variable {σ ω : Type} {step : σ → List ω → σ → Prop} {R : σ → σ → Prop}

inductive Run (step : σ → List ω → σ → Prop) : σ → List ω → σ → Prop where
  | stop (s : σ) : Run step s [] s
  | step {s mid s' : σ} {seen more : List ω} (first : step s seen mid) (rest : Run step mid more s') :
      Run step s (seen ++ more) s'

theorem Run.one {s s' : σ} {seen : List ω} (first : step s seen s') : Run step s seen s' := by
  have run := Run.step first (Run.stop s')
  rwa [List.append_nil] at run

theorem Run.trans {s mid s' : σ} {seen more : List ω} (first : Run step s seen mid)
    (second : Run step mid more s') : Run step s (seen ++ more) s' := by
  induction first with
  | stop => exact second
  | step head _ ih =>
      rw [List.append_assoc]
      exact Run.step head (ih second)

def Simulates (step : σ → List ω → σ → Prop) (R : σ → σ → Prop) : Prop :=
  ∀ a b seen a', R a b → step a seen a' → ∃ b', Run step b seen b' ∧ R a' b'

theorem Simulates.run (simulates : Simulates step R) {a b a' : σ} {seen : List ω} (related : R a b)
    (run : Run step a seen a') : ∃ b', Run step b seen b' ∧ R a' b' := by
  induction run generalizing b with
  | stop => exact ⟨b, Run.stop b, related⟩
  | step head _ ih =>
      obtain ⟨mid, first, related⟩ := simulates _ b _ _ related head
      obtain ⟨b', rest, related⟩ := ih related
      exact ⟨b', first.trans rest, related⟩

def Shows (step : σ → List ω → σ → Prop) (s : σ) (seen : List ω) : Prop :=
  ∃ s', Run step s seen s'

theorem Simulates.shows_iff (simulates : Simulates step R) (symmetric : ∀ a b, R a b → R b a)
    {a b : σ} (related : R a b) (seen : List ω) : Shows step a seen ↔ Shows step b seen := by
  refine ⟨?_, ?_⟩
  · rintro ⟨a', run⟩
    obtain ⟨b', run', _⟩ := simulates.run related run
    exact ⟨b', run'⟩
  · rintro ⟨b', run⟩
    obtain ⟨a', run', _⟩ := simulates.run (symmetric a b related) run
    exact ⟨a', run'⟩

end Library.Observed
