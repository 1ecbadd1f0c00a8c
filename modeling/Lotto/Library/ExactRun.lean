import Lotto.Library.FaultRun

namespace Library.ExactRun

variable {σ ι ε : Type} {step : ι → σ → Except ε σ} {good : Except ε σ → Prop}
  {world allowed : σ → ι → Prop} {inv : σ → Prop}

/-- A property of the start of a run and of what each of its steps ends with. -/
def HoldsAlong (step : ι → σ → Except ε σ) (good : Except ε σ → Prop) : List ι → σ → Prop
  | [], s => good (.ok s)
  | i :: is, s => good (.ok s) ∧ good (step i s) ∧ ∀ s', step i s = .ok s' → HoldsAlong step good is s'

/-- Each step of a run is allowed in the state it starts from. -/
def AllowedAlong (step : ι → σ → Except ε σ) (allowed : σ → ι → Prop) : List ι → σ → Prop
  | [], _ => True
  | i :: is, s => allowed s i ∧ ∀ s', step i s = .ok s' → AllowedAlong step allowed is s'

theorem allowedAlong_true (step : ι → σ → Except ε σ) (is : List ι) (s : σ) :
    AllowedAlong step (fun _ _ => True) is s := by
  induction is generalizing s with
  | nil => trivial
  | cons i is ih => exact ⟨trivial, fun s' _ => ih s'⟩

/-- An invariant that allowed steps keep, and that implies the property, which no other step keeps.
Both are asked for the steps that the world around the system takes. -/
structure Exact (step : ι → σ → Except ε σ) (good : Except ε σ → Prop)
    (world allowed : σ → ι → Prop) (inv : σ → Prop) : Prop where
  holds : ∀ s, inv s → good (.ok s)
  keeps : ∀ s i, inv s → world s i → allowed s i →
    good (step i s) ∧ ∀ s', step i s = .ok s' → inv s'
  loses : ∀ s i, inv s → world s i → ¬allowed s i → ¬good (step i s)

theorem Exact.holdsAlong_iff (exact : Exact step good world allowed inv) (is : List ι) {s : σ}
    (holds : inv s) (lawful : AllowedAlong step world is s) :
    HoldsAlong step good is s ↔ AllowedAlong step allowed is s := by
  induction is generalizing s with
  | nil => exact iff_of_true (exact.holds s holds) trivial
  | cons i is ih =>
      obtain ⟨legal, lawful⟩ := lawful
      by_cases allow : allowed s i
      · obtain ⟨next, keeps⟩ := exact.keeps s i holds legal allow
        constructor
        · rintro ⟨-, -, later⟩
          exact ⟨allow, fun s' stepped =>
            (ih (keeps s' stepped) (lawful s' stepped)).mp (later s' stepped)⟩
        · rintro ⟨-, later⟩
          exact ⟨exact.holds s holds, next, fun s' stepped =>
            (ih (keeps s' stepped) (lawful s' stepped)).mpr (later s' stepped)⟩
      · exact iff_of_false (fun along => exact.loses s i holds legal allow along.2.1)
          fun along => allow along.1

end Library.ExactRun
