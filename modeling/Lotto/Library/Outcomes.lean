import Mathlib.Data.List.Basic

namespace Library.Outcomes

variable {ε σ α β : Type}

abbrev Comp (ε σ α : Type) := ExceptT ε (StateM σ) α

/-- From a state with `pre` the computation ends with `post`, or in an error with `fail`. -/
def Triple (pre : σ → Prop) (m : Comp ε σ α) (post : α → σ → Prop) (fail : ε → σ → Prop) : Prop :=
  ∀ s, pre s → match m s with
    | (.ok a, s') => post a s'
    | (.error e, s') => fail e s'

variable {pre : σ → Prop} {post : α → σ → Prop} {fail : ε → σ → Prop}

def observe (m : Comp ε σ α) : Comp ε σ (Except ε α) := fun s => (.ok (m s).1, (m s).2)

def between (before after : σ → σ) (m : Comp ε σ α) : Comp ε σ α := fun s =>
  ((m (before s)).1, after (m (before s)).2)

def alter (f : σ → σ) : Comp ε σ Unit := fun s => (.ok (), f s)

theorem Triple.pure {a : α} (holds : ∀ s, pre s → post a s) :
    Triple pre (Pure.pure a : Comp ε σ α) post fail := holds

theorem Triple.throw {e : ε} (holds : ∀ s, pre s → fail e s) :
    Triple pre (MonadExcept.throw e : Comp ε σ α) post fail := holds

theorem Triple.get {post : σ → σ → Prop} (holds : ∀ s, pre s → post s s) :
    Triple pre (MonadState.get : Comp ε σ σ) post fail := holds

theorem Triple.alter {f : σ → σ} {post : Unit → σ → Prop} (holds : ∀ s, pre s → post () (f s)) :
    Triple pre (alter f : Comp ε σ Unit) post fail := holds

theorem Triple.bind {mid : α → σ → Prop} {post : β → σ → Prop} {m : Comp ε σ α}
    {f : α → Comp ε σ β} (first : Triple pre m mid fail)
    (rest : ∀ a, Triple (mid a) (f a) post fail) : Triple pre (m >>= f) post fail := by
  intro s holds
  have one := first s holds
  have step : (m >>= f) s = ExceptT.bindCont f (m s).1 (m s).2 := rfl
  rw [step]
  cases ran : m s with
  | mk result s' =>
      rw [ran] at one
      cases result with
      | ok a => exact rest a s' one
      | error e => exact one

theorem Triple.mono {pre' : σ → Prop} {post' : α → σ → Prop} {fail' : ε → σ → Prop} {m : Comp ε σ α}
    (triple : Triple pre' m post' fail') (stronger : ∀ s, pre s → pre' s)
    (weaker : ∀ a s, post' a s → post a s) (tolerant : ∀ e s, fail' e s → fail e s) :
    Triple pre m post fail := by
  intro s holds
  have ran := triple s (stronger s holds)
  cases outcome : m s with
  | mk result s' =>
      rw [outcome] at ran
      cases result with
      | ok a => exact weaker a s' ran
      | error e => exact tolerant e s' ran

theorem Triple.observe {m : Comp ε σ α} {post' : Except ε α → σ → Prop}
    (triple : Triple pre m (fun a => post' (.ok a)) fun e => post' (.error e)) :
    Triple pre (observe m) post' fail := by
  intro s holds
  have ran := triple s holds
  change post' (m s).1 (m s).2
  cases outcome : m s with
  | mk result s' =>
      rw [outcome] at ran
      cases result <;> exact ran

theorem Triple.between {before after : σ → σ} {m : Comp ε σ α}
    (triple : Triple (fun s' => ∃ s, pre s ∧ s' = before s) m (fun a s => post a (after s))
      fun e s => fail e (after s)) : Triple pre (between before after m) post fail := by
  intro s holds
  have ran := triple (before s) ⟨s, holds, rfl⟩
  rw [Outcomes.between]
  cases outcome : m (before s) with
  | mk result s' =>
      rw [outcome] at ran
      cases result <;> exact ran

end Library.Outcomes
