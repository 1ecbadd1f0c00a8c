import Mathlib.Logic.Relation
import Mathlib.Data.List.Perm.Subperm

namespace Library.WaitGraph

open Relation

variable {α : Type}

/-- The graph in which every node has at most one successor. -/
def Edge (next : α → Option α) (a b : α) : Prop := next a = some b

def Acyclic (next : α → Option α) : Prop := ∀ a, ¬ TransGen (Edge next) a a

variable {next next' : α → Option α}

theorem Acyclic.mono (acyclic : Acyclic next) (fewer : ∀ a b, next' a = some b → next a = some b) :
    Acyclic next' :=
  fun a cycle => acyclic a (TransGen.mono fewer a a cycle)

theorem reaches_old {a : α} (others : ∀ x, x ≠ a → next' x = next x) {x : α}
    (path : ReflTransGen (Edge next') x a) : ReflTransGen (Edge next) x a := by
  induction path using ReflTransGen.head_induction_on with
  | refl => exact ReflTransGen.refl
  | @head x y step _ ih =>
      by_cases source : x = a
      · rw [source]
      · have old : Edge next x y := by
          rw [Edge, ← others x source]
          exact step
        exact ih.head old

theorem path_split {a b : α} (here : next' a = some b) (others : ∀ x, x ≠ a → next' x = next x)
    {x y : α} (path : TransGen (Edge next') x y) :
    TransGen (Edge next) x y ∨
      ReflTransGen (Edge next') x a ∧ ReflTransGen (Edge next') b y := by
  have last : ∀ {y z}, Edge next' y z → Edge next y z ∨ y = a ∧ z = b := by
    intro y z step
    by_cases source : y = a
    · rw [source, Edge, here] at step
      exact Or.inr ⟨source, (Option.some.inj step).symm⟩
    · rw [Edge, others y source] at step
      exact Or.inl step
  induction path with
  | single step =>
      rcases last step with old | ⟨rfl, rfl⟩
      · exact Or.inl (TransGen.single old)
      · exact Or.inr ⟨ReflTransGen.refl, ReflTransGen.refl⟩
  | @tail y z before step ih =>
      rcases ih with old | ⟨first, rest⟩
      · rcases last step with new | ⟨rfl, rfl⟩
        · exact Or.inl (old.tail new)
        · exact Or.inr ⟨before.to_reflTransGen, ReflTransGen.refl⟩
      · exact Or.inr ⟨first, rest.tail step⟩

theorem Acyclic.add {a b : α} (acyclic : Acyclic next) (here : next' a = some b)
    (others : ∀ x, x ≠ a → next' x = next x) (apart : ¬ ReflTransGen (Edge next) b a) :
    Acyclic next' := by
  intro x cycle
  rcases path_split here others cycle with old | ⟨first, rest⟩
  · exact acyclic x old
  · exact apart (reaches_old others (rest.trans first))

theorem reaches_iff {a target : α} (away : a ≠ target) :
    ReflTransGen (Edge next) a target ↔
      ∃ b, next a = some b ∧ ReflTransGen (Edge next) b target := by
  constructor
  · intro path
    rcases path.cases_head with same | ⟨b, step, rest⟩
    · exact absurd same away
    · exact ⟨b, step, rest⟩
  · rintro ⟨b, step, rest⟩
    exact rest.head step

inductive Steps (next : α → Option α) (target : α) : Nat → α → Prop where
  | here : Steps next target 0 target
  | step {n : Nat} {a b : α} (first : next a = some b) (rest : Steps next target n b) :
      Steps next target (n + 1) a

theorem reaches_steps {a target : α} :
    ReflTransGen (Edge next) a target ↔ ∃ n, Steps next target n a := by
  constructor
  · intro path
    induction path using ReflTransGen.head_induction_on with
    | refl => exact ⟨0, .here⟩
    | head first _ ih =>
        obtain ⟨n, rest⟩ := ih
        exact ⟨n + 1, .step first rest⟩
  · intro counted
    obtain ⟨n, steps⟩ := counted
    induction steps with
    | here => exact ReflTransGen.refl
    | step first _ ih => exact ih.head first

theorem Steps.unique {target : α} (root : next target = none) {n m : Nat} {a : α}
    (one : Steps next target n a) (two : Steps next target m a) : n = m := by
  induction one generalizing m with
  | here =>
      cases two with
      | here => rfl
      | step first _ =>
          rw [root] at first
          cases first
  | step first _ ih =>
      cases two with
      | here =>
          rw [root] at first
          cases first
      | step first' rest' =>
          rw [first] at first'
          obtain rfl := Option.some.inj first'
          rw [ih rest']

variable [DecidableEq α]

def walk (next : α → Option α) (target : α) : Nat → α → Option Bool
  | 0, _ => none
  | fuel + 1, a =>
      if a = target then some true
      else
        match next a with
        | none => some false
        | some b => walk next target fuel b

theorem walk_reaches {target : α} {fuel : Nat} {a : α} {answer : Bool}
    (ended : walk next target fuel a = some answer) :
    answer = true ↔ ReflTransGen (Edge next) a target := by
  induction fuel generalizing a with
  | zero => cases ended
  | succ fuel ih =>
      rw [walk] at ended
      by_cases here : a = target
      · subst here
        rw [if_pos rfl] at ended
        cases ended
        exact ⟨fun _ => ReflTransGen.refl, fun _ => rfl⟩
      · rw [if_neg here] at ended
        rw [reaches_iff here]
        cases step : next a with
        | none =>
            rw [step] at ended
            cases ended
            simp
        | some b =>
            rw [step] at ended
            simpa using ih ended

theorem walk_ends_from (acyclic : Acyclic next) {keys : List α}
    (inside : ∀ a b, next a = some b → a ∈ keys) (target : α) (fuel : Nat) (a : α)
    (seen : List α) (distinct : seen.Nodup) (known : seen ⊆ keys)
    (behind : ∀ x ∈ seen, TransGen (Edge next) x a) (enough : keys.length < fuel + seen.length) :
    ∃ answer, walk next target fuel a = some answer := by
  induction fuel generalizing a seen with
  | zero =>
      have bound : seen.length ≤ keys.length := (List.Nodup.subperm distinct known).length_le
      omega
  | succ fuel ih =>
      rw [walk]
      by_cases here : a = target
      · exact ⟨true, if_pos here⟩
      · rw [if_neg here]
        cases step : next a with
        | none => exact ⟨false, rfl⟩
        | some b =>
            apply ih b (a :: seen)
            · refine List.nodup_cons.mpr ⟨?_, distinct⟩
              intro again
              exact acyclic a (behind a again)
            · exact List.cons_subset.mpr ⟨inside a b step, known⟩
            · intro x member
              rcases List.mem_cons.mp member with rfl | earlier
              · exact TransGen.single step
              · exact (behind x earlier).tail step
            · rw [List.length_cons]
              omega

theorem walk_ends (acyclic : Acyclic next) {keys : List α}
    (inside : ∀ a b, next a = some b → a ∈ keys) (target a : α) :
    ∃ answer, walk next target (keys.length + 1) a = some answer := by
  apply walk_ends_from acyclic inside target _ a []
  · exact List.nodup_nil
  · exact List.nil_subset _
  · exact fun x member => absurd member List.not_mem_nil
  · simp

end Library.WaitGraph
