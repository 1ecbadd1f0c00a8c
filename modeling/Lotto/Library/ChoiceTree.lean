import Mathlib.Data.List.Basic
import Mathlib.Data.List.MinMax
import Mathlib.Order.Nat

namespace Library.ChoiceTree

variable {τ ε : Type}

inductive Tree (τ ε : Type) where
  | exit (code : ε)
  | choose (tasks : List τ) (ready : tasks ≠ []) (next : τ → Tree τ ε)

def Tree.height : Tree τ ε → Nat
  | .exit _ => 0
  | .choose tasks _ next => (tasks.map fun task => (next task).height).foldr max 0 + 1

inductive Leads : Tree τ ε → List τ → Tree τ ε → Prop where
  | here (p : Tree τ ε) : Leads p [] p
  | choose {tasks : List τ} {ready : tasks ≠ []} {next : τ → Tree τ ε} {task : τ} {path : List τ}
      {p : Tree τ ε} (member : task ∈ tasks) (rest : Leads (next task) path p) :
      Leads (.choose tasks ready next) (task :: path) p

def Deviates (path schedule : List τ) (n : Nat) : Prop :=
  ∃ front a b rest rest', path = front ++ a :: rest ∧ schedule = front ++ b :: rest' ∧ a ≠ b ∧
    front.length + 1 = n

section Paths

variable {p q m : Tree τ ε} {tasks : List τ} {ready : tasks ≠ []} {next : τ → Tree τ ε} {task : τ}
  {path more : List τ}

theorem leads_append : Leads p (path ++ more) q ↔ ∃ m, Leads p path m ∧ Leads m more q := by
  refine ⟨?_, ?_⟩
  · intro leads
    induction path generalizing p with
    | nil => exact ⟨p, .here p, leads⟩
    | cons task path ih =>
        cases leads with
        | choose member rest =>
            obtain ⟨m, first, second⟩ := ih rest
            exact ⟨m, .choose member first, second⟩
  · rintro ⟨m, first, second⟩
    induction first with
    | here => exact second
    | choose member _ ih => exact .choose member (ih second)

theorem leads_snoc (leads : Leads p path (.choose tasks ready next)) (member : task ∈ tasks) :
    Leads p (path ++ [task]) (next task) :=
  leads_append.mpr ⟨_, leads, .choose member (.here _)⟩

theorem leads_unique (first : Leads p path q) (second : Leads p path m) : q = m := by
  induction first with
  | here =>
      cases second
      rfl
  | choose _ _ ih =>
      cases second with
      | choose _ rest => exact ih rest

theorem height_next (ready : tasks ≠ []) (next : τ → Tree τ ε) (member : task ∈ tasks) :
    (next task).height + 1 ≤ (Tree.choose tasks ready next).height := by
  rw [Tree.height]
  apply Nat.succ_le_succ
  apply List.le_max_of_le (a := (next task).height) _ (Nat.le_refl _)
  exact List.mem_map.mpr ⟨task, member, rfl⟩

theorem leads_length (leads : Leads p path q) : path.length + q.height ≤ p.height := by
  induction leads with
  | here => simp
  | @choose _ ready next _ _ _ member _ ih =>
      have step := height_next ready next member
      rw [List.length_cons]
      omega

end Paths

section Deviations

variable {path schedule front more : List τ} {n : Nat}

theorem not_deviates_nil : ¬ Deviates [] schedule n := by
  rintro ⟨front, _, _, _, _, empty, _⟩
  exact absurd empty.symm (by simp)

theorem deviates_cons {a b : τ} (differ : a ≠ b) : Deviates (a :: path) (b :: schedule) 1 :=
  ⟨[], a, b, path, schedule, rfl, rfl, differ, rfl⟩

theorem deviates_append (deviates : Deviates path schedule n) (front : List τ) :
    Deviates (front ++ path) (front ++ schedule) (front.length + n) := by
  obtain ⟨pre, a, b, rest, rest', rfl, rfl, differ, rfl⟩ := deviates
  refine ⟨front ++ pre, a, b, rest, rest', ?_, ?_, differ, ?_⟩
  · rw [List.append_assoc]
  · rw [List.append_assoc]
  · rw [List.length_append, Nat.add_assoc]

theorem deviates_front (deviates : Deviates (front ++ more) schedule n) (late : front.length < n) :
    ∃ rest, schedule = front ++ rest := by
  obtain ⟨pre, a, b, rest, rest', split, rfl, _, rfl⟩ := deviates
  have shorter : front.length ≤ pre.length := Nat.lt_succ_iff.mp late
  obtain ⟨middle, rfl⟩ : front <+: pre := by
    have within : pre <+: front ++ more := ⟨a :: rest, split.symm⟩
    exact List.prefix_of_prefix_length_le ⟨more, rfl⟩ within shorter
  exact ⟨middle ++ b :: rest', List.append_assoc _ _ _⟩

theorem deviates_snoc {task : τ} : Deviates (path ++ [task]) schedule n ↔
    (∃ other rest, schedule = path ++ other :: rest ∧ task ≠ other ∧ path.length + 1 = n) ∨
      Deviates path schedule n := by
  refine ⟨?_, ?_⟩
  · rintro ⟨pre, a, b, rest, rest', split, rfl, differ, rfl⟩
    cases rest using List.reverseRecOn with
    | nil =>
        obtain ⟨rfl, last⟩ := List.append_inj' split rfl
        cases last
        exact Or.inl ⟨b, rest', rfl, differ, rfl⟩
    | append_singleton rest last =>
        rw [← List.cons_append, ← List.append_assoc] at split
        obtain ⟨rfl, _⟩ := List.append_inj' split rfl
        exact Or.inr ⟨pre, a, b, rest, rest', rfl, rfl, differ, rfl⟩
  · rintro (⟨other, rest, rfl, differ, rfl⟩ | ⟨pre, a, b, rest, rest', rfl, rfl, differ, rfl⟩)
    · exact ⟨path, task, other, [], rest, rfl, rfl, differ, rfl⟩
    · exact ⟨pre, a, b, rest ++ [task], rest', by simp, rfl, differ, rfl⟩

end Deviations

section Search

variable (good : ε → Prop) {root p q : Tree τ ε} {tasks : List τ} {ready : tasks ≠ []}
  {next : τ → Tree τ ε} {task : τ} {path front more : List τ} {code : ε} {least : Nat}

def Hits (p : Tree τ ε) : Prop :=
  ∃ schedule code, Leads p schedule (.exit code) ∧ good code

/-- Some schedule that first deviates from a path in its choice `least` or later ends well. -/
def Found (root : Tree τ ε) (path : List τ) (least : Nat) : Prop :=
  ∃ schedule code n, Leads root schedule (.exit code) ∧ Deviates path schedule n ∧ least ≤ n ∧
    good code

variable {good}

theorem not_found_nil : ¬ Found good root [] least := by
  rintro ⟨_, _, _, _, deviates, _⟩
  exact not_deviates_nil deviates

theorem found_late (found : Found good root path least) : least ≤ path.length := by
  obtain ⟨_, _, _, _, ⟨pre, a, b, rest, rest', rfl, _, _, rfl⟩, late, _⟩ := found
  simp only [List.length_append, List.length_cons]
  omega

variable (good)

theorem found_snoc (least : Nat) (task : τ) (leads : Leads root path (.choose tasks ready next)) :
    Found good root (path ++ [task]) least ↔
      (least ≤ path.length + 1 ∧ ∃ other ∈ tasks, other ≠ task ∧ Hits good (next other)) ∨
        Found good root path least := by
  refine ⟨?_, ?_⟩
  · rintro ⟨schedule, code, n, ends, deviates, late, well⟩
    rcases deviates_snoc.mp deviates with ⟨other, rest, rfl, differ, rfl⟩ | before
    · obtain ⟨m, first, second⟩ := leads_append.mp ends
      obtain rfl := leads_unique leads first
      cases second with
      | choose member rest => exact Or.inl ⟨late, other, member, Ne.symm differ, _, code, rest, well⟩
    · exact Or.inr ⟨schedule, code, n, ends, before, late, well⟩
  · rintro (⟨late, other, member, differ, rest, code, ends, well⟩ |
      ⟨schedule, code, n, ends, deviates, late, well⟩)
    · refine ⟨path ++ other :: rest, code, path.length + 1, ?_, ?_, late, well⟩
      · exact leads_append.mpr ⟨_, leads, .choose member ends⟩
      · exact deviates_snoc.mpr (Or.inl ⟨other, rest, rfl, Ne.symm differ, rfl⟩)
    · exact ⟨schedule, code, n, ends, deviates_snoc.mpr (Or.inr deviates), late, well⟩

theorem schedules_deviate {schedule : List τ} {code' : ε} (first : Leads p path (.exit code))
    (second : Leads p schedule (.exit code')) :
    (path = schedule ∧ code = code') ∨ ∃ n, Deviates path schedule n := by
  induction path generalizing p schedule with
  | nil =>
      cases first
      cases second
      exact Or.inl ⟨rfl, rfl⟩
  | cons task path ih =>
      cases first with
      | choose member rest =>
          cases second with
          | @choose _ _ _ other _ _ member' rest' =>
              by_cases same : task = other
              · subst same
                rcases ih rest rest' with ⟨rfl, rfl⟩ | ⟨n, deviates⟩
                · exact Or.inl ⟨rfl, rfl⟩
                · exact Or.inr ⟨_, deviates_append deviates [task]⟩
              · exact Or.inr ⟨1, deviates_cons same⟩

theorem hits_iff (leads : Leads root front q) (ends : Leads q more (.exit code)) :
    Hits good q ↔ good code ∨ Found good root (front ++ more) (front.length + 1) := by
  refine ⟨?_, ?_⟩
  · rintro ⟨schedule, code', ends', well⟩
    rcases schedules_deviate ends ends' with ⟨rfl, rfl⟩ | ⟨n, deviates⟩
    · exact Or.inl well
    · obtain ⟨_, _, _, _, _, _, _, _, positive⟩ := id deviates
      refine Or.inr ⟨front ++ schedule, code', front.length + n, ?_, deviates_append deviates front, ?_,
        well⟩
      · exact leads_append.mpr ⟨q, leads, ends'⟩
      · omega
  · rintro (well | ⟨schedule, code', n, ends', deviates, late, well⟩)
    · exact ⟨more, code, ends, well⟩
    · obtain ⟨rest, rfl⟩ := deviates_front deviates late
      obtain ⟨m, first, second⟩ := leads_append.mp ends'
      obtain rfl := leads_unique leads first
      exact ⟨rest, code', second, well⟩

end Search

end Library.ChoiceTree
