import Mathlib.Data.List.TakeWhile
import Mathlib.Tactic.Conv

namespace Library.Fields

variable {α : Type} [DecidableEq α] {sep c : α} {s rest : List α}

theorem not_mem_takeWhile_ne (sep : α) (s : List α) : sep ∉ s.takeWhile (· ≠ sep) := by
  intro member
  have differs := List.mem_takeWhile_imp member
  exact of_decide_eq_true differs rfl

theorem splitOn_last (missing : s.dropWhile (· ≠ sep) = []) :
    s.splitOn sep = [s.takeWhile (· ≠ sep)] := by
  have whole := List.takeWhile_append_dropWhile (p := (· ≠ sep)) (l := s)
  rw [missing, List.append_nil] at whole
  have alone := not_mem_takeWhile_ne sep s
  rw [whole] at alone ⊢
  exact List.splitOn_eq_singleton alone

theorem splitOn_next (found : s.dropWhile (· ≠ sep) = c :: rest) :
    s.splitOn sep = s.takeWhile (· ≠ sep) :: rest.splitOn sep := by
  have whole := List.takeWhile_append_dropWhile (p := (· ≠ sep)) (l := s)
  have first : c = sep := by
    have stops := List.head_dropWhile_not (p := (· ≠ sep)) (l := s)
      (by rw [found]; exact List.cons_ne_nil _ _)
    simp only [found, List.head_cons] at stops
    exact not_not.mp (of_decide_eq_false stops)
  rw [found, first] at whole
  conv_lhs => rw [← whole]
  rw [List.splitOn_append_cons_self_of_not_mem (not_mem_takeWhile_ne sep s)]

theorem length_rest_lt (found : s.dropWhile (· ≠ sep) = c :: rest) : rest.length < s.length := by
  have shorter := List.length_dropWhile_le (· ≠ sep) s
  rw [found, List.length_cons] at shorter
  omega

def tokens (sep : α) (s : List α) : List (List α) := (s.splitOn sep).filter fun field => field ≠ []

def Proper (sep : α) (fields : List (List α)) : Prop := ∀ field ∈ fields, field ≠ [] ∧ sep ∉ field

theorem tokens_proper : Proper sep (tokens sep s) := by
  have clean (s : List α) : ∀ field ∈ s.splitOn sep, sep ∉ field := by
    induction length : s.length using Nat.strong_induction_on generalizing s with
    | _ n ih =>
        cases found : s.dropWhile (· ≠ sep) with
        | nil =>
            rw [splitOn_last found]
            intro field member
            rw [List.mem_singleton.mp member]
            exact not_mem_takeWhile_ne sep s
        | cons c rest =>
            rw [splitOn_next found]
            intro field member
            obtain rfl | later := List.mem_cons.mp member
            · exact not_mem_takeWhile_ne sep s
            · exact ih rest.length (length ▸ length_rest_lt found) rest rfl field later
  intro field member
  obtain ⟨split, some_⟩ := List.mem_filter.mp member
  exact ⟨of_decide_eq_true some_, clean s field split⟩

variable {fields : List (List α)} {field : List α}

theorem tokens_intercalate (proper : Proper sep fields) :
    tokens sep ([sep].intercalate fields) = fields := by
  cases fields with
  | nil => simp [tokens, List.splitOn_nil, List.intercalate_nil]
  | cons first fields =>
      rw [tokens, List.splitOn_intercalate _ (fun field member => (proper field member).2)
        (List.cons_ne_nil _ _), List.filter_eq_self]
      exact fun field member => decide_eq_true (proper field member).1

omit [DecidableEq α] in
theorem intercalate_concat (sep : α) (fields : List (List α)) (field : List α) (some_ : fields ≠ []) :
    [sep].intercalate (fields ++ [field]) = [sep].intercalate fields ++ sep :: field := by
  induction fields with
  | nil => exact absurd rfl some_
  | cons first fields ih =>
      cases fields with
      | nil => simp [List.intercalate_cons_cons]
      | cons second fields =>
          have rest := ih (List.cons_ne_nil _ _)
          rw [List.cons_append] at rest
          rw [List.cons_append, List.cons_append, List.intercalate_cons_cons, rest,
            List.intercalate_cons_cons]
          simp only [List.append_assoc]

theorem intercalate_eq_nil (proper : Proper sep fields) :
    [sep].intercalate fields = [] ↔ fields = [] := by
  refine ⟨fun empty => ?_, fun none => by rw [none, List.intercalate_nil]⟩
  have all := tokens_intercalate proper
  rw [empty] at all
  rw [← all]
  simp [tokens, List.splitOn_nil]

end Library.Fields
