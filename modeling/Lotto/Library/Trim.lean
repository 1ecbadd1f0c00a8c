import Mathlib.Data.List.DropRight

namespace Library.Trim

variable {α : Type*} (p : α → Bool)

def Padding (s : List α) : Prop := ∀ c ∈ s, p c = true

structure Trimmed (s : List α) : Prop where
  front : ∀ hs : s ≠ [], ¬ p (s.head hs) = true
  back : ∀ hs : s ≠ [], ¬ p (s.getLast hs) = true

def trim (s : List α) : List α := (s.dropWhile p).rdropWhile p

variable {p}

theorem padding_nil : Padding p ([] : List α) := by simp [Padding]

theorem Padding.append {a b : List α} (ha : Padding p a) (hb : Padding p b) :
    Padding p (a ++ b) := by
  intro c hc
  rcases List.mem_append.mp hc with h | h
  · exact ha c h
  · exact hb c h

theorem trimmed_nil : Trimmed p ([] : List α) := ⟨by simp, by simp⟩

theorem dropWhile_clear {s : List α} (clear : ∀ hs : s ≠ [], ¬ p (s.head hs) = true) :
    s.dropWhile p = s := by
  cases s with
  | nil => rfl
  | cons c s => exact List.dropWhile_cons_of_neg (clear (List.cons_ne_nil c s))

theorem rdropWhile_padding {b : List α} (s : List α) (hb : Padding p b) :
    (s ++ b).rdropWhile p = s.rdropWhile p := by
  have reversed : ∀ c ∈ b.reverse, p c = true := fun c hc => hb c (List.mem_reverse.mp hc)
  rw [List.rdropWhile, List.reverse_append, List.dropWhile_append_of_pos reversed]
  rfl

theorem trim_cut (s : List α) :
    ∃ a b, s = a ++ (trim p s ++ b) ∧ Padding p a ∧ Padding p b ∧ Trimmed p (trim p s) := by
  refine ⟨s.takeWhile p, (s.dropWhile p).rtakeWhile p, ?_, fun c => List.mem_takeWhile_imp,
    fun c => List.mem_rtakeWhile_imp, ?_, List.rdropWhile_last_not p _⟩
  · rw [trim, List.rdropWhile_append_rtakeWhile, List.takeWhile_append_dropWhile]
  · intro hs
    have kept := (List.rdropWhile_prefix p (s.dropWhile p)).head hs
    change ¬ p (((s.dropWhile p).rdropWhile p).head hs) = true
    rw [kept]
    simp [List.head_dropWhile_not]

theorem trim_parts {a b m : List α} (ha : Padding p a) (hb : Padding p b) (hm : Trimmed p m) :
    trim p (a ++ (m ++ b)) = m := by
  rw [trim, List.dropWhile_append_of_pos ha]
  cases m with
  | nil =>
      rw [List.nil_append, List.dropWhile_eq_nil_iff.mpr hb]
      rfl
  | cons c m =>
      rw [dropWhile_clear (by simpa using hm.front (List.cons_ne_nil c m)),
        rdropWhile_padding _ hb, List.rdropWhile_eq_self_iff.mpr hm.back]

end Library.Trim
