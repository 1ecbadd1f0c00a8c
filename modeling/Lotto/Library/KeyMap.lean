import Mathlib.Data.List.AList

namespace Library.KeyMap

variable {α : Type} [DecidableEq α] {β : Type}

theorem dlookup_kreplace (a key : α) (b : β) (items : List (Sigma fun _ : α => β)) :
    (items.kreplace key b).dlookup a =
      if a = key then (items.dlookup a).map fun _ => b else items.dlookup a := by
  induction items with
  | nil => simp [List.kreplace]
  | cons item items ih =>
      obtain ⟨k, v⟩ := item
      by_cases here : key = k
      · subst here
        have replaced : List.kreplace key b (⟨key, v⟩ :: items) = ⟨key, b⟩ :: items := by
          simp [List.kreplace, List.lookmap_cons_some]
        rw [replaced]
        by_cases same : a = key
        · subst same
          simp
        · rw [List.dlookup_cons_ne _ _ same, List.dlookup_cons_ne _ _ same, if_neg same]
      · have kept : List.kreplace key b (⟨k, v⟩ :: items) = ⟨k, v⟩ :: items.kreplace key b := by
          simp [List.kreplace, List.lookmap_cons_none, here]
        rw [kept]
        by_cases found : a = k
        · subst found
          simp [Ne.symm here]
        · rw [List.dlookup_cons_ne _ _ found, List.dlookup_cons_ne _ _ found, ih]

theorem lookup_replace {m : AList fun _ : α => β} {key : α} (known : key ∈ m) (a : α) (b : β) :
    (m.replace key b).lookup a = if a = key then some b else m.lookup a := by
  have replaced : (m.replace key b).lookup a =
      if a = key then (m.lookup a).map fun _ => b else m.lookup a :=
    dlookup_kreplace a key b m.entries
  rw [replaced]
  by_cases same : a = key
  · subst same
    obtain ⟨v, found⟩ := Option.isSome_iff_exists.mp (AList.lookup_isSome.mpr known)
    simp [found]
  · rw [if_neg same, if_neg same]

section Entries

variable {m : AList fun _ : α => β} {key a : α} {b v : β}

theorem lookup_insert_some : (m.insert key v).lookup a = some b ↔
    a = key ∧ b = v ∨ a ≠ key ∧ m.lookup a = some b := by
  by_cases same : a = key
  · subst same
    simp [eq_comm]
  · simp [AList.lookup_insert_ne same, same]

theorem lookup_replace_some (known : key ∈ m) : (m.replace key v).lookup a = some b ↔
    a = key ∧ b = v ∨ a ≠ key ∧ m.lookup a = some b := by
  rw [lookup_replace known]
  by_cases same : a = key
  · simp [same, eq_comm]
  · simp [same]

theorem lookup_erase_some : (m.erase key).lookup a = some b ↔ a ≠ key ∧ m.lookup a = some b := by
  by_cases same : a = key
  · subst same
    simp
  · simp [AList.lookup_erase_ne same, same]

theorem mem_of_lookup (found : m.lookup a = some b) : a ∈ m :=
  AList.lookup_isSome.mp (by rw [found]; rfl)

end Entries

def All (good : α → β → Prop) (m : AList fun _ : α => β) : Prop :=
  ∀ key v, m.lookup key = some v → good key v

variable {good : α → β → Prop} {m : AList fun _ : α => β}

theorem All.empty : All good (∅ : AList fun _ : α => β) := by
  intro key v found
  simp at found

theorem All.mono {good' : α → β → Prop} (all : All good m)
    (weaken : ∀ key v, good key v → good' key v) : All good' m :=
  fun key v found => weaken key v (all key v found)

theorem All.insert (all : All good m) {key : α} {v : β} (new : good key v) :
    All good (m.insert key v) := by
  intro a b found
  by_cases same : a = key
  · subst same
    rw [AList.lookup_insert] at found
    cases found
    exact new
  · rw [AList.lookup_insert_ne same] at found
    exact all a b found

theorem All.replace {key : α} {v : β} (known : key ∈ m)
    (all : ∀ a b, a ≠ key → m.lookup a = some b → good a b) (new : good key v) :
    All good (m.replace key v) := by
  intro a b found
  rw [lookup_replace known] at found
  by_cases same : a = key
  · subst same
    rw [if_pos rfl] at found
    cases found
    exact new
  · rw [if_neg same] at found
    exact all a b same found

theorem All.erase {key : α} (all : ∀ a b, a ≠ key → m.lookup a = some b → good a b) :
    All good (m.erase key) := by
  intro a b found
  by_cases same : a = key
  · subst same
    rw [AList.lookup_erase] at found
    cases found
  · rw [AList.lookup_erase_ne same] at found
    exact all a b same found

end Library.KeyMap
