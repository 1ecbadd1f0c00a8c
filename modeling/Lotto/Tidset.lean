import Lotto.Library.SwapList
import Lotto.Base

namespace Lotto

open Library.SwapList

structure Tidset where
  tasks : List TaskId
  nodup : tasks.Nodup
  deriving DecidableEq, Repr

namespace Tidset

instance : Membership TaskId Tidset := ⟨fun s id => id ∈ s.tasks⟩

instance (s : Tidset) (id : TaskId) : Decidable (id ∈ s) :=
  inferInstanceAs (Decidable (id ∈ s.tasks))

@[ext] theorem ext {s t : Tidset} (same : s.tasks = t.tasks) : s = t := by
  cases s
  cases t
  subst same
  rfl

theorem mem_def {s : Tidset} {id : TaskId} : id ∈ s ↔ id ∈ s.tasks := Iff.rfl

def empty : Tidset := ⟨[], List.nodup_nil⟩

def size (s : Tidset) : Nat := s.tasks.length

def has (s : Tidset) (id : TaskId) : Bool := s.tasks.contains id

def get (s : Tidset) (idx : Nat) : TaskId := s.tasks.getD idx noTask

def insert (s : Tidset) (id : TaskId) : Tidset :=
  if absent : id ∈ s.tasks then s
  else ⟨s.tasks ++ [id], by
    rw [List.nodup_append_comm]
    exact List.nodup_cons.mpr ⟨absent, s.nodup⟩⟩

def remove (s : Tidset) (id : TaskId) : Tidset :=
  ⟨swapErase id s.tasks, swapErase_nodup id s.tasks s.nodup⟩

def intersect (s t : Tidset) : Tidset :=
  ⟨swapFilter t.has s.tasks, swapFilter_nodup _ _ s.nodup⟩

def subtract (s t : Tidset) : Tidset :=
  ⟨swapFilter (fun id => !t.has id) s.tasks, swapFilter_nodup _ _ s.nodup⟩

/-- `tidset_filter`. -/
def filter (keep : TaskId → Bool) (s : Tidset) : Tidset :=
  ⟨swapFilter keep s.tasks, swapFilter_nodup _ _ s.nodup⟩

/-- The task array of `tidset_make_first`, which swaps the task with the first one. -/
def frontSwap (id : TaskId) : List TaskId → List TaskId
  | [] => []
  | first :: rest => if first = id then first :: rest else id :: rest.replace id first

theorem replace_perm {id first : TaskId} {rest : List TaskId} (member : id ∈ rest) :
    (id :: rest.replace id first).Perm (first :: rest) := by
  induction rest with
  | nil => cases member
  | cons head rest ih =>
      by_cases here : head = id
      · subst here
        simpa [List.replace_cons] using List.Perm.swap _ _ _
      · have later : id ∈ rest := by
          simpa [Ne.symm here] using member
        have other : (id == head) = false := beq_eq_false_iff_ne.mpr (Ne.symm here)
        have skipped : (head :: rest).replace id first = head :: rest.replace id first := by
          rw [List.replace_cons, other]
        calc
          id :: (head :: rest).replace id first
          _ = id :: head :: rest.replace id first := by rw [skipped]
          List.Perm _ (head :: id :: rest.replace id first) := List.Perm.swap _ _ _
          List.Perm _ (head :: first :: rest) := (ih later).cons head
          List.Perm _ (first :: head :: rest) := List.Perm.swap _ _ _

theorem frontSwap_perm {id : TaskId} {tasks : List TaskId} (member : id ∈ tasks) :
    (frontSwap id tasks).Perm tasks := by
  cases tasks with
  | nil => cases member
  | cons first rest =>
      by_cases here : first = id
      · simp [frontSwap, here]
      · have later : id ∈ rest := by
          simpa [Ne.symm here] using member
        simpa [frontSwap, here] using replace_perm later

/-- `tidset_make_first`. -/
def makeFirst (s : Tidset) (id : TaskId) : Except Fault Tidset :=
  if member : id ∈ s.tasks then
    .ok ⟨frontSwap id s.tasks, (frontSwap_perm member).nodup_iff.mpr s.nodup⟩
  else .error .tidsetNoElement

@[simp] theorem has_eq_true {s : Tidset} {id : TaskId} : s.has id = true ↔ id ∈ s :=
  List.contains_iff_mem

@[simp] theorem has_eq_false {s : Tidset} {id : TaskId} : s.has id = false ↔ id ∉ s := by
  rw [← Bool.not_eq_true, has_eq_true]

@[simp] theorem not_mem_empty (id : TaskId) : id ∉ empty := List.not_mem_nil

@[simp] theorem size_empty : empty.size = 0 := rfl

@[simp] theorem mem_insert {s : Tidset} {id other : TaskId} :
    other ∈ s.insert id ↔ other ∈ s ∨ other = id := by
  by_cases absent : id ∈ s.tasks
  · simp only [insert, absent, dite_true]
    refine ⟨Or.inl, ?_⟩
    rintro (member | rfl)
    · exact member
    · exact absent
  · simp [insert, absent, mem_def]

@[simp] theorem mem_remove {s : Tidset} {id other : TaskId} :
    other ∈ s.remove id ↔ other ≠ id ∧ other ∈ s :=
  mem_swapErase id other s.tasks s.nodup

@[simp] theorem mem_intersect {s t : Tidset} {id : TaskId} :
    id ∈ s.intersect t ↔ id ∈ s ∧ id ∈ t := by
  rw [mem_def, intersect, mem_swapFilter, has_eq_true, ← mem_def]

@[simp] theorem mem_subtract {s t : Tidset} {id : TaskId} :
    id ∈ s.subtract t ↔ id ∈ s ∧ id ∉ t := by
  rw [mem_def, subtract, mem_swapFilter, Bool.not_eq_true', has_eq_false, ← mem_def]

@[simp] theorem mem_filter {keep : TaskId → Bool} {s : Tidset} {id : TaskId} :
    id ∈ s.filter keep ↔ id ∈ s ∧ keep id = true := by
  rw [mem_def, filter, mem_swapFilter, ← mem_def]

theorem makeFirst_ok {s : Tidset} {id : TaskId} (member : id ∈ s) :
    ∃ t, s.makeFirst id = .ok t ∧ ∀ other, other ∈ t ↔ other ∈ s := by
  have inside : id ∈ s.tasks := member
  refine ⟨⟨frontSwap id s.tasks, (frontSwap_perm inside).nodup_iff.mpr s.nodup⟩, ?_, ?_⟩
  · simp [makeFirst, inside]
  · intro other
    exact (frontSwap_perm inside).mem_iff

theorem size_pos_iff {s : Tidset} : 0 < s.size ↔ ∃ id, id ∈ s :=
  List.length_pos_iff_exists_mem

theorem get_mem {s : Tidset} {idx : Nat} (bound : idx < s.size) : s.get idx ∈ s := by
  have inside : idx < s.tasks.length := bound
  rw [mem_def, get, List.getD_eq_getElem?_getD, List.getElem?_eq_getElem inside]
  exact List.getElem_mem inside

end Tidset

end Lotto
