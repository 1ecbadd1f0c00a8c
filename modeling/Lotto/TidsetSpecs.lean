import Mathlib.Data.Finset.Dedup
import Mathlib.Data.List.GetD
import Lotto.Tidset
import Lotto.TidsetArray

namespace Lotto.TidsetSpecs

open Library.FaultRun Library.SwapList TidsetArray

structure Stores (t : TidsetArray) (ids : List TaskId) : Prop where
  size : t.size = ids.length
  block : ∃ rest, t.words = ids ++ rest ∧ t.capacity = (ids ++ rest).length

variable {t : TidsetArray} {ids front back : List TaskId} {id x : TaskId}

theorem Stores.room (stores : Stores t ids) : t.size ≤ t.capacity := by
  obtain ⟨rest, -, capacity⟩ := stores.block
  rw [stores.size, capacity, List.length_append]
  exact Nat.le_add_right _ _

theorem Stores.isBlock (stores : Stores t ids) (filled : ids ≠ []) : t.tasks.isSome = true := by
  obtain ⟨rest, words, -⟩ := stores.block
  cases block : t.tasks with
  | some block => rfl
  | none =>
      rw [TidsetArray.words, block] at words
      exact absurd (List.append_eq_nil_iff.mp words.symm).1 filled

theorem Stores.checked (stores : Stores t ids) : (t.size == 0 || t.tasks.isSome) = true := by
  rw [Bool.or_eq_true, beq_iff_eq, stores.size]
  by_cases filled : ids = []
  · exact .inl (by rw [filled]; rfl)
  · exact .inr (stores.isBlock filled)

theorem Stores.load (stores : Stores t (front ++ x :: back)) : t.load front.length = .ok x := by
  obtain ⟨rest, words, -⟩ := stores.block
  have here : t.words[front.length]? = some x := by
    rw [words, List.append_assoc, List.getElem?_append_right (Nat.le_refl _), Nat.sub_self]
    rfl
  simp only [TidsetArray.load, here]

theorem Stores.load_get {i : Nat} (stores : Stores t ids) (inside : i < ids.length) :
    t.load i = .ok ids[i] := by
  obtain ⟨rest, words, -⟩ := stores.block
  have here : t.words[i]? = some ids[i] := by
    rw [words, List.getElem?_append_left inside, List.getElem?_eq_getElem inside]
  simp only [TidsetArray.load, here]

theorem Stores.store {i : Nat} (stores : Stores t ids) (inside : i < ids.length) (id : TaskId) :
    ∃ t', t.store i id = .ok t' ∧ Stores t' (ids.set i id) := by
  obtain ⟨rest, words, capacity⟩ := stores.block
  have bound : decide (i < t.words.length) = true := by
    rw [words, List.length_append, decide_eq_true_iff]
    omega
  refine ⟨{ t with tasks := some (t.words.set i id) }, ?_, ?_, rest, ?_, ?_⟩
  · simp only [TidsetArray.store, bound, check_true, ok_bind]
  · rw [List.length_set]
    exact stores.size
  · rw [words, ← List.set_append_left _ _ inside]
    rfl
  · rw [List.length_append, List.length_set, ← List.length_append]
    exact capacity

theorem Stores.shrink (stores : Stores t (front ++ back)) :
    Stores { t with size := front.length } front := by
  obtain ⟨rest, words, capacity⟩ := stores.block
  refine ⟨rfl, back ++ rest, ?_, ?_⟩
  · rw [← List.append_assoc]
    exact words
  · rw [← List.append_assoc]
    exact capacity

theorem store_resize {t' : TidsetArray} {i : Nat} (n : Nat) (stored : t.store i id = .ok t') :
    TidsetArray.store { t with size := n } i id = .ok { t' with size := n } := by
  obtain ⟨_, passed, written⟩ := bind_eq_ok.mp stored
  cases written
  change (check (decide (i < t.words.length)) .tidsetTasks >>= _) = _
  rw [passed]
  rfl

theorem Stores.load_last {last : TaskId} (stores : Stores t ids) (final : ids.getLast? = some last) :
    t.load (t.size - 1) = .ok last := by
  obtain ⟨before, rfl⟩ := List.getLast?_eq_some_iff.mp final
  rw [stores.size, List.length_append]
  exact stores.load

theorem lastFirst_split (front : List TaskId) (x : TaskId) (back : List TaskId) :
    ∃ last, (front ++ x :: back).getLast? = some last ∧
      front ++ last :: back = (front ++ lastFirst back) ++ [last] := by
  rcases List.eq_nil_or_concat' back with rfl | ⟨mid, last, rfl⟩
  · exact ⟨x, List.getLast?_concat, by simp [lastFirst]⟩
  · refine ⟨last, ?_, by simp [lastFirst]⟩
    rw [← List.cons_append, ← List.append_assoc]
    exact List.getLast?_concat

theorem Stores.dropAt (stores : Stores t (front ++ x :: back)) :
    ∃ t', t.dropAt front.length = .ok t' ∧ Stores t' (front ++ lastFirst back) := by
  obtain ⟨last, final, moved⟩ := lastFirst_split front x back
  obtain ⟨t', stored, now⟩ := stores.store (i := front.length) (by simp) last
  have size : t.size - 1 = (front ++ lastFirst back).length := by
    rw [stores.size, List.length_append, List.length_append, lastFirst_length]
    rfl
  refine ⟨{ t' with size := t.size - 1 }, ?_, ?_⟩
  · rw [TidsetArray.dropAt, stores.load_last final, ok_bind]
    exact store_resize _ stored
  · rw [List.set_append_right _ _ (Nat.le_refl _), Nat.sub_self, List.set_cons_zero, moved] at now
    rw [size]
    exact now.shrink

section Loops

theorem hasLoop_eq (front : List TaskId) (stores : Stores t (front ++ back)) (id : TaskId) :
    t.hasLoop id front.length back.length = .ok (decide (id ∈ back)) := by
  induction back generalizing front with
  | nil => simp [hasLoop]
  | cons x back ih =>
      rw [List.length_cons, hasLoop, stores.load, ok_bind]
      by_cases here : x = id
      · simp [here]
      · have later := ih (front ++ [x]) (by simpa using stores)
        rw [List.length_append, List.length_singleton] at later
        simp [here, later, Ne.symm here]

theorem has_eq (stores : Stores t ids) (id : TaskId) : t.has id = .ok (decide (id ∈ ids)) := by
  rw [TidsetArray.has, stores.size]
  exact hasLoop_eq [] stores id

theorem get_eq (stores : Stores t ids) (idx : Nat) : t.get idx = .ok (ids.getD idx noTask) := by
  by_cases filled : ids = []
  · subst filled
    have empty : t.size = 0 := stores.size
    simp [TidsetArray.get, empty]
  · have some : ids.length ≠ 0 := List.length_eq_zero_iff.not.mpr filled
    simp only [TidsetArray.get, stores.size, if_neg some, stores.isBlock filled, check_true, ok_bind]
    by_cases inside : idx < ids.length
    · rw [if_neg (Nat.not_le.mpr inside), stores.load_get inside, List.getD_eq_getElem _ _ inside]
    · rw [if_pos (Nat.not_lt.mp inside), List.getD_eq_default _ _ (Nat.not_lt.mp inside)]

theorem removeLoop_eq (front : List TaskId) (stores : Stores t (front ++ back)) (id : TaskId) :
    ∃ t', removeLoop id front.length back.length t = .ok (decide (id ∈ back), t') ∧
      Stores t' (front ++ swapErase id back) := by
  induction back generalizing front with
  | nil => exact ⟨t, rfl, stores⟩
  | cons x back ih =>
      rw [List.length_cons, removeLoop, stores.load, ok_bind]
      by_cases here : x = id
      · obtain ⟨t', dropped, now⟩ := stores.dropAt
        refine ⟨t', by simp [here, dropped], ?_⟩
        rw [swapErase, if_pos here]
        exact now
      · obtain ⟨t', later, now⟩ := ih (front ++ [x]) (by simpa using stores)
        rw [List.length_append, List.length_singleton] at later
        refine ⟨t', by simp [here, later, Ne.symm here], ?_⟩
        rw [swapErase, if_neg here]
        simpa using now

theorem remove_eq {s : Tidset} (stores : Stores t s.tasks) (id : TaskId) :
    ∃ t', t.remove id = .ok (decide (id ∈ s), t') ∧ Stores t' (s.remove id).tasks := by
  obtain ⟨t', removed, now⟩ := removeLoop_eq [] stores id
  refine ⟨t', ?_, now⟩
  rw [TidsetArray.remove, stores.checked, check_true, ok_bind, stores.size]
  exact removed

/-- The list in which the task at an index was exchanged with a task, or replaced by one that is not
in the list. -/
def swapIn (idx : Nat) (id : TaskId) (ids : List TaskId) : List TaskId :=
  (ids.set (ids.idxOf id) (ids.getD idx noTask)).set idx id

/-- The loop of `tidset_set` leaves the task at the index to the place of the one that comes there. -/
theorem setLoop_eq {idx : Nat} (front : List TaskId) (nodup : ids.Nodup) (inside : idx < ids.length)
    (whole : front ++ back = ids) (stores : Stores t ids)
    (unseen : ∀ j (bound : j < front.length), j ≠ idx → front[j] ≠ id) :
    ∃ t', setLoop idx id front.length back.length t = .ok t' ∧
      Stores t' (ids.set (ids.idxOf id) (ids.getD idx noTask)) := by
  induction back generalizing front with
  | nil =>
      rw [List.append_nil] at whole
      subst whole
      refine ⟨t, rfl, ?_⟩
      by_cases member : id ∈ front
      · have position : front.idxOf id = idx := by
          by_contra other
          have bound := List.idxOf_lt_length_of_mem member
          exact unseen _ bound other (List.getElem_idxOf bound)
        rw [position, List.getD_eq_getElem _ _ inside, List.set_getElem_self]
        exact stores
      · rw [List.idxOf_eq_length member, List.set_eq_of_length_le (Nat.le_refl _)]
        exact stores
  | cons x back ih =>
      have here := stores
      rw [← whole] at here
      rw [List.length_cons, setLoop, here.load, ok_bind]
      by_cases found : x = id ∧ front.length ≠ idx
      · obtain ⟨rfl, other⟩ := found
        have position : ids.idxOf x = front.length := by
          have bound : front.length < ids.length := by
            rw [← whole, List.length_append, List.length_cons]
            omega
          have at_ : ids[front.length] = x := by
            simp [← whole]
          rw [← at_]
          exact nodup.idxOf_getElem _ bound
        have room : front.length < ids.length := by
          rw [← position]
          apply List.idxOf_lt_length_of_mem
          rw [← whole]
          exact List.mem_append_right _ List.mem_cons_self
        obtain ⟨t', stored, now⟩ := stores.store room ids[idx]
        refine ⟨t', ?_, ?_⟩
        · simp only [other, ne_eq, not_false_eq_true, and_self, if_true, stores.load_get inside, ok_bind,
            stored]
        · rw [position, List.getD_eq_getElem _ _ inside]
          exact now
      · simp only [if_neg found]
        have later := ih (front ++ [x]) (by simpa using whole) ?_
        · rw [List.length_append, List.length_singleton] at later
          exact later
        · intro j bound other
          rw [List.length_append, List.length_singleton] at bound
          by_cases old : j < front.length
          · rw [List.getElem_append_left old]
            exact unseen j old other
          · have last : j = front.length := by omega
            subst last
            simp only [List.getElem_concat_length]
            intro same
            exact found ⟨same, other⟩

theorem set_eq {idx : Nat} (nodup : ids.Nodup) (stores : Stores t ids) (inside : idx < ids.length)
    (valid : id ≠ noTask) : ∃ t', t.set idx id = .ok t' ∧ Stores t' (swapIn idx id ids) := by
  have filled : ids ≠ [] := List.ne_nil_of_length_pos (Nat.zero_lt_of_lt inside)
  have some : ids.length ≠ 0 := List.length_eq_zero_iff.not.mpr filled
  have given : (id != noTask) = true := by simpa using valid
  obtain ⟨u, looped, now⟩ := setLoop_eq [] nodup inside (List.nil_append ids) stores
    (fun j (bound : j < ([] : List TaskId).length) _ => absurd bound (Nat.not_lt_zero j))
  obtain ⟨t', stored, done⟩ := now.store (by rw [List.length_set]; exact inside) id
  refine ⟨t', ?_, done⟩
  simp only [TidsetArray.set, stores.size, if_neg some, stores.isBlock filled, given, check_true, ok_bind,
    if_neg (Nat.not_le.mpr inside)]
  rw [show setLoop idx id 0 ids.length t = .ok u from looped, ok_bind]
  exact stored

theorem makeFirstLoop_eq (front : List TaskId) (whole : front ++ back = ids) (stores : Stores t ids)
    (unseen : id ∉ front) (member : id ∈ ids) :
    ∃ t', makeFirstLoop id front.length back.length t = .ok t' ∧ Stores t' (swapIn 0 id ids) := by
  induction back generalizing front with
  | nil =>
      rw [List.append_nil] at whole
      rw [← whole] at member
      exact absurd member unseen
  | cons x back ih =>
      have here := stores
      rw [← whole] at here
      rw [List.length_cons, makeFirstLoop, here.load, ok_bind]
      by_cases found : x = id
      · subst found
        have position : ids.idxOf x = front.length := by
          rw [← whole, List.idxOf_append_of_notMem unseen, List.idxOf_cons_self]
          rfl
        have room : front.length < ids.length := by
          rw [← position]
          exact List.idxOf_lt_length_of_mem member
        have first : 0 < ids.length := Nat.zero_lt_of_lt room
        rw [swapIn, position, List.getD_eq_getElem _ _ first]
        by_cases leading : front.length = 0
        · have same : ids[0] = x := by
            have empty := List.length_eq_zero_iff.mp leading
            subst empty
            simp [← whole]
          refine ⟨t, by simp [leading], ?_⟩
          rw [leading, same, ← same, List.set_getElem_self, List.set_getElem_self]
          exact stores
        · obtain ⟨u, stored, now⟩ := stores.store room ids[0]
          obtain ⟨t', finished, done⟩ := now.store (by rw [List.length_set]; exact first) x
          refine ⟨t', ?_, done⟩
          simp only [ne_eq, not_true_eq_false, if_false, if_neg leading, stores.load_get first, ok_bind,
            stored, finished]
      · have later := ih (front ++ [x]) (by simpa using whole)
          (by simpa [Ne.symm found] using unseen)
        rw [List.length_append, List.length_singleton] at later
        simpa [found] using later

theorem makeFirstLoop_missing (front : List TaskId) (stores : Stores t (front ++ back)) (missing : id ∉ back) :
    makeFirstLoop id front.length back.length t = .error .tidsetNoElement := by
  induction back generalizing front with
  | nil => rfl
  | cons x back ih =>
      rw [List.mem_cons, not_or] at missing
      have later := ih (front ++ [x]) (by simpa using stores) missing.2
      rw [List.length_append, List.length_singleton] at later
      rw [List.length_cons, makeFirstLoop, stores.load, ok_bind]
      simpa [Ne.symm missing.1] using later

theorem containsLoop_eq {other : TidsetArray} (front : List TaskId) (stores : Stores t ids)
    (others : Stores other (front ++ back)) :
    t.containsLoop other front.length back.length = .ok (back.all fun x => decide (x ∈ ids)) := by
  induction back generalizing front with
  | nil => simp [containsLoop]
  | cons x back ih =>
      have later := ih (front ++ [x]) (by simpa using others)
      rw [List.length_append, List.length_singleton] at later
      rw [List.length_cons, containsLoop, others.load, ok_bind, has_eq stores, ok_bind]
      by_cases found : x ∈ ids
      · simp [found, later]
      · simp [found]

end Loops

section Blocks

theorem branch_bind {α β : Type} {c : Prop} [Decidable c] {x : Except Fault α} {a b : α}
    {f : α → Except Fault β} (step : (if c then x else .ok a) = .ok b) :
    (if c then x >>= f else f a) = f b := by
  by_cases holds : c
  · rw [if_pos holds] at step ⊢
    rw [step, ok_bind]
  · rw [if_neg holds] at step ⊢
    cases step
    rfl

theorem stores_initCap (cap : Nat) : Stores (initCap cap) [] :=
  ⟨rfl, List.replicate cap noTask, rfl, by simp [initCap]⟩

theorem expand_eq (stores : Stores t ids) (cap : Nat) (enough : t.size ≤ cap) :
    ∃ t', t.expand cap = .ok t' ∧ Stores t' ids ∧ t'.capacity = if cap = 0 then initSize else cap := by
  obtain ⟨rest, words, capacity⟩ := stores.block
  have size := stores.size
  generalize room : (if cap = 0 then initSize else cap) = larger
  have wide : ids.length ≤ larger := by
    rw [← room, ← size]
    split <;> omega
  cases block : t.tasks with
  | none =>
      rw [TidsetArray.words, block] at words
      obtain ⟨rfl, -⟩ := List.append_eq_nil_iff.mp words.symm
      refine ⟨initCap larger, ?_, stores_initCap larger, rfl⟩
      simp only [expand, room, block]
  | some block' =>
      rw [TidsetArray.words, block] at words
      have content : block' = ids ++ rest := words
      have fits : decide (ids.length ≤ larger ∧ ids.length ≤ block'.length) = true := by
        rw [decide_eq_true_iff, content, List.length_append]
        omega
      refine ⟨{ t with
        capacity := larger
        tasks := some (ids ++ List.replicate (larger - ids.length) noTask) }, ?_, ⟨size, _, rfl, ?_⟩, rfl⟩
      · simp only [expand, room, block, size, fits, check_true, ok_bind]
        rw [content, List.take_left]
      · rw [List.length_append, List.length_replicate]
        change larger = _
        omega

theorem Stores.extend (stores : Stores t ids) (room : t.size < t.capacity) (id : TaskId) :
    ∃ t', t.store t.size id = .ok t' ∧ Stores { t' with size := t'.size + 1 } (ids ++ [id]) := by
  obtain ⟨rest, words, capacity⟩ := stores.block
  have size := stores.size
  rw [List.length_append] at capacity
  cases rest with
  | nil => rw [List.length_nil] at capacity; omega
  | cons old rest =>
      have bound : decide (ids.length < t.words.length) = true := by
        rw [words, List.length_append, List.length_cons, decide_eq_true_iff]
        omega
      refine ⟨{ t with tasks := some (t.words.set ids.length id) }, ?_, ?_, rest, ?_, ?_⟩
      · simp only [TidsetArray.store, size, bound, check_true, ok_bind]
      · rw [List.length_append, List.length_singleton, ← size]
      · change t.words.set ids.length id = _
        rw [words, List.set_append_right _ _ (Nat.le_refl _), Nat.sub_self, List.set_cons_zero,
          List.append_assoc]
        rfl
      · rw [capacity]
        simp only [List.length_append, List.length_cons, List.length_nil]
        omega

theorem grow_eq (stores : Stores t ids) :
    ∃ u, (if t.capacity < t.size + 1 then t.expand (t.capacity * 2) else .ok t) = .ok u ∧
      Stores u ids ∧ u.size < u.capacity := by
  have room := stores.room
  by_cases full : t.capacity < t.size + 1
  · obtain ⟨u, expanded, now, capacity⟩ := expand_eq stores (t.capacity * 2) (by omega)
    rw [if_pos full]
    refine ⟨u, expanded, now, ?_⟩
    rw [now.size, ← stores.size, capacity, initSize]
    split <;> omega
  · rw [if_neg full]
    exact ⟨t, rfl, stores, by omega⟩

theorem insert_eq {s : Tidset} (stores : Stores t s.tasks) (id : TaskId) :
    ∃ t', t.insert id = .ok (decide (id ∉ s), t') ∧ Stores t' (s.insert id).tasks := by
  have has := has_eq stores id
  by_cases member : id ∈ s.tasks
  · refine ⟨t, ?_, ?_⟩
    · rw [TidsetArray.insert, stores.checked, check_true, ok_bind, has, ok_bind]
      simp [member, Tidset.mem_def]
    · rw [Tidset.insert, dif_pos member]
      exact stores
  · obtain ⟨u, grew, held, free⟩ := grow_eq stores
    obtain ⟨t', stored, now⟩ := held.extend free id
    refine ⟨{ t' with size := t'.size + 1 }, ?_, ?_⟩
    · rw [TidsetArray.insert, stores.checked, check_true, ok_bind, has, ok_bind]
      simp only [member, decide_false, Bool.false_eq_true, if_false, ok_bind]
      rw [branch_bind grew, stored, ok_bind]
      simp only [Tidset.mem_def, member, not_false_eq_true, decide_true]
    · rw [Tidset.insert, dif_neg member]
      exact now

theorem copy_eq {src : TidsetArray} {old : List TaskId} (stores : Stores t old) (from_ : Stores src ids) :
    ∃ t', t.copy src = .ok t' ∧ Stores t' ids := by
  have grown : ∃ u, (if t.capacity < src.capacity then t.expand src.capacity else .ok t) = .ok u ∧
      Stores u old ∧ src.capacity ≤ u.capacity := by
    have room := stores.room
    by_cases small : t.capacity < src.capacity
    · obtain ⟨u, expanded, now, capacity⟩ := expand_eq stores src.capacity (by omega)
      rw [if_pos small]
      refine ⟨u, expanded, now, ?_⟩
      rw [capacity]
      split <;> omega
    · rw [if_neg small]
      exact ⟨t, rfl, stores, by omega⟩
  obtain ⟨u, grew, held, wide⟩ := grown
  obtain ⟨rest, words, capacity⟩ := held.block
  obtain ⟨rest', words', capacity'⟩ := from_.block
  rw [← words] at capacity
  simp only [TidsetArray.copy, ok_bind]
  rw [branch_bind grew, from_.size]
  by_cases none : ids.length = 0
  · obtain rfl := List.length_eq_zero_iff.mp none
    exact ⟨_, if_pos rfl, (show Stores u ([] ++ old) from held).shrink⟩
  · have fits : decide (ids.length ≤ src.words.length ∧ ids.length ≤ u.words.length) = true := by
      rw [List.length_append] at capacity'
      rw [words', List.length_append, decide_eq_true_iff]
      omega
    refine ⟨{ u with
      size := ids.length, tasks := some (src.words.take ids.length ++ u.words.drop ids.length) }, ?_,
      rfl, u.words.drop ids.length, ?_, ?_⟩
    · rw [if_neg none, fits, check_true, ok_bind]
    · rw [words', List.take_left]
      rfl
    · rw [capacity, List.length_append, List.length_drop]
      have := (of_decide_eq_true fits).2
      omega

theorem sort_eq (stores : Stores t ids) (sorter : Sorter) :
    ∃ t' sorted, t.sort sorter = .ok t' ∧ Stores t' sorted ∧ sorted.Perm ids := by
  obtain ⟨rest, words, capacity⟩ := stores.block
  rw [TidsetArray.sort, stores.size]
  by_cases none : ids.length = 0
  · exact ⟨t, ids, if_pos none, stores, List.Perm.refl _⟩
  · have bound : decide (ids.length ≤ t.words.length) = true := by
      rw [words, List.length_append, decide_eq_true_iff]
      omega
    have same := (sorter.perm ids).length_eq
    refine ⟨{ t with
      tasks := some (sorter.run (t.words.take ids.length) ++ t.words.drop ids.length) }, sorter.run ids,
      ?_, ⟨stores.size.trans same.symm, rest, ?_, ?_⟩, sorter.perm ids⟩
    · rw [if_neg none, bound, check_true, ok_bind, stores.size]
    · rw [words, List.take_left, List.drop_left]
      rfl
    · rw [List.length_append, same, ← List.length_append]
      exact capacity

theorem containsAll_eq {other : TidsetArray} {others : List TaskId} (stores : Stores t ids)
    (held : Stores other others) : t.containsAll other = .ok (others.all fun x => decide (x ∈ ids)) := by
  rw [TidsetArray.containsAll, stores.size, held.size]
  by_cases none : others.length = 0
  · obtain rfl := List.length_eq_zero_iff.mp none
    simp
  · rw [if_neg none]
    by_cases empty : ids.length = 0
    · obtain rfl := List.length_eq_zero_iff.mp empty
      obtain ⟨x, member⟩ := List.exists_mem_of_length_pos (Nat.pos_of_ne_zero none)
      have missing : (others.all fun x => decide (x ∈ ([] : List TaskId))) = false :=
        List.all_eq_false.mpr ⟨x, member, by simp⟩
      rw [missing]
      rfl
    · rw [if_neg empty]
      exact containsLoop_eq [] stores held

theorem equals_eq {other : TidsetArray} {others : List TaskId} (stores : Stores t ids)
    (held : Stores other others) : t.equals other = .ok (decide (ids.toFinset = others.toFinset)) := by
  rw [TidsetArray.equals, containsAll_eq stores held, ok_bind]
  have all (a b : List TaskId) : (a.all fun x => decide (x ∈ b)) = true ↔ ∀ x ∈ a, x ∈ b := by
    simp only [List.all_eq_true, decide_eq_true_iff]
  by_cases forth : ∀ x ∈ others, x ∈ ids
  · rw [(all others ids).mpr forth, if_pos rfl, containsAll_eq held stores]
    congr 1
    rw [Bool.eq_iff_iff, all, decide_eq_true_iff, Finset.ext_iff]
    simp only [List.mem_toFinset]
    constructor
    · intro back x
      exact ⟨back x, forth x⟩
    · intro same x
      exact (same x).mp
  · have differ : ¬ ids.toFinset = others.toFinset := by
      intro same
      apply forth
      intro x member
      rw [← List.mem_toFinset, same, List.mem_toFinset]
      exact member
    rw [← all, Bool.not_eq_true] at forth
    rw [forth, decide_eq_false differ]
    rfl

end Blocks

section Stores

variable {s : TidsetStore} {a b : Nat}

theorem update_of_others {s' : TidsetStore} (others : ∀ c, c ≠ a → s' c = s c) :
    Function.update s a (s' a) = s' := by
  funext c
  by_cases here : c = a
  · subst here
    rw [Function.update_self]
  · rw [Function.update_of_ne here, others c here]

/-- The test of a sweep agrees with a test on the elements, whatever was dropped of them before. -/
def Agrees (keep : TidsetStore → TaskId → Except Fault Bool) (test : TaskId → Bool) (s : TidsetStore)
    (a : Nat) (ids : List TaskId) : Prop :=
  ∀ s' kept, (∀ c, c ≠ a → s' c = s c) → Stores (s' a) kept → kept ⊆ ids → ∀ id ∈ kept,
    keep s' id = .ok (test id)

theorem sweepLoop_eq {keep : TidsetStore → TaskId → Except Fault Bool} {test : TaskId → Bool}
    (front : List TaskId) (agrees : Agrees keep test s a ids) (fuel : Nat) {s' : TidsetStore}
    (others : ∀ c, c ≠ a → s' c = s c) (stores : Stores (s' a) (front ++ back))
    (subset : front ++ back ⊆ ids) (left : back.length = fuel) :
    ∃ t, TidsetStore.sweepLoop keep a front.length fuel s' = .ok (Function.update s a t) ∧
      Stores t (front ++ swapFilterFuel test fuel back) := by
  induction fuel generalizing front back s' with
  | zero =>
      obtain rfl := List.length_eq_zero_iff.mp left
      refine ⟨s' a, by rw [TidsetStore.sweepLoop, update_of_others others], ?_⟩
      rw [swapFilterFuel]
      exact stores
  | succ fuel ih =>
      cases back with
      | nil => cases left
      | cons x back =>
          rw [List.length_cons] at left
          rw [TidsetStore.sweepLoop, stores.load, ok_bind,
            agrees s' _ others stores subset x (List.mem_append_right _ List.mem_cons_self), ok_bind,
            swapFilterFuel]
          by_cases kept : test x = true
          · rw [if_pos kept, if_pos kept]
            have later := ih (front ++ [x]) others (by simpa using stores)
              (by simpa using subset) (by omega)
            rw [List.length_append, List.length_singleton] at later
            simpa using later
          · obtain ⟨t, dropped, now⟩ := stores.dropAt
            rw [if_neg kept, if_neg kept, dropped, ok_bind]
            apply ih
            · intro c other
              rw [Function.update_of_ne other]
              exact others c other
            · rw [Function.update_self]
              exact now
            · intro y member
              apply subset
              rcases List.mem_append.mp member with early | late
              · exact List.mem_append_left _ early
              · exact List.mem_append_right _
                  (List.mem_cons_of_mem x ((lastFirst_perm back).mem_iff.mp late))
            · rw [lastFirst_length]
              omega

theorem sweep_eq {keep : TidsetStore → TaskId → Except Fault Bool} {test : TaskId → Bool}
    (stores : Stores (s a) ids) (agrees : Agrees keep test s a ids) :
    ∃ t, TidsetStore.sweep keep a s = .ok (Function.update s a t) ∧ Stores t (swapFilter test ids) := by
  rw [TidsetStore.sweep, stores.size]
  exact sweepLoop_eq [] agrees ids.length (fun _ _ => rfl) stores (List.Subset.refl _) rfl

theorem sweepLoop_fails (keep : TaskId → Except Fault Bool) {fault : Fault} (front : List TaskId)
    (fails : keep id = .error fault) (others : ∀ x, x ≠ id → ∃ kept, keep x = .ok kept) (fuel : Nat)
    {s' : TidsetStore} (stores : Stores (s' a) (front ++ back)) (member : id ∈ back)
    (left : back.length = fuel) :
    TidsetStore.sweepLoop (fun _ x => keep x) a front.length fuel s' = .error fault := by
  induction fuel generalizing front back s' with
  | zero =>
      obtain rfl := List.length_eq_zero_iff.mp left
      cases member
  | succ fuel ih =>
      cases back with
      | nil => cases left
      | cons x back =>
          rw [List.length_cons] at left
          rw [TidsetStore.sweepLoop, stores.load, ok_bind]
          by_cases here : x = id
          · rw [here, fails]
            rfl
          · have later : id ∈ back := (List.mem_cons.mp member).resolve_left (Ne.symm here)
            obtain ⟨kept, tested⟩ := others x here
            rw [tested, ok_bind]
            cases kept with
            | true =>
                have next := ih (front ++ [x]) (by simpa using stores) later (by omega)
                rw [List.length_append, List.length_singleton] at next
                exact next
            | false =>
                obtain ⟨t, dropped, now⟩ := stores.dropAt
                simp only [Bool.false_eq_true, if_false, dropped, ok_bind]
                apply ih
                · rw [Function.update_self]
                  exact now
                · exact (lastFirst_perm back).mem_iff.mpr later
                · rw [lastFirst_length]
                  omega

theorem insert_of_mem {set : Tidset} (member : id ∈ set) : set.insert id = set := by
  have inside : id ∈ set.tasks := member
  rw [Tidset.insert, dif_pos inside]

/-- `tidset_union` inserts the elements of the second set, which may be the first one as well. -/
theorem unionLoop_eq (fuel i : Nat) {s' : TidsetStore} {set other : Tidset}
    (stores : Stores (s' a) set.tasks) (held : Stores (s' b) other.tasks) (alias_ : a = b → set = other)
    (low : i ≤ other.tasks.length) (enough : other.tasks.length < i + fuel)
    (others : ∀ c, c ≠ a → s' c = s c) :
    ∃ t, TidsetStore.unionLoop a b fuel i s' = .ok (Function.update s a t) ∧
      Stores t ((other.tasks.drop i).foldl Tidset.insert set).tasks := by
  induction fuel generalizing i s' set with
  | zero => omega
  | succ fuel ih =>
      rw [TidsetStore.unionLoop, held.size]
      by_cases inside : i < other.tasks.length
      · obtain ⟨t, inserted, now⟩ := insert_eq stores other.tasks[i]
        rw [if_pos inside, get_eq held, ok_bind, List.getD_eq_getElem _ _ inside, inserted, ok_bind,
          List.drop_eq_getElem_cons inside, List.foldl_cons]
        apply ih
        · rw [Function.update_self]
          exact now
        · by_cases same : a = b
          · subst same
            rw [Function.update_self]
            rw [alias_ rfl, insert_of_mem (List.getElem_mem inside)] at now
            exact now
          · rw [Function.update_of_ne (Ne.symm same)]
            exact held
        · intro same
          rw [alias_ same]
          exact insert_of_mem (List.getElem_mem inside)
        · omega
        · omega
        · intro c different
          rw [Function.update_of_ne different]
          exact others c different
      · rw [if_neg inside, List.drop_eq_nil_of_le (Nat.not_lt.mp inside)]
        exact ⟨s' a, by rw [update_of_others others], stores⟩

end Stores

end Lotto.TidsetSpecs
