import Mathlib.Data.List.Count
import Lotto.TidsetSpecs

namespace Lotto.Tidbag

open Library.FaultRun Library.SwapList TidsetArray TidsetSpecs

abbrev TidbagArray : Type := TidsetArray

section Operations

def tidbagInit : TidbagArray := TidsetArray.init

def tidbagRemove (t : TidbagArray) (id : TaskId) : Except Fault TidbagArray := do
  check (t.size == 0 || t.tasks.isSome) .tidsetTasks
  let r ← removeLoop id 0 t.size t
  .ok r.2

def tidbagExpand (t : TidbagArray) (cap : Nat) : Except Fault TidbagArray :=
  if t.tasks.isSome = true ∧ (if cap = 0 then initSize else cap) < t.size then .ok t
  else t.expand cap

def tidbagInsert (t : TidbagArray) (id : TaskId) : Except Fault TidbagArray := do
  check (t.size == 0 || t.tasks.isSome) .tidsetTasks
  let t ← if t.capacity < t.size + 1 then tidbagExpand t (t.capacity * 2) else .ok t
  let t ← t.store t.size id
  .ok { t with size := t.size + 1 }

/-- The loop of `tidbag_filter` from an index on, with the number of elements left. -/
def filterLoop (predicate : TaskId → Bool) : Nat → Nat → TidbagArray → Except Fault TidbagArray
  | _, 0, t => .ok t
  | i, left + 1, t => do
      let task ← t.load i
      if predicate task then filterLoop predicate (i + 1) left t
      else do
        let t ← t.dropAt i
        filterLoop predicate i left t

def tidbagFilter (t : TidbagArray) (predicate : TaskId → Bool) : Except Fault TidbagArray :=
  filterLoop predicate 0 t.size t

def tidbagEquals (tbag1 tbag2 : TidbagArray) : Except Fault Bool :=
  if tbag2.size ≠ tbag1.size then .ok false
  else if tbag2.size = 0 ∧ tbag1.size = 0 then .ok true
  else tbag1.containsLoop tbag2 0 tbag2.size

inductive TidbagOp where
  | insert (id : TaskId)
  | remove (id : TaskId)
  | filter (predicate : TaskId → Bool)

def TidbagOp.exec : TidbagOp → TidbagArray → Except Fault TidbagArray
  | .insert id, t => tidbagInsert t id
  | .remove id, t => tidbagRemove t id
  | .filter predicate, t => tidbagFilter t predicate

def run : List TidbagOp → TidbagArray → Except Fault TidbagArray
  | [], t => .ok t
  | op :: ops, t => do
      let t ← op.exec t
      run ops t

def contents (t : TidbagArray) : List TaskId := t.words.take t.size

end Operations

variable {t a b : TidbagArray} {ids others front back : List TaskId} {id : TaskId}
  {ops : List TidbagOp}

section Steps

theorem contents_eq (stores : Stores t ids) : contents t = ids := by
  obtain ⟨rest, words, -⟩ := stores.block
  rw [contents, words, stores.size, List.take_left]

theorem tidbagRemove_stores (stores : Stores t ids) (id : TaskId) :
    ∃ t', tidbagRemove t id = .ok t' ∧ Stores t' (swapErase id ids) := by
  obtain ⟨t', removed, now⟩ := removeLoop_eq [] stores id
  rw [List.length_nil, ← stores.size] at removed
  refine ⟨t', ?_, now⟩
  rw [tidbagRemove, stores.checked, check_true, ok_bind, removed, ok_bind]

theorem filterLoop_stores (predicate : TaskId → Bool) (n : Nat) (front : List TaskId)
    (length : back.length = n) (stores : Stores t (front ++ back)) :
    ∃ t' ids', filterLoop predicate front.length n t = .ok t' ∧ Stores t' ids' := by
  induction n generalizing t front back with
  | zero => exact ⟨t, _, rfl, stores⟩
  | succ n ih =>
      obtain ⟨x, back, rfl⟩ := List.exists_cons_of_length_eq_add_one length
      rw [List.length_cons, Nat.add_right_cancel_iff] at length
      rw [filterLoop, stores.load, ok_bind]
      cases keep : predicate x with
      | true =>
          have later := ih (front ++ [x]) length (by simpa using stores)
          rwa [List.length_append, List.length_singleton] at later
      | false =>
          obtain ⟨t', dropped, now⟩ := stores.dropAt
          rw [if_neg Bool.false_ne_true, dropped, ok_bind]
          exact ih front (by rw [lastFirst_length, length]) now

theorem tidbagInsert_stores (stores : Stores t ids) (id : TaskId) :
    ∃ t', tidbagInsert t id = .ok t' ∧ Stores t' (ids ++ [id]) := by
  have room := stores.room
  -- the capacity that is asked for is never smaller than the size
  have same : (if t.capacity < t.size + 1 then tidbagExpand t (t.capacity * 2) else .ok t) =
      if t.capacity < t.size + 1 then t.expand (t.capacity * 2) else .ok t := by
    have large : ¬(t.tasks.isSome = true ∧
        (if t.capacity * 2 = 0 then initSize else t.capacity * 2) < t.size) := by
      rw [initSize]
      split <;> omega
    rw [tidbagExpand, if_neg large]
  obtain ⟨u, expanded, now, wide⟩ := grow_eq stores
  rw [← same] at expanded
  obtain ⟨t', stored, extended⟩ := now.extend wide id
  refine ⟨_, ?_, extended⟩
  rw [tidbagInsert, stores.checked, check_true, ok_bind]
  simp only [ok_bind]
  rw [branch_bind expanded, stored, ok_bind]

theorem exec_stores (op : TidbagOp) (stores : Stores t ids) :
    ∃ t' ids', op.exec t = .ok t' ∧ Stores t' ids' := by
  cases op with
  | insert id =>
      obtain ⟨t', done, now⟩ := tidbagInsert_stores stores id
      exact ⟨t', _, done, now⟩
  | remove id =>
      obtain ⟨t', done, now⟩ := tidbagRemove_stores stores id
      exact ⟨t', _, done, now⟩
  | filter predicate =>
      obtain ⟨t', ids', done, now⟩ := filterLoop_stores predicate ids.length [] rfl stores
      refine ⟨t', ids', ?_, now⟩
      rw [TidbagOp.exec, tidbagFilter, stores.size]
      exact done

theorem run_stores (ops : List TidbagOp) (stores : Stores t ids) :
    ∃ t' ids', run ops t = .ok t' ∧ Stores t' ids' := by
  induction ops generalizing t ids with
  | nil => exact ⟨t, ids, rfl, stores⟩
  | cons op ops ih =>
      obtain ⟨t', ids', done, now⟩ := exec_stores op stores
      rw [run, done, ok_bind]
      exact ih now

end Steps

section Equality

theorem tidbagEquals_eq (first : Stores a ids) (second : Stores b others) :
    ∃ found, tidbagEquals a b = .ok found ∧
      (found = true ↔ ids.length = others.length ∧ ∀ id ∈ others, id ∈ ids) := by
  rw [tidbagEquals, first.size, second.size]
  by_cases sizes : others.length = ids.length
  · rw [if_neg (not_not.mpr sizes)]
    by_cases empty : others.length = 0 ∧ ids.length = 0
    · rw [if_pos empty]
      refine ⟨true, rfl, fun _ => ⟨sizes.symm, ?_⟩, fun _ => rfl⟩
      intro id member
      rw [List.length_eq_zero_iff.mp empty.1] at member
      exact absurd member List.not_mem_nil
    · rw [if_neg empty]
      have loop := containsLoop_eq [] first second
      rw [List.length_nil] at loop
      refine ⟨_, loop, ?_⟩
      simp only [List.all_eq_true, decide_eq_true_iff]
      exact ⟨fun all => ⟨sizes.symm, all⟩, fun both => both.2⟩
  · rw [if_pos sizes]
    exact ⟨false, rfl, fun false => (Bool.false_ne_true false).elim,
      fun both => absurd both.1.symm sizes⟩

/-- Some id is in both bags, but more often in one of them. -/
def Uneven (ids others : List TaskId) : Prop :=
  ∃ id ∈ ids, id ∈ others ∧ ids.count id ≠ others.count id

def Lacks (ids others : List TaskId) : Prop := ∃ id ∈ others, id ∉ ids

/-- A bag of the same size with all ids of another one, each of these as often, is that bag. -/
theorem perm_of_covers (sizes : ids.length = others.length) (covers : ¬Lacks ids others)
    (even : ¬Uneven ids others) : ids.Perm others := by
  have inside : ∀ id ∈ others, id ∈ ids := by
    intro id member
    by_contra missing
    exact covers ⟨id, member, missing⟩
  have subperm : others.Subperm ids := by
    rw [List.subperm_ext_iff]
    intro id member
    by_contra fewer
    exact even ⟨id, inside id member, member, by omega⟩
  exact (subperm.perm_of_length_le sizes.le).symm

theorem uneven_comm : Uneven ids others ↔ Uneven others ids := by
  constructor
  · rintro ⟨id, first, second, differs⟩
    exact ⟨id, second, first, differs.symm⟩
  · rintro ⟨id, first, second, differs⟩
    exact ⟨id, second, first, differs.symm⟩

/-- What `tidbag_equals` tests. -/
def Covers (ids others : List TaskId) : Prop := ids.length = others.length ∧ ¬Lacks ids others

theorem covers_of_perm (perm : ids.Perm others) : Covers ids others := by
  refine ⟨perm.length_eq, ?_⟩
  rintro ⟨id, member, missing⟩
  exact missing (perm.mem_iff.mpr member)

theorem Covers.perm (covers : Covers ids others) (told : Uneven ids others →
    ids.length ≠ others.length ∨ Lacks ids others ∧ Lacks others ids) : ids.Perm others := by
  refine perm_of_covers covers.1 covers.2 fun uneven => ?_
  exact (told uneven).elim (fun differ => differ covers.1) fun both => covers.2 both.1

theorem covers_right_iff (ids others : List TaskId) :
    ((Covers ids others ↔ ∀ id, ids.count id = others.count id) ∧
        (Covers ids others ↔ Covers others ids)) ↔
      (Uneven ids others → ids.length ≠ others.length ∨ Lacks ids others ∧ Lacks others ids) := by
  constructor
  · rintro ⟨right, symmetric⟩ ⟨id, -, -, differs⟩
    by_contra passes
    obtain ⟨sizes, one⟩ := not_or.mp passes
    rw [not_not] at sizes
    rcases not_and_or.mp one with all | all
    · exact differs (right.mp ⟨sizes, all⟩ id)
    · exact differs (right.mp (symmetric.mpr ⟨sizes.symm, all⟩) id)
  · intro told
    -- a test that succeeds has nothing left but an uneven id to be wrong about
    have backward (covers : Covers others ids) : others.Perm ids := by
      apply covers.perm
      intro uneven
      exact (told (uneven_comm.mp uneven)).imp Ne.symm And.symm
    refine ⟨⟨fun covers id => (covers.perm told).count_eq id, fun equal => ?_⟩,
      fun covers => covers_of_perm (covers.perm told).symm,
      fun covers => covers_of_perm (backward covers).symm⟩
    exact covers_of_perm (List.perm_iff_count.mpr equal)

/-- `tidbag_equals` is symmetric and multiset equality for two bags if and only if each id that is
in both of them is so equally often, or the bags differ in size or in an id of each of them. -/
theorem equals_right_iff (ops ops' : List TidbagOp) (first : run ops tidbagInit = .ok a)
    (second : run ops' tidbagInit = .ok b) :
    ∃ found reversed, tidbagEquals a b = .ok found ∧ tidbagEquals b a = .ok reversed ∧
      ((found = true ↔ ∀ id, (contents a).count id = (contents b).count id) ∧ found = reversed ↔
        (Uneven (contents a) (contents b) → (contents a).length ≠ (contents b).length ∨
          Lacks (contents a) (contents b) ∧ Lacks (contents b) (contents a))) := by
  have start : Stores tidbagInit [] := stores_initCap initSize
  obtain ⟨a', ids, runs, stores⟩ := run_stores ops start
  obtain ⟨b', others, runs', stores'⟩ := run_stores ops' start
  rw [first] at runs
  rw [second] at runs'
  cases runs
  cases runs'
  obtain ⟨found, done, found_iff⟩ := tidbagEquals_eq stores stores'
  obtain ⟨reversed, done', reversed_iff⟩ := tidbagEquals_eq stores' stores
  rw [contents_eq stores, contents_eq stores']
  refine ⟨found, reversed, done, done', ?_⟩
  have covers {ids others : List TaskId} : (∀ id ∈ others, id ∈ ids) ↔ ¬Lacks ids others := by
    simp [Lacks]
  rw [covers] at found_iff reversed_iff
  have same : found = reversed ↔ (found = true ↔ reversed = true) := Bool.eq_iff_iff
  rw [same, found_iff, reversed_iff]
  exact covers_right_iff ids others

end Equality

theorem same_bag_right :
    ∃ found reversed, tidbagEquals ⟨4, 2, some [1, 2, 0, 0]⟩ ⟨4, 2, some [1, 2, 0, 0]⟩ = .ok found ∧
      tidbagEquals ⟨4, 2, some [1, 2, 0, 0]⟩ ⟨4, 2, some [1, 2, 0, 0]⟩ = .ok reversed ∧
      ((found = true ↔ ∀ id, (contents ⟨4, 2, some [1, 2, 0, 0]⟩).count id =
          (contents ⟨4, 2, some [1, 2, 0, 0]⟩).count id) ∧ found = reversed ↔
        (Uneven (contents ⟨4, 2, some [1, 2, 0, 0]⟩) (contents ⟨4, 2, some [1, 2, 0, 0]⟩) →
          (contents ⟨4, 2, some [1, 2, 0, 0]⟩).length ≠
              (contents ⟨4, 2, some [1, 2, 0, 0]⟩).length ∨
            Lacks (contents ⟨4, 2, some [1, 2, 0, 0]⟩) (contents ⟨4, 2, some [1, 2, 0, 0]⟩) ∧
              Lacks (contents ⟨4, 2, some [1, 2, 0, 0]⟩) (contents ⟨4, 2, some [1, 2, 0, 0]⟩))) :=
  equals_right_iff [.insert 1, .insert 2] [.insert 1, .insert 2] rfl rfl

/-- The bags with 1 and 2 and with 1 twice are equal, but not the other way round. -/
theorem duplicates_differ :
    ∃ a b, run [.insert 1, .insert 2] tidbagInit = .ok a ∧
      run [.insert 1, .insert 1] tidbagInit = .ok b ∧ tidbagEquals a b = .ok true ∧
      tidbagEquals b a = .ok false ∧ (contents a).count 2 ≠ (contents b).count 2 :=
  ⟨_, _, rfl, rfl, rfl, rfl, by decide⟩

end Lotto.Tidbag
