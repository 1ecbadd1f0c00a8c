import Mathlib.Data.Finset.Basic
import Mathlib.Data.Finset.Card
import Lotto.TidsetSpecs

namespace Lotto

def TidsetArray.ids (t : TidsetArray) : List TaskId := t.words.take t.size

def TidsetArray.members (t : TidsetArray) : Finset TaskId := t.ids.toFinset

namespace TidsetRun

open Library.FaultRun Library.SwapList TidsetArray TidsetSpecs

/-- No task is stored twice, and the elements lie in the block of `capacity` words. -/
structure WellFormed (t : TidsetArray) : Prop where
  nodup : t.ids.Nodup
  size : t.ids.length = t.size
  room : t.size ≤ t.capacity
  block : t.words.length = t.capacity

def Aborts (op : TidsetOp) (s : TidsetStore) : Prop :=
  match op with
  | .set a _ id => (s a).size ≠ 0 ∧ id = noTask
  | .retainAllKeys a _ | .removeAllKeys a _ => noTask ∈ (s a).members
  | .makeFirst a id => id ∉ (s a).members
  | _ => False

/-- What an operation does to its set, and what it returns. -/
def Effect (op : TidsetOp) (s s' : TidsetStore) (out : TidsetOutput) : Prop :=
  match op with
  | .init a | .initCap a _ | .fini a | .clear a => (s' a).members = ∅ ∧ out = .void
  | .insert a id =>
      (s' a).members = insert id (s a).members ∧ out = .flag (decide (id ∉ (s a).members))
  | .remove a id =>
      (s' a).members = (s a).members.erase id ∧ out = .flag (decide (id ∈ (s a).members))
  | .set a idx id =>
      out = .void ∧
      if idx < (s a).size then
        (s' a).ids = swapIn idx id (s a).ids ∧ (s' a).ids[idx]? = some id ∧
        (s' a).members = if id ∈ (s a).members then (s a).members
          else insert id ((s a).members.erase ((s a).ids.getD idx noTask))
      else s' a = s a
  | .copy a b => (s' a).ids = (s b).ids ∧ out = .void
  | .union a b => (s' a).members = (s a).members ∪ (s b).members ∧ out = .void
  | .intersect a b => (s' a).members = (s a).members ∩ (s b).members ∧ out = .void
  | .subtract a b => (s' a).members = (s a).members \ (s b).members ∧ out = .void
  | .filter a keep => (s' a).members = (s a).members.filter (fun id => keep id = true) ∧ out = .void
  | .retainAllKeys a keys =>
      (s' a).members = (s a).members.filter (fun id => id ∈ keys) ∧ out = .void
  | .removeAllKeys a keys =>
      (s' a).members = (s a).members.filter (fun id => id ∉ keys) ∧ out = .void
  | .makeFirst a id => (s' a).ids.Perm (s a).ids ∧ (s' a).ids.head? = some id ∧ out = .void
  | .sort a _ => (s' a).ids.Perm (s a).ids ∧ out = .void
  | .has a id => s' = s ∧ out = .flag (decide (id ∈ (s a).members))
  | .get a idx => s' = s ∧ out = .task ((s a).ids.getD idx noTask)
  | .size a => s' = s ∧ out = .count (s a).members.card
  | .equals a b => s' = s ∧ out = .flag (decide ((s a).members = (s b).members))
  | .containsAll a b => s' = s ∧ out = .flag (decide ((s b).members ⊆ (s a).members))

def Inv (s : TidsetStore) : Prop := ∀ a, ∃ set : Tidset, Stores (s a) set.tasks

/-- The operation succeeds with its effect, changes no other set and keeps the invariant. -/
def Outcome (op : TidsetOp) (s : TidsetStore) : Prop :=
  ∃ out s', TidsetStore.exec op s = .ok (out, s') ∧ Effect op s s' out ∧
    (∀ c, c ≠ op.target → s' c = s c) ∧ Inv s'

section Sets

variable {t : TidsetArray} {list : List TaskId} {set : Tidset} {s : TidsetStore} {a : Nat}

theorem ids_eq (stores : Stores t list) : t.ids = list := by
  obtain ⟨rest, words, -⟩ := stores.block
  rw [TidsetArray.ids, words, stores.size, List.take_left]

theorem members_eq (stores : Stores t list) : t.members = list.toFinset := by
  rw [TidsetArray.members, ids_eq stores]

theorem mem_members (stores : Stores t set.tasks) {id : TaskId} : id ∈ t.members ↔ id ∈ set := by
  rw [members_eq stores, List.mem_toFinset, Tidset.mem_def]

theorem stores_wellFormed (stores : Stores t set.tasks) : WellFormed t := by
  obtain ⟨rest, words, capacity⟩ := stores.block
  have ids := ids_eq stores
  refine ⟨?_, ?_, stores.room, ?_⟩
  · rw [ids]
    exact set.nodup
  · rw [ids, stores.size]
  · rw [words, capacity]

theorem members_ext {M : Finset TaskId} (stores : Stores t set.tasks)
    (same : ∀ id, id ∈ set ↔ id ∈ M) : t.members = M := by
  ext id
  rw [mem_members stores, same]

theorem Inv.update (inv : Inv s) (stores : Stores t set.tasks) : Inv (Function.update s a t) := by
  intro c
  by_cases here : c = a
  · subst here
    exact ⟨set, by rw [Function.update_self]; exact stores⟩
  · rw [Function.update_of_ne here]
    exact inv c

theorem Inv.outcome {op : TidsetOp} (inv : Inv s) (a : Nat) (set : Tidset) (out : TidsetOutput)
    (target : op.target = a) (runs : TidsetStore.exec op s = .ok (out, Function.update s a t)) (stores : Stores t set.tasks)
    (effect : Effect op s (Function.update s a t) out) : Outcome op s := by
  refine ⟨out, _, runs, effect, ?_, inv.update stores⟩
  intro c other
  exact Function.update_of_ne (target ▸ other) t s

theorem Inv.query {op : TidsetOp} (inv : Inv s) (out : TidsetOutput)
    (runs : TidsetStore.exec op s = .ok (out, s)) (effect : Effect op s s out) : Outcome op s :=
  ⟨out, s, runs, effect, fun _ _ => rfl, inv⟩

end Sets

section Lists

variable {ids : List TaskId} {idx : Nat} {id : TaskId}

theorem swapIn_perm (inside : idx < ids.length) (member : id ∈ ids) : (swapIn idx id ids).Perm ids := by
  have room := List.idxOf_lt_length_of_mem member
  rw [swapIn, List.getD_eq_getElem _ _ inside]
  have exchanged := List.set_set_perm room inside
  rw [List.getElem_idxOf room] at exchanged
  exact exchanged

theorem swapIn_absent (absent : id ∉ ids) : swapIn idx id ids = ids.set idx id := by
  rw [swapIn, List.idxOf_eq_length absent, List.set_eq_of_length_le (Nat.le_refl _)]

theorem swapIn_get (inside : idx < ids.length) : (swapIn idx id ids)[idx]? = some id := by
  rw [swapIn, List.getElem?_set_self (by rw [List.length_set]; exact inside)]

theorem mem_set_iff (nodup : ids.Nodup) (inside : idx < ids.length) (absent : id ∉ ids) (x : TaskId) :
    x ∈ ids.set idx id ↔ x = id ∨ x ≠ ids[idx] ∧ x ∈ ids := by
  constructor
  · intro member
    obtain ⟨j, bound, rfl⟩ := List.mem_iff_getElem.mp member
    rw [List.length_set] at bound
    rw [List.getElem_set]
    by_cases here : idx = j
    · rw [if_pos here]
      exact .inl rfl
    · rw [if_neg here]
      right
      refine ⟨?_, List.getElem_mem bound⟩
      intro same
      exact here ((nodup.getElem_inj_iff).mp same).symm
  · rintro (rfl | ⟨other, member⟩)
    · exact List.mem_set inside x
    · obtain ⟨j, bound, rfl⟩ := List.mem_iff_getElem.mp member
      have apart : idx ≠ j := by
        intro same
        subst same
        exact other rfl
      rw [List.mem_iff_getElem]
      exact ⟨j, by rw [List.length_set]; exact bound, by rw [List.getElem_set_ne apart]⟩

theorem swapIn_nodup (nodup : ids.Nodup) (inside : idx < ids.length) : (swapIn idx id ids).Nodup := by
  by_cases member : id ∈ ids
  · exact (swapIn_perm inside member).nodup_iff.mpr nodup
  · rw [swapIn_absent member]
    exact nodup.set member

end Lists

section Operations

variable {s : TidsetStore} {a b : Nat} {id : TaskId}

theorem members_update {t : TidsetArray} {list : List TaskId} (stores : Stores t list) :
    (Function.update s a t a).members = list.toFinset := by
  rw [Function.update_self, members_eq stores]

theorem ids_update {t : TidsetArray} {list : List TaskId} (stores : Stores t list) :
    (Function.update s a t a).ids = list := by
  rw [Function.update_self, ids_eq stores]

theorem emptied (inv : Inv s) {op : TidsetOp} {t : TidsetArray} (target : op.target = a)
    (runs : TidsetStore.exec op s = .ok (.void, Function.update s a t)) (stores : Stores t [])
    (effect : (Function.update s a t a).members = ∅ → Effect op s (Function.update s a t) .void) :
    Outcome op s := by
  apply inv.outcome a Tidset.empty .void target runs stores
  apply effect
  rw [members_update stores]
  rfl

theorem insert_outcome (inv : Inv s) : Outcome (.insert a id) s := by
  obtain ⟨set, stores⟩ := inv a
  obtain ⟨t, inserted, now⟩ := insert_eq stores id
  refine inv.outcome a (set.insert id) (.flag (decide (id ∉ set))) rfl ?_ now ⟨?_, ?_⟩
  · rw [TidsetStore.exec, TidsetStore.changeFlag, inserted]
    rfl
  · rw [Function.update_self]
    apply members_ext now
    intro x
    rw [Tidset.mem_insert, Finset.mem_insert, mem_members stores]
    exact Or.comm
  · simp only [mem_members stores]

theorem remove_outcome (inv : Inv s) : Outcome (.remove a id) s := by
  obtain ⟨set, stores⟩ := inv a
  obtain ⟨t, removed, now⟩ := remove_eq stores id
  refine inv.outcome a (set.remove id) (.flag (decide (id ∈ set))) rfl ?_ now ⟨?_, ?_⟩
  · rw [TidsetStore.exec, TidsetStore.changeFlag, removed]
    rfl
  · rw [Function.update_self]
    apply members_ext now
    intro x
    rw [Tidset.mem_remove, Finset.mem_erase, mem_members stores]
  · simp only [mem_members stores]

theorem copy_outcome (inv : Inv s) : Outcome (.copy a b) s := by
  obtain ⟨set, stores⟩ := inv a
  obtain ⟨other, held⟩ := inv b
  obtain ⟨t, copied, now⟩ := copy_eq stores held
  refine inv.outcome a other .void rfl ?_ now ⟨?_, rfl⟩
  · rw [TidsetStore.exec, TidsetStore.change, copied]
    rfl
  · rw [ids_update now, ids_eq held]

theorem sort_outcome (inv : Inv s) (sorter : Sorter) : Outcome (.sort a sorter) s := by
  obtain ⟨set, stores⟩ := inv a
  obtain ⟨t, sorted, done, now, perm⟩ := sort_eq stores sorter
  refine inv.outcome a ⟨sorted, perm.nodup_iff.mpr set.nodup⟩ .void rfl ?_ now ⟨?_, rfl⟩
  · rw [TidsetStore.exec, TidsetStore.change, done]
    rfl
  · rw [ids_update now, ids_eq stores]
    exact perm

theorem makeFirst_outcome (inv : Inv s) (member : id ∈ (s a).members) :
    Outcome (.makeFirst a id) s := by
  obtain ⟨set, stores⟩ := inv a
  rw [mem_members stores] at member
  have inside : 0 < set.tasks.length := List.length_pos_of_mem member
  obtain ⟨t, made, now⟩ :=
    makeFirstLoop_eq [] (List.nil_append set.tasks) stores List.not_mem_nil member
  have perm := swapIn_perm inside member
  refine inv.outcome a ⟨_, perm.nodup_iff.mpr set.nodup⟩ .void rfl ?_ now ⟨?_, ?_, rfl⟩
  · rw [TidsetStore.exec, TidsetStore.change, TidsetArray.makeFirst, stores.size]
    rw [show makeFirstLoop id 0 set.tasks.length (s a) = .ok t from made]
    rfl
  · rw [ids_update now, ids_eq stores]
    exact perm
  · rw [ids_update now, List.head?_eq_getElem?]
    exact swapIn_get inside

theorem set_outcome (inv : Inv s) {idx : Nat} (valid : (s a).size ≠ 0 → id ≠ noTask) :
    Outcome (.set a idx id) s := by
  obtain ⟨set, stores⟩ := inv a
  have size := stores.size
  by_cases inside : idx < set.tasks.length
  · obtain ⟨t, done, now⟩ := set_eq set.nodup stores inside (valid (by omega))
    refine inv.outcome a ⟨_, swapIn_nodup set.nodup inside⟩ .void rfl ?_ now ⟨rfl, ?_⟩
    · rw [TidsetStore.exec, TidsetStore.change, done]
      rfl
    · rw [size, if_pos inside, ids_update now, ids_eq stores]
      refine ⟨rfl, swapIn_get inside, ?_⟩
      rw [members_update now, members_eq stores]
      by_cases member : id ∈ set.tasks
      · rw [if_pos (List.mem_toFinset.mpr member)]
        exact List.toFinset_eq_of_perm _ _ (swapIn_perm inside member)
      · rw [if_neg (List.mem_toFinset.not.mpr member)]
        ext x
        rw [List.mem_toFinset, swapIn_absent member, mem_set_iff set.nodup inside member,
          Finset.mem_insert, Finset.mem_erase, List.mem_toFinset, List.getD_eq_getElem _ _ inside]
  · have kept : (s a).set idx id = .ok (s a) := by
      by_cases none : set.tasks.length = 0
      · rw [TidsetArray.set, size, if_pos none]
      · have filled : set.tasks ≠ [] := List.length_eq_zero_iff.not.mp none
        have given : (id != noTask) = true := by simpa using valid (size ▸ none)
        simp only [TidsetArray.set, size, if_neg none, stores.isBlock filled, given, check_true, ok_bind,
          if_pos (Nat.not_lt.mp inside)]
    refine inv.outcome a set .void rfl ?_ stores ⟨rfl, ?_⟩
    · rw [TidsetStore.exec, TidsetStore.change, kept]
      rfl
    · rw [size, if_neg inside, Function.update_self]

theorem sweep_outcome (inv : Inv s) (a : Nat) {op : TidsetOp} {test : TaskId → Bool}
    {keep : TidsetStore → TaskId → Except Fault Bool} {set : Tidset} (target : op.target = a)
    (stores : Stores (s a) set.tasks) (agrees : Agrees keep test s a set.tasks)
    (runs : TidsetStore.exec op s = TidsetStore.replace (TidsetStore.sweep keep a s))
    (effect : ∀ s', (s' a).members = (s a).members.filter (fun id => test id = true) →
      Effect op s s' .void) : Outcome op s := by
  obtain ⟨t, swept, now⟩ := sweep_eq stores agrees
  have filtered : Stores t (set.filter test).tasks := now
  refine inv.outcome a (set.filter test) .void target ?_ filtered (effect _ ?_)
  · rw [runs, swept]
    rfl
  · rw [Function.update_self]
    apply members_ext filtered
    intro x
    rw [Tidset.mem_filter, Finset.mem_filter, mem_members stores]

theorem agrees_self (keep : TaskId → Bool) (ids : List TaskId) :
    Agrees (fun _ x => .ok (keep x)) keep s a ids := by
  intro s' kept _ _ _ x _
  rfl

theorem tidmapFind_eq {keys : Map Unit} (valid : id ≠ noTask) :
    TidsetStore.tidmapFind keys id = .ok (keys.lookup id).isSome := by
  have given : (id != noTask) = true := by simpa using valid
  rw [TidsetStore.tidmapFind, given, check_true, ok_bind]

theorem tidmapFind_noTask (keys : Map Unit) :
    TidsetStore.tidmapFind keys noTask = .error .tidmapNoTask := rfl

theorem has_agrees {set other : Tidset} (stores : Stores (s a) set.tasks)
    (held : Stores (s b) other.tasks) :
    Agrees (fun s x => (s b).has x) (fun x => decide (x ∈ other)) s a set.tasks := by
  intro s' kept others now subset x member
  change (s' b).has x = .ok (decide (x ∈ other))
  by_cases same : b = a
  · subst same
    have inside : x ∈ other := by
      rw [← mem_members held, mem_members stores]
      exact subset member
    rw [has_eq now, decide_eq_true member, decide_eq_true inside]
  · rw [others b same, has_eq held]
    rfl

theorem agrees_not {keep : TidsetStore → TaskId → Except Fault Bool} {test : TaskId → Bool}
    {ids : List TaskId} (agrees : Agrees keep test s a ids) :
    Agrees (fun s x => keep s x >>= fun found => .ok !found) (fun x => !test x) s a ids := by
  intro s' kept others now subset x member
  change (keep s' x >>= fun found => .ok !found) = _
  rw [agrees s' kept others now subset x member, ok_bind]

theorem agrees_keys {keys : Map Unit} {ids : List TaskId} (tasks : noTask ∉ ids) :
    Agrees (fun _ x => TidsetStore.tidmapFind keys x) (fun x => (keys.lookup x).isSome) s a ids := by
  intro s' kept _ _ subset x member
  apply tidmapFind_eq
  rintro rfl
  exact tasks (subset member)

theorem union_outcome (inv : Inv s) : Outcome (.union a b) s := by
  obtain ⟨set, stores⟩ := inv a
  obtain ⟨other, held⟩ := inv b
  have alias_ : a = b → set = other := by
    rintro rfl
    apply Tidset.ext
    rw [← ids_eq stores, ids_eq held]
  obtain ⟨t, joined, now⟩ := unionLoop_eq ((s b).size + 1) 0 stores held alias_ (Nat.zero_le _)
    (by rw [held.size]; omega) (fun _ _ => rfl)
  have members : ∀ (ids : List TaskId) (x : TaskId) (start : Tidset),
      x ∈ ids.foldl Tidset.insert start ↔ x ∈ start ∨ x ∈ ids := by
    intro ids x
    induction ids with
    | nil => simp
    | cons id ids ih =>
        intro start
        rw [List.foldl_cons, ih, Tidset.mem_insert, List.mem_cons, or_assoc]
  refine inv.outcome a _ .void rfl ?_ now ⟨?_, rfl⟩
  · rw [TidsetStore.exec, TidsetStore.union, joined]
    rfl
  · rw [Function.update_self]
    apply members_ext now
    intro x
    rw [List.drop_zero, members, Finset.mem_union, mem_members stores, mem_members held,
      Tidset.mem_def (s := other)]

theorem exec_outcome (inv : Inv s) (op : TidsetOp) (fine : ¬ Aborts op s) : Outcome op s := by
  cases op with
  | init a => exact emptied inv rfl rfl (stores_initCap initSize) fun none => ⟨none, rfl⟩
  | initCap a cap => exact emptied inv rfl rfl (stores_initCap cap) fun none => ⟨none, rfl⟩
  | fini a =>
      have stores : Stores TidsetArray.fini [] := ⟨rfl, [], rfl, rfl⟩
      exact emptied inv rfl rfl stores fun none => ⟨none, rfl⟩
  | clear a =>
      obtain ⟨set, stores⟩ := inv a
      have cleared : Stores (s a).clear [] := (show Stores (s a) ([] ++ set.tasks) from stores).shrink
      exact emptied inv rfl rfl cleared fun none => ⟨none, rfl⟩
  | insert a id => exact insert_outcome inv
  | remove a id => exact remove_outcome inv
  | set a idx id => exact set_outcome inv fun some none => fine ⟨some, none⟩
  | copy a b => exact copy_outcome inv
  | union a b => exact union_outcome inv
  | intersect a b =>
      obtain ⟨set, stores⟩ := inv a
      obtain ⟨other, held⟩ := inv b
      refine sweep_outcome inv a rfl stores (has_agrees stores held) rfl ?_
      intro s' members
      refine ⟨?_, rfl⟩
      ext x
      rw [members, Finset.mem_filter, Finset.mem_inter, mem_members held, decide_eq_true_iff]
  | subtract a b =>
      obtain ⟨set, stores⟩ := inv a
      obtain ⟨other, held⟩ := inv b
      refine sweep_outcome inv a rfl stores (agrees_not (has_agrees stores held)) rfl ?_
      intro s' members
      refine ⟨?_, rfl⟩
      ext x
      rw [members, Finset.mem_filter, Finset.mem_sdiff, mem_members held, Bool.not_eq_true',
        decide_eq_false_iff_not]
  | filter a keep =>
      obtain ⟨set, stores⟩ := inv a
      exact sweep_outcome inv a rfl stores (agrees_self keep set.tasks) rfl fun s' members =>
        ⟨members, rfl⟩
  | retainAllKeys a keys =>
      obtain ⟨set, stores⟩ := inv a
      have tasks : noTask ∉ set.tasks := fun member => fine ((mem_members stores).mpr member)
      refine sweep_outcome inv a rfl stores (agrees_keys tasks) rfl ?_
      intro s' members
      refine ⟨?_, rfl⟩
      ext x
      rw [members, Finset.mem_filter, Finset.mem_filter, AList.lookup_isSome]
  | removeAllKeys a keys =>
      obtain ⟨set, stores⟩ := inv a
      have tasks : noTask ∉ set.tasks := fun member => fine ((mem_members stores).mpr member)
      have runs : TidsetStore.exec (.removeAllKeys a keys) s = TidsetStore.replace (TidsetStore.sweep
          (fun _ id => TidsetStore.tidmapFind keys id >>= fun found => .ok !found) a s) := by
        rw [TidsetStore.exec, TidsetStore.removeAllKeys]
        by_cases none : (s a).size = 0
        · rw [if_pos none, TidsetStore.sweep, none]
          rfl
        · rw [if_neg none]
      refine sweep_outcome inv a rfl stores (agrees_not (agrees_keys tasks)) runs ?_
      intro s' members
      refine ⟨?_, rfl⟩
      ext x
      rw [members, Finset.mem_filter, Finset.mem_filter, Bool.not_eq_true', ← Bool.not_eq_true,
        AList.lookup_isSome]
  | makeFirst a id => exact makeFirst_outcome inv (not_not.mp fine)
  | sort a sorter => exact sort_outcome inv sorter
  | has a id =>
      obtain ⟨set, stores⟩ := inv a
      refine inv.query (.flag (decide (id ∈ set))) ?_ ⟨rfl, ?_⟩
      · rw [TidsetStore.exec, TidsetStore.ask, has_eq stores]
        rfl
      · simp only [mem_members stores]
  | get a idx =>
      obtain ⟨set, stores⟩ := inv a
      refine inv.query (.task (set.tasks.getD idx noTask)) ?_ ⟨rfl, ?_⟩
      · rw [TidsetStore.exec, get_eq stores]
        rfl
      · rw [ids_eq stores]
  | size a =>
      obtain ⟨set, stores⟩ := inv a
      refine inv.query (.count (s a).size) rfl ⟨rfl, ?_⟩
      rw [members_eq stores, List.toFinset_card_of_nodup set.nodup, stores.size]
  | equals a b =>
      obtain ⟨set, stores⟩ := inv a
      obtain ⟨other, held⟩ := inv b
      refine inv.query (.flag (decide (set.tasks.toFinset = other.tasks.toFinset))) ?_ ⟨rfl, ?_⟩
      · rw [TidsetStore.exec, TidsetStore.ask, equals_eq stores held]
        rfl
      · rw [members_eq stores, members_eq held]
  | containsAll a b =>
      obtain ⟨set, stores⟩ := inv a
      obtain ⟨other, held⟩ := inv b
      refine inv.query (.flag (other.tasks.all fun x => decide (x ∈ set.tasks))) ?_ ⟨rfl, ?_⟩
      · rw [TidsetStore.exec, TidsetStore.ask, containsAll_eq stores held]
        rfl
      · rw [members_eq stores, members_eq held]
        congr 1
        rw [Bool.eq_iff_iff, List.all_eq_true, decide_eq_true_iff, Finset.subset_iff]
        simp only [List.mem_toFinset, decide_eq_true_iff]

theorem exec_aborts (inv : Inv s) (op : TidsetOp) (aborts : Aborts op s) :
    ∃ fault, TidsetStore.exec op s = .error fault := by
  cases op with
  | set a idx id =>
      obtain ⟨some, rfl⟩ := aborts
      obtain ⟨set, stores⟩ := inv a
      have filled : set.tasks ≠ [] := by
        intro none
        rw [stores.size, none] at some
        exact some rfl
      refine ⟨.tidsetSetNoTask, ?_⟩
      rw [TidsetStore.exec, TidsetStore.change]
      simp only [TidsetArray.set, if_neg some, stores.isBlock filled, check_true, ok_bind]
      rfl
  | retainAllKeys a keys =>
      obtain ⟨set, stores⟩ := inv a
      have member : noTask ∈ set.tasks := (mem_members stores).mp aborts
      have fails := sweepLoop_fails (a := a) (TidsetStore.tidmapFind keys) [] (tidmapFind_noTask keys)
        (fun x valid => ⟨_, tidmapFind_eq valid⟩) set.tasks.length stores member rfl
      refine ⟨.tidmapNoTask, ?_⟩
      rw [TidsetStore.exec, TidsetStore.retainAllKeys, TidsetStore.sweep, stores.size]
      rw [show TidsetStore.sweepLoop _ a 0 set.tasks.length s = _ from fails]
      rfl
  | removeAllKeys a keys =>
      obtain ⟨set, stores⟩ := inv a
      have member : noTask ∈ set.tasks := (mem_members stores).mp aborts
      have some : (s a).size ≠ 0 := by
        rw [stores.size]
        exact Nat.ne_of_gt (List.length_pos_of_mem member)
      have fails := sweepLoop_fails (a := a)
        (fun x => TidsetStore.tidmapFind keys x >>= fun found => .ok !found) []
        (show (TidsetStore.tidmapFind keys noTask >>= fun found => .ok !found) =
          .error Fault.tidmapNoTask from rfl) (fun x valid => ⟨_, by rw [tidmapFind_eq valid]; rfl⟩) set.tasks.length stores member rfl
      refine ⟨.tidmapNoTask, ?_⟩
      rw [TidsetStore.exec, TidsetStore.removeAllKeys, if_neg some, TidsetStore.sweep, stores.size]
      rw [show TidsetStore.sweepLoop _ a 0 set.tasks.length s = _ from fails]
      rfl
  | makeFirst a id =>
      obtain ⟨set, stores⟩ := inv a
      have missing : id ∉ set.tasks := fun member => aborts ((mem_members stores).mpr member)
      refine ⟨.tidsetNoElement, ?_⟩
      rw [TidsetStore.exec, TidsetStore.change, TidsetArray.makeFirst, stores.size]
      rw [show makeFirstLoop id 0 set.tasks.length (s a) = _ from
        makeFirstLoop_missing [] stores missing]
      rfl
  | _ => exact aborts.elim

end Operations

section Run

/-- The states of the tidsets after any operations; before them no tidset has a block. -/
inductive Reachable : TidsetStore → Prop
  | start : Reachable fun _ => TidsetArray.fini
  | step {s s' : TidsetStore} {op : TidsetOp} {out : TidsetOutput} (reached : Reachable s)
      (stepped : TidsetStore.exec op s = .ok (out, s')) : Reachable s'

theorem Reachable.inv {s : TidsetStore} (reached : Reachable s) : Inv s := by
  induction reached with
  | start => exact fun _ => ⟨Tidset.empty, rfl, [], rfl, rfl⟩
  | @step s s' op out _ stepped inv =>
      by_cases aborts : Aborts op s
      · obtain ⟨fault, failed⟩ := exec_aborts inv op aborts
        cases failed.symm.trans stepped
      · obtain ⟨out', after, runs, -, -, now⟩ := exec_outcome inv op aborts
        cases runs.symm.trans stepped
        exact now

/-- After any operations every tidset stores a finite set within its capacity, and every operation has
the effect of the one on finite sets unless one of its assertions forbids it. -/
theorem tidset_is_finite_set (s : TidsetStore) (reached : Reachable s) :
    (∀ a, WellFormed (s a)) ∧ ∀ op,
      (¬ Aborts op s → ∃ out s', TidsetStore.exec op s = .ok (out, s') ∧ Effect op s s' out ∧
        ∀ c, c ≠ op.target → s' c = s c) ∧
      (Aborts op s → ∃ fault, TidsetStore.exec op s = .error fault) := by
  have inv := reached.inv
  constructor
  · intro a
    obtain ⟨set, stores⟩ := inv a
    exact stores_wellFormed stores
  · intro op
    refine ⟨?_, exec_aborts inv op⟩
    intro fine
    obtain ⟨out, s', runs, effect, others, -⟩ := exec_outcome inv op fine
    exact ⟨out, s', runs, effect, others⟩

theorem tidset_inserted : ∃ s, Reachable s ∧ (s 0).ids = [1, 2] ∧ WellFormed (s 0) ∧
    ∃ out s', TidsetStore.exec (.subtract 0 0) s = .ok (out, s') ∧
      (s' 0).members = (s 0).members \ (s 0).members := by
  have first := @Reachable.step _ _ (.insert 0 1) (.flag true) .start rfl
  have filled := @Reachable.step _ _ (.insert 0 2) (.flag true) first rfl
  obtain ⟨formed, run⟩ := tidset_is_finite_set _ filled
  obtain ⟨out, s', runs, effect, -⟩ := (run (.subtract 0 0)).1 id
  exact ⟨_, filled, rfl, formed 0, out, s', runs, effect.1⟩

end Run

end TidsetRun

end Lotto
