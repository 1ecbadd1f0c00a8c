import Lotto.Library.Comparator
import Lotto.Library.KeyMap
import Lotto.Library.Preference
import Lotto.Base
import Lotto.Sequencer

namespace Lotto

open Library.FaultRun Library.KeyMap Library.Preference

abbrev Tidmap (α : Type) := Map α

variable {α G : Type}

def tidmapFind (map : Tidmap α) (id : TaskId) : Except Fault (Option α) := do
  check (id != noTask) .tidmapNoTask
  .ok (map.lookup id)

def tidmapRegister (map : Tidmap α) (id : TaskId) (item : α) : Except Fault (Tidmap α) := do
  check (id != noTask) .tidmapNoTask
  check (map.lookup id).isNone .mapRegistered
  .ok (map.insert id item)

def tidmapDeregister (map : Tidmap α) (id : TaskId) : Except Fault (Tidmap α) := do
  check (id != noTask) .tidmapNoTask
  .ok (map.erase id)

def tidmapSize (map : Tidmap α) : Nat := map.entries.length

/-- The items of finished tasks are taken out, `fresh` makes the items of new ones. -/
def taskLifecycle (fresh : G → α × G) (cp : CapturePoint) (e : Decision) (map : Tidmap α) (g : G) :
    Except Fault (Tidmap α × G) :=
  if cp.typeId = eventTaskFini then do
    let map ← tidmapDeregister map cp.id
    check (!e.tset.has cp.id) .taskMapFini
    .ok (map, g)
  else if cp.typeId = eventTaskInit then do
    let known ← tidmapFind map cp.id
    check known.isNone .taskMapRegistered
    let (item, g) := fresh g
    let map ← tidmapRegister map cp.id item
    .ok (map, g)
  else .ok (map, g)

inductive Lived (fresh : G → α × G) (cp : CapturePoint) (map : Tidmap α) (g : G) :
    Tidmap α → G → Prop
  | fini (isFini : cp.typeId = eventTaskFini) : Lived fresh cp map g (map.erase cp.id) g
  | init (isInit : cp.typeId = eventTaskInit) (unknown : map.lookup cp.id = none) :
      Lived fresh cp map g (map.insert cp.id (fresh g).1) (fresh g).2
  | other (notFini : cp.typeId ≠ eventTaskFini) (notInit : cp.typeId ≠ eventTaskInit) :
      Lived fresh cp map g map g

theorem taskLifecycle_cases {fresh : G → α × G} {cp : CapturePoint} {e : Decision}
    {map map' : Tidmap α} {g g' : G} (lived : taskLifecycle fresh cp e map g = .ok (map', g')) :
    Lived fresh cp map g map' g' := by
  unfold taskLifecycle at lived
  split_ifs at lived with isFini isInit
  · obtain ⟨_, gone, lived⟩ := bind_eq_ok.mp lived
    obtain ⟨_, _, gone⟩ := bind_eq_ok.mp gone
    obtain ⟨_, _, lived⟩ := bind_eq_ok.mp lived
    cases gone
    cases lived
    exact .fini isFini
  · obtain ⟨known, found, lived⟩ := bind_eq_ok.mp lived
    obtain ⟨_, _, found⟩ := bind_eq_ok.mp found
    obtain ⟨_, unknown, lived⟩ := bind_eq_ok.mp lived
    obtain ⟨_, added, lived⟩ := bind_eq_ok.mp lived
    obtain ⟨_, _, added⟩ := bind_eq_ok.mp added
    obtain ⟨_, _, added⟩ := bind_eq_ok.mp added
    cases found
    cases added
    cases lived
    rw [check_ok_iff, Option.isNone_iff_eq_none] at unknown
    exact .init isInit unknown
  · cases lived
    exact .other isFini isInit

structure LifeReady (cp : CapturePoint) (e : Decision) (map : Tidmap α) : Prop where
  task : cp.id ≠ noTask
  fini : cp.typeId = eventTaskFini → cp.id ∉ e.tset
  init : cp.typeId = eventTaskInit → map.lookup cp.id = none

theorem taskLifecycle_ok (fresh : G → α × G) {cp : CapturePoint} {e : Decision} {map : Tidmap α}
    (ready : LifeReady cp e map) (g : G) :
    ∃ map' g', taskLifecycle fresh cp e map g = .ok (map', g') := by
  have task : (cp.id != noTask) = true := by simpa using ready.task
  unfold taskLifecycle
  split_ifs with isFini isInit
  · have apart : e.tset.has cp.id = false := by simpa using ready.fini isFini
    simp [tidmapDeregister, task, apart]
  · simp [tidmapFind, tidmapRegister, task, ready.init isInit]
  · exact ⟨map, g, rfl⟩

theorem Lived.lookup_ne {fresh : G → α × G} {cp : CapturePoint} {map map' : Tidmap α} {g g' : G}
    (lived : Lived fresh cp map g map' g') {id : TaskId} (other : id ≠ cp.id) :
    map'.lookup id = map.lookup id := by
  cases lived with
  | fini => exact AList.lookup_erase_ne other
  | init => exact AList.lookup_insert_ne other
  | other => rfl

section Order

/-- `_pct_cmp` and `_pos_cmp`: higher priorities first, then lower ids. -/
def priorityCmp (priority : TaskId → UInt64) (a b : TaskId) : Int :=
  if priority a < priority b then 1
  else if priority b < priority a then -1
  else if b < a then 1
  else if a < b then -1
  else 0

def Precedes (priority : TaskId → UInt64) (a b : TaskId) : Prop := priorityCmp priority a b ≤ 0

instance instDecidablePrecedes (rank : TaskId → UInt64) : DecidableRel (Precedes rank) :=
  fun a b => inferInstanceAs (Decidable (priorityCmp rank a b ≤ 0))

variable {priority priority' : TaskId → UInt64} {a b c : TaskId}

theorem precedes_iff :
    Precedes priority a b ↔ priority b < priority a ∨ priority a = priority b ∧ a ≤ b := by
  unfold Precedes priorityCmp
  simp only [UInt64.lt_iff_toNat_lt, UInt64.le_iff_toNat_le, ← UInt64.toNat_inj]
  split_ifs <;> omega

instance : Std.Total (Precedes priority) where
  total a b := by
    simp only [precedes_iff, UInt64.lt_iff_toNat_lt, UInt64.le_iff_toNat_le, ← UInt64.toNat_inj]
    omega

instance : IsTrans TaskId (Precedes priority) where
  trans a b c := by
    simp only [precedes_iff, UInt64.lt_iff_toNat_lt, UInt64.le_iff_toNat_le, ← UInt64.toNat_inj]
    omega

instance : Std.Antisymm (Precedes priority) where
  antisymm a b := by
    simp only [precedes_iff, UInt64.lt_iff_toNat_lt, UInt64.le_iff_toNat_le, ← UInt64.toNat_inj]
    omega

theorem Precedes.congr (before : Precedes priority a b) (left : priority' a = priority a)
    (right : priority' b = priority b) : Precedes priority' a b := by
  rw [precedes_iff, left, right]
  exact precedes_iff.mp before

end Order

/-- `tidset_sort`. -/
def Tidset.sort (before : TaskId → TaskId → Prop) [DecidableRel before] (s : Tidset) : Tidset :=
  ⟨s.tasks.insertionSort before,
    (List.perm_insertionSort before s.tasks).nodup_iff.mpr s.nodup⟩

theorem Tidset.mem_sort {before : TaskId → TaskId → Prop} [DecidableRel before] {s : Tidset}
    {id : TaskId} : id ∈ s.sort before ↔ id ∈ s :=
  (List.perm_insertionSort before s.tasks).mem_iff

def priorityIn (priority : α → UInt64) (map : Tidmap α) (id : TaskId) : UInt64 :=
  ((map.lookup id).map priority).getD 0

/-- `_pct_sort` and `_pos_sort`: of two or more tasks, the comparison looks up each one. -/
def prioritySort (priority : α → UInt64) (map : Tidmap α) (tset : Tidset) : Except Fault Tidset := do
  check (!tset.has noTask) .tidmapNoTask
  check (tset.tasks.all fun id => (map.lookup id).isSome) .taskMapUnknown
  .ok (tset.sort (Precedes (priorityIn priority map)))

theorem prioritySort_ok {priority : α → UInt64} {map : Tidmap α} {tset tset' : Tidset}
    (sorted : prioritySort priority map tset = .ok tset') :
    (∀ id ∈ tset, (map.lookup id).isSome) ∧
      tset' = tset.sort (Precedes (priorityIn priority map)) := by
  obtain ⟨_, _, sorted⟩ := bind_eq_ok.mp sorted
  obtain ⟨_, known, sorted⟩ := bind_eq_ok.mp sorted
  cases sorted
  rw [check_ok_iff, List.all_eq_true] at known
  exact ⟨known, rfl⟩

theorem prioritySort_eq {priority : α → UInt64} {map : Tidmap α} {tset : Tidset}
    (tasks : noTask ∉ tset) (known : ∀ id ∈ tset, (map.lookup id).isSome) :
    prioritySort priority map tset = .ok (tset.sort (Precedes (priorityIn priority map))) := by
  have none : tset.has noTask = false := by simpa using tasks
  have all : (tset.tasks.all fun id => (map.lookup id).isSome) = true :=
    List.all_eq_true.mpr known
  rw [prioritySort, none, all]
  rfl

theorem Tidset.best_sort (priority : TaskId → UInt64) {s : Tidset} (some : 0 < s.size) :
    Best (Precedes priority) s.tasks ((s.sort (Precedes priority)).get 0) :=
  best_head (List.ne_nil_of_length_pos some) noTask

def strategyDecides (enabled : Bool) (strategy name : String) (e : Decision) : Bool :=
  enabled && strategy == name && e.selector == .undefined && !e.readonly &&
    decide (1 < e.tset.size) && e.isChpt

def chooseFirst (e : Decision) (tset : Tidset) : Decision :=
  { e with tset, selector := .first, readonly := true, reason := .deterministic }

def choiceAt (id : TaskId) (typeId : TypeId) (addr : UInt64) (tset : Tidset) : CapturePoint × Decision :=
  (plainPoint id typeId addr, { plainDecision tset with isChpt := true })

def twoTasks (typeId : TypeId) (addr : UInt64) : List (CapturePoint × Decision) :=
  [choiceAt 1 eventTaskInit addr (Tidset.empty.insert 1), choiceAt 2 eventTaskInit addr bothTasks,
    choiceAt 1 typeId addr bothTasks, choiceAt 2 typeId addr bothTasks]

end Lotto
