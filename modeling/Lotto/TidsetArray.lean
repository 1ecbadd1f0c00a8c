import Lotto.Base

namespace Lotto

structure TidsetArray where
  capacity : Nat
  size : Nat
  tasks : Option (List TaskId)
  deriving DecidableEq, Repr

namespace TidsetArray

/-- `TIDSET_INIT_SIZE`. -/
def initSize : Nat := 4

/-- `tidset_init_cap`. A word of a new block is written before it is read. -/
def initCap (cap : Nat) : TidsetArray :=
  { capacity := cap, size := 0, tasks := some (List.replicate cap noTask) }

def init : TidsetArray := initCap initSize

def fini : TidsetArray := { capacity := 0, size := 0, tasks := none }

def clear (t : TidsetArray) : TidsetArray := { t with size := 0 }

section Words

def words (t : TidsetArray) : List TaskId := t.tasks.getD []

def load (t : TidsetArray) (i : Nat) : Except Fault TaskId :=
  match t.words[i]? with
  | none => .error .tidsetTasks
  | some id => .ok id

def store (t : TidsetArray) (i : Nat) (id : TaskId) : Except Fault TidsetArray := do
  check (decide (i < t.words.length)) .tidsetTasks
  .ok { t with tasks := some (t.words.set i id) }

/-- `tasks[i] = tasks[--size]`. -/
def dropAt (t : TidsetArray) (i : Nat) : Except Fault TidsetArray := do
  let last ← t.load (t.size - 1)
  store { t with size := t.size - 1 } i last

end Words

section Elements

variable (t : TidsetArray)

/-- The loop of `tidset_has` from an index on, with the number of elements left. -/
def hasLoop (id : TaskId) : Nat → Nat → Except Fault Bool
  | _, 0 => .ok false
  | i, left + 1 => do
      let task ← t.load i
      if task = id then .ok true else hasLoop id (i + 1) left

def has (id : TaskId) : Except Fault Bool := t.hasLoop id 0 t.size

def get (idx : Nat) : Except Fault TaskId :=
  if t.size = 0 then .ok noTask
  else do
    check t.tasks.isSome .tidsetTasks
    if t.size ≤ idx then .ok noTask else t.load idx

/-- The loop of `tidset_set`, which looks for the element at another index. -/
def setLoop (idx : Nat) (id : TaskId) : Nat → Nat → TidsetArray → Except Fault TidsetArray
  | _, 0, t => .ok t
  | i, left + 1, t => do
      let task ← t.load i
      if task = id ∧ i ≠ idx then do
        let old ← t.load idx
        t.store i old
      else setLoop idx id (i + 1) left t

def set (idx : Nat) (id : TaskId) : Except Fault TidsetArray :=
  if t.size = 0 then .ok t
  else do
    check t.tasks.isSome .tidsetTasks
    check (id != noTask) .tidsetSetNoTask
    if t.size ≤ idx then .ok t
    else do
      let t ← setLoop idx id 0 t.size t
      t.store idx id

def removeLoop (id : TaskId) : Nat → Nat → TidsetArray → Except Fault (Bool × TidsetArray)
  | _, 0, t => .ok (false, t)
  | i, left + 1, t => do
      let task ← t.load i
      if task = id then do
        let t ← t.dropAt i
        .ok (true, t)
      else removeLoop id (i + 1) left t

def remove (id : TaskId) : Except Fault (Bool × TidsetArray) := do
  check (t.size == 0 || t.tasks.isSome) .tidsetTasks
  removeLoop id 0 t.size t

/-- `tidset_expand`; `memcpy` needs both blocks to be large enough. -/
def expand (cap : Nat) : Except Fault TidsetArray := do
  let cap := if cap = 0 then initSize else cap
  match t.tasks with
  | none => .ok (initCap cap)
  | some block => do
      check (decide (t.size ≤ cap ∧ t.size ≤ block.length)) .tidsetTasks
      .ok { t with
        capacity := cap
        tasks := some (block.take t.size ++ List.replicate (cap - t.size) noTask) }

def insert (id : TaskId) : Except Fault (Bool × TidsetArray) := do
  check (t.size == 0 || t.tasks.isSome) .tidsetTasks
  let found ← t.has id
  if found then .ok (false, t)
  else do
    let t ← if t.capacity < t.size + 1 then t.expand (t.capacity * 2) else .ok t
    let t ← t.store t.size id
    .ok (true, { t with size := t.size + 1 })

def copy (src : TidsetArray) : Except Fault TidsetArray := do
  let t ← if t.capacity < src.capacity then t.expand src.capacity else .ok t
  if src.size = 0 then .ok { t with size := 0 }
  else do
    check (decide (src.size ≤ src.words.length ∧ src.size ≤ t.words.length)) .tidsetTasks
    .ok { t with
      size := src.size, tasks := some (src.words.take src.size ++ t.words.drop src.size) }

structure Sorter where
  run : List TaskId → List TaskId
  perm : ∀ ids, (run ids).Perm ids

def sort (sorter : Sorter) : Except Fault TidsetArray :=
  if t.size = 0 then .ok t
  else do
    check (decide (t.size ≤ t.words.length)) .tidsetTasks
    .ok { t with tasks := some (sorter.run (t.words.take t.size) ++ t.words.drop t.size) }

def containsLoop (other : TidsetArray) : Nat → Nat → Except Fault Bool
  | _, 0 => .ok true
  | i, left + 1 => do
      let task ← other.load i
      let found ← t.has task
      if found then containsLoop other (i + 1) left else .ok false

def containsAll (other : TidsetArray) : Except Fault Bool :=
  if other.size = 0 then .ok true
  else if t.size = 0 then .ok false
  else t.containsLoop other 0 other.size

def equals (other : TidsetArray) : Except Fault Bool := do
  let forth ← t.containsAll other
  if forth then other.containsAll t else .ok false

def makeFirstLoop (id : TaskId) : Nat → Nat → TidsetArray → Except Fault TidsetArray
  | _, 0, _ => .error .tidsetNoElement
  | i, left + 1, t => do
      let task ← t.load i
      if task ≠ id then makeFirstLoop id (i + 1) left t
      else if i = 0 then .ok t
      else do
        let first ← t.load 0
        let t ← t.store i first
        t.store 0 id

def makeFirst (id : TaskId) : Except Fault TidsetArray := makeFirstLoop id 0 t.size t

end Elements

end TidsetArray

/-- The tidsets of a program, by name. Two arguments of an operation may be the same set. -/
abbrev TidsetStore := Nat → TidsetArray

namespace TidsetStore

open TidsetArray

/-- The loops that drop the elements that fail a test, from an index on. The test may read the set
that is being changed. -/
def sweepLoop (keep : TidsetStore → TaskId → Except Fault Bool) (a : Nat) :
    Nat → Nat → TidsetStore → Except Fault TidsetStore
  | _, 0, s => .ok s
  | i, left + 1, s => do
      let task ← (s a).load i
      let kept ← keep s task
      if kept then sweepLoop keep a (i + 1) left s
      else do
        let t ← (s a).dropAt i
        sweepLoop keep a i left (Function.update s a t)

def sweep (keep : TidsetStore → TaskId → Except Fault Bool) (a : Nat) (s : TidsetStore) :
    Except Fault TidsetStore := sweepLoop keep a 0 (s a).size s

def intersect (a b : Nat) (s : TidsetStore) : Except Fault TidsetStore :=
  sweep (fun s id => (s b).has id) a s

def subtract (a b : Nat) (s : TidsetStore) : Except Fault TidsetStore :=
  sweep (fun s id => (s b).has id >>= fun found => .ok !found) a s

def filter (keep : TaskId → Bool) (a : Nat) (s : TidsetStore) : Except Fault TidsetStore :=
  sweep (fun _ id => .ok (keep id)) a s

/-- Whether `tidmap_find` finds the task. The items of the map play no part. -/
def tidmapFind (keys : Map Unit) (id : TaskId) : Except Fault Bool := do
  check (id != noTask) .tidmapNoTask
  .ok (keys.lookup id).isSome

def retainAllKeys (keys : Map Unit) (a : Nat) (s : TidsetStore) : Except Fault TidsetStore :=
  sweep (fun _ id => tidmapFind keys id) a s

def removeAllKeys (keys : Map Unit) (a : Nat) (s : TidsetStore) : Except Fault TidsetStore :=
  if (s a).size = 0 then .ok s
  else sweep (fun _ id => tidmapFind keys id >>= fun found => .ok !found) a s

/-- The loop of `tidset_union`, which reads the size of the second set again for each element. -/
def unionLoop (a b : Nat) : Nat → Nat → TidsetStore → Except Fault TidsetStore
  | 0, _, _ => .error .tidsetFuel
  | fuel + 1, i, s =>
      if i < (s b).size then do
        let id ← (s b).get i
        let (_, t) ← (s a).insert id
        unionLoop a b fuel (i + 1) (Function.update s a t)
      else .ok s

def union (a b : Nat) (s : TidsetStore) : Except Fault TidsetStore :=
  unionLoop a b ((s b).size + 1) 0 s

end TidsetStore

inductive TidsetOp where
  | init (a : Nat)
  | initCap (a cap : Nat)
  | fini (a : Nat)
  | clear (a : Nat)
  | insert (a : Nat) (id : TaskId)
  | remove (a : Nat) (id : TaskId)
  | set (a idx : Nat) (id : TaskId)
  | copy (a b : Nat)
  | union (a b : Nat)
  | intersect (a b : Nat)
  | subtract (a b : Nat)
  | filter (a : Nat) (keep : TaskId → Bool)
  | retainAllKeys (a : Nat) (keys : Map Unit)
  | removeAllKeys (a : Nat) (keys : Map Unit)
  | makeFirst (a : Nat) (id : TaskId)
  | sort (a : Nat) (sorter : TidsetArray.Sorter)
  | has (a : Nat) (id : TaskId)
  | get (a idx : Nat)
  | size (a : Nat)
  | equals (a b : Nat)
  | containsAll (a b : Nat)

def TidsetOp.target : TidsetOp → Nat
  | .init a | .initCap a _ | .fini a | .clear a | .insert a _ | .remove a _ | .set a _ _ | .copy a _
  | .union a _ | .intersect a _ | .subtract a _ | .filter a _ | .retainAllKeys a _
  | .removeAllKeys a _ | .makeFirst a _ | .sort a _ | .has a _ | .get a _ | .size a | .equals a _
  | .containsAll a _ => a

inductive TidsetOutput where
  | void
  | flag (value : Bool)
  | task (id : TaskId)
  | count (value : Nat)
  deriving DecidableEq, Repr

namespace TidsetStore

def change (s : TidsetStore) (a : Nat) (result : Except Fault TidsetArray) :
    Except Fault (TidsetOutput × TidsetStore) := do
  let t ← result
  .ok (.void, Function.update s a t)

def changeFlag (s : TidsetStore) (a : Nat) (result : Except Fault (Bool × TidsetArray)) :
    Except Fault (TidsetOutput × TidsetStore) := do
  let (changed, t) ← result
  .ok (.flag changed, Function.update s a t)

def replace (result : Except Fault TidsetStore) : Except Fault (TidsetOutput × TidsetStore) := do
  let s ← result
  .ok (.void, s)

def ask (s : TidsetStore) (result : Except Fault Bool) : Except Fault (TidsetOutput × TidsetStore) := do
  let value ← result
  .ok (.flag value, s)

def exec (op : TidsetOp) (s : TidsetStore) : Except Fault (TidsetOutput × TidsetStore) :=
  match op with
  | .init a => s.change a (.ok TidsetArray.init)
  | .initCap a cap => s.change a (.ok (TidsetArray.initCap cap))
  | .fini a => s.change a (.ok TidsetArray.fini)
  | .clear a => s.change a (.ok (s a).clear)
  | .insert a id => s.changeFlag a ((s a).insert id)
  | .remove a id => s.changeFlag a ((s a).remove id)
  | .set a idx id => s.change a ((s a).set idx id)
  | .copy a b => s.change a ((s a).copy (s b))
  | .union a b => replace (union a b s)
  | .intersect a b => replace (intersect a b s)
  | .subtract a b => replace (subtract a b s)
  | .filter a keep => replace (filter keep a s)
  | .retainAllKeys a keys => replace (retainAllKeys keys a s)
  | .removeAllKeys a keys => replace (removeAllKeys keys a s)
  | .makeFirst a id => s.change a ((s a).makeFirst id)
  | .sort a sorter => s.change a ((s a).sort sorter)
  | .has a id => s.ask ((s a).has id)
  | .get a idx => do
      let id ← (s a).get idx
      .ok (.task id, s)
  | .size a => .ok (.count (s a).size, s)
  | .equals a b => s.ask ((s a).equals (s b))
  | .containsAll a b => s.ask ((s a).containsAll (s b))

end TidsetStore

end Lotto
