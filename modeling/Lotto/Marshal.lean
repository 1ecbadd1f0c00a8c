import Mathlib.Data.Finset.Basic
import Lotto.Library.ByteCodec
import Lotto.Base

namespace Lotto.Marshal

open Library.ByteCodec

section Memory

/-- The blocks that are allocated, and how often memory was allocated so far. -/
structure Memory where
  live : Finset UInt64
  allocations : Nat

/-- `malloc`: an address that is neither `NULL` nor in use, unless there is no memory left. -/
structure Allocator where
  pick : Nat → Finset UInt64 → Option UInt64
  fresh : ∀ n live p, pick n live = some p → p ∉ live ∧ p ≠ 0

def counting : Allocator where
  pick n live :=
    if .ofNat (4096 + n) ∈ live ∨ UInt64.ofNat (4096 + n) = 0 then none else some (.ofNat (4096 + n))
  fresh := by
    intro n live p picked
    split at picked
    · cases picked
    · rename_i free
      cases picked
      exact not_or.mp free

def malloc (a : Allocator) (h : Memory) : Except Fault (UInt64 × Memory) :=
  match a.pick h.allocations h.live with
  | none => .error .outOfMemory
  | some p => .ok (p, { live := insert p h.live, allocations := h.allocations + 1 })

def free (p : UInt64) (h : Memory) : Except Fault Memory :=
  if p = 0 then .ok h
  else do
    check (decide (p ∈ h.live)) .freeDead
    .ok { h with live := h.live.erase p }

def realloc (a : Allocator) (p : UInt64) (h : Memory) : Except Fault (UInt64 × Memory) := do
  let h ← free p h
  malloc a h

def copyBytes (n : Nat) (buf : List UInt8) : Except Fault (List UInt8) := do
  check (decide (n ≤ buf.length)) .bufferCut
  .ok (buf.take n)

def readWord (buf : List UInt8) : Except Fault (UInt64 × List UInt8) :=
  match takeLE 8 buf with
  | none => .error .bufferCut
  | some (n, rest) => .ok (.ofNat n, rest)

def readWords : Nat → List UInt8 → Except Fault (List UInt64 × List UInt8)
  | 0, buf => .ok ([], buf)
  | n + 1, buf => do
      let (word, buf) ← readWord buf
      let (words, buf) ← readWords n buf
      .ok (word :: words, buf)

def wordBytes (word : UInt64) : List UInt8 := bytesLE 8 word.toNat

def wordsBytes (words : List UInt64) : List UInt8 := words.flatMap wordBytes

end Memory

section Objects

/-- `marshable_t` without its payload: the addresses of the functions, the size of the struct and the
address of the next struct of the chain. -/
structure Header where
  unmarshal : UInt64
  marshal : UInt64
  size : UInt64
  print : UInt64
  allocSize : UInt64
  next : UInt64
  deriving DecidableEq, Repr

/-- `offsetof(marshable_t, payload)`. -/
def headerSize : Nat := 48

def Header.bytes (m : Header) : List UInt8 :=
  wordsBytes [m.unmarshal, m.marshal, m.size, m.print, m.allocSize, m.next]

structure StaticObject where
  m : Header
  payload : List UInt8
  deriving DecidableEq, Repr

structure TaskBlock where
  m : Header
  capacity : UInt64
  size : UInt64
  tasks : UInt64
  words : List UInt64
  deriving DecidableEq, Repr

def taskBlockSize : Nat := 72

structure MapItem where
  address : UInt64
  m : Header
  next : UInt64
  key : UInt64
  data : List UInt8
  deriving DecidableEq, Repr

/-- `sizeof(mapitem_t)`. -/
def mapItemSize : Nat := 64

structure MapObject where
  m : Header
  mi : Header
  nitems : Nat
  items : List MapItem
  deriving DecidableEq, Repr

/-- `sizeof(map_t)`. -/
def mapSize : Nat := 112

def tailOf : List MapItem → UInt64
  | [] => 0
  | item :: _ => item.address

structure VecObject where
  m : Header
  mi : Header
  cnt : Nat
  cap : Nat
  items : UInt64
  elements : List StaticObject
  deriving DecidableEq, Repr

inductive Object where
  | static (s : StaticObject)
  | tidset (t : TaskBlock)
  | tidbag (t : TaskBlock)
  | map (t : MapObject)
  | vec (t : VecObject)
  deriving DecidableEq, Repr

end Objects

section Size

def tidsetMsize (t : TaskBlock) : Nat := taskBlockSize - headerSize + 8 * t.size.toNat

def tidbagMsize (t : TaskBlock) : Nat := taskBlockSize + 8 * t.size.toNat

/-- `_size` of `map.c`; the items are static structs. -/
def mapMsize (t : MapObject) : Nat := mapSize + (t.items.map fun item => item.m.allocSize.toNat).sum

def vecMsize (t : VecObject) : Nat := 8 + (t.elements.map fun item => item.m.allocSize.toNat).sum

def Object.msize : Object → Nat
  | .static s => s.m.allocSize.toNat
  | .tidset t => tidsetMsize t
  | .tidbag t => tidbagMsize t
  | .map t => mapMsize t
  | .vec t => vecMsize t

end Size

section Marshal

/-- `marshable_static_marshal`, which copies the whole struct. -/
def staticMarshal (s : StaticObject) : List UInt8 := s.m.bytes ++ s.payload

def tidsetMarshal (t : TaskBlock) : List UInt8 :=
  wordsBytes [t.capacity, t.size, t.tasks] ++ wordsBytes (t.words.take t.size.toNat)

def tidbagMarshal (t : TaskBlock) : List UInt8 :=
  t.m.bytes ++ wordsBytes [t.capacity, t.size, t.tasks] ++ wordsBytes (t.words.take t.size.toNat)

def mapItemMarshal (item : MapItem) : List UInt8 :=
  item.m.bytes ++ (wordsBytes [item.next, item.key] ++ item.data)

def mapMarshal (t : MapObject) : List UInt8 :=
  t.m.bytes ++ t.mi.bytes ++ wordBytes (tailOf t.items) ++ bytesLE 8 t.nitems ++
    t.items.flatMap mapItemMarshal

def vecMarshal (t : VecObject) : List UInt8 := bytesLE 8 t.cnt ++ t.elements.flatMap staticMarshal

def Object.marshal : Object → List UInt8
  | .static s => staticMarshal s
  | .tidset t => tidsetMarshal t
  | .tidbag t => tidbagMarshal t
  | .map t => mapMarshal t
  | .vec t => vecMarshal t

end Marshal

section Unmarshal

variable (a : Allocator)

/-- `marshable_static_unmarshal`: the payload, and the buffer behind the struct. -/
def staticUnmarshal (m : Header) (buf : List UInt8) : Except Fault (List UInt8 × List UInt8) := do
  let payload ← copyBytes (m.allocSize.toNat - headerSize) (buf.drop headerSize)
  .ok (payload, buf.drop m.allocSize.toNat)

def tidsetRoom (t : TaskBlock) (capacity size : UInt64) (h : Memory) :
    Except Fault (TaskBlock × Memory) :=
  if t.capacity < capacity then do
    let h ← free t.tasks h
    let (p, h) ← malloc a h
    .ok ({ t with capacity, size, tasks := p, words := List.replicate capacity.toNat 0 }, h)
  else .ok ({ t with size }, h)

def tidsetUnmarshal (t : TaskBlock) (buf : List UInt8) (h : Memory) :
    Except Fault (TaskBlock × List UInt8 × Memory) := do
  let len := t.m.allocSize.toNat - headerSize
  let payload ← copyBytes (len - 8) buf
  let (capacity, payload) ← readWord payload
  let (size, _) ← readWord payload
  check (decide (size ≤ capacity)) .unmarshalCapacity
  let (t, h) ← tidsetRoom a t capacity size h
  let (tasks, buf) ← readWords size.toNat (buf.drop len)
  check (decide (size = 0 ∨ t.tasks ∈ h.live)) .useDead
  .ok ({ t with words := tasks ++ t.words.drop size.toNat }, buf, h)

def tidbagUnmarshal (t : TaskBlock) (buf : List UInt8) (h : Memory) :
    Except Fault (TaskBlock × List UInt8 × Memory) := do
  let payload ← copyBytes (t.m.allocSize.toNat - headerSize) (buf.drop headerSize)
  let (capacity, payload) ← readWord payload
  let (size, payload) ← readWord payload
  let (tasks, _) ← readWord payload
  check (decide (size ≤ capacity)) .unmarshalCapacity
  let h ← free tasks h
  let (p, h) ← malloc a h
  let (words, buf) ← readWords size.toNat (buf.drop t.m.allocSize.toNat)
  .ok ({ t with
    capacity, size, tasks := p
    words := words ++ List.replicate (capacity.toNat - size.toNat) 0 }, buf, h)

def mapClear : List MapItem → Memory → Except Fault Memory
  | [], h => .ok h
  | item :: items, h => do
      let h ← free item.address h
      mapClear items h

/-- The loop of `_unmarshal` of `map.c`, with the items registered so far. -/
def mapLoop (mi : Header) :
    Nat → List MapItem → List UInt8 → Memory → Except Fault (List MapItem × List UInt8 × Memory)
  | 0, items, buf, h => .ok (items, buf, h)
  | n + 1, items, buf, h => do
      let (key, _) ← readWord (buf.drop (headerSize + 8))
      check (items.all fun item => item.key != key) .mapRegistered
      let (p, h) ← malloc a h
      let (payload, buf) ← staticUnmarshal mi buf
      let (_, payload) ← readWord payload
      let (key, data) ← readWord payload
      mapLoop mi n ({ address := p, m := mi, next := tailOf items, key, data } :: items) buf h

/-- `_unmarshal` of `map.c`; the `tail` that it reads is overwritten. -/
def mapUnmarshal (t : MapObject) (buf : List UInt8) (h : Memory) :
    Except Fault (MapObject × List UInt8 × Memory) := do
  let h ← mapClear t.items h
  let payload ← copyBytes (mapSize - 2 * headerSize) (buf.drop (2 * headerSize))
  let (_, payload) ← readWord payload
  let (nitems, _) ← readWord payload
  let (items, buf, h) ← mapLoop a t.mi nitems.toNat [] (buf.drop mapSize) h
  .ok ({ t with nitems := items.length, items }, buf, h)

def vecRoom (t : VecObject) (h : Memory) : Except Fault (VecObject × Memory) :=
  if t.cap ≤ t.cnt then do
    let (p, h) ← realloc a t.items h
    .ok ({ t with cap := if t.cap = 0 then 8 else t.cap * 2, items := p }, h)
  else .ok (t, h)

def vecLoop : Nat → VecObject → List UInt8 → Memory → Except Fault (VecObject × List UInt8 × Memory)
  | 0, t, buf, h => .ok (t, buf, h)
  | n + 1, t, buf, h => do
      let (t, h) ← vecRoom a t h
      let (payload, buf) ← staticUnmarshal t.mi buf
      vecLoop n { t with cnt := t.cnt + 1, elements := t.elements ++ [{ m := t.mi, payload }] } buf h

/-- `_unmarshal` of `vec.c`, which starts with `vec_clear`. -/
def vecUnmarshal (t : VecObject) (buf : List UInt8) (h : Memory) :
    Except Fault (VecObject × List UInt8 × Memory) := do
  let h ← free t.items h
  let (cnt, buf) ← readWord buf
  let (t, buf, h) ← vecLoop a cnt.toNat { t with cnt := 0, cap := 0, items := 0, elements := [] } buf h
  check (t.cnt == cnt.toNat) .unmarshalCount
  .ok (t, buf, h)

def Object.unmarshal (o : Object) (buf : List UInt8) (h : Memory) :
    Except Fault (Object × List UInt8 × Memory) :=
  match o with
  | .static s => do
      let (payload, buf) ← staticUnmarshal s.m buf
      .ok (.static { s with payload }, buf, h)
  | .tidset t => do
      let (t, buf, h) ← tidsetUnmarshal a t buf h
      .ok (.tidset t, buf, h)
  | .tidbag t => do
      let (t, buf, h) ← tidbagUnmarshal a t buf h
      .ok (.tidbag t, buf, h)
  | .map t => do
      let (t, buf, h) ← mapUnmarshal a t buf h
      .ok (.map t, buf, h)
  | .vec t => do
      let (t, buf, h) ← vecUnmarshal a t buf h
      .ok (.vec t, buf, h)

end Unmarshal

section Chain

def marshableSize (chain : List Object) : Nat := (chain.map Object.msize).sum

def marshableMarshal (chain : List Object) : List UInt8 := chain.flatMap Object.marshal

def marshableUnmarshal (a : Allocator) :
    List Object → List UInt8 → Memory → Except Fault (List Object × List UInt8 × Memory)
  | [], buf, h => .ok ([], buf, h)
  | o :: next, buf, h => do
      let (o, buf, h) ← o.unmarshal a buf h
      let (next, buf, h) ← marshableUnmarshal a next buf h
      .ok (o :: next, buf, h)

end Chain

section Content

/-- A static struct that a map or a vec with items of this type may hold. -/
def StaticObject.Valid (s : StaticObject) : Prop :=
  headerSize + s.payload.length = s.m.allocSize.toNat

/-- The block has room for `capacity` tasks, and `size` of them are in use. -/
structure TaskBlock.Valid (t : TaskBlock) : Prop where
  struct : t.m.allocSize.toNat = taskBlockSize
  block : t.words.length = t.capacity.toNat
  room : t.size ≤ t.capacity
  pointer : t.capacity ≠ 0 → t.tasks ≠ 0

structure MapObject.Valid (t : MapObject) : Prop where
  struct : mapItemSize ≤ t.mi.allocSize.toNat
  alone : t.mi.next = 0
  typed : ∀ item ∈ t.items, item.m = t.mi
  whole : ∀ item ∈ t.items, mapItemSize + item.data.length = t.mi.allocSize.toNat
  keys : (t.items.map (·.key)).Nodup
  count : t.nitems = t.items.length
  bound : t.nitems < 2 ^ 64
  pointers : ∀ item ∈ t.items, item.address ≠ 0

structure VecObject.Valid (t : VecObject) : Prop where
  struct : headerSize ≤ t.mi.allocSize.toNat
  alone : t.mi.next = 0
  typed : ∀ item ∈ t.elements, item.m = t.mi
  whole : ∀ item ∈ t.elements, item.Valid
  count : t.cnt = t.elements.length
  bound : t.cnt < 2 ^ 64
  room : t.cnt ≤ t.cap

/-- The objects that the functions of the containers build. -/
def Object.Valid : Object → Prop
  | .static s => s.Valid
  | .tidset t => t.Valid
  | .tidbag t => t.Valid
  | .map t => t.Valid
  | .vec t => t.Valid

/-- Two objects of one type; static structs have the same size then. -/
def Object.SameType : Object → Object → Prop
  | .static s, .static t => s.m.allocSize = t.m.allocSize
  | .tidset _, .tidset _ => True
  | .tidbag _, .tidbag _ => True
  | .map s, .map t => s.mi.allocSize = t.mi.allocSize
  | .vec s, .vec t => s.mi.allocSize = t.mi.allocSize
  | _, _ => False

def TaskBlock.content (t : TaskBlock) : List TaskId := t.words.take t.size.toNat

def MapObject.find (t : MapObject) (key : UInt64) : Option (List UInt8) :=
  (t.items.find? fun item => item.key == key).map (·.data)

def Object.Restores : Object → Object → Prop
  | .static s, .static t => t.payload = s.payload
  | .tidset s, .tidset t => t.content = s.content ∧ t.Valid
  | .tidbag s, .tidbag t => t.content = s.content ∧ t.Valid
  | .map s, .map t => t.nitems = s.nitems ∧ t.nitems = t.items.length ∧ t.find = s.find
  | .vec s, .vec t =>
      t.elements.map (·.payload) = s.elements.map (·.payload) ∧ t.cnt = s.cnt ∧ t.cnt ≤ t.cap
  | _, _ => False

end Content

end Lotto.Marshal
