import Lotto.Marshal

namespace Lotto.AddressBdd

open Marshal

/-- A node by its pointer. The two pointers that stand for terminals are never those of an inner
node, which comes from `malloc` and keeps its own address and that of its parent. -/
inductive Node where
  | terminal (value : Bool)
  | inner (address parent : UInt64) (zero one : Node)
  deriving DecidableEq, Repr

def Node.same : Node → Node → Bool
  | .terminal v, .terminal w => v == w
  | .inner p _ _ _, .inner q _ _ _ => p == q
  | _, _ => false

/-- `struct address_bdd_s`. -/
structure Bdd where
  root : Node
  maxDepth : Nat
  sizeUnit : UInt64
  deriving DecidableEq, Repr

def leadingOne : UInt64 := (1 : UInt64) <<< (63 : UInt64)

/-- `~(uintptr_t)0`. -/
def lastAddress : UInt64 := ~~~0

section Set

def nodeSplit (a : Allocator) (parent : UInt64) (value : Node) (h : Memory) :
    Except Fault (Node × Memory) := do
  let (p, h) ← malloc a h
  .ok (.inner p parent value value, h)

def nodeOpen (a : Allocator) (parent : UInt64) (node : Node) (h : Memory) :
    Except Fault (Node × Memory) :=
  match node with
  | .terminal _ => nodeSplit a parent node h
  | .inner _ _ _ _ => .ok (node, h)

def freeNode : Node → Memory → Except Fault Memory
  | .terminal _, h => .ok h
  | .inner address _ zero one, h => do
      let h ← freeNode one h
      let h ← freeNode zero h
      free address h

def nodeMerge (address parent : UInt64) (zero one : Node) (h : Memory) : Except Fault (Node × Memory) :=
  if zero.same one then do
    let h ← freeNode (.inner address parent zero one) h
    .ok (zero, h)
  else .ok (.inner address parent zero one, h)

/-- `_address_bdd_set_range`, which returns what it leaves at `node_ptr`. -/
def setRange (a : Allocator) (addrStart addrEnd : UInt64) (value : Bool) :
    Nat → UInt64 → Node → UInt64 → UInt64 → UInt64 → Memory → Except Fault (Node × Memory)
  | 0, _, _, _, _, _, _ => .error .bddFuel
  | fuel + 1, parent, node, currentStart, currentEnd, currentBit, h =>
      if addrStart > currentEnd || addrEnd < currentStart || node.same (.terminal value) then
        .ok (node, h)
      else if addrStart ≤ currentStart && addrEnd ≥ currentEnd then do
        let h ← freeNode node h
        .ok (.terminal value, h)
      else do
        let (node, h) ← nodeOpen a parent node h
        match node with
        | .terminal _ => .error .bddLeaf
        | .inner address link zero one => do
            let (zero, h) ← setRange a addrStart addrEnd value fuel address zero currentStart
              (currentEnd ^^^ currentBit) (currentBit >>> 1) h
            let (one, h) ← setRange a addrStart addrEnd value fuel address one
              (currentStart ^^^ currentBit) currentEnd (currentBit >>> 1) h
            nodeMerge address link zero one h

def floorAddress (addr unit : UInt64) : UInt64 := addr &&& ~~~(unit - 1)

def ceilAddress (addr unit : UInt64) : UInt64 := floorAddress addr unit + unit - 1

/-- `_address_bdd_set`; the address space has 64 levels. -/
def Bdd.setValue (a : Allocator) (bdd : Bdd) (addr size : UInt64) (value : Bool) (h : Memory) :
    Except Fault (Bdd × Memory) :=
  if size = 0 then .ok (bdd, h)
  else do
    let (root, h) ← setRange a (floorAddress addr bdd.sizeUnit)
      (ceilAddress (addr + size - 1) bdd.sizeUnit) value 65 0 bdd.root 0 lastAddress leadingOne h
    .ok ({ bdd with root }, h)

def Bdd.set (a : Allocator) (bdd : Bdd) (addr size : UInt64) (h : Memory) :
    Except Fault (Bdd × Memory) := bdd.setValue a addr size true h

def Bdd.unset (a : Allocator) (bdd : Bdd) (addr size : UInt64) (h : Memory) :
    Except Fault (Bdd × Memory) := bdd.setValue a addr size false h

/-- `address_bdd_new`. -/
def Bdd.new (maxDepth : Nat) : Except Fault Bdd := do
  check (decide (maxDepth ≤ 64)) .bddDepth
  .ok { root := .terminal false, maxDepth, sizeUnit := (1 : UInt64) <<< UInt64.ofNat (64 - maxDepth) }

end Set

section Get

/-- `_address_bdd_check_range`. -/
def checkRange (addrStart addrEnd : UInt64) (value : Bool) :
    Node → UInt64 → UInt64 → UInt64 → Bool
  | .terminal v, currentStart, currentEnd, _ =>
      addrStart > currentEnd || addrEnd < currentStart || v == value
  | .inner _ _ zero one, currentStart, currentEnd, currentBit =>
      addrStart > currentEnd || addrEnd < currentStart ||
        (checkRange addrStart addrEnd value zero currentStart (currentEnd ^^^ currentBit)
            (currentBit >>> 1) &&
          checkRange addrStart addrEnd value one (currentStart ^^^ currentBit) currentEnd
            (currentBit >>> 1))

def Bdd.getAnd (bdd : Bdd) (addr size : UInt64) : Bool :=
  checkRange addr (addr + size - 1) true bdd.root 0 lastAddress leadingOne

def Bdd.getOr (bdd : Bdd) (addr size : UInt64) : Bool :=
  !checkRange addr (addr + size - 1) false bdd.root 0 lastAddress leadingOne

/-- `_get_masked`. -/
def maskedNode (addr mask : UInt64) : Node → UInt64 → UInt64
  | .terminal true, _ => addr
  | .terminal false, _ => 0
  | .inner _ _ zero one, currentBit =>
      if currentBit &&& mask ≠ 0 then
        if currentBit &&& addr ≠ 0 then maskedNode addr mask one (currentBit >>> 1)
        else maskedNode addr mask zero (currentBit >>> 1)
      else
        let result := maskedNode addr mask one (currentBit >>> 1)
        if result ≠ 0 then result ||| currentBit
        else maskedNode addr mask zero (currentBit >>> 1) &&& ~~~currentBit

def Bdd.getMasked (bdd : Bdd) (addr mask : UInt64) : UInt64 := maskedNode addr mask bdd.root leadingOne

end Get

section Iterate

/-- `struct address_bdd_iterator_s`. -/
structure Iterator where
  node : Node
  parentNode : UInt64
  currentBit : UInt64
  offset : UInt64
  base : UInt64
  deriving DecidableEq, Repr

def findTrueSubNode (parent : UInt64) : Node → UInt64 → UInt64 → Iterator → Bool × Iterator
  | .terminal true, currentBit, base, _ =>
      (true, {
        node := .terminal true, parentNode := parent, currentBit
        offset := if base = 0 then 1 else 0, base })
  | .terminal false, _, _, it => (false, it)
  | .inner address _ zero one, currentBit, base, it =>
      let currentBit := if currentBit ≠ 0 then currentBit >>> 1 else leadingOne
      let (found, it) := findTrueSubNode address zero currentBit base it
      if found then (true, it)
      else findTrueSubNode address one currentBit (base ||| currentBit) it

/-- `address_bdd_iterator`. -/
def Bdd.iterator (bdd : Bdd) : Iterator :=
  let it : Iterator := { node := bdd.root, parentNode := 0, currentBit := 0, offset := 0, base := 0 }
  let (found, it) := findTrueSubNode it.parentNode it.node it.currentBit it.base it
  if found then it else { it with offset := lastAddress }

def Node.at (address : UInt64) : Node → Option Node
  | .terminal _ => none
  | .inner p parent zero one =>
      if p = address then some (.inner p parent zero one)
      else (zero.at address).or (one.at address)

def findNextTrueNode (root : Node) : Nat → Iterator → Except Fault (Bool × Iterator)
  | 0, _ => .error .bddFuel
  | fuel + 1, it =>
      if it.parentNode = 0 then .ok (false, it)
      else
        match root.at it.parentNode with
        | some (.inner address parent zero one) =>
            if it.base &&& it.currentBit ≠ 0 then
              findNextTrueNode root fuel { it with
                base := it.base ^^^ it.currentBit
                currentBit := it.currentBit <<< 1
                node := .inner address parent zero one
                parentNode := parent }
            else
              let it := { it with base := it.base ^^^ it.currentBit, node := one }
              let (found, it) := findTrueSubNode it.parentNode it.node it.currentBit it.base it
              if found then .ok (true, it) else findNextTrueNode root fuel it
        | _ => .error .bddNull

/-- `address_bdd_iterator_next`; a leaf is at most 64 levels deep, and each level is left once. -/
def iteratorNext (root : Node) (it : Iterator) : Except Fault (UInt64 × Iterator) :=
  if it.base + it.offset = lastAddress then .ok (0, it)
  else do
    let (found, it) ←
      if it.offset = it.currentBit then findNextTrueNode root 130 it else .ok (true, it)
    if !found then .ok (0, it)
    else do
      check (it.node.same (.terminal true)) .bddLeaf
      .ok (it.base + it.offset, { it with offset := it.offset + 1 })

def sizeLoop (root : Node) : Nat → Iterator → UInt64 → Except Fault UInt64
  | 0, _, _ => .error .bddFuel
  | fuel + 1, it, result => do
      let (address, it) ← iteratorNext root it
      if address ≠ 0 then sizeLoop root fuel it (result + 1) else .ok result

/-- `address_bdd_size`; there are at most as many calls as addresses. -/
def Bdd.size (bdd : Bdd) : Except Fault UInt64 := sizeLoop bdd.root UInt64.size bdd.iterator 0

end Iterate

end Lotto.AddressBdd
