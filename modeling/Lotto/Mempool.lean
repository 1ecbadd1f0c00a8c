import Lotto.Library.ByteMemory
import Lotto.Library.Links
import Lotto.Library.Tiling
import Mathlib.Logic.Function.Basic
import Lotto.Base

namespace Lotto.Mempool

open Library.FaultRun Library.ByteMemory

/-- `LOTTO_MEMPOOL_ALIGNMENT`. -/
def poolAlignment : Nat := 8

/-- `LOTTO_MEMPOOL_CANARY`. -/
def canary : Nat := 0xBEEFFEED

/-- `METADATA_SIZE`: the fields `next` and `size` at the entry, and `entry` and `canary` right before
the pointer that is returned. -/
def metadataSize : Nat := 32

def word : Nat := 18446744073709551616

def sizes : List Nat :=
  [32, 128, 256, 512, 1024, 2 * 1024, 4 * 1024, 8 * 1024, 16 * 1024, 32 * 1024, 64 * 1024, 128 * 1024,
    256 * 1024, 512 * 1024, 1024 * 1024, 2 * 1024 * 1024, 4 * 1024 * 1024, 8 * 1024 * 1024]

def maxSize : Nat := 8 * 1024 * 1024

def bucketize (size : Nat) : Nat := sizes.findIdx fun s => decide (size ≤ s)

structure Pool where
  bytes : Bytes
  memory : Nat
  capacity : Nat
  next : Nat
  stack : Nat → Nat
  allocated : Nat

def loadWord (a : Nat) (m : Bytes) : Nat := load 8 a m

def storeWord (a n : Nat) (m : Bytes) : Bytes := store 8 a n m

/-- `GET_ENTRY_PTR`. -/
def entryOf (p : Nat) (m : Bytes) : Nat := loadWord (p - 16) m

def canaryOf (p : Nat) (m : Bytes) : Nat := loadWord (p - 8) m

def sizeField (e : Nat) (m : Bytes) : Nat := loadWord (e + 8) m

def Pool.inPool (mp : Pool) (p : Nat) : Bool :=
  decide (mp.memory ≤ p) && decide (p < mp.memory + mp.capacity)

def mark (e p : Nat) (m : Bytes) : Bytes := storeWord (p - 8) canary (storeWord (p - 16) e m)

/-- `lotto_mempool_init_static`. -/
def initStatic (bytes : Bytes) (pool cap : Nat) : Except Fault Pool := do
  check (decide (pool ≠ 0)) .mempoolNull
  .ok { bytes, memory := pool, capacity := cap, next := 0, stack := fun _ => 0, allocated := 0 }

def popEntry (mp : Pool) (bucket size : Nat) : Nat × Pool :=
  let e := mp.stack bucket
  (e, { mp with
    stack := Function.update mp.stack bucket (loadWord e mp.bytes)
    bytes := storeWord e 0 mp.bytes
    allocated := (mp.allocated + size) % word })

def bumpEntry (mp : Pool) (size : Nat) : Except Fault (Nat × Pool) := do
  check (decide (mp.capacity ≥ (mp.next + size) % word)) .mempoolOverflow
  let e := mp.memory + mp.next
  .ok (e, { mp with
    bytes := storeWord (e + 8) size (storeWord e 0 mp.bytes)
    next := (mp.next + size) % word
    allocated := (mp.allocated + size) % word })

def takeEntry (mp : Pool) (bucket size : Nat) : Except Fault (Nat × Pool) :=
  if mp.stack bucket ≠ 0 then .ok (popEntry mp bucket size) else bumpEntry mp size

/-- `lotto_mempool_alloc`. -/
def alloc (mp : Pool) (n : Nat) : Except Fault (Nat × Pool) := do
  let bucket := bucketize ((n + metadataSize) % word)
  match sizes[bucket]? with
  | none => .error .mempoolBucket
  | some size => do
      let (e, mp) ← takeEntry mp bucket size
      if e = 0 then .ok (0, mp)
      else
        let ret := e + metadataSize
        .ok (ret, { mp with bytes := mark e ret mp.bytes })

/-- `lotto_mempool_aligned_alloc`. -/
def alignedAlloc (mp : Pool) (alignment size : Nat) : Except Fault (Nat × Pool) := do
  let (chunk, mp) ← alloc mp ((size + alignment + (word - 1)) % word)
  check (decide (alignment ≠ 0)) .mempoolAlignment
  let mod := chunk % alignment
  if mod = 0 then .ok (chunk, mp)
  else do
    check (decide (alignment > poolAlignment)) .mempoolAlignment
    let e := entryOf chunk mp.bytes
    let ret := chunk + alignment - mod
    .ok (ret, { mp with bytes := mark e ret mp.bytes })

/-- `lotto_mempool_free`. -/
def free (mp : Pool) (p : Nat) : Except Fault Pool :=
  if p = 0 then .ok mp
  else do
    check (canaryOf p mp.bytes == canary) .mempoolCanary
    check (mp.inPool p) .mempoolOutside
    let e := entryOf p mp.bytes
    let bucket := bucketize (sizeField e mp.bytes)
    match sizes[bucket]? with
    | none => .error .mempoolBucket
    | some size =>
        .ok { mp with
          allocated := (mp.allocated + (word - size)) % word
          bytes := storeWord e (mp.stack bucket) mp.bytes
          stack := Function.update mp.stack bucket e }

/-- `lotto_mempool_realloc`, with how many bytes it copies. -/
def realloc (mp : Pool) (p n : Nat) : Except Fault (Nat × Nat × Pool) :=
  if p = 0 then do
    let (ptr, mp) ← alloc mp n
    .ok (ptr, 0, mp)
  else do
    check (canaryOf p mp.bytes == canary) .mempoolCanary
    check (mp.inPool p) .mempoolOutside
    let e := entryOf p mp.bytes
    if sizeField e mp.bytes ≥ (p + (word - e) + n) % word then .ok (p, 0, mp)
    else do
      let (ptr, mp) ← alloc mp n
      if ptr = 0 then do
        let mp ← free mp p
        .ok (0, 0, mp)
      else do
        check (mp.inPool p) .mempoolOutside
        check (canaryOf p mp.bytes == canary) .mempoolCanary
        let size := sizeField e mp.bytes
        let room := (size + (word - metadataSize)) % word
        let count := if room < (n + metadataSize) % word then room else n
        let mp ← free { mp with bytes := copy ptr p count mp.bytes } p
        .ok (ptr, count, mp)

end Lotto.Mempool
