import Lotto.Base
import Mathlib.Data.Nat.Digits.Defs

namespace Lotto.MemoryMap

section Numbers

def isSpace (c : UInt8) : Bool := c == 32 || decide (9 ≤ c) && decide (c ≤ 13)

def newline : UInt8 := 10

def hexDigit (c : UInt8) : Option Nat :=
  if 48 ≤ c.toNat ∧ c.toNat ≤ 57 then some (c.toNat - 48)
  else if 97 ≤ c.toNat ∧ c.toNat ≤ 102 then some (c.toNat - 87)
  else if 65 ≤ c.toNat ∧ c.toNat ≤ 70 then some (c.toNat - 55)
  else none

def longMax : Nat := 9223372036854775807

def readDigits : Nat → List UInt8 → Nat × List UInt8
  | value, [] => (value, [])
  | value, c :: text =>
      match hexDigit c with
      | some digit => readDigits (16 * value + digit) text
      | none => (value, c :: text)

def readSign : List UInt8 → Bool × List UInt8
  | 45 :: text => (true, text)
  | 43 :: text => (false, text)
  | text => (false, text)

def skipPrefix : List UInt8 → List UInt8
  | 48 :: x :: digit :: text =>
      if (x == 120 || x == 88) && (hexDigit digit).isSome then digit :: text
      else 48 :: x :: digit :: text
  | text => text

/-- `strtol` with base 16: a number that is too large gives the largest one, and without a digit
nothing is read. -/
def strtol (text : List UInt8) : Int × List UInt8 :=
  let (negative, body) := readSign (text.dropWhile isSpace)
  let body := skipPrefix body
  if (body.head?.bind hexDigit).isSome then
    let (value, rest) := readDigits 0 body
    (if negative then max (-(longMax : Int) - 1) (-(value : Int)) else min (longMax : Int) value, rest)
  else (0, text)

end Numbers

section Parsing

def pathMax : Nat := 4096

structure MemoryMapEntry where
  addressStart : UInt64
  addressEnd : UInt64
  offset : UInt64
  name : List UInt8
  deriving DecidableEq, Repr

def behind (n : Nat) (next : List UInt8) : Except Fault (List UInt8) := do
  check (decide (n ≤ next.length)) .bufferCut
  .ok (next.drop n)

def skipField (next : List UInt8) : Except Fault (List UInt8) := do
  let next ← behind 1 next
  let next := next.dropWhile fun c => c != newline && !isSpace c
  check (!next.isEmpty) .bufferCut
  .ok next

def skipSpacing (next : List UInt8) : List UInt8 :=
  next.dropWhile fun c => c != newline && isSpace c

def readName (next : List UInt8) : Except Fault (List UInt8) :=
  if next.head? = some newline then .ok []
  else do
    -- `strlen(next) - 1` wraps around when nothing is left
    check (decide (0 < next.length) && decide (next.length - 1 < pathMax)) .mapsName
    .ok (next.take (next.length - 1))

def parseLine (line : List UInt8) : Except Fault MemoryMapEntry := do
  let (addressStart, next) := strtol line
  let next ← behind 1 next
  let (addressEnd, next) := strtol next
  let next ← behind 6 next
  let (offset, next) := strtol next
  let next ← skipField next
  let next ← skipField next
  let name ← readName (skipSpacing (skipSpacing next))
  .ok {
    addressStart := UInt64.ofInt addressStart
    addressEnd := UInt64.ofInt addressEnd
    offset := UInt64.ofInt offset
    name }

/-- `_memory_map_parse` of the lines that `getline` reads; the entry of zeros behind the last one is
left to the end of the list. -/
def memoryMapParse (lines : List (List UInt8)) : Except Fault (List MemoryMapEntry) :=
  lines.mapM parseLine

structure MapAddress where
  offset : UInt64
  name : List UInt8
  deriving DecidableEq, Repr

/-- The loop of `memory_map_address_lookup_from_path`, which ends at an entry from address 0 on. -/
def lookupLoop (address : UInt64) : List MemoryMapEntry → Option MemoryMapEntry
  | [] => none
  | map :: rest =>
      if map.addressStart = 0 then none
      else if map.addressStart > address ∨ address ≥ map.addressEnd then lookupLoop address rest
      else some map

def memoryMapAddressLookup (map : List MemoryMapEntry) (address : UInt64) (result : MapAddress) :
    MapAddress :=
  match lookupLoop address map with
  | none => result
  | some entry => ⟨address - entry.addressStart + entry.offset, entry.name⟩

def memoryMapAddressEquals (address₁ address₂ : MapAddress) : Bool :=
  address₁.offset == address₂.offset && address₁.name == address₂.name

end Parsing

end Lotto.MemoryMap
