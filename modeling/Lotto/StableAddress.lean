import Lotto.Library.Comparator
import Lotto.MemoryMap

namespace Lotto.MemoryMap

open Library.Comparator

inductive StableAddressMethod where
  | none | mask | map
  deriving DecidableEq, Repr

inductive StableAddress where
  | ptr (ptr : UInt64)
  | map (map : MapAddress)
  deriving DecidableEq, Repr

def stableAddressGet (maps : List MemoryMapEntry) (addr : UInt64) :
    StableAddressMethod → StableAddress
  | .none => .ptr addr
  | .mask => .ptr (addr &&& 0xFFF)
  | .map => .map (memoryMapAddressLookup maps addr ⟨0, []⟩)

def stableAddressEquals : StableAddress → StableAddress → Except Fault Bool
  | .ptr sa₁, .ptr sa₂ => .ok (sa₁ == sa₂)
  | .map sa₁, .map sa₂ => .ok (memoryMapAddressEquals sa₁ sa₂)
  | _, _ => .error .stableType

def strcmp : List UInt8 → List UInt8 → Int
  | [], [] => 0
  | [], _ :: _ => -1
  | _ :: _, [] => 1
  | a :: as, b :: bs => if a < b then -1 else if b < a then 1 else strcmp as bs

def compareWords (a b : UInt64) : Int := if a < b then -1 else if a > b then 1 else 0

def stableAddressCompare : StableAddress → StableAddress → Int
  | .ptr sa, .ptr sb => compareWords sa sb
  | .map sa, .map sb =>
      let nameCmp := strcmp sa.name sb.name
      if nameCmp ≠ 0 then nameCmp else compareWords sa.offset sb.offset
  | .ptr _, .map _ => -1
  | .map _, .ptr _ => 1

def StableAddress.isMap : StableAddress → Bool
  | .ptr _ => false
  | .map _ => true

section Order

theorem compareWords_order : TotalOrder compareWords := by
  constructor
  · intro a b
    simp only [compareWords, UInt64.lt_iff_toNat_lt]
    grind
  · intro a b c
    simp only [compareWords, UInt64.lt_iff_toNat_lt]
    grind

theorem compareWords_eq_zero {a b : UInt64} : compareWords a b = 0 ↔ a = b := by
  simp only [compareWords, UInt64.lt_iff_toNat_lt, ← UInt64.toNat_inj]
  grind

theorem strcmp_swap (a b : List UInt8) : strcmp a b < 0 ↔ 0 < strcmp b a := by
  induction a generalizing b with
  | nil => cases b <;> simp [strcmp]
  | cons x a ih =>
      cases b with
      | nil => simp [strcmp]
      | cons y b =>
          have next := ih b
          simp only [strcmp, UInt8.lt_iff_toNat_lt]
          grind

theorem strcmp_eq_zero {a b : List UInt8} : strcmp a b = 0 ↔ a = b := by
  induction a generalizing b with
  | nil => cases b <;> simp [strcmp]
  | cons x a ih =>
      cases b with
      | nil => simp [strcmp]
      | cons y b =>
          simp only [strcmp, UInt8.lt_iff_toNat_lt, List.cons.injEq, ← ih, ← UInt8.toNat_inj]
          grind

theorem strcmp_trans (a b c : List UInt8) (first : strcmp a b ≤ 0) (second : strcmp b c ≤ 0) :
    strcmp a c ≤ 0 := by
  induction a generalizing b c with
  | nil => cases c <;> simp [strcmp]
  | cons x a ih =>
      cases b with
      | nil => simp [strcmp] at first
      | cons y b =>
          cases c with
          | nil => simp [strcmp] at second
          | cons z c =>
              have next := ih b c
              simp only [strcmp, UInt8.lt_iff_toNat_lt] at first second ⊢
              grind

theorem stableAddressCompare_order : TotalOrder stableAddressCompare := by
  constructor
  · intro a b
    cases a with
    | ptr a =>
        cases b with
        | ptr b => exact compareWords_order.swap a b
        | map b => simp [stableAddressCompare]
    | map a =>
        cases b with
        | ptr b => simp [stableAddressCompare]
        | map b =>
            have names := strcmp_swap a.name b.name
            have back := strcmp_swap b.name a.name
            have offsets := compareWords_order.swap a.offset b.offset
            simp only [stableAddressCompare]
            grind
  · intro a b c
    cases a with
    | ptr a =>
        cases b with
        | ptr b =>
            cases c with
            | ptr c => exact compareWords_order.trans a b c
            | map c => simp [stableAddressCompare]
        | map b => cases c <;> simp [stableAddressCompare]
    | map a =>
        cases b with
        | ptr b => simp [stableAddressCompare]
        | map b =>
            cases c with
            | ptr c => simp [stableAddressCompare]
            | map c =>
                have names := strcmp_trans a.name b.name c.name
                have back := strcmp_swap a.name c.name
                have swap := strcmp_swap c.name a.name
                have third := strcmp_trans b.name c.name a.name
                have second := strcmp_trans c.name a.name b.name
                have offsets := compareWords_order.trans a.offset b.offset c.offset
                have left := strcmp_swap a.name b.name
                have left' := strcmp_swap b.name a.name
                have right := strcmp_swap b.name c.name
                have right' := strcmp_swap c.name b.name
                simp only [stableAddressCompare]
                grind

theorem stableAddressCompare_eq_zero {a b : StableAddress} :
    stableAddressCompare a b = 0 ↔ a = b := by
  cases a with
  | ptr a =>
      cases b with
      | ptr b => simp [stableAddressCompare, compareWords_eq_zero]
      | map b => simp [stableAddressCompare]
  | map a =>
      cases b with
      | ptr b => simp [stableAddressCompare]
      | map b =>
          obtain ⟨offset, name⟩ := a
          obtain ⟨offset', name'⟩ := b
          have names := strcmp_eq_zero (a := name) (b := name')
          have offsets := compareWords_eq_zero (a := offset) (b := offset')
          simp only [stableAddressCompare, StableAddress.map.injEq, MapAddress.mk.injEq]
          grind

theorem stableAddressEquals_same {a b : StableAddress} (same : a.isMap = b.isMap) :
    stableAddressEquals a b = .ok (decide (a = b)) := by
  cases a with
  | ptr a =>
      cases b with
      | ptr b => simp [stableAddressEquals, Bool.beq_eq_decide_eq]
      | map b => cases same
  | map a =>
      cases b with
      | ptr b => cases same
      | map b =>
          obtain ⟨offset, name⟩ := a
          obtain ⟨offset', name'⟩ := b
          simp [stableAddressEquals, memoryMapAddressEquals, Bool.decide_and, Bool.beq_eq_decide_eq]

end Order

end Lotto.MemoryMap
