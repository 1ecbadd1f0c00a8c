import Mathlib.Data.List.Forall2
import Mathlib.Data.Nat.ModEq

namespace Library.ByteCodec

/-- The `width` little-endian bytes of a number, higher digits being cut off. -/
def bytesLE : Nat → Nat → List UInt8
  | 0, _ => []
  | width + 1, n => UInt8.ofNat n :: bytesLE width (n / 256)

/-- Reads a little-endian number of `width` bytes and leaves the bytes behind it. -/
def takeLE : Nat → List UInt8 → Option (Nat × List UInt8)
  | 0, bytes => some (0, bytes)
  | _ + 1, [] => none
  | width + 1, byte :: bytes =>
      (takeLE width bytes).map fun (n, rest) => (byte.toNat + 256 * n, rest)

@[simp] theorem bytesLE_length (width n : Nat) : (bytesLE width n).length = width := by
  induction width generalizing n with
  | zero => rfl
  | succ width ih => rw [bytesLE, List.length_cons, ih]

theorem takeLE_bytesLE_mod (width n : Nat) (tail : List UInt8) :
    takeLE width (bytesLE width n ++ tail) = some (n % 256 ^ width, tail) := by
  induction width generalizing n with
  | zero => simp [bytesLE, takeLE, Nat.mod_one]
  | succ width ih =>
      have digit : (UInt8.ofNat n).toNat = n % 256 := UInt8.toNat_ofNat'
      simp only [bytesLE, List.cons_append, takeLE, ih, Option.map_some, digit]
      rw [Nat.pow_succ', Nat.mod_mul]

theorem takeLE_bytesLE {width n : Nat} (bound : n < 256 ^ width) (tail : List UInt8) :
    takeLE width (bytesLE width n ++ tail) = some (n, tail) := by
  rw [takeLE_bytesLE_mod, Nat.mod_eq_of_lt bound]

theorem bind_takeLE {α : Type} {width n : Nat} (bound : n < 256 ^ width) (tail : List UInt8)
    (f : Nat × List UInt8 → Option α) :
    (takeLE width (bytesLE width n ++ tail) >>= f) = f (n, tail) := by
  rw [takeLE_bytesLE bound]
  rfl

/-- The bytes of an encoding as its reader sees them: `none` is a byte that is written but skipped
when it is read back. -/
abbrev Layout := List (Option UInt8)

def Matches (layout : Layout) (bytes : List UInt8) : Prop :=
  List.Forall₂ (fun cell byte => cell = none ∨ cell = some byte) layout bytes

theorem Matches.append {a b : Layout} {x y : List UInt8} (first : Matches a x)
    (second : Matches b y) : Matches (a ++ b) (x ++ y) := by
  induction first with
  | nil => exact second
  | cons cell _ ih => exact List.Forall₂.cons cell ih

theorem Matches.split {a b : Layout} {bytes : List UInt8} (both : Matches (a ++ b) bytes) :
    ∃ x y, bytes = x ++ y ∧ Matches a x ∧ Matches b y := by
  induction a generalizing bytes with
  | nil => exact ⟨[], bytes, rfl, List.Forall₂.nil, both⟩
  | cons cell a ih =>
      cases both with
      | @cons _ byte _ rest seen tail =>
          obtain ⟨x, y, rfl, first, second⟩ := ih tail
          exact ⟨byte :: x, y, rfl, List.Forall₂.cons seen first, second⟩

theorem Matches.byte {layout : Layout} {bytes : List UInt8} (fits : Matches layout bytes) {n : Nat}
    {b : UInt8} (read : layout[n]? = some (some b)) : bytes[n]? = some b := by
  induction fits generalizing n with
  | nil => simp at read
  | cons cell _ ih =>
      cases n with
      | zero =>
          obtain rfl : _ = some b := by simpa using read
          simpa [eq_comm] using cell
      | succ n => exact ih (by simpa using read)

end Library.ByteCodec
