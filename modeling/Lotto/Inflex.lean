import Lotto.Trace

namespace Lotto.Inflex

open Library.FaultRun

/-- The loop of `_previous_clock`: `trace_next` skips the records that do not match, and the trace
is advanced after each match that lies before `clk`. -/
def previousLoop (clk : Nat) : Nat → FlatTrace → Nat
  | ans, [] => ans
  | ans, r :: t =>
      if r.matches recordAny then
        if r.clk.toNat < clk then previousLoop clk r.clk.toNat t else ans
      else previousLoop clk ans t

def previousClock (input : FlatTrace) (clk : Nat) : Nat :=
  previousLoop clk clk (flatNext Kind.recordStart.bits input).2

/-- The loop of `_linear_search` with `clk`, `*beg` and `*end`. It repeats a clock for ever where
`advance` does, which is why it takes fuel. -/
def linearLoop (pred : Nat → Bool) (advance : Nat → Nat) :
    Nat → Nat → Nat → Nat → Except Fault (Nat × Nat)
  | 0, _, _, _ => .error .inflexFuel
  | fuel + 1, clk, first, last =>
      if first < clk then
        if pred clk then linearLoop pred advance fuel (advance clk) first clk
        else .ok (clk, last)
      else .ok (first, last)

def linearSearch (fuel : Nat) (pred : Nat → Bool) (advance : Option (Nat → Nat))
    (first last : Nat) : Except Fault (Nat × Nat) :=
  linearLoop pred (advance.getD fun clk => clk - 1) fuel last first last

def binarySearch (pred : Nat → Bool) (l r : Nat) : Nat :=
  if l < r then
    let x := l + (r - l) / 2
    if pred x then binarySearch pred l x else binarySearch pred (x + 1) r
  else r
termination_by r - l

/-- `_linear_inflex` without explore: the inflection point that it prints and truncates at. -/
def linearInflex (fuel : Nat) (input : FlatTrace) (lastClk : Nat) (pred : Nat → Bool) :
    Except Fault Nat := do
  let (first, last) ← linearSearch fuel pred (some (previousClock input)) 0 lastClk
  check (decide (first ≤ last)) .inflexRange
  let ip := if 0 < last then last - 1 else 0
  let (_, ip) ← linearSearch fuel pred none first ip
  .ok ip

end Lotto.Inflex
