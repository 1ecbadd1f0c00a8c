import Mathlib.Data.List.Infix
import Mathlib.Logic.Function.Basic
import Lotto.EventArgs

namespace Lotto.Rusty

open Library.FaultRun

/-- The variables of the program, each of a primitive type and under its own address. A value of
fewer than 16 bytes is in the low bits. -/
abbrev Cells := Address → BitVec 128

/-- What a capture point tells of a memory access or of a spin loop. A plain write does not tell the
value `new` that the program leaves at the address. -/
inductive Event where
  | aread (addr size : UInt64)
  | read (addr size : UInt64)
  | write (addr size : UInt64) (new : BitVec 128)
  | awrite (addr size val : UInt64)
  | rmw (addr size val : UInt64) (func : List Char)
  | xchg (addr size val : UInt64)
  | cmpxchg (addr size cmp val : UInt64)
  | cmpxchgWeak (addr size cmp val : UInt64) (spurious : Bool)
  | spinStart
  | spinEnd (cond : UInt32)
  | other
  deriving DecidableEq, Repr

structure Capture where
  after : Bool
  event : Event
  deriving DecidableEq, Repr

def Address.tryFrom (addr : UInt64) : Option Address :=
  if nonzero : addr ≠ 0 then some ⟨addr, nonzero⟩ else none

def valueFromSize (size : AddrSize) (value : UInt64) : Except Fault Value :=
  if size = 1 then .ok (.u8 value.toUInt8)
  else if size = 2 then .ok (.u16 value.toUInt16)
  else if size = 4 then .ok (.u32 value.toUInt32)
  else if size = 8 then .ok (.u64 value)
  else .error .valueWidth

def getValueFromAddr (mem : Cells) (addr : Address) (length : AddrSize) : Except Fault Value :=
  if length = 1 then .ok (.u8 (.ofBitVec ((mem addr).setWidth 8)))
  else if length = 2 then .ok (.u16 (.ofBitVec ((mem addr).setWidth 16)))
  else if length = 4 then .ok (.u32 (.ofBitVec ((mem addr).setWidth 32)))
  else if length = 8 then .ok (.u64 (.ofBitVec ((mem addr).setWidth 64)))
  else if length = 16 then .ok (.u128 (mem addr))
  else .error .valueLength

def Value.toU64 : Value → Except Fault UInt64
  | .u8 v => .ok v.toUInt64
  | .u16 v => .ok v.toUInt64
  | .u32 v => .ok v.toUInt64
  | .u64 v => .ok v
  | _ => .error .rmwValue

inductive RmwOp where
  | add | sub | nand | and | xor | or
  deriving DecidableEq, Repr

def RmwOp.apply : RmwOp → UInt64 → UInt64 → UInt64
  | .add, cur, rmw => cur + rmw
  | .sub, cur, rmw => cur - rmw
  | .nand, cur, rmw => ~~~(cur &&& rmw)
  | .and, cur, rmw => cur &&& rmw
  | .xor, cur, rmw => cur ^^^ rmw
  | .or, cur, rmw => cur ||| rmw

def RmwOp.ofName (name : List Char) : Option RmwOp :=
  if ['_', 'a', 'd', 'd'] <:+: name then some .add
  else if ['_', 's', 'u', 'b'] <:+: name then some .sub
  else if ['_', 'n', 'a', 'n', 'd'] <:+: name then some .nand
  else if ['_', 'a', 'n', 'd'] <:+: name then some .and
  else if ['_', 'x', 'o', 'r'] <:+: name then some .xor
  else if ['_', 'o', 'r'] <:+: name then some .or
  else none

def getNewValueAfterRmw (mem : Cells) (name : List Char) (addr : Address) (length : AddrSize)
    (rmwValue : Value) : Except Fault Value := do
  let curValue ← getValueFromAddr mem addr length
  if curValue = .none then .ok .none
  else do
    let curValue ← curValue.toU64
    let rmwValue ← rmwValue.toU64
    match RmwOp.ofName name with
    | none => .error .rmwName
    | some op => valueFromSize length (op.apply curValue rmwValue)

def EventArgs.new (mem : Cells) (ctx : Capture) : Except Fault EventArgs :=
  match ctx.event with
  | .aread addr size =>
      if ctx.after then .ok .noChanges
      else
        match Address.tryFrom addr with
        | some addr => .ok (.addressOnly .beforeARead addr size)
        | none => .ok .noChanges
  | .read addr size =>
      match Address.tryFrom addr with
      | some addr => .ok (.addressOnly .beforeRead addr size)
      | none => .ok .noChanges
  | .rmw addr size val func =>
      if ctx.after then .ok .noChanges
      else
        match Address.tryFrom addr with
        | none => .ok .noChanges
        | some addr => do
            let valueInCtx ← valueFromSize size val
            let newValue ← getNewValueAfterRmw mem func addr size valueInCtx
            .ok (.addressValue .beforeRMW addr size newValue)
  | .awrite addr size val =>
      if ctx.after then .ok .noChanges
      else do
        let value ← valueFromSize size val
        match Address.tryFrom addr with
        | some addr => .ok (.addressValue .beforeAWrite addr size value)
        | none => .ok .noChanges
  | .write addr size _ =>
      match Address.tryFrom addr with
      | some addr => .ok (.addressOnly .beforeWrite addr size)
      | none => .ok .noChanges
  | .cmpxchg addr size cmp val | .cmpxchgWeak addr size cmp val _ =>
      if ctx.after then .ok .noChanges
      else do
        let value1 ← valueFromSize size cmp
        let value2 ← valueFromSize size val
        match Address.tryFrom addr with
        | some addr => .ok (.addressTwoValuesEvent .beforeCMPXCHG addr size value1 value2)
        | none => .ok .noChanges
  | .xchg addr size val =>
      if ctx.after then .ok .noChanges
      else do
        let value ← valueFromSize size val
        match Address.tryFrom addr with
        | some addr => .ok (.addressValue .beforeRMW addr size value)
        | none => .ok .noChanges
  | _ => .ok .noChanges

end Lotto.Rusty
