import Lotto.Base

namespace Lotto.Rusty

structure Address where
  value : UInt64
  nonzero : value ≠ 0
  deriving DecidableEq, Repr

/-- `ValuesTypes`. -/
inductive Value where
  | none
  | u8 (v : UInt8)
  | u16 (v : UInt16)
  | u32 (v : UInt32)
  | u64 (v : UInt64)
  | u128 (v : BitVec 128)
  deriving DecidableEq, Repr

abbrev AddrSize := UInt64

inductive AddressCatEvent where
  | beforeARead | beforeRead | beforeWrite
  deriving DecidableEq, Repr

inductive AddressValueCatEvent where
  | beforeAWrite | beforeRMW
  deriving DecidableEq, Repr

inductive AddressTwoValuesCatEvent where
  | beforeCMPXCHG
  deriving DecidableEq, Repr

inductive EventArgs where
  | addressValue (cat : AddressValueCatEvent) (addr : Address) (size : AddrSize) (value : Value)
  | addressOnly (cat : AddressCatEvent) (addr : Address) (size : AddrSize)
  | addressTwoValuesEvent (cat : AddressTwoValuesCatEvent) (addr : Address) (size : AddrSize)
      (value1 value2 : Value)
  | noChanges
  deriving DecidableEq, Repr

end Lotto.Rusty
