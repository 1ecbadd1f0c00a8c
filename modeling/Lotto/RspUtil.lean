import Lotto.Base

namespace Lotto.RspUtil

def hashSign : UInt8 := 0x23

def dollar : UInt8 := 0x24

def percent : UInt8 := 0x25

def star : UInt8 := 0x2A

def brace : UInt8 := 0x7D

def dot : UInt8 := 0x2E

def semicolon : UInt8 := 0x3B

def minus : UInt8 := 0x2D

def digitOne : UInt8 := 0x31

def word : Nat := 18446744073709551616

def sub64 (a b : Nat) : Nat := if b ≤ a then a - b else a + word - b

section Hex

def rspHexToChr (hex : UInt8) : UInt8 :=
  if hex > 15 then 0 else if hex ≤ 9 then 0x30 + hex else 0x61 - 10 + hex

def rspChrToHex (chr : UInt8) : Except Fault UInt8 :=
  if 0x30 ≤ chr ∧ chr ≤ 0x39 then .ok (chr - 0x30)
  else if 0x61 ≤ chr ∧ chr ≤ 0x66 then .ok (chr + 10 - 0x61)
  else .error .rspCharacter

def clz (hex : UInt64) : Nat := 63 - hex.toNat.log2

def chrLength (hex : UInt64) : Nat :=
  let bitLength := if hex = 0 then 4 else 64 - clz hex
  if bitLength % 4 ≠ 0 then bitLength / 4 + 1 else bitLength / 4

/-- The loop of `rsp_hex_to_str`: the characters from the last one on, and what is left of `hex`. -/
def hexLoop : Nat → UInt64 → List UInt8 → List UInt8 × UInt64
  | 0, hex, str => (str, hex)
  | idx + 1, hex, str => hexLoop idx (hex >>> 4) (rspHexToChr (hex &&& 0xF).toUInt8 :: str)

def rspHexToStr (hex : UInt64) (numCharsToUse : Nat) : Except Fault (List UInt8) := do
  check (decide (numCharsToUse > 0 → chrLength hex ≤ numCharsToUse)) .rspWidth
  let length := if numCharsToUse > 0 then numCharsToUse else chrLength hex
  check (decide ((hexLoop length hex []).2 = 0)) .rspHexLeft
  .ok (hexLoop length hex []).1

def strLoop : UInt64 → List UInt8 → Except Fault UInt64
  | hex, [] => .ok hex
  | hex, chr :: str => do
      let digit ← rspChrToHex chr
      strLoop (hex <<< 4 ||| digit.toUInt64) str

def rspStrToHex (str : List UInt8) : Except Fault UInt64 := strLoop 0 str

end Hex

section Packets

def special (chr : UInt8) : Bool := chr == hashSign || chr == dollar || chr == star || chr == brace

/-- The loop of `rsp_escape_msg`: the escaped message and the checksum. -/
def escapeLoop : List UInt8 → List UInt8 → UInt8 → List UInt8 × UInt8
  | [], escaped, chkSum => (escaped, chkSum)
  | chr :: msg, escaped, chkSum =>
      if special chr then
        escapeLoop msg (escaped ++ [brace, chr ^^^ 0x20]) (chkSum + brace + (chr ^^^ 0x20))
      else escapeLoop msg (escaped ++ [chr]) (chkSum + chr)

def rspEscapeMsg (msg : List UInt8) (chkSum : UInt8) : Except Fault (List UInt8 × UInt8) := do
  check (decide (msg.length > 0)) .rspEmpty
  .ok (escapeLoop msg [] chkSum)

structure Unescaped where
  msg : List UInt8
  chkSum : UInt8
  encIdx : Nat
  deriving DecidableEq, Repr

/-- The loop of `rsp_unescape_msg` over the buffer from `enc_idx` on, with at most `left` bytes of the
message. The byte after an escape character is read also where none is left. -/
def unescapeLoop : List UInt8 → Nat → Unescaped → Except Fault Unescaped
  | _, 0, u => .ok u
  | [], _ + 1, _ => .error .rspOutside
  | chr :: buf, left + 1, u =>
      if chr = brace then
        match buf with
        | [] => .error .rspOutside
        | chr :: buf =>
            unescapeLoop buf (left - 1)
              ⟨u.msg ++ [chr ^^^ 0x20], u.chkSum + brace + chr, u.encIdx + 2⟩
      else if chr = hashSign then .ok u
      else unescapeLoop buf left ⟨u.msg ++ [chr], u.chkSum + chr, u.encIdx + 1⟩

def rspUnescapeMsg (buf : List UInt8) (msgEscLen : Nat) (chkSum : UInt8) :
    Except Fault Unescaped := do
  check (decide (msgEscLen > 0)) .rspEmpty
  unescapeLoop buf msgEscLen ⟨[], chkSum, 0⟩

def chkSumChrs (chkSum : UInt8) : List UInt8 :=
  [rspHexToChr (chkSum >>> 4), rspHexToChr (chkSum &&& 0xF)]

def rspConstructPkt (msg : List UInt8) : Except Fault (List UInt8) := do
  check (decide (msg.length > 0)) .rspEmpty
  let escaped ← rspEscapeMsg msg 0
  check (decide (escaped.1.length > 0)) .rspEscapedEmpty
  .ok (dollar :: escaped.1 ++ hashSign :: chkSumChrs escaped.2)

def pktExtrIncomplete : Int := -100

structure Extracted where
  result : Int
  msg : List UInt8
  pktLen : Nat
  deriving DecidableEq, Repr

def readByte (pkt : List UInt8) (idx : Nat) : Except Fault UInt8 :=
  match pkt[idx]? with
  | none => .error .rspOutside
  | some chr => .ok chr

def extractEnd (pkt : List UInt8) (pktLen : Nat) (u : Unescaped) : Except Fault Extracted := do
  let idx := 1 + u.msg.length
  let last ← readByte pkt idx
  if last ≠ hashSign then .ok ⟨pktExtrIncomplete, u.msg, pktLen⟩
  else do
    let chkSum1 ← readByte pkt (idx + 1)
    check (chkSum1 == rspHexToChr (u.chkSum >>> 4)) .rspChecksum
    let chkSum2 ← readByte pkt (idx + 2)
    check (chkSum2 == rspHexToChr (u.chkSum &&& 0xF)) .rspChecksum
    .ok ⟨u.msg.length, u.msg, idx + 3⟩

def rspExtractPkt (pkt : List UInt8) (pktLen : Nat) : Except Fault Extracted := do
  check (decide (pktLen > 0)) .rspEmpty
  let start ← readByte pkt 0
  check (start == dollar || start == percent) .rspStart
  if pkt.take 4 = [dollar, hashSign, 0x30, 0x30] then .ok ⟨0, [], pktLen⟩
  else do
    let u ← rspUnescapeMsg (pkt.drop 1) (sub64 pktLen 4) 0
    check (decide (u.msg.length > 0)) .rspEmpty
    extractEnd pkt pktLen u

end Packets

section ThreadIds

def int32Max : Nat := 0x7FFFFFFF

/-- `CAST_TYPE(int64_t, hex)` and the assertion about the result. -/
def toTaskId (hex : UInt64) : Except Fault Int := do
  check (decide (hex.toNat ≤ int32Max)) .threadIdRange
  .ok hex.toNat

def rspConstructThreadId (pid tid : Int) : Except Fault (List UInt8) := do
  let pidStr ← rspHexToStr (UInt64.ofInt pid) 0
  if tid = -1 then .ok (pidStr ++ [dot, minus, digitOne])
  else do
    let tidStr ← rspHexToStr (UInt64.ofInt tid) 0
    .ok (pidStr ++ dot :: tidStr)

def strchr (chr : UInt8) : List UInt8 → Option Nat
  | [] => none
  | c :: str => if c = chr then some 0 else if c = 0 then none else (strchr chr str).map (· + 1)

structure ThreadId where
  length : Nat
  pid : Int
  tid : Int
  deriving DecidableEq, Repr

def extractFields (msg : List UInt8) (extractLen pidLen : Nat) : Except Fault ThreadId := do
  let tidLen := sub64 (sub64 extractLen pidLen) 1
  check (decide (pidLen ≥ 1)) .threadIdField
  check (decide (tidLen ≥ 1)) .threadIdField
  let tidStr := msg.drop (pidLen + 1)
  let pid ← rspStrToHex (msg.take pidLen)
  let pid ← toTaskId pid
  let first ← readByte tidStr 0
  if first = minus then do
    let second ← readByte tidStr 1
    check (second == digitOne) .threadIdMinus
    .ok ⟨extractLen, pid, -1⟩
  else do
    check (decide (tidLen ≤ tidStr.length)) .rspOutside
    let tid ← rspStrToHex (tidStr.take tidLen)
    let tid ← toTaskId tid
    .ok ⟨extractLen, pid, tid⟩

def rspExtractThreadId (msg : List UInt8) (msgLen : Nat) : Except Fault ThreadId := do
  check (decide (msgLen ≥ 3)) .threadIdLength
  match strchr dot msg with
  | none => .error .threadIdDot
  | some pidLen => extractFields msg ((strchr semicolon msg).getD msgLen) pidLen

end ThreadIds

end Lotto.RspUtil
