import Lotto.MemoryMap
import Lotto.Library.Trim
import Mathlib.Logic.Function.Basic

namespace Lotto.Sampling

open MemoryMap

section Parser

/-- The floating-point numbers, as far as the module uses them: `strtod` with the text behind the
number, comparisons with 0 and 1, and the difference from 1. -/
structure Doubles (P : Type) where
  strtod : List UInt8 → Option (P × List UInt8)
  negative : P → Bool
  aboveOne : P → Bool
  oneMinus : P → P
  zero : P

/-- `struct sampling_config_entry`. -/
structure ConfigEntry (P : Type) where
  p : P
  name : List UInt8
  deriving DecidableEq, Repr

def equalsSign : UInt8 := 61

def hashSign : UInt8 := 35

def samplingNameMaxLen : Nat := 256

def trimLeft (s : List UInt8) : List UInt8 := s.dropWhile isSpace

def trimRight (s : List UInt8) : List UInt8 := s.rdropWhile isSpace

variable {P : Type} (doubles : Doubles P)

def parseProbability (raw : List UInt8) : Option P :=
  match doubles.strtod raw with
  | none => none
  | some (p, rest) =>
      if (trimLeft rest).isEmpty && !(doubles.negative p || doubles.aboveOne p) then some p else none

inductive LineResult (P : Type) where
  | skip
  | entry (e : ConfigEntry P)
  | error (msg : String) (detail : List UInt8)
  deriving DecidableEq, Repr

def parseLine (line : List UInt8) : LineResult P :=
  let line := trimRight (trimLeft line)
  if line = [] ∨ line.head? = some hashSign then .skip
  else
    let before := line.takeWhile (· != equalsSign)
    match line.dropWhile (· != equalsSign) with
    | [] => .error "invalid config line" line
    | _ :: behind =>
        if equalsSign ∈ behind then .error "invalid config line" line
        else
          let name := trimRight (trimLeft before)
          let value := trimRight (trimLeft behind)
          if name = [] then .error "missing event type" []
          else if value = [] then .error "missing probability" name
          else if name.length > samplingNameMaxLen then .error "event type name too long" name
          else
            match parseProbability doubles value with
            | none => .error "invalid probability" value
            | some p => .entry ⟨p, name⟩

structure ParseState (P : Type) where
  ok : Bool
  entries : List (ConfigEntry P)
  errors : List (Nat × String × List UInt8)
  deriving DecidableEq, Repr

def parseStep (lineno : Nat) (line : List UInt8) (s : ParseState P) : ParseState P :=
  match parseLine doubles line with
  | .skip => s
  | .entry e => { s with entries := e :: s.entries }
  | .error msg detail => { s with ok := false, errors := s.errors ++ [(lineno, msg, detail)] }

/-- The loop of `sampling_parse_config`; `acc` is what has been read of the line, backwards. -/
def parseText : Nat → List UInt8 → List UInt8 → ParseState P → ParseState P
  | lineno, acc, [], s => if acc = [] then s else parseStep doubles lineno acc.reverse s
  | lineno, acc, c :: text, s =>
      if c = newline then parseText (lineno + 1) [] text (parseStep doubles lineno acc.reverse s)
      else parseText lineno (c :: acc) text s

def samplingParseConfig (text : List UInt8) : ParseState P :=
  let s := parseText doubles 1 [] text ⟨true, [], []⟩
  if s.ok then s else { s with entries := [] }

end Parser

section Engine

variable {P : Type} (doubles : Doubles P)

/-- The items that `_marshal` of a bag writes, in the order of the bag. -/
def bagMarshal (bag : List (ConfigEntry P)) : List (ConfigEntry P) := bag

/-- `_unmarshal` of a bag, which adds every item in front of those before it. -/
def bagUnmarshal (items : List (ConfigEntry P)) : List (ConfigEntry P) :=
  items.foldl (fun bag item => item :: bag) []

def bagCarried : Nat → List (ConfigEntry P) → List (ConfigEntry P)
  | 0, bag => bag
  | n + 1, bag => bagCarried n (bagUnmarshal (bagMarshal bag))

/-- The types of the engine: `ps_type_lookup`, `MAX_TYPES` and `ANY_EVENT`. -/
structure EventTypes where
  lookup : List UInt8 → TypeId
  maxTypes : Nat
  anyEvent : TypeId

def loadState (types : EventTypes) (bag : List (ConfigEntry P)) : TypeId → P :=
  bag.foldl (fun drop entry =>
    let type := types.lookup entry.name
    if type ≥ types.maxTypes ∨ type = types.anyEvent then drop
    else Function.update drop type (doubles.oneMinus entry.p)) fun _ => doubles.zero

/-- The way of a configuration from the driver into the engine, over `n` records. -/
def engineDrop (types : EventTypes) (text : List UInt8) (n : Nat) : TypeId → P :=
  loadState doubles types (bagCarried n (samplingParseConfig doubles text).entries)

end Engine

section Meaning

open Library.Trim (Padding Trimmed)

variable {P : Type} (doubles : Doubles P)

def linesOf : List UInt8 → List (List UInt8)
  | [] => []
  | c :: text =>
      if c = newline then [] :: linesOf text
      else
        match linesOf text with
        | [] => [[c]]
        | line :: lines => (c :: line) :: lines

def Blank (line : List UInt8) : Prop :=
  ∃ front rest, line = front ++ rest ∧ Padding isSpace front ∧
    (rest = [] ∨ rest.head? = some hashSign)

structure Reads (line : List UInt8) (e : ConfigEntry P) : Prop where
  parts : ∃ s₁ s₂ s₃ s₄ value, line = s₁ ++ (e.name ++ (s₂ ++ equalsSign :: (s₃ ++ (value ++ s₄)))) ∧
    Padding isSpace s₁ ∧ Padding isSpace s₂ ∧ Padding isSpace s₃ ∧ Padding isSpace s₄ ∧
    Trimmed isSpace value ∧ value ≠ [] ∧ equalsSign ∉ value ∧
    parseProbability doubles value = some e.p
  trimmed : Trimmed isSpace e.name
  named : e.name ≠ []
  plain : equalsSign ∉ e.name
  comment : e.name.head? ≠ some hashSign
  short : e.name.length ≤ samplingNameMaxLen

def Bad (line : List UInt8) : Prop := ¬ Blank line ∧ ∀ e, ¬ Reads doubles line e

def Names (types : EventTypes) (t : TypeId) (e : ConfigEntry P) (line : List UInt8) : Prop :=
  Reads doubles line e ∧ types.lookup e.name = t

end Meaning

end Lotto.Sampling
