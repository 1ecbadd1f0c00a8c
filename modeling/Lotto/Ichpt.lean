import Lotto.Race
import Lotto.StableAddress
import Lotto.VecUnion

namespace Lotto.Ichpt

open Library.FaultRun Library.Comparator MemoryMap Race VecUnion

section Items

variable (fresh : Nat → StableAddress) (qsort : List StableAddress → List StableAddress)

def vecInit : Vec StableAddress := ⟨fresh, 0, 0⟩

def vecAdd (item : StableAddress) (v : Vec StableAddress) : Vec StableAddress :=
  let v := if v.cnt ≥ v.cap then vecReserve fresh v (if v.cap = 0 then 8 else v.cap * 2) else v
  { v with items := Function.update v.items v.cnt item, cnt := v.cnt + 1 }

def vecUnmarshal (items : List StableAddress) : Vec StableAddress :=
  items.foldl (fun v item => vecAdd fresh item v) (vecInit fresh)

def ichptInitial : Nat := 0

def ichptFinal : Nat := 1

def ichptStart : Vecs StableAddress := fun _ => vecInit fresh

/-- `vec_union` with `ichpt_item_compare`. Whatever way `qsort` takes through the items, it compares
two of different types if there are any. -/
def ichptUnion (left right : Nat) (s : Vecs StableAddress) : Except Fault (Vecs StableAddress) := do
  let items := contents (s left) ++ contents (s right)
  check (items.all (·.isMap) || items.all (!·.isMap)) .stableType
  .ok (vecUnion fresh qsort stableAddressCompare left right s)

end Items

section Handler

/-- What the module reads of a run: its configuration, the one of the sequencer and the memory map,
which is parsed once. -/
structure IchptConfig where
  enabled : Bool
  onlyWriteIchpt : Bool
  stableAddressMethod : StableAddressMethod
  maps : List MemoryMapEntry
  deriving DecidableEq, Repr

structure IchptEvent where
  skip : Bool
  readonly : Bool
  isChpt : Bool
  deriving DecidableEq, Repr

variable (fresh : Nat → StableAddress) (config : IchptConfig)

def IchptConfig.address (a : UInt64) : StableAddress :=
  stableAddressGet config.maps a config.stableAddressMethod

def ichptLoop (sa : StableAddress) : List StableAddress → Except Fault Bool
  | [] => .ok false
  | it :: rest => do
      if ← stableAddressEquals it sa then .ok true else ichptLoop sa rest

def isIchpt (a : UInt64) (s : Vecs StableAddress) : Except Fault Bool :=
  ichptLoop (config.address a) (contents (s ichptFinal))

def addIchpt (a : UInt64) (s : Vecs StableAddress) : Except Fault (Vecs StableAddress) := do
  if ← isIchpt config a s then .ok s
  else .ok (Function.update s ichptFinal (vecAdd fresh (config.address a) (s ichptFinal)))

/-- The instructions of a race that `_race_handle` turns into change points. -/
def raceIchpts (race : RaceT) : List UInt64 :=
  if config.onlyWriteIchpt then
    (if race.loc1.readonly then [] else [race.loc1.pc]) ++
      (if race.loc2.readonly then [] else [race.loc2.pc])
  else if race.loc1.pc = race.loc2.pc then [race.loc1.pc] else [race.loc1.pc, race.loc2.pc]

def ichptHandle (cp : RaceCapture) (e : IchptEvent) (s : Vecs StableAddress) :
    Except Fault IchptEvent :=
  if e.skip || !config.enabled then .ok e
  else do
    check (cp.id != noTask) .captureNoTask
    if e.readonly then .ok e
    else do
      if ← isIchpt config cp.pc s then .ok { e with isChpt := true } else .ok e

end Handler

section Sessions

inductive HandlerCall where
  | race (cp : RaceCapture) (clk : Nat)
  | raceResume (cp : RaceCapture)
  | ichpt (cp : RaceCapture) (e : IchptEvent)
  deriving DecidableEq, Repr

structure EngineState where
  vecs : Vecs StableAddress
  races : Map OtSet

/-- A run of the program under test; `reason` is the one of its EXIT record, if it has written any. -/
structure Round where
  config : IchptConfig
  race : RaceConfig
  calls : List HandlerCall
  reason : Option Reason
  err : Bool
  deriving DecidableEq, Repr

variable (fresh : Nat → StableAddress) (qsort : List StableAddress → List StableAddress)

/-- The subscriptions to AFTER_UNMARSHAL_CONFIG in the engine, with the items of the CONFIG record. -/
def engineStart (initial : List StableAddress) : Except Fault EngineState := do
  let vecs := Function.update (ichptStart fresh) ichptInitial (vecUnmarshal fresh initial)
  let vecs ← ichptUnion fresh qsort ichptFinal ichptInitial vecs
  .ok { vecs, races := ∅ }

/-- One call of a handler, with the event that `_ichpt_handle` leaves. -/
def handlerStep (round : Round) (call : HandlerCall) (s : EngineState) :
    Except Fault (Option IchptEvent × EngineState) :=
  match call with
  | .race cp clk => do
      let (race, races) ← raceHandle round.race cp clk s.races
      let pcs := (race.map (raceIchpts round.config)).getD []
      let vecs ← pcs.foldlM (fun vecs pc => addIchpt fresh round.config pc vecs) s.vecs
      .ok (none, { vecs, races })
  | .raceResume cp => do
      let races ← raceResumeHandle round.race cp s.races
      .ok (none, { s with races })
  | .ichpt cp e => do
      let e ← ichptHandle round.config cp e s.vecs
      .ok (some e, s)

def engineRun (round : Round) :
    List HandlerCall → EngineState → Except Fault (List (Option IchptEvent) × EngineState)
  | [], s => .ok ([], s)
  | call :: calls, s => do
      let (e, s) ← handlerStep fresh round call s
      let (es, s) ← engineRun round calls s
      .ok (e :: es, s)

/-- `adjust` with the items in the last record of a trace: none if that is no EXIT record, and no
items if it was written without the FINAL states. -/
def adjust (final : Option (Option (List StableAddress))) (s : Vecs StableAddress) :
    Except Fault (Vecs StableAddress) :=
  match final with
  | none => .ok s
  | some items =>
      let s := match items with
        | some items => Function.update s ichptFinal (vecUnmarshal fresh items)
        | none => s
      ichptUnion fresh qsort ichptInitial ichptFinal s

def finalRecord (round : Round) (s : EngineState) : Option (Option (List StableAddress)) :=
  round.reason.map fun reason =>
    if reason.isRecordFinal then some (contents (s.vecs ichptFinal)) else none

/-- `run_once`: the input is adjusted to, and the configuration handed to the engine. -/
def runOnce (input : Option (List StableAddress)) (round : Round) (s : Vecs StableAddress) :
    Except Fault (List (Option IchptEvent) × EngineState × Vecs StableAddress) := do
  let s ← adjust fresh qsort (input.map some) s
  let engine ← engineStart fresh qsort (contents (s ichptInitial))
  let (es, engine) ← engineRun fresh round round.calls engine
  .ok (es, engine, s)

def stressLoop (input : Option (List StableAddress)) (several : Bool) :
    List Round → Vecs StableAddress → Except Fault (List (List (Option IchptEvent)))
  | [], _ => .ok []
  | round :: rounds, s => do
      let (es, engine, s) ← runOnce fresh qsort input round s
      if round.err then .ok [es]
      else do
        let s ← if several then adjust fresh qsort (finalRecord round engine) s else .ok s
        let more ← stressLoop input several rounds s
        .ok (es :: more)

def stress (input : Option (List StableAddress)) (rounds : List Round) :
    Except Fault (List (List (Option IchptEvent))) :=
  stressLoop fresh qsort input (decide (1 < rounds.length)) rounds (ichptStart fresh)

end Sessions

end Lotto.Ichpt
