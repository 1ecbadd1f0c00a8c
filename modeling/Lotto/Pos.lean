import Lotto.TaskMap

namespace Lotto

open Library.FaultRun Library.KeyMap Library.Preference

/-- `pos_config_t`, with the strategy of the sequencer's configuration and the number in
LOTTO_POS_WD_THRESHOLD, if that is set. -/
structure PosConfig where
  enabled : Bool
  strategy : String
  wdThreshold : UInt64
  wdVariable : Option UInt64
  deriving DecidableEq, Repr

structure PosTask where
  priority : UInt64
  addr : UInt64
  isWrite : Bool
  deriving DecidableEq, Repr

/-- `_state`, with the divisor and the threshold that the first capture writes. -/
structure PosState where
  map : Tidmap PosTask
  wd : Option (UInt64 × UInt64)
  deriving DecidableEq

def posStart : PosState := { map := ∅, wd := none }

def posOnce (config : PosConfig) (wd : Option (UInt64 × UInt64)) : Except Fault (UInt64 × UInt64) :=
  match wd with
  | some wd => .ok wd
  | none => do
      let divisor := config.wdVariable.getD 10
      check (divisor != 0) .zeroDivisor
      .ok (divisor, config.wdThreshold / divisor)

section Draws

variable {G : Type} (prngNext : G → UInt64 × G)

/-- `_fresh_priority(prng_next())`. -/
def freshPriority (g : G) : UInt64 × G := prngNext g

def freshTask (addr : UInt64) (isWrite : Bool) (g : G) : PosTask × G :=
  let (priority, g) := freshPriority prngNext g
  ({ priority, addr, isWrite }, g)

/-- The test of `_reset_races`: some other task accesses the address, and one of both writes. -/
def hasRace (map : Tidmap PosTask) (id : TaskId) (t : PosTask) : Bool :=
  map.entries.any fun item =>
    item.1 != id && t.addr == item.2.addr && (t.isWrite || item.2.isWrite)

/-- The second loop of `_reset_races`, over the keys in the order of the map. -/
def resetLoop (id : TaskId) (addr : UInt64) :
    List TaskId → Tidmap PosTask → G → Tidmap PosTask × G
  | [], map, g => (map, g)
  | other :: rest, map, g =>
      match map.lookup other with
      | some task =>
          if other = id ∨ addr ≠ task.addr then resetLoop id addr rest map g
          else
            let (priority, g) := freshPriority prngNext g
            resetLoop id addr rest (map.replace other { task with priority }) g
      | none => resetLoop id addr rest map g

def resetRaces (id : TaskId) (map : Tidmap PosTask) (g : G) : Except Fault (Tidmap PosTask × G) := do
  let known ← tidmapFind map id
  match known with
  | none => .error .taskMapUnknown
  | some t =>
      if t.addr = 0 then .ok (map, g)
      else if !hasRace map id t then .ok (map, g)
      else .ok (resetLoop prngNext id t.addr map.keys map g)

def resetWd (divisor : UInt64) (map : Tidmap PosTask) : Tidmap PosTask :=
  map.keys.foldl (fun map id =>
    match map.lookup id with
    | some task => map.replace id { task with priority := task.priority * divisor }
    | none => map) map

/-- What becomes of the captured task's item; `access` is what its event accesses. -/
def posUpdate (wd : UInt64 × UInt64) (cp : CapturePoint) (access : UInt64 × Bool)
    (map : Tidmap PosTask) (g : G) : Except Fault (Tidmap PosTask × G) := do
  let known ← tidmapFind map cp.id
  match known with
  | some t =>
      let t := { t with addr := access.1, isWrite := access.2 }
      if t.priority < wd.2 then .ok (resetWd wd.1 (map.replace cp.id t), g)
      else
        let (priority, g) := freshPriority prngNext g
        .ok (map.replace cp.id { t with priority }, g)
  | none =>
      if cp.typeId = eventTaskFini then .ok (map, g)
      else do
        let (task, g) := freshTask prngNext access.1 access.2 g
        let map ← tidmapRegister map cp.id task
        .ok (map, g)

end Draws

/-- The switch over the event type: the accessed address and whether it is written. `accesses`
tells the reading and writing event types. INIT and FINI access nothing. -/
def posAccess (accesses : TypeId → Option Bool) (cp : CapturePoint) : UInt64 × Bool :=
  if cp.typeId = eventTaskFini ∨ cp.typeId = eventTaskInit then (0, false)
  else
    match accesses cp.typeId with
    | some isWrite => (cp.payloadAddr, isWrite)
    | none => (0, false)

def posDecides (config : PosConfig) (e : Decision) : Bool :=
  strategyDecides config.enabled config.strategy "pos" e

def posHandle {G : Type} (config : PosConfig) (accesses : TypeId → Option Bool)
    (prngNext : G → UInt64 × G) (cp : CapturePoint) (e : Decision) (st : PosState) (g : G) :
    Except Fault (Decision × PosState × G) := do
  let wd ← posOnce config st.wd
  if e.skip then .ok (e, { st with wd := some wd }, g)
  else do
    let (map, g) ← taskLifecycle (freshTask prngNext 0 false) cp e st.map g
    if !posDecides config e then .ok (e, { map, wd := some wd }, g)
    else do
      let (map, g) ← posUpdate prngNext wd cp (posAccess accesses cp) map g
      let tset ← prioritySort PosTask.priority map e.tset
      let (map, g) ← resetRaces prngNext (tset.get 0) map g
      .ok (chooseFirst e tset, { map, wd := some wd }, g)

end Lotto
