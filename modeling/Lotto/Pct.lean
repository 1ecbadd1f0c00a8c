import Lotto.TaskMap

namespace Lotto

open Library.FaultRun Library.KeyMap Library.Preference

structure PctConfig where
  enabled : Bool
  strategy : String
  k : UInt64
  d : UInt64
  chpts : UInt64
  deriving DecidableEq, Repr

structure PctState where
  map : Tidmap UInt64
  chpts : UInt64
  kmax : UInt64
  nmax : UInt64
  deriving DecidableEq

def pctStart : PctState := { map := ∅, chpts := 0, kmax := 0, nmax := 0 }

def pctPriority (rval : UInt64) : UInt64 := rval

/-- `_pct_is_change_point`; the remainder is only taken while change points are left. -/
def pctIsChangePoint (config : PctConfig) (randVal : UInt64) (st : PctState) : Except Fault Bool :=
  if st.chpts < config.chpts then do
    check (config.k != 0) .zeroDivisor
    .ok (decide (randVal % config.k ≤ config.d))
  else .ok false

def pctUpdate (config : PctConfig) (id : TaskId) (rval : UInt64) (st : PctState) :
    Except Fault PctState :=
  if tidmapSize st.map ≤ 1 then .ok st
  else do
    let st := { st with kmax := st.kmax + 1 }
    let change ← pctIsChangePoint config rval st
    if !change then .ok st
    else .ok { st with
      map := st.map.replace id (pctPriority rval)
      chpts := if st.chpts < config.chpts then st.chpts + 1 else st.chpts }

/-- The 'initialization' part of `_pct_handle`; a task that goes on has to be registered. -/
def pctInit {G : Type} (prngNext : G → UInt64 × G) (cp : CapturePoint) (e : Decision)
    (map : Tidmap UInt64) (g : G) : Except Fault (Tidmap UInt64 × G) := do
  let (map, g) ← taskLifecycle (fun g => ((pctPriority (prngNext g).1), (prngNext g).2)) cp e map g
  if cp.typeId = eventTaskFini then .ok (map, g)
  else do
    let known ← tidmapFind map cp.id
    check known.isSome .taskMapUnknown
    .ok (map, g)

/-- `if (t) _pct_update(t, prng_next())`; `t` is NULL at FINI. -/
def pctDraw {G : Type} (config : PctConfig) (prngNext : G → UInt64 × G) (cp : CapturePoint)
    (st : PctState) (g : G) : Except Fault (PctState × G) :=
  if cp.typeId = eventTaskFini then .ok (st, g)
  else do
    let (rval, g) := prngNext g
    let st ← pctUpdate config cp.id rval st
    .ok (st, g)

def pctDecides (config : PctConfig) (e : Decision) : Bool :=
  strategyDecides config.enabled config.strategy "pct" e && !e.skip

def pctHandle {G : Type} (config : PctConfig) (prngNext : G → UInt64 × G) (cp : CapturePoint)
    (e : Decision) (st : PctState) (g : G) : Except Fault (Decision × PctState × G) := do
  let (map, g) ← pctInit prngNext cp e st.map g
  let st := { st with map }
  if !pctDecides config e then .ok (e, st, g)
  else do
    let (st, g) ← pctDraw config prngNext cp st g
    let st := { st with kmax := st.kmax + 1 }
    let tset ← prioritySort id st.map e.tset
    let size := (tidmapSize st.map).toUInt64
    .ok (chooseFirst e tset, { st with nmax := if st.nmax < size then size else st.nmax }, g)

end Lotto
