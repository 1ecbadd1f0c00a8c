import Lotto.CasPredictor

namespace Lotto.Rinflex

open Library.FaultRun

structure StackFrameId where
  sname : String ⊕ UInt64
  fname : String
  callerPc : UInt64
  deriving DecidableEq, Repr

abbrev StackTrace := List StackFrameId

structure Transition where
  id : TaskId
  pc : UInt64
  typeId : EventType
  after : Bool
  deriving DecidableEq, Repr

def Transition.new (ctx : Ctx) : Transition :=
  { id := ctx.id, pc := ctx.pc, typeId := ctx.typeId, after := ctx.after }

structure Event where
  t : Transition
  clk : Nat
  cnt : Nat
  stacktrace : StackTrace
  m : Option MemoryAccess
  deriving DecidableEq, Repr

/-- `GenericEventCore`. -/
structure EventCore (S : Type) where
  t : Transition
  stacktrace : S
  eff : Eff
  deriving DecidableEq, Repr

/-- `EventCore::from`. -/
def Event.core (e : Event) : EventCore StackTrace :=
  { t := e.t, stacktrace := e.stacktrace, eff := Eff.of e.m }

def Event.equals (e other : Event) : Bool := e.core == other.core

structure IdMap (α : Type) where
  vec : List α
  deriving DecidableEq, Repr

variable {α : Type} [DecidableEq α]

def IdMap.put (obj : α) (m : IdMap α) : Nat × IdMap α :=
  if obj ∈ m.vec then (m.vec.idxOf obj, m) else (m.vec.length, { vec := m.vec ++ [obj] })

structure Count where
  capture : Nat
  resume : Nat
  deriving DecidableEq, Repr

abbrev Counts := AList fun _ : EventCore Nat => Count

structure EventHandler where
  tasks : AList fun _ : TaskId => Event
  pcCnt : Counts
  stMap : IdMap StackTrace
  deriving DecidableEq

def EventHandler.new : EventHandler := { tasks := ∅, pcCnt := ∅, stMap := ⟨[]⟩ }

/-- `entry(ecore).and_modify(f).or_insert(new)`, with the entry that it leaves. -/
def entry (ecore : EventCore Nat) (modify : Count → Count) (new : Count) (pcCnt : Counts) :
    Count × Counts :=
  let cnt := (pcCnt.lookup ecore).elim new modify
  (cnt, pcCnt.insert ecore cnt)

def capture (pcCnt : Counts) (ecore : EventCore Nat) : Count × Counts :=
  entry ecore (fun cnt => { cnt with capture := cnt.resume + 1 }) { capture := 1, resume := 0 } pcCnt

def resume (pcCnt : Counts) (ecore : EventCore Nat) : Count × Counts :=
  entry ecore (fun cnt => { cnt with resume := cnt.capture }) { capture := 0, resume := 1 } pcCnt

def uncapture (pcCnt : Counts) (ecore : EventCore Nat) : Except Fault Counts :=
  match pcCnt.lookup ecore with
  | some cnt => do
      check (decide (0 < cnt.capture)) .eventUncapture
      .ok (pcCnt.insert ecore { cnt with capture := cnt.capture - 1 })
  | none => .ok pcCnt

def recapture (pcCnt : Counts) (ecore : EventCore Nat) : Count × Counts :=
  entry ecore (fun cnt => { capture := cnt.capture + 1, resume := cnt.capture + 1 })
    { capture := 1, resume := 1 } pcCnt

/-- `handle`. `stacktrace` is the answer of the stack trace handler for the task. -/
def eventHandle (enabled : Bool) (ctx : Ctx) (clk : Nat) (stacktrace : Option StackTrace)
    (cas : CasPredictor) (h : EventHandler) : EventHandler :=
  if enabled then
    let stacktrace := stacktrace.getD []
    let ma := getRtMemoryAccess ctx.id cas
    let st := h.stMap.put stacktrace
    let t := Transition.new ctx
    let cnt := capture h.pcCnt { t, stacktrace := st.1, eff := Eff.of ma }
    { tasks := h.tasks.insert ctx.id { t, clk, cnt := cnt.1.capture, stacktrace, m := ma }
      pcCnt := cnt.2
      stMap := st.2 }
  else h

def resumeEvent (id : TaskId) (e : Event) (cas : CasPredictor) (h : EventHandler) :
    Except Fault EventHandler :=
  let st := h.stMap.put e.stacktrace
  let ecore : EventCore Nat := { t := e.t, stacktrace := st.1, eff := Eff.of e.m }
  let h := { h with stMap := st.2 }
  match e.m with
  | none => .ok { h with pcCnt := (resume h.pcCnt ecore).2 }
  | some oldm =>
      match getRtMemoryAccess id cas with
      | none => .error .eventNoRealAccess
      | some realm =>
          if oldm.loadedValue = realm.loadedValue then
            .ok { h with pcCnt := (resume h.pcCnt ecore).2 }
          else do
            let pcCnt ← uncapture h.pcCnt ecore
            let newcnt := recapture pcCnt { ecore with eff := Eff.of (some realm) }
            .ok { h with
              tasks := h.tasks.insert id { e with cnt := newcnt.1.resume, m := some realm }
              pcCnt := newcnt.2 }

def eventPosthandle (enabled : Bool) (ctx : Ctx) (cas : CasPredictor) (h : EventHandler) :
    Except Fault EventHandler :=
  if ctx.typeId = .any || !enabled then .ok h
  else
    match h.tasks.lookup ctx.id with
    | none => .ok h
    | some e => resumeEvent ctx.id e cas h

def getEventHappenedCnt (ecore : EventCore StackTrace) (h : EventHandler) : Nat × EventHandler :=
  let st := h.stMap.put ecore.stacktrace
  let key : EventCore Nat := { t := ecore.t, stacktrace := st.1, eff := ecore.eff }
  (((h.pcCnt.lookup key).map Count.resume).getD 0, { h with stMap := st.2 })

def getEvent (task : TaskId) (h : EventHandler) : Option Event := h.tasks.lookup task

def getRtEvent (task : TaskId) (cas : CasPredictor) (h : EventHandler) :
    Except Fault (Option Event) :=
  match h.tasks.lookup task with
  | none => .ok none
  | some event =>
      if (event.m.map Modify.hasInvalidRealAddr).getD false then do
        let m := getRtMemoryAccess task cas
        check m.isSome .eventNoRealModify
        .ok (some { event with m })
      else .ok (some event)

def updateEvent (mem : Memory) (task : TaskId) (cas : CasPredictor) (h : EventHandler) :
    Except Fault (CasPredictor × EventHandler) := do
  let cas ← updateMemoryAccess mem task cas
  match h.tasks.lookup task with
  | some e =>
      .ok (cas, { h with tasks := h.tasks.insert task { e with m := getMemoryAccess task cas } })
  | none => .ok (cas, h)

end Lotto.Rinflex
