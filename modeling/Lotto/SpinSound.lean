import Lotto.SpinDispatch
import Lotto.SpinRun

namespace Lotto.SpinMemory

open Library.FaultRun Library.GuardedRun Library.KeyMap
open Lotto.Rusty Lotto.SpinLoop

def low (size : AddrSize) (v : BitVec 128) : BitVec (8 * size.toNat) := v.setWidth _

def setLow (size : AddrSize) (v new : BitVec 128) : BitVec 128 :=
  v >>> (8 * size.toNat) <<< (8 * size.toNat) ||| (low size new).setWidth 128

def store (mem : Cells) (addr : Address) (size : AddrSize) (val : UInt64) : Cells :=
  Function.update mem addr (setLow size (mem addr) (val.toBitVec.setWidth 128))

def exchange (mem : Cells) (addr : Address) (size : AddrSize) (cmp val : UInt64)
    (spurious : Bool) : Cells :=
  if low size (mem addr) = low size (cmp.toBitVec.setWidth 128) ∧ spurious = false then
    store mem addr size val
  else mem

def modify (mem : Cells) (addr : Address) (size : AddrSize) (val : UInt64) (func : List Char) :
    Cells :=
  match RmwOp.ofName func with
  | none => mem
  | some op =>
      store mem addr size (op.apply (.ofBitVec ((low size (mem addr)).setWidth 64)) val)

def effect (event : Event) (addr : Address) (mem : Cells) : Cells :=
  match event with
  | .write _ _ new => Function.update mem addr new
  | .awrite _ size val | .xchg _ size val => store mem addr size val
  | .rmw _ size val func => modify mem addr size val func
  | .cmpxchg _ size cmp val => exchange mem addr size cmp val false
  | .cmpxchgWeak _ size cmp val spurious => exchange mem addr size cmp val spurious
  | _ => mem

/-- The raw address of an access, and whether it reads there. -/
def target : Event → Option (UInt64 × Bool)
  | .aread addr _ | .read addr _ => some (addr, true)
  | .write addr _ _ | .awrite addr _ _ => some (addr, false)
  | .rmw addr _ _ _ | .xchg addr _ _ | .cmpxchg addr _ _ _ | .cmpxchgWeak addr _ _ _ _ =>
      some (addr, true)
  | _ => none

def accessed (ctx : Capture) : Option (Address × Bool) :=
  if ctx.after then none
  else (target ctx.event).bind fun t => (Address.tryFrom t.1).map fun addr => (addr, t.2)

def perform (ctx : Capture) (mem : Cells) : Cells :=
  match accessed ctx with
  | none => mem
  | some access => effect ctx.event access.1 mem

/-- The handler, its table and the memory, with the events that have arrived and not executed yet.
`seen` are the addresses read in the current iteration of a loop, and `stale` loops are those of
which another task has changed such an address after it was read. -/
structure World where
  spin : SpinLoop.World
  table : AList fun _ : TaskId => EventArgs
  mem : Cells
  pending : TaskId → Option Capture
  seen : Loop → List Address
  stale : Loop → Bool

inductive Move where
  | arrive (tid : TaskId) (ctx : Capture) (order : List Address → List Address)
  | execute (tid : TaskId)

/-- A task arrives at its next event when the last one is executed. Its loops are well bracketed. -/
def Allowed (w : World) : Move → Prop
  | .arrive tid ctx order => w.pending tid = none ∧
      match ctx.event with
      | .spinEnd _ => 0 < w.spin.depth tid ∧ w.spin.repeats tid = false ∧
          ∀ as, (order as).Perm as
      | _ => True
  | .execute _ => True

def World.arrived (w : World) (tid : TaskId) (ctx : Capture) (d : Dispatch) : World :=
  let w := { w with table := d.table, pending := Function.update w.pending tid (some ctx) }
  match ctx.event with
  | .spinStart =>
      let spin := w.spin.started tid d.st
      { w with
        spin
        seen := Function.update w.seen (tid, spin.depth tid) []
        stale := Function.update w.stale (tid, spin.depth tid) false }
  | .spinEnd cond => { w with spin := w.spin.ended tid cond d.st }
  | _ => { w with spin := { w.spin with st := d.st } }

def World.seenAfter (w : World) (tid : TaskId) (access : Option (Address × Bool)) (l : Loop) :
    List Address :=
  match access with
  | some (addr, true) =>
      if l.1 = tid ∧ 1 ≤ l.2 ∧ l.2 ≤ w.spin.depth tid then addr :: w.seen l else w.seen l
  | _ => w.seen l

def World.executed (w : World) (tid : TaskId) (d : Dispatch) : World :=
  let mem := match w.pending tid with
    | none => w.mem
    | some ctx => perform ctx w.mem
  { spin := { w.spin with st := d.st }
    table := d.table
    mem
    pending := Function.update w.pending tid none
    seen := w.seenAfter tid ((w.pending tid).bind accessed)
    stale := fun l => w.stale l || (l.1 != tid && (w.seen l).any fun a => mem a != w.mem a) }

def step : Move → World → Except Fault World
  | .arrive tid ctx order, w => do
      let d ← publishArrival w.mem order tid ctx ⟨w.spin.st, w.table⟩
      .ok (w.arrived tid ctx d)
  | .execute tid, w => do
      let d ← publishExecute w.mem tid ⟨w.spin.st, w.table⟩
      .ok (w.executed tid d)

def start (mem : Cells) : World :=
  { spin := SpinLoop.start, table := ∅, mem, pending := fun _ => none, seen := fun _ => []
    stale := fun _ => false }

/-- The runs from the given memory in which every step meets a condition. -/
def system (mem : Cells) (meets : World → Move → Prop) : Guarded World Move Fault :=
  { start := start mem, step, allowed := fun w move => Allowed w move ∧ meets w move }

/-- The task executes a read-modify-write while the variable has the value computed at its arrival,
and the operation changes the variable all the same. -/
def missed (w : World) (tid : TaskId) : Bool :=
  match w.pending tid, w.table.lookup tid with
  | some ⟨after, .rmw raw size val func⟩, some (.addressValue .beforeRMW addr length value) =>
      decide (getValueFromAddr w.mem addr length = .ok value) &&
        perform ⟨after, .rmw raw size val func⟩ w.mem addr != w.mem addr
  | _, _ => false

def Counted (w : World) : Move → Prop
  | .execute tid => missed w tid = false
  | .arrive _ _ _ => True

section Values

variable {mem mem' : Cells} {a k : Address} {size : AddrSize} {val cmp : UInt64} {v v' : Value}

theorem setLow_same {x new : BitVec 128} (same : low size x = low size new) :
    setLow size x new = x := by
  rw [setLow, ← same, low]
  apply BitVec.eq_of_getLsbD_eq
  intro i bound
  simp only [BitVec.getLsbD_or, BitVec.getLsbD_shiftLeft, BitVec.getLsbD_ushiftRight,
    BitVec.getLsbD_setWidth]
  by_cases inside : i < 8 * size.toNat
  · simp [bound, inside]
  · have back : 8 * size.toNat + (i - 8 * size.toNat) = i := by omega
    simp [bound, inside, back]

theorem low_wide (w : Nat) (fits : w ≤ 128) (val : UInt64) :
    (val.toBitVec.setWidth 128).setWidth w = val.toBitVec.setWidth w :=
  BitVec.setWidth_setWidth_of_le _ fits

theorem value_eq_iff (found : getValueFromAddr mem a size = .ok v)
    (given : valueFromSize size val = .ok v') :
    v = v' ↔ low size (mem a) = low size (val.toBitVec.setWidth 128) := by
  rw [valueFromSize] at given
  split at given
  next width =>
    subst width
    cases given
    cases found
    show _ ↔ (mem a).setWidth 8 = (val.toBitVec.setWidth 128).setWidth 8
    rw [low_wide 8 (by decide), Value.u8.injEq]
    exact ⟨fun same => congrArg UInt8.toBitVec same, fun same => congrArg UInt8.ofBitVec same⟩
  next =>
  split at given
  next width =>
    subst width
    cases given
    cases found
    show _ ↔ (mem a).setWidth 16 = (val.toBitVec.setWidth 128).setWidth 16
    rw [low_wide 16 (by decide), Value.u16.injEq]
    exact ⟨fun same => congrArg UInt16.toBitVec same, fun same => congrArg UInt16.ofBitVec same⟩
  next =>
  split at given
  next width =>
    subst width
    cases given
    cases found
    show _ ↔ (mem a).setWidth 32 = (val.toBitVec.setWidth 128).setWidth 32
    rw [low_wide 32 (by decide), Value.u32.injEq]
    exact ⟨fun same => congrArg UInt32.toBitVec same, fun same => congrArg UInt32.ofBitVec same⟩
  next =>
  split at given
  next width =>
    subst width
    cases given
    cases found
    show _ ↔ (mem a).setWidth 64 = (val.toBitVec.setWidth 128).setWidth 64
    rw [low_wide 64 (by decide), BitVec.setWidth_eq, Value.u64.injEq]
    exact ⟨fun same => congrArg UInt64.toBitVec same, fun same => congrArg UInt64.ofBitVec same⟩
  next => cases given

theorem store_other (other : k ≠ a) : store mem a size val k = mem k :=
  Function.update_of_ne other _ _

theorem modify_other {func : List Char} (other : k ≠ a) : modify mem a size val func k = mem k := by
  rw [modify]
  cases RmwOp.ofName func with
  | none => rfl
  | some op => exact store_other other

theorem exchange_other {spurious : Bool} (other : k ≠ a) :
    exchange mem a size cmp val spurious k = mem k := by
  rw [exchange]
  split
  · exact store_other other
  · rfl

theorem store_same (found : getValueFromAddr mem a size = .ok v)
    (given : valueFromSize size val = .ok v) : store mem a size val = mem := by
  rw [store, setLow_same ((value_eq_iff found given).mp rfl)]
  exact Function.update_eq_self a mem

theorem exchange_fails {spurious : Bool} (found : getValueFromAddr mem a size = .ok v)
    (given : valueFromSize size cmp = .ok v') (differs : v ≠ v') :
    exchange mem a size cmp val spurious = mem := by
  rw [exchange, if_neg]
  exact fun matched => differs ((value_eq_iff found given).mpr matched.1)

end Values

inductive Touches (mem : Cells) : EventArgs → Option Address → Option Address → Prop where
  | read (a : Address) (size : AddrSize) :
      Touches mem (.addressOnly .beforeRead a size) (some a) none
  | aread (a : Address) (size : AddrSize) :
      Touches mem (.addressOnly .beforeARead a size) (some a) none
  | write (a : Address) (size : AddrSize) :
      Touches mem (.addressOnly .beforeWrite a size) none (some a)
  | awrite (a : Address) (size : AddrSize) (value : Value) :
      Touches mem (.addressValue .beforeAWrite a size value) none (some a)
  | changes {a : Address} {size : AddrSize} {value current : Value}
      (found : getValueFromAddr mem a size = .ok current) (differs : current ≠ value) :
      Touches mem (.addressValue .beforeRMW a size value) (some a) (some a)
  | keeps {a : Address} {size : AddrSize} {value : Value}
      (found : getValueFromAddr mem a size = .ok value) :
      Touches mem (.addressValue .beforeRMW a size value) (some a) none
  | fails {a : Address} {size : AddrSize} {value1 value2 current : Value}
      (found : getValueFromAddr mem a size = .ok current) (differs : current ≠ value1) :
      Touches mem (.addressTwoValuesEvent .beforeCMPXCHG a size value1 value2) (some a) none
  | exchanges {a : Address} {size : AddrSize} {value1 value2 : Value}
      (found : getValueFromAddr mem a size = .ok value1) :
      Touches mem (.addressTwoValuesEvent .beforeCMPXCHG a size value1 value2) (some a) (some a)
  | nothing : Touches mem .noChanges none none

def touch (tid : TaskId) (read write : Option Address) (st : State) :
    Except Fault (Bool × State) := do
  let st ← read.elim (.ok st) fun a => executeReadEvent tid a st
  write.elim (.ok (false, st)) fun a => executeWriteEvent tid a st

section Touching

variable {mem mem' : Cells} {tid : TaskId} {args : EventArgs} {st : State} {out : Bool × State}
variable {read write : Option Address}

theorem executeEvent_touches (ran : executeEvent mem tid args st = .ok out) :
    ∃ read write, Touches mem args read write ∧ touch tid read write st = .ok out := by
  unfold executeEvent at ran
  split at ran
  next a size => exact ⟨some a, none, .read a size, ran⟩
  next a size => exact ⟨some a, none, .aread a size, ran⟩
  next a size => exact ⟨none, some a, .write a size, ran⟩
  next a size value =>
    obtain ⟨middle, reads, ran⟩ := bind_eq_ok.mp ran
    obtain ⟨current, found, ran⟩ := bind_eq_ok.mp ran
    split at ran
    next differs =>
      refine ⟨some a, some a, .changes found differs, ?_⟩
      rw [touch, Option.elim_some, reads]
      exact ran
    next same =>
      rw [not_not.mp same] at found
      refine ⟨some a, none, .keeps found, ?_⟩
      rw [touch, Option.elim_some, reads]
      exact ran
  next a size value => exact ⟨none, some a, .awrite a size value, ran⟩
  next a size value1 value2 =>
    obtain ⟨current, found, ran⟩ := bind_eq_ok.mp ran
    split at ran
    next differs => exact ⟨some a, none, .fails found differs, ran⟩
    next same =>
      rw [not_not.mp same] at found
      exact ⟨some a, some a, .exchanges found, ran⟩
  next => exact ⟨none, none, .nothing, ran⟩

/-- The loops that are left after an event of the task have its read, and those of other tasks have
not read what it writes. -/
structure Touched (tid : TaskId) (read write : Option Address) (st st' : State) : Prop where
  tables : Tables none st'
  grown : Grown st st'
  added : ∀ a, read = some a → ∀ l ∈ st'.comaximalLoops, l.1 = tid → a ∈ reads st' l
  apart : ∀ a, write = some a → ∀ l ∈ st'.comaximalLoops, l.1 ≠ tid → a ∉ reads st l

theorem touch_ok (tables : Tables none st) (ran : touch tid read write st = .ok out) :
    Touched tid read write st out.2 := by
  obtain ⟨middle, reading, ran⟩ := bind_eq_ok.mp ran
  have first : Tables none middle ∧ Grown st middle ∧
      ∀ a, read = some a → ∀ l ∈ middle.comaximalLoops, l.1 = tid → a ∈ reads middle l := by
    cases read with
    | none =>
        cases reading
        exact ⟨tables, (Shrunk.refl st).grown, nofun⟩
    | some a =>
        obtain ⟨st', ran', tables', grown, added⟩ := executeReadEvent_ok tables tid a
        rw [Option.elim_some, ran'] at reading
        cases reading
        refine ⟨tables', grown, ?_⟩
        intro k same
        cases same
        exact added
  obtain ⟨tables', grown, added⟩ := first
  cases write with
  | none =>
      cases ran
      exact ⟨tables', grown, added, nofun⟩
  | some a =>
      obtain ⟨res, st', ran', tables'', shrunk, gone, -⟩ :=
        executeWriteEvent_ok tables' tid a nofun nofun
      rw [Option.elim_some, ran'] at ran
      cases ran
      refine ⟨tables'', grown.trans shrunk.grown, ?_, ?_⟩
      · intro k same l member mine
        exact shrunk.grown.reading l member (added k same l (shrunk.comaximal member) mine)
      · intro k same l member other read_before
        cases same
        have left := shrunk.comaximal member
        apply gone l member other
        exact (tables'.monitored a l).mpr
          ⟨_, tables'.reads_eq left, grown.reading l left read_before⟩

theorem accessed_some {ctx : Capture} {a : Address} {reads : Bool}
    (access : accessed ctx = some (a, reads)) : ctx.after = false ∧
      ∃ raw, target ctx.event = some (raw, reads) ∧ Address.tryFrom raw = some a := by
  rw [accessed] at access
  split at access
  · cases access
  next before =>
    obtain ⟨t, found, access⟩ := Option.bind_eq_some_iff.mp access
    obtain ⟨addr, valid, same⟩ := Option.map_eq_some_iff.mp access
    cases same
    exact ⟨Bool.eq_false_iff.mpr before, t.1, found, valid⟩

theorem eq_of_update_ne {f : Cells} {a k : Address} {v : BitVec 128}
    (differs : Function.update f a v k ≠ f k) : k = a := by
  by_contra other
  exact differs (Function.update_of_ne other _ _)

theorem touches_exchange {a : Address} {size : AddrSize} {cmp val : UInt64} {spurious reads : Bool}
    {value1 value2 : Value} (given : valueFromSize size cmp = .ok value1)
    (touches : Touches mem (.addressTwoValuesEvent .beforeCMPXCHG a size value1 value2) read write) :
    (reads = true → read = some a) ∧
      ∀ k, exchange mem a size cmp val spurious k ≠ mem k → write = some k := by
  cases touches with
  | fails found unequal =>
      refine ⟨fun _ => rfl, ?_⟩
      intro k differs
      exact absurd (congrFun (exchange_fails found given unequal) k) differs
  | exchanges =>
      refine ⟨fun _ => rfl, ?_⟩
      intro k differs
      by_contra other
      exact differs (exchange_other fun same => other (congrArg some same.symm))

/-- The handler sees the access: its read, and its write if the variable changes. A
read-modify-write is seen to write unless it is taken for one that changes nothing. -/
theorem touches_access {ctx : Capture} {a : Address} {reads : Bool}
    (filed : EventArgs.new mem' ctx = .ok args) (touches : Touches mem args read write)
    (access : accessed ctx = some (a, reads))
    (counted : ∀ raw size val func value, ctx.event = .rmw raw size val func →
      args = .addressValue .beforeRMW a size value →
      getValueFromAddr mem a size = .ok value → effect ctx.event a mem a = mem a) :
    (reads = true → read = some a) ∧ ∀ k, effect ctx.event a mem k ≠ mem k → write = some k := by
  obtain ⟨before, raw, found, valid⟩ := accessed_some access
  rw [EventArgs.new] at filed
  simp only [before, Bool.false_eq_true, if_false] at filed
  cases event : ctx.event with
  | aread addr size =>
      rw [event] at found filed
      cases found
      simp only [valid] at filed
      cases filed
      cases touches
      exact ⟨fun _ => rfl, fun k differs => absurd rfl differs⟩
  | read addr size =>
      rw [event] at found filed
      cases found
      simp only [valid] at filed
      cases filed
      cases touches
      exact ⟨fun _ => rfl, fun k differs => absurd rfl differs⟩
  | write addr size new =>
      rw [event] at found filed
      cases found
      simp only [valid] at filed
      cases filed
      cases touches
      exact ⟨nofun, fun k differs => congrArg some (eq_of_update_ne differs).symm⟩
  | awrite addr size val =>
      rw [event] at found filed
      cases found
      simp only [valid] at filed
      obtain ⟨value, given, same⟩ := bind_eq_ok.mp filed
      cases same
      cases touches
      exact ⟨nofun, fun k differs => congrArg some (eq_of_update_ne differs).symm⟩
  | rmw addr size val func =>
      have kept := counted addr size val func
      rw [event] at found filed kept
      cases found
      simp only [valid] at filed
      obtain ⟨value, -, filed⟩ := bind_eq_ok.mp filed
      obtain ⟨new, -, same⟩ := bind_eq_ok.mp filed
      cases same
      have only : ∀ k, modify mem a size val func k ≠ mem k → k = a := by
        intro k differs
        by_contra other
        exact differs (modify_other other)
      cases touches with
      | changes => exact ⟨fun _ => rfl, fun k differs => congrArg some (only k differs).symm⟩
      | keeps found =>
          refine ⟨fun _ => rfl, ?_⟩
          intro k differs
          obtain rfl := only k differs
          exact absurd (kept new rfl rfl found) differs
  | xchg addr size val =>
      rw [event] at found filed
      cases found
      simp only [valid] at filed
      obtain ⟨value, given, same⟩ := bind_eq_ok.mp filed
      cases same
      cases touches with
      | changes =>
          exact ⟨fun _ => rfl, fun k differs => congrArg some (eq_of_update_ne differs).symm⟩
      | keeps found =>
          exact ⟨fun _ => rfl, fun k differs => absurd (congrFun (store_same found given) k) differs⟩
  | cmpxchg addr size cmp val =>
      rw [event] at found filed
      cases found
      simp only [valid] at filed
      obtain ⟨value1, given, filed⟩ := bind_eq_ok.mp filed
      obtain ⟨value2, -, same⟩ := bind_eq_ok.mp filed
      cases same
      exact touches_exchange given touches
  | cmpxchgWeak addr size cmp val spurious =>
      rw [event] at found filed
      cases found
      simp only [valid] at filed
      obtain ⟨value1, given, filed⟩ := bind_eq_ok.mp filed
      obtain ⟨value2, -, same⟩ := bind_eq_ok.mp filed
      cases same
      exact touches_exchange given touches
  | spinStart =>
      rw [event] at found
      cases found
  | spinEnd cond =>
      rw [event] at found
      cases found
  | other =>
      rw [event] at found
      cases found

end Touching

/-- Every loop under observation watches all that it has read, and nothing of it has changed. -/
structure Sound (w : World) : Prop where
  held : Held w.spin
  filed : ∀ t ctx, w.pending t = some ctx → ∃ mem args, EventArgs.new mem ctx = .ok args ∧
    w.table.lookup t = some args
  unfiled : ∀ t, w.pending t = none → w.table.lookup t = none
  watched : ∀ l ∈ w.spin.st.comaximalLoops, w.seen l ⊆ reads w.spin.st l
  fresh : ∀ l ∈ w.spin.st.comaximalLoops, w.stale l = false

section Run

variable {w w' : World} {tid : TaskId} {ctx : Capture}

theorem sound_start (mem : Cells) : Sound (start mem) :=
  ⟨held_kept.start, nofun, fun _ _ => rfl, fun _ _ => List.Subset.refl _, fun _ _ => rfl⟩

theorem Sound.arrive (sound : Sound w) {mem : Cells} {args : EventArgs}
    (made : EventArgs.new mem ctx = .ok args) {spin : SpinLoop.World} (held : Held spin)
    {seen : Loop → List Address} {stale : Loop → Bool}
    (watched : ∀ l ∈ spin.st.comaximalLoops, seen l ⊆ reads spin.st l)
    (fresh : ∀ l ∈ spin.st.comaximalLoops, stale l = false) :
    Sound { w with
      spin, seen, stale
      table := w.table.insert tid args
      pending := Function.update w.pending tid (some ctx) } := by
  refine ⟨held, ?_, ?_, watched, fresh⟩
  · intro t other waits
    dsimp only at waits ⊢
    by_cases same : t = tid
    · subst same
      rw [Function.update_self] at waits
      cases waits
      exact ⟨mem, args, made, AList.lookup_insert _⟩
    · rw [Function.update_of_ne same] at waits
      rw [AList.lookup_insert_ne same]
      exact sound.filed t other waits
  · intro t idle
    dsimp only at idle ⊢
    by_cases same : t = tid
    · subst same
      rw [Function.update_self] at idle
      cases idle
    · rw [Function.update_of_ne same] at idle
      rw [AList.lookup_insert_ne same]
      exact sound.unfiled t idle

theorem Sound.arriveStart (sound : Sound w) {args : EventArgs} {mem : Cells}
    (made : EventArgs.new mem ctx = .ok args) (event : ctx.event = .spinStart) {st : State}
    (ran : handleSpinStartContext tid w.spin.st = .ok st) :
    Sound (w.arrived tid ctx ⟨st, w.table.insert tid args⟩) := by
  obtain ⟨st', ran', held, begun⟩ := sound.held.spinStart tid
  rw [ran] at ran'
  cases ran'
  rw [World.arrived, event]
  apply sound.arrive made held
  · intro l member
    by_cases same : l = (tid, (w.spin.started tid st).depth tid)
    · subst same
      dsimp only
      rw [Function.update_self]
      exact List.nil_subset _
    · have before := (begun.comaximal l member).resolve_left same
      dsimp only
      rw [Function.update_of_ne same]
      show w.seen l ⊆ reads st l
      rw [begun.reading l member same]
      exact sound.watched l before
  · intro l member
    by_cases same : l = (tid, (w.spin.started tid st).depth tid)
    · subst same
      exact Function.update_self _ _ _
    · dsimp only
      rw [Function.update_of_ne same]
      exact sound.fresh l ((begun.comaximal l member).resolve_left same)

theorem Sound.arriveEnd (sound : Sound w) {args : EventArgs} {mem : Cells}
    (made : EventArgs.new mem ctx = .ok args) {cond : UInt32} (event : ctx.event = .spinEnd cond)
    {order : List Address → List Address} (pos : 0 < w.spin.depth tid)
    (once : w.spin.repeats tid = false) (reordered : ∀ as, (order as).Perm as) {st : State}
    (ran : handleSpinEndContext order tid cond w.spin.st = .ok st) :
    Sound (w.arrived tid ctx ⟨st, w.table.insert tid args⟩) := by
  obtain ⟨st', ran', held, narrowed⟩ := sound.held.spinEnd cond pos once reordered
  rw [ran] at ran'
  cases ran'
  have same : (w.spin.ended tid cond st).st = st := by
    rw [World.ended]
    split
    · rfl
    · rfl
  rw [World.arrived, event]
  apply sound.arrive made held
  · intro l member
    rw [same] at member ⊢
    rw [narrowed.reading l member]
    exact sound.watched l (narrowed.comaximal member)
  · intro l member
    rw [same] at member
    exact sound.fresh l (narrowed.comaximal member)

theorem sound_arrives (sound : Sound w) {order : List Address → List Address}
    (allowed : Allowed w (.arrive tid ctx order))
    (stepped : step (.arrive tid ctx order) w = .ok w') : Sound w' := by
  obtain ⟨d, published, same⟩ := bind_eq_ok.mp stepped
  cases same
  obtain ⟨args, made, published⟩ := bind_eq_ok.mp published
  obtain ⟨st, called, same⟩ := bind_eq_ok.mp published
  cases same
  obtain ⟨-, bracketed⟩ := allowed
  cases event : ctx.event with
  | spinStart =>
      rw [event] at called
      exact sound.arriveStart made event called
  | spinEnd cond =>
      rw [event] at called bracketed
      exact sound.arriveEnd made event bracketed.1 bracketed.2.1 bracketed.2.2 called
  | aread | read | write | awrite | rmw | xchg | cmpxchg | cmpxchgWeak | other =>
      rw [event] at called
      cases called
      rw [World.arrived, event]
      exact sound.arrive made sound.held sound.watched sound.fresh

theorem counted_keeps (counted : Counted w (.execute tid)) (waits : w.pending tid = some ctx)
    {raw size val : UInt64} {func : List Char} (event : ctx.event = .rmw raw size val func)
    {a : Address} {value : Value}
    (found : w.table.lookup tid = some (.addressValue .beforeRMW a size value))
    (current : getValueFromAddr w.mem a size = .ok value) : perform ctx w.mem a = w.mem a := by
  obtain ⟨after, _⟩ := ctx
  cases event
  rw [Counted, missed, waits, found] at counted
  simpa [current] using counted

/-- The tables after the execution of an event: the loops that are left have its read, and those of
other tasks have not read a variable that changes. -/
theorem execute_touched (sound : Sound w) (counted : Counted w (.execute tid)) {d : Dispatch}
    (published : publishExecute w.mem tid ⟨w.spin.st, w.table⟩ = .ok d) :
    d.table = w.table.erase tid ∧ Tables none d.st ∧ Grown w.spin.st d.st ∧
      (∀ a, (w.pending tid).bind accessed = some (a, true) →
        ∀ l ∈ d.st.comaximalLoops, l.1 = tid → a ∈ reads d.st l) ∧
      ∀ a, (w.executed tid d).mem a ≠ w.mem a →
        ∀ l ∈ d.st.comaximalLoops, l.1 ≠ tid → a ∉ reads w.spin.st l := by
  obtain ⟨st, handled, same⟩ := bind_eq_ok.mp published
  cases same
  obtain ⟨out, ran, same⟩ := bind_eq_ok.mp handled
  cases same
  obtain ⟨read, write, touches, ran⟩ := executeEvent_touches ran
  have touched := touch_ok sound.held.tables ran
  have sees : ∀ ctx, w.pending tid = some ctx → ∀ a reads, accessed ctx = some (a, reads) →
      (reads = true → read = some a) ∧
        ∀ k, effect ctx.event a w.mem k ≠ w.mem k → write = some k := by
    intro ctx waits a reads access
    obtain ⟨mem, args, made, found⟩ := sound.filed tid ctx waits
    dsimp only at touches
    rw [found, Option.getD_some] at touches
    apply touches_access made touches access
    intro raw size val func value event same current
    have unchanged := counted_keeps counted waits event (same ▸ found) current
    rw [perform, access] at unchanged
    exact unchanged
  refine ⟨rfl, touched.tables.flags _ _, ⟨touched.grown.comaximal, touched.grown.depth,
    touched.grown.failed, touched.grown.blocked, touched.grown.reading⟩, ?_, ?_⟩
  · intro a access
    cases waits : w.pending tid with
    | none =>
        rw [waits] at access
        cases access
    | some ctx =>
        rw [waits] at access
        exact touched.added a ((sees ctx waits a true access).1 rfl)
  · intro a differs
    cases waits : w.pending tid with
    | none =>
        rw [World.executed, waits] at differs
        exact absurd rfl differs
    | some ctx =>
        rw [World.executed, waits] at differs
        cases access : accessed ctx with
        | none =>
            simp only [perform, access] at differs
            exact absurd rfl differs
        | some at_addr =>
            simp only [perform, access] at differs
            exact touched.apart a ((sees ctx waits at_addr.1 at_addr.2 access).2 a differs)

theorem sound_executes (sound : Sound w) (counted : Counted w (.execute tid))
    (stepped : step (.execute tid) w = .ok w') : Sound w' := by
  obtain ⟨d, published, same⟩ := bind_eq_ok.mp stepped
  cases same
  obtain ⟨table, tables, grown, added, apart⟩ := execute_touched sound counted published
  refine ⟨sound.held.setState tables grown.depth grown.failed, ?_, ?_, ?_, ?_⟩
  · intro t ctx waits
    by_cases same : t = tid
    · rw [World.executed, same] at waits
      dsimp only at waits
      rw [Function.update_self] at waits
      cases waits
    · rw [World.executed] at waits ⊢
      dsimp only at waits ⊢
      rw [Function.update_of_ne same] at waits
      rw [table, AList.lookup_erase_ne same]
      exact sound.filed t ctx waits
  · intro t idle
    show d.table.lookup t = none
    rw [table]
    by_cases same : t = tid
    · rw [same]
      exact AList.lookup_erase _ _
    · rw [World.executed] at idle
      dsimp only at idle
      rw [Function.update_of_ne same] at idle
      rw [AList.lookup_erase_ne same]
      exact sound.unfiled t idle
  · intro l member a seen
    have before : w.seen l ⊆ reads d.st l :=
      List.Subset.trans (sound.watched l (grown.comaximal member)) (grown.reading l member)
    change a ∈ w.seenAfter tid ((w.pending tid).bind accessed) l at seen
    unfold World.seenAfter at seen
    split at seen
    next addr access =>
      split at seen
      next mine =>
        cases List.mem_cons.mp seen with
        | inl same =>
            rw [same]
            exact added addr access l member mine.1
        | inr earlier => exact before earlier
      next => exact before seen
    next => exact before seen
  · intro l member
    have left := grown.comaximal member
    show (w.stale l || (l.1 != tid &&
      (w.seen l).any fun a => (w.executed tid d).mem a != w.mem a)) = false
    rw [sound.fresh l left, Bool.false_or, Bool.and_eq_false_imp]
    intro other
    rw [List.any_eq_false]
    intro a seen changed
    exact apart a (bne_iff_ne.mp changed) l member (bne_iff_ne.mp other) (sound.watched l left seen)

theorem sound_steps {move : Move} (sound : Sound w) (allowed : Allowed w move)
    (counted : Counted w move) (stepped : step move w = .ok w') : Sound w' := by
  cases move with
  | arrive tid ctx order => exact sound_arrives sound allowed stepped
  | execute tid => exact sound_executes sound counted stepped

theorem Sound.blocked (sound : Sound w) {t : TaskId} (member : t ∈ w.spin.st.blockedTasks) :
    w.stale (t, w.spin.depth t) = false := by
  obtain ⟨d, depth, current, -⟩ := sound.held.tables.blocked t member nofun
  have here := sound.held.depth_getD t
  rw [depth, Option.getD_some] at here
  rw [← here]
  exact sound.fresh (t, d) current

end Run

/-- No variable that a blocked task has read in its current iteration has been changed by another task
since then, in the runs in which no read-modify-write is missed; so a task that has read a variable
is not blocked after the variable changes. -/
theorem blocked_reads_unchanged (mem : Cells) {w : World}
    (reached : Reachable (system mem Counted) w) :
    (∀ t ∈ w.spin.st.blockedTasks, w.stale (t, w.spin.depth t) = false) ∧
    ∀ tid w', Counted w (.execute tid) → step (.execute tid) w = .ok w' → ∀ t, t ≠ tid →
      ∀ a ∈ w.seen (t, w.spin.depth t), w'.mem a ≠ w.mem a → t ∉ w'.spin.st.blockedTasks := by
  have sound : Sound w := by
    induction reached with
    | start => exact sound_start mem
    | step _ both stepped ih => exact sound_steps ih both.1 both.2 stepped
  refine ⟨fun t member => sound.blocked member, ?_⟩
  intro tid w' counted stepped t other a seen changed member
  have unstale := (sound_executes sound counted stepped).blocked member
  obtain ⟨d, published, same⟩ := bind_eq_ok.mp stepped
  cases same
  change (w.stale (t, w.spin.depth t) || (t != tid && (w.seen (t, w.spin.depth t)).any fun a =>
    (w.executed tid d).mem a != w.mem a)) = false at unstale
  have touched : ((w.seen (t, w.spin.depth t)).any fun a =>
      (w.executed tid d).mem a != w.mem a) = true :=
    List.any_eq_true.mpr ⟨a, seen, bne_iff_ne.mpr changed⟩
  rw [touched, bne_iff_ne.mpr other, Bool.and_true, Bool.or_true] at unstale
  cases unstale

def flag : Address := ⟨8, eight_nonzero⟩

def increment : Capture :=
  ⟨false, .rmw 8 4 1 ['f', 'e', 't', 'c', 'h', '_', 'a', 'd', 'd']⟩

def waitsForFlag : List Move :=
  [.arrive 1 ⟨false, .spinStart⟩ id, .execute 1, .arrive 1 ⟨false, .aread 8 4⟩ id, .execute 1,
    .arrive 1 ⟨false, .spinEnd 0⟩ id, .arrive 2 increment id]

theorem increment_unblocks : ∃ w w', Reachable (system (fun _ => 0) Counted) w ∧
    1 ∈ w.spin.st.blockedTasks ∧ w.stale (1, w.spin.depth 1) = false ∧
    step (.execute 2) w = .ok w' ∧ 1 ∉ w'.spin.st.blockedTasks := by
  have legal : Legal (system (fun _ => 0) Counted) waitsForFlag (start fun _ => 0) :=
    ⟨⟨⟨rfl, trivial⟩, trivial⟩, ⟨trivial, rfl⟩, ⟨⟨rfl, trivial⟩, trivial⟩,
      ⟨trivial, rfl⟩,
      ⟨⟨rfl, by decide, by decide, fun _ => List.Perm.refl _⟩, trivial⟩,
      ⟨⟨rfl, trivial⟩, trivial⟩, trivial⟩
  obtain ⟨w, ran⟩ := legal.runs
  have seen : (run (system (fun _ => 0) Counted) waitsForFlag (start fun _ => 0)).bind (fun w =>
      (step (.execute 2) w).map fun w' => (decide (1 ∈ w.spin.st.blockedTasks),
        decide (flag ∈ w.seen (1, w.spin.depth 1)), missed w 2, w'.mem flag != w.mem flag)) =
      .ok (true, true, false, true) := by decide
  rw [ran] at seen
  obtain ⟨w', stepped, facts⟩ := map_eq_ok.mp seen
  obtain ⟨blocked, read, counted, changed⟩ :
      decide (1 ∈ w.spin.st.blockedTasks) = true ∧
      decide (flag ∈ w.seen (1, w.spin.depth 1)) = true ∧ missed w 2 = false ∧
      (w'.mem flag != w.mem flag) = true := by
    simpa only [Prod.mk.injEq] using facts
  have reached := legal.reachable Reachable.start ran
  obtain ⟨unchanged, unblocks⟩ := blocked_reads_unchanged (fun _ => 0) reached
  exact ⟨w, w', reached, of_decide_eq_true blocked, unchanged 1 (of_decide_eq_true blocked), stepped,
    unblocks 2 w' counted stepped 1 (by decide) flag (of_decide_eq_true read)
      (bne_iff_ne.mp changed)⟩

/-- The increment of task 2 arrives before task 3 sets the flag, and task 1 waits for the flag to
change once more. The value computed at the arrival is then the one that is there. -/
def arrivesEarly : List Move :=
  [.arrive 2 increment id, .arrive 3 ⟨false, .awrite 8 4 1⟩ id, .execute 3,
    .arrive 1 ⟨false, .spinStart⟩ id, .execute 1, .arrive 1 ⟨false, .aread 8 4⟩ id, .execute 1,
    .arrive 1 ⟨false, .spinEnd 0⟩ id, .execute 2]

theorem increment_missed : ∃ w, Reachable (system (fun _ => 0) fun _ _ => True) w ∧
    1 ∈ w.spin.st.blockedTasks ∧ w.stale (1, w.spin.depth 1) = true := by
  have legal : Legal (system (fun _ => 0) fun _ _ => True) arrivesEarly (start fun _ => 0) :=
    ⟨⟨⟨rfl, trivial⟩, trivial⟩, ⟨⟨rfl, trivial⟩, trivial⟩, ⟨trivial, trivial⟩,
      ⟨⟨rfl, trivial⟩, trivial⟩, ⟨trivial, trivial⟩, ⟨⟨rfl, trivial⟩, trivial⟩, ⟨trivial, trivial⟩,
      ⟨⟨rfl, by decide, by decide, fun _ => List.Perm.refl _⟩, trivial⟩, ⟨trivial, trivial⟩,
      trivial⟩
  obtain ⟨w, ran⟩ := legal.runs
  have seen : (run (system (fun _ => 0) fun _ _ => True) arrivesEarly (start fun _ => 0)).map
      (fun w => (decide (1 ∈ w.spin.st.blockedTasks), w.stale (1, w.spin.depth 1))) =
      .ok (true, true) := by decide
  rw [ran] at seen
  obtain ⟨blocked, stale⟩ := Prod.mk.inj (Except.ok.inj seen)
  exact ⟨w, legal.reachable Reachable.start ran, of_decide_eq_true blocked, stale⟩

end Lotto.SpinMemory
