import Mathlib.Algebra.Order.Field.Rat
import Lotto.Evec
import Lotto.EventHandler
import Lotto.Handlers
import Lotto.Rwlock

namespace Lotto

inductive Double where
  | nan | negInf | finite (value : ℚ) | posInf
  deriving DecidableEq

def Double.isZero : Double → Bool
  | .finite value => value == 0
  | _ => false

def Double.lt (bound : ℚ) : Double → Bool
  | .negInf => true
  | .finite value => value < bound
  | _ => false

structure FilteringConfig where
  enabled : Bool
  maxTypes : Nat
  drop : TypeId → Double
  dropLess : TypeId → Double

def randMax : Nat := 2147483647

def prngReal {N : Type} (round : ℚ → ℚ) (prngNext : N → UInt64 × N) (n : N) : ℚ × N :=
  let (v, n) := prngNext n
  (round ((v.toNat : ℚ) / (randMax : ℚ)), n)

def filteringDrops {N : Type} (p : Double) (round : ℚ → ℚ) (prngNext : N → UInt64 × N) (n : N) :
    Except Fault (Bool × N) :=
  if p.isZero then .ok (false, n)
  else if p.lt 1 then do
    let (pp, n) := prngReal round prngNext n
    check (pp ≤ 1) .filteringPrng
    .ok (!p.lt pp, n)
  else .ok (true, n)

def filteringHandle {N : Type} (config : FilteringConfig) (round : ℚ → ℚ)
    (prngNext : N → UInt64 × N) (cp : CapturePoint) (e : Decision) (n : N) :
    Except Fault (Decision × N) :=
  if !config.enabled then .ok (e, n)
  else do
    check (cp.id != noTask) .filteringNoTask
    check (cp.typeId < config.maxTypes) .filteringType
    let p := if e.filterLess then config.dropLess cp.typeId else config.drop cp.typeId
    let (dropped, n) ← filteringDrops p round prngNext n
    .ok (if dropped then { e with next := cp.id, readonly := true, skip := true } else e, n)

structure RustyState where
  casEnabled : Bool
  eventEnabled : Bool
  memory : Rinflex.Memory
  cas : Rinflex.CasPredictor
  events : Rinflex.EventHandler

/-- `publish_execute_ctx`: the `posthandle` of the CAS predictor and then that of the event handler. -/
def publishExecute (ctx : Rinflex.Ctx) (st : RustyState) : Except Fault RustyState := do
  let cas ← Rinflex.updateTaskFromCtx st.casEnabled st.memory ctx st.cas
  let events ← Rinflex.eventPosthandle st.eventEnabled ctx cas st.events
  .ok { st with cas, events }

structure Locks (O : Type) where
  mutex : MutexState
  rwlock : RwlockState
  others : O

variable {O P : Type}

def locksInit (others : O) : Locks O := { mutex := mutexStart, rwlock := ∅, others }

/-- The state manager with the lock handlers, whose state is EPHEMERAL. -/
def withLocks (others : Modules O P) : Modules (Locks O) P where
  config n := others.config n.others
  marshal ty n := others.marshal ty n.others
  unmarshal ty data n := { n with others := others.unmarshal ty data n.others }
  config_persistent data n := others.config_persistent data n.others

abbrev FurtherHandler (O : Type) :=
  CapturePoint → Decision → ModuleState (Locks O) → Except Fault (Decision × O)

/-- What the capture chain is configured with: the types of the rwlock events, the handlers'
configuration, the rounding of doubles and the random numbers. The evec handler and the Rust runtime
are among the other modules: what they read of a capture point, and where their state is. -/
structure LockSetup (O : Type) where
  event : TypeId → Option RwlockEvent
  mutex : MutexConfig
  filtering : FilteringConfig
  round : ℚ → ℚ
  prngNext : O → UInt64 × O
  evec : O → EvecState
  evecEvent : CapturePoint → EvecEvent
  rusty : O → RustyState
  rustyCtx : CapturePoint → Rinflex.Ctx

namespace LockSetup

variable (setup : LockSetup O)

/-- `prng_next` draws from the state of the other modules. -/
def prng (n : Locks O) : UInt64 × Locks O :=
  let (v, others) := setup.prngNext n.others
  (v, { n with others })

def further (handler : FurtherHandler O) : Handler (Locks O) := fun cp e m => do
  let (e, others) ← handler cp e m
  .ok (e, { m.others with others })

def mutexHandler : Handler (Locks O) := fun cp e m => do
  let (e, mutex) ← mutexHandle setup.mutex cp e m.others.mutex
  .ok (e, { m.others with mutex })

def rwlockHandler : Handler (Locks O) := fun cp e m => do
  let (e, rwlock) ← rwlockHandle setup.event cp e m.others.rwlock
  .ok (e, { m.others with rwlock })

def filteringHandler : Handler (Locks O) := fun cp e m =>
  filteringHandle setup.filtering setup.round setup.prng cp e m.others

/-- `ON_SEQUENCER_CAPTURE`: the chain stops behind the handler that sets `skip`, so the handlers
behind it do not run. -/
def stopOnSkip (handler : Handler (Locks O)) : Handler (Locks O) := fun cp e m =>
  if e.skip then .ok (e, m.others) else handler cp e m

def front (before between : List (FurtherHandler O)) : List (Handler (Locks O)) :=
  (before.map further ++ setup.mutexHandler :: setup.rwlockHandler :: between.map further).map
    stopOnSkip

/-- The handlers behind the blocking handler on CHAIN_SEQUENCER_CAPTURE. -/
def chain (before between after : List (FurtherHandler O)) : List (Handler (Locks O)) :=
  setup.front before between ++ (setup.filteringHandler :: after.map further).map stopOnSkip

def resume (more : CapturePoint → ModuleState (Locks O) → Except Fault O) (cp : CapturePoint)
    (m : ModuleState (Locks O)) : Except Fault (Locks O) := do
  let mutex ← mutexResume setup.mutex cp m.others.mutex
  let rwlock ← rwlockResume setup.event cp m.others.rwlock
  let others ← more cp m
  .ok { mutex, rwlock, others }

end LockSetup

end Lotto
