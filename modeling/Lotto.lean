import Lotto.Library.SwapList
import Lotto.Library.FaultRun
import Lotto.Library.Lockstep
import Lotto.Library.ByteCodec
import Lotto.Library.KeyMap
import Lotto.Library.GuardedRun
import Lotto.Library.Gather
import Lotto.Library.WaitGraph
import Lotto.Base
import Lotto.Tidset
import Lotto.TidsetArray
import Lotto.TidsetSpecs
import Lotto.TidsetRun
import Lotto.Statemgr
import Lotto.StatemgrFormat
import Lotto.ChainOrder
import Lotto.EmptyRecord
import Lotto.Trace
import Lotto.TraceChunked
import Lotto.TraceFormat
import Lotto.TraceFileRun
import Lotto.ChunkedSpecs
import Lotto.ChunkedInvariant
import Lotto.ChunkedRun
import Lotto.TraceRoundTrip
import Lotto.Recorder
import Lotto.Sequencer
import Lotto.Mediator
import Lotto.Switcher
import Lotto.SwitcherProtocol
import Lotto.Handlers
import Lotto.Mutex
import Lotto.RegionPreemption
import Lotto.Timeout
import Lotto.Join
import Lotto.Deadlock
import Lotto.RegionNesting
import Lotto.TimeoutFires
import Lotto.JoinSpecs
import Lotto.JoinRun
import Lotto.JoinTables
import Lotto.Rwlock
import Lotto.Filtering
import Lotto.RecorderReplay
import Lotto.RecorderKinds
import Lotto.SequencerReturns
import Lotto.SequencerRun
import Lotto.HandlerSpecs
import Lotto.EngineRun
import Lotto.RunTrace
import Lotto.PlanContract
import Lotto.MutexSpecs
import Lotto.MutexRun
import Lotto.MutexDeadlock
import Lotto.DeadlockBags
import Lotto.RwlockSpecs
import Lotto.RwlockRun
import Lotto.RwlockDeadlock
import Lotto.FilteringDrop
import Lotto.BlockingReplay
import Lotto.ScheduleRun
import Lotto.ScheduleFidelity
import Lotto.Evec
import Lotto.Poll
import Lotto.EvecSpecs
import Lotto.EvecRun
import Lotto.EvecWakeups
import Lotto.EvecStatus
import Lotto.PollSpecs
import Lotto.PollCounts
import Lotto.Library.Observed
import Lotto.SwitcherAlike
import Lotto.SameTask
import Lotto.Library.ChoiceTree
import Lotto.Explore
import Lotto.ExploreExhaustive
import Lotto.InflexSearch
import Lotto.TraceUtils
import Lotto.TraceTrim
import Lotto.InflexClocks
import Lotto.AwaitTables
import Lotto.LostResources
import Lotto.PollTimeouts
import Lotto.EvecMove
import Lotto.DeadlockCycles
import Lotto.CasPredictor
import Lotto.EventHandler
import Lotto.EventCounts
import Lotto.OrderEnforcer
import Lotto.OrderKept
import Lotto.ContextInfo
import Lotto.SpinLoop
import Lotto.SpinDispatch
import Lotto.SpinTables
import Lotto.SpinRun
import Lotto.SpinSound
import Lotto.Library.Ownership
import Lotto.Marshal
import Lotto.MarshalSpecs
import Lotto.MarshalLaw
import Lotto.Library.Dyadic
import Lotto.AddressBdd
import Lotto.BddSpecs
import Lotto.BddRun
import Lotto.BddIteration
import Lotto.BddExact
import Lotto.BddMasked
import Lotto.UafCheck
import Lotto.RspUtil
import Lotto.RspPackets
import Lotto.RspHex
import Lotto.Library.CyclicProbe
import Lotto.StringHashTable
import Lotto.Library.Comparator
import Lotto.VecUnion
import Lotto.Race
import Lotto.Tidbag
import Lotto.Library.ExactRun
import Lotto.ChunkedFile
import Lotto.Library.Fields
import Lotto.Modules
import Lotto.Library.Links
import Lotto.Leakcheck
import Lotto.ModuleSwitches
import Lotto.FlagOptions
import Lotto.Library.ByteMemory
import Lotto.Library.Tiling
import Lotto.Mempool
import Lotto.MempoolBlocks
import Lotto.MempoolCalls
import Lotto.MempoolRuns
import Lotto.MempoolLimits
import Lotto.Preload
import Lotto.PreloadSwitch
import Lotto.Library.Preference
import Lotto.TaskMap
import Lotto.Pct
import Lotto.PctRun
import Lotto.Pos
import Lotto.PosRun
import Lotto.StrategyRun
import Lotto.Strategies
import Lotto.Library.Bisection
import Lotto.FastInflex
import Lotto.FastInflexRun
import Lotto.GdbServer
import Lotto.GdbSession
import Lotto.MemoryMap
import Lotto.StableAddress
import Lotto.MemoryMapFormat
import Lotto.Ichpt
import Lotto.IchptRun
import Lotto.IchptSession
import Lotto.Library.Repeats
import Lotto.Watchdog
import Lotto.Busyabort
import Lotto.Terminate
import Lotto.Library.Trim
import Lotto.Sampling
import Lotto.SamplingRun
import Lotto.Enforce
import Lotto.EnforceRun
import Lotto.Library.Outcomes
import Lotto.RecInflex
import Lotto.RecInflexRun
