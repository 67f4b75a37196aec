import Ahasd.Lib.Transition
import Ahasd.Lib.OrderedMap
import Ahasd.Lib.CircularLog
import Ahasd.Lib.Window
import Ahasd.Lib.TokenFlow
import Ahasd.Lib.Text
import Ahasd.Lib.TimedQueue
import Ahasd.EDCHistory
import Ahasd.EDCTables
import Ahasd.DraftLength
import Ahasd.VSKMModes
import Ahasd.KVCacheConcat
import Ahasd.PreVerifyDecision
import Ahasd.ETCCReplay
import Ahasd.FastReplay
import Ahasd.TraceRoundTrip
import Ahasd.TokenTiles
import Ahasd.EnergyModel
import Ahasd.Scheduler.Protocol
import Ahasd.Scheduler.Steps
import Ahasd.Scheduler.Runs
import Ahasd.Scheduler.Admission
import Ahasd.Scheduler.Fallback
import Ahasd.Scheduler.RankModes
import Ahasd.Scheduler.Rounds
import Ahasd.Scheduler.CacheLengths
import Ahasd.Scheduler.Accounting
import Ahasd.Scheduler.Deferral
import Ahasd.Scheduler.Bypass
import Ahasd.Scheduler.EntropyHint
import Ahasd.Scheduler.Predictor
import Ahasd.Scheduler.Ledger
import Ahasd.Scheduler.Clock
import Ahasd.Scheduler.Progress
import Ahasd.Scheduler.PreVerifications
import Ahasd.Scheduler.Regions
import Ahasd.Scheduler.Versions
import Ahasd.Scheduler.Rollbacks
import Ahasd.Scheduler.Solo
import Ahasd.Scheduler.Flags
import Ahasd.Scheduler.TraceReplay
import Ahasd.Simulator.CycleLoop
import Ahasd.Simulator.Conservation
import Ahasd.Simulator.BusTraffic
import Ahasd.Simulator.PIMTraffic
import Ahasd.Simulator.Holds
import Ahasd.Simulator.ArrivalOrder
import Ahasd.Simulator.IssueRate
import Ahasd.Simulator.Deadlines
import Ahasd.Simulator.EnergyReport
import Ahasd.Simulator.CommandSelection
import Ahasd.PIMSimulator.AAU
import Ahasd.PIMSimulator.CycleCategories
import Ahasd.PIMSimulator.GatedTaskScheduler
import Ahasd.PIMSimulator.TaskOrder
import Ahasd.Lib.RoundRobin
import Ahasd.Lib.XorHash
import Ahasd.Backends.Interconnect
import Ahasd.Backends.Dram
import Ahasd.Backends.Hashing
import Ahasd.Backends.MemorySystem
import Ahasd.Backends.Refinement
import Ahasd.Lib.InfiniteRun
import Ahasd.Simulator.Occupancy
import Ahasd.Backends.Drains
import Ahasd.Lib.WorkNet
import Ahasd.Lib.Queues
import Ahasd.Tiles.OperationGraph
import Ahasd.Tiles.Scheduler
import Ahasd.Tiles.Rules
import Ahasd.Tiles.Course
import Ahasd.Tiles.Runs
import Ahasd.Tiles.Finishes
import Ahasd.Npu.Core
import Ahasd.Npu.Spads
import Ahasd.Npu.System
import Ahasd.Npu.Readers
import Ahasd.Npu.Runs
import Ahasd.Npu.Loads
import Ahasd.Npu.Awaited
import Ahasd.Npu.Held
import Ahasd.Npu.Requests
