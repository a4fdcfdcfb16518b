import Kalypso.Lib.Dict
import Kalypso.Lib.Relation
import Kalypso.Lib.Update
import Kalypso.Lib.Raise
import Kalypso.Lib.Trace
import Kalypso.Lib.RefPool
import Kalypso.Lib.HashChain
import Kalypso.Lib.Binary64
import Kalypso.Query.Budget
import Kalypso.Query.Stage
import Kalypso.Query.Plan
import Kalypso.Query.Registration
import Kalypso.Query.Pipeline
import Kalypso.Query.Rebalance
import Kalypso.Query.Capacities
import Kalypso.Query.PlannedCapacity
import Kalypso.Query.View
import Kalypso.Query.Refinement
import Kalypso.Query.Runs
import Kalypso.Query.Trackers
import Kalypso.Query.Lineage
import Kalypso.Query.Termination
import Kalypso.Query.Sequential
import Kalypso.Query.Ledger
import Kalypso.Query.Server
import Kalypso.Query.Accounting
import Kalypso.Query.Failure
import Kalypso.Query.Blocking
import Kalypso.Query.Awaiting
import Kalypso.Query.Aggregate
import Kalypso.Query.KeptPins
import Kalypso.Query.MapAttempts
import Kalypso.Query.Prompts
import Kalypso.Query.PinFlags
import Kalypso.Query.Parse
import Kalypso.Query.PinLedger
import Kalypso.Query.PinReturn
import Kalypso.Query.VectorService
import Kalypso.Query.IndexedJoin
import Kalypso.Query.IndexRuns
import Kalypso.Query.MapEstimator
import Kalypso.Engine.BlockPool
import Kalypso.Engine.PoolInvariant
import Kalypso.Engine.CacheHit
import Kalypso.Engine.Request
import Kalypso.Engine.KVCacheManager
import Kalypso.Engine.TableInvariant
import Kalypso.Engine.Allocation
import Kalypso.Engine.PoolRuns
import Kalypso.Engine.BlockPlaces
import Kalypso.Engine.Lifecycle
import Kalypso.Engine.Scheduler
import Kalypso.Engine.Queues
import Kalypso.Engine.SchedulerMoves
import Kalypso.Engine.UpdateMoves
import Kalypso.Engine.SchedulerRuns
import Kalypso.Engine.ScheduleTurns
import Kalypso.Engine.WaitingOrder
import Kalypso.Engine.RunningTurns
import Kalypso.Engine.Refusal
import Kalypso.Engine.AllOrNothing
import Kalypso.Engine.CommonPrefix
import Kalypso.Engine.Retention
import Kalypso.Engine.ConnectorRuns
import Kalypso.Engine.Abort
import Kalypso.Engine.Transfer
import Kalypso.Engine.Continuation
import Kalypso.Engine.BlockHash
import Kalypso.Engine.HashContent
import Kalypso.Engine.FreshHash
import Kalypso.Engine.LongestHit
import Kalypso.Engine.HybridHit
import Kalypso.Engine.Detokenizer
import Kalypso.Engine.NgramProposer
import Kalypso.Engine.ParallelSampling
import Kalypso.Engine.Offloading
import Kalypso.Engine.LRUCache
import Kalypso.Engine.MultiModalCache
import Kalypso.Engine.ExpertReplication
import Kalypso.Query.PinRegistry
import Kalypso.Query.StuckMonitor
