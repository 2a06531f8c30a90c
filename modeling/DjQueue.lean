import DjQueue.Fencing
import DjQueue.Interleaving.PauseBarrier
import DjQueue.Interleaving.Waiters
import DjQueue.Interleaving.ReadyRows
import DjQueue.Interleaving.ClaimExclusivity
import DjQueue.Slots.Bridge
import DjQueue.Slots.WaiterOrder
import DjQueue.System.Invariants
import DjQueue.Recurring.Reruns
import DjQueue.Runtime.PidFile
import DjQueue.Runtime.Supervisor
import DjQueue.Enqueue.Bulk
import DjQueue.Crontab.Completeness
import DjQueue.Slots.EvaluationOrder
import DjQueue.Slots.RepeatedAcquire
import DjQueue.Slots.HandoffPaths
import DjQueue.Slots.GroupRelease
import DjQueue.Claiming.Selection
import DjQueue.Queues.Clear
import DjQueue.Recurring.Poll
import DjQueue.Recurring.Timetable
import DjQueue.Dispatching.Calm
import DjQueue.Dispatching.Places
import DjQueue.Dispatching.Departures
import DjQueue.Dispatching.Operations
import DjQueue.Runtime.Notify
import DjQueue.Relational.Batches
import DjQueue.Slots.Cleanup
import DjQueue.Slots.ExpiredWaiters
import DjQueue.Recurring.StaticSync
import DjQueue.Queues.Latency
import DjQueue.Calendar.Pauses
import DjQueue.Crontab.Walks
import DjQueue.Relational.Isolation
import DjQueue.Recurring.Isolation
import DjQueue.Crontab.LeadingZero
import DjQueue.Text.Pieces
import DjQueue.Text.Reads
import DjQueue.Slots.Releases
import DjQueue.Runtime.LostClaims
import DjQueue.Runtime.Housekeeping
import DjQueue.Text.Json
import DjQueue.Payloads.Normalization
import DjQueue.Payloads.RoundTrip
import DjQueue.Runtime.WorkerPool
import DjQueue.Runtime.PoolDraining
import DjQueue.Runtime.Rounds
import DjQueue.Text.Evaluation
import DjQueue.Crontab.Times
import DjQueue.Crontab.TimeLists
import DjQueue.Crontab.DailySlots
import DjQueue.Crontab.DailyTimes
import DjQueue.Recurring.Publication
import DjQueue.Dispatching.Removals
import DjQueue.Dispatching.Timeliness
import DjQueue.Relational.Counting
import DjQueue.Reads.Status
import DjQueue.Relational.Merging
import DjQueue.Reads.QueueState
import DjQueue.Lifecycle.Course
import DjQueue.Lifecycle.Sessions
import DjQueue.Lifecycle.Dispatches
import DjQueue.Lifecycle.Releases
import DjQueue.Lifecycle.Claims
import DjQueue.Lifecycle.Transitions
import DjQueue.Lifecycle.Creations
import DjQueue.Lifecycle.Operations
import DjQueue.Lifecycle.Runs
import DjQueue.Execution.Running
import DjQueue.Execution.Settlement
import DjQueue.Execution.Pool
import DjQueue.Relational.Attempts
import DjQueue.Operations.Retries
import DjQueue.System.Retries
import DjQueue.Slots.FreeSlots
import DjQueue.Relational.Upkeep
import DjQueue.Slots.PossibleRows
import DjQueue.Slots.PossibleSessions
import DjQueue.Slots.PossibleOperations
import DjQueue.Slots.PossibleCounts
import DjQueue.Recurring.Pairing
import DjQueue.Reads.Health
import DjQueue.Reads.TaskResults
import DjQueue.Reads.EnqueueResults
import DjQueue.Reads.ClaimedResults
import DjQueue.Reads.ExecutedResults
import DjQueue.Crontab.Possible
import DjQueue.Payloads.Values
