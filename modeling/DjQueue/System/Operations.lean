import DjQueue.Accounting.Schedules

/-!
# The queue as a system

Every public operation of `dj_queue.operations`, run by any number of processes on one
database, each with the configuration of its backend, at any clock readings.  An operation is
one step of the system, whether it returns or raises.  `Promised` is what its caller owes: the
instances it passes are of rows of this database, and the processes it names are its own.
-/

namespace DjQueue

open Relational

/-! ## Operations -/

/-- A call of an operation on jobs, slots or processes. -/
inductive JobOperation where
  | enqueueJobWithDispatch (call : TaskCall) (validate : Bool) (jobId : JobId)
  | enqueueJobsBulk (calls : List (TaskCall × JobId)) (validate : Bool)
  | claimReadyJobs (limit : Int) (queues : QueueSelectors) (process : Option Process)
  | completeClaimedJob (arg : JobArg) (returnValue : Option String) (task : Option Imported)
  | failClaimedJob (arg : JobArg) (failure : Failure) (task : Option Imported)
  | promoteScheduledJobs (batchSize : Int)
  | dispatchScheduledJobNow (jobId : JobId)
  | scheduleFailedJobRetry (jobId : JobId) (retryAt : Time)
  | retryFailedJob (jobId : JobId)
  | retryFailedJobs (jobIds : Option (List JobId)) (batchSize : Int)
  | promoteFailedJobRetries (batchSize : Int)
  | discardReadyJobs (jobIds : Option (List JobId)) (batchSize : Int)
  | discardReadyJobsForQueue (queueName : String) (batchSize : Int)
  | discardScheduledJobs (jobIds : Option (List JobId)) (batchSize : Int)
  | discardBlockedJobs (jobIds : Option (List JobId)) (batchSize : Int)
  | discardFailedJob (jobId : JobId)
  | discardFailedJobs (jobIds : Option (List JobId)) (batchSize : Int)
  | clearFinishedJobs (olderThan : Option Int) (taskPath : Option String) (batchSize : Int)
      (now : Time)
  | clearFailedJobs (olderThan : Option Int) (taskPath : Option String) (batchSize : Int)
      (now : Time)
  | clearRecurringExecutions (olderThan : Option Int) (taskKey : Option String) (batchSize : Int)
      (now : Time)
  | promoteExpiredBlockedJobs (batchSize : Int)
  | cleanupExpiredSemaphores (batchSize : PyValue)
  | releaseConcurrencySlot (job : Job) (task : Option Imported)
  | registerProcess (pid : Int) (name : String) (supervisorId : Option Nat)
  | touchProcessRow (processId : Nat)
  | deregisterProcess (processId : Nat)
  | failOrphanedClaimedJobs (failure : Failure) (batchSize : Int)
  | failClaimedJobsForProcess (process : Option Process) (failure : Failure) (deleteProcess : Bool)
  | failClaimedJobsForPid (pid : Int) (failure : Failure)
  | failClaimedJobsForChild (pid : Int) (name : String) (supervisorId : Option Nat)
      (failure : Failure)
  | pruneStaleProcesses (cutoff : Time) (failure : Failure) (excluded : Option Nat)
      (batchSize : Int)

namespace JobOperation

/-- The world the call ends in, whether it returned or raised. -/
def final (env : Env) (w : World) : JobOperation → World
  | enqueueJobWithDispatch call validate jobId =>
      finalState (DjQueue.enqueueJobWithDispatch env call validate jobId) w
  | enqueueJobsBulk calls validate => finalState (DjQueue.enqueueJobsBulk env calls validate) w
  | claimReadyJobs limit queues process =>
      finalState (DjQueue.claimReadyJobs env limit queues process) w
  | completeClaimedJob arg returnValue task =>
      finalState (DjQueue.completeClaimedJob env arg returnValue task) w
  | failClaimedJob arg failure task => finalState (DjQueue.failClaimedJob env arg failure task) w
  | promoteScheduledJobs batchSize => finalState (DjQueue.promoteScheduledJobs env batchSize) w
  | dispatchScheduledJobNow jobId => finalState (DjQueue.dispatchScheduledJobNow env jobId) w
  | scheduleFailedJobRetry jobId retryAt =>
      finalState (DjQueue.scheduleFailedJobRetry env jobId retryAt) w
  | retryFailedJob jobId => finalState (DjQueue.retryFailedJob env jobId) w
  | retryFailedJobs jobIds batchSize => finalState (DjQueue.retryFailedJobs env jobIds batchSize) w
  | promoteFailedJobRetries batchSize =>
      finalState (DjQueue.promoteFailedJobRetries env batchSize) w
  | discardReadyJobs jobIds batchSize =>
      finalState (DjQueue.discardReadyJobs env jobIds batchSize) w
  | discardReadyJobsForQueue queueName batchSize =>
      finalState (DjQueue.discardReadyJobsForQueue env queueName batchSize) w
  | discardScheduledJobs jobIds batchSize =>
      finalState (DjQueue.discardScheduledJobs env jobIds batchSize) w
  | discardBlockedJobs jobIds batchSize =>
      finalState (DjQueue.discardBlockedJobs env jobIds batchSize) w
  | discardFailedJob jobId => finalState (DjQueue.discardFailedJob env jobId) w
  | discardFailedJobs jobIds batchSize =>
      finalState (DjQueue.discardFailedJobs env jobIds batchSize) w
  | clearFinishedJobs olderThan taskPath batchSize now =>
      finalState (DjQueue.clearFinishedJobs env olderThan taskPath batchSize now) w
  | clearFailedJobs olderThan taskPath batchSize now =>
      finalState (DjQueue.clearFailedJobs env olderThan taskPath batchSize now) w
  | clearRecurringExecutions olderThan taskKey batchSize now =>
      finalState (DjQueue.clearRecurringExecutions env olderThan taskKey batchSize now) w
  | promoteExpiredBlockedJobs batchSize =>
      finalState (DjQueue.promoteExpiredBlockedJobs env batchSize) w
  | cleanupExpiredSemaphores batchSize =>
      finalState (DjQueue.cleanupExpiredSemaphores batchSize) w
  | releaseConcurrencySlot job task => finalState (DjQueue.releaseConcurrencySlot env job task) w
  | registerProcess pid name supervisorId =>
      finalState (DjQueue.registerProcess env pid name supervisorId) w
  | touchProcessRow processId => finalState (DjQueue.touchProcessRow processId) w
  | deregisterProcess processId => finalState (DjQueue.deregisterProcess processId) w
  | failOrphanedClaimedJobs failure batchSize =>
      finalState (DjQueue.failOrphanedClaimedJobs env failure batchSize) w
  | failClaimedJobsForProcess process failure deleteProcess =>
      finalState (DjQueue.failClaimedJobsForProcess env process failure deleteProcess) w
  | failClaimedJobsForPid pid failure =>
      finalState (DjQueue.failClaimedJobsForPid env pid failure) w
  | failClaimedJobsForChild pid name supervisorId failure =>
      finalState (DjQueue.failClaimedJobsForChild env pid name supervisorId failure) w
  | pruneStaleProcesses cutoff failure excluded batchSize =>
      finalState (DjQueue.pruneStaleProcesses env cutoff failure excluded batchSize) w

/-- The keys a call may create jobs under. -/
def fresh : JobOperation → List JobId
  | enqueueJobWithDispatch _ _ jobId => [jobId]
  | enqueueJobsBulk calls _ => calls.map Prod.snd
  | _ => []

/-- What the caller owes, and that the jobs it brings resolve to the tracked limit.  A slot of the
tracked key is released by the operations that end a claim, not on its own. -/
def Promised (tracked : Option (String × Int)) (env : Env) (db : Db) : JobOperation → Prop
  | enqueueJobWithDispatch call validate jobId =>
      ∀ job, prepareSubmission env.config call validate jobId = .ok job → Resolves tracked job
  | enqueueJobsBulk calls validate =>
      ∀ c ∈ calls, ∀ job, prepareSubmission env.config c.1 validate c.2 = .ok job →
        Resolves tracked job
  | claimReadyJobs _ _ process => ProcessLoaded db process
  | completeClaimedJob arg _ _ | failClaimedJob arg _ _ => ArgLoaded tracked db arg
  | releaseConcurrencySlot job _ => ∀ t, tracked = some t → job.concurrencyKey ≠ some t.1
  | registerProcess _ _ supervisorId =>
      ∀ s, supervisorId = some s → OwnProcessId env.config.backendAlias db s
  | touchProcessRow processId | deregisterProcess processId =>
      OwnProcessId env.config.backendAlias db processId
  | failClaimedJobsForProcess process _ deleteProcess =>
      ∀ p, process = some p → deleteProcess = true →
        OwnProcessId env.config.backendAlias db p.id
  | _ => True

end JobOperation

/-- A call of any operation. -/
inductive Operation where
  | job (op : JobOperation)
  | pauseQueue (queueName : String)
  | resumeQueue (queueName : String) (resumedAt : Option Time)
  | scheduleRecurringTask (key taskPath schedule : String) (payload : Option Payload)
      (queueName : String) (priority : Int) (description : String)
  | unscheduleRecurringTask (key : String)
  | upsertStaticRecurringTasks (configs : List RecurringTaskConfig)
  | fireRecurringTask (taskId : Nat) (runAt : Time)
  | fireDueRecurringTasks (now : Time) (includeDynamicTasks : Bool) (batchSize : Option Int)

namespace Operation

def final (env : Env) (w : World) : Operation → World
  | job op => op.final env w
  | pauseQueue queueName => finalState (DjQueue.pauseQueue env queueName) w
  | resumeQueue queueName resumedAt => finalState (DjQueue.resumeQueue env queueName resumedAt) w
  | scheduleRecurringTask key taskPath schedule payload queueName priority description =>
      finalState (DjQueue.scheduleRecurringTask env key taskPath schedule payload queueName priority
        description) w
  | unscheduleRecurringTask key => finalState (DjQueue.unscheduleRecurringTask env key) w
  | upsertStaticRecurringTasks configs =>
      finalState (DjQueue.upsertStaticRecurringTasks env configs) w
  | fireRecurringTask taskId runAt => finalState (DjQueue.fireRecurringTask env taskId runAt) w
  | fireDueRecurringTasks now includeDynamicTasks batchSize =>
      finalState (DjQueue.fireDueRecurringTasks env now includeDynamicTasks batchSize) w

def Promised (tracked : Option (String × Int)) (env : Env) (db : Db) : Operation → Prop
  | job op => op.Promised tracked env db
  | fireRecurringTask _ _ | fireDueRecurringTasks _ _ _ => RecurringResolves tracked env
  | _ => True

end Operation

end DjQueue
