import DjQueue.Operations.Dispatch
import DjQueue.Operations.Execution

/-!
# Moving jobs between states

`operations/jobs.py`: promotion of scheduled jobs, retries of failed ones, and the
discard operations, all of which take rows out of one state table and put the jobs
somewhere else.
-/

namespace DjQueue

open Relational

/-! ## Redispatch -/

/-- `job.return_value = None; job.finished_at = None` -/
def Job.reset (j : Job) : Job := { j with returnValue := none, finishedAt := none }

/-- The jobs with a decision, and those whose policy does not resolve. -/
structure Prepared where
  entries : List DispatchEntry
  policyFailures : List (Job × PyError)
deriving DecidableEq, Repr

/-- The decisions of a redispatch; a policy that raises ends it, or sets its job aside. -/
def prepareRedispatch (env : Env) (now : Time) (isolatePolicyErrors : Bool) :
    Nat → List Job → Except PyError Prepared
  | _, [] => pure ⟨[], []⟩
  | position, job :: rest =>
      match dispatchDecision env job now none with
      | .ok decision => do
          let prepared ← prepareRedispatch env now isolatePolicyErrors (position + 1) rest
          pure { prepared with entries := ⟨position, job, decision⟩ :: prepared.entries }
      | .error (.dispatchPolicyError message) =>
          if isolatePolicyErrors then do
            let prepared ← prepareRedispatch env now isolatePolicyErrors (position + 1) rest
            pure { prepared with
              policyFailures := (job, .dispatchPolicyError message) :: prepared.policyFailures }
          else throw (.dispatchPolicyError message)
      | .error e => throw e

/-- The instances `bulk_update` saves: discarded jobs carry their new `finished_at`. -/
def updatedJobs (resetResults : Bool) (jobs discarded : List Job) : List Job :=
  if resetResults then
    jobs.map (fun j => (discarded.find? (fun d => d.id == j.id)).getD j)
  else discarded

/-- The instances of a redispatch, reset where results are. -/
def resetIf (resetResults : Bool) (jobs : List Job) : List Job :=
  if resetResults then jobs.map Job.reset else jobs

/-- `_redispatch_jobs` -/
def redispatchJobs (env : Env) (jobs : List Job) (isolatePolicyErrors resetResults : Bool) :
    Op (List Job × List (Job × PyError)) := do
  let now ← timezoneNow
  ensureJobIdsHaveNoOtherExecutionState (jobs.map Job.id) []
  let instances := resetIf resetResults jobs
  let prepared ← MonadExcept.ofExcept
    (prepareRedispatch env now isolatePolicyErrors 0 instances)
  let (rows, _) ← buildDispatchRows env prepared.entries now
  bulkUpdateResults (updatedJobs resetResults instances rows.discarded)
  bulkCreateReadyExecutions rows.ready false
  bulkCreate .scheduled rows.scheduled
  bulkCreate .blocked rows.blocked
  bulkCreate .failed (prepared.policyFailures.map (fun f => policyFailureRow f.1 f.2))
  pure (prepared.entries.map DispatchEntry.job, prepared.policyFailures)

/-! ## Scheduled jobs -/

/-- `scheduled_at, -priority, id` -/
def scheduledOrder (a b : ScheduledExecution) : Bool :=
  a.scheduledAt < b.scheduledAt ||
    (a.scheduledAt == b.scheduledAt && higherPriority a.priority b.priority a.id b.id)

/-- `promote_scheduled_jobs` -/
def promoteScheduledJobs (env : Env) (batchSize : Int) : Op (List Job) := do
  let now ← timezoneNow
  transactionAtomic do
    let db ← getDb
    let due := orderBy scheduledOrder (db.scheduled.rows.filter (fun r =>
      r.backendAlias == env.config.backendAlias && r.scheduledAt ≤ now))
    let rows ← sliceTo batchSize (selectRelatedJob (m := .scheduled) db due)
    ensureStateRowsBelongToBackend (m := .scheduled) rows env.config.backendAlias
    let consumed ← consumeSelectedRows env .scheduled
      (fun r : ScheduledExecution × Job => r.1.id) rows
    if consumed.isEmpty then pure []
    else do
      let (jobs, _) ← redispatchJobs env (consumed.map Prod.snd) true false
      pure jobs

/-- The error of a job that is not scheduled. -/
def notScheduled : PyError := .enqueueError "job is not scheduled"

/-- `dispatch_scheduled_job_now` -/
def dispatchScheduledJobNow (env : Env) (jobId : JobId) : Op (Job × DispatchOutcome) :=
  transactionAtomic do
    let db ← getDb
    match selectRelatedJob (m := .scheduled) db (db.scheduled.rows.filter (fun r =>
        r.jobId == jobId && r.backendAlias == env.config.backendAlias)) with
    | [] => throw notScheduled
    | scheduled :: _ => do
        ensureStateRowsBelongToBackend (m := .scheduled) [scheduled] env.config.backendAlias
        let consumed ← consumeSelectedRows env .scheduled
          (fun r : ScheduledExecution × Job => r.1.id) [scheduled]
        if consumed.isEmpty then throw notScheduled
        else do
          let job := { scheduled.2 with scheduledAt := none }
          updateJobsWhere (fun j => j.id == job.id) (fun j => { j with scheduledAt := none })
          let outcome ← dispatchJob env job true none
          pure (job, outcome)

/-! ## Failed jobs -/

/-- `FailedExecution.objects.get(job_id=…, job__backend_alias=…)` -/
def getFailed (db : Db) (env : Env) (jobId : JobId) : Option (FailedExecution × Job) :=
  (selectRelatedJob (m := .failed) db
    (db.failed.rows.filter (fun r => r.jobId == jobId))).find?
    (fun r => r.2.backendAlias == env.config.backendAlias)

/-- `retry_at` is never null: the source raises on `None` before it looks at the database. -/
def scheduleFailedJobRetry (env : Env) (jobId : JobId) (retryAt : Time) : Op Job :=
  transactionAtomic do
    let db ← getDb
    match getFailed db env jobId with
    | none => throw .failedDoesNotExist
    | some failed => do
        modifyDb (fun db => { db with
          failed := db.failed.updateWhere (fun r => r.id == failed.1.id)
            (fun r => { r with retryAt := some retryAt }) })
        pure failed.2

/-- `retry_failed_job` -/
def retryFailedJob (env : Env) (jobId : JobId) : Op (Option Job) :=
  transactionAtomic do
    let db ← getDb
    match getFailed db env jobId with
    | none => throw .failedDoesNotExist
    | some failed => do
        let consumed ← consumeSelectedRows env .failed
          (fun r : FailedExecution × Job => r.1.id) [failed]
        if consumed.isEmpty then throw (.enqueueError "job is not failed")
        else do
          let (jobs, _) ← redispatchJobs env (consumed.map Prod.snd) false true
          pure jobs.head?

/-- The backend's failed rows, in a given order. -/
def failedOfBackend (db : Db) (env : Env) (rows : List FailedExecution) :
    List (FailedExecution × Job) :=
  (selectRelatedJob (m := .failed) db rows).filter
    (fun r => r.2.backendAlias == env.config.backendAlias)

/-- `id` -/
def failedIdOrder (a b : FailedExecution) : Bool := a.id ≤ b.id

/-- Consume the selected failed rows and dispatch their jobs again. -/
def retryFailedRows (env : Env) (rows : List (FailedExecution × Job)) : Op (List Job) := do
  let consumed ← consumeSelectedRows env .failed
    (fun r : FailedExecution × Job => r.1.id) rows
  if consumed.isEmpty then pure []
  else do
    let (jobs, _) ← redispatchJobs env (consumed.map Prod.snd) true true
    pure jobs

/-- `retry_failed_jobs` -/
def retryFailedJobs (env : Env) (jobIds : Option (List JobId)) (batchSize : Int) : Op Nat :=
  transactionAtomic do
    let db ← getDb
    let wanted := db.failed.rows.filter (fun r => jobIds.all (fun ids => ids.contains r.jobId))
    let rows ← sliceTo batchSize (failedOfBackend db env (orderBy failedIdOrder wanted))
    let jobs ← retryFailedRows env rows
    pure jobs.length

/-- `retry_at, id` -/
def retryOrder (a b : FailedExecution) : Bool :=
  match a.retryAt, b.retryAt with
  | some s, some t => s < t || (s == t && a.id ≤ b.id)
  | some _, none => true
  | none, some _ => false
  | none, none => a.id ≤ b.id

/-- `promote_failed_job_retries` -/
def promoteFailedJobRetries (env : Env) (batchSize : Int) : Op (List Job) := do
  let now ← timezoneNow
  transactionAtomic do
    let db ← getDb
    let due := db.failed.rows.filter (fun r => r.retryAt.any (fun t => t ≤ now))
    let rows ← sliceTo batchSize (failedOfBackend db env (orderBy retryOrder due))
    retryFailedRows env rows

/-! ## Discards -/

/-- `id` -/
def rowIdOrder {m : StateModel} (a b : m.Row) : Bool := rowId a ≤ rowId b

/-- The filters of `_discard_state_jobs`: a failed row takes its backend from the job. -/
def discardable (env : Env) (m : StateModel) (jobIds : Option (List JobId))
    (queueName : Option String) (row : m.Row × Job) : Bool :=
  (if m = .failed then row.2.backendAlias == env.config.backendAlias
    else rowBackendAlias row.1 == some env.config.backendAlias) &&
  jobIds.all (fun ids => ids.contains (rowJobId row.1)) &&
  queueName.all (fun q => rowQueueName row.1 == some q)

/-- `release_concurrency_slot` for one job after the other. -/
def releaseAll (env : Env) : List Job → Op Unit
  | [] => pure ()
  | job :: rest => do
      releaseConcurrencySlot env job none
      releaseAll env rest

/-- `_discard_state_jobs` -/
def discardStateJobs (env : Env) (m : StateModel) (jobIds : Option (List JobId))
    (batchSize : Int) (releaseConcurrency : Bool) (queueName : Option String) : Op Nat :=
  transactionAtomic do
    let db ← getDb
    let rows ← sliceTo batchSize ((selectRelatedJob db
      (orderBy rowIdOrder (db.table m).rows)).filter (discardable env m jobIds queueName))
    ensureStateRowsBelongToBackend rows env.config.backendAlias
    let consumed ← consumeSelectedRows env m (fun r : m.Row × Job => rowId r.1) rows
    let ids := consumed.map (fun r => rowJobId r.1)
    ensureJobIdsHaveNoOtherExecutionState ids []
    let db' ← getDb
    let jobs := ids.filterMap db'.findJob
    let _ ← deleteJobsWhere (fun j => ids.contains j.id)
    runIf releaseConcurrency (releaseAll env jobs)
    pure jobs.length

/-- `discard_failed_jobs` -/
def discardFailedJobs (env : Env) (jobIds : Option (List JobId)) (batchSize : Int) : Op Nat :=
  discardStateJobs env .failed jobIds batchSize false none

/-- `discard_failed_job` -/
def discardFailedJob (env : Env) (jobId : JobId) : Op Nat :=
  discardFailedJobs env (some [jobId]) 1

/-- `discard_ready_jobs` -/
def discardReadyJobs (env : Env) (jobIds : Option (List JobId)) (batchSize : Int) : Op Nat :=
  discardStateJobs env .ready jobIds batchSize true none

/-- `discard_ready_jobs_for_queue` -/
def discardReadyJobsForQueue (env : Env) (queueName : String) (batchSize : Int) : Op Nat :=
  discardStateJobs env .ready none batchSize true (some queueName)

/-- `discard_scheduled_jobs` -/
def discardScheduledJobs (env : Env) (jobIds : Option (List JobId)) (batchSize : Int) : Op Nat :=
  discardStateJobs env .scheduled jobIds batchSize false none

/-- `discard_blocked_jobs` -/
def discardBlockedJobs (env : Env) (jobIds : Option (List JobId)) (batchSize : Int) : Op Nat :=
  discardStateJobs env .blocked jobIds batchSize false none

end DjQueue
