import DjQueue.Operations.Recovery

/-!
# Retention and pauses

`operations/cleanup.py` and `operations/queues.py`.
-/

namespace DjQueue

open Relational

/-! ## Retention -/

/-- Jobs of the backend are deleted, if none of them is in a state. -/
def deleteJobsWithoutExecutionState (env : Env) (jobIds : List JobId) : Op Nat := do
  ensureJobIdsHaveNoOtherExecutionState jobIds []
  deleteJobsWhere (fun j => j.backendAlias == env.config.backendAlias && jobIds.contains j.id)

/-- `finished_at, id` -/
def finishedOrder (a b : Job) : Bool :=
  match a.finishedAt, b.finishedAt with
  | some s, some t => s < t || (s == t && a.id ≤ b.id)
  | some _, none => true
  | none, some _ => false
  | none, none => a.id ≤ b.id

/-- `older_than`, or the configured retention, in seconds. -/
def retention (olderThan configured : Option Int) : Option Int := olderThan.or configured

/-- `clear_finished_jobs` -/
def clearFinishedJobs (env : Env) (olderThan : Option Int) (taskPath : Option String)
    (batchSize : Int) (now : Time) : Op Nat :=
  match retention olderThan env.config.clearFinishedJobsAfter with
  | none => pure 0
  | some age => transactionAtomic do
      let db ← getDb
      let old := orderBy finishedOrder (db.jobs.filter (fun j =>
        j.backendAlias == env.config.backendAlias &&
          j.finishedAt.any (fun t => t < now - seconds age) &&
          taskPath.all (fun p => j.taskPath == p)))
      let jobs ← sliceTo batchSize old
      if jobs.isEmpty then pure 0
      else deleteJobsWithoutExecutionState env (jobs.map Job.id)

/-- `created_at, job_id` -/
def failureAgeOrder (a b : FailedExecution) : Bool :=
  a.createdAt < b.createdAt || (a.createdAt == b.createdAt && a.jobId ≤ b.jobId)

/-- `clear_failed_jobs` -/
def clearFailedJobs (env : Env) (olderThan : Option Int) (taskPath : Option String)
    (batchSize : Int) (now : Time) : Op Nat :=
  match retention olderThan env.config.clearFailedJobsAfter with
  | none => pure 0
  | some age => transactionAtomic do
      let db ← getDb
      let old := orderBy failureAgeOrder (db.failed.rows.filter (fun r =>
        r.createdAt < now - seconds age))
      let rows ← sliceTo batchSize ((failedOfBackend db env old).filter (fun r =>
        taskPath.all (fun p => r.2.taskPath == p)))
      let consumed ← consumeSelectedRows env .failed
        (fun r : FailedExecution × Job => r.1.id) rows
      if consumed.isEmpty then pure 0
      else deleteJobsWithoutExecutionState env (consumed.map (fun r => r.1.jobId))

/-- `run_at, id` -/
def runOrder (a b : RecurringExecution) : Bool :=
  a.runAt < b.runAt || (a.runAt == b.runAt && a.id ≤ b.id)

/-- `clear_recurring_executions` -/
def clearRecurringExecutions (env : Env) (olderThan : Option Int) (taskKey : Option String)
    (batchSize : Int) (now : Time) : Op Nat :=
  match retention olderThan env.config.clearRecurringExecutionsAfter with
  | none => pure 0
  | some age => transactionAtomic do
      let db ← getDb
      let old := orderBy runOrder (db.recurringExecutions.rows.filter (fun e =>
        e.backendAlias == env.config.backendAlias && e.runAt < now - seconds age &&
          taskKey.all (fun k => e.taskKey == k)))
      let executions ← sliceTo batchSize old
      let ids := executions.map RecurringExecution.id
      modifyDb (fun db => { db with
        recurringExecutions := db.recurringExecutions.deleteWhere (fun e =>
          e.backendAlias == env.config.backendAlias && ids.contains e.id) })
      pure executions.length

/-! ## Pauses -/

/-- The first transaction of `pause_queue`: `get_or_create` the pause row. -/
def createPause (env : Env) (queueName : String) : Op Unit :=
  transactionAtomic do
    let now ← timezoneNow
    let db ← getDb
    runIf (!isPaused db env.config.backendAlias queueName) (modifyDb (fun db => { db with
      pauses := db.pauses.insert (fun id => ⟨id, env.config.backendAlias, queueName, now⟩) }))

/-- The second transaction only locks the queue's ready rows, which a session running alone
does not notice. -/
def lockReadyRows (env : Env) (queueName : String) : Op (List Nat) :=
  transactionAtomic do
    let db ← getDb
    pure ((db.ready.rows.filter (fun r =>
      r.backendAlias == env.config.backendAlias && r.queueName == queueName)).map
      ReadyExecution.id)

/-- `pause_queue` -/
def pauseQueue (env : Env) (queueName : String) : Op Unit := do
  createPause env queueName
  let _ ← lockReadyRows env queueName
  pure ()

/-- The `Case` of `resume_queue`: a row that waited before the pause moves by its length, a row
that came during it starts now. -/
def resumedLatency (pausedAt resumedAt : Time) (r : ReadyExecution) : Time :=
  match r.latencyStartedAt with
  | none => if r.createdAt < pausedAt then r.createdAt + (resumedAt - pausedAt) else resumedAt
  | some t => if t < pausedAt then t + (resumedAt - pausedAt) else resumedAt

/-- `resume_queue` -/
def resumeQueue (env : Env) (queueName : String) (resumedAt : Option Time) : Op Bool :=
  transactionAtomic do
    let db ← getDb
    let now ← timezoneNow
    match db.pauses.rows.find? (fun p =>
        p.backendAlias == env.config.backendAlias && p.queueName == queueName) with
    | none => pure false
    | some pause => do
        modifyDb (fun db => { db with
          ready := db.ready.updateWhere
            (fun r => r.backendAlias == env.config.backendAlias && r.queueName == queueName)
            (fun r => { r with
              latencyStartedAt := some (resumedLatency pause.createdAt (resumedAt.getD now) r) })
          pauses := db.pauses.deleteWhere (fun p => p.id == pause.id) })
        pure true

end DjQueue
