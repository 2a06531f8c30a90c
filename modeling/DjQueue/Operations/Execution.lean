import DjQueue.Operations.Claiming

/-!
# Completing and failing claimed jobs

`operations/execution.py`, from the point where a task has returned or raised.  The
caller holds an instance of the job, as the claim returned it, or its key; the claim
itself is found and deleted by the job's key alone.
-/

namespace DjQueue

open Relational

/-- What a caller passes for a job: the instance a `ClaimedJob` holds, or a key. -/
inductive JobArg where
  | job (loaded : Job)
  | pk (id : JobId)
deriving DecidableEq, Repr

/-- A claimed job as the argument of a call. -/
def ClaimedJob.arg (c : ClaimedJob) : JobArg := .job c.job

/-- `_resolve_claimed_job` -/
def resolveClaimedJob (env : Env) : JobArg → Op Job
  | .job job =>
      if job.backendAlias ≠ env.config.backendAlias then throw .claimedDoesNotExist
      else pure job
  | .pk id => do
      let db ← getDb
      match db.jobs.find? (fun j => j.id == id && j.backendAlias == env.config.backendAlias) with
      | none => throw .claimedDoesNotExist
      | some job => pure job

/-- `_delete_claimed_execution` -/
def deleteClaimedExecution (jobId : JobId) : Op Unit := do
  let deleted ← deleteRowsWhere .claimed (fun r => r.jobId == jobId)
  runIf (deleted = 0) (throw .claimedDoesNotExist)

/-- The PostgreSQL statement that deletes the claim and finishes the job; both counts are
checked.  Its `UPDATE` looks at every state but the claim, on the statement's snapshot. -/
def deleteClaimedAndFinishJobIfNoExecutionState (job : Job) (returnValue : Option String)
    (finishedAt : Time) : Op Unit := do
  let db ← getDb
  let deleted ← deleteRowsWhere .claimed (fun r => r.jobId == job.id)
  let hit : Job → Bool := fun j =>
    j.id == job.id && j.backendAlias == job.backendAlias && deleted ≠ 0 &&
      executionStateModels.all (fun m => m = .claimed || !db.hasState m j.id)
  updateJobsWhere hit (fun j =>
    { j with finishedAt := some finishedAt, returnValue := returnValue })
  runIf (deleted ≠ 1) (throw .claimedDoesNotExist)
  runIf (db.jobs.countP hit ≠ 1) (throw (alreadyHasState job.id))

/-- `completed.delete()` -/
def deleteCompletedJob (job : Job) : Op Unit := do
  deleteClaimedExecution job.id
  ensureNoOtherExecutionState job.id [.claimed]
  let _ ← deleteJobsWhere (fun j => j.id == job.id)
  pure ()

/-- The end of a job: finished, or deleted where finished jobs are not kept. -/
def finishClaimedJob (env : Env) (job : Job) (returnValue : Option String) (now : Time) :
    Op Unit :=
  if env.config.preserveFinishedJobs then
    match env.config.family with
    | .postgresql => deleteClaimedAndFinishJobIfNoExecutionState job returnValue now
    | _ => do
        deleteClaimedExecution job.id
        finishJobIfNoExecutionState job returnValue now false
  else deleteCompletedJob job

/-- `complete_claimed_job` -/
def completeClaimedJob (env : Env) (arg : JobArg) (returnValue : Option String)
    (task : Option Imported) : Op Unit := do
  let job ← resolveClaimedJob env arg
  transactionAtomic do
    let now ← timezoneNow
    finishClaimedJob env job returnValue now
    releaseConcurrencySlot env job task

/-- The exception recorded on a failed row. -/
structure Failure where
  exceptionClass : String
  message : String
  traceback : String
deriving DecidableEq, Repr

/-- The failed row of a job. -/
def failedRow (failure : Failure) (jobId : JobId) : FailedExecution where
  id := 0
  jobId := jobId
  exceptionClass := failure.exceptionClass
  message := failure.message
  traceback := failure.traceback
  retryAt := none
  createdAt := 0

/-- `fail_claimed_job` -/
def failClaimedJob (env : Env) (arg : JobArg) (failure : Failure) (task : Option Imported) :
    Op Unit := do
  let job ← resolveClaimedJob env arg
  transactionAtomic do
    deleteClaimedExecution job.id
    ensureNoOtherExecutionState job.id [.claimed]
    createRow .failed (failedRow failure job.id)
    releaseConcurrencySlot env job task

end DjQueue
