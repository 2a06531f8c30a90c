import DjQueue.Operations.Execution
import DjQueue.Payloads.Normalization

/-!
# Running claimed jobs

`execute_claimed_job` of `operations/execution.py`, and what the pool of a worker does around it.
The code of a task is not the queue's: while it runs the tables may change in any way, by its own
calls and by other processes.  It may also end in something that no handler of the queue takes, or
in a value or a message that cannot be written.
-/

namespace DjQueue

open Relational Payloads

/-- A `BaseException` that is no `Exception`: `except Exception` lets it pass. -/
inductive Exiting where
  | systemExit
  | keyboardInterrupt
  | generatorExit
  | subclass (name : String)
deriving DecidableEq, Repr

/-- How the call of a task ends. -/
inductive CallEnd where
  | returned (value : PyObject)
  | raised (failure : Failure)
  | exited (exiting : Exiting)

/-- The code of the tasks, what is recorded of an exception, and how `JSONField` stores a value.
`importExits` are the modules whose import does not end in an `Exception`, and `unwritable` is what
is raised where the texts of an exception cannot be computed or stored. -/
structure TaskRuntime where
  importExits : String → Option Exiting
  takesContext : Task → Bool
  call : Task → Option ClaimedJob → Payload → World → CallEnd × World
  failureOf : PyError → Failure
  unwritable : Failure → Option PyError
  column : PyObject → Except PyError (Option String)

/-- The task has returned a value that survives JSON, or an exception was raised on the way that is
recorded as its failure.  Or something was raised that is not recorded: an exception that the check
of the value does not expect, or what is no `Exception`. -/
inductive TaskOutcome where
  | returned (value : PyObject) (task : Option Imported)
  | raised (failure : Failure) (task : Option Imported)
  | unexpected (error : PyError)
  | exited (exiting : Exiting)

/-- `_load_claimed_job` -/
def loadClaimedJob (env : Env) (jobId : JobId) : Op ClaimedJob := do
  let db ← getDb
  let rows := selectRelatedJob (m := .claimed) db
    (db.claimed.rows.filter (fun r => r.jobId == jobId))
  match rows.find? (fun r => r.2.backendAlias == env.config.backendAlias) with
  | none => throw .claimedDoesNotExist
  | some (claimed, job) => pure {
      job := job
      claimedAt := claimed.createdAt
      workerIds := ((claimed.processId.bind (fun id =>
        db.processes.rows.find? (fun p => p.id == id))).map Process.name).toList
      processId := claimed.processId }

/-- `_call_task`; a task that takes a context is told about its claim. -/
def callTask (env : Env) (rt : TaskRuntime) (task : Task) (claimed : Option ClaimedJob) (job : Job)
    (w : World) : CallEnd × World :=
  if rt.takesContext task then
    match claimed with
    | some c => rt.call task (some c) job.payload w
    | none =>
        match loadClaimedJob env job.id w with
        | .ok c w' => rt.call task (some c) job.payload w'
        | .error e w' => (.raised (rt.failureOf e), w')
  else rt.call task none job.payload w

/-- The third `try` block of `execute_claimed_job`, which expects a `ValueError` only. -/
def checkReturnValue (env : Env) (rt : TaskRuntime) (task : Task) (value : PyObject) :
    TaskOutcome :=
  match normalizeReturnValue env.limits value with
  | .ok normalized => .returned normalized (some (.task task))
  | .error (.valueError message) =>
      .raised (rt.failureOf (.valueError message)) (some (.task task))
  | .error e => .unexpected e

/-- The three `try` blocks of `execute_claimed_job`: import, call, and the check that the value
survives JSON. -/
def runTask (env : Env) (rt : TaskRuntime) (claimed : Option ClaimedJob) (job : Job) (w : World) :
    TaskOutcome × World :=
  match rt.importExits job.taskPath with
  | some exiting => (.exited exiting, w)
  | none =>
      match env.importString job.taskPath with
      | .error e => (.raised (rt.failureOf e) none, w)
      | .ok .object =>
          (.raised (rt.failureOf (.attributeError "object has no attribute 'takes_context'"))
            (some .object), w)
      | .ok (.task task) =>
          let (ended, w') := callTask env rt task claimed job w
          match ended with
          | .raised failure => (.raised failure (some (.task task)), w')
          | .exited exiting => (.exited exiting, w')
          | .returned value => (checkReturnValue env rt task value, w')

/-! ## What cannot be written -/

/-- `complete_claimed_job` up to the statement that was to store the value.  On PostgreSQL that is
the statement that deletes the claim. -/
def completeUnwritable (env : Env) (arg : JobArg) (error : PyError) : Op Unit := do
  let job ← resolveClaimedJob env arg
  transactionAtomic do
    let _ ← timezoneNow
    runIf (env.config.family ≠ .postgresql) (deleteClaimedExecution job.id)
    throw error

/-- `fail_claimed_job` up to the row that was to record the exception. -/
def failUnwritable (env : Env) (arg : JobArg) (error : PyError) : Op Unit := do
  let job ← resolveClaimedJob env arg
  transactionAtomic do
    deleteClaimedExecution job.id
    ensureNoOtherExecutionState job.id [.claimed]
    throw error

/-- `complete_claimed_job` with what storing the value comes to.  Where finished jobs are deleted
nothing is stored. -/
def completeWith (env : Env) (arg : JobArg) (column : Except PyError (Option String))
    (task : Option Imported) : Op Unit :=
  match column with
  | .ok returnValue => completeClaimedJob env arg returnValue task
  | .error e =>
      if env.config.preserveFinishedJobs then completeUnwritable env arg e
      else completeClaimedJob env arg none task

/-- `fail_claimed_job` with an exception whose texts may be unwritable. -/
def failWith (env : Env) (rt : TaskRuntime) (arg : JobArg) (failure : Failure)
    (task : Option Imported) : Op Unit :=
  match rt.unwritable failure with
  | none => failClaimedJob env arg failure task
  | some e => failUnwritable env arg e

/-! ## Execution -/

/-- What `execute_claimed_job` does with the outcome; and what passes through it. -/
def settle (env : Env) (rt : TaskRuntime) (job : Job) : TaskOutcome → Op (Option Exiting)
  | .returned value task => do
      completeWith env (.job job) (rt.column value) task
      pure none
  | .raised failure task => do
      failWith env rt (.job job) failure task
      pure none
  | .unexpected e => throw e
  | .exited exiting => pure (some exiting)

/-- A `ClaimedJob`, a `Job`, or a key. -/
inductive ExecuteArg where
  | claimed (c : ClaimedJob)
  | job (loaded : Job)
  | pk (id : JobId)

/-- The job of a call, with its claim where the call has one or loads it. -/
def resolveExecuteArg (env : Env) : ExecuteArg → Op (Job × Option ClaimedJob)
  | .claimed c => pure (c.job, some c)
  | .job loaded => pure (loaded, none)
  | .pk id => do
      let c ← loadClaimedJob env id
      pure (c.job, some c)

/-- `execute_claimed_job`: it returns, or an exception is raised, or what is no `Exception` passes
through it. -/
def executeClaimedJob (env : Env) (rt : TaskRuntime) (arg : ExecuteArg) : Op (Option Exiting) := do
  let (job, claimed) ← resolveExecuteArg env arg
  let outcome ← fun w =>
    let (outcome, w') := runTask env rt claimed job w
    .ok outcome w'
  settle env rt job outcome

/-! ## In the pool of a worker -/

/-- `_fail_claimed_job_after_worker_error`: what this raises is only reported. -/
def failClaimedJobAfterWorkerError (env : Env) (rt : TaskRuntime) (claimed : ClaimedJob)
    (failure : Failure) : Op Unit :=
  tryCatch (failWith env rt claimed.arg failure none) fun _ => pure ()

/-- What a job leaves its thread with: the future has a result, or the worker has been asked to
stop, or what is no `Exception` goes on through the thread. -/
inductive JobEnd where
  | done
  | stopRequested
  | exits (exiting : Exiting)

/-- `_execute_job` in a thread of the pool, and `_handle_future` once it is done, which takes an
`Exception` only. -/
def executeJob (env : Env) (rt : TaskRuntime) (claimed : ClaimedJob) : Op JobEnd :=
  tryCatch (do
    let passed ← executeClaimedJob env rt (.claimed claimed)
    match passed with
    | none => pure .done
    | some exiting => pure (.exits exiting)) fun e => do
      failClaimedJobAfterWorkerError env rt claimed (rt.failureOf e)
      pure .stopRequested

end DjQueue
