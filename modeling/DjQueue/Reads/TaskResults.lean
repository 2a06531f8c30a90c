import DjQueue.Reads.Health

/-!
# What the backend tells of a task

`task_results.py` makes the result of a task from the rows of its job, and `backend.py` hands one
out when a task is enqueued, from the instance in memory and without reading the rows back.

The code of `django.tasks` and the columns `created_at` and `updated_at` of a job, which no
operation reads, are parameters.  `created_at` is written with the row and never again, so it
belongs to the job's key.
-/

namespace DjQueue

open Relational

/-! ## Results -/

/-- The status of a task result. -/
inductive TaskResultStatus where
  | ready | running | failed | successful
deriving DecidableEq, Repr

/-- One error of a task result. -/
structure TaskError where
  exceptionClassPath : String
  traceback : String
deriving DecidableEq, Repr

/-- `returnValue` is what only a successful result has. -/
structure TaskResult where
  task : Imported
  id : JobId
  status : TaskResultStatus
  enqueuedAt : Time
  startedAt : Option Time
  finishedAt : Option Time
  lastAttemptedAt : Option Time
  payload : Payload
  backend : String
  errors : List TaskError
  workerIds : List String
  returnValue : Option String
deriving DecidableEq, Repr

/-- Of `django.tasks`: `task.using(…)` with the columns of a job, and the backend's own check of a
task.  Of the database: the two time columns of a job. -/
structure TaskApi where
  using_ : Task → Job → Except PyError Task
  validateTask : Task → Except PyError Unit
  createdAt : JobId → Time
  updatedAt : Job → Time

/-- How reading a result ends without one. -/
inductive ResultError where
  | taskResultDoesNotExist (id : JobId)
  | raised (e : PyError)
deriving DecidableEq, Repr

/-- `task_path.rpartition(".")`, without the separator. -/
def rpartitionDot (path : String) : String × String :=
  let reversed := path.toList.reverse
  let name := String.ofList (reversed.takeWhile (fun c => c ≠ '.')).reverse
  match reversed.dropWhile (fun c => c ≠ '.') with
  | [] => ("", name)
  | _ :: module_ => (String.ofList module_.reverse, name)

/-- `_unavailable_task_for_job` -/
def unavailableTaskForJob (job : Job) : Task :=
  let (module_, name) := rpartitionDot job.taskPath
  { modulePath := (if module_ = "" then job.taskPath else module_) ++ "." ++
      (if name = "" then "unavailable_task" else name)
    queueName := job.queueName
    priority := job.priority
    runAfter := job.scheduledAt
    concurrencyLimit := none
    concurrencyDuration := none
    onConflict := none }

/-- `bind_task_to_job`; what is no task stays as it is. -/
def bindTaskToJob (api : TaskApi) (job : Job) : Imported → Except PyError Imported
  | .task task => do
      let bound ← api.using_ task job
      pure (.task bound)
  | .object => pure .object

/-- `task_for_job`: a path that imports to no task gives a detached one. -/
def taskForJob (api : TaskApi) (env : Env) (job : Job) : Except PyError Imported :=
  match env.importString job.taskPath with
  | .ok task => bindTaskToJob api job task
  | .error (.attributeError _) | .error (.importError _) =>
      bindTaskToJob api job (.task (unavailableTaskForJob job))
  | .error e => throw e

/-- `build_task_result` -/
def buildTaskResult (api : TaskApi) (task : Imported) (job : Job)
    (status : TaskResultStatus) (startedAt finishedAt lastAttemptedAt : Option Time)
    (errors : List TaskError) (workerIds : List String) : TaskResult where
  task := task
  id := job.id
  status := status
  enqueuedAt := api.createdAt job.id
  startedAt := startedAt
  finishedAt := finishedAt
  lastAttemptedAt := lastAttemptedAt
  payload := job.payload
  backend := job.backendAlias
  errors := errors
  workerIds := workerIds
  returnValue := if status = .successful then job.returnValue else none

/-- The name of a status, as the error lists it. -/
def JobStatus.name : JobStatus → String
  | .live .ready => "ready"
  | .live .scheduled => "scheduled"
  | .live .claimed => "claimed"
  | .live .blocked => "blocked"
  | .live .failed => "failed"
  | .finished => "finished"
  | .invalid => "invalid"

/-- The error of a job whose state is invalid. -/
def invalidStateError (names : List JobStatus) : TaskError where
  exceptionClassPath := "dj_queue.exceptions.DjQueueError"
  traceback := "job has invalid execution state: " ++
    ", ".intercalate (names.map JobStatus.name)

/-- `task_result_from_job` -/
def taskResultFromJob (api : TaskApi) (env : Env) (db : Db) (job : Job) :
    Except PyError TaskResult := do
  let task ← taskForJob api env job
  let failed := db.failed.rows.find? (fun r => r.jobId == job.id)
  let claimed := db.claimed.rows.find? (fun r => r.jobId == job.id)
  pure (match db.status job with
    | some .invalid =>
        buildTaskResult api task job .failed none (some (api.updatedAt job)) none
          [invalidStateError (db.executionStateNames job)] []
    | some (.live .failed) =>
        buildTaskResult api task job .failed none (failed.map FailedExecution.createdAt)
          (failed.map FailedExecution.createdAt)
          (failed.toList.map (fun r => ⟨r.exceptionClass, r.traceback⟩)) []
    | some (.live .claimed) =>
        buildTaskResult api task job .running (claimed.map ClaimedExecution.createdAt) job.finishedAt
          (claimed.map ClaimedExecution.createdAt) []
          ((claimed.bind db.processOf).toList.map Process.name)
    | some .finished => buildTaskResult api task job .successful none job.finishedAt none [] []
    | _ => buildTaskResult api task job .ready none job.finishedAt none [] [])

/-- `task_result_for_claimed_job` -/
def taskResultForClaimedJob (api : TaskApi) (task : Imported) (claimed : ClaimedJob) : TaskResult :=
  buildTaskResult api task claimed.job .running (some claimed.claimedAt) none
    (some claimed.claimedAt) [] claimed.workerIds

/-- `DjQueueBackend.get_result` -/
def getResult (api : TaskApi) (env : Env) (db : Db) (resultId : JobId) :
    Except ResultError TaskResult :=
  match db.jobs.find? (fun j => j.id == resultId && j.backendAlias == env.config.backendAlias) with
  | none => throw (.taskResultDoesNotExist resultId)
  | some job => (taskResultFromJob api env db job).mapError .raised

/-! ## Enqueueing -/

/-- The instance that dispatching leaves: that of a discarded job has finished. -/
def DispatchOutcome.instance_ (outcome : DispatchOutcome) (job : Job) (now : Time) : Job :=
  if outcome = .discarded then { job with finishedAt := some now, returnValue := none } else job

/-- `task_result_from_enqueued_job` -/
def taskResultFromEnqueuedJob (api : TaskApi) (job : Job) (task : Task) (successful : Bool) :
    Except PyError TaskResult := do
  let bound ← bindTaskToJob api job (.task task)
  pure (buildTaskResult api bound job (if successful then .successful else .ready) none
    (if successful then job.finishedAt else none) none [] [])

/-- `DjQueueBackend.validate_task` -/
def validateTask (api : TaskApi) (env : Env) (task : Task) : Except PyError Unit := do
  validateQueueAllowed env.config task.queueName
  validatePriority task.priority
  api.validateTask task

/-- What the clock is going to say. -/
def nextReading : Op Time := fun w => .ok (w.clock 0) w

/-- `DjQueueBackend.enqueue`; the first reading of the clock is the `now` of `dispatch_job`, which
is written to the instance as well. -/
def backendEnqueue (api : TaskApi) (env : Env) (call : TaskCall) (jobId : JobId) :
    Op TaskResult := do
  MonadExcept.ofExcept (validateTask api env call.task)
  let now ← nextReading
  let (job, outcome) ← enqueueJobWithDispatch env call false jobId
  MonadExcept.ofExcept (taskResultFromEnqueuedJob api (outcome.instance_ job now) call.task
    (outcome = .discarded))

/-- Every task is validated before the first is enqueued. -/
def validateTasks (api : TaskApi) (env : Env) : List (TaskCall × JobId) → Except PyError Unit
  | [] => pure ()
  | call :: calls => do
      validateTask api env call.1.task
      validateTasks api env calls

/-- The results of the calls, in their order. -/
def taskResults (api : TaskApi) (now : Time) :
    List (TaskCall × JobId) → List (DispatchEntry × DispatchOutcome) →
      Except PyError (List TaskResult)
  | call :: calls, (entry, outcome) :: settled => do
      let result ← taskResultFromEnqueuedJob api (outcome.instance_ entry.job now) call.1.task
        (outcome = .discarded)
      let results ← taskResults api now calls settled
      pure (result :: results)
  | _, _ => pure []

/-- `DjQueueBackend.enqueue_all`; the first reading is the `now` of `_enqueue_bulk_once`. -/
def backendEnqueueAll (api : TaskApi) (env : Env) (calls : List (TaskCall × JobId)) :
    Op (List TaskResult) := do
  MonadExcept.ofExcept (validateTasks api env calls)
  let now ← nextReading
  let settled ← enqueueJobsBulk env calls false
  MonadExcept.ofExcept (taskResults api now calls settled)

/-! ## Reading back -/

/-- The job has finished, or it waits for a worker. -/
structure Db.Settles (db : Db) (job : Job) (successful : Bool) : Prop where
  finished : successful = true → job.finishedAt.isSome = true
  unfinished : successful = false → job.finishedAt = none
  waits : successful = false → ∀ m, job.id ∈ db.stateJobIds m → m ≠ .claimed ∧ m ≠ .failed

namespace Accounts

variable {a : Audit} {db : Db} {job : Job} {env : Env} {api : TaskApi}

/-- A job of the backend is found by its id. -/
theorem findOwn_of_mem (good : Accounts a [] 0 db) (mem : job ∈ db.jobs)
    (own : job.backendAlias = env.config.backendAlias) :
    db.jobs.find? (fun j => j.id == job.id && j.backendAlias == env.config.backendAlias) =
      some job := by
  have pairs : (db.jobs.map (fun j => (j.id, j.backendAlias))).Nodup := by
    apply List.Nodup.of_map Prod.fst
    rw [List.map_map]
    exact good.jobIds
  rw [← own]
  exact find?_of_unique pairs mem

/-- The result read for a job is that of its rows. -/
theorem getResult_of_status (good : Accounts a [] 0 db) (mem : job ∈ db.jobs)
    (own : job.backendAlias = env.config.backendAlias) {r : TaskResult}
    (read : taskResultFromJob api env db job = .ok r) : getResult api env db job.id = .ok r := by
  rw [getResult, good.findOwn_of_mem mem own]
  simp only [read]
  rfl

theorem getResult_of_finished (good : Accounts a [] 0 db) (mem : job ∈ db.jobs)
    (own : job.backendAlias = env.config.backendAlias) {bound : Imported}
    (binds : taskForJob api env job = .ok bound) (done : job.finishedAt.isSome = true) :
    getResult api env db job.id =
      .ok (buildTaskResult api bound job .successful none job.finishedAt none [] []) := by
  have status := (status_of_valid (good.status_ne_invalid mem)).2.mpr done
  apply good.getResult_of_status mem own
  simp only [taskResultFromJob, binds, status]
  rfl

/-- A job with a row of a state shows that state, and it has not finished. -/
theorem status_of_row (good : Accounts a [] 0 db) (mem : job ∈ db.jobs) {m : StateModel}
    (has : job.id ∈ db.stateJobIds m) :
    db.status job = some (.live m) ∧ job.finishedAt = none := by
  have valid := status_of_valid (good.status_ne_invalid mem)
  have status := (valid.1 m).mpr (List.contains_iff_mem.mpr has)
  refine ⟨status, ?_⟩
  cases finished : job.finishedAt with
  | none => rfl
  | some t =>
      have done := valid.2.mpr (by rw [finished]; rfl)
      rw [status] at done
      cases done

theorem getResult_of_claimed (good : Accounts a [] 0 db) (mem : job ∈ db.jobs)
    (own : job.backendAlias = env.config.backendAlias) {bound : Imported}
    (binds : taskForJob api env job = .ok bound) {row : ClaimedExecution}
    (there : row ∈ db.claimed.rows) (ofJob : row.jobId = job.id) :
    getResult api env db job.id = .ok (buildTaskResult api bound job .running (some row.createdAt)
      none (some row.createdAt) [] ((db.processOf row).toList.map Process.name)) := by
  rcases good.status_of_row mem (m := .claimed) (ofJob ▸ List.mem_map_of_mem there) with
    ⟨status, unfinished⟩
  have found : db.claimed.rows.find? (fun r => r.jobId == job.id) = some row := by
    rw [← ofJob]
    exact find?_of_unique (good.stateJobIds_nodup .claimed) there
  apply good.getResult_of_status mem own
  simp only [taskResultFromJob, binds, status, found, unfinished, Option.map_some,
    Option.bind_some]
  rfl

theorem getResult_of_failed (good : Accounts a [] 0 db) (mem : job ∈ db.jobs)
    (own : job.backendAlias = env.config.backendAlias) {bound : Imported}
    (binds : taskForJob api env job = .ok bound) {row : FailedExecution}
    (there : row ∈ db.failed.rows) (ofJob : row.jobId = job.id) :
    getResult api env db job.id = .ok (buildTaskResult api bound job .failed none
      (some row.createdAt) (some row.createdAt) [⟨row.exceptionClass, row.traceback⟩] []) := by
  have status := (good.status_of_row mem (m := .failed) (ofJob ▸ List.mem_map_of_mem there)).1
  have found : db.failed.rows.find? (fun r => r.jobId == job.id) = some row := by
    rw [← ofJob]
    exact find?_of_unique (good.stateJobIds_nodup .failed) there
  apply good.getResult_of_status mem own
  simp only [taskResultFromJob, binds, status, found, Option.map_some, Option.toList_some]
  rfl

/-- A job that waits for a worker. -/
theorem getResult_of_waiting (good : Accounts a [] 0 db) (mem : job ∈ db.jobs)
    (own : job.backendAlias = env.config.backendAlias) {bound : Imported}
    (binds : taskForJob api env job = .ok bound) (unfinished : job.finishedAt = none)
    (waits : ∀ m, job.id ∈ db.stateJobIds m → m ≠ .claimed ∧ m ≠ .failed) :
    getResult api env db job.id =
      .ok (buildTaskResult api bound job .ready none none none [] []) := by
  rcases good.exists_state mem (by simp [unfinished]) with ⟨m, has⟩
  have status := (good.status_of_row mem has).1
  apply good.getResult_of_status mem own
  simp only [taskResultFromJob, binds, status, unfinished]
  cases m with
  | claimed => exact absurd rfl (waits _ has).1
  | failed => exact absurd rfl (waits _ has).2
  | _ => rfl

/-- The result that was handed out for a settled job is the one that is read back. -/
theorem getResult_of_settles (good : Accounts a [] 0 db) (mem : job ∈ db.jobs)
    (own : job.backendAlias = env.config.backendAlias) {task imported : Task}
    (imports : env.importString job.taskPath = .ok (.task imported))
    (same : api.using_ imported job = api.using_ task job) {successful : Bool}
    (settles : db.Settles job successful) {r : TaskResult}
    (made : taskResultFromEnqueuedJob api job task successful = .ok r) :
    getResult api env db job.id = .ok r ∧ r.id = job.id := by
  rcases bind_eq_ok made with ⟨bound, binds, built⟩
  have task_ : taskForJob api env job = .ok bound := by
    rw [taskForJob, imports, ← binds]
    simp only [bindTaskToJob, same]
  cases built
  refine ⟨?_, rfl⟩
  cases successful with
  | true => exact good.getResult_of_finished mem own task_ (settles.finished rfl)
  | false =>
      exact good.getResult_of_waiting mem own task_ (settles.unfinished rfl) (settles.waits rfl)

end Accounts

end DjQueue
