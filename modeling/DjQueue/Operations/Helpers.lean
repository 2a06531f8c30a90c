import DjQueue.Settings

/-!
# Row helpers

`operations/_helpers.py` and `sql/common.py`: the checks every transition makes before
it moves a job, and the inserts, deletes and updates it moves it with.  The constraints
of the database live here: an insert into a state table raises when the job is missing
or already has a row in that table.
-/

namespace DjQueue

open Relational

/-! ## Reads -/

/-- `select_related("job")`: each row with the job it points to. -/
def selectRelatedJob (db : Db) {m : StateModel} (rows : List m.Row) : List (m.Row × Job) :=
  rows.filterMap (fun r => (db.findJob (rowJobId r)).map (fun j => (r, j)))

/-- `_job_ids_with_other_execution_state` -/
def jobIdsWithOtherExecutionState (db : Db) (jobIds : List JobId)
    (ignoredModels : List StateModel) : List JobId :=
  ((db.jobs.filter (fun j => jobIds.contains j.id)).filter (fun j =>
    executionStateModels.any (fun m => !ignoredModels.contains m && db.hasState m j.id))).map
    Job.id

/-- `_ensure_job_ids_have_no_other_execution_state` -/
def ensureJobIdsHaveNoOtherExecutionState (jobIds : List JobId)
    (ignoredModels : List StateModel) : Op Unit := do
  let db ← getDb
  match jobIdsWithOtherExecutionState db jobIds ignoredModels with
  | [] => pure ()
  | conflicting :: _ => throw (alreadyHasState conflicting)

/-- `_ensure_no_other_execution_state` -/
def ensureNoOtherExecutionState (jobId : JobId) (ignoredModels : List StateModel) : Op Unit :=
  ensureJobIdsHaveNoOtherExecutionState [jobId] ignoredModels

/-- `_ensure_state_rows_belong_to_backend` -/
def ensureStateRowsBelongToBackend {m : StateModel} (rows : List (m.Row × Job))
    (backendAlias : String) : Op Unit :=
  match rows.find? (fun r => r.2.backendAlias ≠ backendAlias) with
  | none => pure ()
  | some r => throw (belongsToBackend (rowJobId r.1) r.2.backendAlias)

/-! ## Inserts -/

/-- An insert: the job must exist and must have no row in this table yet. -/
def insertRow (m : StateModel) (jobId : JobId) (mk : Nat → m.Row) : Op Unit := do
  let db ← getDb
  if (db.findJob jobId).isNone || db.hasState m jobId then throw .integrityError
  else modifyDb (fun db => db.setTable m ((db.table m).insert mk))

/-- Saving an instance gives it its key, and its `auto_now_add` column the current time. -/
def stampRow : {m : StateModel} → m.Row → Nat → Time → m.Row
  | .ready, r, id, now => ({ r with id := id, createdAt := now } : ReadyExecution)
  | .scheduled, r, id, _ => ({ r with id := id } : ScheduledExecution)
  | .claimed, r, id, now => ({ r with id := id, createdAt := now } : ClaimedExecution)
  | .blocked, r, id, _ => ({ r with id := id } : BlockedExecution)
  | .failed, r, id, now => ({ r with id := id, createdAt := now } : FailedExecution)

/-- `objects.create(**fields)`: the instance's own `id` and `createdAt` are placeholders. -/
def createRow (m : StateModel) (row : m.Row) : Op Unit := do
  let now ← timezoneNow
  insertRow m (rowJobId row) (fun id => stampRow row id now)

/-- `_bulk_create` -/
def bulkCreate (m : StateModel) (rows : List m.Row) : Op Unit :=
  rows.forM (createRow m)

/-- The columns of a job, or of a `BlockedJobRef`, that its state rows repeat. -/
structure JobRef where
  id : JobId
  backendAlias : String
  queueName : String
  priority : Int
  concurrencyKey : Option String
deriving DecidableEq, Repr

/-- What the state rows repeat of a job. -/
def Job.ref (j : Job) : JobRef :=
  ⟨j.id, j.backendAlias, j.queueName, j.priority, j.concurrencyKey⟩

/-- `_execution_backend_alias` -/
def executionBackendAlias (job : JobRef) (backendAlias : String) : Except PyError String :=
  if job.backendAlias ≠ backendAlias then throw (belongsToBackend job.id job.backendAlias)
  else pure job.backendAlias

/-- `_ready_execution_row` -/
def readyExecutionRow (job : JobRef) (backendAlias : String) (queueName : Option String)
    (priority : Option Int) (readyAt : Time) : Except PyError ReadyExecution := do
  let backend ← executionBackendAlias job backendAlias
  pure {
    id := 0
    jobId := job.id
    backendAlias := backend
    queueName := queueName.getD job.queueName
    priority := priority.getD job.priority
    createdAt := 0
    latencyStartedAt := some readyAt }

/-- `_scheduled_execution_row`.  The job's `scheduled_at` is never null where this is called. -/
def scheduledExecutionRow (job : Job) (backendAlias : String) (scheduledAt : Option Time) :
    Except PyError ScheduledExecution := do
  let backend ← executionBackendAlias job.ref backendAlias
  match scheduledAt.or job.scheduledAt with
  | none => throw .integrityError
  | some at' => pure {
      id := 0
      jobId := job.id
      backendAlias := backend
      queueName := job.queueName
      priority := job.priority
      scheduledAt := at' }

/-- `_blocked_execution_fields`.  A job that blocks has a key. -/
def blockedExecutionRow (job : JobRef) (backendAlias : String) (concurrencyKey : Option String)
    (expiresAt : Time) (queueName : Option String) (priority : Option Int) :
    Except PyError BlockedExecution := do
  let backend ← executionBackendAlias job backendAlias
  match concurrencyKey.or job.concurrencyKey with
  | none => throw .integrityError
  | some key => pure {
      id := 0
      jobId := job.id
      backendAlias := backend
      queueName := queueName.getD job.queueName
      priority := priority.getD job.priority
      concurrencyKey := key
      expiresAt := expiresAt }

/-- `_create_ready_execution` -/
def createReadyExecution (job : JobRef) (backendAlias : String) (queueName : Option String)
    (priority : Option Int) (readyAt : Time) (checkConflicts : Bool) : Op Unit := do
  runIf checkConflicts (ensureNoOtherExecutionState job.id [])
  let row ← MonadExcept.ofExcept (readyExecutionRow job backendAlias queueName priority readyAt)
  createRow .ready row

/-- `_bulk_create_ready_executions` -/
def bulkCreateReadyExecutions (rows : List ReadyExecution) (checkConflicts : Bool) : Op Unit :=
  if rows.isEmpty then pure ()
  else do
    runIf checkConflicts
      (ensureJobIdsHaveNoOtherExecutionState (rows.map ReadyExecution.jobId) [])
    bulkCreate .ready rows

/-- `_create_scheduled_execution` -/
def createScheduledExecution (job : Job) (backendAlias : String) (scheduledAt : Option Time)
    (checkConflicts : Bool) : Op Unit := do
  runIf checkConflicts (ensureNoOtherExecutionState job.id [])
  let row ← MonadExcept.ofExcept (scheduledExecutionRow job backendAlias scheduledAt)
  createRow .scheduled row

/-- `_create_blocked_execution` -/
def createBlockedExecution (job : JobRef) (backendAlias : String)
    (concurrencyKey : Option String) (expiresAt : Time) (queueName : Option String)
    (priority : Option Int) (checkConflicts : Bool) : Op Unit := do
  runIf checkConflicts (ensureNoOtherExecutionState job.id [])
  let row ← MonadExcept.ofExcept
    (blockedExecutionRow job backendAlias concurrencyKey expiresAt queueName priority)
  createRow .blocked row

/-- `sql_common.create_ready_execution_after_blocked_consume`: one `INSERT … SELECT … WHERE`
that checks every state table but the blocked one; returns the number of rows inserted. -/
def insertReadyAfterBlockedConsume (job : JobRef) (backendAlias queueName : String)
    (priority : Int) (readyAt : Time) : Op Nat := do
  let db ← getDb
  if executionStateModels.any (fun m => m ≠ .blocked && db.hasState m job.id) then pure 0
  else do
    insertRow .ready job.id (fun id =>
      ({ id := id, jobId := job.id, backendAlias := backendAlias, queueName := queueName,
         priority := priority, createdAt := readyAt, latencyStartedAt := some readyAt } :
        ReadyExecution))
    pure 1

/-! ## Deletes -/

/-- `queryset.delete()` on a state table; returns the number of rows deleted. -/
def deleteRowsWhere (m : StateModel) (p : m.Row → Bool) : Op Nat := do
  let db ← getDb
  modifyDb (fun db => db.setTable m ((db.table m).deleteWhere p))
  pure ((db.table m).rows.countP p)

/-- Serialized writes: delete the rows one by one and keep those that were still there. -/
def consumeEachRow {β : Type} (m : StateModel) (pk : β → Nat) : List β → Op (List β)
  | [] => pure []
  | row :: rest => do
      let deleted ← deleteRowsWhere m (fun r => rowId r == pk row)
      let consumed ← consumeEachRow m pk rest
      pure (if deleted = 0 then consumed else row :: consumed)

/-- `_consume_selected_rows`.  Where rows are locked, one delete takes them all: the generic
`pk__in` delete, or on the MySQL family the joined delete of `consume_ready_rows`. -/
def consumeSelectedRows {β : Type} (env : Env) (m : StateModel) (pk : β → Nat)
    (rows : List β) : Op (List β) :=
  if env.config.family.usesSerializedWrites then consumeEachRow m pk rows
  else do
    let _ ← deleteRowsWhere m (fun r => (rows.map pk).contains (rowId r))
    pure rows

/-- Deletes jobs with everything that cascades from them; returns the number of rows deleted
in all tables. -/
def deleteJobsWhere (p : Job → Bool) : Op Nat := do
  let db ← getDb
  let ids := (db.jobs.filter p).map Job.id
  modifyDb (fun db => { db with
    jobs := db.jobs.filter (fun j => !p j)
    ready := db.ready.deleteWhere (fun r => ids.contains r.jobId)
    scheduled := db.scheduled.deleteWhere (fun r => ids.contains r.jobId)
    claimed := db.claimed.deleteWhere (fun r => ids.contains r.jobId)
    blocked := db.blocked.deleteWhere (fun r => ids.contains r.jobId)
    failed := db.failed.deleteWhere (fun r => ids.contains r.jobId)
    recurringExecutions := db.recurringExecutions.deleteWhere (fun e =>
      e.jobId.any ids.contains) })
  pure (ids.length +
    (executionStateModels.map (fun m => (db.stateJobIds m).countP ids.contains)).sum +
    db.recurringExecutions.rows.countP (fun e => e.jobId.any ids.contains))

/-! ## Updates -/

/-- `queryset.update(…)` on jobs. -/
def updateJobsWhere (p : Job → Bool) (f : Job → Job) : Op Unit :=
  modifyDb (fun db => { db with jobs := db.jobs.map (fun j => if p j then f j else j) })

/-- `_finish_job_if_no_execution_state`: one guarded `UPDATE`, which must hit one row. -/
def finishJobIfNoExecutionState (job : Job) (returnValue : Option String) (finishedAt : Time)
    (includeClaimed : Bool) : Op Unit := do
  let db ← getDb
  let ignored : List StateModel := if includeClaimed then [] else [.claimed]
  let hit : Job → Bool := fun j =>
    j.id == job.id && j.backendAlias == job.backendAlias &&
      executionStateModels.all (fun m => ignored.contains m || !db.hasState m j.id)
  updateJobsWhere hit (fun j =>
    { j with finishedAt := some finishedAt, returnValue := returnValue })
  runIf (db.jobs.countP hit ≠ 1) (throw (alreadyHasState job.id))

end DjQueue
