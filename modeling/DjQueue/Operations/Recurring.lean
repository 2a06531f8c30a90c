import DjQueue.Operations.Maintenance
import DjQueue.Payloads.Normalization

/-!
# Recurring tasks

`operations/recurring.py`.  A firing is two transactions: `_reserve_recurring_task` writes
the execution row of one run with the key its job will have, and moves the task's cursor
past the run; `_publish_reserved_recurring_task` creates the job under that key and links
it.  A poll fires the reservations that were never published, then the latest run of
every task whose cursor is due.
-/

namespace DjQueue

open Relational

/-! ## Definitions -/

/-- `_recurring_string` -/
def recurringString (value name : String) : Except PyError Unit :=
  if value = "" then throw (.enqueueError s!"{name} must be a non-empty string") else pure ()

/-- `import_string`, with the exception the validation turns an `ImportError` into. -/
def importTask (env : Env) (taskPath : String) : Except PyError Task :=
  match env.importString taskPath with
  | .error (.importError _) =>
      throw (.enqueueError s!"task_path must be importable: {taskPath}")
  | .error e => throw e
  | .ok .object => throw (.enqueueError "task_path must reference a Django task")
  | .ok (.task task) => pure task

/-- The schedule of a task is one that cron takes. -/
def validateSchedule (env : Env) (schedule : String) : Except PyError Unit :=
  if env.cron.isValidCron schedule then pure ()
  else throw (.enqueueError "schedule must be a valid cron expression")

/-- `validate_recurring_task_definition` -/
def validateRecurringTaskDefinition (env : Env) (taskPath queueName : String) (priority : Int)
    (schedule : String) : Except PyError Task := do
  recurringString taskPath "task_path"
  recurringString queueName "queue_name"
  recurringString schedule "schedule"
  validateSchedule env schedule
  let task ← importTask env taskPath
  validateQueueAllowed env.config queueName
  validatePriority priority
  pure task

/-- The columns a definition sets. -/
structure RecurringDefinition where
  taskPath : String
  payload : Option Payload
  schedule : String
  queueName : String
  priority : Int
  description : String
  static : Bool
deriving DecidableEq, Repr

/-- The columns of a task that its definition sets. -/
def RecurringTask.definition (t : RecurringTask) : RecurringDefinition :=
  ⟨t.taskPath, t.payload, t.schedule, t.queueName, t.priority, t.description, t.static⟩

/-- `save(update_fields=changed_fields)`: a changed schedule forgets the cursor. -/
def RecurringTask.overwrite (t : RecurringTask) (desired : RecurringDefinition) (now : Time) :
    RecurringTask :=
  { t with
    taskPath := desired.taskPath
    payload := desired.payload
    schedule := desired.schedule
    queueName := desired.queueName
    priority := desired.priority
    description := desired.description
    static := desired.static
    nextRunAt := if t.schedule = desired.schedule then t.nextRunAt else none
    updatedAt := now }

/-- `left == right` of two payload columns. -/
def samePayload (left right : Option Payload) : Bool :=
  match left, right with
  | none, none => true
  | some left, some right => left.value.equals right.value
  | _, _ => false

/-- The columns after the fields that differ are set: an equal payload stays as it is. -/
def RecurringTask.keeping (t : RecurringTask) (desired : RecurringDefinition) :
    RecurringDefinition :=
  if samePayload t.payload desired.payload then { desired with payload := t.payload } else desired

/-- Saved when some field has changed. -/
def RecurringTask.redefine (t : RecurringTask) (desired : RecurringDefinition) (now : Time) :
    RecurringTask :=
  if t.definition = desired then t else t.overwrite desired now

/-- A task with this definition, as it is created. -/
def RecurringDefinition.newTask (d : RecurringDefinition) (backendAlias key : String)
    (now : Time) (id : Nat) : RecurringTask where
  id := id
  backendAlias := backendAlias
  key := key
  taskPath := d.taskPath
  payload := d.payload
  schedule := d.schedule
  queueName := d.queueName
  priority := d.priority
  description := d.description
  static := d.static
  nextRunAt := none
  updatedAt := now

/-- The task of a backend and key. -/
def Db.findRecurringTask (db : Db) (backendAlias key : String) : Option RecurringTask :=
  db.recurringTasks.rows.find? (fun t => t.backendAlias == backendAlias && t.key == key)

/-- A task that is created. -/
def insertRecurringTask (mk : Nat → RecurringTask) : Op Unit :=
  modifyDb (fun db => { db with recurringTasks := db.recurringTasks.insert mk })

/-- A task that gets another definition. -/
def redefineRecurringTask (backendAlias key : String) (desired : RecurringDefinition) :
    Op Unit := do
  let now ← timezoneNow
  modifyDb (fun db => { db with
    recurringTasks := db.recurringTasks.updateWhere
      (fun t => t.backendAlias == backendAlias && t.key == key)
      (fun t => t.redefine (t.keeping desired) now) })

/-! ## Static tasks -/

mutual

/-- The order of the members is no part of a document. -/
def sortMembers : Json.Document → Json.Document
  | .scalar s => .scalar s
  | .array items => .array (sortItems items)
  | .object members =>
      .object (orderBy (fun a b => a.1 < b.1 || a.1 == b.1) (sortInMembers members))

/-- The items of a list, with sorted members. -/
def sortItems : List Json.Document → List Json.Document
  | [] => []
  | d :: items => sortMembers d :: sortItems items

/-- The members of an object, each sorted inside. -/
def sortInMembers : List (String × Json.Document) → List (String × Json.Document)
  | [] => []
  | (key, d) :: members => (key, sortMembers d) :: sortInMembers members

end

/-- What `json.dumps` writes; the two containers around the arguments are always written. -/
def ConfiguredPayload.dumps (limits : Payloads.RecursionLimits) (p : ConfiguredPayload) :
    Except PyError Payload := do
  let args ← Payloads.encodeItems (limits.writes - 2) p.args
  let kwargs ← Payloads.encodeEntries (limits.writes - 2) p.kwargs
  pure ⟨sortItems args, orderBy (fun a b => a.1 < b.1 || a.1 == b.1) (sortInMembers kwargs)⟩

/-- What the column holds once the payload is saved.  NaN and the infinities are written, but no
database takes them for JSON. -/
def ConfiguredPayload.column (limits : Payloads.RecursionLimits) (p : ConfiguredPayload) :
    Except PyError Payload :=
  match p.dumps limits with
  | .ok payload => pure payload
  | .error (.valueError _) => throw (.dataError "invalid input syntax for type json")
  | .error e => throw e

/-- The columns of a configured task. -/
def RecurringTaskConfig.desired (c : RecurringTaskConfig) (payload : Option Payload) :
    RecurringDefinition where
  taskPath := c.taskPath
  payload := payload
  schedule := c.schedule
  queueName := c.queueName
  priority := c.priority
  description := c.description
  static := true

/-- Every configured task is validated. -/
def validateRecurringConfigs (env : Env) : List RecurringTaskConfig → Except PyError Unit
  | [] => pure ()
  | c :: rest => do
      let _ ← validateRecurringTaskDefinition env c.taskPath c.queueName c.priority c.schedule
      validateRecurringConfigs env rest

/-- A key that a dynamic task has is not configured. -/
def ensureNotDynamic (env : Env) (c : RecurringTaskConfig) : Op Unit := do
  let db ← getDb
  runIf ((db.findRecurringTask env.config.backendAlias c.key).any (fun t => !t.static))
    (throw (.enqueueError s!"recurring task key {pyRepr c.key} is already scheduled dynamically"))

/-- `bulk_create(to_create, ignore_conflicts=True)`, one row. -/
def createStaticRecurringTask (env : Env) (c : RecurringTaskConfig) : Op Unit := do
  let now ← timezoneNow
  let db ← getDb
  if (db.findRecurringTask env.config.backendAlias c.key).isNone then do
    let payload ← MonadExcept.ofExcept (c.payload.column env.limits)
    insertRecurringTask ((c.desired (some payload)).newTask env.config.backendAlias c.key now)
  else pure ()

/-- The payload of the row, loaded, is `==` to the configured one. -/
def RecurringTask.hasPayload (t : RecurringTask) (c : RecurringTaskConfig) : Bool :=
  t.payload.any (fun payload => payload.value.equals c.payload.value)

/-- `getattr(existing_task, field) == value` for every field. -/
def RecurringTask.agrees (t : RecurringTask) (c : RecurringTaskConfig) : Bool :=
  t.hasPayload c && t.definition == c.desired t.payload

/-- What is saved as the payload: nothing new where it is equal. -/
def RecurringTask.savedPayload (t : RecurringTask) (limits : Payloads.RecursionLimits)
    (c : RecurringTaskConfig) : Except PyError (Option Payload) :=
  if t.hasPayload c then pure t.payload else some <$> c.payload.column limits

/-- Every configured task has its row by now. -/
def updateStaticRecurringTask (env : Env) (c : RecurringTaskConfig) : Op Unit := do
  let now ← timezoneNow
  let db ← getDb
  match db.findRecurringTask env.config.backendAlias c.key with
  | none => pure ()
  | some t =>
      if t.agrees c then pure ()
      else do
        let payload ← MonadExcept.ofExcept (t.savedPayload env.limits c)
        modifyDb (fun db => { db with
          recurringTasks := db.recurringTasks.updateWhere
            (fun t => t.backendAlias == env.config.backendAlias && t.key == c.key)
            (fun t => t.overwrite (c.desired payload) now) })

/-- `_apply_static_recurring_tasks` -/
def applyStaticRecurringTasks (env : Env) (configs : List RecurringTaskConfig) : Op Unit := do
  configs.forM (ensureNotDynamic env)
  configs.forM (createStaticRecurringTask env)
  configs.forM (updateStaticRecurringTask env)
  modifyDb (fun db => { db with
    recurringTasks := db.recurringTasks.deleteWhere (fun t =>
      t.backendAlias == env.config.backendAlias && t.static &&
        !(configs.map RecurringTaskConfig.key).contains t.key) })

/-- The configurations come from a dictionary, so their keys are distinct. -/
def upsertStaticRecurringTasks (env : Env) (configs : List RecurringTaskConfig) : Op Unit := do
  MonadExcept.ofExcept (validateRecurringConfigs env configs)
  transactionAtomic (applyStaticRecurringTasks env configs)

/-! ## Dynamic tasks -/

/-- The error of a dynamic task whose key is configured. -/
def managedStatically (key : String) : PyError :=
  .enqueueError s!"recurring task key {pyRepr key} is already managed statically"

/-- A key that is configured is not used dynamically. -/
def ensureNotStaticallyManaged (config : Config) (key : String) : Except PyError Unit :=
  if (config.recurring.map RecurringTaskConfig.key).contains key then throw (managedStatically key)
  else pure ()

/-- `get_or_create` of a dynamic task. -/
def getOrCreateRecurringTask (env : Env) (key : String) (desired : RecurringDefinition) :
    Op Unit := do
  let now ← timezoneNow
  let db ← getDb
  match db.findRecurringTask env.config.backendAlias key with
  | none => insertRecurringTask (desired.newTask env.config.backendAlias key now)
  | some task =>
      if task.static then throw (managedStatically key)
      else redefineRecurringTask env.config.backendAlias key desired

/-- `schedule_recurring_task` -/
def scheduleRecurringTask (env : Env) (key taskPath schedule : String) (payload : Option Payload)
    (queueName : String) (priority : Int) (description : String) : Op Unit := do
  MonadExcept.ofExcept (recurringString key "key")
  let _ ← MonadExcept.ofExcept
    (validateRecurringTaskDefinition env taskPath queueName priority schedule)
  let normalized ← MonadExcept.ofExcept (normalizePayload payload)
  MonadExcept.ofExcept (ensureNotStaticallyManaged env.config key)
  transactionAtomic (getOrCreateRecurringTask env key
    ⟨taskPath, some normalized, schedule, queueName, priority, description, false⟩)

/-- The execution rows hold the key as text: they stay. -/
def unscheduleRecurringTask (env : Env) (key : String) : Op Nat := do
  let db ← getDb
  let hit : RecurringTask → Bool := fun t =>
    t.backendAlias == env.config.backendAlias && t.key == key && !t.static
  modifyDb (fun db => { db with recurringTasks := db.recurringTasks.deleteWhere hit })
  pure (db.recurringTasks.rows.countP hit)

/-! ## Reserving a run -/

/-- What a reservation hands to its publication. -/
structure Reservation where
  executionId : Nat
  intendedJobId : JobId
  recurringTaskId : Nat
  taskKey : String
  runAt : Time
  nextRunAt : Time
  taskPath : String
  payload : Payload
  queueName : String
  priority : Int
  backendAlias : String
deriving DecidableEq, Repr

/-- `payload.get("args", [])`, `payload.get("kwargs", {})` of an absent payload. -/
def emptyPayload : Payload := ⟨[], []⟩

/-- `_recurring_reservation` of an execution that waits for its job; else there is none. -/
def recurringReservation (execution : RecurringExecution) (task : RecurringTask)
    (nextRunAt : Time) : Option Reservation :=
  if execution.jobId.isSome then none
  else execution.intendedJobId.map (fun intended => {
    executionId := execution.id
    intendedJobId := intended
    recurringTaskId := task.id
    taskKey := task.key
    runAt := execution.runAt
    nextRunAt := nextRunAt
    taskPath := task.taskPath
    payload := task.payload.getD emptyPayload
    queueName := task.queueName
    priority := task.priority
    backendAlias := task.backendAlias })

/-- The execution row of a run. -/
def Db.findExecution (db : Db) (backendAlias taskKey : String) (runAt : Time) :
    Option RecurringExecution :=
  db.recurringExecutions.rows.find? (fun e =>
    e.backendAlias == backendAlias && e.taskKey == taskKey && e.runAt == runAt)

/-- `create_ignore_conflicts`, then the row of the run, old or new. -/
def getOrCreateExecution (backendAlias taskKey : String) (runAt : Time) : Op RecurringExecution := do
  let intended ← uuid4
  let db ← getDb
  match db.findExecution backendAlias taskKey runAt with
  | some execution => pure execution
  | none => do
      let mk : Nat → RecurringExecution := fun id =>
        ⟨id, backendAlias, some intended, none, taskKey, runAt⟩
      modifyDb (fun db => { db with recurringExecutions := db.recurringExecutions.insert mk })
      pure (mk db.recurringExecutions.nextId)

/-- `_advance_next_run_at`: the cursor only moves forward. -/
def advanceNextRunAt (task : RecurringTask) (nextRunAt : Time) : Op Unit :=
  modifyDb (fun db => { db with
    recurringTasks := db.recurringTasks.updateWhere
      (fun t => t.id == task.id && t.backendAlias == task.backendAlias &&
        t.nextRunAt.all (fun n => n < nextRunAt))
      (fun t => { t with nextRunAt := some nextRunAt }) })

/-- A run the cursor has passed is only looked up; any other one gets its row, and the cursor
moves past it. -/
def reserveRun (env : Env) (task : RecurringTask) (runAt nextRunAt : Time) :
    Op (Option Reservation) :=
  if task.nextRunAt.any (fun n => runAt < n) then do
    let db ← getDb
    pure ((db.findExecution env.config.backendAlias task.key runAt).bind
      (fun e => recurringReservation e task nextRunAt))
  else do
    let execution ← getOrCreateExecution env.config.backendAlias task.key runAt
    advanceNextRunAt task nextRunAt
    pure (recurringReservation execution task nextRunAt)

/-- `latest_cron_run(schedule, run_at + timedelta(microseconds=1)) == run_at` -/
def isRunOf (env : Env) (schedule : String) (runAt : Time) : Except PyError Bool :=
  (env.cron.latestCronRun schedule (runAt + 1)).map (fun latest => latest == runAt)

/-- The part of a reservation inside its transaction. -/
def reserveTask (env : Env) (task : RecurringTask) (runAt : Time) : Op (Option Reservation) := do
  let current ← MonadExcept.ofExcept (isRunOf env task.schedule runAt)
  if !current then pure none
  else do
    let nextRunAt ← MonadExcept.ofExcept (env.cron.nextCronRun task.schedule runAt)
    reserveRun env task runAt nextRunAt

/-- `_reserve_recurring_task`; the row is read again, under its lock. -/
def reserveRecurringTask (env : Env) (taskId : Nat) (runAt : Time) : Op (Option Reservation) :=
  transactionAtomic do
    let db ← getDb
    match db.recurringTasks.rows.find? (fun t =>
        t.id == taskId && t.backendAlias == env.config.backendAlias) with
    | none => pure none
    | some task => reserveTask env task runAt

/-! ## Publishing a reservation -/

/-- The error of a job that differs from its reservation. -/
def reservationMismatch : PyError :=
  .enqueueError "intended recurring job metadata does not match reservation"

/-- `_validated_reserved_job` -/
def validatedReservedJob (r : Reservation) (job : Job) : Op Job := do
  let db ← getDb
  let assignedElsewhere := db.recurringExecutions.rows.any (fun e =>
    e.jobId == some job.id && e.id ≠ r.executionId)
  if (job.taskPath, job.queueName, job.priority, job.backendAlias) ≠
      (r.taskPath, r.queueName, r.priority, r.backendAlias) ||
      !job.payload.value.equals r.payload.value || assignedElsewhere then
    throw reservationMismatch
  else pure job

/-- The task of a reservation, `using` its queue and priority, called with its payload. -/
def reservedCall (env : Env) (r : Reservation) : Except PyError TaskCall :=
  match env.importString r.taskPath with
  | .error e => throw e
  | .ok .object => throw (.attributeError "object has no attribute 'using'")
  | .ok (.task task) =>
      let used := { task with queueName := r.queueName, priority := r.priority }
      pure ⟨used, some r.payload, env.concurrencyKey used r.payload⟩

/-- Another transaction took the intended key first: go on with its job. -/
def recoverReservedJob (r : Reservation) : PyError → Op Job
  | .integrityError => do
      let db ← getDb
      match db.findJob r.intendedJobId with
      | none => throw .integrityError
      | some job => validatedReservedJob r job
  | e => throw e

/-- The job of a reservation, or the one that another publication created. -/
def createReservedJob (env : Env) (r : Reservation) : Op Job := do
  let call ← MonadExcept.ofExcept (reservedCall env r)
  tryCatch (Prod.fst <$> enqueueJobWithDispatch env call true r.intendedJobId)
    (recoverReservedJob r)

/-- `_enqueue_reserved_recurring_task` -/
def enqueueReservedRecurringTask (env : Env) (r : Reservation) : Op Job := do
  let db ← getDb
  match db.findJob r.intendedJobId with
  | some job => validatedReservedJob r job
  | none => createReservedJob env r

/-- The `UPDATE` of `_attach_reserved_recurring_job`. -/
def attachable (env : Env) (r : Reservation) (job : Job) (e : RecurringExecution) : Bool :=
  e.id == r.executionId && e.backendAlias == env.config.backendAlias && e.jobId.isNone &&
    e.intendedJobId == some job.id

/-- The row was not updated: fine only when it already has this job. -/
def attachedOtherwise (db : Db) (r : Reservation) (job : Job) :
    Except PyError (Option RecurringExecution) :=
  match db.recurringExecutions.rows.find? (fun e => e.id == r.executionId) with
  | none => throw .recurringExecutionDoesNotExist
  | some e =>
      if e.jobId = some job.id ∧ e.intendedJobId = some job.id then pure none
      else throw (.enqueueError "recurring execution reservation could not be assigned a job")

/-- `_attach_reserved_recurring_job`; the link is one-to-one. -/
def attachReservedRecurringJob (env : Env) (r : Reservation) (job : Job) :
    Op (Option RecurringExecution) := do
  let db ← getDb
  if db.recurringExecutions.rows.any (attachable env r job) then
    if db.recurringExecutions.rows.any (fun e => e.jobId == some job.id) then
      throw .integrityError
    else do
      modifyDb (fun db => { db with
        recurringExecutions := db.recurringExecutions.updateWhere (attachable env r job)
          (fun e => { e with jobId := some job.id }) })
      let db' ← getDb
      pure (db'.recurringExecutions.rows.find? (fun e => e.id == r.executionId))
  else MonadExcept.ofExcept (attachedOtherwise db r job)

/-- `_publish_reserved_recurring_task` -/
def publishReservedRecurringTask (env : Env) (r : Reservation) :
    Op (Option RecurringExecution) :=
  transactionAtomic do
    let db ← getDb
    match db.recurringExecutions.rows.find? (fun e =>
        e.id == r.executionId && e.backendAlias == env.config.backendAlias) with
    | none => pure none
    | some execution =>
        if execution.jobId.isSome then pure none
        else do
          let job ← enqueueReservedRecurringTask env r
          attachReservedRecurringJob env r job

/-- `fire_recurring_task`: two transactions. -/
def fireRecurringTask (env : Env) (taskId : Nat) (runAt : Time) :
    Op (Option RecurringExecution) := do
  let reservation ← reserveRecurringTask env taskId runAt
  match reservation with
  | none => pure none
  | some r => publishReservedRecurringTask env r

/-! ## Polling -/

/-- A reserved run whose job was never linked. -/
def unbackfilled (backendAlias : String) (e : RecurringExecution) : Bool :=
  e.backendAlias == backendAlias && e.jobId.isNone && e.intendedJobId.isSome

/-- Whether a task has a run that waits for its job. -/
def hasUnbackfilled (db : Db) (backendAlias : String) (t : RecurringTask) : Bool :=
  db.recurringExecutions.rows.any (fun e => unbackfilled backendAlias e && e.taskKey == t.key)

/-- `next_run_at, key`: PostgreSQL puts nulls last, the others first. -/
def cursorOrder (family : BackendFamily) (a b : RecurringTask) : Bool :=
  match a.nextRunAt, b.nextRunAt with
  | some s, some t => s < t || (s == t && (a.key < b.key || a.key == b.key))
  | none, none => a.key < b.key || a.key == b.key
  | none, some _ => family ≠ .postgresql
  | some _, none => family = .postgresql

/-- The tasks of a poll in the order of their cursors. -/
def dueRecurringTasks (db : Db) (env : Env) (now : Time) (includeDynamicTasks : Bool) :
    List RecurringTask :=
  orderBy (cursorOrder env.config.family) (db.recurringTasks.rows.filter (fun t =>
    t.backendAlias == env.config.backendAlias &&
      (t.nextRunAt.all (fun n => n ≤ now) || hasUnbackfilled db env.config.backendAlias t) &&
      (includeDynamicTasks || t.static)))

/-- The runs that wait for their jobs, in the order of their times. -/
def pendingExecutions (db : Db) (env : Env) (tasks : List RecurringTask) :
    List RecurringExecution :=
  orderBy runOrder (db.recurringExecutions.rows.filter (fun e =>
    unbackfilled env.config.backendAlias e && (tasks.map RecurringTask.key).contains e.taskKey))

/-- `queryset[:batch_size]`, whole when there is no batch size. -/
def sliceToBatch {α : Type} (batchSize : Option Int) (rows : List α) : Op (List α) :=
  match batchSize with
  | none => pure rows
  | some n => sliceTo n rows

/-- What is left of the batch, and whether that is nothing. -/
def spend (remaining : Option Int) : Option Int := remaining.map (fun n => n - 1)

/-- Whether the batch is used up. -/
def spent (remaining : Option Int) : Bool := remaining == some 0

/-- `execution.job`, when the firing linked one. -/
def firedJob (db : Db) (execution : Option RecurringExecution) : List Job :=
  (execution.bind (fun e => e.jobId.bind db.findJob)).toList

/-- A firing and the job it links. -/
def fireAndLoad (env : Env) (taskId : Nat) (runAt : Time) : Op (List Job) := do
  let execution ← fireRecurringTask env taskId runAt
  let db ← getDb
  pure (firedJob db execution)

/-- The unpublished runs of one task; stops the poll when the batch is spent. -/
def firePending (env : Env) (taskId : Nat) :
    List RecurringExecution → Option Int → Op (List Job × Option Int)
  | [], remaining => pure ([], remaining)
  | e :: rest, remaining => do
      let fired ← fireAndLoad env taskId e.runAt
      if spent (spend remaining) then pure (fired, spend remaining)
      else do
        let (others, left) ← firePending env taskId rest (spend remaining)
        pure (fired ++ others, left)

/-- The latest run of a task, unless the cursor read with the batch lies ahead. -/
def fireLatest (env : Env) (now : Time) (task : RecurringTask) (remaining : Option Int) :
    Op (List Job × Option Int) :=
  if task.nextRunAt.any (fun n => now < n) then pure ([], remaining)
  else do
    let runAt ← MonadExcept.ofExcept (env.cron.latestCronRun task.schedule now)
    let fired ← fireAndLoad env task.id runAt
    pure (fired, spend remaining)

/-- The loop over the tasks of a poll. -/
def fireTasks (env : Env) (now : Time) (pending : List RecurringExecution) :
    List RecurringTask → Option Int → Op (List Job)
  | [], _ => pure []
  | task :: rest, remaining => do
      let (published, left) ← firePending env task.id
        (pending.filter (fun e => e.taskKey == task.key)) remaining
      if spent left then pure published
      else do
        let (fired, left') ← fireLatest env now task left
        if spent left' then pure (published ++ fired)
        else do
          let others ← fireTasks env now pending rest left'
          pure (published ++ fired ++ others)

/-- A run that is due is never `None`: `latest_cron_run` returns a time or raises. -/
def fireDueRecurringTasks (env : Env) (now : Time) (includeDynamicTasks : Bool)
    (batchSize : Option Int) : Op (List Job) := do
  let db ← getDb
  let tasks ← sliceToBatch batchSize (dueRecurringTasks db env now includeDynamicTasks)
  let pending ← sliceToBatch batchSize (pendingExecutions db env tasks)
  fireTasks env now pending tasks batchSize

end DjQueue
