import DjQueue.Payloads.Values
import DjQueue.Relational.Table

/-!
# The queue database

The rows of `dj_queue.models`, and the database they live in.  Times are
microseconds; JSON columns hold documents with sorted members.

A job's state is spread over five tables (`StateModel`) and the column
`finishedAt`; no constraint of the database ties them together.  The only
constraints are the one-to-one keys on `jobId`, the unique columns and the foreign
keys, all enforced where the rows are written (`DjQueue.Operations.Helpers`).
-/

namespace DjQueue

open Relational

/-- Microseconds since the epoch. -/
abbrev Time := Int

/-- A UUID. -/
abbrev JobId := Nat

/-- `timedelta(seconds=n)` -/
def seconds (n : Int) : Time := n * 1000000

/-- `{"args": …, "kwargs": …}` -/
structure Payload where
  args : List Json.Document
  kwargs : List (String × Json.Document)
deriving DecidableEq, Repr, Inhabited

/-- What the column is loaded as. -/
def Payload.value (p : Payload) : Payloads.PyObject :=
  Payloads.strDict [("args", Payloads.decode (.array p.args)),
    ("kwargs", Payloads.decode (.object p.kwargs))]

/-- `Job`; the columns `created_at` and `updated_at` are read for results only. -/
structure Job where
  id : JobId
  taskPath : String
  queueName : String
  priority : Int
  payload : Payload
  backendAlias : String
  scheduledAt : Option Time
  concurrencyKey : Option String
  concurrencyLimit : Option Int
  concurrencyDuration : Option Int
  concurrencyOnConflict : Option String
  finishedAt : Option Time
  returnValue : Option String
deriving DecidableEq, Repr

/-- `ReadyExecution` -/
structure ReadyExecution where
  id : Nat
  jobId : JobId
  backendAlias : String
  queueName : String
  priority : Int
  createdAt : Time
  latencyStartedAt : Option Time
deriving DecidableEq, Repr

/-- `ScheduledExecution` -/
structure ScheduledExecution where
  id : Nat
  jobId : JobId
  backendAlias : String
  queueName : String
  priority : Int
  scheduledAt : Time
deriving DecidableEq, Repr

/-- `ClaimedExecution` -/
structure ClaimedExecution where
  id : Nat
  jobId : JobId
  processId : Option Nat
  createdAt : Time
deriving DecidableEq, Repr

/-- `BlockedExecution` -/
structure BlockedExecution where
  id : Nat
  jobId : JobId
  backendAlias : String
  queueName : String
  priority : Int
  concurrencyKey : String
  expiresAt : Time
deriving DecidableEq, Repr

/-- `FailedExecution` -/
structure FailedExecution where
  id : Nat
  jobId : JobId
  exceptionClass : String
  message : String
  traceback : String
  retryAt : Option Time
  createdAt : Time
deriving DecidableEq, Repr

/-- `value` is the number of free slots; `activeCount` mirrors `limit - value` for
the processes of the previous release. -/
structure Semaphore where
  id : Nat
  key : String
  value : Int
  activeCount : Option Int
  limit : Int
  expiresAt : Time
  updatedAt : Time
deriving DecidableEq, Repr

/-- `Process` -/
structure Process where
  id : Nat
  backendAlias : String
  pid : Int
  name : String
  supervisorId : Option Nat
  lastHeartbeatAt : Time
deriving DecidableEq, Repr

/-- `Pause` -/
structure Pause where
  id : Nat
  backendAlias : String
  queueName : String
  createdAt : Time
deriving DecidableEq, Repr

/-- `RecurringTask` -/
structure RecurringTask where
  id : Nat
  backendAlias : String
  key : String
  taskPath : String
  payload : Option Payload
  schedule : String
  queueName : String
  priority : Int
  description : String
  static : Bool
  nextRunAt : Option Time
  updatedAt : Time
deriving DecidableEq, Repr

/-- `RecurringExecution` -/
structure RecurringExecution where
  id : Nat
  backendAlias : String
  intendedJobId : Option JobId
  jobId : Option JobId
  taskKey : String
  runAt : Time
deriving DecidableEq, Repr

/-! ## Execution-state tables -/

/-- `EXECUTION_STATE_MODELS`, in its order. -/
inductive StateModel where
  | ready | scheduled | claimed | blocked | failed
deriving DecidableEq, Repr

/-- The models of `JOB_STATUS_RELATIONS` -/
def executionStateModels : List StateModel :=
  [.ready, .scheduled, .claimed, .blocked, .failed]

/-- A row of a state table. -/
abbrev StateModel.Row : StateModel → Type
  | .ready => ReadyExecution
  | .scheduled => ScheduledExecution
  | .claimed => ClaimedExecution
  | .blocked => BlockedExecution
  | .failed => FailedExecution

/-- The primary key of a row. -/
def rowId : {m : StateModel} → m.Row → Nat
  | .ready, r => ReadyExecution.id r
  | .scheduled, r => ScheduledExecution.id r
  | .claimed, r => ClaimedExecution.id r
  | .blocked, r => BlockedExecution.id r
  | .failed, r => FailedExecution.id r

/-- The job a row belongs to. -/
def rowJobId : {m : StateModel} → m.Row → JobId
  | .ready, r => ReadyExecution.jobId r
  | .scheduled, r => ScheduledExecution.jobId r
  | .claimed, r => ClaimedExecution.jobId r
  | .blocked, r => BlockedExecution.jobId r
  | .failed, r => FailedExecution.jobId r

/-- The `backend_alias` column; claimed and failed rows have none of their own. -/
def rowBackendAlias : {m : StateModel} → m.Row → Option String
  | .ready, r => some (ReadyExecution.backendAlias r)
  | .scheduled, r => some (ScheduledExecution.backendAlias r)
  | .claimed, _ => none
  | .blocked, r => some (BlockedExecution.backendAlias r)
  | .failed, _ => none

/-- The `queue_name` column; claimed and failed rows have none of their own. -/
def rowQueueName : {m : StateModel} → m.Row → Option String
  | .ready, r => some (ReadyExecution.queueName r)
  | .scheduled, r => some (ScheduledExecution.queueName r)
  | .claimed, _ => none
  | .blocked, r => some (BlockedExecution.queueName r)
  | .failed, _ => none

/-- The tables of one database. -/
structure Db where
  jobs : List Job
  ready : Table ReadyExecution
  scheduled : Table ScheduledExecution
  claimed : Table ClaimedExecution
  blocked : Table BlockedExecution
  failed : Table FailedExecution
  semaphores : Table Semaphore
  processes : Table Process
  pauses : Table Pause
  recurringTasks : Table RecurringTask
  recurringExecutions : Table RecurringExecution
deriving DecidableEq, Repr

/-- A database without rows. -/
def Db.empty : Db :=
  ⟨[], .empty, .empty, .empty, .empty, .empty, .empty, .empty, .empty, .empty, .empty⟩

/-- The table of a state. -/
def Db.table (db : Db) : (m : StateModel) → Table m.Row
  | .ready => db.ready
  | .scheduled => db.scheduled
  | .claimed => db.claimed
  | .blocked => db.blocked
  | .failed => db.failed

/-- A database with another table of a state. -/
def Db.setTable (db : Db) : (m : StateModel) → Table m.Row → Db
  | .ready, t => { db with ready := t }
  | .scheduled, t => { db with scheduled := t }
  | .claimed, t => { db with claimed := t }
  | .blocked, t => { db with blocked := t }
  | .failed, t => { db with failed := t }

/-- The jobs that have a row in a state table, one entry a row. -/
def Db.stateJobIds (db : Db) (m : StateModel) : List JobId :=
  (db.table m).rows.map rowJobId

/-- Whether a job has a row of a state. -/
def Db.hasState (db : Db) (m : StateModel) (id : JobId) : Bool :=
  (db.stateJobIds m).contains id

/-- The job of a key. -/
def Db.findJob (db : Db) (id : JobId) : Option Job :=
  db.jobs.find? (fun j => j.id == id)

/-- The semaphore of a key. -/
def Db.findSemaphore (db : Db) (key : String) : Option Semaphore :=
  db.semaphores.rows.find? (fun r => r.key == key)

namespace Db

@[simp] theorem table_setTable_same (db : Db) (m : StateModel) (t : Table m.Row) :
    (db.setTable m t).table m = t := by
  cases m <;> rfl

/-- Setting one table leaves the others. -/
theorem table_setTable_ne (db : Db) {m m' : StateModel} (t : Table m.Row) (ne : m' ≠ m) :
    (db.setTable m t).table m' = db.table m' := by
  cases m <;> cases m' <;> first | rfl | exact absurd rfl ne

@[simp] theorem jobs_setTable (db : Db) (m : StateModel) (t : Table m.Row) :
    (db.setTable m t).jobs = db.jobs := by
  cases m <;> rfl

@[simp] theorem semaphores_setTable (db : Db) (m : StateModel) (t : Table m.Row) :
    (db.setTable m t).semaphores = db.semaphores := by
  cases m <;> rfl

@[simp] theorem processes_setTable (db : Db) (m : StateModel) (t : Table m.Row) :
    (db.setTable m t).processes = db.processes := by
  cases m <;> rfl

@[simp] theorem pauses_setTable (db : Db) (m : StateModel) (t : Table m.Row) :
    (db.setTable m t).pauses = db.pauses := by
  cases m <;> rfl

@[simp] theorem recurringTasks_setTable (db : Db) (m : StateModel) (t : Table m.Row) :
    (db.setTable m t).recurringTasks = db.recurringTasks := by
  cases m <;> rfl

@[simp] theorem recurringExecutions_setTable (db : Db) (m : StateModel) (t : Table m.Row) :
    (db.setTable m t).recurringExecutions = db.recurringExecutions := by
  cases m <;> rfl

end Db

end DjQueue
