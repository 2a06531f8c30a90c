import DjQueue.Accounting.Frame
import DjQueue.Slots.Rows

/-!
# The ledger of an operation

While an operation runs, jobs are between two states and slots are between two holders.
`Accounts` is what holds of the tables at every point of a transaction: `hand` lists the
jobs that have been taken out of a state and not yet put into another, and `owed` counts
the slots of one tracked key that are neither free in the semaphore row nor held by a
ready or claimed row.  Between operations nothing is in hand and nothing is owed.

An `Audit` fixes what does not change while an operation runs: its environment, the identity
columns of every job it can come across, the keys it may create jobs under, the key and limit
whose slots are counted, and the tables it started from.
-/

namespace DjQueue

open Relational

/-- The columns of a job that decide where its rows belong; they are written once. -/
structure Identity where
  backendAlias : String
  queueName : String
  concurrencyKey : Option String
deriving DecidableEq, Repr

/-- What never changes of a job. -/
def Job.identity (j : Job) : Identity := ⟨j.backendAlias, j.queueName, j.concurrencyKey⟩

/-- Whichever process resolves the job's policy, and with whichever task at hand: if it comes to
a limit, the limit is `L`. -/
def Job.ResolvesTo (L : Int) (j : Job) : Prop :=
  ∀ env task settings, concurrencySettingsForJob env j task = .ok settings → settings.limit = L

/-- A row in one of these tables holds a slot of its job's key. -/
def StateModel.isActive : StateModel → Bool
  | .ready | .claimed => true
  | .scheduled | .blocked | .failed => false

/-- The key a waiter waits for. -/
def rowKey : {m : StateModel} → m.Row → Option String
  | .blocked, r => some (BlockedExecution.concurrencyKey r)
  | .ready, _ | .scheduled, _ | .claimed, _ | .failed, _ => none

/-- The process that holds a claim. -/
def rowProcess : {m : StateModel} → m.Row → Option Nat
  | .claimed, r => ClaimedExecution.processId r
  | .ready, _ | .scheduled, _ | .blocked, _ | .failed, _ => none

/-- The columns a state row repeats are those of its job. -/
structure Identity.Matches (i : Identity) {m : StateModel} (r : m.Row) : Prop where
  backend : ∀ b, rowBackendAlias r = some b → b = i.backendAlias
  queue : ∀ q, rowQueueName r = some q → q = i.queueName
  key : ∀ k, rowKey r = some k → i.concurrencyKey = some k

/-- How many states a job is in: its rows in the state tables, and its `finished_at`. -/
def Db.places (db : Db) (j : Job) : Nat :=
  (executionStateModels.map (fun m => (db.stateJobIds m).count j.id)).sum +
    if j.finishedAt.isSome then 1 else 0

structure Audit where
  env : Env
  known : JobId → Option Identity
  fresh : List JobId
  tracked : Option (String × Int)
  positive : ∀ t, tracked = some t → 0 < t.2
  start : Db

namespace Audit

variable (a : Audit)

/-- The backend the operation runs for. -/
abbrev backendAlias : String := a.env.config.backendAlias

/-- Whether this key is the one that is followed. -/
def tracks (key : String) : Bool := a.tracked.any (fun t => t.1 == key)

/-- The job, or an instance of it, has the identity columns on record, and resolves to the tracked
limit if it has the tracked key. -/
structure Knows (j : Job) : Prop where
  identity : a.known j.id = some j.identity
  key : j.concurrencyKey ≠ some ""
  limit : ∀ t, a.tracked = some t → j.concurrencyKey = some t.1 → j.ResolvesTo t.2

/-- What is known of a job is part of its core. -/
theorem Knows.of_core {a : Audit} {j j' : Job} (same : j'.core = j.core) (knows : a.Knows j) :
    a.Knows j' := by
  have id : j'.core.id = j.core.id := congrArg _ same
  have key : j'.core.concurrencyKey = j.core.concurrencyKey := congrArg _ same
  have identity : j'.core.identity = j.core.identity := congrArg _ same
  change j'.id = j.id at id
  change j'.concurrencyKey = j.concurrencyKey at key
  change j'.identity = j.identity at identity
  refine ⟨?_, ?_, ?_⟩
  · rw [id, identity]
    exact knows.identity
  · rw [key]
    exact knows.key
  · intro t tracked tracks env task settings ok
    rw [key] at tracks
    refine knows.limit t tracked tracks env task settings ?_
    -- the columns that change after a job's creation are not read here
    change concurrencySettingsForJob env j.core task = .ok settings
    rw [← same]
    exact ok

/-- The job with this key belongs to the operation's backend. -/
def owns (id : JobId) : Bool := (a.known id).any (fun i => i.backendAlias == a.backendAlias)

/-- The job with this key has the tracked concurrency key. -/
def holds (id : JobId) : Bool := (a.known id).any (fun i => i.concurrencyKey.any a.tracks)

/-- What one slot of a key counts for. -/
def slot (key : String) : Nat := if a.tracks key then 1 else 0

/-- The tracked slots that rows of a table with these jobs hold. -/
def held (m : StateModel) (ids : List JobId) : Nat := if m.isActive then ids.countP a.holds else 0

/-- The tracked slots that are held. -/
def active (db : Db) : Nat :=
  a.held .ready (db.stateJobIds .ready) + a.held .claimed (db.stateJobIds .claimed)

/-- The rows of other backends. -/
def foreign {m : StateModel} (rows : List m.Row) : List m.Row :=
  rows.filter (fun r => !a.owns (rowJobId r))

/-- The job exists, the columns are its own, and a claim's process belongs to its backend. -/
structure RowFits (jobs : List Job) (processes : List Process) {m : StateModel} (r : m.Row) :
    Prop where
  job : rowJobId r ∈ jobs.map Job.id
  columns : ∃ i, a.known (rowJobId r) = some i ∧ i.Matches r
  process : ∀ id, rowProcess r = some id →
    ∃ p ∈ processes, p.id = id ∧ (a.known (rowJobId r)).map Identity.backendAlias =
      some p.backendAlias

/-- Every slot of the tracked key is free in its row or one of the `taken` ones; without a row
none is taken. -/
def SlotsHold (rows : List Semaphore) (taken : Nat) : Prop :=
  ∀ t, a.tracked = some t →
    match rows.find? (fun r => r.key == t.1) with
    | none => taken = 0
    | some r => r.limit = t.2 ∧ 0 ≤ r.value ∧ r.value + taken = t.2

/-- What every operation but the recurring ones leaves alone: the rows of other backends, the
recurring tasks, and the recurring executions whose job stays. -/
structure Untouched (db : Db) : Prop where
  jobs : db.jobs.filter (fun j => j.backendAlias ≠ a.backendAlias) =
    a.start.jobs.filter (fun j => j.backendAlias ≠ a.backendAlias)
  rows : ∀ m, a.foreign (db.table m).rows = a.foreign (a.start.table m).rows
  processes : db.processes.rows.filter (fun p => p.backendAlias ≠ a.backendAlias) =
    a.start.processes.rows.filter (fun p => p.backendAlias ≠ a.backendAlias)
  pauses : db.pauses = a.start.pauses
  tasks : db.recurringTasks = a.start.recurringTasks
  executions : db.recurringExecutions.rows.filter (fun e => e.backendAlias ≠ a.backendAlias) =
    a.start.recurringExecutions.rows.filter (fun e => e.backendAlias ≠ a.backendAlias)
  trimmed : ∃ p, db.recurringExecutions = a.start.recurringExecutions.deleteWhere p
  created : ∀ j ∈ db.jobs, j.id ∈ a.start.jobs.map Job.id ∨ j.id ∈ a.fresh

end Audit

/-- The semaphore rows: one a key, numbered from one. -/
structure SemaphoresNumbered (t : Table Semaphore) : Prop where
  keys : (t.rows.map Semaphore.key).Nodup
  ids : (t.rows.map Semaphore.id).Nodup
  bound : ∀ r ∈ t.rows, r.id ≠ 0 ∧ r.id < t.nextId
  next : t.nextId ≠ 0

/-- The rows besides jobs, states and slots, with the constraints of the database on them. -/
structure Registry (db : Db) : Prop where
  processIds : (db.processes.rows.map Process.id).Nodup
  processBound : ∀ p ∈ db.processes.rows, p.id < db.processes.nextId
  supervisors : ∀ p ∈ db.processes.rows, ∀ s, p.supervisorId = some s →
    ∃ q ∈ db.processes.rows, q.id = s ∧ q.backendAlias = p.backendAlias
  links : ∀ e ∈ db.recurringExecutions.rows, ∀ id, e.jobId = some id →
    ∃ j ∈ db.jobs, j.id = id ∧ j.backendAlias = e.backendAlias

theorem mem_of_findJob {db : Db} {id : JobId} {j : Job} (found : db.findJob id = some j) :
    j ∈ db.jobs ∧ j.id = id := by
  have hit := List.find?_some found
  exact ⟨List.mem_of_find?_eq_some found, beq_iff_eq.mp hit⟩

structure Accounts (a : Audit) (hand : List JobId) (owed : Nat) (db : Db) : Prop where
  jobIds : (db.jobs.map Job.id).Nodup
  knows : ∀ j ∈ db.jobs, a.Knows j
  rowIds : ∀ m, ((db.table m).rows.map rowId).Nodup
  rowBound : ∀ m, ∀ r ∈ (db.table m).rows, rowId r < (db.table m).nextId
  rowFits : ∀ m, ∀ r ∈ (db.table m).rows, a.RowFits db.jobs db.processes.rows r
  places : ∀ j ∈ db.jobs, db.places j + hand.count j.id = 1
  semaphores : SemaphoresNumbered db.semaphores
  slots : a.SlotsHold db.semaphores.rows (a.active db + owed)
  registry : Registry db
  untouched : a.Untouched db

namespace Accounts

variable {a : Audit} {hand hand' : List JobId} {owed owed' : Nat} {db : Db}

/-- The order of the jobs in hand does not matter. -/
theorem perm (good : Accounts a hand owed db) (same : hand.Perm hand') :
    Accounts a hand' owed db := by
  refine { good with places := fun j mem => ?_ }
  rw [← same.count_eq]
  exact good.places j mem

/-! ## Reading -/

/-- The places of a job, table by table. -/
theorem places_eq (db : Db) (j : Job) :
    db.places j = (db.stateJobIds .ready).count j.id + (db.stateJobIds .scheduled).count j.id +
      (db.stateJobIds .claimed).count j.id + (db.stateJobIds .blocked).count j.id +
      (db.stateJobIds .failed).count j.id + if j.finishedAt.isSome then 1 else 0 := by
  simp only [Db.places, executionStateModels, List.map_cons, List.map_nil, List.sum_cons,
    List.sum_nil]
  omega

/-- A job in hand has no state. -/
theorem places_of_hand (good : Accounts a hand owed db) {j : Job} (mem : j ∈ db.jobs)
    (inHand : j.id ∈ hand) : db.places j = 0 := by
  have sum := good.places j mem
  have pos := List.count_pos_iff.mpr inHand
  omega

/-- A job has at least as many places as rows in one table. -/
theorem count_le_places (db : Db) (j : Job) (m : StateModel) :
    (db.stateJobIds m).count j.id ≤ db.places j := by
  rw [places_eq]
  cases m <;> omega

/-- A job without a state has no row anywhere. -/
theorem no_rows_of_places {j : Job} (none : db.places j = 0) (m : StateModel) :
    j.id ∉ db.stateJobIds m := by
  have le := count_le_places db j m
  exact List.count_eq_zero.mp (by omega)

theorem job_of_mem_stateJobIds (good : Accounts a hand owed db) {m : StateModel} {id : JobId}
    (mem : id ∈ db.stateJobIds m) : ∃ j ∈ db.jobs, j.id = id := by
  obtain ⟨r, inTable, rfl⟩ := List.mem_map.mp mem
  exact List.mem_map.mp (good.rowFits m r inTable).job

theorem findJob_of_mem (good : Accounts a hand owed db) {j : Job} (mem : j ∈ db.jobs) :
    db.findJob j.id = some j := find?_of_unique good.jobIds mem

end Accounts

end DjQueue
