import DjQueue.Operations.Helpers
import DjQueue.Operations.Concurrency

/-!
# Claiming

`operations/claiming.py` with `queue_selectors.py`: which ready rows a claim selects, on
each of its paths, and the transaction that turns them into claims.
-/

namespace DjQueue

open Relational

/-! ## Queue selectors -/

/-- The `queues` argument: absent, one name, a list or a tuple. -/
inductive QueueSelectors where
  | none
  | str (selector : String)
  | list (selectors : List String)
  | tuple (selectors : List String)
deriving DecidableEq, Repr

/-- `selectors in (None, (), "*", ["*"], ("*",))`: the empty list is not among them. -/
def selectorsMatchAll : QueueSelectors → Bool
  | .none => true
  | .str s => s == "*"
  | .list l => l == ["*"]
  | .tuple l => l == [] || l == ["*"]

/-- `normalize_queue_selectors` -/
def normalizeQueueSelectors : QueueSelectors → List String
  | .none => []
  | .str s => [s]
  | .list l | .tuple l => l

/-- A selector that ends in a star. -/
def isPrefixSelector (selector : String) : Bool := selector.toList.getLast? == some '*'

/-- One selector, other than `*`, on a queue name. -/
def queueMatchesSelector (queueName selector : String) : Bool :=
  if isPrefixSelector selector then selector.toList.dropLast.isPrefixOf queueName.toList
  else queueName == selector

/-! ## Row selection -/

/-- `-priority, id` -/
def readyOrder (a b : ReadyExecution) : Bool :=
  higherPriority a.priority b.priority a.id b.id

/-- Whether a queue has a pause. -/
def isPaused (db : Db) (backendAlias queueName : String) : Bool :=
  db.pauses.rows.any (fun p => p.backendAlias == backendAlias && p.queueName == queueName)

/-- `_exclude_active_pauses` over the backend's ready rows. -/
def claimableRows (db : Db) (backendAlias : String) : List ReadyExecution :=
  db.ready.rows.filter (fun r =>
    r.backendAlias == backendAlias && !isPaused db backendAlias r.queueName)

/-- `select_ready_row_ids`, then `in_bulk`: the MySQL family selects keys first. -/
def selectByRowIds (rows : List ReadyExecution) (limit : Nat) : List ReadyExecution :=
  let rowIds := ((orderBy readyOrder rows).take limit).map ReadyExecution.id
  rowIds.filterMap (fun id => rows.find? (fun r => r.id == id))

/-- The loop of `_select_exact_queue_rows`: one query a selector, for what is still wanted. -/
def selectExactQueueLoop (rows : List ReadyExecution) :
    List String → Nat → List ReadyExecution → List ReadyExecution
  | [], _, selected => selected
  | selector :: rest, limit, selected =>
      let remaining := limit - selected.length
      if remaining = 0 then selected
      else
        let chosen := (orderBy readyOrder (rows.filter (fun r =>
          !(selected.map ReadyExecution.id).contains r.id && r.queueName == selector))).take
          remaining
        selectExactQueueLoop rows rest limit (selected ++ chosen)

/-- The chained CTEs of `select_ready_rows_by_exact_queues`: each takes what its predecessors
leave of the limit, and its rows carry its index. -/
def exactQueueCtes (rows : List ReadyExecution) :
    List String → Nat → Nat → List (Nat × ReadyExecution)
  | [], _, _ => []
  | selector :: rest, index, limit =>
      let chosen := (orderBy readyOrder (rows.filter (fun r => r.queueName == selector))).take limit
      chosen.map (fun r => (index, r)) ++
        exactQueueCtes rows rest (index + 1) (limit - chosen.length)

/-- `ORDER BY selector_rank ASC, ready_priority DESC, ready_id ASC` -/
def cteOrder (a b : Nat × ReadyExecution) : Bool :=
  a.1 < b.1 || (a.1 == b.1 && readyOrder a.2 b.2)

/-- `select_ready_rows_by_exact_queues`: one CTE for each selector. -/
def selectReadyRowsByExactQueues (rows : List ReadyExecution) (selectors : List String)
    (limit : Nat) : List ReadyExecution :=
  let selectors := distinct selectors
  if selectors.isEmpty || limit = 0 then []
  else (orderBy cteOrder (exactQueueCtes rows selectors 0 limit)).map Prod.snd

/-- `_select_exact_queue_rows` -/
def selectExactQueueRows (env : Env) (rows : List ReadyExecution) (selectors : List String)
    (limit : Nat) : List ReadyExecution :=
  match env.config.family with
  | .postgresql => selectReadyRowsByExactQueues rows selectors limit
  | _ => selectExactQueueLoop rows selectors limit []

/-- `selector_rank`: the index of the first selector that matches. -/
def selectorRank (selectors : List String) (queueName : String) : Nat :=
  selectors.findIdx (queueMatchesSelector queueName)

/-- The order of rows by `CASE WHEN`, then by priority. -/
def rankedOrder (selectors : List String) (a b : ReadyExecution) : Bool :=
  let ra := selectorRank selectors a.queueName
  let rb := selectorRank selectors b.queueName
  ra < rb || (ra == rb && readyOrder a b)

/-- `_ordered_selector_rows_queryset` -/
def selectRankedRows (rows : List ReadyExecution) (selectors : List String) (limit : Nat) :
    List ReadyExecution :=
  (orderBy (rankedOrder selectors) (rows.filter (fun r =>
    selectors.any (queueMatchesSelector r.queueName)))).take limit

/-- The rows of a list of selectors with a prefix among them. -/
def selectOrderedRows (env : Env) (rows : List ReadyExecution) (selectors : List String)
    (limit : Nat) : List ReadyExecution :=
  if selectors.isEmpty then []
  else if selectors.all (fun s => !isPrefixSelector s) then
    selectExactQueueRows env rows selectors limit
  else selectRankedRows rows selectors limit

/-- The rows `*` adds to those the selectors before it chose. -/
def selectStarRemainder (rows selected : List ReadyExecution) (limit : Nat) :
    List ReadyExecution :=
  (orderBy readyOrder (rows.filter (fun r =>
    !(selected.map ReadyExecution.id).contains r.id))).take (limit - selected.length)

/-- The rows of all queues. -/
def selectAllRows (env : Env) (rows : List ReadyExecution) (limit : Nat) : List ReadyExecution :=
  match env.config.family with
  | .mysql | .mariadb => selectByRowIds rows limit
  | _ => (orderBy readyOrder rows).take limit

/-- `_select_ready_rows` over the rows a claim may take. -/
def selectReadyRows (env : Env) (rows : List ReadyExecution) (queues : QueueSelectors)
    (limit : Nat) : List ReadyExecution :=
  if selectorsMatchAll queues then selectAllRows env rows limit
  else
    let selectors := normalizeQueueSelectors queues
    let selected := selectOrderedRows env rows (selectors.takeWhile (· ≠ "*")) limit
    if selectors.contains "*" then selected ++ selectStarRemainder rows selected limit
    else selected

/-! ## The claim -/

/-- `ClaimedJob` -/
structure ClaimedJob where
  job : Job
  claimedAt : Time
  workerIds : List String
  processId : Option Nat
deriving DecidableEq, Repr

/-- `_lock_active_pauses` for the queues of the selected rows; an empty name is left out. -/
def lockActivePauses (db : Db) (backendAlias : String) (queueNames : List String) : List String :=
  ((db.pauses.rows.filter (fun p => p.backendAlias == backendAlias)).map Pause.queueName).filter
    (fun q => (queueNames.filter (fun n => n ≠ "")).contains q)

/-- The claim of a job. -/
def claimedRow (jobId : JobId) (process : Option Process) (claimedAt : Time) : ClaimedExecution where
  id := 0
  jobId := jobId
  processId := process.map Process.id
  createdAt := claimedAt

/-- The foreign key from a claim to its process. -/
def ensureProcessExists (process : Option Process) : Op Unit := do
  let db ← getDb
  runIf (process.any (fun p => (db.processes.rows.find? (fun q => q.id == p.id)).isNone))
    (throw .integrityError)

/-- Insert a claim with the creation time given, as the PostgreSQL statement does. -/
def insertClaimAt (process : Option Process) (claimedAt : Time) (jobId : JobId) : Op Unit :=
  insertRow .claimed jobId (fun id =>
    ({ claimedRow jobId process claimedAt with id := id } : ClaimedExecution))

/-- `consume_ready_and_create_claimed_executions`: delete the selected ready rows and insert a
claim for each deleted row whose job, on the statement's snapshot, has no other state. -/
def consumeReadyAndCreateClaimed (rows : List (ReadyExecution × Job)) (process : Option Process)
    (claimedAt : Time) : Op (List JobId) := do
  let db ← getDb
  let ids := rows.map (fun r => r.1.id)
  let deleted := (db.ready.rows.filter (fun r => ids.contains r.id)).map ReadyExecution.jobId
  let created := deleted.filter (fun id =>
    executionStateModels.all (fun m => m = .ready || !db.hasState m id))
  let _ ← deleteRowsWhere .ready (fun r => ids.contains (ReadyExecution.id r))
  created.forM (insertClaimAt process claimedAt)
  pure created

/-- The claim in one statement with `RETURNING` -/
def claimOnPostgres (rows : List (ReadyExecution × Job)) (process : Option Process)
    (claimedAt : Time) : Op (List (ReadyExecution × Job)) := do
  ensureProcessExists process
  let created ← consumeReadyAndCreateClaimed rows process claimedAt
  if created.length = rows.length then pure rows
  else do
    ensureJobIdsHaveNoOtherExecutionState (rows.map (fun r => r.1.jobId)) []
    throw (.enqueueError "could not claim selected jobs")

/-- The claim by deletes and inserts. -/
def claimPortably (env : Env) (rows : List (ReadyExecution × Job)) (process : Option Process)
    (claimedAt : Time) : Op (List (ReadyExecution × Job)) := do
  let consumed ← consumeSelectedRows env .ready
    (fun r : ReadyExecution × Job => r.1.id) rows
  runIf (!consumed.isEmpty) (ensureProcessExists process)
  bulkCreate .claimed (consumed.map (fun r => claimedRow r.2.id process claimedAt))
  pure consumed

/-- A process claims for its own backend. -/
def ensureProcessBelongs (env : Env) : Option Process → Op Unit
  | none => pure ()
  | some p =>
      if p.backendAlias ≠ env.config.backendAlias then throw (.enqueueError
        s!"process {pyRepr p.name} belongs to backend {pyRepr p.backendAlias}")
      else pure ()

/-- The claim of selected rows, by family. -/
def claimRows (env : Env) (rows : List (ReadyExecution × Job)) (process : Option Process)
    (claimedAt : Time) : Op (List (ReadyExecution × Job)) :=
  match env.config.family with
  | .postgresql => claimOnPostgres rows process claimedAt
  | _ => claimPortably env rows process claimedAt

/-- The claim of selected rows, with the time of the claim. -/
def claimSelectedRows (env : Env) (rows : List (ReadyExecution × Job)) (process : Option Process) :
    Op (List ClaimedJob) := do
  let claimedAt ← timezoneNow
  let claimed ← claimRows env rows process claimedAt
  pure (claimed.map (fun r => {
    job := r.2
    claimedAt := claimedAt
    workerIds := (process.map Process.name).toList
    processId := process.map Process.id }))

/-- PostgreSQL checks for other states inside its one statement, the others beforehand. -/
def ensureClaimable (env : Env) (rows : List (ReadyExecution × Job)) : Op Unit := do
  ensureStateRowsBelongToBackend (m := .ready) rows env.config.backendAlias
  runIf (env.config.family ≠ .postgresql)
    (ensureJobIdsHaveNoOtherExecutionState (rows.map (fun r => r.1.jobId)) [.ready])

/-- `_claim_ready_jobs_once` -/
def claimReadyJobsOnce (env : Env) (limit : Nat) (queues : QueueSelectors)
    (process : Option Process) : Op (List ClaimedJob) :=
  transactionAtomic do
    ensureProcessBelongs env process
    let db ← getDb
    let rows := selectRelatedJob (m := .ready) db
      (selectReadyRows env (claimableRows db env.config.backendAlias) queues limit)
    ensureClaimable env rows
    let paused := lockActivePauses db env.config.backendAlias (rows.map (fun r => r.1.queueName))
    let unpaused := rows.filter (fun r => !paused.contains r.1.queueName)
    if unpaused.isEmpty then pure [] else claimSelectedRows env unpaused process

/-- `claim_ready_jobs` -/
def claimReadyJobs (env : Env) (limit : Int) (queues : QueueSelectors)
    (process : Option Process) : Op (List ClaimedJob) :=
  if limit ≤ 0 then pure [] else claimReadyJobsOnce env limit.toNat queues process

end DjQueue
