import DjQueue.Operations.Concurrency

/-!
# Dispatching and enqueueing

`operations/dispatch.py` decides where a job goes: scheduled while its time has not
come, ready when it needs no slot or gets one, else blocked or discarded by its conflict
rule.  Single dispatch takes one slot at a time; the batch form groups the entries by
decision and takes the slots of a group at once.  `operations/enqueue.py` creates jobs
and dispatches them in one transaction.
-/

namespace DjQueue

open Relational

/-- `DispatchOutcome` -/
inductive DispatchOutcome where
  | ready | scheduled | blocked | discarded
deriving DecidableEq, Repr

/-- A decision is an outcome, or a key and the settings a slot is to be taken under. -/
inductive DispatchDecision where
  | outcome (o : DispatchOutcome)
  | concurrency (key : String) (settings : ConcurrencySettings)
deriving DecidableEq, Repr

/-- `dispatch_decision` -/
def dispatchDecision (env : Env) (job : Job) (now : Time) (task : Option Imported) :
    Except PyError DispatchDecision :=
  if job.scheduledAt.any (fun t => now < t) then .ok (.outcome .scheduled)
  else
    match job.slotKey with
    | none => .ok (.outcome .ready)
    | some key => (concurrencySettingsForJob env job task).map (.concurrency key)

/-- `_concurrency_dispatch_outcome` -/
def concurrencyDispatchOutcome (onConflict : OnConflict) (acquired : Bool) : DispatchOutcome :=
  if acquired then .ready
  else match onConflict with
    | .discard => .discarded
    | .block => .blocked

/-! ## One job -/

/-- The outcome of a decision, after a slot was asked for. -/
def resolveOutcome (env : Env) : DispatchDecision → Op DispatchOutcome
  | .outcome o => pure o
  | .concurrency key settings => do
      let acquired ← semaphoreAcquire env key settings.limit settings.durationSeconds
      pure (concurrencyDispatchOutcome settings.onConflict acquired)

/-- A branch that no decision reaches. -/
def unexpectedOutcome : PyError := .valueError "unexpected dispatch outcome"

/-- A job that waits for its slot, until the slot's deadline. -/
def blockJob (env : Env) (job : Job) (now : Time) (checkConflicts : Bool) :
    DispatchDecision → Op Unit
  | .outcome _ => throw unexpectedOutcome
  | .concurrency key settings => do
      let expiresAt ← MonadExcept.ofExcept (addSeconds now settings.durationSeconds)
      createBlockedExecution job.ref env.config.backendAlias (some key) expiresAt none none
        checkConflicts

/-- `job.save(update_fields=["finished_at", "return_value", …])` -/
def saveDiscarded (job : Job) (now : Time) : Op Unit :=
  updateJobsWhere (fun j => j.id == job.id)
    (fun j => { j with finishedAt := some now, returnValue := none })

/-- The rows of an outcome. -/
def applyOutcome (env : Env) (job : Job) (decision : DispatchDecision) (now : Time)
    (checkConflicts : Bool) : DispatchOutcome → Op Unit
  | .scheduled =>
      createScheduledExecution job env.config.backendAlias job.scheduledAt checkConflicts
  | .ready =>
      createReadyExecution job.ref env.config.backendAlias (some job.queueName) none now
        checkConflicts
  | .blocked => blockJob env job now checkConflicts decision
  | .discarded =>
      if checkConflicts then finishJobIfNoExecutionState job none now true
      else saveDiscarded job now

/-- `dispatch_job` -/
def dispatchJob (env : Env) (job : Job) (checkConflicts : Bool) (task : Option Imported) :
    Op DispatchOutcome := do
  let now ← timezoneNow
  let decision ← MonadExcept.ofExcept (dispatchDecision env job now task)
  let outcome ← resolveOutcome env decision
  applyOutcome env job decision now checkConflicts outcome
  pure outcome

/-! ## Batches -/

/-- `position` is the entry's place in the caller's list. -/
structure DispatchEntry where
  position : Nat
  job : Job
  decision : DispatchDecision
deriving DecidableEq, Repr

/-- `DispatchRows` -/
structure DispatchRows where
  ready : List ReadyExecution
  scheduled : List ScheduledExecution
  blocked : List BlockedExecution
  discarded : List Job
deriving DecidableEq, Repr

/-- A batch without rows. -/
def DispatchRows.empty : DispatchRows := ⟨[], [], [], []⟩

/-- The row of an entry that waits for its slot. -/
def blockedRowOf (env : Env) (now : Time) (job : Job) :
    DispatchDecision → Except PyError BlockedExecution
  | .outcome _ => throw unexpectedOutcome
  | .concurrency key settings => do
      let expiresAt ← addSeconds now settings.durationSeconds
      pure {
        id := 0
        jobId := job.id
        backendAlias := env.config.backendAlias
        queueName := job.queueName
        priority := job.priority
        concurrencyKey := key
        expiresAt := expiresAt }

/-- `_append_dispatch_row` -/
def appendDispatchRow (env : Env) (now : Time) (rows : DispatchRows) (entry : DispatchEntry) :
    DispatchOutcome → Except PyError DispatchRows
  | .scheduled => do
      let row ← scheduledExecutionRow entry.job env.config.backendAlias entry.job.scheduledAt
      pure { rows with scheduled := rows.scheduled ++ [row] }
  | .ready => do
      let row ← readyExecutionRow entry.job.ref env.config.backendAlias none none now
      pure { rows with ready := rows.ready ++ [row] }
  | .blocked => do
      let row ← blockedRowOf env now entry.job entry.decision
      pure { rows with blocked := rows.blocked ++ [row] }
  | .discarded =>
      pure { rows with discarded := rows.discarded ++
        [{ entry.job with finishedAt := some now, returnValue := none }] }

/-- The rows of all entries. -/
def appendDispatchRows (env : Env) (now : Time) :
    DispatchRows → List (DispatchEntry × DispatchOutcome) → Except PyError DispatchRows
  | rows, [] => pure rows
  | rows, (entry, outcome) :: rest => do
      let rows' ← appendDispatchRow env now rows entry outcome
      appendDispatchRows env now rows' rest

/-- The entries whose decision is already an outcome. -/
def directOutcomes (entries : List DispatchEntry) : List (DispatchEntry × DispatchOutcome) :=
  entries.filterMap (fun e => match e.decision with
    | .outcome o => some (e, o)
    | .concurrency _ _ => none)

/-- The entries that need a slot, with the key and settings they need it under. -/
def slotEntries (entries : List DispatchEntry) :
    List ((String × ConcurrencySettings) × DispatchEntry) :=
  entries.filterMap (fun e => match e.decision with
    | .outcome _ => none
    | .concurrency key settings => some ((key, settings), e))

/-- The first `acquired` entries of a group are ready, the others follow their conflict rule. -/
def groupOutcomes (settings : ConcurrencySettings) (acquired : Int)
    (group : List DispatchEntry) : List (DispatchEntry × DispatchOutcome) :=
  (group.take acquired.toNat).map
      (fun e => (e, concurrencyDispatchOutcome settings.onConflict true)) ++
    (group.drop acquired.toNat).map
      (fun e => (e, concurrencyDispatchOutcome settings.onConflict false))

/-- The slots of every group, acquired at once. -/
def dispatchGroups (env : Env) :
    List ((String × ConcurrencySettings) × List DispatchEntry) →
      Op (List (DispatchEntry × DispatchOutcome))
  | [] => pure []
  | ((key, settings), group) :: rest => do
      let acquired ← semaphoreAcquireMany env key group.length settings.limit
        settings.durationSeconds
      let others ← dispatchGroups env rest
      pure (groupOutcomes settings acquired group ++ others)

/-- The entries that need slots by key and settings. -/
def slotGroups (entries : List DispatchEntry) :
    List ((String × ConcurrencySettings) × List DispatchEntry) :=
  (groupBy Prod.fst (slotEntries entries)).map (fun g => (g.1, g.2.map Prod.snd))

/-- `build_dispatch_rows` -/
def buildDispatchRows (env : Env) (entries : List DispatchEntry) (now : Time) :
    Op (DispatchRows × List (DispatchEntry × DispatchOutcome)) := do
  let grouped ← dispatchGroups env (slotGroups entries)
  let settled := directOutcomes entries ++ grouped
  let rows ← MonadExcept.ofExcept (appendDispatchRows env now .empty settled)
  pure (rows, settled)

/-! ## Enqueueing -/

/-- `validate_queue_allowed` -/
def validateQueueAllowed (config : Config) (queueName : String) : Except PyError Unit :=
  if !config.allowedQueues.isEmpty && !config.allowedQueues.contains queueName then
    throw (.enqueueError
      s!"queue {pyRepr queueName} is not allowed for backend {pyRepr config.backendAlias}")
  else pure ()

/-- `validate_priority` -/
def validatePriority (priority : Int) : Except PyError Unit :=
  if priority < -100 || 100 < priority then
    throw (.enqueueError "priority must be an integer from -100 to 100")
  else pure ()

/-- The checks of a submission, unless the backend has made them. -/
def validateSubmission (config : Config) (validate : Bool) (task : Task) :
    Except PyError Unit :=
  if validate then do
    validateQueueAllowed config task.queueName
    validatePriority task.priority
  else pure ()

/-- `_normalize_payload`; `none` is a payload that JSON does not round-trip. -/
def normalizePayload : Option Payload → Except PyError Payload
  | none => throw (.enqueueError "payload must be JSON round-trippable")
  | some payload => pure payload

/-- `_resolve_concurrency_key` -/
def resolveConcurrencyKey : KeyValue → Except PyError (Option String)
  | .unset => pure none
  | .raised e => throw e
  | .unresolvable => throw (.enqueueError "could not resolve concurrency_key")
  | .malformed => throw (.enqueueError "concurrency_key must be a string or callable")
  | .value v =>
      match v with
      | .str s =>
          if s = "" ∨ 255 < s.length then throw (.enqueueError
            "concurrency_key must resolve to a non-empty string up to 255 chars")
          else pure (some s)
      | _ => throw (.enqueueError
          "concurrency_key must resolve to a non-empty string up to 255 chars")

/-- `_concurrency_policy` -/
def concurrencyPolicy (config : Config) (task : Task) :
    Option String → Except PyError (Option ConcurrencySettings)
  | none => pure none
  | some _ => (taskConcurrencySettings config task).map some

/-- `_prepare_submission`: the job a call creates. -/
def prepareSubmission (config : Config) (call : TaskCall) (validate : Bool) (jobId : JobId) :
    Except PyError Job := do
  validateSubmission config validate call.task
  let payload ← normalizePayload call.payload
  let key ← resolveConcurrencyKey call.key
  let policy ← concurrencyPolicy config call.task key
  pure {
    id := jobId
    taskPath := call.task.modulePath
    queueName := call.task.queueName
    priority := call.task.priority
    payload := payload
    backendAlias := config.backendAlias
    scheduledAt := call.task.runAfter
    concurrencyKey := key
    concurrencyLimit := policy.map ConcurrencySettings.limit
    concurrencyDuration := policy.map ConcurrencySettings.durationSeconds
    concurrencyOnConflict := policy.map (fun s => s.onConflict.text)
    finishedAt := none
    returnValue := none }

/-- The integer columns of a job that no check constraint bounds. -/
def Job.policyColumns (j : Job) : List Int :=
  j.concurrencyLimit.toList ++ j.concurrencyDuration.toList

/-- The key is unique, and a check constraint bounds the priority. -/
def insertJob (family : BackendFamily) (job : Job) : Op Unit := do
  ensureFits family job.policyColumns
  let db ← getDb
  if (db.findJob job.id).isSome || job.priority < -100 || 100 < job.priority then
    throw .integrityError
  else modifyDb (fun db => { db with jobs := db.jobs ++ [job] })

/-- `jobId` is the one given, or what `uuid4` returned. -/
def enqueueJobWithDispatch (env : Env) (call : TaskCall) (validate : Bool) (jobId : JobId) :
    Op (Job × DispatchOutcome) := do
  let job ← MonadExcept.ofExcept (prepareSubmission env.config call validate jobId)
  transactionAtomic do
    insertJob env.config.family job
    let outcome ← dispatchJob env job false (some (.task call.task))
    pure (job, outcome)

/-- The submissions of a bulk enqueue; the first that raises ends it. -/
def prepareSubmissions (config : Config) (validate : Bool) :
    List (TaskCall × JobId) → Except PyError (List Job)
  | [] => pure []
  | (call, jobId) :: rest => do
      let job ← prepareSubmission config call validate jobId
      let jobs ← prepareSubmissions config validate rest
      pure (job :: jobs)

/-- The entries of a bulk enqueue, numbered. -/
def dispatchEntries (env : Env) (now : Time) : Nat → List Job → Except PyError (List DispatchEntry)
  | _, [] => pure []
  | position, job :: rest => do
      let decision ← dispatchDecision env job now none
      let entries ← dispatchEntries env now (position + 1) rest
      pure (⟨position, job, decision⟩ :: entries)

/-- `bulk_update(jobs, ["finished_at", "return_value", …])`: each row takes its instance's values. -/
def bulkUpdateResults (jobs : List Job) : Op Unit :=
  updateJobsWhere (fun j => (jobs.find? (fun i => i.id == j.id)).isSome) (fun j =>
    match jobs.find? (fun i => i.id == j.id) with
    | some i => { j with finishedAt := i.finishedAt, returnValue := i.returnValue }
    | none => j)

/-- The outcomes in the order of the caller's list. -/
def inCallOrder (entries : List DispatchEntry) (settled : List (DispatchEntry × DispatchOutcome)) :
    List (DispatchEntry × DispatchOutcome) :=
  entries.filterMap (fun e => settled.find? (fun s => s.1.position == e.position))

/-- `_enqueue_bulk_once` -/
def enqueueBulkOnce (env : Env) (jobs : List Job) :
    Op (List (DispatchEntry × DispatchOutcome)) := do
  let now ← timezoneNow
  let entries ← MonadExcept.ofExcept (dispatchEntries env now 0 jobs)
  transactionAtomic do
    jobs.forM (insertJob env.config.family)
    let (rows, settled) ← buildDispatchRows env entries now
    bulkCreateReadyExecutions rows.ready false
    bulkCreate .scheduled rows.scheduled
    bulkCreate .blocked rows.blocked
    bulkUpdateResults rows.discarded
    pure (inCallOrder entries settled)

/-- `enqueue_jobs_bulk`; each call comes with what `uuid4` returned for it. -/
def enqueueJobsBulk (env : Env) (calls : List (TaskCall × JobId)) (validate : Bool) :
    Op (List (DispatchEntry × DispatchOutcome)) := do
  let jobs ← MonadExcept.ofExcept (prepareSubmissions env.config validate calls)
  if jobs.isEmpty then pure [] else enqueueBulkOnce env jobs

end DjQueue
