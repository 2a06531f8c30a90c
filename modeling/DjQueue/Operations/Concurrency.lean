import DjQueue.Operations.Semaphore
import DjQueue.Relational.Grouping

/-!
# Concurrency limits

The rest of `operations/concurrency.py`: how a job's policy resolves to a limit, a
duration and a conflict rule, how a released slot is handed to the next waiter of the
key, and the two maintenance operations.
-/

namespace DjQueue

open Relational

/-! ## Policies -/

/-- What becomes of a job whose slot is refused. -/
inductive OnConflict where
  | block | discard
deriving DecidableEq, Repr

/-- The value of the column. -/
def OnConflict.text : OnConflict → String
  | .block => "block"
  | .discard => "discard"

/-- A conflict rule from its text. -/
def parseOnConflict (s : String) : Except PyError OnConflict :=
  if s = "block" then pure .block
  else if s = "discard" then pure .discard
  else throw (.enqueueError "on_conflict must be 'block' or 'discard'")

/-- A resolved policy. -/
structure ConcurrencySettings where
  limit : Int
  durationSeconds : Int
  onConflict : OnConflict
deriving DecidableEq, Repr

/-- A limit has to be given with a key. -/
def requiredLimit : Option PyValue → Except PyError PyValue
  | none | some .none | some (.str "") =>
      throw (.enqueueError "concurrency_limit is required when concurrency_key is set")
  | some v => pure v

/-- `concurrency_settings` of a task. -/
def taskConcurrencySettings (config : Config) (task : Task) :
    Except PyError ConcurrencySettings := do
  let limitOption ← requiredLimit task.concurrencyLimit
  let limit ← positiveIntOption limitOption "concurrency_limit"
  let duration ← positiveIntOption
    (task.concurrencyDuration.getD (.int config.defaultConcurrencyDuration))
    "concurrency_duration"
  let onConflict ← parseOnConflict ((task.onConflict.map PyValue.text).getD "block")
  pure ⟨limit, duration, onConflict⟩

/-- `concurrency_settings` of an imported object, which may not be a task at all. -/
def concurrencySettings (config : Config) : Imported → Except PyError ConcurrencySettings
  | .task t => taskConcurrencySettings config t
  | .object => throw (.attributeError "object has no attribute 'func'")

/-- A policy with no persisted column: a job of a release that did not have them. -/
def Job.historicalPolicy (j : Job) : Bool :=
  j.concurrencyLimit.isNone && j.concurrencyDuration.isNone && j.concurrencyOnConflict.isNone

/-- The exceptions `concurrency_settings_for_job` turns into a `DispatchPolicyError` while it
resolves a historical policy. -/
def PyError.unresolvedPolicy : PyError → Bool
  | .attributeError _ | .enqueueError _ | .dispatchPolicyError _ | .importError _ => true
  | _ => false

/-- The policy of a job from before the policy columns: that of its task as it is now. -/
def resolveHistoricalPolicy (env : Env) (job : Job) :
    Option Imported → Except PyError ConcurrencySettings
  | some imported => concurrencySettings env.config imported
  | none => do
      let imported ← env.importString job.taskPath
      concurrencySettings env.config imported

/-- The policy of the columns, checked again. -/
def persistedConcurrencySettings (limit duration : Int) (onConflict : String) :
    Except PyError ConcurrencySettings := do
  let limit ← positiveIntOption (.int limit) "concurrency_limit"
  let duration ← positiveIntOption (.int duration) "concurrency_duration"
  let onConflict ← parseOnConflict onConflict
  pure ⟨limit, duration, onConflict⟩

/-- `concurrency_settings_for_job` -/
def concurrencySettingsForJob (env : Env) (job : Job) (task : Option Imported) :
    Except PyError ConcurrencySettings :=
  if job.historicalPolicy then
    match resolveHistoricalPolicy env job task with
    | .ok settings => .ok settings
    | .error e =>
        if e.unresolvedPolicy then .error (.dispatchPolicyError
          s!"job {job.id} has no resolvable concurrency policy: {e.message}")
        else .error e
  else
    match job.concurrencyLimit, job.concurrencyDuration, job.concurrencyOnConflict with
    | some limit, some duration, some onConflict =>
        match persistedConcurrencySettings limit duration onConflict with
        | .ok settings => .ok settings
        | .error e => .error (.dispatchPolicyError
            s!"job {job.id} has invalid persisted concurrency policy: {e.message}")
    | _, _, _ => .error (.dispatchPolicyError
        s!"job {job.id} has incomplete persisted concurrency policy")

/-- `job.concurrency_key`, when it is truthy. -/
def Job.slotKey (j : Job) : Option String :=
  j.concurrencyKey.filter (fun k => k ≠ "")

/-! ## Waiters -/

/-- `-priority, id` -/
def higherPriority (p q : Int) (i j : Nat) : Bool := q < p || (p == q && i ≤ j)

/-- `-priority, id` -/
def blockedOrder (a b : BlockedExecution) : Bool :=
  higherPriority a.priority b.priority a.id b.id

/-- The backend's waiters on a key, in the order they are picked. -/
def waitersOf (db : Db) (backendAlias key : String) : List (BlockedExecution × Job) :=
  selectRelatedJob (m := .blocked) db (orderBy blockedOrder
    (db.blocked.rows.filter (fun r => r.backendAlias == backendAlias && r.concurrencyKey == key)))

/-- `SlotHandoffMode` -/
inductive SlotHandoffMode where
  | releaseClaimed | consumeReleased
deriving DecidableEq, Repr

/-- `_blocked_job_ref` -/
def blockedJobRef (blocked : BlockedExecution) (backendAlias : String) : JobRef :=
  ⟨blocked.jobId, backendAlias, blocked.queueName, blocked.priority, some blocked.concurrencyKey⟩

/-- `consume_next_blocked_job`, in one statement on PostgreSQL, with its own select and delete
elsewhere: take the first waiter out of the blocked table. -/
def consumeNextBlockedJob (env : Env) (key : String) :
    Op (Option (BlockedExecution × Job)) := do
  let db ← getDb
  match waitersOf db env.config.backendAlias key with
  | [] => pure none
  | blocked :: _ =>
      match env.config.family with
      | .postgresql => do
          let _ ← deleteRowsWhere .blocked (fun r => r.id == blocked.1.id)
          pure (some blocked)
      | _ => do
          ensureStateRowsBelongToBackend (m := .blocked) [blocked] env.config.backendAlias
          let consumed ← consumeSelectedRows env .blocked
            (fun r : BlockedExecution × Job => r.1.id) [blocked]
          pure consumed.head?

/-- `consume_next_blocked_job_with_released_slot`: one PostgreSQL statement that locks the
first waiter, hands it the slot when the `UPDATE` accepts, and only then deletes it. -/
def consumeNextBlockedJobWithReleasedSlot (env : Env) (key : String)
    (limit durationSeconds : Int) (now : Time) :
    Op (Option ((BlockedExecution × Job) × Bool)) := do
  let expiresAt ← MonadExcept.ofExcept (addSeconds now durationSeconds)
  let db ← getDb
  ensureFits .postgresql [limit]
  match waitersOf db env.config.backendAlias key with
  | [] => pure none
  | blocked :: _ => do
      let updated ← updateSlots .postgresql key
        (handoffReleasedClaimedSlotStatement limit expiresAt now)
      if updated = 0 then pure (some (blocked, false))
      else do
        let _ ← deleteRowsWhere .blocked (fun r => r.id == blocked.1.id)
        pure (some (blocked, true))

/-- The statement that returns found its deadline and its limit in range. -/
theorem checked_of_run_consumeNextBlockedJobWithReleasedSlot {env : Env} {key : String}
    {limit duration : Int} {now : Time} {consumed : Option ((BlockedExecution × Job) × Bool)}
    {w w' : World}
    (run : Runs (consumeNextBlockedJobWithReleasedSlot env key limit duration now) w consumed w') :
    isDatetime (now + seconds duration) = true ∧ int4 limit = true ∧
      Runs (match waitersOf w.db env.config.backendAlias key with
        | [] => pure none
        | blocked :: _ => do
            let updated ← updateSlots .postgresql key
              (handoffReleasedClaimedSlotStatement limit (now + seconds duration) now)
            if updated = 0 then pure (some (blocked, false))
            else do
              let _ ← deleteRowsWhere .blocked (fun r => r.id == blocked.1.id)
              pure (some (blocked, true))) w consumed w' := by
  obtain ⟨expiresAt, w₁, added, rest₁⟩ := Runs.of_bind run
  obtain ⟨rfl, inRange, rfl⟩ := of_run_addSeconds added
  obtain ⟨db, w₂, read, rest₂⟩ := Runs.of_bind rest₁
  obtain ⟨rfl, rfl⟩ := of_run_getDb read
  obtain ⟨u, w₃, checked, rest₃⟩ := Runs.of_bind rest₂
  obtain ⟨fits, rfl⟩ := of_run_ensureFits checked
  exact ⟨inRange, by simpa [BackendFamily.holds] using fits, rest₃⟩

/-- `_restore_blocked_execution` -/
def restoreBlockedExecution (blocked : BlockedExecution) (backendAlias : String) : Op Unit :=
  createBlockedExecution (blockedJobRef blocked backendAlias) backendAlias
    (some blocked.concurrencyKey) blocked.expiresAt (some blocked.queueName)
    (some blocked.priority) true

/-- The slot a consumed waiter gets, by hand-off mode. -/
def acquireHandoffSlot (env : Env) (mode : SlotHandoffMode) (key : String)
    (limit durationSeconds : Int) (now : Time) : Op Bool :=
  match mode with
  | .releaseClaimed => handoffReleasedClaimedSlot env key limit durationSeconds now
  | .consumeReleased => consumeReleasedSemaphoreSlot env key limit durationSeconds now

/-- The portable path: consume the waiter, try for its slot, put it back when there is none. -/
def consumeBlockedJobPortably (env : Env) (mode : SlotHandoffMode) (key : String)
    (limit durationSeconds : Int) (now : Time) : Op (Option (JobRef × Bool)) := do
  let consumed ← consumeNextBlockedJob env key
  match consumed with
  | none => pure none
  | some (blocked, job) =>
      if job.backendAlias ≠ env.config.backendAlias then
        throw (belongsToBackend blocked.jobId job.backendAlias)
      else do
        let slotAcquired ← acquireHandoffSlot env mode key limit durationSeconds now
        runIf (!slotAcquired) (restoreBlockedExecution blocked env.config.backendAlias)
        pure (some (blockedJobRef blocked env.config.backendAlias, slotAcquired))

/-- The PostgreSQL hand-off of a claimed slot; a refused waiter was never deleted. -/
def consumeBlockedJobOnPostgres (env : Env) (key : String) (limit durationSeconds : Int)
    (now : Time) : Op (Option (JobRef × Bool)) := do
  let consumed ← consumeNextBlockedJobWithReleasedSlot env key limit durationSeconds now
  match consumed with
  | none => pure none
  | some ((blocked, job), slotAcquired) =>
      if job.backendAlias ≠ env.config.backendAlias then
        throw (belongsToBackend blocked.jobId job.backendAlias)
      else pure (some (blockedJobRef blocked env.config.backendAlias, slotAcquired))

/-- `_consume_blocked_job_for_slot` -/
def consumeBlockedJobForSlot (env : Env) (mode : SlotHandoffMode) (key : String)
    (limit durationSeconds : Int) (now : Time) : Op (Option (JobRef × Bool)) :=
  if mode = .releaseClaimed ∧ env.config.family = .postgresql then
    consumeBlockedJobOnPostgres env key limit durationSeconds now
  else consumeBlockedJobPortably env mode key limit durationSeconds now

/-- `_create_ready_execution_after_blocked_consume` -/
def createReadyExecutionAfterBlockedConsume (job : JobRef) (backendAlias : String)
    (readyAt : Time) : Op Unit := do
  let created ← insertReadyAfterBlockedConsume job backendAlias job.queueName job.priority readyAt
  runIf (created ≠ 1) (throw (alreadyHasState job.id))

/-- `unblock_next_blocked_job` -/
def unblockNextBlockedJob (env : Env) (key : String) (limit durationSeconds : Int)
    (mode : SlotHandoffMode) : Op (Option JobRef) := do
  let now ← timezoneNow
  transactionAtomic do
    let blockedSlot ← consumeBlockedJobForSlot env mode key limit durationSeconds now
    match blockedSlot with
    | some (job, true) => do
        createReadyExecutionAfterBlockedConsume job env.config.backendAlias now
        pure (some job)
    | _ => pure none

/-! ## Releasing slots -/

/-- `_semaphore_limit(…) or 1` -/
def semaphoreLimitOrOne (db : Db) (key : String) : Int :=
  match (db.findSemaphore key).map Semaphore.limit with
  | none | some 0 => 1
  | some limit => limit

/-- `_release_settings`: a job whose policy does not resolve releases under the row's limit. -/
def releaseSettings (env : Env) (job : Job) (key : String) (task : Option Imported) :
    Op (Int × Int) := do
  let db ← getDb
  match concurrencySettingsForJob env job task with
  | .ok settings => pure (settings.limit, settings.durationSeconds)
  | .error (.dispatchPolicyError _) =>
      pure (semaphoreLimitOrOne db key, env.config.defaultConcurrencyDuration)
  | .error e => throw e

/-- Give one slot of `key` back: to the first waiter if there is one, else to the row, and then
look for a waiter once more. -/
def releaseSlot (env : Env) (key : String) (limit durationSeconds : Int) : Op Unit := do
  let unblocked ← unblockNextBlockedJob env key limit durationSeconds .releaseClaimed
  match unblocked with
  | some _ => pure ()
  | none => do
      let _ ← semaphoreRelease env key limit durationSeconds
      let _ ← unblockNextBlockedJob env key limit durationSeconds .consumeReleased
      pure ()

/-- `release_concurrency_slot` -/
def releaseConcurrencySlot (env : Env) (job : Job) (task : Option Imported) : Op Unit :=
  match job.slotKey with
  | none => pure ()
  | some key => do
      let (limit, durationSeconds) ← releaseSettings env job key task
      releaseSlot env key limit durationSeconds

/-- The row `_release_recovered_concurrency_group` saves. -/
def groupReleaseRow (limit available promoted : Int) (expiresAt now : Time) (r : Semaphore) :
    Semaphore :=
  { r with value := available - promoted, activeCount := some (limit - (available - promoted)),
           limit := limit, expiresAt := expiresAt, updatedAt := now }

/-- The free slots once `releaseCount` more are given back under `limit`. -/
def groupAvailable (releaseCount limit : Int) (r : Semaphore) : Int :=
  min limit (max 0 (r.value + limit - r.limit + releaseCount))

/-- `rows[:n]` -/
def pySlice {α : Type} (n : Int) (rows : List α) : List α :=
  rows.take (if n < 0 then rows.length - n.natAbs else n.toNat)

/-- `_release_recovered_concurrency_group` -/
def releaseRecoveredConcurrencyGroup (env : Env) (key : String) (releaseCount : Nat)
    (limit durationSeconds : Int) : Op (List Job) := do
  let now ← timezoneNow
  let expiresAt ← MonadExcept.ofExcept (addSeconds now durationSeconds)
  let db ← getDb
  let blockedRows := (waitersOf db env.config.backendAlias key).take releaseCount
  ensureStateRowsBelongToBackend (m := .blocked) blockedRows env.config.backendAlias
  match db.findSemaphore key with
  | none => pure []
  | some semaphore => do
      let available := groupAvailable releaseCount limit semaphore
      let promoteCount := min (min (releaseCount : Int) available) blockedRows.length
      let promotedRows ← consumeSelectedRows env .blocked
        (fun r : BlockedExecution × Job => r.1.id) (pySlice promoteCount blockedRows)
      let stamp ← timezoneNow
      ensureFits env.config.family
        (groupReleaseRow limit available promotedRows.length expiresAt stamp semaphore).columns
      saveSemaphore key (groupReleaseRow limit available promotedRows.length expiresAt stamp)
      let readyRows ← MonadExcept.ofExcept (promotedRows.mapM (fun r =>
        readyExecutionRow r.2.ref env.config.backendAlias (some r.1.queueName)
          (some r.1.priority) now))
      bulkCreateReadyExecutions readyRows true
      pure (promotedRows.map Prod.snd)

/-- `_recovered_release_settings` -/
def releaseSettingsOfAll (env : Env) (key : String) : List Job → Op (List (Int × Int))
  | [] => pure []
  | job :: rest => do
      let settings ← releaseSettings env job key none
      let others ← releaseSettingsOfAll env key rest
      pure (settings :: others)

/-- One group of `release_recovered_concurrency_slots`: released at once when its jobs agree
on the settings, else handed back to be released one by one. -/
def releaseRecoveredGroup (env : Env) (key : String) (jobs : List Job) : Op (List Job) := do
  let settings ← releaseSettingsOfAll env key jobs
  match distinct settings with
  | [(limit, durationSeconds)] => do
      let _ ← releaseRecoveredConcurrencyGroup env key jobs.length limit durationSeconds
      pure []
  | _ => pure jobs

/-- The groups of a recovery, with the jobs whose settings differ. -/
def releaseRecoveredGroups (env : Env) : List (String × List Job) → Op (List Job)
  | [] => pure []
  | (key, jobs) :: rest => do
      let fallback ← releaseRecoveredGroup env key jobs
      let others ← releaseRecoveredGroups env rest
      pure (fallback ++ others)

/-- The jobs that hold a slot, with its key. -/
def slotJobs (jobs : List Job) : List (String × Job) :=
  jobs.filterMap (fun j => j.slotKey.map (fun k => (k, j)))

/-- `release_recovered_concurrency_slots` -/
def releaseRecoveredConcurrencySlots (env : Env) (jobs : List Job) : Op (List Job) :=
  match jobs.find? (fun j => j.backendAlias ≠ env.config.backendAlias) with
  | some job => throw (belongsToBackend job.id job.backendAlias)
  | none => releaseRecoveredGroups env
      ((groupBy Prod.fst (slotJobs jobs)).map (fun g => (g.1, g.2.map Prod.snd)))

/-! ## Maintenance -/

/-- `expires_at, key` -/
def semaphoreExpiryOrder (a b : Semaphore) : Bool :=
  a.expiresAt < b.expiresAt || (a.expiresAt == b.expiresAt && (a.key < b.key || a.key == b.key))

/-- A job that holds a slot of its key, whatever its backend. -/
def Db.isActive (db : Db) (j : Job) : Bool :=
  db.hasState .claimed j.id || db.hasState .ready j.id

/-- `cleanup_expired_semaphores` -/
def cleanupExpiredSemaphores (batchSize : PyValue) : Op Nat := do
  let batch ← MonadExcept.ofExcept (positiveIntOption batchSize "batch_size")
  let now ← timezoneNow
  transactionAtomic do
    let db ← getDb
    let semaphores := (orderBy semaphoreExpiryOrder
      (db.semaphores.rows.filter (fun r => r.expiresAt ≤ now))).take batch.toNat
    let keys := semaphores.map Semaphore.key
    let activeKeys := (db.jobs.filter (fun j =>
      j.concurrencyKey.any keys.contains && db.isActive j)).filterMap Job.concurrencyKey
    let ids := (semaphores.filter (fun r => !activeKeys.contains r.key)).map Semaphore.id
    modifyDb (fun db => { db with
      semaphores := db.semaphores.deleteWhere (fun r => ids.contains r.id) })
    pure (db.semaphores.rows.countP (fun r => ids.contains r.id))

/-- The limits and durations already resolved for historical policies, by task path. -/
abbrev TaskSettings := List (String × (Int × Int))

/-- `_blocked_concurrency_settings` -/
def blockedConcurrencySettings (env : Env) (job : Job) (cache : TaskSettings) :
    Except PyError ((Int × Int) × TaskSettings) :=
  match (if job.historicalPolicy then cache.lookup job.taskPath else none) with
  | some settings => .ok (settings, cache)
  | none =>
      match concurrencySettingsForJob env job none with
      | .error e => .error e
      | .ok settings =>
          let pair := (settings.limit, settings.durationSeconds)
          .ok (pair, if job.historicalPolicy then (job.taskPath, pair) :: cache else cache)

/-- The failed row of a waiter whose policy raises. -/
def policyFailureRow (job : Job) (error : PyError) : FailedExecution where
  id := 0
  jobId := job.id
  exceptionClass := dispatchPolicyErrorPath
  message := error.message
  traceback := ""
  retryAt := none
  createdAt := 0

/-- The rows a step may work on: consumed here, unless they already were. -/
def consumeUnless {β : Type} (consumed : Bool) (env : Env) (m : StateModel) (pk : β → Nat)
    (rows : List β) : Op (List β) :=
  if consumed then pure rows else consumeSelectedRows env m pk rows

/-- `_fail_blocked_policy` -/
def failBlockedPolicy (env : Env) (blocked : BlockedExecution) (job : Job) (error : PyError)
    (consumed : Bool) : Op Bool := do
  let rows ← consumeUnless consumed env .blocked BlockedExecution.id [blocked]
  if rows.isEmpty then pure false
  else do
    ensureNoOtherExecutionState job.id [.blocked]
    createRow .failed (policyFailureRow job error)
    pure true

/-- `_promote_blocked_execution` -/
def promoteBlockedExecution (blocked : BlockedExecution) (job : Job) (readyAt : Time)
    (consumed : Bool) : Op Unit := do
  runIf (!consumed) (do
    let _ ← deleteRowsWhere .blocked (fun r => r.id == blocked.id))
  createReadyExecution job.ref blocked.backendAlias (some blocked.queueName)
    (some blocked.priority) readyAt true

/-- `_renew_blocked_execution` -/
def renewBlockedExecution (blocked : BlockedExecution) (job : Job) (expiresAt : Time)
    (consumed : Bool) : Op Unit :=
  if consumed then
    createBlockedExecution job.ref blocked.backendAlias (some blocked.concurrencyKey) expiresAt
      (some blocked.queueName) (some blocked.priority) true
  else
    modifyDb (fun db => { db with
      blocked := db.blocked.updateWhere (fun r => r.id == blocked.id)
        (fun r => { r with expiresAt := expiresAt }) })

/-- What one expired waiter came to. -/
inductive WaiterOutcome where
  | promoted (job : Job)
  | policyFailure (job : Job) (error : PyError)
  | kept
deriving DecidableEq, Repr

/-- One waiter of `promote_expired_blocked_jobs` -/
def promoteExpiredBlockedJob (env : Env) (now : Time) (consumed : Bool)
    (blocked : BlockedExecution) (job : Job) (cache : TaskSettings) :
    Op (WaiterOutcome × TaskSettings) :=
  match blockedConcurrencySettings env job cache with
  | .error (.dispatchPolicyError message) => do
      let failed ← failBlockedPolicy env blocked job (.dispatchPolicyError message) consumed
      pure (if failed then .policyFailure job (.dispatchPolicyError message) else .kept, cache)
  | .error e => throw e
  | .ok ((limit, durationSeconds), cache') => do
      let acquired ← semaphoreAcquire env blocked.concurrencyKey limit durationSeconds
      if acquired then do
        promoteBlockedExecution blocked job now consumed
        pure (.promoted job, cache')
      else do
        let expiresAt ← MonadExcept.ofExcept (addSeconds now durationSeconds)
        renewBlockedExecution blocked job expiresAt consumed
        pure (.kept, cache')

/-- The loop over the waiters, with the cache of settings. -/
def promoteExpiredLoop (env : Env) (now : Time) (consumed : Bool) :
    List (BlockedExecution × Job) → TaskSettings → Op (List WaiterOutcome)
  | [], _ => pure []
  | (blocked, job) :: rest, cache => do
      let (outcome, cache') ← promoteExpiredBlockedJob env now consumed blocked job cache
      let outcomes ← promoteExpiredLoop env now consumed rest cache'
      pure (outcome :: outcomes)

/-- `expires_at, -priority, id` -/
def expiredOrder (a b : BlockedExecution) : Bool :=
  a.expiresAt < b.expiresAt || (a.expiresAt == b.expiresAt && blockedOrder a b)

/-- The jobs that have become ready. -/
def promotedJobs (outcomes : List WaiterOutcome) : List Job :=
  outcomes.filterMap (fun o => match o with | .promoted job => some job | _ => none)

/-- `promote_expired_blocked_jobs` -/
def promoteExpiredBlockedJobs (env : Env) (batchSize : Int) : Op (List Job) := do
  let now ← timezoneNow
  transactionAtomic do
    let db ← getDb
    let expired := orderBy expiredOrder (db.blocked.rows.filter (fun r =>
      r.backendAlias == env.config.backendAlias && r.expiresAt ≤ now))
    let blockedRows ← sliceTo batchSize (selectRelatedJob (m := .blocked) db expired)
    ensureStateRowsBelongToBackend (m := .blocked) blockedRows env.config.backendAlias
    let serialized := env.config.family.usesSerializedWrites
    let rows ← consumeUnless (!serialized) env .blocked
      (fun r : BlockedExecution × Job => r.1.id) blockedRows
    let outcomes ← promoteExpiredLoop env now serialized rows []
    pure (promotedJobs outcomes)

end DjQueue
