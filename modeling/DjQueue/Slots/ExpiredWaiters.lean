import DjQueue.Accounting.Maintenance
import DjQueue.Relational.Batches
import DjQueue.Relational.TwoRuns
import DjQueue.Slots.GroupAcquire
import DjQueue.Slots.Handoffs
import DjQueue.Slots.WaiterOrder

/-!
# What becomes of expired waiters

`promote_expired_blocked_jobs` takes the first expired waiters of the backend, up to the batch
size. Each of them gets a slot and is ready, or has no policy and fails, or waits again until a time
that is still to come, so that the next call looks at the ones behind them.

A policy that does not resolve is one thing; an exception that does not say so is another, and so is
a deadline beyond what a `datetime` holds or a number out of range: it ends the call, and the batch
is the same the next time.
-/

namespace DjQueue

open Relational

/-! ## Settling -/

/-- What one expired waiter comes to. -/
inductive Settlement where
  | promoted
  | failed (message : String)
  | renewed (expiresAt : Time)

/-- One waiter after another, on the semaphores alone. -/
inductive SettlesInTurn (env : Env) (now : Time) :
    Table Semaphore → List ((BlockedExecution × Job) × Settlement) → Table Semaphore → Prop
  | nil (t : Table Semaphore) : SettlesInTurn env now t [] t
  | promoted {t t' t'' : Table Semaphore} {x : BlockedExecution × Job}
      {rest : List ((BlockedExecution × Job) × Settlement)} {settings : ConcurrencySettings}
      (policy : concurrencySettingsForJob env x.2 none = .ok settings)
      (given : acquireSlot x.1.concurrencyKey settings.limit
        (now + seconds settings.durationSeconds) now t = (true, t'))
      (later : SettlesInTurn env now t' rest t'') :
      SettlesInTurn env now t ((x, .promoted) :: rest) t''
  | renewed {t t' t'' : Table Semaphore} {x : BlockedExecution × Job}
      {rest : List ((BlockedExecution × Job) × Settlement)} {settings : ConcurrencySettings}
      (policy : concurrencySettingsForJob env x.2 none = .ok settings)
      (refused : acquireSlot x.1.concurrencyKey settings.limit
        (now + seconds settings.durationSeconds) now t = (false, t'))
      (later : SettlesInTurn env now t' rest t'') :
      SettlesInTurn env now t
        ((x, .renewed (now + seconds settings.durationSeconds)) :: rest) t''
  | failed {t t'' : Table Semaphore} {x : BlockedExecution × Job} {message : String}
      {rest : List ((BlockedExecution × Job) × Settlement)}
      (policy : concurrencySettingsForJob env x.2 none = .error (.dispatchPolicyError message))
      (later : SettlesInTurn env now t rest t'') :
      SettlesInTurn env now t ((x, .failed message) :: rest) t''

/-- The one state the waiter is in afterwards. -/
def Settlement.Shows (now : Time) (waiter : BlockedExecution) (db : Db) : Settlement → Prop
  | promoted =>
      db.hasState .ready waiter.jobId = true ∧ db.hasState .failed waiter.jobId = false ∧
        db.hasState .blocked waiter.jobId = false
  | failed message =>
      db.hasState .ready waiter.jobId = false ∧ db.hasState .blocked waiter.jobId = false ∧
        ∃ r ∈ db.failed.rows, r.jobId = waiter.jobId ∧ r.message = message ∧
          r.exceptionClass = dispatchPolicyErrorPath
  | renewed expiresAt =>
      db.hasState .ready waiter.jobId = false ∧ db.hasState .failed waiter.jobId = false ∧
        now < expiresAt ∧ ∃ r ∈ db.blocked.rows, waiter.SameWaiter r ∧ r.expiresAt = expiresAt

/-- The job a call returns for a waiter, if it does. -/
def Settlement.promotedJob (job : Job) : Settlement → Option Job
  | promoted => some job
  | failed _ => none
  | renewed _ => none

/-- The backend's expired waiters, in the order in which they are looked at. -/
def Db.expiredWaiters (db : Db) (env : Env) (now : Time) : List BlockedExecution :=
  orderBy expiredOrder (db.blocked.rows.filter (fun r =>
    r.backendAlias == env.config.backendAlias && r.expiresAt ≤ now))

/-- A call that settles a batch, and touches nothing else. -/
structure SettlesBatch (env : Env) (now : Time) (batch : List BlockedExecution) (jobs : List Job)
    (db db' : Db) : Prop where
  frame : db' = { db with
    blocked := db'.blocked
    ready := db'.ready
    failed := db'.failed
    semaphores := db'.semaphores }
  settled : ∃ settled, settled.map (fun p => p.1.1) = batch ∧
    SettlesInTurn env now db.semaphores settled db'.semaphores ∧
    (∀ p ∈ settled, db.findJob p.1.1.jobId = some p.1.2 ∧ p.2.Shows now p.1.1 db') ∧
    jobs = settled.filterMap (fun p => p.2.promotedJob p.1.2)
  others : ∀ r, (∀ x ∈ batch, x.jobId ≠ r.jobId) → (r ∈ db'.blocked.rows ↔ r ∈ db.blocked.rows)

/-- The states repeated calls at one time go through. -/
def promotions (env : Env) (batchSize : Int) (now : Time) (uuids : Nat → JobId) (db : Db) :
    Nat → Db
  | 0 => db
  | calls + 1 =>
      (finalState (promoteExpiredBlockedJobs env batchSize)
        ⟨promotions env batchSize now uuids db calls, fun _ => now, uuids⟩).db

/-- A `DispatchPolicyError` -/
def PyError.isDispatchPolicyError : PyError → Bool
  | .dispatchPolicyError _ => true
  | _ => false

/-- The waiter has no policy that can be looked up, or one whose deadline is a time and under which
a slot can be asked for: everything that is computed of its key's row is in range. -/
def WaiterFits (env : Env) (now : Time) (t : Table Semaphore) (x : BlockedExecution × Job) : Prop :=
  match concurrencySettingsForJob env x.2 none with
  | .ok settings => isDatetime (now + seconds settings.durationSeconds) = true ∧
      AcquireFits env.config.family settings.limit
        (t.rows.find? (fun r => r.key == x.1.concurrencyKey))
  | .error e => e.isDispatchPolicyError = true

/-- The semaphores once the waiter has asked for a slot, if it has a policy to ask under. -/
def askedTable (env : Env) (now : Time) (t : Table Semaphore) (x : BlockedExecution × Job) :
    Table Semaphore :=
  match concurrencySettingsForJob env x.2 none with
  | .ok settings => (acquireSlot x.1.concurrencyKey settings.limit
      (now + seconds settings.durationSeconds) now t).2
  | .error _ => t

/-- One waiter after another, each with its key's row as the ones before it leave it. -/
def WaitersFit (env : Env) (now : Time) : Table Semaphore → List (BlockedExecution × Job) → Prop
  | _, [] => True
  | t, x :: rest => WaiterFits env now t x ∧ WaitersFit env now (askedTable env now t x) rest

section Deciding

variable {env : Env} {now : Time}

instance (t : Table Semaphore) (x : BlockedExecution × Job) : Decidable (WaiterFits env now t x) :=
  match policy : concurrencySettingsForJob env x.2 none with
  | .ok settings =>
      decidable_of_iff (isDatetime (now + seconds settings.durationSeconds) = true ∧
        AcquireFits env.config.family settings.limit
          (t.rows.find? (fun r => r.key == x.1.concurrencyKey))) (by rw [WaiterFits, policy])
  | .error e => decidable_of_iff (e.isDispatchPolicyError = true) (by rw [WaiterFits, policy])

instance decidableWaitersFit : ∀ (t : Table Semaphore) (rows : List (BlockedExecution × Job)),
    Decidable (WaitersFit env now t rows)
  | _, [] => .isTrue trivial
  | t, x :: rest =>
      have := decidableWaitersFit (askedTable env now t x) rest
      inferInstanceAs (Decidable (WaiterFits env now t x ∧ _))

theorem waitersFit_append : ∀ {rows rows' : List (BlockedExecution × Job)} {t : Table Semaphore},
    WaitersFit env now t (rows ++ rows') ↔
      WaitersFit env now t rows ∧ WaitersFit env now (rows.foldl (askedTable env now) t) rows'
  | [], _, _ => (and_iff_right trivial).symm
  | x :: rows, rows', t => by
      rw [List.cons_append, WaitersFit, WaitersFit, waitersFit_append, List.foldl_cons, and_assoc]

end Deciding

/-- Waiting jobs are jobs of their backend that have no other state. -/
structure Promotable (env : Env) (db : Db) : Prop where
  numbered : WaitersNumbered db.blocked
  semaphores : SemaphoresNumbered db.semaphores
  loaded : ∀ r ∈ db.blocked.rows, r.backendAlias = env.config.backendAlias →
    ∃ job, db.findJob r.jobId = some job ∧ job.backendAlias = env.config.backendAlias
  alone : ∀ r ∈ db.blocked.rows, ∀ m, m ≠ .blocked → db.hasState m r.jobId = false

/-! ## Policies -/

section Policies

variable {env : Env} {job : Job}

/-- A waiter that fits has a policy whose deadline is a date, or a `DispatchPolicyError` -/
theorem policy_of_waiterFits {now : Time} {t : Table Semaphore} {x : BlockedExecution × Job}
    (fits : WaiterFits env now t x) :
    (∃ settings, concurrencySettingsForJob env x.2 none = .ok settings ∧
        isDatetime (now + seconds settings.durationSeconds) = true ∧
        AcquireFits env.config.family settings.limit
          (t.rows.find? (fun r => r.key == x.1.concurrencyKey))) ∨
      ∃ message, concurrencySettingsForJob env x.2 none =
        .error (.dispatchPolicyError message) := by
  unfold WaiterFits at fits
  cases policy : concurrencySettingsForJob env x.2 none with
  | ok settings =>
    rw [policy] at fits
    exact .inl ⟨settings, rfl, fits⟩
  | error e =>
    rw [policy] at fits
    cases e with
    | dispatchPolicyError message => exact .inr ⟨message, rfl⟩
    | _ => cases fits

/-- What is cached for a task path is what a historical policy with that path resolves to. -/
def CacheHolds (env : Env) (cache : TaskSettings) : Prop :=
  ∀ path pair, cache.lookup path = some pair → ∀ job : Job, job.historicalPolicy = true →
    job.taskPath = path → ∃ settings, concurrencySettingsForJob env job none = .ok settings ∧
      pair = (settings.limit, settings.durationSeconds)

/-- A lookup that raises, through the cache. -/
theorem blockedConcurrencySettings_of_error {cache : TaskSettings} (holds : CacheHolds env cache)
    {e : PyError} (policy : concurrencySettingsForJob env job none = .error e) :
    blockedConcurrencySettings env job cache = .error e := by
  unfold blockedConcurrencySettings
  split
  · rename_i pair hit
    split at hit
    · rename_i historical
      rcases holds job.taskPath pair hit job historical rfl with ⟨settings, resolved, -⟩
      rw [policy] at resolved
      cases resolved
    · cases hit
  · rw [policy]

/-- A lookup that answers, through the cache. -/
theorem blockedConcurrencySettings_of_ok {cache : TaskSettings} (holds : CacheHolds env cache)
    {settings : ConcurrencySettings}
    (policy : concurrencySettingsForJob env job none = .ok settings) :
    ∃ cache', CacheHolds env cache' ∧ blockedConcurrencySettings env job cache =
      .ok ((settings.limit, settings.durationSeconds), cache') := by
  unfold blockedConcurrencySettings
  split
  · rename_i pair hit
    split at hit
    · rename_i historical
      rcases holds job.taskPath pair hit job historical rfl with ⟨found, resolved, rfl⟩
      rw [policy] at resolved
      cases resolved
      exact ⟨cache, holds, rfl⟩
    · cases hit
  · rw [policy]
    refine ⟨_, ?_, rfl⟩
    split
    · rename_i historical
      intro path pair hit other historical' samePath
      rw [List.lookup_cons] at hit
      split at hit
      · rename_i same
        cases hit
        refine ⟨settings, ?_, rfl⟩
        exact Accounts.settings_of_taskPath historical historical'
          (samePath.trans (beq_iff_eq.mp same)) policy
      · exact holds path pair hit other historical' samePath
    · exact holds

end Policies

/-! ## One waiter -/

/-- The row of a waiter was deleted with the batch, or is deleted when the waiter leaves. -/
def Db.withoutRow (db : Db) (consumed : Bool) (r : BlockedExecution) : Db :=
  if consumed then db else db.withoutWaiter r

/-- The failed row of a waiter whose policy is invalid. -/
def waiterFailureRow (job : Job) (message : String) (now : Time) (id : Nat) : FailedExecution :=
  { policyFailureRow job (.dispatchPolicyError message) with id := id, createdAt := now }

/-- The state tables once a waiter is settled. -/
def Db.settle (db : Db) (now : Time) (consumed : Bool) (x : BlockedExecution × Job) :
    Settlement → Db
  | .promoted => (db.withoutRow consumed x.1).withPromoted x.1.backendAlias now x.1
  | .failed message =>
      { db.withoutRow consumed x.1 with
        failed := (db.withoutRow consumed x.1).failed.insert (waiterFailureRow x.2 message now) }
  | .renewed expiresAt =>
      if consumed then
        db.withRestored x.1.backendAlias { x.1 with expiresAt := expiresAt }
      else
        { db with
          blocked := db.blocked.updateWhere (fun r => r.id == x.1.id)
            (fun r => { r with expiresAt := expiresAt }) }

/-- What a settlement is reported as. -/
def Settlement.outcome (job : Job) : Settlement → WaiterOutcome
  | promoted => .promoted job
  | failed message => .policyFailure job (.dispatchPolicyError message)
  | renewed _ => .kept

/-- Waiters that are still to be settled. -/
structure Pending (consumed : Bool) (rows : List (BlockedExecution × Job)) (db : Db) : Prop where
  numbered : WaitersNumbered db.blocked
  semaphores : SemaphoresNumbered db.semaphores
  distinct : (rows.map (fun x => x.1.jobId)).Nodup
  loaded : ∀ x ∈ rows, db.findJob x.1.jobId = some x.2 ∧ x.2.backendAlias = x.1.backendAlias
  alone : ∀ x ∈ rows, ∀ m, m ≠ .blocked → db.hasState m x.1.jobId = false
  gone : consumed = true → ∀ x ∈ rows, db.hasState .blocked x.1.jobId = false
  held : consumed = false → ∀ x ∈ rows, x.1 ∈ db.blocked.rows

section Step

variable {env : Env} {now : Time} {uuids : Nat → JobId} {consumed : Bool}
  {x : BlockedExecution × Job} {rows : List (BlockedExecution × Job)} {db : Db}

/-- Without its row a waiter has no state at all. -/
theorem Pending.free (pending : Pending consumed (x :: rows) db) (m : StateModel) :
    (db.withoutRow consumed x.1).hasState m x.1.jobId = false := by
  have alone := pending.alone x List.mem_cons_self
  cases consumed with
  | true =>
    cases m with
    | blocked => exact pending.gone rfl x List.mem_cons_self
    | ready => exact alone .ready (by decide)
    | scheduled => exact alone .scheduled (by decide)
    | claimed => exact alone .claimed (by decide)
    | failed => exact alone .failed (by decide)
  | false =>
    cases m with
    | blocked =>
      exact Db.hasState_withoutWaiter pending.numbered (pending.held rfl x List.mem_cons_self)
    | ready => exact alone .ready (by decide)
    | scheduled => exact alone .scheduled (by decide)
    | claimed => exact alone .claimed (by decide)
    | failed => exact alone .failed (by decide)

theorem findJob_withoutRow (id : JobId) :
    (db.withoutRow consumed x.1).findJob id = db.findJob id := by
  unfold Db.withoutRow
  split <;> rfl

theorem Pending.id (pending : Pending consumed (x :: rows) db) : x.2.id = x.1.jobId :=
  (mem_of_findJob (pending.loaded x List.mem_cons_self).1).2

/-- The waiter has no other state row. -/
theorem Pending.unplaced (pending : Pending consumed (x :: rows) db) (ignored : List StateModel) :
    Runs (ensureNoOtherExecutionState x.2.id ignored)
      ⟨db.withoutRow consumed x.1, fun _ => now, uuids⟩ ()
      ⟨db.withoutRow consumed x.1, fun _ => now, uuids⟩ := by
  apply runs_ensureJobIdsHaveNoOtherExecutionState
  intro id mem m _
  rw [List.mem_singleton.mp mem, pending.id]
  exact pending.free m

/-- The waiter's row names the backend of the job. -/
theorem Pending.backend (pending : Pending consumed (x :: rows) db) :
    executionBackendAlias x.2.ref x.1.backendAlias = .ok x.1.backendAlias := by
  have own : x.2.ref.backendAlias = x.1.backendAlias :=
    (pending.loaded x List.mem_cons_self).2
  rw [executionBackendAlias, if_neg (not_not.mpr own), own]
  rfl

theorem Pending.job (pending : Pending consumed (x :: rows) db) :
    ((db.withoutRow consumed x.1).findJob x.1.jobId).isSome := by
  rw [findJob_withoutRow, (pending.loaded x List.mem_cons_self).1]
  rfl

/-- The promotion of a waiter that got its slot. -/
theorem runs_promoteBlockedExecution (pending : Pending consumed (x :: rows) db) :
    Runs (promoteBlockedExecution x.1 x.2 now consumed) ⟨db, fun _ => now, uuids⟩ ()
      ⟨db.settle now consumed x .promoted, fun _ => now, uuids⟩ := by
  have taken : Runs (runIf (!consumed) (do
      let _ ← deleteRowsWhere .blocked (fun r => r.id == x.1.id)))
      ⟨db, fun _ => now, uuids⟩ () ⟨db.withoutRow consumed x.1, fun _ => now, uuids⟩ := by
    cases consumed with
    | true => exact runs_pure _ _
    | false => exact Runs.bind (runs_deleteRowsWhere .blocked _ _) (runs_pure _ _)
  refine Runs.bind taken (Runs.bind (pending.unplaced []) ?_)
  have row : readyExecutionRow x.2.ref x.1.backendAlias (some x.1.queueName) (some x.1.priority)
      now = .ok { promotedRow x.1.backendAlias now x.1 0 with createdAt := 0 } := by
    rw [readyExecutionRow, pending.backend, promotedRow, ← pending.id]
    rfl
  refine Runs.bind (runs_ofExcept row _) ?_
  exact runs_createRow (m := .ready) now uuids pending.job (pending.free .ready)

/-- The failure of a waiter with an invalid policy. -/
theorem runs_failBlockedPolicy (pending : Pending consumed (x :: rows) db) (message : String) :
    Runs (failBlockedPolicy env x.1 x.2 (.dispatchPolicyError message) consumed)
      ⟨db, fun _ => now, uuids⟩ true
      ⟨db.settle now consumed x (.failed message), fun _ => now, uuids⟩ := by
  have taken : Runs (consumeUnless consumed env .blocked BlockedExecution.id [x.1])
      ⟨db, fun _ => now, uuids⟩ [x.1] ⟨db.withoutRow consumed x.1, fun _ => now, uuids⟩ := by
    cases consumed with
    | true => exact runs_pure _ _
    | false =>
      have all := runs_consumeSelectedRows (m := .blocked) env BlockedExecution.id [x.1]
        ⟨db, fun _ => now, uuids⟩ (fun r mem => ⟨r, by
          rw [List.mem_singleton.mp mem]
          exact pending.held rfl x List.mem_cons_self, rfl⟩) (List.nodup_singleton _)
      rw [List.map_singleton, ← without_singleton] at all
      exact all
  have own : rowJobId (m := .failed) (policyFailureRow x.2 (.dispatchPolicyError message)) =
      x.1.jobId := pending.id
  have created : Runs (createRow .failed (policyFailureRow x.2 (.dispatchPolicyError message)))
      ⟨db.withoutRow consumed x.1, fun _ => now, uuids⟩ ()
      ⟨db.settle now consumed x (.failed message), fun _ => now, uuids⟩ :=
    runs_createRow (m := .failed) now uuids (own ▸ pending.job) (own ▸ pending.free .failed)
  exact Runs.bind taken (Runs.bind (pending.unplaced [.blocked])
    (Runs.bind created (runs_pure _ _)))

/-- The renewal of a waiter that got none. -/
theorem runs_renewBlockedExecution (pending : Pending consumed (x :: rows) db)
    (expiresAt : Time) :
    Runs (renewBlockedExecution x.1 x.2 expiresAt consumed) ⟨db, fun _ => now, uuids⟩ ()
      ⟨db.settle now consumed x (.renewed expiresAt), fun _ => now, uuids⟩ := by
  cases consumed with
  | false =>
    unfold renewBlockedExecution
    rw [if_neg Bool.false_ne_true]
    exact runs_modifyDb _ _
  | true =>
    unfold renewBlockedExecution
    rw [if_pos rfl]
    refine Runs.bind (pending.unplaced []) ?_
    have row : blockedExecutionRow x.2.ref x.1.backendAlias (some x.1.concurrencyKey) expiresAt
        (some x.1.queueName) (some x.1.priority) =
          .ok { x.1 with id := 0, expiresAt := expiresAt } := by
      rw [blockedExecutionRow, pending.backend,
        show ({ x.1 with id := 0, expiresAt := expiresAt } : BlockedExecution) =
          ⟨0, x.2.ref.id, x.1.backendAlias, x.1.queueName, x.1.priority, x.1.concurrencyKey,
            expiresAt⟩ by rw [show x.2.ref.id = x.1.jobId from pending.id]]
      rfl
    refine Runs.bind (runs_ofExcept row _) ?_
    exact runs_createRow (m := .blocked) now uuids pending.job (pending.free .blocked)

/-- What is pending stays pending while a slot is asked for. -/
theorem Pending.withSemaphores {t : Table Semaphore} (pending : Pending consumed rows db)
    (numbered : SemaphoresNumbered t) : Pending consumed rows { db with semaphores := t } :=
  ⟨pending.numbered, numbered, pending.distinct, pending.loaded, pending.alone, pending.gone,
    pending.held⟩

/-- Asking for a slot keeps the semaphores numbered. -/
theorem numbered_acquireSlot_snd {t t' : Table Semaphore} {key : String} {L : Int}
    {expiresAt : Time} {given : Bool} (numbered : SemaphoresNumbered t)
    (asked : acquireSlot key L expiresAt now t = (given, t')) : SemaphoresNumbered t' := by
  have after : SemaphoresNumbered (acquireSlot key L expiresAt now t).2 :=
    numbered_acquireSlot _ _ _ numbered
  rwa [asked] at after

variable (uuids) in
/-- One waiter, on either path. -/
theorem runs_promoteExpiredBlockedJob {cache : TaskSettings} (holds : CacheHolds env cache)
    (pending : Pending consumed (x :: rows) db) (fits : WaiterFits env now db.semaphores x) :
    ∃ s cache', CacheHolds env cache' ∧
      SemaphoresNumbered (askedTable env now db.semaphores x) ∧
      Runs (promoteExpiredBlockedJob env now consumed x.1 x.2 cache)
        ⟨db, fun _ => now, uuids⟩ (s.outcome x.2, cache')
        ⟨({ db with semaphores := askedTable env now db.semaphores x } : Db).settle now consumed x s,
          fun _ => now, uuids⟩ ∧
      ∀ settled t', SettlesInTurn env now (askedTable env now db.semaphores x) settled t' →
        SettlesInTurn env now db.semaphores ((x, s) :: settled) t' := by
  unfold promoteExpiredBlockedJob askedTable
  rcases policy_of_waiterFits fits with ⟨settings, policy, deadline, room⟩ | ⟨message, policy⟩
  · rw [policy]
    dsimp only
    cases asked : acquireSlot x.1.concurrencyKey settings.limit
        (now + seconds settings.durationSeconds) now db.semaphores with
    | mk given t' =>
      have numbered' := numbered_acquireSlot_snd pending.semaphores asked
      rcases blockedConcurrencySettings_of_ok holds policy with ⟨cache', holds', resolved⟩
      have acquired : Runs (semaphoreAcquire env x.1.concurrencyKey settings.limit
          settings.durationSeconds) ⟨db, fun _ => now, uuids⟩ _ _ :=
        runs_semaphoreAcquire (positive_of_concurrencySettingsForJob policy).1 pending.semaphores
          now uuids deadline room
      rw [acquire_eq, asked] at acquired
      rw [resolved]
      cases given with
      | true =>
        exact ⟨.promoted, cache', holds', numbered', Runs.bind acquired (Runs.bind
          (runs_promoteBlockedExecution (pending.withSemaphores numbered')) (runs_pure _ _)),
          fun _ _ => .promoted policy asked⟩
      | false =>
        exact ⟨.renewed (now + seconds settings.durationSeconds), cache', holds', numbered',
          Runs.bind acquired (Runs.bind (runs_addSeconds deadline _) (Runs.bind
            (runs_renewBlockedExecution (pending.withSemaphores numbered') _) (runs_pure _ _))),
          fun _ _ => .renewed policy asked⟩
  · rw [policy, blockedConcurrencySettings_of_error holds policy]
    exact ⟨.failed message, cache, holds, pending.semaphores,
      Runs.bind (runs_failBlockedPolicy pending message) (runs_pure _ _), fun _ _ => .failed policy⟩

end Step

/-! ## What a settlement touches -/

section Touches

variable {now : Time} {consumed : Bool} {x : BlockedExecution × Job}
  {rows : List (BlockedExecution × Job)} {db : Db}

theorem hasState_blocked_iff {id : JobId} :
    db.hasState .blocked id = true ↔ ∃ r ∈ db.blocked.rows, r.jobId = id := by
  rw [Db.hasState, List.contains_iff_mem, Db.stateJobIds, List.mem_map]
  rfl

/-- Settling one touches the blocked, ready and failed rows. -/
theorem frame_settle (s : Settlement) : db.settle now consumed x s = { db with
    blocked := (db.settle now consumed x s).blocked
    ready := (db.settle now consumed x s).ready
    failed := (db.settle now consumed x s).failed } := by
  cases consumed <;> cases s <;> rfl

/-- The rows of the other waiters are as they were. -/
theorem mem_blocked_settle (pending : Pending consumed (x :: rows) db) (s : Settlement)
    {r : BlockedExecution} (other : r.jobId ≠ x.1.jobId) :
    r ∈ (db.settle now consumed x s).blocked.rows ↔ r ∈ db.blocked.rows := by
  cases consumed with
  | true =>
    cases s with
    | promoted => exact Iff.rfl
    | failed message => exact Iff.rfl
    | renewed expiresAt =>
      refine List.mem_append.trans (or_iff_left fun new => other ?_)
      rw [List.mem_singleton.mp new]
      rfl
  | false =>
    have there := pending.held rfl x List.mem_cons_self
    have apart : r ∈ db.blocked.rows → (r.id == x.1.id) = false := by
      intro mem
      rw [← Bool.not_eq_true, beq_iff_eq]
      intro same
      exact other (congrArg _ (pending.numbered.eq_of_id mem there same))
    have left : r ∈ (db.withoutWaiter x.1).blocked.rows ↔ r ∈ db.blocked.rows :=
      List.mem_filter.trans (and_iff_left_of_imp fun mem => congrArg not (apart mem))
    cases s with
    | promoted => exact left
    | failed message => exact left
    | renewed expiresAt =>
      refine List.mem_map.trans ⟨?_, ?_⟩
      · rintro ⟨old, mem, isNew⟩
        split at isNew
        · rename_i hit
          have same := pending.numbered.eq_of_id mem there (beq_iff_eq.mp hit)
          rw [← isNew, same] at other
          exact absurd rfl other
        · exact isNew ▸ mem
      · intro mem
        exact ⟨r, mem, if_neg (Bool.not_eq_true _ ▸ apart mem)⟩

/-- Settling one keeps the waiters numbered. -/
theorem numbered_settle (pending : Pending consumed (x :: rows) db) (s : Settlement) :
    WaitersNumbered (db.settle now consumed x s).blocked := by
  cases consumed with
  | true =>
    cases s with
    | promoted => exact pending.numbered
    | failed message => exact pending.numbered
    | renewed expiresAt =>
      apply pending.numbered.insert (fun _ => rfl)
      intro r mem same
      have gone := pending.gone rfl x List.mem_cons_self
      rw [hasState_blocked_iff.mpr ⟨r, mem, show r.jobId = x.1.jobId from same⟩] at gone
      cases gone
  | false =>
    cases s with
    | promoted => exact pending.numbered.deleteWhere _
    | failed message => exact pending.numbered.deleteWhere _
    | renewed expiresAt => exact pending.numbered.updateWhere (fun _ => rfl) (fun _ => rfl)

theorem hasState_settle (pending : Pending consumed (x :: rows) db) (s : Settlement)
    {id : JobId} (other : id ≠ x.1.jobId) (m : StateModel) :
    (db.settle now consumed x s).hasState m id = db.hasState m id := by
  have blocked : (db.settle now consumed x s).hasState .blocked id = db.hasState .blocked id := by
    rw [Bool.eq_iff_iff, hasState_blocked_iff, hasState_blocked_iff]
    apply exists_congr
    intro r
    apply and_congr_left
    intro isId
    exact mem_blocked_settle pending s (isId ▸ other)
  have ready : (db.settle now consumed x s).hasState .ready id = db.hasState .ready id := by
    cases s with
    | promoted =>
      have inserted : ((db.withoutRow consumed x.1).withPromoted x.1.backendAlias now
          x.1).hasState .ready id = (db.withoutRow consumed x.1).hasState .ready id :=
        hasState_insert (m := .ready) (Ne.symm other)
      cases consumed <;> exact inserted
    | failed message => cases consumed <;> rfl
    | renewed expiresAt => cases consumed <;> rfl
  have failed : (db.settle now consumed x s).hasState .failed id = db.hasState .failed id := by
    cases s with
    | promoted => cases consumed <;> rfl
    | failed message =>
      have own : x.2.id ≠ id := by
        rw [pending.id]
        exact Ne.symm other
      have inserted : (db.settle now consumed x (.failed message)).hasState .failed id =
          (db.withoutRow consumed x.1).hasState .failed id := hasState_insert (m := .failed) own
      cases consumed <;> exact inserted
    | renewed expiresAt => cases consumed <;> rfl
  cases m with
  | blocked => exact blocked
  | ready => exact ready
  | failed => exact failed
  | scheduled => cases consumed <;> cases s <;> rfl
  | claimed => cases consumed <;> cases s <;> rfl

variable (now) in
theorem Pending.settle (pending : Pending consumed (x :: rows) db) (s : Settlement) :
    Pending consumed rows (db.settle now consumed x s) := by
  rcases List.nodup_cons.mp pending.distinct with ⟨fresh, distinct⟩
  have other : ∀ y ∈ rows, y.1.jobId ≠ x.1.jobId := by
    intro y mem same
    exact fresh (List.mem_map.mpr ⟨y, mem, same⟩)
  have jobs : (db.settle now consumed x s).jobs = db.jobs := by rw [frame_settle]
  have slots : (db.settle now consumed x s).semaphores = db.semaphores := by rw [frame_settle]
  refine ⟨numbered_settle pending s, slots ▸ pending.semaphores, distinct, ?_, ?_, ?_, ?_⟩
  · intro y mem
    rw [Db.findJob, jobs]
    exact pending.loaded y (List.mem_cons_of_mem x mem)
  · intro y mem m apart
    rw [hasState_settle pending s (other y mem)]
    exact pending.alone y (List.mem_cons_of_mem x mem) m apart
  · intro isConsumed y mem
    rw [hasState_settle pending s (other y mem)]
    exact pending.gone isConsumed y (List.mem_cons_of_mem x mem)
  · intro kept y mem
    exact (mem_blocked_settle pending s (other y mem)).mpr
      (pending.held kept y (List.mem_cons_of_mem x mem))

/-- What a waiter has come to stays so while others are settled. -/
theorem shows_settle_other (pending : Pending consumed (x :: rows) db) (s : Settlement)
    {waiter : BlockedExecution} (other : waiter.jobId ≠ x.1.jobId) {s' : Settlement}
    (shows : s'.Shows now waiter db) : s'.Shows now waiter (db.settle now consumed x s) := by
  have states : ∀ m, (db.settle now consumed x s).hasState m waiter.jobId =
      db.hasState m waiter.jobId := hasState_settle pending s other
  cases s' with
  | promoted =>
    unfold Settlement.Shows
    rw [states, states, states]
    exact shows
  | failed message =>
    rcases shows with ⟨unready, unblocked, r, mem, own⟩
    refine ⟨by rw [states, unready], by rw [states, unblocked], r, ?_, own⟩
    cases s with
    | failed message' => cases consumed <;> exact List.mem_append_left _ mem
    | promoted => cases consumed <;> exact mem
    | renewed expiresAt => cases consumed <;> exact mem
  | renewed expiresAt =>
    rcases shows with ⟨unready, unfailed, later, r, mem, same, expires⟩
    refine ⟨by rw [states, unready], by rw [states, unfailed], later, r, ?_, same, expires⟩
    exact (mem_blocked_settle pending s (same.job ▸ other)).mpr mem

theorem hasState_insert_same {m : StateModel} {mk : Nat → m.Row} {id : JobId}
    (own : rowJobId (mk (db.table m).nextId) = id) :
    (db.setTable m ((db.table m).insert mk)).hasState m id = true := by
  unfold Db.hasState Db.stateJobIds
  rw [Db.table_setTable_same, Table.rows_insert, List.map_append, List.contains_iff_mem]
  exact List.mem_append_right _ (List.mem_singleton.mpr own.symm)

theorem shows_settle (pending : Pending consumed (x :: rows) db) {s : Settlement}
    (later : ∀ expiresAt, s = .renewed expiresAt → now < expiresAt) :
    s.Shows now x.1 (db.settle now consumed x s) := by
  have alone := pending.alone x List.mem_cons_self
  have free := pending.free
  cases s with
  | promoted =>
    refine ⟨hasState_insert_same (m := .ready) rfl, ?_, ?_⟩
    · exact free .failed
    · exact free .blocked
  | failed message =>
    refine ⟨free .ready, free .blocked, waiterFailureRow x.2 message now _,
      List.mem_append_right _ List.mem_cons_self, pending.id, rfl, rfl⟩
  | renewed expiresAt =>
    refine ⟨?_, ?_, later expiresAt rfl, ?_⟩
    · cases consumed <;> exact alone .ready (by decide)
    · cases consumed <;> exact alone .failed (by decide)
    · cases consumed with
      | true =>
        exact ⟨_, List.mem_append_right _ List.mem_cons_self, ⟨rfl, rfl, rfl, rfl⟩, rfl⟩
      | false =>
        refine ⟨{ x.1 with expiresAt := expiresAt }, ?_, ⟨rfl, rfl, rfl, rfl⟩, rfl⟩
        refine List.mem_map.mpr ⟨x.1, pending.held rfl x List.mem_cons_self, ?_⟩
        exact if_pos (beq_self_eq_true _)

end Touches

/-! ## A batch -/

/-- What settling a batch leaves. -/
structure Leaves (now : Time) (settled : List ((BlockedExecution × Job) × Settlement))
    (db db' : Db) : Prop where
  frame : db' = { db with
    blocked := db'.blocked
    ready := db'.ready
    failed := db'.failed
    semaphores := db'.semaphores }
  numbered : WaitersNumbered db'.blocked
  semaphores : SemaphoresNumbered db'.semaphores
  shows : ∀ p ∈ settled, p.2.Shows now p.1.1 db'
  others : ∀ r, (∀ p ∈ settled, p.1.1.jobId ≠ r.jobId) →
    (r ∈ db'.blocked.rows ↔ r ∈ db.blocked.rows)
  states : ∀ id, (∀ p ∈ settled, p.1.1.jobId ≠ id) → ∀ m, db'.hasState m id = db.hasState m id
  kept : ∀ waiter (s : Settlement), (∀ p ∈ settled, p.1.1.jobId ≠ waiter.jobId) →
    s.Shows now waiter db → s.Shows now waiter db'

section Batch

variable {env : Env} {now : Time} {uuids : Nat → JobId} {consumed : Bool} {db : Db}

theorem renewed_later {t t'' : Table Semaphore} {x : BlockedExecution × Job} {s : Settlement}
    {rest : List ((BlockedExecution × Job) × Settlement)}
    (settles : SettlesInTurn env now t ((x, s) :: rest) t'') :
    ∀ expiresAt, s = .renewed expiresAt → now < expiresAt := by
  intro expiresAt isRenewed
  cases settles with
  | promoted policy given later => cases isRenewed
  | failed policy later => cases isRenewed
  | renewed policy refused later =>
    cases isRenewed
    have positive := (positive_of_concurrencySettingsForJob policy).2
    exact Int.lt_add_of_pos_right now (Int.mul_pos positive (by decide))

variable (uuids) in
/-- The loop over the batch settles each waiter in turn. -/
theorem runs_promoteExpiredLoop : ∀ {rows : List (BlockedExecution × Job)}
    {cache : TaskSettings} {db : Db}, CacheHolds env cache → Pending consumed rows db →
    WaitersFit env now db.semaphores rows →
    ∃ settled db', settled.map Prod.fst = rows ∧
      Runs (promoteExpiredLoop env now consumed rows cache)
        ⟨db, fun _ => now, uuids⟩ (settled.map (fun p => p.2.outcome p.1.2))
        ⟨db', fun _ => now, uuids⟩ ∧
      SettlesInTurn env now db.semaphores settled db'.semaphores ∧
      db'.semaphores = rows.foldl (askedTable env now) db.semaphores ∧ Leaves now settled db db'
  | [], cache, db, _, pending, _ =>
      ⟨[], db, rfl, runs_pure _ _, .nil _, rfl, rfl, pending.numbered, pending.semaphores,
        fun p mem => absurd mem List.not_mem_nil, fun _ _ => Iff.rfl, fun _ _ _ => rfl,
        fun _ _ _ shows => shows⟩
  | x :: rows, cache, db, holds, pending, fits => by
      rcases runs_promoteExpiredBlockedJob uuids holds pending fits.1 with
        ⟨s, cache', holds', numbered', first, settles⟩
      have pending' := pending.withSemaphores numbered'
      have slots : (({ db with semaphores := askedTable env now db.semaphores x } : Db).settle now
          consumed x s).semaphores = askedTable env now db.semaphores x := by
        rw [frame_settle]
      rcases runs_promoteExpiredLoop holds' (pending'.settle now s) (slots.symm ▸ fits.2) with
        ⟨settled, db', rfl, looped, inTurn, after, leaves⟩
      rw [slots] at inTurn after
      have later := renewed_later (settles settled db'.semaphores inTurn)
      refine ⟨(x, s) :: settled, db', rfl, Runs.bind first (Runs.bind looped (runs_pure _ _)),
        settles _ _ inTurn, after, ?_⟩
      have fresh : ∀ p ∈ settled, p.1.1.jobId ≠ x.1.jobId := by
        intro p mem same
        apply (List.nodup_cons.mp pending.distinct).1
        exact List.mem_map.mpr ⟨p.1, List.mem_map_of_mem mem, same⟩
      refine ⟨?_, leaves.numbered, leaves.semaphores, ?_, ?_, ?_, ?_⟩
      · rw [leaves.frame, frame_settle]
      · intro p mem
        rcases List.mem_cons.mp mem with rfl | mem
        · exact leaves.kept _ _ fresh (shows_settle pending' later)
        · exact leaves.shows p mem
      · intro r other
        rw [leaves.others r (fun p mem => other p (List.mem_cons_of_mem _ mem))]
        exact mem_blocked_settle pending' s (Ne.symm (other _ List.mem_cons_self))
      · intro id other m
        rw [leaves.states id (fun p mem => other p (List.mem_cons_of_mem _ mem))]
        exact hasState_settle pending' s (Ne.symm (other _ List.mem_cons_self)) m
      · intro waiter s' other shows
        apply leaves.kept waiter s' (fun p mem => other p (List.mem_cons_of_mem _ mem))
        apply shows_settle_other pending' s (Ne.symm (other _ List.mem_cons_self))
        cases s' <;> exact shows

/-- A waiter that was looked at without a raise. -/
theorem waiterFits_of_run {x : BlockedExecution × Job} {cache : TaskSettings}
    {result : WaiterOutcome × TaskSettings} {w : World} (holds : CacheHolds env cache)
    (run : Runs (promoteExpiredBlockedJob env now consumed x.1 x.2 cache)
      ⟨db, fun _ => now, uuids⟩ result w) : WaiterFits env now db.semaphores x := by
  unfold promoteExpiredBlockedJob at run
  unfold WaiterFits
  cases policy : concurrencySettingsForJob env x.2 none with
  | ok settings =>
    rcases blockedConcurrencySettings_of_ok holds policy with ⟨cache', -, resolved⟩
    rw [resolved] at run
    rcases Runs.of_bind run with ⟨acquired, w₁, asked, -⟩
    rcases checked_of_run_semaphoreAcquire asked with ⟨read, w₂, ticked, deadline, room, -⟩
    cases ticked
    exact ⟨deadline, room⟩
  | error e =>
    rw [blockedConcurrencySettings_of_error holds policy] at run
    cases e with
    | dispatchPolicyError message => rfl
    | _ => exact (Runs.of_throw run).elim

/-- A loop that returns has met no exception that it does not know, and nothing out of range. -/
theorem fits_of_run_promoteExpiredLoop : ∀ {rows : List (BlockedExecution × Job)}
    {cache : TaskSettings} {db : Db} {w : World} {outcomes : List WaiterOutcome},
    CacheHolds env cache → Pending consumed rows db →
    Runs (promoteExpiredLoop env now consumed rows cache) ⟨db, fun _ => now, uuids⟩ outcomes w →
    WaitersFit env now db.semaphores rows
  | [], _, _, _, _, _, _, _ => trivial
  | x :: rows, cache, db, w, outcomes, holds, pending, run => by
      rcases Runs.of_bind run with ⟨result, w₁, first, rest⟩
      rcases Runs.of_bind rest with ⟨others, w₂, looped, -⟩
      have fits := waiterFits_of_run holds first
      refine ⟨fits, ?_⟩
      rcases runs_promoteExpiredBlockedJob uuids holds pending fits with
        ⟨s, cache', holds', numbered', again, -⟩
      obtain ⟨rfl, rfl⟩ := again.unique first
      have later := fits_of_run_promoteExpiredLoop holds'
        ((pending.withSemaphores numbered').settle now s) looped
      rw [frame_settle] at later
      exact later

end Batch

/-! ## One call -/

/-- `expiredOrder` is an order. -/
theorem orders_expiredOrder : Orders expiredOrder :=
  ⟨fun _ _ _ => expiredOrder_trans, expiredOrder_total⟩

/-- Two that come before each other are one row. -/
theorem id_of_expiredOrder {r s : BlockedExecution} (before : expiredOrder r s = true)
    (after : expiredOrder s r = true) : r.id = s.id := by
  simp only [expiredOrder, blockedOrder, higherPriority, Bool.or_eq_true, Bool.and_eq_true,
    decide_eq_true_eq, beq_iff_eq] at before after
  rcases before with earlier | ⟨same, before⟩
  · rcases after with earlier' | ⟨same', -⟩
    · exact absurd earlier' (Int.lt_asymm earlier)
    · exact absurd (same' ▸ earlier) (Int.lt_irrefl _)
  · rcases after with earlier' | ⟨-, after⟩
    · exact absurd (same ▸ earlier') (Int.lt_irrefl _)
    · omega

section Call

variable {env : Env} {now : Time} {uuids : Nat → JobId} {batchSize : Int} {db : Db}

theorem mem_expiredWaiters {r : BlockedExecution} : r ∈ db.expiredWaiters env now ↔
    r ∈ db.blocked.rows ∧ r.backendAlias = env.config.backendAlias ∧ r.expiresAt ≤ now := by
  rw [Db.expiredWaiters, mem_orderBy, List.mem_filter, Bool.and_eq_true, beq_iff_eq,
    decide_eq_true_eq]

theorem map_fst_selectRelatedJob {rows : List BlockedExecution}
    (loaded : ∀ r ∈ rows, ∃ job, db.findJob r.jobId = some job) :
    (selectRelatedJob (m := .blocked) db rows).map Prod.fst = rows := by
  induction rows with
  | nil => rfl
  | cons r rows ih =>
    rcases loaded r List.mem_cons_self with ⟨job, found⟩
    have first : selectRelatedJob (m := .blocked) db (r :: rows) =
        (r, job) :: selectRelatedJob (m := .blocked) db rows := by
      apply List.filterMap_cons_some
      rw [show db.findJob (rowJobId (m := .blocked) r) = some job from found]
      rfl
    rw [first, List.map_cons, ih (fun s mem => loaded s (List.mem_cons_of_mem r mem))]

/-- With a job for each row, the first pairs are those of the first rows. -/
theorem drop_selectRelatedJob {rows : List BlockedExecution}
    (loaded : ∀ r ∈ rows, ∃ job, db.findJob r.jobId = some job) (n : Nat) :
    selectRelatedJob (m := .blocked) db (rows.drop n) =
      (selectRelatedJob (m := .blocked) db rows).drop n := by
  induction rows generalizing n with
  | nil => rw [List.drop_nil, show selectRelatedJob (m := .blocked) db [] = [] from rfl, List.drop_nil]
  | cons r rows ih =>
    cases n with
    | zero => rfl
    | succ n =>
      rcases loaded r List.mem_cons_self with ⟨job, found⟩
      have first : selectRelatedJob (m := .blocked) db (r :: rows) =
          (r, job) :: selectRelatedJob (m := .blocked) db rows := by
        apply List.filterMap_cons_some
        rw [show db.findJob (rowJobId (m := .blocked) r) = some job from found]
        rfl
      rw [first, List.drop_succ_cons, List.drop_succ_cons]
      exact ih (fun s mem => loaded s (List.mem_cons_of_mem r mem)) n

theorem Promotable.loaded_expired (good : Promotable env db) :
    ∀ r ∈ db.expiredWaiters env now, ∃ job, db.findJob r.jobId = some job := by
  intro r mem
  rcases mem_expiredWaiters.mp mem with ⟨there, own, -⟩
  rcases good.loaded r there own with ⟨job, found, -⟩
  exact ⟨job, found⟩

/-- The batch is the front of the expired. -/
theorem Promotable.map_fst_expiredBatch (good : Promotable env db) :
    (expiredBatch env now batchSize db).map Prod.fst =
      (db.expiredWaiters env now).take batchSize.toNat := by
  rw [expiredBatch, List.map_take]
  congr 1
  exact map_fst_selectRelatedJob good.loaded_expired

theorem Promotable.nodup_expiredWaiters (good : Promotable env db) :
    ((db.expiredWaiters env now).map BlockedExecution.jobId).Nodup :=
  ((orderBy_perm _ _).map _).nodup_iff.mpr (good.numbered.jobs.sublist (List.filter_sublist.map _))

/-- The rows of a batch are there, with their jobs. -/
theorem loaded_expiredBatch {x : BlockedExecution × Job}
    (mem : x ∈ expiredBatch env now batchSize db) :
    x.1 ∈ db.expiredWaiters env now ∧ db.findJob x.1.jobId = some x.2 := by
  rcases List.mem_filterMap.mp (List.mem_of_mem_take mem) with ⟨r, inside, eq⟩
  rcases Option.map_eq_some_iff.mp eq with ⟨job, found, rfl⟩
  exact ⟨inside, found⟩

/-- The tables once the batch is taken out, where it is. -/
def Db.withoutBatch (db : Db) (consumed : Bool) (batch : List (BlockedExecution × Job)) : Db :=
  if consumed then
    db.setTable .blocked (without (m := .blocked) db.blocked (batch.map (fun x => x.1.id)))
  else db

/-- Consuming the batch leaves the semaphores. -/
theorem semaphores_withoutBatch {consumed : Bool} {batch : List (BlockedExecution × Job)} :
    (db.withoutBatch consumed batch).semaphores = db.semaphores := by
  unfold Db.withoutBatch
  split <;> rfl

theorem mem_withoutBatch {consumed : Bool} {batch : List (BlockedExecution × Job)}
    (numbered : WaitersNumbered db.blocked) (there : ∀ x ∈ batch, x.1 ∈ db.blocked.rows)
    {r : BlockedExecution} (other : ∀ x ∈ batch, x.1.jobId ≠ r.jobId) :
    r ∈ (db.withoutBatch consumed batch).blocked.rows ↔ r ∈ db.blocked.rows := by
  cases consumed with
  | false => exact Iff.rfl
  | true =>
    refine List.mem_filter.trans (and_iff_left_of_imp fun mem => ?_)
    rw [Bool.not_eq_true', ← Bool.not_eq_true, List.contains_iff_mem]
    intro taken
    rcases List.mem_map.mp taken with ⟨x, inBatch, sameId⟩
    exact other x inBatch (congrArg _ (numbered.eq_of_id (there x inBatch) mem sameId))

theorem hasState_withoutBatch {consumed : Bool} {batch : List (BlockedExecution × Job)} {id : JobId}
    {m : StateModel} (other : m ≠ .blocked) :
    (db.withoutBatch consumed batch).hasState m id = db.hasState m id := by
  unfold Db.withoutBatch
  cases consumed with
  | false => rfl
  | true =>
    rw [if_pos rfl, Db.hasState, Db.stateJobIds, Db.table_setTable_ne _ _ other]
    rfl

theorem Promotable.pending (good : Promotable env db) (consumed : Bool) :
    Pending consumed (expiredBatch env now batchSize db)
      (db.withoutBatch consumed (expiredBatch env now batchSize db)) := by
  have there : ∀ x ∈ expiredBatch env now batchSize db, x.1 ∈ db.blocked.rows ∧
      x.1.backendAlias = env.config.backendAlias := by
    intro x mem
    rcases mem_expiredWaiters.mp (loaded_expiredBatch mem).1 with ⟨inside, own, -⟩
    exact ⟨inside, own⟩
  refine ⟨?_, ?_, ?_, ?_, ?_, ?_, ?_⟩
  · cases consumed with
    | false => exact good.numbered
    | true => exact good.numbered.deleteWhere _
  · cases consumed <;> exact good.semaphores
  · have part := good.nodup_expiredWaiters.sublist
      (((List.take_sublist batchSize.toNat (db.expiredWaiters env now))).map _)
    rw [← good.map_fst_expiredBatch, List.map_map] at part
    exact part
  · intro x mem
    rcases good.loaded x.1 (there x mem).1 (there x mem).2 with ⟨job, found, own⟩
    have same := (loaded_expiredBatch mem).2
    rw [found] at same
    cases same
    refine ⟨?_, own.trans (there x mem).2.symm⟩
    cases consumed <;> exact found
  · intro x mem m other
    rw [hasState_withoutBatch other]
    exact good.alone x.1 (there x mem).1 m other
  · rintro rfl x mem
    rw [← Bool.not_eq_true, hasState_blocked_iff]
    rintro ⟨r, left, sameJob⟩
    rcases List.mem_filter.mp left with ⟨inside, kept⟩
    rw [Bool.not_eq_true', ← Bool.not_eq_true, List.contains_iff_mem] at kept
    apply kept
    rw [good.numbered.eq_of_job inside (there x mem).1 sameJob]
    exact List.mem_map.mpr ⟨x, mem, rfl⟩
  · rintro rfl x mem
    exact (there x mem).1

variable (uuids) in
/-- The batch is consumed up front where the family says so. -/
theorem Promotable.runs_consumeUnless (good : Promotable env db) :
    Runs (consumeUnless (!env.config.family.usesSerializedWrites) env .blocked
        (fun r : BlockedExecution × Job => r.1.id) (expiredBatch env now batchSize db))
      ⟨db, fun _ => now, uuids⟩ (expiredBatch env now batchSize db)
      ⟨db.withoutBatch env.config.family.usesSerializedWrites (expiredBatch env now batchSize db),
        fun _ => now, uuids⟩ := by
  cases env.config.family.usesSerializedWrites with
  | false => exact runs_pure _ _
  | true =>
    exact runs_consumeSelectedRows (m := .blocked) env (fun r : BlockedExecution × Job => r.1.id)
      _ ⟨db, fun _ => now, uuids⟩ (fun x mem => ⟨x.1, (of_mem_expiredBatch mem).1, rfl⟩)
      (ids_expiredBatch good.numbered)

/-- The promoted jobs are those of the outcomes. -/
theorem promotedJobs_outcomes (settled : List ((BlockedExecution × Job) × Settlement)) :
    promotedJobs (settled.map (fun p => p.2.outcome p.1.2)) =
      settled.filterMap (fun p => p.2.promotedJob p.1.2) := by
  rw [promotedJobs, List.filterMap_map]
  apply List.filterMap_congr
  intro p _
  rcases p with ⟨x, s⟩
  cases s <;> rfl

variable (uuids) in
/-- A call on a batch that can be looked at. -/
theorem Promotable.runs_promoteExpiredBlockedJobs (good : Promotable env db)
    (nonneg : 0 ≤ batchSize)
    (fits : WaitersFit env now db.semaphores (expiredBatch env now batchSize db)) :
    ∃ settled db', settled.map Prod.fst = expiredBatch env now batchSize db ∧
      SettlesInTurn env now db.semaphores settled db'.semaphores ∧
      db'.semaphores = (expiredBatch env now batchSize db).foldl (askedTable env now)
        db.semaphores ∧
      Leaves now settled (db.withoutBatch env.config.family.usesSerializedWrites
        (expiredBatch env now batchSize db)) db' ∧
      Runs (promoteExpiredBlockedJobs env batchSize) ⟨db, fun _ => now, uuids⟩
        (settled.filterMap (fun p => p.2.promotedJob p.1.2))
        ⟨db', fun _ => now, uuids⟩ := by
  have own : ∀ x ∈ expiredBatch env now batchSize db,
      x.2.backendAlias = env.config.backendAlias := by
    intro x mem
    rcases loaded_expiredBatch mem with ⟨inside, found⟩
    rcases mem_expiredWaiters.mp inside with ⟨there, own, -⟩
    rcases good.loaded x.1 there own with ⟨job, found', own'⟩
    rw [found] at found'
    cases found'
    exact own'
  have slots : (db.withoutBatch env.config.family.usesSerializedWrites
      (expiredBatch env now batchSize db)).semaphores = db.semaphores := semaphores_withoutBatch
  rw [← slots] at fits
  have holds : CacheHolds env [] := fun _ _ hit => nomatch hit
  rcases runs_promoteExpiredLoop uuids holds (good.pending _) fits with
    ⟨settled, db', isBatch, looped, settles, after, leaves⟩
  rw [slots] at settles after
  refine ⟨settled, db', isBatch, settles, after, leaves, ?_⟩
  have sliced : Runs (sliceTo batchSize (selectRelatedJob (m := .blocked) db (orderBy expiredOrder
      (db.blocked.rows.filter (fun r => r.backendAlias == env.config.backendAlias &&
        r.expiresAt ≤ now))))) ⟨db, fun _ => now, uuids⟩ (expiredBatch env now batchSize db)
      ⟨db, fun _ => now, uuids⟩ := by
    unfold sliceTo
    rw [if_neg (by omega)]
    exact runs_pure _ _
  rw [← promotedJobs_outcomes]
  exact Runs.bind (runs_timezoneNow _) (runs_atomic (Runs.bind (runs_getDb _) (Runs.bind sliced
    (Runs.bind (runs_ensureStateRowsBelongToBackend own) (Runs.bind (good.runs_consumeUnless uuids)
      (Runs.bind looped (runs_pure _ _)))))))

/-! ### After the call -/

section After

variable {settled : List ((BlockedExecution × Job) × Settlement)} {db' : Db} {consumed : Bool}

/-- The rows of a batch are blocked rows. -/
theorem row_expiredBatch : ∀ x ∈ expiredBatch env now batchSize db, x.1 ∈ db.blocked.rows :=
  fun _ mem => (of_mem_expiredBatch mem).1

/-- Quantifying over the batch or over what settled it. -/
theorem batch_iff_settled (isBatch : settled.map Prod.fst = expiredBatch env now batchSize db)
    {P : BlockedExecution × Job → Prop} :
    (∀ x ∈ expiredBatch env now batchSize db, P x) ↔ ∀ p ∈ settled, P p.1 := by
  rw [← isBatch]
  exact List.forall_mem_map

/-- The waiters outside the batch stay. -/
theorem Leaves.others' (good : Promotable env db)
    (isBatch : settled.map Prod.fst = expiredBatch env now batchSize db)
    (leaves : Leaves now settled (db.withoutBatch consumed (expiredBatch env now batchSize db)) db')
    {r : BlockedExecution}
    (other : ∀ x ∈ expiredBatch env now batchSize db, x.1.jobId ≠ r.jobId) :
    r ∈ db'.blocked.rows ↔ r ∈ db.blocked.rows := by
  rw [leaves.others r ((batch_iff_settled isBatch).mp other)]
  exact mem_withoutBatch good.numbered row_expiredBatch other

theorem Leaves.frame' (leaves : Leaves now settled
      (db.withoutBatch consumed (expiredBatch env now batchSize db)) db') :
    db' = { db with
      blocked := db'.blocked
      ready := db'.ready
      failed := db'.failed
      semaphores := db'.semaphores } := by
  rw [leaves.frame]
  cases consumed <;> rfl

/-- A waiter of the batch that still waits does so on a renewed row. -/
theorem Leaves.renewed (leaves : Leaves now settled
      (db.withoutBatch consumed (expiredBatch env now batchSize db)) db')
    {p : (BlockedExecution × Job) × Settlement} (mem : p ∈ settled) {r : BlockedExecution}
    (there : r ∈ db'.blocked.rows) (same : r.jobId = p.1.1.jobId) :
    now < r.expiresAt ∧ db'.hasState .ready r.jobId = false ∧
      db'.hasState .failed r.jobId = false := by
  have shows := leaves.shows p mem
  have blocked := hasState_blocked_iff.mpr ⟨r, there, same⟩
  rw [same]
  cases isSettled : p.2 with
  | promoted =>
    rw [isSettled] at shows
    rw [shows.2.2] at blocked
    cases blocked
  | failed message =>
    rw [isSettled] at shows
    rw [shows.2.1] at blocked
    cases blocked
  | renewed expiresAt =>
    rw [isSettled] at shows
    rcases shows with ⟨unready, unfailed, later, r', mem', waiter, expires⟩
    rw [leaves.numbered.eq_of_job there mem' (same.trans waiter.job.symm), expires]
    exact ⟨later, unready, unfailed⟩

/-- The state left can be promoted from again. -/
theorem Leaves.promotable (good : Promotable env db)
    (isBatch : settled.map Prod.fst = expiredBatch env now batchSize db)
    (leaves : Leaves now settled (db.withoutBatch consumed (expiredBatch env now batchSize db))
      db') : Promotable env db' := by
  have frame := leaves.frame'
  have jobs : db'.jobs = db.jobs := by rw [frame]
  refine ⟨leaves.numbered, leaves.semaphores, fun r mem own => ?_, fun r mem m apart => ?_⟩
  · by_cases batched : ∃ p ∈ settled, p.1.1.jobId = r.jobId
    · rcases batched with ⟨p, inside, same⟩
      have inBatch : p.1 ∈ expiredBatch env now batchSize db := by
        rw [← isBatch]
        exact List.mem_map_of_mem inside
      rcases mem_expiredWaiters.mp (loaded_expiredBatch inBatch).1 with ⟨there, own', -⟩
      rcases good.loaded p.1.1 there own' with ⟨job, found, isOwn⟩
      rw [Db.findJob, jobs, ← same]
      exact ⟨job, found, isOwn⟩
    · push Not at batched
      have there := (leaves.others' good isBatch ((batch_iff_settled isBatch).mpr batched)).mp mem
      rw [Db.findJob, jobs]
      exact good.loaded r there own
  · by_cases batched : ∃ p ∈ settled, p.1.1.jobId = r.jobId
    · rcases batched with ⟨p, inside, same⟩
      rcases leaves.renewed inside mem same.symm with ⟨-, unready, unfailed⟩
      have inBatch : p.1 ∈ expiredBatch env now batchSize db := by
        rw [← isBatch]
        exact List.mem_map_of_mem inside
      have alone := good.alone p.1.1 (row_expiredBatch _ inBatch)
      rw [same] at alone
      cases m with
      | ready => exact unready
      | failed => exact unfailed
      | blocked => exact absurd rfl apart
      | scheduled =>
        rw [frame]
        exact alone .scheduled (by decide)
      | claimed =>
        rw [frame]
        exact alone .claimed (by decide)
    · push Not at batched
      have there := (leaves.others' good isBatch ((batch_iff_settled isBatch).mpr batched)).mp mem
      rw [leaves.states r.jobId batched, hasState_withoutBatch apart]
      exact good.alone r there m apart

/-- The expired waiters left are those behind the batch. -/
theorem Leaves.expiredWaiters (good : Promotable env db)
    (isBatch : settled.map Prod.fst = expiredBatch env now batchSize db)
    (leaves : Leaves now settled (db.withoutBatch consumed (expiredBatch env now batchSize db))
      db') :
    db'.expiredWaiters env now = (db.expiredWaiters env now).drop batchSize.toNat := by
  have jobs : ((db.expiredWaiters env now).map BlockedExecution.jobId).Nodup :=
    good.nodup_expiredWaiters
  have apart := jobs
  rw [← List.take_append_drop batchSize.toNat (db.expiredWaiters env now), List.map_append,
    ← good.map_fst_expiredBatch] at apart
  have apart := (List.nodup_append.mp apart).2.2
  have sorted := orders_expiredOrder.pairwise (db.blocked.rows.filter (fun r =>
    r.backendAlias == env.config.backendAlias && r.expiresAt ≤ now))
  refine (orders_expiredOrder.eq_orderBy ?_ (sorted.sublist (List.drop_sublist _ _)) ?_).symm
  · intro r mem s mem' before after
    exact leaves.numbered.eq_of_id (List.mem_of_mem_filter mem) (List.mem_of_mem_filter mem')
      (id_of_expiredOrder before after)
  · refine (List.perm_ext_iff_of_nodup (jobs.of_map.sublist (List.drop_sublist _ _))
      (leaves.numbered.ids.of_map.filter _)).mpr fun r => ?_
    have mem_filter : r ∈ db'.blocked.rows.filter (fun r =>
        r.backendAlias == env.config.backendAlias && r.expiresAt ≤ now) ↔
        r ∈ db'.blocked.rows ∧ r.backendAlias = env.config.backendAlias ∧ r.expiresAt ≤ now := by
      rw [List.mem_filter, Bool.and_eq_true, beq_iff_eq, decide_eq_true_eq]
    rw [mem_filter]
    constructor
    · intro left
      rcases mem_expiredWaiters.mp (List.mem_of_mem_drop left) with ⟨there, own, expired⟩
      refine ⟨(leaves.others' good isBatch fun x inBatch same => ?_).mpr there, own, expired⟩
      refine apart _ (List.mem_map.mpr ⟨x.1, List.mem_map_of_mem inBatch, rfl⟩) _
        (List.mem_map.mpr ⟨r, left, rfl⟩) same
    · rintro ⟨there, own, expired⟩
      by_cases batched : ∃ p ∈ settled, p.1.1.jobId = r.jobId
      · rcases batched with ⟨p, inside, same⟩
        exact absurd expired (Int.not_le.mpr (leaves.renewed inside there same.symm).1)
      · push Not at batched
        have unbatched := (batch_iff_settled (P := fun x => x.1.jobId ≠ r.jobId) isBatch).mpr batched
        have old := (leaves.others' good isBatch unbatched).mp there
        have inside : r ∈ (db.expiredWaiters env now).take batchSize.toNat ++
            (db.expiredWaiters env now).drop batchSize.toNat := by
          rw [List.take_append_drop]
          exact mem_expiredWaiters.mpr ⟨old, own, expired⟩
        rcases List.mem_append.mp inside with front | back
        · rw [← good.map_fst_expiredBatch] at front
          rcases List.mem_map.mp front with ⟨x, inBatch, isRow⟩
          exact absurd (congrArg _ isRow) (unbatched x inBatch)
        · exact back

/-- The batch settled, seen in the state before it. -/
theorem Leaves.settlesBatch (good : Promotable env db)
    (isBatch : settled.map Prod.fst = expiredBatch env now batchSize db)
    (settles : SettlesInTurn env now db.semaphores settled db'.semaphores)
    (leaves : Leaves now settled (db.withoutBatch consumed (expiredBatch env now batchSize db))
      db') :
    SettlesBatch env now ((db.expiredWaiters env now).take batchSize.toNat)
      (settled.filterMap (fun p => p.2.promotedJob p.1.2)) db db' := by
  refine ⟨leaves.frame', ⟨settled, ?_, settles, fun p mem => ⟨?_, leaves.shows p mem⟩, rfl⟩, ?_⟩
  · rw [← good.map_fst_expiredBatch, ← isBatch, List.map_map]
    rfl
  · have inBatch : p.1 ∈ expiredBatch env now batchSize db := by
      rw [← isBatch]
      exact List.mem_map_of_mem mem
    exact (loaded_expiredBatch inBatch).2
  · intro r other
    apply leaves.others' good isBatch
    intro x inBatch
    apply other
    rw [← good.map_fst_expiredBatch]
    exact List.mem_map_of_mem inBatch

end After

end Call

/-! ## Call after call -/

section Calls

variable {env : Env} {now : Time} {uuids : Nat → JobId} {batchSize : Int} {db : Db}

/-- A call that returns could look at its batch. -/
theorem fits_of_returned {jobs : List Job}
    (result : returned (promoteExpiredBlockedJobs env batchSize) ⟨db, fun _ => now, uuids⟩ =
      some jobs) (good : Promotable env db) :
    WaitersFit env now db.semaphores (expiredBatch env now batchSize db) := by
  rcases Runs.of_bind (runs_of_returned result) with ⟨reading, w₁, read, rest⟩
  cases read
  rcases Runs.of_bind (Runs.of_atomic rest) with ⟨db', w₂, got, rest₁⟩
  rcases of_run_getDb got with ⟨isDb, same₂⟩
  rw [isDb, same₂] at rest₁
  rcases Runs.of_bind rest₁ with ⟨rows, w₃, sliced, rest₂⟩
  rcases of_run_sliceTo sliced with ⟨isBatch, same₃⟩
  rw [same₃] at rest₂
  rcases Runs.of_bind rest₂ with ⟨u, w₄, checked, rest₃⟩
  rw [(of_run_ensureStateRowsBelongToBackend (m := .blocked) checked).1] at rest₃
  rcases Runs.of_bind rest₃ with ⟨consumed, w₅, taken, rest₄⟩
  rcases Runs.of_bind rest₄ with ⟨outcomes, w₆, looped, -⟩
  have isBatch : rows = expiredBatch env now batchSize db := isBatch
  rw [isBatch] at taken
  cases taken.symm.trans (good.runs_consumeUnless uuids)
  have holds : CacheHolds env [] := fun _ _ hit => nomatch hit
  have fits := fits_of_run_promoteExpiredLoop holds (good.pending _) looped
  rw [semaphores_withoutBatch] at fits
  exact fits

variable (uuids) in
/-- One call, at one time. -/
theorem Promotable.promotes (good : Promotable env db) (nonneg : 0 ≤ batchSize)
    (fits : WaitersFit env now db.semaphores (expiredBatch env now batchSize db)) :
    ∃ jobs db', Runs (promoteExpiredBlockedJobs env batchSize) ⟨db, fun _ => now, uuids⟩ jobs
        ⟨db', fun _ => now, uuids⟩ ∧
      SettlesBatch env now ((db.expiredWaiters env now).take batchSize.toNat) jobs db db' ∧
      Promotable env db' ∧
      db'.semaphores = (expiredBatch env now batchSize db).foldl (askedTable env now)
        db.semaphores ∧
      db'.expiredWaiters env now = (db.expiredWaiters env now).drop batchSize.toNat := by
  rcases good.runs_promoteExpiredBlockedJobs uuids nonneg fits with
    ⟨settled, db', isBatch, settles, after, leaves, ran⟩
  exact ⟨_, db', ran, leaves.settlesBatch good isBatch settles, leaves.promotable good isBatch,
    after, leaves.expiredWaiters good isBatch⟩

theorem promotions_succ_of_runs {calls : Nat} {jobs : List Job} {db' : Db}
    (ran : Runs (promoteExpiredBlockedJobs env batchSize)
      ⟨promotions env batchSize now uuids db calls, fun _ => now, uuids⟩ jobs
      ⟨db', fun _ => now, uuids⟩) : promotions env batchSize now uuids db (calls + 1) = db' := by
  rw [promotions, Runs.finalState_eq ran]

/-- With nobody waiting too long a call does nothing. -/
theorem runs_promoteExpiredBlockedJobs_nobody (nonneg : 0 ≤ batchSize)
    (nobody : db.expiredWaiters env now = []) :
    Runs (promoteExpiredBlockedJobs env batchSize) ⟨db, fun _ => now, uuids⟩ []
      ⟨db, fun _ => now, uuids⟩ := by
  have sliced : Runs (sliceTo batchSize (selectRelatedJob (m := .blocked) db
      (db.expiredWaiters env now))) ⟨db, fun _ => now, uuids⟩ [] ⟨db, fun _ => now, uuids⟩ := by
    rw [nobody, show selectRelatedJob (m := .blocked) db [] = [] from rfl]
    unfold sliceTo
    rw [if_neg (by omega), List.take_nil]
    exact runs_pure _ _
  have taken : Runs (consumeUnless (!env.config.family.usesSerializedWrites) env .blocked
      (fun r : BlockedExecution × Job => r.1.id) []) ⟨db, fun _ => now, uuids⟩ []
      ⟨db, fun _ => now, uuids⟩ := by
    cases serialized : env.config.family.usesSerializedWrites with
    | false => exact runs_pure _ _
    | true =>
      unfold consumeUnless consumeSelectedRows
      rw [serialized]
      exact runs_pure _ _
  exact Runs.bind (runs_timezoneNow _) (runs_atomic (Runs.bind (runs_getDb _) (Runs.bind sliced
    (Runs.bind (runs_ensureStateRowsBelongToBackend fun x mem => absurd mem List.not_mem_nil)
      (Runs.bind taken (Runs.bind (runs_pure _ _) (runs_pure _ _)))))))

/-- Where repeated calls have got to. -/
structure PromotionsReach (env : Env) (batchSize : Int) (now : Time) (uuids : Nat → JobId) (db : Db)
    (calls : Nat) : Prop where
  good : Promotable env (promotions env batchSize now uuids db calls)
  jobs : (promotions env batchSize now uuids db calls).jobs = db.jobs
  queue : (promotions env batchSize now uuids db calls).expiredWaiters env now =
    (db.expiredWaiters env now).drop (calls * batchSize.toNat)
  slots : (promotions env batchSize now uuids db calls).semaphores =
    ((selectRelatedJob (m := .blocked) db (db.expiredWaiters env now)).take
      (calls * batchSize.toNat)).foldl (askedTable env now) db.semaphores

namespace PromotionsReach

variable {calls : Nat}

theorem zero (good : Promotable env db) : PromotionsReach env batchSize now uuids db 0 :=
  ⟨good, rfl, by rw [Nat.zero_mul]; rfl, by rw [Nat.zero_mul]; rfl⟩

/-- A call looks at the next ones of the waiters that had expired at the start. -/
theorem batch (reached : PromotionsReach env batchSize now uuids db calls)
    (start : Promotable env db) :
    expiredBatch env now batchSize (promotions env batchSize now uuids db calls) =
      ((selectRelatedJob (m := .blocked) db (db.expiredWaiters env now)).drop
        (calls * batchSize.toNat)).take batchSize.toNat := by
  have same : ∀ rows : List BlockedExecution,
      selectRelatedJob (m := .blocked) (promotions env batchSize now uuids db calls) rows =
        selectRelatedJob (m := .blocked) db rows := by
    intro rows
    unfold selectRelatedJob
    apply List.filterMap_congr
    intro r _
    rw [Db.findJob, Db.findJob, reached.jobs]
  rw [show expiredBatch env now batchSize (promotions env batchSize now uuids db calls) =
    (selectRelatedJob (m := .blocked) (promotions env batchSize now uuids db calls)
      ((promotions env batchSize now uuids db calls).expiredWaiters env now)).take
        batchSize.toNat from rfl, reached.queue, same]
  congr 1
  exact drop_selectRelatedJob start.loaded_expired _

/-- One call more reaches a batch further. -/
theorem next (reached : PromotionsReach env batchSize now uuids db calls)
    (start : Promotable env db) (nonneg : 0 ≤ batchSize)
    (fits : WaitersFit env now (promotions env batchSize now uuids db calls).semaphores
      (expiredBatch env now batchSize (promotions env batchSize now uuids db calls))) :
    PromotionsReach env batchSize now uuids db (calls + 1) ∧
      ∃ jobs, returned (promoteExpiredBlockedJobs env batchSize)
          ⟨promotions env batchSize now uuids db calls, fun _ => now, uuids⟩ = some jobs ∧
        SettlesBatch env now (((db.expiredWaiters env now).drop (calls * batchSize.toNat)).take
          batchSize.toNat) jobs (promotions env batchSize now uuids db calls)
          (promotions env batchSize now uuids db (calls + 1)) := by
  rcases reached.good.promotes uuids nonneg fits with
    ⟨jobs, db', ran, settles, after, slots, left⟩
  have next := promotions_succ_of_runs ran
  rw [reached.queue] at settles left
  refine ⟨⟨next ▸ after, ?_, ?_, ?_⟩, jobs, Runs.returned_eq ran, next ▸ settles⟩
  · rw [next, settles.frame]
    exact reached.jobs
  · rw [next, left, List.drop_drop, Nat.succ_mul]
  · rw [next, slots, reached.batch start, reached.slots, ← List.foldl_append, Nat.succ_mul,
      List.take_add]

/-- What the calls so far have looked at could be looked at. -/
theorem fits_succ (reached : PromotionsReach env batchSize now uuids db calls)
    (start : Promotable env db) :
    WaitersFit env now db.semaphores ((selectRelatedJob (m := .blocked) db
        (db.expiredWaiters env now)).take ((calls + 1) * batchSize.toNat)) ↔
      WaitersFit env now db.semaphores ((selectRelatedJob (m := .blocked) db
        (db.expiredWaiters env now)).take (calls * batchSize.toNat)) ∧
      WaitersFit env now (promotions env batchSize now uuids db calls).semaphores
        (expiredBatch env now batchSize (promotions env batchSize now uuids db calls)) := by
  rw [Nat.succ_mul, List.take_add, waitersFit_append, reached.batch start, reached.slots]

end PromotionsReach

end Calls

/-! ## Where it holds -/

/-- Between operations a backend's waiters are jobs of its own that wait and nothing else. -/
theorem Accounts.promotable {a : Audit} {db : Db} (good : Accounts a [] 0 db) :
    Promotable a.env db := by
  refine ⟨⟨good.rowIds .blocked, good.stateJobIds_nodup .blocked, good.rowBound .blocked⟩,
    good.semaphores, fun r mem own => ?_, fun r mem m apart => ?_⟩
  · rcases List.mem_map.mp (good.rowFits .blocked r mem).job with ⟨j, there, isJob⟩
    rcases (good.rowFits .blocked r mem).columns with ⟨i, known, fits⟩
    have identity := (good.knows j there).identity
    rw [isJob, known] at identity
    have backend := fits.backend r.backendAlias rfl
    rw [Option.some.inj identity] at backend
    refine ⟨j, ?_, backend.symm.trans own⟩
    have found := good.findJob_of_mem there
    rwa [isJob] at found
  · have waits : r.jobId ∈ db.stateJobIds .blocked := List.mem_map.mpr ⟨r, mem, rfl⟩
    rw [← Bool.not_eq_true, Db.hasState, List.contains_iff_mem]
    intro other
    rcases good.job_of_mem_stateJobIds waits with ⟨j, there, isJob⟩
    have one := good.places j there
    rw [places_eq, isJob] at one
    have counted := List.count_pos_iff.mpr waits
    have counted' := List.count_pos_iff.mpr other
    cases m with
    | blocked => exact apart rfl
    | ready | scheduled | claimed | failed =>
      rw [List.count_nil] at one
      omega

/-- One slot, three waiters whose time is over: the second has a policy without a limit. -/
def threeWaiters : Db :=
  { Db.empty with
    jobs := [waitingJob 1, { waitingJob 2 with concurrencyLimit := none }, waitingJob 3]
    blocked := ⟨[⟨1, 1, "default", "default", 0, "account", 10⟩,
      ⟨2, 2, "default", "default", 0, "account", 10⟩,
      ⟨3, 3, "default", "default", 0, "account", 10⟩], 4⟩ }

/-- Three waiters that can be promoted. -/
theorem promotable_threeWaiters : Promotable (Env.ofConfig { family := .sqlite }) threeWaiters where
  numbered := ⟨by decide, by decide, by decide⟩
  semaphores := ⟨by decide, by decide, by decide, by decide⟩
  loaded := by decide
  alone r mem m apart := by
    cases m with
    | blocked => exact absurd rfl apart
    | ready | scheduled | claimed | failed => rfl

/-- The module of the task raises something else than `ImportError`. -/
def raisingImport : Env :=
  { Env.ofConfig { family := .sqlite } with importString := fun _ => .error (.valueError "setting") }

/-- The first waiter has no policy of its own, the second one has, and its slot is free. -/
def historicalInFront : Db :=
  { Db.empty with
    jobs := [{ waitingJob 1 with
      concurrencyLimit := none, concurrencyDuration := none, concurrencyOnConflict := none },
      { waitingJob 2 with concurrencyKey := some "other" }]
    blocked := ⟨[⟨1, 1, "default", "default", 0, "account", 10⟩,
      ⟨2, 2, "default", "default", 0, "other", 20⟩], 3⟩ }

end DjQueue
