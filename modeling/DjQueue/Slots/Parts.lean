import DjQueue.Accounting.Selection
import DjQueue.Operations.Recovery

/-!
# Sessions that leave a part of the database alone

Most helpers of a transition write one table.  `Spares part x` says that `x`, whenever it returns,
left `part` of the database as it was: the semaphores, or the table of the waiters.
-/

namespace DjQueue

open Relational

section Parts

variable {γ α β : Type} {part : Db → γ}

/-- A part of the database is the same in two worlds. -/
def SamePart (part : Db → γ) (w w' : World) : Prop := part w'.db = part w.db

/-- Every run leaves the part alone. -/
def Spares (part : Db → γ) (x : Op α) : Prop := Relates (SamePart part) x

/-- The part does not see this state table. -/
def Apart (part : Db → γ) (m : StateModel) : Prop := ∀ db t, part (db.setTable m t) = part db

theorem apart_semaphores (m : StateModel) : Apart Db.semaphores m := fun db t =>
  Db.semaphores_setTable db m t

/-- The waiting rows are one of five state tables. -/
theorem apart_blocked {m : StateModel} (other : m ≠ .blocked) : Apart Db.blocked m := fun db t =>
  Db.table_setTable_ne db t (Ne.symm other)

namespace Spares

theorem pure (a : α) : Spares part (Pure.pure a : Op α) :=
  Relates.pure (R := SamePart part) (fun _ => rfl) a

theorem throw (e : PyError) : Spares part (throw e : Op α) := Relates.throw e

theorem bind {x : Op α} {f : α → Op β} (first : Spares part x) (second : ∀ a, Spares part (f a)) :
    Spares part (x >>= f) :=
  Relates.bind (R := SamePart part) (fun _ _ _ before after => after.trans before) first second

/-- A step that is skipped under a condition. -/
theorem runIf (c : Bool) {x : Op Unit} (body : Spares part x) : Spares part (runIf c x) :=
  Relates.runIf (R := SamePart part) (fun _ => rfl) c body

theorem ofExcept (x : Except PyError α) : Spares part (MonadExcept.ofExcept x : Op α) :=
  Relates.ofExcept (R := SamePart part) (fun _ => rfl) x

theorem of_reads {x : Op α} (reads : Reads x) : Spares part x := by
  intro w a w' run
  rw [SamePart, reads.returns _ _ _ run]

/-- One write, by what it does to every database. -/
theorem modifyDb {f : Db → Db} (same : ∀ db, part (f db) = part db) :
    Spares part (modifyDb f) := by
  intro w u w' run
  rw [SamePart, of_run_modifyDb run, same]

/-! ## Checks -/

theorem ensureJobIdsHaveNoOtherExecutionState (ids : List JobId) (ignored : List StateModel) :
    Spares part (ensureJobIdsHaveNoOtherExecutionState ids ignored) := by
  refine bind (of_reads Reads.getDb) fun db => ?_
  split
  · exact pure _
  · exact throw _

theorem ensureStateRowsBelongToBackend {m : StateModel} (rows : List (m.Row × Job))
    (backendAlias : String) : Spares part (ensureStateRowsBelongToBackend rows backendAlias) := by
  unfold DjQueue.ensureStateRowsBelongToBackend
  split
  · exact pure _
  · exact throw _

/-! ## State tables -/

/-- An insert into a state table that is no part of it. -/
theorem insertRow {m : StateModel} (apart : Apart part m) (jobId : JobId) (mk : Nat → m.Row) :
    Spares part (insertRow m jobId mk) := by
  refine bind (of_reads Reads.getDb) fun db => ?_
  split
  · exact throw _
  · exact modifyDb fun db => apart db _

/-- An insert with the time of the clock. -/
theorem createRow {m : StateModel} (apart : Apart part m) (row : m.Row) :
    Spares part (createRow m row) :=
  bind (of_reads Reads.timezoneNow) fun _ => insertRow apart _ _

theorem createReadyExecution (apart : Apart part .ready) (job : JobRef) (backendAlias : String)
    (queueName : Option String) (priority : Option Int) (readyAt : Time) (checkConflicts : Bool) :
    Spares part (createReadyExecution job backendAlias queueName priority readyAt checkConflicts) :=
  bind (runIf _ (ensureJobIdsHaveNoOtherExecutionState _ _)) fun _ =>
    bind (ofExcept _) fun _ => createRow (m := .ready) apart _

theorem createScheduledExecution (apart : Apart part .scheduled) (job : Job)
    (backendAlias : String) (scheduledAt : Option Time) (checkConflicts : Bool) :
    Spares part (createScheduledExecution job backendAlias scheduledAt checkConflicts) :=
  bind (runIf _ (ensureJobIdsHaveNoOtherExecutionState _ _)) fun _ =>
    bind (ofExcept _) fun _ => createRow (m := .scheduled) apart _

theorem createBlockedExecution (apart : Apart part .blocked) (job : JobRef) (backendAlias : String)
    (key : Option String) (expiresAt : Time) (queueName : Option String) (priority : Option Int)
    (checkConflicts : Bool) :
    Spares part (createBlockedExecution job backendAlias key expiresAt queueName priority
      checkConflicts) :=
  bind (runIf _ (ensureJobIdsHaveNoOtherExecutionState _ _)) fun _ =>
    bind (ofExcept _) fun _ => createRow (m := .blocked) apart _

/-- State rows that are created one by one. -/
theorem bulkCreate {m : StateModel} (apart : Apart part m) (rows : List m.Row) :
    Spares part (bulkCreate m rows) :=
  Relates.forM (R := SamePart part) (fun _ => rfl)
    (fun _ _ _ before after => after.trans before) (createRow apart) rows

theorem bulkCreateReadyExecutions (apart : Apart part .ready) (rows : List ReadyExecution)
    (checkConflicts : Bool) : Spares part (bulkCreateReadyExecutions rows checkConflicts) := by
  unfold DjQueue.bulkCreateReadyExecutions
  split
  · exact pure _
  · refine bind (runIf _ (ensureJobIdsHaveNoOtherExecutionState _ _)) fun _ => ?_
    exact Relates.forM (R := SamePart part) (fun _ => rfl)
      (fun _ _ _ before after => after.trans before) (createRow (m := .ready) apart) rows

/-- The ready row of a waiter, with the check in the statement. -/
theorem createReadyExecutionAfterBlockedConsume (apart : Apart part .ready) (job : JobRef)
    (backendAlias : String) (readyAt : Time) :
    Spares part (createReadyExecutionAfterBlockedConsume job backendAlias readyAt) := by
  refine bind (bind (of_reads Reads.getDb) fun db => ?_) fun _ => runIf _ (throw _)
  split
  · exact pure _
  · exact bind (insertRow (m := .ready) apart _ _) fun _ => pure _

theorem deleteRowsWhere {m : StateModel} (apart : Apart part m) (p : m.Row → Bool) :
    Spares part (deleteRowsWhere m p) := by
  intro w n w' run
  rw [SamePart, (of_run_deleteRowsWhere run).2, apart]

/-- State rows that are deleted one by one. -/
theorem consumeEachRow {m : StateModel} (apart : Apart part m) (pk : β → Nat) :
    ∀ rows : List β, Spares part (consumeEachRow m pk rows)
  | [] => pure _
  | _ :: rows => bind (deleteRowsWhere apart _) fun _ =>
      bind (consumeEachRow apart pk rows) fun _ => pure _

/-- Both ways to consume a list of state rows. -/
theorem consumeSelectedRows {m : StateModel} (apart : Apart part m) (env : Env) (pk : β → Nat)
    (rows : List β) : Spares part (consumeSelectedRows env m pk rows) := by
  unfold DjQueue.consumeSelectedRows
  split
  · exact consumeEachRow apart pk rows
  · exact bind (deleteRowsWhere apart _) fun _ => pure _

/-- The first waiter is deleted where it is found. -/
theorem consumeNextBlockedJob (apart : Apart part .blocked) (env : Env) (key : String) :
    Spares part (consumeNextBlockedJob env key) := by
  refine bind (of_reads Reads.getDb) fun db => ?_
  split
  · exact pure _
  · split
    · exact bind (deleteRowsWhere (m := .blocked) apart _) fun _ => pure _
    · exact bind (ensureStateRowsBelongToBackend (m := .blocked) _ _) fun _ =>
        bind (consumeSelectedRows (m := .blocked) apart env _ _) fun _ => pure _

/-! ## Jobs -/

theorem updateJobsWhere (apart : ∀ db jobs, part { db with jobs := jobs } = part db)
    (p : Job → Bool) (f : Job → Job) : Spares part (updateJobsWhere p f) :=
  modifyDb fun db => apart db _

theorem finishJobIfNoExecutionState (apart : ∀ db jobs, part { db with jobs := jobs } = part db)
    (job : Job) (returnValue : Option String) (finishedAt : Time) (includeClaimed : Bool) :
    Spares part (finishJobIfNoExecutionState job returnValue finishedAt includeClaimed) :=
  bind (of_reads Reads.getDb) fun _ => bind (updateJobsWhere apart _ _) fun _ =>
    runIf _ (throw _)

/-! ## Slots -/

section Slots

variable (apart : ∀ db t, part { db with semaphores := t } = part db)

include apart

theorem saveSemaphore (key : String) (f : Semaphore → Semaphore) :
    Spares part (saveSemaphore key f) := modifyDb fun db => apart db _

theorem insertSemaphore (mk : Nat → Semaphore) : Spares part (insertSemaphore mk) :=
  modifyDb fun db => apart db _

theorem updateSemaphore (order : EvaluationOrder) (key : String) (u : Update Semaphore) :
    Spares part (updateSemaphore order key u) :=
  bind (of_reads Reads.getDb) fun _ => bind (saveSemaphore apart _ _) fun _ => pure _

/-- A statement on slots is one update. -/
theorem updateSlots (family : BackendFamily) (key : String) (statement : SlotStatement) :
    Spares part (updateSlots family key statement) :=
  bind (of_reads Reads.getDb) fun _ => bind (of_reads (Reads.ensureFits _ _)) fun _ =>
    updateSemaphore apart _ _ _

/-- Both ways to release a slot update one semaphore. -/
theorem semaphoreRelease (env : Env) (key : String) (limit duration : Int) :
    Spares part (semaphoreRelease env key limit duration) :=
  bind (of_reads Reads.timezoneNow) fun _ => bind (of_reads (Reads.ofExcept _)) fun _ =>
    bind (updateSlots apart _ _ _) fun _ => pure _

/-- Both ways to acquire a slot for a waiter. -/
theorem acquireHandoffSlot (env : Env) (mode : SlotHandoffMode) (key : String)
    (limit duration : Int) (now : Time) :
    Spares part (acquireHandoffSlot env mode key limit duration now) := by
  cases mode with
  | releaseClaimed =>
      exact bind (of_reads (Reads.ofExcept _)) fun _ => bind (updateSlots apart _ _ _) fun _ =>
        pure _
  | consumeReleased =>
      exact bind (of_reads (Reads.ofExcept _)) fun _ => bind (updateSlots apart _ _ _) fun _ =>
        pure _

theorem semaphoreAcquireMany (env : Env) (key : String) (count limit duration : Int) :
    Spares part (semaphoreAcquireMany env key count limit duration) := by
  unfold DjQueue.semaphoreAcquireMany
  split
  · exact pure _
  · refine bind (of_reads Reads.timezoneNow) fun now => bind (of_reads (Reads.ofExcept _))
      fun expiresAt => bind (of_reads Reads.timezoneNow) fun stamp => bind (of_reads Reads.getDb)
      fun db => bind (of_reads (Reads.ensureFits _ _)) fun _ => ?_
    split
    · exact bind (insertSemaphore apart _) fun _ => pure _
    · exact bind (saveSemaphore apart _ _) fun _ => pure _

theorem semaphoreAcquire (env : Env) (key : String) (limit duration : Int) :
    Spares part (semaphoreAcquire env key limit duration) := by
  refine bind (of_reads Reads.timezoneNow) fun now => bind (of_reads (Reads.ofExcept _))
    fun expiresAt => bind (of_reads Reads.getDb) fun found =>
    bind (of_reads (Reads.ensureFits _ _)) fun _ => ?_
  cases env.config.family with
  | postgresql =>
      refine bind (of_reads Reads.getDb) fun db => ?_
      split
      · exact bind (insertSemaphore apart _) fun _ => pure _
      · exact bind (saveSemaphore apart _ _) fun _ => pure _
  | mysql | mariadb =>
      refine bind (of_reads Reads.getDb) fun db => ?_
      split
      · exact bind (insertSemaphore apart _) fun _ => pure _
      · exact bind (saveSemaphore apart _ _) fun _ => pure _
  | sqlite =>
      refine bind (of_reads Reads.timezoneNow) fun stamp => bind (of_reads Reads.getDb)
        fun db => ?_
      split
      · exact bind (insertSemaphore apart _) fun _ => pure _
      · refine bind (updateSemaphore apart _ _ _) fun updated => ?_
        split
        · exact pure _
        · exact bind (updateSemaphore apart _ _ _) fun _ => pure _

end Slots

/-- Taking a waiter for a slot writes the waiters and the slots, and nothing else. -/
theorem consumeBlockedJobForSlot (apart : Apart part .blocked)
    (slots : ∀ db t, part { db with semaphores := t } = part db) (env : Env)
    (mode : SlotHandoffMode) (key : String) (limit duration : Int) (now : Time) :
    Spares part (consumeBlockedJobForSlot env mode key limit duration now) := by
  unfold DjQueue.consumeBlockedJobForSlot
  split
  · refine bind (bind (of_reads (Reads.ofExcept _)) fun expiresAt => bind (of_reads Reads.getDb)
      fun db => bind (of_reads (Reads.ensureFits _ _)) fun _ => ?_) fun result => ?_
    · split
      · exact pure _
      · refine bind (updateSlots slots _ _ _) fun updated => ?_
        split
        · exact pure _
        · exact bind (deleteRowsWhere (m := .blocked) apart _) fun _ => pure _
    · split
      · exact pure _
      · split
        · exact throw _
        · exact pure _
  · refine bind (consumeNextBlockedJob apart env key) fun result => ?_
    split
    · exact pure _
    · split
      · exact throw _
      · exact bind (acquireHandoffSlot slots env mode key _ _ _) fun _ =>
          bind (runIf _ (createBlockedExecution apart _ _ _ _ _ _ _)) fun _ => pure _

end Spares

/-! ## Releases -/

/-- The part sees nothing of what giving slots back writes: the waiters, the ready jobs and the
slots. -/
structure Aloof (part : Db → γ) : Prop where
  blocked : Apart part .blocked
  ready : Apart part .ready
  slots : ∀ db t, part { db with semaphores := t } = part db

/-- The settings of a release are computed from the job. -/
theorem Reads.releaseSettings (env : Env) (job : Job) (key : String) (task : Option Imported) :
    Reads (releaseSettings env job key task) := by
  apply Reads.bind Reads.getDb
  intro db
  split
  · exact Reads.pure _
  · exact Reads.pure _
  · exact Reads.throw _

namespace Spares

/-- The hand-over to a waiter touches its rows, the jobs and the semaphores. -/
theorem unblockNextBlockedJob (aloof : Aloof part) (env : Env) (key : String)
    (limit duration : Int) (mode : SlotHandoffMode) :
    Spares part (unblockNextBlockedJob env key limit duration mode) := by
  apply bind (of_reads Reads.timezoneNow)
  intro now
  apply Relates.atomic
  apply bind (consumeBlockedJobForSlot aloof.blocked aloof.slots env mode key _ _ _)
  intro slot
  split
  · exact bind (createReadyExecutionAfterBlockedConsume aloof.ready _ _ _) fun _ => pure _
  · exact pure _

/-- A release hands the slot over, or gives it back. -/
theorem releaseSlot (aloof : Aloof part) (env : Env) (key : String) (limit duration : Int) :
    Spares part (releaseSlot env key limit duration) := by
  apply bind (unblockNextBlockedJob aloof env key limit duration _)
  intro unblocked
  split
  · exact pure _
  · exact bind (semaphoreRelease aloof.slots env key _ _) fun _ =>
      bind (unblockNextBlockedJob aloof env key _ _ _) fun _ => pure _

/-- The release of a job without a key does nothing. -/
theorem releaseConcurrencySlot (aloof : Aloof part) (env : Env) (job : Job)
    (task : Option Imported) : Spares part (releaseConcurrencySlot env job task) := by
  unfold DjQueue.releaseConcurrencySlot
  split
  · exact pure _
  · exact bind (of_reads (Reads.releaseSettings env job _ task)) fun _ =>
      releaseSlot aloof env _ _ _

theorem releaseAll (aloof : Aloof part) (env : Env) :
    ∀ jobs : List Job, Spares part (releaseAll env jobs)
  | [] => pure _
  | job :: jobs => bind (releaseConcurrencySlot aloof env job none) fun _ =>
      releaseAll aloof env jobs

theorem releaseRecoveredConcurrencyGroup (aloof : Aloof part) (env : Env) (key : String)
    (releaseCount : Nat) (limit duration : Int) :
    Spares part (releaseRecoveredConcurrencyGroup env key releaseCount limit duration) := by
  apply bind (of_reads Reads.timezoneNow)
  intro now
  apply bind (of_reads (Reads.ofExcept _))
  intro expiresAt
  apply bind (of_reads Reads.getDb)
  intro db
  apply bind (ensureStateRowsBelongToBackend (m := .blocked) _ _)
  intro _
  split
  · exact pure _
  · exact bind (consumeSelectedRows aloof.blocked env _ _) fun _ =>
      bind (of_reads Reads.timezoneNow) fun _ => bind (of_reads (Reads.ensureFits _ _)) fun _ =>
      bind (saveSemaphore aloof.slots _ _) fun _ => bind (ofExcept _) fun _ =>
        bind (bulkCreateReadyExecutions aloof.ready _ _) fun _ => pure _

/-- The settings of a whole group only read. -/
theorem releaseSettingsOfAll (env : Env) (key : String) :
    ∀ jobs : List Job, Spares part (releaseSettingsOfAll env key jobs)
  | [] => pure _
  | job :: jobs => bind (of_reads (Reads.releaseSettings env job key none)) fun _ =>
      bind (releaseSettingsOfAll env key jobs) fun _ => pure _

/-- The groups of a recovery, each with its own release. -/
theorem releaseRecoveredGroups (aloof : Aloof part) (env : Env) :
    ∀ groups : List (String × List Job), Spares part (releaseRecoveredGroups env groups)
  | [] => pure _
  | (key, jobs) :: groups => by
      apply bind
      · apply bind (releaseSettingsOfAll env key jobs)
        intro settings
        split
        · exact bind (releaseRecoveredConcurrencyGroup aloof env key _ _ _) fun _ => pure _
        · exact pure _
      · intro fallback
        exact bind (releaseRecoveredGroups aloof env groups) fun _ => pure _

/-- The releases one by one that a recovery falls back on. -/
theorem releaseFallback (aloof : Aloof part) (env : Env) (jobs : List Job) :
    Spares part (releaseFallback env jobs) := by
  apply bind
  · unfold DjQueue.releaseRecoveredConcurrencySlots
    split
    · exact throw _
    · exact releaseRecoveredGroups aloof env _
  · exact releaseAll aloof env

end Spares

end Parts

end DjQueue
