import DjQueue.Slots.Parts
import DjQueue.System.Steps

/-!
# Operations that dispatch nobody

Most operations leave the scheduled jobs where they are, take nobody out of the failed state and
neither create a job nor write its `scheduled_at`.  `Calm` says so of two databases; a hand-off, a
claim, a completion or a recovery comes to it by what it writes, and an operation that deletes jobs
by the check it makes first, that they have no other state.
-/

namespace DjQueue

open Relational

/-! ## The relation -/

/-- The same job, perhaps finished since. -/
structure Job.SameTimes (j j' : Job) : Prop where
  id : j'.id = j.id
  scheduledAt : j'.scheduledAt = j.scheduledAt
  finished : j.finishedAt.isSome = true → j'.finishedAt.isSome = true

theorem Job.SameTimes.refl (j : Job) : j.SameTimes j := ⟨rfl, rfl, fun done => done⟩

theorem Job.SameTimes.trans {a b c : Job} (first : a.SameTimes b) (second : b.SameTimes c) :
    a.SameTimes c :=
  ⟨second.id.trans first.id, second.scheduledAt.trans first.scheduledAt,
    fun done => second.finished (first.finished done)⟩

/-- The failed row `r` is still there, perhaps with another `retry_at`. -/
def Db.keepsFailure (db : Db) (r : FailedExecution) : Prop :=
  ∃ r' ∈ db.failed.rows, r'.id = r.id ∧ r'.jobId = r.jobId

/-- No job is created, the scheduled rows stay as they are and no failed row leaves. -/
structure Calm (db db' : Db) : Prop where
  jobs : ∀ j' ∈ db'.jobs, ∃ j ∈ db.jobs, j.SameTimes j'
  scheduled : db'.scheduled.rows = db.scheduled.rows
  failed : ∀ r ∈ db.failed.rows, db'.keepsFailure r

theorem Calm.refl (db : Db) : Calm db db :=
  ⟨fun j mem => ⟨j, mem, .refl j⟩, rfl, fun r mem => ⟨r, mem, rfl, rfl⟩⟩

theorem Calm.trans {a b c : Db} (first : Calm a b) (second : Calm b c) : Calm a c := by
  refine ⟨fun j'' mem => ?_, second.scheduled.trans first.scheduled, fun r mem => ?_⟩
  · obtain ⟨j', mem', later⟩ := second.jobs j'' mem
    obtain ⟨j, there, earlier⟩ := first.jobs j' mem'
    exact ⟨j, there, earlier.trans later⟩
  · obtain ⟨r', mem', id, job⟩ := first.failed r mem
    obtain ⟨r'', mem'', id', job'⟩ := second.failed r' mem'
    exact ⟨r'', mem'', id'.trans id, job'.trans job⟩

/-- What `Calm` speaks about. -/
def calmParts (db : Db) : List Job × Table ScheduledExecution × Table FailedExecution :=
  (db.jobs, db.scheduled, db.failed)

/-- Calmness looks at these parts only. -/
theorem Calm.of_parts {db db' : Db} (same : calmParts db' = calmParts db) : Calm db db' := by
  obtain ⟨jobs, tables⟩ := Prod.mk.inj same
  obtain ⟨scheduled, failed⟩ := Prod.mk.inj tables
  have calm := Calm.refl db
  exact ⟨by rw [jobs]; exact calm.jobs, by rw [scheduled],
    fun r mem => ⟨r, by rw [failed]; exact mem, rfl, rfl⟩⟩

/-- Only the scheduled and the failed rows are looked at. -/
theorem apart_calmParts {m : StateModel} (waits : m ≠ .scheduled) (fails : m ≠ .failed) :
    Apart calmParts m := by
  intro db t
  unfold calmParts
  rw [Db.jobs_setTable]
  exact congrArg₂ _ rfl (congrArg₂ _ (Db.table_setTable_ne db t (Ne.symm waits))
    (Db.table_setTable_ne db t (Ne.symm fails)))

theorem slots_calmParts (db : Db) (t : Table Semaphore) :
    calmParts { db with semaphores := t } = calmParts db := rfl

/-- No hand-over of slots is looked at. -/
theorem aloof_calmParts : Aloof calmParts where
  blocked := apart_calmParts (by decide) (by decide)
  ready := apart_calmParts (by decide) (by decide)
  slots := slots_calmParts

/-! ## Sessions -/

/-- Calmness of two worlds is that of their databases. -/
def CalmFrom (w w' : World) : Prop := Calm w.db w'.db

/-- Whenever the session returns, it has dispatched nobody. -/
def Calms {α : Type} (x : Op α) : Prop := Relates CalmFrom x

namespace Calms

variable {α β : Type}

/-- An operation that spares these parts. -/
theorem of_spares {x : Op α} (spares : Spares calmParts x) : Calms x :=
  fun _ _ _ run => .of_parts (spares _ _ _ run)

theorem pure (a : α) : Calms (Pure.pure a : Op α) := of_spares (.pure a)

theorem throw (e : PyError) : Calms (throw e : Op α) := Relates.throw e

theorem bind {x : Op α} {f : α → Op β} (first : Calms x) (second : ∀ a, Calms (f a)) :
    Calms (x >>= f) :=
  Relates.bind (R := CalmFrom) (fun _ _ _ => Calm.trans) first second

/-- A step that is skipped under a condition. -/
theorem runIf (c : Bool) {x : Op Unit} (body : Calms x) : Calms (runIf c x) :=
  Relates.runIf (R := CalmFrom) (fun w => .refl w.db) c body

theorem of_reads {x : Op α} (reads : Reads x) : Calms x := of_spares (.of_reads reads)

theorem ofExcept (x : Except PyError α) : Calms (MonadExcept.ofExcept x : Op α) :=
  of_spares (.ofExcept x)

theorem modifyDb {f : Db → Db} (same : ∀ db, calmParts (f db) = calmParts db) :
    Calms (modifyDb f) := of_spares (.modifyDb same)

/-! ## Rows and jobs -/

/-- A job that has just failed gets a row of its own. -/
theorem createRow_failed (row : FailedExecution) : Calms (createRow .failed row) := by
  refine bind (of_reads Reads.timezoneNow) fun now w u w' run => ?_
  rw [CalmFrom, Accounts.of_run_insertRow run]
  exact ⟨fun j mem => ⟨j, mem, .refl j⟩, rfl,
    fun r mem => ⟨r, List.mem_append_left _ mem, rfl, rfl⟩⟩

theorem bulkCreate_failed (rows : List FailedExecution) : Calms (bulkCreate .failed rows) :=
  Relates.forM (R := CalmFrom) (fun w => .refl w.db) (fun _ _ _ => Calm.trans) createRow_failed rows

theorem bulkCreate {m : StateModel} (apart : Apart calmParts m) (rows : List m.Row) :
    Calms (bulkCreate m rows) :=
  Relates.forM (R := CalmFrom) (fun w => .refl w.db) (fun _ _ _ => Calm.trans)
    (fun row => of_spares (.createRow apart row)) rows

/-- Writing the result of a job that is finished. -/
theorem updateJobsWhere (p : Job → Bool) {f : Job → Job}
    (times : ∀ j : Job, j.SameTimes (f j)) :
    Calms (updateJobsWhere p f) := by
  intro w u w' run
  rw [CalmFrom, of_run_modifyDb run]
  refine ⟨fun j' mem => ?_, rfl, fun r mem => ⟨r, mem, rfl, rfl⟩⟩
  obtain ⟨j, there, rfl⟩ := List.mem_map.mp mem
  refine ⟨j, there, ?_⟩
  split
  · exact times j
  · exact .refl j

theorem finishJobIfNoExecutionState (job : Job) (returnValue : Option String) (finishedAt : Time)
    (includeClaimed : Bool) :
    Calms (finishJobIfNoExecutionState job returnValue finishedAt includeClaimed) :=
  bind (of_reads Reads.getDb) fun _ =>
    bind (updateJobsWhere _ fun _ => ⟨rfl, rfl, fun _ => rfl⟩) fun _ => runIf _ (throw _)

end Calms

/-- What `ensure_job_ids_have_no_other_execution_state` has checked when it returns. -/
theorem stateless_of_ensured {w w' : World} {u : Unit} {ids : List JobId}
    {ignored : List StateModel}
    (run : Runs (ensureJobIdsHaveNoOtherExecutionState ids ignored) w u w') {j : Job}
    (mem : j ∈ w.db.jobs) (asked : j.id ∈ ids) {m : StateModel} (seen : m ∉ ignored) :
    j.id ∉ w.db.stateJobIds m := by
  obtain ⟨db, w₁, got, rest⟩ := Runs.of_bind run
  obtain ⟨rfl, rfl⟩ := of_run_getDb got
  intro has
  have conflicting : j.id ∈ jobIdsWithOtherExecutionState w₁.db ids ignored := by
    refine List.mem_map.mpr ⟨j, List.mem_filter.mpr ⟨List.mem_filter.mpr ⟨mem, ?_⟩, ?_⟩, rfl⟩
    · exact List.contains_iff_mem.mpr asked
    · refine List.any_eq_true.mpr ⟨m, by cases m <;> decide, ?_⟩
      rw [Bool.and_eq_true, Bool.not_eq_true', ← Bool.not_eq_true, List.contains_iff_mem]
      exact ⟨seen, List.contains_iff_mem.mpr has⟩
  cases conflicts : jobIdsWithOtherExecutionState w₁.db ids ignored with
  | nil =>
      rw [conflicts] at conflicting
      exact absurd conflicting List.not_mem_nil
  | cons id others =>
      rw [conflicts] at rest
      exact (Runs.of_throw rest).elim

/-- Deleting jobs that are neither scheduled nor failed. -/
theorem calm_of_deleteJobsWhere {w w' : World} {p : Job → Bool} {n : Nat}
    (free : ∀ j ∈ w.db.jobs, p j = true →
      j.id ∉ w.db.stateJobIds .scheduled ∧ j.id ∉ w.db.stateJobIds .failed)
    (run : Runs (deleteJobsWhere p) w n w') : Calm w.db w'.db := by
  obtain ⟨db, w₁, read, rest⟩ := Runs.of_bind run
  obtain ⟨rfl, rfl⟩ := of_run_getDb read
  obtain ⟨v, w₂, written, rest⟩ := Runs.of_bind rest
  obtain ⟨-, rfl⟩ := Runs.of_pure rest
  rw [of_run_modifyDb written]
  have spared : ∀ id, id ∈ (w₁.db.jobs.filter p).map Job.id →
      id ∉ w₁.db.stateJobIds .scheduled ∧ id ∉ w₁.db.stateJobIds .failed := by
    intro id mem
    obtain ⟨j, hit, rfl⟩ := List.mem_map.mp mem
    obtain ⟨there, hit⟩ := List.mem_filter.mp hit
    exact free j there hit
  refine ⟨fun j mem => ⟨j, List.mem_of_mem_filter mem, .refl j⟩, ?_, fun r mem => ?_⟩
  · refine List.filter_eq_self.mpr fun r mem => ?_
    rw [Bool.not_eq_true', ← Bool.not_eq_true, List.contains_iff_mem]
    exact fun gone => (spared _ gone).1 (List.mem_map_of_mem mem)
  · refine ⟨r, List.mem_filter.mpr ⟨mem, ?_⟩, rfl, rfl⟩
    rw [Bool.not_eq_true', ← Bool.not_eq_true, List.contains_iff_mem]
    exact fun gone => (spared _ gone).2 (List.mem_map_of_mem mem)

/-! ## Releases -/

namespace Calms

/-- A release hands a slot over inside the other tables. -/
theorem releaseConcurrencySlot (env : Env) (job : Job) (task : Option Imported) :
    Calms (releaseConcurrencySlot env job task) :=
  of_spares (.releaseConcurrencySlot aloof_calmParts env job task)

theorem releaseAll (env : Env) (jobs : List Job) : Calms (releaseAll env jobs) :=
  of_spares (.releaseAll aloof_calmParts env jobs)

/-- The releases a recovery falls back on. -/
theorem releaseFallback (env : Env) (jobs : List Job) : Calms (releaseFallback env jobs) :=
  of_spares (.releaseFallback aloof_calmParts env jobs)

/-! ## Waiters whose time is up -/

/-- An expired waiter becomes ready, waits on or fails. -/
theorem promoteExpiredBlockedJob (env : Env) (now : Time) (consumed : Bool)
    (blocked : BlockedExecution) (job : Job) (cache : TaskSettings) :
    Calms (promoteExpiredBlockedJob env now consumed blocked job cache) := by
  have waiters : Apart calmParts .blocked := apart_calmParts (by decide) (by decide)
  have ready : Apart calmParts .ready := apart_calmParts (by decide) (by decide)
  unfold DjQueue.promoteExpiredBlockedJob
  split
  · apply bind _ fun _ => pure _
    apply bind
    · unfold DjQueue.consumeUnless
      split
      · exact pure _
      · exact of_spares (.consumeSelectedRows waiters env _ _)
    · intro rows
      split
      · exact pure _
      · exact bind (of_spares (.ensureJobIdsHaveNoOtherExecutionState _ _)) fun _ =>
          bind (createRow_failed _) fun _ => pure _
  · exact throw _
  · apply bind (of_spares (.semaphoreAcquire slots_calmParts env _ _ _))
    intro acquired
    split
    · apply bind _ fun _ => pure _
      exact bind (runIf _ (bind (of_spares (.deleteRowsWhere waiters _)) fun _ => pure _)) fun _ =>
        of_spares (.createReadyExecution ready _ _ _ _ _ _)
    · apply bind (ofExcept _)
      intro expiresAt
      apply bind _ fun _ => pure _
      unfold DjQueue.renewBlockedExecution
      split
      · exact of_spares (.createBlockedExecution waiters _ _ _ _ _ _ _)
      · exact modifyDb fun _ => rfl

/-- The waiters of a batch, one after the other. -/
theorem promoteExpiredLoop (env : Env) (now : Time) (consumed : Bool) :
    ∀ (rows : List (BlockedExecution × Job)) (cache : TaskSettings),
      Calms (promoteExpiredLoop env now consumed rows cache)
  | [], _ => pure _
  | (blocked, job) :: rows, cache =>
      bind (promoteExpiredBlockedJob env now consumed blocked job cache) fun result =>
        bind (promoteExpiredLoop env now consumed rows result.2) fun _ => pure _

theorem promoteExpiredBlockedJobs (env : Env) (batchSize : Int) :
    Calms (promoteExpiredBlockedJobs env batchSize) := by
  have waiters : Apart calmParts .blocked := apart_calmParts (by decide) (by decide)
  apply bind (of_reads Reads.timezoneNow)
  intro now
  apply Relates.atomic
  apply bind (of_reads Reads.getDb)
  intro db
  apply bind (of_reads (Reads.sliceTo _ _))
  intro rows
  apply bind (of_spares (.ensureStateRowsBelongToBackend (m := .blocked) _ _))
  intro _
  apply bind
  · unfold DjQueue.consumeUnless
    split
    · exact pure _
    · exact of_spares (.consumeSelectedRows waiters env _ _)
  · exact fun _ => bind (promoteExpiredLoop env _ _ _ _) fun _ => pure _

/-! ## Claims -/

/-- A claim moves rows between two other tables. -/
theorem claimReadyJobs (env : Env) (limit : Int) (queues : QueueSelectors)
    (process : Option Process) : Calms (claimReadyJobs env limit queues process) := by
  have ready : Apart calmParts .ready := apart_calmParts (by decide) (by decide)
  have claimed : Apart calmParts .claimed := apart_calmParts (by decide) (by decide)
  have checksProcess : Calms (ensureProcessExists process) :=
    bind (of_reads Reads.getDb) fun _ => runIf _ (throw _)
  unfold DjQueue.claimReadyJobs
  split
  · exact pure _
  · apply Relates.atomic
    apply bind
    · unfold DjQueue.ensureProcessBelongs
      split
      · exact pure _
      · split
        · exact throw _
        · exact pure _
    · intro _
      apply bind (of_reads Reads.getDb)
      intro db
      apply bind (bind (of_spares (.ensureStateRowsBelongToBackend (m := .ready) _ _)) fun _ =>
        runIf _ (of_spares (.ensureJobIdsHaveNoOtherExecutionState _ _)))
      intro _
      dsimp only
      split
      · exact pure _
      · apply bind (of_reads Reads.timezoneNow)
        intro claimedAt
        apply bind _ fun _ => pure _
        unfold DjQueue.claimRows
        split
        · apply bind checksProcess
          intro _
          apply bind
          · exact bind (of_reads Reads.getDb) fun _ =>
              bind (of_spares (.deleteRowsWhere ready _)) fun _ =>
              bind (Relates.forM (R := CalmFrom) (fun w => .refl w.db) (fun _ _ _ => Calm.trans)
                (fun _ => of_spares (.insertRow claimed _ _)) _) fun _ => pure _
          · intro created
            split
            · exact pure _
            · exact bind (of_spares (.ensureJobIdsHaveNoOtherExecutionState _ _)) fun _ => throw _
        · exact bind (of_spares (.consumeSelectedRows ready env _ _)) fun _ =>
            bind (runIf _ checksProcess) fun _ => bind (bulkCreate claimed _) fun _ => pure _

theorem deleteClaimedExecution (jobId : JobId) : Calms (deleteClaimedExecution jobId) :=
  bind (of_spares (.deleteRowsWhere (apart_calmParts (by decide) (by decide)) _)) fun _ =>
    runIf _ (throw _)

/-- A job is deleted once it has no state but the claim. -/
theorem deleteCompletedJob (job : Job) : Calms (deleteCompletedJob job) := by
  apply bind (deleteClaimedExecution job.id)
  intro _ w u w' run
  rcases Runs.of_bind run with ⟨v, w₁, checked, rest⟩
  have same := Accounts.of_run_ensureNoOtherExecutionState checked
  rw [same] at rest
  rcases Runs.of_bind rest with ⟨n, w₂, deleted, rest⟩
  rw [CalmFrom, (Runs.of_pure rest).2]
  apply calm_of_deleteJobsWhere _ deleted
  intro j mem hit
  have asked : j.id ∈ [job.id] := List.mem_singleton.mpr (beq_iff_eq.mp hit)
  exact ⟨stateless_of_ensured checked mem asked (by decide),
    stateless_of_ensured checked mem asked (by decide)⟩

theorem finishClaimedJob (env : Env) (job : Job) (returnValue : Option String) (now : Time) :
    Calms (finishClaimedJob env job returnValue now) := by
  unfold DjQueue.finishClaimedJob
  split
  · split
    · exact bind (of_reads Reads.getDb) fun _ =>
        bind (of_spares (.deleteRowsWhere (apart_calmParts (by decide) (by decide)) _)) fun _ =>
        bind (updateJobsWhere _ fun _ => ⟨rfl, rfl, fun _ => rfl⟩) fun _ =>
        bind (runIf _ (throw _)) fun _ => runIf _ (throw _)
    · exact bind (deleteClaimedExecution job.id) fun _ => finishJobIfNoExecutionState _ _ _ _
  · exact deleteCompletedJob job

theorem completeClaimedJob (env : Env) (arg : JobArg) (returnValue : Option String)
    (task : Option Imported) : Calms (completeClaimedJob env arg returnValue task) := by
  apply bind (of_reads (Reads.resolveClaimedJob env arg))
  intro job
  apply Relates.atomic
  exact bind (of_reads Reads.timezoneNow) fun _ => bind (finishClaimedJob env job _ _) fun _ =>
    releaseConcurrencySlot env job task

/-- A failed job has a failed row that no retry is set for. -/
theorem failClaimedJob (env : Env) (arg : JobArg) (failure : Failure) (task : Option Imported) :
    Calms (failClaimedJob env arg failure task) := by
  apply bind (of_reads (Reads.resolveClaimedJob env arg))
  intro job
  apply Relates.atomic
  exact bind (deleteClaimedExecution job.id) fun _ =>
    bind (of_spares (.ensureJobIdsHaveNoOtherExecutionState _ _)) fun _ =>
    bind (createRow_failed _) fun _ => releaseConcurrencySlot env job task

/-! ## Recovery -/

/-- Claimed jobs that are failed in one batch. -/
theorem failClaimedJobs (env : Env) (jobs : List Job) (failure : Failure) :
    Calms (failClaimedJobs env jobs failure) := by
  have claimed : Apart calmParts .claimed := apart_calmParts (by decide) (by decide)
  unfold DjQueue.failClaimedJobs
  split
  · exact pure _
  · split
    · exact throw _
    · apply Relates.atomic
      exact bind (of_spares (.deleteRowsWhere claimed _)) fun _ => bind (runIf _ (throw _)) fun _ =>
        bind (of_spares (.ensureJobIdsHaveNoOtherExecutionState _ _)) fun _ =>
        bind (bulkCreate_failed _) fun _ => bind (releaseFallback env jobs) fun _ => pure _

theorem failOrphanedClaimedJobs (env : Env) (failure : Failure) (batchSize : Int) :
    Calms (failOrphanedClaimedJobs env failure batchSize) := by
  apply Relates.atomic
  exact bind (of_reads Reads.getDb) fun _ => bind (of_reads (Reads.sliceTo _ _)) fun _ =>
    failClaimedJobs env _ failure

theorem saveProcesses (t : Table Process) : Calms (saveProcesses t) := by
  unfold DjQueue.saveProcesses
  split
  · exact modifyDb fun _ => rfl
  · exact throw _

/-- Processes are deleted, and their claims lose them. -/
theorem deleteProcessesWhere (p : Process → Bool) : Calms (deleteProcessesWhere p) :=
  bind (of_reads Reads.getDb) fun _ => bind (saveProcesses _) fun _ =>
    bind (modifyDb fun _ => rfl) fun _ => pure _

theorem deregisterProcess (processId : Nat) : Calms (deregisterProcess processId) :=
  Relates.atomic (bind (deleteProcessesWhere _) fun _ => pure _)

theorem pruneLoop (env : Env) (cutoff : Time) (failure : Failure) :
    ∀ (processes : List Process) (remaining : Int),
      Calms (pruneLoop env cutoff failure processes remaining)
  | [], _ => pure _
  | process :: processes, remaining => by
      apply bind (of_reads Reads.getDb)
      intro db
      apply bind (of_reads (Reads.sliceTo _ _))
      intro rows
      apply bind (deleteProcessesWhere _)
      intro deleted
      split
      · exact pruneLoop env cutoff failure processes remaining
      · apply bind (failClaimedJobs env _ failure)
        intro _
        split
        · exact pure _
        · exact bind (pruneLoop env cutoff failure processes _) fun _ => pure _

theorem pruneStaleProcesses (env : Env) (cutoff : Time) (failure : Failure) (excluded : Option Nat)
    (batchSize : Int) : Calms (pruneStaleProcesses env cutoff failure excluded batchSize) := by
  apply Relates.atomic
  exact bind (of_reads Reads.getDb) fun _ => bind (of_reads (Reads.sliceTo _ _)) fun _ =>
    pruneLoop env cutoff failure _ _

theorem registerProcess (env : Env) (pid : Int) (name : String) (supervisorId : Option Nat) :
    Calms (registerProcess env pid name supervisorId) := by
  apply bind (of_reads Reads.timezoneNow)
  intro now
  apply bind (of_reads Reads.getDb)
  intro db
  split
  · exact bind (saveProcesses _) fun _ => pure _
  · exact throw _

/-! ## Maintenance -/

/-- Jobs without state rows are deleted. -/
theorem deleteJobsWithoutExecutionState (env : Env) (ids : List JobId) :
    Calms (deleteJobsWithoutExecutionState env ids) := by
  intro w n w' run
  rcases Runs.of_bind run with ⟨u, w₁, checked, deleted⟩
  have same := of_run_ensureJobIdsHaveNoOtherExecutionState checked
  rw [same] at deleted
  apply calm_of_deleteJobsWhere _ deleted
  intro j mem hit
  have asked := List.contains_iff_mem.mp (Bool.and_eq_true_iff.mp hit).2
  exact ⟨stateless_of_ensured checked mem asked List.not_mem_nil,
    stateless_of_ensured checked mem asked List.not_mem_nil⟩

theorem clearFinishedJobs (env : Env) (olderThan : Option Int) (taskPath : Option String)
    (batchSize : Int) (now : Time) :
    Calms (clearFinishedJobs env olderThan taskPath batchSize now) := by
  unfold DjQueue.clearFinishedJobs
  split
  · exact pure _
  · apply Relates.atomic
    apply bind (of_reads Reads.getDb)
    intro db
    apply bind (of_reads (Reads.sliceTo _ _))
    intro jobs
    split
    · exact pure _
    · exact deleteJobsWithoutExecutionState env _

theorem clearRecurringExecutions (env : Env) (olderThan : Option Int) (taskKey : Option String)
    (batchSize : Int) (now : Time) :
    Calms (clearRecurringExecutions env olderThan taskKey batchSize now) := by
  unfold DjQueue.clearRecurringExecutions
  split
  · exact pure _
  · apply Relates.atomic
    exact bind (of_reads Reads.getDb) fun _ => bind (of_reads (Reads.sliceTo _ _)) fun _ =>
      bind (modifyDb fun _ => rfl) fun _ => pure _

theorem cleanupExpiredSemaphores (batchSize : PyValue) :
    Calms (cleanupExpiredSemaphores batchSize) := by
  apply bind (ofExcept _)
  intro batch
  apply bind (of_reads Reads.timezoneNow)
  intro now
  apply Relates.atomic
  exact bind (of_reads Reads.getDb) fun _ => bind (modifyDb fun _ => rfl) fun _ => pure _

/-- The row of a failed job gets another `retry_at`. -/
theorem scheduleFailedJobRetry (env : Env) (jobId : JobId) (retryAt : Time) :
    Calms (scheduleFailedJobRetry env jobId retryAt) := by
  apply Relates.atomic
  apply bind (of_reads Reads.getDb)
  intro db
  split
  · exact throw _
  · apply bind _ fun _ => pure _
    intro w u w' run
    rw [CalmFrom, of_run_modifyDb run]
    refine ⟨fun j mem => ⟨j, mem, .refl j⟩, rfl, fun r mem => ?_⟩
    refine ⟨_, List.mem_map_of_mem mem, ?_⟩
    split <;> exact ⟨rfl, rfl⟩

/-- The jobs a discard deletes have no state once their rows are taken. -/
theorem discardStateJobs {m : StateModel} (apart : Apart calmParts m) (env : Env)
    (jobIds : Option (List JobId)) (batchSize : Int) (release : Bool) (queueName : Option String) :
    Calms (discardStateJobs env m jobIds batchSize release queueName) := by
  apply Relates.atomic
  apply bind (of_reads Reads.getDb)
  intro db
  apply bind (of_reads (Reads.sliceTo _ _))
  intro rows
  apply bind (of_spares (.ensureStateRowsBelongToBackend _ _))
  intro _
  apply bind (of_spares (.consumeSelectedRows apart env _ _))
  intro consumed w n w' run
  rcases Runs.of_bind run with ⟨u, w₁, checked, rest⟩
  have same := of_run_ensureJobIdsHaveNoOtherExecutionState checked
  rw [same] at rest
  rcases Runs.of_bind rest with ⟨db', w₂, got, rest⟩
  rcases of_run_getDb got with ⟨rfl, rfl⟩
  rcases Runs.of_bind rest with ⟨count, w₃, deleted, rest⟩
  have calm : Calm w₂.db w₃.db := by
    apply calm_of_deleteJobsWhere _ deleted
    intro j mem hit
    have asked := List.contains_iff_mem.mp hit
    exact ⟨stateless_of_ensured checked mem asked List.not_mem_nil,
      stateless_of_ensured checked mem asked List.not_mem_nil⟩
  apply calm.trans
  exact bind (runIf _ (releaseAll env _)) (fun _ => pure _) _ _ _ rest

end Calms

/-! ## Whole calls -/

/-- However the call ends, it has dispatched nobody. -/
def EndsCalm {α : Type} (x : Op α) : Prop := Leads (fun _ => True) CalmFrom x

namespace EndsCalm

variable {α β : Type}

/-- What rolls back when it raises needs a look at its returns only. -/
theorem of_rollsBack {x : Op α} (rolls : RollsBack x) (calms : Calms x) : EndsCalm x := by
  apply Leads.of_returns
  · intro w e w' _ raised
    rw [CalmFrom, rolls _ _ _ raised]
    exact .refl _
  · exact fun _ _ _ _ run => calms _ _ _ run

theorem bind {x : Op α} {f : α → Op β} (first : EndsCalm x) (second : ∀ a, EndsCalm (f a)) :
    EndsCalm (x >>= f) :=
  Leads.bind (R := CalmFrom) (fun _ _ _ => trivial) (fun _ _ _ => Calm.trans) first
    fun _ a _ _ _ => second a _ trivial

theorem of_reads {x : Op α} (reads : Reads x) : EndsCalm x :=
  of_rollsBack reads.raises (.of_reads reads)

theorem failClaimedJobsForProcess (env : Env) (process : Option Process) (failure : Failure)
    (deleteProcess : Bool) :
    EndsCalm (failClaimedJobsForProcess env process failure deleteProcess) := by
  cases process with
  | none => exact of_reads (Reads.pure _)
  | some p =>
      apply bind (of_reads Reads.getDb)
      intro db
      apply bind (of_rollsBack (RollsBack.failClaimedJobs env _ failure)
        (Calms.failClaimedJobs env _ failure))
      intro failed
      apply bind
      · cases deleteProcess with
        | false => exact of_reads (Reads.pure _)
        | true => exact of_rollsBack (RollsBack.atomic _) (Calms.deregisterProcess p.id)
      · exact fun _ => of_reads (Reads.pure _)

/-- The claims of all processes with a pid. -/
theorem failClaimedJobsForPid (env : Env) (pid : Int) (failure : Failure) :
    EndsCalm (failClaimedJobsForPid env pid failure) := by
  apply bind (of_reads Reads.getDb)
  intro db
  split
  · exact failClaimedJobsForProcess env _ failure true
  · exact of_reads (Reads.pure _)

/-- A release is three transactions. -/
theorem releaseConcurrencySlot (env : Env) (job : Job) (task : Option Imported) :
    EndsCalm (releaseConcurrencySlot env job task) := by
  have unblocks : ∀ key limit duration mode,
      EndsCalm (unblockNextBlockedJob env key limit duration mode) := fun key limit duration mode =>
    of_rollsBack (RollsBack.unblockNextBlockedJob env key limit duration mode)
      (.of_spares (Spares.unblockNextBlockedJob aloof_calmParts env key limit duration mode))
  unfold DjQueue.releaseConcurrencySlot
  split
  · exact of_reads (Reads.pure _)
  · apply bind (of_reads (Reads.releaseSettings env job _ task))
    intro settings
    apply bind (unblocks _ _ _ _)
    intro unblocked
    split
    · exact of_reads (Reads.pure _)
    · apply bind (of_rollsBack (RollsBack.semaphoreRelease env _ _ _)
        (.of_spares (.semaphoreRelease slots_calmParts env _ _ _)))
      exact fun _ => bind (unblocks _ _ _ _) fun _ => of_reads (Reads.pure _)

end EndsCalm

/-- The calls that create jobs, or take them out of the scheduled or the failed state. -/
def JobOperation.dispatches : JobOperation → Bool
  | enqueueJobWithDispatch _ _ _ | enqueueJobsBulk _ _ | promoteScheduledJobs _
  | dispatchScheduledJobNow _ | retryFailedJob _ | retryFailedJobs _ _
  | promoteFailedJobRetries _ | discardScheduledJobs _ _ | discardFailedJob _
  | discardFailedJobs _ _ | clearFailedJobs _ _ _ _ => true
  | _ => false

/-- An operation that dispatches nothing is calm, however it ends. -/
theorem JobOperation.calm (op : JobOperation) (idle : op.dispatches = false) (env : Env)
    (w : World) : Calm w.db (op.final env w).db := by
  have ends : ∀ {α : Type} {x : Op α}, RollsBack x → Calms x → Calm w.db (finalState x w).db :=
    fun rolls calms => EndsCalm.of_rollsBack rolls calms w trivial
  have ready : Apart calmParts .ready := apart_calmParts (by decide) (by decide)
  have blocked : Apart calmParts .blocked := apart_calmParts (by decide) (by decide)
  cases op with
  | claimReadyJobs limit queues process =>
      exact ends (RollsBack.claimReadyJobs env limit queues process) (.claimReadyJobs env _ _ _)
  | completeClaimedJob arg returnValue task =>
      exact ends (RollsBack.bind (Reads.resolveClaimedJob env arg) fun _ => RollsBack.atomic _)
        (.completeClaimedJob env _ _ _)
  | failClaimedJob arg failure task =>
      exact ends (RollsBack.bind (Reads.resolveClaimedJob env arg) fun _ => RollsBack.atomic _)
        (.failClaimedJob env _ _ _)
  | scheduleFailedJobRetry jobId retryAt =>
      exact ends (RollsBack.atomic _) (.scheduleFailedJobRetry env _ _)
  | discardReadyJobs jobIds batchSize =>
      exact ends (RollsBack.atomic _) (.discardStateJobs ready env _ _ _ _)
  | discardReadyJobsForQueue queueName batchSize =>
      exact ends (RollsBack.atomic _) (.discardStateJobs ready env _ _ _ _)
  | discardBlockedJobs jobIds batchSize =>
      exact ends (RollsBack.atomic _) (.discardStateJobs blocked env _ _ _ _)
  | clearFinishedJobs olderThan taskPath batchSize now =>
      exact ends RollsBack.retained (.clearFinishedJobs env _ _ _ _)
  | clearRecurringExecutions olderThan taskKey batchSize now =>
      exact ends RollsBack.retained (.clearRecurringExecutions env _ _ _ _)
  | promoteExpiredBlockedJobs batchSize =>
      exact ends (RollsBack.promoteExpiredBlockedJobs env batchSize)
        (.promoteExpiredBlockedJobs env _)
  | cleanupExpiredSemaphores batchSize =>
      exact ends (RollsBack.cleanupExpiredSemaphores batchSize) (.cleanupExpiredSemaphores _)
  | releaseConcurrencySlot job task =>
      exact EndsCalm.releaseConcurrencySlot env job task w trivial
  | registerProcess pid name supervisorId =>
      exact ends (RollsBack.registerProcess env pid name supervisorId) (.registerProcess env _ _ _)
  | touchProcessRow processId =>
      exact ends (RollsBack.touchProcessRow processId)
        (.bind (.of_reads Reads.timezoneNow) fun _ => .modifyDb fun _ => rfl)
  | deregisterProcess processId => exact ends (RollsBack.atomic _) (.deregisterProcess _)
  | failOrphanedClaimedJobs failure batchSize =>
      exact ends (RollsBack.atomic _) (.failOrphanedClaimedJobs env _ _)
  | failClaimedJobsForProcess process failure deleteProcess =>
      exact EndsCalm.failClaimedJobsForProcess env process failure deleteProcess w trivial
  | failClaimedJobsForPid pid failure => exact EndsCalm.failClaimedJobsForPid env pid failure w trivial
  | failClaimedJobsForChild pid name supervisorId failure =>
      exact EndsCalm.bind (.of_reads Reads.getDb)
        (fun _ => EndsCalm.failClaimedJobsForProcess env _ failure true) w trivial
  | pruneStaleProcesses cutoff failure excluded batchSize =>
      exact ends (RollsBack.atomic _) (.pruneStaleProcesses env _ _ _ _)
  | _ => cases idle

end DjQueue
