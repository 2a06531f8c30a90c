import DjQueue.Dispatching.Places
import DjQueue.Slots.PossibleSessions

/-!
# Operations that keep the slot counts possible

Every operation on jobs, part by part.  Most of what an operation writes is in other tables; the
slots it takes, it takes under the limit of a policy that was checked to be positive.
-/

namespace DjQueue

open Relational

/-! ## Decisions -/

/-- A slot is asked for under a positive limit. -/
def DispatchDecision.Positive : DispatchDecision → Prop
  | .outcome _ => True
  | .concurrency _ settings => 0 < settings.limit

/-- The settings of a dispatch come from a policy that was checked, so its limit is positive. -/
theorem positive_of_dispatchDecision {env : Env} {job : Job} {now : Time} {task : Option Imported}
    {decision : DispatchDecision} (ok : dispatchDecision env job now task = .ok decision) :
    decision.Positive := by
  unfold dispatchDecision at ok
  split at ok
  · cases ok
    exact trivial
  · split at ok
    · cases ok
      exact trivial
    · cases policy : concurrencySettingsForJob env job task with
      | error e =>
          rw [policy] at ok
          cases ok
      | ok settings =>
          rw [policy] at ok
          cases ok
          exact (positive_of_concurrencySettingsForJob policy).1

/-- The redispatch of a list of jobs makes such decisions only. -/
theorem positive_of_prepareRedispatch {env : Env} {now : Time} {isolate : Bool} :
    ∀ {jobs : List Job} {position : Nat} {prepared : Prepared},
      prepareRedispatch env now isolate position jobs = .ok prepared →
      ∀ e ∈ prepared.entries, e.decision.Positive
  | [], position, prepared, ok, e, mem => by
      cases ok
      exact absurd mem List.not_mem_nil
  | job :: jobs, position, prepared, ok, e, mem => by
      unfold prepareRedispatch at ok
      split at ok
      · rename_i decision decided
        rcases of_bind_ok ok with ⟨later, rest, made⟩
        cases made
        rcases List.mem_cons.mp mem with rfl | mem
        · exact positive_of_dispatchDecision decided
        · exact positive_of_prepareRedispatch rest e mem
      · split at ok
        · rcases of_bind_ok ok with ⟨later, rest, made⟩
          cases made
          exact positive_of_prepareRedispatch rest e mem
        · cases ok
      · cases ok

/-- A group of entries shares the settings of its entries. -/
theorem positive_of_slotGroups {entries : List DispatchEntry}
    (all : ∀ e ∈ entries, e.decision.Positive)
    {g : (String × ConcurrencySettings) × List DispatchEntry} (mem : g ∈ slotGroups entries) :
    0 < g.1.2.limit := by
  rcases List.mem_map.mp mem with ⟨g, grouped, rfl⟩
  rcases List.mem_map.mp grouped with ⟨k, distinct, rfl⟩
  rcases List.mem_map.mp (mem_distinct.mp distinct) with ⟨x, there, rfl⟩
  rcases List.mem_filterMap.mp there with ⟨e, inEntries, made⟩
  have positive := all e inEntries
  cases decision : e.decision with
  | outcome o =>
      rw [decision] at made
      cases made
  | concurrency key settings =>
      rw [decision] at made positive
      cases made
      exact positive

/-- The limits resolved for historical policies are positive. -/
def PositiveCache (cache : TaskSettings) : Prop := ∀ entry ∈ cache, 0 < entry.2.1

/-- The settings of a waiter are from the cache or from a policy that was checked. -/
theorem positive_of_blockedConcurrencySettings {env : Env} {job : Job} {cache cache' : TaskSettings}
    {pair : Int × Int} (cached : PositiveCache cache)
    (ok : blockedConcurrencySettings env job cache = .ok (pair, cache')) :
    0 < pair.1 ∧ PositiveCache cache' := by
  unfold blockedConcurrencySettings at ok
  split at ok
  · rename_i settings found
    cases ok
    split at found
    · rcases List.lookup_eq_some_iff.mp found with ⟨before, after, same, -⟩
      exact ⟨cached _ (same ▸ List.mem_append_right _ List.mem_cons_self), cached⟩
    · cases found
  · split at ok
    · cases ok
    · rename_i settings policy
      have positive := (positive_of_concurrencySettingsForJob policy).1
      cases ok
      refine ⟨positive, ?_⟩
      split
      · intro entry mem
        rcases List.mem_cons.mp mem with rfl | mem
        · exact positive
        · exact cached entry mem
      · exact cached

namespace UpholdsSlots

variable {α β : Type} {env : Env}

/-! ## Writes of other tables -/

section Others

variable {I : Table Semaphore → Prop}

theorem createRow {m : StateModel} (row : m.Row) : UpholdsSlots I (createRow m row) :=
  of_spares (.createRow (apart_semaphores m) row)

/-- State rows that are created one by one. -/
theorem bulkCreate {m : StateModel} (rows : List m.Row) : UpholdsSlots I (bulkCreate m rows) :=
  forM createRow rows

theorem deleteRowsWhere (m : StateModel) (p : m.Row → Bool) :
    UpholdsSlots I (deleteRowsWhere m p) := of_spares (.deleteRowsWhere (apart_semaphores m) p)

/-- Both ways to consume a list of state rows. -/
theorem consumeSelectedRows (env : Env) (m : StateModel) (pk : β → Nat) (rows : List β) :
    UpholdsSlots I (consumeSelectedRows env m pk rows) :=
  of_spares (.consumeSelectedRows (apart_semaphores m) env pk rows)

theorem bulkCreateReadyExecutions (rows : List ReadyExecution) (checkConflicts : Bool) :
    UpholdsSlots I (bulkCreateReadyExecutions rows checkConflicts) :=
  of_spares (.bulkCreateReadyExecutions (apart_semaphores _) rows checkConflicts)

theorem ensured (ids : List JobId) (ignored : List StateModel) :
    UpholdsSlots I (ensureJobIdsHaveNoOtherExecutionState ids ignored) :=
  of_spares (.ensureJobIdsHaveNoOtherExecutionState ids ignored)

theorem owned {m : StateModel} (rows : List (m.Row × Job)) (backendAlias : String) :
    UpholdsSlots I (ensureStateRowsBelongToBackend rows backendAlias) :=
  of_spares (.ensureStateRowsBelongToBackend rows backendAlias)

theorem elsewhere {f : Db → Db} (same : ∀ db, (f db).semaphores = db.semaphores) :
    UpholdsSlots I (DjQueue.modifyDb f) := of_spares (.modifyDb same)

theorem updateJobsWhere (p : Job → Bool) (f : Job → Job) : UpholdsSlots I (updateJobsWhere p f) :=
  elsewhere fun _ => rfl

/-- Deleting a job leaves its slot to the release that follows. -/
theorem deleteJobsWhere (p : Job → Bool) : UpholdsSlots I (deleteJobsWhere p) :=
  bind (of_reads Reads.getDb) fun _ => bind (elsewhere fun _ => rfl) fun _ => pure _

/-- Finishing a job leaves its slot to the release that follows. -/
theorem finishJobIfNoExecutionState (job : Job) (returnValue : Option String) (finishedAt : Time)
    (includeClaimed : Bool) :
    UpholdsSlots I (finishJobIfNoExecutionState job returnValue finishedAt includeClaimed) :=
  of_spares
    (.finishJobIfNoExecutionState (fun _ _ => rfl) job returnValue finishedAt includeClaimed)

theorem insertJob (family : BackendFamily) (job : Job) : UpholdsSlots I (insertJob family job) := by
  refine bind (of_reads (Reads.ensureFits _ _)) fun _ => bind (of_reads Reads.getDb) fun db => ?_
  split
  · exact throw _
  · exact elsewhere fun _ => rfl

end Others

/-! ## Dispatch -/

/-- An outcome creates state rows only; the slot was acquired with the decision. -/
theorem applyOutcome (env : Env) (job : Job) (decision : DispatchDecision) (now : Time)
    (checked : Bool) (outcome : DispatchOutcome) :
    UpholdsSlots PossibleSlots (applyOutcome env job decision now checked outcome) := by
  cases outcome with
  | ready => exact of_spares (.createReadyExecution (apart_semaphores _) _ _ _ _ _ _)
  | scheduled => exact of_spares (.createScheduledExecution (apart_semaphores _) _ _ _ _)
  | blocked =>
      cases decision with
      | outcome o => exact throw _
      | concurrency key settings =>
          exact bind (ofExcept _) fun expiresAt =>
            of_spares (.createBlockedExecution (apart_semaphores _) _ _ _ _ _ _ _)
  | discarded =>
      simp only [DjQueue.applyOutcome]
      split
      · exact finishJobIfNoExecutionState _ _ _ _
      · exact updateJobsWhere _ _

/-- A dispatch acquires one slot at most, under a positive limit. -/
theorem dispatchJob (env : Env) (job : Job) (checked : Bool) (task : Option Imported) :
    UpholdsSlots PossibleSlots (dispatchJob env job checked task) := by
  refine bind (of_reads Reads.timezoneNow) fun now => ?_
  refine bind_of (P := DispatchDecision.Positive) ?_ fun decision positive => ?_
  · intro w decision w' possible run
    rcases Runs.of_ofExcept run with ⟨ok, rfl⟩
    exact ⟨possible, positive_of_dispatchDecision ok⟩
  · refine bind ?_ fun outcome =>
      bind (applyOutcome env job decision now checked outcome) fun _ => pure _
    cases decision with
    | outcome o => exact pure _
    | concurrency key settings => exact bind (semaphoreAcquire positive) fun _ => pure _

/-- The grouped acquisitions of a bulk dispatch. -/
theorem dispatchGroups (env : Env) :
    ∀ groups : List ((String × ConcurrencySettings) × List DispatchEntry),
      (∀ g ∈ groups, 0 < g.1.2.limit) → UpholdsSlots PossibleSlots (dispatchGroups env groups)
  | [], _ => pure _
  | ((_, _), _) :: groups, positive =>
      bind (semaphoreAcquireMany env (positive _ List.mem_cons_self) _) fun _ =>
        bind (dispatchGroups env groups fun g mem => positive g (List.mem_cons_of_mem _ mem))
          fun _ => pure _

/-- The rows of a bulk dispatch, with the acquisitions of its groups. -/
theorem buildDispatchRows (env : Env) {entries : List DispatchEntry}
    (all : ∀ e ∈ entries, e.decision.Positive) (now : Time) :
    UpholdsSlots PossibleSlots (buildDispatchRows env entries now) :=
  bind (dispatchGroups env _ fun _ mem => positive_of_slotGroups all mem) fun _ =>
    bind (ofExcept _) fun _ => pure _

/-- A redispatch acquires for the jobs it keeps. -/
theorem redispatchJobs (env : Env) (jobs : List Job) (isolate reset : Bool) :
    UpholdsSlots PossibleSlots (redispatchJobs env jobs isolate reset) := by
  refine bind (of_reads Reads.timezoneNow) fun now => bind (ensured _ _) fun _ => ?_
  refine bind_of (P := fun prepared => ∀ e ∈ prepared.entries, e.decision.Positive) ?_ ?_
  · intro w prepared w' possible run
    rcases Runs.of_ofExcept run with ⟨ok, rfl⟩
    exact ⟨possible, positive_of_prepareRedispatch ok⟩
  · exact fun prepared positive => bind (buildDispatchRows env positive now) fun _ =>
      bind (updateJobsWhere _ _) fun _ => bind (bulkCreateReadyExecutions _ _) fun _ =>
      bind (bulkCreate _) fun _ => bind (bulkCreate _) fun _ => bind (bulkCreate _) fun _ => pure _

theorem enqueueBulkOnce (env : Env) (jobs : List Job) :
    UpholdsSlots PossibleSlots (enqueueBulkOnce env jobs) := by
  refine bind (of_reads Reads.timezoneNow) fun now => ?_
  refine bind_of (P := fun entries => ∀ e ∈ entries, e.decision.Positive) ?_ ?_
  · intro w entries w' possible run
    rcases Runs.of_ofExcept run with ⟨ok, rfl⟩
    exact ⟨possible, fun e mem => positive_of_dispatchDecision ((of_dispatchEntries ok).1 e mem).2⟩
  · exact fun entries positive => atomic (bind (forM (insertJob _) jobs) fun _ =>
      bind (buildDispatchRows env positive now) fun _ =>
      bind (bulkCreateReadyExecutions _ _) fun _ => bind (bulkCreate _) fun _ =>
      bind (bulkCreate _) fun _ => bind (updateJobsWhere _ _) fun _ => pure _)

theorem enqueueJobsBulk (env : Env) (calls : List (TaskCall × JobId)) (validate : Bool) :
    UpholdsSlots PossibleSlots (enqueueJobsBulk env calls validate) := by
  refine bind (ofExcept _) fun jobs => ?_
  split
  · exact pure _
  · exact enqueueBulkOnce env jobs

theorem enqueueJobWithDispatch (env : Env) (call : TaskCall) (validate : Bool) (jobId : JobId) :
    UpholdsSlots PossibleSlots (enqueueJobWithDispatch env call validate jobId) :=
  bind (ofExcept _) fun _ => atomic (bind (insertJob _ _) fun _ =>
    bind (dispatchJob env _ _ _) fun _ => pure _)

/-! ## Scheduled and failed jobs -/

/-- Scheduled jobs that are due go through a redispatch. -/
theorem promoteScheduledJobs (env : Env) (batchSize : Int) :
    UpholdsSlots PossibleSlots (promoteScheduledJobs env batchSize) := by
  refine bind (of_reads Reads.timezoneNow) fun now => atomic ?_
  refine bind (of_reads Reads.getDb) fun db => bind (of_reads (Reads.sliceTo _ _)) fun rows =>
    bind (owned (m := .scheduled) _ _) fun _ =>
    bind (consumeSelectedRows env _ _ _) fun consumed => ?_
  split
  · exact pure _
  · exact bind (redispatchJobs env _ _ _) fun _ => pure _

/-- A scheduled job that is dispatched before its time. -/
theorem dispatchScheduledJobNow (env : Env) (jobId : JobId) :
    UpholdsSlots PossibleSlots (dispatchScheduledJobNow env jobId) := by
  refine atomic (bind (of_reads Reads.getDb) fun db => ?_)
  split
  · exact throw _
  · refine bind (owned (m := .scheduled) _ _) fun _ =>
      bind (consumeSelectedRows env _ _ _) fun consumed => ?_
    split
    · exact throw _
    · exact bind (updateJobsWhere _ _) fun _ => bind (dispatchJob env _ _ _) fun _ => pure _

/-- Failed jobs that are retried go through a redispatch. -/
theorem retryFailedRows (env : Env) (rows : List (FailedExecution × Job)) :
    UpholdsSlots PossibleSlots (retryFailedRows env rows) := by
  refine bind (consumeSelectedRows env _ _ _) fun consumed => ?_
  split
  · exact pure _
  · exact bind (redispatchJobs env _ _ _) fun _ => pure _

theorem retryFailedJob (env : Env) (jobId : JobId) :
    UpholdsSlots PossibleSlots (retryFailedJob env jobId) := by
  refine atomic (bind (of_reads Reads.getDb) fun db => ?_)
  split
  · exact throw _
  · refine bind (consumeSelectedRows env _ _ _) fun consumed => ?_
    split
    · exact throw _
    · exact bind (redispatchJobs env _ _ _) fun _ => pure _

/-- The retry of failed jobs by their keys, or of all. -/
theorem retryFailedJobs (env : Env) (jobIds : Option (List JobId)) (batchSize : Int) :
    UpholdsSlots PossibleSlots (retryFailedJobs env jobIds batchSize) :=
  atomic (bind (of_reads Reads.getDb) fun _ => bind (of_reads (Reads.sliceTo _ _)) fun _ =>
    bind (retryFailedRows env _) fun _ => pure _)

theorem promoteFailedJobRetries (env : Env) (batchSize : Int) :
    UpholdsSlots PossibleSlots (promoteFailedJobRetries env batchSize) :=
  bind (of_reads Reads.timezoneNow) fun _ => atomic (bind (of_reads Reads.getDb) fun _ =>
    bind (of_reads (Reads.sliceTo _ _)) fun _ => retryFailedRows env _)

/-- A retry that is scheduled writes to the failed row. -/
theorem scheduleFailedJobRetry (env : Env) (jobId : JobId) (retryAt : Time) :
    UpholdsSlots PossibleSlots (scheduleFailedJobRetry env jobId retryAt) := by
  refine atomic (bind (of_reads Reads.getDb) fun db => ?_)
  split
  · exact throw _
  · exact bind (elsewhere fun _ => rfl) fun _ => pure _

/-! ## Claims -/

/-- The check of the claiming process reads. -/
theorem ensureProcessExists (process : Option Process) :
    UpholdsSlots PossibleSlots (ensureProcessExists process) :=
  bind (of_reads Reads.getDb) fun _ => runIf _ (throw _)

/-- A claim moves rows between two state tables. -/
theorem claimReadyJobs (env : Env) (limit : Int) (queues : QueueSelectors)
    (process : Option Process) :
    UpholdsSlots PossibleSlots (claimReadyJobs env limit queues process) := by
  unfold DjQueue.claimReadyJobs
  split
  · exact pure _
  · refine atomic (bind ?_ fun _ => bind (of_reads Reads.getDb) fun db => ?_)
    · unfold DjQueue.ensureProcessBelongs
      split
      · exact pure _
      · split
        · exact throw _
        · exact pure _
    · refine bind (bind (owned (m := .ready) _ _) fun _ => runIf _ (ensured _ _)) fun _ => ?_
      dsimp only
      split
      · exact pure _
      · refine bind (of_reads Reads.timezoneNow) fun claimedAt => bind ?_ fun _ => pure _
        unfold DjQueue.claimRows
        split
        · refine bind (ensureProcessExists process) fun _ => bind ?_ fun created => ?_
          · exact bind (of_reads Reads.getDb) fun _ => bind (deleteRowsWhere .ready _) fun _ =>
              bind (forM (fun _ => of_spares (.insertRow (apart_semaphores _) _ _)) _)
                fun _ => pure _
          · split
            · exact pure _
            · exact bind (ensured _ _) fun _ => throw _
        · exact bind (consumeSelectedRows env _ _ _) fun _ =>
            bind (runIf _ (ensureProcessExists process)) fun _ =>
            bind (bulkCreate (m := .claimed) _) fun _ => pure _

/-- A claim that is given up deletes its row. -/
theorem deleteClaimedExecution (jobId : JobId) :
    UpholdsSlots PossibleSlots (deleteClaimedExecution jobId) :=
  bind (deleteRowsWhere .claimed _) fun _ => runIf _ (throw _)

/-- The end of a claimed job releases its slot. -/
theorem finishClaimedJob (env : Env) (job : Job) (returnValue : Option String) (now : Time) :
    UpholdsSlots PossibleSlots (finishClaimedJob env job returnValue now) := by
  unfold DjQueue.finishClaimedJob
  split
  · split
    · exact bind (of_reads Reads.getDb) fun _ => bind (deleteRowsWhere .claimed _) fun _ =>
        bind (updateJobsWhere _ _) fun _ => bind (runIf _ (throw _)) fun _ => runIf _ (throw _)
    · exact bind (deleteClaimedExecution job.id) fun _ => finishJobIfNoExecutionState _ _ _ _
  · exact bind (deleteClaimedExecution job.id) fun _ => bind (ensured _ _) fun _ =>
      bind (deleteJobsWhere _) fun _ => pure _

theorem completeClaimedJob (env : Env) (arg : JobArg) (returnValue : Option String)
    (task : Option Imported) :
    UpholdsSlots PossibleSlots (completeClaimedJob env arg returnValue task) :=
  bind (of_reads (Reads.resolveClaimedJob env arg)) fun job =>
    atomic (bind (of_reads Reads.timezoneNow) fun _ => bind (finishClaimedJob env job _ _) fun _ =>
      releaseConcurrencySlot env job task)

theorem failClaimedJob (env : Env) (arg : JobArg) (failure : Failure) (task : Option Imported) :
    UpholdsSlots PossibleSlots (failClaimedJob env arg failure task) :=
  bind (of_reads (Reads.resolveClaimedJob env arg)) fun job =>
    atomic (bind (deleteClaimedExecution job.id) fun _ => bind (ensured _ _) fun _ =>
      bind (createRow (m := .failed) _) fun _ => releaseConcurrencySlot env job task)

/-! ## Recovery -/

/-- Claimed jobs that are failed in one batch. -/
theorem failClaimedJobs (env : Env) (jobs : List Job) (failure : Failure) :
    UpholdsSlots PossibleSlots (failClaimedJobs env jobs failure) := by
  unfold DjQueue.failClaimedJobs
  split
  · exact pure _
  · split
    · exact throw _
    · exact atomic (bind (deleteRowsWhere .claimed _) fun _ => bind (runIf _ (throw _)) fun _ =>
        bind (ensured _ _) fun _ => bind (bulkCreate (m := .failed) _) fun _ =>
        bind (releaseFallback env jobs) fun _ => pure _)

theorem failOrphanedClaimedJobs (env : Env) (failure : Failure) (batchSize : Int) :
    UpholdsSlots PossibleSlots (failOrphanedClaimedJobs env failure batchSize) :=
  atomic (bind (of_reads Reads.getDb) fun _ => bind (of_reads (Reads.sliceTo _ _)) fun _ =>
    failClaimedJobs env _ failure)

theorem saveProcesses (t : Table Process) : UpholdsSlots PossibleSlots (saveProcesses t) := by
  unfold DjQueue.saveProcesses
  split
  · exact elsewhere fun _ => rfl
  · exact throw _

/-- Processes that are deleted lose their claims, which have no slots of their own. -/
theorem deleteProcessesWhere (p : Process → Bool) :
    UpholdsSlots PossibleSlots (deleteProcessesWhere p) :=
  bind (of_reads Reads.getDb) fun _ => bind (saveProcesses _) fun _ =>
    bind (elsewhere fun _ => rfl) fun _ => pure _

theorem registerProcess (env : Env) (pid : Int) (name : String) (supervisorId : Option Nat) :
    UpholdsSlots PossibleSlots (registerProcess env pid name supervisorId) := by
  refine bind (of_reads Reads.timezoneNow) fun now => bind (of_reads Reads.getDb) fun db => ?_
  split
  · exact bind (saveProcesses _) fun _ => pure _
  · exact throw _

theorem deregisterProcess (processId : Nat) :
    UpholdsSlots PossibleSlots (deregisterProcess processId) :=
  atomic (bind (deleteProcessesWhere _) fun _ => pure _)

/-- The claims of every stale process are failed as a batch, which releases their slots. -/
theorem pruneLoop (env : Env) (cutoff : Time) (failure : Failure) :
    ∀ (processes : List Process) (remaining : Int),
      UpholdsSlots PossibleSlots (pruneLoop env cutoff failure processes remaining)
  | [], _ => pure _
  | process :: processes, remaining => by
      refine bind (of_reads Reads.getDb) fun db => bind (of_reads (Reads.sliceTo _ _)) fun rows =>
        bind (deleteProcessesWhere _) fun deleted => ?_
      split
      · exact pruneLoop env cutoff failure processes remaining
      · refine bind (failClaimedJobs env _ failure) fun _ => ?_
        split
        · exact pure _
        · exact bind (pruneLoop env cutoff failure processes _) fun _ => pure _

theorem pruneStaleProcesses (env : Env) (cutoff : Time) (failure : Failure) (excluded : Option Nat)
    (batchSize : Int) :
    UpholdsSlots PossibleSlots (pruneStaleProcesses env cutoff failure excluded batchSize) :=
  atomic (bind (of_reads Reads.getDb) fun _ => bind (of_reads (Reads.sliceTo _ _)) fun _ =>
    pruneLoop env cutoff failure _ _)

/-! ## Waiters whose time is up -/

/-- An expired waiter takes a free slot, waits on or fails. -/
theorem promoteExpiredBlockedJob (env : Env) (now : Time) (consumed : Bool)
    (blocked : BlockedExecution) (job : Job) {cache : TaskSettings} (cached : PositiveCache cache) :
    UpholdsSlots PossibleSlots
      (promoteExpiredBlockedJob env now consumed blocked job cache) := by
  unfold DjQueue.promoteExpiredBlockedJob
  split
  · refine bind (bind ?_ fun rows => ?_) fun _ => pure _
    · unfold DjQueue.consumeUnless
      split
      · exact pure _
      · exact consumeSelectedRows env _ _ _
    · split
      · exact pure _
      · exact bind (ensured _ _) fun _ => bind (createRow (m := .failed) _) fun _ => pure _
  · exact throw _
  · rename_i policy
    refine bind (semaphoreAcquire (positive_of_blockedConcurrencySettings cached policy).1)
      fun acquired => ?_
    split
    · refine bind ?_ fun _ => pure _
      exact bind (runIf _ (bind (deleteRowsWhere .blocked _) fun _ => pure _)) fun _ =>
        of_spares (.createReadyExecution (apart_semaphores _) _ _ _ _ _ _)
    · refine bind (ofExcept _) fun expiresAt => bind ?_ fun _ => pure _
      unfold DjQueue.renewBlockedExecution
      split
      · exact of_spares (.createBlockedExecution (apart_semaphores _) _ _ _ _ _ _ _)
      · exact elsewhere fun _ => rfl

/-- The limits that one waiter adds to those resolved are positive. -/
theorem cache_of_promoteExpiredBlockedJob {now : Time} {consumed : Bool}
    {blocked : BlockedExecution} {job : Job} {cache : TaskSettings} (cached : PositiveCache cache)
    {w w' : World} {result : WaiterOutcome × TaskSettings}
    (run : Runs (DjQueue.promoteExpiredBlockedJob env now consumed blocked job cache) w result w') :
    PositiveCache result.2 := by
  unfold DjQueue.promoteExpiredBlockedJob at run
  split at run
  · rcases Runs.of_bind run with ⟨failed, w₁, -, rest⟩
    rw [(Runs.of_pure rest).1]
    exact cached
  · exact (Runs.of_throw run).elim
  · rename_i policy
    have cached' := (positive_of_blockedConcurrencySettings cached policy).2
    rcases Runs.of_bind run with ⟨acquired, w₁, -, rest⟩
    split at rest
    · rcases Runs.of_bind rest with ⟨u, w₂, -, rest⟩
      rw [(Runs.of_pure rest).1]
      exact cached'
    · rcases Runs.of_bind rest with ⟨expiresAt, w₂, -, rest₂⟩
      rcases Runs.of_bind rest₂ with ⟨u, w₃, -, rest₃⟩
      rw [(Runs.of_pure rest₃).1]
      exact cached'

/-- The waiters of a batch carry one cache through the loop. -/
theorem promoteExpiredLoop (env : Env) (now : Time) (consumed : Bool) :
    ∀ (rows : List (BlockedExecution × Job)) {cache : TaskSettings}, PositiveCache cache →
      UpholdsSlots PossibleSlots (promoteExpiredLoop env now consumed rows cache)
  | [], _, _ => pure _
  | (blocked, job) :: rows, cache, cached => by
      refine bind_of (P := fun result => PositiveCache result.2) ?_ fun result cached' =>
        bind (promoteExpiredLoop env now consumed rows cached') fun _ => pure _
      intro w result w' possible run
      exact ⟨promoteExpiredBlockedJob env now consumed blocked job cached _ _ _ run possible,
        cache_of_promoteExpiredBlockedJob cached run⟩

theorem promoteExpiredBlockedJobs (env : Env) (batchSize : Int) :
    UpholdsSlots PossibleSlots (promoteExpiredBlockedJobs env batchSize) := by
  refine bind (of_reads Reads.timezoneNow) fun now => atomic ?_
  refine bind (of_reads Reads.getDb) fun db => bind (of_reads (Reads.sliceTo _ _)) fun rows =>
    bind (owned (m := .blocked) _ _) fun _ => bind ?_ fun consumed =>
    bind (promoteExpiredLoop env _ _ _ fun _ mem => absurd mem List.not_mem_nil) fun _ => pure _
  unfold DjQueue.consumeUnless
  split
  · exact pure _
  · exact consumeSelectedRows env _ _ _

/-! ## Discards and retention -/

/-- Jobs that are discarded release their slots, if they held any. -/
theorem discardStateJobs (env : Env) (m : StateModel) (jobIds : Option (List JobId))
    (batchSize : Int) (release : Bool) (queueName : Option String) :
    UpholdsSlots PossibleSlots
      (discardStateJobs env m jobIds batchSize release queueName) := by
  refine atomic (bind (of_reads Reads.getDb) fun db =>
    bind (of_reads (Reads.sliceTo _ _)) fun rows => bind (owned _ _) fun _ =>
    bind (consumeSelectedRows env _ _ _) fun consumed => bind (ensured _ _) fun _ =>
    bind (of_reads Reads.getDb) fun _ => bind (deleteJobsWhere _) fun _ =>
    bind (runIf _ (releaseAll env _)) fun _ => pure _)

/-- Jobs without a state row hold no slots. -/
theorem deleteJobsWithoutExecutionState (env : Env) (ids : List JobId) :
    UpholdsSlots PossibleSlots (deleteJobsWithoutExecutionState env ids) :=
  bind (ensured _ _) fun _ => deleteJobsWhere _

theorem clearFinishedJobs (env : Env) (olderThan : Option Int) (taskPath : Option String)
    (batchSize : Int) (now : Time) :
    UpholdsSlots PossibleSlots (clearFinishedJobs env olderThan taskPath batchSize now) := by
  unfold DjQueue.clearFinishedJobs
  split
  · exact pure _
  · refine atomic (bind (of_reads Reads.getDb) fun db =>
      bind (of_reads (Reads.sliceTo _ _)) fun jobs => ?_)
    split
    · exact pure _
    · exact deleteJobsWithoutExecutionState env _

theorem clearFailedJobs (env : Env) (olderThan : Option Int) (taskPath : Option String)
    (batchSize : Int) (now : Time) :
    UpholdsSlots PossibleSlots (clearFailedJobs env olderThan taskPath batchSize now) := by
  unfold DjQueue.clearFailedJobs
  split
  · exact pure _
  · refine atomic (bind (of_reads Reads.getDb) fun db =>
      bind (of_reads (Reads.sliceTo _ _)) fun rows =>
      bind (consumeSelectedRows env _ _ _) fun consumed => ?_)
    split
    · exact pure _
    · exact deleteJobsWithoutExecutionState env _

theorem clearRecurringExecutions (env : Env) (olderThan : Option Int) (taskKey : Option String)
    (batchSize : Int) (now : Time) :
    UpholdsSlots PossibleSlots (clearRecurringExecutions env olderThan taskKey batchSize now) := by
  unfold DjQueue.clearRecurringExecutions
  split
  · exact pure _
  · exact atomic (bind (of_reads Reads.getDb) fun _ => bind (of_reads (Reads.sliceTo _ _)) fun _ =>
      bind (elsewhere fun _ => rfl) fun _ => pure _)

/-- Rows that are left are those that were there. -/
theorem PossibleSlots.delete {t : Table Semaphore} (possible : PossibleSlots t)
    (p : Semaphore → Bool) : PossibleSlots (t.deleteWhere p) where
  numbered :=
    ⟨possible.numbered.keys.sublist (List.filter_sublist.map _),
      possible.numbered.ids.sublist (List.filter_sublist.map _),
      fun r mem => possible.numbered.bound r (List.mem_of_mem_filter mem), possible.numbered.next⟩
  rows := Table.forall_deleteWhere possible.rows

/-- The cleanup of semaphores only deletes. -/
theorem cleanupExpiredSemaphores (batchSize : PyValue) :
    UpholdsSlots PossibleSlots (cleanupExpiredSemaphores batchSize) :=
  bind (ofExcept _) fun _ => bind (of_reads Reads.timezoneNow) fun _ =>
    atomic (bind (of_reads Reads.getDb) fun _ =>
      bind (modifyDb fun _ possible => PossibleSlots.delete possible _) fun _ => pure _)

end UpholdsSlots

end DjQueue
