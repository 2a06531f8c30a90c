import DjQueue.Lifecycle.Claims

/-!
# Promotions, retries, discards and retention along the edges

What is taken out of a state table is dispatched again or deleted; waiters whose time is up are
made ready, fail, or wait on.
-/

namespace DjQueue

open Relational

/-- What is taken out of this state may be dispatched again. -/
structure Redispatches (edges : List Edge) (m : StateModel) : Prop where
  ready : passes m .ready ∈ edges
  scheduled : m = .scheduled ∨ passes m .scheduled ∈ edges
  blocked : passes m .blocked ∈ edges
  finished : finishes m ∈ edges
  first : ∀ p, (p, some (.live m)) ∉ edges

/-- A job that was taken from its state may get another. -/
theorem Redispatches.assignable {edges : List Edge} {m : StateModel} {start : Db} {id : JobId}
    (redispatches : Redispatches edges m) (apart : start.Exclusive)
    (comes : Comes edges start (some (.live m)) id) : Assignable edges start id where
  ready := comes.along redispatches.first redispatches.ready
  scheduled := by
    rcases redispatches.scheduled with same | edge
    · exact same ▸ comes
    · exact comes.along redispatches.first edge
  blocked := comes.along redispatches.first redispatches.blocked
  finished := comes.along redispatches.first redispatches.finished
  unfinished := apart _ _ (comes.stayed redispatches.first)

namespace Steers

variable {α : Type} {edges : List Edge} {start : Db} {env : Env} {w w' : World}

/-! ## Dispatched again -/

section Redispatch

variable {m : StateModel} (redispatches : Redispatches edges m) (apart : start.Exclusive)

include redispatches apart

/-- The consumed rows are dispatched again. -/
theorem redispatchConsumed {rows consumed : List (m.Row × Job)} {isolate reset : Bool}
    (comes : ∀ r ∈ rows, Comes edges start (some (.live m)) r.2.id)
    (some_ : ∀ r ∈ consumed, r ∈ rows)
    (fails : isolate = true → passes m .failed ∈ edges ∨ m = .failed) :
    Steers edges start (DjQueue.redispatchJobs env (consumed.map Prod.snd) isolate reset) := by
  have of_mem : ∀ j ∈ consumed.map Prod.snd, Comes edges start (some (.live m)) j.id := by
    intro j mem
    rcases List.mem_map.mp mem with ⟨r, there, rfl⟩
    exact comes r (some_ r there)
  apply redispatchJobs
  · exact fun j mem => redispatches.assignable apart (of_mem j mem)
  · intro isolated j mem
    rcases fails isolated with edge | same
    · exact (of_mem j mem).along redispatches.first edge
    · exact same ▸ of_mem j mem

end Redispatch

/-- Scheduled jobs are promoted, or fail by their policies. -/
theorem promoteScheduledJobs (redispatches : Redispatches edges .scheduled)
    (fails : passes .scheduled .failed ∈ edges) (apart : start.Exclusive) (env : Env)
    (batchSize : Int) : Steers edges start (promoteScheduledJobs env batchSize) := by
  apply bind (of_reads Reads.timezoneNow)
  intro now
  apply Relates.atomic
  intro w jobs w' run follows
  rcases Runs.of_bind run with ⟨db, w₁, got, rest⟩
  rcases of_run_getDb got with ⟨rfl, rfl⟩
  rcases Runs.of_bind rest with ⟨rows, w₂, sliced, rest⟩
  rcases of_run_sliceTo sliced with ⟨taken, same⟩
  rw [same] at rest
  rcases Runs.of_bind rest with ⟨u, w₃, checked, rest⟩
  rw [(of_run_ensureStateRowsBelongToBackend (m := .scheduled) checked).1] at rest
  rcases Runs.of_bind rest with ⟨consumed, w₄, consume, rest⟩
  have follows₄ := consumeSelectedRows env .scheduled _ rows _ _ _ consume follows
  have comes : ∀ r ∈ rows, Comes edges start (some (.live .scheduled)) r.2.id := by
    intro r mem
    rw [taken] at mem
    exact follows.comes_of_selected (m := .scheduled)
      (fun r mem => List.mem_of_mem_filter (mem_orderBy.mp mem)) r (List.mem_of_mem_take mem)
  split at rest
  · exact pure _ _ _ _ rest follows₄
  · exact (bind (redispatchConsumed (m := .scheduled) redispatches apart comes
      (mem_of_consumeSelectedRows consume) fun _ => .inl fails) fun _ => pure _) _ _ _ rest follows₄

/-- A scheduled job is dispatched by hand. -/
theorem dispatchScheduledJobNow (redispatches : Redispatches edges .scheduled)
    (apart : start.Exclusive) (env : Env) (jobId : JobId) :
    Steers edges start (dispatchScheduledJobNow env jobId) := by
  apply Relates.atomic
  intro w result w' run follows
  rcases Runs.of_bind run with ⟨db, w₁, got, rest⟩
  rcases of_run_getDb got with ⟨rfl, rfl⟩
  split at rest
  · exact (Runs.of_throw rest).elim
  · rename_i scheduled others selection
    have comes : Comes edges start (some (.live .scheduled)) scheduled.2.id :=
      follows.comes_of_selected (m := .scheduled) (fun r mem => List.mem_of_mem_filter mem)
        scheduled (selection ▸ List.mem_cons_self)
    have assignable : Assignable edges start ({ scheduled.2 with scheduledAt := none } : Job).id :=
      redispatches.assignable apart comes
    apply (bind (of_spares (.ensureStateRowsBelongToBackend (m := .scheduled) _ _)) fun _ =>
      bind (consumeSelectedRows env .scheduled _ _) fun consumed => ?_) _ _ _ rest follows
    split
    · exact throw _
    · apply bind
      · apply updateJobsWhere
        · exact fun _ => rfl
        · intro j hit
          rw [beq_iff_eq.mp hit]
          exact ⟨assignable.unfinished, fun _ => assignable.finished⟩
      · exact fun _ => bind (dispatchJob assignable _ _) fun _ => pure _

theorem retryFailedRows (redispatches : Redispatches edges .failed) (apart : start.Exclusive)
    (env : Env) {rows : List (FailedExecution × Job)}
    (comes : ∀ r ∈ rows, Comes edges start (some (.live .failed)) r.2.id) :
    Steers edges start (retryFailedRows env rows) := by
  intro w jobs w' run follows
  rcases Runs.of_bind run with ⟨consumed, w₁, consume, rest⟩
  have follows₁ := consumeSelectedRows env .failed _ rows _ _ _ consume follows
  split at rest
  · exact pure _ _ _ _ rest follows₁
  · exact (bind (redispatchConsumed (m := .failed) redispatches apart comes
      (mem_of_consumeSelectedRows consume) fun _ => .inr rfl) fun _ => pure _) _ _ _ rest follows₁

/-- One failed job is dispatched again. -/
theorem retryFailedJob (redispatches : Redispatches edges .failed) (apart : start.Exclusive)
    (env : Env) (jobId : JobId) : Steers edges start (retryFailedJob env jobId) := by
  apply Relates.atomic
  intro w job w' run follows
  rcases Runs.of_bind run with ⟨db, w₁, got, rest⟩
  rcases of_run_getDb got with ⟨rfl, rfl⟩
  split at rest
  · exact (Runs.of_throw rest).elim
  · rename_i failed found
    rcases Runs.of_bind rest with ⟨consumed, w₂, consume, rest⟩
    have follows₂ := consumeSelectedRows env .failed _ [failed] _ _ _ consume follows
    split at rest
    · exact (Runs.of_throw rest).elim
    · refine (bind (redispatchConsumed (m := .failed) redispatches apart ?_
        (mem_of_consumeSelectedRows consume) fun _ => .inr rfl) fun _ => pure _) _ _ _ rest follows₂
      intro r mem
      rw [List.mem_singleton.mp mem]
      exact follows.comes_of_selected (m := .failed) (fun r mem => List.mem_of_mem_filter mem)
        failed (List.mem_of_find?_eq_some found)

/-- The failed rows of the backend, as they are read. -/
theorem comes_of_failedOfBackend {db : Db} (follows : Follows edges start db)
    (le : FailedExecution → FailedExecution → Bool) (p : FailedExecution → Bool) (n : Nat) :
    ∀ r ∈ (failedOfBackend db env (orderBy le (db.failed.rows.filter p))).take n,
      Comes edges start (some (.live .failed)) r.2.id := by
  intro r mem
  exact follows.comes_of_selected (m := .failed)
    (fun r mem => List.mem_of_mem_filter (mem_orderBy.mp mem)) r
    (List.mem_of_mem_filter (List.mem_of_mem_take mem))

/-- Failed jobs by their keys, or all. -/
theorem retryFailedJobs (redispatches : Redispatches edges .failed) (apart : start.Exclusive)
    (env : Env) (jobIds : Option (List JobId)) (batchSize : Int) :
    Steers edges start (retryFailedJobs env jobIds batchSize) := by
  apply Relates.atomic
  intro w n w' run follows
  rcases Runs.of_bind run with ⟨db, w₁, got, rest⟩
  rcases of_run_getDb got with ⟨rfl, rfl⟩
  rcases Runs.of_bind rest with ⟨rows, w₂, sliced, rest⟩
  rcases of_run_sliceTo sliced with ⟨taken, same⟩
  rw [same, taken] at rest
  exact (bind (retryFailedRows redispatches apart env (comes_of_failedOfBackend follows _ _ _))
    fun _ => pure _) _ _ _ rest follows

theorem promoteFailedJobRetries (redispatches : Redispatches edges .failed)
    (apart : start.Exclusive) (env : Env) (batchSize : Int) :
    Steers edges start (promoteFailedJobRetries env batchSize) := by
  apply bind (of_reads Reads.timezoneNow)
  intro now
  apply Relates.atomic
  intro w jobs w' run follows
  rcases Runs.of_bind run with ⟨db, w₁, got, rest⟩
  rcases of_run_getDb got with ⟨rfl, rfl⟩
  rcases Runs.of_bind rest with ⟨rows, w₂, sliced, rest⟩
  rcases of_run_sliceTo sliced with ⟨taken, same⟩
  rw [same, taken] at rest
  exact retryFailedRows redispatches apart env (comes_of_failedOfBackend follows _ _ _) _ _ _ rest
    follows

/-- The row of a failed job gets another `retry_at`. -/
theorem scheduleFailedJobRetry (env : Env) (jobId : JobId) (retryAt : Time) :
    Steers edges start (scheduleFailedJobRetry env jobId retryAt) := by
  apply Relates.atomic
  apply bind (of_reads Reads.getDb)
  intro db
  split
  · exact throw _
  · exact bind (modifyDb fun db => courseParts_updateWhere db .failed fun _ => rfl) fun _ =>
      pure _

/-! ## Waiters whose time is up -/

section Expired

variable (handsOn : HandsOn edges) (fails : passes .blocked .failed ∈ edges)

include handsOn fails

/-- An expired waiter becomes ready, waits on or fails. -/
theorem promoteExpiredBlockedJob (env : Env) (now : Time) (consumed : Bool)
    {blocked : BlockedExecution} {job : Job} (cache : TaskSettings)
    (comes : Comes edges start (some (.live .blocked)) job.id) :
    Steers edges start (promoteExpiredBlockedJob env now consumed blocked job cache) := by
  unfold DjQueue.promoteExpiredBlockedJob
  split
  · apply bind _ fun _ => pure _
    apply bind
    · unfold DjQueue.consumeUnless
      split
      · exact pure _
      · exact consumeSelectedRows env .blocked _ _
    · intro rows
      split
      · exact pure _
      · exact bind (ensureJobIdsHaveNoOtherExecutionState _ _) fun _ =>
          bind (createRow (m := .failed) _ (comes.along handsOn.waits fails)) fun _ => pure _
  · exact throw _
  · apply bind (of_spares (.semaphoreAcquire slots_courseParts env _ _ _))
    intro acquired
    split
    · apply bind _ fun _ => pure _
      exact bind (runIf _ (bind (deleteRowsWhere .blocked _) fun _ => pure _)) fun _ =>
        createReadyExecution (comes.along handsOn.waits handsOn.ready)
    · apply bind (ofExcept _)
      intro expiresAt
      apply bind _ fun _ => pure _
      unfold DjQueue.renewBlockedExecution
      split
      · exact createBlockedExecution comes
      · exact modifyDb fun db => courseParts_updateWhere db .blocked fun _ => rfl

/-- The waiters of a batch, one after the other. -/
theorem promoteExpiredLoop (env : Env) (now : Time) (consumed : Bool) :
    ∀ {rows : List (BlockedExecution × Job)} (cache : TaskSettings),
      (∀ r ∈ rows, Comes edges start (some (.live .blocked)) r.2.id) →
      Steers edges start (promoteExpiredLoop env now consumed rows cache)
  | [], _, _ => pure _
  | (_, _) :: _, cache, comes =>
      bind (promoteExpiredBlockedJob handsOn fails env now consumed cache
        (comes _ List.mem_cons_self)) fun result =>
        bind (promoteExpiredLoop env now consumed result.2
          fun r mem => comes r (List.mem_cons_of_mem _ mem)) fun _ => pure _

theorem promoteExpiredBlockedJobs (env : Env) (batchSize : Int) :
    Steers edges start (promoteExpiredBlockedJobs env batchSize) := by
  apply bind (of_reads Reads.timezoneNow)
  intro now
  apply Relates.atomic
  intro w jobs w' run follows
  rcases Runs.of_bind run with ⟨db, w₁, got, rest⟩
  rcases of_run_getDb got with ⟨rfl, rfl⟩
  rcases Runs.of_bind rest with ⟨rows, w₂, sliced, rest⟩
  rcases of_run_sliceTo sliced with ⟨taken, same⟩
  rw [same] at rest
  have comes : ∀ r ∈ rows, Comes edges start (some (.live .blocked)) r.2.id := by
    intro r mem
    rw [taken] at mem
    exact follows.comes_of_selected (m := .blocked)
      (fun r mem => List.mem_of_mem_filter (mem_orderBy.mp mem)) r (List.mem_of_mem_take mem)
  rcases Runs.of_bind rest with ⟨u, w₃, checked, rest⟩
  rw [(of_run_ensureStateRowsBelongToBackend (m := .blocked) checked).1] at rest
  rcases Runs.of_bind rest with ⟨consumed, w₄, consume, rest⟩
  have chosen : Follows edges start w₄.db ∧ ∀ r ∈ consumed, r ∈ rows := by
    unfold DjQueue.consumeUnless at consume
    split at consume
    · rcases Runs.of_pure consume with ⟨rfl, rfl⟩
      exact ⟨follows, fun _ mem => mem⟩
    · exact ⟨consumeSelectedRows env .blocked _ _ _ _ _ consume follows,
        mem_of_consumeSelectedRows consume⟩
  exact (bind (promoteExpiredLoop handsOn fails env _ _ _ fun r mem => comes r (chosen.2 r mem))
    fun _ => pure _) _ _ _ rest chosen.1

end Expired

/-! ## Discards -/

/-- The jobs of the rows that are discarded go; the slots of active ones are handed on. -/
theorem follows_of_discardStateJobs {m : StateModel} {jobIds : Option (List JobId)}
    {batchSize : Int} {release : Bool} {queueName : Option String} {n : Nat}
    (gone : leaves m ∈ edges) (handsOn : release = true → HandsOn edges)
    (run : Runs (discardStateJobs env m jobIds batchSize release queueName) w n w') :
    Follows edges w.db w'.db := by
  rcases Runs.of_bind (Runs.of_atomic run) with ⟨db, w₁, got, rest⟩
  rcases of_run_getDb got with ⟨rfl, rfl⟩
  rcases Runs.of_bind rest with ⟨rows, w₂, sliced, rest⟩
  rcases of_run_sliceTo sliced with ⟨taken, same⟩
  rw [same] at rest
  rcases Runs.of_bind rest with ⟨u, w₃, checked, rest⟩
  rw [(of_run_ensureStateRowsBelongToBackend checked).1] at rest
  rcases Runs.of_bind rest with ⟨consumed, w₄, consume, rest⟩
  have follows₄ : Follows edges w₁.db w₄.db :=
    consumeSelectedRows env m _ rows _ _ _ consume (.refl _ _)
  apply (bind (ensureJobIdsHaveNoOtherExecutionState _ _) fun _ =>
    bind (of_reads Reads.getDb) fun db' => bind (deleteJobsWhere fun j hit => ?_) fun _ =>
    bind ?_ fun _ => pure _) _ _ _ rest follows₄
  · rcases List.mem_map.mp (List.contains_iff_mem.mp hit) with ⟨r, there, same⟩
    have inRows := mem_of_consumeSelectedRows consume r there
    rw [taken] at inRows
    have live := (of_mem_selectRelatedJob (fun r mem => mem_orderBy.mp mem)
      (List.mem_of_mem_filter (List.mem_of_mem_take inRows))).1
    rw [same] at live
    exact .inr ⟨_, gone, live⟩
  · cases release with
    | false => exact pure _
    | true => exact releaseAll (handsOn rfl) env _

/-! ## Retention -/

/-- Jobs that may be deleted are deleted. -/
theorem deleteJobsWithoutExecutionState {ids : List JobId}
    (gone : ∀ id ∈ ids, Comes edges start none id) :
    Steers edges start (deleteJobsWithoutExecutionState env ids) := by
  apply bind (ensureJobIdsHaveNoOtherExecutionState _ _)
  intro _
  apply deleteJobsWhere
  intro j hit
  exact gone _ (List.contains_iff_mem.mp (Bool.and_eq_true_iff.mp hit).2)

theorem follows_of_clearFinishedJobs {olderThan : Option Int} {taskPath : Option String}
    {batchSize : Int} {now : Time} {n : Nat} (gone : (some .finished, none) ∈ edges)
    (run : Runs (clearFinishedJobs env olderThan taskPath batchSize now) w n w') :
    Follows edges w.db w'.db := by
  unfold DjQueue.clearFinishedJobs at run
  split at run
  · exact pure _ _ _ _ run (.refl _ _)
  · rcases Runs.of_bind (Runs.of_atomic run) with ⟨db, w₁, got, rest⟩
    rcases of_run_getDb got with ⟨rfl, rfl⟩
    rcases Runs.of_bind rest with ⟨jobs, w₂, sliced, rest⟩
    rcases of_run_sliceTo sliced with ⟨taken, same⟩
    rw [same] at rest
    split at rest
    · exact pure _ _ _ _ rest (.refl _ _)
    · refine deleteJobsWithoutExecutionState ?_ _ _ _ rest (.refl _ _)
      intro id mem
      rcases List.mem_map.mp mem with ⟨j, there, rfl⟩
      rw [taken] at there
      have old := List.mem_filter.mp (mem_orderBy.mp (List.mem_of_mem_take there))
      simp only [Bool.and_eq_true] at old
      rcases (Option.any_eq_true _ _).mp old.2.1.2 with ⟨t, done, -⟩
      exact .inr ⟨_, gone, j, old.1, rfl, by rw [done]; rfl⟩

theorem follows_of_clearFailedJobs {olderThan : Option Int} {taskPath : Option String}
    {batchSize : Int} {now : Time} {n : Nat} (gone : leaves .failed ∈ edges)
    (run : Runs (clearFailedJobs env olderThan taskPath batchSize now) w n w') :
    Follows edges w.db w'.db := by
  unfold DjQueue.clearFailedJobs at run
  split at run
  · exact pure _ _ _ _ run (.refl _ _)
  · rcases Runs.of_bind (Runs.of_atomic run) with ⟨db, w₁, got, rest⟩
    rcases of_run_getDb got with ⟨rfl, rfl⟩
    rcases Runs.of_bind rest with ⟨rows, w₂, sliced, rest⟩
    rcases of_run_sliceTo sliced with ⟨taken, same⟩
    rw [same] at rest
    rcases Runs.of_bind rest with ⟨consumed, w₃, consume, rest⟩
    have follows₃ : Follows edges w₁.db w₃.db :=
      consumeSelectedRows env .failed _ rows _ _ _ consume (.refl _ _)
    split at rest
    · exact pure _ _ _ _ rest follows₃
    · refine deleteJobsWithoutExecutionState ?_ _ _ _ rest follows₃
      intro id mem
      rcases List.mem_map.mp mem with ⟨r, there, rfl⟩
      have inRows := mem_of_consumeSelectedRows consume r there
      rw [taken] at inRows
      exact .inr ⟨_, gone, (of_mem_selectRelatedJob (m := .failed)
        (fun r mem => List.mem_of_mem_filter (mem_orderBy.mp mem))
        (List.mem_of_mem_filter (List.mem_of_mem_filter (List.mem_of_mem_take inRows)))).1⟩

theorem clearRecurringExecutions (env : Env) (olderThan : Option Int) (taskKey : Option String)
    (batchSize : Int) (now : Time) :
    Steers edges start (clearRecurringExecutions env olderThan taskKey batchSize now) := by
  unfold DjQueue.clearRecurringExecutions
  split
  · exact pure _
  · apply Relates.atomic
    exact bind (of_reads Reads.getDb) fun _ => bind (of_reads (Reads.sliceTo _ _)) fun _ =>
      bind (modifyDb fun _ => rfl) fun _ => pure _

theorem cleanupExpiredSemaphores (batchSize : PyValue) :
    Steers edges start (cleanupExpiredSemaphores batchSize) := by
  apply bind (ofExcept _)
  intro batch
  apply bind (of_reads Reads.timezoneNow)
  intro now
  apply Relates.atomic
  exact bind (of_reads Reads.getDb) fun _ => bind (modifyDb fun _ => rfl) fun _ => pure _

end Steers

end DjQueue
