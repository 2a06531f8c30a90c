import DjQueue.Lifecycle.Operations
import DjQueue.Slots.PossibleOperations

/-!
# The slot counts are possible in every reachable state

Whatever limits the policies have, however often they change, and whatever databases the processes
run on: no run of the system ever leaves a semaphore row that the deep health check would report.
-/

namespace DjQueue

open Relational

/-- However the session ends, the slot counts are possible if they were. -/
def EndsPossible {α : Type} (x : Op α) : Prop := EndsUpheld slotsOf PossibleSlots x

namespace EndsPossible

variable {α β : Type}

/-- What rolls back, and keeps the counts where it returns. -/
theorem of_rollsBack {x : Op α} (rolls : RollsBack x) (upholds : UpholdsSlots PossibleSlots x) :
    EndsPossible x :=
  EndsUpheld.of_undone (fun w e w' raised => congrArg Db.semaphores (rolls w e w' raised)) upholds

theorem of_reads {x : Op α} (reads : Reads x) : EndsPossible x :=
  of_rollsBack reads.raises (.of_reads reads)

theorem bind {x : Op α} {f : α → Op β} (first : EndsPossible x)
    (second : ∀ a, EndsPossible (f a)) : EndsPossible (x >>= f) := EndsUpheld.bind first second

/-! ## Calls of more than one transaction -/

theorem failClaimedJobsForProcess (env : Env) (process : Option Process) (failure : Failure)
    (deleteProcess : Bool) :
    EndsPossible (failClaimedJobsForProcess env process failure deleteProcess) := by
  cases process with
  | none => exact of_reads (Reads.pure _)
  | some p =>
      refine bind (of_reads Reads.getDb) fun db => bind (of_rollsBack
        (RollsBack.failClaimedJobs env _ failure) (.failClaimedJobs env _ failure)) fun failed =>
        bind ?_ fun _ => of_reads (Reads.pure _)
      cases deleteProcess with
      | false => exact of_reads (Reads.pure _)
      | true => exact of_rollsBack (RollsBack.atomic _) (.deregisterProcess p.id)

theorem failClaimedJobsForPid (env : Env) (pid : Int) (failure : Failure) :
    EndsPossible (failClaimedJobsForPid env pid failure) := by
  refine bind (of_reads Reads.getDb) fun db => ?_
  split
  · exact failClaimedJobsForProcess env _ failure true
  · exact of_reads (Reads.pure _)

/-- The slot that is taken again was given back just before, if the call got that far. -/
theorem releaseSlot (env : Env) (key : String) {limit : Int} (positive : 0 < limit)
    (duration : Int) : EndsPossible (releaseSlot env key limit duration) := by
  refine bind (of_rollsBack (RollsBack.unblockNextBlockedJob env key limit duration _)
    (.unblockNextBlockedJob (UpholdsSlots.updateKeeps_releaseClaimed positive))) fun unblocked => ?_
  split
  · exact of_reads (Reads.pure _)
  · apply EndsUpheld.bind_of (P := fun _ w => PossibleUnder key limit w.db.semaphores)
    · exact of_rollsBack (RollsBack.semaphoreRelease env _ _ _) (.semaphoreRelease positive)
    · exact fun w given w' possible run => UpholdsSlots.under_of_semaphoreRelease positive possible
        run
    · intro given w under _
      have ends : EndsUpheld slotsOf (PossibleUnder key limit)
          (unblockNextBlockedJob env key limit duration .consumeReleased >>= fun _ => pure ()) :=
        EndsUpheld.bind (EndsUpheld.of_undone
          (fun w e w' raised => congrArg Db.semaphores
            (RollsBack.unblockNextBlockedJob env key limit duration _ w e w' raised))
          (UpholdsSlots.unblockNextBlockedJob (UpholdsSlots.updateKeeps_consumeReleased positive)))
          fun _ => fun w holds => holds
      exact (ends w under).toPossibleSlots

theorem releaseConcurrencySlot (env : Env) (job : Job) (task : Option Imported) :
    EndsPossible (releaseConcurrencySlot env job task) := by
  unfold DjQueue.releaseConcurrencySlot
  split
  · exact of_reads (Reads.pure _)
  · apply EndsUpheld.bind_of (P := fun settings _ => 0 < settings.1)
    · exact of_reads (Reads.releaseSettings env job _ task)
    · exact fun w settings w' possible run =>
        (UpholdsSlots.positive_of_releaseSettings w settings w' possible run).2
    · exact fun settings w positive possible => releaseSlot env _ positive _ w possible

/-! ## Recurring tasks -/

theorem possible_of_publishes {env : Env} {db db' : Db} {r : Reservation}
    (publishes : Publishes env db r db') (possible : PossibleSlots db.semaphores) :
    PossibleSlots db'.semaphores := by
  have enqueued : ∀ {job : Job} {db₁ : Db}, Enqueues env db r job db₁ →
      PossibleSlots db₁.semaphores := by
    intro job db₁ enqueues
    cases enqueues with
    | found here backend => exact possible
    | @created w w' call outcome same absent called run =>
        subst same
        exact UpholdsSlots.enqueueJobWithDispatch env call true _ _ _ _ run possible
  cases publishes with
  | idle settled => exact possible
  | @attached job db₁ e row unlinked enqueues here free =>
      exact show PossibleSlots db₁.semaphores from enqueued enqueues
  | attachedOther row unlinked row' same linked enqueues => exact enqueued enqueues

theorem semaphores_of_reserves {env : Env} {db db' : Db} {task : RecurringTask} {runAt next : Time}
    {intended : JobId} {x : Option Reservation}
    (reserves : Reserves env db task runAt next intended x db') :
    db'.semaphores = db.semaphores := by
  cases reserves with
  | passed ahead => rfl
  | reserved due gets =>
      cases gets with
      | found here => rfl
      | created absent => rfl

theorem fireRecurringTask (env : Env) (taskId : Nat) (runAt : Time) :
    EndsPossible (fireRecurringTask env taskId runAt) := by
  refine bind (of_rollsBack (RollsBack.atomic _) ?_) fun reservation => ?_
  · intro w x w' run possible
    unfold slotsOf at possible ⊢
    rcases of_run_reserveRecurringTask run with ⟨-, same, -⟩ | ⟨task, next, -, -, -, -, -, reserves⟩
    · rw [same]
      exact possible
    · rw [semaphores_of_reserves reserves]
      exact possible
  · cases reservation with
    | none => exact of_reads (Reads.pure _)
    | some r =>
        refine of_rollsBack (RollsBack.atomic _) ?_
        exact fun w x w' run possible =>
          possible_of_publishes (of_run_publishReservedRecurringTask run) possible

theorem fireDueRecurringTasks (env : Env) (now : Time) (includeDynamicTasks : Bool)
    (batchSize : Option Int) :
    EndsPossible (fireDueRecurringTasks env now includeDynamicTasks batchSize) := by
  have leads : FiringsLead env (fun _ => True) (fun db => PossibleSlots db.semaphores)
      (fun _ db' => PossibleSlots db'.semaphores) :=
    ⟨fun _ possible => possible, fun _ _ _ _ possible => possible, fun _ _ possible => possible,
      fun taskId runAt _ => fireRecurringTask env taskId runAt⟩
  exact leads.fireDueRecurringTasks (fun _ => trivial) now includeDynamicTasks batchSize

end EndsPossible

/-! ## Operations -/

section Operations

variable {env : Env} {w : World}

theorem JobOperation.possible (op : JobOperation) (possible : PossibleSlots w.db.semaphores) :
    PossibleSlots (op.final env w).db.semaphores := by
  have ends : ∀ {α : Type} {x : Op α}, RollsBack x → UpholdsSlots PossibleSlots x →
      PossibleSlots (finalState x w).db.semaphores :=
    fun rolls upholds => EndsPossible.of_rollsBack rolls upholds w possible
  cases op with
  | enqueueJobWithDispatch call validate jobId =>
      exact ends (RollsBack.bind (Reads.ofExcept _) fun _ => RollsBack.atomic _)
        (.enqueueJobWithDispatch env call validate jobId)
  | enqueueJobsBulk calls validate =>
      exact ends (RollsBack.enqueueJobsBulk env calls validate) (.enqueueJobsBulk env _ _)
  | claimReadyJobs limit queues process =>
      exact ends (RollsBack.claimReadyJobs env limit queues process) (.claimReadyJobs env _ _ _)
  | completeClaimedJob arg returnValue task =>
      exact ends (RollsBack.bind (Reads.resolveClaimedJob env arg) fun _ => RollsBack.atomic _)
        (.completeClaimedJob env _ _ _)
  | failClaimedJob arg failure task =>
      exact ends (RollsBack.bind (Reads.resolveClaimedJob env arg) fun _ => RollsBack.atomic _)
        (.failClaimedJob env _ _ _)
  | promoteScheduledJobs batchSize =>
      exact ends (RollsBack.promoteScheduledJobs env batchSize) (.promoteScheduledJobs env _)
  | dispatchScheduledJobNow jobId =>
      exact ends (RollsBack.atomic _) (.dispatchScheduledJobNow env _)
  | scheduleFailedJobRetry jobId retryAt =>
      exact ends (RollsBack.atomic _) (.scheduleFailedJobRetry env _ _)
  | retryFailedJob jobId => exact ends (RollsBack.atomic _) (.retryFailedJob env _)
  | retryFailedJobs jobIds batchSize => exact ends (RollsBack.atomic _) (.retryFailedJobs env _ _)
  | promoteFailedJobRetries batchSize =>
      exact ends (RollsBack.promoteFailedJobRetries env batchSize) (.promoteFailedJobRetries env _)
  | discardReadyJobs jobIds batchSize | discardReadyJobsForQueue queueName batchSize
  | discardScheduledJobs jobIds batchSize | discardBlockedJobs jobIds batchSize
  | discardFailedJob jobId | discardFailedJobs jobIds batchSize =>
      exact ends (RollsBack.atomic _) (.discardStateJobs env _ _ _ _ _)
  | clearFinishedJobs olderThan taskPath batchSize now =>
      exact ends RollsBack.retained (.clearFinishedJobs env _ _ _ _)
  | clearFailedJobs olderThan taskPath batchSize now =>
      exact ends RollsBack.retained (.clearFailedJobs env _ _ _ _)
  | clearRecurringExecutions olderThan taskKey batchSize now =>
      exact ends RollsBack.retained (.clearRecurringExecutions env _ _ _ _)
  | promoteExpiredBlockedJobs batchSize =>
      exact ends (RollsBack.promoteExpiredBlockedJobs env batchSize)
        (.promoteExpiredBlockedJobs env _)
  | cleanupExpiredSemaphores batchSize =>
      exact ends (RollsBack.cleanupExpiredSemaphores batchSize) (.cleanupExpiredSemaphores _)
  | releaseConcurrencySlot job task =>
      exact EndsPossible.releaseConcurrencySlot env job task w possible
  | registerProcess pid name supervisorId =>
      exact ends (RollsBack.registerProcess env pid name supervisorId) (.registerProcess env _ _ _)
  | touchProcessRow processId =>
      exact ends (RollsBack.touchProcessRow processId)
        (.bind (.of_reads Reads.timezoneNow) fun _ => .elsewhere fun _ => rfl)
  | deregisterProcess processId => exact ends (RollsBack.atomic _) (.deregisterProcess _)
  | failOrphanedClaimedJobs failure batchSize =>
      exact ends (RollsBack.atomic _) (.failOrphanedClaimedJobs env _ _)
  | failClaimedJobsForProcess process failure deleteProcess =>
      exact EndsPossible.failClaimedJobsForProcess env process failure deleteProcess w possible
  | failClaimedJobsForPid pid failure =>
      exact EndsPossible.failClaimedJobsForPid env pid failure w possible
  | failClaimedJobsForChild pid name supervisorId failure =>
      exact EndsPossible.bind (.of_reads Reads.getDb)
        (fun _ => EndsPossible.failClaimedJobsForProcess env _ failure true) w possible
  | pruneStaleProcesses cutoff failure excluded batchSize =>
      exact ends (RollsBack.atomic _) (.pruneStaleProcesses env _ _ _ _)

theorem possible_of_edits {α : Type} {A : String} {x : Op α} (edits : EditsTasks A x)
    (possible : PossibleSlots w.db.semaphores) : PossibleSlots (finalState x w).db.semaphores := by
  rcases edits w trivial with ⟨t, same, -⟩
  rw [same]
  exact possible

theorem Operation.possible (op : Operation) (possible : PossibleSlots w.db.semaphores) :
    PossibleSlots (op.final env w).db.semaphores := by
  cases op with
  | job op => exact op.possible possible
  | pauseQueue queueName =>
      have pauses : EndsPossible (DjQueue.pauseQueue env queueName) := by
        refine .bind (.of_rollsBack (RollsBack.atomic _) (.atomic ?_)) fun _ =>
          .bind (.of_rollsBack (RollsBack.atomic _) (.atomic ?_)) fun _ => .of_reads (Reads.pure _)
        · exact .bind (.of_reads Reads.timezoneNow) fun _ => .bind (.of_reads Reads.getDb) fun _ =>
            .runIf _ (.elsewhere fun _ => rfl)
        · exact .bind (.of_reads Reads.getDb) fun _ => .pure _
      exact pauses w possible
  | resumeQueue queueName resumedAt =>
      apply EndsPossible.of_rollsBack (RollsBack.atomic _) _ w possible
      refine .atomic (.bind (.of_reads Reads.getDb) fun db =>
        .bind (.of_reads Reads.timezoneNow) fun now => ?_)
      split
      · exact .pure _
      · exact .bind (.elsewhere fun _ => rfl) fun _ => .pure _
  | scheduleRecurringTask key taskPath schedule payload queueName priority description =>
      exact possible_of_edits (EditsTasks.scheduleRecurringTask key taskPath schedule payload
        queueName priority description) possible
  | unscheduleRecurringTask key =>
      exact possible_of_edits (EditsTasks.unscheduleRecurringTask key) possible
  | upsertStaticRecurringTasks configs =>
      exact possible_of_edits (EditsTasks.upsertStaticRecurringTasks configs) possible
  | fireRecurringTask taskId runAt =>
      exact EndsPossible.fireRecurringTask env taskId runAt w possible
  | fireDueRecurringTasks now includeDynamicTasks batchSize =>
      exact EndsPossible.fireDueRecurringTasks env now includeDynamicTasks batchSize w possible

end Operations

/-! ## Reachable states -/

theorem possibleSlots_of_reachable {tracked : Option (String × Int)} {db : Db}
    (reached : Reachable tracked db) : PossibleSlots db.semaphores := by
  induction reached with
  | refl =>
      exact ⟨⟨List.nodup_nil, List.nodup_nil, fun _ mem => absurd mem List.not_mem_nil,
        Nat.one_ne_zero⟩, fun _ mem => absurd mem List.not_mem_nil⟩
  | tail _ step ih =>
      cases step with
      | operation env op clock uuids promised => exact op.possible ih
      | policies policy resolves => exact ih

end DjQueue
