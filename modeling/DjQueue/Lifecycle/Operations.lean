import DjQueue.Lifecycle.Creations
import DjQueue.System.Invariants

/-!
# The lifecycle of a job

For each operation the edges it may take a job along.  Slots are handed on by the operations that
end a claim, discard a ready job or release a slot, so these may make a waiter ready as well.
-/

namespace DjQueue

open Relational

/-- A waiter is given a slot. -/
def handOff : Edge := passes .blocked .ready

/-- A claim that is completed ends in a result, or with the job where no results are kept. -/
def completions (config : Config) : List Edge :=
  if config.preserveFinishedJobs then [finishes .claimed, handOff] else [leaves .claimed, handOff]

namespace JobOperation

/-- Where the call may take a job from one status to another. -/
def edges (config : Config) : JobOperation → List Edge
  | enqueueJobWithDispatch _ _ _ | enqueueJobsBulk _ _ => creations
  | claimReadyJobs _ _ _ => [passes .ready .claimed]
  | completeClaimedJob _ _ _ => completions config
  | failClaimedJob _ _ _ | failOrphanedClaimedJobs _ _ | failClaimedJobsForProcess _ _ _
  | failClaimedJobsForPid _ _ | failClaimedJobsForChild _ _ _ _ | pruneStaleProcesses _ _ _ _ =>
      [passes .claimed .failed, handOff]
  | promoteScheduledJobs _ =>
      [passes .scheduled .ready, passes .scheduled .blocked, finishes .scheduled,
        passes .scheduled .failed]
  | dispatchScheduledJobNow _ =>
      [passes .scheduled .ready, passes .scheduled .blocked, finishes .scheduled]
  | retryFailedJob _ | retryFailedJobs _ _ | promoteFailedJobRetries _ =>
      [passes .failed .ready, passes .failed .scheduled, passes .failed .blocked, finishes .failed]
  | discardReadyJobs _ _ | discardReadyJobsForQueue _ _ => [leaves .ready, handOff]
  | discardScheduledJobs _ _ => [leaves .scheduled]
  | discardBlockedJobs _ _ => [leaves .blocked]
  | discardFailedJob _ | discardFailedJobs _ _ | clearFailedJobs _ _ _ _ => [leaves .failed]
  | clearFinishedJobs _ _ _ _ => [(some .finished, none)]
  | promoteExpiredBlockedJobs _ => [handOff, passes .blocked .failed]
  | releaseConcurrencySlot _ _ => [handOff]
  | scheduleFailedJobRetry _ _ | clearRecurringExecutions _ _ _ _ | cleanupExpiredSemaphores _
  | registerProcess _ _ _ | touchProcessRow _ | deregisterProcess _ => []

end JobOperation

/-- The edges an operation may take jobs along. -/
def Operation.edges (config : Config) : Operation → List Edge
  | job op => op.edges config
  | fireRecurringTask _ _ | fireDueRecurringTasks _ _ _ => creations
  | pauseQueue _ | resumeQueue _ _ | scheduleRecurringTask _ _ _ _ _ _ _
  | unscheduleRecurringTask _ | upsertStaticRecurringTasks _ => []

/-! ## Every call follows its edges -/

section Calls

variable {edges : List Edge} {env : Env} {w : World} {α : Type} {x : Op α}

/-- What ends on course follows its edges. -/
theorem follows_of_ends (ends : EndsOnCourse edges w.db x) :
    Follows edges w.db (finalState x w).db := ends w (.refl _ _)

/-- What rolls back and steers follows its edges. -/
theorem follows_of_steers (rolls : RollsBack x) (steers : Steers edges w.db x) :
    Follows edges w.db (finalState x w).db := follows_of_ends (.of_rollsBack rolls steers)

/-- What a discard or a retention reads, it reads at the start. -/
theorem follows_of_returns (rolls : RollsBack x)
    (returns : ∀ a w', Runs x w a w' → Follows edges w.db w'.db) :
    Follows edges w.db (finalState x w).db := by
  rcases runs_or_raises x w with ⟨a, run, -⟩ | ⟨e, raised, -⟩
  · exact returns a _ run
  · rw [rolls _ _ _ raised]
    exact .refl _ _

end Calls

section Edges

variable {edges : List Edge}

/-- No edge of the list leads to this status. -/
theorem avoids {q : Option JobStatus} (others : ∀ e ∈ edges, e.2 ≠ q) (p : Option JobStatus) :
    (p, q) ∉ edges := fun mem => others _ mem rfl

/-- A set of edges along which slots may be handed on. -/
theorem handsOn_of_edges (ready : handOff ∈ edges)
    (waits : ∀ e ∈ edges, e.2 ≠ some (.live .blocked)) : HandsOn edges := ⟨ready, avoids waits⟩

theorem endsClaims_failures : EndsClaims [passes .claimed .failed, handOff] where
  toHandsOn := handsOn_of_edges (by decide) (by decide)
  claims := avoids (by decide)

theorem endsClaims_completions (config : Config) : EndsClaims (completions config) := by
  unfold completions
  split <;> exact ⟨handsOn_of_edges (by decide) (by decide), avoids (by decide)⟩

/-- The edges of a promotion, whose policies may fail. -/
theorem redispatches_promoted :
    Redispatches [passes .scheduled .ready, passes .scheduled .blocked, finishes .scheduled,
      passes .scheduled .failed] .scheduled :=
  ⟨by decide, .inl rfl, by decide, by decide, avoids (by decide)⟩

theorem redispatches_scheduled :
    Redispatches [passes .scheduled .ready, passes .scheduled .blocked, finishes .scheduled]
      .scheduled :=
  ⟨by decide, .inl rfl, by decide, by decide, avoids (by decide)⟩

theorem redispatches_failed :
    Redispatches [passes .failed .ready, passes .failed .scheduled, passes .failed .blocked,
      finishes .failed] .failed :=
  ⟨by decide, .inr (by decide), by decide, by decide, avoids (by decide)⟩

theorem handsOn_discards : HandsOn [leaves .ready, handOff] :=
  handsOn_of_edges (by decide) (by decide)

/-- The edges of a promotion of waiters. -/
theorem handsOn_expired : HandsOn [handOff, passes .blocked .failed] :=
  handsOn_of_edges (by decide) (by decide)

theorem handsOn_released : HandsOn [handOff] := handsOn_of_edges (by decide) (by decide)

theorem ready_first : ∀ p, (p, some (.live .ready)) ∉ [passes .ready .claimed] :=
  avoids (by decide)

theorem creates_creations : Creates creations := ⟨fun _ mem => mem, avoids (by decide)⟩

end Edges

namespace JobOperation

variable {tracked : Option (String × Int)} {env : Env} {w : World}

/-- Whatever the call does and however it ends, the jobs follow its edges. -/
theorem follows (op : JobOperation) (sound : Sound tracked w.db) :
    Follows (op.edges env.config) w.db (op.final env w).db := by
  rcases sound.opened env [] List.nodup_nil (fun _ mem => absurd mem List.not_mem_nil) [] with
    ⟨a, opened⟩
  have good := opened.accounts
  have apart := good.exclusive
  cases op with
  | enqueueJobWithDispatch call validate jobId =>
      exact follows_of_steers (RollsBack.bind (Reads.ofExcept _) fun _ => RollsBack.atomic _)
        (.enqueueJobWithDispatch creates_creations env call validate jobId)
  | enqueueJobsBulk calls validate =>
      exact follows_of_steers (RollsBack.enqueueJobsBulk env calls validate)
        (.enqueueJobsBulk creates_creations env calls validate)
  | claimReadyJobs limit queues process =>
      apply follows_of_returns (RollsBack.claimReadyJobs env limit queues process)
      exact fun _ _ run => Steers.follows_of_claimReadyJobs good List.mem_cons_self ready_first run
  | completeClaimedJob arg returnValue task =>
      apply follows_of_steers (RollsBack.bind (Reads.resolveClaimedJob env arg) fun _ =>
        RollsBack.atomic _)
      apply Steers.completeClaimedJob (endsClaims_completions env.config) apart
      · intro preserves
        simp [completions, preserves]
      · intro deletes
        simp [completions, deletes]
  | failClaimedJob arg failure task =>
      exact follows_of_steers (RollsBack.bind (Reads.resolveClaimedJob env arg) fun _ =>
        RollsBack.atomic _) (.failClaimedJob endsClaims_failures (by decide) env arg failure task)
  | promoteScheduledJobs batchSize =>
      exact follows_of_steers (RollsBack.promoteScheduledJobs env batchSize)
        (.promoteScheduledJobs redispatches_promoted (by decide) apart env _)
  | dispatchScheduledJobNow jobId =>
      exact follows_of_steers (RollsBack.atomic _)
        (.dispatchScheduledJobNow redispatches_scheduled apart env jobId)
  | scheduleFailedJobRetry jobId retryAt =>
      exact follows_of_steers (RollsBack.atomic _) (.scheduleFailedJobRetry env jobId retryAt)
  | retryFailedJob jobId =>
      exact follows_of_steers (RollsBack.atomic _)
        (.retryFailedJob redispatches_failed apart env jobId)
  | retryFailedJobs jobIds batchSize =>
      exact follows_of_steers (RollsBack.atomic _)
        (.retryFailedJobs redispatches_failed apart env jobIds batchSize)
  | promoteFailedJobRetries batchSize =>
      exact follows_of_steers (RollsBack.promoteFailedJobRetries env batchSize)
        (.promoteFailedJobRetries redispatches_failed apart env batchSize)
  | discardReadyJobs jobIds batchSize =>
      apply follows_of_returns (RollsBack.atomic _)
      exact fun _ _ run => Steers.follows_of_discardStateJobs List.mem_cons_self
        (fun _ => handsOn_discards) run
  | discardReadyJobsForQueue queueName batchSize =>
      apply follows_of_returns (RollsBack.atomic _)
      exact fun _ _ run => Steers.follows_of_discardStateJobs List.mem_cons_self
        (fun _ => handsOn_discards) run
  | discardScheduledJobs jobIds batchSize =>
      apply follows_of_returns (RollsBack.atomic _)
      exact fun _ _ run => Steers.follows_of_discardStateJobs List.mem_cons_self
        (fun releases => by cases releases) run
  | discardBlockedJobs jobIds batchSize =>
      apply follows_of_returns (RollsBack.atomic _)
      exact fun _ _ run => Steers.follows_of_discardStateJobs List.mem_cons_self
        (fun releases => by cases releases) run
  | discardFailedJob jobId =>
      apply follows_of_returns (RollsBack.atomic _)
      exact fun _ _ run => Steers.follows_of_discardStateJobs List.mem_cons_self
        (fun releases => by cases releases) run
  | discardFailedJobs jobIds batchSize =>
      apply follows_of_returns (RollsBack.atomic _)
      exact fun _ _ run => Steers.follows_of_discardStateJobs List.mem_cons_self
        (fun releases => by cases releases) run
  | clearFinishedJobs olderThan taskPath batchSize now =>
      apply follows_of_returns RollsBack.retained
      exact fun _ _ run => Steers.follows_of_clearFinishedJobs List.mem_cons_self run
  | clearFailedJobs olderThan taskPath batchSize now =>
      apply follows_of_returns RollsBack.retained
      exact fun _ _ run => Steers.follows_of_clearFailedJobs List.mem_cons_self run
  | clearRecurringExecutions olderThan taskKey batchSize now =>
      exact follows_of_steers RollsBack.retained (.clearRecurringExecutions env _ _ _ _)
  | promoteExpiredBlockedJobs batchSize =>
      apply follows_of_steers (RollsBack.promoteExpiredBlockedJobs env batchSize)
      exact Steers.promoteExpiredBlockedJobs handsOn_expired
        (List.mem_cons_of_mem _ List.mem_cons_self) env batchSize
  | cleanupExpiredSemaphores batchSize =>
      exact follows_of_steers (RollsBack.cleanupExpiredSemaphores batchSize)
        (.cleanupExpiredSemaphores batchSize)
  | releaseConcurrencySlot job task =>
      exact follows_of_ends (.releaseConcurrencySlot handsOn_released env job task)
  | registerProcess pid name supervisorId =>
      exact follows_of_steers (RollsBack.registerProcess env pid name supervisorId)
        (.registerProcess env pid name supervisorId)
  | touchProcessRow processId =>
      exact follows_of_steers (RollsBack.touchProcessRow processId) (.touchProcessRow processId)
  | deregisterProcess processId =>
      exact follows_of_steers (RollsBack.atomic _) (.deregisterProcess processId)
  | failOrphanedClaimedJobs failure batchSize =>
      exact follows_of_steers (RollsBack.atomic _)
        (.failOrphanedClaimedJobs endsClaims_failures (by decide) env failure batchSize)
  | failClaimedJobsForProcess process failure deleteProcess =>
      exact follows_of_ends
        (.failClaimedJobsForProcess endsClaims_failures (by decide) env process failure
          deleteProcess)
  | failClaimedJobsForPid pid failure =>
      exact follows_of_ends (.failClaimedJobsForPid endsClaims_failures (by decide) env pid failure)
  | failClaimedJobsForChild pid name supervisorId failure =>
      exact follows_of_ends
        (.failClaimedJobsForChild endsClaims_failures (by decide) env pid name supervisorId failure)
  | pruneStaleProcesses cutoff failure excluded batchSize =>
      exact follows_of_steers (RollsBack.atomic _)
        (.pruneStaleProcesses endsClaims_failures (by decide) env cutoff failure excluded batchSize)

end JobOperation

section Schedules

variable {A : String} {edges : List Edge} {env : Env} {w : World} {α : Type} {x : Op α}

/-- A change of recurring tasks moves no job. -/
theorem follows_of_edits (edits : EditsTasks A x) : Follows edges w.db (finalState x w).db := by
  rcases edits w trivial with ⟨t, same, -⟩
  rw [same]
  exact .of_parts (show courseParts _ = courseParts w.db from rfl) (.refl _ _)

theorem follows_of_pauseQueue (queueName : String) :
    Follows edges w.db (finalState (pauseQueue env queueName) w).db := by
  apply follows_of_ends
  apply EndsOnCourse.bind
  · apply EndsOnCourse.of_rollsBack (RollsBack.atomic _)
    apply Relates.atomic
    exact Steers.bind (.of_reads Reads.timezoneNow) fun _ =>
      Steers.bind (.of_reads Reads.getDb) fun _ => .runIf _ (.modifyDb fun _ => rfl)
  · intro _
    apply EndsOnCourse.bind
    · apply EndsOnCourse.of_rollsBack (RollsBack.atomic _)
      apply Relates.atomic
      exact Steers.bind (.of_reads Reads.getDb) fun _ => .pure _
    · exact fun _ => .of_reads (Reads.pure _)

/-- The ready rows of the queue get other times. -/
theorem follows_of_resumeQueue (queueName : String) (resumedAt : Option Time) :
    Follows edges w.db (finalState (resumeQueue env queueName resumedAt) w).db := by
  apply follows_of_steers (RollsBack.atomic _)
  apply Relates.atomic
  apply Steers.bind (.of_reads Reads.getDb)
  intro db
  apply Steers.bind (.of_reads Reads.timezoneNow)
  intro now
  split
  · exact .pure _
  · exact .bind (.modifyDb fun db => courseParts_updateWhere db .ready fun _ => rfl)
      fun _ => .pure _

end Schedules

/-- Whatever an operation does and however it ends, the jobs follow its edges. -/
theorem Operation.follows {tracked : Option (String × Int)} {env : Env} {w : World}
    (op : Operation) (sound : Sound tracked w.db) :
    Follows (op.edges env.config) w.db (op.final env w).db := by
  cases op with
  | job op => exact op.follows sound
  | pauseQueue queueName => exact follows_of_pauseQueue queueName
  | resumeQueue queueName resumedAt => exact follows_of_resumeQueue queueName resumedAt
  | scheduleRecurringTask key taskPath schedule payload queueName priority description =>
      exact follows_of_edits (EditsTasks.scheduleRecurringTask key taskPath schedule payload
        queueName priority description)
  | unscheduleRecurringTask key => exact follows_of_edits (EditsTasks.unscheduleRecurringTask key)
  | upsertStaticRecurringTasks configs =>
      exact follows_of_edits (EditsTasks.upsertStaticRecurringTasks configs)
  | fireRecurringTask taskId runAt =>
      exact follows_of_ends
        (Steers.endsOnCourse_fireRecurringTask creates_creations env taskId runAt)
  | fireDueRecurringTasks now includeDynamicTasks batchSize =>
      exact follows_of_ends (Steers.endsOnCourse_fireDueRecurringTasks creates_creations env now
        includeDynamicTasks batchSize)

/-! ## Reachable states -/

/-- Whatever an operation does and however it ends, the status of a job is what it was, or the
operation has an edge from the one to the other; and a job that had finished, if it is still there,
has the result it had. -/
theorem jobs_move_along_edges {db : Db} (reached : Reachable none db) (env : Env) (op : Operation)
    (clock : Nat → Time) (uuids : Nat → JobId) (promised : op.Promised none env db) :
    let db' := (op.final env ⟨db, clock, uuids⟩).db
    (∀ id, db'.statusOf id = db.statusOf id ∨
      (db.statusOf id, db'.statusOf id) ∈ op.edges env.config) ∧
    ∀ j ∈ db.jobs, j.finishedAt.isSome = true → ∀ j' ∈ db'.jobs, j'.id = j.id →
      j'.result = j.result := by
  have sound := sound_of_reachable (by intro t tracked; cases tracked) reached
  have follows := @Operation.follows none env ⟨db, clock, uuids⟩ op sound
  rcases (op.keeps (w := ⟨db, clock, uuids⟩) sound promised).sound with ⟨⟨a', -, good'⟩, -⟩
  rcases sound with ⟨⟨a, -, good⟩, -⟩
  constructor
  · exact fun id => follows.status good good' id
  · exact fun j mem done j' mem' same => follows.result good mem mem' same done

/-- A claim of one job of the run above. -/
def claimOne : Operation := .job (.claimReadyJobs 1 (.str "*") none)

/-- A job is claimed, and the other waits on. -/
theorem jobs_move_along_edges_of_claim :
    let db' := (claimOne.final (sqliteEnv "default") ⟨twoEnqueued, fun _ => 0, fun _ => 0⟩).db
    (twoEnqueued.statusOf 1 = some (.live .ready) ∧ db'.statusOf 1 = some (.live .claimed)) ∧
      ∀ id, db'.statusOf id = twoEnqueued.statusOf id ∨
        (twoEnqueued.statusOf id, db'.statusOf id) ∈ [passes .ready .claimed] :=
  ⟨by decide +kernel,
    (jobs_move_along_edges (reachable_twoEnqueued (fun _ tracked => nomatch tracked))
      (sqliteEnv "default") claimOne _ _ (fun _ process => nomatch process)).1⟩

end DjQueue
