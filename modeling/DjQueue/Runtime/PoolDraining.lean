import DjQueue.Accounting.Claims
import DjQueue.Slots.WellFormed
import DjQueue.Runtime.WorkerPool

/-!
# Draining the worker pool

Over every interleaving of the poller, the executor's threads and one `shutdown`: the count of the
pool is that of the submissions begun and not completed and stays within the prefetch limit, no
submission begins once the event is set, and the callback is called at most once, when nothing
submitted is queued or running. The callback is a token: the shutdown sets it, and whoever takes it
under the lock calls it.
-/

namespace DjQueue

open Relational

/-! ## What a poll claims -/

/-- The selection is no longer than the limit. -/
theorem length_selectReadyRows {rows : List ReadyExecution}
    (nodup : (rows.map ReadyExecution.id).Nodup) (env : Env) (queues : QueueSelectors)
    (limit : Nat) : (selectReadyRows env rows queues limit).length ≤ limit := by
  rw [selectReadyRows_eq nodup, specifiedRows]
  exact List.length_take_le _ _

theorem length_claimSelectedRows {env : Env} {rows : List (ReadyExecution × Job)}
    {process : Option Process} {claimed : List ClaimedJob} {w w' : World}
    (run : Runs (claimSelectedRows env rows process) w claimed w') :
    claimed.length ≤ rows.length := by
  rcases Runs.of_bind run with ⟨claimedAt, w₁, -, rest⟩
  rcases Runs.of_bind rest with ⟨taken, w₂, claim, done⟩
  rcases Runs.of_pure done with ⟨rfl, rfl⟩
  rw [List.length_map]
  unfold claimRows at claim
  split at claim
  · rcases Runs.of_bind claim with ⟨-, w₃, -, rest⟩
    rcases Runs.of_bind rest with ⟨created, w₄, -, rest⟩
    split at rest
    · rcases Runs.of_pure rest with ⟨rfl, rfl⟩
      exact Nat.le_refl _
    · rcases Runs.of_bind rest with ⟨-, w₅, -, raised⟩
      exact (Runs.of_throw raised).elim
  · rcases Runs.of_bind claim with ⟨consumed, w₃, consume, rest⟩
    rcases Runs.of_bind rest with ⟨-, w₄, -, rest⟩
    rcases Runs.of_bind rest with ⟨-, w₅, -, rest⟩
    rcases Runs.of_pure rest with ⟨rfl, rfl⟩
    exact length_le_of_consumeSelectedRows consume

/-- A claim takes no more jobs than it may. -/
theorem length_claimReadyJobs {env : Env} {limit : Int} {queues : QueueSelectors}
    {process : Option Process} {claimed : List ClaimedJob} {w w' : World}
    (nodup : (w.db.ready.rows.map ReadyExecution.id).Nodup)
    (run : Runs (claimReadyJobs env limit queues process) w claimed w') :
    claimed.length ≤ limit.toNat := by
  unfold claimReadyJobs at run
  split at run
  · rcases Runs.of_pure run with ⟨rfl, rfl⟩
    exact Nat.zero_le _
  · rcases Runs.of_bind (Runs.of_atomic run) with ⟨u, w₁, belongs, rest⟩
    rcases Accounts.of_run_ensureProcessBelongs belongs with ⟨rfl, -⟩
    rcases Runs.of_bind rest with ⟨db, w₂, got, rest⟩
    rcases of_run_getDb got with ⟨rfl, rfl⟩
    rcases Runs.of_bind rest with ⟨-, w₃, -, rest⟩
    dsimp only at rest
    split at rest
    · rcases Runs.of_pure rest with ⟨rfl, rfl⟩
      exact Nat.zero_le _
    · have claimable : ((claimableRows w₂.db env.config.backendAlias).map ReadyExecution.id).Nodup :=
        nodup.sublist (List.filter_sublist.map _)
      apply (length_claimSelectedRows rest).trans
      apply (List.length_filter_le _ _).trans
      exact (List.length_filterMap_le _ _).trans (length_selectReadyRows claimable _ _ _)

/-- What `claim_ready_jobs` returns for the room that was read, a poller may have claimed. -/
theorem pollStep_of_claimReadyJobs {env : Env} {config : PoolConfig} {s : PoolState} {limit : Nat}
    {queues : QueueSelectors} {process : Option Process} {claimed : List ClaimedJob} {w w' : World}
    (claiming : s.poller = .claiming limit)
    (nodup : (w.db.ready.rows.map ReadyExecution.id).Nodup)
    (run : Runs (claimReadyJobs env limit queues process) w claimed w') :
    pollStep config s (.claim claimed.length) =
      some { s with poller := .submitting claimed.length } := by
  have within : claimed.length ≤ limit := length_claimReadyJobs nodup run
  simp only [pollStep, claiming, within, if_true]

/-! ## What a step does -/

section Steps

variable (config : PoolConfig) (pool : WorkerPool) (executor : Executor)

/-- What a step of the poller does, one constructor for each way it can go. -/
inductive PollerStep : Poller → PollAction → WorkerPool → Executor → Poller → Prop where
  | full : PollerStep .idle .readIdleCapacity pool executor .idle
  | room : PollerStep .idle .readIdleCapacity pool executor .reading
  | none : PollerStep .reading .readInFlight pool executor .idle
  | limit {limit : Nat} (within : pool.inFlight + limit ≤ config.prefetchLimit) :
      PollerStep .reading .readInFlight pool executor (.claiming limit)
  | claim {count limit : Nat} (within : count ≤ limit) :
      PollerStep (.claiming limit) (.claim count) pool executor (.submitting count)
  | begin {others : Nat} (opened : pool.closing = false) :
      PollerStep (.submitting (others + 1)) .begin { pool with inFlight := pool.inFlight + 1 }
        executor (.begun others)
  | refuse {others : Nat} :
      PollerStep (.submitting (others + 1)) .refuse pool executor (.handling others)
  | accept {others : Nat} (running : executor.shutdown = false) :
      PollerStep (.begun others) .accept pool
        { executor with accepted := executor.accepted ++ [.queued false] }
        (.accepted executor.accepted.length others)
  | reject {others : Nat} : PollerStep (.begun others) .reject pool executor (.rejected others)
  | rejectQueued {others : Nat} :
      PollerStep (.begun others) .rejectQueued pool
        { executor with strays := executor.strays ++ [.queued] } (.rejected others)
  | completeRejected {others : Nat} :
      PollerStep (.rejected others) .completeRejected (pool.complete .none).2 executor
        (.afterComplete true (pool.complete .none).1 others)
  | addFuture {future : FutureId} {others : Nat} :
      PollerStep (.accepted future others) .addFuture (pool.addFuture future) executor
        (.added future others)
  | register {future : FutureId} {others : Nat} {work registered : Work}
      (there : executor.accepted[future]? = some work) (early : work.register = some registered) :
      PollerStep (.added future others) .addDoneCallback pool (executor.set future registered)
        (.submitting others)
  | late {future : FutureId} {others : Nat} {work : Work}
      (there : executor.accepted[future]? = some work) (late : work.register = .none) :
      PollerStep (.added future others) .addDoneCallback pool executor (.completing future others)
  | complete {future : FutureId} {others : Nat} :
      PollerStep (.completing future others) .complete (pool.complete (some future)).2
        (executor.set future (.finished .called))
        (.afterComplete false (pool.complete (some future)).1 others)
  | call {failed : Bool} {others : Nat} :
      PollerStep (.calling failed others) .call pool executor (.afterComplete failed false others)
  | handle {others : Nat} :
      PollerStep (.handling others) .handle pool executor (.submitting others)
  | handlerRaises {others : Nat} : PollerStep (.handling others) .handlerRaises pool executor .idle
  | return_ : PollerStep (.submitting 0) .return_ pool executor .idle

/-- What a step of a pool thread does. -/
inductive ThreadStep : ThreadAction → WorkerPool → Executor → Prop where
  | start {future : FutureId} {thread : Nat} {registered : Bool}
      (there : executor.accepted[future]? = some (.queued registered)) :
      ThreadStep (.start future thread)
        { pool with workerThreadIds := pool.workerThreadIds.insert thread }
        (executor.set future (.running registered))
  | finish {future : FutureId} {registered : Bool}
      (there : executor.accepted[future]? = some (.running registered)) :
      ThreadStep (.finish future) pool
        (executor.set future (.finished (.afterRun registered)))
  | complete {future : FutureId}
      (there : executor.accepted[future]? = some (.finished .registered)) :
      ThreadStep (.complete future) (pool.complete (some future)).2 (executor.set future
        (.finished (.afterComplete (pool.complete (some future)).1)))
  | call {future : FutureId} (there : executor.accepted[future]? = some (.finished .calling)) :
      ThreadStep (.call future) pool (executor.set future (.finished .called))
  | startStray {stray thread : Nat} :
      ThreadStep (.startStray stray thread)
        { pool with workerThreadIds := pool.workerThreadIds.insert thread }
        { executor with strays := executor.strays.set stray .running }
  | finishStray {stray : Nat} :
      ThreadStep (.finishStray stray) pool
        { executor with strays := executor.strays.set stray .finished }
  | cleanup {cleanups : Nat} :
      ThreadStep .cleanup pool { executor with cleanups := cleanups }

/-- What a step of `stop` does. -/
inductive StopperStep : Stopper → StopAction → WorkerPool → Executor → Stopper → Prop where
  | setClosing : StopperStep .notCalled .setClosing { pool with closing := true } executor .closing
  | nothing {onDrained : Bool} {threads : Nat} :
      StopperStep .closing (.snapshot onDrained) { pool with onDrained := onDrained } executor
        (.cleaning threads true)
  | snapshot {onDrained : Bool} {threads : Nat} :
      StopperStep .closing (.snapshot onDrained) { pool with onDrained := onDrained } executor
        (.waiting pool.futures threads)
  | wait {futures notDone : List FutureId} {threads submits : Nat} {drained : Bool} :
      StopperStep (.waiting futures threads) (.wait notDone) pool executor
        (.cleaning submits drained)
  | submitCleanup {submits : Nat} {drained : Bool} :
      StopperStep (.cleaning (submits + 1) drained) .submitCleanup pool
        { executor with cleanups := executor.cleanups + 1 } (.cleaning submits drained)
  | cleanupFails {submits : Nat} {drained queued : Bool} :
      StopperStep (.cleaning (submits + 1) drained) (.cleanupFails queued) pool
        { executor with cleanups := executor.cleanups + queued.toNat } .raised
  | shutdownExecutor {drained : Bool} :
      StopperStep (.cleaning 0 drained) .shutdownExecutor pool { executor with shutdown := true }
        (if drained then .joining else .returned false)
  | join (ended : executor.accepted.all Work.isFinished = true) :
      StopperStep .joining .join pool executor .notifying
  | notify : StopperStep .notifying .notify pool.takeOnDrained.2 executor
      (.afterNotify pool.takeOnDrained.1)
  | call : StopperStep .calling .call pool executor (.returned true)

end Steps

/-- Every step of the poller is one of these. -/
theorem pollStep_cases {config : PoolConfig} {s s' : PoolState} {action : PollAction}
    (step : pollStep config s action = some s') :
    PollerStep config s.pool s.executor s.poller action s'.pool s'.executor s'.poller ∧
      s'.stopper = s.stopper := by
  rcases s with ⟨pool, executor, poller, stopper⟩
  cases action <;> simp only [pollStep] at step
  case readIdleCapacity =>
    split at step
    · split at step <;> cases step
      · exact ⟨.full, rfl⟩
      · exact ⟨.room, rfl⟩
    · cases step
  case readInFlight =>
    split at step
    · split at step
      · cases step
        exact ⟨.none, rfl⟩
      · case isFalse positive =>
          cases step
          refine ⟨.limit ?_, rfl⟩
          dsimp only
          unfold claimLimit at positive ⊢
          omega
    · cases step
  case claim count =>
    split at step
    · split at step
      · case isTrue within =>
          cases step
          exact ⟨.claim within, rfl⟩
      · cases step
    · cases step
  case begin =>
    split at step
    · case h_1 others pool' passed =>
        unfold WorkerPool.beginSubmit at passed
        split at passed
        · cases passed
        · case isFalse opened =>
            cases passed
            cases step
            exact ⟨.begin (Bool.eq_false_iff.mpr opened), rfl⟩
    · cases step
  case accept =>
    split at step
    · split at step
      · cases step
      · case isFalse running =>
          cases step
          exact ⟨.accept (Bool.eq_false_iff.mpr running), rfl⟩
    · cases step
  case rejectQueued =>
    split at step
    · split at step
      · cases step
      · cases step
        exact ⟨.rejectQueued, rfl⟩
    · cases step
  case addDoneCallback =>
    split at step
    · split at step
      · case h_1 work there =>
          split at step
          · case h_1 registered early =>
              cases step
              exact ⟨.register there early, rfl⟩
          · case h_2 late =>
              cases step
              exact ⟨.late there late, rfl⟩
      · cases step
    · cases step
  all_goals
    split at step
    · cases step
      exact ⟨by constructor, rfl⟩
    · cases step

/-- Every step of a thread is one of these. -/
theorem threadStep_cases {config : PoolConfig} {s s' : PoolState} {action : ThreadAction}
    (step : threadStep config s action = some s') :
    ThreadStep s.pool s.executor action s'.pool s'.executor ∧ s'.poller = s.poller ∧
      s'.stopper = s.stopper := by
  rcases s with ⟨pool, executor, poller, stopper⟩
  cases action <;> simp only [threadStep] at step
  case start future thread =>
    split at step
    · case h_1 registered there =>
        split at step
        · cases step
          exact ⟨.start there, rfl, rfl⟩
        · cases step
    · cases step
  case startStray stray thread =>
    split at step
    · split at step
      · cases step
        exact ⟨.startStray, rfl, rfl⟩
      · cases step
    · cases step
  case finishStray stray =>
    split at step
    · cases step
      exact ⟨.finishStray, rfl, rfl⟩
    · cases step
  case cleanup =>
    split at step
    · cases step
      exact ⟨.cleanup, rfl, rfl⟩
    · cases step
  all_goals
    split at step
    · cases step
      exact ⟨by constructor; assumption, rfl, rfl⟩
    · cases step

/-- Every step of `stop` is one of these. -/
theorem stopStep_cases {s s' : PoolState} {action : StopAction}
    (step : stopStep s action = some s') :
    StopperStep s.pool s.executor s.stopper action s'.pool s'.executor s'.stopper ∧
      s'.poller = s.poller := by
  rcases s with ⟨pool, executor, poller, stopper⟩
  cases action <;> simp only [stopStep] at step
  case snapshot onDrained =>
    split at step
    · split at step <;> cases step
      · exact ⟨.nothing, rfl⟩
      · exact ⟨.snapshot, rfl⟩
    · cases step
  case wait notDone =>
    split at step
    · split at step
      · cases step
        exact ⟨.wait, rfl⟩
      · cases step
    · cases step
  case join =>
    split at step
    · split at step
      · case isTrue ended =>
          cases step
          exact ⟨.join ended.1, rfl⟩
      · cases step
    · cases step
  all_goals
    split at step
    · cases step
      exact ⟨by constructor, rfl⟩
    · cases step

/-! ## What is in flight -/

/-- The submission is not completed. -/
def Work.inFlight : Work → Bool
  | .queued _ | .running _ | .finished .unregistered | .finished .registered => true
  | .finished .calling | .finished .called => false

/-- The work has no done callback yet. -/
def Work.isUnregistered : Work → Bool
  | .queued registered | .running registered => !registered
  | .finished callback => callback == .unregistered

/-- The callback is invoking `on_drained` -/
def Work.isCalling : Work → Bool
  | .finished .calling => true
  | _ => false

/-- The submission in flight that has no future. -/
def Poller.inFlight : Poller → Nat
  | .begun _ | .rejected _ => 1
  | _ => 0

/-- How many more jobs the poll may submit. -/
def Poller.ahead : Poller → Nat
  | .idle | .reading => 0
  | .claiming limit => limit
  | .submitting others | .begun others | .rejected others | .accepted _ others | .added _ others
  | .completing _ others | .calling _ others | .handling others => others

/-- The future whose done-callback is still to be registered. -/
def Poller.future : Poller → Option FutureId
  | .accepted future _ | .added future _ | .completing future _ => some future
  | _ => none

theorem inFlight_complete (future : Option FutureId) (pool : WorkerPool) :
    (pool.complete future).2.inFlight = pool.inFlight - 1 := by
  unfold WorkerPool.complete
  dsimp only
  split <;> rfl

/-- After completing, the future has none in flight. -/
@[simp] theorem Poller.inFlight_afterComplete (failed taken : Bool) (others : Nat) :
    (Poller.afterComplete failed taken others).inFlight = 0 := by
  cases failed <;> cases taken <;> rfl

/-- The batch still has its others ahead. -/
@[simp] theorem Poller.ahead_afterComplete (failed taken : Bool) (others : Nat) :
    (Poller.afterComplete failed taken others).ahead = others := by
  cases failed <;> cases taken <;> rfl

@[simp] theorem Poller.future_afterComplete (failed taken : Bool) (others : Nat) :
    (Poller.afterComplete failed taken others).future = none := by
  cases failed <;> cases taken <;> rfl

/-- `in_flight` counts the submissions begun and not completed: those the executor has, and the one
that has no future. -/
structure Counted (config : PoolConfig) (started completed : Nat) (s : PoolState) : Prop where
  balance : s.pool.inFlight = (started : Int) - completed
  owed : s.pool.inFlight = s.poller.inFlight + s.executor.accepted.countP Work.inFlight
  ahead : s.pool.inFlight + s.poller.ahead ≤ config.prefetchLimit
  future : ∀ f, s.poller.future = some f →
    ∃ work, s.executor.accepted[f]? = some work ∧ work.isUnregistered = true

/-- Without a callback, a work is in flight. -/
theorem inFlight_of_isUnregistered {work : Work} (unregistered : work.isUnregistered = true) :
    work.inFlight = true := by
  cases work with
  | queued | running => rfl
  | finished callback => cases callback <;> first | rfl | cases unregistered

/-- Registering the callback early leaves a work in flight. -/
theorem inFlight_register {work registered : Work} (early : work.register = some registered) :
    registered.inFlight = work.inFlight := by
  cases work <;> cases early <;> rfl

/-- A work whose callback has yet to run is in flight. -/
theorem inFlight_afterRun (registered : Bool) :
    (Work.finished (.afterRun registered)).inFlight = true := by
  cases registered <;> rfl

theorem inFlight_afterComplete (taken : Bool) :
    (Work.finished (.afterComplete taken)).inFlight = false := by
  cases taken <;> rfl

/-- Exchanging one work changes a count by the two alone. -/
theorem countP_set {executor : Executor} {future : FutureId} {work : Work} (p : Work → Bool)
    (work' : Work) (there : executor.accepted[future]? = some work) :
    (executor.set future work').accepted.countP p + (p work).toNat =
      executor.accepted.countP p + (p work').toNat := by
  have unit : ∀ b : Bool, (if b = true then 1 else 0) = b.toNat := by decide
  rcases List.getElem?_eq_some_iff.mp there with ⟨within, same⟩
  have counted := List.boole_getElem_le_countP (p := p) within
  have exchanged : (executor.set future work').accepted.countP p = _ := List.countP_set within
  rw [same, unit] at counted
  rw [same, unit, unit] at exchanged
  omega

/-- A step of the poller keeps the count. -/
theorem Counted.poll {config : PoolConfig} {n m : Nat} {s s' : PoolState} {action : PollAction}
    (counted : Counted config n m s) (taken : pollStep config s action = some s') :
    Counted config (n + (PoolAction.poll action).starts) (m + (PoolAction.poll action).completes)
      s' := by
  rcases pollStep_cases taken with ⟨step, -⟩
  clear taken
  rcases s with ⟨pool, executor, poller, stopper⟩
  rcases s' with ⟨pool', executor', poller', stopper'⟩
  rcases counted with ⟨balance, owed, ahead, future⟩
  dsimp only at step balance owed ahead future
  have only : ∀ f, (none : Option FutureId) = some f → ∃ work : Work,
      executor'.accepted[f]? = some work ∧ work.isUnregistered = true := fun f none => by cases none
  cases step with
  | full | room | none => exact ⟨balance, owed, ahead, only⟩
  | limit within => exact ⟨balance, owed, within, only⟩
  | claim within =>
      refine ⟨balance, owed, ?_, only⟩
      simp only [Poller.ahead] at ahead ⊢
      omega
  | begin opened =>
      refine ⟨?_, ?_, ?_, only⟩
      · simp only [PoolAction.starts, PoolAction.completes]
        omega
      · simp only [Poller.inFlight] at owed ⊢
        omega
      · simp only [Poller.ahead] at ahead ⊢
        omega
  | refuse | handlerRaises =>
      refine ⟨balance, owed, ?_, only⟩
      simp only [Poller.ahead] at ahead ⊢
      omega
  | accept running =>
      refine ⟨balance, ?_, ahead, ?_⟩
      · simp only [Poller.inFlight, List.countP_append] at owed ⊢
        exact owed.trans (by simp [Work.inFlight, Int.add_comm])
      · intro f mine
        cases mine
        exact ⟨.queued false, List.getElem?_concat_length, rfl⟩
  | reject | rejectQueued | addFuture | late => exact ⟨balance, owed, ahead, future⟩
  | @register f others work registered there early =>
      have same := countP_set Work.inFlight registered there
      rw [inFlight_register early] at same
      refine ⟨balance, ?_, ahead, only⟩
      simp only [Poller.inFlight] at owed ⊢
      omega
  | handle | return_ => exact ⟨balance, owed, ahead, only⟩
  | call =>
      refine ⟨balance, ?_, ?_, ?_⟩ <;>
        simp only [Poller.inFlight_afterComplete, Poller.ahead_afterComplete,
          Poller.future_afterComplete]
      · exact owed
      · exact ahead
      · exact only
  | completeRejected =>
      have less := inFlight_complete none pool
      refine ⟨?_, ?_, ?_, ?_⟩ <;>
        simp only [Poller.inFlight_afterComplete, Poller.ahead_afterComplete,
          Poller.future_afterComplete, less]
      · simp only [PoolAction.starts, PoolAction.completes]
        omega
      · simp only [Poller.inFlight] at owed
        omega
      · simp only [Poller.ahead] at ahead
        omega
      · exact only
  | @complete f others =>
      rcases future f rfl with ⟨work, there, unregistered⟩
      have less := inFlight_complete (some f) pool
      have same := countP_set Work.inFlight (.finished .called) there
      rw [inFlight_of_isUnregistered unregistered] at same
      refine ⟨?_, ?_, ?_, ?_⟩ <;>
        simp only [Poller.inFlight_afterComplete, Poller.ahead_afterComplete,
          Poller.future_afterComplete, less]
      · simp only [PoolAction.starts, PoolAction.completes]
        omega
      · simp only [Poller.inFlight] at owed
        simp only [Work.inFlight, Bool.toNat_true, Bool.toNat_false] at same
        omega
      · simp only [Poller.ahead] at ahead
        omega
      · exact only

theorem Counted.stop {config : PoolConfig} {n m : Nat} {s s' : PoolState} {action : StopAction}
    (counted : Counted config n m s) (taken : stopStep s action = some s') :
    Counted config n m s' := by
  rcases stopStep_cases taken with ⟨step, same⟩
  clear taken
  rcases s with ⟨pool, executor, poller, stopper⟩
  rcases s' with ⟨pool', executor', poller', stopper'⟩
  rcases counted with ⟨balance, owed, ahead, future⟩
  dsimp only at step same balance owed ahead future
  cases same
  cases step <;> exact ⟨balance, owed, ahead, future⟩

/-- A future that has no done-callback yet keeps none, whatever a thread does. -/
theorem unregistered_set {executor : Executor} {f g : FutureId} {work : Work} (work' : Work)
    (there : executor.accepted[g]? = some work)
    (keeps : work.isUnregistered = true → work'.isUnregistered = true)
    (mine : ∃ work, executor.accepted[f]? = some work ∧ work.isUnregistered = true) :
    ∃ work, (executor.set g work').accepted[f]? = some work ∧ work.isUnregistered = true := by
  rcases mine with ⟨own, found, unregistered⟩
  by_cases same : g = f
  · cases same
    cases there.symm.trans found
    have within := (List.getElem?_eq_some_iff.mp there).1
    exact ⟨work', List.getElem?_set_self within, keeps unregistered⟩
  · exact ⟨own, (List.getElem?_set_ne same).trans found, unregistered⟩

/-- A step of a thread keeps the count. -/
theorem Counted.thread {config : PoolConfig} {n m : Nat} {s s' : PoolState} {action : ThreadAction}
    (counted : Counted config n m s) (taken : threadStep config s action = some s') :
    Counted config n (m + (PoolAction.thread action).completes) s' := by
  rcases threadStep_cases taken with ⟨step, same, -⟩
  clear taken
  rcases s with ⟨pool, executor, poller, stopper⟩
  rcases s' with ⟨pool', executor', poller', stopper'⟩
  rcases counted with ⟨balance, owed, ahead, future⟩
  dsimp only at step same balance owed ahead future
  cases same
  cases step with
  | @start g thread registered there =>
      have same := countP_set Work.inFlight (.running registered) there
      refine ⟨balance, ?_, ahead, fun f mine => unregistered_set _ there id (future f mine)⟩
      dsimp only [Work.inFlight] at same ⊢
      omega
  | @finish g registered there =>
      have same := countP_set Work.inFlight (.finished (.afterRun registered)) there
      rw [inFlight_afterRun] at same
      refine ⟨balance, ?_, ahead, fun f mine => unregistered_set _ there ?_ (future f mine)⟩
      · dsimp only [Work.inFlight] at same ⊢
        omega
      · cases registered <;> exact id
  | @complete g there =>
      have less := inFlight_complete (some g) pool
      have same := countP_set Work.inFlight
        (.finished (.afterComplete (pool.complete (some g)).1)) there
      rw [inFlight_afterComplete] at same
      refine ⟨?_, ?_, ?_, fun f mine => unregistered_set _ there (by rintro ⟨⟩) (future f mine)⟩ <;>
        dsimp only [PoolAction.completes]
      · omega
      · dsimp only [Work.inFlight, Bool.toNat] at same
        simp only [cond_true, cond_false] at same
        omega
      · omega
  | @call g there =>
      have same := countP_set Work.inFlight (.finished .called) there
      refine ⟨balance, ?_, ahead, fun f mine => unregistered_set _ there ?_ (future f mine)⟩
      · dsimp only [Work.inFlight] at same ⊢
        omega
      · intro unregistered
        cases unregistered
  | startStray | finishStray | cleanup => exact ⟨balance, owed, ahead, future⟩

/-! ## When nothing is left to run -/

/-- No submitted work is queued or running, and none will be. -/
structure Quiet (s : PoolState) : Prop where
  closing : s.pool.closing = true
  ended : ∀ work ∈ s.executor.accepted, work.isFinished = true
  noMore : s.executor.shutdown = true ∨ s.poller.inFlight = 0

theorem isFinished_of_not_inFlight {work : Work} (ended : ¬ work.inFlight = true) :
    work.isFinished = true := by
  cases work with
  | queued | running => exact absurd rfl ended
  | finished callback => rfl

/-- A callback registered early belongs to a work that has not ended. -/
theorem isFinished_of_register {work registered : Work}
    (early : work.register = some registered) : work.isFinished = false := by
  cases work with
  | queued | running => rfl
  | finished callback => cases early

/-- Closing with nothing in flight is quiet. -/
theorem Counted.quiet {config : PoolConfig} {n m : Nat} {s : PoolState}
    (counted : Counted config n m s) (closing : s.pool.closing = true)
    (none : s.pool.inFlight = 0) : Quiet s := by
  have owed := counted.owed
  have ended : s.executor.accepted.countP Work.inFlight = 0 := by omega
  refine ⟨closing, fun work member => ?_, Or.inr (by omega)⟩
  exact isFinished_of_not_inFlight (List.countP_eq_zero.mp ended work member)

theorem ended_set {executor : Executor} (future : FutureId) (callback : DoneCallback)
    (ended : ∀ work ∈ executor.accepted, work.isFinished = true) :
    ∀ work ∈ (executor.set future (.finished callback)).accepted, work.isFinished = true := by
  intro work member
  rcases List.mem_or_eq_of_mem_set member with old | new
  · exact ended work old
  · rw [new]
    rfl

theorem complete_closing (future : Option FutureId) (pool : WorkerPool) :
    (pool.complete future).2.closing = pool.closing := by
  unfold WorkerPool.complete
  dsimp only
  split <;> rfl

/-- `_complete` takes the callback at most once. -/
theorem complete_onDrained (future : Option FutureId) (pool : WorkerPool) :
    (pool.complete future).1.toNat + (pool.complete future).2.onDrained.toNat =
      pool.onDrained.toNat := by
  unfold WorkerPool.complete
  dsimp only
  split
  · rfl
  · exact Nat.zero_add _

/-- `_complete` takes the callback when nothing is in flight any more. -/
theorem inFlight_of_taken {future : Option FutureId} {pool : WorkerPool}
    (taken : (pool.complete future).1 = true) : (pool.complete future).2.inFlight = 0 := by
  unfold WorkerPool.complete at taken ⊢
  dsimp only at taken ⊢
  split at taken
  · case isTrue last =>
      rw [if_pos last]
      exact last.1
  · cases taken

/-- A quiet pool stays quiet under the poller. -/
theorem Quiet.poll {config : PoolConfig} {s s' : PoolState} {action : PollAction}
    (quiet : Quiet s) (taken : pollStep config s action = some s') : Quiet s' := by
  rcases pollStep_cases taken with ⟨step, -⟩
  clear taken
  rcases s with ⟨pool, executor, poller, stopper⟩
  rcases s' with ⟨pool', executor', poller', stopper'⟩
  rcases quiet with ⟨closing, ended, noMore⟩
  dsimp only at step closing ended noMore
  cases step with
  | begin opened =>
      rw [opened] at closing
      cases closing
  | accept running =>
      rcases noMore with shutdown | none
      · rw [running] at shutdown
        cases shutdown
      · cases none
  | completeRejected =>
      exact ⟨(complete_closing _ _).trans closing, ended, Or.inr (Poller.inFlight_afterComplete ..)⟩
  | register there early =>
      have finished := ended _ (List.mem_of_getElem? there)
      rw [isFinished_of_register early] at finished
      cases finished
  | complete =>
      exact ⟨(complete_closing _ _).trans closing, ended_set _ _ ended,
        Or.inr (Poller.inFlight_afterComplete ..)⟩
  | @call failed others =>
      exact ⟨closing, ended, Or.inr (Poller.inFlight_afterComplete failed false others)⟩
  | _ => exact ⟨closing, ended, noMore⟩

theorem Quiet.thread {config : PoolConfig} {s s' : PoolState} {action : ThreadAction}
    (quiet : Quiet s) (taken : threadStep config s action = some s') : Quiet s' := by
  rcases threadStep_cases taken with ⟨step, same, -⟩
  clear taken
  rcases s with ⟨pool, executor, poller, stopper⟩
  rcases s' with ⟨pool', executor', poller', stopper'⟩
  rcases quiet with ⟨closing, ended, noMore⟩
  dsimp only at step same closing ended noMore
  cases same
  cases step with
  | start there | finish there => cases ended _ (List.mem_of_getElem? there)
  | complete => exact ⟨(complete_closing _ _).trans closing, ended_set _ _ ended, noMore⟩
  | call => exact ⟨closing, ended_set _ _ ended, noMore⟩
  | startStray | finishStray | cleanup => exact ⟨closing, ended, noMore⟩

theorem Quiet.stop {s s' : PoolState} {action : StopAction} (quiet : Quiet s)
    (taken : stopStep s action = some s') : Quiet s' := by
  rcases stopStep_cases taken with ⟨step, same⟩
  clear taken
  rcases s with ⟨pool, executor, poller, stopper⟩
  rcases s' with ⟨pool', executor', poller', stopper'⟩
  rcases quiet with ⟨closing, ended, noMore⟩
  dsimp only at step same closing ended noMore
  cases same
  cases step with
  | setClosing => exact ⟨rfl, ended, noMore⟩
  | shutdownExecutor => exact ⟨closing, ended, Or.inl rfl⟩
  | _ => exact ⟨closing, ended, noMore⟩

/-! ## The callback -/

/-- Whether the poller is invoking `on_drained` -/
def Poller.calls : Poller → Nat
  | .calling _ _ => 1
  | _ => 0

/-- Whether `stop` is. -/
def Stopper.calls : Stopper → Nat
  | .calling => 1
  | _ => 0

/-- The callback is not set yet. -/
def Stopper.early : Stopper → Nat
  | .notCalled | .closing => 1
  | _ => 0

/-- The executor is shut down, and its work is waited for. -/
def Stopper.joins : Stopper → Bool
  | .joining | .notifying => true
  | _ => false

/-- How many have taken the callback and not called it yet. -/
def PoolState.callers (s : PoolState) : Nat :=
  s.poller.calls + s.stopper.calls + s.executor.accepted.countP Work.isCalling

/-- Invoked or to be invoked, once in all. -/
structure Draining (invoked : Nat) (s : PoolState) : Prop where
  once : invoked + s.pool.onDrained.toNat + s.callers + s.stopper.early ≤ 1
  closing : s.stopper ≠ .notCalled → s.pool.closing = true
  kept : s.pool.onDrained = true → s.pool.closing = true
  quiet : 0 < s.callers → Quiet s
  shutdown : s.stopper.joins = true → s.executor.shutdown = true
  joined : s.stopper = .notifying → ∀ work ∈ s.executor.accepted, work.isFinished = true


/-- After `_complete`, the poller invokes what it took. -/
@[simp] theorem Poller.calls_afterComplete (failed taken : Bool) (others : Nat) :
    (Poller.afterComplete failed taken others).calls = taken.toNat := by
  cases failed <;> cases taken <;> rfl

/-- After notifying, `stop` invokes what it took. -/
@[simp] theorem Stopper.calls_afterNotify (taken : Bool) :
    (Stopper.afterNotify taken).calls = taken.toNat := by
  cases taken <;> rfl

@[simp] theorem Stopper.early_afterNotify (taken : Bool) :
    (Stopper.afterNotify taken).early = 0 := by
  cases taken <;> rfl

/-- The callback invokes what it took. -/
theorem isCalling_afterComplete (taken : Bool) :
    (Work.finished (.afterComplete taken)).isCalling = taken := by
  cases taken <;> rfl

/-- Registering early invokes nothing. -/
theorem isCalling_register {work registered : Work} (early : work.register = some registered) :
    work.isCalling = false ∧ registered.isCalling = false := by
  cases work <;> cases early <;> exact ⟨rfl, rfl⟩

/-- Without a callback nothing is invoked. -/
theorem isCalling_of_isUnregistered {work : Work} (unregistered : work.isUnregistered = true) :
    work.isCalling = false := by
  cases work with
  | queued | running => rfl
  | finished callback => cases callback <;> first | rfl | cases unregistered

/-- A step of the poller or of a thread passes the callback on. -/
theorem Draining.keep {invoked calls : Nat} {s s' : PoolState} (draining : Draining invoked s)
    (preserved : Quiet s → Quiet s')
    (passed : calls + s'.pool.onDrained.toNat + s'.callers = s.pool.onDrained.toNat + s.callers)
    (taker : s.callers < s'.callers → Quiet s') (closing : s'.pool.closing = s.pool.closing)
    (stopper : s'.stopper = s.stopper) (shutdown : s'.executor.shutdown = s.executor.shutdown)
    (ended : s.executor.shutdown = true → (∀ work ∈ s.executor.accepted, work.isFinished = true) →
      ∀ work ∈ s'.executor.accepted, work.isFinished = true) :
    Draining (invoked + calls) s' := by
  have once := draining.once
  refine ⟨?_, ?_, ?_, ?_, ?_, ?_⟩
  · rw [stopper]
    omega
  · rw [stopper, closing]
    exact draining.closing
  · intro kept
    rw [closing]
    by_cases here : s.pool.onDrained = true
    · exact draining.kept here
    · rw [Bool.eq_false_iff.mpr here, kept] at passed
      rw [Bool.toNat_true, Bool.toNat_false] at passed
      have some : 0 < s.callers := by omega
      exact (draining.quiet some).closing
  · intro some
    by_cases less : s.callers < s'.callers
    · exact taker less
    · exact preserved (draining.quiet (by omega))
  · rw [stopper, shutdown]
    exact draining.shutdown
  · rw [stopper]
    intro notifying
    have joins : s.stopper.joins = true := by rw [notifying]; rfl
    exact ended (draining.shutdown joins) (draining.joined notifying)

/-- Whoever takes the callback in `_complete` finds nothing left to run. -/
theorem Draining.quiet_of_taken {config : PoolConfig} {n m invoked : Nat} {s s' : PoolState}
    {future : Option FutureId} (draining : Draining invoked s) (counted' : Counted config n m s')
    (completed : s'.pool = (s.pool.complete future).2)
    (taken : (s.pool.complete future).1 = true) : Quiet s' := by
  have had := complete_onDrained future s.pool
  rw [taken] at had
  have kept : s.pool.onDrained = true := by
    cases here : s.pool.onDrained
    · rw [here] at had
      cases (Nat.add_eq_zero_iff.mp had).1
    · rfl
  apply counted'.quiet
  · rw [completed, complete_closing]
    exact draining.kept kept
  · rw [completed]
    exact inFlight_of_taken taken

theorem eq_true_of_toNat_pos {taken : Bool} (one : 0 < taken.toNat) : taken = true := by
  cases taken with
  | false => exact absurd one (Nat.lt_irrefl _)
  | true => rfl

/-- A step of the poller invokes `on_drained` at most once in all. -/
theorem Draining.poll {config : PoolConfig} {n m n' m' invoked : Nat} {s s' : PoolState}
    {action : PollAction} (draining : Draining invoked s) (counted : Counted config n m s)
    (counted' : Counted config n' m' s') (taken : pollStep config s action = some s') :
    Draining (invoked + (PoolAction.poll action).invokes) s' := by
  have preserved : Quiet s → Quiet s' := fun quiet => quiet.poll taken
  have future := counted.future
  rcases pollStep_cases taken with ⟨step, same⟩
  clear taken counted
  rcases s with ⟨pool, executor, poller, stopper⟩
  rcases s' with ⟨pool', executor', poller', stopper'⟩
  dsimp only at step same future
  cases same
  cases step with
  | accept running =>
      have same : (executor.accepted ++ [Work.queued false]).countP Work.isCalling =
          executor.accepted.countP Work.isCalling := by
        rw [List.countP_append]
        rfl
      apply draining.keep preserved _ _ rfl rfl rfl
      · intro down
        rw [running] at down
        cases down
      · dsimp only [PoolState.callers, PoolAction.invokes]
        rw [same, Nat.zero_add]
        rfl
      · dsimp only [PoolState.callers]
        rw [same]
        exact fun less => absurd less (Nat.lt_irrefl _)
  | @register f others work registered there early =>
      have same := countP_set Work.isCalling registered there
      rcases isCalling_register early with ⟨none, none'⟩
      rw [none, none'] at same
      apply draining.keep preserved _ _ rfl rfl rfl
      · intro _ ended
        have finished := ended _ (List.mem_of_getElem? there)
        rw [isFinished_of_register early] at finished
        cases finished
      · dsimp only [PoolState.callers, PoolAction.invokes, Poller.calls]
        omega
      · dsimp only [PoolState.callers, Poller.calls]
        omega
  | @completeRejected others =>
      have moved := complete_onDrained none pool
      apply draining.keep preserved _ _ (complete_closing _ _) rfl rfl (fun _ ended => ended)
      · dsimp only [PoolState.callers, PoolAction.invokes]
        rw [Poller.calls_afterComplete]
        dsimp only [Poller.calls]
        omega
      · intro less
        dsimp only [PoolState.callers] at less
        rw [Poller.calls_afterComplete] at less
        dsimp only [Poller.calls] at less
        have one : 0 < (pool.complete none).1.toNat := by omega
        exact draining.quiet_of_taken counted' rfl (eq_true_of_toNat_pos one)
  | @complete f others =>
      rcases future f rfl with ⟨work, there, unregistered⟩
      have moved := complete_onDrained (some f) pool
      have same := countP_set Work.isCalling (.finished .called) there
      rw [isCalling_of_isUnregistered unregistered] at same
      dsimp only [Work.isCalling] at same
      apply draining.keep preserved _ _ (complete_closing _ _) rfl rfl
        (fun _ ended => ended_set _ _ ended)
      · dsimp only [PoolState.callers, PoolAction.invokes]
        rw [Poller.calls_afterComplete]
        dsimp only [Poller.calls]
        omega
      · intro less
        dsimp only [PoolState.callers] at less
        rw [Poller.calls_afterComplete] at less
        dsimp only [Poller.calls] at less
        rw [Bool.toNat_false] at same
        have one : 0 < (pool.complete (some f)).1.toNat := by omega
        exact draining.quiet_of_taken counted' rfl (eq_true_of_toNat_pos one)
  | @call failed others =>
      apply draining.keep preserved _ _ rfl rfl rfl (fun _ ended => ended)
      · dsimp only [PoolState.callers, PoolAction.invokes]
        rw [Poller.calls_afterComplete, Bool.toNat_false]
        dsimp only [Poller.calls]
        omega
      · dsimp only [PoolState.callers]
        rw [Poller.calls_afterComplete, Bool.toNat_false]
        dsimp only [Poller.calls]
        omega
  | _ =>
      exact draining.keep preserved (Nat.zero_add _ ▸ rfl)
        (fun less => absurd less (Nat.lt_irrefl _)) rfl rfl rfl (fun _ ended => ended)


theorem Draining.thread {config : PoolConfig} {n m invoked : Nat} {s s' : PoolState}
    {action : ThreadAction} (draining : Draining invoked s) (counted' : Counted config n m s')
    (taken : threadStep config s action = some s') :
    Draining (invoked + (PoolAction.thread action).invokes) s' := by
  have preserved : Quiet s → Quiet s' := fun quiet => quiet.thread taken
  rcases threadStep_cases taken with ⟨step, samePoller, sameStopper⟩
  clear taken
  rcases s with ⟨pool, executor, poller, stopper⟩
  rcases s' with ⟨pool', executor', poller', stopper'⟩
  dsimp only at step samePoller sameStopper
  cases samePoller
  cases sameStopper
  cases step with
  | @start g thread registered there =>
      have same := countP_set Work.isCalling (.running registered) there
      dsimp only [Work.isCalling] at same
      apply draining.keep preserved _ _ rfl rfl rfl
      · intro _ ended
        cases ended _ (List.mem_of_getElem? there)
      · dsimp only [PoolState.callers, PoolAction.invokes]
        omega
      · dsimp only [PoolState.callers]
        omega
  | @finish g registered there =>
      have same := countP_set Work.isCalling (.finished (.afterRun registered)) there
      have none : (Work.finished (.afterRun registered)).isCalling = false := by
        cases registered <;> rfl
      rw [none] at same
      dsimp only [Work.isCalling] at same
      apply draining.keep preserved _ _ rfl rfl rfl
      · intro _ ended
        cases ended _ (List.mem_of_getElem? there)
      · dsimp only [PoolState.callers, PoolAction.invokes]
        omega
      · dsimp only [PoolState.callers]
        omega
  | @complete g there =>
      have moved := complete_onDrained (some g) pool
      have same := countP_set Work.isCalling
        (.finished (.afterComplete (pool.complete (some g)).1)) there
      rw [isCalling_afterComplete] at same
      dsimp only [Work.isCalling] at same
      rw [Bool.toNat_false] at same
      apply draining.keep preserved _ _ (complete_closing _ _) rfl rfl
        (fun _ ended => ended_set _ _ ended)
      · dsimp only [PoolState.callers, PoolAction.invokes]
        omega
      · intro less
        dsimp only [PoolState.callers] at less
        have one : 0 < (pool.complete (some g)).1.toNat := by omega
        exact draining.quiet_of_taken counted' rfl (eq_true_of_toNat_pos one)
  | @call g there =>
      have same := countP_set Work.isCalling (.finished .called) there
      dsimp only [Work.isCalling] at same
      rw [Bool.toNat_false, Bool.toNat_true] at same
      apply draining.keep preserved _ _ rfl rfl rfl (fun _ ended => ended_set _ _ ended)
      · dsimp only [PoolState.callers, PoolAction.invokes]
        omega
      · dsimp only [PoolState.callers]
        omega
  | startStray | finishStray | cleanup =>
      exact draining.keep preserved (Nat.zero_add _ ▸ rfl)
        (fun less => absurd less (Nat.lt_irrefl _)) rfl rfl rfl (fun _ ended => ended)

/-- The stopper sets the callback after `closing`, and takes it when all that was accepted is over
and nothing more can be. -/
theorem Draining.stop {invoked : Nat} {s s' : PoolState} {action : StopAction}
    (draining : Draining invoked s) (taken : stopStep s action = some s') :
    Draining (invoked + (PoolAction.stop action).invokes) s' := by
  have preserved : Quiet s → Quiet s' := fun quiet => quiet.stop taken
  rcases stopStep_cases taken with ⟨step, same⟩
  clear taken
  rcases s with ⟨pool, executor, poller, stopper⟩
  rcases s' with ⟨pool', executor', poller', stopper'⟩
  rcases draining with ⟨once, closing, kept, quiet, shutdown, joined⟩
  dsimp only at step same once closing kept shutdown joined
  cases same
  cases step with
  | setClosing =>
      exact ⟨once, fun _ => rfl, fun _ => rfl, fun some => preserved (quiet some), shutdown,
        nofun⟩
  | @nothing onDrained threads | @snapshot onDrained threads =>
      have closed := closing nofun
      refine ⟨?_, fun _ => closed, fun _ => closed, fun some => preserved (quiet some),
        nofun, nofun⟩
      dsimp only [PoolState.callers, PoolAction.invokes, Stopper.calls, Stopper.early] at once ⊢
      have one := Bool.toNat_le onDrained
      omega
  | wait | submitCleanup | cleanupFails =>
      exact ⟨once, fun _ => closing nofun, kept,
        fun some => preserved (quiet some), nofun,
        nofun⟩
  | @shutdownExecutor drained =>
      have closed := closing nofun
      cases drained
      · exact ⟨once, fun _ => closed, kept, fun some => preserved (quiet some), fun _ => rfl,
          nofun⟩
      · exact ⟨once, fun _ => closed, kept, fun some => preserved (quiet some), fun _ => rfl,
          nofun⟩
  | join ended =>
      exact ⟨once, fun _ => closing nofun, kept,
        fun some => preserved (quiet some), shutdown, fun _ => List.all_eq_true.mp ended⟩
  | notify =>
      have closed := closing nofun
      have calm : Quiet ⟨pool.takeOnDrained.2, executor, poller,
          .afterNotify pool.takeOnDrained.1⟩ := ⟨closed, joined rfl, Or.inl (shutdown rfl)⟩
      refine ⟨?_, fun _ => closed, nofun, fun _ => calm, fun _ => shutdown rfl, fun _ => joined rfl⟩
      dsimp only [PoolState.callers, PoolAction.invokes]
      rw [Stopper.calls_afterNotify, Stopper.early_afterNotify]
      dsimp only [PoolState.callers, Stopper.calls, Stopper.early] at once
      dsimp only [WorkerPool.takeOnDrained]
      rw [Bool.toNat_false]
      omega
  | call =>
      refine ⟨?_, fun _ => closing nofun, kept, fun some => preserved (quiet ?_),
        nofun, nofun⟩
      · dsimp only [PoolState.callers, PoolAction.invokes, Stopper.calls, Stopper.early] at once ⊢
        omega
      · dsimp only [PoolState.callers, Stopper.calls] at some ⊢
        omega


/-! ## Runs -/

/-- The jobs started. -/
def started (actions : List PoolAction) : Nat := (actions.map PoolAction.starts).sum

/-- The jobs completed. -/
def completed (actions : List PoolAction) : Nat := (actions.map PoolAction.completes).sum

/-- The invocations of `on_drained` -/
def invoked (actions : List PoolAction) : Nat := (actions.map PoolAction.invokes).sum

theorem poolRun_append {config : PoolConfig} {s s' : PoolState} {before after : List PoolAction}
    (run : poolRun config s (before ++ after) = some s') :
    ∃ t, poolRun config s before = some t ∧ poolRun config t after = some s' := by
  induction before generalizing s with
  | nil => exact ⟨s, rfl, run⟩
  | cons action before ih =>
      rcases Option.bind_eq_some_iff.mp run with ⟨next, step, rest⟩
      rcases ih rest with ⟨t, here, there⟩
      exact ⟨t, Option.bind_eq_some_iff.mpr ⟨next, step, here⟩, there⟩

/-- One step keeps the count and the draining. -/
theorem poolStep_sound {config : PoolConfig} {n m k : Nat} {s s' : PoolState}
    {action : PoolAction} (counted : Counted config n m s) (draining : Draining k s)
    (step : poolStep config s action = some s') :
    Counted config (n + action.starts) (m + action.completes) s' ∧
      Draining (k + action.invokes) s' := by
  cases action with
  | poll action =>
      have counted' := counted.poll step
      exact ⟨counted', draining.poll counted counted' step⟩
  | thread action =>
      have counted' := counted.thread step
      exact ⟨counted', draining.thread counted' step⟩
  | stop action => exact ⟨counted.stop step, draining.stop step⟩

theorem poolRun_sound {config : PoolConfig} {n m k : Nat} {s s' : PoolState}
    {actions : List PoolAction} (counted : Counted config n m s) (draining : Draining k s)
    (run : poolRun config s actions = some s') :
    Counted config (n + started actions) (m + completed actions) s' ∧
      Draining (k + invoked actions) s' := by
  induction actions generalizing s n m k with
  | nil =>
      cases run
      exact ⟨counted, draining⟩
  | cons action actions ih =>
      rcases Option.bind_eq_some_iff.mp run with ⟨next, step, rest⟩
      rcases poolStep_sound counted draining step with ⟨counted, draining⟩
      have sound := ih counted draining rest
      rw [Nat.add_assoc, Nat.add_assoc, Nat.add_assoc] at sound
      exact sound

theorem counted_initial (config : PoolConfig) : Counted config 0 0 .initial :=
  ⟨rfl, rfl, Int.natCast_nonneg _, nofun⟩

theorem draining_initial : Draining 0 .initial :=
  ⟨Nat.le_refl 1, nofun, nofun, nofun, nofun, nofun⟩

section Closing

variable {config : PoolConfig} {pool pool' : WorkerPool} {executor executor' : Executor}

theorem PollerStep.closing_eq {poller poller' : Poller} {action : PollAction}
    (step : PollerStep config pool executor poller action pool' executor' poller') :
    pool'.closing = pool.closing := by
  cases step with
  | completeRejected | complete => exact complete_closing _ _
  | _ => rfl

theorem ThreadStep.closing_eq {action : ThreadAction}
    (step : ThreadStep pool executor action pool' executor') : pool'.closing = pool.closing := by
  cases step with
  | complete => exact complete_closing _ _
  | _ => rfl

theorem StopperStep.closing_of {stopper stopper' : Stopper} {action : StopAction}
    (step : StopperStep pool executor stopper action pool' executor' stopper')
    (closing : pool.closing = true) : pool'.closing = true := by
  cases step with
  | setClosing => rfl
  | _ => exact closing

/-- The event is never cleared, and once it is set no submission passes the first block. -/
theorem poolStep_of_closing {s s' : PoolState} {action : PoolAction}
    (closing : s.pool.closing = true) (step : poolStep config s action = some s') :
    s'.pool.closing = true ∧ action ≠ .poll .begin := by
  rcases s with ⟨pool, executor, poller, stopper⟩
  rcases s' with ⟨pool', executor', poller', stopper'⟩
  cases action with
  | poll action =>
      have kind := (pollStep_cases step).1
      refine ⟨kind.closing_eq.trans closing, fun begin => ?_⟩
      cases begin
      cases kind with
      | begin opened =>
          rw [opened] at closing
          cases closing
  | thread action =>
      exact ⟨(threadStep_cases step).1.closing_eq.trans closing, nofun⟩
  | stop action => exact ⟨(stopStep_cases step).1.closing_of closing, nofun⟩

theorem not_begin_of_closing {s s' : PoolState} {actions : List PoolAction}
    (closing : s.pool.closing = true) (run : poolRun config s actions = some s') :
    .poll .begin ∉ actions := by
  induction actions generalizing s with
  | nil => exact List.not_mem_nil
  | cons action actions ih =>
      rcases Option.bind_eq_some_iff.mp run with ⟨next, step, rest⟩
      rcases poolStep_of_closing closing step with ⟨still, other⟩
      intro begins
      rcases List.mem_cons.mp begins with same | later
      · exact other same.symm
      · exact ih still rest later

theorem closing_of_setClosing {s s' : PoolState} (step : stopStep s .setClosing = some s') :
    s'.pool.closing = true := by
  have kind := (stopStep_cases step).1
  rcases s with ⟨pool, executor, poller, stopper⟩
  rcases s' with ⟨pool', executor', poller', stopper'⟩
  cases kind
  rfl

end Closing

/-- Whoever calls the callback has taken it. -/
theorem callers_pos {config : PoolConfig} {s s' : PoolState} {action : PoolAction}
    (invokes : action.invokes = 1) (step : poolStep config s action = some s') :
    0 < s.callers := by
  rcases s with ⟨pool, executor, poller, stopper⟩
  rcases s' with ⟨pool', executor', poller', stopper'⟩
  dsimp only [PoolState.callers]
  cases action with
  | poll action =>
      rcases pollStep_cases step with ⟨kind, -⟩
      cases kind with
      | call =>
          dsimp only [Poller.calls]
          omega
      | _ => cases invokes
  | thread action =>
      rcases threadStep_cases step with ⟨kind, -⟩
      cases kind with
      | call there =>
          have some : 0 < executor.accepted.countP Work.isCalling :=
            List.countP_pos_iff.mpr ⟨_, List.mem_of_getElem? there, rfl⟩
          omega
      | _ => cases invokes
  | stop action =>
      rcases stopStep_cases step with ⟨kind, -⟩
      cases kind with
      | call =>
          dsimp only [Stopper.calls]
          omega
      | _ => cases invokes

/-! ## Work nobody has a future of -/

/-- Only a submission that raises after it has queued its work leaves work that is not accepted. -/
theorem strays_of_poolStep {config : PoolConfig} {s s' : PoolState} {action : PoolAction}
    (none : s.executor.strays = []) (other : action ≠ .poll .rejectQueued)
    (step : poolStep config s action = some s') : s'.executor.strays = [] := by
  rcases s with ⟨pool, executor, poller, stopper⟩
  rcases s' with ⟨pool', executor', poller', stopper'⟩
  dsimp only at none ⊢
  cases action with
  | poll action =>
      rcases pollStep_cases step with ⟨kind, -⟩
      cases kind with
      | rejectQueued => exact absurd rfl other
      | _ => exact none
  | thread action =>
      rcases threadStep_cases step with ⟨kind, -⟩
      cases kind with
      | startStray | finishStray =>
          dsimp only
          rw [none]
          rfl
      | _ => exact none
  | stop action =>
      rcases stopStep_cases step with ⟨kind, -⟩
      cases kind <;> exact none

/-- No stray work item, where no submit is refused after queueing. -/
theorem strays_of_poolRun {config : PoolConfig} {s s' : PoolState} {actions : List PoolAction}
    (none : s.executor.strays = []) (others : .poll .rejectQueued ∉ actions)
    (run : poolRun config s actions = some s') : s'.executor.strays = [] := by
  induction actions generalizing s with
  | nil =>
      cases run
      exact none
  | cons action actions ih =>
      rcases Option.bind_eq_some_iff.mp run with ⟨next, step, rest⟩
      rw [List.mem_cons, not_or] at others
      exact ih (strays_of_poolStep none (Ne.symm others.1) step) others.2 rest

/-- The callback is called only when no submitted work is queued or running. -/
def DrainsIdle (config : PoolConfig) (actions : List PoolAction) : Prop :=
  ∀ before action after, actions = before ++ action :: after → action.invokes = 1 →
    ∃ t, poolRun config .initial before = some t ∧ t.executor.Idle

/-- The count is right and within the prefetch limit, nothing is submitted once `closing` is set,
and the callback is called at most once.  Unless a submission has left work in the queue it is
called when no submitted work is queued or running. -/
theorem worker_pool_drains_once {config : PoolConfig} {actions : List PoolAction} {s : PoolState}
    (run : poolRun config .initial actions = some s) :
    s.pool.inFlight = (started actions : Int) - completed actions ∧
      0 ≤ s.pool.inFlight ∧ s.pool.inFlight ≤ config.threads * config.prefetchMultiplier ∧
      (∀ before after, actions = before ++ .stop .setClosing :: after → .poll .begin ∉ after) ∧
      invoked actions ≤ 1 ∧
      (.poll .rejectQueued ∉ actions → DrainsIdle config actions) := by
  rcases poolRun_sound (counted_initial config) draining_initial run with ⟨counted, draining⟩
  rw [Nat.zero_add, Nat.zero_add] at counted
  rw [Nat.zero_add] at draining
  have owed := counted.owed
  have ahead := counted.ahead
  have once := draining.once
  unfold PoolConfig.prefetchLimit at ahead
  refine ⟨counted.balance, by omega, ?_, ?_, by omega, ?_⟩
  · push_cast at ahead
    omega
  · intro before after split
    rw [split] at run
    rcases poolRun_append run with ⟨t, -, run⟩
    rcases Option.bind_eq_some_iff.mp run with ⟨next, step, rest⟩
    exact not_begin_of_closing (closing_of_setClosing step) rest
  · intro others before action after split invokes
    rw [split] at run others
    rcases poolRun_append run with ⟨t, here, run⟩
    rcases Option.bind_eq_some_iff.mp run with ⟨next, step, -⟩
    have draining := (poolRun_sound (counted_initial config) draining_initial here).2
    have none : t.executor.strays = [] :=
      strays_of_poolRun rfl (fun mem => others (List.mem_append_left _ mem)) here
    refine ⟨t, here, (draining.quiet (callers_pos invokes step)).ended, ?_⟩
    rw [none]
    exact nofun

/-- A shutdown that gives up waiting for the first of two jobs while the poller submits the second,
which is over before its done-callback is registered. -/
def lateDrain : List PoolAction :=
  [.poll .readIdleCapacity, .poll .readInFlight, .poll (.claim 2), .poll .begin, .poll .accept,
    .poll .addFuture, .poll .addDoneCallback, .poll .begin, .thread (.start 0 0),
    .stop .setClosing, .stop (.snapshot true), .poll .accept, .stop (.wait [0]),
    .stop .shutdownExecutor, .poll .addFuture, .thread (.finish 0), .thread (.complete 0),
    .thread (.start 1 0), .thread (.finish 1), .poll .addDoneCallback, .poll .complete, .poll .call]

/-- Two jobs, `stop` called while one runs: drained once. -/
theorem worker_pool_drains_once_late :
    (poolRun ⟨1, 1, 2⟩ .initial lateDrain).map (fun s => s.pool.inFlight) = some 0 ∧
      started lateDrain = 2 ∧ completed lateDrain = 2 ∧ invoked lateDrain = 1 ∧
      ∃ t, poolRun ⟨1, 1, 2⟩ .initial (lateDrain.take 21) = some t ∧ t.executor.Idle := by
  have run : ∃ s, poolRun ⟨1, 1, 2⟩ .initial lateDrain = some s := ⟨_, rfl⟩
  rcases run with ⟨s, run⟩
  rcases worker_pool_drains_once run with ⟨-, -, -, -, -, idle⟩
  exact ⟨rfl, rfl, rfl, rfl, idle (by decide) _ _ [] rfl rfl⟩

/-- The thread for the second of two jobs cannot be started; its work is queued behind the first
one, which is over after the shutdown has given up waiting. -/
def strayDrain : List PoolAction :=
  [.poll .readIdleCapacity, .poll .readInFlight, .poll (.claim 2), .poll .begin, .poll .accept,
    .poll .addFuture, .poll .addDoneCallback, .thread (.start 0 0), .poll .begin,
    .poll .rejectQueued, .poll .completeRejected, .poll .handle, .poll .return_,
    .stop .setClosing, .stop (.snapshot true), .stop (.wait [0]), .stop .shutdownExecutor,
    .thread (.finish 0), .thread (.complete 0), .thread (.call 0)]

/-- The callback is called while the work of the second job is still in the queue. -/
theorem drained_before_stray : (poolRun ⟨2, 2, 1⟩ .initial strayDrain).isSome = true ∧
    ¬ DrainsIdle ⟨2, 2, 1⟩ strayDrain := by
  refine ⟨rfl, fun drains => ?_⟩
  rcases drains (strayDrain.take 19) (.thread (.call 0)) [] rfl rfl with ⟨t, run, -, strays⟩
  have queued : (poolRun ⟨2, 2, 1⟩ .initial (strayDrain.take 19)).map
      (fun t => t.executor.strays) = some [.queued] := rfl
  rw [run, Option.map_some, Option.some.injEq] at queued
  rw [queued] at strays
  cases strays .queued (List.mem_singleton_self _)

end DjQueue
