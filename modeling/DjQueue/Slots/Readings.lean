import DjQueue.Operations.Recovery

/-!
# The readings a session spends

A session reads the clock a few times, whether it returns or raises, and what comes after it reads
on from there: the later readings are readings of the clock it started with.
-/

namespace DjQueue

open Relational

/-- The later clock is the earlier one after some readings. -/
def Ticks (w w' : World) : Prop := ∃ k, ∀ n, w'.clock n = w.clock (n + k)

theorem Ticks.refl (w : World) : Ticks w w := ⟨0, fun _ => rfl⟩

/-- What the tables hold does not matter. -/
theorem Ticks.of_tables {w w' : World} {db : Db} (ticks : Ticks { w with db := db } w') :
    Ticks w w' := ticks

theorem Ticks.trans {w w' w'' : World} (first : Ticks w w') (second : Ticks w' w'') :
    Ticks w w'' := by
  rcases first with ⟨k, first⟩
  rcases second with ⟨l, second⟩
  refine ⟨l + k, fun n => ?_⟩
  rw [second, first, Nat.add_assoc]

/-- What holds of all readings holds of the later ones. -/
theorem Ticks.forall {w w' : World} {P : Time → Prop} (ticks : Ticks w w')
    (all : ∀ n, P (w.clock n)) : ∀ n, P (w'.clock n) := by
  rcases ticks with ⟨k, shifted⟩
  intro n
  rw [shifted]
  exact all _

/-- However the session ends, it has spent the first readings. -/
def Advances {α : Type} (x : Op α) : Prop := ∀ w, Ticks w (finalState x w)

namespace Advances

variable {α β : Type}

theorem of_run {x : Op α} (advances : Advances x) {w w' : World} {a : α} (run : Runs x w a w') :
    Ticks w w' := by
  have ticks := advances w
  rw [run.finalState_eq] at ticks
  exact ticks

/-- A session that does not look at the clock. -/
theorem of_same {x : Op α} (same : ∀ w, (finalState x w).clock = w.clock) : Advances x :=
  fun w => ⟨0, fun n => by rw [same]; rfl⟩

theorem pure (a : α) : Advances (Pure.pure a : Op α) := fun w => .refl w

theorem throw (e : PyError) : Advances (throw e : Op α) := fun w => .refl w

theorem bind {x : Op α} {f : α → Op β} (first : Advances x) (second : ∀ a, Advances (f a)) :
    Advances (x >>= f) := by
  intro w
  rcases finalState_bind x f w with ⟨a, -, eq⟩ | eq
  · rw [eq]
    exact (first w).trans (second a _)
  · rw [eq]
    exact first w

theorem runIf (c : Bool) {x : Op Unit} (body : Advances x) : Advances (runIf c x) := by
  cases c with
  | true => exact body
  | false => exact pure _

theorem ofExcept (x : Except PyError α) : Advances (MonadExcept.ofExcept x : Op α) := by
  cases x with
  | ok a => exact pure a
  | error e => exact throw e

theorem getDb : Advances getDb := fun w => .refl w

theorem modifyDb (f : Db → Db) : Advances (modifyDb f) := of_same fun _ => rfl

theorem timezoneNow : Advances timezoneNow := fun _ => ⟨1, fun _ => rfl⟩

/-- A transaction that raises gives the tables back, not the readings. -/
theorem transactionAtomic {x : Op α} (body : Advances x) : Advances (transactionAtomic x) := by
  intro w
  have spent := body w
  unfold finalState at spent ⊢
  unfold DjQueue.transactionAtomic atomic
  cases ran : x w with
  | ok a w' =>
      rw [ran] at spent
      exact spent
  | error e w' =>
      rw [ran] at spent
      exact spent

theorem tryCatch {x : Op α} {handle : PyError → Op α} (body : Advances x)
    (handled : ∀ e, Advances (handle e)) : Advances (tryCatch x handle) := by
  intro w
  have spent := body w
  unfold finalState at spent ⊢
  simp only [MonadExcept.tryCatch, tryCatchThe, MonadExceptOf.tryCatch, EStateM.tryCatch]
  cases ran : x w with
  | ok a w' =>
      rw [ran] at spent
      exact spent
  | error e w' =>
      rw [ran] at spent
      exact spent.trans (handled e w')

theorem forM {f : α → Op Unit} (body : ∀ a, Advances (f a)) : ∀ l : List α, Advances (l.forM f)
  | [] => pure _
  | a :: l => bind (body a) fun _ => forM body l

theorem ensureFits (family : BackendFamily) (numbers : List Int) :
    Advances (ensureFits family numbers) := runIf _ (throw _)

theorem sliceTo (n : Int) (rows : List α) : Advances (sliceTo n rows) := by
  unfold DjQueue.sliceTo
  split
  · exact throw _
  · exact pure _

/-! ## Rows -/

theorem ensureJobIdsHaveNoOtherExecutionState (ids : List JobId) (ignored : List StateModel) :
    Advances (ensureJobIdsHaveNoOtherExecutionState ids ignored) := by
  refine bind getDb fun db => ?_
  split
  · exact pure _
  · exact throw _

theorem ensureStateRowsBelongToBackend {m : StateModel} (rows : List (m.Row × Job))
    (backendAlias : String) : Advances (ensureStateRowsBelongToBackend rows backendAlias) := by
  unfold DjQueue.ensureStateRowsBelongToBackend
  split
  · exact pure _
  · exact throw _

theorem insertRow (m : StateModel) (jobId : JobId) (mk : Nat → m.Row) :
    Advances (insertRow m jobId mk) := by
  refine bind getDb fun db => ?_
  split
  · exact throw _
  · exact modifyDb _

theorem createRow (m : StateModel) (row : m.Row) : Advances (createRow m row) :=
  bind timezoneNow fun _ => insertRow m _ _

theorem bulkCreate (m : StateModel) (rows : List m.Row) : Advances (bulkCreate m rows) :=
  forM (createRow m) rows

theorem bulkCreateReadyExecutions (rows : List ReadyExecution) (checkConflicts : Bool) :
    Advances (bulkCreateReadyExecutions rows checkConflicts) := by
  unfold DjQueue.bulkCreateReadyExecutions
  split
  · exact pure _
  · exact bind (runIf _ (ensureJobIdsHaveNoOtherExecutionState _ _)) fun _ => bulkCreate .ready _

theorem createBlockedExecution (job : JobRef) (backendAlias : String) (key : Option String)
    (expiresAt : Time) (queueName : Option String) (priority : Option Int) (checkConflicts : Bool) :
    Advances (createBlockedExecution job backendAlias key expiresAt queueName priority
      checkConflicts) :=
  bind (runIf _ (ensureJobIdsHaveNoOtherExecutionState _ _)) fun _ =>
    bind (ofExcept _) fun _ => createRow .blocked _

theorem createReadyExecutionAfterBlockedConsume (job : JobRef) (backendAlias : String)
    (readyAt : Time) :
    Advances (createReadyExecutionAfterBlockedConsume job backendAlias readyAt) := by
  refine bind (bind getDb fun db => ?_) fun _ => runIf _ (throw _)
  split
  · exact pure _
  · exact bind (insertRow .ready _ _) fun _ => pure _

theorem deleteRowsWhere (m : StateModel) (p : m.Row → Bool) : Advances (deleteRowsWhere m p) :=
  bind getDb fun _ => bind (modifyDb _) fun _ => pure _

theorem consumeEachRow (m : StateModel) (pk : β → Nat) :
    ∀ rows : List β, Advances (consumeEachRow m pk rows)
  | [] => pure _
  | _ :: rows => bind (deleteRowsWhere m _) fun _ => bind (consumeEachRow m pk rows) fun _ => pure _

theorem consumeSelectedRows (env : Env) (m : StateModel) (pk : β → Nat) (rows : List β) :
    Advances (consumeSelectedRows env m pk rows) := by
  unfold DjQueue.consumeSelectedRows
  split
  · exact consumeEachRow m pk rows
  · exact bind (deleteRowsWhere m _) fun _ => pure _

theorem consumeNextBlockedJob (env : Env) (key : String) :
    Advances (consumeNextBlockedJob env key) := by
  refine bind getDb fun db => ?_
  split
  · exact pure _
  · split
    · exact bind (deleteRowsWhere .blocked _) fun _ => pure _
    · exact bind (ensureStateRowsBelongToBackend (m := .blocked) _ _) fun _ =>
        bind (consumeSelectedRows env .blocked _ _) fun _ => pure _

theorem deleteJobsWhere (p : Job → Bool) : Advances (deleteJobsWhere p) :=
  bind getDb fun _ => bind (modifyDb _) fun _ => pure _

/-! ## Slots -/

theorem updateSlots (family : BackendFamily) (key : String) (s : SlotStatement) :
    Advances (updateSlots family key s) :=
  bind getDb fun _ => bind (ensureFits _ _) fun _ =>
    bind getDb fun _ => bind (modifyDb _) fun _ => pure _

theorem semaphoreRelease (env : Env) (key : String) (limit duration : Int) :
    Advances (semaphoreRelease env key limit duration) :=
  bind timezoneNow fun _ => bind (ofExcept _) fun _ => bind (updateSlots _ _ _) fun _ => pure _

theorem acquireHandoffSlot (env : Env) (mode : SlotHandoffMode) (key : String)
    (limit duration : Int) (now : Time) :
    Advances (acquireHandoffSlot env mode key limit duration now) := by
  cases mode with
  | releaseClaimed => exact bind (ofExcept _) fun _ => bind (updateSlots _ _ _) fun _ => pure _
  | consumeReleased => exact bind (ofExcept _) fun _ => bind (updateSlots _ _ _) fun _ => pure _

theorem consumeNextBlockedJobWithReleasedSlot (env : Env) (key : String) (limit duration : Int)
    (now : Time) : Advances (consumeNextBlockedJobWithReleasedSlot env key limit duration now) := by
  refine bind (ofExcept _) fun expiresAt => bind getDb fun db => bind (ensureFits _ _) fun _ => ?_
  split
  · exact pure _
  · refine bind (updateSlots _ _ _) fun updated => ?_
    split
    · exact pure _
    · exact bind (deleteRowsWhere .blocked _) fun _ => pure _

theorem consumeBlockedJobForSlot (env : Env) (mode : SlotHandoffMode) (key : String)
    (limit duration : Int) (now : Time) :
    Advances (consumeBlockedJobForSlot env mode key limit duration now) := by
  unfold DjQueue.consumeBlockedJobForSlot
  split
  · refine bind (consumeNextBlockedJobWithReleasedSlot env key _ _ _) fun consumed => ?_
    split
    · exact pure _
    · split
      · exact throw _
      · exact pure _
  · refine bind (consumeNextBlockedJob env key) fun consumed => ?_
    split
    · exact pure _
    · split
      · exact throw _
      · exact bind (acquireHandoffSlot env mode key _ _ _) fun _ =>
          bind (runIf _ (createBlockedExecution _ _ _ _ _ _ _)) fun _ => pure _

theorem unblockNextBlockedJob (env : Env) (key : String) (limit duration : Int)
    (mode : SlotHandoffMode) : Advances (unblockNextBlockedJob env key limit duration mode) := by
  refine bind timezoneNow fun now => transactionAtomic ?_
  refine bind (consumeBlockedJobForSlot env mode key _ _ _) fun slot => ?_
  split
  · exact bind (createReadyExecutionAfterBlockedConsume _ _ _) fun _ => pure _
  · exact pure _

/-! ## Releases -/

theorem releaseSettings (env : Env) (job : Job) (key : String) (task : Option Imported) :
    Advances (releaseSettings env job key task) := by
  refine bind getDb fun db => ?_
  split
  · exact pure _
  · exact pure _
  · exact throw _

theorem releaseSlot (env : Env) (key : String) (limit duration : Int) :
    Advances (releaseSlot env key limit duration) := by
  refine bind (unblockNextBlockedJob env key _ _ _) fun unblocked => ?_
  split
  · exact pure _
  · exact bind (semaphoreRelease env key _ _) fun _ =>
      bind (unblockNextBlockedJob env key _ _ _) fun _ => pure _

theorem releaseConcurrencySlot (env : Env) (job : Job) (task : Option Imported) :
    Advances (releaseConcurrencySlot env job task) := by
  unfold DjQueue.releaseConcurrencySlot
  split
  · exact pure _
  · exact bind (releaseSettings env job _ task) fun _ => releaseSlot env _ _ _

theorem releaseAll (env : Env) : ∀ jobs : List Job, Advances (releaseAll env jobs)
  | [] => pure _
  | job :: jobs => bind (releaseConcurrencySlot env job none) fun _ => releaseAll env jobs

theorem releaseRecoveredConcurrencyGroup (env : Env) (key : String) (releaseCount : Nat)
    (limit duration : Int) :
    Advances (releaseRecoveredConcurrencyGroup env key releaseCount limit duration) := by
  refine bind timezoneNow fun now => bind (ofExcept _) fun expiresAt => bind getDb fun db =>
    bind (ensureStateRowsBelongToBackend (m := .blocked) _ _) fun _ => ?_
  split
  · exact pure _
  · exact bind (consumeSelectedRows env .blocked _ _) fun _ => bind timezoneNow fun _ =>
      bind (ensureFits _ _) fun _ => bind (modifyDb _) fun _ => bind (ofExcept _) fun _ =>
        bind (bulkCreateReadyExecutions _ _) fun _ => pure _

theorem releaseSettingsOfAll (env : Env) (key : String) :
    ∀ jobs : List Job, Advances (releaseSettingsOfAll env key jobs)
  | [] => pure _
  | job :: jobs => bind (releaseSettings env job key none) fun _ =>
      bind (releaseSettingsOfAll env key jobs) fun _ => pure _

theorem releaseRecoveredGroup (env : Env) (key : String) (jobs : List Job) :
    Advances (releaseRecoveredGroup env key jobs) := by
  refine bind (releaseSettingsOfAll env key jobs) fun settings => ?_
  split
  · exact bind (releaseRecoveredConcurrencyGroup env key _ _ _) fun _ => pure _
  · exact pure _

theorem releaseRecoveredGroups (env : Env) :
    ∀ groups : List (String × List Job), Advances (releaseRecoveredGroups env groups)
  | [] => pure _
  | (key, jobs) :: groups => bind (releaseRecoveredGroup env key jobs) fun _ =>
      bind (releaseRecoveredGroups env groups) fun _ => pure _

theorem releaseFallback (env : Env) (jobs : List Job) : Advances (releaseFallback env jobs) := by
  refine bind ?_ fun fallback => releaseAll env fallback
  unfold DjQueue.releaseRecoveredConcurrencySlots
  split
  · exact throw _
  · exact releaseRecoveredGroups env _

/-! ## Claims -/

theorem resolveClaimedJob (env : Env) (arg : JobArg) : Advances (resolveClaimedJob env arg) := by
  cases arg with
  | job job =>
      unfold DjQueue.resolveClaimedJob
      dsimp only
      split
      · exact throw _
      · exact pure _
  | pk id =>
      refine bind getDb fun db => ?_
      split
      · exact throw _
      · exact pure _

theorem deleteClaimedExecution (id : JobId) : Advances (deleteClaimedExecution id) :=
  bind (deleteRowsWhere .claimed _) fun _ => runIf _ (throw _)

theorem finishClaimedJob (env : Env) (job : Job) (returnValue : Option String) (now : Time) :
    Advances (finishClaimedJob env job returnValue now) := by
  unfold DjQueue.finishClaimedJob
  split
  · split
    · exact bind getDb fun _ => bind (deleteRowsWhere .claimed _) fun _ => bind (modifyDb _) fun _ =>
        bind (runIf _ (throw _)) fun _ => runIf _ (throw _)
    · exact bind (deleteClaimedExecution job.id) fun _ => bind getDb fun _ =>
        bind (modifyDb _) fun _ => runIf _ (throw _)
  · exact bind (deleteClaimedExecution job.id) fun _ =>
      bind (ensureJobIdsHaveNoOtherExecutionState _ _) fun _ =>
        bind (deleteJobsWhere _) fun _ => pure _

theorem completeClaimedJob (env : Env) (arg : JobArg) (returnValue : Option String)
    (task : Option Imported) : Advances (completeClaimedJob env arg returnValue task) :=
  bind (resolveClaimedJob env arg) fun job => transactionAtomic (bind timezoneNow fun _ =>
    bind (finishClaimedJob env job _ _) fun _ => releaseConcurrencySlot env job task)

theorem failClaimedJob (env : Env) (arg : JobArg) (failure : Failure) (task : Option Imported) :
    Advances (failClaimedJob env arg failure task) :=
  bind (resolveClaimedJob env arg) fun job => transactionAtomic
    (bind (deleteClaimedExecution job.id) fun _ =>
      bind (ensureJobIdsHaveNoOtherExecutionState _ _) fun _ =>
        bind (createRow .failed _) fun _ => releaseConcurrencySlot env job task)

/-! ## Recovery -/

theorem failClaimedJobs (env : Env) (jobs : List Job) (failure : Failure) :
    Advances (failClaimedJobs env jobs failure) := by
  unfold DjQueue.failClaimedJobs
  split
  · exact pure _
  · split
    · exact throw _
    · exact transactionAtomic (bind (deleteRowsWhere .claimed _) fun _ =>
        bind (runIf _ (throw _)) fun _ =>
          bind (ensureJobIdsHaveNoOtherExecutionState _ _) fun _ =>
            bind (bulkCreate .failed _) fun _ => bind (releaseFallback env jobs) fun _ => pure _)

theorem failOrphanedClaimedJobs (env : Env) (failure : Failure) (batchSize : Int) :
    Advances (failOrphanedClaimedJobs env failure batchSize) :=
  transactionAtomic (bind getDb fun _ => bind (sliceTo _ _) fun _ => failClaimedJobs env _ failure)

theorem deleteProcessesWhere (p : Process → Bool) : Advances (deleteProcessesWhere p) := by
  refine bind getDb fun db => bind ?_ fun _ => bind (modifyDb _) fun _ => pure _
  unfold saveProcesses
  split
  · exact modifyDb _
  · exact throw _

theorem pruneLoop (env : Env) (cutoff : Time) (failure : Failure) :
    ∀ (stale : List Process) (remaining : Int), Advances (pruneLoop env cutoff failure stale remaining)
  | [], _ => pure _
  | process :: rest, remaining => by
      refine bind getDb fun db => bind (sliceTo _ _) fun rows =>
        bind (deleteProcessesWhere _) fun deleted => ?_
      split
      · exact pruneLoop env cutoff failure rest _
      · refine bind (failClaimedJobs env _ failure) fun _ => ?_
        split
        · exact pure _
        · exact bind (pruneLoop env cutoff failure rest _) fun _ => pure _

theorem pruneStaleProcesses (env : Env) (cutoff : Time) (failure : Failure) (excluded : Option Nat)
    (batchSize : Int) : Advances (pruneStaleProcesses env cutoff failure excluded batchSize) :=
  transactionAtomic (bind getDb fun _ => bind (sliceTo _ _) fun stale =>
    pruneLoop env cutoff failure stale batchSize)

end Advances

end DjQueue
