import DjQueue.Operations.Recurring

/-!
# What dispatching a job leaves alone

`dispatch_job` gives a job its first state and takes a slot for it.  It neither creates nor
deletes jobs, nor does it write a column of a job that is fixed when the job is created, and
it does not touch the processes, pauses and recurring tasks.  `KeepsFrame` says so of one
session; the lemmas go through the helpers in the order of the source.
-/

namespace DjQueue

open Relational

/-- A job without the columns that change after its creation. -/
def Job.core (j : Job) : Job := { j with scheduledAt := none, finishedAt := none, returnValue := none }

/-- The same jobs up to their results and times, and the same tables besides the state tables and
the semaphores. -/
structure SameFrame (db db' : Db) : Prop where
  cores : db'.jobs.map Job.core = db.jobs.map Job.core
  processes : db'.processes = db.processes
  pauses : db'.pauses = db.pauses
  recurringTasks : db'.recurringTasks = db.recurringTasks
  recurringExecutions : db'.recurringExecutions = db.recurringExecutions

theorem SameFrame.refl (db : Db) : SameFrame db db := ⟨rfl, rfl, rfl, rfl, rfl⟩

theorem SameFrame.trans {a b c : Db} (first : SameFrame a b) (second : SameFrame b c) :
    SameFrame a c :=
  ⟨second.cores.trans first.cores, second.processes.trans first.processes,
    second.pauses.trans first.pauses, second.recurringTasks.trans first.recurringTasks,
    second.recurringExecutions.trans first.recurringExecutions⟩

/-- The session keeps the frame whenever it returns. -/
def KeepsFrame {α : Type} (x : Op α) : Prop :=
  Relates (fun w w' => SameFrame w.db w'.db) x

namespace KeepsFrame

variable {α β : Type}

/-- Returning a value touches no table. -/
theorem pure (a : α) : KeepsFrame (Pure.pure a : Op α) :=
  Relates.pure (fun w => SameFrame.refl w.db) a

theorem throw (e : PyError) : KeepsFrame (throw e : Op α) := Relates.throw e

/-- The frame is kept through a sequence of two operations. -/
theorem bind {x : Op α} {f : α → Op β} (first : KeepsFrame x) (second : ∀ a, KeepsFrame (f a)) :
    KeepsFrame (x >>= f) :=
  Relates.bind (R := fun (w w' : World) => SameFrame w.db w'.db) (fun _ _ _ => SameFrame.trans)
    first second

/-- A pure check, whether it raises or not. -/
theorem ofExcept (x : Except PyError α) : KeepsFrame (MonadExcept.ofExcept x : Op α) :=
  Relates.ofExcept (fun w => SameFrame.refl w.db) x

/-- A step that is skipped under a condition. -/
theorem runIf (c : Bool) {x : Op Unit} (body : KeepsFrame x) : KeepsFrame (runIf c x) :=
  Relates.runIf (fun w => SameFrame.refl w.db) c body

/-- The range check of the driver reads no table. -/
theorem ensureFits (family : BackendFamily) (numbers : List Int) :
    KeepsFrame (ensureFits family numbers) := runIf _ (throw _)

theorem getDb : KeepsFrame getDb := fun _ _ _ run => (of_run_getDb run).2 ▸ SameFrame.refl _

theorem timezoneNow : KeepsFrame timezoneNow := by
  intro w now w' run
  rw [of_run_timezoneNow run]
  exact SameFrame.refl _

/-- One write, by what it does to every database. -/
theorem modifyDb {f : Db → Db} (keeps : ∀ db, SameFrame db (f db)) : KeepsFrame (modifyDb f) := by
  intro w u w' run
  rw [of_run_modifyDb run]
  exact keeps w.db

/-! ## Rows -/

theorem ensureJobIdsHaveNoOtherExecutionState (ids : List JobId) (ignored : List StateModel) :
    KeepsFrame (ensureJobIdsHaveNoOtherExecutionState ids ignored) := by
  refine bind getDb fun db => ?_
  split
  · exact pure _
  · exact throw _

/-- The conflict check of one job only reads. -/
theorem ensureNoOtherExecutionState (id : JobId) (ignored : List StateModel) :
    KeepsFrame (ensureNoOtherExecutionState id ignored) :=
  ensureJobIdsHaveNoOtherExecutionState _ _

/-- The five state tables lie outside the frame. -/
theorem setTable (m : StateModel) (t : Db → Table m.Row) :
    KeepsFrame (DjQueue.modifyDb (fun db => db.setTable m (t db))) :=
  modifyDb fun db => ⟨by rw [Db.jobs_setTable], by simp, by simp, by simp, by simp⟩

theorem insertRow (m : StateModel) (jobId : JobId) (mk : Nat → m.Row) :
    KeepsFrame (insertRow m jobId mk) := by
  refine bind getDb fun db => ?_
  split
  · exact throw _
  · exact setTable m _

/-- An insert with the time of the clock. -/
theorem createRow (m : StateModel) (row : m.Row) : KeepsFrame (createRow m row) :=
  bind timezoneNow fun _ => insertRow m _ _

theorem createReadyExecution (job : JobRef) (backendAlias : String) (queueName : Option String)
    (priority : Option Int) (readyAt : Time) (checkConflicts : Bool) :
    KeepsFrame (createReadyExecution job backendAlias queueName priority readyAt checkConflicts) :=
  bind (runIf _ (ensureNoOtherExecutionState _ _)) fun _ =>
    bind (ofExcept _) fun _ => createRow .ready _

theorem createScheduledExecution (job : Job) (backendAlias : String) (scheduledAt : Option Time)
    (checkConflicts : Bool) :
    KeepsFrame (createScheduledExecution job backendAlias scheduledAt checkConflicts) :=
  bind (runIf _ (ensureNoOtherExecutionState _ _)) fun _ =>
    bind (ofExcept _) fun _ => createRow .scheduled _

theorem createBlockedExecution (job : JobRef) (backendAlias : String) (key : Option String)
    (expiresAt : Time) (queueName : Option String) (priority : Option Int)
    (checkConflicts : Bool) :
    KeepsFrame (createBlockedExecution job backendAlias key expiresAt queueName priority
      checkConflicts) :=
  bind (runIf _ (ensureNoOtherExecutionState _ _)) fun _ =>
    bind (ofExcept _) fun _ => createRow .blocked _

/-- An update of jobs that leaves their identities alone; results and times are no part of these. -/
theorem updateJobsWhere (p : Job → Bool) {f : Job → Job} (core : ∀ j, (f j).core = j.core) :
    KeepsFrame (updateJobsWhere p f) := by
  refine modifyDb fun db => ⟨?_, rfl, rfl, rfl, rfl⟩
  rw [List.map_map]
  refine List.map_congr_left fun j _ => ?_
  by_cases hit : p j = true
  · simp only [Function.comp_apply, hit, if_true, core]
  · simp only [Function.comp_apply, if_neg hit]

/-- Finishing a job writes its result and its time only. -/
theorem finishJobIfNoExecutionState (job : Job) (returnValue : Option String) (finishedAt : Time)
    (includeClaimed : Bool) :
    KeepsFrame (finishJobIfNoExecutionState job returnValue finishedAt includeClaimed) :=
  bind getDb fun _ => bind (updateJobsWhere _ fun _ => rfl) fun _ => runIf _ (throw _)

/-! ## Slots -/

/-- Slots are counted outside the frame. -/
theorem saveSemaphore (key : String) (f : Semaphore → Semaphore) :
    KeepsFrame (saveSemaphore key f) :=
  modifyDb fun _ => ⟨rfl, rfl, rfl, rfl, rfl⟩

theorem insertSemaphore (mk : Nat → Semaphore) : KeepsFrame (insertSemaphore mk) :=
  modifyDb fun _ => ⟨rfl, rfl, rfl, rfl, rfl⟩

theorem updateSemaphore (order : EvaluationOrder) (key : String) (u : Update Semaphore) :
    KeepsFrame (updateSemaphore order key u) :=
  bind getDb fun _ => bind (saveSemaphore _ _) fun _ => pure _

/-- All three ways to acquire a slot write semaphores only. -/
theorem semaphoreAcquire (env : Env) (key : String) (limit duration : Int) :
    KeepsFrame (semaphoreAcquire env key limit duration) := by
  refine bind timezoneNow fun now => bind (ofExcept _) fun expiresAt => bind getDb fun found =>
    bind (ensureFits _ _) fun _ => ?_
  unfold familySemaphoreAcquire
  split
  · refine bind getDb fun db => ?_
    split
    · exact bind (insertSemaphore _) fun _ => pure _
    · exact bind (saveSemaphore _ _) fun _ => pure _
  · refine bind getDb fun db => ?_
    split
    · exact bind (insertSemaphore _) fun _ => pure _
    · exact bind (saveSemaphore _ _) fun _ => pure _
  · refine bind getDb fun db => ?_
    split
    · exact bind (insertSemaphore _) fun _ => pure _
    · exact bind (saveSemaphore _ _) fun _ => pure _
  · refine bind timezoneNow fun stamp => bind getDb fun db => ?_
    split
    · exact bind (insertSemaphore _) fun _ => pure _
    · refine bind (updateSemaphore _ _ _) fun updated => ?_
      split
      · exact pure _
      · exact bind (updateSemaphore _ _ _) fun _ => pure _

/-! ## Dispatch -/

/-- The decision of a dispatch writes at most a semaphore. -/
theorem resolveOutcome (env : Env) (decision : DispatchDecision) :
    KeepsFrame (resolveOutcome env decision) := by
  cases decision with
  | outcome o => exact pure _
  | concurrency key settings => exact bind (semaphoreAcquire env key _ _) fun _ => pure _

/-- The outcome of a dispatch is a state row, or the result of a discarded job. -/
theorem applyOutcome (env : Env) (job : Job) (decision : DispatchDecision) (now : Time)
    (checkConflicts : Bool) (outcome : DispatchOutcome) :
    KeepsFrame (applyOutcome env job decision now checkConflicts outcome) := by
  cases outcome with
  | ready => exact createReadyExecution _ _ _ _ _ _
  | scheduled => exact createScheduledExecution _ _ _ _
  | blocked =>
      cases decision with
      | outcome o => exact throw _
      | concurrency key settings =>
          exact bind (ofExcept _) fun expiresAt => createBlockedExecution _ _ _ _ _ _ _
  | discarded =>
      simp only [DjQueue.applyOutcome]
      split
      · exact finishJobIfNoExecutionState _ _ _ _
      · exact updateJobsWhere _ fun _ => rfl

/-- A dispatch moves one job between state tables and slots. -/
theorem dispatchJob (env : Env) (job : Job) (checkConflicts : Bool) (task : Option Imported) :
    KeepsFrame (dispatchJob env job checkConflicts task) :=
  bind timezoneNow fun _ => bind (ofExcept _) fun _ => bind (resolveOutcome env _) fun _ =>
    bind (applyOutcome env job _ _ checkConflicts _) fun _ => pure _

end KeepsFrame

end DjQueue
