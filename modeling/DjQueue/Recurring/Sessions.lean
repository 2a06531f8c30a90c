import DjQueue.Accounting.Frame

/-!
# What reserving and publishing a run do

One lemma for each transaction of `fire_recurring_task`: everything a returning call can
have done to the tables.
-/

namespace DjQueue

open Relational

/-! ## Reserving -/

/-- The tables once the cursor of a task has moved to `next`. -/
def Db.advance (db : Db) (task : RecurringTask) (next : Time) : Db :=
  { db with
    recurringTasks := db.recurringTasks.updateWhere
      (fun t => t.id == task.id && t.backendAlias == task.backendAlias &&
        t.nextRunAt.all (fun n => n < next))
      (fun t => { t with nextRunAt := some next }) }

/-- The tables once the execution row of a run is written. -/
def Db.reserveExecution (db : Db) (backendAlias key : String) (runAt : Time) (intended : JobId) : Db :=
  { db with
    recurringExecutions := db.recurringExecutions.insert (fun id =>
      ⟨id, backendAlias, some intended, none, key, runAt⟩) }

/-- The execution row a reservation works with, and the tables with it: found, or new. -/
inductive GetsExecution (db : Db) (backendAlias key : String) (runAt : Time) (intended : JobId) :
    RecurringExecution → Db → Prop
  | found {e : RecurringExecution} (here : db.findExecution backendAlias key runAt = some e) :
      GetsExecution db backendAlias key runAt intended e db
  | created (absent : db.findExecution backendAlias key runAt = none) :
      GetsExecution db backendAlias key runAt intended
        ⟨db.recurringExecutions.nextId, backendAlias, some intended, none, key, runAt⟩
        (db.reserveExecution backendAlias key runAt intended)

/-- What `_reserve_recurring_task` does when it gets past its checks. -/
inductive Reserves (env : Env) (db : Db) (task : RecurringTask) (runAt next : Time)
    (intended : JobId) : Option Reservation → Db → Prop
  | passed (ahead : task.nextRunAt.any (fun n => runAt < n) = true) :
      Reserves env db task runAt next intended
        ((db.findExecution env.config.backendAlias task.key runAt).bind
          (fun e => recurringReservation e task next)) db
  | reserved (due : task.nextRunAt.any (fun n => runAt < n) = false) {e : RecurringExecution}
      {db' : Db}
      (gets : GetsExecution db env.config.backendAlias task.key runAt intended e db') :
      Reserves env db task runAt next intended (recurringReservation e task next)
        (db'.advance task next)

/-- `get_or_create` of the row of a run. -/
theorem of_run_getOrCreateExecution {backendAlias key : String} {runAt : Time} {w w' : World}
    {e : RecurringExecution} (run : Runs (getOrCreateExecution backendAlias key runAt) w e w') :
    GetsExecution w.db backendAlias key runAt (w.uuids 0) e w'.db := by
  obtain ⟨intended, m, drawn, run⟩ := Runs.of_bind run
  cases drawn
  obtain ⟨db, m, read, run⟩ := Runs.of_bind run
  obtain ⟨rfl, rfl⟩ := of_run_getDb read
  split at run
  · rename_i execution found
    obtain ⟨rfl, rfl⟩ := Runs.of_pure run
    exact .found found
  · rename_i absent
    obtain ⟨u, m, written, run⟩ := Runs.of_bind run
    obtain ⟨rfl, rfl⟩ := Runs.of_pure run
    rw [of_run_modifyDb written]
    exact .created absent

/-- Reserving a run: the row, and the cursor moved on. -/
theorem of_run_reserveRun {env : Env} {task : RecurringTask} {runAt next : Time} {w w' : World}
    {x : Option Reservation} (run : Runs (reserveRun env task runAt next) w x w') :
    Reserves env w.db task runAt next (w.uuids 0) x w'.db := by
  unfold reserveRun at run
  split at run
  · rename_i ahead
    obtain ⟨db, m, read, run⟩ := Runs.of_bind run
    obtain ⟨rfl, rfl⟩ := of_run_getDb read
    obtain ⟨rfl, rfl⟩ := Runs.of_pure run
    exact .passed ahead
  · rename_i due
    obtain ⟨execution, m, got, run⟩ := Runs.of_bind run
    obtain ⟨u, m', advanced, run⟩ := Runs.of_bind run
    obtain ⟨rfl, rfl⟩ := Runs.of_pure run
    rw [of_run_modifyDb advanced]
    exact .reserved (Bool.not_eq_true _ ▸ due) (of_run_getOrCreateExecution got)

/-- Reserving a run of the task whose row is locked: its time is no run of the schedule, or it did
what `Reserves` says. -/
theorem of_run_reserveTask {env : Env} {task : RecurringTask} {runAt : Time} {w w' : World}
    {x : Option Reservation} (run : Runs (reserveTask env task runAt) w x w') :
    (x = none ∧ w'.db = w.db ∧ isRunOf env task.schedule runAt = .ok false) ∨
      ∃ next, isRunOf env task.schedule runAt = .ok true ∧
        env.cron.nextCronRun task.schedule runAt = .ok next ∧
        Reserves env w.db task runAt next (w.uuids 0) x w'.db := by
  obtain ⟨current, m', checked, rest⟩ := Runs.of_bind run
  obtain ⟨isRun, rfl⟩ := Runs.of_ofExcept checked
  split at rest
  · rename_i offSchedule
    obtain ⟨rfl, rfl⟩ := Runs.of_pure rest
    refine .inl ⟨rfl, rfl, ?_⟩
    rw [isRun]
    simpa using offSchedule
  · rename_i onSchedule
    obtain ⟨next, m'', advanced, reserved⟩ := Runs.of_bind rest
    obtain ⟨nextRun, rfl⟩ := Runs.of_ofExcept advanced
    have current : current = true := by simpa using onSchedule
    exact .inr ⟨next, current ▸ isRun, nextRun, of_run_reserveRun reserved⟩

/-- The row that `_reserve_recurring_task` locks. -/
def Db.lockedTask (db : Db) (taskId : Nat) (backendAlias : String) : Option RecurringTask :=
  db.recurringTasks.rows.find? (fun t => t.id == taskId && t.backendAlias == backendAlias)

/-- `_reserve_recurring_task` returns: there is no task, or it reserved a run of the one it locked. -/
theorem of_run_reserveRecurringTask_of_locked {env : Env} {taskId : Nat} {runAt : Time}
    {w w' : World} {x : Option Reservation}
    (run : Runs (reserveRecurringTask env taskId runAt) w x w') :
    (x = none ∧ w' = w ∧ w.db.lockedTask taskId env.config.backendAlias = none) ∨
      ∃ task, w.db.lockedTask taskId env.config.backendAlias = some task ∧
        Runs (reserveTask env task runAt) w x w' := by
  obtain ⟨db, m, read, run⟩ := Runs.of_bind (Runs.of_atomic run)
  obtain ⟨rfl, rfl⟩ := of_run_getDb read
  split at run
  · rename_i missing
    obtain ⟨rfl, rfl⟩ := Runs.of_pure run
    exact .inl ⟨rfl, rfl, missing⟩
  · rename_i task found
    exact .inr ⟨task, found, run⟩

/-- The task locked is that of the id and the backend. -/
theorem of_lockedTask {db : Db} {taskId : Nat} {backendAlias : String} {task : RecurringTask}
    (locked : db.lockedTask taskId backendAlias = some task) :
    task ∈ db.recurringTasks.rows ∧ task.id = taskId ∧ task.backendAlias = backendAlias := by
  have hit := List.find?_some locked
  simp only [Bool.and_eq_true, beq_iff_eq] at hit
  exact ⟨List.mem_of_find?_eq_some locked, hit⟩

/-- `_reserve_recurring_task` returns: it changed nothing and has no reservation, because there is no
task or the run is none of its schedule; or it did what `Reserves` says. -/
theorem of_run_reserveRecurringTask {env : Env} {taskId : Nat} {runAt : Time} {w w' : World}
    {x : Option Reservation} (run : Runs (reserveRecurringTask env taskId runAt) w x w') :
    (x = none ∧ w'.db = w.db ∧ ∀ task, w.db.recurringTasks.rows.find? (fun t =>
        t.id == taskId && t.backendAlias == env.config.backendAlias) = some task →
        isRunOf env task.schedule runAt = .ok false) ∨
      ∃ task next, task ∈ w.db.recurringTasks.rows ∧ task.id = taskId ∧
        task.backendAlias = env.config.backendAlias ∧
        isRunOf env task.schedule runAt = .ok true ∧
        env.cron.nextCronRun task.schedule runAt = .ok next ∧
        Reserves env w.db task runAt next (w.uuids 0) x w'.db := by
  rcases of_run_reserveRecurringTask_of_locked run with
    ⟨rfl, rfl, missing⟩ | ⟨task, locked, run⟩
  · refine .inl ⟨rfl, rfl, fun task found => ?_⟩
    rw [Db.lockedTask, found] at missing
    cases missing
  · rcases of_run_reserveTask run with ⟨rfl, same, off⟩ | ⟨next, isRun, nextRun, reserves⟩
    · refine .inl ⟨rfl, same, fun task' found => ?_⟩
      rw [Db.lockedTask, found] at locked
      exact Option.some.inj locked ▸ off
    · obtain ⟨mem, id, own⟩ := of_lockedTask locked
      exact .inr ⟨task, next, mem, id, own, isRun, nextRun, reserves⟩

/-! ## Publishing -/

/-- The job of a reservation, found or new, and the tables with it. -/
inductive Enqueues (env : Env) (db : Db) (r : Reservation) : Job → Db → Prop
  | found {job : Job} (here : db.findJob r.intendedJobId = some job)
      (backend : job.backendAlias = r.backendAlias) : Enqueues env db r job db
  | created {job : Job} {w w' : World} {call : TaskCall} {outcome : DispatchOutcome}
      (start : w.db = db) (absent : db.findJob r.intendedJobId = none)
      (called : reservedCall env r = .ok call)
      (run : Runs (enqueueJobWithDispatch env call true r.intendedJobId) w (job, outcome) w') :
      Enqueues env db r job w'.db

/-- The tables once the execution of a reservation has its job. -/
def Db.attach (db : Db) (env : Env) (r : Reservation) (job : Job) : Db :=
  { db with
    recurringExecutions := db.recurringExecutions.updateWhere (attachable env r job)
      (fun e => { e with jobId := some job.id }) }

/-- What `_publish_reserved_recurring_task` does when it returns. -/
inductive Publishes (env : Env) (db : Db) (r : Reservation) : Db → Prop
  /-- The row is gone, or it has its job. -/
  | idle (settled : ∀ e, db.recurringExecutions.rows.find? (fun e =>
        e.id == r.executionId && e.backendAlias == env.config.backendAlias) = some e →
        e.jobId.isSome = true) : Publishes env db r db
  | attached {job : Job} {db' : Db} {e : RecurringExecution} (row : e ∈ db.recurringExecutions.rows)
      (unlinked : e.jobId = none) (enqueues : Enqueues env db r job db')
      (here : attachable env r job e = true)
      (free : ∀ e' ∈ db'.recurringExecutions.rows, e'.jobId ≠ some job.id) :
      Publishes env db r (db'.attach env r job)
  /-- Two rows with one key: the other one has the job. -/
  | attachedOther {job : Job} {db' : Db} {e e' : RecurringExecution}
      (row : e ∈ db.recurringExecutions.rows) (unlinked : e.jobId = none)
      (row' : e' ∈ db.recurringExecutions.rows) (same : e'.id = e.id)
      (linked : e'.jobId = some job.id) (enqueues : Enqueues env db r job db') :
      Publishes env db r db'

/-- A reservation validated is one of the backend itself. -/
theorem of_run_validatedReservedJob {r : Reservation} {job job' : Job} {w w' : World}
    (run : Runs (validatedReservedJob r job) w job' w') :
    job' = job ∧ w' = w ∧ job.backendAlias = r.backendAlias := by
  obtain ⟨db, w₁, got, rest⟩ := Runs.of_bind run
  obtain ⟨rfl, rfl⟩ := of_run_getDb got
  dsimp only at rest
  split at rest
  · exact (Runs.of_throw rest).elim
  · rename_i agrees
    obtain ⟨rfl, rfl⟩ := Runs.of_pure rest
    simp only [Bool.or_eq_true, decide_eq_true_eq, not_or, ne_eq, not_not, Prod.mk.injEq] at agrees
    exact ⟨rfl, rfl, agrees.1.1.2.2.2⟩

/-- A new job and its dispatch: the other jobs, and every table besides the states and the
semaphores, are as before. -/
theorem frame_of_enqueueJobWithDispatch {env : Env} {call : TaskCall} {validate : Bool}
    {jobId : JobId} {result : Job × DispatchOutcome} {w w' : World}
    (run : Runs (enqueueJobWithDispatch env call validate jobId) w result w') :
    prepareSubmission env.config call validate jobId = .ok result.1 ∧
      SameFrame { w.db with jobs := w.db.jobs ++ [result.1] } w'.db := by
  obtain ⟨job, w₁, computed, rest₁⟩ := Runs.of_bind run
  obtain ⟨prepared, rfl⟩ := Runs.of_ofExcept computed
  obtain ⟨v, w₂, inserted, rest₂⟩ := Runs.of_bind (Runs.of_atomic rest₁)
  obtain ⟨outcome, w₃, dispatched, done⟩ := Runs.of_bind rest₂
  obtain ⟨rfl, rfl⟩ := Runs.of_pure done
  refine ⟨prepared, ?_⟩
  obtain ⟨u, w₄, checked, rest₄⟩ := Runs.of_bind inserted
  obtain ⟨-, rfl⟩ := of_run_ensureFits checked
  obtain ⟨db, w₅, got, rest₄⟩ := Runs.of_bind rest₄
  obtain ⟨rfl, rfl⟩ := of_run_getDb got
  split at rest₄
  · exact (Runs.of_throw rest₄).elim
  · rw [← of_run_modifyDb rest₄]
    exact KeepsFrame.dispatchJob env job false _ _ _ _ dispatched

/-- An enqueue that fails leaves nothing behind. -/
theorem RollsBack.enqueueJobWithDispatch (env : Env) (call : TaskCall) (validate : Bool)
    (jobId : JobId) : RollsBack (enqueueJobWithDispatch env call validate jobId) :=
  RollsBack.bind (Reads.ofExcept _) fun _ => RollsBack.atomic _

/-- Nothing happens between looking for the intended job and creating it, so the key cannot have
been taken. -/
theorem of_run_createReservedJob {env : Env} {r : Reservation} {job : Job} {w w' : World}
    (absent : w.db.findJob r.intendedJobId = none)
    (run : Runs (createReservedJob env r) w job w') :
    Enqueues env w.db r job w'.db := by
  obtain ⟨call, w₁, computed, rest⟩ := Runs.of_bind run
  obtain ⟨called, rfl⟩ := Runs.of_ofExcept computed
  rcases Runs.of_tryCatch rest with mapped | ⟨e, w₂, raised, recovered⟩
  · obtain ⟨result, enqueued, rfl⟩ := Runs.of_map mapped
    exact .created rfl absent called enqueued
  · have same := RollsBack.enqueueJobWithDispatch env call true _ _ _ _ (Raises.of_map raised)
    cases e with
    | integrityError =>
        obtain ⟨db, w₃, got, rest₃⟩ := Runs.of_bind recovered
        obtain ⟨rfl, rfl⟩ := of_run_getDb got
        rw [same, absent] at rest₃
        exact (Runs.of_throw rest₃).elim
    | _ => exact (Runs.of_throw recovered).elim

/-- The job enqueued for a reservation. -/
theorem of_run_enqueueReservedRecurringTask {env : Env} {r : Reservation} {job : Job}
    {w w' : World} (run : Runs (enqueueReservedRecurringTask env r) w job w') :
    Enqueues env w.db r job w'.db := by
  obtain ⟨db, w₁, got, rest⟩ := Runs.of_bind run
  obtain ⟨rfl, rfl⟩ := of_run_getDb got
  split at rest
  · rename_i found
    obtain ⟨rfl, rfl, backend⟩ := of_run_validatedReservedJob rest
    exact .found found backend
  · rename_i absent
    exact of_run_createReservedJob absent rest

/-- Enqueueing changes no reservation. -/
theorem executions_of_enqueues {env : Env} {db db' : Db} {r : Reservation} {job : Job}
    (enqueues : Enqueues env db r job db') :
    db'.recurringExecutions = db.recurringExecutions := by
  cases enqueues with
  | found => rfl
  | created start _ _ run =>
      rw [(frame_of_enqueueJobWithDispatch run).2.recurringExecutions, start]

/-- Publishing: the job and the link, or nothing. -/
theorem of_run_publishReservedRecurringTask {env : Env} {r : Reservation} {w w' : World}
    {x : Option RecurringExecution} (run : Runs (publishReservedRecurringTask env r) w x w') :
    Publishes env w.db r w'.db := by
  obtain ⟨db, w₁, got, rest₁⟩ := Runs.of_bind (Runs.of_atomic run)
  obtain ⟨rfl, rfl⟩ := of_run_getDb got
  split at rest₁
  · rename_i absent
    obtain ⟨-, rfl⟩ := Runs.of_pure rest₁
    exact .idle fun e found => by
      rw [absent] at found
      cases found
  · rename_i execution found
    split at rest₁
    · rename_i linked
      obtain ⟨-, rfl⟩ := Runs.of_pure rest₁
      exact .idle fun e found' => by
        rw [found] at found'
        exact Option.some.inj found' ▸ linked
    · rename_i unlinked
      have row := List.mem_of_find?_eq_some found
      have hit := List.find?_some found
      simp only [Bool.and_eq_true, beq_iff_eq] at hit
      obtain ⟨job, w₂, enqueued, rest₂⟩ := Runs.of_bind rest₁
      have enqueues := of_run_enqueueReservedRecurringTask enqueued
      have executions := executions_of_enqueues enqueues
      obtain ⟨db, w₃, got, rest₃⟩ := Runs.of_bind rest₂
      obtain ⟨rfl, rfl⟩ := of_run_getDb got
      split at rest₃
      · rename_i some
        obtain ⟨e, there, here⟩ := List.any_eq_true.mp some
        split at rest₃
        · exact (Runs.of_throw rest₃).elim
        · rename_i free
          obtain ⟨v, w₄, written, rest₄⟩ := Runs.of_bind rest₃
          obtain ⟨db, w₅, got, done⟩ := Runs.of_bind rest₄
          obtain ⟨rfl, rfl⟩ := of_run_getDb got
          obtain ⟨-, rfl⟩ := Runs.of_pure done
          rw [of_run_modifyDb written]
          have unset : e.jobId = none := by
            simp only [attachable, Bool.and_eq_true, Option.isNone_iff_eq_none] at here
            exact here.1.2
          refine .attached (executions ▸ there) unset enqueues here fun e' mem same => free ?_
          exact List.any_eq_true.mpr ⟨e', mem, beq_iff_eq.mpr same⟩
      · obtain ⟨ok, rfl⟩ := Runs.of_ofExcept rest₃
        unfold attachedOtherwise at ok
        split at ok
        · cases ok
        · rename_i e' found'
          split at ok
          · rename_i linked
            have hit' := List.find?_some found'
            have row' := List.mem_of_find?_eq_some found'
            rw [executions] at row'
            refine .attachedOther row (by simpa using unlinked) row' ?_ linked.1 enqueues
            exact (beq_iff_eq.mp hit').trans hit.1.symm
          · cases ok

end DjQueue
