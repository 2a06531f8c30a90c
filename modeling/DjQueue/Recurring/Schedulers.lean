import DjQueue.System.Steps

/-!
# Schedulers

Any number of schedulers reserve and publish runs, each call one transaction, while jobs are
enqueued, completed and deleted and recurring tasks are edited.  A scheduler may hold a
reservation for as long as it likes and may never publish it.

Besides the tables, a state records the reservations that were ever handed out, and for every job
that a publication created the run it was created for.
-/

namespace DjQueue

open Relational

/-- What a firing is for: backend, task and time. -/
abbrev Run := String × String × Time

/-- The run a row is the reservation of. -/
def RecurringExecution.run (e : RecurringExecution) : Run := (e.backendAlias, e.taskKey, e.runAt)

/-- The run a reservation in hand is for. -/
def Reservation.run (r : Reservation) : Run := (r.backendAlias, r.taskKey, r.runAt)

/-- The database, the reservations in hand of all schedulers, and the jobs created for each run so
far. -/
structure Schedulers where
  db : Db
  held : List Reservation
  created : List (Run × JobId)

/-- A call that edits recurring tasks. -/
inductive Edit where
  | scheduleRecurringTask (key taskPath schedule : String) (payload : Option Payload)
      (queueName : String) (priority : Int) (description : String)
  | unscheduleRecurringTask (key : String)
  | upsertStaticRecurringTasks (configs : List RecurringTaskConfig)

/-- The state an edit leaves. -/
def Edit.final (env : Env) (w : World) : Edit → World
  | scheduleRecurringTask key taskPath schedule payload queueName priority description =>
      finalState (DjQueue.scheduleRecurringTask env key taskPath schedule payload queueName priority
        description) w
  | unscheduleRecurringTask key => finalState (DjQueue.unscheduleRecurringTask env key) w
  | upsertStaticRecurringTasks configs =>
      finalState (DjQueue.upsertStaticRecurringTasks env configs) w

/-- One transaction, with the configuration of the process that runs it. -/
inductive Action where
  | reserve (taskId : Nat) (runAt : Time)
  | publish (r : Reservation)
  | job (op : JobOperation)
  | edit (e : Edit)

/-- The jobs of `db'` that `db` does not have. -/
def newJobs (db db' : Db) : List JobId :=
  (db'.jobs.map Job.id).filter (fun id => !(db.jobs.map Job.id).contains id)

namespace Schedulers

/-- The state after an action that ran in `env` and read these clocks and identifiers. -/
def step (s : Schedulers) (env : Env) (clock : Nat → Time) (uuids : Nat → JobId) :
    Action → Schedulers
  | .reserve taskId runAt =>
      let x := reserveRecurringTask env taskId runAt
      { s with
        db := (finalState x ⟨s.db, clock, uuids⟩).db
        held := s.held ++ ((returned x ⟨s.db, clock, uuids⟩).bind id).toList }
  | .publish r =>
      let db := (finalState (publishReservedRecurringTask env r) ⟨s.db, clock, uuids⟩).db
      { s with
        db := db
        created := s.created ++ (newJobs s.db db).map (fun id => (r.run, id)) }
  | .job op => { s with db := (op.final env ⟨s.db, clock, uuids⟩).db }
  | .edit e => { s with db := (e.final env ⟨s.db, clock, uuids⟩).db }

end Schedulers

/-- All schedulers read schedules the same way, a reservation is published by a scheduler of its
backend, and the callers of the other operations keep their promises. -/
def Action.Allowed (cron : Cron) (s : Schedulers) (env : Env) : Action → Prop
  | .reserve _ _ => env.cron = cron
  | .publish r => r ∈ s.held ∧ env.config.backendAlias = r.backendAlias
  | .job op => op.Promised none env s.db
  | .edit _ => True

/-- The states a run leads to, each action of which also satisfies `meets` where it is taken. -/
inductive Schedulers.Reaches (cron : Cron) (meets : Schedulers → Env → Action → Prop)
    (s : Schedulers) : Schedulers → Prop
  | refl : Reaches cron meets s s
  | step {s' : Schedulers} {env : Env} {a : Action} {clock : Nat → Time} {uuids : Nat → JobId}
      (run : Reaches cron meets s s') (allowed : a.Allowed cron s' env) (met : meets s' env a) :
      Reaches cron meets s (s'.step env clock uuids a)

/-- Where a run starts: tables that are sound and satisfy the constraints of the database, and no
reservation is out. -/
structure Schedulers.Starts (s : Schedulers) : Prop where
  sound : Sound none s.db
  executions : Numbered RecurringExecution.id s.db.recurringExecutions
  runs : (s.db.recurringExecutions.rows.map RecurringExecution.run).Nodup
  taskIds : (s.db.recurringTasks.rows.map RecurringTask.id).Nodup
  taskKeys : (s.db.recurringTasks.rows.map (fun t => (t.backendAlias, t.key))).Nodup
  held : s.held = []
  created : s.created = []

/-! ## What an action does -/

section Steps

variable {s : Schedulers} {env : Env} {clock : Nat → Time} {uuids : Nat → JobId}

theorem newJobs_self (db : Db) : newJobs db db = [] := by
  refine List.filter_eq_nil_iff.mpr fun id mem => ?_
  simpa using mem

/-- Reserving changes nothing, or does what `Reserves` says and hands out what it returned. -/
theorem step_reserve (taskId : Nat) (runAt : Time) :
    s.step env clock uuids (.reserve taskId runAt) = s ∨
      ∃ task next x db', task ∈ s.db.recurringTasks.rows ∧ task.id = taskId ∧
        task.backendAlias = env.config.backendAlias ∧
        isRunOf env task.schedule runAt = .ok true ∧
        env.cron.nextCronRun task.schedule runAt = .ok next ∧
        Reserves env s.db task runAt next (uuids 0) x db' ∧
        s.step env clock uuids (.reserve taskId runAt) =
          { s with db := db', held := s.held ++ x.toList } := by
  rcases runs_or_raises (reserveRecurringTask env taskId runAt) ⟨s.db, clock, uuids⟩ with
    ⟨x, run, result⟩ | ⟨e, raised, result⟩
  · rcases of_run_reserveRecurringTask run with
      ⟨rfl, same, -⟩ | ⟨task, next, mem, id, own, isRun, nextRun, reserves⟩
    · refine .inl ?_
      simp [Schedulers.step, result, same]
    · refine .inr ⟨task, next, x, _, mem, id, own, isRun, nextRun, reserves, ?_⟩
      simp [Schedulers.step, result]
  · refine .inl ?_
    have same := RollsBack.atomic _ _ _ _ raised
    simp [Schedulers.step, result, same]

/-- Publishing changes nothing, or does what `Publishes` says. -/
theorem step_publish (r : Reservation) :
    s.step env clock uuids (.publish r) = s ∨
      ∃ db', Publishes env s.db r db' ∧
        s.step env clock uuids (.publish r) =
          { s with
            db := db'
            created := s.created ++ (newJobs s.db db').map (fun id => (r.run, id)) } := by
  rcases runs_or_raises (publishReservedRecurringTask env r) ⟨s.db, clock, uuids⟩ with
    ⟨x, run, -⟩ | ⟨e, raised, -⟩
  · exact .inr ⟨_, of_run_publishReservedRecurringTask run, rfl⟩
  · refine .inl ?_
    have same := RollsBack.atomic _ _ _ _ raised
    simp [Schedulers.step, same, newJobs_self]

theorem Edit.tasksOnly (e : Edit) (w : World) :
    TasksOnly env.config.backendAlias w.db (e.final env w).db := by
  cases e with
  | scheduleRecurringTask key taskPath schedule payload queueName priority description =>
      exact EditsTasks.scheduleRecurringTask key taskPath schedule payload queueName priority
        description w trivial
  | unscheduleRecurringTask key => exact EditsTasks.unscheduleRecurringTask key w trivial
  | upsertStaticRecurringTasks configs =>
      exact EditsTasks.upsertStaticRecurringTasks configs w trivial

end Steps

end DjQueue
