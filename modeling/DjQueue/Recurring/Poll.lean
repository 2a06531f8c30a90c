import DjQueue.Recurring.Loops

/-!
# Polls

`fire_due_recurring_tasks` fires the runs that wait for their jobs, then the latest run of every task
whose cursor is due.  The cursor is computed from the run that is fired, not from the time of the
poll; that it comes out as the first run after that time is where both searches have to be exact.
-/

namespace DjQueue

open Relational

/-! ## The cursor of a due task -/

/-- Where a firing of this run leaves a cursor. -/
def firedCursor (cursor : Option Time) (runAt next : Time) : Option Time :=
  if cursor.any (fun n => runAt < n) then cursor else some next

/-- The task fired stands in the table with its new cursor. -/
theorem Fired.moved {t : RecurringTask} {cursor : Option Time} {runAt next : Time} {db db' : Db}
    (fired : Fired t cursor runAt next db db') (later : runAt < next) :
    t.moved (firedCursor cursor runAt next) ∈ db'.recurringTasks.rows := by
  unfold firedCursor
  split
  · rename_i ahead
    exact fired.passed ahead
  · rename_i due
    exact (fired.reserved (Bool.not_eq_true _ ▸ due)).2 later

/-- A cursor during a poll of a task that was due: not set, at a run that is not later than now, or
at the first one that is, while the latest one has its row. -/
def CursorDue (IsRun : Time → Prop) (now : Time) (t : RecurringTask) (db : Db)
    (cursor : Option Time) : Prop :=
  ∀ n, cursor = some n → (n ≤ now ∧ IsRun n) ∨
    (IsLeast {u | now < u ∧ IsRun u} n ∧ ∃ l, IsGreatest {u | u ≤ now ∧ IsRun u} l ∧
      db.hasRun (t.backendAlias, t.key, l))

namespace CursorDue

variable {cron : Cron} {IsRun : Time → Prop} {now runAt next : Time} {t : RecurringTask}
  {db db' : Db} {cursor : Option Time}

/-- Firing a run that waits for its job, and is not later than now. -/
theorem fire (due : CursorDue IsRun now t db cursor) (fired : Fired t cursor runAt next db db')
    (isRun : IsRun runAt) (past : runAt ≤ now) (least : IsLeast {u | runAt < u ∧ IsRun u} next) :
    CursorDue IsRun now t db' (firedCursor cursor runAt next) := by
  unfold firedCursor
  split
  · refine fun n here => (due n here).imp_right ?_
    rintro ⟨first, l, latest, has⟩
    exact ⟨first, l, latest, fired.fires.hasRun has⟩
  · rename_i here
    rintro n ⟨⟩
    have has := (fired.reserved (Bool.not_eq_true _ ▸ here)).1
    by_cases early : next ≤ now
    · exact .inl ⟨early, least.1.2⟩
    · have latest := isGreatest_of_next isRun past least (not_le.mp early)
      exact .inr ⟨isLeast_of_latest latest least, runAt, latest, has⟩

/-- Firing the latest run leaves the cursor at the first one after now. -/
theorem fireLatest (due : CursorDue IsRun now t db cursor) (fired : Fired t cursor runAt next db db')
    (latest : IsGreatest {u | u ≤ now ∧ IsRun u} runAt)
    (least : IsLeast {u | runAt < u ∧ IsRun u} next) :
    t.moved (some next) ∈ db'.recurringTasks.rows ∧ db'.hasRun (t.backendAlias, t.key, runAt) := by
  have moved := fired.moved least.1.1
  unfold firedCursor at moved
  split at moved
  · rename_i ahead
    rcases (Option.any_eq_true _ _).mp ahead with ⟨n, here, past⟩
    have past : runAt < n := of_decide_eq_true past
    rcases due n here with ⟨notLater, isRun⟩ | ⟨first, l, latest', has⟩
    · exact absurd (latest.2 ⟨notLater, isRun⟩) (not_le.mpr past)
    · rw [here, first.unique (isLeast_of_latest latest least)] at moved
      rw [← latest'.unique latest]
      exact ⟨moved, fired.fires.hasRun has⟩
  · rename_i here
    exact ⟨moved, (fired.reserved (Bool.not_eq_true _ ▸ here)).1⟩

end CursorDue

/-! ## One task -/

/-- The execution waits for its job, and belongs to the task. -/
structure Waits (env : Env) (start : Db) (t : RecurringTask) (e : RecurringExecution) : Prop where
  mem : e ∈ start.recurringExecutions.rows
  unbackfilled : unbackfilled env.config.backendAlias e = true
  key : e.taskKey = t.key

/-- A task in the course of a poll that started from these tables. -/
structure Underway (env : Env) (IsRun : Time → Prop) (now : Time) (start : Db) (t : RecurringTask)
    (db : Db) (cursor : Option Time) : Prop where
  mem : t.moved cursor ∈ db.recurringTasks.rows
  due : t.nextRunAt.any (fun n => now < n) = false →
    (∀ e, Waits env start t e → IsRun e.runAt → e.runAt ≤ now) → CursorDue IsRun now t db cursor
  ahead : ∀ n, t.nextRunAt = some n → now < n →
    (∀ e, Waits env start t e → IsRun e.runAt → e.runAt < n) → cursor = some n

/-- The first run after now, as far as its search stays in the years. -/
def NextRun (env : Env) (schedule : String) (now next : Time) : Prop :=
  env.cron.nextCronRun schedule now = .ok next ∨
    env.cron.nextCronRun schedule now = .error Crontab.outOfRange

/-- A task once a poll that started from these tables is done with it. -/
structure Polled (env : Env) (IsRun : Time → Prop) (now : Time) (start : Db) (t : RecurringTask)
    (db : Db) : Prop where
  due : t.nextRunAt.any (fun n => now < n) = false →
    (∀ e, Waits env start t e → IsRun e.runAt → e.runAt ≤ now) →
      ∃ latest next, env.cron.latestCronRun t.schedule now = .ok latest ∧ now < next ∧
        NextRun env t.schedule now next ∧ IsLeast {u | now < u ∧ IsRun u} next ∧
          t.moved (some next) ∈ db.recurringTasks.rows ∧ db.hasRun (t.backendAlias, t.key, latest)
  ahead : ∀ n, t.nextRunAt = some n → now < n →
    (∀ e, Waits env start t e → IsRun e.runAt → e.runAt < n) → t ∈ db.recurringTasks.rows

section Task

variable {env : Env} {IsRun : Time → Prop} {now : Time} {start db db' : Db} {t : RecurringTask}
  {cursor : Option Time} {e : RecurringExecution} {fresh : Run → Prop}

theorem Waits.run (waits : Waits env start t e) (own : t.backendAlias = env.config.backendAlias) :
    e.run = (t.backendAlias, t.key, e.runAt) := by
  have hit := waits.unbackfilled
  simp only [DjQueue.unbackfilled, Bool.and_eq_true, beq_iff_eq] at hit
  rw [RecurringExecution.run, hit.1.1, own, waits.key]

/-- A run that waits has a reservation in the beginning. -/
theorem Waits.hasRun (waits : Waits env start t e)
    (own : t.backendAlias = env.config.backendAlias) :
    start.hasRun (t.backendAlias, t.key, e.runAt) :=
  List.mem_map.mpr ⟨e, waits.mem, waits.run own⟩

/-- A task the poll has not come to. -/
theorem underway_start (mem : t ∈ db.recurringTasks.rows)
    (runs : ∀ n, t.nextRunAt = some n → IsRun n) :
    Underway env IsRun now start t db t.nextRunAt := by
  refine ⟨mem, fun due _ n here => .inl ⟨?_, runs n here⟩, fun n here _ _ => here⟩
  rw [here] at due
  simpa using due

/-- One more run that waits for its job. -/
theorem Underway.fire (underway : Underway env IsRun now start t db cursor)
    (waits : Waits env start t e) {next : Time} (fired : Fired t cursor e.runAt next db db')
    (isRun : IsRun e.runAt) (least : IsLeast {u | e.runAt < u ∧ IsRun u} next) :
    Underway env IsRun now start t db' (firedCursor cursor e.runAt next) := by
  refine ⟨fired.moved least.1.1, fun due notLater => ?_, fun n here later before => ?_⟩
  · exact (underway.due due notLater).fire fired isRun (notLater e waits isRun) least
  · rw [underway.ahead n here later before]
    unfold firedCursor
    rw [if_pos]
    simpa using before e waits isRun

/-- The latest run of a task that was due. -/
theorem Underway.fireLatest (underway : Underway env IsRun now start t db cursor)
    (table : Timetable env.cron t.schedule IsRun)
    (due : t.nextRunAt.any (fun n => now < n) = false) {latest next : Time}
    (latestRun : env.cron.latestCronRun t.schedule now = .ok latest)
    (nextRun : env.cron.nextCronRun t.schedule latest = .ok next)
    (fired : Fired t cursor latest next db db') : Polled env IsRun now start t db' := by
  have greatest := table.latest latestRun
  have least := table.next nextRun
  have first := isLeast_of_latest greatest least
  refine ⟨fun _ notLater => ?_, fun n here later _ => ?_⟩
  · rcases (underway.due due notLater).fireLatest fired greatest least with ⟨moved, has⟩
    exact ⟨latest, next, latestRun, first.1.1, table.again nextRun greatest.1.1 first.1.1, first,
      moved, has⟩
  · rw [here, Option.any_some, decide_eq_false_iff_not] at due
    exact absurd later due

/-- A task whose cursor lies ahead is done with once its waiting runs are fired. -/
theorem Underway.polled (underway : Underway env IsRun now start t db cursor)
    (ahead : t.nextRunAt.any (fun n => now < n) = true) : Polled env IsRun now start t db := by
  refine ⟨fun due => ?_, fun n here later before => ?_⟩
  · rw [ahead] at due
    cases due
  · have stays := underway.mem
    rw [underway.ahead n here later before, ← here] at stays
    exact stays

/-- Firing other tasks changes nothing about a task that is done with. -/
theorem Polled.mono (polled : Polled env IsRun now start t db) {fresh : Run → Prop}
    (fires : Fires fresh db db')
    (others : ∀ t' ∈ db.recurringTasks.rows, t'.id = t.id → t' ∈ db'.recurringTasks.rows) :
    Polled env IsRun now start t db' := by
  refine ⟨fun due notLater => ?_, fun n here later before => ?_⟩
  · rcases polled.due due notLater with ⟨latest, next, latestRun, later, again, first, moved, has⟩
    exact ⟨latest, next, latestRun, later, again, first, others _ moved rfl, fires.hasRun has⟩
  · exact others _ (polled.ahead n here later before) rfl

end Task

/-! ## The loops -/

/-- The run is the latest one of a task among these that was due. -/
def LatestRun (env : Env) (now : Time) (tasks : List RecurringTask) (run : Run) : Prop :=
  ∃ t ∈ tasks, t.nextRunAt.any (fun n => now < n) = false ∧
    ∃ latest, env.cron.latestCronRun t.schedule now = .ok latest ∧
      run = (t.backendAlias, t.key, latest)

section Loops

variable {env : Env} {IsRun : Time → Prop} {now : Time} {start : Db} {t : RecurringTask}
  {fresh : Run → Prop} {w w' : World}

/-- Firing runs that wait for their jobs; each has its row already, so none is added. -/
theorem fireRuns_underway (tables : RecurringTables start)
    (own : t.backendAlias = env.config.backendAlias)
    (table : Timetable env.cron t.schedule IsRun) :
    ∀ {pending : List RecurringExecution} {w w' : World} {jobs : List Job} {cursor : Option Time},
      (∀ e ∈ pending, Waits env start t e) →
      Fires fresh start w.db → Underway env IsRun now start t w.db cursor →
      Runs (fireRuns env t.id pending) w jobs w' →
      Fires fresh w.db w'.db ∧ KeepsTasksBut t.id w.db w'.db ∧
        ∃ cursor', Underway env IsRun now start t w'.db cursor'
  | [], w, w', jobs, cursor, _, _, underway, run => by
      rcases Runs.of_pure run with ⟨-, rfl⟩
      exact ⟨Fires.refl _, fun _ mem _ => mem, cursor, underway⟩
  | e :: pending, w, w', jobs, cursor, waits, fires, underway, run => by
      have waiting : Waits env start t e := waits e List.mem_cons_self
      have has := fires.hasRun (waiting.hasRun own)
      rcases Runs.of_bind run with ⟨fired, w₁, loaded, rest⟩
      rcases Runs.of_bind rest with ⟨others, w₂, again, done⟩
      rcases Runs.of_pure done with ⟨-, rfl⟩
      rcases of_run_fireAndLoad loaded with ⟨x, firing⟩
      have first : Fires fresh w.db w₁.db ∧ KeepsTasksBut t.id w.db w₁.db ∧
          ∃ cursor', Underway env IsRun now start t w₁.db cursor' := by
        rcases of_run_fireRecurringTask (fires.tables tables) underway.mem own firing with
          ⟨-, same⟩ | ⟨next, checked, nextRun, did⟩
        · rw [same]
          exact ⟨Fires.refl _, fun _ mem _ => mem, cursor, underway⟩
        · have isRun := (table.isRunOf_iff checked).mp rfl
          refine ⟨did.fires.mono ?_, did.others, _,
            underway.fire waiting did isRun (table.next nextRun)⟩
          rintro _ ⟨rfl, absent⟩
          exact absurd has absent
      rcases first with ⟨fires₁, kept, cursor', underway₁⟩
      rcases fireRuns_underway tables own table (fun e' mem => waits e' (List.mem_cons_of_mem _ mem))
        (fires.trans fires₁) underway₁ again with ⟨fires₂, kept', outcome⟩
      exact ⟨fires₁.trans fires₂, fun t' mem other => kept' t' (kept t' mem other) other, outcome⟩

/-- Firing the latest run of one task among several. -/
theorem fireLatest_polled {tasks : List RecurringTask} (tables : RecurringTables start)
    (own : t.backendAlias = env.config.backendAlias)
    (table : Timetable env.cron t.schedule IsRun) (mem : t ∈ tasks)
    {result : List Job × Option Int} {cursor : Option Time}
    (fires : Fires (LatestRun env now tasks) start w.db)
    (underway : Underway env IsRun now start t w.db cursor)
    (run : Runs (fireLatest env now t none) w result w') :
    Fires (LatestRun env now tasks) w.db w'.db ∧ KeepsTasksBut t.id w.db w'.db ∧
      Polled env IsRun now start t w'.db := by
  unfold fireLatest at run
  split at run
  · rename_i ahead
    rcases Runs.of_pure run with ⟨-, rfl⟩
    exact ⟨Fires.refl _, fun _ mem _ => mem, underway.polled ahead⟩
  · rename_i due
    have due : t.nextRunAt.any (fun n => now < n) = false := Bool.not_eq_true _ ▸ due
    rcases Runs.of_bind run with ⟨latest, w₁, searched, rest⟩
    rcases Runs.of_ofExcept searched with ⟨latestRun, rfl⟩
    rcases Runs.of_bind rest with ⟨fired, w₂, loaded, done⟩
    rcases Runs.of_pure done with ⟨-, rfl⟩
    rcases of_run_fireAndLoad loaded with ⟨x, firing⟩
    rcases of_run_fireRecurringTask (fires.tables tables) underway.mem own firing with
      ⟨off, -⟩ | ⟨next, -, nextRun, did⟩
    · -- the latest run is a run
      have not := (table.isRunOf_iff off).mpr (table.latest latestRun).1.2
      cases not
    · refine ⟨did.fires.mono ?_, did.others, underway.fireLatest table due latestRun nextRun did⟩
      rintro _ ⟨rfl, -⟩
      exact ⟨t, mem, due, latest, latestRun, rfl⟩

/-- One task of a poll. -/
theorem fireTask_polled {tasks : List RecurringTask} {pending : List RecurringExecution}
    {jobs : List Job} (tables : RecurringTables start)
    (own : t.backendAlias = env.config.backendAlias)
    (table : Timetable env.cron t.schedule IsRun) (mem : t ∈ tasks)
    (waits : ∀ e ∈ pending, e.taskKey = t.key → Waits env start t e)
    (runs : ∀ n, t.nextRunAt = some n → IsRun n) (there : t ∈ w.db.recurringTasks.rows)
    (fires : Fires (LatestRun env now tasks) start w.db)
    (run : Runs (fireTask env now pending t) w jobs w') :
    Fires (LatestRun env now tasks) w.db w'.db ∧ KeepsTasksBut t.id w.db w'.db ∧
      Polled env IsRun now start t w'.db := by
  rcases of_run_fireTask run with ⟨published, fired, w₁, first, second⟩
  have mine : ∀ e ∈ pending.filter (fun e => e.taskKey == t.key), Waits env start t e := by
    intro e chosen
    rcases List.mem_filter.mp chosen with ⟨waiting, key⟩
    exact waits e waiting (beq_iff_eq.mp key)
  rcases fireRuns_underway tables own table mine fires (underway_start there runs) first with
    ⟨fires₁, kept, cursor, underway⟩
  rcases fireLatest_polled tables own table mem (fires.trans fires₁) underway second with
    ⟨fires₂, kept', polled⟩
  exact ⟨fires₁.trans fires₂, fun t' here other => kept' t' (kept t' here other) other, polled⟩

/-- A poll with room for everything: the tasks behind one leave it as it was polled. -/
theorem fireTasks_outcome {IsRun : String → Time → Prop} {pending : List RecurringExecution}
    {all : List RecurringTask} (tables : RecurringTables start)
    (own : ∀ t ∈ all, t.backendAlias = env.config.backendAlias)
    (table : ∀ t ∈ all, Timetable env.cron t.schedule (IsRun t.schedule))
    (waits : ∀ t ∈ all, ∀ e ∈ pending, e.taskKey = t.key → Waits env start t e)
    (runs : ∀ t ∈ all, ∀ n, t.nextRunAt = some n → IsRun t.schedule n) :
    ∀ {tasks : List RecurringTask} {w w' : World} {jobs : List Job},
      (∀ t ∈ tasks, t ∈ all ∧ t ∈ w.db.recurringTasks.rows) →
      (tasks.map RecurringTask.id).Nodup →
      Fires (LatestRun env now all) start w.db →
      Runs (eachOf (fireTask env now pending) tasks) w jobs w' →
      Fires (LatestRun env now all) w.db w'.db ∧
        (∀ t ∈ tasks, Polled env (IsRun t.schedule) now start t w'.db) ∧
        ∀ t ∈ w.db.recurringTasks.rows, t.id ∉ tasks.map RecurringTask.id →
          t ∈ w'.db.recurringTasks.rows
  | [], w, w', jobs, _, _, fires, run => by
      rcases Runs.of_pure run with ⟨-, rfl⟩
      exact ⟨Fires.refl _, fun t mem => absurd mem List.not_mem_nil, fun t mem _ => mem⟩
  | t :: tasks, w, w', jobs, inside, nodup, fires, run => by
      rcases inside t List.mem_cons_self with ⟨mem, there⟩
      rw [List.map_cons, List.nodup_cons] at nodup
      rcases Runs.of_bind run with ⟨fired, w₁, first, rest⟩
      rcases Runs.of_bind rest with ⟨others, w₂, again, done⟩
      rcases Runs.of_pure done with ⟨-, rfl⟩
      rcases fireTask_polled tables (own t mem) (table t mem) mem (waits t mem) (runs t mem) there
        fires first with ⟨fires₁, kept, polled⟩
      have inside' : ∀ t' ∈ tasks, t' ∈ all ∧ t' ∈ w₁.db.recurringTasks.rows := by
        intro t' later
        rcases inside t' (List.mem_cons_of_mem _ later) with ⟨mem', here⟩
        refine ⟨mem', kept t' here ?_⟩
        exact fun same => nodup.1 (same ▸ List.mem_map_of_mem later)
      rcases fireTasks_outcome tables own table waits runs inside' nodup.2 (fires.trans fires₁)
        again with ⟨fires₂, polled', kept'⟩
      refine ⟨fires₁.trans fires₂, fun t' here => ?_, fun t' here other => ?_⟩
      · rcases List.mem_cons.mp here with rfl | later
        · exact polled.mono fires₂ fun t'' here' same => kept' t'' here' (same ▸ nodup.1)
        · exact polled' t' later
      · rw [List.map_cons, List.mem_cons, not_or] at other
        exact kept' t' (kept t' here other.1) other.2

end Loops

/-! ## A poll -/

/-- A task a poll may fire. -/
def Eligible (env : Env) (includeDynamicTasks : Bool) (t : RecurringTask) : Prop :=
  t.backendAlias = env.config.backendAlias ∧ (includeDynamicTasks || t.static) = true

/-- What a poll leaves of the tables it started from. -/
structure PollLeaves (env : Env) (IsRun : String → Time → Prop) (now : Time)
    (includeDynamicTasks : Bool) (start db : Db) : Prop where
  /-- The latest run of a due task has one execution row, and the cursor lies at the next one. -/
  due : ∀ t ∈ start.recurringTasks.rows, Eligible env includeDynamicTasks t →
    t.nextRunAt.any (fun n => now < n) = false →
    (∀ e, Waits env start t e → IsRun t.schedule e.runAt → e.runAt ≤ now) →
      ∃ latest next, env.cron.latestCronRun t.schedule now = .ok latest ∧ now < next ∧
        NextRun env t.schedule now next ∧ IsLeast {u | now < u ∧ IsRun t.schedule u} next ∧
          t.moved (some next) ∈ db.recurringTasks.rows ∧
            (db.recurringExecutions.rows.map RecurringExecution.run).count
              (t.backendAlias, t.key, latest) = 1
  /-- A cursor that lies ahead of now, and of the runs that wait, stays. -/
  ahead : ∀ t ∈ start.recurringTasks.rows, ∀ n, t.nextRunAt = some n → now < n →
    (∀ e, Waits env start t e → IsRun t.schedule e.runAt → e.runAt < n) →
      t ∈ db.recurringTasks.rows
  gains : ∀ t ∈ start.recurringTasks.rows, t.nextRunAt.any (fun n => now < n) = true →
    ∀ runAt, db.hasRun (t.backendAlias, t.key, runAt) →
      start.hasRun (t.backendAlias, t.key, runAt)
  /-- A job is created for a run that waited for it, or for the latest run of a due task. -/
  jobs : ∀ id ∈ newJobs start db, ∃ e' ∈ db.recurringExecutions.rows, e'.jobId = some id ∧
    ((∃ e ∈ start.recurringExecutions.rows, e.run = e'.run ∧ e.jobId = none ∧
        e.intendedJobId = some id) ∨
      ∃ t ∈ start.recurringTasks.rows, Eligible env includeDynamicTasks t ∧
        t.nextRunAt.any (fun n => now < n) = false ∧
          ∃ latest, env.cron.latestCronRun t.schedule now = .ok latest ∧
            e'.run = (t.backendAlias, t.key, latest))

section Poll

variable {env : Env} {IsRun : String → Time → Prop} {now : Time} {includeDynamicTasks : Bool}
  {batchSize : Option Int} {w w' : World} {db : Db} {t : RecurringTask}

/-- A slice that is large enough is the whole. -/
theorem of_run_sliceToBatch {α : Type} {rows rows' : List α}
    (fits : ∀ n, batchSize = some n → (rows.length : Int) ≤ n)
    (run : Runs (sliceToBatch batchSize rows) w rows' w') : rows' = rows ∧ w' = w := by
  cases batchSize with
  | none =>
      rcases Runs.of_pure run with ⟨rfl, rfl⟩
      exact ⟨rfl, rfl⟩
  | some n =>
      have room := fits n rfl
      have run : Runs (sliceTo n rows) w rows' w' := run
      unfold sliceTo at run
      split at run
      · exact (Runs.of_throw run).elim
      · rcases Runs.of_pure run with ⟨rfl, rfl⟩
        exact ⟨List.take_of_length_le (by omega), rfl⟩

/-- The tasks of a poll: those enabled and due, or with runs to fill in. -/
theorem mem_dueRecurringTasks : t ∈ dueRecurringTasks db env now includeDynamicTasks ↔
    t ∈ db.recurringTasks.rows ∧ Eligible env includeDynamicTasks t ∧
      (t.nextRunAt.any (fun n => now < n) = false ∨
        hasUnbackfilled db env.config.backendAlias t = true) := by
  have due : t.nextRunAt.all (fun n => n ≤ now) = true ↔
      t.nextRunAt.any (fun n => now < n) = false := by
    cases t.nextRunAt with
    | none => simp
    | some n => simp
  rw [dueRecurringTasks, mem_orderBy, List.mem_filter, Bool.and_eq_true, Bool.and_eq_true,
    Bool.or_eq_true, beq_iff_eq, due]
  unfold Eligible
  tauto

theorem nodup_ids_dueRecurringTasks (tables : RecurringTables db) (env : Env) (now : Time)
    (includeDynamicTasks : Bool) :
    ((dueRecurringTasks db env now includeDynamicTasks).map RecurringTask.id).Nodup :=
  ((orderBy_perm _ _).map RecurringTask.id).nodup_iff.mpr
    (tables.taskIds.sublist (List.filter_sublist.map _))

theorem nodup_keys_dueRecurringTasks (tables : RecurringTables db) (env : Env) (now : Time)
    (includeDynamicTasks : Bool) :
    ((dueRecurringTasks db env now includeDynamicTasks).map RecurringTask.key).Nodup := by
  apply List.Nodup.map_on _ (nodup_ids_dueRecurringTasks tables env now includeDynamicTasks).of_map
  intro t mem t' mem' same
  have here := mem_dueRecurringTasks.mp mem
  have here' := mem_dueRecurringTasks.mp mem'
  apply List.inj_on_of_nodup_map tables.taskKeys here.1 here'.1
  rw [here.2.1.1, here'.2.1.1, same]

/-- The pending reservations of a task are those that wait. -/
theorem waits_of_mem_pendingExecutions {tasks : List RecurringTask} {e : RecurringExecution}
    (mem : e ∈ pendingExecutions db env tasks) (key : e.taskKey = t.key) : Waits env db t e := by
  rcases List.mem_filter.mp (mem_orderBy.mp mem) with ⟨there, hit⟩
  exact ⟨there, (Bool.and_eq_true_iff.mp hit).1, key⟩

/-- A poll whose batch is large enough, and that raises nothing. -/
theorem pollLeaves_of_run {jobs : List Job} (tables : RecurringTables w.db)
    (table : ∀ t ∈ w.db.recurringTasks.rows, Eligible env includeDynamicTasks t →
      Timetable env.cron t.schedule (IsRun t.schedule))
    (runs : ∀ t ∈ w.db.recurringTasks.rows, Eligible env includeDynamicTasks t →
      ∀ n, t.nextRunAt = some n → IsRun t.schedule n)
    (enough : ∀ n, batchSize = some n →
      ((dueRecurringTasks w.db env now includeDynamicTasks).length +
        (pendingExecutions w.db env
          (dueRecurringTasks w.db env now includeDynamicTasks)).length : Int) ≤ n)
    (run : Runs (fireDueRecurringTasks env now includeDynamicTasks batchSize) w jobs w') :
    PollLeaves env IsRun now includeDynamicTasks w.db w'.db := by
  rcases Runs.of_bind run with ⟨db, w₁, read, rest⟩
  rcases of_run_getDb read with ⟨rfl, rfl⟩
  rcases Runs.of_bind rest with ⟨tasks, w₂, selected, rest⟩
  rcases of_run_sliceToBatch (fun n here => by have := enough n here; omega) selected with
    ⟨rfl, rfl⟩
  rcases Runs.of_bind rest with ⟨pending, w₃, waiting, fired⟩
  rcases of_run_sliceToBatch (fun n here => by have := enough n here; omega) waiting with
    ⟨rfl, rfl⟩
  have selected {t : RecurringTask}
      (mem : t ∈ dueRecurringTasks w₃.db env now includeDynamicTasks) :
      t ∈ w₃.db.recurringTasks.rows ∧ Eligible env includeDynamicTasks t :=
    ⟨(mem_dueRecurringTasks.mp mem).1, (mem_dueRecurringTasks.mp mem).2.1⟩
  have ids := nodup_ids_dueRecurringTasks tables env now includeDynamicTasks
  have keys := nodup_keys_dueRecurringTasks tables env now includeDynamicTasks
  have room : Room batchSize (demand (pendingExecutions w₃.db env
      (dueRecurringTasks w₃.db env now includeDynamicTasks))
      (dueRecurringTasks w₃.db env now includeDynamicTasks)) := by
    intro n here
    have whole := enough n here
    have needed := demand_le (pendingExecutions w₃.db env
      (dueRecurringTasks w₃.db env now includeDynamicTasks)) keys
    omega
  rw [fireTasks_eq env now _ room] at fired
  rcases fireTasks_outcome tables (fun t mem => (selected mem).2.1)
    (fun t mem => table t (selected mem).1 (selected mem).2)
    (fun t _ e mem key => waits_of_mem_pendingExecutions mem key)
    (fun t mem => runs t (selected mem).1 (selected mem).2)
    (fun t mem => ⟨mem, (selected mem).1⟩) ids
    (Fires.refl _) fired with ⟨fires, polled, stands⟩
  constructor
  · intro t mem eligible due notLater
    have inside := mem_dueRecurringTasks.mpr ⟨mem, eligible, .inl due⟩
    rcases (polled t inside).due due notLater with
      ⟨latest, next, latestRun, later, nextRun, least, moved, has⟩
    exact ⟨latest, next, latestRun, later, nextRun, least, moved,
      List.count_eq_one_of_mem (fires.tables tables).runs has⟩
  · intro t mem n here later before
    by_cases inside : t ∈ dueRecurringTasks w₃.db env now includeDynamicTasks
    · exact (polled t inside).ahead n here later before
    · apply stands t mem
      intro listed
      rcases List.mem_map.mp listed with ⟨t', mem', same⟩
      exact inside (tables.eq_of_taskId (selected mem').1 mem same ▸ mem')
  · intro t mem ahead runAt has
    rcases List.mem_map.mp has with ⟨e', mem', run⟩
    rcases fires.new e' mem' with ⟨e, there, becomes⟩ | ⟨t', mem'', due, latest, -, run'⟩
    · exact List.mem_map.mpr ⟨e, there, becomes.run.symm.trans run⟩
    · have pair := run.symm.trans run'
      have same : t = t' := List.inj_on_of_nodup_map tables.taskKeys mem (selected mem'').1
        (congrArg (fun r : Run => (r.1, r.2.1)) pair)
      rw [same, due] at ahead
      cases ahead
  · intro id new
    rcases fires.jobs id new with ⟨e', mem', linked, ⟨e, mem, becomes, unlinked⟩ |
      ⟨t, mem, due, latest, latestRun, run⟩⟩
    · refine ⟨e', mem', linked, .inl ⟨e, mem, becomes.run.symm, unlinked, ?_⟩⟩
      rcases becomes with rfl | ⟨-, -, rfl⟩
      · rw [unlinked] at linked
        cases linked
      · exact linked
    · exact ⟨e', mem', linked, .inr ⟨t, (selected mem).1, (selected mem).2, due, latest,
        latestRun, run⟩⟩

end Poll

/-! ## Polls in sequence -/

/-- Every task stands, and no cursor is taken back. -/
def KeepsCursors (db db' : Db) : Prop :=
  ∀ t ∈ db.recurringTasks.rows, ∃ cursor, t.moved cursor ∈ db'.recurringTasks.rows ∧
    ∀ n, t.nextRunAt = some n → ∃ n', cursor = some n' ∧ n ≤ n'

namespace KeepsCursors

variable {db db' db'' : Db} {env : Env}

theorem of_tasks (same : db'.recurringTasks = db.recurringTasks) : KeepsCursors db db' :=
  fun t mem => ⟨t.nextRunAt, same ▸ mem, fun n here => ⟨n, here, le_rfl⟩⟩

/-- Two stretches that never move a cursor back. -/
theorem trans (first : KeepsCursors db db') (second : KeepsCursors db' db'') :
    KeepsCursors db db'' := by
  intro t mem
  rcases first t mem with ⟨cursor, mem', later⟩
  rcases second _ mem' with ⟨cursor', mem'', later'⟩
  refine ⟨cursor', mem'', fun n here => ?_⟩
  rcases later n here with ⟨n', here', le⟩
  rcases later' n' here' with ⟨n'', here'', le'⟩
  exact ⟨n'', here'', le.trans le'⟩

/-- Advancing a cursor moves none back. -/
theorem advance (task : RecurringTask) (next : Time) : KeepsCursors db (db.advance task next) := by
  intro t mem
  have inTable : (if t.id == task.id && t.backendAlias == task.backendAlias &&
      t.nextRunAt.all (fun n => n < next) then { t with nextRunAt := some next } else t) ∈
        (db.advance task next).recurringTasks.rows := List.mem_map_of_mem mem
  split at inTable
  · rename_i hit
    refine ⟨some next, inTable, fun n here => ⟨next, rfl, ?_⟩⟩
    rw [here, Bool.and_eq_true, Option.all_some, decide_eq_true_eq] at hit
    exact hit.2.le
  · exact ⟨t.nextRunAt, inTable, fun n here => ⟨n, here, le_rfl⟩⟩

theorem of_reserves {task : RecurringTask} {runAt next : Time} {intended : JobId}
    {x : Option Reservation} (reserves : Reserves env db task runAt next intended x db') :
    KeepsCursors db db' := by
  cases reserves with
  | passed => exact of_tasks rfl
  | reserved due gets =>
      have same : KeepsCursors db _ := of_tasks (Fires.of_getsExecution gets).2.2
      exact same.trans (advance task next)

theorem of_publishes {r : Reservation} (publishes : Publishes env db r db') :
    KeepsCursors db db' := by
  cases publishes with
  | idle => exact of_tasks rfl
  | attached row unlinked enqueues here free =>
      have same := tasks_of_enqueues enqueues
      exact of_tasks same
  | attachedOther row unlinked row' same linked enqueues => exact of_tasks (tasks_of_enqueues enqueues)

theorem firingsLead (env : Env) :
    FiringsLead env (fun _ => True) (fun _ => True) KeepsCursors := by
  refine ⟨fun _ _ => of_tasks rfl, fun _ _ _ => trans, fun _ _ _ => trivial,
    fun taskId runAt _ => ?_⟩
  refine Leads.bind (P := fun _ => True) (R := fun (w w' : World) => KeepsCursors w.db w'.db)
    (fun _ _ _ => trivial) (fun _ _ _ => trans) ?_ fun w o w' _ _ => ?_
  · refine Leads.of_returns (fun w e w' _ raised => ?_) (fun w o w' _ run => ?_)
    · exact of_tasks (by rw [RollsBack.atomic _ _ _ _ raised])
    · rcases of_run_reserveRecurringTask run with ⟨-, same, -⟩ | ⟨_, _, -, -, -, -, -, reserves⟩
      · exact of_tasks (by rw [same])
      · exact of_reserves reserves
  · cases o with
    | none => exact of_tasks rfl
    | some r =>
        rcases runs_or_raises (publishReservedRecurringTask env r) w' with
          ⟨x, run, -⟩ | ⟨e, raised, -⟩
        · exact of_publishes (of_run_publishReservedRecurringTask run)
        · exact of_tasks (by
            have same := RollsBack.atomic _ _ _ _ raised
            exact congrArg Db.recurringTasks same)

end KeepsCursors

/-- A poll of any process, at any time, however it ends. -/
def PollStep (db db' : Db) : Prop :=
  ∃ (env : Env) (now : Time) (includeDynamicTasks : Bool) (batchSize : Option Int)
    (clock : Nat → Time) (uuids : Nat → JobId),
    db' = (finalState (fireDueRecurringTasks env now includeDynamicTasks batchSize)
      ⟨db, clock, uuids⟩).db

/-- A poll that raises nothing, with a batch for all it selects, fires the latest run of every due
task once and no earlier one, and leaves the cursor at the first run after now; and polls in any
order never take a cursor back. -/
theorem poll_coalesces (p : Crontab.Platform) :
    (∀ (env : Env) (now : Time) (includeDynamicTasks : Bool) (batchSize : Option Int)
      (w w' : World) (jobs : List Job), env.cron = crontab p → RecurringTables w.db →
      (∀ t ∈ w.db.recurringTasks.rows, Eligible env includeDynamicTasks t →
        FixedSchedule p t.schedule) →
      (∀ t ∈ w.db.recurringTasks.rows, Eligible env includeDynamicTasks t →
        ∀ n, t.nextRunAt = some n → RunsAt p t.schedule n) →
      (∀ n, batchSize = some n → ((dueRecurringTasks w.db env now includeDynamicTasks).length +
        (pendingExecutions w.db env
          (dueRecurringTasks w.db env now includeDynamicTasks)).length : Int) ≤ n) →
      Runs (fireDueRecurringTasks env now includeDynamicTasks batchSize) w jobs w' →
        PollLeaves env (RunsAt p) now includeDynamicTasks w.db w'.db) ∧
    ∀ db db' : Db, Relation.ReflTransGen PollStep db db' → KeepsCursors db db' := by
  constructor
  · intro env now includeDynamicTasks batchSize w w' jobs cron tables accepted runs enough run
    refine pollLeaves_of_run tables (fun t mem eligible => ?_) runs enough run
    rw [cron]
    exact timetable_crontab (accepted t mem eligible)
  · intro db db' polls
    induction polls with
    | refl => exact KeepsCursors.of_tasks rfl
    | tail _ step ih =>
        rcases step with ⟨env, now, includeDynamicTasks, batchSize, clock, uuids, rfl⟩
        have led := (KeepsCursors.firingsLead env).fireDueRecurringTasks (fun _ => trivial) now
          includeDynamicTasks batchSize
        exact ih.trans (led ⟨_, clock, uuids⟩ trivial)

/-! ## A task every five minutes -/

/-- A process that reads schedules as `dj_queue.cron` does. -/
def pollingEnv : Env where
  config := { family := .sqlite }
  importString path := .ok (.task ⟨path, "default", 0, none, none, none, none⟩)
  concurrencyKey _ _ := .unset
  cron := crontab Crontab.plainPlatform

/-- Every five minutes. -/
def everyFive : String := "*/5 * * * *"

/-- Scheduling the task `sync` -/
def schedules (schedule : String) : Operation :=
  .scheduleRecurringTask "sync" "app.tasks.sync" schedule (some emptyPayload) "default" 0 ""

/-- The poll a second after the minute. -/
def polls (minute : Int) : Operation :=
  .fireDueRecurringTasks (seconds (60 * minute + 1)) true (some 500)

/-- The tables after an operation whose jobs get this key. -/
def Db.after (db : Db) (env : Env) (op : Operation) (jobId : JobId) : Db :=
  (op.final env ⟨db, fun _ => 0, fun _ => jobId⟩).db

/-- The task scheduled in an empty database. -/
def syncScheduled : Db := Db.empty.after pollingEnv (schedules everyFive) 0

/-- Every five minutes is a schedule of fixed offset. -/
theorem fixedSchedule_everyFive : FixedSchedule Crontab.plainPlatform everyFive := by
  have parsed : Crontab.parseSchedule Crontab.plainPlatform everyFive =
      .ok ((Crontab.parseSchedule Crontab.plainPlatform everyFive).toOption.getD []) :=
    Crontab.ok_of_isOk [] (by decide +kernel)
  have naive : ((Crontab.parseSchedule Crontab.plainPlatform everyFive).toOption.getD []).all
      (fun s => Crontab.skipByWallTime s.timezone) = true := by decide +kernel
  exact ⟨_, parsed, fun s mem => Crontab.fixedOffset_of_skip (List.all_eq_true.mp naive s mem)⟩

/-- The first poll, a second after minute ten. -/
theorem poll_coalesces_at_minute_ten :
    (syncScheduled.after pollingEnv (polls 10) 1).recurringTasks.rows.map RecurringTask.nextRunAt =
      [some (seconds 900)] ∧
    (syncScheduled.after pollingEnv (polls 10) 1).recurringExecutions.rows.map
      RecurringExecution.run = [("default", "sync", seconds 600)] ∧
    PollLeaves pollingEnv (RunsAt Crontab.plainPlatform) (seconds 601) true syncScheduled
      (syncScheduled.after pollingEnv (polls 10) 1) := by
  have every : ∀ t ∈ syncScheduled.recurringTasks.rows,
      t.schedule = everyFive ∧ t.nextRunAt = none := by decide +kernel
  have tables : RecurringTables syncScheduled := by
    refine ⟨⟨?_, ?_⟩, ?_, ?_, ?_⟩ <;> decide +kernel
  have run : ∃ jobs, returned (fireDueRecurringTasks pollingEnv (seconds 601) true (some 500))
      ⟨syncScheduled, fun _ => 0, fun _ => 1⟩ = some jobs :=
    Option.isSome_iff_exists.mp (by decide +kernel)
  rcases run with ⟨jobs, run⟩
  refine ⟨by decide +kernel, by decide +kernel, ?_⟩
  apply (poll_coalesces Crontab.plainPlatform).1 pollingEnv (seconds 601) true (some 500)
    ⟨syncScheduled, fun _ => 0, fun _ => 1⟩ _ jobs rfl tables
  · intro t mem _
    rw [(every t mem).1]
    exact fixedSchedule_everyFive
  · intro t mem _ n here
    rw [(every t mem).2] at here
    cases here
  · rintro n ⟨⟩
    decide +kernel
  · exact runs_of_returned run

/-- It cannot import its tasks, so its reservations wait. -/
def unimportableEnv : Env :=
  { pollingEnv with importString := fun path => .error (.importError path) }

/-- A process whose clock shows minute twenty reserved that run; then the schedule was edited. -/
def syncEdited : Db :=
  ((Db.empty.after pollingEnv (schedules "*/10 * * * *") 0).after unimportableEnv (polls 20)
    1).after pollingEnv (schedules everyFive) 0

/-- Another process has fired the run of minute ten. -/
def syncFired : Db := syncEdited.after pollingEnv (.fireRecurringTask 1 (seconds 600)) 2

/-- The state after an operation on a reachable one. -/
theorem reachable_after {db : Db} (reached : Reachable none db) (env : Env) (op : Operation)
    (jobId : JobId) (promised : op.Promised none env db) : Reachable none (db.after env op jobId) :=
  .tail reached (.operation env op _ _ promised)

/-- The task edited is in a reachable state. -/
theorem reachable_syncEdited : Reachable none syncEdited := by
  have scheduled := reachable_after .refl pollingEnv (schedules "*/10 * * * *") 0 trivial
  have reserved := reachable_after scheduled unimportableEnv (polls 20) 1
    (by rintro r call job - - t ⟨⟩)
  exact reachable_after reserved pollingEnv (schedules everyFive) 0 trivial

/-- A poll whose clock shows minute ten publishes the reservation of minute twenty first, which takes
the cursor past its own run: that run gets no row, and a cursor that lay ahead does not stay. -/
theorem poll_passes_over_run :
    (Reachable none syncEdited ∧ FixedSchedule Crontab.plainPlatform everyFive ∧
      (syncEdited.recurringTasks.rows.map (fun t => (t.schedule, t.nextRunAt)) =
        [(everyFive, none)]) ∧
      (returned (fireDueRecurringTasks pollingEnv (seconds 601) true (some 500))
        ⟨syncEdited, fun _ => 0, fun _ => 3⟩).isSome = true ∧
      (pollingEnv.cron.latestCronRun everyFive (seconds 601)).toOption = some (seconds 600) ∧
      (pollingEnv.cron.nextCronRun everyFive (seconds 601)).toOption = some (seconds 900) ∧
      ("default", "sync", seconds 600) ∉ (syncEdited.after pollingEnv (polls 10)
        3).recurringExecutions.rows.map RecurringExecution.run ∧
      (syncEdited.after pollingEnv (polls 10) 3).recurringTasks.rows.map RecurringTask.nextRunAt =
        [some (seconds 1500)]) ∧
    Reachable none syncFired ∧
      syncFired.recurringTasks.rows.map RecurringTask.nextRunAt = [some (seconds 900)] ∧
      (returned (fireDueRecurringTasks pollingEnv (seconds 601) true (some 500))
        ⟨syncFired, fun _ => 0, fun _ => 3⟩).isSome = true ∧
      (syncFired.after pollingEnv (polls 10) 3).recurringTasks.rows.map RecurringTask.nextRunAt =
        [some (seconds 1500)] := by
  have fired : Reachable none syncFired :=
    reachable_after reachable_syncEdited pollingEnv (.fireRecurringTask 1 (seconds 600)) 2
      (by rintro r call job - - t ⟨⟩)
  refine ⟨⟨reachable_syncEdited, fixedSchedule_everyFive, ?_, ?_, ?_, ?_, ?_, ?_⟩, fired, ?_, ?_, ?_⟩
    <;> decide +kernel

end DjQueue
