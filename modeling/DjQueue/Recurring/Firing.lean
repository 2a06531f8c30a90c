import DjQueue.Recurring.Timetable
import DjQueue.Recurring.Reruns

/-!
# What firings leave

A firing moves the cursor of one task, adds the execution row of one run or none, and links rows to
the jobs intended for them.  `Fires` says so of any number of firings.
-/

namespace DjQueue

open Relational

/-! ## Constraints -/

/-- A row inserted under the next id keeps the ids distinct. -/
theorem Numbered.insert {ρ : Type} {key : ρ → Nat} {t : Table ρ} (numbered : Numbered key t)
    {mk : Nat → ρ} (own : key (mk t.nextId) = t.nextId) : Numbered key (t.insert mk) := by
  constructor
  · rw [Table.rows_insert, List.map_append, List.map_singleton, List.nodup_append]
    refine ⟨numbered.ids, List.nodup_singleton _, ?_⟩
    intro i old j new
    rcases List.mem_map.mp old with ⟨r, mem, rfl⟩
    rw [List.mem_singleton.mp new, own]
    exact Nat.ne_of_lt (numbered.bound r mem)
  · intro r mem
    rcases List.mem_append.mp mem with old | new
    · exact Nat.lt_succ_of_lt (numbered.bound r old)
    · rw [List.mem_singleton.mp new, own]
      exact Nat.lt_succ_self _

/-- An update leaves what it does not write. -/
theorem map_updateWhere {ρ κ : Type} {key : ρ → κ} {f : ρ → ρ} (keeps : ∀ r, key (f r) = key r)
    (t : Table ρ) (p : ρ → Bool) : (t.updateWhere p f).rows.map key = t.rows.map key := by
  rw [Table.rows_updateWhere, List.map_map]
  apply List.map_congr_left
  intro r _
  rw [Function.comp_apply]
  split
  · exact keeps r
  · rfl

/-- An update that keeps ids keeps them distinct. -/
theorem Numbered.updateWhere {ρ : Type} {key : ρ → Nat} {t : Table ρ} (numbered : Numbered key t)
    {f : ρ → ρ} (keeps : ∀ r, key (f r) = key r) (p : ρ → Bool) :
    Numbered key (t.updateWhere p f) := by
  have ids := map_updateWhere keeps t p
  refine ⟨ids ▸ numbered.ids, ?_⟩
  intro r mem
  have inKeys : key r ∈ (t.updateWhere p f).rows.map key := List.mem_map_of_mem mem
  rw [ids] at inKeys
  rcases List.mem_map.mp inKeys with ⟨r', mem', same⟩
  rw [← same]
  exact numbered.bound r' mem'

/-- The primary keys and the unique constraints of the two tables. -/
structure RecurringTables (db : Db) : Prop where
  executions : Numbered RecurringExecution.id db.recurringExecutions
  runs : (db.recurringExecutions.rows.map RecurringExecution.run).Nodup
  taskIds : (db.recurringTasks.rows.map RecurringTask.id).Nodup
  taskKeys : (db.recurringTasks.rows.map (fun t => (t.backendAlias, t.key))).Nodup

/-- There is an execution row of the run. -/
def Db.hasRun (db : Db) (run : Run) : Prop :=
  run ∈ db.recurringExecutions.rows.map RecurringExecution.run

namespace RecurringTables

variable {db db' : Db} {env : Env}

theorem congr (tables : RecurringTables db)
    (executions : db'.recurringExecutions = db.recurringExecutions)
    (tasks : db'.recurringTasks = db.recurringTasks) : RecurringTables db' := by
  constructor
  · exact executions ▸ tables.executions
  · exact executions ▸ tables.runs
  · exact tasks ▸ tables.taskIds
  · exact tasks ▸ tables.taskKeys

theorem advance (tables : RecurringTables db) (task : RecurringTask) (next : Time) :
    RecurringTables (db.advance task next) := by
  have kept {κ : Type} {key : RecurringTask → κ}
      (keeps : ∀ t : RecurringTask, key { t with nextRunAt := some next } = key t) :
      (db.advance task next).recurringTasks.rows.map key = db.recurringTasks.rows.map key :=
    map_updateWhere keeps _ _
  refine { tables with taskIds := ?_, taskKeys := ?_ }
  · rw [kept fun _ => rfl]
    exact tables.taskIds
  · rw [kept fun _ => rfl]
    exact tables.taskKeys

/-- Reserving a run that has no reservation yet. -/
theorem reserveExecution (tables : RecurringTables db) {backendAlias key : String} {runAt : Time}
    (absent : db.findExecution backendAlias key runAt = none) (intended : JobId) :
    RecurringTables (db.reserveExecution backendAlias key runAt intended) := by
  have numbered : Numbered RecurringExecution.id
      (db.recurringExecutions.insert (fun id =>
        ⟨id, backendAlias, some intended, none, key, runAt⟩)) := tables.executions.insert rfl
  refine { tables with executions := numbered, runs := ?_ }
  rw [Db.reserveExecution, Table.rows_insert, List.map_append, List.map_singleton,
    List.nodup_append]
  refine ⟨tables.runs, List.nodup_singleton _, ?_⟩
  intro run old run' new
  rcases List.mem_map.mp old with ⟨e, mem, rfl⟩
  rw [List.mem_singleton.mp new]
  exact run_ne_of_findExecution_none absent e mem

theorem attach (tables : RecurringTables db) (r : Reservation) (job : Job) :
    RecurringTables (db.attach env r job) := by
  have numbered : Numbered RecurringExecution.id (db.attach env r job).recurringExecutions :=
    tables.executions.updateWhere (f := fun e => { e with jobId := some job.id }) (fun _ => rfl) _
  have kept : (db.attach env r job).recurringExecutions.rows.map RecurringExecution.run =
      db.recurringExecutions.rows.map RecurringExecution.run :=
    map_updateWhere (f := fun e : RecurringExecution => { e with jobId := some job.id })
      (fun _ => rfl) _ _
  exact { tables with executions := numbered, runs := kept ▸ tables.runs }

/-- The row of a task is the one a firing reads. -/
theorem eq_of_taskId (tables : RecurringTables db) {t t' : RecurringTask}
    (mem : t ∈ db.recurringTasks.rows) (mem' : t' ∈ db.recurringTasks.rows) (same : t.id = t'.id) :
    t = t' :=
  List.inj_on_of_nodup_map tables.taskIds mem mem' same

end RecurringTables

/-! ## Firings -/

/-- The row later: it may have got the job intended for it. -/
def RecurringExecution.Becomes (e e' : RecurringExecution) : Prop :=
  e' = e ∨ e.jobId = none ∧ e.intendedJobId.isSome = true ∧ e' = { e with jobId := e.intendedJobId }

namespace RecurringExecution.Becomes

variable {e e' e'' : RecurringExecution}

/-- A reservation stays that of its run. -/
theorem run (becomes : e.Becomes e') : e'.run = e.run := by
  rcases becomes with rfl | ⟨-, -, rfl⟩ <;> rfl

theorem trans (first : e.Becomes e') (second : e'.Becomes e'') : e.Becomes e'' := by
  rcases first with rfl | ⟨unlinked, intended, rfl⟩
  · exact second
  · rcases second with rfl | ⟨none, -, -⟩
    · exact .inr ⟨unlinked, intended, rfl⟩
    · have none : e.intendedJobId = .none := none
      rw [none] at intended
      cases intended

/-- A row that waits has waited. -/
theorem unlinked (becomes : e.Becomes e') (waits : e'.jobId = none) : e.jobId = none := by
  rcases becomes with rfl | ⟨none, -, -⟩
  · exact waits
  · exact none

/-- A linked reservation never changes. -/
theorem linked (becomes : e.Becomes e') {id : JobId} (has : e.jobId = some id) : e' = e := by
  rcases becomes with rfl | ⟨none, -, -⟩
  · rfl
  · rw [has] at none
    cases none

end RecurringExecution.Becomes

/-- Nothing but firings: new rows are of `fresh` runs, and a new job is linked to a row that waited
for it or to a new one. -/
structure Fires (fresh : Run → Prop) (db db' : Db) : Prop where
  rows : ∀ e ∈ db.recurringExecutions.rows, ∃ e' ∈ db'.recurringExecutions.rows, e.Becomes e'
  new : ∀ e' ∈ db'.recurringExecutions.rows,
    (∃ e ∈ db.recurringExecutions.rows, e.Becomes e') ∨ fresh e'.run
  jobs : ∀ id ∈ newJobs db db', ∃ e' ∈ db'.recurringExecutions.rows, e'.jobId = some id ∧
    ((∃ e ∈ db.recurringExecutions.rows, e.Becomes e' ∧ e.jobId = none) ∨ fresh e'.run)
  tables : RecurringTables db → RecurringTables db'

theorem mem_newJobs {db db' : Db} {id : JobId} :
    id ∈ newJobs db db' ↔ id ∈ db'.jobs.map Job.id ∧ id ∉ db.jobs.map Job.id := by
  rw [newJobs, List.mem_filter, Bool.not_eq_true', ← Bool.not_eq_true, List.contains_iff_mem]

theorem tasks_of_enqueues {env : Env} {db db' : Db} {r : Reservation} {job : Job}
    (enqueues : Enqueues env db r job db') : db'.recurringTasks = db.recurringTasks := by
  cases enqueues with
  | found => rfl
  | created start _ _ run =>
      rw [(frame_of_enqueueJobWithDispatch run).2.recurringTasks, start]

namespace Fires

variable {fresh fresh' : Run → Prop} {db db' db'' : Db} {env : Env}

theorem refl (db : Db) : Fires fresh db db := by
  refine ⟨fun e mem => ⟨e, mem, .inl rfl⟩, fun e mem => .inl ⟨e, mem, .inl rfl⟩, ?_, id⟩
  intro id mem
  rw [newJobs_self] at mem
  cases mem

theorem mono (fires : Fires fresh db db') (more : ∀ run, fresh run → fresh' run) :
    Fires fresh' db db' := by
  refine { fires with new := fun e' mem => (fires.new e' mem).imp_right (more _), jobs := ?_ }
  intro id mem
  rcases fires.jobs id mem with ⟨e', there, linked, source⟩
  exact ⟨e', there, linked, source.imp_right (more _)⟩

theorem trans (first : Fires fresh db db') (second : Fires fresh db' db'') :
    Fires fresh db db'' := by
  refine ⟨?_, ?_, ?_, second.tables ∘ first.tables⟩
  · intro e mem
    rcases first.rows e mem with ⟨e', mem', becomes⟩
    rcases second.rows e' mem' with ⟨e'', mem'', becomes'⟩
    exact ⟨e'', mem'', becomes.trans becomes'⟩
  · intro e'' mem''
    rcases second.new e'' mem'' with ⟨e', mem', becomes'⟩ | new
    · rcases first.new e' mem' with ⟨e, mem, becomes⟩ | new
      · exact .inl ⟨e, mem, becomes.trans becomes'⟩
      · exact .inr (becomes'.run ▸ new)
    · exact .inr new
  · intro id mem
    rcases mem_newJobs.mp mem with ⟨after, before⟩
    by_cases between : id ∈ db'.jobs.map Job.id
    · rcases first.jobs id (mem_newJobs.mpr ⟨between, before⟩) with ⟨e', mem', linked, source⟩
      rcases second.rows e' mem' with ⟨e'', mem'', becomes'⟩
      cases becomes'.linked linked
      exact ⟨e', mem'', linked, source⟩
    · rcases second.jobs id (mem_newJobs.mpr ⟨after, between⟩) with ⟨e'', mem'', linked, source⟩
      refine ⟨e'', mem'', linked, ?_⟩
      rcases source with ⟨e', mem', becomes', waits⟩ | new
      · rcases first.new e' mem' with ⟨e, mem, becomes⟩ | new
        · exact .inl ⟨e, mem, becomes.trans becomes', becomes.unlinked waits⟩
        · exact .inr (becomes'.run ▸ new)
      · exact .inr new

/-- A run that has its row keeps it. -/
theorem hasRun (fires : Fires fresh db db') {run : Run} (has : db.hasRun run) : db'.hasRun run := by
  rcases List.mem_map.mp has with ⟨e, mem, rfl⟩
  rcases fires.rows e mem with ⟨e', mem', becomes⟩
  exact List.mem_map.mpr ⟨e', mem', becomes.run⟩

/-- Only a cursor moved. -/
theorem of_executions (executions : db'.recurringExecutions = db.recurringExecutions)
    (jobs : db'.jobs = db.jobs) (tables : RecurringTables db → RecurringTables db') :
    Fires fresh db db' := by
  refine ⟨?_, ?_, ?_, tables⟩
  · rw [executions]
    exact fun e mem => ⟨e, mem, .inl rfl⟩
  · rw [executions]
    exact fun e mem => .inl ⟨e, mem, .inl rfl⟩
  · intro id mem
    have none : newJobs db db' = [] := by
      rw [newJobs, jobs]
      exact newJobs_self db
    rw [none] at mem
    cases mem

/-- Looking a reservation up, or making it, fires its own run at most. -/
theorem of_getsExecution {backendAlias key : String} {runAt : Time} {intended : JobId}
    {e : RecurringExecution} (gets : GetsExecution db backendAlias key runAt intended e db') :
    Fires (fun run => run = (backendAlias, key, runAt) ∧ ¬ db.hasRun run) db db' ∧
      db'.hasRun (backendAlias, key, runAt) ∧ db'.recurringTasks = db.recurringTasks := by
  cases gets with
  | found here =>
      rcases of_findExecution here with ⟨mem, run⟩
      exact ⟨Fires.refl db, List.mem_map.mpr ⟨e, mem, run⟩, rfl⟩
  | created absent =>
      have none : ¬ db.hasRun (backendAlias, key, runAt) := by
        intro has
        rcases List.mem_map.mp has with ⟨e, mem, same⟩
        exact run_ne_of_findExecution_none absent e mem same
      refine ⟨⟨?_, ?_, ?_, fun tables => tables.reserveExecution absent intended⟩, ?_, rfl⟩
      · exact fun e mem => ⟨e, List.mem_append_left _ mem, .inl rfl⟩
      · intro e mem
        rcases List.mem_append.mp mem with old | new
        · exact .inl ⟨e, old, .inl rfl⟩
        · rw [List.mem_singleton.mp new]
          exact .inr ⟨rfl, none⟩
      · intro id mem
        have same : newJobs db (db.reserveExecution backendAlias key runAt intended) = [] :=
          newJobs_self db
        rw [same] at mem
        cases mem
      · exact List.mem_map.mpr ⟨_, List.mem_append_right _ (List.mem_singleton_self _), rfl⟩

/-- Publishing links the row to the job intended for it, and creates no other job. -/
theorem of_publishes (tables : RecurringTables db) {r : Reservation}
    (publishes : Publishes env db r db') :
    Fires fresh db db' ∧ db'.recurringTasks = db.recurringTasks := by
  cases publishes with
  | idle => exact ⟨Fires.refl db, rfl⟩
  | attachedOther row unlinked row' same linked enqueues =>
      have equal := List.inj_on_of_nodup_map tables.executions.ids row' row same
      rw [equal, unlinked] at linked
      cases linked
  | @attached job db₁ e row unlinked enqueues here free =>
      have executions := executions_of_enqueues enqueues
      have tasks := tasks_of_enqueues enqueues
      have rows : (db₁.attach env r job).recurringExecutions.rows =
          db.recurringExecutions.rows.map
            (fun x => if attachable env r job x then { x with jobId := some job.id } else x) := by
        rw [Db.attach, Table.rows_updateWhere, executions]
      have becomes (x : RecurringExecution) : x.Becomes
          (if attachable env r job x then { x with jobId := some job.id } else x) := by
        split
        · rename_i hit
          simp only [attachable, Bool.and_eq_true, beq_iff_eq, Option.isNone_iff_eq_none] at hit
          rw [← hit.2]
          exact .inr ⟨hit.1.2, by rw [hit.2]; rfl, rfl⟩
        · exact .inl rfl
      refine ⟨⟨?_, ?_, ?_, ?_⟩, tasks⟩
      · rw [rows]
        exact fun x mem => ⟨_, List.mem_map_of_mem mem, becomes x⟩
      · rw [rows]
        intro x mem
        rcases List.mem_map.mp mem with ⟨y, inTable, rfl⟩
        exact .inl ⟨y, inTable, becomes y⟩
      · rw [rows]
        intro id mem
        rcases enqueues.newJobs_eq with ⟨same, none | one⟩
        · rw [show newJobs db (db₁.attach env r job) = [] from none] at mem
          cases mem
        · rw [show newJobs db (db₁.attach env r job) = _ from one] at mem
          rw [List.mem_singleton.mp mem, ← same]
          refine ⟨_, List.mem_map_of_mem row, ?_, .inl ⟨e, row, becomes e, unlinked⟩⟩
          rw [if_pos here]
      · exact fun tables => (tables.congr executions tasks).attach r job

end Fires

/-! ## One firing -/

/-- A task with its cursor elsewhere. -/
def RecurringTask.moved (t : RecurringTask) (cursor : Option Time) : RecurringTask :=
  { t with nextRunAt := cursor }

/-- The rows of the other tasks stand. -/
def KeepsTasksBut (id : Nat) (db db' : Db) : Prop :=
  ∀ t ∈ db.recurringTasks.rows, t.id ≠ id → t ∈ db'.recurringTasks.rows

/-- What firing a run of a task with this cursor leaves. -/
structure Fired (t : RecurringTask) (cursor : Option Time) (runAt next : Time) (db db' : Db) :
    Prop where
  fires : Fires (fun run => run = (t.backendAlias, t.key, runAt) ∧ ¬ db.hasRun run) db db'
  others : KeepsTasksBut t.id db db'
  passed : cursor.any (fun n => runAt < n) = true → t.moved cursor ∈ db'.recurringTasks.rows
  reserved : cursor.any (fun n => runAt < n) = false →
    db'.hasRun (t.backendAlias, t.key, runAt) ∧
      (runAt < next → t.moved (some next) ∈ db'.recurringTasks.rows)

section Firing

variable {env : Env} {t : RecurringTask} {cursor : Option Time} {runAt next : Time} {db db' : Db}

/-- Advancing a cursor keeps the other tasks. -/
theorem keepsTasksBut_advance : KeepsTasksBut t.id db (db.advance (t.moved cursor) next) := by
  intro t' mem other
  apply List.mem_map.mpr
  refine ⟨t', mem, if_neg ?_⟩
  intro hit
  simp only [Bool.and_eq_true, beq_iff_eq] at hit
  exact other hit.1.1

/-- Publishing leaves the cursors alone. -/
theorem Fired.publish {db'' : Db} (fired : Fired t cursor runAt next db db')
    (later : Fires (fun run => run = (t.backendAlias, t.key, runAt) ∧ ¬ db.hasRun run) db' db'')
    (tasks : db''.recurringTasks = db'.recurringTasks) : Fired t cursor runAt next db db'' := by
  rcases fired with ⟨fires, others, passed, reserved⟩
  unfold KeepsTasksBut at others
  rw [← tasks] at others passed reserved
  exact ⟨fires.trans later, others, passed, fun due => (reserved due).imp_left later.hasRun⟩

theorem fired_of_reserves
    (mem : t.moved cursor ∈ db.recurringTasks.rows)
    (own : t.backendAlias = env.config.backendAlias) {intended : JobId} {x : Option Reservation}
    (reserves : Reserves env db (t.moved cursor) runAt next intended x db') :
    Fired t cursor runAt next db db' := by
  cases reserves with
  | passed ahead =>
      have ahead : cursor.any (fun n => runAt < n) = true := ahead
      refine ⟨Fires.refl db, fun t' there _ => there, fun _ => mem, ?_⟩
      intro due
      rw [ahead] at due
      cases due
  | @reserved due e db₁ gets =>
      have due : cursor.any (fun n => runAt < n) = false := due
      rcases Fires.of_getsExecution gets with ⟨fires, has, tasks⟩
      have moves : Fires (fun run => run = (t.backendAlias, t.key, runAt) ∧ ¬ db.hasRun run) db₁
          (db₁.advance (t.moved cursor) next) :=
        Fires.of_executions rfl rfl fun good => good.advance _ _
      rw [← own] at has fires
      constructor
      · exact fires.trans moves
      · intro t' there other
        rw [← tasks] at there
        exact keepsTasksBut_advance t' there other
      · intro ahead
        rw [due] at ahead
        cases ahead
      · refine fun _ => ⟨has, fun later => ?_⟩
        rw [← tasks] at mem
        apply List.mem_map.mpr
        refine ⟨_, mem, if_pos ?_⟩
        simp only [RecurringTask.moved, Bool.and_eq_true, BEq.rfl, true_and, Option.all_eq_true,
          decide_eq_true_eq]
        intro n here
        rw [here] at due
        simp only [Option.any_some, decide_eq_false_iff_not, not_lt] at due
        exact lt_of_le_of_lt due later

/-- Reserving a run of a task whose row is there. -/
theorem of_run_reserveRecurringTask_of_mem {w w' : World} {x : Option Reservation}
    (tables : RecurringTables w.db) (mem : t.moved cursor ∈ w.db.recurringTasks.rows)
    (own : t.backendAlias = env.config.backendAlias)
    (run : Runs (reserveRecurringTask env t.id runAt) w x w') :
    (x = none ∧ w'.db = w.db ∧ isRunOf env t.schedule runAt = .ok false) ∨
      ∃ next, isRunOf env t.schedule runAt = .ok true ∧
        env.cron.nextCronRun t.schedule runAt = .ok next ∧
          Reserves env w.db (t.moved cursor) runAt next (w.uuids 0) x w'.db := by
  rcases of_run_reserveRecurringTask run with
    ⟨rfl, same, off⟩ | ⟨task, next, there, id, _, isRun, nextRun, reserves⟩
  · refine .inl ⟨rfl, same, off (t.moved cursor) ?_⟩
    cases found : w.db.recurringTasks.rows.find? (fun t' =>
        t'.id == t.id && t'.backendAlias == env.config.backendAlias) with
    | none =>
        have miss := List.find?_eq_none.mp found _ mem
        simp [RecurringTask.moved, own] at miss
    | some task =>
        have hit := List.find?_some found
        simp only [Bool.and_eq_true, beq_iff_eq] at hit
        exact congrArg some
          (tables.eq_of_taskId (List.mem_of_find?_eq_some found) mem hit.1)
  · have same : task = t.moved cursor := tables.eq_of_taskId there mem id
    subst same
    exact .inr ⟨next, isRun, nextRun, reserves⟩

/-- A firing that returns: its time is no run of the schedule and nothing changed, or it did what
`Fired` says. -/
theorem of_run_fireRecurringTask {w w' : World} {x : Option RecurringExecution}
    (tables : RecurringTables w.db) (mem : t.moved cursor ∈ w.db.recurringTasks.rows)
    (own : t.backendAlias = env.config.backendAlias)
    (run : Runs (fireRecurringTask env t.id runAt) w x w') :
    (isRunOf env t.schedule runAt = .ok false ∧ w'.db = w.db) ∨
      ∃ next, isRunOf env t.schedule runAt = .ok true ∧
        env.cron.nextCronRun t.schedule runAt = .ok next ∧
          Fired t cursor runAt next w.db w'.db := by
  rcases Runs.of_bind run with ⟨o, w₁, reserved, rest⟩
  rcases of_run_reserveRecurringTask_of_mem tables mem own reserved with
    ⟨rfl, same, off⟩ | ⟨next, isRun, nextRun, reserves⟩
  · rcases Runs.of_pure rest with ⟨-, rfl⟩
    exact .inl ⟨off, same⟩
  · have fired := fired_of_reserves mem own reserves
    refine .inr ⟨next, isRun, nextRun, ?_⟩
    cases o with
    | none =>
        rcases Runs.of_pure rest with ⟨-, rfl⟩
        exact fired
    | some r =>
        rcases Fires.of_publishes (fired.fires.tables tables)
          (of_run_publishReservedRecurringTask rest) with ⟨publishes, tasks⟩
        exact fired.publish publishes tasks

end Firing

end DjQueue
