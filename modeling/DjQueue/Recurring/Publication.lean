import DjQueue.Recurring.Firing

/-!
# Runs are published once

A run of a task whose row nobody edits gets one job at most, however many schedulers reserve and
publish, however long they hold what they reserved, and whichever execution rows go.  Three guards
carry it.  Once a run is reserved, the cursor of its task lies past it; its execution row, while it
is there, is the one that was reserved; and that row says which job it waits for.
-/

namespace DjQueue

open Relational

/-- Backend and key. -/
abbrev TaskName := String × String

/-- The name of a task: its backend and its key. -/
def RecurringTask.name (t : RecurringTask) : TaskName := (t.backendAlias, t.key)

/-- The task a run belongs to. -/
def Run.task (run : Run) : TaskName := (run.1, run.2.1)

/-- The rows that bear a name. -/
def Db.tasksNamed (db : Db) (name : TaskName) : List RecurringTask :=
  db.recurringTasks.rows.filter (fun t => t.name == name)

/-- An edit may change other tasks, and leaves the row of this one as it is. -/
def Action.Spares (name : TaskName) (s : Schedulers) (env : Env) : Action → Prop
  | .edit e => ∀ clock uuids,
      (e.final env ⟨s.db, clock, uuids⟩).db.tasksNamed name = s.db.tasksNamed name
  | _ => True

/-- The state, of the jobs that were created only those for runs of the task. -/
def Schedulers.about (s : Schedulers) (name : TaskName) : Schedulers :=
  { s with created := s.created.filter (fun c => Run.task c.1 == name) }

/-! ## The row of the task -/

section Tasks

variable {cron : Cron} {db : Db} {t task : RecurringTask} {name : TaskName} {runAt next : Time}

/-- The schedule of the task runs at this time, and its cursor lies past it. -/
structure RecurringTask.Passed (cron : Cron) (t : RecurringTask) (runAt : Time) : Prop where
  ahead : t.nextRunAt.any (fun n => runAt < n) = true
  current : cron.latestCronRun t.schedule (runAt + 1) = .ok runAt
  next : ∃ n, cron.nextCronRun t.schedule runAt = .ok n

/-- The rows of a name, by membership. -/
theorem mem_tasksNamed : t ∈ db.tasksNamed name ↔ t ∈ db.recurringTasks.rows ∧ t.name = name := by
  rw [Db.tasksNamed, List.mem_filter, beq_iff_eq]

/-- The row of a task once the cursor of `task` has moved. -/
def RecurringTask.advanced (task : RecurringTask) (next : Time) (t : RecurringTask) :
    RecurringTask :=
  if t.id == task.id && t.backendAlias == task.backendAlias &&
      t.nextRunAt.all (fun n => n < next) then { t with nextRunAt := some next }
  else t

/-- Advancing a cursor changes the rows of a name at that task only. -/
theorem tasksNamed_advance :
    (db.advance task next).tasksNamed name = (db.tasksNamed name).map (task.advanced next) := by
  have rows : (db.advance task next).recurringTasks.rows =
      db.recurringTasks.rows.map (task.advanced next) := rfl
  rw [Db.tasksNamed, rows, List.filter_map, Db.tasksNamed]
  congr 1
  apply List.filter_congr
  intro t _
  rw [Function.comp_apply, RecurringTask.advanced]
  split <;> rfl

/-- A cursor only moves forward. -/
theorem RecurringTask.Passed.advanced (passed : t.Passed cron runAt) :
    (task.advanced next t).Passed cron runAt := by
  unfold RecurringTask.advanced
  split
  · rename_i hit
    refine { passed with ahead := ?_ }
    rcases (Option.any_eq_true _ _).mp passed.ahead with ⟨n, here, ahead⟩
    simp only [Bool.and_eq_true, Option.all_eq_true, decide_eq_true_eq] at hit ahead
    simpa using lt_trans ahead (hit.2 n here)
  · exact passed

/-- A reservation leaves the cursor past its run. -/
theorem passed_of_due (due : task.nextRunAt.any (fun n => runAt < n) = false)
    (current : cron.latestCronRun task.schedule (runAt + 1) = .ok runAt)
    (nextRun : cron.nextCronRun task.schedule runAt = .ok next) (later : runAt < next) :
    (task.advanced next task).Passed cron runAt := by
  have behind : task.nextRunAt.all (fun n => n < next) = true := by
    rw [Option.all_eq_true]
    intro n here
    rw [here] at due
    simp only [Option.any_some, decide_eq_false_iff_not, not_lt] at due
    exact decide_eq_true (lt_of_le_of_lt due later)
  unfold RecurringTask.advanced
  rw [if_pos (by simp [behind])]
  exact ⟨by simpa using later, current, next, nextRun⟩

/-- A run of the schedule is the latest up to itself. -/
theorem latestCronRun_of_isRunOf {env : Env} {schedule : String}
    (isRun : isRunOf env schedule runAt = .ok true) :
    env.cron.latestCronRun schedule (runAt + 1) = .ok runAt := by
  unfold isRunOf at isRun
  cases latest : env.cron.latestCronRun schedule (runAt + 1) with
  | error e =>
      rw [latest] at isRun
      cases isRun
  | ok run =>
      rw [latest] at isRun
      exact congrArg Except.ok (beq_iff_eq.mp (Except.ok.inj isRun))

/-- What the cursor has passed is a run of the schedule. -/
theorem isRunOf_of_passed {env : Env} (passed : t.Passed env.cron runAt) :
    isRunOf env t.schedule runAt = .ok true := by
  unfold isRunOf
  rw [passed.current]
  exact congrArg Except.ok (beq_self_eq_true runAt)

end Tasks

/-! ## What a publication commits -/

section Publications

variable {env : Env} {db db' : Db} {r : Reservation}

/-- The row of the reservation has the job that was intended for it, and the job is there. -/
structure Linked (r : Reservation) (db : Db) : Prop where
  row : ∃ e ∈ db.recurringExecutions.rows, e.id = r.executionId ∧ e.run = r.run ∧
    e.jobId = some r.intendedJobId
  job : r.intendedJobId ∈ db.jobs.map Job.id

/-- The row waits for the job that was intended for it. -/
structure AwaitsJob (r : Reservation) (e : RecurringExecution) : Prop where
  id : e.id = r.executionId
  run : e.run = r.run
  unlinked : e.jobId = none

/-- A job and the link to it are committed together, or neither is. -/
structure Commits (r : Reservation) (db db' : Db) : Prop where
  tasks : db'.recurringTasks = db.recurringTasks
  rows : ∀ e' ∈ db'.recurringExecutions.rows, ∃ e ∈ db.recurringExecutions.rows,
    e.id = e'.id ∧ e.run = e'.run ∧ (e' = e ∨ e.id = r.executionId ∧ e.jobId = none)
  jobs : ∀ id ∈ newJobs db db', id = r.intendedJobId
  together : db' = db ∨ Linked r db'

theorem Enqueues.mem (enqueues : Enqueues env db r job db') : job.id ∈ db'.jobs.map Job.id := by
  cases enqueues with
  | found here => exact List.mem_map_of_mem (mem_of_findJob here).1
  | created _ _ _ run =>
      rcases frame_of_enqueueJobWithDispatch run with ⟨-, frame⟩
      rw [ids_of_cores frame.cores]
      exact List.mem_map_of_mem (List.mem_append_right _ (List.mem_singleton_self _))

/-- Linking changes the reservation of the run alone. -/
theorem mem_attach {job : Job} {e' : RecurringExecution}
    (mem : e' ∈ (db.attach env r job).recurringExecutions.rows) :
    ∃ e ∈ db.recurringExecutions.rows, e.id = e'.id ∧ e.run = e'.run ∧
      (e' = e ∨ e.id = r.executionId ∧ e.jobId = none) := by
  rcases List.mem_map.mp mem with ⟨e, there, rfl⟩
  refine ⟨e, there, ?_⟩
  split
  · rename_i hit
    simp only [attachable, Bool.and_eq_true, beq_iff_eq, Option.isNone_iff_eq_none] at hit
    exact ⟨rfl, rfl, .inr ⟨hit.1.1.1, hit.1.2⟩⟩
  · exact ⟨rfl, rfl, .inl rfl⟩

theorem Commits.refl (r : Reservation) (db : Db) : Commits r db db := by
  refine ⟨rfl, fun e mem => ⟨e, mem, rfl, rfl, .inl rfl⟩, ?_, .inl rfl⟩
  rw [newJobs_self]
  exact fun id mem => absurd mem List.not_mem_nil

/-- A publication finds nothing that waits, or it leaves the row linked. -/
theorem settled_or_linked (ids : (db.recurringExecutions.rows.map RecurringExecution.id).Nodup)
    (own : ∀ e ∈ db.recurringExecutions.rows, e.id = r.executionId → e.run = r.run)
    (publishes : Publishes env db r db') :
    (db' = db ∧ ∀ e, db.recurringExecutions.rows.find? (fun e =>
      e.id == r.executionId && e.backendAlias == env.config.backendAlias) = some e →
        e.jobId.isSome = true) ∨ Linked r db' := by
  cases publishes with
  | idle settled => exact .inl ⟨rfl, settled⟩
  | attachedOther row unlinked row' same linked =>
      have equal := List.inj_on_of_nodup_map ids row' row same
      rw [equal, unlinked] at linked
      cases linked
  | @attached job db₁ e row unlinked enqueues here free =>
      have hit := here
      simp only [attachable, Bool.and_eq_true, beq_iff_eq, Option.isNone_iff_eq_none] at hit
      have intended := enqueues.newJobs_eq.1
      refine .inr ⟨⟨{ e with jobId := some job.id }, ?_, hit.1.1.1, own e row hit.1.1.1, ?_⟩, ?_⟩
      · rw [← executions_of_enqueues enqueues] at row
        apply List.mem_map.mpr
        exact ⟨e, row, if_pos here⟩
      · exact congrArg some intended
      · rw [← intended]
        exact enqueues.mem

/-- The row of the reservation, while it is there, is of its run. -/
theorem commits_of_publishes (ids : (db.recurringExecutions.rows.map RecurringExecution.id).Nodup)
    (own : ∀ e ∈ db.recurringExecutions.rows, e.id = r.executionId → e.run = r.run)
    (publishes : Publishes env db r db') : Commits r db db' := by
  have together := (settled_or_linked ids own publishes).imp_left And.left
  cases publishes with
  | idle => exact Commits.refl r db
  | attachedOther row unlinked row' same linked =>
      have equal := List.inj_on_of_nodup_map ids row' row same
      rw [equal, unlinked] at linked
      cases linked
  | @attached job db₁ e row unlinked enqueues here free =>
      have tasks : db₁.recurringTasks = db.recurringTasks := tasks_of_enqueues enqueues
      refine ⟨tasks, ?_, ?_, together⟩
      · intro e' mem
        rw [← executions_of_enqueues enqueues]
        exact mem_attach mem
      · intro id mem
        have mem : id ∈ newJobs db db₁ := mem
        rcases enqueues.newJobs_eq with ⟨-, none | one⟩
        · rw [none] at mem
          cases mem
        · rw [one] at mem
          exact List.mem_singleton.mp mem

/-- Publishing what waits leaves it linked. -/
theorem linked_of_run_publish {w w' : World} {x : Option RecurringExecution}
    (ids : (w.db.recurringExecutions.rows.map RecurringExecution.id).Nodup)
    {e : RecurringExecution} (mem : e ∈ w.db.recurringExecutions.rows) (waits : AwaitsJob r e)
    (own : env.config.backendAlias = r.backendAlias)
    (run : Runs (publishReservedRecurringTask env r) w x w') : Linked r w'.db := by
  have only {e' : RecurringExecution} (there : e' ∈ w.db.recurringExecutions.rows)
      (id : e'.id = r.executionId) : e' = e :=
    List.inj_on_of_nodup_map ids there mem (id.trans waits.id.symm)
  rcases settled_or_linked ids (fun e' there id => only there id ▸ waits.run)
    (of_run_publishReservedRecurringTask run) with ⟨-, settled⟩ | linked
  · -- the row would have been found
    cases found : w.db.recurringExecutions.rows.find? (fun e =>
        e.id == r.executionId && e.backendAlias == env.config.backendAlias) with
    | none =>
        have backend : e.backendAlias = r.backendAlias := congrArg Prod.fst waits.run
        have miss := List.find?_eq_none.mp found e mem
        simp [waits.id, backend, own] at miss
    | some e' =>
        have linked := settled e' found
        have hit := List.find?_some found
        rw [Bool.and_eq_true, beq_iff_eq] at hit
        rw [only (List.mem_of_find?_eq_some found) hit.1, waits.unlinked] at linked
        cases linked
  · exact linked

end Publications

/-! ## What holds at any time -/

/-- What the three guards say about the runs of one task. -/
structure Schedulers.Guards (cron : Cron) (name : TaskName) (s : Schedulers) : Prop where
  consistent : (s.about name).Consistent
  alone : ∀ t ∈ s.db.tasksNamed name, ∀ t' ∈ s.db.tasksNamed name, t = t'
  past : ∀ r ∈ s.held, r.run.task = name →
    ∃ t ∈ s.db.tasksNamed name, t.Passed cron r.runAt
  row : ∀ r ∈ s.held, r.run.task = name → ∀ e ∈ s.db.recurringExecutions.rows,
    e.run = r.run → e.id = r.executionId
  agree : ∀ r ∈ s.held, r.run.task = name → ∀ r' ∈ s.held, r'.run = r.run →
    r'.intendedJobId = r.intendedJobId
  source : ∀ c ∈ s.created, Run.task c.1 = name →
    ∃ r ∈ s.held, r.run = c.1 ∧ r.intendedJobId = c.2

theorem Schedulers.Starts.guards {s : Schedulers} (starts : s.Starts) (cron : Cron)
    (name : TaskName) : s.Guards cron name := by
  have about : (s.about name).Starts := by
    refine { starts with created := ?_ }
    rw [Schedulers.about, starts.created]
    rfl
  refine { consistent := about.consistent, alone := ?_, past := ?_, row := ?_, agree := ?_,
           source := ?_ }
  · intro t mem t' mem'
    rcases mem_tasksNamed.mp mem with ⟨there, named⟩
    rcases mem_tasksNamed.mp mem' with ⟨there', named'⟩
    exact List.inj_on_of_nodup_map starts.taskKeys there there' (named.trans named'.symm)
  · intro r mem
    rw [starts.held] at mem
    cases mem
  · intro r mem
    rw [starts.held] at mem
    cases mem
  · intro r mem
    rw [starts.held] at mem
    cases mem
  · intro c mem
    rw [starts.created] at mem
    cases mem

namespace Schedulers.Guards

variable {cron : Cron} {name : TaskName} {s : Schedulers} {env : Env} {db' : Db}

/-- Rows may go or get their jobs, and jobs may be created for reservations that are out. -/
theorem keep (guards : s.Guards cron name) (new : List (Run × JobId))
    (consistent : (Schedulers.about { s with db := db', created := s.created ++ new }
      name).Consistent)
    (tasks : db'.tasksNamed name = s.db.tasksNamed name)
    (rows : ∀ e' ∈ db'.recurringExecutions.rows, ∃ e ∈ s.db.recurringExecutions.rows,
      e.id = e'.id ∧ e.run = e'.run)
    (source : ∀ c ∈ new, ∃ r ∈ s.held, r.run = c.1 ∧ r.intendedJobId = c.2) :
    Guards cron name { s with db := db', created := s.created ++ new } := by
  refine { consistent := consistent, alone := ?_, past := ?_, row := ?_, agree := guards.agree,
           source := ?_ }
  · rw [tasks]
    exact guards.alone
  · rw [tasks]
    exact guards.past
  · intro r mem own e' there same
    rcases rows e' there with ⟨e, inTable, id, run⟩
    rw [← id]
    exact guards.row r mem own e inTable (run.trans same)
  · intro c mem own
    rcases List.mem_append.mp mem with old | new
    · exact guards.source c old own
    · exact source c new

/-- The cursor of some task moves forward. -/
theorem advance (guards : s.Guards cron name) {task : RecurringTask} {next : Time}
    (own : task.backendAlias = env.config.backendAlias) :
    Guards cron name { s with db := s.db.advance task next } := by
  have sound : Sound none (s.db.advance task next) :=
    (guards.consistent.sound.keeps_advance own).sound
  refine { guards with consistent := ?_, alone := ?_, past := ?_ }
  · exact guards.consistent.shrink sound (List.Sublist.refl _) rfl
  · intro t mem t' mem'
    rw [tasksNamed_advance] at mem mem'
    rcases List.mem_map.mp mem with ⟨u, there, rfl⟩
    rcases List.mem_map.mp mem' with ⟨u', there', rfl⟩
    rw [guards.alone u there u' there']
  · intro r mem named
    rcases guards.past r mem named with ⟨t, there, passed⟩
    rw [tasksNamed_advance]
    exact ⟨_, List.mem_map_of_mem there, passed.advanced⟩

/-- The row of a run that nobody has reserved. -/
theorem newRow (guards : s.Guards cron name) {key : String} {runAt : Time} (intended : JobId)
    (absent : s.db.findExecution env.config.backendAlias key runAt = none)
    (free : ∀ r ∈ s.held, r.run.task = name → r.run ≠ (env.config.backendAlias, key, runAt)) :
    Guards cron name
      { s with db := s.db.reserveExecution env.config.backendAlias key runAt intended } := by
  refine { guards with consistent := ?_, row := ?_ }
  · have sound : Sound none (s.db.reserveExecution env.config.backendAlias key runAt intended) :=
      (guards.consistent.sound.keeps_reserveExecution key runAt intended).sound
    refine guards.consistent.reserve sound absent fun had => ?_
    rcases List.mem_map.mp had with ⟨c, mem, same⟩
    rcases List.mem_filter.mp mem with ⟨there, named⟩
    have named := beq_iff_eq.mp named
    rcases guards.source c there named with ⟨r, held, run, -⟩
    exact free r held (run ▸ named) (run.trans same)
  · intro r mem named e there same
    rcases List.mem_append.mp there with old | new
    · exact guards.row r mem named e old same
    · rw [List.mem_singleton.mp new] at same
      exact absurd same.symm (free r mem named)

/-- A reservation is handed out for a row that waits for its job. -/
theorem hold (guards : s.Guards cron name) {e : RecurringExecution} {task : RecurringTask}
    {next : Time} (mem : e ∈ s.db.recurringExecutions.rows)
    (run : e.run = (task.backendAlias, task.key, e.runAt))
    (passed : task.name = name → ∃ t ∈ s.db.tasksNamed name, t.Passed cron e.runAt) :
    Guards cron name { s with held := s.held ++ (recurringReservation e task next).toList } := by
  have consistent : Schedulers.Consistent { s.about name with
      held := s.held ++ (recurringReservation e task next).toList } :=
    guards.consistent.hold mem run
  cases made : recurringReservation e task next with
  | none => simpa using guards
  | some r =>
      rw [made] at consistent
      have issue := issued_of_recurringReservation made
      have sameRun : r.run = e.run := by
        rw [run, Reservation.run, issue.backend, issue.key, issue.runAt]
      have newest {r' : Reservation} (mem' : r' ∈ s.held ++ (some r).toList) :
          r' ∈ s.held ∨ r' = r := by
        rcases List.mem_append.mp mem' with old | new
        · exact .inl old
        · exact .inr (List.mem_singleton.mp new)
      -- an older reservation of the run is one of this row
      have older (r' : Reservation) (old : r' ∈ s.held) (named : r'.run.task = name)
          (same : r'.run = r.run) : r'.intendedJobId = r.intendedJobId := by
        have id := guards.row r' old named e mem (sameRun.symm.trans same.symm)
        have intended := (guards.consistent.rows r' old e mem id).2
        exact Option.some.inj (intended.symm.trans issue.intended)
      refine { consistent := consistent, alone := guards.alone, past := ?_, row := ?_,
               agree := ?_, source := ?_ }
      · intro r' mem' named
        rcases newest mem' with old | rfl
        · exact guards.past r' old named
        · rw [issue.runAt]
          apply passed
          rw [sameRun, run] at named
          exact named
      · intro r' mem' named e' there same
        rcases newest mem' with old | rfl
        · exact guards.row r' old named e' there same
        · rw [issue.execution]
          exact congrArg RecurringExecution.id
            (List.inj_on_of_nodup_map guards.consistent.runs there mem (same.trans sameRun))
      · intro r₁ mem₁ named r₂ mem₂ same
        rcases newest mem₁ with old₁ | rfl <;> rcases newest mem₂ with old₂ | rfl
        · exact guards.agree r₁ old₁ named r₂ old₂ same
        · exact (older r₁ old₁ named same.symm).symm
        · exact older r₂ old₂ (same.symm ▸ named) same
        · rfl
      · intro c there named
        rcases guards.source c there named with ⟨r', old, from_⟩
        exact ⟨r', List.mem_append_left _ old, from_⟩

end Schedulers.Guards

/-! ## Steps -/

section Steps

variable {cron : Cron} {name : TaskName} {s : Schedulers} {env : Env} {clock : Nat → Time}
  {uuids : Nat → JobId}

/-- Reserving keeps the guards: the cursor moves beyond what is reserved. -/
theorem guards_of_reserve (guards : s.Guards cron name) (same : env.cron = cron)
    (later : ∀ {schedule t n}, cron.nextCronRun schedule t = .ok n → t < n) (taskId : Nat)
    (runAt : Time) : (s.step env clock uuids (.reserve taskId runAt)).Guards cron name := by
  subst same
  rcases step_reserve (s := s) taskId runAt with
    idle | ⟨task, next, x, db', mem, -, own, isRun, nextRun, reserves, after⟩
  · rw [idle]
    exact guards
  · rw [after]
    have current := latestCronRun_of_isRunOf isRun
    have runOf {e : RecurringExecution} {db : Db}
        (found : db.findExecution env.config.backendAlias task.key runAt = some e) :
        e ∈ db.recurringExecutions.rows ∧ e.runAt = runAt ∧
          e.run = (task.backendAlias, task.key, e.runAt) := by
      rcases of_findExecution found with ⟨there, run⟩
      have time : e.runAt = runAt := congrArg (fun r => r.2.2) run
      exact ⟨there, time, by rw [run, own, time]⟩
    cases reserves with
    | passed ahead =>
        cases found : s.db.findExecution env.config.backendAlias task.key runAt with
        | none => simpa using guards
        | some e =>
            rcases runOf found with ⟨there, rfl, run⟩
            exact guards.hold there run fun named =>
              ⟨task, mem_tasksNamed.mpr ⟨mem, named⟩, ahead, current, next, nextRun⟩
    | reserved due gets =>
        have passed (db : Db) (there : task ∈ db.recurringTasks.rows) (named : task.name = name) :
            ∃ t ∈ (db.advance task next).tasksNamed name, t.Passed env.cron runAt := by
          rw [tasksNamed_advance]
          exact ⟨_, List.mem_map_of_mem (mem_tasksNamed.mpr ⟨there, named⟩),
            passed_of_due due current nextRun (later nextRun)⟩
        cases gets with
        | found here =>
            have moved : Schedulers.Guards env.cron name { s with db := s.db.advance task next } :=
              guards.advance own
            rcases runOf here with ⟨there, rfl, run⟩
            exact moved.hold there run (passed _ mem)
        | created absent =>
            -- the cursor has not passed the run, so it was never reserved
            have free (r : Reservation) (held : r ∈ s.held) (named : r.run.task = name) :
                r.run ≠ (env.config.backendAlias, task.key, runAt) := by
              intro run
              rcases guards.past r held named with ⟨t, there, passed⟩
              have sameName : task.name = name := by
                rw [← named, run, RecurringTask.name, own]
                rfl
              have sameTime : r.runAt = runAt := congrArg (fun x => x.2.2) run
              have ahead := passed.ahead
              rw [guards.alone t there task (mem_tasksNamed.mpr ⟨mem, sameName⟩), sameTime, due]
                at ahead
              cases ahead
            have reserved := guards.newRow (uuids 0) absent free
            have moved : Schedulers.Guards env.cron name { s with
                db := (s.db.reserveExecution env.config.backendAlias task.key runAt
                  (uuids 0)).advance task next } := reserved.advance own
            refine moved.hold (List.mem_append_right _ (List.mem_singleton_self _)) ?_
              (passed _ mem)
            rw [own]
            rfl

/-- Publishing keeps them: a run is linked to the job it was reserved for. -/
theorem guards_of_publish (guards : s.Guards cron name) {r : Reservation} (mem : r ∈ s.held)
    (own : env.config.backendAlias = r.backendAlias) :
    (s.step env clock uuids (.publish r)).Guards cron name := by
  rcases step_publish (s := s) r with idle | ⟨db', publishes, after⟩
  · rw [idle]
    exact guards
  · rw [after]
    have commits := commits_of_publishes guards.consistent.executions.ids
      (fun e there id => (guards.consistent.rows r mem e there id).1) publishes
    refine guards.keep _ ?_ ?_ ?_ ?_
    · have made : ((newJobs s.db db').map (fun id => (r.run, id))).filter
            (fun c => Run.task c.1 == name) = [] ∨
          ((newJobs s.db db').map (fun id => (r.run, id))).filter
            (fun c => Run.task c.1 == name) =
            (newJobs s.db db').map (fun id => (r.run, id)) := by
        by_cases named : r.run.task = name
        · right
          apply List.filter_eq_self.mpr
          intro c mem
          rcases List.mem_map.mp mem with ⟨id, -, rfl⟩
          exact beq_iff_eq.mpr named
        · left
          apply List.filter_eq_nil_iff.mpr
          intro c mem
          rcases List.mem_map.mp mem with ⟨id, -, rfl⟩
          rw [beq_iff_eq]
          exact named
      have consistent := guards.consistent.publish mem own publishes made
      unfold Schedulers.about at consistent ⊢
      rw [List.filter_append]
      exact consistent
    · rw [Db.tasksNamed, commits.tasks]
      rfl
    · intro e' there
      rcases commits.rows e' there with ⟨e, inTable, id, run, -⟩
      exact ⟨e, inTable, id, run⟩
    · intro c mem'
      rcases List.mem_map.mp mem' with ⟨id, new, rfl⟩
      exact ⟨r, mem, rfl, (commits.jobs id new).symm⟩

/-- Execution rows may go, and other tasks may change. -/
theorem Schedulers.Guards.shrink (guards : s.Guards cron name) {db' : Db} (sound : Sound none db')
    (tasks : db'.tasksNamed name = s.db.tasksNamed name)
    (fewer : db'.recurringExecutions.rows.Sublist s.db.recurringExecutions.rows)
    (next : db'.recurringExecutions.nextId = s.db.recurringExecutions.nextId) :
    Schedulers.Guards cron name { s with db := db' } := by
  have kept := guards.consistent.shrink sound fewer next
  have all : Schedulers.Guards cron name { s with db := db', created := s.created ++ [] } := by
    refine guards.keep [] ?_ tasks ?_ ?_
    · rw [List.append_nil]
      exact kept
    · exact fun e there => ⟨e, fewer.subset there, rfl, rfl⟩
    · exact fun c mem => absurd mem List.not_mem_nil
  rwa [List.append_nil] at all

theorem guards_of_step (guards : s.Guards cron name) {a : Action} (allowed : a.Allowed cron s env)
    (later : ∀ {schedule t n}, cron.nextCronRun schedule t = .ok n → t < n)
    (spares : a.Spares name s env) : (s.step env clock uuids a).Guards cron name := by
  cases a with
  | reserve taskId runAt => exact guards_of_reserve guards allowed later taskId runAt
  | publish r => exact guards_of_publish guards allowed.1 allowed.2
  | job op =>
      have moves := op.moves (w := ⟨s.db, clock, uuids⟩) guards.consistent.sound allowed
      rcases moves.executions with ⟨p, trimmed⟩
      refine guards.shrink moves.sound ?_ ?_ ?_
      · rw [Db.tasksNamed, moves.tasks, Db.tasksNamed]
      · rw [trimmed]
        exact List.filter_sublist
      · rw [trimmed]
        rfl
  | edit e =>
      have only : TasksOnly env.config.backendAlias s.db _ := e.tasksOnly ⟨s.db, clock, uuids⟩
      have kept := (only.keeps guards.consistent.sound).sound
      rcases only with ⟨t, edited, -⟩
      refine guards.shrink kept (spares clock uuids) ?_ ?_
      · rw [edited]
      · rw [edited]

end Steps

/-! ## What waits is published by the next firing -/

section Firing

variable {cron : Cron} {name : TaskName} {s : Schedulers} {env : Env} {w w' : World}
  {r : Reservation} {e : RecurringExecution}

/-- Reserving the run again changes nothing and hands out the same row and the same job. -/
theorem reserves_again (guards : s.Guards cron name) (at_ : w.db = s.db) (same : env.cron = cron)
    (held : r ∈ s.held) (named : r.run.task = name)
    (mem : e ∈ s.db.recurringExecutions.rows) (waits : AwaitsJob r e)
    (own : env.config.backendAlias = r.backendAlias) {taskId : Nat} {task : RecurringTask}
    (locked : s.db.lockedTask taskId r.backendAlias = some task) (key : task.key = r.taskKey)
    {x : Option Reservation} (run : Runs (reserveRecurringTask env taskId r.runAt) w x w') :
    w'.db = s.db ∧ ∃ r', x = some r' ∧ r'.executionId = r.executionId ∧
      r'.intendedJobId = r.intendedJobId ∧ r'.run = r.run := by
  subst same
  rcases of_lockedTask locked with ⟨there, -, backend⟩
  have taskNamed : task.name = name := by
    rw [← named, RecurringTask.name, backend, key]
    rfl
  have passed : task.Passed env.cron r.runAt := by
    rcases guards.past r held named with ⟨t, inTable, passed⟩
    rwa [guards.alone task (mem_tasksNamed.mpr ⟨there, taskNamed⟩) t inTable]
  have found : s.db.findExecution r.backendAlias r.taskKey r.runAt = some e := by
    cases found : s.db.findExecution r.backendAlias r.taskKey r.runAt with
    | none => exact absurd waits.run (run_ne_of_findExecution_none found e mem)
    | some e' =>
        rcases of_findExecution found with ⟨mem', run'⟩
        exact congrArg some (List.inj_on_of_nodup_map guards.consistent.runs mem' mem
          (run'.trans waits.run.symm))
  have intended := (guards.consistent.rows r held e mem waits.id).2
  rw [← own] at locked found
  rcases of_run_reserveRecurringTask_of_locked run with
    ⟨-, -, missing⟩ | ⟨task', locked', run⟩
  · rw [at_, locked] at missing
    cases missing
  · rw [at_, locked] at locked'
    cases locked'
    rcases of_run_reserveTask run with ⟨-, -, off⟩ | ⟨next, -, -, reserves⟩
    · rw [isRunOf_of_passed passed] at off
      cases off
    · rw [at_] at reserves
      generalize w'.db = db' at reserves ⊢
      cases reserves with
      | reserved due =>
          rw [passed.ahead] at due
          cases due
      | passed ahead =>
          rw [key, found, Option.bind_some, recurringReservation, if_neg (by simp [waits.unlinked]),
            intended]
          refine ⟨rfl, _, rfl, waits.id, rfl, ?_⟩
          have time : e.runAt = r.runAt := congrArg (fun x => x.2.2) waits.run
          rw [Reservation.run, Reservation.run]
          dsimp only
          rw [time, key, backend]

/-- Firing the run again, once both its transactions return. -/
theorem linked_of_run_fire (guards : s.Guards cron name) (at_ : w.db = s.db)
    (same : env.cron = cron) (held : r ∈ s.held) (named : r.run.task = name)
    (mem : e ∈ s.db.recurringExecutions.rows) (waits : AwaitsJob r e)
    (own : env.config.backendAlias = r.backendAlias) {taskId : Nat} {task : RecurringTask}
    (locked : s.db.lockedTask taskId r.backendAlias = some task) (key : task.key = r.taskKey)
    {x : Option RecurringExecution} (run : Runs (fireRecurringTask env taskId r.runAt) w x w') :
    Linked r w'.db := by
  rcases Runs.of_bind run with ⟨o, w₁, reserved, rest⟩
  rcases reserves_again guards at_ same held named mem waits own locked key reserved with
    ⟨still, r', rfl, execution, intended, sameRun⟩
  have waits' : AwaitsJob r' e :=
    ⟨waits.id.trans execution.symm, waits.run.trans sameRun.symm, waits.unlinked⟩
  have own' : env.config.backendAlias = r'.backendAlias := by
    rw [own]
    exact congrArg Prod.fst sameRun.symm
  rw [← still] at mem
  have ids := guards.consistent.executions.ids
  have linked : Linked r' w'.db :=
    linked_of_run_publish (still.symm ▸ ids) mem waits' own' rest
  rcases linked with ⟨⟨e', there, id, run, job⟩, isJob⟩
  exact ⟨⟨e', there, id.trans execution, run.trans sameRun, intended ▸ job⟩, intended ▸ isJob⟩

end Firing

/-! ## Runs -/

/-- The runs of the task `name`, as every interleaving leaves them. -/
structure PublishedOnce (cron : Cron) (name : TaskName) (s : Schedulers) : Prop where
  /-- No run has had two jobs. -/
  once : ((s.created.filter (fun c => Run.task c.1 == name)).map Prod.fst).Nodup
  /-- The job of a run is the one that was reserved for it. -/
  intended : ∀ c ∈ s.created, Run.task c.1 = name →
    (∃ r ∈ s.held, r.run = c.1) ∧ ∀ r ∈ s.held, r.run = c.1 → r.intendedJobId = c.2
  /-- A publication commits a job and the link to it, or neither. -/
  together : ∀ env clock uuids r, (Action.publish r).Allowed cron s env →
    Commits r s.db (s.step env clock uuids (.publish r)).db
  /-- A reservation whose row waits is published by the next firing that returns. -/
  published : ∀ r ∈ s.held, r.run.task = name →
    ∀ e ∈ s.db.recurringExecutions.rows, e.id = r.executionId → e.jobId = none →
    ∀ env w, env.cron = cron → env.config.backendAlias = r.backendAlias → w.db = s.db →
      (∀ x w', Runs (publishReservedRecurringTask env r) w x w' → Linked r w'.db) ∧
      ∀ taskId task, s.db.lockedTask taskId r.backendAlias = some task → task.key = r.taskKey →
        (∀ x w', Runs (reserveRecurringTask env taskId r.runAt) w x w' →
          w'.db = s.db ∧ ∃ r', x = some r' ∧ r'.executionId = r.executionId ∧
            r'.intendedJobId = r.intendedJobId ∧ r'.run = r.run) ∧
        ∀ x w', Runs (fireRecurringTask env taskId r.runAt) w x w' → Linked r w'.db

/-- Under the guards each run has been published once at most. -/
theorem Schedulers.Guards.publishedOnce {cron : Cron} {name : TaskName} {s : Schedulers}
    (guards : s.Guards cron name) : PublishedOnce cron name s := by
  have rows := guards.consistent.rows
  have ids := guards.consistent.executions.ids
  refine ⟨guards.consistent.once, ?_, ?_, ?_⟩
  · intro c mem named
    rcases guards.source c mem named with ⟨r, held, run, job⟩
    refine ⟨⟨r, held, run⟩, fun r' held' run' => ?_⟩
    rw [← job]
    exact guards.agree r held (run ▸ named) r' held' (run'.trans run.symm)
  · rintro env clock uuids r ⟨held, own⟩
    rcases step_publish (s := s) r with idle | ⟨db', publishes, after⟩
    · rw [idle]
      exact Commits.refl r s.db
    · rw [after]
      exact commits_of_publishes ids (fun e there id => (rows r held e there id).1) publishes
  · intro r held named e mem id unlinked env w same own at_
    have waits : AwaitsJob r e := ⟨id, (rows r held e mem id).1, unlinked⟩
    refine ⟨fun x w' run => ?_, fun taskId task locked key =>
      ⟨fun x w' run => ?_, fun x w' run => ?_⟩⟩
    · rw [← at_] at mem
      exact linked_of_run_publish (at_.symm ▸ ids) mem waits own run
    · exact reserves_again guards at_ same held named mem waits own locked key run
    · exact linked_of_run_fire guards at_ same held named mem waits own locked key run

/-- Whatever the schedulers and the jobs do, as long as no edit touches the row of the task. -/
theorem recurring_published_once {p : Crontab.Platform} {name : TaskName} {start s : Schedulers}
    (starts : start.Starts)
    (run : Schedulers.Reaches (crontab p) (fun s env a => a.Spares name s env) start s) :
    PublishedOnce (crontab p) name s := by
  have guards : s.Guards (crontab p) name := by
    induction run with
    | refl => exact starts.guards _ _
    | step _ allowed spares ih => exact guards_of_step ih allowed lt_of_nextCronRun spares
  exact guards.publishedOnce

/-! ## One noon -/

/-- 2026-04-08 12:00 UTC -/
def noon : Time := Crontab.aprilNoon.instant

/-- A backend whose schedules are read by the crontab parser. -/
def noonEnv : Env := { forgetfulEnv with cron := crontab Crontab.plainPlatform }

/-- A task due at noon. -/
def noonTask (id : Nat) : RecurringTask where
  id := id
  backendAlias := "default"
  key := "sync"
  taskPath := "app.tasks.sync"
  payload := none
  schedule := "0 12 * * *"
  queueName := "default"
  priority := 0
  description := ""
  static := false
  nextRunAt := none
  updatedAt := 0

/-- One task, which never ran. -/
def beforeNoon : Schedulers :=
  ⟨{ Db.empty with recurringTasks := Db.empty.recurringTasks.insert noonTask }, [], []⟩

/-- The reservation of noon's run. -/
def noonReservation : Reservation :=
  { tenReservation 1 1 (noon + seconds 86400) with runAt := noon }

/-- Two schedulers reserve the run before either publishes it. -/
def noonContended : Schedulers :=
  (beforeNoon.step noonEnv (fun _ => noon) (fun _ => 1) (.reserve 1 noon)).step noonEnv
    (fun _ => noon + 5) (fun _ => 2) (.reserve 1 noon)

/-- The job published six seconds after noon. -/
def noonPublished : Schedulers :=
  noonContended.step noonEnv (fun _ => noon + 6) (fun _ => 3) (.publish noonReservation)

/-- The job is discarded, and its execution with it. -/
def noonDiscarded : Schedulers :=
  noonPublished.step noonEnv (fun _ => noon + 7) (fun _ => 3)
    (.job (.discardReadyJobsForQueue "default" 500))

/-- The other scheduler comes with its reservation. -/
def noonStale : Schedulers :=
  noonDiscarded.step noonEnv (fun _ => noon + 8) (fun _ => 4) (.publish noonReservation)

theorem starts_beforeNoon : beforeNoon.Starts where
  sound := ((sound_empty (by rintro t ⟨⟩)).keeps_tasks (.insert rfl)).sound
  executions := ⟨List.nodup_nil, fun _ mem => absurd mem List.not_mem_nil⟩
  runs := List.nodup_nil
  taskIds := List.nodup_singleton _
  taskKeys := List.nodup_singleton _
  held := rfl
  created := rfl

/-- The run of noon gets the job that was reserved for it by both, and none when the reservation has
outlived the execution. -/
theorem noon_published_once :
    noonContended.held = [noonReservation, noonReservation] ∧
      noonDiscarded.db.recurringExecutions.rows = [] ∧
      noonStale.created = [(("default", "sync", noon), 1)] ∧
      PublishedOnce (crontab Crontab.plainPlatform) ("default", "sync") noonStale := by
  have held : noonContended.held = [noonReservation, noonReservation] := by decide +kernel
  have stillHeld : noonReservation ∈ noonDiscarded.held := held ▸ List.mem_cons_self
  refine ⟨held, by decide +kernel, by decide +kernel,
    recurring_published_once starts_beforeNoon ?_⟩
  let reaches (s : Schedulers) : Prop := Schedulers.Reaches (crontab Crontab.plainPlatform)
    (fun s env a => a.Spares ("default", "sync") s env) beforeNoon s
  have reserved : reaches noonContended :=
    .step (a := .reserve 1 noon) (.step (a := .reserve 1 noon) .refl rfl trivial) rfl trivial
  have published : reaches noonPublished :=
    .step (a := .publish _) reserved ⟨held ▸ List.mem_cons_self, rfl⟩ trivial
  have discarded : reaches noonDiscarded :=
    .step (a := .job (.discardReadyJobsForQueue _ _)) published trivial trivial
  exact .step (a := .publish _) discarded ⟨stillHeld, rfl⟩ trivial

end DjQueue
