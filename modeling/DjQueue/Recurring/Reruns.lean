import DjQueue.Recurring.Schedulers
import DjQueue.System.Invariants

/-!
# Runs are fired once

A run is fired once as long as one of its two guards stands: its execution row, or the cursor of
its task.  An edit takes the cursor back, and a job that is deleted takes the row with it, so
nothing in the code keeps both from falling at the same time.  The results are that a run is
fired once in every history that never reserves a run with both guards down, and a history of
public operations that does, and fires a run twice.
-/

namespace DjQueue

open Relational

/-! ## Reservations and their rows -/

/-- Where the fields of a reservation come from. -/
structure Issued (e : RecurringExecution) (task : RecurringTask) (r : Reservation) : Prop where
  execution : r.executionId = e.id
  unlinked : e.jobId = none
  intended : e.intendedJobId = some r.intendedJobId
  taskId : r.recurringTaskId = task.id
  key : r.taskKey = task.key
  runAt : r.runAt = e.runAt
  backend : r.backendAlias = task.backendAlias

/-- A reservation issued is one that waits for its publication. -/
theorem issued_of_recurringReservation {e : RecurringExecution} {task : RecurringTask} {next : Time}
    {r : Reservation} (made : recurringReservation e task next = some r) : Issued e task r := by
  unfold recurringReservation at made
  split at made
  · cases made
  · rename_i unlinked
    obtain ⟨intended, here, rfl⟩ := Option.map_eq_some_iff.mp made
    exact ⟨rfl, by simpa using unlinked, here, rfl, rfl, rfl, rfl⟩

/-- The reservation found is that of the run. -/
theorem of_findExecution {db : Db} {backendAlias key : String} {runAt : Time}
    {e : RecurringExecution} (found : db.findExecution backendAlias key runAt = some e) :
    e ∈ db.recurringExecutions.rows ∧ e.run = (backendAlias, key, runAt) := by
  have hit := List.find?_some found
  simp only [Bool.and_eq_true, beq_iff_eq] at hit
  obtain ⟨⟨rfl, rfl⟩, rfl⟩ := hit
  exact ⟨List.mem_of_find?_eq_some found, rfl⟩

/-- Where none is found, none is there. -/
theorem run_ne_of_findExecution_none {db : Db} {backendAlias key : String} {runAt : Time}
    (absent : db.findExecution backendAlias key runAt = none) :
    ∀ e ∈ db.recurringExecutions.rows, e.run ≠ (backendAlias, key, runAt) := by
  intro e mem same
  have miss := List.find?_eq_none.mp absent e mem
  simp only [RecurringExecution.run, Prod.mk.injEq] at same
  simp [same] at miss

/-! ## The jobs a publication creates -/

theorem newJobs_of_ids {db db' : Db} {id : JobId}
    (ids : db'.jobs.map Job.id = db.jobs.map Job.id ++ [id]) (absent : id ∉ db.jobs.map Job.id) :
    newJobs db db' = [id] := by
  have old : (db.jobs.map Job.id).filter (fun i => !(db.jobs.map Job.id).contains i) = [] :=
    newJobs_self db
  unfold newJobs
  rw [ids, List.filter_append, old]
  simpa using absent

/-- Jobs with the same core have the same ids. -/
theorem ids_of_cores {jobs jobs' : List Job} (cores : jobs'.map Job.core = jobs.map Job.core) :
    jobs'.map Job.id = jobs.map Job.id := by
  have ids := congrArg (List.map Job.id) cores
  rwa [List.map_map, List.map_map] at ids

/-- A job found is none created; a job created is the intended one. -/
theorem Enqueues.newJobs_eq {env : Env} {db db' : Db} {r : Reservation} {job : Job}
    (enqueues : Enqueues env db r job db') :
    job.id = r.intendedJobId ∧ (newJobs db db' = [] ∨ newJobs db db' = [r.intendedJobId]) := by
  cases enqueues with
  | found here =>
      exact ⟨(mem_of_findJob here).2, .inl (newJobs_self db)⟩
  | @created w w' call outcome start absent called run =>
      subst start
      obtain ⟨prepared, frame⟩ := frame_of_enqueueJobWithDispatch run
      have id := (submitted_of_prepareSubmission prepared).id
      have ids := ids_of_cores frame.cores
      rw [List.map_append, List.map_singleton, id] at ids
      exact ⟨id, .inr (newJobs_of_ids ids (Accounts.ids_of_findJob_none absent))⟩

/-! ## What the guards protect -/

/-- The rows and reservations of a state agree, and the row of a run that has had its job, if it is
still there, has it.  So no run has had two. -/
structure Schedulers.Consistent (s : Schedulers) : Prop where
  sound : Sound none s.db
  executions : Numbered RecurringExecution.id s.db.recurringExecutions
  runs : (s.db.recurringExecutions.rows.map RecurringExecution.run).Nodup
  issued : ∀ r ∈ s.held, r.executionId < s.db.recurringExecutions.nextId
  rows : ∀ r ∈ s.held, ∀ e ∈ s.db.recurringExecutions.rows, e.id = r.executionId →
    e.run = r.run ∧ e.intendedJobId = some r.intendedJobId
  linked : ∀ e ∈ s.db.recurringExecutions.rows, e.run ∈ s.created.map Prod.fst →
    e.jobId.isSome = true
  once : (s.created.map Prod.fst).Nodup

theorem Schedulers.Starts.consistent {s : Schedulers} (starts : s.Starts) : s.Consistent where
  sound := starts.sound
  executions := starts.executions
  runs := starts.runs
  issued r mem := by rw [starts.held] at mem; cases mem
  rows r mem := by rw [starts.held] at mem; cases mem
  linked e _ had := by rw [starts.created] at had; cases had
  once := by rw [starts.created]; exact List.nodup_nil

namespace Schedulers.Consistent

variable {s : Schedulers} {db' : Db} {env : Env}

/-- Execution rows may go at any time. -/
theorem shrink (core : s.Consistent) (sound : Sound none db')
    (fewer : db'.recurringExecutions.rows.Sublist s.db.recurringExecutions.rows)
    (next : db'.recurringExecutions.nextId = s.db.recurringExecutions.nextId) :
    Consistent { s with db := db' } where
  sound := sound
  executions := ⟨core.executions.ids.sublist (fewer.map _), fun e mem => by
    rw [next]
    exact core.executions.bound e (fewer.subset mem)⟩
  runs := core.runs.sublist (fewer.map _)
  issued r mem := by
    rw [next]
    exact core.issued r mem
  rows r mem e there := core.rows r mem e (fewer.subset there)
  linked e there := core.linked e (fewer.subset there)
  once := core.once

/-- A reservation is handed out for a row that waits for its job. -/
theorem hold (core : s.Consistent) {e : RecurringExecution} {task : RecurringTask} {next : Time}
    (mem : e ∈ s.db.recurringExecutions.rows)
    (run : e.run = (task.backendAlias, task.key, e.runAt)) :
    Consistent { s with held := s.held ++ (recurringReservation e task next).toList } := by
  cases made : recurringReservation e task next with
  | none => simpa using core
  | some r =>
      have issue := issued_of_recurringReservation made
      have sameRun : r.run = e.run := by
        rw [run, Reservation.run, issue.backend, issue.key, issue.runAt]
      refine { core with issued := fun r' mem' => ?_, rows := fun r' mem' e' there same => ?_ }
      · rcases List.mem_append.mp mem' with old | new
        · exact core.issued r' old
        · rw [List.mem_singleton.mp new, issue.execution]
          exact core.executions.bound e mem
      · rcases List.mem_append.mp mem' with old | new
        · exact core.rows r' old e' there same
        · obtain rfl := List.mem_singleton.mp new
          rw [issue.execution] at same
          obtain rfl := List.inj_on_of_nodup_map core.executions.ids there mem same
          exact ⟨sameRun.symm, issue.intended⟩

/-- The row of a run that has had no job. -/
theorem reserve (core : s.Consistent) {backendAlias key : String} {runAt : Time} {intended : JobId}
    (sound : Sound none (s.db.reserveExecution backendAlias key runAt intended))
    (absent : s.db.findExecution backendAlias key runAt = none)
    (new : (backendAlias, key, runAt) ∉ s.created.map Prod.fst) :
    Consistent { s with db := s.db.reserveExecution backendAlias key runAt intended } := by
  have noRow := run_ne_of_findExecution_none absent
  refine {
    sound := sound
    executions := ⟨?_, fun e mem => ?_⟩
    runs := ?_
    issued := fun r mem => Nat.lt_succ_of_lt (core.issued r mem)
    rows := fun r mem e there same => ?_
    linked := fun e there had => ?_
    once := core.once }
  · simp only [Db.reserveExecution, Table.rows_insert, List.map_append, List.map_singleton]
    refine List.nodup_append.mpr ⟨core.executions.ids, List.nodup_singleton _, ?_⟩
    intro i old j here
    obtain ⟨e, mem, rfl⟩ := List.mem_map.mp old
    rw [List.mem_singleton.mp here]
    exact Nat.ne_of_lt (core.executions.bound e mem)
  · rcases List.mem_append.mp mem with old | here
    · exact Nat.lt_succ_of_lt (core.executions.bound e old)
    · rw [List.mem_singleton.mp here]
      exact Nat.lt_succ_self _
  · simp only [Db.reserveExecution, Table.rows_insert, List.map_append, List.map_singleton]
    refine List.nodup_append.mpr ⟨core.runs, List.nodup_singleton _, ?_⟩
    intro i old j here
    obtain ⟨e, mem, rfl⟩ := List.mem_map.mp old
    rw [List.mem_singleton.mp here]
    exact noRow e mem
  · rcases List.mem_append.mp there with old | here
    · exact core.rows r mem e old same
    · rw [List.mem_singleton.mp here] at same
      have below := core.issued r mem
      simp only at same
      omega
  · rcases List.mem_append.mp there with old | here
    · exact core.linked e old had
    · rw [List.mem_singleton.mp here] at had
      exact absurd had new

/-- The row of a reservation gets its job. -/
theorem attach (core : s.Consistent) {r : Reservation} {job : Job} {e : RecurringExecution}
    {new : List (Run × JobId)} (mem : r ∈ s.held) (sound : Sound none (db'.attach env r job))
    (same : db'.recurringExecutions = s.db.recurringExecutions)
    (row : e ∈ s.db.recurringExecutions.rows) (here : attachable env r job e = true)
    (made : new = [] ∨ new = [(r.run, job.id)]) :
    Consistent { s with db := db'.attach env r job, created := s.created ++ new } := by
  have hit := here
  simp only [attachable, Bool.and_eq_true, beq_iff_eq, Option.isNone_iff_eq_none] at hit
  obtain ⟨⟨⟨id, -⟩, unlinked⟩, -⟩ := hit
  have sameRun := (core.rows r mem e row id).1
  have fresh : r.run ∉ s.created.map Prod.fst := fun had => by
    have linked := core.linked e row (sameRun ▸ had)
    rw [unlinked] at linked
    cases linked
  have rows : (db'.attach env r job).recurringExecutions.rows =
      s.db.recurringExecutions.rows.map
        (fun x => if attachable env r job x then { x with jobId := some job.id } else x) := by
    rw [Db.attach, Table.rows_updateWhere, same]
  have kept : ∀ {β : Type} (f : RecurringExecution → β),
      (∀ x, f { x with jobId := some job.id } = f x) →
      (db'.attach env r job).recurringExecutions.rows.map f =
        s.db.recurringExecutions.rows.map f := by
    intro β f agree
    rw [rows, List.map_map]
    refine List.map_congr_left fun x _ => ?_
    simp only [Function.comp_apply]
    split
    · exact agree x
    · rfl
  have old : ∀ x ∈ (db'.attach env r job).recurringExecutions.rows,
      ∃ y ∈ s.db.recurringExecutions.rows, y.id = x.id ∧ y.run = x.run ∧
        y.intendedJobId = x.intendedJobId ∧ (y.jobId.isSome = true → x.jobId.isSome = true) ∧
        (attachable env r job y = true → x.jobId.isSome = true) := by
    intro x there
    rw [rows] at there
    obtain ⟨y, inTable, rfl⟩ := List.mem_map.mp there
    refine ⟨y, inTable, ?_⟩
    split
    · exact ⟨rfl, rfl, rfl, fun _ => rfl, fun _ => rfl⟩
    · rename_i miss
      exact ⟨rfl, rfl, rfl, fun linked => linked, fun hit => absurd hit miss⟩
  have next : (db'.attach env r job).recurringExecutions.nextId =
      s.db.recurringExecutions.nextId := by
    rw [Db.attach, Table.nextId_updateWhere, same]
  refine {
    sound := sound
    executions := ⟨by rw [kept _ fun _ => rfl]; exact core.executions.ids, fun x there => ?_⟩
    runs := by rw [kept _ fun _ => rfl]; exact core.runs
    issued := fun r' mem' => by rw [next]; exact core.issued r' mem'
    rows := fun r' mem' x there sameId => ?_
    linked := fun x there had => ?_
    once := ?_ }
  · obtain ⟨y, inTable, sameId, -⟩ := old x there
    rw [next, ← sameId]
    exact core.executions.bound y inTable
  · obtain ⟨y, inTable, yId, yRun, yIntended, -⟩ := old x there
    rw [← yRun, ← yIntended]
    exact core.rows r' mem' y inTable (yId.trans sameId)
  · obtain ⟨y, inTable, -, yRun, -, stays, gets⟩ := old x there
    rw [List.map_append, List.mem_append] at had
    rcases had with before | now
    · exact stays (core.linked y inTable (yRun ▸ before))
    · have isRun : x.run = r.run := by
        rcases made with rfl | rfl
        · cases now
        · exact List.mem_singleton.mp now
      obtain rfl := List.inj_on_of_nodup_map core.runs inTable row
        (yRun.trans (isRun.trans sameRun.symm))
      exact gets here
  · rcases made with rfl | rfl
    · rw [List.append_nil]
      exact core.once
    · rw [List.map_append, List.map_singleton]
      refine List.nodup_append.mpr ⟨core.once, List.nodup_singleton _, ?_⟩
      rintro x had y now rfl
      rw [List.mem_singleton.mp now] at had
      exact fresh had

/-- A publication, whether the jobs it creates are recorded or not. -/
theorem publish (core : s.Consistent) {r : Reservation} (mem : r ∈ s.held)
    (own : env.config.backendAlias = r.backendAlias) (publishes : Publishes env s.db r db')
    {new : List (Run × JobId)}
    (made : new = [] ∨ new = (newJobs s.db db').map (fun id => (r.run, id))) :
    Consistent { s with db := db', created := s.created ++ new } := by
  have kept := (publishes.keeps core.sound (by rintro r call job - - t ⟨⟩) own.symm).sound
  cases publishes with
  | idle =>
      rw [newJobs_self] at made
      rcases made with rfl | rfl <;> simpa using core
  | @attached job db₁ e row _ enqueues here _ =>
      rcases enqueues.newJobs_eq with ⟨id, one⟩
      refine core.attach mem kept (executions_of_enqueues enqueues) row here ?_
      rw [id]
      rcases made with rfl | rfl
      · exact .inl rfl
      · rcases one with none | one
        · exact .inl (by rw [show newJobs s.db (db₁.attach env r job) = [] from none]; rfl)
        · exact .inr (by rw [show newJobs s.db (db₁.attach env r job) = _ from one]; rfl)
  | attachedOther row unlinked row' same linked =>
      have equal := List.inj_on_of_nodup_map core.executions.ids row' row same
      rw [equal, unlinked] at linked
      cases linked

end Schedulers.Consistent

/-! ## Steps -/

/-- A run that has had its job is only reserved while one of its guards stands: the cursor of the task
lies past it, or its execution row is there. -/
def Action.Guarded (s : Schedulers) (env : Env) : Action → Prop
  | .reserve taskId runAt =>
      ∀ task ∈ s.db.recurringTasks.rows, task.id = taskId →
        task.backendAlias = env.config.backendAlias →
        (task.backendAlias, task.key, runAt) ∈ s.created.map Prod.fst →
        task.nextRunAt.any (fun n => runAt < n) = true ∨
          (s.db.findExecution task.backendAlias task.key runAt).isSome = true
  | _ => True

section Steps

variable {s : Schedulers} {env : Env} {clock : Nat → Time} {uuids : Nat → JobId}

theorem consistent_of_reserve (core : s.Consistent) {taskId : Nat} {runAt : Time}
    (guarded : Action.Guarded s env (.reserve taskId runAt)) :
    (s.step env clock uuids (.reserve taskId runAt)).Consistent := by
  rcases step_reserve (s := s) taskId runAt with
    same | ⟨task, next, x, db', mem, id, own, -, -, reserves, after⟩
  · rw [same]
    exact core
  · rw [after]
    have kept := (reserves.keeps own core.sound).sound
    have runOf : ∀ {e : RecurringExecution} {db : Db},
        db.findExecution env.config.backendAlias task.key runAt = some e →
        e ∈ db.recurringExecutions.rows ∧ e.run = (task.backendAlias, task.key, e.runAt) := by
      intro e db found
      obtain ⟨there, run⟩ := of_findExecution found
      obtain rfl : e.runAt = runAt := congrArg (fun r => r.2.2) run
      exact ⟨there, run.trans (by rw [own])⟩
    cases reserves with
    | passed =>
        cases found : s.db.findExecution env.config.backendAlias task.key runAt with
        | none => simpa using core
        | some e => exact core.hold (runOf found).1 (runOf found).2
    | reserved due gets =>
        cases gets with
        | found here =>
            have moved := core.shrink kept (List.Sublist.refl _) rfl
            exact moved.hold (runOf here).1 (runOf here).2
        | created absent =>
            have new : (env.config.backendAlias, task.key, runAt) ∉ s.created.map Prod.fst := by
              intro had
              rcases guarded task mem id own (own ▸ had) with ahead | here
              · rw [due] at ahead
                cases ahead
              · rw [own, absent] at here
                cases here
            have reserved := core.reserve
              (core.sound.keeps_reserveExecution task.key runAt (uuids 0)).sound absent new
            have moved := reserved.shrink kept (List.Sublist.refl _) rfl
            refine moved.hold (List.mem_append_right _ (List.mem_singleton_self _)) ?_
            rw [own]
            rfl

theorem consistent_of_publish (core : s.Consistent) {r : Reservation} (mem : r ∈ s.held)
    (own : env.config.backendAlias = r.backendAlias) :
    (s.step env clock uuids (.publish r)).Consistent := by
  rcases step_publish (s := s) r with
    same | ⟨db', publishes, after⟩
  · rw [same]
    exact core
  · rw [after]
    exact core.publish mem own publishes (.inr rfl)

theorem consistent_of_step (core : s.Consistent) {cron : Cron} {a : Action}
    (allowed : a.Allowed cron s env) (guarded : a.Guarded s env) :
    (s.step env clock uuids a).Consistent := by
  cases a with
  | reserve taskId runAt => exact consistent_of_reserve core guarded
  | publish r => exact consistent_of_publish core allowed.1 allowed.2
  | job op =>
      have moves := op.moves (w := ⟨s.db, clock, uuids⟩) core.sound allowed
      obtain ⟨p, trimmed⟩ := moves.executions
      refine core.shrink moves.sound ?_ ?_
      · rw [trimmed]
        exact List.filter_sublist
      · rw [trimmed]
        rfl
  | edit e =>
      have only : TasksOnly env.config.backendAlias s.db _ := e.tasksOnly ⟨s.db, clock, uuids⟩
      have kept := (only.keeps core.sound).sound
      obtain ⟨t, edited, -⟩ := only
      refine core.shrink kept ?_ ?_
      · rw [edited]
      · rw [edited]

end Steps

/-- No run is fired twice in a history that never reserves a run that has had its job while its
row is gone and the cursor of its task does not lie past it. -/
theorem runs_fired_once {cron : Cron} {start s : Schedulers} (starts : start.Starts)
    (run : Schedulers.Reaches cron (fun s env a => a.Guarded s env) start s) :
    (s.created.map Prod.fst).Nodup := by
  have core : s.Consistent := by
    induction run with
    | refl => exact starts.consistent
    | step _ allowed guarded ih => exact consistent_of_step ih allowed guarded
  exact core.once

/-! ## Polls

A poll is nothing but reservations and publications, one transaction each. -/

/-- The tables the session leaves are those of a run of transactions of this scheduler. -/
def Polls {α : Type} (env : Env) (x : Op α) : Prop :=
  Leads (fun _ => True) (fun w w' => ∀ s : Schedulers, s.db = w.db →
    ∃ s', Schedulers.Reaches env.cron (fun _ _ _ => True) s s' ∧ s'.db = w'.db) x

theorem Schedulers.Reaches.trans {cron : Cron} {meets : Schedulers → Env → Action → Prop}
    {s s' s'' : Schedulers} (first : Reaches cron meets s s') (second : Reaches cron meets s' s'') :
    Reaches cron meets s s'' := by
  induction second with
  | refl => exact first
  | step _ allowed met ih => exact .step ih allowed met

namespace Polls

variable {env : Env}

/-- A firing is a reservation and, if one was handed out, its publication. -/
theorem fireRecurringTask (taskId : Nat) (runAt : Time) :
    Polls env (fireRecurringTask env taskId runAt) := by
  intro w _ s same
  have reserved : (s.step env w.clock w.uuids (.reserve taskId runAt)).db =
      (finalState (reserveRecurringTask env taskId runAt) w).db := by
    simp only [Schedulers.step, same]
  have reserve : Schedulers.Reaches env.cron (fun _ _ _ => True) s
      (s.step env w.clock w.uuids (.reserve taskId runAt)) := .step .refl rfl trivial
  have parts : (∃ x, Runs _ w x _ ∧ finalState (DjQueue.fireRecurringTask env taskId runAt) w = _) ∨
      finalState (DjQueue.fireRecurringTask env taskId runAt) w = _ := finalState_bind _ _ w
  rcases parts with ⟨x, run, after⟩ | after
  · rw [after]
    cases x with
    | none => exact ⟨_, reserve, reserved⟩
    | some r =>
        refine ⟨(s.step env w.clock w.uuids (.reserve taskId runAt)).step env
          (finalState (reserveRecurringTask env taskId runAt) w).clock
          (finalState (reserveRecurringTask env taskId runAt) w).uuids (.publish r),
          .step reserve ⟨?_, ?_⟩ trivial, ?_⟩
        · refine List.mem_append_right _ ?_
          have result : returned (reserveRecurringTask env taskId runAt) w = some (some r) := by
            rw [returned, run]
          rw [same]
          simp [result]
        · rcases of_run_reserveRecurringTask run with
            ⟨none, -, -⟩ | ⟨task, next, -, -, own, -, -, reserves⟩
          · cases none
          · exact ((reserves.backend rfl).trans own).symm
        · simp only [Schedulers.step, same]
  · rw [after]
    exact ⟨_, reserve, reserved⟩

/-- A poll of the scheduler is a run of reservations and publications. -/
theorem fireDueRecurringTasks (now : Time) (includeDynamicTasks : Bool) (batchSize : Option Int) :
    Polls env (fireDueRecurringTasks env now includeDynamicTasks batchSize) := by
  have leads : FiringsLead env (fun _ => True) (fun _ => True) (fun db db' =>
      ∀ s : Schedulers, s.db = db → ∃ s',
        Schedulers.Reaches env.cron (fun _ _ _ => True) s s' ∧ s'.db = db') := by
    refine ⟨fun db _ s same => ⟨s, .refl, same⟩, fun _ _ _ one two s same => ?_,
      fun _ _ _ => trivial, fun taskId runAt _ => fireRecurringTask taskId runAt⟩
    obtain ⟨s', run, same'⟩ := one s same
    obtain ⟨s'', run', same''⟩ := two s' same'
    exact ⟨s'', run.trans run', same''⟩
  exact leads.fireDueRecurringTasks (fun _ => trivial) now includeDynamicTasks batchSize

end Polls

/-! ## A run fired twice -/

/-- Every five and every ten minutes, as `dj_queue.cron` reads them. -/
def minutesCron : Cron where
  isValidCron schedule := schedule == "*/5 * * * *" || schedule == "*/10 * * * *"
  nextCronRun schedule t :=
    if schedule == "*/5 * * * *" then .ok ((t / seconds 300 + 1) * seconds 300)
    else .ok ((t / seconds 600 + 1) * seconds 600)
  latestCronRun schedule t :=
    if schedule == "*/5 * * * *" then .ok (t / seconds 300 * seconds 300)
    else .ok (t / seconds 600 * seconds 600)

/-- A process that keeps no finished jobs. -/
def forgetfulEnv : Env where
  config := { family := .sqlite, preserveFinishedJobs := false }
  importString path := .ok (.task ⟨path, "default", 0, none, none, none, none⟩)
  concurrencyKey _ _ := .unset
  cron := minutesCron

/-- The task `sync` under a schedule. -/
def scheduleSync (schedule : String) : Edit :=
  .scheduleRecurringTask "sync" "app.tasks.sync" schedule (some emptyPayload) "default" 0 ""

/-- A step at one second past ten minutes. -/
def Schedulers.act (s : Schedulers) (jobId : JobId) (a : Action) : Schedulers :=
  s.step forgetfulEnv (fun _ => seconds 601) (fun _ => jobId) a

/-- A reservation of the run of minute ten. -/
def tenReservation (executionId : Nat) (jobId : JobId) (nextRunAt : Time) : Reservation where
  executionId := executionId
  intendedJobId := jobId
  recurringTaskId := 1
  taskKey := "sync"
  runAt := seconds 600
  nextRunAt := nextRunAt
  taskPath := "app.tasks.sync"
  payload := emptyPayload
  queueName := "default"
  priority := 0
  backendAlias := "default"

/-- Every five minutes. -/
def scheduledByFive : Schedulers :=
  (Schedulers.mk Db.empty [] []).act 0 (.edit (scheduleSync "*/5 * * * *"))

/-- The run of ten o'clock published under the five-minute schedule. -/
def firedByFive : Schedulers :=
  (scheduledByFive.act 1 (.reserve 1 (seconds 600))).act 1
    (.publish (tenReservation 1 1 (seconds 900)))

/-- The job has run and is deleted; now every ten minutes. -/
def scheduledByTen : Schedulers :=
  ((firedByFive.act 0 (.job (.claimReadyJobs 1 .none none))).act 0
    (.job (.completeClaimedJob (.pk 1) none none))).act 0 (.edit (scheduleSync "*/10 * * * *"))

/-- The same run published again under the schedule of ten minutes. -/
def firedByTen : Schedulers :=
  (scheduledByTen.act 2 (.reserve 1 (seconds 600))).act 2
    (.publish (tenReservation 2 2 (seconds 1200)))

/-- An empty database, and nothing in hand. -/
theorem starts_empty : (Schedulers.mk Db.empty [] []).Starts where
  sound := sound_empty (by rintro t ⟨⟩)
  executions := ⟨List.nodup_nil, fun _ mem => absurd mem List.not_mem_nil⟩
  runs := List.nodup_nil
  taskIds := List.nodup_nil
  taskKeys := List.nodup_nil
  held := rfl
  created := rfl

/-- `s` is reached from the empty database. -/
def Schedulers.FromEmpty (s : Schedulers) : Prop :=
  Schedulers.Reaches minutesCron (fun _ _ _ => True) ⟨Db.empty, [], []⟩ s

theorem Schedulers.FromEmpty.act {s : Schedulers} (run : s.FromEmpty) (jobId : JobId) (a : Action)
    (allowed : a.Allowed minutesCron s forgetfulEnv) : (s.act jobId a).FromEmpty :=
  .step run allowed trivial

/-- The two publications come about from the empty database. -/
theorem fromEmpty_firedByTen : firedByTen.FromEmpty := by
  have scheduled : scheduledByFive.FromEmpty := Schedulers.FromEmpty.act .refl 0 (.edit _) trivial
  have fired : firedByFive.FromEmpty :=
    (scheduled.act 1 (.reserve 1 (seconds 600)) rfl).act 1 (.publish _) ⟨by decide +kernel, rfl⟩
  have claimed := fired.act 0 (.job (.claimReadyJobs 1 .none none)) (by rintro p ⟨⟩)
  have edited : scheduledByTen.FromEmpty :=
    (claimed.act 0 (.job (.completeClaimedJob (.pk 1) none none)) trivial).act 0 (.edit _) trivial
  exact (edited.act 2 (.reserve 1 (seconds 600)) rfl).act 2 (.publish _) ⟨by decide +kernel, rfl⟩

/-- The schedule is edited while the row of the run is there, and the run is polled again. -/
def polledWithRow : Schedulers :=
  (firedByFive.act 0 (.edit (scheduleSync "*/10 * * * *"))).act 2 (.reserve 1 (seconds 600))

/-- Then the job is completed and its row gone, and the run is polled once more. -/
def polledWithCursor : Schedulers :=
  ((polledWithRow.act 0 (.job (.claimReadyJobs 1 .none none))).act 0
    (.job (.completeClaimedJob (.pk 1) none none))).act 3 (.reserve 1 (seconds 600))

/-- The run of minute twenty. -/
def firedTwoRuns : Schedulers :=
  (polledWithCursor.act 4 (.reserve 1 (seconds 1200))).act 4
    (.publish { tenReservation 2 4 (seconds 1800) with runAt := seconds 1200 })

/-- `s` is reached from the empty database, and the guards stood at every reservation. -/
def Schedulers.GuardedFromEmpty (s : Schedulers) : Prop :=
  Schedulers.Reaches minutesCron (fun s env a => a.Guarded s env) ⟨Db.empty, [], []⟩ s

theorem Schedulers.GuardedFromEmpty.act {s : Schedulers} (run : s.GuardedFromEmpty)
    (jobId : JobId) (a : Action) (allowed : a.Allowed minutesCron s forgetfulEnv)
    (guarded : a.Guarded s forgetfulEnv) : (s.act jobId a).GuardedFromEmpty :=
  .step run allowed guarded

/-- The run of minute ten is polled three times: first it has had no job, then its row is there, and
at last the cursor lies past it. -/
theorem runs_fired_once_across_edit :
    firedTwoRuns.created =
        [(("default", "sync", seconds 600), 1), (("default", "sync", seconds 1200), 4)] ∧
      polledWithCursor.db.recurringExecutions.rows = [] ∧
      (firedTwoRuns.created.map Prod.fst).Nodup := by
  refine ⟨by decide +kernel, by decide +kernel, @runs_fired_once minutesCron _ _ starts_empty ?_⟩
  have scheduled : scheduledByFive.GuardedFromEmpty :=
    Schedulers.GuardedFromEmpty.act .refl 0 (.edit (scheduleSync "*/5 * * * *")) trivial trivial
  have reserved : (scheduledByFive.act 1 (.reserve 1 (seconds 600))).GuardedFromEmpty := by
    refine scheduled.act 1 _ rfl fun task _ _ _ had => ?_
    cases had
  have fired : firedByFive.GuardedFromEmpty :=
    reserved.act 1 (.publish _) ⟨by decide +kernel, rfl⟩ trivial
  have edited := fired.act 0 (.edit (scheduleSync "*/10 * * * *")) trivial trivial
  have withRow : polledWithRow.GuardedFromEmpty := by
    refine edited.act 2 _ rfl fun task mem _ _ _ => .inr ?_
    revert task
    decide +kernel
  have claimed := withRow.act 0 (.job (.claimReadyJobs 1 .none none)) (by rintro p ⟨⟩) trivial
  have completed := claimed.act 0 (.job (.completeClaimedJob (.pk 1) none none)) trivial trivial
  have withCursor : polledWithCursor.GuardedFromEmpty := by
    refine completed.act 3 _ rfl fun task mem _ _ _ => .inl ?_
    revert task
    decide +kernel
  have next : (polledWithCursor.act 4 (.reserve 1 (seconds 1200))).GuardedFromEmpty := by
    refine withCursor.act 4 _ rfl fun task mem _ _ had => ?_
    revert task
    decide +kernel
  exact next.act 4 (.publish _) ⟨by decide +kernel, rfl⟩ trivial

/-- The jobs `fire_due_recurring_tasks` fires just after minute ten. -/
def polledAtTen (db : Db) (jobId : JobId) : Option (List JobId) :=
  (returned (fireDueRecurringTasks forgetfulEnv (seconds 601) true (some 500))
    ⟨db, fun _ => seconds 601, fun _ => jobId⟩).map (List.map Job.id)

/-- The edit takes the cursor back and the deleted job has taken its row with it, so the poll after
them fires the run of minute ten once more. -/
theorem run_fired_twice :
    (¬ ∀ (cron : Cron) (start s : Schedulers), start.Starts →
      Schedulers.Reaches cron (fun _ _ _ => True) start s → (s.created.map Prod.fst).Nodup) ∧
    firedByTen.created =
      [(("default", "sync", seconds 600), 1), (("default", "sync", seconds 600), 2)] ∧
    polledAtTen scheduledByFive.db 1 = some [1] ∧ polledAtTen scheduledByTen.db 2 = some [2] := by
  refine ⟨fun always => ?_, by decide +kernel, by decide +kernel, by decide +kernel⟩
  have once := always minutesCron _ _ starts_empty fromEmpty_firedByTen
  revert once
  decide +kernel

end DjQueue
