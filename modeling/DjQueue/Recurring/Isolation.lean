import DjQueue.Recurring.Poll

/-!
# Tasks that fail

`fire_due_recurring_tasks` fires one task after the other and catches nothing.  What a task leaves
depends on its own cursor and its own execution rows only, so a task that raises takes nothing from
the others, besides their turn.
-/

namespace DjQueue

open Relational

/-! ## The run of a task -/

/-- What the execution row of a run says.  A blank one has neither a job nor an intended key. -/
inductive RunStatus where
  | absent
  | blank
  | waiting
  | linked
deriving DecidableEq, Repr

/-- What a reservation says of its run. -/
def RecurringExecution.status (e : RecurringExecution) : RunStatus :=
  if e.jobId.isSome then .linked else if e.intendedJobId.isSome then .waiting else .blank

/-- What the table says of a run. -/
def Db.runStatus (db : Db) (run : Run) : RunStatus :=
  ((db.recurringExecutions.rows.find? (fun e => e.run == run)).map RecurringExecution.status).getD
    .absent

/-- What a firing makes of a run; a run the cursor has passed gets no row. -/
def RunStatus.fired (passed : Bool) : RunStatus → RunStatus
  | .absent => if passed then .absent else .linked
  | .waiting => .linked
  | s => s

/-- The cursor once a run is fired: it only moves forward. -/
def cursorPast (cursor : Option Time) (runAt next : Time) : Option Time :=
  if cursor.any (fun n => runAt < n) then cursor
  else if cursor.all (fun n => n < next) then some next
  else cursor

section Status

variable {db db' : Db} {env : Env} {run : Run} {e : RecurringExecution}

/-- The status of a run is that of its reservation. -/
theorem runStatus_of_mem (tables : RecurringTables db)
    (mem : e ∈ db.recurringExecutions.rows) : db.runStatus e.run = e.status := by
  have found : db.recurringExecutions.rows.find? (fun x => x.run == e.run) = some e :=
    find?_of_unique tables.runs mem
  rw [Db.runStatus, found]
  rfl

theorem runStatus_eq_absent : db.runStatus run = .absent ↔ ¬ db.hasRun run := by
  unfold Db.runStatus
  cases found : db.recurringExecutions.rows.find? (fun e => e.run == run) with
  | none =>
      refine ⟨fun _ has => ?_, fun _ => rfl⟩
      rcases List.mem_map.mp has with ⟨e, mem, same⟩
      exact List.find?_eq_none.mp found e mem (beq_iff_eq.mpr same)
  | some e =>
      have hit := List.find?_some found
      have has : db.hasRun run :=
        List.mem_map.mpr ⟨e, List.mem_of_find?_eq_some found, beq_iff_eq.mp hit⟩
      refine ⟨fun absent => ?_, fun none => absurd has none⟩
      simp only [Option.map_some, Option.getD_some, RecurringExecution.status] at absent
      split at absent
      · cases absent
      · split at absent <;> cases absent

theorem runStatus_eq_linked (tables : RecurringTables db) : db.runStatus run = .linked ↔
    ∃ e ∈ db.recurringExecutions.rows, e.run = run ∧ e.jobId.isSome = true := by
  constructor
  · intro linked
    have has : db.hasRun run := by
      by_contra none
      rw [runStatus_eq_absent.mpr none] at linked
      cases linked
    rcases List.mem_map.mp has with ⟨e, mem, rfl⟩
    rw [runStatus_of_mem tables mem, RecurringExecution.status] at linked
    refine ⟨e, mem, rfl, ?_⟩
    by_contra unlinked
    rw [if_neg unlinked] at linked
    split at linked <;> cases linked
  · rintro ⟨e, mem, rfl, linked⟩
    rw [runStatus_of_mem tables mem, RecurringExecution.status, if_pos linked]

/-- The status depends on the reservations only. -/
theorem runStatus_congr (executions : db'.recurringExecutions = db.recurringExecutions) :
    db'.runStatus run = db.runStatus run := by
  rw [Db.runStatus, executions]
  rfl

/-- A new row is the row of its run. -/
theorem runStatus_reserveExecution {backendAlias key : String} {runAt : Time}
    (absent : db.findExecution backendAlias key runAt = none) (intended : JobId) :
    (db.reserveExecution backendAlias key runAt intended).runStatus run =
      if run = (backendAlias, key, runAt) then .waiting else db.runStatus run := by
  unfold Db.runStatus
  rw [Db.reserveExecution, Table.rows_insert, List.find?_append]
  by_cases same : run = (backendAlias, key, runAt)
  · have none : db.recurringExecutions.rows.find? (fun e => e.run == run) = none := by
      apply List.find?_eq_none.mpr
      intro e mem hit
      exact run_ne_of_findExecution_none absent e mem ((beq_iff_eq.mp hit).trans same)
    rw [none, if_pos same, Option.none_or, List.find?_singleton, if_pos (by rw [same]; exact BEq.rfl)]
    rfl
  · have miss : ((backendAlias, key, runAt) == run) = false :=
      beq_eq_false_iff_ne.mpr (Ne.symm same)
    rw [if_neg same, List.find?_singleton, if_neg (by
      rw [RecurringExecution.run, miss]; exact Bool.false_ne_true), Option.or_none]

/-- Linking writes the row of the reservation. -/
theorem runStatus_attach (tables : RecurringTables db) {r : Reservation} {job : Job}
    (mem : e ∈ db.recurringExecutions.rows) (here : attachable env r job e = true) :
    (db.attach env r job).runStatus run = if run = e.run then .linked else db.runStatus run := by
  have only : ∀ x ∈ db.recurringExecutions.rows, attachable env r job x = true → x = e := by
    intro x there hit
    simp only [attachable, Bool.and_eq_true, beq_iff_eq] at hit here
    exact List.inj_on_of_nodup_map tables.executions.ids there mem
      (hit.1.1.1.trans here.1.1.1.symm)
  by_cases has : db.hasRun run
  · rcases List.mem_map.mp has with ⟨x, there, rfl⟩
    have later : (if attachable env r job x then { x with jobId := some job.id } else x) ∈
        (db.attach env r job).recurringExecutions.rows := List.mem_map_of_mem there
    have tables' : RecurringTables (db.attach env r job) := tables.attach r job
    by_cases same : x = e
    · subst same
      rw [if_pos here] at later
      have status := runStatus_of_mem tables' later
      rw [if_pos rfl]
      exact status
    · have out : ¬ attachable env r job x = true := fun hit => same (only x there hit)
      rw [if_neg out] at later
      have apart : x.run ≠ e.run := fun run =>
        same (List.inj_on_of_nodup_map tables.runs there mem run)
      rw [if_neg apart, runStatus_of_mem tables' later, runStatus_of_mem tables there]
  · have apart : run ≠ e.run := by
      rintro rfl
      exact has (List.mem_map_of_mem mem)
    have none : ¬ (db.attach env r job).hasRun run := by
      intro has'
      rcases List.mem_map.mp has' with ⟨x', mem', rfl⟩
      rcases List.mem_map.mp mem' with ⟨x, there, rfl⟩
      apply has
      refine List.mem_map.mpr ⟨x, there, ?_⟩
      split <;> rfl
    rw [if_neg apart, runStatus_eq_absent.mpr has, runStatus_eq_absent.mpr none]

end Status

/-! ## One firing -/

section Firing

variable {db db' : Db} {env : Env} {task : RecurringTask} {runAt next : Time}
  {e : RecurringExecution} {r : Reservation}

/-- What a firing, or the first half of one, does to the tables. -/
structure FiresRun (task : RecurringTask) (runAt next : Time) (db db' : Db) : Prop where
  tables : RecurringTables db'
  tasks : db'.recurringTasks =
    if task.nextRunAt.any (fun n => runAt < n) then db.recurringTasks
    else (db.advance task next).recurringTasks
  others : ∀ run, run ≠ (task.backendAlias, task.key, runAt) →
    db'.runStatus run = db.runStatus run

/-- A reservation not to be published keeps its status. -/
theorem status_of_no_reservation (none : recurringReservation e task next = none) (passed : Bool) :
    e.status.fired passed = e.status := by
  unfold recurringReservation at none
  unfold RecurringExecution.status
  split at none
  · rename_i linked
    rw [if_pos linked]
    rfl
  · rename_i unlinked
    have intended : e.intendedJobId = .none := Option.map_eq_none_iff.mp none
    rw [if_neg unlinked, intended]
    rfl

theorem status_of_issued (issued : Issued e task r) : e.status = .waiting := by
  rw [RecurringExecution.status, issued.unlinked, issued.intended]
  rfl

/-- Getting the reservation keeps the tables, and finds it in them. -/
theorem tables_of_getsExecution {backendAlias key : String} {intended : JobId}
    (tables : RecurringTables db)
    (gets : GetsExecution db backendAlias key runAt intended e db') :
    RecurringTables db' ∧ e ∈ db'.recurringExecutions.rows ∧ e.run = (backendAlias, key, runAt) ∧
      db'.recurringTasks = db.recurringTasks ∧
      ∀ run, run ≠ (backendAlias, key, runAt) → db'.runStatus run = db.runStatus run := by
  cases gets with
  | found here =>
      rcases of_findExecution here with ⟨mem, run⟩
      exact ⟨tables, mem, run, rfl, fun _ _ => rfl⟩
  | created absent =>
      refine ⟨tables.reserveExecution absent intended,
        List.mem_append_right _ (List.mem_singleton_self _), rfl, rfl, fun run other => ?_⟩
      rw [runStatus_reserveExecution absent, if_neg other]

/-- Either no job is needed, and the row says why; or its row waits for one. -/
theorem FiresRun.of_reserves (tables : RecurringTables db)
    (own : task.backendAlias = env.config.backendAlias) {intended : JobId} {x : Option Reservation}
    (reserves : Reserves env db task runAt next intended x db') :
    FiresRun task runAt next db db' ∧
      ((x = none ∧ db'.runStatus (task.backendAlias, task.key, runAt) =
        (db.runStatus (task.backendAlias, task.key, runAt)).fired
          (task.nextRunAt.any (fun n => runAt < n))) ∨
      ∃ r e, x = some r ∧ e ∈ db'.recurringExecutions.rows ∧
        e.run = (task.backendAlias, task.key, runAt) ∧ Issued e task r ∧
        (db.runStatus (task.backendAlias, task.key, runAt)).fired
          (task.nextRunAt.any (fun n => runAt < n)) = .linked) := by
  cases reserves with
  | passed ahead =>
      refine ⟨⟨tables, by rw [if_pos ahead], fun _ _ => rfl⟩, ?_⟩
      rw [ahead, own]
      cases found : db.findExecution env.config.backendAlias task.key runAt with
      | none =>
          have absent : db.runStatus (env.config.backendAlias, task.key, runAt) = .absent := by
            apply runStatus_eq_absent.mpr
            intro has
            rcases List.mem_map.mp has with ⟨e, mem, same⟩
            exact run_ne_of_findExecution_none found e mem same
          rw [absent]
          exact .inl ⟨rfl, rfl⟩
      | some e =>
          rcases of_findExecution found with ⟨mem, run⟩
          rw [← run, runStatus_of_mem tables mem, Option.bind_some]
          cases made : recurringReservation e task next with
          | none => exact .inl ⟨rfl, (status_of_no_reservation made true).symm⟩
          | some r =>
              have issued := issued_of_recurringReservation made
              refine .inr ⟨r, e, rfl, mem, rfl, issued, ?_⟩
              rw [status_of_issued issued]
              rfl
  | @reserved due e db₁ gets =>
      rcases tables_of_getsExecution tables gets with ⟨tables₁, mem, run, tasks, others⟩
      rw [← own] at run others
      have advanced : (db₁.advance task next).recurringTasks =
          (db.advance task next).recurringTasks := by
        rw [Db.advance, Db.advance, tasks]
      have status (run : Run) : (db₁.advance task next).runStatus run = db₁.runStatus run :=
        runStatus_congr rfl
      refine ⟨⟨tables₁.advance task next, ?_, fun run other => ?_⟩, ?_⟩
      · rw [due, advanced]
        rfl
      · rw [status, others run other]
      · rw [due, status, ← run, runStatus_of_mem tables₁ mem]
        cases gets with
        | found here =>
            rw [runStatus_of_mem tables mem]
            cases made : recurringReservation e task next with
            | none => exact .inl ⟨rfl, (status_of_no_reservation made false).symm⟩
            | some r =>
                have issued := issued_of_recurringReservation made
                refine .inr ⟨r, e, rfl, mem, rfl, issued, ?_⟩
                rw [status_of_issued issued]
                rfl
        | created absent =>
            refine .inr ⟨_, _, rfl, mem, rfl, issued_of_recurringReservation rfl, ?_⟩
            have none : db.runStatus (env.config.backendAlias, task.key, runAt) = .absent := by
              apply runStatus_eq_absent.mpr
              intro has
              rcases List.mem_map.mp has with ⟨e, there, same⟩
              exact run_ne_of_findExecution_none absent e there same
            rw [show RecurringExecution.run _ = (env.config.backendAlias, task.key, runAt) from rfl,
              none]
            rfl

/-- Publishing links the row, and no other one. -/
theorem statuses_of_publishes (tables : RecurringTables db)
    (mem : e ∈ db.recurringExecutions.rows) (own : e.backendAlias = env.config.backendAlias)
    (issued : Issued e task r) (publishes : Publishes env db r db') :
    RecurringTables db' ∧ db'.recurringTasks = db.recurringTasks ∧
      ∀ run, db'.runStatus run = if run = e.run then .linked else db.runStatus run := by
  cases publishes with
  | idle settled =>
      cases found : db.recurringExecutions.rows.find? (fun e =>
          e.id == r.executionId && e.backendAlias == env.config.backendAlias) with
      | none =>
          have miss := List.find?_eq_none.mp found e mem
          simp [issued.execution, own] at miss
      | some e' =>
          have hit := List.find?_some found
          simp only [Bool.and_eq_true, beq_iff_eq] at hit
          have same : e' = e := List.inj_on_of_nodup_map tables.executions.ids
            (List.mem_of_find?_eq_some found) mem (hit.1.trans issued.execution)
          have linked := settled e' found
          rw [same, issued.unlinked] at linked
          cases linked
  | attachedOther row unlinked row' same linked enqueues =>
      have equal := List.inj_on_of_nodup_map tables.executions.ids row' row same
      rw [equal, unlinked] at linked
      cases linked
  | @attached job db₁ e' row unlinked enqueues here free =>
      have executions := executions_of_enqueues enqueues
      have tasks := tasks_of_enqueues enqueues
      have tables₁ := tables.congr executions tasks
      have hit := here
      simp only [attachable, Bool.and_eq_true, beq_iff_eq] at hit
      have same : e' = e := List.inj_on_of_nodup_map tables.executions.ids row mem
        (hit.1.1.1.trans issued.execution)
      subst same
      rw [← executions] at row
      refine ⟨tables₁.attach r job, tasks, fun run => ?_⟩
      rw [runStatus_attach tables₁ row here, runStatus_congr executions]

/-- Publishing keeps what reserving did. -/
theorem FiresRun.publish {db'' : Db} (fires : FiresRun task runAt next db db')
    (mem : e ∈ db'.recurringExecutions.rows)
    (run : e.run = (task.backendAlias, task.key, runAt))
    (own : task.backendAlias = env.config.backendAlias) (issued : Issued e task r)
    (publishes : Publishes env db' r db'') :
    FiresRun task runAt next db db'' ∧
      db''.runStatus (task.backendAlias, task.key, runAt) = .linked := by
  have mine : e.backendAlias = env.config.backendAlias :=
    (congrArg Prod.fst run).trans own
  rcases statuses_of_publishes fires.tables mem mine issued publishes with
    ⟨tables, tasks, statuses⟩
  rw [run] at statuses
  refine ⟨⟨tables, tasks.trans fires.tasks, fun run other => ?_⟩, ?_⟩
  · rw [statuses, if_neg other, fires.others run other]
  · rw [statuses, if_pos rfl]

/-- A firing, however it ends, changes nothing or fires a run of the task it is given. -/
theorem firesRun_of_fireRecurringTask (taskId : Nat) (w : World) (tables : RecurringTables w.db) :
    (finalState (fireRecurringTask env taskId runAt) w).db = w.db ∨
      ∃ task next, task ∈ w.db.recurringTasks.rows ∧ task.id = taskId ∧
        FiresRun task runAt next w.db (finalState (fireRecurringTask env taskId runAt) w).db := by
  rcases runs_or_raises (fireRecurringTask env taskId runAt) w with ⟨x, run, -⟩ | ⟨ex, raised, -⟩
  · rcases Runs.of_bind run with ⟨o, w₁, reserved, rest⟩
    rcases of_run_reserveRecurringTask reserved with
      ⟨rfl, same, -⟩ | ⟨task, next, mem, id, own, -, -, reserves⟩
    · exact .inl (by rw [(Runs.of_pure rest).2, same])
    · rcases FiresRun.of_reserves tables own reserves with
        ⟨fires, ⟨rfl, -⟩ | ⟨r, e, rfl, there, run, issued, -⟩⟩
      · rw [(Runs.of_pure rest).2]
        exact .inr ⟨task, next, mem, id, fires⟩
      · exact .inr ⟨task, next, mem, id, (fires.publish there run own issued
          (of_run_publishReservedRecurringTask rest)).1⟩
  · rcases Raises.of_bind raised with first | ⟨o, w₁, reserved, rest⟩
    · exact .inl (RollsBack.atomic _ _ _ _ first)
    · -- the reservation stays
      have back : (finalState (fireRecurringTask env taskId runAt) w).db = w₁.db := by
        cases o with
        | none => cases rest
        | some r => exact RollsBack.atomic _ _ _ _ rest
      rw [back]
      rcases of_run_reserveRecurringTask reserved with
        ⟨-, same, -⟩ | ⟨task, next, mem, id, own, -, -, reserves⟩
      · exact .inl same
      · exact .inr ⟨task, next, mem, id, (FiresRun.of_reserves tables own reserves).1⟩

/-- A firing that returns. -/
theorem status_of_run_fireRecurringTask {t : RecurringTask} {cursor : Option Time} {w w' : World}
    {x : Option RecurringExecution} (tables : RecurringTables w.db)
    (mem : t.moved cursor ∈ w.db.recurringTasks.rows)
    (own : t.backendAlias = env.config.backendAlias)
    (run : Runs (fireRecurringTask env t.id runAt) w x w') :
    (isRunOf env t.schedule runAt = .ok false ∧ w'.db = w.db) ∨
      ∃ next, isRunOf env t.schedule runAt = .ok true ∧
        env.cron.nextCronRun t.schedule runAt = .ok next ∧
        FiresRun (t.moved cursor) runAt next w.db w'.db ∧
        w'.db.runStatus (t.backendAlias, t.key, runAt) =
          (w.db.runStatus (t.backendAlias, t.key, runAt)).fired
            (cursor.any (fun n => runAt < n)) := by
  rcases Runs.of_bind run with ⟨o, w₁, reserved, rest⟩
  rcases of_run_reserveRecurringTask_of_mem tables mem own reserved with
    ⟨rfl, same, off⟩ | ⟨next, isRun, nextRun, reserves⟩
  · exact .inl ⟨off, by rw [(Runs.of_pure rest).2, same]⟩
  · refine .inr ⟨next, isRun, nextRun, ?_⟩
    have own : (t.moved cursor).backendAlias = env.config.backendAlias := own
    rcases FiresRun.of_reserves tables own reserves with
      ⟨fires, ⟨rfl, status⟩ | ⟨r, e, rfl, there, run, issued, becomes⟩⟩
    · rw [(Runs.of_pure rest).2]
      exact ⟨fires, status⟩
    · rcases fires.publish there run own issued (of_run_publishReservedRecurringTask rest) with
        ⟨fires', linked⟩
      exact ⟨fires', linked.trans becomes.symm⟩

end Firing

/-! ## One task among others -/

/-- The row of a task, with its cursor where its own firings left it. -/
structure Stands (t : RecurringTask) (cursor : Option Time) (db : Db) : Prop where
  tables : RecurringTables db
  mem : t.moved cursor ∈ db.recurringTasks.rows

/-- Nothing that the firings of a task look at has changed. -/
structure Undisturbed (t : RecurringTask) (cursor : Option Time) (db db' : Db) : Prop where
  stands : Stands t cursor db'
  status : ∀ runAt, db'.runStatus (t.backendAlias, t.key, runAt) =
    db.runStatus (t.backendAlias, t.key, runAt)

section Task

variable {env : Env} {t task : RecurringTask} {cursor : Option Time} {runAt next now : Time}
  {db db' db'' : Db} {w w' : World}

theorem Undisturbed.refl (stands : Stands t cursor db) : Undisturbed t cursor db db :=
  ⟨stands, fun _ => rfl⟩

/-- Two stretches that leave a task alone. -/
theorem Undisturbed.trans (first : Undisturbed t cursor db db')
    (second : Undisturbed t cursor db' db'') :
    Undisturbed t cursor db db'' :=
  ⟨second.stands, fun runAt => (second.status runAt).trans (first.status runAt)⟩

/-- A firing of another task. -/
theorem Undisturbed.of_firesRun (stands : Stands t cursor db) (mem : task ∈ db.recurringTasks.rows)
    (other : task.id ≠ t.id) (fires : FiresRun task runAt next db db') :
    Undisturbed t cursor db db' := by
  refine ⟨⟨fires.tables, ?_⟩, fun u => fires.others _ ?_⟩
  · rw [fires.tasks]
    split
    · exact stands.mem
    · refine List.mem_map.mpr ⟨_, stands.mem, if_neg ?_⟩
      intro hit
      simp only [Bool.and_eq_true, beq_iff_eq] at hit
      exact other hit.1.1.symm
  · intro same
    have pair : (t.backendAlias, t.key) = (task.backendAlias, task.key) :=
      congrArg (fun r : Run => (r.1, r.2.1)) same
    have equal : t.moved cursor = task :=
      List.inj_on_of_nodup_map stands.tables.taskKeys stands.mem mem pair
    exact other (congrArg RecurringTask.id equal).symm

/-- A firing of the task. -/
theorem FiresRun.stands (stands : Stands t cursor db)
    (fires : FiresRun (t.moved cursor) runAt next db db') :
    Stands t (cursorPast cursor runAt next) db' := by
  refine ⟨fires.tables, ?_⟩
  rw [fires.tasks]
  unfold cursorPast
  have hit : ((t.moved cursor).id == (t.moved cursor).id &&
      (t.moved cursor).backendAlias == (t.moved cursor).backendAlias &&
        (t.moved cursor).nextRunAt.all (fun n => n < next)) =
          cursor.all (fun n => n < next) := by
    simp [RecurringTask.moved]
  by_cases ahead : cursor.any (fun n => runAt < n) = true
  · rw [if_pos ahead, if_pos (show (t.moved cursor).nextRunAt.any _ = true from ahead)]
    exact stands.mem
  · rw [if_neg ahead, if_neg (show ¬ (t.moved cursor).nextRunAt.any _ = true from ahead)]
    apply List.mem_map.mpr
    refine ⟨_, stands.mem, ?_⟩
    by_cases behind : cursor.all (fun n => n < next) = true
    · rw [if_pos behind, if_pos (hit.trans behind)]
      rfl
    · rw [if_neg behind, if_neg fun met => behind (hit.symm.trans met)]

/-- Firings of other tasks leave a task alone. -/
theorem firingsLeaveUndisturbed (env : Env) (t : RecurringTask) (cursor : Option Time) :
    FiringsLead env (fun id => id ≠ t.id) (Stands t cursor) (Undisturbed t cursor) := by
  refine ⟨fun _ => Undisturbed.refl, fun _ _ _ => Undisturbed.trans, fun _ _ same => same.stands,
    fun taskId runAt other w stands => ?_⟩
  rcases firesRun_of_fireRecurringTask taskId w stands.tables with same | ⟨task, next, mem, rfl, fires⟩
  · show Undisturbed t cursor w.db (finalState (fireRecurringTask env taskId runAt) w).db
    rw [same]
    exact Undisturbed.refl stands
  · exact Undisturbed.of_firesRun stands mem other fires

/-! ## What a task gets -/

/-- The cursor once this run is fired, if it is a run of the schedule. -/
def cursorBy (env : Env) (schedule : String) (cursor : Option Time) (runAt : Time) : Option Time :=
  match isRunOf env schedule runAt, env.cron.nextCronRun schedule runAt with
  | .ok true, .ok next => cursorPast cursor runAt next
  | _, _ => cursor

/-- The cursor after the waiting runs. -/
def cursorAfter (env : Env) (schedule : String) (pending : List RecurringExecution)
    (cursor : Option Time) : Option Time :=
  pending.foldl (fun cursor e => cursorBy env schedule cursor e.runAt) cursor

/-- The latest run of a task has no job, and firing the task creates it: the run waits for it, or it
has no row and the runs that wait do not take the cursor past it. -/
def GetsJob (env : Env) (db : Db) (pending : List RecurringExecution) (t : RecurringTask)
    (latest : Time) : Prop :=
  isRunOf env t.schedule latest = .ok true ∧
    (db.runStatus (t.backendAlias, t.key, latest) = .waiting ∨
      db.runStatus (t.backendAlias, t.key, latest) = .absent ∧
        (cursorAfter env t.schedule (pending.filter (fun e => e.taskKey == t.key))
          t.nextRunAt).any (fun n => latest < n) = false)

/-- Firing runs that have their rows. -/
theorem fireRuns_outcome (own : t.backendAlias = env.config.backendAlias) :
    ∀ {pending : List RecurringExecution} {cursor : Option Time} {w w' : World} {jobs : List Job},
      Stands t cursor w.db →
      (∀ e ∈ pending, w.db.runStatus (t.backendAlias, t.key, e.runAt) ≠ .absent) →
      Runs (fireRuns env t.id pending) w jobs w' →
      Stands t (cursorAfter env t.schedule pending cursor) w'.db ∧
        ∀ u, w'.db.runStatus (t.backendAlias, t.key, u) =
            w.db.runStatus (t.backendAlias, t.key, u) ∨
          w.db.runStatus (t.backendAlias, t.key, u) = .waiting ∧
            w'.db.runStatus (t.backendAlias, t.key, u) = .linked ∧
              isRunOf env t.schedule u = .ok true
  | [], cursor, w, w', jobs, stands, _, run => by
      rcases Runs.of_pure run with ⟨-, rfl⟩
      exact ⟨stands, fun u => .inl rfl⟩
  | e :: pending, cursor, w, w', jobs, stands, present, run => by
      rcases Runs.of_bind run with ⟨fired, w₁, loaded, rest⟩
      rcases Runs.of_bind rest with ⟨others, w₂, again, done⟩
      rcases Runs.of_pure done with ⟨-, rfl⟩
      rcases of_run_fireAndLoad loaded with ⟨x, firing⟩
      have here : w.db.runStatus (t.backendAlias, t.key, e.runAt) ≠ .absent :=
        present e List.mem_cons_self
      have first : Stands t (cursorBy env t.schedule cursor e.runAt) w₁.db ∧
          ∀ u, w₁.db.runStatus (t.backendAlias, t.key, u) =
              w.db.runStatus (t.backendAlias, t.key, u) ∨
            w.db.runStatus (t.backendAlias, t.key, u) = .waiting ∧
              w₁.db.runStatus (t.backendAlias, t.key, u) = .linked ∧
                isRunOf env t.schedule u = .ok true := by
        unfold cursorBy
        rcases status_of_run_fireRecurringTask stands.tables stands.mem own firing with
          ⟨off, same⟩ | ⟨next, isRun, nextRun, fires, status⟩
        · rw [off, same]
          exact ⟨stands, fun u => .inl rfl⟩
        · rw [isRun, nextRun]
          refine ⟨fires.stands stands, fun u => ?_⟩
          by_cases at' : u = e.runAt
          · subst at'
            rw [status]
            cases before : w.db.runStatus (t.backendAlias, t.key, e.runAt) with
            | absent => exact absurd before here
            | blank => exact .inl rfl
            | waiting => exact .inr ⟨rfl, rfl, isRun⟩
            | linked => exact .inl rfl
          · apply Or.inl
            apply fires.others
            intro same
            exact at' (congrArg (fun r : Run => r.2.2) same)
      have present' : ∀ e' ∈ pending, w₁.db.runStatus (t.backendAlias, t.key, e'.runAt) ≠ .absent := by
        intro e' mem absent
        rcases first.2 e'.runAt with same | ⟨-, linked, -⟩
        · exact present e' (List.mem_cons_of_mem _ mem) (same.symm.trans absent)
        · rw [absent] at linked
          cases linked
      rcases fireRuns_outcome own first.1 present' again with ⟨stands', status'⟩
      refine ⟨stands', fun u => ?_⟩
      rcases first.2 u with same | ⟨waiting, linked, isRun⟩
      · rw [← same]
        exact status' u
      · rcases status' u with same' | ⟨waiting', -, -⟩
        · exact .inr ⟨waiting, same'.trans linked, isRun⟩
        · rw [linked] at waiting'
          cases waiting'

/-- A due task whose firings raise nothing. -/
theorem fireTask_outcome {pending : List RecurringExecution} {latest : Time} {jobs : List Job}
    (own : t.backendAlias = env.config.backendAlias) (stands : Stands t t.nextRunAt w.db)
    (present : ∀ e ∈ pending, e.taskKey = t.key →
      w.db.runStatus (t.backendAlias, t.key, e.runAt) ≠ .absent)
    (due : t.nextRunAt.any (fun n => now < n) = false)
    (latestRun : env.cron.latestCronRun t.schedule now = .ok latest)
    (run : Runs (fireTask env now pending t) w jobs w') :
    (∃ cursor, Stands t cursor w'.db) ∧
      (w'.db.runStatus (t.backendAlias, t.key, latest) = .linked ↔
        w.db.runStatus (t.backendAlias, t.key, latest) = .linked ∨
          GetsJob env w.db pending t latest) := by
  rcases of_run_fireTask run with ⟨published, fired, w₁, first, second⟩
  have mine : ∀ e ∈ pending.filter (fun e => e.taskKey == t.key),
      w.db.runStatus (t.backendAlias, t.key, e.runAt) ≠ .absent := by
    intro e chosen
    rcases List.mem_filter.mp chosen with ⟨mem, key⟩
    exact present e mem (beq_iff_eq.mp key)
  rcases fireRuns_outcome own stands mine first with ⟨stands₁, status₁⟩
  unfold fireLatest at second
  rw [if_neg (by rw [due]; exact Bool.false_ne_true)] at second
  rcases Runs.of_bind second with ⟨latest', w₃, searched, rest⟩
  rcases Runs.of_ofExcept searched with ⟨same, rfl⟩
  have same : latest = latest' := Except.ok.inj (latestRun.symm.trans same)
  subst same
  rcases Runs.of_bind rest with ⟨loaded, w₄, loading, done⟩
  rcases Runs.of_pure done with ⟨-, rfl⟩
  rcases of_run_fireAndLoad loading with ⟨x, firing⟩
  unfold GetsJob
  rcases status_of_run_fireRecurringTask stands₁.tables stands₁.mem own firing with
    ⟨off, same⟩ | ⟨next, isRun, nextRun, fires, status⟩
  · rw [same, off]
    refine ⟨⟨_, stands₁⟩, ?_⟩
    rcases status₁ latest with same₁ | ⟨-, -, isRun⟩
    · rw [same₁]
      simp
    · rw [off] at isRun
      cases isRun
  · refine ⟨⟨_, fires.stands stands₁⟩, ?_⟩
    rw [status, isRun]
    rcases status₁ latest with same₁ | ⟨waiting, linked, -⟩
    · rw [same₁]
      cases w.db.runStatus (t.backendAlias, t.key, latest) with
      | absent =>
          cases passed : (cursorAfter env t.schedule
              (pending.filter (fun e => e.taskKey == t.key)) t.nextRunAt).any
                (fun n => latest < n) with
          | true => simp [RunStatus.fired]
          | false => simp [RunStatus.fired]
      | blank => simp [RunStatus.fired]
      | waiting => simp [RunStatus.fired]
      | linked => simp [RunStatus.fired]
    · rw [linked, waiting]
      simp [RunStatus.fired]

end Task

/-! ## A poll -/

/-- What a poll does for one of its tasks. -/
def pollOf (env : Env) (now : Time) (includeDynamicTasks : Bool) (db : Db) (t : RecurringTask) :
    Op (List Job) :=
  fireTasks env now (pendingExecutions db env (dueRecurringTasks db env now includeDynamicTasks))
    [t] none

/-- A task that a poll from `w` comes to behind these ones, whose latest run is due, and whose own
firings raise nothing. -/
structure DueAndWell (env : Env) (now : Time) (includeDynamicTasks : Bool) (w : World)
    (before : List RecurringTask) (t : RecurringTask) (latest : Time) : Prop where
  listed : ∃ after, dueRecurringTasks w.db env now includeDynamicTasks = before ++ t :: after
  due : t.nextRunAt.any (fun n => now < n) = false
  latest : env.cron.latestCronRun t.schedule now = .ok latest
  well : ¬ RaisesAt (pollOf env now includeDynamicTasks w.db) w before t

/-- Every such task has the job of its latest run; the column is a foreign key. -/
def FiresEvery (env : Env) (now : Time) (includeDynamicTasks : Bool) (w : World) (db : Db) : Prop :=
  ∀ before t latest, DueAndWell env now includeDynamicTasks w before t latest →
    ∃ e ∈ db.recurringExecutions.rows, e.run = (t.backendAlias, t.key, latest) ∧
      e.jobId.isSome = true

section Poll

variable {env : Env} {now : Time} {includeDynamicTasks : Bool} {batchSize : Option Int}
  {w : World} {before rest : List RecurringTask} {t : RecurringTask} {latest : Time}

/-- The poll fires each task that is due. -/
theorem pollOf_eq (db : Db) : pollOf env now includeDynamicTasks db =
    fireTask env now (pendingExecutions db env
      (dueRecurringTasks db env now includeDynamicTasks)) :=
  funext fun t => fireTasks_singleton env now _ t

/-- With a batch for all it selects, a poll is the loop over its tasks. -/
theorem finalState_poll (enough : ∀ n, batchSize = some n →
      ((dueRecurringTasks w.db env now includeDynamicTasks).length + (pendingExecutions w.db env
        (dueRecurringTasks w.db env now includeDynamicTasks)).length : Int) ≤ n)
    (keys : ((dueRecurringTasks w.db env now includeDynamicTasks).map RecurringTask.key).Nodup) :
    finalState (fireDueRecurringTasks env now includeDynamicTasks batchSize) w =
      finalState (eachOf (pollOf env now includeDynamicTasks w.db)
        (dueRecurringTasks w.db env now includeDynamicTasks)) w := by
  have whole {α : Type} (rows : List α) (fits : ∀ n, batchSize = some n → (rows.length : Int) ≤ n) :
      Runs (sliceToBatch batchSize rows) w rows w := by
    cases batchSize with
    | none => rfl
    | some n =>
        have room := fits n rfl
        show Runs (sliceTo n rows) w rows w
        unfold sliceTo
        rw [if_neg (by omega), List.take_of_length_le (by omega)]
        exact runs_pure _ _
  have read : Runs getDb w w.db w := rfl
  unfold fireDueRecurringTasks
  rw [read.finalState_bind, (whole _ (fun n here => by have := enough n here; omega)).finalState_bind,
    (whole _ (fun n here => by have := enough n here; omega)).finalState_bind, pollOf_eq,
    fireTasks_eq]
  intro n here
  have := enough n here
  have := demand_le (pendingExecutions w.db env
    (dueRecurringTasks w.db env now includeDynamicTasks)) keys
  omega

/-- Other tasks leave a task and its runs alone, each on its own or not. -/
theorem undisturbed_of_leftBy (env : Env) (now : Time) (includeDynamicTasks : Bool) (db : Db)
    {cursor : Option Time} {tasks : List RecurringTask} {w : World}
    (others : ∀ t' ∈ tasks, t'.id ≠ t.id) (stands : Stands t cursor w.db) :
    Undisturbed t cursor w.db (leftBy (pollOf env now includeDynamicTasks db) w tasks).db := by
  apply leftBy_rel (R := fun w w' : World => Undisturbed t cursor w.db w'.db)
    (P := fun w : World => Stands t cursor w.db) (fun _ => Undisturbed.refl)
    (fun _ _ _ => Undisturbed.trans) (fun _ _ same => same.stands) _ stands
  intro t' mem
  apply (firingsLeaveUndisturbed env t cursor).fireTasks now
  intro only there
  rw [List.mem_singleton.mp there]
  exact others t' mem

/-- What a task gets from a poll that comes to it. -/
theorem linked_of_leftBy (tables : RecurringTables w.db)
    (there : DueAndWell env now includeDynamicTasks w before t latest)
    (mine : t ∈ w.db.recurringTasks.rows ∧ t.backendAlias = env.config.backendAlias)
    (others : ∀ t' ∈ before ++ rest, t'.id ≠ t.id) :
    (leftBy (pollOf env now includeDynamicTasks w.db) w (before ++ t :: rest)).db.runStatus
        (t.backendAlias, t.key, latest) = .linked ↔
      w.db.runStatus (t.backendAlias, t.key, latest) = .linked ∨
        GetsJob env w.db (pendingExecutions w.db env
          (dueRecurringTasks w.db env now includeDynamicTasks)) t latest := by
  have stands : Stands t t.nextRunAt w.db := ⟨tables, mine.1⟩
  have reached := undisturbed_of_leftBy env now includeDynamicTasks w.db
    (fun t' mem => others t' (List.mem_append_left rest mem)) stands
  rw [leftBy_append, leftBy_cons]
  have well := there.well
  unfold RaisesAt at well
  generalize leftBy (pollOf env now includeDynamicTasks w.db) w before = w₁ at reached well ⊢
  rcases Option.ne_none_iff_exists'.mp well with ⟨jobs, returns⟩
  have run := runs_of_returned returns
  generalize finalState (pollOf env now includeDynamicTasks w.db t) w₁ = w₂ at run ⊢
  rw [pollOf_eq] at run
  have present : ∀ e ∈ pendingExecutions w.db env
      (dueRecurringTasks w.db env now includeDynamicTasks), e.taskKey = t.key →
        w₁.db.runStatus (t.backendAlias, t.key, e.runAt) ≠ .absent := by
    intro e mem key absent
    rw [reached.status, runStatus_eq_absent] at absent
    exact absent ((waits_of_mem_pendingExecutions mem key).hasRun mine.2)
  rcases fireTask_outcome mine.2 reached.stands present there.due there.latest run with
    ⟨⟨cursor, stands₂⟩, outcome⟩
  have later := undisturbed_of_leftBy env now includeDynamicTasks w.db
    (fun t' mem => others t' (List.mem_append_right before mem)) stands₂
  rw [later.status, outcome, reached.status]
  unfold GetsJob
  rw [reached.status]

/-- Whatever raises, the constraints hold. -/
theorem tables_of_poll (env : Env) (now : Time) (includeDynamicTasks : Bool)
    (batchSize : Option Int) (tables : RecurringTables w.db) : RecurringTables
      (finalState (fireDueRecurringTasks env now includeDynamicTasks batchSize) w).db := by
  have leads : FiringsLead env (fun _ => True) RecurringTables
      (fun _ db' => RecurringTables db') := by
    refine ⟨fun _ => id, fun _ _ _ _ => id, fun _ _ => id, fun taskId runAt _ w tables => ?_⟩
    rcases firesRun_of_fireRecurringTask taskId w tables with same | ⟨task, next, -, -, fires⟩
    · exact same ▸ tables
    · exact fires.tables
  exact leads.fireDueRecurringTasks (fun _ => trivial) now includeDynamicTasks batchSize w tables

/-- A poll stops at the first task that raises, so a task gets its job exactly when it has it already,
or no task before it raises and its own firings create it. -/
theorem poll_fires_every_iff (env : Env) (now : Time) (includeDynamicTasks : Bool)
    (batchSize : Option Int) (w : World) (tables : RecurringTables w.db)
    (enough : ∀ n, batchSize = some n →
      ((dueRecurringTasks w.db env now includeDynamicTasks).length + (pendingExecutions w.db env
        (dueRecurringTasks w.db env now includeDynamicTasks)).length : Int) ≤ n) :
    FiresEvery env now includeDynamicTasks w
        (finalState (fireDueRecurringTasks env now includeDynamicTasks batchSize) w).db ↔
      ∀ before t latest, DueAndWell env now includeDynamicTasks w before t latest →
        w.db.runStatus (t.backendAlias, t.key, latest) = .linked ∨
          (∀ b t' c, before = b ++ t' :: c →
            ¬ RaisesAt (pollOf env now includeDynamicTasks w.db) w b t') ∧
          GetsJob env w.db (pendingExecutions w.db env
            (dueRecurringTasks w.db env now includeDynamicTasks)) t latest := by
  have ids := nodup_ids_dueRecurringTasks tables env now includeDynamicTasks
  have final := tables_of_poll env now includeDynamicTasks batchSize tables
  rw [finalState_poll enough (nodup_keys_dueRecurringTasks tables env now includeDynamicTasks)]
    at final ⊢
  unfold FiresEvery
  apply forall_congr'; intro before
  apply forall_congr'; intro t
  apply forall_congr'; intro latest
  apply forall_congr'; intro there
  rcases there.listed with ⟨after, split⟩
  have mem : t ∈ dueRecurringTasks w.db env now includeDynamicTasks := by
    rw [split]
    exact List.mem_append_right _ List.mem_cons_self
  have mine := mem_dueRecurringTasks.mp mem
  have mine : t ∈ w.db.recurringTasks.rows ∧ t.backendAlias = env.config.backendAlias :=
    ⟨mine.1, mine.2.1.1⟩
  have others : ∀ t' ∈ before ++ after, t'.id ≠ t.id := by
    intro t' mem' same
    rw [split, List.map_append, List.map_cons, List.nodup_middle, List.nodup_cons,
      ← List.map_append] at ids
    exact ids.1 (List.mem_map.mpr ⟨t', mem', same⟩)
  rw [← runStatus_eq_linked final]
  nth_rewrite 1 [split]
  rcases finalState_eachOf_past after there.well with
    ⟨none, done, inside, reaches⟩ | ⟨b, a, c, earlier, raises, stops⟩
  · -- the poll comes to the task
    have others' : ∀ t' ∈ before ++ done, t'.id ≠ t.id := by
      intro t' mem'
      apply others t'
      rw [List.mem_append] at mem' ⊢
      exact mem'.imp_right fun later => inside.subset later
    rw [reaches]
    exact (linked_of_leftBy tables there mine others').trans
      (or_congr_right (and_iff_right none).symm)
  · -- an earlier task raises, and the poll does not come to this one
    have others' : ∀ t' ∈ b ++ [a], t'.id ≠ t.id := by
      intro t' mem'
      apply others t'
      rw [earlier]
      simp only [List.mem_append, List.mem_cons] at mem' ⊢
      tauto
    have stands : Stands t t.nextRunAt w.db := ⟨tables, mine.1⟩
    have same := undisturbed_of_leftBy env now includeDynamicTasks w.db others' stands
    rw [stops, same.status]
    exact ⟨.inl, fun either => either.elim id fun gets => absurd raises (gets.1 b a c earlier)⟩

end Poll

/-! ## A task whose module is gone -/

/-- A second task, before `sync` in the order of a poll. -/
def archiveScheduled : Db :=
  syncScheduled.after pollingEnv (.scheduleRecurringTask "archive" "app.tasks.archive" everyFive
    (some emptyPayload) "default" 0 "") 0

/-- A later release, in which the first task is no more. -/
def releasedEnv : Env :=
  { pollingEnv with
    importString := fun path =>
      if path = "app.tasks.archive" then .error (.importError path)
      else pollingEnv.importString path }

/-- Two tasks scheduled, at the clock's start. -/
def archiveWorld : World := ⟨archiveScheduled, fun _ => 0, fun n => n + 1⟩

/-- A task every five minutes. -/
def scheduledTask (id : Nat) (name : String) : RecurringTask where
  id := id
  backendAlias := "default"
  key := name
  taskPath := "app.tasks." ++ name
  payload := some emptyPayload
  schedule := everyFive
  queueName := "default"
  priority := 0
  description := ""
  static := false
  nextRunAt := none
  updatedAt := 0

theorem recurringTables_archiveScheduled : RecurringTables archiveScheduled := by
  refine ⟨⟨?_, ?_⟩, ?_, ?_, ?_⟩ <;> decide +kernel

theorem ok_of_toOption {ε α : Type} {x : Except ε α} {a : α} (here : x.toOption = some a) :
    x = .ok a := by
  cases x with
  | error e => cases here
  | ok b =>
      cases here
      rfl

/-- The latest run before 10:01 past midnight is that of 10:00. -/
theorem latestRun_everyFive :
    pollingEnv.cron.latestCronRun everyFive (seconds 601) = .ok (seconds 600) :=
  ok_of_toOption (by decide +kernel)

/-- The poll before the release, a second after minute ten. -/
theorem poll_fires_archive_and_sync :
    FiresEvery pollingEnv (seconds 601) true archiveWorld
      (finalState (fireDueRecurringTasks pollingEnv (seconds 601) true (some 500)) archiveWorld).db := by
  have listed : dueRecurringTasks archiveScheduled pollingEnv (seconds 601) true =
      [scheduledTask 2 "archive", scheduledTask 1 "sync"] := by decide +kernel
  have fresh : archiveScheduled.recurringExecutions.rows = [] := by decide +kernel
  have isRun : isRunOf pollingEnv everyFive (seconds 600) = .ok true :=
    ok_of_toOption (by decide +kernel)
  have quiet : ¬ RaisesAt (pollOf pollingEnv (seconds 601) true archiveScheduled) archiveWorld []
      (scheduledTask 2 "archive") := by
    unfold RaisesAt
    decide +kernel
  apply (poll_fires_every_iff pollingEnv (seconds 601) true (some 500) archiveWorld
    recurringTables_archiveScheduled (by rintro n ⟨⟩; decide +kernel)).mpr
  intro before t latest there
  rcases there with ⟨⟨after, split⟩, -, latestRun, -⟩
  have split : [scheduledTask 2 "archive", scheduledTask 1 "sync"] = before ++ t :: after :=
    listed.symm.trans split
  have gets (name : String) (id : Nat) (same : t = scheduledTask id name) :
      GetsJob pollingEnv archiveScheduled (pendingExecutions archiveScheduled pollingEnv
        (dueRecurringTasks archiveScheduled pollingEnv (seconds 601) true)) t latest := by
    subst same
    have at600 : latest = seconds 600 :=
      Except.ok.inj (latestRun.symm.trans latestRun_everyFive)
    subst at600
    unfold GetsJob pendingExecutions Db.runStatus
    rw [fresh]
    exact ⟨isRun, .inr ⟨rfl, rfl⟩⟩
  apply Or.inr
  rcases before with - | ⟨first, before⟩
  · rcases List.cons.inj split with ⟨same, -⟩
    refine ⟨fun b t' c none => ?_, gets "archive" 2 same.symm⟩
    cases b <;> cases none
  · rcases List.cons.inj split with ⟨rfl, rest⟩
    rcases before with - | ⟨second, before⟩
    · rcases List.cons.inj rest with ⟨same, -⟩
      refine ⟨fun b t' c only => ?_, gets "sync" 1 same.symm⟩
      rcases b with - | ⟨t'', b⟩
      · rcases List.cons.inj only with ⟨rfl, -⟩
        exact quiet
      · cases b <;> cases (List.cons.inj only).2
    · cases before <;> cases (List.cons.inj rest).2

/-- The poll of the later release does not come to `sync`, which it would fire on its own. -/
theorem poll_stops_at_missing_task :
    ¬ ∀ (env : Env) (now : Time) (includeDynamicTasks : Bool) (batchSize : Option Int) (w : World),
      RecurringTables w.db →
      (∀ n, batchSize = some n →
        ((dueRecurringTasks w.db env now includeDynamicTasks).length + (pendingExecutions w.db env
          (dueRecurringTasks w.db env now includeDynamicTasks)).length : Int) ≤ n) →
      FiresEvery env now includeDynamicTasks w
        (finalState (fireDueRecurringTasks env now includeDynamicTasks batchSize) w).db := by
  intro claimed
  have listed : dueRecurringTasks archiveScheduled releasedEnv (seconds 601) true =
      [scheduledTask 2 "archive"] ++ [scheduledTask 1 "sync"] := by decide +kernel
  have well : ¬ RaisesAt (pollOf releasedEnv (seconds 601) true archiveScheduled) archiveWorld
      [scheduledTask 2 "archive"] (scheduledTask 1 "sync") := by
    unfold RaisesAt
    decide +kernel
  have unfired : ∀ e ∈ (finalState (fireDueRecurringTasks releasedEnv (seconds 601) true (some 500))
      archiveWorld).db.recurringExecutions.rows, e.run ≠ ("default", "sync", seconds 600) := by
    decide +kernel
  rcases claimed releasedEnv (seconds 601) true (some 500) archiveWorld
    recurringTables_archiveScheduled (by rintro n ⟨⟩; decide +kernel) [scheduledTask 2 "archive"]
    (scheduledTask 1 "sync") (seconds 600) ⟨⟨[], listed⟩, rfl, latestRun_everyFive, well⟩ with
    ⟨e, mem, run, -⟩
  exact unfired e mem run

end DjQueue
