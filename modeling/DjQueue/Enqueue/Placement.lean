import DjQueue.Accounting.Enqueue
import DjQueue.Slots.GroupAcquire

/-!
# Where dispatched jobs are put

At one fixed time, what a dispatch writes besides the semaphores is a function of the outcomes: a
new row in the table of the outcome, or a result on the job.  `placed` is that function.  One call of
`enqueue_job_with_dispatch` and the batch form of `build_dispatch_rows` both end in it.
-/

namespace DjQueue

open Relational

/-! ## Decisions -/

/-- What `dispatch_decision` says of a submitted job, with and without its task at hand. -/
inductive Decided (job : Job) : DispatchDecision → Prop
  | scheduled {t : Time} (later : job.scheduledAt = some t) : Decided job (.outcome .scheduled)
  | ready : Decided job (.outcome .ready)
  | concurrency {key : String} {settings : ConcurrencySettings}
      (isKey : job.concurrencyKey = some key) (limit : job.concurrencyLimit = some settings.limit)
      (duration : job.concurrencyDuration = some settings.durationSeconds)
      (onConflict : job.concurrencyOnConflict = some settings.onConflict.text)
      (positive : 0 < settings.limit) : Decided job (.concurrency key settings)

theorem positiveIntOption_int {n : Int} (positive : 0 < n) (name : String) :
    positiveIntOption (.int n) name = .ok n := by
  simp only [positiveIntOption, intOption, bind, Except.bind, pure, Except.pure]
  rw [if_neg (by omega)]

/-- A conflict rule is read back from its text. -/
theorem parseOnConflict_text (rule : OnConflict) : parseOnConflict rule.text = .ok rule := by
  cases rule <;> rfl

/-- A policy that was resolved once resolves from its columns. -/
theorem persistedConcurrencySettings_of_task {config : Config} {task : Task}
    {settings : ConcurrencySettings} (made : taskConcurrencySettings config task = .ok settings) :
    0 < settings.limit ∧ persistedConcurrencySettings settings.limit settings.durationSeconds
      settings.onConflict.text = .ok settings := by
  obtain ⟨v, -, made⟩ := of_bind_ok made
  obtain ⟨limit, read, made⟩ := of_bind_ok made
  obtain ⟨duration, read', made⟩ := of_bind_ok made
  obtain ⟨onConflict, -, made⟩ := of_bind_ok made
  cases made
  have first := positive_of_positiveIntOption read
  have second := positive_of_positiveIntOption read'
  refine ⟨first, ?_⟩
  simp only [persistedConcurrencySettings, positiveIntOption_int first,
    positiveIntOption_int second, parseOnConflict_text, bind, Except.bind, pure, Except.pure]

/-- A prepared submission has a decision, and it asks for a slot under the prepared policy. -/
theorem decided_of_prepareSubmission {env : Env} {call : TaskCall} {validate : Bool} {jobId : JobId}
    {job : Job} (now : Time)
    (prepared : prepareSubmission env.config call validate jobId = .ok job) :
    ∃ decision, Decided job decision ∧
      ∀ task, dispatchDecision env job now task = .ok decision := by
  have submitted := submitted_of_prepareSubmission prepared
  by_cases later : job.scheduledAt.any (fun t => now < t) = true
  · cases time : job.scheduledAt with
    | none =>
        rw [time] at later
        cases later
    | some t =>
        refine ⟨.outcome .scheduled, .scheduled time, fun task => ?_⟩
        rw [dispatchDecision, if_pos later]
  · obtain ⟨u, -, prepared⟩ := of_bind_ok prepared
    obtain ⟨payload, -, prepared⟩ := of_bind_ok prepared
    obtain ⟨key, resolved, prepared⟩ := of_bind_ok prepared
    obtain ⟨policy, made, prepared⟩ := of_bind_ok prepared
    cases prepared
    cases key with
    | none =>
        refine ⟨.outcome .ready, .ready, fun task => ?_⟩
        rw [dispatchDecision, if_neg later]
        rfl
    | some key =>
        obtain ⟨settings, fromTask, rfl⟩ : ∃ settings,
            taskConcurrencySettings env.config call.task = .ok settings ∧ policy = some settings := by
          unfold concurrencyPolicy at made
          cases resolved : taskConcurrencySettings env.config call.task with
          | error e =>
              rw [resolved] at made
              cases made
          | ok settings =>
              rw [resolved] at made
              cases made
              exact ⟨settings, rfl, rfl⟩
        obtain ⟨positive, persisted⟩ := persistedConcurrencySettings_of_task fromTask
        refine ⟨.concurrency key settings, .concurrency rfl rfl rfl rfl positive, fun task => ?_⟩
        have named : key ≠ "" := by
          rintro rfl
          exact resolveConcurrencyKey_ne resolved
        rw [dispatchDecision, if_neg later]
        simp only [Job.slotKey, Option.filter_some, named, ne_eq, not_false_eq_true, decide_true,
          if_true, concurrencySettingsForJob, Job.historicalPolicy, Option.map_some,
          Option.isNone_some, Bool.false_and, Bool.false_eq_true, if_false, persisted]
        rfl

/-! ## Rows -/

/-- Rows with the next keys of the table, in order. -/
def addRows {m : StateModel} (now : Time) (t : Table m.Row) (rows : List m.Row) : Table m.Row :=
  rows.foldl (fun t row => t.insert (fun id => stampRow row id now)) t

/-- The ready row of a job, before it is saved. -/
def readyRowOf (job : Job) (now : Time) : ReadyExecution where
  id := 0
  jobId := job.id
  backendAlias := job.backendAlias
  queueName := job.queueName
  priority := job.priority
  createdAt := 0
  latencyStartedAt := some now

/-- The scheduled row of a job, before it is saved. -/
def scheduledRowAt (job : Job) (time : Time) : ScheduledExecution where
  id := 0
  jobId := job.id
  backendAlias := job.backendAlias
  queueName := job.queueName
  priority := job.priority
  scheduledAt := time

/-- Entries with their outcomes. -/
abbrev Settled := List (DispatchEntry × DispatchOutcome)

/-- The ready rows of a batch. -/
def readyRows (now : Time) (settled : Settled) : List ReadyExecution :=
  (settled.filter (fun s => s.2 = .ready)).map (fun s => readyRowOf s.1.job now)

/-- The scheduled rows of a batch. -/
def scheduledRows (settled : Settled) : List ScheduledExecution :=
  (settled.filter (fun s => s.2 = .scheduled)).filterMap (fun s =>
    s.1.job.scheduledAt.map (scheduledRowAt s.1.job))

/-- The blocked rows of a batch. -/
def blockedRows (env : Env) (now : Time) (settled : Settled) : List BlockedExecution :=
  (settled.filter (fun s => s.2 = .blocked)).filterMap (fun s =>
    (blockedRowOf env now s.1.job s.1.decision).toOption)

/-- The discarded jobs of a batch. -/
def discardedJobs (now : Time) (settled : Settled) : List Job :=
  (settled.filter (fun s => s.2 = .discarded)).map (fun s =>
    { s.1.job with finishedAt := some now, returnValue := none })

/-- A job that was discarded has finished without a result. -/
def finishDiscarded (now : Time) (settled : Settled) (job : Job) : Job :=
  if ((discardedJobs now settled).map Job.id).contains job.id then
    { job with finishedAt := some now, returnValue := none }
  else job

/-- The tables once the settled entries are in their places. -/
def placed (env : Env) (now : Time) (db : Db) (settled : Settled) : Db :=
  { db with
    jobs := db.jobs.map (finishDiscarded now settled)
    ready := addRows (m := .ready) now db.ready (readyRows now settled)
    scheduled := addRows (m := .scheduled) now db.scheduled (scheduledRows settled)
    blocked := addRows (m := .blocked) now db.blocked (blockedRows env now settled) }

/-- An entry of the backend with an outcome that its decision allows, and a deadline when it is to
wait. -/
structure Placeable (env : Env) (now : Time) (s : DispatchEntry × DispatchOutcome) : Prop where
  own : s.1.job.backendAlias = env.config.backendAlias
  scheduled : s.2 = .scheduled → s.1.job.scheduledAt ≠ none
  blocked : s.2 = .blocked → ∃ key settings, s.1.decision = .concurrency key settings ∧
    isDatetime (now + seconds settings.durationSeconds) = true

section Built

variable {env : Env} {now : Time}

/-- An own job passes the check of the backend. -/
theorem executionBackendAlias_own {job : Job} (own : job.backendAlias = env.config.backendAlias) :
    executionBackendAlias job.ref env.config.backendAlias = .ok job.backendAlias := by
  exact if_neg (not_not_intro own)

theorem readyExecutionRow_own {job : Job} (now : Time)
    (own : job.backendAlias = env.config.backendAlias)
    (queueName : Option String) (queue : queueName.getD job.queueName = job.queueName) :
    readyExecutionRow job.ref env.config.backendAlias queueName none now =
      .ok (readyRowOf job now) := by
  unfold readyExecutionRow
  rw [executionBackendAlias_own own]
  simp only [bind, Except.bind, pure, Except.pure, readyRowOf]
  rw [show queueName.getD job.ref.queueName = job.queueName from queue]
  rfl

/-- The scheduled row of an own job with a time. -/
theorem scheduledExecutionRow_own {job : Job} (own : job.backendAlias = env.config.backendAlias)
    {t : Time} (time : job.scheduledAt = some t) :
    scheduledExecutionRow job env.config.backendAlias job.scheduledAt =
      .ok (scheduledRowAt job t) := by
  unfold scheduledExecutionRow
  rw [executionBackendAlias_own own, time]
  rfl

/-- The blocked row of an own job with a key. -/
theorem blockedExecutionRow_own {job : Job} (now : Time)
    (own : job.backendAlias = env.config.backendAlias)
    (key : String) {settings : ConcurrencySettings}
    (inRange : isDatetime (now + seconds settings.durationSeconds) = true) :
    blockedExecutionRow job.ref env.config.backendAlias (some key)
        (now + seconds settings.durationSeconds) none none =
      blockedRowOf env now job (.concurrency key settings) := by
  simp only [blockedExecutionRow, blockedRowOf, addSeconds_eq_ok inRange]
  rw [executionBackendAlias_own own, own]
  rfl

/-- An entry that can be placed adds its row to the batch. -/
theorem appendDispatchRow_eq (now : Time) (rows : DispatchRows) {s : DispatchEntry × DispatchOutcome}
    (placeable : Placeable env now s) :
    appendDispatchRow env now rows s.1 s.2 = .ok {
      ready := rows.ready ++ readyRows now [s]
      scheduled := rows.scheduled ++ scheduledRows [s]
      blocked := rows.blocked ++ blockedRows env now [s]
      discarded := rows.discarded ++ discardedJobs now [s] } := by
  obtain ⟨e, o⟩ := s
  cases o with
  | ready =>
      simp only [appendDispatchRow, readyExecutionRow_own now placeable.own none rfl]
      simp [bind, Except.bind, pure, Except.pure, readyRows, scheduledRows, blockedRows,
        discardedJobs]
  | scheduled =>
      obtain ⟨t, time⟩ := Option.ne_none_iff_exists'.mp (placeable.scheduled rfl)
      simp only at time
      simp only [appendDispatchRow, scheduledExecutionRow_own placeable.own time]
      simp [bind, Except.bind, pure, Except.pure, readyRows, scheduledRows, blockedRows,
        discardedJobs, time]
  | blocked =>
      obtain ⟨key, settings, decision, inRange⟩ := placeable.blocked rfl
      simp only at decision
      simp [appendDispatchRow, decision, blockedRowOf, addSeconds_eq_ok inRange, bind,
        Except.bind, pure, Except.pure, readyRows, scheduledRows, blockedRows, discardedJobs, Except.toOption]
  | discarded =>
      simp [appendDispatchRow, pure, Except.pure, readyRows, scheduledRows, blockedRows,
        discardedJobs]

theorem readyRows_append (l l' : Settled) :
    readyRows now (l ++ l') = readyRows now l ++ readyRows now l' := by
  simp [readyRows]

theorem scheduledRows_append (l l' : Settled) :
    scheduledRows (l ++ l') = scheduledRows l ++ scheduledRows l' := by
  simp [scheduledRows]

theorem blockedRows_append (l l' : Settled) :
    blockedRows env now (l ++ l') = blockedRows env now l ++ blockedRows env now l' := by
  simp [blockedRows]

theorem discardedJobs_append (l l' : Settled) :
    discardedJobs now (l ++ l') = discardedJobs now l ++ discardedJobs now l' := by
  simp [discardedJobs]

/-- The batch form builds the rows of the settled entries, in their order. -/
theorem appendDispatchRows_eq (now : Time) : ∀ {settled : Settled} (rows : DispatchRows),
    (∀ s ∈ settled, Placeable env now s) →
    appendDispatchRows env now rows settled = .ok {
      ready := rows.ready ++ readyRows now settled
      scheduled := rows.scheduled ++ scheduledRows settled
      blocked := rows.blocked ++ blockedRows env now settled
      discarded := rows.discarded ++ discardedJobs now settled }
  | [], rows, _ => by
      simp [appendDispatchRows, readyRows, scheduledRows, blockedRows, discardedJobs, pure,
        Except.pure]
  | s :: settled, rows, all => by
      have first := appendDispatchRow_eq now rows (all s List.mem_cons_self)
      have rest := fun rows => appendDispatchRows_eq now rows
        (fun s' mem => all s' (List.mem_cons_of_mem _ mem))
      rw [appendDispatchRows, first]
      simp only [bind, Except.bind]
      rw [rest, show s :: settled = [s] ++ settled from rfl, readyRows_append,
        scheduledRows_append, blockedRows_append, discardedJobs_append]
      simp only [List.append_assoc]

end Built

/-! ## The jobs of the rows -/

section JobIds

variable {env : Env} {now : Time}

theorem jobIds_addRows {m : StateModel} (t : Table m.Row) (rows : List m.Row) :
    (addRows now t rows).rows.map rowJobId = t.rows.map rowJobId ++ rows.map rowJobId := by
  unfold addRows
  induction rows generalizing t with
  | nil => simp
  | cons row rows ih =>
      rw [List.foldl_cons, ih, Table.rows_insert, List.map_append, List.map_singleton,
        rowJobId_stampRow, List.map_cons, List.append_assoc]
      rfl

/-- The jobs of a batch. -/
def settledIds (settled : Settled) : List JobId := settled.map (fun s => s.1.job.id)

/-- Ready rows are for jobs of the batch. -/
theorem readyRows_ids (settled : Settled) :
    ((readyRows now settled).map ReadyExecution.jobId).Sublist (settledIds settled) := by
  unfold readyRows settledIds
  rw [List.map_map]
  exact List.filter_sublist.map _

/-- Discarded jobs are jobs of the batch. -/
theorem discardedJobs_ids (settled : Settled) :
    ((discardedJobs now settled).map Job.id).Sublist (settledIds settled) := by
  unfold discardedJobs settledIds
  rw [List.map_map]
  exact List.filter_sublist.map _

/-- Rows built for part of the entries, each for its job. -/
theorem sublist_of_filterMap {ρ : Type} {f : DispatchEntry × DispatchOutcome → Option ρ}
    {job : ρ → JobId} (keyed : ∀ s r, f s = some r → job r = s.1.job.id) (settled : Settled) :
    ((settled.filterMap f).map job).Sublist (settledIds settled) := by
  unfold settledIds
  induction settled with
  | nil => exact List.Sublist.refl _
  | cons s settled ih =>
      cases built : f s with
      | none =>
          rw [List.filterMap_cons_none built]
          exact ih.cons _
      | some r =>
          rw [List.filterMap_cons_some built, List.map_cons, List.map_cons, keyed s r built]
          exact ih.cons_cons _

/-- Scheduled rows are for jobs of the batch. -/
theorem scheduledRows_ids (settled : Settled) :
    ((scheduledRows settled).map ScheduledExecution.jobId).Sublist (settledIds settled) := by
  refine (sublist_of_filterMap (fun s r built => ?_) _).trans (List.filter_sublist.map _)
  obtain ⟨t, -, rfl⟩ := Option.map_eq_some_iff.mp built
  rfl

/-- A blocked row is for the job that asked for the slot. -/
theorem jobId_of_blockedRowOf {job : Job} {d : DispatchDecision} {row : BlockedExecution}
    (built : (blockedRowOf env now job d).toOption = some row) :
    row.jobId = job.id ∧ ∃ settings, d = .concurrency row.concurrencyKey settings := by
  cases d with
  | outcome o => cases built
  | concurrency key settings =>
      simp only [blockedRowOf] at built
      cases added : addSeconds now settings.durationSeconds with
      | error e =>
          rw [added] at built
          cases built
      | ok expiresAt =>
          rw [added] at built
          cases built
          exact ⟨rfl, settings, rfl⟩

/-- Blocked rows are for jobs of the batch. -/
theorem blockedRows_ids (settled : Settled) :
    ((blockedRows env now settled).map BlockedExecution.jobId).Sublist (settledIds settled) :=
  (sublist_of_filterMap (fun _ _ built => (jobId_of_blockedRowOf built).1) _).trans
    (List.filter_sublist.map _)

/-- The jobs with a state row are those that had one and those placed now. -/
theorem stateJobIds_placed {db : Db} {settled : Settled} {m : StateModel} {id : JobId}
    (mem : id ∈ (placed env now db settled).stateJobIds m) :
    id ∈ db.stateJobIds m ∨ id ∈ settledIds settled := by
  cases m with
  | ready =>
      rw [show (placed env now db settled).stateJobIds .ready = (addRows (m := .ready) now db.ready
        (readyRows now settled)).rows.map rowJobId from rfl, jobIds_addRows] at mem
      exact (List.mem_append.mp mem).imp_right fun new => (readyRows_ids settled).subset new
  | scheduled =>
      rw [show (placed env now db settled).stateJobIds .scheduled = (addRows (m := .scheduled) now
        db.scheduled (scheduledRows settled)).rows.map rowJobId from rfl, jobIds_addRows] at mem
      exact (List.mem_append.mp mem).imp_right fun new => (scheduledRows_ids settled).subset new
  | blocked =>
      rw [show (placed env now db settled).stateJobIds .blocked = (addRows (m := .blocked) now
        db.blocked (blockedRows env now settled)).rows.map rowJobId from rfl, jobIds_addRows] at mem
      exact (List.mem_append.mp mem).imp_right fun new => (blockedRows_ids settled).subset new
  | claimed => exact .inl mem
  | failed => exact .inl mem

end JobIds

/-! ## Writes -/

/-- A job that has no row in any state table. -/
def Stateless (db : Db) (id : JobId) : Prop := ∀ m, db.hasState m id = false

section Writes

variable {env : Env} {now : Time} {uuids : Nat → JobId}

/-- A state row for a job that has none in the table. -/
theorem runs_createRow_from {m : StateModel} {row : m.Row} (w : World)
    (job : (w.db.findJob (rowJobId row)).isSome) (free : w.db.hasState m (rowJobId row) = false) :
    Runs (createRow m row) w ()
      { w with
        db := w.db.setTable m ((w.db.table m).insert (fun id => stampRow row id (w.clock 0)))
        clock := fun n => w.clock (n + 1) } := by
  refine Runs.bind (runs_timezoneNow _) (Runs.bind (runs_getDb _) ?_)
  rw [if_neg]
  · exact runs_modifyDb _ _
  · rw [Bool.or_eq_true, not_or, Option.isNone_iff_eq_none]
    refine ⟨fun absent => ?_, ?_⟩
    · rw [show w.db.findJob (rowJobId row) = none from absent] at job
      cases job
    · rw [show w.db.hasState m (rowJobId row) = false from free]
      exact Bool.false_ne_true

/-- A state row for a job that has none, under a constant clock. -/
theorem runs_createRow {m : StateModel} {db : Db} {row : m.Row} (now : Time)
    (uuids : Nat → JobId) (job : (db.findJob (rowJobId row)).isSome)
    (free : db.hasState m (rowJobId row) = false) :
    Runs (createRow m row) ⟨db, fun _ => now, uuids⟩ ()
      ⟨db.setTable m ((db.table m).insert (fun id => stampRow row id now)), fun _ => now, uuids⟩ :=
  runs_createRow_from ⟨db, fun _ => now, uuids⟩ job free

theorem hasState_insert {m : StateModel} {db : Db} {mk : Nat → m.Row} {id : JobId}
    (other : rowJobId (mk (db.table m).nextId) ≠ id) :
    (db.setTable m ((db.table m).insert mk)).hasState m id = db.hasState m id := by
  unfold Db.hasState Db.stateJobIds
  rw [Db.table_setTable_same, Table.rows_insert, List.map_append]
  simp [Ne.symm other]

/-- State rows for jobs that have none, one by one. -/
theorem runs_bulkCreate {m : StateModel} : ∀ {rows : List m.Row} (db : Db),
    (∀ r ∈ rows, (db.findJob (rowJobId r)).isSome ∧ db.hasState m (rowJobId r) = false) →
    (rows.map rowJobId).Nodup →
    Runs (bulkCreate m rows) ⟨db, fun _ => now, uuids⟩ ()
      ⟨db.setTable m (addRows now (db.table m) rows), fun _ => now, uuids⟩
  | [], db, _, _ => by
      rw [addRows, List.foldl_nil, Db.setTable_table]
      rfl
  | row :: rows, db, all, nodup => by
      obtain ⟨fresh, nodup⟩ := List.nodup_cons.mp nodup
      obtain ⟨job, free⟩ := all row List.mem_cons_self
      have first := runs_createRow now uuids job free
      have rest := runs_bulkCreate
        (db.setTable m ((db.table m).insert (fun id => stampRow row id now))) ?_ nodup
      · rw [Db.table_setTable_same, Db.setTable_setTable] at rest
        exact Runs.bind first rest
      · intro r mem
        obtain ⟨job', free'⟩ := all r (List.mem_cons_of_mem _ mem)
        refine ⟨?_, ?_⟩
        · rw [Db.findJob, Db.jobs_setTable]
          exact job'
        · rw [hasState_insert, free']
          rw [rowJobId_stampRow]
          exact fun same => fresh (List.mem_map.mpr ⟨r, mem, same.symm⟩)

/-- Whatever the clock shows meanwhile. -/
theorem runs_bulkCreate_from {m : StateModel} : ∀ (rows : List m.Row) (w : World),
    (∀ r ∈ rows, (w.db.findJob (rowJobId r)).isSome ∧ w.db.hasState m (rowJobId r) = false) →
    (rows.map rowJobId).Nodup →
    ∃ (stamped : List m.Row) (nextId : Nat) (w' : World), Runs (bulkCreate m rows) w () w' ∧
      w'.db = w.db.setTable m ⟨(w.db.table m).rows ++ stamped, nextId⟩ ∧
      stamped.map rowJobId = rows.map rowJobId
  | [], w, _, _ => ⟨[], (w.db.table m).nextId, w, runs_pure _ _, by
      rw [List.append_nil]
      exact (Db.setTable_table w.db m).symm, rfl⟩
  | row :: rows, w, all, nodup => by
      rcases List.nodup_cons.mp nodup with ⟨fresh, nodup⟩
      rcases all row List.mem_cons_self with ⟨job, free⟩
      have first := runs_createRow_from w job free
      generalize after : World.mk _ _ _ = w₁ at first
      have tables : w₁.db = w.db.setTable m
          ((w.db.table m).insert (fun id => stampRow row id (w.clock 0))) := by
        rw [← after]
      have others : ∀ r ∈ rows, (w₁.db.findJob (rowJobId r)).isSome ∧
          w₁.db.hasState m (rowJobId r) = false := by
        intro r mem
        rcases all r (List.mem_cons_of_mem _ mem) with ⟨job', free'⟩
        rw [tables]
        constructor
        · rw [Db.findJob, Db.jobs_setTable]
          exact job'
        · rw [hasState_insert, free']
          rw [rowJobId_stampRow]
          exact fun same => fresh (List.mem_map.mpr ⟨r, mem, same.symm⟩)
      rcases runs_bulkCreate_from rows w₁ others nodup with ⟨stamped, nextId, w', rest, written, ids⟩
      refine ⟨stampRow row (w.db.table m).nextId (w.clock 0) :: stamped, nextId, w',
        Runs.bind first rest, ?_, ?_⟩
      · rw [written, tables, Db.setTable_setTable, Db.table_setTable_same, Table.rows_insert,
          List.append_assoc]
        rfl
      · rw [List.map_cons, List.map_cons, ids, rowJobId_stampRow]

/-- Without a discarded job no job changes. -/
theorem finishDiscarded_of_none {settled : Settled} (none : discardedJobs now settled = []) :
    finishDiscarded now settled = id := by
  funext job
  unfold finishDiscarded
  rw [none]
  rfl

section Placed

variable (env) {db : Db} {e : DispatchEntry}

theorem placed_nil (env : Env) (now : Time) (db : Db) : placed env now db [] = db := by
  unfold placed
  rw [finishDiscarded_of_none rfl, List.map_id]
  rfl

theorem placed_ready : placed env now db [(e, .ready)] = db.setTable .ready
    (db.ready.insert (fun id => stampRow (m := .ready) (readyRowOf e.job now) id now)) := by
  unfold placed
  rw [finishDiscarded_of_none (by simp [discardedJobs]), List.map_id]
  simp [readyRows, scheduledRows, blockedRows, addRows, Db.setTable]

theorem placed_scheduled {t : Time} (time : e.job.scheduledAt = some t) :
    placed env now db [(e, .scheduled)] = db.setTable .scheduled (db.scheduled.insert
      (fun id => stampRow (m := .scheduled) (scheduledRowAt e.job t) id now)) := by
  unfold placed
  rw [finishDiscarded_of_none (by simp [discardedJobs]), List.map_id]
  simp [readyRows, scheduledRows, blockedRows, addRows, Db.setTable, time]

theorem placed_blocked {row : BlockedExecution}
    (built : blockedRowOf env now e.job e.decision = .ok row) :
    placed env now db [(e, .blocked)] = db.setTable .blocked
      (db.blocked.insert (fun id => stampRow (m := .blocked) row id now)) := by
  unfold placed
  rw [finishDiscarded_of_none (by simp [discardedJobs]), List.map_id]
  simp [readyRows, scheduledRows, blockedRows, addRows, Db.setTable, built, Except.toOption]

theorem placed_discarded : placed env now db [(e, .discarded)] = { db with
    jobs := db.jobs.map (fun j => if j.id == e.job.id then
      { j with finishedAt := some now, returnValue := none } else j) } := by
  unfold placed
  simp [readyRows, scheduledRows, blockedRows, addRows, finishDiscarded, discardedJobs]

end Placed

/-- One job is put into its place. -/
theorem runs_applyOutcome {db : Db} {e : DispatchEntry} {o : DispatchOutcome}
    (placeable : Placeable env now (e, o)) (job : (db.findJob e.job.id).isSome)
    (stateless : Stateless db e.job.id) :
    Runs (applyOutcome env e.job e.decision now false o) ⟨db, fun _ => now, uuids⟩ ()
      ⟨placed env now db [(e, o)], fun _ => now, uuids⟩ := by
  cases o with
  | ready =>
      have row := readyExecutionRow_own now placeable.own (some e.job.queueName) rfl
      rw [placed_ready]
      refine Runs.bind (runs_pure _ _) (Runs.bind (runs_ofExcept row _) ?_)
      exact runs_createRow (m := .ready) _ _ job (stateless .ready)
  | scheduled =>
      obtain ⟨t, time⟩ := Option.ne_none_iff_exists'.mp (placeable.scheduled rfl)
      have row := scheduledExecutionRow_own placeable.own time
      rw [placed_scheduled env time]
      refine Runs.bind (runs_pure _ _) (Runs.bind (runs_ofExcept row _) ?_)
      exact runs_createRow (m := .scheduled) _ _ job (stateless .scheduled)
  | blocked =>
      obtain ⟨key, settings, decision, inRange⟩ := placeable.blocked rfl
      obtain ⟨row, built, isJob⟩ : ∃ row, blockedRowOf env now e.job e.decision = .ok row ∧
          row.jobId = e.job.id := by
        rw [show e.decision = _ from decision, blockedRowOf, addSeconds_eq_ok inRange]
        exact ⟨_, rfl, rfl⟩
      have same := blockedExecutionRow_own now placeable.own key inRange
      rw [placed_blocked env built]
      rw [show e.decision = _ from decision] at built ⊢
      refine Runs.bind (runs_addSeconds inRange _) (Runs.bind (runs_pure _ _)
        (Runs.bind (runs_ofExcept (same.trans built) _) ?_))
      refine runs_createRow (m := .blocked) _ _ ?_ ?_
      · change (db.findJob row.jobId).isSome
        rw [isJob]
        exact job
      · change db.hasState .blocked row.jobId = false
        rw [isJob]
        exact stateless .blocked
  | discarded =>
      rw [placed_discarded]
      rfl

end Writes

end DjQueue
