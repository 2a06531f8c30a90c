import DjQueue.Lifecycle.Dispatches
import DjQueue.Reads.TaskResults

/-!
# The results of what was enqueued

`enqueue` and `enqueue_all` of `backend.py` make the results they hand out of the instances in
memory.  The rows that dispatching left say the same: asked for right after, `get_result` gives the
result that the caller got.
-/

namespace DjQueue

open Relational

/-! ## What dispatching leaves -/

/-- The jobs, and the rows of those that do not wait. -/
def jobParts (db : Db) : List Job × Table ClaimedExecution × Table FailedExecution :=
  (db.jobs, db.claimed, db.failed)

/-- Ready, scheduled and blocked rows are not among the tables concerned. -/
theorem apart_jobParts {m : StateModel} (claimed : m ≠ .claimed) (failed : m ≠ .failed) :
    Apart jobParts m := by
  intro db t
  cases m with
  | claimed => exact absurd rfl claimed
  | failed => exact absurd rfl failed
  | _ => rfl

/-- What an outcome makes of the row of the job with this key. -/
def DispatchOutcome.saves (outcome : DispatchOutcome) (id : JobId) (now : Time) (j : Job) : Job :=
  if j.id = id then outcome.instance_ j now else j

/-- Only a discarded outcome changes a job. -/
theorem map_saves {outcome : DispatchOutcome} (kept : outcome ≠ .discarded) (id : JobId)
    (now : Time) (jobs : List Job) : jobs.map (outcome.saves id now) = jobs := by
  have same : ∀ j ∈ jobs, outcome.saves id now j = j := by
    intro j _
    simp [DispatchOutcome.saves, DispatchOutcome.instance_, kept]
  rw [List.map_congr_left same, List.map_id']

section Dispatching

variable {env : Env} {job : Job} {w w' : World}

/-- Putting a new job in its place writes the job of a discard, and no claim and no failure. -/
theorem jobParts_of_applyOutcome {decision : DispatchDecision} {now : Time}
    {outcome : DispatchOutcome} {u : Unit}
    (run : Runs (applyOutcome env job decision now false outcome) w u w') :
    jobParts w'.db = (w.db.jobs.map (outcome.saves job.id now), w.db.claimed, w.db.failed) := by
  have kept (spares : Spares jobParts (applyOutcome env job decision now false outcome))
      (other : outcome ≠ .discarded) :
      jobParts w'.db = (w.db.jobs.map (outcome.saves job.id now), w.db.claimed, w.db.failed) := by
    rw [map_saves other]
    exact spares w u w' run
  cases outcome with
  | ready =>
      exact kept (.createReadyExecution (apart_jobParts nofun nofun) _ _ _ _ _ _) nofun
  | scheduled =>
      exact kept (.createScheduledExecution (apart_jobParts nofun nofun) _ _ _ _) nofun
  | blocked =>
      apply kept ?_ nofun
      cases decision with
      | outcome o => exact .throw _
      | concurrency key settings =>
          exact .bind (.ofExcept _) fun _ =>
            .createBlockedExecution (apart_jobParts nofun nofun) _ _ _ _ _ _ _
  | discarded =>
      let save (j : Job) : Job :=
        if j.id == job.id then { j with finishedAt := some now, returnValue := none } else j
      have saved : w'.db = { w.db with jobs := w.db.jobs.map save } :=
        of_run_modifyDb (f := fun db => { db with jobs := db.jobs.map save }) run
      rw [saved]
      simp [save, jobParts, DispatchOutcome.saves, DispatchOutcome.instance_]

/-- Dispatching a job changes its own finish alone, and that only when it is discarded. -/
theorem jobParts_of_dispatchJob {task : Option Imported} {outcome : DispatchOutcome}
    (run : Runs (dispatchJob env job false task) w outcome w') :
    jobParts w'.db =
      (w.db.jobs.map (outcome.saves job.id (w.clock 0)), w.db.claimed, w.db.failed) := by
  rcases Runs.of_bind run with ⟨now, w₁, read, rest⟩
  cases read
  rcases Runs.of_bind rest with ⟨decision, w₂, computed, rest⟩
  rcases Runs.of_ofExcept computed with ⟨-, rfl⟩
  rcases Runs.of_bind rest with ⟨o, w₃, resolved, rest⟩
  rcases Runs.of_bind rest with ⟨u, w₄, applied, done⟩
  rcases Runs.of_pure done with ⟨rfl, rfl⟩
  have slots : Spares jobParts (resolveOutcome env decision) := by
    cases decision with
    | outcome o => exact .pure _
    | concurrency key settings =>
        exact .bind (.semaphoreAcquire (fun _ _ => rfl) _ _ _ _) fun _ => .pure _
  rcases Prod.mk.inj (slots _ _ _ resolved) with ⟨jobs, rows⟩
  rcases Prod.mk.inj rows with ⟨claimed, failed⟩
  rw [jobParts_of_applyOutcome applied, jobs, claimed, failed]

end Dispatching

/-- The instance of a new job in tables with no other claims or failures than before. -/
theorem Accounts.settles_of_new {a : Audit} {db db' : Db} {job : Job} (good : Accounts a [] 0 db)
    (absent : job.id ∉ db.jobs.map Job.id) (unfinished : job.finishedAt = none)
    (claimed : db'.claimed = db.claimed) (failed : db'.failed = db.failed)
    (outcome : DispatchOutcome) (now : Time) :
    db'.Settles (outcome.instance_ job now) (outcome = .discarded) := by
  have id : (outcome.instance_ job now).id = job.id := by
    unfold DispatchOutcome.instance_
    split <;> rfl
  have new (m : StateModel) (mem : job.id ∈ db.stateJobIds m) : False := by
    rcases good.job_of_mem_stateJobIds mem with ⟨j, there, same⟩
    exact absent (same ▸ List.mem_map_of_mem there)
  constructor
  · intro discarded
    rw [DispatchOutcome.instance_, if_pos (of_decide_eq_true discarded)]
    rfl
  · intro kept
    rw [DispatchOutcome.instance_, if_neg (of_decide_eq_false kept)]
    exact unfinished
  · intro _ m mem
    rw [id] at mem
    constructor
    · intro same
      subst same
      apply new .claimed
      rwa [Db.stateJobIds, show db'.table .claimed = db.table .claimed from claimed] at mem
    · intro same
      subst same
      apply new .failed
      rwa [Db.stateJobIds, show db'.table .failed = db.table .failed from failed] at mem

/-- The job keeps the path of its task. -/
theorem taskPath_of_prepareSubmission {config : Config} {call : TaskCall} {validate : Bool}
    {jobId : JobId} {job : Job} (ok : prepareSubmission config call validate jobId = .ok job) :
    job.taskPath = call.task.modulePath := by
  rcases bind_eq_ok ok with ⟨u, -, ok⟩
  rcases bind_eq_ok ok with ⟨payload, -, ok⟩
  rcases bind_eq_ok ok with ⟨key, -, ok⟩
  rcases bind_eq_ok ok with ⟨policy, -, ok⟩
  cases ok
  rfl

theorem clock_of_run_insertJob {family : BackendFamily} {job : Job} {w w' : World} {u : Unit}
    (run : Runs (insertJob family job) w u w') : w'.clock = w.clock := by
  rcases Runs.of_bind run with ⟨v, w₁, checked, rest₁⟩
  rcases of_run_ensureFits checked with ⟨-, rfl⟩
  rcases Runs.of_bind rest₁ with ⟨db, w₂, got, rest⟩
  rcases of_run_getDb got with ⟨rfl, rfl⟩
  split at rest
  · exact (Runs.of_throw rest).elim
  · cases rest
    rfl

/-! ## One task -/

section Enqueue

variable {db : Db} {api : TaskApi} {env : Env} {w w' : World}

/-- Enqueueing inserts the job, and finishes it when it is discarded. -/
theorem jobParts_of_enqueueJobWithDispatch {call : TaskCall} {validate : Bool} {jobId : JobId}
    {job : Job} {outcome : DispatchOutcome}
    (run : Runs (enqueueJobWithDispatch env call validate jobId) w (job, outcome) w') :
    prepareSubmission env.config call validate jobId = .ok job ∧
      job.id ∉ w.db.jobs.map Job.id ∧
      jobParts w'.db = ((w.db.jobs ++ [job]).map (outcome.saves job.id (w.clock 0)),
        w.db.claimed, w.db.failed) := by
  rcases Runs.of_bind run with ⟨prepared, w₁, computed, rest⟩
  rcases Runs.of_ofExcept computed with ⟨ok, rfl⟩
  rcases Runs.of_bind (Runs.of_atomic rest) with ⟨u, w₂, inserted, rest⟩
  rcases Runs.of_bind rest with ⟨o, w₃, dispatched, done⟩
  rcases Runs.of_pure done with ⟨result, rfl⟩
  cases result
  rcases Accounts.of_run_insertJob inserted with ⟨absent, written⟩
  have parts := jobParts_of_dispatchJob dispatched
  rw [written, clock_of_run_insertJob inserted] at parts
  exact ⟨ok, Accounts.ids_of_findJob_none absent, parts⟩

/-- The instance that was handed out for a new job is its row, and it is settled. -/
theorem result_of_new {a a' : Audit} (good : Accounts a [] 0 db) {db' : Db}
    (good' : Accounts a' [] 0 db') {job : Job} (absent : job.id ∉ db.jobs.map Job.id)
    (own : job.backendAlias = env.config.backendAlias) (unfinished : job.finishedAt = none)
    {outcome : DispatchOutcome} {now : Time} (mem : outcome.instance_ job now ∈ db'.jobs)
    (claimed : db'.claimed = db.claimed) (failed : db'.failed = db.failed)
    {task imported : Task} (imports : env.importString job.taskPath = .ok (.task imported))
    (same : api.using_ imported = api.using_ task) {r : TaskResult}
    (made : taskResultFromEnqueuedJob api (outcome.instance_ job now) task
      (outcome = .discarded) = .ok r) :
    getResult api env db' job.id = .ok r ∧ r.id = job.id := by
  have columns : (outcome.instance_ job now).id = job.id ∧
      (outcome.instance_ job now).backendAlias = job.backendAlias ∧
      (outcome.instance_ job now).taskPath = job.taskPath := by
    unfold DispatchOutcome.instance_
    split <;> exact ⟨rfl, rfl, rfl⟩
  rcases columns with ⟨id, backend, path⟩
  have settles := good.settles_of_new absent unfinished claimed failed outcome now
  have read := good'.getResult_of_settles mem (backend.trans own) (path ▸ imports)
    (congrFun same _) settles made
  rwa [id] at read

/-! ## Many tasks -/

/-- The discards of a batch, beside those there were. -/
theorem discarded_of_appendDispatchRows {now : Time} :
    ∀ {settled : Settled} {rows rows' : DispatchRows},
      appendDispatchRows env now rows settled = .ok rows' →
      rows'.discarded = rows.discarded ++ discardedJobs now settled
  | [], rows, rows', ok => by
      cases ok
      exact (List.append_nil _).symm
  | (entry, outcome) :: settled, rows, rows', ok => by
      rcases bind_eq_ok ok with ⟨mid, made, rest⟩
      rw [discarded_of_appendDispatchRows rest]
      have first : mid.discarded = rows.discarded ++ discardedJobs now [(entry, outcome)] := by
        cases outcome with
        | discarded =>
            cases made
            rfl
        | _ =>
            rcases bind_eq_ok made with ⟨row, -, written⟩
            cases written
            exact (List.append_nil _).symm
      rw [first, List.append_assoc, discardedJobs, discardedJobs, discardedJobs, ← List.map_append,
        ← List.filter_append, List.singleton_append]

/-- The groups are settled in order, each entry once. -/
theorem fst_of_dispatchGroups :
    ∀ {groups : List ((String × ConcurrencySettings) × List DispatchEntry)} {settled : Settled}
      {w w' : World}, Runs (dispatchGroups env groups) w settled w' →
      settled.map Prod.fst = groups.flatMap Prod.snd
  | [], settled, w, w', run => by
      rw [(Runs.of_pure run).1]
      rfl
  | ((key, settings), group) :: groups, settled, w, w', run => by
      rcases Runs.of_bind run with ⟨acquired, w₁, asked, rest⟩
      rcases Runs.of_bind rest with ⟨others, w₂, tail, done⟩
      rw [(Runs.of_pure done).1, List.map_append, groupOutcomes_fst,
        fst_of_dispatchGroups tail, List.flatMap_cons]

/-- A batch settles each of its entries once; only the rows of its slots are written. -/
theorem settled_of_buildDispatchRows {now : Time} {entries : List DispatchEntry}
    {result : DispatchRows × Settled}
    (run : Runs (buildDispatchRows env entries now) w result w') :
    (result.2.map Prod.fst).Perm entries ∧ result.1.discarded = discardedJobs now result.2 ∧
      jobParts w'.db = jobParts w.db := by
  rcases Runs.of_bind run with ⟨grouped, w₁, slots, rest⟩
  rcases Runs.of_bind rest with ⟨rows, w₂, computed, done⟩
  rcases Runs.of_ofExcept computed with ⟨ok, rfl⟩
  rcases Runs.of_pure done with ⟨rfl, rfl⟩
  refine ⟨?_, discarded_of_appendDispatchRows ok, ?_⟩
  · rw [List.map_append, fst_of_dispatchGroups slots]
    apply (List.Perm.append_left _ ?_).trans (Accounts.perm_slotEntries entries)
    have groups := (groupBy_flatMap_perm Prod.fst (slotEntries entries)).map Prod.snd
    rw [List.map_flatMap] at groups
    rw [slotGroups, List.flatMap_map]
    exact groups
  · exact Spares.dispatchGroups (fun _ _ => rfl) env _ _ _ _ slots

/-- The entries are those of the jobs, in their order and at their positions. -/
theorem entries_of_dispatchEntries {now : Time} :
    ∀ {jobs : List Job} {position : Nat} {entries : List DispatchEntry},
      dispatchEntries env now position jobs = .ok entries →
      entries.map DispatchEntry.job = jobs ∧
        entries.map DispatchEntry.position = List.range' position jobs.length
  | [], position, entries, ok => by
      cases ok
      exact ⟨rfl, rfl⟩
  | job :: jobs, position, entries, ok => by
      rcases bind_eq_ok ok with ⟨decision, -, rest⟩
      rcases bind_eq_ok rest with ⟨others, later, made⟩
      cases made
      rcases entries_of_dispatchEntries later with ⟨jobsOf, positions⟩
      rw [List.map_cons, List.map_cons, jobsOf, positions, List.length_cons, List.range'_succ]
      exact ⟨rfl, rfl⟩

/-- The outcomes come back in the order of the calls, one for each. -/
theorem inCallOrder_fst {entries : List DispatchEntry} {settled : Settled}
    (positions : (entries.map DispatchEntry.position).Nodup)
    (perm : (settled.map Prod.fst).Perm entries) :
    (inCallOrder entries settled).map Prod.fst = entries ∧
      ∀ s ∈ inCallOrder entries settled, s ∈ settled := by
  have unique : (settled.map (fun s => s.1.position)).Nodup := by
    have nodup := (perm.map DispatchEntry.position).nodup_iff.mpr positions
    rwa [List.map_map] at nodup
  have found : ∀ e ∈ entries,
      (settled.find? (fun s => s.1.position == e.position)).map Prod.fst = some e := by
    intro e mem
    rcases List.mem_map.mp (perm.mem_iff.mpr mem) with ⟨s, there, rfl⟩
    rw [find?_of_unique unique there]
    rfl
  constructor
  · rw [inCallOrder, List.map_filterMap, List.filterMap_congr found, List.filterMap_some]
  · intro s mem
    rcases List.mem_filterMap.mp mem with ⟨e, -, at'⟩
    exact List.mem_of_find?_eq_some at'

/-- The row of a job of a batch is the instance that is handed out for it. -/
theorem withResults_of_settled {now : Time} {settled : Settled}
    (ids : (settled.map (fun s => s.1.job.id)).Nodup) {s : DispatchEntry × DispatchOutcome}
    (mem : s ∈ settled) :
    Accounts.withResults (discardedJobs now settled) s.1.job = s.2.instance_ s.1.job now := by
  cases discarded : decide (s.2 = .discarded) with
  | true =>
      have outcome := of_decide_eq_true discarded
      have there : { s.1.job with finishedAt := some now, returnValue := none } ∈
          discardedJobs now settled :=
        List.mem_map.mpr ⟨s, List.mem_filter.mpr ⟨mem, discarded⟩, rfl⟩
      have unique : ((discardedJobs now settled).map Job.id).Nodup := by
        rw [discardedJobs, List.map_map]
        exact ids.sublist (List.filter_sublist.map _)
      rw [Accounts.withResults, find?_of_unique unique there, DispatchOutcome.instance_,
        if_pos outcome]
  | false =>
      have none : (discardedJobs now settled).find? (fun i => i.id == s.1.job.id) = none := by
        apply List.find?_eq_none.mpr
        intro i inDiscards same
        rcases List.mem_map.mp inDiscards with ⟨s', kept, rfl⟩
        rcases List.mem_filter.mp kept with ⟨mem', outcome⟩
        have one := List.inj_on_of_nodup_map ids mem' mem (beq_iff_eq.mp same)
        rw [one, discarded] at outcome
        cases outcome
      rw [Accounts.withResults, none, DispatchOutcome.instance_,
        if_neg (of_decide_eq_false discarded)]

/-- The jobs of a settled batch are apart when those of its entries are. -/
theorem nodup_ids_settled {entries : List DispatchEntry} {settled : Settled}
    (perm : (settled.map Prod.fst).Perm entries)
    (nodup : ((entries.map DispatchEntry.job).map Job.id).Nodup) :
    (settled.map (fun s => s.1.job.id)).Nodup := by
  have same := perm.map (fun e : DispatchEntry => e.job.id)
  rw [List.map_map] at same nodup
  exact same.nodup_iff.mpr nodup

/-- What a batch of new jobs leaves of the jobs and of the rows that do not wait. -/
theorem jobParts_of_enqueueBulkOnce {jobs : List Job} {result : Settled}
    (run : Runs (enqueueBulkOnce env jobs) w result w') :
    result.map (fun s => s.1.job) = jobs ∧ (jobs.map Job.id).Nodup ∧
      (∀ j ∈ jobs, j.id ∉ w.db.jobs.map Job.id) ∧
      (∀ s ∈ result, s.2.instance_ s.1.job (w.clock 0) ∈ w'.db.jobs) ∧
      w'.db.claimed = w.db.claimed ∧ w'.db.failed = w.db.failed := by
  rcases Runs.of_bind run with ⟨now, w₁, read, rest⟩
  cases read
  rcases Runs.of_bind rest with ⟨entries, w₂, computed, rest⟩
  rcases Runs.of_ofExcept computed with ⟨ok, unchanged⟩
  rcases Runs.of_bind (Runs.of_atomic rest) with ⟨u₃, w₃, inserted, rest⟩
  rcases Runs.of_bind rest with ⟨⟨rows, settled⟩, w₄, build, rest⟩
  rcases Runs.of_bind rest with ⟨u₅, w₅, ready, rest⟩
  rcases Runs.of_bind rest with ⟨u₆, w₆, scheduled, rest⟩
  rcases Runs.of_bind rest with ⟨u₇, w₇, blocked, rest⟩
  rcases Runs.of_bind rest with ⟨u₈, w₈, finished, done⟩
  rcases Runs.of_pure done with ⟨rfl, rfl⟩
  rcases Accounts.of_run_insertJobs inserted with ⟨nodup, new⟩
  have written : w₃.db = { w.db with jobs := w.db.jobs ++ jobs } := by
    rw [db_of_insertJobs inserted, unchanged]
  rw [unchanged] at new
  rcases settled_of_buildDispatchRows build with ⟨perm, discarded, built⟩
  rcases entries_of_dispatchEntries ok with ⟨jobsOf, positions⟩
  rcases inCallOrder_fst (by rw [positions]; exact List.nodup_range') perm with
    ⟨inOrder, mem_settled⟩
  have jobsOfResult : (inCallOrder entries settled).map (fun s => s.1.job) = jobs := by
    rw [← jobsOf, ← congrArg (List.map DispatchEntry.job) inOrder, List.map_map]
    rfl
  have made : jobParts w₇.db = jobParts w₃.db := by
    have readied := Spares.bulkCreateReadyExecutions (apart_jobParts nofun nofun) _ _ _ _ _ ready
    have later := Spares.bulkCreate (m := .scheduled) (apart_jobParts nofun nofun) _ _ _ _ scheduled
    have waiting := Spares.bulkCreate (m := .blocked) (apart_jobParts nofun nofun) _ _ _ _ blocked
    exact waiting.trans (later.trans (readied.trans built))
  rcases Prod.mk.inj made with ⟨jobs₇, rows₇⟩
  rcases Prod.mk.inj rows₇ with ⟨claimed₇, failed₇⟩
  rw [Accounts.of_run_bulkUpdateResults finished]
  refine ⟨jobsOfResult, nodup, new, ?_, ?_, ?_⟩
  · intro s mem
    have ids := nodup_ids_settled perm (jobsOf.symm ▸ nodup)
    rw [← withResults_of_settled ids (mem_settled s mem), ← discarded]
    apply List.mem_map_of_mem
    rw [jobs₇, written]
    apply List.mem_append_right
    rw [← jobsOfResult]
    exact List.mem_map.mpr ⟨s, mem, rfl⟩
  · rw [written] at claimed₇
    exact claimed₇
  · rw [written] at failed₇
    exact failed₇

/-- The jobs prepared, each from its call. -/
theorem forall₂_of_prepareSubmissions {config : Config} {validate : Bool} :
    ∀ {calls : List (TaskCall × JobId)} {jobs : List Job},
      prepareSubmissions config validate calls = .ok jobs →
      List.Forall₂ (fun c job => prepareSubmission config c.1 validate c.2 = .ok job) calls jobs
  | [], jobs, ok => by
      cases ok
      exact .nil
  | (call, jobId) :: calls, jobs, ok => by
      rcases bind_eq_ok ok with ⟨job, prepared, rest⟩
      rcases bind_eq_ok rest with ⟨others, later, made⟩
      cases made
      exact .cons prepared (forall₂_of_prepareSubmissions later)

/-- One result for each call, made of the instance at its place. -/
theorem forall₂_of_taskResults {now : Time} {Q : TaskCall × JobId → Job → Prop}
    {calls : List (TaskCall × JobId)} {settled : Settled} {results : List TaskResult}
    (matched : List.Forall₂ Q calls (settled.map (fun s => s.1.job)))
    (ok : taskResults api now calls settled = .ok results) :
    List.Forall₂ (fun c r => ∃ s ∈ settled, Q c s.1.job ∧
      taskResultFromEnqueuedJob api (s.2.instance_ s.1.job now) c.1.task
        (s.2 = .discarded) = .ok r) calls results := by
  induction calls generalizing settled results with
  | nil =>
      cases ok
      exact .nil
  | cons call calls ih =>
      cases settled with
      | nil => cases matched
      | cons s settled =>
          rcases List.forall₂_cons.mp matched with ⟨here, there⟩
          rcases bind_eq_ok ok with ⟨result, made, rest⟩
          rcases bind_eq_ok rest with ⟨others, later, built⟩
          cases built
          apply List.Forall₂.cons ⟨s, List.mem_cons_self, here, made⟩
          apply (ih there later).imp
          intro c r found
          rcases found with ⟨s', mem, found⟩
          exact ⟨s', List.mem_cons_of_mem _ mem, found⟩

/-- The columns that `using` sets are in the call already. -/
def plainApi : TaskApi where
  using_ task job := .ok { task with
    queueName := job.queueName, priority := job.priority, runAfter := job.scheduledAt }
  validateTask _ := .ok ()
  createdAt _ := 0
  updatedAt _ := 0

/-- A call that is dropped while another one for the account runs or waits. -/
def onceCall : TaskCall where
  task := ⟨"app.tasks.once", "default", 0, none, some (.int 1), none, some (.str "discard")⟩
  payload := some emptyPayload
  key := .value (.str "account")

/-- The process that imports the tasks that it calls. -/
def callingEnv : Env :=
  { sqliteEnv "default" with
    importString := fun path =>
      if path = "app.tasks.sync" then .ok (.task syncCall.task)
      else if path = "app.tasks.once" then .ok (.task onceCall.task)
      else .error (.importError path) }

/-- Two tasks that would run at once are dropped, the third one waits for its time. -/
def mixedTasks : List (TaskCall × JobId) := [
  (onceCall, 3),
  ({ syncCall with task := { syncCall.task with runAfter := some 99 } }, 4),
  (onceCall, 5)]

end Enqueue

end DjQueue
