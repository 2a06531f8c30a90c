import DjQueue.Reads.Status
import DjQueue.Recurring.Pairing
import DjQueue.Runtime.Rounds
import DjQueue.Slots.PossibleCounts

/-!
# The deep health check

`health.py` looks for rows that should not be there: jobs with two states, rows that disagree with
their job, runs without one, semaphores with impossible counts.  What it says about the processes
and about PostgreSQL itself comes from outside these tables.

No run of the system ever raises one of the alarms about the integrity of the tables.  What is left
of the report are the policies someone has edited, the claims that housekeeping is about to fail,
the runs a scheduler has yet to publish and the failures that retention is about to clear.
-/

namespace DjQueue

open Relational

/-! ## The check -/

/-- What the check reads of the configuration of the backend, and its arguments. -/
structure HealthCheck where
  backendAlias : String
  processAliveThreshold : Time
  clearFailedJobsAfter : Option Int
  maxAge : Option Time
  now : Time

/-- The text of a problem, if any row has it. -/
def problem (count : Nat) (text : String) : List String :=
  if count = 0 then [] else [toString count ++ " " ++ text]

/-- `process_cutoff_for_backend` -/
def HealthCheck.processCutoff (check : HealthCheck) : Time :=
  check.now - check.maxAge.getD check.processAliveThreshold

/-- The condition that `_job_health_problems` excludes. -/
def Job.hasValidPolicy (j : Job) : Bool :=
  (j.concurrencyLimit.isNone && j.concurrencyDuration.isNone && j.concurrencyOnConflict.isNone) ||
    (j.concurrencyKey.isSome && j.concurrencyLimit.any (fun limit => 1 ≤ limit) &&
      j.concurrencyDuration.any (fun duration => 1 ≤ duration) &&
      j.concurrencyOnConflict.any ["block", "discard"].contains) && j.concurrencyKey ≠ some ""

/-- The process of a claim, by its key. -/
def Db.processOf (db : Db) (r : ClaimedExecution) : Option Process :=
  r.processId.bind (fun id => db.processes.rows.find? (fun p => p.id == id))

namespace HealthCheck

variable (check : HealthCheck)

/-- Jobs of the backend whose rows fit no single state. -/
def invalidJobs (db : Db) : List Job :=
  db.jobs.filter (fun j =>
    j.backendAlias == check.backendAlias && invalidExecutionStateQuery.holds db j)

/-- Jobs of the backend whose concurrency policy does not validate. -/
def invalidPolicies (db : Db) : List Job :=
  db.jobs.filter (fun j => j.backendAlias == check.backendAlias && !j.hasValidPolicy)

/-- `_backend_owned_state_models` -/
def backendOwnedStateModels : List (String × StateModel) :=
  [("ready", .ready), ("scheduled", .scheduled), ("blocked", .blocked)]

/-- The rows that `_state_ownership_mismatch_counts` counts from. -/
def ownedRows (m : StateModel) (db : Db) : List (m.Row × Job) :=
  (selectRelatedJob db (db.table m).rows).filter (fun r =>
    rowBackendAlias r.1 == some check.backendAlias || r.2.backendAlias == check.backendAlias)

/-- How many rows of a model name another backend than their job. -/
def mismatchedBackends (m : StateModel) (db : Db) : Nat :=
  (check.ownedRows m db).countP (fun r => rowBackendAlias r.1 ≠ some r.2.backendAlias)

/-- How many rows of a model name another queue than their job. -/
def mismatchedQueues (m : StateModel) (db : Db) : Nat :=
  (check.ownedRows m db).countP (fun r => rowQueueName r.1 ≠ some r.2.queueName)

/-- The problems of the jobs, in the order they are reported. -/
def jobHealthProblems (db : Db) : List String :=
  problem (check.invalidJobs db).length "jobs have invalid execution state" ++
  problem (check.invalidPolicies db).length "jobs have invalid concurrency policy" ++
  backendOwnedStateModels.flatMap (fun owned =>
    problem (check.mismatchedBackends owned.2 db)
      (owned.1 ++ " execution rows have mismatched backend ownership") ++
    problem (check.mismatchedQueues owned.2 db)
      (owned.1 ++ " execution rows have mismatched queue ownership"))

/-- Claims of the backend whose process is missing, of another backend, or stale. -/
def badClaims (db : Db) : List (ClaimedExecution × Job) :=
  (selectRelatedJob (m := .claimed) db db.claimed.rows).filter (fun r =>
    r.2.backendAlias == check.backendAlias && (db.processOf r.1).all (fun p =>
      p.backendAlias ≠ check.backendAlias || p.lastHeartbeatAt < check.processCutoff))

/-- The problem of the claims. -/
def claimHealthProblems (db : Db) : List String :=
  problem (check.badClaims db).length
    "claimed execution rows have missing or stale processes"

/-- Reservations of the backend that have no job. -/
def withoutJobs (db : Db) : List RecurringExecution :=
  db.recurringExecutions.rows.filter (fun e =>
    e.backendAlias == check.backendAlias && e.intendedJobId.isSome && e.jobId.isNone)

/-- The rows with a job, and their jobs. -/
def linkedRuns (db : Db) : List (RecurringExecution × Job) :=
  db.recurringExecutions.rows.filterMap (fun e =>
    (e.jobId.bind db.findJob).map (fun j => (e, j)))

/-- Reservations linked to a job of another backend. -/
def mismatchedRuns (db : Db) : List (RecurringExecution × Job) :=
  (linkedRuns db).filter (fun r =>
    (r.1.backendAlias == check.backendAlias || r.2.backendAlias == check.backendAlias) &&
      r.1.backendAlias ≠ r.2.backendAlias)

/-- Reservations linked to a job other than the intended one. -/
def mistakenRuns (db : Db) : List (RecurringExecution × Job) :=
  (linkedRuns db).filter (fun r =>
    r.1.backendAlias == check.backendAlias && r.1.intendedJobId.isSome &&
      r.1.intendedJobId ≠ r.1.jobId)

/-- The problems of the recurring runs. -/
def recurringHealthProblems (db : Db) : List String :=
  problem (check.withoutJobs db).length "recurring execution reservations have no job" ++
  problem (check.mismatchedRuns db).length
    "recurring execution rows have mismatched backend ownership" ++
  problem (check.mistakenRuns db).length
    "recurring execution rows have mismatched job identity"

/-- Null counts are never below zero. -/
def badSemaphores (db : Db) : List Semaphore :=
  db.semaphores.rows.filter (fun r => r.limit < 1 || r.activeCount.any (fun n => n < 0) ||
    r.value < 0 || r.limit < r.value)

/-- The problem of the semaphores. -/
def semaphoreHealthProblems (db : Db) : List String :=
  problem (badSemaphores db).length "semaphores have impossible slot counts"

/-- `failed_job_metrics`, as far as the check reads it. -/
def overRetention (retentionSeconds : Int) (db : Db) : List (FailedExecution × Job) :=
  (selectRelatedJob (m := .failed) db db.failed.rows).filter (fun r =>
    r.2.backendAlias == check.backendAlias &&
      r.1.createdAt < check.now - seconds retentionSeconds)

/-- The problem of failed rows kept beyond their retention, where one is configured. -/
def retentionHealthProblems (db : Db) : List String :=
  match check.clearFailedJobsAfter with
  | none => []
  | some retentionSeconds =>
      problem (check.overRetention retentionSeconds db).length
        ("failed execution rows exceed configured retention of " ++ toString retentionSeconds ++
          " seconds")

/-- What it says of the processes and of PostgreSQL is given. -/
def deepHealthProblems (processProblems postgresProblems : List String) (db : Db) : List String :=
  processProblems ++ check.jobHealthProblems db ++ check.claimHealthProblems db ++
    check.recurringHealthProblems db ++ semaphoreHealthProblems db ++
    check.retentionHealthProblems db ++ postgresProblems

end HealthCheck

/-! ## Alarms that never go off -/

/-- Nothing counted, nothing reported. -/
@[simp] theorem problem_zero (text : String) : problem 0 text = [] := rfl

namespace Accounts

variable {a : Audit} {db : Db} (check : HealthCheck)

/-- In a sound state no job has invalid state. -/
theorem invalidJobs_eq_nil (good : Accounts a [] 0 db) : check.invalidJobs db = [] := by
  apply List.filter_eq_nil_iff.mpr
  intro j mem
  rw [good.status_ne_invalid mem, Bool.and_false]
  exact Bool.false_ne_true

/-- A row repeats the columns of the job it is joined with. -/
theorem matches_of_joined (good : Accounts a [] 0 db) {m : StateModel} {r : m.Row × Job}
    (mem : r ∈ selectRelatedJob db (db.table m).rows) : r.2.identity.Matches r.1 := by
  rcases mem_selectRelatedJob.mp mem with ⟨there, found⟩
  rcases good.known_of_row there with ⟨j, -, -, found', -, fits⟩
  cases found.symm.trans found'
  exact fits

/-- In a sound state rows agree with their jobs. -/
theorem ownership_matches (good : Accounts a [] 0 db) {owned : String × StateModel}
    (mem : owned ∈ HealthCheck.backendOwnedStateModels) :
    check.mismatchedBackends owned.2 db = 0 ∧ check.mismatchedQueues owned.2 db = 0 := by
  rcases owned with ⟨label, m⟩
  have columns : ∀ r : m.Row, (rowBackendAlias r).isSome ∧ (rowQueueName r).isSome := by
    intro r
    cases m with
    | ready => exact ⟨rfl, rfl⟩
    | scheduled => exact ⟨rfl, rfl⟩
    | blocked => exact ⟨rfl, rfl⟩
    | claimed => simp [HealthCheck.backendOwnedStateModels] at mem
    | failed => simp [HealthCheck.backendOwnedStateModels] at mem
  have same : ∀ r ∈ check.ownedRows m db, rowBackendAlias r.1 = some r.2.backendAlias ∧
      rowQueueName r.1 = some r.2.queueName := by
    intro r mem
    have fits := good.matches_of_joined (List.mem_of_mem_filter mem)
    rcases Option.isSome_iff_exists.mp (columns r.1).1 with ⟨b, backend⟩
    rcases Option.isSome_iff_exists.mp (columns r.1).2 with ⟨q, queue⟩
    exact ⟨backend.trans (congrArg some (fits.backend b backend)),
      queue.trans (congrArg some (fits.queue q queue))⟩
  constructor
  · apply List.countP_eq_zero.mpr
    intro r mem
    simp [(same r mem).1]
  · apply List.countP_eq_zero.mpr
    intro r mem
    simp [(same r mem).2]

/-- In a sound state the jobs' report is that of their policies. -/
theorem jobHealthProblems_eq (good : Accounts a [] 0 db) :
    check.jobHealthProblems db =
      problem (check.invalidPolicies db).length "jobs have invalid concurrency policy" := by
  have owned : HealthCheck.backendOwnedStateModels.flatMap (fun owned =>
      problem (check.mismatchedBackends owned.2 db)
        (owned.1 ++ " execution rows have mismatched backend ownership") ++
      problem (check.mismatchedQueues owned.2 db)
        (owned.1 ++ " execution rows have mismatched queue ownership")) = [] := by
    apply List.flatMap_eq_nil_iff.mpr
    intro owned mem
    rcases good.ownership_matches check mem with ⟨backends, queues⟩
    rw [backends, queues]
    rfl
  rw [HealthCheck.jobHealthProblems, owned, good.invalidJobs_eq_nil check, List.append_nil]
  rfl

/-- The job of a run is of its backend. -/
theorem mismatchedRuns_eq_nil (good : Accounts a [] 0 db) : check.mismatchedRuns db = [] := by
  apply List.filter_eq_nil_iff.mpr
  intro r mem
  rcases List.mem_filterMap.mp mem with ⟨e, there, made⟩
  rcases Option.map_eq_some_iff.mp made with ⟨j, joined, rfl⟩
  rcases Option.bind_eq_some_iff.mp joined with ⟨id, linked, found⟩
  rcases good.registry.links e there id linked with ⟨j', inJobs, rfl, backend⟩
  cases found.symm.trans (good.findJob_of_mem inJobs)
  simp [backend]

end Accounts

/-- In a sound state reservations are linked to the intended job. -/
theorem PairedRuns.mistakenRuns_eq_nil {db : Db} (paired : PairedRuns db) (check : HealthCheck) :
    check.mistakenRuns db = [] := by
  apply List.filter_eq_nil_iff.mpr
  intro r mem
  rcases List.mem_filterMap.mp mem with ⟨e, there, made⟩
  rcases Option.map_eq_some_iff.mp made with ⟨j, joined, rfl⟩
  rcases Option.bind_eq_some_iff.mp joined with ⟨id, linked, -⟩
  simp [linked, paired e there id linked]

/-- No semaphore has impossible counts. -/
theorem PossibleSlots.badSemaphores_eq_nil {db : Db} (possible : PossibleSlots db.semaphores) :
    HealthCheck.badSemaphores db = [] := by
  apply List.filter_eq_nil_iff.mpr
  intro r mem
  rcases possible.rows r mem with ⟨limit, least, most, active⟩
  have counted : r.activeCount.any (fun n => n < 0) = false := by
    cases count : r.activeCount with
    | none => rfl
    | some n => simp [active n count]
  rw [counted]
  simp [limit, least, most]

/-! ## Claims -/

/-- The housekeeping of the backend with the cutoff of the check; the process that runs it is not
stale itself. -/
structure HealthCheck.Watches (check : HealthCheck) (h : Housekeeping) (db : Db) : Prop where
  backend : h.env.config.backendAlias = check.backendAlias
  cutoff : h.cutoff = check.processCutoff
  excluded : ∀ p ∈ db.processes.rows, h.excluded = some p.id → h.cutoff ≤ p.lastHeartbeatAt

namespace Accounts

variable {a : Audit} {db : Db} {check : HealthCheck} {h : Housekeeping}

/-- The process of a claim has been silent for too long exactly if housekeeping finds it stale. -/
theorem silent_iff_stale (good : Accounts a [] 0 db) (watches : check.Watches h db)
    {r : ClaimedExecution} (mem : r ∈ db.claimed.rows) {j : Job}
    (found : db.findJob r.jobId = some j) (own : j.backendAlias = check.backendAlias) :
    (db.processOf r).all (fun p => p.backendAlias ≠ check.backendAlias ||
      p.lastHeartbeatAt < check.processCutoff) = r.processId.all (h.staleIds db).contains := by
  cases claimed : r.processId with
  | none => simp [Db.processOf, claimed]
  | some id =>
      rcases (good.rowFits .claimed r mem).process id claimed with ⟨p, there, rfl, -⟩
      have backend : p.backendAlias = check.backendAlias :=
        (good.backend_of_claimed mem there claimed found).symm.trans own
      have process : db.processOf r = some p := by
        rw [Db.processOf, claimed]
        exact find?_of_unique good.registry.processIds there
      have stale : (h.staleIds db).contains p.id = true ↔
          p.lastHeartbeatAt < check.processCutoff := by
        rw [List.contains_iff_mem, Housekeeping.mem_staleIds, watches.cutoff.symm]
        constructor
        · intro there'
          rcases there' with ⟨p', inTable, same, -, late, -⟩
          cases List.inj_on_of_nodup_map good.registry.processIds inTable there same
          exact late
        · intro late
          refine ⟨p, there, rfl, backend.trans watches.backend.symm, late, fun excluded => ?_⟩
          exact absurd late (not_lt.mpr (watches.excluded p there excluded))
      rw [process, Option.all_some, Option.all_some, Bool.eq_iff_iff, stale]
      simp [backend]

/-- The check counts the claims that housekeeping is about to fail. -/
theorem length_badClaims (good : Accounts a [] 0 db) (watches : check.Watches h db) :
    (check.badClaims db).length = (h.deadJobs db).length := by
  rw [HealthCheck.badClaims, selectRelatedJob, ← List.countP_eq_length_filter,
    List.countP_filterMap, Housekeeping.deadJobs, List.length_map, ← List.countP_eq_length_filter]
  apply List.countP_congr
  intro r mem
  have id : rowJobId (m := .claimed) r = r.jobId := rfl
  rw [Housekeeping.isDead, watches.backend, id]
  cases found : db.findJob r.jobId with
  | none => simp
  | some j =>
      by_cases own : j.backendAlias = check.backendAlias
      · rw [← good.silent_iff_stale watches mem found own]
        simp [own]
      · simp [own]

end Accounts

/-! ## The report -/

/-- The problems that a sound state can have. -/
def HealthCheck.report (check : HealthCheck) (h : Housekeeping)
    (processProblems postgresProblems : List String) (db : Db) : List String :=
  processProblems ++
    problem (check.invalidPolicies db).length "jobs have invalid concurrency policy" ++
    problem (h.deadJobs db).length "claimed execution rows have missing or stale processes" ++
    problem (check.withoutJobs db).length "recurring execution reservations have no job" ++
    check.retentionHealthProblems db ++ postgresProblems

/-- In a sound state these are the only problems that can be reported. -/
theorem deepHealthProblems_eq {a : Audit} {db : Db} {check : HealthCheck} {h : Housekeeping}
    (good : Accounts a [] 0 db) (possible : PossibleSlots db.semaphores) (paired : PairedRuns db)
    (watches : check.Watches h db) (processProblems postgresProblems : List String) :
    check.deepHealthProblems processProblems postgresProblems db =
      check.report h processProblems postgresProblems db := by
  unfold HealthCheck.deepHealthProblems HealthCheck.report HealthCheck.claimHealthProblems
    HealthCheck.recurringHealthProblems HealthCheck.semaphoreHealthProblems
  rw [good.jobHealthProblems_eq, good.length_badClaims watches, good.mismatchedRuns_eq_nil,
    paired.mistakenRuns_eq_nil, possible.badSemaphores_eq_nil]
  simp only [List.length_nil, problem_zero, List.append_nil]

/-- The process that runs housekeeping is as fresh as before. -/
theorem HealthCheck.Watches.recovers {check : HealthCheck} {h : Housekeeping} {db db' : Db}
    {ids : List JobId} {gone : List Nat} (watches : check.Watches h db)
    (recovers : h.Recovers ids gone db db') : check.Watches h db' := by
  refine ⟨watches.backend, watches.cutoff, ?_⟩
  intro p mem excluded
  rw [recovers.processes] at mem
  rcases List.mem_map.mp mem with ⟨q, there, rfl⟩
  rcases orphanedBy_columns gone q with ⟨id, -, heartbeat⟩
  rw [heartbeat]
  rw [id] at excluded
  exact watches.excluded q (List.mem_of_mem_filter there) excluded

/-- The check of a backend whose processes are stale after five minutes, at the time they are. -/
def lateCheck : HealthCheck where
  backendAlias := "default"
  processAliveThreshold := seconds 300
  clearFailedJobsAfter := some 60
  maxAge := none
  now := seconds 300 + 10

end DjQueue
