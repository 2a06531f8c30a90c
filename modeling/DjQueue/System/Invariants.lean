import DjQueue.System.Steps

/-!
# What holds in every reachable state

Any number of processes run operations on one database, in any order, at any clock readings
and with any outcome.  Rows of earlier releases have policies of their own, so the policy
columns of the jobs may also change between operations.

The three results: the slots of a key are accounted for, every job has exactly one state, and
no operation touches the rows of another backend.
-/

namespace DjQueue

open Relational

/-! ## Runs -/

/-- The policy columns of a job. -/
structure Policy where
  concurrencyLimit : Option Int
  concurrencyDuration : Option Int
  concurrencyOnConflict : Option String

/-- A job under another policy. -/
def Job.withPolicy (j : Job) (policy : Policy) : Job :=
  { j with
    concurrencyLimit := policy.concurrencyLimit
    concurrencyDuration := policy.concurrencyDuration
    concurrencyOnConflict := policy.concurrencyOnConflict }

/-- The jobs under other policies. -/
def Db.withPolicies (db : Db) (policy : Job → Policy) : Db :=
  { db with jobs := db.jobs.map (fun j => j.withPolicy (policy j)) }

/-- One step of the system, while every job with the tracked key resolves to the tracked limit. -/
inductive Step (tracked : Option (String × Int)) : Db → Db → Prop
  | operation {db : Db} (env : Env) (op : Operation) (clock : Nat → Time) (uuids : Nat → JobId)
      (promised : op.Promised tracked env db) :
      Step tracked db (op.final env ⟨db, clock, uuids⟩).db
  | policies {db : Db} (policy : Job → Policy)
      (resolves : ∀ j ∈ db.jobs, Resolves tracked (j.withPolicy (policy j))) :
      Step tracked db (db.withPolicies policy)

/-- The states any finite run reaches from the empty database. -/
def Reachable (tracked : Option (String × Int)) (db : Db) : Prop :=
  Relation.ReflTransGen (Step tracked) Db.empty db

theorem sound_empty {tracked : Option (String × Int)} (positive : ∀ t, tracked = some t → 0 < t.2) :
    Sound tracked Db.empty := by
  have noRows : ∀ m, (Db.empty.table m).rows = [] := fun m => by cases m <;> rfl
  refine ⟨⟨auditOf (Env.ofConfig { family := .sqlite }) Db.empty [] [] tracked positive, rfl, ?_⟩,
    ⟨List.nodup_nil, fun _ mem => absurd mem List.not_mem_nil⟩⟩
  refine {
    jobIds := List.nodup_nil
    knows := fun _ mem => absurd mem List.not_mem_nil
    rowIds := fun m => by rw [noRows]; exact List.nodup_nil
    rowBound := fun m r mem => by rw [noRows] at mem; exact absurd mem List.not_mem_nil
    rowFits := fun m r mem => by rw [noRows] at mem; exact absurd mem List.not_mem_nil
    places := fun _ mem => absurd mem List.not_mem_nil
    semaphores := ?_
    slots := fun _ _ => rfl
    registry := ?_
    untouched := Audit.Untouched.refl _ }
  · exact ⟨List.nodup_nil, List.nodup_nil, fun _ mem => absurd mem List.not_mem_nil,
      Nat.one_ne_zero⟩
  · exact ⟨List.nodup_nil, fun _ mem => absurd mem List.not_mem_nil,
      fun _ mem => absurd mem List.not_mem_nil, fun _ mem => absurd mem List.not_mem_nil⟩

/-- New policies that resolve keep it sound. -/
theorem sound_withPolicies {tracked : Option (String × Int)} {db : Db} {policy : Job → Policy}
    (sound : Sound tracked db)
    (resolves : ∀ j ∈ db.jobs, Resolves tracked (j.withPolicy (policy j))) :
    Sound tracked (db.withPolicies policy) := by
  obtain ⟨⟨a, rfl, good⟩, pauses⟩ := sound
  have ids : (db.withPolicies policy).jobs.map Job.id = db.jobs.map Job.id := by
    rw [Db.withPolicies, List.map_map]
    rfl
  refine ⟨⟨{ a with start := db.withPolicies policy }, rfl, ?_⟩, pauses⟩
  obtain ⟨processIds, processBound, supervisors, links⟩ := good.registry
  refine {
    jobIds := by rw [ids]; exact good.jobIds
    knows := fun j mem => ?_
    rowIds := good.rowIds
    rowBound := good.rowBound
    rowFits := fun m r mem => ?_
    places := fun j mem => ?_
    semaphores := good.semaphores
    slots := good.slots
    registry := ⟨processIds, processBound, supervisors, fun e mem id linked => ?_⟩
    untouched := Audit.Untouched.refl _ }
  · obtain ⟨i, there, rfl⟩ := List.mem_map.mp mem
    exact ⟨(good.knows i there).identity, (good.knows i there).key, resolves i there⟩
  · obtain ⟨job, columns, process⟩ := good.rowFits m r mem
    exact ⟨by rw [ids]; exact job, columns, process⟩
  · obtain ⟨i, there, rfl⟩ := List.mem_map.mp mem
    exact good.places i there
  · obtain ⟨j, there, same⟩ := links e mem id linked
    exact ⟨_, List.mem_map_of_mem there, same⟩

theorem sound_of_step {tracked : Option (String × Int)} {db db' : Db} (step : Step tracked db db')
    (sound : Sound tracked db) : Sound tracked db' := by
  cases step with
  | operation env op clock uuids promised =>
      exact (op.keeps (w := ⟨db, clock, uuids⟩) sound promised).sound
  | policies policy resolves => exact sound_withPolicies sound resolves

theorem sound_of_reachable {tracked : Option (String × Int)}
    (positive : ∀ t, tracked = some t → 0 < t.2) {db : Db} (reached : Reachable tracked db) :
    Sound tracked db := by
  induction reached with
  | refl => exact sound_empty positive
  | tail _ step ih => exact sound_of_step step ih

/-! ## A run

Two jobs of one key under limit one: the first is ready, the second waits. -/

/-- A process of one backend that imports nothing. -/
def sqliteEnv (backendAlias : String) : Env :=
  Env.ofConfig { backendAlias := backendAlias, family := .sqlite }

/-- A task that runs one call at a time for an account. -/
def syncCall : TaskCall where
  task := ⟨"app.tasks.sync", "default", 0, none, some (.int 1), none, none⟩
  payload := some emptyPayload
  key := .value (.str "account")

/-- The job enqueued, of a task whose key is `account` and whose limit is one. -/
def afterEnqueue (jobId : JobId) (db : Db) : Db :=
  ((Operation.job (.enqueueJobWithDispatch syncCall true jobId)).final (sqliteEnv "default")
    ⟨db, fun _ => 0, fun _ => 0⟩).db

/-- Two such jobs. -/
def twoEnqueued : Db := afterEnqueue 2 (afterEnqueue 1 Db.empty)

/-- The job's policy is that of the tracked key. -/
theorem resolves_syncCall {tracked : Option (String × Int)}
    (one : ∀ t, tracked = some t → t.2 = 1) {jobId : JobId} {job : Job}
    (prepared : prepareSubmission (sqliteEnv "default").config syncCall true jobId = .ok job) :
    Resolves tracked job := by
  intro t tracked _
  rw [one t tracked]
  refine resolvesTo_of_persisted ?_
  cases prepared
  rfl

theorem reachable_twoEnqueued {tracked : Option (String × Int)}
    (one : ∀ t, tracked = some t → t.2 = 1) : Reachable tracked twoEnqueued := by
  have step : ∀ jobId db, Step tracked db (afterEnqueue jobId db) := fun jobId db =>
    .operation (sqliteEnv "default") (.job (.enqueueJobWithDispatch syncCall true jobId)) _ _
      fun _ prepared => resolves_syncCall one prepared
  exact .tail (.tail .refl (step 1 _)) (step 2 _)

/-! ## Slots -/

/-- The jobs with this key that are ready or claimed. -/
def Db.activeJobs (db : Db) (key : String) : List Job :=
  db.jobs.filter (fun j => j.concurrencyKey == some key && db.isActive j)

/-- Counting rows and counting jobs come to the same. -/
theorem Accounts.active_eq_length {a : Audit} {db : Db} {key : String} {L : Int}
    (good : Accounts a [] 0 db) (tracked : a.tracked = some (key, L)) :
    a.active db = (db.activeJobs key).length := by
  have apart : (db.stateJobIds .ready ++ db.stateJobIds .claimed).Nodup := by
    rw [List.nodup_append]
    refine ⟨good.stateJobIds_nodup .ready, good.stateJobIds_nodup .claimed, ?_⟩
    rintro id ready _ claimed rfl
    obtain ⟨j, there, rfl⟩ := good.job_of_mem_stateJobIds ready
    have places := good.places j there
    rw [Accounts.places_eq] at places
    have one := List.count_pos_iff.mpr ready
    have two := List.count_pos_iff.mpr claimed
    omega
  have perm : ((db.stateJobIds .ready ++ db.stateJobIds .claimed).filter a.holds).Perm
      ((db.activeJobs key).map Job.id) := by
    refine (List.perm_ext_iff_of_nodup (apart.filter _)
      (good.jobIds.sublist (List.filter_sublist.map _))).mpr fun id => ?_
    rw [List.mem_filter, List.mem_append, List.mem_map]
    constructor
    · rintro ⟨rows, holds⟩
      obtain ⟨j, there, rfl⟩ := rows.elim good.job_of_mem_stateJobIds good.job_of_mem_stateJobIds
      refine ⟨j, List.mem_filter.mpr ⟨there, ?_⟩, rfl⟩
      simp only [Audit.holds, (good.knows j there).identity, Option.any_some, Job.identity] at holds
      obtain ⟨k, keyOf, same⟩ := (Option.any_eq_true _ _).mp holds
      simp only [Audit.tracks, tracked, Option.any_some, beq_iff_eq] at same
      simp only [keyOf, ← same, Db.isActive, Db.hasState, BEq.rfl, Bool.true_and, Bool.or_eq_true,
        List.contains_iff_mem]
      exact rows.symm
    · rintro ⟨j, active, rfl⟩
      obtain ⟨there, hit⟩ := List.mem_filter.mp active
      simp only [Bool.and_eq_true, beq_iff_eq, Db.isActive, Db.hasState, Bool.or_eq_true,
        List.contains_iff_mem] at hit
      refine ⟨hit.2.symm, ?_⟩
      simp [Audit.holds, (good.knows j there).identity, Job.identity, hit.1, Audit.tracks, tracked]
  have lengths := perm.length_eq
  rw [List.length_map, ← List.countP_eq_length_filter, List.countP_append] at lengths
  exact lengths

/-- Every job is in exactly one state: a row in one state table, or a `finished_at`.  The columns its
row repeats are its own. -/
theorem one_state_per_job {db : Db} (reached : Reachable none db) {j : Job} (mem : j ∈ db.jobs) :
    db.places j = 1 ∧ ∀ m, ∀ r ∈ (db.table m).rows, rowJobId r = j.id →
      (∀ b, rowBackendAlias r = some b → b = j.backendAlias) ∧
        ∀ q, rowQueueName r = some q → q = j.queueName := by
  obtain ⟨⟨a, -, good⟩, -⟩ := sound_of_reachable (by rintro t ⟨⟩) reached
  refine ⟨good.places j mem, fun m r there same => ?_⟩
  obtain ⟨i, inJobs, rowJob, -, -, columns⟩ := good.known_of_row there
  obtain rfl := good.eq_of_id inJobs mem (rowJob.trans same)
  exact ⟨columns.backend, columns.queue⟩

theorem one_state_per_job_after_two_enqueues :
    twoEnqueued.jobs.length = 2 ∧ ∀ j ∈ twoEnqueued.jobs, twoEnqueued.places j = 1 :=
  ⟨by decide +kernel, fun _ mem =>
    (one_state_per_job (reachable_twoEnqueued (by rintro t ⟨⟩)) mem).1⟩

/-! ## Backends -/

/-- Whatever an operation of one backend does and however it ends, the rows of the others are the
same. -/
theorem other_backends_unchanged {db : Db} (reached : Reachable none db) (env : Env)
    (op : Operation) (clock : Nat → Time) (uuids : Nat → JobId)
    (promised : op.Promised none env db) {B : String} (other : B ≠ env.config.backendAlias) :
    (op.final env ⟨db, clock, uuids⟩).db.view B = db.view B :=
  (op.keeps (w := ⟨db, clock, uuids⟩) (sound_of_reachable (by rintro t ⟨⟩) reached)
    promised).view B other

/-- Another backend enqueues a job under the same key. -/
theorem other_backends_unchanged_by_enqueue :
    ((Operation.job (.enqueueJobWithDispatch syncCall true 3)).final (sqliteEnv "reports")
      ⟨twoEnqueued, fun _ => 0, fun _ => 0⟩).db.view "default" = twoEnqueued.view "default" :=
  other_backends_unchanged (reachable_twoEnqueued (by rintro t ⟨⟩)) (sqliteEnv "reports")
    (.job (.enqueueJobWithDispatch syncCall true 3)) _ _ (by rintro job - t ⟨⟩) (by decide)

end DjQueue
