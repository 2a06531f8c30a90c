import DjQueue.Execution.Running
import DjQueue.Lifecycle.Runs
import DjQueue.Runtime.LostClaims

/-!
# A claim is settled with what its task did

On sound tables the end of a claim goes through whenever the claim is still there, unless what the
task did cannot be written, or the slot of the job cannot be given back.  It records what the task
did, and of the other jobs it changes waiters only, which it may make ready.
-/

namespace DjQueue

open Relational Payloads

/-- Why the slot of the job cannot be given back: looking its policy up raises, or a deadline or a
number of slots cannot be computed under the settings that a release finds. -/
inductive SlotStuck (env : Env) (w : World) (job : Job) (task : Option Imported) : PyError → Prop
  | policy {e : PyError} (holds : job.slotKey ≠ none)
      (looked : concurrencySettingsForJob env job task = .error e)
      (unexpected : ∀ message, e ≠ .dispatchPolicyError message) : SlotStuck env w job task e
  | slot {e : PyError} {key : String} {limit duration : Int} (holds : job.slotKey = some key)
      (settings : Runs (releaseSettings env job key task) w (limit, duration) w)
      (obstacle : SlotObstacle env.config.family w limit duration e) : SlotStuck env w job task e

/-- What is left of a job that was completed. -/
def CompletionRecorded (config : Config) (id : JobId) (returnValue : Option String)
    (jobs : List Job) : Prop :=
  if config.preserveFinishedJobs then
    ∃ j ∈ jobs, j.id = id ∧ j.finishedAt.isSome = true ∧ j.returnValue = returnValue
  else id ∉ jobs.map Job.id

/-- A failure is recorded for the job. -/
def FailureRecorded (failure : Failure) (id : JobId) (rows : List FailedExecution) : Prop :=
  ∃ r ∈ rows, r.jobId = id ∧ r.exceptionClass = failure.exceptionClass ∧
    r.message = failure.message ∧ r.traceback = failure.traceback ∧ r.retryAt = none

/-! ## Giving the slot back -/

/-- The settings of a release are found, or the policy raises. -/
theorem settings_outcome (env : Env) (job : Job) (key : String) (task : Option Imported)
    (w : World) :
    (∃ limit duration, Runs (releaseSettings env job key task) w (limit, duration) w) ∨
      ∃ e, Fails (releaseSettings env job key task) w e ∧
        concurrencySettingsForJob env job task = .error e ∧
          ∀ message, e ≠ .dispatchPolicyError message := by
  cases looked : concurrencySettingsForJob env job task with
  | ok settings =>
      refine .inl ⟨settings.limit, settings.durationSeconds, Runs.bind (runs_getDb w) ?_⟩
      rw [looked]
      exact runs_pure _ _
  | error e =>
      cases e with
      | dispatchPolicyError message =>
          refine .inl ⟨semaphoreLimitOrOne w.db key, env.config.defaultConcurrencyDuration,
            Runs.bind (runs_getDb w) ?_⟩
          rw [looked]
          exact runs_pure _ _
      | _ =>
          refine .inr ⟨_, Runs.bind_fails (runs_getDb w) ?_, rfl, nofun⟩
          rw [looked]
          exact Fails.of_throw _ _

/-- A release finds its settings in the policy, or in the row of the key. -/
theorem runs_releaseSettings_of_semaphores {env : Env} {job : Job} {key : String}
    {task : Option Imported} {settings : Int × Int} {w w' : World}
    (same : w'.db.semaphores = w.db.semaphores)
    (run : Runs (releaseSettings env job key task) w' settings w') :
    Runs (releaseSettings env job key task) w settings w := by
  rcases Runs.of_bind run with ⟨db, w₁, got, rest⟩
  rcases of_run_getDb got with ⟨rfl, rfl⟩
  refine Runs.bind (runs_getDb w) ?_
  have limits : semaphoreLimitOrOne w₁.db key = semaphoreLimitOrOne w.db key := by
    unfold semaphoreLimitOrOne Db.findSemaphore
    rw [same]
  rw [limits] at rest
  split at rest
  · rw [(Runs.of_pure rest).1]
    exact runs_pure _ _
  · rw [(Runs.of_pure rest).1]
    exact runs_pure _ _
  · exact (Runs.of_throw rest).elim

/-- What is in the way after the claim has ended was in the way before. -/
theorem SlotStuck.earlier {env : Env} {job : Job} {task : Option Imported} {w w' : World}
    {e : PyError} (ticks : Ticks w w') (same : w'.db.semaphores = w.db.semaphores)
    (later : SlotStuck env w' job task e) : SlotStuck env w job task e := by
  cases later with
  | policy holds looked unexpected => exact .policy holds looked unexpected
  | slot holds settings obstacle =>
      apply SlotStuck.slot holds (runs_releaseSettings_of_semaphores same settings)
      apply obstacle.earlier ticks
      intro _ _ countable
      rw [same]
      exact countable

namespace Accounts

variable {a : Audit} {hand : List JobId} {owed : Nat} {w w' : World} {job : Job}

/-- A release succeeds, or is stuck for one of three reasons. -/
theorem release_outcome (good : Accounts a hand owed w.db) (untracked : a.tracked = none)
    (job : Job) (task : Option Imported) :
    (∃ w', Runs (DjQueue.releaseConcurrencySlot a.env job task) w () w') ∨
      ∃ e, Fails (DjQueue.releaseConcurrencySlot a.env job task) w e ∧
        SlotStuck a.env w job task e := by
  unfold DjQueue.releaseConcurrencySlot
  cases slot : job.slotKey with
  | none => exact .inl ⟨w, runs_pure _ _⟩
  | some key =>
      rcases settings_outcome a.env job key task w with
        ⟨limit, duration, looked⟩ | ⟨e, failed, raised, unexpected⟩
      · rcases good.releaseSlot_outcome untracked key limit duration with
          ⟨-, w', run, -⟩ | ⟨e, failed, obstacle⟩
        · exact .inl ⟨w', Runs.bind looked run⟩
        · exact .inr ⟨e, Runs.bind_fails looked failed, .slot slot looked obstacle⟩
      · refine .inr ⟨e, Fails.bind failed, .policy ?_ raised unexpected⟩
        rw [slot]
        exact Option.some_ne_none key

end Accounts

/-! ## Taking the claim -/

/-- A job of the caller's backend is taken as it is. -/
theorem runs_resolveClaimedJob {env : Env} {job : Job}
    (own : job.backendAlias = env.config.backendAlias) (w : World) :
    Runs (resolveClaimedJob env (.job job)) w job w := by
  simp only [resolveClaimedJob]
  rw [if_neg (not_not_intro own)]
  exact runs_pure _ _

/-- The claim of the job is deleted. -/
def World.withoutClaim (w : World) (id : JobId) : World :=
  { w with db := w.db.setTable .claimed (w.db.claimed.deleteWhere (fun r => r.jobId == id)) }

namespace Accounts

variable {a : Audit} {hand : List JobId} {owed : Nat} {w : World} {job : Job}

theorem countP_claim (good : Accounts a [] 0 w.db) {id : JobId}
    (claimed : id ∈ w.db.stateJobIds .claimed) :
    w.db.claimed.rows.countP (fun r => r.jobId == id) = 1 := by
  have one := List.count_eq_one_of_mem (good.stateJobIds_nodup .claimed) claimed
  rw [List.count, Db.stateJobIds, List.countP_map] at one
  exact one

/-- A condition that only the row with the key of the job meets. -/
theorem countP_job (good : Accounts a hand owed w.db) {j : Job} (mem : j ∈ w.db.jobs)
    {p : Job → Bool} (hits : ∀ i ∈ w.db.jobs, p i = (i.id == j.id)) :
    w.db.jobs.countP p = 1 := by
  have one := List.count_eq_one_of_mem good.jobIds (List.mem_map_of_mem mem)
  rw [List.count, List.countP_map] at one
  rw [← one]
  apply List.countP_congr
  intro i there
  rw [hits i there]
  rfl

/-- With its one claim deleted the job is in hand, and has no state. -/
theorem takeClaim (good : Accounts a [] 0 w.db) (own : job.backendAlias = a.backendAlias)
    (loaded : JobLoaded a.tracked w.db job) (claimed : job.id ∈ w.db.stateJobIds .claimed) :
    Runs (deleteRowsWhere .claimed (fun r => r.jobId == job.id)) w 1 (w.withoutClaim job.id) ∧
      Accounts a [job.id] (0 + a.jobSlot job) (w.withoutClaim job.id).db ∧
      ∀ m, (w.withoutClaim job.id).db.hasState m job.id = false := by
  have run : Runs (deleteRowsWhere .claimed (fun r => r.jobId == job.id)) w 1
      (w.withoutClaim job.id) := by
    rw [← good.countP_claim claimed]
    exact runs_deleteRowsWhere .claimed _ w
  rcases good.deleteClaim own loaded Nat.one_ne_zero run with ⟨good₁, -, jobs⟩
  refine ⟨run, good₁, ?_⟩
  intro m
  rcases good.job_of_mem_stateJobIds claimed with ⟨j, there, same⟩
  have nowhere := good₁.stateless_of_hand (j := j) (jobs ▸ there)
    (List.mem_singleton.mpr same) m
  rw [Db.hasState, ← Bool.not_eq_true, List.contains_iff_mem, ← same]
  rw [← same] at nowhere
  exact nowhere

/-- Deleting the claim of a claimed job. -/
theorem runs_deleteClaimedExecution (good : Accounts a [] 0 w.db)
    (claimed : job.id ∈ w.db.stateJobIds .claimed) :
    Runs (DjQueue.deleteClaimedExecution job.id) w () (w.withoutClaim job.id) := by
  refine Runs.bind (a := 1) (m := w.withoutClaim job.id) ?_ (runs_pure _ _)
  rw [← good.countP_claim claimed]
  exact runs_deleteRowsWhere .claimed _ w

/-! ## Completing -/

/-- The guarded update that finishes the job hits its row and no other. -/
theorem finishes_job (good : Accounts a hand owed w.db) {j : Job} (mem : j ∈ w.db.jobs)
    (same : j.id = job.id) {hit : Job → Bool}
    (hits : ∀ i ∈ w.db.jobs, hit i = (i.id == job.id)) (returnValue : Option String) (now : Time) :
    w.db.jobs.countP hit = 1 ∧
      ∃ i ∈ w.db.jobs.map (fun i => if hit i then
          { i with finishedAt := some now, returnValue := returnValue } else i),
        i.id = job.id ∧ i.finishedAt.isSome = true ∧ i.returnValue = returnValue := by
  constructor
  · exact good.countP_job mem fun i there => by rw [hits i there, same]
  · refine ⟨_, List.mem_map_of_mem mem, ?_⟩
    have hit : hit j = true := by
      rw [hits j mem, same]
      exact beq_self_eq_true _
    rw [if_pos hit]
    exact ⟨same, rfl, rfl⟩

/-- Among the rows the guard of an update singles the job out, which is free. -/
theorem guard_eq_key (good : Accounts a hand owed w.db) {j : Job} (mem : j ∈ w.db.jobs)
    (same : j.id = job.id) (own : j.backendAlias = job.backendAlias) (free : JobId → Bool)
    (alone : free job.id = true) :
    ∀ i ∈ w.db.jobs, (i.id == job.id && i.backendAlias == job.backendAlias && free i.id) =
      (i.id == job.id) := by
  intro i there
  by_cases key : i.id = job.id
  · rw [good.eq_of_id there mem (key.trans same.symm), same, own, alone, beq_self_eq_true,
      beq_self_eq_true]
    rfl
  · rw [beq_eq_false_iff_ne.mpr key]
    rfl

/-- No other state of the job is found. -/
theorem runs_ensureFree {id : JobId} (nowhere : ∀ m, w.db.hasState m id = false) :
    Runs (ensureNoOtherExecutionState id [.claimed]) w () w := by
  apply runs_ensureJobIdsHaveNoOtherExecutionState
  intro id' mem m _
  rw [List.mem_singleton.mp mem]
  exact nowhere m

/-- A release leaves the jobs, the claims and the failures alone. -/
theorem of_run_release {env : Env} {task : Option Imported} {u : Unit} {w' : World}
    (released : Runs (DjQueue.releaseConcurrencySlot env job task) w u w') :
    w'.db.jobs = w.db.jobs ∧ w'.db.claimed = w.db.claimed ∧ w'.db.failed = w.db.failed := by
  rcases Prod.mk.inj (Spares.releaseConcurrencySlot aloof_claimParts env job task _ _ _ released)
    with ⟨jobs, parts⟩
  exact ⟨jobs, Prod.mk.inj (Prod.mk.inj parts).2⟩

/-- A check that passes. -/
theorem runs_check {c : Bool} {x : Op Unit} (w : World) (passes : c = false) :
    Runs (runIf c x) w () w := by
  rw [passes]
  exact runs_pure _ _

theorem hasState_withoutClaim {m : StateModel} (other : m ≠ .claimed) (id : JobId) :
    (w.withoutClaim id).db.hasState m id = w.db.hasState m id := by
  unfold Db.hasState Db.stateJobIds World.withoutClaim
  rw [Db.table_setTable_ne _ _ other]

/-- A finished job has its result and no claim. -/
theorem finishClaimedJob_outcome (good : Accounts a [] 0 w.db)
    (own : job.backendAlias = a.backendAlias) (loaded : JobLoaded a.tracked w.db job)
    (claimed : job.id ∈ w.db.stateJobIds .claimed) (returnValue : Option String) (now : Time) :
    ∃ w', Runs (DjQueue.finishClaimedJob a.env job returnValue now) w () w' ∧ Ticks w w' ∧
      w'.db.semaphores = w.db.semaphores ∧ w'.db.claimed = (w.withoutClaim job.id).db.claimed ∧
      CompletionRecorded a.env.config job.id returnValue w'.db.jobs := by
  rcases good.takeClaim own loaded claimed with ⟨deleted, good₁, nowhere⟩
  rcases good.job_of_mem_stateJobIds claimed with ⟨j, there, same⟩
  have own : j.backendAlias = job.backendAlias :=
    congrArg Identity.backendAlias (loaded.identity j there same)
  unfold DjQueue.finishClaimedJob CompletionRecorded
  split
  · split
    · -- PostgreSQL looks for other states on the snapshot, where the claim is still there
      have alone : executionStateModels.all (fun m =>
          decide (m = .claimed) || !w.db.hasState m job.id) = true := by
        rw [List.all_eq_true]
        intro m _
        by_cases other : m = .claimed
        · simp [other]
        · rw [← hasState_withoutClaim other, nowhere m]
          simp
      have hits : ∀ i ∈ w.db.jobs, (i.id == job.id && i.backendAlias == job.backendAlias &&
          decide (1 ≠ 0) && executionStateModels.all (fun m =>
            decide (m = .claimed) || !w.db.hasState m i.id)) = (i.id == job.id) := by
        intro i mem
        rw [Bool.and_assoc (_ && _)]
        exact good.guard_eq_key there same own (fun id => decide (1 ≠ 0) &&
          executionStateModels.all (fun m => decide (m = .claimed) || !w.db.hasState m id))
          (by rw [alone]; rfl) i mem
      rcases good.finishes_job there same hits returnValue now with ⟨one, finished⟩
      refine ⟨_, Runs.bind (runs_getDb w) (Runs.bind deleted (Runs.bind (runs_modifyDb _ _)
        (Runs.bind (runs_check _ (by simp)) (runs_check _ ?_)))),
        ⟨0, fun _ => rfl⟩, rfl, rfl, finished⟩
      rw [one]
      simp
    · have alone : executionStateModels.all (fun m => (if false then [] else
          [StateModel.claimed]).contains m ||
            !(w.withoutClaim job.id).db.hasState m job.id) = true := by
        rw [List.all_eq_true]
        intro m _
        rw [nowhere m]
        simp
      rcases good₁.finishes_job there same (good₁.guard_eq_key there same own (fun id =>
        executionStateModels.all (fun m => (if false then [] else
          [StateModel.claimed]).contains m || !(w.withoutClaim job.id).db.hasState m id)) alone)
            returnValue now with ⟨one, finished⟩
      refine ⟨_, Runs.bind (good.runs_deleteClaimedExecution claimed) (Runs.bind (runs_getDb _)
        (Runs.bind (runs_modifyDb _ _) (runs_check _ ?_))), ⟨0, fun _ => rfl⟩, rfl, rfl, finished⟩
      rw [decide_eq_false_iff_not, not_not]
      exact one
  · have free := runs_ensureFree nowhere
    have gone : ∃ n w', Runs (DjQueue.deleteJobsWhere (fun j => j.id == job.id))
        (w.withoutClaim job.id) n w' := ⟨_, _, rfl⟩
    rcases gone with ⟨n, w', gone⟩
    have deleted : w'.db = deleteJobs (w.withoutClaim job.id).db (fun j => j.id == job.id) := by
      apply of_run_deleteJobsWhere _ gone
      intro j _ hit m mem
      rw [beq_iff_eq.mp hit] at mem
      have has := nowhere m
      rw [Db.hasState, ← Bool.not_eq_true, List.contains_iff_mem] at has
      exact has mem
    refine ⟨w', Runs.bind (good.runs_deleteClaimedExecution claimed) (Runs.bind free
      (Runs.bind gone (runs_pure _ _))), ((Advances.deleteJobsWhere _).of_run gone).of_tables, ?_,
      ?_, ?_⟩
    · rw [deleted]
      rfl
    · rw [deleted]
      rfl
    · rw [deleted]
      intro mem
      rcases List.mem_map.mp mem with ⟨j, left, key⟩
      have other := (List.mem_filter.mp left).2
      rw [Bool.not_eq_true'] at other
      exact beq_eq_false_iff_ne.mp other key

/-- A claimed job is completed, or its slot is stuck. -/
theorem completeClaimedJob_outcome (good : Accounts a [] 0 w.db) (untracked : a.tracked = none)
    (own : job.backendAlias = a.backendAlias) (loaded : JobLoaded a.tracked w.db job)
    (claimed : job.id ∈ w.db.stateJobIds .claimed) (returnValue : Option String)
    (task : Option Imported) :
    (∃ w', Runs (DjQueue.completeClaimedJob a.env (.job job) returnValue task) w () w' ∧
        w'.db.claimed = (w.withoutClaim job.id).db.claimed ∧
        CompletionRecorded a.env.config job.id returnValue w'.db.jobs) ∨
      ∃ e, Fails (DjQueue.completeClaimedJob a.env (.job job) returnValue task) w e ∧
        SlotStuck a.env w job task e := by
  rcases finishClaimedJob_outcome (w := { w with clock := fun n => w.clock (n + 1) }) good own
    loaded claimed returnValue (w.clock 0) with ⟨w₁, finished, ticks, same, ended, completed⟩
  have good₁ := (Accounts.finishClaimedJob (w := { w with clock := fun n => w.clock (n + 1) }) good
    own loaded finished).1
  rcases good₁.release_outcome untracked job task with ⟨w', released⟩ | ⟨e, failed, stuck⟩
  · rcases of_run_release released with ⟨jobs, claims, -⟩
    refine .inl ⟨w', Runs.bind (runs_resolveClaimedJob own w) (runs_atomic (Runs.bind
      (runs_timezoneNow w) (Runs.bind finished released))), ?_, ?_⟩
    · rw [claims]
      exact ended
    · rw [jobs]
      exact completed
  · have read : Ticks w { w with clock := fun n => w.clock (n + 1) } := ⟨1, fun _ => rfl⟩
    exact .inr ⟨e, Runs.bind_fails (runs_resolveClaimedJob own w) (Fails.transactionAtomic
      (Runs.bind_fails (runs_timezoneNow w) (Runs.bind_fails finished failed))),
      stuck.earlier (read.trans ticks) same⟩

/-! ## Failing -/

/-- A claimed job is failed, or its slot is stuck. -/
theorem failClaimedJob_outcome (good : Accounts a [] 0 w.db) (untracked : a.tracked = none)
    (own : job.backendAlias = a.backendAlias) (loaded : JobLoaded a.tracked w.db job)
    (claimed : job.id ∈ w.db.stateJobIds .claimed) (failure : Failure) (task : Option Imported) :
    (∃ w', Runs (DjQueue.failClaimedJob a.env (.job job) failure task) w () w' ∧
        w'.db.claimed = (w.withoutClaim job.id).db.claimed ∧
        FailureRecorded failure job.id w'.db.failed.rows) ∨
      ∃ e, Fails (DjQueue.failClaimedJob a.env (.job job) failure task) w e ∧
        SlotStuck a.env w job task e := by
  rcases good.takeClaim own loaded claimed with ⟨-, good₁, nowhere⟩
  have free := runs_ensureFree nowhere
  rcases good.job_of_mem_stateJobIds claimed with ⟨j, there, same⟩
  have found : ((w.withoutClaim job.id).db.findJob job.id).isSome = true := by
    rw [← same]
    exact Option.isSome_iff_exists.mpr ⟨j, good.findJob_of_mem there⟩
  have created := @runs_createRow_from .failed (failedRow failure job.id)
    (w.withoutClaim job.id) found (nowhere .failed)
  rcases good.deleteClaimedExecution own loaded (good.runs_deleteClaimedExecution claimed) with
    ⟨-, knows⟩
  have good₂ := (Accounts.createRow (m := .failed)
    (by rw [Audit.held_of_inactive rfl]; exact good₁) (ownRow_failed knows.identity own)
    (Audit.ownProcess_of_ne (by decide) _) created).1
  rcases good₂.release_outcome untracked job task with ⟨w', released⟩ | ⟨e, failed, stuck⟩
  · rcases of_run_release released with ⟨-, claims, failures⟩
    refine .inl ⟨w', Runs.bind (runs_resolveClaimedJob own w) (runs_atomic (Runs.bind
      (good.runs_deleteClaimedExecution claimed) (Runs.bind free (Runs.bind created released)))),
      ?_, ?_⟩
    · rw [claims]
      rfl
    · rw [failures]
      exact ⟨_, List.mem_append_right _ (List.mem_singleton_self _), rfl, rfl, rfl, rfl, rfl⟩
  · refine .inr ⟨e, Runs.bind_fails (runs_resolveClaimedJob own w) (Fails.transactionAtomic
      (Runs.bind_fails (good.runs_deleteClaimedExecution claimed) (Runs.bind_fails free
        (Runs.bind_fails created failed)))), stuck.earlier ?_ ?_⟩
    · exact ⟨1, fun _ => rfl⟩
    · rfl

/-! ## What cannot be written -/

/-- A value that cannot be stored ends a completion, and its claim is still there. -/
theorem fails_completeUnwritable (good : Accounts a [] 0 w.db)
    (own : job.backendAlias = a.backendAlias) (claimed : job.id ∈ w.db.stateJobIds .claimed)
    (e : PyError) : Fails (completeUnwritable a.env (.job job) e) w e := by
  refine Runs.bind_fails (runs_resolveClaimedJob own w) (Fails.transactionAtomic
    (Runs.bind_fails (runs_timezoneNow w) ?_))
  cases elsewhere : decide (a.env.config.family ≠ .postgresql) with
  | true =>
      exact Runs.bind_fails (good.runs_deleteClaimedExecution (w := w.tick) claimed)
        (Fails.of_throw _ _)
  | false => exact Runs.bind_fails (runs_pure () _) (Fails.of_throw _ _)

/-- So do the texts of an exception that cannot be stored. -/
theorem fails_failUnwritable (good : Accounts a [] 0 w.db)
    (own : job.backendAlias = a.backendAlias) (loaded : JobLoaded a.tracked w.db job)
    (claimed : job.id ∈ w.db.stateJobIds .claimed) (e : PyError) :
    Fails (failUnwritable a.env (.job job) e) w e := by
  rcases good.takeClaim own loaded claimed with ⟨-, -, nowhere⟩
  exact Runs.bind_fails (runs_resolveClaimedJob own w) (Fails.transactionAtomic
    (Runs.bind_fails (good.runs_deleteClaimedExecution claimed)
      (Runs.bind_fails (runs_ensureFree nowhere) (Fails.of_throw _ _))))

end Accounts

/-- A completion that stores a value it can store, or stores none. -/
theorem completeWith_cases (env : Env) (arg : JobArg) (column : Except PyError (Option String))
    (task : Option Imported) :
    (∃ stored, completeWith env arg column task = completeClaimedJob env arg stored task ∧
      (env.config.preserveFinishedJobs = true → column = .ok stored)) ∨
    ∃ e, completeWith env arg column task = completeUnwritable env arg e ∧
      env.config.preserveFinishedJobs = true ∧ column = .error e := by
  cases column with
  | ok stored => exact .inl ⟨stored, rfl, fun _ => rfl⟩
  | error e =>
      cases preserves : env.config.preserveFinishedJobs with
      | true => exact .inr ⟨e, if_pos preserves, rfl, rfl⟩
      | false =>
          refine .inl ⟨none, if_neg ?_, nofun⟩
          rw [preserves]
          exact Bool.false_ne_true

/-- A failure that can be written is failed, and any other raises. -/
theorem failWith_cases (env : Env) (rt : TaskRuntime) (arg : JobArg) (failure : Failure)
    (task : Option Imported) :
    failWith env rt arg failure task = failClaimedJob env arg failure task ∨
    ∃ e, failWith env rt arg failure task = failUnwritable env arg e ∧
      rt.unwritable failure = some e := by
  unfold failWith
  cases writable : rt.unwritable failure with
  | none => exact .inl rfl
  | some e => exact .inr ⟨e, rfl, rfl⟩

/-! ## What the task did -/

/-- What the tables say of a job whose claim has ended with the outcome. -/
def Recorded (env : Env) (rt : TaskRuntime) (id : JobId) (db : Db) : TaskOutcome → Prop
  | .returned value _ =>
      db.statusOf id = (if env.config.preserveFinishedJobs then some .finished else none) ∧
        ∃ stored, (env.config.preserveFinishedJobs = true → rt.column value = .ok stored) ∧
          CompletionRecorded env.config id stored db.jobs
  | .raised failure _ =>
      db.statusOf id = some (.live .failed) ∧ FailureRecorded failure id db.failed.rows
  | .unexpected _ | .exited _ => False

/-- Why a claim that is there is not ended: nothing expects the exception, or what the task did
cannot be written, or the slot of the job cannot be given back. -/
inductive Unsettled (env : Env) (rt : TaskRuntime) (w : World) (job : Job) :
    TaskOutcome → PyError → Prop
  | unexpected (e : PyError) : Unsettled env rt w job (.unexpected e) e
  | value {value : PyObject} {task : Option Imported} {e : PyError}
      (preserves : env.config.preserveFinishedJobs = true) (column : rt.column value = .error e) :
      Unsettled env rt w job (.returned value task) e
  | texts {failure : Failure} {task : Option Imported} {e : PyError}
      (unwritable : rt.unwritable failure = some e) :
      Unsettled env rt w job (.raised failure task) e
  | completing {value : PyObject} {task : Option Imported} {e : PyError}
      (stuck : SlotStuck env w job task e) : Unsettled env rt w job (.returned value task) e
  | failing {failure : Failure} {task : Option Imported} {e : PyError}
      (stuck : SlotStuck env w job task e) : Unsettled env rt w job (.raised failure task) e

/-- What stops the settling later stopped it before, as no slot has changed. -/
theorem Unsettled.earlier {env : Env} {rt : TaskRuntime} {job : Job} {w w' : World}
    {outcome : TaskOutcome} {e : PyError} (ticks : Ticks w w')
    (same : w'.db.semaphores = w.db.semaphores) (later : Unsettled env rt w' job outcome e) :
    Unsettled env rt w job outcome e := by
  cases later with
  | unexpected => exact .unexpected e
  | value preserves column => exact .value preserves column
  | texts unwritable => exact .texts unwritable
  | completing stuck => exact .completing (stuck.earlier ticks same)
  | failing stuck => exact .failing (stuck.earlier ticks same)

/-- Of the other jobs only waiters change, which become ready. -/
def OthersHandedOn (id : JobId) (db db' : Db) : Prop :=
  ∀ other, other ≠ id → db'.statusOf other = db.statusOf other ∨
    (db.statusOf other = some (.live .blocked) ∧ db'.statusOf other = some (.live .ready))

section Settled

variable {a a' : Audit} {w w' : World} {job : Job}

/-- Edges out of the claims take only the job whose claim was deleted. -/
theorem othersHandedOn_of_follows {edges : List Edge} {id : JobId}
    (follows : Follows edges w.db w'.db) (good : Accounts a [] 0 w.db)
    (good' : Accounts a' [] 0 w'.db) (ended : w'.db.claimed = (w.withoutClaim id).db.claimed)
    (only : ∀ e ∈ edges, e.1 = some (.live .claimed) ∨ e = handOff) :
    OthersHandedOn id w.db w'.db := by
  intro other ne
  rcases follows.status good good' other with same | edge
  · exact .inl same
  · rcases only _ edge with left | handed
    · rcases List.mem_map.mp (good.shows_iff.mpr left) with ⟨r, mem, own⟩
      have kept : r ∈ w'.db.claimed.rows := by
        rw [ended]
        apply List.mem_filter.mpr
        refine ⟨mem, ?_⟩
        rw [Bool.not_eq_true', beq_eq_false_iff_ne]
        exact fun same => ne (own.symm.trans same)
      have still : other ∈ w'.db.stateJobIds .claimed := List.mem_map.mpr ⟨r, kept, own⟩
      refine .inl ?_
      rw [show w.db.statusOf other = _ from left]
      exact good'.statusOf_eq_of_shows still
    · exact .inr (Prod.mk.inj handed)

/-- The steps of an operation, by where it ends. -/
theorem follows_of_final {env : Env} (op : JobOperation) (sound : Sound none w.db)
    (final : op.final env w = w') : Follows (op.edges env.config) w.db w'.db := by
  rw [← final]
  exact op.follows sound

/-- A completed job is recorded as completed. -/
theorem recorded_of_completed {env : Env} {rt : TaskRuntime} {value : PyObject}
    {task : Option Imported} {stored : Option String} (good' : Accounts a' [] 0 w'.db)
    (column : env.config.preserveFinishedJobs = true → rt.column value = .ok stored)
    (completed : CompletionRecorded env.config job.id stored w'.db.jobs) :
    Recorded env rt job.id w'.db (.returned value task) := by
  refine ⟨?_, stored, column, completed⟩
  unfold CompletionRecorded at completed
  split at completed
  · rename_i preserves
    rcases completed with ⟨j, there, same, done, -⟩
    rw [if_pos preserves]
    exact good'.statusOf_eq_of_shows ⟨j, there, same, done⟩
  · rename_i deletes
    rw [if_neg deletes]
    exact good'.statusOf_eq_of_shows (p := none) completed

/-- A claim that is there ends with what its task returned. -/
theorem settle_returned {env : Env} (sound : Sound none w.db) (rt : TaskRuntime)
    (own : job.backendAlias = env.config.backendAlias) (loaded : JobLoaded none w.db job)
    (claimed : job.id ∈ w.db.stateJobIds .claimed) (value : PyObject) (task : Option Imported) :
    (∃ w', Runs (completeWith env (.job job) (rt.column value) task) w () w' ∧
        Recorded env rt job.id w'.db (.returned value task) ∧ OthersHandedOn job.id w.db w'.db) ∨
      ∃ e, Fails (completeWith env (.job job) (rt.column value) task) w e ∧
        Unsettled env rt w job (.returned value task) e := by
  rcases sound.opened env [] List.nodup_nil (fun _ mem => absurd mem List.not_mem_nil) [] with
    ⟨a, rfl, tracked, -, -, good, -⟩
  have loaded' : ArgLoaded a.tracked w.db (.job job) := tracked ▸ loaded
  rcases completeWith_cases a.env (.job job) (rt.column value) task with
    ⟨stored, same, column⟩ | ⟨e, same, preserves, column⟩
  · rw [same]
    rcases good.completeClaimedJob_outcome tracked own loaded' claimed stored task with
      ⟨w', run, ended, completed⟩ | ⟨e, failed, stuck⟩
    · have good' := good.completeClaimedJob loaded' run
      have follows := follows_of_final (.completeClaimedJob (.job job) stored task) sound
        run.finalState_eq
      refine .inl ⟨w', run, recorded_of_completed good' column completed,
        othersHandedOn_of_follows follows good good' ended ?_⟩
      simp only [JobOperation.edges, completions]
      split <;> decide
    · exact .inr ⟨e, failed, .completing stuck⟩
  · rw [same]
    exact .inr ⟨e, good.fails_completeUnwritable own claimed e, .value preserves column⟩

/-- A claim that is there ends with the failure of its task. -/
theorem settle_raised {env : Env} (sound : Sound none w.db) (rt : TaskRuntime)
    (own : job.backendAlias = env.config.backendAlias) (loaded : JobLoaded none w.db job)
    (claimed : job.id ∈ w.db.stateJobIds .claimed) (failure : Failure) (task : Option Imported) :
    (∃ w', Runs (failWith env rt (.job job) failure task) w () w' ∧
        Recorded env rt job.id w'.db (.raised failure task) ∧ OthersHandedOn job.id w.db w'.db) ∨
      ∃ e, Fails (failWith env rt (.job job) failure task) w e ∧
        Unsettled env rt w job (.raised failure task) e := by
  rcases sound.opened env [] List.nodup_nil (fun _ mem => absurd mem List.not_mem_nil) [] with
    ⟨a, rfl, tracked, -, -, good, -⟩
  have loaded' : ArgLoaded a.tracked w.db (.job job) := tracked ▸ loaded
  rcases failWith_cases a.env rt (.job job) failure task with same | ⟨e, same, unwritable⟩
  · rw [same]
    rcases good.failClaimedJob_outcome tracked own loaded' claimed failure task with
      ⟨w', run, ended, recorded⟩ | ⟨e, failed, stuck⟩
    · have good' := good.failClaimedJob loaded' run
      have follows := follows_of_final (.failClaimedJob (.job job) failure task) sound
        run.finalState_eq
      refine .inl ⟨w', run, ⟨?_, recorded⟩, othersHandedOn_of_follows follows good good' ended ?_⟩
      · rcases recorded with ⟨r, there, same, -⟩
        exact good'.statusOf_eq_of_shows (p := some (.live .failed))
          (List.mem_map.mpr ⟨r, there, same⟩)
      · simp only [JobOperation.edges]
        decide
    · exact .inr ⟨e, failed, .failing stuck⟩
  · rw [same]
    exact .inr ⟨e, good.fails_failUnwritable own loaded' claimed e, .texts unwritable⟩

/-- A claim that is there ends with the outcome, unless what is no `Exception` passes through, or
the outcome cannot be settled. -/
theorem settle_outcome {env : Env} (sound : Sound none w.db) (rt : TaskRuntime)
    (own : job.backendAlias = env.config.backendAlias) (loaded : JobLoaded none w.db job)
    (claimed : job.id ∈ w.db.stateJobIds .claimed) (outcome : TaskOutcome) :
    (∃ w', Runs (settle env rt job outcome) w none w' ∧ Recorded env rt job.id w'.db outcome ∧
        OthersHandedOn job.id w.db w'.db) ∨
      (∃ exiting, outcome = .exited exiting) ∨
      ∃ e, Fails (settle env rt job outcome) w e ∧ Unsettled env rt w job outcome e := by
  cases outcome with
  | returned value task =>
      rcases settle_returned sound rt own loaded claimed value task with
        ⟨w', run, settled⟩ | ⟨e, failed, unsettled⟩
      · exact .inl ⟨w', Runs.bind run (runs_pure _ _), settled⟩
      · exact .inr (.inr ⟨e, Fails.bind failed, unsettled⟩)
  | raised failure task =>
      rcases settle_raised sound rt own loaded claimed failure task with
        ⟨w', run, settled⟩ | ⟨e, failed, unsettled⟩
      · exact .inl ⟨w', Runs.bind run (runs_pure _ _), settled⟩
      · exact .inr (.inr ⟨e, Fails.bind failed, unsettled⟩)
  | unexpected e => exact .inr (.inr ⟨e, Fails.of_throw _ _, .unexpected e⟩)
  | exited exiting => exact .inr (.inl ⟨exiting, rfl⟩)

end Settled

end DjQueue
