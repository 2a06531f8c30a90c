import DjQueue.Execution.Pool
import DjQueue.Lifecycle.Runs
import DjQueue.Reads.EnqueueResults

/-!
# The results of what was executed

What a task returned, or what it raised, is what `get_result` says of it once its execution has been
settled.  A value that was returned is said in every later state of the system, whatever operations
run, for as long as the job is there.
-/

namespace DjQueue

open Relational

/-- What `get_result` says of a job that is there, where its task can be imported and bound. -/
def Tells (api : TaskApi) (env : Env) (db : Db) (id : JobId) (told : TaskResult → Prop) : Prop :=
  ∃ j ∈ db.jobs, j.id = id ∧ ∀ bound, taskForJob api env j = .ok bound →
    ∃ r, getResult api env db id = .ok r ∧ told r

/-- What is said of a job from the time at which its task ended with an outcome. -/
def ToldFrom (api : TaskApi) (env : Env) (rt : TaskRuntime) (id : JobId) (db : Db) :
    TaskOutcome → Prop
  | .returned value _ =>
      if env.config.preserveFinishedJobs then
        ∃ t stored, rt.column value = .ok stored ∧ ∀ later, RunWith id db later →
          Tells api env later id fun r => r.status = .successful ∧ r.finishedAt = some t ∧
            r.returnValue = stored ∧ r.errors = []
      else getResult api env db id = .error (.taskResultDoesNotExist id)
  | .raised failure _ =>
      Tells api env db id fun r => r.status = .failed ∧ r.returnValue = none ∧
        r.errors = [⟨failure.exceptionClass, failure.traceback⟩]
  | .unexpected _ | .exited _ => False

section Executed

variable {api : TaskApi} {env : Env} {rt : TaskRuntime} {id : JobId} {db later : Db}

theorem getResult_of_absent (absent : id ∉ db.jobs.map Job.id) :
    getResult api env db id = .error (.taskResultDoesNotExist id) := by
  have none : db.jobs.find? (fun j => j.id == id && j.backendAlias == env.config.backendAlias) =
      none := by
    apply List.find?_eq_none.mpr
    intro j mem hit
    rw [Bool.and_eq_true, beq_iff_eq] at hit
    exact absent (List.mem_map.mpr ⟨j, mem, hit.1⟩)
  rw [getResult, none]
  rfl

/-- A finished job has one result along a run. -/
theorem tells_of_runWith {j : Job} (reached : Reachable none db) (mem : j ∈ db.jobs)
    (done : j.finishedAt.isSome = true) (own : j.backendAlias = env.config.backendAlias)
    (run : RunWith j.id db later) :
    Tells api env later j.id fun r => r.status = .successful ∧ r.finishedAt = j.finishedAt ∧
      r.returnValue = j.returnValue ∧ r.errors = [] := by
  rcases finished_of_runWith reached run mem done with ⟨j', mem', same, result, backend, -⟩
  rcases Prod.mk.inj result with ⟨finishedAt, returnValue⟩
  refine ⟨j', mem', same, fun bound binds => ?_⟩
  have sound := sound_of_reachable (by intro t tracked; cases tracked)
    (reachable_of_runWith reached run)
  rcases sound.accounts with ⟨a, -, good⟩
  have read := good.getResult_of_finished mem' (backend.trans own) binds (finishedAt ▸ done)
  rw [same] at read
  exact ⟨_, read, rfl, finishedAt, returnValue, rfl⟩

/-- What settling recorded of an outcome is what the result tells of it. -/
theorem toldFrom_of_recorded {outcome : TaskOutcome} (reached : Reachable none db)
    (recorded : Recorded env rt id db outcome)
    (backend : ∀ j ∈ db.jobs, j.id = id → j.backendAlias = env.config.backendAlias) :
    ToldFrom api env rt id db outcome := by
  have sound := sound_of_reachable (by intro t tracked; cases tracked) reached
  rcases sound.accounts with ⟨a, -, good⟩
  cases outcome with
  | returned value task =>
      rcases recorded with ⟨-, stored, column, completed⟩
      unfold CompletionRecorded at completed
      simp only [ToldFrom]
      split at completed
      · rename_i preserves
        rw [if_pos preserves]
        rcases completed with ⟨j, mem, rfl, done, value_⟩
        rcases Option.isSome_iff_exists.mp done with ⟨t, finishedAt⟩
        refine ⟨t, stored, column preserves, fun later along => ?_⟩
        have told : Tells api env later j.id _ :=
          tells_of_runWith reached mem done (backend j mem rfl) along
        rwa [finishedAt, value_] at told
      · rename_i removes
        rw [if_neg removes]
        exact getResult_of_absent completed
  | raised failure task =>
      rcases recorded.2 with ⟨row, there, ofJob, class_, -, traceback, -⟩
      rcases good.job_of_mem_stateJobIds (m := .failed) (List.mem_map_of_mem there) with
        ⟨j, mem, same⟩
      have same : j.id = id := same.trans ofJob
      refine ⟨j, mem, same, fun bound binds => ?_⟩
      have read := good.getResult_of_failed mem (backend j mem same) binds there
        (ofJob.trans same.symm)
      rw [same, class_, traceback] at read
      exact ⟨_, read, rfl, rfl, rfl⟩
  | unexpected e => exact recorded
  | exited exiting => exact recorded

variable {c : ClaimedJob} {outcome : TaskOutcome} {w w₁ w' : World}

/-- A value that cannot be written never returns. -/
theorem not_runs_completeUnwritable {arg : JobArg} {e : PyError} {u : Unit} :
    ¬ Runs (completeUnwritable env arg e) w₁ u w' := by
  intro run
  rcases Runs.of_bind run with ⟨job, m₁, -, body⟩
  rcases Runs.of_bind (Runs.of_atomic body) with ⟨now, m₂, -, rest₁⟩
  rcases Runs.of_bind rest₁ with ⟨v, m₃, -, rest₂⟩
  exact Runs.of_throw rest₂

/-- A message that cannot be written never returns. -/
theorem not_runs_failUnwritable {arg : JobArg} {e : PyError} {u : Unit} :
    ¬ Runs (failUnwritable env arg e) w₁ u w' := by
  intro run
  rcases Runs.of_bind run with ⟨job, m₁, -, body⟩
  rcases Runs.of_bind (Runs.of_atomic body) with ⟨v, m₂, -, rest₁⟩
  rcases Runs.of_bind rest₁ with ⟨v', m₃, -, rest₂⟩
  exact Runs.of_throw rest₂

/-- Settling is one operation of the system. -/
theorem step_of_settle (loaded : JobLoaded none w₁.db c.job)
    (run : Runs (settle env rt c.job outcome) w₁ none w') : Step none w₁.db w'.db := by
  cases outcome with
  | returned value task =>
      rcases Runs.of_bind run with ⟨u, m, body, done⟩
      rcases Runs.of_pure done with ⟨-, rfl⟩
      rcases completeWith_cases env (.job c.job) (rt.column value) task with
        ⟨stored, same, -⟩ | ⟨e, same, -⟩
      · rw [same] at body
        have final : (Operation.job (.completeClaimedJob (.job c.job) stored task)).final
            env ⟨w₁.db, w₁.clock, w₁.uuids⟩ = w' := body.finalState_eq
        rw [← final]
        exact .operation env _ w₁.clock w₁.uuids loaded
      · rw [same] at body
        exact absurd body not_runs_completeUnwritable
  | raised failure task =>
      rcases Runs.of_bind run with ⟨u, m, body, done⟩
      rcases Runs.of_pure done with ⟨-, rfl⟩
      rcases failWith_cases env rt (.job c.job) failure task with same | ⟨e, same, -⟩
      · rw [same] at body
        have final : (Operation.job (.failClaimedJob (.job c.job) failure task)).final
            env ⟨w₁.db, w₁.clock, w₁.uuids⟩ = w' := body.finalState_eq
        rw [← final]
        exact .operation env _ w₁.clock w₁.uuids loaded
      · rw [same] at body
        exact absurd body not_runs_failUnwritable
  | unexpected e => exact (Runs.of_throw run).elim
  | exited exiting => cases run

/-- A claimed job is in the backend it was loaded from, also after a step. -/
theorem backendAlias_of_claimed (sound : Sound none db) (loaded : JobLoaded none db c.job)
    (claimed : c.job.id ∈ db.stateJobIds .claimed) (step : Step none db later) :
    ∀ j ∈ later.jobs, j.id = c.job.id → j.backendAlias = c.job.backendAlias := by
  intro j mem same
  rcases sound.accounts with ⟨a, -, good⟩
  rcases good.job_of_mem_stateJobIds claimed with ⟨j₁, there, same₁⟩
  rw [backendAlias_of_step sound step there mem (same.trans same₁.symm)]
  exact congrArg Identity.backendAlias (loaded.identity j₁ there same₁)

/-- Once an execution has been settled, the outcome of the task is what its result tells. -/
theorem executed_result_reads_back (ran : runTask env rt (some c) c.job w = (outcome, w₁))
    (reached : Reachable none w₁.db) (own : c.job.backendAlias = env.config.backendAlias)
    (loaded : JobLoaded none w₁.db c.job)
    (run : Runs (executeClaimedJob env rt (.claimed c)) w none w') :
    ToldFrom api env rt c.job.id w'.db outcome := by
  rcases execution_outcome ran reached own loaded with
    ⟨w'', run', claimed, recorded, -⟩ | ⟨exiting, -, run'⟩ | ⟨e, w'', raised, -⟩
  · have same : w'' = w' := run'.finalState_eq.symm.trans run.finalState_eq
    subst same
    have settled : Runs (settle env rt c.job outcome) w₁ none w'' := by
      unfold Runs at run' ⊢
      rwa [executeClaimedJob_eq ran] at run'
    have step := step_of_settle loaded settled
    have sound := sound_of_reachable (by intro t tracked; cases tracked) reached
    have backend := backendAlias_of_claimed sound loaded claimed step
    rw [own] at backend
    exact toldFrom_of_recorded (reached.tail step) recorded backend
  · have both := run.symm.trans run'
    cases both
  · have both := run.symm.trans raised
    cases both

end Executed

/-! The first of two jobs was claimed, and its task returned a number. -/

/-- The counting task run to its end, its result read as long as the job is kept. -/
theorem executed_result_reads_back_counting : ∃ j ∈ oneClaimed.jobs, ∃ w',
    Runs (executeClaimedJob importingEnv countingRuntime (.claimed ⟨j, 0, [], none⟩))
      ⟨oneClaimed, fun _ => 0, fun _ => 0⟩ none w' ∧
    ∃ t, ∀ later, RunWith j.id w'.db later → ∃ r,
      getResult plainApi importingEnv later j.id = .ok r ∧ r.status = .successful ∧
        r.finishedAt = some t ∧ r.returnValue = some "3" ∧ r.errors = [] := by
  rcases claimed_oneClaimed with ⟨j, mem, own, claimed, loaded, free⟩
  refine ⟨j, mem, ?_⟩
  rcases execution_outcome (ran_counting j) reachable_oneClaimed own loaded with
    ⟨w', run, -⟩ | ⟨exiting, exited, -⟩ | ⟨e, w', -, -, -, ⟨absent, -⟩ | ⟨-, unsettled⟩⟩
  · rcases @executed_result_reads_back plainApi importingEnv countingRuntime ⟨j, 0, [], none⟩ _ _ _
      w' (ran_counting j) reachable_oneClaimed own loaded run with ⟨t, stored, column, told⟩
    refine ⟨w', run, t, fun later along => ?_⟩
    cases column
    rcases told later along with ⟨j', -, -, reads⟩
    exact reads _ rfl
  · cases exited
  · exact absurd claimed absent
  · cases unsettled with
    | value preserves column => cases column
    | completing stuck => exact absurd stuck (free e)

end DjQueue
