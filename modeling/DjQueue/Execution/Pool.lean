import DjQueue.Execution.Settlement
import DjQueue.Fencing

/-!
# The pool of a worker

A claimed job is run to the end of its task and then settled.  An exception that is raised on the
way the pool reports as a failure of the job, and it asks the worker to stop.  What is no
`Exception` passes through, and nobody reports it.
-/

namespace DjQueue

open Relational Payloads

/-! ## Running a claimed job -/

section Executed

variable {env : Env} {rt : TaskRuntime} {c : ClaimedJob} {outcome : TaskOutcome} {w w₁ w₂ : World}

/-- After the task has ended its outcome is all that counts. -/
theorem executeClaimedJob_eq (ran : runTask env rt (some c) c.job w = (outcome, w₁)) :
    executeClaimedJob env rt (.claimed c) w = settle env rt c.job outcome w₁ := by
  have steps : executeClaimedJob env rt (.claimed c) w =
      settle env rt c.job (runTask env rt (some c) c.job w).1
        (runTask env rt (some c) c.job w).2 := rfl
  rw [steps, ran]

namespace RollsBack

/-- A success is one transaction, or an exception before it. -/
theorem completeWith (env : Env) (arg : JobArg) (column : Except PyError (Option String))
    (task : Option Imported) : RollsBack (completeWith env arg column task) := by
  rcases completeWith_cases env arg column task with ⟨stored, same, -⟩ | ⟨e, same, -⟩
  · rw [same]
    exact RollsBack.bind (Reads.resolveClaimedJob env _) fun _ => RollsBack.atomic _
  · rw [same]
    exact RollsBack.bind (Reads.resolveClaimedJob env _) fun _ => RollsBack.atomic _

/-- A failure is one transaction, or an exception before it. -/
theorem failWith (env : Env) (rt : TaskRuntime) (arg : JobArg) (failure : Failure)
    (task : Option Imported) : RollsBack (failWith env rt arg failure task) := by
  rcases failWith_cases env rt arg failure task with same | ⟨e, same, -⟩
  · rw [same]
    exact RollsBack.bind (Reads.resolveClaimedJob env _) fun _ => RollsBack.atomic _
  · rw [same]
    exact RollsBack.bind (Reads.resolveClaimedJob env _) fun _ => RollsBack.atomic _

/-- Settling is one transaction, or an exception before it. -/
theorem settle (env : Env) (rt : TaskRuntime) (job : Job) (outcome : TaskOutcome) :
    RollsBack (settle env rt job outcome) := by
  cases outcome with
  | returned value task => exact bind_pure (completeWith env _ _ _) _
  | raised failure task => exact bind_pure (failWith env rt _ _ _) _
  | unexpected e => exact (Reads.throw e).raises
  | exited exiting => exact (Reads.pure _).raises

end RollsBack

/-- However it ends, settling has spent readings of the clock only. -/
theorem Advances.settle (env : Env) (rt : TaskRuntime) (job : Job) (outcome : TaskOutcome) :
    Advances (settle env rt job outcome) := by
  cases outcome with
  | returned value task =>
      refine bind ?_ fun _ => pure _
      rcases completeWith_cases env (.job job) (rt.column value) task with
        ⟨stored, same, -⟩ | ⟨e, same, -⟩
      · rw [same]
        exact completeClaimedJob env _ _ _
      · rw [same]
        exact bind (resolveClaimedJob env _) fun _ => transactionAtomic (bind timezoneNow fun _ =>
          bind (runIf _ (deleteClaimedExecution _)) fun _ => throw e)
  | raised failure task =>
      refine bind ?_ fun _ => pure _
      rcases failWith_cases env rt (.job job) failure task with same | ⟨e, same, -⟩
      · rw [same]
        exact failClaimedJob env _ _ _
      · rw [same]
        exact bind (resolveClaimedJob env _) fun _ => transactionAtomic
          (bind (deleteClaimedExecution _) fun _ =>
            bind (ensureJobIdsHaveNoOtherExecutionState _ _) fun _ => throw e)
  | unexpected e => exact throw e
  | exited exiting => exact pure _

/-- What is raised where the claim is lost: that it is missed, unless something else comes first. -/
inductive Refusal (env : Env) (rt : TaskRuntime) : TaskOutcome → PyError → Prop
  | lost (outcome : TaskOutcome) : Refusal env rt outcome .claimedDoesNotExist
  | unexpected (e : PyError) : Refusal env rt (.unexpected e) e
  | value {value : PyObject} {task : Option Imported} {e : PyError}
      (onPostgres : env.config.family = .postgresql)
      (preserves : env.config.preserveFinishedJobs = true) (column : rt.column value = .error e) :
      Refusal env rt (.returned value task) e

/-- A failure of a claim that is gone is refused. -/
theorem failWith_refuses (failure : Failure) (task : Option Imported)
    (own : c.job.backendAlias = env.config.backendAlias) (gone : ¬ w₁.db.ClaimLive c.job.id) :
    Fails (failWith env rt (.job c.job) failure task) w₁ .claimedDoesNotExist := by
  rcases failWith_cases env rt (.job c.job) failure task with same | ⟨e, same, -⟩
  · rw [same]
    rcases @failClaimedJob_refuses env c w₁ failure task (.inr gone) with ⟨w', raised, -⟩
    exact ⟨w', raised⟩
  · rw [same]
    exact Runs.bind_fails (runs_resolveClaimedJob own _)
      (Fails.transactionAtomic (Fails.bind (deleteClaimedExecution_fails gone)))

/-- A success of a claim that is gone is refused. -/
theorem completeWith_refuses (value : PyObject) (task : Option Imported)
    (own : c.job.backendAlias = env.config.backendAlias) (gone : ¬ w₁.db.ClaimLive c.job.id) :
    ∃ e, Fails (completeWith env (.job c.job) (rt.column value) task) w₁ e ∧
      Refusal env rt (.returned value task) e := by
  rcases completeWith_cases env (.job c.job) (rt.column value) task with
    ⟨stored, same, -⟩ | ⟨e, same, preserves, column⟩
  · rw [same]
    rcases @completeClaimedJob_refuses env c w₁ stored task (.inr gone) with ⟨w', raised, -⟩
    exact ⟨_, ⟨w', raised⟩, .lost _⟩
  · rw [same]
    have early {e' : PyError} (fails : Fails (do
        runIf (env.config.family ≠ .postgresql) (deleteClaimedExecution c.job.id)
        throw e) w₁.tick e') : Fails (completeUnwritable env (.job c.job) e) w₁ e' :=
      Runs.bind_fails (runs_resolveClaimedJob own _)
        (Fails.transactionAtomic (Runs.bind_fails (runs_timezoneNow w₁) fails))
    by_cases onPostgres : env.config.family = .postgresql
    · -- the statement that deletes the claim does not run
      refine ⟨e, early ?_, .value onPostgres preserves column⟩
      rw [onPostgres]
      exact Runs.bind_fails (runs_pure () _) (Fails.of_throw _ _)
    · exact ⟨_, early (Fails.bind (Fails.of_runIf (decide_eq_true onPostgres)
        (deleteClaimedExecution_fails gone))), .lost _⟩

/-- A job that has lost its claim is refused, unless what is no `Exception` passes through. -/
theorem settle_refuses (outcome : TaskOutcome) (own : c.job.backendAlias = env.config.backendAlias)
    (absent : c.job.id ∉ w₁.db.stateJobIds .claimed) :
    (∃ exiting, outcome = .exited exiting) ∨
      ∃ e, Fails (settle env rt c.job outcome) w₁ e ∧ Refusal env rt outcome e := by
  have gone : ¬ w₁.db.ClaimLive c.job.id := fun live => absent (List.mem_map.mpr live)
  cases outcome with
  | returned value task =>
      rcases completeWith_refuses value task own gone with ⟨e, failed, refusal⟩
      exact .inr ⟨e, Fails.bind failed, refusal⟩
  | raised failure task =>
      exact .inr ⟨_, Fails.bind (failWith_refuses failure task own gone), .lost _⟩
  | unexpected e => exact .inr ⟨e, Fails.of_throw _ _, .unexpected e⟩
  | exited exiting => exact .inl ⟨exiting, rfl⟩

/-- However the task ended, its job is settled, or what is no `Exception` passes through and nothing
has changed, or something is raised and nothing has changed. -/
theorem execution_outcome (ran : runTask env rt (some c) c.job w = (outcome, w₁))
    (reached : Reachable none w₁.db) (own : c.job.backendAlias = env.config.backendAlias)
    (loaded : JobLoaded none w₁.db c.job) :
    (∃ w', Runs (executeClaimedJob env rt (.claimed c)) w none w' ∧
        c.job.id ∈ w₁.db.stateJobIds .claimed ∧ Recorded env rt c.job.id w'.db outcome ∧
        OthersHandedOn c.job.id w₁.db w'.db) ∨
      (∃ exiting, outcome = .exited exiting ∧
        Runs (executeClaimedJob env rt (.claimed c)) w (some exiting) w₁) ∨
      ∃ e w', Raises (executeClaimedJob env rt (.claimed c)) w e w' ∧ w'.db = w₁.db ∧
        Ticks w₁ w' ∧ ((c.job.id ∉ w₁.db.stateJobIds .claimed ∧ Refusal env rt outcome e) ∨
          (c.job.id ∈ w₁.db.stateJobIds .claimed ∧ Unsettled env rt w₁ c.job outcome e)) := by
  have sound := sound_of_reachable (by intro t tracked; cases tracked) reached
  unfold Runs Raises
  rw [executeClaimedJob_eq ran]
  have passes {exiting : Exiting} (exited : outcome = .exited exiting) :
      settle env rt c.job outcome w₁ = .ok (some exiting) w₁ := by
    rw [exited]
    rfl
  have raised {e : PyError} (fails : Fails (settle env rt c.job outcome) w₁ e) :
      ∃ w', settle env rt c.job outcome w₁ = .error e w' ∧ w'.db = w₁.db ∧ Ticks w₁ w' := by
    rcases fails with ⟨w', raised⟩
    have ticks := Advances.settle env rt c.job outcome w₁
    unfold finalState at ticks
    rw [show settle env rt c.job outcome w₁ = .error e w' from raised] at ticks
    exact ⟨w', raised, RollsBack.settle env rt c.job outcome _ _ _ raised, ticks⟩
  by_cases claimed : c.job.id ∈ w₁.db.stateJobIds .claimed
  · rcases settle_outcome sound rt own loaded claimed outcome with
      ⟨w', run, settled⟩ | ⟨exiting, exited⟩ | ⟨e, fails, unsettled⟩
    · exact .inl ⟨w', run, claimed, settled⟩
    · exact .inr (.inl ⟨exiting, exited, passes exited⟩)
    · rcases raised fails with ⟨w', ended, same, ticks⟩
      exact .inr (.inr ⟨e, w', ended, same, ticks, .inr ⟨claimed, unsettled⟩⟩)
  · rcases settle_refuses outcome own claimed with ⟨exiting, exited⟩ | ⟨e, fails, refusal⟩
    · exact .inr (.inl ⟨exiting, exited, passes exited⟩)
    · rcases raised fails with ⟨w', ended, same, ticks⟩
      exact .inr (.inr ⟨e, w', ended, same, ticks, .inl ⟨claimed, refusal⟩⟩)

end Executed

/-! The first of the two jobs above is claimed, and its task returns a number. -/

/-- One job is claimed and one waits for its slot. -/
def oneClaimed : Db := afterOperation claimOne twoEnqueued

/-- The task of every path can be imported. -/
def importingEnv : Env :=
  { sqliteEnv "default" with importString := fun _ => .ok (.task syncCall.task) }

/-- A runtime whose tasks return a number. -/
def countingRuntime : TaskRuntime where
  importExits _ := none
  takesContext _ := false
  call _ _ _ w := (.returned (.int 3), w)
  failureOf _ := ⟨"", "", ""⟩
  unwritable _ := none
  column _ := .ok (some "3")

/-- The state is reached by two enqueues and a claim. -/
theorem reachable_oneClaimed : Reachable none oneClaimed :=
  (reachable_twoEnqueued (by intro t tracked; cases tracked)).tail
    (.operation (sqliteEnv "default") claimOne _ _ fun _ process => nomatch process)

theorem semaphores_oneClaimed :
    oneClaimed.semaphores.rows = [⟨1, "account", 0, some 1, 1, 180000000, 0⟩] := by decide +kernel

/-- The job of the claim, with its task imported, has a policy whose one slot can be given back. -/
theorem claimed_oneClaimed : ∃ j ∈ oneClaimed.jobs, j.backendAlias = "default" ∧
    j.id ∈ oneClaimed.stateJobIds .claimed ∧ JobLoaded none oneClaimed j ∧
      ∀ e, ¬ SlotStuck importingEnv ⟨oneClaimed, fun _ => 0, fun _ => 0⟩ j
        (some (.task syncCall.task)) e := by
  have there : ∃ j ∈ oneClaimed.jobs, j.backendAlias = "default" ∧
      j.id ∈ oneClaimed.stateJobIds .claimed ∧
      concurrencySettingsForJob importingEnv j (some (.task syncCall.task)) =
        .ok ⟨1, 180, .block⟩ := by
    decide +kernel
  rcases there with ⟨j, mem, own, claimed, looked⟩
  rcases sound_of_reachable (by intro t tracked; cases tracked) reachable_oneClaimed with
    ⟨⟨a, tracked, good⟩, -⟩
  refine ⟨j, mem, own, claimed, tracked ▸ good.jobLoaded_of_mem mem, fun e stuck => ?_⟩
  cases stuck with
  | policy holds fails unexpected =>
      rw [looked] at fails
      cases fails
  | slot holds settings obstacle =>
      rcases Runs.of_bind settings with ⟨db, w₁, got, rest⟩
      rcases of_run_getDb got with ⟨rfl, rfl⟩
      rw [looked] at rest
      rcases Prod.mk.inj (Runs.of_pure rest).1 with ⟨rfl, rfl⟩
      cases obstacle with
      | deadline n beyond =>
          have inside : isDatetime (0 + seconds 180) = true := by decide
          rw [inside] at beyond
          cases beyond
      | range beyond =>
          refine beyond ⟨fun r mem => ?_, by decide, rfl⟩
          rw [semaphores_oneClaimed] at mem
          rw [List.mem_singleton.mp mem]
          exact ⟨by decide, rfl, by decide, rfl⟩

theorem ran_counting (j : Job) :
    runTask importingEnv countingRuntime (some ⟨j, 0, [], none⟩) j
        ⟨oneClaimed, fun _ => 0, fun _ => 0⟩ =
      (.returned (.int 3) (some (.task syncCall.task)), ⟨oneClaimed, fun _ => 0, fun _ => 0⟩) := rfl

section Pool

variable {env : Env} {rt : TaskRuntime} {c : ClaimedJob} {outcome : TaskOutcome} {w w₁ w₂ : World}

/-! ## In the pool -/

/-- What the worker makes of an exception after the task has ended. -/
theorem failClaimedJobAfterWorkerError_outcome (rt : TaskRuntime) (sound : Sound none w₂.db)
    (own : c.job.backendAlias = env.config.backendAlias) (loaded : JobLoaded none w₂.db c.job)
    (failure : Failure) :
    ∃ w', Runs (failClaimedJobAfterWorkerError env rt c failure) w₂ () w' ∧
      ((c.job.id ∉ w₂.db.stateJobIds .claimed ∧ w'.db = w₂.db) ∨
        (c.job.id ∈ w₂.db.stateJobIds .claimed ∧
          (((∃ e, Unsettled env rt w₂ c.job (.raised failure none) e) ∧ w'.db = w₂.db) ∨
            (Recorded env rt c.job.id w'.db (.raised failure none) ∧
              OthersHandedOn c.job.id w₂.db w'.db)))) := by
  have quiet : ∀ {e : PyError}, Fails (failWith env rt (.job c.job) failure none) w₂ e →
      ∃ w', Runs (failClaimedJobAfterWorkerError env rt c failure) w₂ () w' ∧ w'.db = w₂.db := by
    rintro e ⟨w', raised⟩
    exact ⟨w', raised.runs_tryCatch (runs_pure _ _),
      RollsBack.failWith env rt _ failure none _ _ _ raised⟩
  by_cases claimed : c.job.id ∈ w₂.db.stateJobIds .claimed
  · rcases settle_raised sound rt own loaded claimed failure none with
      ⟨w', run, settled⟩ | ⟨e, failed, unsettled⟩
    · exact ⟨w', runs_tryCatch _ run, .inr ⟨claimed, .inr settled⟩⟩
    · rcases quiet failed with ⟨w', run, same⟩
      exact ⟨w', run, .inr ⟨claimed, .inl ⟨⟨e, unsettled⟩, same⟩⟩⟩
  · have gone : ¬ w₂.db.ClaimLive c.job.id := fun live => claimed (List.mem_map.mpr live)
    rcases quiet (failWith_refuses failure none own gone) with ⟨w', run, same⟩
    exact ⟨w', run, .inl ⟨claimed, same⟩⟩

/-- What the end of the job in its thread means for the tables, which the task left as they were in
the first world. -/
def JobEnd.Leaves (env : Env) (rt : TaskRuntime) (job : Job) (outcome : TaskOutcome)
    (w w' : World) : JobEnd → Prop
  | .done => job.id ∈ w.db.stateJobIds .claimed ∧ Recorded env rt job.id w'.db outcome ∧
      OthersHandedOn job.id w.db w'.db
  | .exits exiting => outcome = .exited exiting ∧ w'.db = w.db
  | .stopRequested =>
      (job.id ∉ w.db.stateJobIds .claimed ∧ w'.db = w.db) ∨
      ∃ e, Unsettled env rt w job outcome e ∧
        (((∃ e', Unsettled env rt w job (.raised (rt.failureOf e) none) e') ∧ w'.db = w.db) ∨
          (Recorded env rt job.id w'.db (.raised (rt.failureOf e) none) ∧
            OthersHandedOn job.id w.db w'.db))

end Pool

end DjQueue
