import DjQueue.Lifecycle.Operations

/-!
# Lifecycles along runs

One graph for all operations.  The only edge out of a finished job leads to no job at all: while the
job is there, it stays finished and its result is what it was.
-/

namespace DjQueue

open Relational

/-- Every edge some operation has. -/
def lifecycle : List Edge :=
  creations ++
    [passes .scheduled .ready, passes .scheduled .blocked, finishes .scheduled,
      passes .scheduled .failed, leaves .scheduled,
     handOff, passes .blocked .failed, leaves .blocked,
     passes .ready .claimed, leaves .ready,
     finishes .claimed, passes .claimed .failed, leaves .claimed,
     passes .failed .ready, passes .failed .scheduled, passes .failed .blocked, finishes .failed,
      leaves .failed,
     (some .finished, none)]

/-- Every operation keeps to the edges of the lifecycle. -/
theorem subset_lifecycle (config : Config) (op : Operation) :
    ∀ e ∈ op.edges config, e ∈ lifecycle := by
  have ends : ∀ e ∈ completions config, e ∈ lifecycle := by
    unfold completions
    split <;> decide
  cases op with
  | job op =>
      cases op with
      | completeClaimedJob arg returnValue task => exact ends
      | _ => exact fun e mem => by revert e; simp only [Operation.edges, JobOperation.edges]; decide
  | _ => exact fun e mem => by revert e; simp only [Operation.edges]; decide

/-- A change of policy columns leaves every job where it is. -/
theorem follows_withPolicies (db : Db) (policy : Job → Policy) :
    Follows [] db (db.withPolicies policy) where
  rows _ _ mem := .inl mem
  jobs j' mem := by
    rcases List.mem_map.mp mem with ⟨j, there, rfl⟩
    exact .inl ⟨j, there, rfl, rfl⟩
  kept j mem := .inl (List.mem_map.mpr ⟨_, List.mem_map_of_mem mem, rfl⟩)

theorem follows_of_step {tracked : Option (String × Int)} {db db' : Db} (sound : Sound tracked db)
    (step : Step tracked db db') : Follows lifecycle db db' := by
  cases step with
  | operation env op clock uuids promised =>
      exact (op.follows (w := ⟨db, clock, uuids⟩) sound).mono (subset_lifecycle env.config op)
  | policies policy resolves =>
      exact (follows_withPolicies db policy).mono fun _ mem => absurd mem List.not_mem_nil

/-- A run during which this job is there. -/
def RunWith (id : JobId) : Db → Db → Prop :=
  Relation.ReflTransGen fun db db' => Step none db db' ∧ id ∈ db'.jobs.map Job.id

/-- A run from a reachable database reaches another. -/
theorem reachable_of_runWith {id : JobId} {db db' : Db} (reached : Reachable none db)
    (run : RunWith id db db') : Reachable none db' := by
  induction run with
  | refl => exact reached
  | tail _ step ih => exact ih.tail step.1

/-- A job that is there and had finished is finished, with the same result. -/
theorem result_of_follows {a a' : Audit} {start db : Db} {j : Job}
    (follows : Follows lifecycle start db) (good : Accounts a [] 0 start)
    (good' : Accounts a' [] 0 db) (mem : j ∈ start.jobs) (done : j.finishedAt.isSome = true)
    (stays : j.id ∈ db.jobs.map Job.id) :
    ∃ j' ∈ db.jobs, j'.id = j.id ∧ j'.result = j.result ∧
      db.statusOf j.id = some .finished := by
  rcases List.mem_map.mp stays with ⟨j', mem', same⟩
  have result := follows.result good mem mem' same done
  have done' : j'.finishedAt.isSome = true := by
    rw [(Prod.mk.inj result).1]
    exact done
  exact ⟨j', mem', same, result, good'.statusOf_eq_of_shows ⟨j', mem', same, done'⟩⟩

theorem mem_jobs_view {db : Db} {backendAlias : String} {j : Job} :
    j ∈ (db.view backendAlias).jobs ↔ j ∈ db.jobs ∧ j.backendAlias = backendAlias := by
  rw [Db.view, List.mem_filter, beq_iff_eq]

/-- No step moves a job to another backend. -/
theorem backendAlias_of_step {tracked : Option (String × Int)} {db db' : Db} {j j' : Job}
    (sound : Sound tracked db) (step : Step tracked db db') (mem : j ∈ db.jobs)
    (mem' : j' ∈ db'.jobs) (same : j'.id = j.id) : j'.backendAlias = j.backendAlias := by
  rcases (sound_of_step step sound).accounts with ⟨a', -, good'⟩
  rcases sound.accounts with ⟨a, -, good⟩
  cases step with
  | operation env op clock uuids promised =>
      have keeps := op.keeps (w := ⟨db, clock, uuids⟩) sound promised
      by_contra moved
      by_cases own : j.backendAlias = env.config.backendAlias
      · -- the row would have been in a view that the operation leaves alone
        have there : j' ∈ ((op.final env ⟨db, clock, uuids⟩).db.view j'.backendAlias).jobs :=
          mem_jobs_view.mpr ⟨mem', rfl⟩
        rw [keeps.view j'.backendAlias fun eq => moved (eq.trans own.symm)] at there
        have before := good.eq_of_id (mem_jobs_view.mp there).1 mem same
        exact moved (congrArg Job.backendAlias before)
      · have there : j ∈ (db.view j.backendAlias).jobs := mem_jobs_view.mpr ⟨mem, rfl⟩
        rw [← keeps.view j.backendAlias own] at there
        have after := good'.eq_of_id mem' (mem_jobs_view.mp there).1 same
        exact moved (congrArg Job.backendAlias after)
  | policies policy resolves =>
      rcases List.mem_map.mp mem' with ⟨i, there, rfl⟩
      have one : i = j := good.eq_of_id there mem same
      rw [← one]
      rfl

/-- What is left of a job that had finished at the start of a run during which it is there. -/
theorem finished_of_runWith {db db' : Db} {j : Job} (reached : Reachable none db)
    (run : RunWith j.id db db') (mem : j ∈ db.jobs) (done : j.finishedAt.isSome = true) :
    ∃ j' ∈ db'.jobs, j'.id = j.id ∧ j'.result = j.result ∧ j'.backendAlias = j.backendAlias ∧
      db'.statusOf j.id = some .finished := by
  have positive : ∀ t : String × Int, none = some t → 0 < t.2 := fun _ none_ => nomatch none_
  induction run with
  | refl =>
      rcases sound_of_reachable positive reached with ⟨⟨a, -, good⟩, -⟩
      exact ⟨j, mem, rfl, rfl, rfl, good.statusOf_eq_of_shows ⟨j, mem, rfl, done⟩⟩
  | tail run step ih =>
      rcases ih with ⟨j₁, mem₁, same₁, result₁, backend₁, -⟩
      have sound := sound_of_reachable positive (reachable_of_runWith reached run)
      have sound' := sound_of_step step.1 sound
      have follows := follows_of_step sound step.1
      have stays {j₂ : Job} (mem₂ : j₂ ∈ _) (same₂ : j₂.id = j₁.id) :=
        backendAlias_of_step sound step.1 mem₁ mem₂ same₂
      rcases sound with ⟨⟨a, -, good⟩, -⟩
      rcases sound' with ⟨⟨a', -, good'⟩, -⟩
      have done₁ : j₁.finishedAt.isSome = true := by
        rw [(Prod.mk.inj result₁).1]
        exact done
      rcases result_of_follows follows good good' mem₁ done₁ (same₁ ▸ step.2) with
        ⟨j₂, mem₂, same₂, result₂, status⟩
      exact ⟨j₂, mem₂, same₂.trans same₁, result₂.trans result₁, (stays mem₂ same₂).trans backend₁,
        same₁ ▸ status⟩

/-- A job that has finished stays so for as long as it is there, with the same time and the same
return value, whatever operations run. -/
theorem finished_jobs_stay_finished {db db' : Db} {j : Job} (reached : Reachable none db)
    (run : RunWith j.id db db') (mem : j ∈ db.jobs) (done : j.finishedAt.isSome = true) :
    ∃ j' ∈ db'.jobs, j'.id = j.id ∧ j'.result = j.result ∧
      db'.statusOf j.id = some .finished := by
  rcases finished_of_runWith reached run mem done with ⟨j', mem', same, result, -, status⟩
  exact ⟨j', mem', same, result, status⟩

/-! ## A run

The first of the two jobs above is claimed and completed, and the second one, which waited for its
slot, is claimed after it. -/

/-- The database an operation leaves. -/
def afterOperation (op : Operation) (db : Db) : Db :=
  (op.final (sqliteEnv "default") ⟨db, fun _ => 0, fun _ => 0⟩).db

/-- One job is completed. -/
def oneCompleted : Db :=
  afterOperation (.job (.completeClaimedJob (.pk 1) (some "3") none))
    (afterOperation claimOne twoEnqueued)

/-- Its database is reached by operations. -/
theorem reachable_oneCompleted : Reachable none oneCompleted := by
  have claimed : Reachable none (afterOperation claimOne twoEnqueued) :=
    (reachable_twoEnqueued (by intro t tracked; cases tracked)).tail
      (.operation (sqliteEnv "default") claimOne _ _ fun _ process => nomatch process)
  exact claimed.tail (.operation (sqliteEnv "default")
    (.job (.completeClaimedJob (.pk 1) (some "3") none)) _ _ trivial)

/-- The completed job stays finished while the other is claimed. -/
theorem finished_jobs_stay_finished_after_claim :
    ∃ j ∈ oneCompleted.jobs, j.returnValue = some "3" ∧
      (afterOperation claimOne oneCompleted).statusOf 2 = some (.live .claimed) ∧
      ∃ j' ∈ (afterOperation claimOne oneCompleted).jobs, j'.id = j.id ∧ j'.result = j.result ∧
        (afterOperation claimOne oneCompleted).statusOf j.id = some .finished := by
  have finished : ∃ j ∈ oneCompleted.jobs, j.id = 1 ∧ j.returnValue = some "3" ∧
      j.finishedAt.isSome = true := by decide +kernel
  rcases finished with ⟨j, mem, one, value, done⟩
  have run : RunWith j.id oneCompleted (afterOperation claimOne oneCompleted) := by
    apply Relation.ReflTransGen.single
    constructor
    · exact .operation (sqliteEnv "default") claimOne _ _ fun _ process => nomatch process
    · rw [one]
      decide +kernel
  exact ⟨j, mem, value, by decide +kernel,
    finished_jobs_stay_finished reachable_oneCompleted run mem done⟩

end DjQueue
