import DjQueue.Operations.Recovery

/-!
# Completing with an old claim

A worker that stalls keeps a `ClaimedJob`.  Nothing in it is compared with the claim that
is live when the worker comes back: `complete_claimed_job` and `fail_claimed_job` take the
job out of it and delete the claim by the job's key.  So a call with an old claim goes
through whenever the job is claimed again, by whichever process, and raises
`ClaimedExecution.DoesNotExist`, with nothing changed, whenever it is not.
-/

namespace DjQueue

open Relational

/-- The job has a claim, whoever made it. -/
def Db.ClaimLive (db : Db) (id : JobId) : Prop := ∃ r ∈ db.claimed.rows, r.jobId = id

/-- The claim that produced `old` is the one in the table. -/
def Db.OwnClaimLive (db : Db) (old : ClaimedJob) : Prop :=
  ∃ r ∈ db.claimed.rows,
    r.jobId = old.job.id ∧ r.processId = old.processId ∧ r.createdAt = old.claimedAt

instance (db : Db) (old : ClaimedJob) : Decidable (db.OwnClaimLive old) := by
  unfold Db.OwnClaimLive; infer_instance

/-- The session raises `ClaimedExecution.DoesNotExist` and leaves every table as it was. -/
def RefusesUnchanged {α : Type} (x : Op α) (w : World) : Prop :=
  ∃ w', Raises x w .claimedDoesNotExist w' ∧ w'.db = w.db

/-! ## No claim, no effect -/

section NoClaim

variable {w : World} {id : JobId}

theorem countP_claims_eq_zero (absent : ¬ w.db.ClaimLive id) :
    w.db.claimed.rows.countP (fun r => r.jobId == id) = 0 := by
  refine List.countP_eq_zero.mpr fun r mem hit => absent ⟨r, mem, ?_⟩
  exact of_decide_eq_true hit

/-- Giving up a claim that is gone raises. -/
theorem deleteClaimedExecution_fails (absent : ¬ w.db.ClaimLive id) :
    Fails (deleteClaimedExecution id) w .claimedDoesNotExist := by
  refine Runs.bind_fails rfl (Fails.of_runIf ?_ (Fails.of_throw _ _))
  exact decide_eq_true (countP_claims_eq_zero absent)

/-- Finishing a job whose claim is gone raises. -/
theorem finishClaimedJob_fails (env : Env) {job : Job} (returnValue : Option String) (now : Time)
    (absent : ¬ w.db.ClaimLive job.id) :
    Fails (finishClaimedJob env job returnValue now) w .claimedDoesNotExist := by
  unfold finishClaimedJob
  split
  · split
    · -- PostgreSQL: the deleted count comes back with the statement and is checked after it
      refine Runs.bind_fails rfl (Runs.bind_fails rfl (Runs.bind_fails rfl (Fails.bind ?_)))
      refine Fails.of_runIf ?_ (Fails.of_throw _ _)
      have none := countP_claims_eq_zero absent
      exact decide_eq_true (fun one => absurd (none.symm.trans one) (by decide))
    · exact Fails.bind (deleteClaimedExecution_fails absent)
  · exact Fails.bind (deleteClaimedExecution_fails absent)

end NoClaim

/-! ## The two calls -/

/-- Looking the claimed job up only reads. -/
theorem Reads.resolveClaimedJob (env : Env) (arg : JobArg) : Reads (resolveClaimedJob env arg) := by
  cases arg with
  | job job =>
      simp only [DjQueue.resolveClaimedJob]
      split
      · exact Reads.throw _
      · exact Reads.pure _
  | pk id =>
      refine Reads.bind Reads.getDb fun db => ?_
      split
      · exact Reads.throw _
      · exact Reads.pure _

section Resolved

variable {env : Env} {old : ClaimedJob} {w : World} {body : Job → Op Unit}

/-- Both calls resolve the job and then run one transaction. -/
theorem resolved_refuses
    (refused : old.job.backendAlias = env.config.backendAlias →
      Fails (body old.job) w .claimedDoesNotExist) :
    RefusesUnchanged (do
      let job ← resolveClaimedJob env old.arg
      transactionAtomic (body job)) w := by
  by_cases own : old.job.backendAlias = env.config.backendAlias
  · obtain ⟨w', raised, same⟩ := raises_transactionAtomic (refused own)
    refine ⟨w', ?_, same⟩
    simp only [Raises, Bind.bind, EStateM.bind, resolveClaimedJob, ClaimedJob.arg, own, ne_eq,
      not_true_eq_false, if_false]
    exact raised
  · refine ⟨w, ?_, rfl⟩
    simp only [Raises, Bind.bind, EStateM.bind, resolveClaimedJob, ClaimedJob.arg, own, ne_eq,
      not_false_eq_true, if_true]
    rfl

/-- A refusal leaves the database as it was. -/
theorem db_of_resolved_raises {e : PyError} {w' : World}
    (raised : Raises (do
      let job ← resolveClaimedJob env old.arg
      transactionAtomic (body job)) w e w') : w'.db = w.db :=
  RollsBack.bind (Reads.resolveClaimedJob env old.arg) (fun _ => RollsBack.atomic _) _ _ _ raised

end Resolved

/-- A completion whose job or claim is gone is refused. -/
theorem completeClaimedJob_refuses {env : Env} {old : ClaimedJob} {w : World}
    (returnValue : Option String) (task : Option Imported)
    (stale : old.job.backendAlias ≠ env.config.backendAlias ∨ ¬ w.db.ClaimLive old.job.id) :
    RefusesUnchanged (completeClaimedJob env old.arg returnValue task) w :=
  resolved_refuses fun own => Runs.bind_fails rfl (Fails.bind
    (finishClaimedJob_fails env returnValue _ (stale.resolve_left (not_not_intro own))))

/-- A failure whose job or claim is gone is refused. -/
theorem failClaimedJob_refuses {env : Env} {old : ClaimedJob} {w : World}
    (failure : Failure) (task : Option Imported)
    (stale : old.job.backendAlias ≠ env.config.backendAlias ∨ ¬ w.db.ClaimLive old.job.id) :
    RefusesUnchanged (failClaimedJob env old.arg failure task) w :=
  resolved_refuses fun own =>
    Fails.bind (deleteClaimedExecution_fails (stale.resolve_left (not_not_intro own)))

/-- What guards a completion or a failure reported with an old claim: it is refused, with every
table unchanged, unless the job is of the caller's backend and some claim of it is live; and
whatever it raises then, the tables are unchanged as well. -/
theorem claimedJob_guarded_by_any_claim (env : Env) (old : ClaimedJob) (w : World)
    (returnValue : Option String) (failure : Failure) (task : Option Imported) :
    ((old.job.backendAlias = env.config.backendAlias ∧ w.db.ClaimLive old.job.id) ∨
      (RefusesUnchanged (completeClaimedJob env old.arg returnValue task) w ∧
        RefusesUnchanged (failClaimedJob env old.arg failure task) w)) ∧
      (∀ e w', Raises (completeClaimedJob env old.arg returnValue task) w e w' → w'.db = w.db) ∧
      (∀ e w', Raises (failClaimedJob env old.arg failure task) w e w' → w'.db = w.db) := by
  refine ⟨?_, fun e w' raised => db_of_resolved_raises raised,
    fun e w' raised => db_of_resolved_raises raised⟩
  by_cases guarded : old.job.backendAlias = env.config.backendAlias ∧ w.db.ClaimLive old.job.id
  · exact .inl guarded
  · have stale := not_and_or.mp guarded
    exact .inr ⟨completeClaimedJob_refuses returnValue task stale,
      failClaimedJob_refuses failure task stale⟩

/-! ## A job claimed twice -/

/-- A task without a concurrency key. -/
def reportTask : Task := ⟨"app.report", "default", 0, none, none, none, none⟩

/-- What a supervisor says of a claim it fails. -/
def lostWorker : Failure := ⟨"dj_queue.exceptions.ProcessPrunedError", "process was pruned", ""⟩

/-- One job is claimed, its worker is pruned, the job is retried and claimed by another; then
the first worker comes back and completes it.  Returns what both workers hold, and the database
before and after the completion. -/
def completeWithOldClaim (env : Env) : Op ((List ClaimedJob × List ClaimedJob) × (Db × Db)) := do
  let first ← registerProcess env 101 "worker-1" none
  let _ ← enqueueJobWithDispatch env ⟨reportTask, some ⟨[], []⟩, .unset⟩ true 7
  let old ← claimReadyJobs env 1 .none (some first)
  let _ ← pruneStaleProcesses env 1000 lostWorker none 500
  let _ ← retryFailedJob env 7
  let second ← registerProcess env 102 "worker-2" none
  let new ← claimReadyJobs env 1 .none (some second)
  let before ← getDb
  old.forM (fun c => completeClaimedJob env c.arg (some "null") none)
  let after ← getDb
  pure ((old, new), before, after)

/-- An empty database. -/
def freshWorld : World where
  db := .empty
  clock n := n
  uuids n := n

/-- The first worker's completion deletes the second worker's claim and finishes the job. -/
theorem old_claim_completes_reclaimed_job :
    ∃ run ∈ returned (completeWithOldClaim (.ofConfig { family := .postgresql })) freshWorld,
      run.1.1.length = 1 ∧ run.1.2.length = 1 ∧
      (∀ old ∈ run.1.1, ¬ run.2.1.OwnClaimLive old) ∧
      (∀ new ∈ run.1.2, run.2.1.OwnClaimLive new ∧ ¬ run.2.2.OwnClaimLive new) ∧
      run.2.2.jobs.map Job.finishedAt ≠ [none] := by
  decide +kernel

end DjQueue
