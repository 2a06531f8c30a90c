import DjQueue.Lifecycle.Releases
import DjQueue.Dispatching.Calm

/-!
# Claims along the edges

A claim moves a ready job to the claimed ones.  Its end finishes the job, deletes it, or fails it,
and hands its slot on; the recovery of lost workers fails whole lots of claims.
-/

namespace DjQueue

open Relational

/-- From one state table to another. -/
def passes (m m' : StateModel) : Edge := (some (.live m), some (.live m'))

/-- The end of a job in this state. -/
def finishes (m : StateModel) : Edge := (some (.live m), some .finished)

/-- The deletion of a job in this state. -/
def leaves (m : StateModel) : Edge := (some (.live m), none)

/-- No job has finished and has a row too. -/
def Db.Exclusive (db : Db) : Prop :=
  ∀ m, ∀ id ∈ db.stateJobIds m, ¬ db.Shows (some .finished) id

theorem Accounts.exclusive {a : Audit} {db : Db} (good : Accounts a [] 0 db) : db.Exclusive := by
  intro m id live done
  have status := good.statusOf_eq_of_shows (p := some (.live m)) live
  rw [good.statusOf_eq_of_shows done] at status
  cases status

/-- Rows of a state table that are read with their jobs, in the course of a session. -/
theorem Follows.comes_of_selected {edges : List Edge} {start db : Db} {m : StateModel}
    {rows : List m.Row} (follows : Follows edges start db)
    (there : ∀ r ∈ rows, r ∈ (db.table m).rows) :
    ∀ x ∈ selectRelatedJob db rows, Comes edges start (some (.live m)) x.2.id := by
  intro x mem
  rcases of_mem_selectRelatedJob there mem with ⟨live, same⟩
  rw [same]
  exact follows.rows m _ live

/-- Claims are ended: no job is claimed on the way, and slots are handed on. -/
structure EndsClaims (edges : List Edge) : Prop extends HandsOn edges where
  claims : ∀ p, (p, some (.live .claimed)) ∉ edges

namespace Steers

variable {α : Type} {edges : List Edge} {start : Db} {env : Env} {w w' : World} {u : Unit}

/-! ## Claiming -/

theorem ensureProcessBelongs (env : Env) (process : Option Process) :
    Steers edges start (ensureProcessBelongs env process) := by
  unfold DjQueue.ensureProcessBelongs
  split
  · exact pure _
  · split
    · exact throw _
    · exact pure _

theorem ensureProcessExists (process : Option Process) :
    Steers edges start (ensureProcessExists process) :=
  bind (of_reads Reads.getDb) fun _ => runIf _ (throw _)

/-- The portable claim takes jobs from ready to claimed. -/
theorem claimPortably {rows : List (ReadyExecution × Job)} {process : Option Process}
    {claimedAt : Time}
    (comes : ∀ r ∈ rows, Comes edges start (some (.live .claimed)) r.2.id) :
    Steers edges start (claimPortably env rows process claimedAt) := by
  intro w claimed w' run follows
  rcases Runs.of_bind run with ⟨consumed, w₁, consume, rest⟩
  have follows₁ := consumeSelectedRows env .ready _ rows _ _ _ consume follows
  apply (bind (runIf _ (ensureProcessExists process)) fun _ =>
    bind (bulkCreate (m := .claimed) ?_) fun _ => pure _) _ _ _ rest follows₁
  intro r mem
  rcases List.mem_map.mp mem with ⟨x, there, rfl⟩
  exact comes x (mem_of_consumeSelectedRows consume x there)

/-- The claim of PostgreSQL, in one statement. -/
theorem claimOnPostgres {rows : List (ReadyExecution × Job)} {process : Option Process}
    {claimedAt : Time} (claims : passes .ready .claimed ∈ edges)
    (first : ∀ p, (p, some (.live .ready)) ∉ edges) :
    Steers edges start (claimOnPostgres rows process claimedAt) := by
  apply bind (ensureProcessExists process)
  intro _
  apply bind
  · intro w created w' run follows
    rcases Runs.of_bind run with ⟨db, w₁, got, rest⟩
    rcases of_run_getDb got with ⟨rfl, rfl⟩
    apply (bind (deleteRowsWhere .ready _) fun _ => bind (forM fun id mem => ?_) fun _ => pure _)
      _ _ _ rest follows
    rcases List.mem_map.mp (List.mem_of_mem_filter mem) with ⟨r, there, rfl⟩
    apply insertRow (m := .claimed)
    · exact fun _ => rfl
    · exact (follows.rows .ready _ (List.mem_map_of_mem (List.mem_of_mem_filter there))).along first
        claims
  · intro created
    split
    · exact pure _
    · exact bind (ensureJobIdsHaveNoOtherExecutionState _ _) fun _ => throw _

/-- A claim takes jobs from ready to claimed. -/
theorem follows_of_claimReadyJobs {a : Audit} {limit : Int} {queues : QueueSelectors}
    {process : Option Process} {claimed : List ClaimedJob} (good : Accounts a [] 0 w.db)
    (claims : passes .ready .claimed ∈ edges) (first : ∀ p, (p, some (.live .ready)) ∉ edges)
    (run : Runs (claimReadyJobs env limit queues process) w claimed w') :
    Follows edges w.db w'.db := by
  unfold DjQueue.claimReadyJobs at run
  split at run
  · exact pure _ _ _ _ run (.refl _ _)
  · rcases Runs.of_bind (Runs.of_atomic run) with ⟨u, w₁, belongs, rest₁⟩
    rw [(Accounts.of_run_ensureProcessBelongs belongs).1] at rest₁
    rcases Runs.of_bind rest₁ with ⟨db, w₂, got, rest₂⟩
    rcases of_run_getDb got with ⟨rfl, rfl⟩
    rcases Runs.of_bind rest₂ with ⟨v, w₃, check, rest₃⟩
    have claimable : ((claimableRows w₂.db env.config.backendAlias).map ReadyExecution.id).Nodup :=
      (good.rowIds .ready).sublist (List.filter_sublist.map _)
    have chosen := chosen_selectReadyRows claimable env queues limit.toNat
    have follows₃ : Follows edges w₂.db w₃.db :=
      (bind (of_spares (.ensureStateRowsBelongToBackend (m := .ready) _ _)) fun _ =>
        runIf _ (ensureJobIdsHaveNoOtherExecutionState _ _)) _ _ _ check (.refl _ _)
    dsimp only at rest₃
    split at rest₃
    · exact pure _ _ _ _ rest₃ follows₃
    · apply (bind (of_reads Reads.timezoneNow) fun claimedAt => bind ?_ fun _ => pure _) _ _ _
        rest₃ follows₃
      unfold DjQueue.claimRows
      split
      · exact claimOnPostgres claims first
      · apply claimPortably
        intro r mem
        rcases of_mem_selectRelatedJob (m := .ready)
          (fun r mem => List.mem_of_mem_filter (chosen.mem r mem)) (List.mem_of_mem_filter mem) with
          ⟨there, same⟩
        rw [same]
        exact .inr ⟨_, claims, there⟩

/-! ## Processes -/

theorem saveProcesses (t : Table Process) : Steers edges start (saveProcesses t) := by
  unfold DjQueue.saveProcesses
  split
  · exact modifyDb fun _ => rfl
  · exact throw _

/-- The claims of a process that is deleted stay. -/
theorem deleteProcessesWhere (p : Process → Bool) :
    Steers edges start (deleteProcessesWhere p) := by
  apply bind (of_reads Reads.getDb)
  intro db
  apply bind (saveProcesses _)
  intro _
  exact bind (modifyDb fun db => courseParts_updateWhere db .claimed fun _ => rfl) fun _ =>
    pure _

theorem registerProcess (env : Env) (pid : Int) (name : String) (supervisorId : Option Nat) :
    Steers edges start (registerProcess env pid name supervisorId) := by
  apply bind (of_reads Reads.timezoneNow)
  intro now
  apply bind (of_reads Reads.getDb)
  intro db
  split
  · exact bind (saveProcesses _) fun _ => pure _
  · exact throw _

theorem touchProcessRow (processId : Nat) : Steers edges start (touchProcessRow processId) :=
  bind (of_reads Reads.timezoneNow) fun _ => modifyDb fun _ => rfl

theorem deregisterProcess (processId : Nat) : Steers edges start (deregisterProcess processId) :=
  Relates.atomic (bind (deleteProcessesWhere _) fun _ => pure _)

/-! ## One claim ends -/

/-- The job whose claim is deleted was claimed. -/
theorem claimed_of_deleteRows {id : JobId} {n : Nat} (follows : Follows edges start w.db)
    (some_ : n ≠ 0)
    (run : Runs (DjQueue.deleteRowsWhere .claimed (fun r => r.jobId == id)) w n w') :
    Follows edges start w'.db ∧ Comes edges start (some (.live .claimed)) id := by
  refine ⟨deleteRowsWhere .claimed _ _ _ _ run follows, ?_⟩
  rw [(of_run_deleteRowsWhere run).1] at some_
  rcases List.countP_pos_iff.mp (Nat.pos_of_ne_zero some_) with ⟨r, there, hit⟩
  rw [← beq_iff_eq.mp hit]
  exact follows.rows .claimed _ (List.mem_map_of_mem there)

/-- A claim that is deleted was the job's state. -/
theorem claimed_of_deleteClaimedExecution {id : JobId} (follows : Follows edges start w.db)
    (run : Runs (deleteClaimedExecution id) w u w') :
    Follows edges start w'.db ∧ Comes edges start (some (.live .claimed)) id := by
  rcases Runs.of_bind run with ⟨n, w₁, deleted, check⟩
  rcases of_run_runIf_throw check with ⟨some_, same⟩
  rw [same]
  exact claimed_of_deleteRows follows (of_decide_eq_false some_) deleted

/-- The jobs of a process are claimed. -/
theorem comes_of_jobsClaimedBy {db : Db} (follows : Follows edges start db) (processId : Nat) :
    ∀ j ∈ jobsClaimedBy db processId, Comes edges start (some (.live .claimed)) j.id := by
  intro j mem
  rcases List.mem_map.mp mem with ⟨x, there, rfl⟩
  exact follows.comes_of_selected (m := .claimed) (fun r mem => List.mem_of_mem_filter mem) x there

section Ends

variable (ends : EndsClaims edges)

include ends

/-- A claimed job ends as a finished one, or is deleted. -/
theorem finishClaimedJob (apart : start.Exclusive)
    (done : env.config.preserveFinishedJobs = true → finishes .claimed ∈ edges)
    (gone : env.config.preserveFinishedJobs = false → leaves .claimed ∈ edges) (job : Job)
    (returnValue : Option String) (now : Time) :
    Steers edges start (finishClaimedJob env job returnValue now) := by
  unfold DjQueue.finishClaimedJob
  split
  · rename_i preserves
    have done := done preserves
    split
    · intro w u w' run follows
      rcases Runs.of_bind run with ⟨db, w₁, got, rest⟩
      rcases of_run_getDb got with ⟨rfl, rfl⟩
      rcases Runs.of_bind rest with ⟨n, w₂, deleted, rest⟩
      have follows₂ := deleteRowsWhere .claimed _ _ _ _ deleted follows
      rcases Runs.of_bind rest with ⟨v, w₃, updated, rest⟩
      apply (bind (runIf _ (throw _)) fun _ => runIf _ (throw _)) _ _ _ rest
      refine updateJobsWhere ?_ ?_ _ _ _ updated follows₂
      · exact fun _ => rfl
      intro j hit
      simp only [Bool.and_eq_true, beq_iff_eq, decide_eq_true_eq] at hit
      have claimed := (claimed_of_deleteRows follows hit.1.2 deleted).2
      rw [hit.1.1.1]
      exact ⟨apart _ _ (claimed.stayed ends.claims), fun _ => claimed.along ends.claims done⟩
    · intro w u w' run follows
      rcases Runs.of_bind run with ⟨v, w₁, deleted, finished⟩
      rcases claimed_of_deleteClaimedExecution follows deleted with ⟨follows₁, claimed⟩
      exact finishJobIfNoExecutionState (apart _ _ (claimed.stayed ends.claims))
        (claimed.along ends.claims done) _ _ _ finished follows₁
  · rename_i deletes
    have gone := gone (Bool.not_eq_true _ ▸ deletes)
    intro w u w' run follows
    rcases Runs.of_bind run with ⟨v, w₁, deleted, rest⟩
    rcases claimed_of_deleteClaimedExecution follows deleted with ⟨follows₁, claimed⟩
    apply (bind (ensureJobIdsHaveNoOtherExecutionState _ _) fun _ =>
      bind (deleteJobsWhere fun j hit => ?_) fun _ => pure _) _ _ _ rest follows₁
    rw [beq_iff_eq.mp hit]
    exact claimed.along ends.claims gone

/-- A success finishes the job, or deletes it where finished jobs are not kept. -/
theorem completeClaimedJob (apart : start.Exclusive)
    (done : env.config.preserveFinishedJobs = true → finishes .claimed ∈ edges)
    (gone : env.config.preserveFinishedJobs = false → leaves .claimed ∈ edges) (arg : JobArg)
    (returnValue : Option String) (task : Option Imported) :
    Steers edges start (completeClaimedJob env arg returnValue task) := by
  apply bind (of_reads (Reads.resolveClaimedJob env arg))
  intro job
  apply Relates.atomic
  exact bind (of_reads Reads.timezoneNow) fun _ =>
    bind (finishClaimedJob ends apart done gone job _ _) fun _ =>
    releaseConcurrencySlot ends.toHandsOn env job task

section Failures

variable (fails : passes .claimed .failed ∈ edges)

include fails

/-- A failure takes the job from claimed to failed. -/
theorem failClaimedJob (env : Env) (arg : JobArg) (failure : Failure) (task : Option Imported) :
    Steers edges start (failClaimedJob env arg failure task) := by
  apply bind (of_reads (Reads.resolveClaimedJob env arg))
  intro job
  apply Relates.atomic
  intro w u w' run follows
  rcases Runs.of_bind run with ⟨v, w₁, deleted, rest⟩
  rcases claimed_of_deleteClaimedExecution follows deleted with ⟨follows₁, claimed⟩
  exact (bind (ensureJobIdsHaveNoOtherExecutionState _ _) fun _ =>
    bind (createRow (m := .failed) _ (claimed.along ends.claims fails)) fun _ =>
    releaseConcurrencySlot ends.toHandsOn env job task) _ _ _ rest follows₁

/-! ## Claims of lost workers -/

theorem failClaimedJobs {jobs : List Job} (env : Env)
    (claimed : ∀ j ∈ jobs, Comes edges start (some (.live .claimed)) j.id) (failure : Failure) :
    Steers edges start (failClaimedJobs env jobs failure) := by
  unfold DjQueue.failClaimedJobs
  split
  · exact pure _
  · split
    · exact throw _
    · apply Relates.atomic
      apply bind (deleteRowsWhere .claimed _)
      intro deleted
      apply bind (runIf _ (throw _))
      intro _
      apply bind (ensureJobIdsHaveNoOtherExecutionState _ _)
      intro _
      apply bind
      · apply bulkCreate (m := .failed)
        intro r mem
        rcases List.mem_map.mp mem with ⟨id, mapped, rfl⟩
        rcases List.mem_map.mp mapped with ⟨j, there, rfl⟩
        exact (claimed j there).along ends.claims fails
      · exact fun _ => bind (releaseFallback ends.toHandsOn env jobs) fun _ => pure _

theorem failOrphanedClaimedJobs (env : Env) (failure : Failure) (batchSize : Int) :
    Steers edges start (failOrphanedClaimedJobs env failure batchSize) := by
  apply Relates.atomic
  intro w jobs w' run follows
  rcases Runs.of_bind run with ⟨db, w₁, got, rest⟩
  rcases of_run_getDb got with ⟨rfl, rfl⟩
  rcases Runs.of_bind rest with ⟨rows, w₂, sliced, rest⟩
  rcases of_run_sliceTo sliced with ⟨taken, same⟩
  rw [same] at rest
  refine failClaimedJobs ends fails env ?_ failure _ _ _ rest follows
  intro j mem
  rcases List.mem_map.mp mem with ⟨x, there, rfl⟩
  rw [taken] at there
  exact follows.comes_of_selected (m := .claimed)
    (fun r mem => List.mem_of_mem_filter (mem_orderBy.mp mem)) x
    (List.mem_of_mem_filter (List.mem_of_mem_take there))

/-- The processes go one by one, and of each the claims within the budget. -/
theorem pruneLoop (env : Env) (cutoff : Time) (failure : Failure) :
    ∀ (processes : List Process) (remaining : Int),
      Steers edges start (pruneLoop env cutoff failure processes remaining)
  | [], _ => pure _
  | process :: processes, remaining => by
      intro w pruned w' run follows
      rcases Runs.of_bind run with ⟨db, w₁, got, rest⟩
      rcases of_run_getDb got with ⟨rfl, rfl⟩
      rcases Runs.of_bind rest with ⟨rows, w₂, sliced, rest⟩
      rcases of_run_sliceTo sliced with ⟨taken, same⟩
      rw [same] at rest
      have claimed : ∀ j ∈ rows.map Prod.snd,
          Comes edges start (some (.live .claimed)) j.id := by
        intro j mem
        rcases List.mem_map.mp mem with ⟨x, there, rfl⟩
        rw [taken] at there
        exact follows.comes_of_selected (m := .claimed)
          (fun r mem => List.mem_of_mem_filter (mem_orderBy.mp mem)) x (List.mem_of_mem_take there)
      apply (bind (deleteProcessesWhere _) fun deleted => ?_) _ _ _ rest follows
      split
      · exact pruneLoop env cutoff failure processes remaining
      · apply bind (failClaimedJobs ends fails env claimed failure)
        intro _
        split
        · exact pure _
        · exact bind (pruneLoop env cutoff failure processes _) fun _ => pure _

theorem pruneStaleProcesses (env : Env) (cutoff : Time) (failure : Failure) (excluded : Option Nat)
    (batchSize : Int) :
    Steers edges start (pruneStaleProcesses env cutoff failure excluded batchSize) :=
  Relates.atomic (bind (of_reads Reads.getDb) fun _ => bind (of_reads (Reads.sliceTo _ _)) fun _ =>
    pruneLoop ends fails env cutoff failure _ _)

end Failures

end Ends

end Steers

end DjQueue
