import DjQueue.Slots.Releases

/-!
# The claims of lost processes

What the two parts of `operations/recovery.py` come to on sound tables.  Failing claims raises only
where a slot cannot be given back; deleting a process raises only where one of its children then has
the identity of another process.
-/

namespace DjQueue

open Relational

/-- What fails in a transaction fails. -/
theorem Fails.transactionAtomic {α : Type} {x : Op α} {w : World} {e : PyError}
    (body : Fails x w e) : Fails (transactionAtomic x) w e := by
  rcases raises_transactionAtomic body with ⟨w', raised, -⟩
  exact ⟨w', raised⟩

/-! ## Failing claims -/

/-- The claims of these jobs were deleted, the jobs have failed in this order, and no other job,
process, claim or failure changed. -/
structure FailsClaims (ids : List JobId) (db db' : Db) : Prop where
  jobs : db'.jobs = db.jobs
  processes : db'.processes = db.processes
  claimed : db'.claimed = db.claimed.deleteWhere (fun r => ids.contains r.jobId)
  failed : ∃ rows, db'.failed.rows = db.failed.rows ++ rows ∧ rows.map FailedExecution.jobId = ids

/-- The tables a release leaves alone. -/
def claimParts (db : Db) :
    List Job × Table Process × Table ClaimedExecution × Table FailedExecution :=
  (db.jobs, db.processes, db.claimed, db.failed)

/-- A release writes to none of them. -/
theorem aloof_claimParts : Aloof claimParts := ⟨fun _ _ => rfl, fun _ _ => rfl, fun _ _ => rfl⟩

/-- What leaves those tables alone leaves the failures as they were recorded. -/
theorem FailsClaims.of_parts {ids : List JobId} {db db' db'' : Db} (fails : FailsClaims ids db db')
    (same : claimParts db'' = claimParts db') : FailsClaims ids db db'' := by
  rcases Prod.mk.inj same with ⟨sameJobs, parts⟩
  rcases Prod.mk.inj parts with ⟨sameProcesses, parts⟩
  rcases Prod.mk.inj parts with ⟨sameClaims, sameFailures⟩
  exact ⟨sameJobs.trans fails.jobs, sameProcesses.trans fails.processes,
    sameClaims.trans fails.claimed, sameFailures ▸ fails.failed⟩

namespace Accounts

variable {a : Audit} {w : World} {jobs : List Job}

/-- Distinct claimed jobs have one claim each. -/
theorem countP_claimed (good : Accounts a [] 0 w.db)
    (claimed : ∀ j ∈ jobs, j.id ∈ w.db.stateJobIds .claimed) (nodup : (jobs.map Job.id).Nodup) :
    w.db.claimed.rows.countP (fun r => (jobs.map Job.id).contains r.jobId) =
      (jobs.map Job.id).length := by
  have ids : (w.db.claimed.rows.map ClaimedExecution.jobId).Nodup := good.stateJobIds_nodup .claimed
  have perm : ((w.db.claimed.rows.map ClaimedExecution.jobId).filter
      (jobs.map Job.id).contains).Perm (jobs.map Job.id) := by
    rw [List.perm_ext_iff_of_nodup (ids.filter _) nodup]
    intro id
    rw [List.mem_filter, List.contains_iff_mem]
    constructor
    · exact And.right
    · intro mem
      rcases List.mem_map.mp mem with ⟨j, inJobs, rfl⟩
      exact ⟨claimed j inJobs, mem⟩
  rw [← perm.length_eq, ← List.countP_eq_length_filter, List.countP_map]
  rfl

/-- The claims deleted and the failures recorded, before any slot is given back. -/
theorem runs_recordFailures (good : Accounts a [] 0 w.db)
    (there : ∀ j ∈ jobs, j ∈ w.db.jobs) (own : ∀ j ∈ jobs, j.backendAlias = a.backendAlias)
    (claimed : ∀ j ∈ jobs, j.id ∈ w.db.stateJobIds .claimed) (nodup : (jobs.map Job.id).Nodup)
    (failure : Failure) :
    ∃ w₁ w₂, Runs (DjQueue.deleteRowsWhere .claimed
          (fun r => (jobs.map Job.id).contains (ClaimedExecution.jobId r))) w
          (jobs.map Job.id).length w₁ ∧
      Runs (ensureJobIdsHaveNoOtherExecutionState (jobs.map Job.id) [.claimed]) w₁ () w₁ ∧
      Runs (DjQueue.bulkCreate .failed ((jobs.map Job.id).map (failedRow failure))) w₁ () w₂ ∧
      Accounts a [] (0 + (jobs.map a.jobSlot).sum) w₂.db ∧
      FailsClaims (jobs.map Job.id) w.db w₂.db ∧ SlotsGivenBack a.env [] w w₂ := by
  have knows : ∀ j ∈ jobs, a.Knows j := fun j mem => good.knows j (there j mem)
  have all := good.countP_claimed claimed nodup
  have good₁ := good.deleteClaims knows own all
  have deleted := runs_deleteRowsWhere .claimed
    (fun r => (jobs.map Job.id).contains (ClaimedExecution.jobId r)) w
  generalize taken : w.db.setTable .claimed (w.db.claimed.deleteWhere
    (fun r => (jobs.map Job.id).contains r.jobId)) = db₁ at good₁
  have deleted : Runs (DjQueue.deleteRowsWhere .claimed
      (fun r => (jobs.map Job.id).contains (ClaimedExecution.jobId r))) w
      (jobs.map Job.id).length { w with db := db₁ } := by
    rw [← all, ← taken]
    exact deleted
  have nowhere : ∀ id ∈ jobs.map Job.id, ∀ m, db₁.hasState m id = false := by
    intro id mem m
    rcases List.mem_map.mp mem with ⟨j, inJobs, rfl⟩
    rw [Db.hasState, ← Bool.not_eq_true, List.contains_iff_mem]
    have still : j ∈ db₁.jobs := by
      rw [← taken]
      exact there j inJobs
    exact good₁.stateless_of_hand still (List.mem_append_left _ mem) m
  have free : Runs (ensureJobIdsHaveNoOtherExecutionState (jobs.map Job.id) [.claimed])
      { w with db := db₁ } () { w with db := db₁ } :=
    runs_ensureJobIdsHaveNoOtherExecutionState fun id mem m _ => nowhere id mem m
  have ids : ((jobs.map Job.id).map (failedRow failure)).map FailedExecution.jobId =
      jobs.map Job.id := by
    rw [List.map_map]
    exact List.map_id _
  have room : ∀ r ∈ (jobs.map Job.id).map (failedRow failure),
      (db₁.findJob r.jobId).isSome ∧ db₁.hasState .failed r.jobId = false := by
    intro r mem
    rcases List.mem_map.mp mem with ⟨id, inIds, rfl⟩
    rcases List.mem_map.mp inIds with ⟨j, inJobs, rfl⟩
    have found : db₁.findJob j.id = some j := by
      rw [← taken]
      exact good.findJob_of_mem (there j inJobs)
    exact ⟨Option.isSome_iff_exists.mpr ⟨j, found⟩, nowhere _ inIds .failed⟩
  rcases runs_bulkCreate_from (m := .failed) ((jobs.map Job.id).map (failedRow failure))
    { w with db := db₁ } room (ids.symm ▸ nodup) with
    ⟨stamped, nextId, w₂, created, written, stampedIds⟩
  refine ⟨_, w₂, deleted, free, created, good₁.createFailures knows own created,
    ⟨?_, ?_, ?_, stamped, ?_, stampedIds.trans ids⟩, ?_⟩
  · rw [written, ← taken]
    rfl
  · rw [written, ← taken]
    rfl
  · rw [written, ← taken]
    rfl
  · rw [written, ← taken]
    rfl
  · have ticks : Ticks { w with db := db₁ } w₂ := (Advances.bulkCreate .failed _).of_run created
    refine ⟨ticks, fun _ countable => ?_⟩
    have same : w₂.db.semaphores = w.db.semaphores := by
      rw [written, ← taken]
      rfl
    rw [same]
    exact countable

/-- Failing distinct claimed jobs of the backend. -/
theorem failClaimedJobs_outcome (good : Accounts a [] 0 w.db) (untracked : a.tracked = none)
    (there : ∀ j ∈ jobs, j ∈ w.db.jobs) (own : ∀ j ∈ jobs, j.backendAlias = a.backendAlias)
    (claimed : ∀ j ∈ jobs, j.id ∈ w.db.stateJobIds .claimed) (nodup : (jobs.map Job.id).Nodup)
    (failure : Failure) :
    (∃ w', Runs (DjQueue.failClaimedJobs a.env jobs failure) w jobs w' ∧
        Accounts a [] 0 w'.db ∧ FailsClaims (jobs.map Job.id) w.db w'.db ∧
        SlotsGivenBack a.env jobs w w' ∧ ∀ j ∈ jobs, ¬ReleaseRaises a.env j) ∨
      ∃ e, Fails (DjQueue.failClaimedJobs a.env jobs failure) w e ∧
        Obstructed a.env w jobs e := by
  have knows : ∀ j ∈ jobs, a.Knows j := fun j mem => good.knows j (there j mem)
  by_cases empty : jobs = []
  · subst empty
    refine .inl ⟨w, runs_pure _ _, good, ⟨rfl, rfl, ?_, [], ?_, rfl⟩, .refl .., ?_⟩
    · exact (Table.deleteWhere_eq_self _ fun r _ => rfl).symm
    · rw [List.append_nil]
    · exact fun j mem => absurd mem List.not_mem_nil
  have same : ¬(jobs.any (fun j => j.backendAlias ≠ a.env.config.backendAlias) = true) := by
    rw [List.any_eq_true]
    rintro ⟨j, mem, foreign⟩
    exact of_decide_eq_true foreign (own j mem)
  unfold DjQueue.failClaimedJobs
  rw [if_neg (by simpa using empty), if_neg same]
  rcases good.runs_recordFailures there own claimed nodup failure with
    ⟨w₁, w₂, deleted, free, created, good₂, fails, given⟩
  have checked : Runs (runIf (decide ((jobs.map Job.id).length ≠ (jobs.map Job.id).length))
      (throw PyError.claimedDoesNotExist : Op Unit)) w₁ () w₁ := by
    rw [decide_eq_false (not_not_intro rfl)]
    exact runs_pure _ _
  rcases (good₂.owing untracked 0).releaseFallback_outcome untracked knows own with
    ⟨w₃, released, good₃, released_, quiet⟩ | ⟨e, failed, obstructed⟩
  · have parts : claimParts w₃.db = claimParts w₂.db :=
      Spares.releaseFallback aloof_claimParts a.env jobs _ _ _ released
    exact .inl ⟨w₃, runs_atomic (Runs.bind deleted (Runs.bind checked (Runs.bind free
      (Runs.bind created (Runs.bind released (runs_pure _ _)))))), good₃,
      fails.of_parts parts, given.trans released_, quiet⟩
  · exact .inr ⟨e, Fails.transactionAtomic (Runs.bind_fails deleted (Runs.bind_fails checked
      (Runs.bind_fails free (Runs.bind_fails created (Fails.bind failed))))), obstructed.earlier given⟩

end Accounts

/-! ## Deleting processes -/

/-- The process once these are gone. -/
def Process.orphanedBy (gone : List Nat) (p : Process) : Process :=
  if p.supervisorId.any gone.contains then { p with supervisorId := none } else p

/-- The claim once these processes are gone. -/
def ClaimedExecution.orphanedBy (gone : List Nat) (r : ClaimedExecution) : ClaimedExecution :=
  if r.processId.any gone.contains then { r with processId := none } else r

/-- The processes that stay once these are gone. -/
def registered (gone : List Nat) (rows : List Process) : List Process :=
  (rows.filter (fun p => !gone.contains p.id)).map (Process.orphanedBy gone)

/-- The unique constraint on the processes. -/
def DistinctIdentities (rows : List Process) : Prop := (rows.map processIdentity).Nodup

instance (rows : List Process) : Decidable (DistinctIdentities rows) :=
  inferInstanceAs (Decidable (rows.map processIdentity).Nodup)

/-- These processes can be deleted one after the other: whenever the turn of one has come, and its
children have lost their supervisor as those of the ones before it have, no two of the processes
that are still there have one identity. -/
def Separable (rows : List Process) (gone : List Nat) : Prop :=
  ∀ before id after, gone = before ++ id :: after →
    DistinctIdentities ((registered before rows).map (Process.orphanedBy [id]))

/-- The process was deleted, and what pointed to it points to none. -/
structure Deletes (id : Nat) (db db' : Db) : Prop where
  jobs : db'.jobs = db.jobs
  failed : db'.failed = db.failed
  processes : db'.processes.rows = registered [id] db.processes.rows
  claimed : db'.claimed.rows = db.claimed.rows.map (ClaimedExecution.orphanedBy [id])

theorem orphanedBy_columns (gone : List Nat) (p : Process) :
    (p.orphanedBy gone).id = p.id ∧ (p.orphanedBy gone).backendAlias = p.backendAlias ∧
      (p.orphanedBy gone).lastHeartbeatAt = p.lastHeartbeatAt := by
  unfold Process.orphanedBy
  split <;> exact ⟨rfl, rfl, rfl⟩

/-- An orphaned claim is of the same job. -/
@[simp] theorem jobId_orphanedBy (gone : List Nat) (r : ClaimedExecution) :
    (r.orphanedBy gone).jobId = r.jobId := by
  unfold ClaimedExecution.orphanedBy
  split <;> rfl

/-- The children lose their supervisor before the processes go, or after. -/
theorem registered_eq (gone : List Nat) (rows : List Process) :
    registered gone rows = (rows.map (Process.orphanedBy gone)).filter
      (fun p => !gone.contains p.id) := by
  rw [registered, List.filter_map]
  congr 1
  apply List.filter_congr
  intro p _
  rw [Function.comp_apply, (orphanedBy_columns gone p).1]

theorem Process.orphanedBy_nil (p : Process) : p.orphanedBy [] = p := by
  unfold Process.orphanedBy
  cases p.supervisorId <;> rfl

theorem Process.orphanedBy_orphanedBy (gone gone' : List Nat) (p : Process) :
    (p.orphanedBy gone).orphanedBy gone' = p.orphanedBy (gone ++ gone') := by
  rcases p with ⟨id, backendAlias, pid, name, supervisorId, lastHeartbeatAt⟩
  cases supervisorId with
  | none => rfl
  | some s =>
      by_cases first : s ∈ gone <;> by_cases second : s ∈ gone' <;>
        simp [Process.orphanedBy, first, second]

theorem ClaimedExecution.orphanedBy_nil (r : ClaimedExecution) : r.orphanedBy [] = r := by
  unfold ClaimedExecution.orphanedBy
  cases r.processId <;> rfl

theorem ClaimedExecution.orphanedBy_orphanedBy (gone gone' : List Nat) (r : ClaimedExecution) :
    (r.orphanedBy gone).orphanedBy gone' = r.orphanedBy (gone ++ gone') := by
  rcases r with ⟨id, jobId, processId, createdAt⟩
  cases processId with
  | none => rfl
  | some p =>
      by_cases first : p ∈ gone <;> by_cases second : p ∈ gone' <;>
        simp [ClaimedExecution.orphanedBy, first, second]

theorem registered_nil (rows : List Process) : registered [] rows = rows := by
  rw [registered_eq, List.map_congr_left fun p _ => p.orphanedBy_nil, List.map_id',
    List.filter_eq_self]
  exact fun p _ => rfl

theorem registered_registered (gone gone' : List Nat) (rows : List Process) :
    registered gone' (registered gone rows) = registered (gone ++ gone') rows := by
  have both : (Process.orphanedBy gone') ∘ (Process.orphanedBy gone) =
      Process.orphanedBy (gone ++ gone') := funext fun p => p.orphanedBy_orphanedBy gone gone'
  rw [registered, registered, List.filter_map, List.map_map, both, List.filter_filter, registered]
  congr 1
  apply List.filter_congr
  intro p _
  rw [Function.comp_apply, (orphanedBy_columns gone p).1, Bool.and_comm, ← Bool.not_or,
    List.contains_append]

/-- Deleting some, and then others. -/
theorem separable_append {rows : List Process} {gone later : List Nat} :
    Separable rows (gone ++ later) ↔
      Separable rows gone ∧ Separable (registered gone rows) later := by
  constructor
  · intro all
    constructor
    · rintro before id after rfl
      exact all before id (after ++ later) (by simp)
    · rintro before id after rfl
      rw [registered_registered]
      exact all (gone ++ before) id after (by simp)
  · rintro ⟨first, rest⟩ before id after split
    rcases List.append_eq_append_iff.mp split with ⟨more, here, there⟩ | ⟨more, here, there⟩
    · subst here
      rw [← registered_registered]
      exact rest more id after there
    · cases more with
      | nil =>
          rw [List.append_nil] at here
          subst here
          have turn := rest [] id after there.symm
          rw [registered_nil] at turn
          exact turn
      | cons x more =>
          rcases List.cons.inj there with ⟨rfl, rfl⟩
          exact first before id more here

/-- Processes that keep apart are saved. -/
theorem runs_saveProcesses {t : Table Process} (distinct : DistinctIdentities t.rows) (w : World) :
    Runs (saveProcesses t) w () { w with db := { w.db with processes := t } } := by
  unfold saveProcesses
  unfold DistinctIdentities at distinct
  rw [if_pos distinct]
  exact runs_modifyDb _ _

theorem fails_saveProcesses {t : Table Process} (clash : ¬DistinctIdentities t.rows) (w : World) :
    Fails (saveProcesses t) w .integrityError := by
  unfold saveProcesses
  unfold DistinctIdentities at clash
  rw [if_neg clash]
  exact Fails.of_throw _ _

/-- No semaphore knows of a process. -/
theorem semaphores_of_deleteProcessesWhere {w w' : World} {p : Process → Bool} {n : Nat}
    (run : Runs (deleteProcessesWhere p) w n w') : w'.db.semaphores = w.db.semaphores := by
  obtain ⟨db, w₁, got, rest₁⟩ := Runs.of_bind run
  obtain ⟨rfl, rfl⟩ := of_run_getDb got
  obtain ⟨v₂, w₂, saved, rest₂⟩ := Runs.of_bind rest₁
  obtain ⟨v₃, w₃, nulled, done⟩ := Runs.of_bind rest₂
  obtain ⟨-, rfl⟩ := Runs.of_pure done
  rw [of_run_modifyDb nulled, Accounts.of_run_saveProcesses saved]

/-- The process is deleted, unless that gives two processes one identity. -/
theorem deleteProcessesWhere_outcome {w : World} {p : Process → Bool} {id : Nat}
    (only : (w.db.processes.rows.filter p).map Process.id = [id]) :
    (DistinctIdentities (w.db.processes.rows.map (Process.orphanedBy [id])) ∧
      ∃ w', Runs (deleteProcessesWhere p) w 1 w' ∧ Deletes id w.db w'.db) ∨
    (¬DistinctIdentities (w.db.processes.rows.map (Process.orphanedBy [id])) ∧
      ∃ e, Fails (deleteProcessesWhere p) w e) := by
  unfold deleteProcessesWhere
  generalize orphaned : w.db.processes.updateWhere (fun q => q.supervisorId.any [id].contains)
    (fun q => { q with supervisorId := none }) = t
  have rows : t.rows = w.db.processes.rows.map (Process.orphanedBy [id]) := by
    rw [← orphaned]
    rfl
  rw [← rows]
  by_cases distinct : DistinctIdentities t.rows
  · refine .inl ⟨distinct, { w with db := { w.db with
      processes := t.deleteWhere (fun q => [id].contains q.id)
      claimed := w.db.claimed.updateWhere (fun r => r.processId.any [id].contains)
        (fun r => { r with processId := none }) } }, ?_, rfl, rfl, ?_, rfl⟩
    · refine Runs.bind (runs_getDb w) ?_
      dsimp only
      rw [only, orphaned]
      refine Runs.bind (runs_saveProcesses distinct w) (Runs.bind (runs_modifyDb _ _) ?_)
      rw [← orphaned]
      exact runs_pure _ _
    · rw [registered_eq, ← rows]
      rfl
  · refine .inr ⟨distinct, .integrityError, Runs.bind_fails (runs_getDb w) (Fails.bind ?_)⟩
    rw [only, orphaned]
    exact fails_saveProcesses distinct w

end DjQueue
