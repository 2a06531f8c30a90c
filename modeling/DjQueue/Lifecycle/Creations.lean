import DjQueue.Lifecycle.Transitions

/-!
# Calls of more than one transaction, and new jobs

A call that raises between two transactions leaves what the first one did, and that too follows
the edges.  A job is new when its key was free at the start: where nothing is deleted on the way,
a key that is free is one that was.
-/

namespace DjQueue

open Relational

/-- Where a new job is placed. -/
def creations : List Edge :=
  [(none, some (.live .ready)), (none, some (.live .scheduled)), (none, some (.live .blocked)),
    (none, some .finished)]

/-- However the session ends, the jobs still follow the edges. -/
def EndsOnCourse {α : Type} (edges : List Edge) (start : Db) (x : Op α) : Prop :=
  Leads (fun w => Follows edges start w.db) (fun _ w' => Follows edges start w'.db) x

namespace EndsOnCourse

variable {α β : Type} {edges : List Edge} {start : Db}

/-- What rolls back when it raises needs a look at its returns only. -/
theorem of_rollsBack {x : Op α} (rolls : RollsBack x) (steers : Steers edges start x) :
    EndsOnCourse edges start x := by
  apply Leads.of_returns
  · intro w e w' follows raised
    rw [rolls _ _ _ raised]
    exact follows
  · exact fun _ _ _ follows run => steers _ _ _ run follows

theorem bind {x : Op α} {f : α → Op β} (first : EndsOnCourse edges start x)
    (second : ∀ a, EndsOnCourse edges start (f a)) : EndsOnCourse edges start (x >>= f) :=
  Leads.bind (P := fun (w : World) => Follows edges start w.db)
    (R := fun (_ w' : World) => Follows edges start w'.db)
    (fun _ _ follows => follows) (fun _ _ _ _ follows => follows) first
    fun _ a w _ follows => second a w follows

theorem of_reads {x : Op α} (reads : Reads x) : EndsOnCourse edges start x :=
  of_rollsBack reads.raises (.of_reads reads)

/-- The rest of a session that has read the tables may use that they follow the edges. -/
theorem getDb_bind {f : Db → Op α}
    (rest : ∀ db, Follows edges start db → EndsOnCourse edges start (f db)) :
    EndsOnCourse edges start (getDb >>= f) :=
  fun w follows => rest w.db follows w follows

/-! ## Claims of lost workers -/

section Failures

variable (ends : EndsClaims edges) (fails : passes .claimed .failed ∈ edges)

include ends fails

theorem failClaimedJobsForProcess (env : Env) (process : Option Process) (failure : Failure)
    (deleteProcess : Bool) :
    EndsOnCourse edges start (failClaimedJobsForProcess env process failure deleteProcess) := by
  cases process with
  | none => exact of_reads (Reads.pure _)
  | some p =>
      apply getDb_bind
      intro db follows
      apply bind
      · exact of_rollsBack (RollsBack.failClaimedJobs env _ failure)
          (.failClaimedJobs ends fails env (Steers.comes_of_jobsClaimedBy follows p.id) failure)
      · intro failed
        apply bind
        · cases deleteProcess with
          | false => exact of_reads (Reads.pure _)
          | true => exact of_rollsBack (RollsBack.atomic _) (.deregisterProcess p.id)
        · exact fun _ => of_reads (Reads.pure _)

/-- The claims of all processes with a pid. -/
theorem failClaimedJobsForPid (env : Env) (pid : Int) (failure : Failure) :
    EndsOnCourse edges start (failClaimedJobsForPid env pid failure) := by
  apply bind (of_reads Reads.getDb)
  intro db
  split
  · exact failClaimedJobsForProcess ends fails env _ failure true
  · exact of_reads (Reads.pure _)

theorem failClaimedJobsForChild (env : Env) (pid : Int) (name : String)
    (supervisorId : Option Nat) (failure : Failure) :
    EndsOnCourse edges start (failClaimedJobsForChild env pid name supervisorId failure) :=
  bind (of_reads Reads.getDb) fun _ => failClaimedJobsForProcess ends fails env _ failure true

end Failures

/-- A release is three transactions. -/
theorem releaseConcurrencySlot (handsOn : HandsOn edges) (env : Env) (job : Job)
    (task : Option Imported) : EndsOnCourse edges start (releaseConcurrencySlot env job task) := by
  have unblocks : ∀ key limit duration mode,
      EndsOnCourse edges start (unblockNextBlockedJob env key limit duration mode) :=
    fun key limit duration mode =>
      of_rollsBack (RollsBack.unblockNextBlockedJob env key limit duration mode)
        (.unblockNextBlockedJob handsOn mode)
  unfold DjQueue.releaseConcurrencySlot
  split
  · exact of_reads (Reads.pure _)
  · apply bind (of_reads (Reads.releaseSettings env job _ task))
    intro settings
    apply bind (unblocks _ _ _ _)
    intro unblocked
    split
    · exact of_reads (Reads.pure _)
    · apply bind (of_rollsBack (RollsBack.semaphoreRelease env _ _ _)
        (.of_spares (.semaphoreRelease slots_courseParts env _ _ _)))
      exact fun _ => bind (unblocks _ _ _ _) fun _ => of_reads (Reads.pure _)

end EndsOnCourse

/-! ## New jobs -/

/-- Jobs are created, and none is deleted. -/
structure Creates (edges : List Edge) : Prop where
  all : ∀ e ∈ creations, e ∈ edges
  keeps : ∀ p, (p, none) ∉ edges

section New

variable {edges : List Edge} {start db : Db} {id : JobId}

/-- A key that is free was free. -/
theorem Creates.absent (creates : Creates edges) (follows : Follows edges start db)
    (free : id ∉ db.jobs.map Job.id) : start.Shows none id := by
  intro was
  rcases List.mem_map.mp was with ⟨j, there, rfl⟩
  rcases follows.kept j there with still | gone
  · exact free still
  · exact gone.stayed creates.keeps was

/-- A job that does not exist may be created. -/
theorem Creates.assignable (creates : Creates edges) (absent : start.Shows none id) :
    Assignable edges start id where
  ready := .inr ⟨none, creates.all _ (by decide), absent⟩
  scheduled := .inr ⟨none, creates.all _ (by decide), absent⟩
  blocked := .inr ⟨none, creates.all _ (by decide), absent⟩
  finished := .inr ⟨none, creates.all _ (by decide), absent⟩
  unfinished := by
    intro done
    rcases done with ⟨j, there, same, -⟩
    exact absent (same ▸ List.mem_map_of_mem there)

end New

namespace Steers

variable {edges : List Edge} {start : Db} {env : Env} (creates : Creates edges)

include creates

/-- An enqueue creates a job in one of four states. -/
theorem enqueueJobWithDispatch (env : Env) (call : TaskCall) (validate : Bool) (jobId : JobId) :
    Steers edges start (enqueueJobWithDispatch env call validate jobId) := by
  intro w result w' run follows
  rcases Runs.of_bind run with ⟨job, w₁, computed, rest⟩
  rcases Runs.of_ofExcept computed with ⟨ok, same⟩
  rw [same] at rest
  rcases Runs.of_bind (Runs.of_atomic rest) with ⟨u, w₂, inserted, rest⟩
  have assignable : Assignable edges start job.id := creates.assignable
    (creates.absent follows (Accounts.ids_of_findJob_none (Accounts.of_run_insertJob inserted).1))
  have follows₂ : Follows edges start w₂.db :=
    insertJob assignable.unfinished (submitted_of_prepareSubmission ok).unfinished _ _ _ inserted
      follows
  exact (bind (dispatchJob assignable false _) fun _ => pure _) _ _ _ rest follows₂

/-- A bulk enqueue creates its jobs in these states. -/
theorem enqueueJobsBulk (env : Env) (calls : List (TaskCall × JobId)) (validate : Bool) :
    Steers edges start (enqueueJobsBulk env calls validate) := by
  intro w result w' run follows
  rcases Runs.of_bind run with ⟨jobs, w₁, computed, rest⟩
  rcases Runs.of_ofExcept computed with ⟨ok, same⟩
  rw [same] at rest
  split at rest
  · exact pure _ _ _ _ rest follows
  · have new := (places_of_enqueueBulkOnce rest).2.1
    refine enqueueBulkOnce ?_ ?_ _ _ _ rest follows
    · exact fun j mem => creates.assignable (creates.absent follows (new j mem))
    · intro j mem
      rcases Accounts.prepareSubmissions ok j mem with ⟨c, -, prepared⟩
      exact (submitted_of_prepareSubmission prepared).unfinished

/-! ## Recurring tasks -/

/-- A publication creates its job, or attaches one. -/
theorem follows_of_publishes {db db' : Db} {r : Reservation} (publishes : Publishes env db r db')
    (follows : Follows edges start db) : Follows edges start db' := by
  have enqueued : ∀ {job : Job} {db₁ : Db}, Enqueues env db r job db₁ →
      Follows edges start db₁ := by
    intro job db₁ enqueues
    cases enqueues with
    | found here backend => exact follows
    | @created w w' call outcome same absent called run =>
        subst same
        exact enqueueJobWithDispatch creates env call true _ _ _ _ run follows
  cases publishes with
  | idle settled => exact follows
  | @attached job db₁ e row unlinked enqueues here free =>
      exact .of_parts (show courseParts _ = courseParts db₁ from rfl) (enqueued enqueues)
  | attachedOther row unlinked row' same linked enqueues => exact enqueued enqueues

omit creates in
theorem courseParts_reserves {db db' : Db} {task : RecurringTask} {runAt next : Time}
    {intended : JobId} {x : Option Reservation}
    (reserves : Reserves env db task runAt next intended x db') :
    courseParts db' = courseParts db := by
  cases reserves with
  | passed ahead => rfl
  | reserved due gets =>
      cases gets with
      | found here => rfl
      | created absent => rfl

/-- A firing is two transactions. -/
theorem endsOnCourse_fireRecurringTask (env : Env) (taskId : Nat) (runAt : Time) :
    EndsOnCourse edges start (fireRecurringTask env taskId runAt) := by
  apply EndsOnCourse.bind
  · apply EndsOnCourse.of_rollsBack (RollsBack.atomic _)
    intro w x w' run follows
    rcases of_run_reserveRecurringTask run with ⟨-, same, -⟩ | ⟨task, next, -, -, -, -, -, reserves⟩
    · rw [same]
      exact follows
    · exact .of_parts (courseParts_reserves reserves) follows
  · intro reservation
    cases reservation with
    | none => exact .of_reads (Reads.pure _)
    | some r =>
        apply EndsOnCourse.of_rollsBack (RollsBack.atomic _)
        intro w x w' run follows
        exact follows_of_publishes creates (of_run_publishReservedRecurringTask run) follows

/-- A poll creates jobs, and may end at any of its firings. -/
theorem endsOnCourse_fireDueRecurringTasks (env : Env) (now : Time) (includeDynamicTasks : Bool)
    (batchSize : Option Int) :
    EndsOnCourse edges start (fireDueRecurringTasks env now includeDynamicTasks batchSize) := by
  have leads : FiringsLead env (fun _ => True) (Follows edges start)
      (fun _ db' => Follows edges start db') :=
    ⟨fun _ follows => follows, fun _ _ _ _ follows => follows, fun _ _ follows => follows,
      fun taskId runAt _ => endsOnCourse_fireRecurringTask creates env taskId runAt⟩
  exact leads.fireDueRecurringTasks (fun _ => trivial) now includeDynamicTasks batchSize

end Steers

end DjQueue
