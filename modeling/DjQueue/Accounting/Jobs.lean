import DjQueue.Accounting.Selection

/-!
# Job writes and the ledger

Creating a job puts it into the hand, finishing one takes it out, and deleting one that has
no state row removes it together with the recurring execution that points to it.
-/

namespace DjQueue

open Relational

namespace Accounts

variable {a : Audit} {hand hand' : List JobId} {owed owed' : Nat} {db : Db}

/-- Jobs are owned through their keys. -/
theorem owns_iff (good : Accounts a hand owed db) {j : Job} (mem : j ∈ db.jobs) :
    a.owns j.id = true ↔ j.backendAlias = a.backendAlias := by
  rw [Audit.owns, (good.knows j mem).identity, Option.any_some, beq_iff_eq]
  rfl

theorem eq_of_id (good : Accounts a hand owed db) {i j : Job} (memI : i ∈ db.jobs)
    (memJ : j ∈ db.jobs) (same : i.id = j.id) : i = j :=
  List.inj_on_of_nodup_map good.jobIds memI memJ same

/-- A job in hand is not finished. -/
theorem unfinished_of_hand (good : Accounts a hand owed db) {j : Job} (mem : j ∈ db.jobs)
    (inHand : j.id ∈ hand) : j.finishedAt.isSome = false := by
  have none := good.places_of_hand mem inHand
  cases finished : j.finishedAt.isSome with
  | false => rfl
  | true =>
      rw [places_eq, finished] at none
      simp at none

/-! ## Updates -/

/-- Jobs are rewritten in the columns that change after their creation. -/
theorem updateJobs (good : Accounts a hand owed db) {f : Job → Job}
    (core : ∀ j, (f j).core = j.core)
    (own : ∀ j ∈ db.jobs, j.backendAlias ≠ a.backendAlias → f j = j)
    (settled : ∀ j ∈ db.jobs,
      (if (f j).finishedAt.isSome then 1 else 0) + hand'.count j.id =
        (if j.finishedAt.isSome then 1 else 0) + hand.count j.id) :
    Accounts a hand' owed { db with jobs := db.jobs.map f } := by
  have id : ∀ j, (f j).id = j.id := by
    intro j
    have same : (f j).core.id = j.core.id := congrArg _ (core j)
    exact same
  have backend : ∀ j, (f j).backendAlias = j.backendAlias := by
    intro j
    have same : (f j).core.backendAlias = j.core.backendAlias := congrArg _ (core j)
    exact same
  have ids : (db.jobs.map f).map Job.id = db.jobs.map Job.id := by
    rw [List.map_map]
    exact List.map_congr_left fun j _ => id j
  refine {
    jobIds := by rw [ids]; exact good.jobIds
    knows := fun j mem => ?_
    rowIds := good.rowIds
    rowBound := good.rowBound
    rowFits := fun m r mem => ?_
    places := fun j mem => ?_
    semaphores := good.semaphores
    slots := good.slots
    registry := ?_
    untouched := ?_ }
  · obtain ⟨i, there, rfl⟩ := List.mem_map.mp mem
    exact (good.knows i there).of_core (core i)
  · obtain ⟨job, columns, process⟩ := good.rowFits m r mem
    exact ⟨by rw [ids]; exact job, columns, process⟩
  · obtain ⟨i, there, rfl⟩ := List.mem_map.mp mem
    have before := good.places i there
    have now := settled i there
    rw [places_eq] at before ⊢
    rw [id]
    change (db.stateJobIds .ready).count i.id + (db.stateJobIds .scheduled).count i.id +
      (db.stateJobIds .claimed).count i.id + (db.stateJobIds .blocked).count i.id +
      (db.stateJobIds .failed).count i.id + (if (f i).finishedAt.isSome then 1 else 0) +
      hand'.count i.id = 1
    omega
  · obtain ⟨processIds, processBound, supervisors, links⟩ := good.registry
    refine ⟨processIds, processBound, supervisors, fun e mem job linked => ?_⟩
    obtain ⟨j, there, rfl, same⟩ := links e mem job linked
    exact ⟨f j, List.mem_map_of_mem there, id j, (backend j).trans same⟩
  · obtain ⟨jobs, rows, processes, pauses, tasks, executions, trimmed, created⟩ := good.untouched
    refine ⟨?_, rows, processes, pauses, tasks, executions, trimmed, fun j mem => ?_⟩
    · rw [← jobs, List.filter_map]
      have same : (fun j : Job => decide (j.backendAlias ≠ a.backendAlias)) ∘ f =
          fun j => decide (j.backendAlias ≠ a.backendAlias) := by
        funext j
        rw [Function.comp_apply, backend]
      rw [same]
      refine (List.map_congr_left fun j mem => ?_).trans (List.map_id _)
      rw [List.mem_filter, decide_eq_true_eq] at mem
      exact own j mem.1 mem.2
    · obtain ⟨i, there, rfl⟩ := List.mem_map.mp mem
      rw [id]
      exact created i there

/-- The one job in hand with this key is finished. -/
theorem finish {id : JobId} {p : Job → Bool} {f : Job → Job}
    (good : Accounts a (id :: hand) owed db) (own : a.owns id = true)
    (hits : ∀ j ∈ db.jobs, p j = true ↔ j.id = id) (core : ∀ j, (f j).core = j.core)
    (finished : ∀ j, (f j).finishedAt.isSome = true) :
    Accounts a hand owed { db with jobs := db.jobs.map (fun j => if p j then f j else j) } := by
  refine good.updateJobs ?_ ?_ ?_
  · intro j
    split
    · exact core j
    · rfl
  · intro j mem foreign
    refine if_neg fun hit => foreign ((good.owns_iff mem).mp ?_)
    rw [(hits j mem).mp hit]
    exact own
  · intro j mem
    by_cases hit : p j = true
    · have same := (hits j mem).mp hit
      have before := good.unfinished_of_hand mem (same ▸ List.mem_cons_self)
      rw [if_pos hit, finished, before, same, List.count_cons_self]
      simp only [if_true, Bool.false_eq_true, if_false]
      omega
    · have other : id ≠ j.id := fun same => hit ((hits j mem).mpr same.symm)
      rw [if_neg hit, List.count_cons_of_ne other]

section Sessions

variable {w w' : World} {u : Unit}

/-- Finishing a job takes it out of the hand. -/
theorem finishJobIfNoExecutionState {job : Job} {returnValue : Option String} {now : Time}
    {includeClaimed : Bool} (good : Accounts a (job.id :: hand) owed w.db)
    (own : a.owns job.id = true)
    (run : Runs (finishJobIfNoExecutionState job returnValue now includeClaimed) w u w') :
    Accounts a hand owed w'.db := by
  obtain ⟨db, w₁, read, rest⟩ := Runs.of_bind run
  obtain ⟨rfl, rfl⟩ := of_run_getDb read
  obtain ⟨v, w₂, updated, check⟩ := Runs.of_bind rest
  obtain ⟨one, rfl⟩ := of_run_runIf_throw check
  rw [of_run_modifyDb updated]
  refine good.finish own ?_ (fun _ => rfl) (fun _ => rfl)
  -- the update hit a row, and only the job's own row has its key
  rw [decide_eq_false_iff_not, Decidable.not_not] at one
  obtain ⟨i, there, hit⟩ := List.countP_pos_iff.mp (one ▸ Nat.one_pos)
  have key := hit
  simp only [Bool.and_eq_true, beq_iff_eq] at key
  intro j mem
  constructor
  · intro hit
    simp only [Bool.and_eq_true, beq_iff_eq] at hit
    exact hit.1.1
  · intro same
    rw [good.eq_of_id mem there (same.trans key.1.1.symm)]
    exact hit

/-- A discarded job is finished without a result. -/
theorem saveDiscarded {job : Job} {now : Time} (good : Accounts a (job.id :: hand) owed w.db)
    (own : a.owns job.id = true) (run : Runs (saveDiscarded job now) w u w') :
    Accounts a hand owed w'.db := by
  unfold DjQueue.saveDiscarded updateJobsWhere at run
  rw [of_run_modifyDb run]
  exact good.finish own (fun _ _ => by simp) (fun _ => rfl) (fun _ => rfl)

/-- A job with the results of its instance among `jobs`, if there is one. -/
def withResults (jobs : List Job) (j : Job) : Job :=
  match jobs.find? (fun i => i.id == j.id) with
  | some i => { j with finishedAt := i.finishedAt, returnValue := i.returnValue }
  | none => j

/-- A bulk update writes every instance's values to the row of its key. -/
theorem of_run_bulkUpdateResults {jobs : List Job} (run : Runs (bulkUpdateResults jobs) w u w') :
    w'.db = { w.db with jobs := w.db.jobs.map (withResults jobs) } := by
  unfold DjQueue.bulkUpdateResults updateJobsWhere at run
  rw [of_run_modifyDb run]
  congr 1
  refine List.map_congr_left fun j _ => ?_
  cases found : jobs.find? (fun i => i.id == j.id) <;> simp [withResults, found]

/-- Results are no part of what is known of a job. -/
theorem core_withResults (jobs : List Job) (j : Job) : (withResults jobs j).core = j.core := by
  unfold withResults
  split <;> rfl

/-- `bulk_update` of results: the instances are of jobs in hand; those that carry a time are
finished by it. -/
theorem bulkUpdateResults {jobs : List Job}
    (good : Accounts a ((jobs.filter (fun j => j.finishedAt.isSome)).map Job.id ++ hand) owed w.db)
    (nodup : (jobs.map Job.id).Nodup) (own : ∀ j ∈ jobs, a.owns j.id = true)
    (rest : ∀ j ∈ jobs, j.finishedAt.isSome = false → j.id ∈ hand)
    (run : Runs (bulkUpdateResults jobs) w u w') : Accounts a hand owed w'.db := by
  rw [of_run_bulkUpdateResults run]
  refine good.updateJobs (core_withResults jobs) ?_ ?_
  · intro j mem foreign
    unfold withResults
    split
    · rename_i i found
      have key := List.find?_some found
      rw [beq_iff_eq] at key
      refine absurd ((good.owns_iff mem).mp ?_) foreign
      rw [← key]
      exact own i (List.mem_of_find?_eq_some found)
    · rfl
  · intro j mem
    rw [List.count_append]
    unfold withResults
    split
    · rename_i i found
      have there := List.mem_of_find?_eq_some found
      have key := List.find?_some found
      rw [beq_iff_eq] at key
      cases finished : i.finishedAt.isSome with
      | true =>
          have mem' : j.id ∈ (jobs.filter (fun j => j.finishedAt.isSome)).map Job.id :=
            List.mem_map.mpr ⟨i, List.mem_filter.mpr ⟨there, finished⟩, key⟩
          have one := List.count_eq_one_of_mem
            (nodup.sublist ((List.filter_sublist (p := fun j => j.finishedAt.isSome)).map _)) mem'
          have before := good.unfinished_of_hand mem (List.mem_append_left _ mem')
          rw [one, before]
          simp only [if_true, Bool.false_eq_true, if_false]
          omega
      | false =>
          have before := good.unfinished_of_hand mem
            (List.mem_append_right _ (key ▸ rest i there finished))
          have zero : ((jobs.filter (fun j => j.finishedAt.isSome)).map Job.id).count j.id = 0 := by
            refine List.count_eq_zero.mpr fun there' => ?_
            obtain ⟨k, both, same⟩ := List.mem_map.mp there'
            obtain ⟨inJobs, done⟩ := List.mem_filter.mp both
            rw [List.inj_on_of_nodup_map nodup inJobs there (same.trans key.symm), finished] at done
            cases done
          rw [zero, before]
          simp only [Bool.false_eq_true, if_false, Nat.zero_add]
    · rename_i found
      have zero : ((jobs.filter (fun j => j.finishedAt.isSome)).map Job.id).count j.id = 0 := by
        refine List.count_eq_zero.mpr fun there => ?_
        obtain ⟨i, there, same⟩ := List.mem_map.mp there
        exact List.find?_eq_none.mp found i (List.mem_of_mem_filter there) (by simpa using same)
      rw [zero, Nat.zero_add]

/-! ## Creation -/

theorem of_run_insertJob {family : BackendFamily} {job : Job}
    (run : Runs (insertJob family job) w u w') :
    w.db.findJob job.id = none ∧ w'.db = { w.db with jobs := w.db.jobs ++ [job] } := by
  obtain ⟨v, w₁, checked, rest⟩ := Runs.of_bind run
  obtain ⟨-, rfl⟩ := of_run_ensureFits checked
  obtain ⟨db, w₂, read, rest⟩ := Runs.of_bind rest
  obtain ⟨rfl, rfl⟩ := of_run_getDb read
  split at rest
  · exact (Runs.of_throw rest).elim
  · rename_i allowed
    simp only [Bool.or_eq_true, not_or, Bool.not_eq_true, Option.isSome_eq_false_iff,
      Option.isNone_iff_eq_none] at allowed
    exact ⟨allowed.1.1, of_run_modifyDb rest⟩

theorem ids_of_findJob_none {db : Db} {id : JobId} (absent : db.findJob id = none) :
    id ∉ db.jobs.map Job.id := by
  intro mem
  obtain ⟨j, there, same⟩ := List.mem_map.mp mem
  exact List.find?_eq_none.mp absent j there (by simpa using same)

/-- A new job is in hand until it gets a state row. -/
theorem insertJob {family : BackendFamily} {job : Job} (good : Accounts a hand owed w.db)
    (knows : a.Knows job)
    (own : job.backendAlias = a.backendAlias) (fresh : job.id ∈ a.fresh) (new : job.id ∉ hand)
    (unfinished : job.finishedAt = none) (run : Runs (insertJob family job) w u w') :
    Accounts a (job.id :: hand) owed w'.db := by
  obtain ⟨absent, db'⟩ := of_run_insertJob run
  have absent := ids_of_findJob_none absent
  rw [db']
  refine {
    jobIds := ?_
    knows := fun j mem => ?_
    rowIds := good.rowIds
    rowBound := good.rowBound
    rowFits := fun m r mem => ?_
    places := fun j mem => ?_
    semaphores := good.semaphores
    slots := good.slots
    registry := ?_
    untouched := ?_ }
  · rw [List.map_append, List.map_singleton, List.nodup_append]
    refine ⟨good.jobIds, List.nodup_singleton _, fun x old y new same => ?_⟩
    rw [List.mem_singleton.mp new] at same
    exact absent (same ▸ old)
  · rcases List.mem_append.mp mem with old | new
    · exact good.knows j old
    · rw [List.mem_singleton.mp new]
      exact knows
  · obtain ⟨there, columns, process⟩ := good.rowFits m r mem
    refine ⟨?_, columns, process⟩
    rw [List.map_append]
    exact List.mem_append_left _ there
  · change w.db.places j + (job.id :: hand).count j.id = 1
    rcases List.mem_append.mp mem with old | new
    · have other : job.id ≠ j.id := fun same => absent (same ▸ List.mem_map_of_mem old)
      rw [List.count_cons_of_ne other]
      exact good.places j old
    · obtain rfl := List.mem_singleton.mp new
      -- no row can point to a job that was not there
      have none : ∀ m, (w.db.stateJobIds m).count j.id = 0 := by
        intro m
        refine List.count_eq_zero.mpr fun row => absent ?_
        obtain ⟨i, there, same⟩ := good.job_of_mem_stateJobIds row
        exact List.mem_map.mpr ⟨i, there, same⟩
      rw [places_eq, none, none, none, none, none, unfinished, List.count_cons_self,
        List.count_eq_zero.mpr ‹j.id ∉ hand›]
      rfl
  · obtain ⟨processIds, processBound, supervisors, links⟩ := good.registry
    refine ⟨processIds, processBound, supervisors, fun e mem id linked => ?_⟩
    obtain ⟨j, there, same⟩ := links e mem id linked
    exact ⟨j, List.mem_append_left _ there, same⟩
  · obtain ⟨jobs, rows, processes, pauses, tasks, executions, trimmed, created⟩ := good.untouched
    refine ⟨?_, rows, processes, pauses, tasks, executions, trimmed, fun j mem => ?_⟩
    · rw [← jobs, List.filter_append]
      simp [own]
    · rcases List.mem_append.mp mem with old | new
      · exact created j old
      · rw [List.mem_singleton.mp new]
        exact .inr fresh

/-! ## Deletion -/

/-- The tables once the jobs that satisfy `p`, which have no state row, are deleted. -/
def deleteJobs (db : Db) (p : Job → Bool) : Db :=
  { db with
    jobs := db.jobs.filter (fun j => !p j)
    recurringExecutions := db.recurringExecutions.deleteWhere (fun e =>
      e.jobId.any ((db.jobs.filter p).map Job.id).contains) }

/-- Deleting jobs that have no state rows deletes nothing but jobs. -/
theorem of_run_deleteJobsWhere {p : Job → Bool} {n : Nat}
    (stateless : ∀ j ∈ w.db.jobs, p j = true → ∀ m, j.id ∉ w.db.stateJobIds m)
    (run : Runs (deleteJobsWhere p) w n w') : w'.db = deleteJobs w.db p := by
  obtain ⟨db, w₁, read, rest⟩ := Runs.of_bind run
  obtain ⟨rfl, rfl⟩ := of_run_getDb read
  obtain ⟨v, w₂, written, rest⟩ := Runs.of_bind rest
  obtain ⟨-, rfl⟩ := Runs.of_pure rest
  rw [of_run_modifyDb written]
  -- nothing cascades into a state table
  have keeps : ∀ m, ((w₁.db.table m).deleteWhere (fun r =>
      ((w₁.db.jobs.filter p).map Job.id).contains (rowJobId r))) = w₁.db.table m := by
    intro m
    rw [Table.deleteWhere]
    congr 1
    refine List.filter_eq_self.mpr fun r mem => ?_
    rw [Bool.not_eq_true', ← Bool.not_eq_true, List.contains_iff_mem, List.mem_map]
    rintro ⟨j, hit, same⟩
    obtain ⟨there, hit⟩ := List.mem_filter.mp hit
    exact stateless j there hit m (same ▸ List.mem_map_of_mem mem)
  have ready := keeps .ready
  have scheduled := keeps .scheduled
  have claimed := keeps .claimed
  have blocked := keeps .blocked
  have failed := keeps .failed
  simp only [Db.table, rowJobId] at ready scheduled claimed blocked failed
  rw [ready, scheduled, claimed, blocked, failed]
  rfl

/-- Jobs that have no state rows may be deleted. -/
theorem deleteJobsWhere {p : Job → Bool} {n : Nat} (good : Accounts a hand owed w.db)
    (own : ∀ j ∈ w.db.jobs, p j = true → j.backendAlias = a.backendAlias)
    (stateless : ∀ j ∈ w.db.jobs, p j = true → ∀ m, j.id ∉ w.db.stateJobIds m)
    (left : ∀ j ∈ w.db.jobs, p j = false → hand'.count j.id = hand.count j.id)
    (run : Runs (deleteJobsWhere p) w n w') : Accounts a hand' owed w'.db := by
  rw [of_run_deleteJobsWhere stateless run]
  have stays : ∀ {j}, j ∈ w.db.jobs → (∃ m, j.id ∈ w.db.stateJobIds m) → p j = false := by
    rintro j there ⟨m, row⟩
    rw [← Bool.not_eq_true]
    exact fun hit => stateless j there hit m row
  refine {
    jobIds := good.jobIds.sublist (List.filter_sublist.map _)
    knows := fun j mem => good.knows j (List.mem_of_mem_filter mem)
    rowIds := good.rowIds
    rowBound := good.rowBound
    rowFits := fun m r mem => ?_
    places := fun j mem => ?_
    semaphores := good.semaphores
    slots := good.slots
    registry := ?_
    untouched := ?_ }
  · obtain ⟨there, columns, process⟩ := good.rowFits m r mem
    refine ⟨?_, columns, process⟩
    obtain ⟨j, inJobs, same⟩ := List.mem_map.mp there
    refine List.mem_map.mpr ⟨j, List.mem_filter.mpr ⟨inJobs, ?_⟩, same⟩
    rw [stays inJobs ⟨m, same ▸ List.mem_map_of_mem mem⟩]
    rfl
  · obtain ⟨there, kept⟩ := List.mem_filter.mp mem
    change w.db.places j + hand'.count j.id = 1
    rw [left j there (by simpa using kept)]
    exact good.places j there
  · obtain ⟨processIds, processBound, supervisors, links⟩ := good.registry
    refine ⟨processIds, processBound, supervisors, fun e mem id linked => ?_⟩
    obtain ⟨inTable, kept⟩ := List.mem_filter.mp mem
    obtain ⟨j, there, same, backend⟩ := links e inTable id linked
    refine ⟨j, List.mem_filter.mpr ⟨there, ?_⟩, same, backend⟩
    rw [Bool.not_eq_true', ← Bool.not_eq_true]
    intro hit
    refine absurd kept ?_
    simp only [linked, Option.any_some, Bool.not_eq_true', ← Bool.not_eq_true,
      List.contains_iff_mem, not_not]
    exact List.mem_map.mpr ⟨j, List.mem_filter.mpr ⟨there, hit⟩, same⟩
  · obtain ⟨jobs, rows, processes, pauses, tasks, executions, trimmed, created⟩ := good.untouched
    refine ⟨?_, rows, processes, pauses, tasks, ?_, ?_,
      fun j mem => created j (List.mem_of_mem_filter mem)⟩
    · rw [← jobs]
      unfold deleteJobs
      rw [List.filter_filter]
      refine List.filter_congr fun j mem => ?_
      cases hit : p j with
      | false => simp
      | true => simp [own j mem hit]
    · rw [← executions]
      unfold deleteJobs
      rw [Table.rows_deleteWhere, List.filter_filter]
      refine List.filter_congr fun e mem => ?_
      by_cases foreign : e.backendAlias = a.backendAlias
      · simp [foreign]
      · -- the job of another backend's execution is not deleted
        have kept : e.jobId.any ((w.db.jobs.filter p).map Job.id).contains = false := by
          rw [← Bool.not_eq_true]
          intro hit
          obtain ⟨id, linked, contained⟩ := (Option.any_eq_true _ _).mp hit
          rw [List.contains_iff_mem] at contained
          obtain ⟨j, deleted, same⟩ := List.mem_map.mp contained
          obtain ⟨there, hit⟩ := List.mem_filter.mp deleted
          obtain ⟨j', there', same', backend⟩ := good.registry.links e mem id linked
          obtain rfl := good.eq_of_id there there' (same.trans same'.symm)
          exact foreign (backend ▸ own j there hit)
        simp [kept]
    · obtain ⟨q, trimmed⟩ := trimmed
      refine ⟨fun e => q e || e.jobId.any ((w.db.jobs.filter p).map Job.id).contains, ?_⟩
      unfold deleteJobs
      simp only [trimmed, Table.deleteWhere, List.filter_filter, Table.mk.injEq, and_true]
      refine List.filter_congr fun e _ => ?_
      rw [Bool.not_or, Bool.and_comm]

end Sessions

end Accounts

end DjQueue
