import DjQueue.Dispatching.Operations

/-!
# Jobs that are deleted

A discard and `clear_failed_jobs` take rows out of their table and delete the jobs; nobody is
dispatched.
-/

namespace DjQueue

open Relational

/-- No job of the list is left. -/
def Gone (ids : List JobId) (db : Db) : Prop := ∀ j ∈ db.jobs, j.id ∉ ids

namespace Accounts

variable {a : Audit} {hand : List JobId} {owed : Nat} {m : StateModel} {w w' : World} {T : Time}

/-- The jobs in hand are deleted. -/
theorem dispatches_of_deleteJobsWhere {jobs : List Job} {db : Db} {p : Job → Bool} {n : Nat}
    (inHand : TakesInHand jobs db w.db)
    (hits : ∀ j ∈ w.db.jobs, p j = true ↔ j.id ∈ jobs.map Job.id)
    (run : Runs (DjQueue.deleteJobsWhere p) w n w') :
    Dispatches T (· ∈ jobs.map Job.id) db w'.db ∧ Gone (jobs.map Job.id) w'.db := by
  rcases Runs.of_bind run with ⟨db₁, w₁, read, rest⟩
  rcases of_run_getDb read with ⟨rfl, rfl⟩
  rcases Runs.of_bind rest with ⟨v, w₂, written, rest⟩
  rw [(Runs.of_pure rest).2, of_run_modifyDb written]
  have spared (id : JobId) (other : id ∉ jobs.map Job.id) :
      (!((w₁.db.jobs.filter p).map Job.id).contains id) = true := by
    rw [Bool.not_eq_true', ← Bool.not_eq_true, List.contains_iff_mem]
    intro deleted
    rcases List.mem_map.mp deleted with ⟨j, hit, rfl⟩
    rcases List.mem_filter.mp hit with ⟨there, hit⟩
    exact other ((hits j there).mp hit)
  have gone : Gone (jobs.map Job.id) { w₁.db with jobs := w₁.db.jobs.filter (fun j => !p j) } := by
    intro j mem taken
    rcases List.mem_filter.mp mem with ⟨there, kept⟩
    rw [(hits j there).mpr taken] at kept
    cases kept
  refine ⟨⟨fun j mem other => ?_, fun r mem _ => ?_, fun r mem other => ?_, fun r mem other => ?_,
    fun j mem taken => absurd taken (gone j mem),
    fun j mem _ _ taken => absurd taken (gone j mem)⟩, gone⟩
  · exact ⟨j, inHand.others j (List.mem_of_mem_filter mem) other, .refl j⟩
  · exact inHand.stays r (List.mem_of_mem_filter mem)
  · exact List.mem_filter.mpr ⟨inHand.waits r mem other, spared _ other⟩
  · exact ⟨r, List.mem_filter.mpr ⟨inHand.failed r mem other, spared _ other⟩, rfl, rfl⟩

/-- Jobs that are discarded are dispatched nowhere. -/
theorem dispatches_of_discardStateJobs {jobIds : Option (List JobId)} {batchSize : Int}
    {queueName : Option String} {n : Nat} (good : Accounts a hand owed w.db)
    (run : Runs (DjQueue.discardStateJobs a.env m jobIds batchSize false queueName) w n w') :
    ∃ ids : List JobId, (∀ id ∈ ids, id ∈ w.db.stateJobIds m ∧
      jobIds.all (fun l => l.contains id) = true) ∧
      Dispatches T (· ∈ ids) w.db w'.db ∧ Gone ids w'.db := by
  rcases Runs.of_bind (Runs.of_atomic run) with ⟨db, w₁, got, rest₁⟩
  rcases of_run_getDb got with ⟨rfl, rfl⟩
  rcases Runs.of_bind rest₁ with ⟨rows, w₂, sliced, rest₂⟩
  rcases of_run_sliceTo sliced with ⟨taken, same₂⟩
  rw [same₂] at rest₂
  rcases Runs.of_bind rest₂ with ⟨v₃, w₃, check, rest₃⟩
  rcases of_run_ensureStateRowsBelongToBackend check with ⟨same₃, own⟩
  rw [same₃] at rest₃
  rcases Runs.of_bind rest₃ with ⟨consumed, w₄, consume, rest₄⟩
  have selected : Selected w₁.db rows := by
    have all := good.selected_orderBy m (fun _ => true) rowIdOrder
    rw [List.filter_true] at all
    rw [taken]
    exact all.sublist ((List.take_sublist _ _).trans List.filter_sublist)
  rcases takesInHand_of_consumed good (fun _ => rfl) selected own consume with ⟨rfl, -, inHand⟩
  rcases Runs.of_bind rest₄ with ⟨v₅, w₅, check', rest₅⟩
  rw [of_run_ensureJobIdsHaveNoOtherExecutionState check'] at rest₅
  rcases Runs.of_bind rest₅ with ⟨db, w₆, got', rest₆⟩
  rcases of_run_getDb got' with ⟨rfl, rfl⟩
  rcases Runs.of_bind rest₆ with ⟨deleted, w₇, delete, rest₇⟩
  rcases Runs.of_bind rest₇ with ⟨v₈, w₈, released, done⟩
  rcases Runs.of_pure released with ⟨-, rfl⟩
  rw [(Runs.of_pure done).2]
  have ids : consumed.map (fun r => rowJobId r.1) = (consumed.map Prod.snd).map Job.id := by
    rw [selected.ids_eq, List.map_map]
    rfl
  rw [ids] at delete
  refine ⟨(consumed.map Prod.snd).map Job.id, fun id mem => ?_,
    dispatches_of_deleteJobsWhere inHand (fun j _ => by rw [List.contains_iff_mem]) delete⟩
  rw [← ids] at mem
  rcases List.mem_map.mp mem with ⟨r, inRows, rfl⟩
  refine ⟨List.mem_map_of_mem (selected.mem r inRows), ?_⟩
  rw [taken] at inRows
  have hit := (List.mem_filter.mp (List.mem_of_mem_take inRows)).2
  unfold discardable at hit
  exact (Bool.and_eq_true_iff.mp (Bool.and_eq_true_iff.mp hit).1).2

theorem dispatches_of_clearFailedJobs {olderThan : Option Int} {taskPath : Option String}
    {batchSize : Int} {now : Time} {n : Nat} (good : Accounts a hand owed w.db)
    (run : Runs (DjQueue.clearFailedJobs a.env olderThan taskPath batchSize now) w n w') :
    ∃ ids : List JobId, (∀ id ∈ ids, id ∈ w.db.stateJobIds .failed) ∧
      Dispatches T (· ∈ ids) w.db w'.db ∧ Gone ids w'.db := by
  have nothing : ∃ ids : List JobId, (∀ id ∈ ids, id ∈ w.db.stateJobIds .failed) ∧
      Dispatches T (· ∈ ids) w.db w.db ∧ Gone ids w.db := by
    refine ⟨[], fun _ mem => absurd mem List.not_mem_nil, ?_, fun _ _ => List.not_mem_nil⟩
    simpa only [List.not_mem_nil] using (Calm.refl w.db).dispatches T
  unfold DjQueue.clearFailedJobs at run
  split at run
  · rw [(Runs.of_pure run).2]
    exact nothing
  · rcases Runs.of_bind (Runs.of_atomic run) with ⟨db, w₁, got, rest₁⟩
    rcases of_run_getDb got with ⟨rfl, rfl⟩
    rcases Runs.of_bind rest₁ with ⟨rows, w₂, sliced, rest₂⟩
    rcases of_run_sliceTo sliced with ⟨taken, same₂⟩
    rw [same₂] at rest₂
    rcases Runs.of_bind rest₂ with ⟨consumed, w₃, consume, rest₃⟩
    have selected : Selected (m := .failed) w₁.db rows := by
      rw [taken]
      exact (good.selected_orderBy .failed _ failureAgeOrder).sublist
        (((List.take_sublist _ _).trans List.filter_sublist).trans List.filter_sublist)
    have own : ∀ r ∈ rows, r.2.backendAlias = a.backendAlias := by
      intro r mem
      rw [taken] at mem
      have hit := (List.mem_filter.mp (List.mem_of_mem_filter (List.mem_of_mem_take mem))).2
      exact beq_iff_eq.mp hit
    rcases takesInHand_of_consumed (m := .failed) good (fun _ => rfl) selected own consume with
      ⟨rfl, db₃, inHand⟩
    have jobs₃ : w₃.db.jobs = w₁.db.jobs := by
      rw [db₃, Db.jobs_setTable]
    split at rest₃
    · rename_i empty
      rw [(Runs.of_pure rest₃).2, db₃, List.isEmpty_iff.mp empty]
      have same :
          w₁.db.setTable .failed (without (m := .failed) (w₁.db.table .failed) []) = w₁.db := by
        rw [show without (m := .failed) (w₁.db.table .failed) [] = w₁.db.table .failed by
          simp [without, Table.deleteWhere], Db.setTable_table]
      rw [List.map_nil, same]
      exact nothing
    · rcases Runs.of_bind rest₃ with ⟨v, w₄, check, delete⟩
      rw [of_run_ensureJobIdsHaveNoOtherExecutionState check] at delete
      have ids : consumed.map (fun r => r.1.jobId) = (consumed.map Prod.snd).map Job.id := by
        rw [show consumed.map (fun r => r.1.jobId) = consumed.map (fun r => r.2.id) from
          selected.ids_eq, List.map_map]
        rfl
      rw [ids] at delete
      refine ⟨(consumed.map Prod.snd).map Job.id, fun id mem => ?_,
        dispatches_of_deleteJobsWhere inHand (fun j mem => ?_) delete⟩
      · rw [← ids] at mem
        rcases List.mem_map.mp mem with ⟨r, inRows, rfl⟩
        exact List.mem_map_of_mem (selected.mem r inRows)
      · rw [Bool.and_eq_true, beq_iff_eq, List.contains_iff_mem]
        refine ⟨And.right, fun inIds => ⟨?_, inIds⟩⟩
        rcases List.mem_map.mp inIds with ⟨i, inJobs, same⟩
        rcases List.mem_map.mp inJobs with ⟨r, inRows, rfl⟩
        rw [jobs₃] at mem
        rw [← good.eq_of_id (mem_of_findJob (selected.job r inRows)).1 mem same]
        exact own r inRows

end Accounts

end DjQueue
