import DjQueue.Accounting.Enqueue

/-!
# Transitions and the ledger

The operations of `jobs.py`, `cleanup.py` and the maintenance half of `concurrency.py`: each
takes rows out of one state table and settles every job it took before it commits.
-/

namespace DjQueue

open Relational

namespace Accounts

variable {a : Audit} {hand hand' : List JobId} {owed owed' : Nat} {db : Db} {w w' : World}
  {u : Unit} {m : StateModel}

/-! ## Selections -/

theorem selected_filter (good : Accounts a hand owed db) (m : StateModel) (p : m.Row → Bool) :
    Selected db (selectRelatedJob db ((db.table m).rows.filter p)) :=
  Selected.of_selectRelatedJob (fun _ mem => List.mem_of_mem_filter mem)
    ((good.rowIds m).sublist (List.filter_sublist.map _))

/-- No job has two rows in one table. -/
theorem stateJobIds_nodup (good : Accounts a hand owed db) (m : StateModel) :
    (db.stateJobIds m).Nodup := by
  refine List.nodup_iff_count_le_one.mpr fun id => ?_
  by_cases mem : id ∈ db.stateJobIds m
  · obtain ⟨j, there, rfl⟩ := good.job_of_mem_stateJobIds mem
    have one := good.places j there
    have le := count_le_places db j m
    omega
  · rw [List.count_eq_zero.mpr mem]
    exact Nat.zero_le _

theorem nodup_of_selected (good : Accounts a hand owed db) {rows : List (m.Row × Job)}
    (selected : Selected db rows) : (rows.map (fun r => r.2.id)).Nodup := by
  rw [← selected.ids_eq]
  have distinct : (rows.map Prod.fst).Nodup := by
    have ids := selected.nodup
    rw [show (fun r : m.Row × Job => rowId r.1) = rowId ∘ Prod.fst from rfl, ← List.map_map] at ids
    exact ids.of_map
  rw [show (fun r : m.Row × Job => rowJobId r.1) = rowJobId ∘ Prod.fst from rfl, ← List.map_map]
  refine distinct.map_on fun x inX y inY same => ?_
  obtain ⟨rx, memX, rfl⟩ := List.mem_map.mp inX
  obtain ⟨ry, memY, rfl⟩ := List.mem_map.mp inY
  exact List.inj_on_of_nodup_map (good.stateJobIds_nodup m) (selected.mem rx memX)
    (selected.mem ry memY) same

/-- The jobs of a selection are known. -/
theorem jobs_of_selected (good : Accounts a hand owed db) {rows : List (m.Row × Job)}
    (selected : Selected db rows) (own : ∀ r ∈ rows, r.2.backendAlias = a.backendAlias) :
    ∀ j ∈ rows.map Prod.snd, a.Knows j ∧ j.backendAlias = a.backendAlias := by
  intro j mem
  obtain ⟨r, inRows, rfl⟩ := List.mem_map.mp mem
  exact ⟨good.knows_of_selected selected inRows, own r inRows⟩

/-- What was selected from an inactive state is consumed and dispatched again. -/
theorem consumeAndRedispatch {rows consumed : List (m.Row × Job)} {pk : m.Row × Job → Nat}
    {isolate reset : Bool} {w₁ : World} {result : List Job × List (Job × PyError)}
    (good : Accounts a hand owed w.db) (inactive : m.isActive = false)
    (pkOf : ∀ r, pk r = rowId r.1) (selected : Selected w.db rows)
    (own : ∀ r ∈ rows, r.2.backendAlias = a.backendAlias)
    (consume : Runs (consumeSelectedRows a.env m pk rows) w consumed w₁)
    (redispatch : Runs (DjQueue.redispatchJobs a.env (consumed.map Prod.snd) isolate reset) w₁ result
      w') :
    Accounts a hand owed w'.db := by
  obtain ⟨rfl, good₁⟩ := good.consume pkOf selected own consume
  rw [Audit.held_of_inactive inactive, Nat.add_zero] at good₁
  refine redispatchJobs ?_ (good.jobs_of_selected selected own) ?_ redispatch
  · rw [List.map_map]
    exact good₁
  · rw [List.map_map]
    exact good.nodup_of_selected selected

/-! ## Scheduled jobs -/

/-- Scheduled jobs that are due are dispatched. -/
theorem promoteScheduledJobs {batchSize : Int} {jobs : List Job} (good : Accounts a hand owed w.db)
    (run : Runs (promoteScheduledJobs a.env batchSize) w jobs w') : Accounts a hand owed w'.db := by
  obtain ⟨now, w₁, read, rest₁⟩ := Runs.of_bind run
  rw [← of_run_timezoneNow read] at good
  obtain ⟨db, w₂, got, rest₂⟩ := Runs.of_bind (Runs.of_atomic rest₁)
  obtain ⟨rfl, rfl⟩ := of_run_getDb got
  obtain ⟨rows, w₃, sliced, rest₃⟩ := Runs.of_bind rest₂
  obtain ⟨rfl, rfl⟩ := of_run_sliceTo sliced
  obtain ⟨v, w₄, check, rest₄⟩ := Runs.of_bind rest₃
  obtain ⟨rfl, own⟩ := of_run_ensureStateRowsBelongToBackend (m := .scheduled) check
  obtain ⟨consumed, w₅, consume, rest₅⟩ := Runs.of_bind rest₄
  have selected := (good.selected_orderBy .scheduled (fun r =>
    r.backendAlias == a.env.config.backendAlias && r.scheduledAt ≤ now) scheduledOrder).sublist
    (List.take_sublist batchSize.toNat _)
  split at rest₅
  · rename_i empty
    obtain ⟨-, rfl⟩ := Runs.of_pure rest₅
    obtain ⟨same, good₅⟩ := good.consume (m := .scheduled) (fun _ => rfl) selected own consume
    rw [← same, List.isEmpty_iff.mp empty, List.map_nil, Audit.held_nil] at good₅
    exact good₅
  · obtain ⟨result, w₆, redispatched, done⟩ := Runs.of_bind rest₅
    obtain ⟨-, rfl⟩ := Runs.of_pure done
    exact good.consumeAndRedispatch (m := .scheduled) rfl (fun _ => rfl) selected own consume
      redispatched

/-- A scheduled job is dispatched as if it were due. -/
theorem dispatchScheduledJobNow {jobId : JobId} {result : Job × DispatchOutcome}
    (good : Accounts a hand owed w.db)
    (run : Runs (dispatchScheduledJobNow a.env jobId) w result w') :
    Accounts a hand owed w'.db := by
  obtain ⟨db, w₁, got, rest₁⟩ := Runs.of_bind (Runs.of_atomic run)
  obtain ⟨rfl, rfl⟩ := of_run_getDb got
  split at rest₁
  · exact (Runs.of_throw rest₁).elim
  · rename_i scheduled others selection
    have selected : Selected (m := .scheduled) w₁.db [scheduled] := by
      refine (good.selected_filter .scheduled (fun r =>
        r.jobId == jobId && r.backendAlias == a.env.config.backendAlias)).sublist ?_
      exact List.singleton_sublist.mpr (selection ▸ List.mem_cons_self)
    obtain ⟨v, w₂, check, rest₂⟩ := Runs.of_bind rest₁
    obtain ⟨rfl, own⟩ := of_run_ensureStateRowsBelongToBackend (m := .scheduled) check
    obtain ⟨consumed, w₃, consume, rest₃⟩ := Runs.of_bind rest₂
    obtain ⟨rfl, good₃⟩ := good.consume (m := .scheduled) (fun _ => rfl) selected own consume
    rw [Audit.held_of_inactive rfl, Nat.add_zero] at good₃
    obtain ⟨v', w₄, updated, rest₄⟩ := Runs.of_bind rest₃
    obtain ⟨outcome, w₅, dispatched, done⟩ := Runs.of_bind rest₄
    obtain ⟨-, rfl⟩ := Runs.of_pure done
    have knows := good.knows_of_selected selected List.mem_cons_self
    have backend := own scheduled List.mem_cons_self
    have good₄ : Accounts a (scheduled.2.id :: hand) owed w₄.db := by
      unfold updateJobsWhere at updated
      rw [of_run_modifyDb updated]
      refine good₃.updateJobs (fun j => by split <;> rfl) ?_ (fun j _ => by split <;> rfl)
      intro j mem foreign
      refine if_neg fun hit => foreign ?_
      have same := beq_iff_eq.mp hit
      rw [← (good₃.owns_iff mem), same]
      exact knows.owns backend
    change Accounts a (({ scheduled.2 with scheduledAt := none } : Job).id :: hand) _ _ at good₄
    exact dispatchJob good₄
      (Audit.Knows.of_core (j := scheduled.2) rfl knows) backend dispatched

/-! ## Failed jobs -/

/-- A failed row is found with its job. -/
theorem selected_getFailed (good : Accounts a hand owed db) {jobId : JobId}
    {failed : FailedExecution × Job} (found : getFailed db a.env jobId = some failed) :
    Selected (m := .failed) db [failed] ∧ failed.2.backendAlias = a.backendAlias := by
  have hit := List.find?_some found
  refine ⟨(good.selected_filter .failed (fun r => r.jobId == jobId)).sublist ?_, beq_iff_eq.mp hit⟩
  exact List.singleton_sublist.mpr (List.mem_of_find?_eq_some found)

/-- A row keeps its key and its job when other columns are written. -/
theorem updateRows (good : Accounts a hand owed db) {p : m.Row → Bool} {f : m.Row → m.Row}
    (id : ∀ r, rowId (f r) = rowId r) (jobId : ∀ r, rowJobId (f r) = rowJobId r)
    (fits : ∀ r ∈ (db.table m).rows, p r = true → a.RowFits db.jobs db.processes.rows (f r))
    (own : ∀ r ∈ (db.table m).rows, p r = true → a.owns (rowJobId r) = true) :
    Accounts a hand owed (db.setTable m ((db.table m).updateWhere p f)) := by
  have idOf : ∀ r, rowId (if p r then f r else r) = rowId r := by
    intro r
    split
    · exact id r
    · rfl
  have jobIdOf : ∀ r, rowJobId (if p r then f r else r) = rowJobId r := by
    intro r
    split
    · exact jobId r
    · rfl
  have ids : ((db.table m).updateWhere p f).rows.map rowId = (db.table m).rows.map rowId := by
    rw [Table.rows_updateWhere, List.map_map]
    exact List.map_congr_left fun r _ => idOf r
  have jobIds : ((db.table m).updateWhere p f).rows.map rowJobId = db.stateJobIds m := by
    rw [Table.rows_updateWhere, List.map_map]
    exact List.map_congr_left fun r _ => jobIdOf r
  refine good.setTable ?_ ?_ ?_ ?_ ?_ ?_
  · rw [ids]
    exact good.rowIds m
  · intro r mem
    obtain ⟨old, there, rfl⟩ := List.mem_map.mp mem
    rw [idOf]
    exact good.rowBound m old there
  · intro r mem
    obtain ⟨old, there, rfl⟩ := List.mem_map.mp mem
    by_cases hit : p old = true
    · rw [if_pos hit]
      exact fits old there hit
    · rw [if_neg hit]
      exact good.rowFits m old there
  · rw [jobIds]
  · rw [jobIds]
  · unfold Audit.foreign
    rw [Table.rows_updateWhere, List.filter_map]
    have same : (fun r : m.Row => !a.owns (rowJobId r)) ∘ (fun r => if p r then f r else r) =
        fun r => !a.owns (rowJobId r) := by
      funext r
      rw [Function.comp_apply, jobIdOf]
    rw [same]
    refine (List.map_congr_left fun r mem => ?_).trans (List.map_id _)
    obtain ⟨there, foreign⟩ := List.mem_filter.mp mem
    refine if_neg fun hit => ?_
    rw [own r there hit] at foreign
    cases foreign

/-- A retry that is scheduled moves nothing. -/
theorem scheduleFailedJobRetry {jobId : JobId} {retryAt : Time} {job : Job}
    (good : Accounts a hand owed w.db)
    (run : Runs (scheduleFailedJobRetry a.env jobId retryAt) w job w') :
    Accounts a hand owed w'.db := by
  obtain ⟨db, w₁, got, rest₁⟩ := Runs.of_bind (Runs.of_atomic run)
  obtain ⟨rfl, rfl⟩ := of_run_getDb got
  split at rest₁
  · exact (Runs.of_throw rest₁).elim
  · rename_i failed found
    obtain ⟨v, w₂, written, done⟩ := Runs.of_bind rest₁
    obtain ⟨-, rfl⟩ := Runs.of_pure done
    rw [of_run_modifyDb written]
    refine good.updateRows (m := .failed) (fun _ => rfl) (fun _ => rfl) ?_ ?_
    · intro r mem hit
      obtain ⟨job, ⟨i, known, same⟩, process⟩ := good.rowFits .failed r mem
      exact ⟨job, ⟨i, known, ⟨by rintro b ⟨⟩, by rintro q ⟨⟩, by rintro k ⟨⟩⟩⟩, by rintro p ⟨⟩⟩
    · intro r mem hit
      obtain ⟨selected, own⟩ := good.selected_getFailed found
      have same : r = failed.1 := List.inj_on_of_nodup_map (good.rowIds .failed) mem
        (selected.mem failed List.mem_cons_self) (beq_iff_eq.mp hit)
      rw [same, ← selected.id_eq List.mem_cons_self]
      exact (good.knows_of_selected selected List.mem_cons_self).owns own

theorem retryFailedJob {jobId : JobId} {job : Option Job} (good : Accounts a hand owed w.db)
    (run : Runs (retryFailedJob a.env jobId) w job w') : Accounts a hand owed w'.db := by
  obtain ⟨db, w₁, got, rest₁⟩ := Runs.of_bind (Runs.of_atomic run)
  obtain ⟨rfl, rfl⟩ := of_run_getDb got
  split at rest₁
  · exact (Runs.of_throw rest₁).elim
  · rename_i failed found
    obtain ⟨selected, own⟩ := good.selected_getFailed found
    obtain ⟨consumed, w₂, consume, rest₂⟩ := Runs.of_bind rest₁
    split at rest₂
    · exact (Runs.of_throw rest₂).elim
    · obtain ⟨result, w₃, redispatched, done⟩ := Runs.of_bind rest₂
      obtain ⟨-, rfl⟩ := Runs.of_pure done
      exact good.consumeAndRedispatch (m := .failed) rfl (fun _ => rfl) selected
        (fun r mem => List.mem_singleton.mp mem ▸ own) consume redispatched

/-- Failed jobs are dispatched again in one batch. -/
theorem retryFailedRows {rows : List (FailedExecution × Job)} {jobs : List Job}
    (good : Accounts a hand owed w.db) (selected : Selected (m := .failed) w.db rows)
    (own : ∀ r ∈ rows, r.2.backendAlias = a.backendAlias)
    (run : Runs (retryFailedRows a.env rows) w jobs w') : Accounts a hand owed w'.db := by
  obtain ⟨consumed, w₁, consume, rest₁⟩ := Runs.of_bind run
  split at rest₁
  · rename_i empty
    obtain ⟨-, rfl⟩ := Runs.of_pure rest₁
    obtain ⟨rfl, good₁⟩ := good.consume (m := .failed) (fun _ => rfl) selected own consume
    rw [List.isEmpty_iff.mp empty, List.map_nil, Audit.held_nil] at good₁
    exact good₁
  · obtain ⟨result, w₂, redispatched, done⟩ := Runs.of_bind rest₁
    obtain ⟨-, rfl⟩ := Runs.of_pure done
    exact good.consumeAndRedispatch (m := .failed) rfl (fun _ => rfl) selected own consume
      redispatched

/-- The backend's failed rows in some order, up to a limit. -/
theorem selected_failedOfBackend (good : Accounts a hand owed db) (p : FailedExecution → Bool)
    (le : FailedExecution → FailedExecution → Bool) (n : Nat) :
    let rows := (failedOfBackend db a.env (orderBy le (db.failed.rows.filter p))).take n
    Selected (m := .failed) db rows ∧ ∀ r ∈ rows, r.2.backendAlias = a.backendAlias := by
  refine ⟨(good.selected_orderBy .failed p le).sublist
    ((List.take_sublist _ _).trans List.filter_sublist), fun r mem => ?_⟩
  have hit := (List.mem_filter.mp (List.mem_of_mem_take mem)).2
  exact beq_iff_eq.mp hit

/-- Failed jobs are retried by their keys, or all of them. -/
theorem retryFailedJobs {jobIds : Option (List JobId)} {batchSize : Int} {n : Nat}
    (good : Accounts a hand owed w.db)
    (run : Runs (retryFailedJobs a.env jobIds batchSize) w n w') : Accounts a hand owed w'.db := by
  obtain ⟨db, w₁, got, rest₁⟩ := Runs.of_bind (Runs.of_atomic run)
  obtain ⟨rfl, rfl⟩ := of_run_getDb got
  obtain ⟨rows, w₂, sliced, rest₂⟩ := Runs.of_bind rest₁
  obtain ⟨rfl, rfl⟩ := of_run_sliceTo sliced
  obtain ⟨jobs, w₃, retried, done⟩ := Runs.of_bind rest₂
  obtain ⟨-, rfl⟩ := Runs.of_pure done
  obtain ⟨selected, own⟩ := good.selected_failedOfBackend
    (fun r => jobIds.all (fun ids => ids.contains r.jobId)) failedIdOrder batchSize.toNat
  exact good.retryFailedRows selected own retried

/-- Failed jobs whose retry is due are dispatched again. -/
theorem promoteFailedJobRetries {batchSize : Int} {jobs : List Job}
    (good : Accounts a hand owed w.db)
    (run : Runs (promoteFailedJobRetries a.env batchSize) w jobs w') :
    Accounts a hand owed w'.db := by
  obtain ⟨now, w₁, read, rest₁⟩ := Runs.of_bind run
  rw [← of_run_timezoneNow read] at good
  obtain ⟨db, w₂, got, rest₂⟩ := Runs.of_bind (Runs.of_atomic rest₁)
  obtain ⟨rfl, rfl⟩ := of_run_getDb got
  obtain ⟨rows, w₃, sliced, retried⟩ := Runs.of_bind rest₂
  obtain ⟨rfl, rfl⟩ := of_run_sliceTo sliced
  obtain ⟨selected, own⟩ := good.selected_failedOfBackend
    (fun r => r.retryAt.any (fun t => t ≤ now)) retryOrder batchSize.toNat
  exact good.retryFailedRows selected own retried

/-! ## Discards -/

/-- A job in hand has no state row. -/
theorem stateless_of_hand (good : Accounts a hand owed db) {j : Job} (mem : j ∈ db.jobs)
    (inHand : j.id ∈ hand) (m : StateModel) : j.id ∉ db.stateJobIds m :=
  no_rows_of_places (good.places_of_hand mem inHand) m

/-- Jobs in hand are deleted. -/
theorem deleteHand (ids : List JobId) {p : Job → Bool} {n : Nat}
    (good : Accounts a (ids ++ hand) owed w.db) (owned : ∀ id ∈ ids, a.owns id = true)
    (hits : ∀ j ∈ w.db.jobs, p j = true ↔ j.id ∈ ids)
    (run : Runs (DjQueue.deleteJobsWhere p) w n w') : Accounts a hand owed w'.db := by
  refine good.deleteJobsWhere ?_ ?_ ?_ run
  · intro j mem hit
    exact (good.owns_iff mem).mp (owned j.id ((hits j mem).mp hit))
  · intro j mem hit m
    exact good.stateless_of_hand mem (List.mem_append_left _ ((hits j mem).mp hit)) m
  · intro j mem miss
    have absent : j.id ∉ ids := by
      rw [← hits j mem, miss]
      exact Bool.false_ne_true
    rw [List.count_append, List.count_eq_zero.mpr absent, Nat.zero_add]

/-- The jobs of a selection are those of its keys. -/
theorem filterMap_findJob : ∀ {rows : List (m.Row × Job)},
    (∀ r ∈ rows, db.findJob (rowJobId r.1) = some r.2) →
    (rows.map (fun r => rowJobId r.1)).filterMap db.findJob = rows.map Prod.snd
  | [], _ => rfl
  | r :: rows, found => by
      rw [List.map_cons, List.filterMap_cons_some (found r List.mem_cons_self), List.map_cons,
        filterMap_findJob (fun r mem => found r (List.mem_cons_of_mem _ mem))]

/-- A discarded job gives its slot back if it held one. -/
theorem discardStateJobs {jobIds : Option (List JobId)} {batchSize : Int} {release : Bool}
    {queueName : Option String} {n : Nat} (good : Accounts a hand owed w.db)
    (releases : release = m.isActive)
    (run : Runs (discardStateJobs a.env m jobIds batchSize release queueName) w n w') :
    Accounts a hand owed w'.db := by
  obtain ⟨db, w₁, got, rest₁⟩ := Runs.of_bind (Runs.of_atomic run)
  obtain ⟨rfl, rfl⟩ := of_run_getDb got
  obtain ⟨rows, w₂, sliced, rest₂⟩ := Runs.of_bind rest₁
  obtain ⟨taken, rfl⟩ := of_run_sliceTo sliced
  obtain ⟨v₃, w₃, check, rest₃⟩ := Runs.of_bind rest₂
  obtain ⟨rfl, own⟩ := of_run_ensureStateRowsBelongToBackend check
  obtain ⟨consumed, w₄, consume, rest₄⟩ := Runs.of_bind rest₃
  have selected : Selected w₃.db rows := by
    have all := good.selected_orderBy m (fun _ => true) rowIdOrder
    rw [List.filter_true] at all
    rw [taken]
    exact all.sublist ((List.take_sublist _ _).trans List.filter_sublist)
  have there := of_run_consumeSelectedRows
    (fun r mem => ⟨r.1, selected.mem r mem, rfl⟩) selected.nodup consume
  obtain ⟨rfl, good₄⟩ := good.consume (fun _ => rfl) selected own consume
  obtain ⟨v₅, w₅, check', rest₅⟩ := Runs.of_bind rest₄
  cases of_run_ensureJobIdsHaveNoOtherExecutionState check'
  obtain ⟨db, w₆, got', rest₆⟩ := Runs.of_bind rest₅
  obtain ⟨rfl, rfl⟩ := of_run_getDb got'
  obtain ⟨deleted, w₇, delete, rest₇⟩ := Runs.of_bind rest₆
  obtain ⟨v₈, w₈, released, done⟩ := Runs.of_bind rest₇
  obtain ⟨-, rfl⟩ := Runs.of_pure done
  rw [selected.ids_eq] at delete
  have good₇ := good₄.deleteHand _ (fun id mem => by
    obtain ⟨r, inRows, rfl⟩ := List.mem_map.mp mem
    exact (good.knows_of_selected selected inRows).owns (own r inRows))
    (fun j _ => by rw [List.contains_iff_mem]) delete
  -- the jobs that are released are those that were selected
  rw [filterMap_findJob (fun r mem => by
    rw [there.2, Db.findJob, Db.jobs_setTable]
    exact selected.job r mem)] at released
  rcases Runs.of_runIf released with ⟨active, released⟩ | ⟨inactive, rfl⟩
  · refine releaseAll ?_ (fun j mem => ?_) released
    · rw [releases] at active
      have held := held_map (a := a) (m := m) active
        (fun j mem => (good.jobs_of_selected selected own j mem).1)
      rw [List.map_map] at held
      rw [← held]
      exact good₇
    · exact (good.jobs_of_selected selected own j mem).1
  · rw [releases] at inactive
    rw [Audit.held_of_inactive inactive] at good₇
    exact good₇

end Accounts

end DjQueue
