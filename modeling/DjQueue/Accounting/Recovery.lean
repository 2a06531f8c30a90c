import DjQueue.Operations.Recovery
import DjQueue.Accounting.Claims

/-!
# Recovery and the ledger

Failing the claims of lost processes, and the process rows themselves.  Deleting a process
leaves its claims without one; their slots stay held until the claims are failed.
-/

namespace DjQueue

open Relational

/-- The process with this key, if it is there, belongs to the backend. -/
def OwnProcessId (backendAlias : String) (db : Db) (id : Nat) : Prop :=
  ∀ p ∈ db.processes.rows, p.id = id → p.backendAlias = backendAlias

namespace Accounts

variable {a : Audit} {hand hand' : List JobId} {owed owed' : Nat} {w w' : World} {u : Unit}
  {db : Db}

/-! ## Failing claims -/

/-- As many claims were deleted as there are jobs, so every one of them had a claim. -/
theorem filter_jobIds_perm (good : Accounts a hand owed db) {m : StateModel} {ids : List JobId}
    (all : (db.table m).rows.countP (fun r => ids.contains (rowJobId r)) = ids.length) :
    (((db.table m).rows.filter (fun r => ids.contains (rowJobId r))).map rowJobId).Perm ids := by
  have deleted : (((db.table m).rows.filter (fun r => ids.contains (rowJobId r))).map
      rowJobId).Nodup :=
    (good.stateJobIds_nodup m).sublist (List.filter_sublist.map _)
  refine (List.subperm_of_subset deleted fun id mem => ?_).perm_of_length_le ?_
  · obtain ⟨r, hit, rfl⟩ := List.mem_map.mp mem
    exact List.contains_iff_mem.mp (List.mem_filter.mp hit).2
  · rw [List.length_map, ← List.countP_eq_length_filter, all]

/-- The claims of known jobs are gone: the jobs are in hand and their slots owed. -/
theorem deleteClaims {jobs : List Job} (good : Accounts a hand owed db)
    (knows : ∀ j ∈ jobs, a.Knows j) (own : ∀ j ∈ jobs, j.backendAlias = a.backendAlias)
    (all : db.claimed.rows.countP (fun r => (jobs.map Job.id).contains r.jobId) =
      (jobs.map Job.id).length) :
    Accounts a (jobs.map Job.id ++ hand) (owed + (jobs.map a.jobSlot).sum)
      (db.setTable .claimed
        (db.claimed.deleteWhere (fun r => (jobs.map Job.id).contains r.jobId))) := by
  have owned : ∀ id ∈ jobs.map Job.id, a.owns id = true := by
    intro id mem
    obtain ⟨j, inJobs, rfl⟩ := List.mem_map.mp mem
    exact (knows j inJobs).owns (own j inJobs)
  have perm := good.filter_jobIds_perm (m := .claimed) all
  have deleted := good.delete (m := .claimed)
    (p := fun r => (jobs.map Job.id).contains (rowJobId r))
    (fun r _ hit => owned _ (List.contains_iff_mem.mp hit))
  rw [Audit.held_perm perm, held_map rfl knows] at deleted
  exact deleted.perm (perm.append_right hand)

/-- Jobs in hand have failed. -/
theorem createFailures {jobs : List Job} {failure : Failure}
    (good : Accounts a (jobs.map Job.id ++ hand) owed w.db) (knows : ∀ j ∈ jobs, a.Knows j)
    (own : ∀ j ∈ jobs, j.backendAlias = a.backendAlias)
    (run : Runs (DjQueue.bulkCreate .failed ((jobs.map Job.id).map (failedRow failure))) w u w') :
    Accounts a hand owed w'.db := by
  have ids : ((jobs.map Job.id).map (failedRow failure)).map (rowJobId (m := .failed)) =
      jobs.map Job.id := by
    rw [List.map_map]
    exact List.map_id _
  refine Accounts.bulkCreate (m := .failed) ?_ ?_
    (fun r _ => Audit.ownProcess_of_ne (by decide) _) run
  · rw [Audit.held_of_inactive rfl, ids]
    exact good
  · intro row mapped
    obtain ⟨id, mem, rfl⟩ := List.mem_map.mp mapped
    obtain ⟨j, inJobs, rfl⟩ := List.mem_map.mp mem
    exact ownRow_failed (knows j inJobs).identity (own j inJobs)

/-- `_fail_claimed_jobs` -/
theorem failClaimedJobs {jobs failed : List Job} {failure : Failure}
    (good : Accounts a hand owed w.db) (knows : ∀ j ∈ jobs, a.Knows j)
    (run : Runs (failClaimedJobs a.env jobs failure) w failed w') : Accounts a hand owed w'.db := by
  unfold DjQueue.failClaimedJobs at run
  split at run
  · obtain ⟨-, rfl⟩ := Runs.of_pure run
    exact good
  · split at run
    · exact (Runs.of_throw run).elim
    · rename_i same
      have own : ∀ j ∈ jobs, j.backendAlias = a.backendAlias := by
        intro j mem
        by_contra foreign
        exact same (List.any_eq_true.mpr ⟨j, mem, decide_eq_true foreign⟩)
      obtain ⟨n, w₁, deleted, rest₁⟩ := Runs.of_bind (Runs.of_atomic run)
      obtain ⟨v₂, w₂, check, rest₂⟩ := Runs.of_bind rest₁
      obtain ⟨all, rfl⟩ := of_run_runIf_throw check
      obtain ⟨v₃, w₃, stateless, rest₃⟩ := Runs.of_bind rest₂
      cases of_run_ensureJobIdsHaveNoOtherExecutionState stateless
      obtain ⟨v₄, w₄, created, rest₄⟩ := Runs.of_bind rest₃
      obtain ⟨v₅, w₅, released, done⟩ := Runs.of_bind rest₄
      obtain ⟨-, rfl⟩ := Runs.of_pure done
      obtain ⟨count, db₁⟩ := of_run_deleteRowsWhere deleted
      have good₁ := good.deleteClaims knows own
        (count.symm.trans (Decidable.not_not.mp (of_decide_eq_false all)))
      have deletedClaims : w₂.db = w.db.setTable .claimed (w.db.claimed.deleteWhere
          (fun r => (jobs.map Job.id).contains r.jobId)) := db₁
      rw [← deletedClaims] at good₁
      exact (good₁.createFailures knows own created).releaseFallback knows released

/-- Failing claims that were just selected with their jobs. -/
theorem failSelected {rows : List (ClaimedExecution × Job)} {failed : List Job} {failure : Failure}
    (good : Accounts a hand owed w.db) (selected : Selected (m := .claimed) w.db rows)
    (run : Runs (DjQueue.failClaimedJobs a.env (rows.map Prod.snd) failure) w failed w') :
    Accounts a hand owed w'.db := by
  refine good.failClaimedJobs (fun j mem => ?_) run
  obtain ⟨r, inRows, rfl⟩ := List.mem_map.mp mem
  exact good.knows_of_selected selected inRows

/-- Claims without a process fail like others. -/
theorem failOrphanedClaimedJobs {failure : Failure} {batchSize : Int} {failed : List Job}
    (good : Accounts a hand owed w.db)
    (run : Runs (failOrphanedClaimedJobs a.env failure batchSize) w failed w') :
    Accounts a hand owed w'.db := by
  obtain ⟨db, w₁, got, rest₁⟩ := Runs.of_bind (Runs.of_atomic run)
  obtain ⟨rfl, rfl⟩ := of_run_getDb got
  obtain ⟨rows, w₂, sliced, failed⟩ := Runs.of_bind rest₁
  obtain ⟨rfl, rfl⟩ := of_run_sliceTo sliced
  have selected := good.selected_orderBy .claimed (fun r => r.processId.isNone) claimedIdOrder
  exact good.failSelected (selected.sublist ((List.take_sublist _ _).trans List.filter_sublist))
    failed

/-! ## Process rows -/

/-- The table of processes is replaced: what the claims and the supervised processes point to is
still there, and the rows of other backends are the same. -/
theorem setProcesses (good : Accounts a hand owed db) {t : Table Process}
    (ids : (t.rows.map Process.id).Nodup) (bound : ∀ p ∈ t.rows, p.id < t.nextId)
    (supervisors : ∀ p ∈ t.rows, ∀ s, p.supervisorId = some s →
      ∃ q ∈ t.rows, q.id = s ∧ q.backendAlias = p.backendAlias)
    (claims : ∀ r ∈ db.claimed.rows, ∀ p ∈ db.processes.rows, r.processId = some p.id →
      ∃ q ∈ t.rows, q.id = p.id ∧ q.backendAlias = p.backendAlias)
    (foreign : t.rows.filter (fun p => p.backendAlias ≠ a.backendAlias) =
      db.processes.rows.filter (fun p => p.backendAlias ≠ a.backendAlias)) :
    Accounts a hand owed { db with processes := t } := by
  obtain ⟨jobs, rows, processes, pauses, tasks, executions, trimmed, created⟩ := good.untouched
  refine { good with
    rowFits := fun m r mem => ?_
    registry := ⟨ids, bound, supervisors, good.registry.links⟩
    untouched := ⟨jobs, rows, foreign.trans processes, pauses, tasks, executions, trimmed,
      created⟩ }
  obtain ⟨job, columns, process⟩ := good.rowFits m r mem
  refine ⟨job, columns, fun id claimed => ?_⟩
  obtain ⟨p, there, rfl, backend⟩ := process id claimed
  cases m with
  | claimed =>
      obtain ⟨q, kept, same, sameBackend⟩ := claims r mem p there claimed
      exact ⟨q, kept, same, by rw [sameBackend]; exact backend⟩
  | ready => cases claimed
  | scheduled => cases claimed
  | blocked => cases claimed
  | failed => cases claimed

/-- The processes are written as a whole. -/
theorem of_run_saveProcesses {t : Table Process} (run : Runs (saveProcesses t) w u w') :
    w'.db = { w.db with processes := t } := by
  unfold saveProcesses at run
  split at run
  · exact of_run_modifyDb run
  · exact (Runs.of_throw run).elim

/-- A process that registers belongs to its supervisor's backend. -/
theorem registerProcess {pid : Int} {name : String} {supervisorId : Option Nat} {process : Process}
    (good : Accounts a hand owed w.db)
    (supervised : ∀ s, supervisorId = some s → OwnProcessId a.backendAlias w.db s)
    (run : Runs (registerProcess a.env pid name supervisorId) w process w') :
    Accounts a hand owed w'.db := by
  obtain ⟨now, w₁, read, rest₁⟩ := Runs.of_bind run
  have sameDb := of_run_timezoneNow read
  unfold OwnProcessId at supervised
  rw [← sameDb] at good supervised
  obtain ⟨db, w₂, got, rest₂⟩ := Runs.of_bind rest₁
  obtain ⟨rfl, rfl⟩ := of_run_getDb got
  split at rest₂
  · rename_i there
    obtain ⟨v, w₃, saved, done⟩ := Runs.of_bind rest₂
    obtain ⟨-, rfl⟩ := Runs.of_pure done
    rw [of_run_saveProcesses saved]
    obtain ⟨processIds, processBound, supervisors, links⟩ := good.registry
    refine good.setProcesses ?_ ?_ ?_ ?_ ?_
    · rw [Table.rows_insert, List.map_append, List.nodup_append]
      refine ⟨processIds, List.nodup_singleton _, ?_⟩
      intro x old y new
      obtain ⟨p, mem, rfl⟩ := List.mem_map.mp old
      rw [List.mem_singleton.mp new]
      exact Nat.ne_of_lt (processBound p mem)
    · intro p mem
      rw [Table.nextId_insert]
      rcases List.mem_append.mp mem with old | new
      · exact Nat.lt_succ_of_lt (processBound p old)
      · rw [List.mem_singleton.mp new]
        exact Nat.lt_succ_self _
    · intro p mem s supervisor
      rcases List.mem_append.mp mem with old | new
      · obtain ⟨q, inTable, same⟩ := supervisors p old s supervisor
        exact ⟨q, List.mem_append_left _ inTable, same⟩
      · obtain rfl := List.mem_singleton.mp new
        obtain rfl : supervisorId = some s := supervisor
        obtain ⟨q, inTable, same⟩ := List.any_eq_true.mp there
        exact ⟨q, List.mem_append_left _ inTable, beq_iff_eq.mp same,
          supervised s rfl q inTable (beq_iff_eq.mp same)⟩
    · intro r _ p mem _
      exact ⟨p, List.mem_append_left _ mem, rfl, rfl⟩
    · rw [Table.rows_insert, List.filter_append]
      simp
  · exact (Runs.of_throw rest₂).elim

/-- Some processes are dropped, and the others keep their key and backend. -/
theorem rewriteProcesses (good : Accounts a hand owed db) (keep : Process → Bool)
    {f : Process → Process} (id : ∀ p, (f p).id = p.id)
    (backend : ∀ p, (f p).backendAlias = p.backendAlias)
    (supervisor : ∀ p s, (f p).supervisorId = some s →
      p.supervisorId = some s ∧ ∀ q ∈ db.processes.rows, q.id = s → keep q = true)
    (claims : ∀ r ∈ db.claimed.rows, ∀ p ∈ db.processes.rows, r.processId = some p.id →
      keep p = true)
    (dropped : ∀ p ∈ db.processes.rows, keep p = false → p.backendAlias = a.backendAlias)
    (own : ∀ p ∈ db.processes.rows, p.backendAlias ≠ a.backendAlias → f p = p) :
    Accounts a hand owed { db with
      processes := ⟨(db.processes.rows.filter keep).map f, db.processes.nextId⟩ } := by
  obtain ⟨processIds, processBound, supervisors, links⟩ := good.registry
  have stays : ∀ p ∈ db.processes.rows, keep p = true →
      ∃ q ∈ (db.processes.rows.filter keep).map f, q.id = p.id ∧ q.backendAlias = p.backendAlias :=
    fun p mem kept => ⟨f p, List.mem_map_of_mem (List.mem_filter.mpr ⟨mem, kept⟩), id p, backend p⟩
  refine good.setProcesses ?_ ?_ ?_ ?_ ?_
  · rw [List.map_map, show Process.id ∘ f = Process.id from funext id]
    exact processIds.sublist (List.filter_sublist.map _)
  · intro p mem
    obtain ⟨q, kept, rfl⟩ := List.mem_map.mp mem
    rw [id]
    exact processBound q (List.mem_of_mem_filter kept)
  · intro p mem s supervised
    obtain ⟨q, kept, rfl⟩ := List.mem_map.mp mem
    obtain ⟨before, keeps⟩ := supervisor q s supervised
    obtain ⟨boss, there, rfl, same⟩ := supervisors q (List.mem_of_mem_filter kept) s before
    obtain ⟨boss', there', same', backend'⟩ := stays boss there (keeps boss there rfl)
    exact ⟨boss', there', same', by rw [backend', same, backend]⟩
  · exact fun r mem p there claimed => stays p there (claims r mem p there claimed)
  · rw [List.filter_map]
    have sameTest : (fun p : Process => decide (p.backendAlias ≠ a.backendAlias)) ∘ f =
        fun p => decide (p.backendAlias ≠ a.backendAlias) := by
      funext p
      rw [Function.comp_apply, backend]
    rw [sameTest, List.filter_filter]
    have sameRows : db.processes.rows.filter (fun p =>
        decide (p.backendAlias ≠ a.backendAlias) && keep p) =
        db.processes.rows.filter (fun p => p.backendAlias ≠ a.backendAlias) := by
      refine List.filter_congr fun p mem => ?_
      cases kept : keep p with
      | true => rw [Bool.and_true]
      | false => simp [dropped p mem kept]
    rw [sameRows]
    refine (List.map_congr_left fun p mem => ?_).trans (List.map_id _)
    obtain ⟨there, foreign⟩ := List.mem_filter.mp mem
    exact own p there (of_decide_eq_true foreign)

theorem touchProcessRow {id : Nat} (good : Accounts a hand owed w.db)
    (own : OwnProcessId a.backendAlias w.db id)
    (run : Runs (touchProcessRow id) w u w') : Accounts a hand owed w'.db := by
  obtain ⟨now, w₁, read, rest₁⟩ := Runs.of_bind run
  unfold OwnProcessId at own
  rw [← of_run_timezoneNow read] at good own
  rw [of_run_modifyDb rest₁]
  have touched := good.rewriteProcesses _
    (f := fun p => if p.id == id then { p with lastHeartbeatAt := now } else p)
    (fun p => by split <;> rfl) (fun p => by split <;> rfl)
    (fun p s supervised => by
      refine ⟨?_, fun _ _ _ => rfl⟩
      split at supervised <;> exact supervised)
    (fun _ _ _ _ _ => rfl) (fun _ _ impossible => by cases impossible)
    (fun p mem foreign => if_neg fun hit => foreign (own p mem (beq_iff_eq.mp hit)))
  rw [List.filter_true] at touched
  exact touched

/-- Processes of the backend are deleted; the claims and the processes that pointed to them point
to none. -/
theorem deleteProcessesWhere {p : Process → Bool} {n : Nat} (good : Accounts a hand owed w.db)
    (own : ∀ q ∈ w.db.processes.rows, p q = true → q.backendAlias = a.backendAlias)
    (run : Runs (deleteProcessesWhere p) w n w') : Accounts a hand owed w'.db := by
  obtain ⟨db, w₁, got, rest₁⟩ := Runs.of_bind run
  obtain ⟨rfl, rfl⟩ := of_run_getDb got
  obtain ⟨v₂, w₂, saved, rest₂⟩ := Runs.of_bind rest₁
  obtain ⟨v₃, w₃, nulled, done⟩ := Runs.of_bind rest₂
  obtain ⟨-, rfl⟩ := Runs.of_pure done
  rw [of_run_modifyDb nulled, of_run_saveProcesses saved]
  have deleted : ∀ q ∈ w₁.db.processes.rows,
      ((w₁.db.processes.rows.filter p).map Process.id).contains q.id = true → p q = true := by
    intro q mem hit
    obtain ⟨q', kept, same⟩ := List.mem_map.mp (List.contains_iff_mem.mp hit)
    obtain ⟨there, hit⟩ := List.mem_filter.mp kept
    rwa [← List.inj_on_of_nodup_map good.registry.processIds there mem same]
  generalize idsOf : (w₁.db.processes.rows.filter p).map Process.id = ids at deleted ⊢
  -- the claims first: a claim of a deleted process is of a job of the same backend
  have good₁ := good.updateRows (m := .claimed) (p := fun r => r.processId.any ids.contains)
    (f := fun r => { r with processId := none }) (fun _ => rfl) (fun _ => rfl)
    (fun r mem _ => by
      obtain ⟨job, ⟨i, known, same⟩, -⟩ := good.rowFits .claimed r mem
      exact ⟨job, ⟨i, known, ⟨same.backend, same.queue, same.key⟩⟩, by rintro id ⟨⟩⟩)
    (fun r mem hit => by
      obtain ⟨id, claimed, gone⟩ := (Option.any_eq_true _ _).mp hit
      obtain ⟨q, there, rfl, backend⟩ := (good.rowFits .claimed r mem).process id claimed
      obtain ⟨i, known, same⟩ := Option.map_eq_some_iff.mp backend
      rw [Audit.owns, known, Option.any_some, beq_iff_eq, same]
      exact own q there (deleted q there gone))
  have good₂ := good₁.rewriteProcesses (fun q => !ids.contains q.id)
    (f := fun q => if q.supervisorId.any ids.contains then { q with supervisorId := none } else q)
    (fun q => by split <;> rfl) (fun q => by split <;> rfl)
    (fun q s supervised => by
      split at supervised
      · cases supervised
      · rename_i kept
        refine ⟨supervised, fun boss there same => ?_⟩
        rw [Bool.not_eq_true', ← Bool.not_eq_true]
        intro hit
        refine kept ?_
        rw [supervised, Option.any_some, ← same]
        exact hit)
    (fun r mem q there claimed => by
      obtain ⟨old, inTable, rfl⟩ := List.mem_map.mp mem
      dsimp only at claimed
      split at claimed
      · cases claimed
      · rename_i kept
        rw [Bool.not_eq_true', ← Bool.not_eq_true]
        intro hit
        refine kept ?_
        rw [claimed, Option.any_some]
        exact hit)
    (fun q there gone => own q there (deleted q there (by simpa using gone)))
    (fun q there foreign => if_neg fun hit => by
      obtain ⟨s, supervised, gone⟩ := (Option.any_eq_true _ _).mp hit
      obtain ⟨boss, inTable, rfl, same⟩ := good.registry.supervisors q there s supervised
      exact foreign (same ▸ own boss inTable (deleted boss inTable gone)))
  -- the children lose their supervisor first, and keep their keys
  have order : (w₁.db.processes.updateWhere (fun q => q.supervisorId.any ids.contains)
      (fun q => { q with supervisorId := none })).deleteWhere (fun q => ids.contains q.id) =
      ⟨(w₁.db.processes.rows.filter (fun q => !ids.contains q.id)).map (fun q =>
        if q.supervisorId.any ids.contains then { q with supervisorId := none } else q),
        w₁.db.processes.nextId⟩ := by
    rw [Table.deleteWhere, Table.updateWhere, List.filter_map]
    congr 2
    apply List.filter_congr
    intro q _
    rw [Function.comp_apply]
    split <;> rfl
  dsimp only
  rw [order]
  exact good₂

/-- A process that leaves takes its children with it. -/
theorem deregisterProcess {id : Nat} (good : Accounts a hand owed w.db)
    (own : OwnProcessId a.backendAlias w.db id) (run : Runs (deregisterProcess id) w u w') :
    Accounts a hand owed w'.db := by
  obtain ⟨n, w₁, deleted, done⟩ := Runs.of_bind (Runs.of_atomic run)
  obtain ⟨-, rfl⟩ := Runs.of_pure done
  exact good.deleteProcessesWhere (fun q mem hit => own q mem (beq_iff_eq.mp hit)) deleted

/-! ## Lost processes -/

/-- The claims of a stale process are failed after the process is deleted. -/
theorem pruneLoop {cutoff : Time} {failure : Failure} :
    ∀ {stale : List Process} {remaining : Int} {pruned : List Process} {w : World},
      Accounts a hand owed w.db → Runs (pruneLoop a.env cutoff failure stale remaining) w pruned w' →
      Accounts a hand owed w'.db
  | [], remaining, pruned, w, good, run => by
      obtain ⟨-, rfl⟩ := Runs.of_pure run
      exact good
  | process :: rest, remaining, pruned, w, good, run => by
      obtain ⟨db, w₁, got, rest₁⟩ := Runs.of_bind run
      obtain ⟨rfl, rfl⟩ := of_run_getDb got
      obtain ⟨rows, w₂, sliced, rest₂⟩ := Runs.of_bind rest₁
      obtain ⟨taken, rfl⟩ := of_run_sliceTo sliced
      obtain ⟨n, w₃, deleted, rest₃⟩ := Runs.of_bind rest₂
      have good₃ := good.deleteProcessesWhere (fun q _ hit => by
        simp only [Bool.and_eq_true, beq_iff_eq] at hit
        exact hit.1.2) deleted
      split at rest₃
      · exact good₃.pruneLoop rest₃
      · obtain ⟨failed, w₄, fails, rest₄⟩ := Runs.of_bind rest₃
        -- the jobs were read before the process was deleted
        have good₄ := good₃.failClaimedJobs (fun j mem => by
          obtain ⟨r, inRows, rfl⟩ := List.mem_map.mp mem
          rw [taken] at inRows
          exact good.knows_of_selected (good.selected_orderBy .claimed
            (fun r => r.processId == some process.id) claimedIdOrder)
            (List.mem_of_mem_take inRows)) fails
        split at rest₄
        · obtain ⟨-, rfl⟩ := Runs.of_pure rest₄
          exact good₄
        · obtain ⟨pruned', w₅, loop, done⟩ := Runs.of_bind rest₄
          obtain ⟨-, rfl⟩ := Runs.of_pure done
          exact good₄.pruneLoop loop

theorem pruneStaleProcesses {cutoff : Time} {failure : Failure} {excluded : Option Nat}
    {batchSize : Int} {pruned : List Process} (good : Accounts a hand owed w.db)
    (run : Runs (pruneStaleProcesses a.env cutoff failure excluded batchSize) w pruned w') :
    Accounts a hand owed w'.db := by
  obtain ⟨db, w₁, got, rest₁⟩ := Runs.of_bind (Runs.of_atomic run)
  obtain ⟨rfl, rfl⟩ := of_run_getDb got
  obtain ⟨stale, w₂, sliced, loop⟩ := Runs.of_bind rest₁
  obtain ⟨-, rfl⟩ := of_run_sliceTo sliced
  exact good.pruneLoop loop

end Accounts

end DjQueue
