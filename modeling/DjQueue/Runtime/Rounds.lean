import DjQueue.Runtime.Housekeeping
import DjQueue.System.Invariants

/-!
# Rounds of housekeeping

What the parts of a round come to, what a round comes to, and what many do.  A round is never in
vain while something is left and nothing is in the way, so the stale processes and the dead claims,
which never get more, run out.
-/

namespace DjQueue

open Relational

/-! ## What each part comes to -/

namespace Housekeeping

variable {h : Housekeeping} {ids : List JobId} {id : Nat} {later : List Nat} {db db' : Db}

/-- The same processes, the same stale ones. -/
theorem staleIds_of_processes (h : Housekeeping) (same : db'.processes = db.processes) :
    h.staleIds db' = h.staleIds db := by
  unfold staleIds stale staleProcesses
  rw [same]

/-- Failing the claims of dead jobs is recovery. -/
theorem Recovers.of_failsClaims (fails : FailsClaims ids db db') (nodup : ids.Nodup)
    (dead : ∀ id ∈ ids, id ∈ h.deadJobs db)
    (released : ∀ j ∈ db.jobs, j.id ∈ ids → ¬ReleaseRaises h.env j) :
    h.Recovers ids [] db db' where
  jobs := fails.jobs
  stale := by rw [List.nil_append, staleIds_of_processes h fails.processes]
  processes := by rw [registered_nil, fails.processes]
  claimed := by
    rw [fails.claimed, List.map_congr_left fun r _ => r.orphanedBy_nil, List.map_id']
    rfl
  failed := fails.failed
  nodup := nodup
  dead := dead
  released := released
  separable before id after split := by cases before <;> cases split

/-- The stale process with the oldest heartbeat is deleted. -/
theorem Recovers.of_deletes (deletes : Deletes id db db') (first : h.staleIds db = id :: later)
    (processIds : (db.processes.rows.map Process.id).Nodup)
    (distinct : DistinctIdentities (db.processes.rows.map (Process.orphanedBy [id]))) :
    h.Recovers [] [id] db db' where
  jobs := deletes.jobs
  stale := by
    have nodup : (h.staleIds db).Nodup := nodup_staleIds processIds
    have left := staleIds_registered h deletes.processes
    rw [first] at left nodup
    have others : (id :: later).filter (fun i => !([id] : List Nat).contains i) = later := by
      rw [List.filter_cons_of_neg (by simp)]
      apply List.filter_eq_self.mpr
      intro i mem
      have ne : i ≠ id := fun same => (List.nodup_cons.mp nodup).1 (same ▸ mem)
      simpa using ne
    rw [left, others, first]
    rfl
  processes := deletes.processes
  claimed := by
    rw [deletes.claimed]
    congr 1
    exact (List.filter_eq_self.mpr fun r _ => rfl).symm
  failed := ⟨[], by rw [deletes.failed, List.append_nil], rfl⟩
  nodup := List.nodup_nil
  dead id mem := absurd mem List.not_mem_nil
  released j _ mem := absurd mem List.not_mem_nil
  separable before id' after split := by
    cases before with
    | nil =>
        cases split
        rw [registered_nil]
        exact distinct
    | cons x before =>
        have empty := (List.cons.inj split).2
        cases before <;> cases empty

end Housekeeping

namespace Accounts

variable {a : Audit} {h : Housekeeping} {w : World} {db : Db}

/-- A claim of a process is on a job of its backend. -/
theorem backend_of_claimed (good : Accounts a [] 0 db) {r : ClaimedExecution} {p : Process}
    {j : Job} (there : r ∈ db.claimed.rows) (registered : p ∈ db.processes.rows)
    (claimed : r.processId = some p.id) (found : db.findJob r.jobId = some j) :
    j.backendAlias = p.backendAlias := by
  rcases (good.rowFits .claimed r there).process p.id claimed with ⟨q, inTable, same, backend⟩
  cases List.inj_on_of_nodup_map good.registry.processIds inTable registered same
  rcases mem_of_findJob found with ⟨inJobs, id⟩
  have known := (good.knows j inJobs).identity
  rw [id] at known
  have there : (a.known r.jobId).map Identity.backendAlias = some p.backendAlias := backend
  rw [known] at there
  exact Option.some.inj there

end Accounts

theorem id_orphanedBy (gone : List Nat) (r : ClaimedExecution) : (r.orphanedBy gone).id = r.id := by
  unfold ClaimedExecution.orphanedBy
  split <;> rfl

/-- The same claims, once processes are gone. -/
theorem Selected.orphaned {db db' : Db} {gone : List Nat} {rows : List (ClaimedExecution × Job)}
    (selected : Selected (m := .claimed) db rows) (jobs : db'.jobs = db.jobs)
    (claimed : db'.claimed.rows = db.claimed.rows.map (ClaimedExecution.orphanedBy gone)) :
    Selected (m := .claimed) db' (rows.map (fun r => (r.1.orphanedBy gone, r.2))) := by
  constructor
  · intro r mem
    rcases List.mem_map.mp mem with ⟨before, inRows, rfl⟩
    have there : before.1.orphanedBy gone ∈ db'.claimed.rows := by
      rw [claimed]
      exact List.mem_map_of_mem (selected.mem before inRows)
    exact there
  · intro r mem
    rcases List.mem_map.mp mem with ⟨before, inRows, rfl⟩
    have found : db.findJob before.1.jobId = some before.2 := selected.job before inRows
    have still : db'.findJob (before.1.orphanedBy gone).jobId = some before.2 := by
      rw [jobId_orphanedBy, Db.findJob, jobs]
      exact found
    exact still
  · have nodup : (rows.map (fun r => r.1.id)).Nodup := selected.nodup
    have keys : (rows.map (fun r => (r.1.orphanedBy gone, r.2))).map (fun r => r.1.id) =
        rows.map (fun r => r.1.id) := by
      rw [List.map_map]
      exact List.map_congr_left fun r _ => id_orphanedBy gone r.1
    rw [← keys] at nodup
    exact nodup

/-- A slice to a length that is not negative. -/
theorem runs_sliceTo {α : Type} {n : Int} (enough : 0 ≤ n) (rows : List α) (w : World) :
    Runs (sliceTo n rows) w (rows.take n.toNat) w := by
  unfold sliceTo
  rw [if_neg (by omega)]
  exact runs_pure _ _

namespace Housekeeping

variable {a : Audit} {h : Housekeeping} {w : World} {db : Db}

/-- Failing selected dead claims. -/
theorem failSelected_outcome (good : Accounts a [] 0 w.db) (untracked : a.tracked = none)
    (same : a.env = h.env) {rows : List (ClaimedExecution × Job)}
    (selected : Selected (m := .claimed) w.db rows)
    (dead : ∀ r ∈ rows, h.isDead w.db r.1 = true) (failure : Failure) :
    (∃ w', Runs (failClaimedJobs h.env (rows.map Prod.snd) failure) w (rows.map Prod.snd)
        w' ∧ Accounts a [] 0 w'.db ∧ h.Recovers (rows.map (fun r => r.2.id)) [] w.db w'.db ∧
        (h.InRange w → h.InRange w')) ∨
      (∃ e, Fails (failClaimedJobs h.env (rows.map Prod.snd) failure) w e) ∧
        (h.InRange w → ¬h.Recoverable w.db) := by
  have ids : (rows.map Prod.snd).map Job.id = rows.map (fun r => r.2.id) := by
    rw [List.map_map]
    rfl
  have nodup := good.nodup_of_selected selected
  have deadJobs : ∀ id ∈ rows.map (fun r => r.2.id), id ∈ h.deadJobs w.db := by
    intro id mem
    rcases List.mem_map.mp mem with ⟨r, inRows, rfl⟩
    rw [selected.id_eq inRows]
    exact List.mem_map.mpr ⟨r.1, List.mem_filter.mpr ⟨selected.mem r inRows, dead r inRows⟩, rfl⟩
  have isDead : ∀ j ∈ rows.map Prod.snd, j.id ∈ h.deadJobs w.db := by
    intro j mem
    rcases List.mem_map.mp mem with ⟨r, inRows, rfl⟩
    exact deadJobs _ (List.mem_map.mpr ⟨r, inRows, rfl⟩)
  have there : ∀ j ∈ rows.map Prod.snd, j ∈ w.db.jobs := by
    intro j mem
    rcases List.mem_map.mp mem with ⟨r, inRows, rfl⟩
    exact (mem_of_findJob (selected.job r inRows)).1
  have own : ∀ j ∈ rows.map Prod.snd, j.backendAlias = a.backendAlias := by
    intro j mem
    rcases List.mem_map.mp mem with ⟨r, inRows, rfl⟩
    have owned := (Bool.and_eq_true_iff.mp (dead r inRows)).1
    have found : w.db.findJob r.1.jobId = some r.2 := selected.job r inRows
    rw [found, Option.any_some, beq_iff_eq, ← same] at owned
    exact owned
  have claimed : ∀ j ∈ rows.map Prod.snd, j.id ∈ w.db.stateJobIds .claimed := by
    intro j mem
    rcases List.mem_map.mp mem with ⟨r, inRows, rfl⟩
    rw [selected.id_eq inRows]
    exact List.mem_map.mpr ⟨r.1, selected.mem r inRows, rfl⟩
  rw [← same]
  rcases good.failClaimedJobs_outcome untracked there own claimed (ids ▸ nodup) failure with
    ⟨w', run, good', fails, given, quiet⟩ | ⟨e, fails, j, mem, holds, obstacle⟩
  · rw [ids] at fails
    have recovers : h.Recovers (rows.map (fun r => r.2.id)) [] w.db w'.db := by
      refine .of_failsClaims fails nodup deadJobs fun j mem failed => ?_
      rcases List.mem_map.mp failed with ⟨r, inRows, sameId⟩
      have inTable := there r.2 (List.mem_map_of_mem inRows)
      cases List.inj_on_of_nodup_map good.jobIds inTable mem sameId
      exact same ▸ quiet r.2 (List.mem_map_of_mem inRows)
    rw [same] at given
    refine .inl ⟨w', run, good', recovers, fun inRange => recovers.inRange given.ticks ?_ inRange⟩
    refine given.countable (fun j mem holds => ?_) inRange.countable
    exact (inRange.jobs j (there j mem) (isDead j mem) holds).1
  · refine .inr ⟨⟨e, fails⟩, fun inRange recoverable => ?_⟩
    have inside := inRange.jobs j (there j mem) (isDead j mem) holds
    rw [same] at obstacle
    cases obstacle with
    | policy raises => exact recoverable.releasable j (there j mem) (isDead j mem) ⟨holds, e, raises⟩
    | deadline n beyond =>
        rw [inside.2 n] at beyond
        cases beyond
    | range beyond => exact beyond ⟨inRange.countable, inside.1⟩

/-- The dead claims without a process, the first ones by key. -/
theorem failOrphaned_outcome (good : Accounts a [] 0 w.db) (untracked : a.tracked = none)
    (same : a.env = h.env) (batch : 1 ≤ h.batchSize) :
    (∃ jobs w' ids, Runs (failOrphanedClaimedJobs h.env h.orphaned h.batchSize) w jobs w' ∧
        Accounts a [] 0 w'.db ∧ h.Recovers ids [] w.db w'.db ∧ jobs.length = ids.length ∧
        (ids.length : Int) ≤ h.batchSize ∧ (h.InRange w → h.InRange w') ∧
        (ids = [] → ∀ r ∈ w.db.claimed.rows, h.isDead w.db r = true → r.processId ≠ none)) ∨
      (∃ e, Fails (failOrphanedClaimedJobs h.env h.orphaned h.batchSize) w e) ∧
        (h.InRange w → ¬h.Recoverable w.db) := by
  have orphans := good.selected_orderBy .claimed (fun r => r.processId.isNone) claimedIdOrder
  have slice := runs_sliceTo (n := h.batchSize) (by omega)
    ((selectRelatedJob (m := .claimed) w.db (orderBy claimedIdOrder
      (w.db.claimed.rows.filter (fun r => r.processId.isNone)))).filter
        (fun r => r.2.backendAlias == h.env.config.backendAlias)) w
  generalize listed : (selectRelatedJob (m := .claimed) w.db (orderBy claimedIdOrder
    (w.db.claimed.rows.filter (fun r => r.processId.isNone)))).filter
      (fun r => r.2.backendAlias == h.env.config.backendAlias) = rows at slice
  have selected : Selected (m := .claimed) w.db (rows.take h.batchSize.toNat) := by
    rw [← listed]
    exact orphans.sublist ((List.take_sublist _ _).trans List.filter_sublist)
  have dead : ∀ r ∈ rows.take h.batchSize.toNat, h.isDead w.db r.1 = true := by
    intro r mem
    have inRows := List.mem_of_mem_take mem
    rw [← listed] at inRows
    rcases List.mem_filter.mp inRows with ⟨related, own⟩
    rcases mem_selectRelatedJob.mp related with ⟨ordered, found⟩
    rcases List.mem_filter.mp (mem_orderBy.mp ordered) with ⟨-, orphan⟩
    have found : w.db.findJob r.1.jobId = some r.2 := found
    rw [isDead, found, Option.any_some, own, Option.isNone_iff_eq_none.mp orphan]
    rfl
  unfold failOrphanedClaimedJobs
  rcases failSelected_outcome good untracked same selected dead h.orphaned with
    ⟨w', run, good', recovers, inRange⟩ | ⟨⟨e, fails⟩, stuck⟩
  · refine .inl ⟨(rows.take h.batchSize.toNat).map Prod.snd, w', _,
      runs_atomic (Runs.bind (runs_getDb w) ?_), good', recovers, ?_, ?_, inRange, ?_⟩
    · dsimp only
      rw [listed]
      exact Runs.bind slice run
    · rw [List.length_map, List.length_map]
    · rw [List.length_map, List.length_take]
      omega
    · intro none r inTable dead orphan
      have owned := (Bool.and_eq_true_iff.mp dead).1
      rcases (Option.any_eq_true _ _).mp owned with ⟨j, found, own⟩
      have related : (r, j) ∈ rows := by
        rw [← listed, List.mem_filter, mem_selectRelatedJob, mem_orderBy, List.mem_filter]
        exact ⟨⟨⟨inTable, by rw [orphan]; rfl⟩, found⟩, own⟩
      have empty : rows.take h.batchSize.toNat = [] := List.map_eq_nil_iff.mp none
      rcases List.take_eq_nil_iff.mp empty with zero | empty
      · omega
      · rw [empty] at related
        cases related
  · refine .inr ⟨⟨e, Fails.transactionAtomic (Runs.bind_fails (runs_getDb w) ?_)⟩, stuck⟩
    dsimp only
    rw [listed]
    exact Runs.bind_fails slice fails

/-- The process whose turn it is, as the statement that deletes it finds it. -/
theorem filter_stale (good : Accounts a [] 0 w.db) {id : Nat} (late : id ∈ h.staleIds w.db) :
    (w.db.processes.rows.filter (fun p => p.id == id &&
      p.backendAlias == h.env.config.backendAlias && decide (p.lastHeartbeatAt < h.cutoff))).map
        Process.id = [id] := by
  rcases mem_staleIds.mp late with ⟨p, there, rfl, own, heartbeat, -⟩
  have ids := good.registry.processIds
  have only : w.db.processes.rows.filter (fun q => q.id == p.id &&
      q.backendAlias == h.env.config.backendAlias && decide (q.lastHeartbeatAt < h.cutoff)) =
        w.db.processes.rows.filter (fun q => q.id == p.id) := by
    apply List.filter_congr
    intro q inTable
    cases same : q.id == p.id with
    | false => rfl
    | true =>
        cases List.inj_on_of_nodup_map ids inTable there (beq_iff_eq.mp same)
        simp [own, heartbeat]
  have once : (w.db.processes.rows.map Process.id).filter (fun i => i == p.id) = [p.id] := by
    rw [List.filter_beq, List.count_eq_one_of_mem ids (List.mem_map_of_mem there)]
    rfl
  rw [only, ← once, List.filter_map]
  rfl

/-- The claims of a stale process, the first ones by key, read before the process is deleted. -/
theorem selected_stale (good : Accounts a [] 0 w.db) {id : Nat}
    (late : id ∈ h.staleIds w.db) (n : Nat) {db' : Db} (deletes : Deletes id w.db db')
    (recovers : h.Recovers [] [id] w.db db') :
    Selected (m := .claimed) db' (((selectRelatedJob (m := .claimed) w.db (orderBy claimedIdOrder
      (w.db.claimed.rows.filter (fun r => r.processId == some id)))).take n).map
        (fun r => (r.1.orphanedBy [id], r.2))) ∧
      ∀ r ∈ ((selectRelatedJob (m := .claimed) w.db (orderBy claimedIdOrder
        (w.db.claimed.rows.filter (fun r => r.processId == some id)))).take n).map
          (fun r => (r.1.orphanedBy [id], r.2)), h.isDead db' r.1 = true := by
  have claims := good.selected_orderBy .claimed (fun r => r.processId == some id) claimedIdOrder
  have selected := claims.sublist (List.take_sublist n _)
  constructor
  · exact selected.orphaned deletes.jobs deletes.claimed
  · intro r mem
    rcases List.mem_map.mp mem with ⟨before, inRows, rfl⟩
    rw [recovers.isDead_orphanedBy]
    rcases mem_selectRelatedJob.mp (List.mem_of_mem_take inRows) with ⟨ordered, found⟩
    rcases List.mem_filter.mp (mem_orderBy.mp ordered) with ⟨there, held⟩
    have held : before.1.processId = some id := beq_iff_eq.mp held
    have found : w.db.findJob before.1.jobId = some before.2 := found
    rcases mem_staleIds.mp late with ⟨p, registered, rfl, own, -, -⟩
    have backend := good.backend_of_claimed there registered held found
    rw [isDead, found, held, Option.any_some, backend, own, Option.all_some,
      List.contains_iff_mem.mpr late, beq_self_eq_true]
    rfl

/-- The first process of the loop is deleted and its claims are failed, as far as the batch goes; or
one of the two fails, and the loop with it. -/
theorem pruneOne_outcome (untracked : a.tracked = none) (same : a.env = h.env) {process : Process}
    {rest : List Process} {later : List Nat} {remaining : Int} (positive : 0 < remaining)
    (good : Accounts a [] 0 w.db)
    (order : h.staleIds w.db = (process :: rest).map Process.id ++ later) :
    (∃ rows w₁ w₂ ids,
      Runs (staleClaims w.db process.id remaining) w rows w ∧
        Runs (DjQueue.deleteProcessesWhere (fun p => p.id == process.id &&
          p.backendAlias == h.env.config.backendAlias && p.lastHeartbeatAt < h.cutoff)) w 1 w₁ ∧
        Runs (failClaimedJobs h.env (rows.map Prod.snd) h.pruned) w₁ (rows.map Prod.snd) w₂ ∧
        Accounts a [] 0 w₂.db ∧ h.Recovers ids [process.id] w.db w₂.db ∧
        ids.length = rows.length ∧ (rows.length : Int) ≤ remaining ∧
        (h.InRange w → h.InRange w₂)) ∨
      (∃ e, Fails (pruneLoop h.env h.cutoff h.pruned (process :: rest) remaining) w e) ∧
        (h.InRange w → ¬h.Recoverable w.db) := by
  have late : process.id ∈ h.staleIds w.db := by
    rw [order]
    exact List.mem_cons_self
  have slice := runs_sliceTo positive.le (selectRelatedJob (m := .claimed) w.db (orderBy
    claimedIdOrder (w.db.claimed.rows.filter (fun r => r.processId == some process.id)))) w
  rcases deleteProcessesWhere_outcome (w := w) (filter_stale good late) with
    ⟨distinct, w₁, deleted, deletes⟩ | ⟨clash, e, fails⟩
  · have recovers₁ : h.Recovers [] [process.id] w.db w₁.db :=
      .of_deletes deletes order good.registry.processIds distinct
    have good₁ : Accounts a [] 0 w₁.db := by
      apply good.deleteProcessesWhere _ deleted
      intro q _ hit
      simp only [Bool.and_eq_true, beq_iff_eq] at hit
      exact hit.1.2.trans (congrArg (fun env => env.config.backendAlias) same.symm)
    have inRange₁ : h.InRange w → h.InRange w₁ := fun inRange => by
      refine recovers₁.inRange ((Advances.deleteProcessesWhere _).of_run deleted) ?_ inRange
      rw [semaphores_of_deleteProcessesWhere deleted]
      exact inRange.countable
    rcases selected_stale good late remaining.toNat deletes recovers₁ with ⟨selected, dead⟩
    generalize taken : (selectRelatedJob (m := .claimed) w.db (orderBy claimedIdOrder
      (w.db.claimed.rows.filter (fun r => r.processId == some process.id)))).take
        remaining.toNat = rows at slice selected dead
    have few : (rows.length : Int) ≤ remaining := by
      rw [← taken, List.length_take]
      omega
    have jobs : (rows.map (fun r => (r.1.orphanedBy [process.id], r.2))).map Prod.snd =
        rows.map Prod.snd := by
      rw [List.map_map]
      rfl
    rcases failSelected_outcome good₁ untracked same selected dead h.pruned with
      ⟨w₂, failed, good₂, recovers₂, inRange₂⟩ | ⟨⟨e, fails⟩, stuck⟩
    · rw [jobs] at failed
      refine .inl ⟨rows, w₁, w₂, _, slice, deleted, failed, good₂, recovers₁.trans recovers₂,
        ?_, few, inRange₂ ∘ inRange₁⟩
      rw [List.nil_append, List.length_map, List.length_map]
    · rw [jobs] at fails
      refine .inr ⟨⟨e, Runs.bind_fails (runs_getDb w) (Runs.bind_fails slice
        (Runs.bind_fails deleted ?_))⟩, fun inRange recoverable => ?_⟩
      · rw [if_neg Nat.one_ne_zero]
        exact Fails.bind fails
      · exact stuck (inRange₁ inRange) (recovers₁.recoverable_iff.mp recoverable)
  · refine .inr ⟨⟨e, Runs.bind_fails (runs_getDb w) (Runs.bind_fails slice (Fails.bind fails))⟩,
      fun _ recoverable => clash ?_⟩
    have turn := recoverable.separable [] process.id (rest.map Process.id ++ later) order
    rw [registered_nil] at turn
    exact turn

/-- The stale processes whose turn comes, with their claims, as far as the batch goes. -/
theorem pruneLoop_outcome (untracked : a.tracked = none) (same : a.env = h.env) :
    ∀ (stale : List Process) {later : List Nat} (remaining : Int) {w : World}, 0 < remaining →
      Accounts a [] 0 w.db → h.staleIds w.db = stale.map Process.id ++ later →
      (∃ pruned w' ids gone,
        Runs (pruneLoop h.env h.cutoff h.pruned stale remaining) w pruned w' ∧
          Accounts a [] 0 w'.db ∧ h.Recovers ids gone w.db w'.db ∧
          (ids.length : Int) ≤ remaining ∧ (h.InRange w → h.InRange w') ∧
          (gone = [] → stale = [])) ∨
        (∃ e, Fails (pruneLoop h.env h.cutoff h.pruned stale remaining) w e) ∧
          (h.InRange w → ¬h.Recoverable w.db)
  | [], _, remaining, w, positive, good, _ =>
      .inl ⟨[], w, [], [], runs_pure _ _, good, .refl h w.db, by simpa using positive.le, id,
        fun _ => rfl⟩
  | process :: rest, later, remaining, w, positive, good, order => by
      rcases pruneOne_outcome untracked same positive good order with
        ⟨rows, w₁, w₂, ids₁, slice, deleted, failed, good₂, recovers, length, few, inRange₂⟩ |
          stuck
      · have order₂ : h.staleIds w₂.db = rest.map Process.id ++ later := by
          have all := recovers.stale
          rw [order] at all
          exact (List.cons.inj all).2.symm
        unfold pruneLoop
        by_cases spent : remaining - rows.length = 0
        · refine .inl ⟨[process], w₂, ids₁, _, Runs.bind (runs_getDb w) (Runs.bind slice
            (Runs.bind deleted ?_)), good₂, recovers, by omega, inRange₂, nofun⟩
          rw [if_neg Nat.one_ne_zero]
          refine Runs.bind failed ?_
          rw [if_pos spent]
          exact runs_pure _ _
        · rcases pruneLoop_outcome untracked same rest (remaining - rows.length)
            (by omega) good₂ order₂ with
            ⟨pruned, w₃, ids, gone, loop, good₃, recovers₃, some, inRange₃, -⟩ |
              ⟨⟨e, fails⟩, stuck⟩
          · refine .inl ⟨process :: pruned, w₃, _, _, Runs.bind (runs_getDb w) (Runs.bind slice
              (Runs.bind deleted ?_)), good₃, recovers.trans recovers₃, ?_,
              inRange₃ ∘ inRange₂, nofun⟩
            · rw [if_neg Nat.one_ne_zero]
              refine Runs.bind failed ?_
              rw [if_neg spent]
              exact Runs.bind loop (runs_pure _ _)
            · rw [List.length_append]
              omega
          · refine .inr ⟨⟨e, Runs.bind_fails (runs_getDb w) (Runs.bind_fails slice
              (Runs.bind_fails deleted ?_))⟩, fun inRange recoverable => ?_⟩
            · rw [if_neg Nat.one_ne_zero]
              refine Runs.bind_fails failed ?_
              rw [if_neg spent]
              exact Fails.bind fails
            · exact stuck (inRange₂ inRange) (recovers.recoverable_iff.mp recoverable)
      · exact .inr stuck

/-- `prune_stale_processes` recovers, or nothing is changed. -/
theorem pruneStale_outcome (good : Accounts a [] 0 w.db) (untracked : a.tracked = none)
    (same : a.env = h.env) {batch : Int} (positive : 0 < batch) :
    (∃ pruned w' ids gone,
      Runs (pruneStaleProcesses h.env h.cutoff h.pruned h.excluded batch) w pruned w' ∧
        Accounts a [] 0 w'.db ∧ h.Recovers ids gone w.db w'.db ∧ (ids.length : Int) ≤ batch ∧
        (h.InRange w → h.InRange w') ∧ (gone = [] → h.staleIds w.db = [])) ∨
      (∃ e, Fails (pruneStaleProcesses h.env h.cutoff h.pruned h.excluded batch) w e) ∧
        (h.InRange w → ¬h.Recoverable w.db) := by
  have order : h.staleIds w.db = ((h.stale w.db).take batch.toNat).map Process.id ++
      ((h.stale w.db).drop batch.toNat).map Process.id := by
    rw [← List.map_append, List.take_append_drop]
    rfl
  have slice := runs_sliceTo positive.le (h.stale w.db) w
  unfold pruneStaleProcesses
  rcases pruneLoop_outcome untracked same _ batch positive good order with
    ⟨pruned, w', ids, gone, loop, good', recovers, few, inRange, some⟩ | ⟨⟨e, fails⟩, stuck⟩
  · refine .inl ⟨pruned, w', ids, gone, runs_atomic (Runs.bind (runs_getDb w)
      (Runs.bind slice loop)), good', recovers, few, inRange, fun none => ?_⟩
    rcases List.take_eq_nil_iff.mp (some none) with zero | empty
    · omega
    · rw [staleIds, empty, List.map_nil]
  · exact .inr ⟨⟨e, Fails.transactionAtomic (Runs.bind_fails (runs_getDb w)
      (Runs.bind_fails slice fails))⟩, stuck⟩

/-! ## Rounds -/

/-- Without orphans and stale processes there is nothing left to recover. -/
theorem drained_of_none (processes : h.staleIds db = [])
    (orphans : ∀ r ∈ db.claimed.rows, h.isDead db r = true → r.processId ≠ none) :
    h.Drained db where
  processes := List.map_eq_nil_iff.mp processes
  claims := by
    rw [deadJobs, List.map_eq_nil_iff, List.filter_eq_nil_iff]
    intro r there dead
    have lost := (Bool.and_eq_true_iff.mp dead).2
    rw [processes] at lost
    cases holder : r.processId with
    | none => exact orphans r there dead holder
    | some id =>
        rw [holder] at lost
        cases lost

/-- A transaction that raises leaves nothing behind. -/
theorem db_of_fails_transactionAtomic {α : Type} {x : Op α} {e : PyError}
    (fails : Fails (transactionAtomic x) w e) :
    (finalState (transactionAtomic x) w).db = w.db := by
  rcases fails with ⟨w', raised⟩
  have final : finalState (transactionAtomic x) w = w' := by
    simp only [finalState, show transactionAtomic x w = .error e w' from raised]
  rw [final]
  exact db_of_raises_transactionAtomic raised

/-- What fails leaves the state to be read. -/
theorem finalState_bind_of_fails {α β : Type} {x : Op α} {e : PyError} (f : α → Op β)
    (fails : Fails x w e) : finalState (x >>= f) w = finalState x w := by
  rcases fails with ⟨w', raised⟩
  have both : Raises (x >>= f) w e w' := raised.bind
  simp only [finalState, show x w = .error e w' from raised,
    show (x >>= f) w = .error e w' from both]

theorem finalState_round (h : Housekeeping) (w : World) :
    finalState h.round w = finalState h.recover w := by
  unfold round finalState
  simp only [tryCatch, tryCatchThe, MonadExceptOf.tryCatch, EStateM.tryCatch]
  cases h.recover w <;> rfl

theorem advances_round (h : Housekeeping) : Advances h.round := by
  refine .tryCatch ?_ fun _ => .pure _
  refine .bind (.failOrphanedClaimedJobs h.env h.orphaned h.batchSize) fun failed => ?_
  dsimp only
  split
  · exact .pruneStaleProcesses h.env h.cutoff h.pruned h.excluded _
  · exact .pure _

/-- What a round comes to, and that it is not in vain. -/
theorem round_outcome (good : Accounts a [] 0 w.db) (untracked : a.tracked = none)
    (same : a.env = h.env) (batch : 1 ≤ h.batchSize) :
    ∃ ids gone, Accounts a [] 0 (finalState h.round w).db ∧
      h.Recovers ids gone w.db (finalState h.round w).db ∧ (ids.length : Int) ≤ h.batchSize ∧
      (h.InRange w → h.InRange (finalState h.round w)) ∧
      (h.InRange w → h.Recoverable w.db → ids = [] → gone = [] → h.Drained w.db) := by
  have ticks := advances_round h w
  rw [finalState_round] at ticks ⊢
  unfold recover at ticks ⊢
  rcases failOrphaned_outcome good untracked same batch with
    ⟨jobs, w₁, ids, run, good₁, recovers₁, length, few, inRange₁, orphans⟩ | ⟨⟨e, fails⟩, stuck⟩
  · rw [run.finalState_bind] at ticks ⊢
    dsimp only at ticks ⊢
    by_cases more : h.batchSize - jobs.length > 0
    · rw [if_pos more] at ticks ⊢
      rcases pruneStale_outcome good₁ untracked same more with
        ⟨pruned, w₂, ids', gone, prune, good₂, recovers₂, few', inRange₂, stale⟩ |
          ⟨⟨e, fails⟩, stuck⟩
      · rw [prune.finalState_eq]
        refine ⟨_, _, good₂, recovers₁.trans recovers₂, ?_, inRange₂ ∘ inRange₁,
          fun _ _ none unpruned => ?_⟩
        · rw [List.length_append]
          omega
        · rcases List.append_eq_nil_iff.mp none with ⟨rfl, rfl⟩
          have first := recovers₁.stale
          rw [List.nil_append, stale unpruned] at first
          exact drained_of_none first (orphans rfl)
      · have kept : (finalState (pruneStaleProcesses h.env h.cutoff h.pruned h.excluded
            (h.batchSize - jobs.length)) w₁).db = w₁.db := db_of_fails_transactionAtomic fails
        have recovers : h.Recovers ids [] w.db (finalState (pruneStaleProcesses h.env h.cutoff
            h.pruned h.excluded (h.batchSize - jobs.length)) w₁).db := kept.symm ▸ recovers₁
        refine ⟨ids, [], kept ▸ good₁, recovers, few, fun inRange => ?_,
          fun inRange recoverable => ?_⟩
        · exact recovers.inRange ticks (kept.symm ▸ (inRange₁ inRange).countable) inRange
        · exact absurd (recovers₁.recoverable_iff.mp recoverable) (stuck (inRange₁ inRange))
    · rw [if_neg more]
      refine ⟨ids, [], good₁, recovers₁, few, inRange₁, fun _ _ none => ?_⟩
      rw [none] at length
      rw [length] at more
      simp at more
      omega
  · have kept : (finalState (failOrphanedClaimedJobs h.env h.orphaned h.batchSize) w).db = w.db :=
      db_of_fails_transactionAtomic fails
    rw [finalState_bind_of_fails _ fails] at ticks ⊢
    have nothing : h.Recovers [] [] w.db
        (finalState (failOrphanedClaimedJobs h.env h.orphaned h.batchSize) w).db :=
      kept.symm ▸ .refl h w.db
    refine ⟨[], [], kept.symm ▸ good, nothing, by simp; omega, fun inRange => ?_,
      fun inRange recoverable => absurd recoverable (stuck inRange)⟩
    exact nothing.inRange ticks (kept.symm ▸ inRange.countable) inRange

/-- What has changed after some rounds. -/
theorem rounds_outcome (untracked : a.tracked = none) (same : a.env = h.env)
    (batch : 1 ≤ h.batchSize) : ∀ (n : Nat) {w : World}, Accounts a [] 0 w.db →
    ∃ ids gone, Accounts a [] 0 (h.rounds n w).db ∧ h.Recovers ids gone w.db (h.rounds n w).db
  | 0, w, good => ⟨[], [], good, .refl h w.db⟩
  | n + 1, w, good => by
      rcases round_outcome good untracked same batch with ⟨ids, gone, good₁, recovers₁, -, -, -⟩
      rcases rounds_outcome untracked same batch n good₁ with ⟨ids', gone', good₂, recovers₂⟩
      exact ⟨ids ++ ids', gone ++ gone', good₂, recovers₁.trans recovers₂⟩

/-- Each round that does not find everything drained has fewer stale processes or dead claims
ahead of it. -/
theorem rounds_drain (untracked : a.tracked = none) (same : a.env = h.env)
    (batch : 1 ≤ h.batchSize) : ∀ (n : Nat) {w : World}, Accounts a [] 0 w.db →
    h.InRange w → h.Recoverable w.db →
    (h.staleIds w.db).length + (h.deadJobs w.db).length ≤ n → h.Drained (h.rounds n w).db
  | 0, w, good, _, recoverable, few => by
      have processes : (h.staleIds w.db).length = 0 := by omega
      have claims : (h.deadJobs w.db).length = 0 := by omega
      exact ⟨List.map_eq_nil_iff.mp (List.length_eq_zero_iff.mp processes),
        List.length_eq_zero_iff.mp claims⟩
  | n + 1, w, good, inRange, recoverable, few => by
      rcases round_outcome good untracked same batch with
        ⟨ids, gone, good₁, recovers, -, inRange₁, progress⟩
      have left := recovers.recoverable_iff.mp recoverable
      have processes := congrArg List.length recovers.stale
      have claims := (recovers.deadJobs_perm (good.stateJobIds_nodup .claimed)).length_eq
      rw [List.length_append] at processes claims
      apply rounds_drain untracked same batch n good₁ (inRange₁ inRange) left
      by_cases none : ids.length + gone.length = 0
      · have drained := progress inRange recoverable (List.length_eq_zero_iff.mp (by omega))
          (List.length_eq_zero_iff.mp (by omega))
        have noProcess : (h.staleIds w.db).length = 0 := by
          rw [staleIds, drained.processes]
          rfl
        have noClaim : (h.deadJobs w.db).length = 0 := by
          rw [drained.claims]
          rfl
        omega
      · omega

/-- Where everything is drained nothing is in the way. -/
theorem Drained.recoverable (drained : h.Drained db) : h.Recoverable db where
  releasable j _ dead := by
    rw [drained.claims] at dead
    cases dead
  separable before id after split := by
    rw [staleIds, drained.processes] at split
    cases before <;> cases split

/-! ## The claims of live processes -/

/-- Claims that are not dead stay as they are. -/
theorem Recovers.live {ids : List JobId} {gone : List Nat} {db' : Db}
    (recovers : h.Recovers ids gone db db') (good : Accounts a [] 0 db)
    {r : ClaimedExecution} (there : r ∈ db.claimed.rows) (live : h.isDead db r = false) :
    r ∈ db'.claimed.rows := by
  have claims : (db.claimed.rows.map ClaimedExecution.jobId).Nodup :=
    good.stateJobIds_nodup .claimed
  have stays : (!ids.contains r.jobId) = true := by
    rw [Bool.not_eq_true', ← Bool.not_eq_true, List.contains_iff_mem]
    intro failed
    rcases List.mem_map.mp (recovers.dead r.jobId failed) with ⟨other, dead, same⟩
    rcases List.mem_filter.mp dead with ⟨inTable, dead⟩
    cases List.inj_on_of_nodup_map claims inTable there same
    rw [live] at dead
    cases dead
  have holder : r.orphanedBy gone = r := by
    unfold ClaimedExecution.orphanedBy
    apply if_neg
    intro lost
    rcases (Option.any_eq_true _ _).mp lost with ⟨id, held, gone'⟩
    have late : id ∈ h.staleIds db := by
      rw [recovers.stale]
      exact List.mem_append_left _ (List.contains_iff_mem.mp gone')
    rcases mem_staleIds.mp late with ⟨p, registered, rfl, own, -, -⟩
    rcases List.mem_map.mp (good.rowFits .claimed r there).job with ⟨j, inJobs, same⟩
    have found : db.findJob r.jobId = some j := by
      have sameId : j.id = r.jobId := same
      rw [← sameId]
      exact good.findJob_of_mem inJobs
    have backend := good.backend_of_claimed there registered held found
    rw [isDead, found, held, Option.any_some, backend, own, Option.all_some,
      List.contains_iff_mem.mpr late, beq_self_eq_true] at live
    cases live
  rw [recovers.claimed, ← holder]
  exact List.mem_map_of_mem (List.mem_filter.mpr ⟨there, stays⟩)

/-- A round fails no more jobs than the batch, all of them of dead claims, and leaves the claims of
live processes alone. -/
structure SafeRound (h : Housekeeping) (db db' : Db) : Prop where
  failed : ∃ rows, db'.failed.rows = db.failed.rows ++ rows ∧
    (rows.length : Int) ≤ h.batchSize ∧ ∀ r ∈ rows, r.jobId ∈ h.deadJobs db
  live : ∀ r ∈ db.claimed.rows, h.isDead db r = false → r ∈ db'.claimed.rows

/-- Rounds are safe, and where what they compute is in range they drain the dead claims, each failed
once, exactly where nothing is in the way: a slot whose policy cannot be looked up, or two processes
left with one identity. -/
theorem housekeeping_drains_iff (h : Housekeeping) {w : World} (sound : Sound none w.db)
    (batch : 1 ≤ h.batchSize) (inRange : h.InRange w) :
    ((∀ n, h.SafeRound (h.rounds n w).db (finalState h.round (h.rounds n w)).db) ∧
      ∃ n, h.Drained (h.rounds n w).db ∧
        ∃ rows, (h.rounds n w).db.failed.rows = w.db.failed.rows ++ rows ∧
          (rows.map FailedExecution.jobId).Perm (h.deadJobs w.db)) ↔
      h.Recoverable w.db := by
  rcases sound.opened h.env [] List.nodup_nil (fun j mem => absurd mem List.not_mem_nil) [] with
    ⟨a, opened⟩
  have good := opened.accounts
  constructor
  · rintro ⟨-, n, drained, -⟩
    rcases rounds_outcome opened.tracked opened.env batch n good with ⟨ids, gone, -, recovers⟩
    exact recovers.recoverable_iff.mpr drained.recoverable
  · intro recoverable
    constructor
    · intro n
      rcases rounds_outcome opened.tracked opened.env batch n good with ⟨-, -, goodₙ, -⟩
      rcases round_outcome goodₙ opened.tracked opened.env batch with
        ⟨ids, gone, -, recovers, few, -, -⟩
      rcases recovers.failed with ⟨rows, written, jobIds⟩
      refine ⟨⟨rows, written, ?_, ?_⟩, fun r there live => recovers.live goodₙ there live⟩
      · rw [← jobIds, List.length_map] at few
        exact few
      · intro r mem
        exact recovers.dead r.jobId (jobIds ▸ List.mem_map_of_mem mem)
    · refine ⟨_, rounds_drain opened.tracked opened.env batch _ good inRange
        recoverable (Nat.le_refl _), ?_⟩
      rcases rounds_outcome opened.tracked opened.env batch
        ((h.staleIds w.db).length + (h.deadJobs w.db).length) good with
        ⟨ids, gone, -, recovers⟩
      have drained := rounds_drain opened.tracked opened.env batch _ good inRange recoverable
        (Nat.le_refl _)
      rcases recovers.failed with ⟨rows, written, jobIds⟩
      refine ⟨rows, written, ?_⟩
      have all := recovers.deadJobs_perm (good.stateJobIds_nodup .claimed)
      rw [drained.claims, List.append_nil] at all
      rw [jobIds]
      exact all

end Housekeeping

/-! ## Two supervisors, and one -/

/-- A process registered at a time. -/
def afterRegister (pid : Int) (name : String) (supervisorId : Option Nat) (now : Time) (db : Db) :
    Db :=
  ((Operation.job (.registerProcess pid name supervisorId)).final (sqliteEnv "default")
    ⟨db, fun _ => now, fun _ => 0⟩).db

theorem step_afterRegister (pid : Int) (name : String) (supervisorId : Option Nat) (now : Time)
    {db : Db} (own : ∀ s, supervisorId = some s → OwnProcessId "default" db s) :
    Step none db (afterRegister pid name supervisorId now db) :=
  .operation (sqliteEnv "default") (.job (.registerProcess pid name supervisorId)) _ _ own

/-- Two supervisors, each with a worker that has the name of the other's. -/
def twoNodes : Db :=
  afterRegister 21 "worker-1" (some 2) 3 (afterRegister 11 "worker-1" (some 1) 2
    (afterRegister 20 "node-b" none 1 (afterRegister 10 "node-a" none 0 Db.empty)))

/-- The two supervisors alone. -/
def twoSupervisors : Db :=
  afterRegister 20 "node-b" none 1 (afterRegister 10 "node-a" none 0 Db.empty)

theorem reachable_twoNodes : Reachable none twoNodes := by
  have first : Step none Db.empty (afterRegister 10 "node-a" none 0 Db.empty) :=
    step_afterRegister _ _ _ _ (fun s given => by cases given)
  have second : Step none (afterRegister 10 "node-a" none 0 Db.empty) twoSupervisors :=
    step_afterRegister _ _ _ _ (fun s given => by cases given)
  have third : Step none twoSupervisors
      (afterRegister 11 "worker-1" (some 1) 2 twoSupervisors) := by
    apply step_afterRegister
    intro s _ p mem _
    have own : ∀ p ∈ twoSupervisors.processes.rows, p.backendAlias = "default" := by decide
    exact own p mem
  have fourth : Step none (afterRegister 11 "worker-1" (some 1) 2 twoSupervisors) twoNodes := by
    apply step_afterRegister
    intro s _ p mem _
    have own : ∀ p ∈ (afterRegister 11 "worker-1" (some 1) 2 twoSupervisors).processes.rows,
        p.backendAlias = "default" := by decide
    exact own p mem
  exact .tail (.tail (.tail (.tail .refl first) second) third) fourth

/-- Everything that was registered before time ten is stale. -/
def lateHousekeeping : Housekeeping where
  env := sqliteEnv "default"
  cutoff := 10
  excluded := none
  batchSize := 500
  orphaned := ⟨"dj_queue.exceptions.ProcessMissingError", "process no longer registered", ""⟩
  pruned := ⟨"dj_queue.exceptions.ProcessPrunedError", "process heartbeat expired", ""⟩

/-- The workers of two stale supervisors have one name, so that the second supervisor can never be
deleted: its worker would take the identity of the first one's. -/
theorem housekeeping_never_drained :
    Sound none twoNodes ∧ ∀ n, ¬lateHousekeeping.Drained
      (lateHousekeeping.rounds n ⟨twoNodes, fun _ => 10, fun _ => 0⟩).db := by
  have sound : Sound none twoNodes := sound_of_reachable (fun t none => by cases none)
    reachable_twoNodes
  refine ⟨sound, fun n drained => ?_⟩
  rcases sound.opened lateHousekeeping.env [] List.nodup_nil
    (fun j mem => absurd mem List.not_mem_nil) [] with ⟨a, opened⟩
  rcases Housekeeping.rounds_outcome (w := ⟨twoNodes, fun _ => 10, fun _ => 0⟩) opened.tracked
    opened.env (by decide) n opened.accounts with ⟨ids, gone, -, recovers⟩
  have separable := (recovers.recoverable_iff.mpr drained.recoverable).separable [1] 2 [3, 4] rfl
  exact absurd separable (by decide)

/-- The first of two jobs was claimed by a worker that has not been seen since. -/
def oneLost : Db :=
  ((Operation.job (.claimReadyJobs 1 .none (some ⟨1, "default", 10, "worker-1", none, 0⟩))).final
    (sqliteEnv "default")
    ⟨afterRegister 10 "worker-1" none 0 twoEnqueued, fun _ => 1, fun _ => 0⟩).db

theorem reachable_oneLost : Reachable none oneLost := by
  have first : Step none twoEnqueued (afterRegister 10 "worker-1" none 0 twoEnqueued) :=
    step_afterRegister _ _ _ _ (fun s given => by cases given)
  have second : Step none (afterRegister 10 "worker-1" none 0 twoEnqueued) oneLost := by
    apply Step.operation (sqliteEnv "default")
      (.job (.claimReadyJobs 1 .none (some ⟨1, "default", 10, "worker-1", none, 0⟩)))
    intro p some q mem _
    cases some
    have own : ∀ q ∈ (afterRegister 10 "worker-1" none 0 twoEnqueued).processes.rows,
        q.backendAlias = "default" := by decide
    exact own q mem
  exact .tail (.tail (reachable_twoEnqueued (fun t none => by cases none)) first) second

/-- Nothing is in the way of its recovery. -/
theorem recoverable_oneLost : lateHousekeeping.Recoverable oneLost := by
  have known : ∀ j ∈ oneLost.jobs,
      (concurrencySettingsForJob lateHousekeeping.env j none).isOk = true := by decide
  constructor
  · intro j mem _ raises
    rcases raises with ⟨-, e, raised, -⟩
    have ok := known j mem
    rw [raised] at ok
    cases ok
  · intro before id after split
    have only : lateHousekeeping.staleIds oneLost = [1] := by decide
    rw [only] at split
    rcases List.append_eq_singleton_iff.mp split.symm with ⟨rfl, rest⟩ | ⟨-, rest⟩
    · cases rest
      decide
    · cases rest

/-- One slot of one is in use, and its job asks for one. -/
theorem inRange_oneLost : lateHousekeeping.InRange ⟨oneLost, fun _ => 10, fun _ => 0⟩ := by
  have small : ∀ j ∈ oneLost.jobs,
      (∀ settings ∈ (concurrencySettingsForJob lateHousekeeping.env j none).toOption,
        settings.limit = 1) ∧
      isDatetime (10 + seconds (releaseDuration lateHousekeeping.env j)) = true := by decide
  constructor
  · intro r mem
    have only : oneLost.semaphores.rows =
        [⟨1, "account", 0, some 1, 1, 180000000, 0⟩] := by decide
    rw [only] at mem
    rw [List.mem_singleton.mp mem]
    exact ⟨by decide, rfl, by decide, rfl⟩
  · intro j mem _ _
    refine ⟨fun settings policy => ?_, fun _ => (small j mem).2⟩
    rw [(small j mem).1 settings (by rw [policy]; rfl)]
    rfl

/-- One lost claim, drained after some rounds. -/
theorem housekeeping_drains_lost :
    lateHousekeeping.deadJobs oneLost = [1] ∧
    ∃ n, lateHousekeeping.Drained
        (lateHousekeeping.rounds n ⟨oneLost, fun _ => 10, fun _ => 0⟩).db ∧
      ∃ rows, (lateHousekeeping.rounds n ⟨oneLost, fun _ => 10, fun _ => 0⟩).db.failed.rows =
          oneLost.failed.rows ++ rows ∧ (rows.map FailedExecution.jobId).Perm [1] := by
  have dead : lateHousekeeping.deadJobs oneLost = [1] := by decide
  have drains := Housekeeping.housekeeping_drains_iff lateHousekeeping
    (w := ⟨oneLost, fun _ => 10, fun _ => 0⟩)
    (sound_of_reachable (fun t none => by cases none) reachable_oneLost) (by decide) inRange_oneLost
  rcases (drains.mpr recoverable_oneLost).2 with ⟨n, drained, rows, written, all⟩
  exact ⟨dead, n, drained, rows, written, dead ▸ all⟩

end DjQueue
