import DjQueue.Operations.Claiming
import DjQueue.Operations.Jobs
import DjQueue.Slots.Parts
import DjQueue.Accounting.Claims

/-!
# Consuming ready rows that were selected earlier

A claim and a discard select ready rows in one statement and consume them in another.  Here the
consuming part starts on tables that others may have written since the selection: some of the
selected rows may be gone, as long as no row lock keeps them.  `Claims` and `Discards` say what it
leaves of the ready rows, the claims and the jobs.
-/

namespace DjQueue

open Relational

/-- The part of `_discard_state_jobs` after the selection. -/
def discardSelectedRows (env : Env) (rows : List (ReadyExecution × Job)) : Op Nat := do
  let consumed ← consumeSelectedRows env .ready (fun r : ReadyExecution × Job => r.1.id) rows
  let ids := consumed.map (fun r => r.1.jobId)
  ensureJobIdsHaveNoOtherExecutionState ids []
  let db' ← getDb
  let jobs := ids.filterMap db'.findJob
  let _ ← deleteJobsWhere (fun j => ids.contains j.id)
  releaseAll env jobs
  pure jobs.length

/-- The ready rows a discard may select from `rows`. -/
def discardableRows (env : Env) (db : Db) (rows : List ReadyExecution)
    (jobIds : Option (List JobId)) (queueName : Option String) : List (ReadyExecution × Job) :=
  (selectRelatedJob (m := .ready) db (orderBy (rowIdOrder (m := .ready)) rows)).filter
    (discardable env .ready jobIds queueName)

/-- The discard as a selection and the part that consumes. -/
theorem discardStateJobs_eq (env : Env) (jobIds : Option (List JobId)) (batchSize : Int)
    (queueName : Option String) :
    discardStateJobs env .ready jobIds batchSize true queueName = transactionAtomic (do
      let db ← getDb
      let rows ← sliceTo batchSize (discardableRows env db db.ready.rows jobIds queueName)
      ensureStateRowsBelongToBackend (m := .ready) rows env.config.backendAlias
      discardSelectedRows env rows) := rfl

/-- The claim as a selection, a re-read of the pauses and the part that consumes. -/
theorem claimReadyJobsOnce_eq (env : Env) (limit : Nat) (queues : QueueSelectors)
    (process : Option Process) :
    claimReadyJobsOnce env limit queues process = transactionAtomic (do
      ensureProcessBelongs env process
      let db ← getDb
      let rows := selectRelatedJob (m := .ready) db
        (selectReadyRows env (claimableRows db env.config.backendAlias) queues limit)
      ensureClaimable env rows
      let unpaused := rows.filter (fun r => !(lockActivePauses db env.config.backendAlias
        (rows.map (fun r => r.1.queueName))).contains r.1.queueName)
      if unpaused.isEmpty then pure [] else claimSelectedRows env unpaused process) := rfl

/-! ## Tables -/

/-- The constraints on ready rows and claims, and that no job has both. -/
structure Queued (db : Db) : Prop where
  ids : (db.ready.rows.map ReadyExecution.id).Nodup
  bound : ∀ r ∈ db.ready.rows, r.id < db.ready.nextId
  jobs : (db.ready.rows.map ReadyExecution.jobId).Nodup
  claims : (db.claimed.rows.map ClaimedExecution.jobId).Nodup
  apart : ∀ r ∈ db.ready.rows, ∀ c ∈ db.claimed.rows, c.jobId ≠ r.jobId

namespace Queued

variable {db : Db}

theorem eq_of_id (queued : Queued db) {r r' : ReadyExecution} (mem : r ∈ db.ready.rows)
    (mem' : r' ∈ db.ready.rows) (same : r.id = r'.id) : r = r' :=
  List.inj_on_of_nodup_map queued.ids mem mem' same

theorem eq_of_job (queued : Queued db) {r r' : ReadyExecution} (mem : r ∈ db.ready.rows)
    (mem' : r' ∈ db.ready.rows) (same : r.jobId = r'.jobId) : r = r' :=
  List.inj_on_of_nodup_map queued.jobs mem mem' same

end Queued

/-- The selected rows that are still in the table. -/
def stillThere (db : Db) (rows : List (ReadyExecution × Job)) : List (ReadyExecution × Job) :=
  rows.filter (fun x => (db.ready.rows.map ReadyExecution.id).contains x.1.id)

/-- The keys of selected rows. -/
def rowIds (rows : List (ReadyExecution × Job)) : List Nat := rows.map (fun x => x.1.id)

/-! ## Consuming -/

section Consume

variable {env : Env} {w w' : World}

/-- One delete a row: those that find their row are kept. -/
theorem consumed_of_consumeEachRow {m : StateModel} {β : Type} {pk : β → Nat} :
    ∀ {rows : List β} {w : World} {consumed : List β}, (rows.map pk).Nodup →
    Runs (consumeEachRow m pk rows) w consumed w' →
    consumed = rows.filter (fun b => ((w.db.table m).rows.map rowId).contains (pk b)) ∧
      w'.db = w.db.setTable m (without (w.db.table m) (rows.map pk))
  | [], w, consumed, _, run => by
      obtain ⟨rfl, rfl⟩ := Runs.of_pure run
      rw [List.map_nil, without_nil, Db.setTable_table]
      exact ⟨rfl, rfl⟩
  | b :: rows, w, consumed, nodup, run => by
      obtain ⟨n, w₁, deleted, rest⟩ := Runs.of_bind run
      obtain ⟨rfl, db₁⟩ := of_run_deleteRowsWhere deleted
      obtain ⟨others, w₂, tail, rest⟩ := Runs.of_bind rest
      obtain ⟨rfl, rfl⟩ := Runs.of_pure rest
      obtain ⟨fresh, nodup⟩ := List.nodup_cons.mp nodup
      obtain ⟨rfl, db₂⟩ := consumed_of_consumeEachRow nodup tail
      -- deleting one row does not decide about the others
      have same : rows.filter (fun b' => ((w₁.db.table m).rows.map rowId).contains (pk b')) =
          rows.filter (fun b' => ((w.db.table m).rows.map rowId).contains (pk b')) := by
        refine List.filter_congr fun b' mem => ?_
        have ne : pk b' ≠ pk b := fun eq => fresh (List.mem_map.mpr ⟨b', mem, eq⟩)
        rw [db₁, Db.table_setTable_same, Bool.eq_iff_iff, List.contains_iff_mem,
          List.contains_iff_mem, Table.rows_deleteWhere]
        constructor
        · intro there
          obtain ⟨r, inside, eq⟩ := List.mem_map.mp there
          exact List.mem_map.mpr ⟨r, List.mem_of_mem_filter inside, eq⟩
        · intro there
          obtain ⟨r, inside, eq⟩ := List.mem_map.mp there
          exact List.mem_map.mpr ⟨r, List.mem_filter.mpr ⟨inside, by simp [eq, ne]⟩, eq⟩
      constructor
      · rw [same, List.filter_cons]
        have hit : (w.db.table m).rows.countP (fun r => rowId r == pk b) = 0 ↔
            ((w.db.table m).rows.map rowId).contains (pk b) = false := by
          rw [List.countP_eq_zero, Bool.eq_false_iff, ne_eq, List.contains_iff_mem, List.mem_map]
          simp
        by_cases gone : (w.db.table m).rows.countP (fun r => rowId r == pk b) = 0
        · rw [if_pos gone, hit.mp gone, if_neg Bool.false_ne_true]
        · have there := Bool.eq_true_of_not_eq_false (fun no => gone (hit.mpr no))
          rw [if_neg gone, there, if_pos rfl]
      · rw [db₂, db₁, Db.table_setTable_same, Db.setTable_setTable, without_cons, List.map_cons]

/-- Where rows are not locked a selected row may be gone; where they are locked none is. -/
theorem consumed_of_consumeSelectedRows {rows consumed : List (ReadyExecution × Job)}
    (nodup : (rowIds rows).Nodup)
    (locked : env.config.family.usesSerializedWrites = false →
      ∀ x ∈ rows, x.1.id ∈ w.db.ready.rows.map ReadyExecution.id)
    (run : Runs (consumeSelectedRows env .ready (fun r : ReadyExecution × Job => r.1.id) rows) w
      consumed w') :
    consumed = stillThere w.db rows ∧
      w'.db = w.db.setTable .ready (without (m := .ready) w.db.ready (rowIds rows)) := by
  unfold consumeSelectedRows at run
  split at run
  · exact consumed_of_consumeEachRow (m := .ready) nodup run
  · rename_i serialized
    obtain ⟨n, w₁, deleted, rest⟩ := Runs.of_bind run
    obtain ⟨rfl, rfl⟩ := Runs.of_pure rest
    refine ⟨?_, (of_run_deleteRowsWhere deleted).2⟩
    refine (List.filter_eq_self.mpr fun x mem => ?_).symm
    exact List.contains_iff_mem.mpr (locked (Bool.eq_false_iff.mpr serialized) x mem)

end Consume

/-! ## Claims -/

/-- What a claim of the selected `rows` leaves: the ready rows without them, and one new claim for
each of them that was still there. -/
structure Claims (rows : List (ReadyExecution × Job)) (db db' : Db) : Prop where
  ready : db'.ready = without (m := .ready) db.ready (rowIds rows)
  jobs : db'.jobs = db.jobs
  claimed : ∃ new : List ClaimedExecution, db'.claimed.rows = db.claimed.rows ++ new ∧
    (new.map ClaimedExecution.jobId).Perm ((stillThere db rows).map (fun x => x.1.jobId)) ∧
    ∀ c ∈ new, c.jobId ∉ db.stateJobIds .claimed

section Claiming

variable {env : Env} {w w' : World} {u : Unit} {process : Option Process} {claimedAt : Time}

/-- One insert into a state table: the job had no row there. -/
def Inserts (m : StateModel) (job : JobId) (db db' : Db) : Prop :=
  ∃ mk : Nat → m.Row, (∀ n, rowJobId (mk n) = job) ∧ job ∉ db.stateJobIds m ∧
    db' = db.setTable m ((db.table m).insert mk)

theorem inserts_of_insertRow {m : StateModel} {job : JobId} {mk : Nat → m.Row}
    (keyed : ∀ n, rowJobId (mk n) = job) (run : Runs (insertRow m job mk) w u w') :
    Inserts m job w.db w'.db := by
  obtain ⟨db, w₁, got, rest⟩ := Runs.of_bind run
  obtain ⟨rfl, rfl⟩ := of_run_getDb got
  split at rest
  · exact (Runs.of_throw rest).elim
  · rename_i free
    refine ⟨mk, keyed, fun mem => free (Bool.or_eq_true_iff.mpr (.inr ?_)), of_run_modifyDb rest⟩
    exact List.contains_iff_mem.mpr mem

/-- A loop of inserts appends its rows, in order, for jobs that had none. -/
theorem inserted_of_forM {α : Type} {m : StateModel} {f : α → Op Unit} {job : α → JobId}
    (body : ∀ {a : α} {w w' : World} {u : Unit}, Runs (f a) w u w' →
      Inserts m (job a) w.db w'.db) :
    ∀ {l : List α} {w : World}, Runs (l.forM f) w u w' → ∃ new : List m.Row,
      (w'.db.table m).rows = (w.db.table m).rows ++ new ∧ new.map rowJobId = l.map job ∧
      (∀ r ∈ new, rowJobId r ∉ w.db.stateJobIds m) ∧ ∃ t, w'.db = w.db.setTable m t
  | [], w, run => by
      cases run
      exact ⟨[], by simp, rfl, nofun, _, (Db.setTable_table _ m).symm⟩
  | a :: l, w, run => by
      obtain ⟨v, w₁, head, tail⟩ := Runs.of_bind run
      obtain ⟨mk, keyed, fresh, db₁⟩ := body head
      obtain ⟨new, rows, jobs, later, t, db'⟩ := inserted_of_forM body tail
      refine ⟨mk (w.db.table m).nextId :: new, ?_, ?_, ?_, t, ?_⟩
      · rw [rows, db₁, Db.table_setTable_same, Table.rows_insert, List.append_assoc]
        rfl
      · rw [List.map_cons, List.map_cons, keyed, jobs]
      · intro r mem
        rcases List.mem_cons.mp mem with rfl | mem
        · rw [keyed]
          exact fresh
        · refine fun old => later r mem ?_
          rw [db₁]
          unfold Db.stateJobIds at old ⊢
          rw [Db.table_setTable_same, Table.rows_insert, List.map_append]
          exact List.mem_append.mpr (.inl old)
      · rw [db', db₁, Db.setTable_setTable]

theorem of_run_ensureProcessExists (run : Runs (ensureProcessExists process) w u w') : w' = w := by
  obtain ⟨db, w₁, got, check⟩ := Runs.of_bind run
  obtain ⟨rfl, rfl⟩ := of_run_getDb got
  exact (of_run_runIf_throw check).2

variable {rows claimed : List (ReadyExecution × Job)}

/-- The portable claim takes the rows that are still there. -/
theorem claims_of_claimPortably (nodup : (rowIds rows).Nodup)
    (loaded : ∀ x ∈ rows, x.2.id = x.1.jobId)
    (locked : env.config.family.usesSerializedWrites = false →
      ∀ x ∈ rows, x.1.id ∈ w.db.ready.rows.map ReadyExecution.id)
    (run : Runs (claimPortably env rows process claimedAt) w claimed w') :
    claimed = stillThere w.db rows ∧ Claims rows w.db w'.db := by
  obtain ⟨consumed, w₁, taken, rest⟩ := Runs.of_bind run
  obtain ⟨isKept, db₁⟩ := consumed_of_consumeSelectedRows nodup locked taken
  obtain ⟨v, w₂, checked, rest⟩ := Runs.of_bind rest
  rw [of_run_runIf_check of_run_ensureProcessExists checked] at rest
  obtain ⟨v', w₃, created, rest⟩ := Runs.of_bind rest
  obtain ⟨rfl, rfl⟩ := Runs.of_pure rest
  have inserts : ∀ {a : ClaimedExecution} {w w' : World} {u : Unit},
      Runs (createRow .claimed a) w u w' → Inserts .claimed a.jobId w.db w'.db := by
    intro a w w' u run
    obtain ⟨now, w₁, read, inserted⟩ := Runs.of_bind run
    rw [← of_run_timezoneNow read]
    exact inserts_of_insertRow (fun n => rowJobId_stampRow (m := .claimed) a n now) inserted
  obtain ⟨new, appended, jobs, fresh, t, db'⟩ := inserted_of_forM inserts created
  refine ⟨isKept, ?_, ?_, new, ?_, ?_, ?_⟩
  · rw [db', db₁]
    rfl
  · rw [db', db₁, Db.jobs_setTable, Db.jobs_setTable]
  · rw [show w'.db.claimed = w'.db.table .claimed from rfl, appended, db₁]
    rfl
  · have eq : new.map ClaimedExecution.jobId = (stillThere w.db rows).map (fun x => x.1.jobId) := by
      rw [show new.map ClaimedExecution.jobId = new.map (rowJobId (m := .claimed)) from rfl, jobs,
        List.map_map, isKept]
      refine List.map_congr_left fun x mem => ?_
      exact loaded x (List.mem_of_mem_filter mem)
    rw [eq]
  · intro c mem old
    refine fresh c mem ?_
    rw [db₁]
    exact old

/-- Distinct keys that hit as many rows of the table as they are hit each one its own. -/
theorem filter_ids_perm {db : Db} (queued : Queued db) (nodup : (rowIds rows).Nodup)
    (same : ∀ x ∈ rows, ∀ r ∈ db.ready.rows, r.id = x.1.id → r = x.1) {n : Nat}
    (enough : rows.length ≤ n)
    (hit : n ≤ (db.ready.rows.filter (fun r => (rowIds rows).contains r.id)).length) :
    stillThere db rows = rows ∧
      (db.ready.rows.filter (fun r => (rowIds rows).contains r.id)).Perm (rows.map Prod.fst) := by
  have ids := queued.ids.sublist ((List.filter_sublist (l := db.ready.rows)
    (p := fun r => (rowIds rows).contains r.id)).map ReadyExecution.id)
  have subset : ∀ id ∈ (db.ready.rows.filter (fun r => (rowIds rows).contains r.id)).map
      ReadyExecution.id, id ∈ rowIds rows := by
    intro id mem
    obtain ⟨r, inside, rfl⟩ := List.mem_map.mp mem
    exact List.contains_iff_mem.mp (List.mem_filter.mp inside).2
  have perm := (List.subperm_of_subset ids subset).perm_of_length_le (by
    rw [rowIds, List.length_map, List.length_map]
    exact enough.trans hit)
  have there : ∀ x ∈ rows, ∃ r ∈ db.ready.rows, r.id = x.1.id := by
    intro x mem
    obtain ⟨r, inside, eq⟩ := List.mem_map.mp (perm.mem_iff.mpr (List.mem_map.mpr ⟨x, mem, rfl⟩))
    exact ⟨r, List.mem_of_mem_filter inside, eq⟩
  constructor
  · refine List.filter_eq_self.mpr fun x mem => List.contains_iff_mem.mpr ?_
    obtain ⟨r, inside, eq⟩ := there x mem
    exact List.mem_map.mpr ⟨r, inside, eq⟩
  · have distinct : (rows.map Prod.fst).Nodup := by
      refine List.Nodup.of_map ReadyExecution.id ?_
      rw [List.map_map]
      exact nodup
    refine (List.perm_ext_iff_of_nodup (ids.of_map _) distinct).mpr fun r => ?_
    constructor
    · intro mem
      obtain ⟨inside, hit⟩ := List.mem_filter.mp mem
      obtain ⟨x, inRows, eq⟩ := List.mem_map.mp (List.contains_iff_mem.mp hit)
      exact List.mem_map.mpr ⟨x, inRows, (same x inRows r inside eq.symm).symm⟩
    · intro mem
      obtain ⟨x, inRows, rfl⟩ := List.mem_map.mp mem
      obtain ⟨r, inside, eq⟩ := there x inRows
      rw [← same x inRows r inside eq]
      refine List.mem_filter.mpr ⟨inside, List.contains_iff_mem.mpr ?_⟩
      rw [eq]
      exact List.mem_map.mpr ⟨x, inRows, rfl⟩

/-- The statement's count check: as many claims as selected rows, so every selected row was there
and got its claim. -/
theorem claims_of_claimOnPostgres (queued : Queued w.db) (nodup : (rowIds rows).Nodup)
    (same : ∀ x ∈ rows, ∀ r ∈ w.db.ready.rows, r.id = x.1.id → r = x.1)
    (run : Runs (claimOnPostgres rows process claimedAt) w claimed w') :
    claimed = stillThere w.db rows ∧ Claims rows w.db w'.db := by
  obtain ⟨v, w₁, checked, rest⟩ := Runs.of_bind run
  rw [of_run_ensureProcessExists checked] at rest
  obtain ⟨created, w₂, consumed, rest⟩ := Runs.of_bind rest
  split at rest
  · rename_i all
    obtain ⟨rfl, rfl⟩ := Runs.of_pure rest
    obtain ⟨db, w₃, got, body⟩ := Runs.of_bind consumed
    obtain ⟨rfl, rfl⟩ := of_run_getDb got
    obtain ⟨n, w₄, deleted, body⟩ := Runs.of_bind body
    obtain ⟨v', w₅, inserted, body⟩ := Runs.of_bind body
    obtain ⟨createdIs, rfl⟩ := Runs.of_pure body
    have found := filter_ids_perm queued nodup same (n := created.length) (by rw [all]) (by
      rw [createdIs]
      refine (List.length_filter_le _ _).trans ?_
      rw [List.length_map]
      exact Nat.le_refl _)
    have whole : created = (w₃.db.ready.rows.filter (fun r => (rowIds claimed).contains r.id)).map
        ReadyExecution.jobId := by
      rw [createdIs]
      refine List.filter_sublist.eq_of_length ?_
      rw [← createdIs, all, List.length_map, show claimed.map (fun r => r.1.id) = rowIds claimed from
        rfl, found.2.length_eq, List.length_map]
    rw [← createdIs] at inserted
    have inserts : ∀ {a : JobId} {w w' : World} {u : Unit},
        Runs (insertClaimAt process claimedAt a) w u w' → Inserts .claimed a w.db w'.db :=
      fun run => inserts_of_insertRow (fun _ => rfl) run
    obtain ⟨new, appended, jobs, fresh, t, db'⟩ := inserted_of_forM inserts inserted
    have db₄ := (of_run_deleteRowsWhere deleted).2
    refine ⟨found.1.symm, ?_, ?_, new, ?_, ?_, ?_⟩
    · rw [db', db₄]
      rfl
    · rw [db', db₄, Db.jobs_setTable, Db.jobs_setTable]
    · rw [show w'.db.claimed = w'.db.table .claimed from rfl, appended, db₄]
      rfl
    · rw [show new.map ClaimedExecution.jobId = new.map (rowJobId (m := .claimed)) from rfl, jobs,
        List.map_id', whole, found.1]
      have perm := found.2.map ReadyExecution.jobId
      rw [List.map_map] at perm
      exact perm
    · intro c mem old
      refine fresh c mem ?_
      rw [db₄]
      exact old
  · obtain ⟨-, w₃, -, raised⟩ := Runs.of_bind rest
    exact (Runs.of_throw raised).elim

/-- A claim of the selected rows, on every database: it returns the jobs of the rows that were
still there, in the order of the selection. -/
theorem claims_of_claimSelectedRows {result : List ClaimedJob} (queued : Queued w.db)
    (nodup : (rowIds rows).Nodup) (loaded : ∀ x ∈ rows, x.2.id = x.1.jobId)
    (same : ∀ x ∈ rows, ∀ r ∈ w.db.ready.rows, r.id = x.1.id → r = x.1)
    (locked : env.config.family.usesSerializedWrites = false →
      ∀ x ∈ rows, x.1.id ∈ w.db.ready.rows.map ReadyExecution.id)
    (run : Runs (claimSelectedRows env rows process) w result w') :
    result.map ClaimedJob.job = (stillThere w.db rows).map Prod.snd ∧ Claims rows w.db w'.db := by
  obtain ⟨claimedAt, w₁, read, rest⟩ := Runs.of_bind run
  have same₁ := of_run_timezoneNow read
  rw [← same₁] at queued same locked ⊢
  obtain ⟨taken, w₂, claims, rest⟩ := Runs.of_bind rest
  obtain ⟨rfl, rfl⟩ := Runs.of_pure rest
  have spec : taken = stillThere w₁.db rows ∧ Claims rows w₁.db w'.db := by
    cases family : env.config.family with
    | postgresql =>
        rw [claimRows, family] at claims
        exact claims_of_claimOnPostgres queued nodup same claims
    | mysql =>
        rw [claimRows, family] at claims
        exact claims_of_claimPortably nodup loaded locked claims
    | mariadb =>
        rw [claimRows, family] at claims
        exact claims_of_claimPortably nodup loaded locked claims
    | sqlite =>
        rw [claimRows, family] at claims
        exact claims_of_claimPortably nodup loaded locked claims
  refine ⟨?_, spec.2⟩
  rw [← spec.1, List.map_map]
  rfl

end Claiming

/-! ## Discards -/

/-- The release of a slot: at most new ready rows, for waiters that had no other state. -/
structure ReadyGrows (db db' : Db) : Prop where
  queued : Queued db'
  jobs : db'.jobs = db.jobs
  claimed : db'.claimed = db.claimed
  next : db.ready.nextId ≤ db'.ready.nextId
  rows : ∃ new, db'.ready.rows = db.ready.rows ++ new ∧ ∀ r ∈ new, db.ready.nextId ≤ r.id

/-- The ready rows only grow, with new keys. -/
def GrowsFrom (w w' : World) : Prop := Queued w.db → ReadyGrows w.db w'.db

/-- The tables a release may grow or leaves alone. -/
def readyParts (db : Db) : Table ReadyExecution × List Job × Table ClaimedExecution :=
  (db.ready, db.jobs, db.claimed)

/-- Only the ready and the claimed rows are looked at. -/
theorem apart_readyParts {m : StateModel} (notReady : m ≠ .ready) (notClaimed : m ≠ .claimed) :
    Apart readyParts m := by
  intro db t
  cases m with
  | ready => exact absurd rfl notReady
  | claimed => exact absurd rfl notClaimed
  | scheduled => rfl
  | blocked => rfl
  | failed => rfl

namespace ReadyGrows

variable {db db' db'' : Db}

/-- Nothing that is looked at has changed. -/
theorem of_parts (queued : Queued db) (same : readyParts db' = readyParts db) :
    ReadyGrows db db' := by
  simp only [readyParts, Prod.mk.injEq] at same
  obtain ⟨ready, jobs, claimed⟩ := same
  refine ⟨?_, jobs, claimed, by rw [ready], [], by simp [ready], nofun⟩
  exact ⟨by rw [ready]; exact queued.ids, by rw [ready]; exact queued.bound,
    by rw [ready]; exact queued.jobs, by rw [claimed]; exact queued.claims,
    by rw [ready, claimed]; exact queued.apart⟩

theorem trans (first : ReadyGrows db db') (second : ReadyGrows db' db'') : ReadyGrows db db'' := by
  obtain ⟨new, rows, later⟩ := first.rows
  obtain ⟨new', rows', later'⟩ := second.rows
  refine ⟨second.queued, second.jobs.trans first.jobs, second.claimed.trans first.claimed,
    first.next.trans second.next, new ++ new', by rw [rows', rows, List.append_assoc], ?_⟩
  intro r mem
  rcases List.mem_append.mp mem with old | fresh
  · exact later r old
  · exact first.next.trans (later' r fresh)

/-- A new ready row for a job that is neither ready nor claimed. -/
theorem insert (queued : Queued db) {job : JobId} {mk : Nat → ReadyExecution}
    (ids : ∀ n, (mk n).id = n) (keyed : ∀ n, (mk n).jobId = job)
    (notReady : job ∉ db.stateJobIds .ready) (notClaimed : job ∉ db.stateJobIds .claimed) :
    ReadyGrows db (db.setTable .ready (db.ready.insert mk)) := by
  have absent : ∀ r ∈ db.ready.rows, r.jobId ≠ job := fun r mem same =>
    notReady (List.mem_map.mpr ⟨r, mem, same⟩)
  have unclaimed : ∀ c ∈ db.claimed.rows, c.jobId ≠ job := fun c mem same =>
    notClaimed (List.mem_map.mpr ⟨c, mem, same⟩)
  refine ⟨⟨?_, ?_, ?_, queued.claims, ?_⟩, rfl, rfl, Nat.le_succ _, [mk db.ready.nextId], rfl, ?_⟩
  · change ((db.ready.rows ++ [mk db.ready.nextId]).map ReadyExecution.id).Nodup
    rw [List.map_append, List.nodup_append]
    refine ⟨queued.ids, List.nodup_singleton _, ?_⟩
    intro id mem new isNew same
    rw [List.map_singleton, List.mem_singleton, ids] at isNew
    obtain ⟨r, there, isOld⟩ := List.mem_map.mp mem
    have bound := queued.bound r there
    omega
  · intro r mem
    change r.id < db.ready.nextId + 1
    rcases List.mem_append.mp mem with old | new
    · exact Nat.lt_succ_of_lt (queued.bound r old)
    · rw [List.mem_singleton.mp new, ids]
      exact Nat.lt_succ_self _
  · change ((db.ready.rows ++ [mk db.ready.nextId]).map ReadyExecution.jobId).Nodup
    rw [List.map_append, List.nodup_append]
    refine ⟨queued.jobs, List.nodup_singleton _, ?_⟩
    intro id mem new isNew same
    rw [List.map_singleton, List.mem_singleton, keyed] at isNew
    obtain ⟨r, there, isOld⟩ := List.mem_map.mp mem
    exact absent r there ((isOld.trans same).trans isNew)
  · intro r mem c claimed
    rcases List.mem_append.mp mem with old | new
    · exact queued.apart r old c claimed
    · rw [List.mem_singleton.mp new, keyed]
      exact unclaimed c claimed
  · intro r mem
    rw [List.mem_singleton.mp mem, ids]

end ReadyGrows

/-- Sessions that only make waiters ready. -/
def GrowsReady {α : Type} (x : Op α) : Prop := Relates GrowsFrom x

namespace GrowsReady

variable {α β : Type}

/-- An operation that spares these parts. -/
theorem of_spares {x : Op α} (spares : Spares readyParts x) : GrowsReady x :=
  fun _ _ _ run queued => .of_parts queued (spares _ _ _ run)

theorem pure (a : α) : GrowsReady (Pure.pure a : Op α) := of_spares (.pure a)

theorem throw (e : PyError) : GrowsReady (throw e : Op α) := Relates.throw e

theorem bind {x : Op α} {f : α → Op β} (first : GrowsReady x) (second : ∀ a, GrowsReady (f a)) :
    GrowsReady (x >>= f) := by
  refine Relates.bind (R := GrowsFrom) (fun _ _ _ before after queued => ?_) first second
  exact (before queued).trans (after (before queued).queued)

/-- A waiter that becomes ready has a new row. -/
theorem createReadyExecutionAfterBlockedConsume (job : JobRef) (backendAlias : String)
    (readyAt : Time) :
    GrowsReady (createReadyExecutionAfterBlockedConsume job backendAlias readyAt) := by
  refine bind ?_ fun _ => of_spares (.runIf _ (.throw _))
  intro w n w' run queued
  obtain ⟨db, w₁, got, rest⟩ := Runs.of_bind run
  obtain ⟨rfl, rfl⟩ := of_run_getDb got
  split at rest
  · rw [(Runs.of_pure rest).2]
    exact .of_parts queued rfl
  · rename_i free
    obtain ⟨u, w₂, inserted, rest⟩ := Runs.of_bind rest
    rw [(Runs.of_pure rest).2]
    have absent : job.id ∉ w₁.db.stateJobIds .ready ∧ job.id ∉ w₁.db.stateJobIds .scheduled ∧
        job.id ∉ w₁.db.stateJobIds .claimed ∧ job.id ∉ w₁.db.stateJobIds .failed := by
      simpa [executionStateModels, Db.hasState] using free
    rw [Accounts.of_run_insertRow inserted]
    exact .insert queued (fun _ => rfl) (fun _ => rfl) absent.1 absent.2.2.1

/-- A hand-off: everything but the new ready row is outside these tables. -/
theorem unblockNextBlockedJob (env : Env) (key : String) (limit duration : Int)
    (mode : SlotHandoffMode) :
    GrowsReady (unblockNextBlockedJob env key limit duration mode) := by
  have blocked := apart_readyParts (m := .blocked) (by decide) (by decide)
  have slots : ∀ db t, readyParts { db with semaphores := t } = readyParts db := fun _ _ => rfl
  refine bind (of_spares (.of_reads Reads.timezoneNow)) fun now =>
    Relates.atomic (bind ?_ fun result => ?_)
  · exact of_spares (.consumeBlockedJobForSlot blocked slots env mode key limit duration now)
  · split
    · exact bind (createReadyExecutionAfterBlockedConsume _ _ _) fun _ => pure _
    · exact pure _

/-- A release adds a ready row at most. -/
theorem releaseConcurrencySlot (env : Env) (job : Job) (task : Option Imported) :
    GrowsReady (releaseConcurrencySlot env job task) := by
  unfold DjQueue.releaseConcurrencySlot
  split
  · exact pure _
  · refine bind (of_spares (.bind (.of_reads Reads.getDb) fun db => ?_)) fun settings =>
      bind (unblockNextBlockedJob env _ _ _ _) fun unblocked => ?_
    · split
      · exact .pure _
      · exact .pure _
      · exact .throw _
    · split
      · exact pure _
      · exact bind (of_spares (.semaphoreRelease (fun _ _ => rfl) _ _ _ _)) fun _ =>
          bind (unblockNextBlockedJob env _ _ _ _) fun _ => pure _

theorem releaseAll (env : Env) : ∀ jobs : List Job, GrowsReady (releaseAll env jobs)
  | [] => pure _
  | job :: jobs => bind (releaseConcurrencySlot env job none) fun _ => releaseAll env jobs

end GrowsReady

/-- What a discard of the selected `rows` leaves: their jobs are gone, the claims are as they were,
and the ready rows are those it did not select, and those of waiters that got a slot. -/
structure Discards (rows : List (ReadyExecution × Job)) (db db' : Db) : Prop where
  queued : Queued db'
  jobs : db'.jobs = db.jobs.filter (fun j =>
    !((stillThere db rows).map (fun x => x.1.jobId)).contains j.id)
  claimed : db'.claimed = db.claimed
  next : db.ready.nextId ≤ db'.ready.nextId
  ready : ∃ new, db'.ready.rows = (without (m := .ready) db.ready (rowIds rows)).rows ++ new ∧
    ∀ r ∈ new, db.ready.nextId ≤ r.id

section Discarding

variable {env : Env} {w w' : World} {rows : List (ReadyExecution × Job)}

/-- One ready row for every job, with some rows gone. -/
theorem Queued.without (queued : Queued w.db) (ids : List Nat) :
    Queued (w.db.setTable .ready (DjQueue.without (m := .ready) w.db.ready ids)) where
  ids := queued.ids.sublist (List.filter_sublist.map _)
  bound r mem := queued.bound r (List.mem_of_mem_filter mem)
  jobs := queued.jobs.sublist (List.filter_sublist.map _)
  claims := queued.claims
  apart r mem := queued.apart r (List.mem_of_mem_filter mem)

/-- The ready rows of deleted jobs are deleted. -/
theorem of_run_deleteJobsWhere {p : Job → Bool} {n : Nat} (run : Runs (deleteJobsWhere p) w n w') :
    w'.db.ready = w.db.ready.deleteWhere
        (fun r => ((w.db.jobs.filter p).map Job.id).contains r.jobId) ∧
      w'.db.claimed = w.db.claimed.deleteWhere
        (fun c => ((w.db.jobs.filter p).map Job.id).contains c.jobId) ∧
      w'.db.jobs = w.db.jobs.filter (fun j => !p j) := by
  obtain ⟨db, w₁, got, rest⟩ := Runs.of_bind run
  obtain ⟨rfl, rfl⟩ := of_run_getDb got
  obtain ⟨u, w₂, written, rest⟩ := Runs.of_bind rest
  rw [(Runs.of_pure rest).2, of_run_modifyDb written]
  exact ⟨rfl, rfl, rfl⟩

theorem deleteWhere_eq_self {ρ : Type} {t : Table ρ} {p : ρ → Bool}
    (none : ∀ r ∈ t.rows, p r ≠ true) : t.deleteWhere p = t := by
  unfold Table.deleteWhere
  have same : t.rows.filter (fun r => !p r) = t.rows :=
    List.filter_eq_self.mpr fun r mem => by simp [Bool.eq_false_iff.mpr (none r mem)]
  rw [same]

/-- A selected row that is still there is the row that was selected. -/
theorem mem_ready_of_stillThere {db : Db}
    (same : ∀ x ∈ rows, ∀ r ∈ db.ready.rows, r.id = x.1.id → r = x.1)
    {x : ReadyExecution × Job} (mem : x ∈ stillThere db rows) : x.1 ∈ db.ready.rows := by
  obtain ⟨inRows, there⟩ := List.mem_filter.mp mem
  obtain ⟨r, inside, eq⟩ := List.mem_map.mp (List.contains_iff_mem.mp there)
  rw [← same x inRows r inside eq]
  exact inside

theorem mem_of_discarded {jobs : List Job} {kept : List (ReadyExecution × Job)} {id : JobId}
    (hit : ((jobs.filter (fun j => (kept.map (fun x => x.1.jobId)).contains j.id)).map
      Job.id).contains id = true) : ∃ x ∈ kept, x.1.jobId = id := by
  obtain ⟨j, inside, rfl⟩ := List.mem_map.mp (List.contains_iff_mem.mp hit)
  obtain ⟨x, mem, eq⟩ := List.mem_map.mp (List.contains_iff_mem.mp (List.mem_filter.mp inside).2)
  exact ⟨x, mem, eq⟩

theorem discards_of_discardSelectedRows {n : Nat} (queued : Queued w.db)
    (nodup : (rowIds rows).Nodup)
    (same : ∀ x ∈ rows, ∀ r ∈ w.db.ready.rows, r.id = x.1.id → r = x.1)
    (locked : env.config.family.usesSerializedWrites = false →
      ∀ x ∈ rows, x.1.id ∈ w.db.ready.rows.map ReadyExecution.id)
    (run : Runs (discardSelectedRows env rows) w n w') : Discards rows w.db w'.db := by
  obtain ⟨consumed, w₁, taken, rest⟩ := Runs.of_bind run
  obtain ⟨rfl, db₁⟩ := consumed_of_consumeSelectedRows nodup locked taken
  obtain ⟨u, w₂, checked, rest⟩ := Runs.of_bind rest
  rw [of_run_ensureJobIdsHaveNoOtherExecutionState checked] at rest
  obtain ⟨db, w₃, got, rest⟩ := Runs.of_bind rest
  obtain ⟨rfl, rfl⟩ := of_run_getDb got
  obtain ⟨count, w₄, deleted, rest⟩ := Runs.of_bind rest
  obtain ⟨v, w₅, released, rest⟩ := Runs.of_bind rest
  rw [(Runs.of_pure rest).2]
  obtain ⟨ready, claimed, jobs⟩ := of_run_deleteJobsWhere deleted
  have kept := fun x (mem : x ∈ stillThere w.db rows) => mem_ready_of_stillThere same mem
  -- the other ready rows and the claims belong to other jobs
  have ready₄ : w₄.db.ready = without (m := .ready) w.db.ready (rowIds rows) := by
    rw [ready, db₁]
    refine deleteWhere_eq_self fun r mem hit => ?_
    obtain ⟨inside, out⟩ := List.mem_filter.mp mem
    obtain ⟨x, inRows, job⟩ := mem_of_discarded hit
    have eq := queued.eq_of_job inside (kept x inRows) job.symm
    have gone : (rowIds rows).contains r.id = true := List.contains_iff_mem.mpr
      (List.mem_map.mpr ⟨x, List.mem_of_mem_filter inRows, by rw [eq]⟩)
    change (!(rowIds rows).contains r.id) = true at out
    rw [gone] at out
    cases out
  have claimed₄ : w₄.db.claimed = w.db.claimed := by
    rw [claimed, db₁]
    refine deleteWhere_eq_self fun c mem hit => ?_
    obtain ⟨x, inRows, job⟩ := mem_of_discarded hit
    exact queued.apart x.1 (kept x inRows) c mem job.symm
  have jobs₄ : w₄.db.jobs = w.db.jobs.filter (fun j =>
      !((stillThere w.db rows).map (fun x => x.1.jobId)).contains j.id) := by
    rw [jobs, db₁, Db.jobs_setTable]
  have queued₄ : Queued w₄.db := by
    have queued := queued.without (rowIds rows)
    exact ⟨by rw [ready₄]; exact queued.ids, by rw [ready₄]; exact queued.bound,
      by rw [ready₄]; exact queued.jobs, by rw [claimed₄]; exact queued.claims,
      by rw [ready₄, claimed₄]; exact queued.apart⟩
  have grows := GrowsReady.releaseAll env _ _ _ _ released queued₄
  obtain ⟨new, rows', later⟩ := grows.rows
  have next := grows.next
  rw [ready₄] at rows' later next
  exact ⟨grows.queued, grows.jobs.trans jobs₄, grows.claimed.trans claimed₄, next, new, rows', later⟩

end Discarding

end DjQueue
