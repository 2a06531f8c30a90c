import DjQueue.Accounting.Ledger

/-!
# Row writes and the ledger

What each write of `Operations.Helpers` does to `Accounts`: an insert takes its job out of
the hand, a delete puts the jobs of the deleted rows into it, and a row that holds a slot takes it from
what is owed or leaves it there.
-/

namespace DjQueue

open Relational

namespace Accounts

variable {a : Audit} {hand hand' : List JobId} {owed owed' : Nat} {db : Db}

/-! ## One table -/

/-- Replacing a table exchanges its rows in the count of a job's places. -/
theorem places_setTable (db : Db) {m : StateModel} (t : Table m.Row) (j : Job) :
    (db.setTable m t).places j + (db.stateJobIds m).count j.id =
      db.places j + (t.rows.map rowJobId).count j.id := by
  rw [places_eq, places_eq]
  cases m <;> simp only [Db.stateJobIds, Db.table, Db.setTable] <;> omega

/-- Replacing a table exchanges the slots its rows hold. -/
theorem active_setTable (a : Audit) (db : Db) {m : StateModel} (t : Table m.Row) :
    a.active (db.setTable m t) + a.held m (db.stateJobIds m) =
      a.active db + a.held m (t.rows.map rowJobId) := by
  cases m <;> simp only [Audit.active, Audit.held, Db.stateJobIds, Db.table, Db.setTable,
    StateModel.isActive, if_true, Bool.false_eq_true, if_false] <;> omega

/-- A state table is replaced: its rows fit, its jobs and the hand are the old ones, and so are
the slots they hold and what is owed. -/
theorem setTable (good : Accounts a hand owed db) {m : StateModel} {t : Table m.Row}
    (ids : (t.rows.map rowId).Nodup) (bound : ∀ r ∈ t.rows, rowId r < t.nextId)
    (fits : ∀ r ∈ t.rows, a.RowFits db.jobs db.processes.rows r)
    (balance : (t.rows.map rowJobId ++ hand').Perm (db.stateJobIds m ++ hand))
    (slots : a.held m (t.rows.map rowJobId) + owed' = a.held m (db.stateJobIds m) + owed)
    (foreign : a.foreign t.rows = a.foreign (db.table m).rows) :
    Accounts a hand' owed' (db.setTable m t) where
  jobIds := by rw [Db.jobs_setTable]; exact good.jobIds
  knows := by rw [Db.jobs_setTable]; exact good.knows
  rowIds m' := by
    by_cases same : m' = m
    · subst same
      rw [Db.table_setTable_same]
      exact ids
    · rw [Db.table_setTable_ne db t same]
      exact good.rowIds m'
  rowBound m' := by
    by_cases same : m' = m
    · subst same
      rw [Db.table_setTable_same]
      exact bound
    · rw [Db.table_setTable_ne db t same]
      exact good.rowBound m'
  rowFits m' := by
    rw [Db.jobs_setTable, Db.processes_setTable]
    by_cases same : m' = m
    · subst same
      rw [Db.table_setTable_same]
      exact fits
    · rw [Db.table_setTable_ne db t same]
      exact good.rowFits m'
  places j mem := by
    rw [Db.jobs_setTable] at mem
    have before := good.places j mem
    have moved := places_setTable db t j
    have counts := balance.count_eq j.id
    rw [List.count_append, List.count_append] at counts
    omega
  semaphores := by rw [Db.semaphores_setTable]; exact good.semaphores
  slots := by
    have total : a.active (db.setTable m t) + owed' = a.active db + owed := by
      have moved := active_setTable a db t
      omega
    rw [Db.semaphores_setTable, total]
    exact good.slots
  registry := by
    obtain ⟨processIds, processBound, supervisors, links⟩ := good.registry
    constructor <;> simpa only [Db.processes_setTable, Db.recurringExecutions_setTable,
      Db.jobs_setTable]
  untouched := by
    obtain ⟨jobs, rows, processes, pauses, tasks, executions, trimmed, created⟩ := good.untouched
    refine ⟨by simpa using jobs, fun m' => ?_, by simpa using processes, by simpa using pauses,
      by simpa using tasks, by simpa using executions, by simpa using trimmed,
      by simpa using created⟩
    by_cases same : m' = m
    · subst same
      rw [Db.table_setTable_same, foreign]
      exact rows m'
    · rw [Db.table_setTable_ne db t same]
      exact rows m'

/-- A new row for a job of the operation's backend. -/
theorem insert {m : StateModel} {id : JobId} {mk : Nat → m.Row}
    (good : Accounts a (id :: hand) (owed + a.held m [id]) db)
    (rowIdOf : ∀ n, rowId (mk n) = n) (jobIdOf : ∀ n, rowJobId (mk n) = id)
    (fits : a.RowFits db.jobs db.processes.rows (mk (db.table m).nextId))
    (own : a.owns id = true) :
    Accounts a hand owed (db.setTable m ((db.table m).insert mk)) := by
  have jobIds : ((db.table m).insert mk).rows.map rowJobId = db.stateJobIds m ++ [id] := by
    simp [Db.stateJobIds, jobIdOf]
  refine good.setTable ?_ ?_ ?_ ?_ ?_ ?_
  · rw [Table.rows_insert, List.map_append, List.map_singleton, rowIdOf, List.nodup_append]
    refine ⟨good.rowIds m, List.nodup_singleton _, ?_⟩
    intro x old y new
    obtain ⟨r, mem, rfl⟩ := List.mem_map.mp old
    rw [List.mem_singleton.mp new]
    exact Nat.ne_of_lt (good.rowBound m r mem)
  · intro r mem
    rw [Table.nextId_insert]
    rcases List.mem_append.mp mem with old | new
    · exact Nat.lt_succ_of_lt (good.rowBound m r old)
    · rw [List.mem_singleton.mp new, rowIdOf]
      exact Nat.lt_succ_self _
  · intro r mem
    rcases List.mem_append.mp mem with old | new
    · exact good.rowFits m r old
    · rw [List.mem_singleton.mp new]
      exact fits
  · rw [jobIds, List.append_assoc]
    exact List.Perm.refl _
  · rw [jobIds]
    unfold Audit.held
    split
    · rw [List.countP_append]
      omega
    · omega
  · simp [Audit.foreign, jobIdOf, own]

/-- Rows of the operation's backend are deleted. -/
theorem delete {m : StateModel} (good : Accounts a hand owed db) {p : m.Row → Bool}
    (own : ∀ r ∈ (db.table m).rows, p r = true → a.owns (rowJobId r) = true) :
    Accounts a (((db.table m).rows.filter p).map rowJobId ++ hand)
      (owed + a.held m (((db.table m).rows.filter p).map rowJobId))
      (db.setTable m ((db.table m).deleteWhere p)) := by
  have split : (((db.table m).rows.filter (fun r => !p r)) ++ (db.table m).rows.filter p).Perm
      (db.table m).rows := by
    refine List.perm_append_comm.trans ?_
    simpa using List.filter_append_perm p (db.table m).rows
  have jobs := split.map (rowJobId (m := m))
  rw [List.map_append] at jobs
  refine good.setTable ?_ ?_ ?_ ?_ ?_ ?_
  · exact (good.rowIds m).sublist ((List.filter_sublist).map _)
  · exact fun r mem => good.rowBound m r (List.mem_of_mem_filter mem)
  · exact fun r mem => good.rowFits m r (List.mem_of_mem_filter mem)
  · rw [← List.append_assoc]
    exact jobs.append_right hand
  · have counts := jobs.countP_eq a.holds
    rw [List.countP_append] at counts
    unfold Audit.held Db.stateJobIds
    rw [Table.rows_deleteWhere]
    split <;> omega
  · unfold Audit.foreign
    rw [Table.rows_deleteWhere, List.filter_filter]
    refine List.filter_congr fun r mem => ?_
    cases hit : p r with
    | false => simp
    | true => simp [own r mem hit]

end Accounts

/-! ## Checks -/

section Checks

variable {w w' : World} {u : Unit}

/-- The conflict check leaves the world as it is. -/
theorem of_run_ensureJobIdsHaveNoOtherExecutionState {ids : List JobId}
    {ignored : List StateModel}
    (run : Runs (ensureJobIdsHaveNoOtherExecutionState ids ignored) w u w') : w' = w := by
  obtain ⟨db, m, read, rest⟩ := Runs.of_bind run
  obtain ⟨rfl, rfl⟩ := of_run_getDb read
  split at rest
  · exact (Runs.of_pure rest).2
  · exact (Runs.of_throw rest).elim

/-- The check of the backends leaves the world as it is, and says whose jobs these are. -/
theorem of_run_ensureStateRowsBelongToBackend {m : StateModel} {rows : List (m.Row × Job)}
    {backendAlias : String}
    (run : Runs (ensureStateRowsBelongToBackend rows backendAlias) w u w') :
    w' = w ∧ ∀ r ∈ rows, r.2.backendAlias = backendAlias := by
  unfold ensureStateRowsBelongToBackend at run
  split at run
  · rename_i found
    refine ⟨(Runs.of_pure run).2, fun r mem => ?_⟩
    simpa using List.find?_eq_none.mp found r mem
  · exact (Runs.of_throw run).elim

/-- A guarded check that raises or does nothing. -/
theorem of_run_runIf_check {c : Bool} {x : Op Unit}
    (check : ∀ {w w' : World} {u : Unit}, Runs x w u w' → w' = w)
    (run : Runs (runIf c x) w u w') : w' = w := by
  rcases Runs.of_runIf run with ⟨-, body⟩ | ⟨-, same⟩
  · exact check body
  · exact same

theorem of_run_runIf_throw {c : Bool} {e : PyError}
    (run : Runs (runIf c (throw e : Op Unit)) w u w') :
    c = false ∧ w' = w := by
  rcases Runs.of_runIf run with ⟨-, body⟩ | same
  · exact (Runs.of_throw body).elim
  · exact same

/-- A state row is written for the backend of its job. -/
theorem of_run_executionBackendAlias {job : JobRef} {backendAlias backend : String}
    (ok : executionBackendAlias job backendAlias = .ok backend) :
    job.backendAlias = backendAlias ∧ backend = backendAlias := by
  unfold executionBackendAlias at ok
  split at ok
  · cases ok
  · rename_i same
    cases ok
    have same := Decidable.not_not.mp same
    exact ⟨same, same⟩

end Checks

/-! ## New rows -/

/-- What a state row repeats of its job. -/
def JobRef.identity (j : JobRef) : Identity := ⟨j.backendAlias, j.queueName, j.concurrencyKey⟩

namespace Audit

variable {a : Audit} {m : StateModel}

theorem held_nil : a.held m [] = 0 := by
  unfold held
  split <;> rfl

theorem held_append (ids ids' : List JobId) :
    a.held m (ids ++ ids') = a.held m ids + a.held m ids' := by
  unfold held
  split
  · exact List.countP_append
  · rfl

theorem held_cons (id : JobId) (ids : List JobId) :
    a.held m (id :: ids) = a.held m [id] + a.held m ids := held_append [id] ids

/-- Rows of an inactive state hold no slots. -/
theorem held_of_inactive (inactive : m.isActive = false) (ids : List JobId) : a.held m ids = 0 := by
  simp [held, inactive]

/-- A row for a job of the operation's backend, with the job's columns. -/
def OwnRow (a : Audit) (row : m.Row) : Prop :=
  ∃ i, a.known (rowJobId row) = some i ∧ i.backendAlias = a.backendAlias ∧ i.Matches row

/-- The row's process, if it has one, is there and belongs to the operation's backend. -/
def OwnProcess (a : Audit) (db : Db) (row : m.Row) : Prop :=
  ∀ id, rowProcess row = some id →
    ∃ p ∈ db.processes.rows, p.id = id ∧ p.backendAlias = a.backendAlias

/-- A row of an own job is of an own job. -/
theorem OwnRow.owns {row : m.Row} (own : a.OwnRow row) : a.owns (rowJobId row) = true := by
  obtain ⟨i, known, backend, -⟩ := own
  simp [Audit.owns, known, backend]

theorem ownProcess_of_ne {row : m.Row} (ne : m ≠ .claimed) (db : Db) : a.OwnProcess db row := by
  intro id some
  cases m <;> first | exact absurd rfl ne | cases some

/-- Saving an instance changes its key and its time only. -/
theorem OwnRow.stamp {row : m.Row} (own : a.OwnRow row) (id : Nat) (now : Time) :
    a.OwnRow (stampRow row id now) := by
  obtain ⟨i, known, backend, same⟩ := own
  cases m <;> exact ⟨i, known, backend, ⟨same.backend, same.queue, same.key⟩⟩

end Audit

@[simp] theorem rowId_stampRow {m : StateModel} (row : m.Row) (id : Nat) (now : Time) :
    rowId (stampRow row id now) = id := by
  cases m <;> rfl

@[simp] theorem rowJobId_stampRow {m : StateModel} (row : m.Row) (id : Nat) (now : Time) :
    rowJobId (stampRow row id now) = rowJobId row := by
  cases m <;> rfl

@[simp] theorem rowProcess_stampRow {m : StateModel} (row : m.Row) (id : Nat) (now : Time) :
    rowProcess (stampRow row id now) = rowProcess row := by
  cases m <;> rfl

namespace Accounts

variable {a : Audit} {hand hand' : List JobId} {owed owed' : Nat} {w w' : World} {u : Unit}
  {m : StateModel}

theorem insertRow {id : JobId} {mk : Nat → m.Row}
    (good : Accounts a (id :: hand) (owed + a.held m [id]) w.db)
    (rowIdOf : ∀ n, rowId (mk n) = n) (jobIdOf : ∀ n, rowJobId (mk n) = id)
    (own : ∀ n, a.OwnRow (mk n)) (process : ∀ n, a.OwnProcess w.db (mk n))
    (run : Runs (insertRow m id mk) w u w') :
    Accounts a hand owed w'.db ∧ w'.db.processes = w.db.processes := by
  obtain ⟨db, m', read, rest⟩ := Runs.of_bind run
  obtain ⟨rfl, rfl⟩ := of_run_getDb read
  split at rest
  · exact (Runs.of_throw rest).elim
  · rename_i allowed
    simp only [Bool.or_eq_true, not_or, Bool.not_eq_true, Option.isNone_eq_false_iff] at allowed
    obtain ⟨j, found⟩ := Option.isSome_iff_exists.mp allowed.1
    rw [of_run_modifyDb rest]
    refine ⟨good.insert rowIdOf jobIdOf ⟨?_, ?_, ?_⟩ (jobIdOf 0 ▸ (own 0).owns), by simp⟩
    · rw [jobIdOf]
      exact List.mem_map.mpr ⟨j, mem_of_findJob found⟩
    · obtain ⟨i, known, -, same⟩ := own (m'.db.table m).nextId
      exact ⟨i, known, same⟩
    · intro pid claimed
      obtain ⟨p, there, rfl, backend⟩ := process _ pid claimed
      obtain ⟨i, known, own, -⟩ := own (m'.db.table m).nextId
      exact ⟨p, there, rfl, by rw [known, backend, ← own]; rfl⟩

theorem of_run_insertRow {id : JobId} {mk : Nat → m.Row}
    (run : Runs (DjQueue.insertRow m id mk) w u w') :
    w'.db = w.db.setTable m ((w.db.table m).insert mk) := by
  obtain ⟨db, m', read, rest⟩ := Runs.of_bind run
  obtain ⟨rfl, rfl⟩ := of_run_getDb read
  split at rest
  · exact (Runs.of_throw rest).elim
  · exact of_run_modifyDb rest

theorem of_run_createRow {row : m.Row} (run : Runs (DjQueue.createRow m row) w u w') :
    ∃ t, w'.db = w.db.setTable m t := by
  obtain ⟨now, w₁, read, inserted⟩ := Runs.of_bind run
  rw [of_run_insertRow inserted, of_run_timezoneNow read]
  exact ⟨_, rfl⟩

theorem createRow {row : m.Row}
    (good : Accounts a (rowJobId row :: hand) (owed + a.held m [rowJobId row]) w.db)
    (own : a.OwnRow row) (process : a.OwnProcess w.db row)
    (run : Runs (createRow m row) w u w') :
    Accounts a hand owed w'.db ∧ w'.db.processes = w.db.processes := by
  obtain ⟨now, w₁, read, inserted⟩ := Runs.of_bind run
  have same := of_run_timezoneNow read
  rw [← same] at good process ⊢
  exact good.insertRow (fun n => rowId_stampRow row n now) (fun n => rowJobId_stampRow row n now)
    (fun n => own.stamp n now) (fun n id claimed => process id (by simpa using claimed)) inserted

theorem bulkCreate : ∀ {rows : List m.Row} {w : World},
    Accounts a (rows.map rowJobId ++ hand) (owed + a.held m (rows.map rowJobId)) w.db →
    (∀ r ∈ rows, a.OwnRow r) → (∀ r ∈ rows, a.OwnProcess w.db r) →
    Runs (bulkCreate m rows) w u w' → Accounts a hand owed w'.db
  | [], w, good, _, _, run => by
      cases run
      simpa [Audit.held_nil] using good
  | row :: rows, w, good, own, process, run => by
      obtain ⟨v, w₁, head, tail⟩ := Runs.of_bind run
      rw [List.map_cons, Audit.held_cons] at good
      have good : Accounts a (rowJobId row :: (rows.map rowJobId ++ hand))
          (owed + a.held m (rows.map rowJobId) + a.held m [rowJobId row]) w.db := by
        rw [Nat.add_assoc, Nat.add_comm (a.held m _)]
        exact good
      obtain ⟨good₁, processes⟩ := good.createRow (own _ List.mem_cons_self)
        (process _ List.mem_cons_self) head
      refine good₁.bulkCreate (fun r mem => own r (List.mem_cons_of_mem _ mem)) ?_ tail
      intro r mem id claimed
      rw [processes]
      exact process r (List.mem_cons_of_mem _ mem) id claimed

end Accounts

/-! ## Rows built from a job -/

section Builders

variable {a : Audit}

/-- A ready row repeats the job it is built from. -/
theorem ownRow_readyExecutionRow {ref : JobRef} {queueName : Option String}
    {priority : Option Int} {readyAt : Time} {row : ReadyExecution}
    (known : a.known ref.id = some ref.identity)
    (queue : ∀ q, queueName = some q → q = ref.queueName)
    (built : readyExecutionRow ref a.backendAlias queueName priority readyAt = .ok row) :
    row.jobId = ref.id ∧ a.OwnRow (m := .ready) row := by
  unfold readyExecutionRow at built
  cases check : executionBackendAlias ref a.backendAlias with
  | error e =>
      rw [check] at built
      cases built
  | ok backend =>
      rw [check] at built
      obtain ⟨own, rfl⟩ := of_run_executionBackendAlias check
      cases built
      refine ⟨rfl, ref.identity, known, own, ⟨?_, ?_, ?_⟩⟩
      · rintro b ⟨⟩
        exact own.symm
      · rintro q ⟨⟩
        cases queueName with
        | none => rfl
        | some q => exact queue q rfl
      · rintro k ⟨⟩

/-- A scheduled row repeats the job it is built from. -/
theorem ownRow_scheduledExecutionRow {job : Job} {at' : Option Time} {row : ScheduledExecution}
    (knows : a.Knows job) (built : scheduledExecutionRow job a.backendAlias at' = .ok row) :
    row.jobId = job.id ∧ a.OwnRow (m := .scheduled) row := by
  unfold scheduledExecutionRow at built
  cases check : executionBackendAlias job.ref a.backendAlias with
  | error e =>
      rw [check] at built
      cases built
  | ok backend =>
      rw [check] at built
      obtain ⟨own, rfl⟩ := of_run_executionBackendAlias check
      simp only [bind, Except.bind] at built
      split at built
      · cases built
      · cases built
        refine ⟨rfl, job.identity, knows.identity, own, ⟨?_, ?_, ?_⟩⟩
        · rintro b ⟨⟩
          exact own.symm
        · rintro q ⟨⟩
          rfl
        · rintro k ⟨⟩

/-- A blocked row repeats the job it is built from, with its concurrency key. -/
theorem ownRow_blockedExecutionRow {ref : JobRef} {key : String} {expiresAt : Time}
    {queueName : Option String} {priority : Option Int} {row : BlockedExecution}
    (known : a.known ref.id = some ref.identity) (waits : ref.concurrencyKey = some key)
    (queue : ∀ q, queueName = some q → q = ref.queueName)
    (built : blockedExecutionRow ref a.backendAlias (some key) expiresAt queueName priority =
      .ok row) :
    row.jobId = ref.id ∧ a.OwnRow (m := .blocked) row := by
  unfold blockedExecutionRow at built
  cases check : executionBackendAlias ref a.backendAlias with
  | error e =>
      rw [check] at built
      cases built
  | ok backend =>
      rw [check] at built
      obtain ⟨own, rfl⟩ := of_run_executionBackendAlias check
      cases built
      refine ⟨rfl, ref.identity, known, own, ⟨?_, ?_, ?_⟩⟩
      · rintro b ⟨⟩
        exact own.symm
      · rintro q ⟨⟩
        cases queueName with
        | none => rfl
        | some q => exact queue q rfl
      · rintro k ⟨⟩
        exact waits

theorem ownRow_failed {row : FailedExecution} {i : Identity} (known : a.known row.jobId = some i)
    (own : i.backendAlias = a.backendAlias) : a.OwnRow (m := .failed) row :=
  ⟨i, known, own, ⟨by rintro b ⟨⟩, by rintro q ⟨⟩, by rintro k ⟨⟩⟩⟩

/-- A claimed row names its job and a process. -/
theorem ownRow_claimed {row : ClaimedExecution} {i : Identity}
    (known : a.known row.jobId = some i) (own : i.backendAlias = a.backendAlias) :
    a.OwnRow (m := .claimed) row :=
  ⟨i, known, own, ⟨by rintro b ⟨⟩, by rintro q ⟨⟩, by rintro k ⟨⟩⟩⟩

end Builders

namespace Accounts

variable {a : Audit} {hand hand' : List JobId} {owed owed' : Nat} {w w' : World} {u : Unit}

/-- The conflict check of one job leaves the world as it is. -/
theorem of_run_ensureNoOtherExecutionState {id : JobId} {ignored : List StateModel}
    (run : Runs (ensureNoOtherExecutionState id ignored) w u w') : w' = w :=
  of_run_ensureJobIdsHaveNoOtherExecutionState run

/-- A ready row takes over the job and the slot that were in hand. -/
theorem createReadyExecution {ref : JobRef} {queueName : Option String} {priority : Option Int}
    {readyAt : Time} {checked : Bool}
    (good : Accounts a (ref.id :: hand) (owed + a.held .ready [ref.id]) w.db)
    (known : a.known ref.id = some ref.identity)
    (queue : ∀ q, queueName = some q → q = ref.queueName)
    (run : Runs (createReadyExecution ref a.backendAlias queueName priority readyAt checked)
      w u w') :
    Accounts a hand owed w'.db := by
  obtain ⟨v, w₁, check, rest⟩ := Runs.of_bind run
  cases of_run_runIf_check of_run_ensureNoOtherExecutionState check
  obtain ⟨row, w₂, computed, created⟩ := Runs.of_bind rest
  obtain ⟨built, rfl⟩ := Runs.of_ofExcept computed
  obtain ⟨jobId, own⟩ := ownRow_readyExecutionRow known queue built
  rw [← jobId] at good
  exact (Accounts.createRow (m := .ready) good own
    (Audit.ownProcess_of_ne (by decide) _) created).1

/-- Creating a ready row writes one table. -/
theorem of_run_createReadyExecution {ref : JobRef} {backendAlias : String}
    {queueName : Option String} {priority : Option Int} {readyAt : Time} {checked : Bool}
    (run : Runs (DjQueue.createReadyExecution ref backendAlias queueName priority readyAt checked)
      w u w') : ∃ t, w'.db = w.db.setTable .ready t := by
  obtain ⟨v, w₁, check, rest⟩ := Runs.of_bind run
  cases of_run_runIf_check of_run_ensureNoOtherExecutionState check
  obtain ⟨row, w₂, computed, created⟩ := Runs.of_bind rest
  obtain ⟨-, rfl⟩ := Runs.of_ofExcept computed
  exact of_run_createRow created

/-- A scheduled row takes over the job in hand; it holds no slot. -/
theorem createScheduledExecution {job : Job} {at' : Option Time} {checked : Bool}
    (good : Accounts a (job.id :: hand) owed w.db) (knows : a.Knows job)
    (run : Runs (createScheduledExecution job a.backendAlias at' checked) w u w') :
    Accounts a hand owed w'.db := by
  obtain ⟨v, w₁, check, rest⟩ := Runs.of_bind run
  cases of_run_runIf_check of_run_ensureNoOtherExecutionState check
  obtain ⟨row, w₂, computed, created⟩ := Runs.of_bind rest
  obtain ⟨built, rfl⟩ := Runs.of_ofExcept computed
  obtain ⟨jobId, own⟩ := ownRow_scheduledExecutionRow knows built
  rw [← jobId] at good
  exact (Accounts.createRow (m := .scheduled)
    (by rw [Audit.held_of_inactive rfl]; exact good) own
    (Audit.ownProcess_of_ne (by decide) _) created).1

/-- A blocked row takes over the job in hand; it holds no slot. -/
theorem createBlockedExecution {ref : JobRef} {key : String} {expiresAt : Time}
    {queueName : Option String} {priority : Option Int} {checked : Bool}
    (good : Accounts a (ref.id :: hand) owed w.db) (known : a.known ref.id = some ref.identity)
    (waits : ref.concurrencyKey = some key) (queue : ∀ q, queueName = some q → q = ref.queueName)
    (run : Runs (createBlockedExecution ref a.backendAlias (some key) expiresAt queueName priority
      checked) w u w') :
    Accounts a hand owed w'.db := by
  obtain ⟨v, w₁, check, rest⟩ := Runs.of_bind run
  cases of_run_runIf_check of_run_ensureNoOtherExecutionState check
  obtain ⟨row, w₂, computed, created⟩ := Runs.of_bind rest
  obtain ⟨built, rfl⟩ := Runs.of_ofExcept computed
  obtain ⟨jobId, own⟩ := ownRow_blockedExecutionRow known waits queue built
  rw [← jobId] at good
  exact (Accounts.createRow (m := .blocked)
    (by rw [Audit.held_of_inactive rfl]; exact good) own
    (Audit.ownProcess_of_ne (by decide) _) created).1

/-- The waiter that got a slot becomes ready, unless it has a state already. -/
theorem createReadyExecutionAfterBlockedConsume {ref : JobRef} {readyAt : Time}
    (good : Accounts a (ref.id :: hand) (owed + a.held .ready [ref.id]) w.db)
    (known : a.known ref.id = some ref.identity) (own : ref.backendAlias = a.backendAlias)
    (run : Runs (createReadyExecutionAfterBlockedConsume ref a.backendAlias readyAt) w u w') :
    Accounts a hand owed w'.db := by
  obtain ⟨n, w₁, inserted, check⟩ := Runs.of_bind run
  obtain ⟨one, rfl⟩ := of_run_runIf_throw check
  obtain ⟨db, w₂, read, rest⟩ := Runs.of_bind inserted
  obtain ⟨rfl, rfl⟩ := of_run_getDb read
  split at rest
  · obtain ⟨rfl, -⟩ := Runs.of_pure rest
    simp at one
  · obtain ⟨v, w₃, insert, rest⟩ := Runs.of_bind rest
    obtain ⟨-, rfl⟩ := Runs.of_pure rest
    refine (good.insertRow (m := .ready) (fun _ => rfl) (fun _ => rfl) (fun n => ?_)
      (fun n => Audit.ownProcess_of_ne (by decide) _) insert).1
    exact ⟨ref.identity, known, own,
      ⟨by rintro b ⟨⟩; exact own.symm, by rintro q ⟨⟩; rfl, by rintro k ⟨⟩⟩⟩

/-- The ready rows of a batch take over as many jobs and slots. -/
theorem bulkCreateReadyExecutions {rows : List ReadyExecution} {checked : Bool}
    (good : Accounts a (rows.map ReadyExecution.jobId ++ hand)
      (owed + a.held .ready (rows.map ReadyExecution.jobId)) w.db)
    (own : ∀ r ∈ rows, a.OwnRow (m := .ready) r)
    (run : Runs (bulkCreateReadyExecutions rows checked) w u w') : Accounts a hand owed w'.db := by
  unfold DjQueue.bulkCreateReadyExecutions at run
  split at run
  · rename_i empty
    obtain ⟨-, rfl⟩ := Runs.of_pure run
    rw [List.isEmpty_iff.mp empty, List.map_nil, Audit.held_nil] at good
    exact good
  · obtain ⟨v, w₁, check, created⟩ := Runs.of_bind run
    cases of_run_runIf_check of_run_ensureJobIdsHaveNoOtherExecutionState check
    exact Accounts.bulkCreate (m := .ready) good own
      (fun r _ => Audit.ownProcess_of_ne (by decide) _) created

end Accounts

end DjQueue
