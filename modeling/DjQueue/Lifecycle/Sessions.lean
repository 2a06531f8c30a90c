import DjQueue.Lifecycle.Course

/-!
# Sessions that follow the edges

The writes an operation is made of, and the helpers that are put together from them.  A delete of
rows takes a job in hand and asks for nothing; an insert asks that an edge leads to its table; a
write to a job asks that the job had not finished, a deletion of one that an edge leads out.
-/

namespace DjQueue

open Relational

/-- A world that was on course stays so. -/
def StaysOnCourse (edges : List Edge) (start : Db) (w w' : World) : Prop :=
  Follows edges start w.db → Follows edges start w'.db

/-- Whenever the session returns, the jobs still follow the edges. -/
def Steers {α : Type} (edges : List Edge) (start : Db) (x : Op α) : Prop :=
  Relates (StaysOnCourse edges start) x

/-- What following the edges speaks about. -/
def courseParts (db : Db) : List Job × (StateModel → List JobId) := (db.jobs, db.stateJobIds)

/-- The course looks at these parts only. -/
theorem Follows.of_parts {edges : List Edge} {start db db' : Db}
    (same : courseParts db' = courseParts db) (follows : Follows edges start db) :
    Follows edges start db' := by
  rcases Prod.mk.inj same with ⟨jobs, ids⟩
  constructor
  · intro m
    rw [ids]
    exact follows.rows m
  · rw [jobs]
    exact follows.jobs
  · rw [jobs]
    exact follows.kept

/-- What may become of a job whose policy lets it be dispatched. -/
structure Assignable (edges : List Edge) (start : Db) (id : JobId) : Prop where
  ready : Comes edges start (some (.live .ready)) id
  scheduled : Comes edges start (some (.live .scheduled)) id
  blocked : Comes edges start (some (.live .blocked)) id
  finished : Comes edges start (some .finished) id
  unfinished : ¬ start.Shows (some .finished) id

/-- A row that is added is of its own job. -/
theorem stateJobIds_insert {db : Db} {m m' : StateModel} {mk : Nat → m.Row} {id : JobId}
    (mem : id ∈ (db.setTable m ((db.table m).insert mk)).stateJobIds m') :
    id ∈ db.stateJobIds m' ∨ m' = m ∧ id = rowJobId (mk (db.table m).nextId) := by
  unfold Db.stateJobIds at mem ⊢
  by_cases same : m' = m
  · subst same
    rw [Db.table_setTable_same, Table.rows_insert, List.map_append] at mem
    exact (List.mem_append.mp mem).imp_right fun new => ⟨rfl, List.mem_singleton.mp new⟩
  · rw [Db.table_setTable_ne _ _ same] at mem
    exact .inl mem

/-- Deleting rows brings no job into a state. -/
theorem stateJobIds_delete {db : Db} {m m' : StateModel} {p : m.Row → Bool} {id : JobId}
    (mem : id ∈ (db.setTable m ((db.table m).deleteWhere p)).stateJobIds m') :
    id ∈ db.stateJobIds m' := by
  unfold Db.stateJobIds at mem ⊢
  by_cases same : m' = m
  · subst same
    rw [Db.table_setTable_same] at mem
    exact (List.filter_sublist.map rowJobId).subset mem
  · rw [Db.table_setTable_ne _ _ same] at mem
    exact mem

/-- An update leaves the rows with their jobs. -/
theorem courseParts_updateWhere (db : Db) (m : StateModel) {p : m.Row → Bool} {f : m.Row → m.Row}
    (own : ∀ r, rowJobId (f r) = rowJobId r) :
    courseParts (db.setTable m ((db.table m).updateWhere p f)) = courseParts db := by
  unfold courseParts
  rw [Db.jobs_setTable]
  congr 1
  funext m'
  unfold Db.stateJobIds
  by_cases same : m' = m
  · subst same
    rw [Db.table_setTable_same, Table.rows_updateWhere, List.map_map]
    apply List.map_congr_left
    intro r _
    rw [Function.comp_apply]
    split
    · exact own r
    · rfl
  · rw [Db.table_setTable_ne _ _ same]

section Built

variable {job : JobRef} {backendAlias : String} {queueName : Option String} {priority : Option Int}

theorem jobId_of_readyExecutionRow {readyAt : Time} {row : ReadyExecution}
    (ok : readyExecutionRow job backendAlias queueName priority readyAt = .ok row) :
    rowJobId (m := .ready) row = job.id := by
  rcases of_bind_ok ok with ⟨backend, -, made⟩
  cases made
  rfl

theorem jobId_of_blockedExecutionRow {key : Option String} {expiresAt : Time}
    {row : BlockedExecution}
    (ok : blockedExecutionRow job backendAlias key expiresAt queueName priority = .ok row) :
    rowJobId (m := .blocked) row = job.id := by
  rcases of_bind_ok ok with ⟨backend, -, made⟩
  split at made
  · cases made
  · cases made
    rfl

theorem jobId_of_scheduledExecutionRow {job : Job} {at' : Option Time} {row : ScheduledExecution}
    (ok : scheduledExecutionRow job backendAlias at' = .ok row) :
    rowJobId (m := .scheduled) row = job.id := by
  rcases of_bind_ok ok with ⟨backend, -, made⟩
  split at made
  · cases made
  · cases made
    rfl

end Built

namespace Steers

variable {α β : Type} {edges : List Edge} {start : Db}

/-- An operation that spares these parts. -/
theorem of_spares {x : Op α} (spares : Spares courseParts x) : Steers edges start x :=
  fun _ _ _ run => .of_parts (spares _ _ _ run)

theorem pure (a : α) : Steers edges start (Pure.pure a : Op α) := of_spares (.pure a)

theorem throw (e : PyError) : Steers edges start (throw e : Op α) := Relates.throw e

theorem bind {x : Op α} {f : α → Op β} (first : Steers edges start x)
    (second : ∀ a, Steers edges start (f a)) : Steers edges start (x >>= f) :=
  Relates.bind (R := StaysOnCourse edges start)
    (fun _ _ _ before after follows => after (before follows)) first second

/-- A step that is skipped under a condition. -/
theorem runIf (c : Bool) {x : Op Unit} (body : Steers edges start x) :
    Steers edges start (runIf c x) :=
  Relates.runIf (R := StaysOnCourse edges start) (fun _ follows => follows) c body

theorem forM {f : β → Op Unit} {l : List β} (body : ∀ b ∈ l, Steers edges start (f b)) :
    Steers edges start (l.forM f) := by
  induction l with
  | nil => exact pure _
  | cons b l ih =>
      exact bind (body b List.mem_cons_self) fun _ =>
        ih fun b' mem => body b' (List.mem_cons_of_mem _ mem)

theorem of_reads {x : Op α} (reads : Reads x) : Steers edges start x :=
  of_spares (.of_reads reads)

theorem ofExcept (x : Except PyError α) : Steers edges start (MonadExcept.ofExcept x : Op α) :=
  of_spares (.ofExcept x)

theorem ensureJobIdsHaveNoOtherExecutionState (ids : List JobId) (ignored : List StateModel) :
    Steers edges start (ensureJobIdsHaveNoOtherExecutionState ids ignored) :=
  of_spares (.ensureJobIdsHaveNoOtherExecutionState ids ignored)

theorem modifyDb {f : Db → Db} (same : ∀ db, courseParts (f db) = courseParts db) :
    Steers edges start (modifyDb f) := of_spares (.modifyDb same)

/-! ## Rows -/

/-- A row of a state its job may come to. -/
theorem insertRow {m : StateModel} {jobId : JobId} {mk : Nat → m.Row}
    (own : ∀ id, rowJobId (mk id) = jobId) (comes : Comes edges start (some (.live m)) jobId) :
    Steers edges start (insertRow m jobId mk) := by
  intro w u w' run follows
  rw [Accounts.of_run_insertRow run]
  constructor
  · intro m' id mem
    rcases stateJobIds_insert mem with old | ⟨same, new⟩
    · exact follows.rows m' id old
    · rw [same, new, own]
      exact comes
  · rw [Db.jobs_setTable]
    exact follows.jobs
  · rw [Db.jobs_setTable]
    exact follows.kept

/-- A row that is saved, of a state its job may come to. -/
theorem createRow {m : StateModel} (row : m.Row)
    (comes : Comes edges start (some (.live m)) (rowJobId row)) :
    Steers edges start (createRow m row) :=
  bind (of_reads Reads.timezoneNow) fun now =>
    insertRow (fun id => rowJobId_stampRow row id now) comes

/-- Rows of a state their jobs may come to. -/
theorem bulkCreate {m : StateModel} {rows : List m.Row}
    (comes : ∀ r ∈ rows, Comes edges start (some (.live m)) (rowJobId r)) :
    Steers edges start (bulkCreate m rows) :=
  forM fun r mem => createRow r (comes r mem)

/-- Rows that are deleted show nothing new. -/
theorem deleteRowsWhere (m : StateModel) (p : m.Row → Bool) :
    Steers edges start (deleteRowsWhere m p) := by
  intro w n w' run follows
  rw [(of_run_deleteRowsWhere run).2]
  constructor
  · exact fun m' id mem => follows.rows m' id (stateJobIds_delete mem)
  · rw [Db.jobs_setTable]
    exact follows.jobs
  · rw [Db.jobs_setTable]
    exact follows.kept

theorem consumeEachRow (m : StateModel) (pk : β → Nat) :
    ∀ rows : List β, Steers edges start (consumeEachRow m pk rows)
  | [] => pure _
  | _ :: rows => bind (deleteRowsWhere m _) fun _ => bind (consumeEachRow m pk rows) fun _ => pure _

/-- Both ways to consume a list of rows. -/
theorem consumeSelectedRows (env : Env) (m : StateModel) (pk : β → Nat) (rows : List β) :
    Steers edges start (consumeSelectedRows env m pk rows) := by
  unfold DjQueue.consumeSelectedRows
  split
  · exact consumeEachRow m pk rows
  · exact bind (deleteRowsWhere m _) fun _ => pure _

/-- A ready row of a job that may become ready. -/
theorem createReadyExecution {job : JobRef} {backendAlias : String} {queueName : Option String}
    {priority : Option Int} {readyAt : Time} {checked : Bool}
    (comes : Comes edges start (some (.live .ready)) job.id) :
    Steers edges start
      (createReadyExecution job backendAlias queueName priority readyAt checked) := by
  apply bind (runIf _ (ensureJobIdsHaveNoOtherExecutionState _ _))
  intro _ w u w' run
  rcases Runs.of_bind run with ⟨row, w₁, built, created⟩
  rcases Runs.of_ofExcept built with ⟨ok, rfl⟩
  exact createRow (m := .ready) row (jobId_of_readyExecutionRow ok ▸ comes) _ _ _ created

/-- A scheduled row of a job that may be scheduled. -/
theorem createScheduledExecution {job : Job} {backendAlias : String} {at' : Option Time}
    {checked : Bool} (comes : Comes edges start (some (.live .scheduled)) job.id) :
    Steers edges start (createScheduledExecution job backendAlias at' checked) := by
  apply bind (runIf _ (ensureJobIdsHaveNoOtherExecutionState _ _))
  intro _ w u w' run
  rcases Runs.of_bind run with ⟨row, w₁, built, created⟩
  rcases Runs.of_ofExcept built with ⟨ok, rfl⟩
  exact createRow (m := .scheduled) row (jobId_of_scheduledExecutionRow ok ▸ comes) _ _ _ created

/-- A blocked row of a job that may be blocked. -/
theorem createBlockedExecution {job : JobRef} {backendAlias : String} {key : Option String}
    {expiresAt : Time} {queueName : Option String} {priority : Option Int} {checked : Bool}
    (comes : Comes edges start (some (.live .blocked)) job.id) :
    Steers edges start
      (createBlockedExecution job backendAlias key expiresAt queueName priority checked) := by
  apply bind (runIf _ (ensureJobIdsHaveNoOtherExecutionState _ _))
  intro _ w u w' run
  rcases Runs.of_bind run with ⟨row, w₁, built, created⟩
  rcases Runs.of_ofExcept built with ⟨ok, rfl⟩
  exact createRow (m := .blocked) row (jobId_of_blockedExecutionRow ok ▸ comes) _ _ _ created

/-- Ready rows of jobs that may become ready. -/
theorem bulkCreateReadyExecutions {rows : List ReadyExecution} {checked : Bool}
    (comes : ∀ r ∈ rows, Comes edges start (some (.live .ready)) r.jobId) :
    Steers edges start (bulkCreateReadyExecutions rows checked) := by
  unfold DjQueue.bulkCreateReadyExecutions
  split
  · exact pure _
  · exact bind (runIf _ (ensureJobIdsHaveNoOtherExecutionState _ _)) fun _ =>
      bulkCreate (m := .ready) comes

/-! ## Jobs -/

/-- The jobs that are written had not finished, and finish only where an edge leads there. -/
theorem updateJobsWhere {p : Job → Bool} {f : Job → Job} (id : ∀ j, (f j).id = j.id)
    (hits : ∀ j, p j = true → ¬ start.Shows (some .finished) j.id ∧
      ((f j).finishedAt.isSome = true → Comes edges start (some .finished) j.id)) :
    Steers edges start (updateJobsWhere p f) := by
  intro w u w' run follows
  rw [of_run_modifyDb run]
  constructor
  · exact follows.rows
  · intro j' mem
    rcases List.mem_map.mp mem with ⟨j, there, rfl⟩
    split
    · rename_i hit
      rw [id]
      exact .inr (hits j hit)
    · exact follows.jobs j there
  · intro j mem
    apply (follows.kept j mem).imp_left
    intro still
    rcases List.mem_map.mp still with ⟨i, there, same⟩
    refine List.mem_map.mpr ⟨_, List.mem_map_of_mem there, ?_⟩
    rw [← same]
    split
    · exact id i
    · rfl

theorem deleteJobsWhere {p : Job → Bool}
    (leaves : ∀ j, p j = true → Comes edges start none j.id) :
    Steers edges start (deleteJobsWhere p) := by
  intro w n w' run follows
  rcases Runs.of_bind run with ⟨db, w₁, read, rest⟩
  rcases of_run_getDb read with ⟨rfl, rfl⟩
  rcases Runs.of_bind rest with ⟨v, w₂, written, rest⟩
  rw [(Runs.of_pure rest).2, of_run_modifyDb written]
  constructor
  · intro m id mem
    apply follows.rows m id
    cases m <;> exact (List.filter_sublist.map rowJobId).subset mem
  · exact fun j mem => follows.jobs j (List.mem_of_mem_filter mem)
  · intro j mem
    rcases follows.kept j mem with still | gone
    · rcases List.mem_map.mp still with ⟨i, there, same⟩
      cases hit : p i with
      | false =>
          refine .inl (List.mem_map.mpr ⟨i, List.mem_filter.mpr ⟨there, ?_⟩, same⟩)
          rw [hit]
          rfl
      | true => exact .inr (same ▸ leaves i hit)
    · exact .inr gone

/-- A job that is created has not finished. -/
theorem insertJob {family : BackendFamily} {job : Job} (new : ¬ start.Shows (some .finished) job.id)
    (unfinished : job.finishedAt = none) : Steers edges start (insertJob family job) := by
  intro w u w' run follows
  rw [(Accounts.of_run_insertJob run).2]
  constructor
  · exact follows.rows
  · intro j mem
    rcases List.mem_append.mp mem with old | added
    · exact follows.jobs j old
    · rw [List.mem_singleton.mp added]
      refine .inr ⟨new, fun done => ?_⟩
      rw [unfinished] at done
      cases done
  · intro j mem
    apply (follows.kept j mem).imp_left
    intro still
    exact List.map_subset _ (List.subset_append_left _ _) still

/-- A job that may finish, and had not. -/
theorem finishJobIfNoExecutionState {job : Job} {returnValue : Option String} {now : Time}
    {includeClaimed : Bool} (open_ : ¬ start.Shows (some .finished) job.id)
    (comes : Comes edges start (some .finished) job.id) :
    Steers edges start (finishJobIfNoExecutionState job returnValue now includeClaimed) := by
  apply bind (of_reads Reads.getDb)
  intro db
  refine bind (updateJobsWhere (fun _ => rfl) fun j hit => ?_) fun _ => runIf _ (throw _)
  simp only [Bool.and_eq_true, beq_iff_eq] at hit
  rw [hit.1.1]
  exact ⟨open_, fun _ => comes⟩

end Steers

end DjQueue
