import DjQueue.Interleaving.ReadyRows
import DjQueue.Relational.Interleaving

/-!
# Concurrent claims and discards of ready rows

Any number of `claim_ready_jobs` and `discard_ready_jobs` calls on one database, each a selection,
for a claim a re-read of the pauses, and a part that consumes the rows and commits.  Where rows are
locked a selection gets only rows nobody else has selected, and they stay until it commits; with
serialized writes other calls may consume them in between.

Every commit is recorded with the tables before and after it.  What it deleted and created is read
off the tables, not off what the call says.
-/

namespace DjQueue.ClaimExclusivity

open Relational

/-- What a transaction selects ready rows for. -/
inductive Purpose where
  | claim (process : Option Process)
  | discard

/-- A call: it has selected `selection`; after the re-read it goes on with `rows`. -/
inductive Phase where
  | idle
  | selected (env : Env) (purpose : Purpose) (selection : List (ReadyExecution × Job))
  | rechecked (env : Env) (purpose : Purpose) (selection rows : List (ReadyExecution × Job))

/-- The rows the call may still consume. -/
def Phase.rows : Phase → List (ReadyExecution × Job)
  | .idle => []
  | .selected _ _ selection => selection
  | .rechecked _ _ _ rows => rows

/-- What a committed call leaves. -/
structure Commit where
  selection : List (ReadyExecution × Job)
  before : Db
  after : Db
  /-- The jobs a claim returned; a discard returns none. -/
  returned : Option (List ClaimedJob)

namespace Commit

/-- The ready rows the transaction deleted. -/
def deleted (c : Commit) : List ReadyExecution :=
  c.before.ready.rows.filter (fun r => !c.after.ready.rows.contains r)

/-- The claims the transaction created. -/
def created (c : Commit) : List ClaimedExecution :=
  c.after.claimed.rows.filter (fun r => !c.before.claimed.rows.contains r)

/-- The jobs of the claims the call returned. -/
def returnedJobs (c : Commit) : List Job := (c.returned.getD []).map ClaimedJob.job

end Commit

/-- A database with the transactions on it, and what they have committed. -/
structure State where
  db : Db
  calls : Pool Phase
  history : List Commit

/-- No call holds the lock of the ready row. -/
def LockFree (s : State) (id : Nat) : Prop := ∀ i, ∀ x ∈ (s.calls i).rows, x.1.id ≠ id

/-- The rows a selection of call `i` can see: some of `rows`, and where rows are locked only those
nobody else holds. -/
structure Visible (family : BackendFamily) (s : State) (rows visible : List ReadyExecution) :
    Prop where
  some : visible.Sublist rows
  free : family.usesSerializedWrites = false → ∀ r ∈ visible, LockFree s r.id

/-- `_lock_active_pauses` on the latest committed pauses, then the rows of other queues. -/
def unpausedRows (db : Db) (env : Env) (rows : List (ReadyExecution × Job)) :
    List (ReadyExecution × Job) :=
  rows.filter (fun r => !(lockActivePauses db env.config.backendAlias
    (rows.map (fun r => r.1.queueName))).contains r.1.queueName)

/-- The consuming part of a call, as the rest of its transaction. -/
def consume (env : Env) (purpose : Purpose) (rows : List (ReadyExecution × Job)) :
    Op (Option (List ClaimedJob)) :=
  match purpose with
  | .claim process => transactionAtomic
      (some <$> if rows.isEmpty then pure [] else claimSelectedRows env rows process)
  | .discard => transactionAtomic ((fun _ => none) <$> discardSelectedRows env rows)

/-- One statement, commit or rollback, on a database of this family. -/
inductive Step (family : BackendFamily) : State → State → Prop
  /-- A claim selects on the rows it sees. -/
  | selectClaim (s : State) (i : Nat) (idle : s.calls i = .idle) (env : Env)
      (same : env.config.family = family) (process : Option Process) (queues : QueueSelectors)
      (limit : Nat) (visible : List ReadyExecution)
      (sees : Visible family s (claimableRows s.db env.config.backendAlias) visible) :
      Step family s { s with calls := s.calls.set i (.selected env (.claim process)
        (selectRelatedJob (m := .ready) s.db (selectReadyRows env visible queues limit))) }
  /-- The claim's checks pass, and it re-reads the pauses. -/
  | recheck (s : State) (i : Nat) {env : Env} {process : Option Process}
      {selection : List (ReadyExecution × Job)}
      (phase : s.calls i = .selected env (.claim process) selection) (clock : Nat → Time)
      (uuids : Nat → JobId)
      (checked : (returned (ensureClaimable env selection) ⟨s.db, clock, uuids⟩).isSome) :
      Step family s { s with calls := s.calls.set i (.rechecked env (.claim process) selection
        (unpausedRows s.db env selection)) }
  /-- A discard selects on the rows it sees; it has no pauses to re-read. -/
  | selectDiscard (s : State) (i : Nat) (idle : s.calls i = .idle) (env : Env)
      (same : env.config.family = family) (jobIds : Option (List JobId))
      (queueName : Option String) (batchSize : Nat) (visible : List ReadyExecution)
      (sees : Visible family s s.db.ready.rows visible)
      (checked : ∀ x ∈ (discardableRows env s.db visible jobIds queueName).take batchSize,
        x.2.backendAlias = env.config.backendAlias) :
      Step family s { s with calls := s.calls.set i (.rechecked env .discard
        ((discardableRows env s.db visible jobIds queueName).take batchSize)
        ((discardableRows env s.db visible jobIds queueName).take batchSize)) }
  /-- The call consumes its rows and commits. -/
  | commit (s : State) (i : Nat) {env : Env} {purpose : Purpose}
      {selection rows : List (ReadyExecution × Job)}
      (phase : s.calls i = .rechecked env purpose selection rows) (clock : Nat → Time)
      (uuids : Nat → JobId) (returned : Option (List ClaimedJob)) (w : World)
      (run : Runs (consume env purpose rows) ⟨s.db, clock, uuids⟩ returned w) :
      Step family s
        ⟨w.db, s.calls.set i .idle, s.history ++ [⟨selection, s.db, w.db, returned⟩]⟩
  /-- The call raises, is cut off or starts over: its transaction is undone. -/
  | rollback (s : State) (i : Nat) : Step family s { s with calls := s.calls.set i .idle }
  /-- Other transactions pause and resume queues and make further jobs ready. -/
  | other (s : State) (db : Db) (queued : Queued db) (claimed : db.claimed = s.db.claimed)
      (next : s.db.ready.nextId ≤ db.ready.nextId) (new : List ReadyExecution)
      (ready : db.ready.rows = s.db.ready.rows ++ new)
      (later : ∀ r ∈ new, s.db.ready.nextId ≤ r.id) : Step family s { s with db := db }

/-- Nobody has begun. -/
def Initial (s : State) : Prop := (∀ i, s.calls i = .idle) ∧ s.history = [] ∧ Queued s.db

/-! ## What a commit does -/

/-- The rows a commit deleted were selected by its call, at most one a job.  A claim returned
exactly their jobs, in the order of the selection, and created one claim for each; a discard
created none, and their jobs are gone. -/
structure Commit.Exact (c : Commit) : Prop where
  distinct : (rowIds c.selection).Nodup
  loaded : ∀ x ∈ c.selection, x.2.id = x.1.jobId
  selected : ∀ r ∈ c.deleted, ∃ x ∈ c.selection, x.1 = r
  jobs : (c.deleted.map ReadyExecution.jobId).Nodup
  outcome : match c.returned with
    | some claimed =>
        claimed.map ClaimedJob.job =
            (c.selection.filter (fun x => c.deleted.contains x.1)).map Prod.snd ∧
          (c.created.map ClaimedExecution.jobId).Perm (c.deleted.map ReadyExecution.jobId)
    | none => c.created = [] ∧ ∀ r ∈ c.deleted, r.jobId ∉ c.after.jobs.map Job.id

/-- The rows a call is about to consume, on the tables as they are now. -/
structure Held (family : BackendFamily) (db : Db) (selection rows : List (ReadyExecution × Job)) :
    Prop where
  chosen : ∃ p : ReadyExecution × Job → Bool, rows = selection.filter p
  nodup : (rowIds selection).Nodup
  loaded : ∀ x ∈ selection, x.2.id = x.1.jobId
  known : ∀ x ∈ selection, x.1.id < db.ready.nextId
  same : ∀ x ∈ selection, ∀ r ∈ db.ready.rows, r.id = x.1.id → r = x.1
  held : family.usesSerializedWrites = false → ∀ x ∈ rows, x.1 ∈ db.ready.rows

namespace Held

variable {family : BackendFamily} {db db' : Db} {selection rows : List (ReadyExecution × Job)}

theorem mem_selection (held : Held family db selection rows) {x : ReadyExecution × Job}
    (mem : x ∈ rows) : x ∈ selection := by
  obtain ⟨p, rfl⟩ := held.chosen
  exact List.mem_of_mem_filter mem

theorem rows_nodup (held : Held family db selection rows) : (rowIds rows).Nodup := by
  obtain ⟨p, rfl⟩ := held.chosen
  exact held.nodup.sublist (List.filter_sublist.map _)

/-- Where rows are locked, a locked row is still there. -/
theorem locked (held : Held family db selection rows)
    (locks : family.usesSerializedWrites = false) :
    ∀ x ∈ rows, x.1.id ∈ db.ready.rows.map ReadyExecution.id :=
  fun x mem => List.mem_map.mpr ⟨x.1, held.held locks x mem, rfl⟩

/-- Others wrote: the call's rows are as they were, if they are still there, and a locked row is. -/
theorem shift (held : Held family db selection rows)
    (next : db.ready.nextId ≤ db'.ready.nextId)
    (rowsOf : ∀ r ∈ db'.ready.rows, r ∈ db.ready.rows ∨ db.ready.nextId ≤ r.id)
    (kept : family.usesSerializedWrites = false → ∀ x ∈ rows, x.1 ∈ db'.ready.rows) :
    Held family db' selection rows where
  chosen := held.chosen
  nodup := held.nodup
  loaded := held.loaded
  known x mem := Nat.lt_of_lt_of_le (held.known x mem) next
  same x mem r inside eq := by
    rcases rowsOf r inside with old | fresh
    · exact held.same x mem r old eq
    · have known := held.known x mem
      omega
  held := kept

end Held

section Commits

variable {family : BackendFamily} {c : Commit} {rows : List (ReadyExecution × Job)}

/-- What is left of the ready rows, whether the call claimed or discarded. -/
structure Leaves (rows : List (ReadyExecution × Job)) (db db' : Db) : Prop where
  next : db.ready.nextId ≤ db'.ready.nextId
  ready : ∃ new, db'.ready.rows = (without (m := .ready) db.ready (rowIds rows)).rows ++ new ∧
    ∀ r ∈ new, db.ready.nextId ≤ r.id

/-- A ready row is an old one or comes from a release. -/
theorem Leaves.mem_old {db db' : Db} (leaves : Leaves rows db db') {r : ReadyExecution}
    (mem : r ∈ db'.ready.rows) : r ∈ db.ready.rows ∨ db.ready.nextId ≤ r.id := by
  obtain ⟨new, ready, later⟩ := leaves.ready
  rw [ready] at mem
  rcases List.mem_append.mp mem with old | fresh
  · exact .inl (List.mem_of_mem_filter old)
  · exact .inr (later r fresh)

/-- An old row leaves exactly when it was consumed. -/
theorem Leaves.mem_iff {db db' : Db} (leaves : Leaves rows db db') (queued : Queued db)
    {r : ReadyExecution} (mem : r ∈ db.ready.rows) :
    r ∈ db'.ready.rows ↔ r.id ∉ rowIds rows := by
  obtain ⟨new, ready, later⟩ := leaves.ready
  rw [ready, List.mem_append]
  have bound := queued.bound r mem
  constructor
  · rintro (old | fresh) hit
    · have out := (List.mem_filter.mp old).2
      change (!(rowIds rows).contains r.id) = true at out
      rw [List.contains_iff_mem.mpr hit] at out
      cases out
    · have low := later r fresh
      omega
  · intro out
    refine .inl (List.mem_filter.mpr ⟨mem, ?_⟩)
    change (!(rowIds rows).contains r.id) = true
    rw [Bool.not_eq_true', Bool.eq_false_iff]
    exact fun hit => out (List.contains_iff_mem.mp hit)

/-- The rows the commit deleted are those its call went for and found. -/
theorem mem_deleted (leaves : Leaves rows c.before c.after) (queued : Queued c.before)
    {r : ReadyExecution} :
    r ∈ c.deleted ↔ r ∈ c.before.ready.rows ∧ r.id ∈ rowIds rows := by
  unfold Commit.deleted
  rw [List.mem_filter]
  refine and_congr_right fun mem => ?_
  rw [Bool.not_eq_true', Bool.eq_false_iff, ne_eq, List.contains_iff_mem,
    leaves.mem_iff queued mem, Decidable.not_not]

/-- The rows that are deleted are those that were still there. -/
theorem mem_deleted_iff_stillThere (held : Held family c.before c.selection rows)
    (leaves : Leaves rows c.before c.after) (queued : Queued c.before) {r : ReadyExecution} :
    r ∈ c.deleted ↔ ∃ x ∈ stillThere c.before rows, x.1 = r := by
  rw [mem_deleted leaves queued]
  constructor
  · rintro ⟨there, hit⟩
    obtain ⟨x, mem, eq⟩ := List.mem_map.mp hit
    refine ⟨x, List.mem_filter.mpr ⟨mem, List.contains_iff_mem.mpr ?_⟩, ?_⟩
    · exact List.mem_map.mpr ⟨r, there, eq.symm⟩
    · exact (held.same x (held.mem_selection mem) r there eq.symm).symm
  · rintro ⟨x, mem, rfl⟩
    exact ⟨mem_ready_of_stillThere (fun y inside => held.same y (held.mem_selection inside)) mem,
      List.mem_map.mpr ⟨x, List.mem_of_mem_filter mem, rfl⟩⟩

/-- The rows deleted are, up to their order, those that were still there. -/
theorem deleted_perm (held : Held family c.before c.selection rows)
    (leaves : Leaves rows c.before c.after) (queued : Queued c.before) :
    c.deleted.Perm ((stillThere c.before rows).map Prod.fst) := by
  have ids : (((stillThere c.before rows).map Prod.fst).map ReadyExecution.id).Nodup := by
    rw [List.map_map]
    exact held.rows_nodup.sublist (List.filter_sublist.map _)
  have distinct : c.deleted.Nodup := ((queued.ids).of_map _).sublist List.filter_sublist
  refine (List.perm_ext_iff_of_nodup distinct (ids.of_map _)).mpr fun r => ?_
  rw [mem_deleted_iff_stillThere held leaves queued, List.mem_map]

/-- In the order of the selection, the rows that were deleted are those that were still there. -/
theorem filter_deleted (held : Held family c.before c.selection rows)
    (leaves : Leaves rows c.before c.after) (queued : Queued c.before) :
    c.selection.filter (fun x => c.deleted.contains x.1) = stillThere c.before rows := by
  obtain ⟨p, isFilter⟩ := held.chosen
  unfold stillThere
  nth_rewrite 1 [isFilter]
  rw [List.filter_filter]
  refine List.filter_congr fun x mem => ?_
  rw [Bool.eq_iff_iff, List.contains_iff_mem, mem_deleted leaves queued, Bool.and_eq_true,
    List.contains_iff_mem]
  constructor
  · rintro ⟨there, hit⟩
    obtain ⟨y, inside, eq⟩ := List.mem_map.mp hit
    have sameRow : y = x := List.inj_on_of_nodup_map held.nodup (held.mem_selection inside) mem eq
    rw [sameRow, isFilter] at inside
    exact ⟨List.mem_map.mpr ⟨x.1, there, rfl⟩, (List.mem_filter.mp inside).2⟩
  · rintro ⟨hit, chosen⟩
    obtain ⟨r, there, eq⟩ := List.mem_map.mp hit
    have inside : x ∈ rows := by
      rw [isFilter]
      exact List.mem_filter.mpr ⟨mem, chosen⟩
    rw [← held.same x mem r there eq]
    refine ⟨there, ?_⟩
    rw [eq]
    exact List.mem_map.mpr ⟨x, inside, rfl⟩

theorem nodup_deleted_jobs (queued : Queued c.before) :
    (c.deleted.map ReadyExecution.jobId).Nodup :=
  queued.jobs.sublist (List.filter_sublist.map _)

theorem jobs_deleted_perm (held : Held family c.before c.selection rows)
    (leaves : Leaves rows c.before c.after) (queued : Queued c.before) :
    ((stillThere c.before rows).map (fun x => x.1.jobId)).Perm
      (c.deleted.map ReadyExecution.jobId) := by
  have perm := ((deleted_perm held leaves queued).map ReadyExecution.jobId).symm
  rw [List.map_map] at perm
  exact perm

theorem selected_of_deleted (held : Held family c.before c.selection rows)
    (leaves : Leaves rows c.before c.after) (queued : Queued c.before) :
    ∀ r ∈ c.deleted, ∃ x ∈ c.selection, x.1 = r := by
  intro r mem
  obtain ⟨x, there, eq⟩ := (mem_deleted_iff_stillThere held leaves queued).mp mem
  exact ⟨x, held.mem_selection (List.mem_of_mem_filter there), eq⟩

/-! ### Claims -/

/-- A claim takes its rows and no others. -/
theorem leaves_of_claims {db db' : Db} (claims : Claims rows db db') : Leaves rows db db' := by
  refine ⟨?_, [], ?_, nofun⟩
  · rw [claims.ready]
    exact Nat.le_refl _
  · rw [claims.ready, List.append_nil]

/-- A claim that has no rows left after the re-read does nothing. -/
theorem claims_nil (db : Db) : Claims [] db db := by
  refine ⟨?_, rfl, [], (List.append_nil _).symm, .nil, nofun⟩
  exact (without_nil (m := .ready) db.ready).symm

/-- The claims that are new in the table: their jobs had none. -/
theorem created_of_claims (claims : Claims rows c.before c.after) :
    (c.created.map ClaimedExecution.jobId).Perm
      ((stillThere c.before rows).map (fun x => x.1.jobId)) := by
  obtain ⟨new, appended, perm, fresh⟩ := claims.claimed
  have old : c.before.claimed.rows.filter (fun r => !c.before.claimed.rows.contains r) = [] := by
    refine List.filter_eq_nil_iff.mpr fun r mem hit => ?_
    rw [List.contains_iff_mem.mpr mem] at hit
    cases hit
  have created : new.filter (fun r => !c.before.claimed.rows.contains r) = new := by
    refine List.filter_eq_self.mpr fun r mem => ?_
    rw [Bool.not_eq_true', Bool.eq_false_iff]
    intro hit
    exact fresh r mem (List.mem_map.mpr ⟨r, List.contains_iff_mem.mp hit, rfl⟩)
  unfold Commit.created
  rw [appended, List.filter_append, old, created]
  exact perm

/-- A claim returns the jobs whose rows it deleted. -/
theorem exact_of_claims {claimed : List ClaimedJob} (held : Held family c.before c.selection rows)
    (queued : Queued c.before) (claims : Claims rows c.before c.after)
    (returned : c.returned = some claimed)
    (order : claimed.map ClaimedJob.job = (stillThere c.before rows).map Prod.snd) : c.Exact := by
  have leaves := leaves_of_claims claims
  refine ⟨held.nodup, held.loaded, selected_of_deleted held leaves queued,
    nodup_deleted_jobs queued, ?_⟩
  rw [returned]
  constructor
  · rw [order, filter_deleted held leaves queued]
  · exact (created_of_claims claims).trans (jobs_deleted_perm held leaves queued)

/-- A claim leaves one row for every job. -/
theorem queued_of_claims (held : Held family c.before c.selection rows)
    (queued : Queued c.before) (claims : Claims rows c.before c.after) : Queued c.after := by
  have leaves := leaves_of_claims claims
  have taken := jobs_deleted_perm held leaves queued
  obtain ⟨new, appended, perm, fresh⟩ := claims.claimed
  refine ⟨?_, ?_, ?_, ?_, ?_⟩
  · rw [claims.ready]
    exact queued.ids.sublist (List.filter_sublist.map _)
  · rw [claims.ready]
    exact fun r mem => queued.bound r (List.mem_of_mem_filter mem)
  · rw [claims.ready]
    exact queued.jobs.sublist (List.filter_sublist.map _)
  · rw [appended, List.map_append, List.nodup_append]
    refine ⟨queued.claims, (perm.trans taken).nodup_iff.mpr (nodup_deleted_jobs queued), ?_⟩
    rintro id old id' isNew rfl
    obtain ⟨r, mem, rfl⟩ := List.mem_map.mp isNew
    exact fresh r mem old
  · intro r mem claim inside same
    rw [appended] at inside
    rcases List.mem_append.mp inside with old | isNew
    · rw [claims.ready] at mem
      exact queued.apart r (List.mem_of_mem_filter mem) claim old same
    · -- the row of a new claim's job is among the deleted ones
      have job : claim.jobId ∈ c.deleted.map ReadyExecution.jobId :=
        (perm.trans taken).mem_iff.mp (List.mem_map.mpr ⟨claim, isNew, rfl⟩)
      obtain ⟨r', gone, eq⟩ := List.mem_map.mp job
      obtain ⟨there, out⟩ := List.mem_filter.mp gone
      have old : r ∈ c.before.ready.rows := by
        rw [claims.ready] at mem
        exact List.mem_of_mem_filter mem
      rw [queued.eq_of_job there old (eq.trans same), List.contains_iff_mem.mpr mem] at out
      cases out

/-! ### Discards -/

/-- A discard takes its rows and no others. -/
theorem leaves_of_discards {db db' : Db} (discards : Discards rows db db') : Leaves rows db db' :=
  ⟨discards.next, discards.ready⟩

theorem exact_of_discards (held : Held family c.before c.selection rows)
    (queued : Queued c.before) (discards : Discards rows c.before c.after)
    (returned : c.returned = none) : c.Exact := by
  have leaves := leaves_of_discards discards
  refine ⟨held.nodup, held.loaded, selected_of_deleted held leaves queued,
    nodup_deleted_jobs queued, ?_⟩
  rw [returned]
  constructor
  · refine List.filter_eq_nil_iff.mpr fun r mem hit => ?_
    rw [discards.claimed] at mem
    rw [List.contains_iff_mem.mpr mem] at hit
    cases hit
  · intro r mem there
    have taken : r.jobId ∈ (stillThere c.before rows).map (fun x => x.1.jobId) :=
      (jobs_deleted_perm held leaves queued).mem_iff.mpr (List.mem_map.mpr ⟨r, mem, rfl⟩)
    obtain ⟨j, inside, eq⟩ := List.mem_map.mp there
    rw [discards.jobs] at inside
    have out := (List.mem_filter.mp inside).2
    rw [eq, List.contains_iff_mem.mpr taken] at out
    cases out

/-! ### Either -/

/-- The jobs that are claimed. -/
def claimedJobs (db : Db) : List JobId := db.claimed.rows.map ClaimedExecution.jobId

/-- What the others and the later steps rely on of a committed call. -/
structure Settles (c : Commit) (rows : List (ReadyExecution × Job)) : Prop where
  exact : c.Exact
  leaves : Leaves rows c.before c.after
  queued : Queued c.after
  keeps : ∀ id ∈ claimedJobs c.before, id ∈ claimedJobs c.after
  claims : ∀ j ∈ c.returnedJobs, j.id ∈ claimedJobs c.after

/-- A job that is returned had its row deleted. -/
theorem Commit.Exact.mem_deleted_of_returned (exact : c.Exact) {j : Job}
    (mem : j ∈ c.returnedJobs) : ∃ r ∈ c.deleted, r.jobId = j.id := by
  have outcome := exact.outcome
  unfold Commit.returnedJobs at mem
  cases result : c.returned with
  | none =>
      rw [result] at mem
      cases mem
  | some claimed =>
      rw [result] at outcome mem
      rw [Option.getD_some, outcome.1] at mem
      obtain ⟨x, inside, rfl⟩ := List.mem_map.mp mem
      obtain ⟨inSelection, deleted⟩ := List.mem_filter.mp inside
      exact ⟨x.1, List.contains_iff_mem.mp deleted, (exact.loaded x inSelection).symm⟩

/-- A deleted row had its job returned. -/
theorem Commit.Exact.returned_of_mem_deleted (exact : c.Exact) (claim : c.returned.isSome)
    {r : ReadyExecution} (mem : r ∈ c.deleted) : ∃ j ∈ c.returnedJobs, j.id = r.jobId := by
  have outcome := exact.outcome
  obtain ⟨claimed, result⟩ := Option.isSome_iff_exists.mp claim
  rw [result] at outcome
  obtain ⟨x, inSelection, rfl⟩ := exact.selected r mem
  refine ⟨x.2, ?_, exact.loaded x inSelection⟩
  unfold Commit.returnedJobs
  rw [result, Option.getD_some, outcome.1]
  exact List.mem_map.mpr
    ⟨x, List.mem_filter.mpr ⟨inSelection, List.contains_iff_mem.mpr mem⟩, rfl⟩

/-- A call returns a job once: its selection has one row a job. -/
theorem Commit.Exact.nodup_returned (exact : c.Exact) : (c.returnedJobs.map Job.id).Nodup := by
  have outcome := exact.outcome
  unfold Commit.returnedJobs
  cases result : c.returned with
  | none => exact List.nodup_nil
  | some claimed =>
      rw [result] at outcome
      rw [Option.getD_some, outcome.1, List.map_map]
      have pairs : c.selection.Nodup := List.Nodup.of_map _ exact.distinct
      refine List.Nodup.map_on ?_ (pairs.sublist List.filter_sublist)
      intro x mem y mem' same
      obtain ⟨inSelection, deleted⟩ := List.mem_filter.mp mem
      obtain ⟨inSelection', deleted'⟩ := List.mem_filter.mp mem'
      rw [Function.comp_apply, Function.comp_apply, exact.loaded x inSelection,
        exact.loaded y inSelection'] at same
      have rows := List.inj_on_of_nodup_map exact.jobs (List.contains_iff_mem.mp deleted)
        (List.contains_iff_mem.mp deleted') same
      exact List.inj_on_of_nodup_map exact.distinct inSelection inSelection'
        (congrArg ReadyExecution.id rows)

theorem settles_of_claims {claimed : List ClaimedJob}
    (held : Held family c.before c.selection rows) (queued : Queued c.before)
    (claims : Claims rows c.before c.after) (returned : c.returned = some claimed)
    (order : claimed.map ClaimedJob.job = (stillThere c.before rows).map Prod.snd) :
    Settles c rows := by
  have exact := exact_of_claims held queued claims returned order
  have outcome := exact.outcome
  rw [returned] at outcome
  refine ⟨exact, leaves_of_claims claims, queued_of_claims held queued claims, ?_, ?_⟩
  · obtain ⟨new, appended, -, -⟩ := claims.claimed
    intro id mem
    unfold claimedJobs at mem ⊢
    rw [appended, List.map_append]
    exact List.mem_append.mpr (.inl mem)
  · intro j mem
    obtain ⟨r, gone, eq⟩ := exact.mem_deleted_of_returned mem
    rw [← eq]
    obtain ⟨claim, created, job⟩ := List.mem_map.mp
      (outcome.2.mem_iff.mpr (List.mem_map.mpr ⟨r, gone, rfl⟩))
    exact List.mem_map.mpr ⟨claim, List.mem_of_mem_filter created, job⟩

theorem settles_of_discards (held : Held family c.before c.selection rows)
    (queued : Queued c.before) (discards : Discards rows c.before c.after)
    (returned : c.returned = none) : Settles c rows := by
  refine ⟨exact_of_discards held queued discards returned, leaves_of_discards discards,
    discards.queued, ?_, ?_⟩
  · intro id mem
    unfold claimedJobs
    rw [discards.claimed]
    exact mem
  · intro j mem
    unfold Commit.returnedJobs at mem
    rw [returned] at mem
    cases mem

/-- The part that consumes settles what was selected. -/
theorem settles_of_consume {env : Env} {purpose : Purpose} {selection : List (ReadyExecution × Job)}
    {w w' : World} {returned : Option (List ClaimedJob)} (same : env.config.family = family)
    (held : Held family w.db selection rows) (queued : Queued w.db)
    (run : Runs (consume env purpose rows) w returned w') :
    Settles ⟨selection, w.db, w'.db, returned⟩ rows := by
  have locked := held.locked
  rw [← same] at locked
  have sameRow := fun x (mem : x ∈ rows) => held.same x (held.mem_selection mem)
  cases purpose with
  | claim process =>
      change Runs (transactionAtomic _) _ _ _ at run
      obtain ⟨claimed, body, rfl⟩ := Runs.of_map (Runs.of_atomic run)
      split at body
      · rename_i none
        obtain rfl := List.isEmpty_iff.mp none
        obtain ⟨rfl, rfl⟩ := Runs.of_pure body
        exact settles_of_claims held queued (claims_nil _) rfl rfl
      · obtain ⟨order, claims⟩ := claims_of_claimSelectedRows queued held.rows_nodup
          (fun x mem => held.loaded x (held.mem_selection mem)) sameRow locked body
        exact settles_of_claims held queued claims rfl order
  | discard =>
      change Runs (transactionAtomic _) _ _ _ at run
      obtain ⟨n, body, rfl⟩ := Runs.of_map (Runs.of_atomic run)
      have discards := discards_of_discardSelectedRows queued held.rows_nodup sameRow locked body
      exact settles_of_discards held queued discards rfl

end Commits

/-! ## Selections -/

section Selections

variable {family : BackendFamily} {db : Db} {env : Env} {visible : List ReadyExecution}

/-- Rows that are selected now, with nothing written since. -/
theorem held_of_selected (queued : Queued db) {selection : List (ReadyExecution × Job)}
    (selected : Selected (m := .ready) db selection) : Held family db selection selection where
  chosen := ⟨fun _ => true, (List.filter_true _).symm⟩
  nodup := selected.nodup
  loaded _ mem := selected.id_eq mem
  known x mem := queued.bound x.1 (selected.mem x mem)
  same x mem _ there eq := queued.eq_of_id there (selected.mem x mem) eq
  held _ x mem := selected.mem x mem

/-- A claim selects some of the rows it sees. -/
theorem held_of_selectClaim (queued : Queued db) (queues : QueueSelectors) (limit : Nat)
    (some : visible.Sublist db.ready.rows) :
    Held family db (selectRelatedJob (m := .ready) db (selectReadyRows env visible queues limit))
      (selectRelatedJob (m := .ready) db (selectReadyRows env visible queues limit)) := by
  have chosen := chosen_selectReadyRows (queued.ids.sublist (some.map _)) env queues limit
  refine held_of_selected queued (.of_selectRelatedJob ?_ chosen.nodup)
  exact fun r mem => some.subset (chosen.mem r mem)

/-- A discard selects some of the rows it sees. -/
theorem held_of_selectDiscard (queued : Queued db) (jobIds : Option (List JobId))
    (queueName : Option String) (batchSize : Nat) (some : visible.Sublist db.ready.rows) :
    Held family db ((discardableRows env db visible jobIds queueName).take batchSize)
      ((discardableRows env db visible jobIds queueName).take batchSize) := by
  have ordered : Selected (m := .ready) db
      (selectRelatedJob (m := .ready) db (orderBy (rowIdOrder (m := .ready)) visible)) := by
    refine .of_selectRelatedJob (fun r mem => some.subset (mem_orderBy.mp mem)) ?_
    exact ((orderBy_perm _ visible).map _).nodup_iff.mpr (queued.ids.sublist (some.map _))
  refine held_of_selected queued (ordered.sublist ?_)
  exact (List.take_sublist _ _).trans List.filter_sublist

end Selections

/-! ## Runs -/

/-- What a call carries between its statements. -/
def Phase.Good (family : BackendFamily) (db : Db) : Phase → Prop
  | .idle => True
  | .selected env _ selection => env.config.family = family ∧ Held family db selection selection
  | .rechecked env _ selection rows => env.config.family = family ∧ Held family db selection rows

/-- Two calls on a database that locks rows go for different rows. -/
def Apart (p q : Phase) : Prop := ∀ x ∈ p.rows, ∀ y ∈ q.rows, x.1.id ≠ y.1.id

/-- What holds between the statements of all transactions. -/
structure Inv (family : BackendFamily) (s : State) : Prop where
  queued : Queued s.db
  phases : ∀ i, (s.calls i).Good family s.db
  exclusive : family.usesSerializedWrites = false → ∀ i j, i ≠ j → Apart (s.calls i) (s.calls j)
  commits : ∀ c ∈ s.history, c.Exact
  once : ((s.history.flatMap Commit.deleted).map ReadyExecution.id).Nodup
  gone : ∀ c ∈ s.history, ∀ r ∈ c.deleted,
    r.id < s.db.ready.nextId ∧ r.id ∉ s.db.ready.rows.map ReadyExecution.id
  returnedOnce : ((s.history.flatMap Commit.returnedJobs).map Job.id).Nodup
  claimed : ∀ c ∈ s.history, ∀ j ∈ c.returnedJobs, j.id ∈ claimedJobs s.db

theorem Apart.symm {p q : Phase} (apart : Apart p q) : Apart q p :=
  fun x mem y inside same => apart y inside x mem same.symm

/-- Others wrote: a call is where it was, if the rows it locked are there. -/
theorem Phase.Good.shift {family : BackendFamily} {db db' : Db} {p : Phase}
    (good : p.Good family db) (next : db.ready.nextId ≤ db'.ready.nextId)
    (rowsOf : ∀ r ∈ db'.ready.rows, r ∈ db.ready.rows ∨ db.ready.nextId ≤ r.id)
    (kept : family.usesSerializedWrites = false → ∀ x ∈ p.rows, x.1 ∈ db.ready.rows →
      x.1 ∈ db'.ready.rows) : p.Good family db' := by
  cases p with
  | idle => trivial
  | selected env purpose selection =>
      obtain ⟨same, held⟩ := good
      refine ⟨same, held.shift next rowsOf fun locks x mem => ?_⟩
      exact kept locks x mem (held.held locks x mem)
  | rechecked env purpose selection rows =>
      obtain ⟨same, held⟩ := good
      refine ⟨same, held.shift next rowsOf fun locks x mem => ?_⟩
      exact kept locks x mem (held.held locks x mem)

section Steps

variable {family : BackendFamily} {s t : State}

/-- One call moves, and the tables stay. -/
theorem Inv.setCall (inv : Inv family s) (i : Nat) {p : Phase} (good : p.Good family s.db)
    (apart : family.usesSerializedWrites = false → ∀ j, j ≠ i → Apart p (s.calls j)) :
    Inv family { s with calls := s.calls.set i p } := by
  refine ⟨inv.queued, ?_, ?_, inv.commits, inv.once, inv.gone, inv.returnedOnce, inv.claimed⟩
  · exact Pool.forall_set (P := fun _ p => Phase.Good family s.db p) good
      fun j _ => inv.phases j
  · intro locks
    exact Pool.forall_pair_set (P := Apart) (fun _ _ => Apart.symm) (apart locks)
      (inv.exclusive locks)

/-- A row that nobody has locked is apart from all others. -/
theorem apart_of_lockFree {p : Phase} (free : ∀ x ∈ p.rows, LockFree s x.1.id) (j : Nat) :
    Apart p (s.calls j) :=
  fun x mem y inside same => free x mem j y inside same.symm

/-- The rows a call went for are gone; those of the other calls and everything newer are not. -/
theorem Inv.commit (inv : Inv family s) {i : Nat} {rows : List (ReadyExecution × Job)}
    (isRows : (s.calls i).rows = rows) {c : Commit} (before : c.before = s.db)
    (settles : Settles c rows) :
    Inv family ⟨c.after, s.calls.set i .idle, s.history ++ [c]⟩ := by
  have leaves := settles.leaves
  have keeps := settles.keeps
  rw [before] at leaves keeps
  have deleted : ∀ r ∈ c.deleted, r ∈ s.db.ready.rows ∧ r ∉ c.after.ready.rows := by
    intro r mem
    obtain ⟨there, out⟩ := List.mem_filter.mp mem
    rw [before] at there
    refine ⟨there, fun still => ?_⟩
    rw [List.contains_iff_mem.mpr still] at out
    cases out
  refine ⟨settles.queued, ?_, ?_, ?_, ?_, ?_, ?_, ?_⟩
  · refine Pool.forall_set (P := fun _ p => Phase.Good family c.after p) trivial ?_
    intro j other
    refine (inv.phases j).shift leaves.next (fun r mem => leaves.mem_old mem) ?_
    intro locks x mem there
    refine (leaves.mem_iff inv.queued there).mpr fun hit => ?_
    obtain ⟨y, inside, eq⟩ := List.mem_map.mp hit
    rw [← isRows] at inside
    exact inv.exclusive locks i j (Ne.symm other) y inside x mem eq
  · intro locks
    exact Pool.forall_pair_set (P := Apart) (fun _ _ => Apart.symm)
      (fun _ _ x mem => absurd mem List.not_mem_nil) (inv.exclusive locks)
  · intro d mem
    rcases List.mem_append.mp mem with old | last
    · exact inv.commits d old
    · rw [List.mem_singleton.mp last]
      exact settles.exact
  · rw [List.flatMap_append, List.map_append, List.nodup_append]
    refine ⟨inv.once, ?_, ?_⟩
    · rw [List.flatMap_singleton]
      refine List.Nodup.sublist (List.filter_sublist.map _) ?_
      rw [before]
      exact inv.queued.ids
    · rintro id old id' new rfl
      obtain ⟨r, mem, rfl⟩ := List.mem_map.mp old
      obtain ⟨d, inHistory, inDeleted⟩ := List.mem_flatMap.mp mem
      obtain ⟨r', mem', eq⟩ := List.mem_map.mp new
      rw [List.flatMap_singleton] at mem'
      refine (inv.gone d inHistory r inDeleted).2 ?_
      exact List.mem_map.mpr ⟨r', (deleted r' mem').1, eq⟩
  · intro d mem r inDeleted
    rcases List.mem_append.mp mem with old | last
    · obtain ⟨low, out⟩ := inv.gone d old r inDeleted
      refine ⟨Nat.lt_of_lt_of_le low leaves.next, fun back => ?_⟩
      obtain ⟨r', there, eq⟩ := List.mem_map.mp back
      rcases leaves.mem_old there with former | newer
      · exact out (List.mem_map.mpr ⟨r', former, eq⟩)
      · omega
    · rw [List.mem_singleton.mp last] at inDeleted
      obtain ⟨there, out⟩ := deleted r inDeleted
      have low := inv.queued.bound r there
      refine ⟨Nat.lt_of_lt_of_le low leaves.next, fun back => ?_⟩
      obtain ⟨r', still, eq⟩ := List.mem_map.mp back
      rcases leaves.mem_old still with former | newer
      · rw [inv.queued.eq_of_id former there eq] at still
        exact out still
      · omega
  · rw [List.flatMap_append, List.map_append, List.nodup_append]
    refine ⟨inv.returnedOnce, ?_, ?_⟩
    · rw [List.flatMap_singleton]
      exact settles.exact.nodup_returned
    · rintro id old id' new rfl
      obtain ⟨j, mem, rfl⟩ := List.mem_map.mp old
      obtain ⟨d, inHistory, isReturned⟩ := List.mem_flatMap.mp mem
      obtain ⟨j', mem', eq⟩ := List.mem_map.mp new
      rw [List.flatMap_singleton] at mem'
      -- the job was claimed before, so it had no ready row to delete
      obtain ⟨claim, there, job⟩ := List.mem_map.mp (inv.claimed d inHistory j isReturned)
      obtain ⟨r, gone, same⟩ := settles.exact.mem_deleted_of_returned mem'
      exact inv.queued.apart r (deleted r gone).1 claim there
        (job.trans (eq.symm.trans same.symm))
  · intro d mem j isReturned
    rcases List.mem_append.mp mem with old | last
    · exact keeps j.id (inv.claimed d old j isReturned)
    · rw [List.mem_singleton.mp last] at isReturned
      exact settles.claims j isReturned

/-- Only rows of the table can be claimed. -/
theorem claimableRows_sublist (db : Db) (backendAlias : String) :
    (claimableRows db backendAlias).Sublist db.ready.rows := List.filter_sublist

/-- One statement of any transaction keeps the invariant. -/
theorem Inv.step (inv : Inv family s) (step : Step family s t) : Inv family t := by
  cases step with
  | selectClaim i idle env same process queues limit visible sees =>
      have some := sees.some.trans (claimableRows_sublist _ _)
      refine inv.setCall i ⟨same, held_of_selectClaim inv.queued queues limit some⟩ ?_
      intro locks j _
      refine apart_of_lockFree (fun x mem => ?_) j
      have chosen := chosen_selectReadyRows (inv.queued.ids.sublist (some.map _)) env queues limit
      have inSelected := (selectRelatedJob_fst_sublist s.db (m := .ready) _).subset
        (List.mem_map.mpr ⟨x, mem, rfl⟩)
      exact sees.free locks x.1 (chosen.mem x.1 inSelected)
  | recheck i phase clock uuids checked =>
      have good := inv.phases i
      rw [phase] at good
      refine inv.setCall i ⟨good.1, { good.2 with chosen := ⟨_, rfl⟩, held := ?_ }⟩ ?_
      · exact fun locks x mem => good.2.held locks x (List.mem_of_mem_filter mem)
      · intro locks j other x mem
        have apart := inv.exclusive locks i j (Ne.symm other)
        rw [phase] at apart
        exact apart x (List.mem_of_mem_filter mem)
  | selectDiscard i idle env same jobIds queueName batchSize visible sees checked =>
      refine inv.setCall i
        ⟨same, held_of_selectDiscard inv.queued jobIds queueName batchSize sees.some⟩ ?_
      intro locks j _
      refine apart_of_lockFree (fun x mem => ?_) j
      have inOrder := List.mem_of_mem_filter (List.mem_of_mem_take mem)
      have inVisible := (selectRelatedJob_fst_sublist s.db (m := .ready) _).subset
        (List.mem_map.mpr ⟨x, inOrder, rfl⟩)
      exact sees.free locks x.1 (mem_orderBy.mp inVisible)
  | commit i phase clock uuids returned w run =>
      have good := inv.phases i
      rw [phase] at good
      exact inv.commit (i := i) (by rw [phase]; rfl) rfl
        (settles_of_consume good.1 good.2 inv.queued run)
  | rollback i =>
      exact inv.setCall i trivial fun _ _ _ x mem => absurd mem List.not_mem_nil
  | other db queued claimed next new ready later =>
      have rowsOf : ∀ r ∈ db.ready.rows, r ∈ s.db.ready.rows ∨ s.db.ready.nextId ≤ r.id := by
        intro r mem
        rw [ready] at mem
        exact (List.mem_append.mp mem).imp_right (later r)
      refine ⟨queued, fun i => ?_, inv.exclusive, inv.commits, inv.once, ?_, inv.returnedOnce, ?_⟩
      · refine (inv.phases i).shift next rowsOf fun _ x _ there => ?_
        rw [ready]
        exact List.mem_append.mpr (.inl there)
      · intro c mem r deleted
        obtain ⟨low, out⟩ := inv.gone c mem r deleted
        refine ⟨Nat.lt_of_lt_of_le low next, fun back => ?_⟩
        obtain ⟨r', there, eq⟩ := List.mem_map.mp back
        rcases rowsOf r' there with old | newer
        · exact out (List.mem_map.mpr ⟨r', old, eq⟩)
        · omega
      · intro c mem j returned
        unfold claimedJobs
        rw [claimed]
        exact inv.claimed c mem j returned

/-- The invariant holds before the first statement. -/
theorem Inv.initial (start : Initial s) : Inv family s := by
  obtain ⟨idle, history, queued⟩ := start
  refine ⟨queued, fun i => ?_, fun _ i j _ => ?_, ?_, ?_, ?_, ?_, ?_⟩
  · rw [idle i]
    trivial
  · rw [idle i]
    exact fun x mem => absurd mem List.not_mem_nil
  · rw [history]
    exact nofun
  · rw [history]
    exact List.nodup_nil
  · rw [history]
    exact nofun
  · rw [history]
    exact List.nodup_nil
  · rw [history]
    exact nofun

end Steps

/-- A row that was ready is still ready, or one commit deleted it: a claim, and its job is claimed
from then on, or a discard, and its job is gone. -/
def Accounted (s : State) (r : ReadyExecution) : Prop :=
  r ∈ s.db.ready.rows ∨ ∃ c ∈ s.history, r ∈ c.deleted ∧
    match c.returned with
    | some _ => r.jobId ∈ claimedJobs s.db
    | none => r.jobId ∉ c.after.jobs.map Job.id

/-- No step loses a row: what it takes out of the table stands in the history. -/
theorem ready_or_deleted {family : BackendFamily} {s t : State} {r : ReadyExecution}
    (step : Step family s t) (was : r ∈ s.db.ready.rows ∨ ∃ c ∈ s.history, r ∈ c.deleted) :
    r ∈ t.db.ready.rows ∨ ∃ c ∈ t.history, r ∈ c.deleted := by
  cases step with
  | commit i phase clock uuids returned w run =>
      rcases was with ready | ⟨c, mem, deleted⟩
      · by_cases still : r ∈ w.db.ready.rows
        · exact .inl still
        · refine .inr ⟨_, List.mem_append.mpr (.inr (List.mem_singleton.mpr rfl)), ?_⟩
          refine List.mem_filter.mpr ⟨ready, ?_⟩
          rw [Bool.not_eq_true', Bool.eq_false_iff]
          exact fun hit => still (List.contains_iff_mem.mp hit)
      · exact .inr ⟨c, List.mem_append.mpr (.inl mem), deleted⟩
  | other db queued claimed next new ready later =>
      refine was.imp_left fun old => ?_
      change r ∈ db.ready.rows
      rw [ready]
      exact List.mem_append.mpr (.inl old)
  | _ => exact was

/-- Every ready row is consumed by at most one transaction; a claim returns exactly the jobs whose
rows it deleted, with one claim for each; no job is returned twice, and none is lost. -/
theorem claims_exclusive {family : BackendFamily} {s₀ s₁ s : State} (start : Initial s₀)
    (before : Reach (Step family) s₀ s₁) (run : Reach (Step family) s₁ s) :
    ((s.history.flatMap Commit.deleted).map ReadyExecution.id).Nodup ∧
      (∀ c ∈ s.history, c.Exact) ∧
      ((s.history.flatMap Commit.returnedJobs).map Job.id).Nodup ∧
      ∀ r ∈ s₁.db.ready.rows, Accounted s r := by
  have inv : Inv family s := Reach.invariant (I := Inv family) (fun inv step => inv.step step)
    (Inv.initial start) (before.trans run)
  refine ⟨inv.once, inv.commits, inv.returnedOnce, fun r mem => ?_⟩
  have kept := Reach.invariant
    (I := fun t => r ∈ t.db.ready.rows ∨ ∃ c ∈ t.history, r ∈ c.deleted)
    (fun was step => ready_or_deleted step was) (.inl mem) run
  refine kept.imp_right ?_
  rintro ⟨c, inHistory, deleted⟩
  refine ⟨c, inHistory, deleted, ?_⟩
  have exact := inv.commits c inHistory
  have outcome := exact.outcome
  cases result : c.returned with
  | none =>
      rw [result] at outcome
      exact outcome.2 r deleted
  | some claimed =>
      obtain ⟨j, isReturned, eq⟩ := exact.returned_of_mem_deleted (by rw [result]; rfl) deleted
      change r.jobId ∈ claimedJobs s.db
      rw [← eq]
      exact inv.claimed c inHistory j isReturned

/-! ## Two claims of the same row -/

/-- A job without a concurrency key. -/
def readyJob (id : JobId) : Job :=
  ⟨id, "app.task", "default", 0, ⟨[], []⟩, "default", none, none, none, none, none, none, none⟩

/-- Two ready rows, and nothing running. -/
def twoReadyRows : State where
  db :=
    { Db.empty with
      jobs := [readyJob 7, readyJob 8]
      ready := ⟨[⟨1, 7, "default", "default", 0, 0, none⟩, ⟨2, 8, "default", "default", 0, 0, none⟩],
        3⟩ }
  calls _ := .idle
  history := []

/-- A database with serialized writes. -/
def sqlite : Env := Env.ofConfig { family := .sqlite }

theorem visible_all {s : State} {rows : List ReadyExecution} : Visible .sqlite s rows rows :=
  ⟨List.Sublist.refl _, nofun⟩

theorem initial_twoReadyRows : Initial twoReadyRows := by
  refine ⟨fun _ => rfl, rfl, ?_, ?_, ?_, ?_, ?_⟩
  · decide
  · decide
  · decide
  · decide
  · exact fun _ _ _ mem => absurd mem List.not_mem_nil

/-- Both claims select the first row; the one that commits last finds it gone. -/
theorem claims_exclusive_same_row : ∃ s, Reach (Step .sqlite) twoReadyRows s ∧
    s.history.map (fun c => c.returnedJobs.map Job.id) = [[7], [8]] ∧
    ((s.history.flatMap Commit.deleted).map ReadyExecution.id).Nodup := by
  have first : Reach (Step .sqlite) twoReadyRows _ := .single (.selectClaim twoReadyRows 0 rfl sqlite
    rfl none .none 2 _ visible_all)
  have second := first.tail (.selectClaim _ 1 rfl sqlite rfl none .none 1 _ visible_all)
  have checked := second.tail (.recheck _ 0 rfl (fun _ => 0) (fun _ => 0) (by decide +kernel))
  have both := checked.tail (.recheck _ 1 rfl (fun _ => 0) (fun _ => 0) (by decide +kernel))
  have taken := both.tail (.commit _ 1 rfl (fun _ => 0) (fun _ => 0)
    (some [⟨readyJob 7, 0, [], none⟩]) _ (runs_of_returned (by decide +kernel)))
  have rest := taken.tail (.commit _ 0 rfl (fun _ => 0) (fun _ => 0)
    (some [⟨readyJob 8, 0, [], none⟩]) _ (runs_of_returned (by decide +kernel)))
  refine ⟨_, rest, by decide +kernel, ?_⟩
  exact (claims_exclusive initial_twoReadyRows .refl rest).1

end DjQueue.ClaimExclusivity
