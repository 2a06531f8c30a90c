import DjQueue.Queues.Latency
import DjQueue.Reads.Status
import DjQueue.Relational.Merging

/-!
# How many jobs a queue has in each state

`queue_state.py` counts the jobs of a queue from the state tables, one grouped query a table, and
lists them with the conditions of `models/jobs.py`.  In every state the queue can reach, each count
is the length of the list, the counts add up to the jobs of the queue, and the summary of one queue
is its entry in the summary of all.
-/

namespace DjQueue

open Relational

/-! ## The summary -/

/-- The counts of a queue by state, and the oldest time in each of the waiting states. -/
structure QueueStateSummary where
  queueName : String
  stateCounts : List (JobStatus × Nat)
  oldestReadyAt : Option Time
  oldestScheduledAt : Option Time
  oldestBlockedAt : Option Time
deriving DecidableEq, Repr

/-- `QueueStateSummary.count` -/
def QueueStateSummary.count (summary : QueueStateSummary) (state : JobStatus) : Nat :=
  (summary.stateCounts.lookup state).getD 0

/-- The names of `SUMMARY_STATE_DEFINITIONS` -/
def summaryStates : List JobStatus := queueStates.filter (fun state => state ≠ .invalid)

/-- The dictionary of one queue while the tables are merged. -/
structure SummaryValues where
  queueName : String
  ready : Nat
  scheduled : Nat
  claimed : Nat
  blocked : Nat
  failed : Nat
  finished : Nat
  oldestReadyAt : Option Time
  oldestScheduledAt : Option Time
  oldestBlockedAt : Option Time
deriving DecidableEq, Repr

/-- `_empty_summary_values` -/
def emptySummaryValues (queueName : String) : SummaryValues :=
  ⟨queueName, 0, 0, 0, 0, 0, 0, none, none, none⟩

/-- `counts.get(state, 0)` -/
def SummaryValues.count (values : SummaryValues) : JobStatus → Nat
  | .live .ready => values.ready
  | .live .scheduled => values.scheduled
  | .live .claimed => values.claimed
  | .live .blocked => values.blocked
  | .live .failed => values.failed
  | .finished => values.finished
  | .invalid => 0

/-- `_summary_from_row` -/
def summaryFromRow (queueName : String) (row : SummaryValues) : QueueStateSummary where
  queueName := queueName
  stateCounts := summaryStates.map (fun state => (state, row.count state))
  oldestReadyAt := row.oldestReadyAt
  oldestScheduledAt := row.oldestScheduledAt
  oldestBlockedAt := row.oldestBlockedAt

/-- The summary of a queue nothing is known of. -/
def emptyQueueStateSummary (queueName : String) : QueueStateSummary where
  queueName := queueName
  stateCounts := summaryStates.map (fun state => (state, 0))
  oldestReadyAt := none
  oldestScheduledAt := none
  oldestBlockedAt := none

/-! ## Merging the tables -/

/-- `queryset.filter(queue_name=queue_name)`, unless no queue is asked for. -/
def asksFor (queueName : Option String) (own : String) : Bool := queueName.all (fun q => own == q)

section Merges

variable (db : Db) (backendAlias : String) (queueName : Option String)
  (rows : List (String × SummaryValues))

/-- The ready rows, counted by queue with the earliest creation. -/
def mergeReadySummary : List (String × SummaryValues) :=
  let queryset := db.ready.rows.filter (fun r =>
    r.backendAlias == backendAlias && asksFor queueName r.queueName)
  mergeGroups emptySummaryValues (fun group values => { values with
    ready := group.length
    oldestReadyAt := (group.map ReadyExecution.origin).min? }) rows
    (groupBy ReadyExecution.queueName queryset)

/-- The scheduled rows, with the earliest due time. -/
def mergeScheduledSummary : List (String × SummaryValues) :=
  let queryset := db.scheduled.rows.filter (fun r =>
    r.backendAlias == backendAlias && asksFor queueName r.queueName)
  mergeGroups emptySummaryValues (fun group values => { values with
    scheduled := group.length
    oldestScheduledAt := (group.map ScheduledExecution.scheduledAt).min? }) rows
    (groupBy ScheduledExecution.queueName queryset)

/-- The blocked rows, with the earliest creation. -/
def mergeBlockedSummary : List (String × SummaryValues) :=
  let queryset := db.blocked.rows.filter (fun r =>
    r.backendAlias == backendAlias && asksFor queueName r.queueName)
  mergeGroups emptySummaryValues (fun group values => { values with
    blocked := group.length
    oldestBlockedAt := (group.map BlockedExecution.expiresAt).min? }) rows
    (groupBy BlockedExecution.queueName queryset)

/-- The claimed rows, counted by the queue of the job. -/
def mergeClaimedSummary : List (String × SummaryValues) :=
  let queryset := (selectRelatedJob (m := .claimed) db db.claimed.rows).filter (fun r =>
    r.2.backendAlias == backendAlias && asksFor queueName r.2.queueName)
  mergeGroups emptySummaryValues (fun group values => { values with claimed := group.length }) rows
    (groupBy (fun r => r.2.queueName) queryset)

/-- The failed rows, counted by the queue of the job. -/
def mergeFailedSummary : List (String × SummaryValues) :=
  let queryset := (selectRelatedJob (m := .failed) db db.failed.rows).filter (fun r =>
    r.2.backendAlias == backendAlias && asksFor queueName r.2.queueName)
  mergeGroups emptySummaryValues (fun group values => { values with failed := group.length }) rows
    (groupBy (fun r => r.2.queueName) queryset)

/-- The finished jobs, counted by queue. -/
def mergeFinishedSummary : List (String × SummaryValues) :=
  let queryset := db.jobs.filter (fun j =>
    j.backendAlias == backendAlias && j.finishedAt.isSome && asksFor queueName j.queueName)
  mergeGroups emptySummaryValues (fun group values => { values with finished := group.length }) rows
    (groupBy Job.queueName queryset)

end Merges

/-- The dictionary once every table has been merged. -/
def stateTableRows (db : Db) (backendAlias : String) (queueName : Option String) :
    List (String × SummaryValues) :=
  let rows := mergeReadySummary db backendAlias queueName []
  let rows := mergeScheduledSummary db backendAlias queueName rows
  let rows := mergeBlockedSummary db backendAlias queueName rows
  let rows := mergeClaimedSummary db backendAlias queueName rows
  let rows := mergeFailedSummary db backendAlias queueName rows
  mergeFinishedSummary db backendAlias queueName rows

/-- By name. -/
def nameOrder {ν : Type} (a b : String × ν) : Bool := a.1 ≤ b.1

/-- `_state_table_summaries_by_queue` -/
def stateTableSummariesByQueue (db : Db) (backendAlias : String) (queueName : Option String) :
    List (String × QueueStateSummary) :=
  (orderBy nameOrder (stateTableRows db backendAlias queueName)).map
    (fun row => (row.1, summaryFromRow row.1 row.2))

/-- The summaries of every queue of the backend. -/
def queueStateSummariesByQueue (db : Db) (backendAlias : String) :
    List (String × QueueStateSummary) :=
  stateTableSummariesByQueue db backendAlias none

/-- The summary of one queue. -/
def queueStateSummary (db : Db) (backendAlias queueName : String) : QueueStateSummary :=
  ((stateTableSummariesByQueue db backendAlias (some queueName)).lookup queueName).getD
    (emptyQueueStateSummary queueName)

/-! ## The lists -/

/-- The state row of a job in a table, if it has one. -/
def Db.rowOf (db : Db) (m : StateModel) (job : Job) : Option m.Row :=
  (db.table m).rows.find? (fun r => rowJobId r == job.id)

/-- `query_order`, each column as a key that is sorted by ascending. -/
def queryOrder (db : Db) : JobStatus → List (Job → Option Int)
  | .live .ready =>
      [fun j => some (-j.priority), fun j => (db.rowOf .ready j).map (fun r => (rowId r : Int))]
  | .live .scheduled =>
      [fun j => (db.rowOf .scheduled j).map ScheduledExecution.scheduledAt,
        fun j => some (-j.priority),
        fun j => (db.rowOf .scheduled j).map (fun r => (rowId r : Int))]
  | .live .claimed =>
      [fun j => (db.rowOf .claimed j).map ClaimedExecution.createdAt, fun j => some (j.id : Int)]
  | .live .blocked =>
      [fun j => (db.rowOf .blocked j).map BlockedExecution.expiresAt,
        fun j => some (-j.priority),
        fun j => (db.rowOf .blocked j).map (fun r => (rowId r : Int))]
  | .live .failed =>
      [fun j => (db.rowOf .failed j).map (fun r => -FailedExecution.createdAt r),
        fun j => some (j.id : Int)]
  | .finished => [fun j => j.finishedAt.map (fun t => -t), fun j => some (j.id : Int)]
  | .invalid => [fun j => some (j.id : Int)]

/-- The first key that differs decides; the keys of a state are not null for its jobs. -/
def byKeys : List (Job → Option Int) → Job → Job → Bool
  | [], _, _ => true
  | key :: keys, a, b =>
      if key a = key b then byKeys keys a b
      else
        match key a, key b with
        | some x, some y => x < y
        | none, _ => true
        | some _, none => false

/-- The jobs of a queue. -/
def Db.jobsOfQueue (db : Db) (backendAlias queueName : String) : List Job :=
  db.jobs.filter (fun j => j.backendAlias == backendAlias && j.queueName == queueName)

/-- The jobs of a queue in a state, in the order the state is listed in. -/
def queueStateQueryset (db : Db) (backendAlias queueName : String) (state : JobStatus) :
    List Job :=
  orderBy (byKeys (queryOrder db state))
    (filterQueueState db (db.jobsOfQueue backendAlias queueName) state)

/-! ## What the merges write -/

/-- The rows of a state with their jobs, as far as the jobs are of the queue. -/
def Db.rowsOfQueue (db : Db) (m : StateModel) (backendAlias queueName : String) :
    List (m.Row × Job) :=
  (selectRelatedJob db (db.table m).rows).filter (fun r =>
    r.2.backendAlias == backendAlias && r.2.queueName == queueName)

/-- The scheduled rows of a queue. -/
def Db.scheduledRows (db : Db) (backendAlias queueName : String) : List ScheduledExecution :=
  db.scheduled.rows.filter (fun r => r.backendAlias == backendAlias && r.queueName == queueName)

/-- The blocked rows of a queue. -/
def Db.blockedRows (db : Db) (backendAlias queueName : String) : List BlockedExecution :=
  db.blocked.rows.filter (fun r => r.backendAlias == backendAlias && r.queueName == queueName)

/-- The finished jobs of a queue. -/
def Db.finishedJobs (db : Db) (backendAlias queueName : String) : List Job :=
  db.jobs.filter (fun j =>
    j.backendAlias == backendAlias && j.finishedAt.isSome && j.queueName == queueName)

section Values

variable (db : Db) (backendAlias : String) {q : String} {queueName : Option String}
  {rows : List (String × SummaryValues)}

/-- Filtering by the queue asked for changes nothing for that queue. -/
theorem filter_asksFor {β : Type} (l : List β) (backend : β → Bool) (own : β → String)
    (asked : queueName = none ∨ queueName = some q) :
    (l.filter (fun r => backend r && asksFor queueName (own r))).filter (fun r => own r = q) =
      l.filter (fun r => backend r && own r == q) := by
  rw [List.filter_filter]
  apply List.filter_congr
  intro r _
  rcases asked with rfl | rfl
  · simp [asksFor, Bool.and_comm]
    rfl
  · by_cases same : own r = q
    · simp [asksFor, same]
    · simp [asksFor, same]

section Merge

variable {values : SummaryValues} (asked : queueName = none ∨ queueName = some q)
  (was : valueAt emptySummaryValues rows q = values)

include asked was

/-- The ready count of a queue in the group of its rows. -/
theorem valueAt_mergeReadySummary
    (idle : { values with ready := 0, oldestReadyAt := none } = values) :
    valueAt emptySummaryValues (mergeReadySummary db backendAlias queueName rows) q =
      { values with
        ready := (db.readyRows backendAlias q).length
        oldestReadyAt := oldestReadyAtForQueue db backendAlias q } := by
  subst was
  unfold mergeReadySummary
  dsimp only
  rw [valueAt_mergeGroups idle, filter_asksFor _ _ _ asked]
  rfl

theorem valueAt_mergeScheduledSummary
    (idle : { values with scheduled := 0, oldestScheduledAt := none } = values) :
    valueAt emptySummaryValues (mergeScheduledSummary db backendAlias queueName rows) q =
      { values with
        scheduled := (db.scheduledRows backendAlias q).length
        oldestScheduledAt :=
          ((db.scheduledRows backendAlias q).map ScheduledExecution.scheduledAt).min? } := by
  subst was
  unfold mergeScheduledSummary
  dsimp only
  rw [valueAt_mergeGroups idle, filter_asksFor _ _ _ asked]
  rfl

theorem valueAt_mergeBlockedSummary
    (idle : { values with blocked := 0, oldestBlockedAt := none } = values) :
    valueAt emptySummaryValues (mergeBlockedSummary db backendAlias queueName rows) q =
      { values with
        blocked := (db.blockedRows backendAlias q).length
        oldestBlockedAt :=
          ((db.blockedRows backendAlias q).map BlockedExecution.expiresAt).min? } := by
  subst was
  unfold mergeBlockedSummary
  dsimp only
  rw [valueAt_mergeGroups idle, filter_asksFor _ _ _ asked]
  rfl

theorem valueAt_mergeClaimedSummary (idle : { values with claimed := 0 } = values) :
    valueAt emptySummaryValues (mergeClaimedSummary db backendAlias queueName rows) q =
      { values with claimed := (db.rowsOfQueue .claimed backendAlias q).length } := by
  subst was
  unfold mergeClaimedSummary
  dsimp only
  rw [valueAt_mergeGroups idle, filter_asksFor _ _ _ asked]
  rfl

theorem valueAt_mergeFailedSummary (idle : { values with failed := 0 } = values) :
    valueAt emptySummaryValues (mergeFailedSummary db backendAlias queueName rows) q =
      { values with failed := (db.rowsOfQueue .failed backendAlias q).length } := by
  subst was
  unfold mergeFailedSummary
  dsimp only
  rw [valueAt_mergeGroups idle, filter_asksFor _ _ _ asked]
  rfl

theorem valueAt_mergeFinishedSummary (idle : { values with finished := 0 } = values) :
    valueAt emptySummaryValues (mergeFinishedSummary db backendAlias queueName rows) q =
      { values with finished := (db.finishedJobs backendAlias q).length } := by
  subst was
  unfold mergeFinishedSummary
  dsimp only
  rw [valueAt_mergeGroups idle, filter_asksFor _ _ _ asked]
  rfl

end Merge

/-- The dictionary of a queue once all the tables have been merged, whether the queries asked for
this queue or for all of them. -/
theorem valueAt_stateTableRows (asked : queueName = none ∨ queueName = some q) :
    valueAt emptySummaryValues (stateTableRows db backendAlias queueName) q =
      { queueName := q
        ready := (db.readyRows backendAlias q).length
        scheduled := (db.scheduledRows backendAlias q).length
        claimed := (db.rowsOfQueue .claimed backendAlias q).length
        blocked := (db.blockedRows backendAlias q).length
        failed := (db.rowsOfQueue .failed backendAlias q).length
        finished := (db.finishedJobs backendAlias q).length
        oldestReadyAt := oldestReadyAtForQueue db backendAlias q
        oldestScheduledAt :=
          ((db.scheduledRows backendAlias q).map ScheduledExecution.scheduledAt).min?
        oldestBlockedAt :=
          ((db.blockedRows backendAlias q).map BlockedExecution.expiresAt).min? } := by
  have ready := valueAt_mergeReadySummary db backendAlias asked
    (rfl : valueAt emptySummaryValues [] q = emptySummaryValues q) rfl
  have scheduled := valueAt_mergeScheduledSummary db backendAlias asked
    ready rfl
  have blocked := valueAt_mergeBlockedSummary db backendAlias asked
    scheduled rfl
  have claimed := valueAt_mergeClaimedSummary db backendAlias asked
    blocked rfl
  have failed := valueAt_mergeFailedSummary db backendAlias asked
    claimed rfl
  exact valueAt_mergeFinishedSummary db backendAlias asked failed rfl

/-- Every queue is one row of the summary. -/
theorem keys_stateTableRows_nodup :
    ((stateTableRows db backendAlias queueName).map Prod.fst).Nodup := by
  unfold stateTableRows mergeReadySummary mergeScheduledSummary mergeBlockedSummary
    mergeClaimedSummary mergeFailedSummary mergeFinishedSummary
  iterate 6 apply keys_mergeGroups_nodup
  exact List.nodup_nil

/-- A queue has an entry exactly when some of its values count something. -/
theorem mem_keys_stateTableRows (asked : queueName = none ∨ queueName = some q) :
    q ∈ (stateTableRows db backendAlias queueName).map Prod.fst ↔
      db.readyRows backendAlias q ≠ [] ∨ db.scheduledRows backendAlias q ≠ [] ∨
        db.blockedRows backendAlias q ≠ [] ∨ db.rowsOfQueue .claimed backendAlias q ≠ [] ∨
        db.rowsOfQueue .failed backendAlias q ≠ [] ∨ db.finishedJobs backendAlias q ≠ [] := by
  have group {β : Type} (l : List β) (backend : β → Bool) (own : β → String) :
      q ∈ (groupBy own (l.filter (fun r => backend r && asksFor queueName (own r)))).map Prod.fst ↔
        l.filter (fun r => backend r && own r == q) ≠ [] := by
    rw [keys_groupBy, mem_distinct, ← filter_asksFor l backend own asked, Ne,
      List.filter_eq_nil_iff]
    push Not
    simp only [List.mem_map, decide_eq_true_eq]
  unfold stateTableRows mergeReadySummary mergeScheduledSummary mergeBlockedSummary
    mergeClaimedSummary mergeFailedSummary mergeFinishedSummary
  simp only [mem_keys_mergeGroups, group, List.map_nil, List.not_mem_nil, false_or, or_assoc]
  rfl

/-- The entry of a queue, or the empty summary, is the summary of its dictionary. -/
theorem lookup_stateTableSummariesByQueue :
    ((stateTableSummariesByQueue db backendAlias queueName).lookup q).getD
        (emptyQueueStateSummary q) =
      summaryFromRow q
        (valueAt emptySummaryValues (stateTableRows db backendAlias queueName) q) := by
  have mapped : ∀ rows : List (String × SummaryValues),
      (rows.map (fun row => (row.1, summaryFromRow row.1 row.2))).lookup q =
        (rows.lookup q).map (summaryFromRow q) := by
    intro rows
    induction rows with
    | nil => rfl
    | cons row rows ih =>
        rw [List.map_cons, lookup_cons_ite, lookup_cons_ite, ih]
        by_cases same : q = row.1
        · subst same
          simp
        · simp [same]
  have sorted := lookup_perm (orderBy_perm nameOrder (stateTableRows db backendAlias queueName))
    ((orderBy_perm _ _).map Prod.fst |>.nodup_iff.mpr (keys_stateTableRows_nodup db backendAlias)) q
  unfold stateTableSummariesByQueue valueAt
  rw [mapped, sorted]
  cases (stateTableRows db backendAlias queueName).lookup q with
  | none => rfl
  | some row => rfl

/-- The summary of one queue is its entry among all. -/
theorem lookup_queueStateSummariesByQueue :
    ((queueStateSummariesByQueue db backendAlias).lookup q).getD (emptyQueueStateSummary q) =
      queueStateSummary db backendAlias q := by
  unfold queueStateSummariesByQueue queueStateSummary
  rw [lookup_stateTableSummariesByQueue, lookup_stateTableSummariesByQueue,
    valueAt_stateTableRows db backendAlias (.inl rfl),
    valueAt_stateTableRows db backendAlias (.inr rfl)]

/-- The summary of a queue is the row of its groups. -/
theorem queueStateSummary_eq :
    queueStateSummary db backendAlias q =
      summaryFromRow q (valueAt emptySummaryValues (stateTableRows db backendAlias none) q) := by
  rw [← lookup_queueStateSummariesByQueue]
  exact lookup_stateTableSummariesByQueue db backendAlias

/-- The count of a state in the summary is that of the row. -/
theorem count_summaryFromRow (values : SummaryValues) (state : JobStatus) :
    (summaryFromRow q values).count state = values.count state := by
  cases state with
  | live m => cases m <;> rfl
  | finished => rfl
  | invalid => rfl

end Values

/-! ## Rows and jobs -/

/-- The elements of a list stand for jobs, one for one. -/
theorem length_eq_of_ids {β : Type} {l : List β} (idOf : β → JobId) {jobs : List Job}
    (nodup : (l.map idOf).Nodup) (jobIds : (jobs.map Job.id).Nodup)
    (same : ∀ id, id ∈ l.map idOf ↔ id ∈ jobs.map Job.id) : l.length = jobs.length := by
  have lengths := ((List.perm_ext_iff_of_nodup nodup jobIds).mpr same).length_eq
  rwa [List.length_map, List.length_map] at lengths

/-- The jobs of a queue with a row in a state table. -/
def Db.jobsInState (db : Db) (backendAlias queueName : String) (m : StateModel) : List Job :=
  (db.jobsOfQueue backendAlias queueName).filter (fun j => db.hasState m j.id)

/-- The jobs of a queue in a state are those with a row of it. -/
theorem mem_ids_jobsInState {db : Db} {b q : String} {m : StateModel} {id : JobId} :
    id ∈ (db.jobsInState b q m).map Job.id ↔
      ∃ j ∈ db.jobs, j.id = id ∧ id ∈ db.stateJobIds m ∧ j.backendAlias = b ∧ j.queueName = q := by
  simp only [Db.jobsInState, Db.jobsOfQueue, Db.hasState, List.mem_map, List.mem_filter,
    Bool.and_eq_true, beq_iff_eq, List.contains_iff_mem]
  constructor
  · intro given
    rcases given with ⟨j, ⟨⟨there, backend, queue⟩, has⟩, same⟩
    exact ⟨j, there, same, same ▸ has, backend, queue⟩
  · intro given
    rcases given with ⟨j, there, same, has, backend, queue⟩
    exact ⟨j, ⟨⟨there, backend, queue⟩, same ▸ has⟩, same⟩

namespace Accounts

variable {a : Audit} {db : Db} {b q : String} {m : StateModel}

theorem jobsInState_nodup (good : Accounts a [] 0 db) :
    ((db.jobsInState b q m).map Job.id).Nodup :=
  good.jobIds.sublist ((List.filter_sublist.trans List.filter_sublist).map _)

/-- A table whose rows repeat the backend and the queue of their jobs. -/
theorem length_filter_rows (good : Accounts a [] 0 db) {own : m.Row → Bool}
    (columns : ∀ r (i : Identity), i.Matches r →
      own r = (i.backendAlias == b && i.queueName == q)) :
    ((db.table m).rows.filter own).length = (db.jobsInState b q m).length := by
  apply length_eq_of_ids rowJobId _ good.jobsInState_nodup
  · intro id
    rw [mem_ids_jobsInState, List.mem_map]
    constructor
    · intro given
      rcases given with ⟨r, kept, rfl⟩
      rcases List.mem_filter.mp kept with ⟨inTable, hit⟩
      rcases good.known_of_row inTable with ⟨j, there, same, -, -, fits⟩
      rw [columns r _ fits, Bool.and_eq_true, beq_iff_eq, beq_iff_eq] at hit
      exact ⟨j, there, same, List.mem_map_of_mem inTable, hit⟩
    · intro given
      rcases given with ⟨j, there, rfl, has, backend, queue⟩
      rcases List.mem_map.mp has with ⟨r, inTable, isJob⟩
      rcases good.known_of_row inTable with ⟨i, inJobs, same, -, -, fits⟩
      rw [isJob] at same
      rw [List.inj_on_of_nodup_map good.jobIds inJobs there same] at fits
      refine ⟨r, List.mem_filter.mpr ⟨inTable, ?_⟩, isJob⟩
      rw [columns r _ fits, Bool.and_eq_true, beq_iff_eq, beq_iff_eq]
      exact ⟨backend, queue⟩
  · exact (good.stateJobIds_nodup m).sublist (List.filter_sublist.map _)

/-- A table that is joined to its jobs. -/
theorem length_rowsOfQueue (good : Accounts a [] 0 db) :
    (db.rowsOfQueue m b q).length = (db.jobsInState b q m).length := by
  have loaded : ∀ r ∈ db.rowsOfQueue m b q, r.1 ∈ (db.table m).rows ∧
      r.2 ∈ db.jobs ∧ r.2.id = rowJobId r.1 ∧ r.2.backendAlias = b ∧ r.2.queueName = q := by
    intro r mem
    rcases List.mem_filter.mp mem with ⟨related, hit⟩
    rcases mem_selectRelatedJob.mp related with ⟨inTable, found⟩
    rw [Bool.and_eq_true, beq_iff_eq, beq_iff_eq] at hit
    exact ⟨inTable, (mem_of_findJob found).1, (mem_of_findJob found).2, hit⟩
  apply length_eq_of_ids (fun r => rowJobId r.1) _ good.jobsInState_nodup
  · intro id
    rw [mem_ids_jobsInState, List.mem_map]
    constructor
    · intro given
      rcases given with ⟨r, mem, rfl⟩
      rcases loaded r mem with ⟨inTable, there, same, columns⟩
      exact ⟨r.2, there, same, List.mem_map_of_mem inTable, columns⟩
    · intro given
      rcases given with ⟨j, there, rfl, has, backend, queue⟩
      rcases List.mem_map.mp has with ⟨r, inTable, isJob⟩
      refine ⟨(r, j), List.mem_filter.mpr ⟨mem_selectRelatedJob.mpr ⟨inTable, ?_⟩, ?_⟩, isJob⟩
      · exact isJob ▸ good.findJob_of_mem there
      · rw [Bool.and_eq_true, beq_iff_eq, beq_iff_eq]
        exact ⟨backend, queue⟩
  · have rows : ((selectRelatedJob db (db.table m).rows).map (fun r => rowJobId r.1)).Nodup := by
      rw [show (fun r : m.Row × Job => rowJobId r.1) = rowJobId ∘ Prod.fst from rfl,
        ← List.map_map]
      exact (good.stateJobIds_nodup m).sublist ((selectRelatedJob_fst_sublist db _).map _)
    exact rows.sublist (List.filter_sublist.map _)

/-- In a sound state the filter of a state gives the jobs with its row. -/
theorem filterQueueState_eq (good : Accounts a [] 0 db) (state : JobStatus) :
    filterQueueState db (db.jobsOfQueue b q) state =
      (db.jobsOfQueue b q).filter (fun j => match state with
        | .live m => db.hasState m j.id
        | .finished => j.finishedAt.isSome
        | .invalid => false) := by
  apply List.filter_congr
  intro j mem
  have valid := good.status_ne_invalid (List.mem_of_mem_filter mem)
  cases state with
  | live m => simp [stateQuery, jobStatusQueryFilter, Q.holds, valid]
  | finished => simp [stateQuery, jobStatusQueryFilter, Q.holds, valid]
  | invalid => exact valid

/-- Each count of a queue's dictionary is the number of its jobs that the conditions select. -/
theorem count_valueAt (good : Accounts a [] 0 db) (state : JobStatus) :
    (valueAt emptySummaryValues (stateTableRows db b none) q).count state =
      (filterQueueState db (db.jobsOfQueue b q) state).length := by
  rw [valueAt_stateTableRows db b (.inl rfl), good.filterQueueState_eq]
  have own (r : String × String) (i : Identity) (backend : r.1 = i.backendAlias)
      (queue : r.2 = i.queueName) :
      (r.1 == b && r.2 == q) = (i.backendAlias == b && i.queueName == q) := by
    rw [backend, queue]
  cases state with
  | live m =>
      cases m with
      | ready =>
          exact good.length_filter_rows (m := .ready) fun r i fits =>
            own (ReadyExecution.backendAlias r, ReadyExecution.queueName r) i
              (fits.backend _ rfl) (fits.queue _ rfl)
      | scheduled =>
          exact good.length_filter_rows (m := .scheduled) fun r i fits =>
            own (ScheduledExecution.backendAlias r, ScheduledExecution.queueName r) i
              (fits.backend _ rfl) (fits.queue _ rfl)
      | blocked =>
          exact good.length_filter_rows (m := .blocked) fun r i fits =>
            own (BlockedExecution.backendAlias r, BlockedExecution.queueName r) i
              (fits.backend _ rfl) (fits.queue _ rfl)
      | claimed => exact good.length_rowsOfQueue
      | failed => exact good.length_rowsOfQueue
  | finished =>
      change (db.finishedJobs b q).length = _
      rw [Db.finishedJobs, Db.jobsOfQueue, List.filter_filter]
      congr 1
      apply List.filter_congr
      intro j _
      cases j.finishedAt.isSome <;> simp
  | invalid => simp [SummaryValues.count]

end Accounts

/-! ## The results -/

/-- A job has one of the states that are counted. -/
theorem Accounts.length_summaryStates {a : Audit} {db : Db} {j : Job} (good : Accounts a [] 0 db)
    (mem : j ∈ db.jobs) :
    (summaryStates.filter (fun state => (stateQuery state).holds db j)).length = 1 := by
  have known : ∃ state, state ≠ .invalid ∧ db.status j = some state := by
    have valid := good.status_ne_invalid mem
    by_cases done : j.finishedAt.isSome = true
    · exact ⟨.finished, by decide, (status_of_valid valid).2.mpr done⟩
    · rcases good.exists_state mem done with ⟨m, has⟩
      exact ⟨.live m, by simp, ((status_of_valid valid).1 m).mpr (List.contains_iff_mem.mpr has)⟩
  rcases known with ⟨state, valid, status⟩
  have same : summaryStates.filter (fun state => (stateQuery state).holds db j) =
      summaryStates.filter (fun state' => state' == state) := by
    apply List.filter_congr
    intro state' _
    rw [Bool.eq_iff_iff, holds_stateQuery_iff, status, beq_iff_eq, Option.some.injEq, eq_comm]
  rw [same]
  cases state with
  | live m => cases m <;> rfl
  | finished => rfl
  | invalid => exact absurd rfl valid

namespace Accounts

variable {a : Audit} {db : Db} {b q : String}

/-- The counts of a queue add up to its jobs. -/
theorem sum_stateCounts (good : Accounts a [] 0 db) :
    ((queueStateSummary db b q).stateCounts.map Prod.snd).sum = (db.jobsOfQueue b q).length := by
  have sum : ((queueStateSummary db b q).stateCounts.map Prod.snd).sum =
      (summaryStates.map (fun state =>
        (filterQueueState db (db.jobsOfQueue b q) state).length)).sum := by
    rw [queueStateSummary_eq, summaryFromRow, List.map_map]
    exact congrArg List.sum (List.map_congr_left fun state _ => good.count_valueAt state)
  have once : ∀ j ∈ db.jobsOfQueue b q,
      (summaryStates.filter (fun state => (stateQuery state).holds db j)).length = 1 :=
    fun j mem => good.length_summaryStates (List.mem_of_mem_filter mem)
  have twice := sum_length_filter (fun state j => (stateQuery state).holds db j) summaryStates
    (db.jobsOfQueue b q)
  rw [sum]
  refine twice.trans ?_
  rw [List.map_congr_left once]
  simp

/-- The queues of the dictionary are those with jobs. -/
theorem mem_keys_iff (good : Accounts a [] 0 db) :
    q ∈ (stateTableRows db b none).map Prod.fst ↔ db.jobsOfQueue b q ≠ [] := by
  have total := good.sum_stateCounts (b := b) (q := q)
  rw [queueStateSummary_eq, valueAt_stateTableRows db b (.inl rfl)] at total
  simp only [summaryFromRow, summaryStates, queueStates, ne_eq, reduceCtorEq,
    not_false_eq_true, decide_true, List.filter_cons_of_pos, not_true_eq_false, decide_false,
    Bool.false_eq_true, List.filter_cons_of_neg, List.filter_nil, List.map_cons,
    SummaryValues.count, List.map_nil, List.sum_cons, List.sum_nil] at total
  rw [mem_keys_stateTableRows db b (.inl rfl)]
  simp only [ne_eq, ← List.length_eq_zero_iff]
  omega

end Accounts

/-- In every reachable state the summary of a queue counts the jobs of each state, which are those its
lists show; no job is missing, none is counted twice, and the queues in the summary of all are those
that have jobs, each once. -/
theorem queue_counts_exact {db : Db} (reached : Reachable none db)
    (backendAlias queueName : String) :
    ((queueStateSummariesByQueue db backendAlias).lookup queueName).getD
        (emptyQueueStateSummary queueName) = queueStateSummary db backendAlias queueName ∧
      (∀ state, (queueStateSummary db backendAlias queueName).count state =
          ((db.jobsOfQueue backendAlias queueName).filter
            (fun j => db.status j = some state)).length ∧
        (queueStateSummary db backendAlias queueName).count state =
          (queueStateQueryset db backendAlias queueName state).length) ∧
      ((queueStateSummary db backendAlias queueName).stateCounts.map Prod.snd).sum =
        (db.jobsOfQueue backendAlias queueName).length ∧
      queueStateQueryset db backendAlias queueName .invalid = [] ∧
      ((queueStateSummariesByQueue db backendAlias).map Prod.fst).Nodup ∧
      (queueName ∈ (queueStateSummariesByQueue db backendAlias).map Prod.fst ↔
        ∃ j ∈ db.jobs, j.backendAlias = backendAlias ∧ j.queueName = queueName) ∧
      (queueStateSummary db backendAlias queueName).oldestReadyAt =
        oldestReadyAtForQueue db backendAlias queueName := by
  rcases sound_of_reachable (by intro t tracked; cases tracked) reached with ⟨⟨a, -, good⟩, -⟩
  have keys : (queueStateSummariesByQueue db backendAlias).map Prod.fst =
      (orderBy nameOrder (stateTableRows db backendAlias none)).map Prod.fst := by
    rw [queueStateSummariesByQueue, stateTableSummariesByQueue, List.map_map]
    rfl
  refine ⟨lookup_queueStateSummariesByQueue db backendAlias, fun state => ?_,
    good.sum_stateCounts, ?_, ?_, ?_, ?_⟩
  · have counted : (queueStateSummary db backendAlias queueName).count state =
        (filterQueueState db (db.jobsOfQueue backendAlias queueName) state).length := by
      rw [queueStateSummary_eq, count_summaryFromRow, good.count_valueAt]
    constructor
    · rw [counted, filterQueueState_eq_filter_status]
    · rw [counted, queueStateQueryset, (orderBy_perm _ _).length_eq]
  · rw [queueStateQueryset, good.filterQueueState_eq]
    simp [orderBy]
  · rw [keys, ((orderBy_perm _ _).map Prod.fst).nodup_iff]
    exact keys_stateTableRows_nodup db backendAlias
  · rw [keys, ((orderBy_perm _ _).map Prod.fst).mem_iff, good.mem_keys_iff, Ne,
      ← List.length_eq_zero_iff, ← Ne, ← Nat.pos_iff_ne_zero, List.length_pos_iff_exists_mem]
    simp only [Db.jobsOfQueue, List.mem_filter, Bool.and_eq_true, beq_iff_eq]
  · rw [queueStateSummary_eq, valueAt_stateTableRows db backendAlias (.inl rfl)]
    rfl

/-- Two jobs of one key enqueued, one of them ready. -/
theorem queue_counts_exact_after_two_enqueues :
    (queueStateSummary twoEnqueued "default" "default").count (.live .ready) = 1 ∧
      (queueStateQueryset twoEnqueued "default" "default" (.live .ready)).length = 1 :=
  ⟨by decide +kernel,
    ((queue_counts_exact (reachable_twoEnqueued (by intro t tracked; cases tracked)) "default"
      "default").2.1 (.live .ready)).2.symm.trans (by decide +kernel)⟩

end DjQueue
