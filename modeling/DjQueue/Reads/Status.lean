import DjQueue.Dispatching.Timeliness
import DjQueue.Relational.Counting

/-!
# The status of a job

`models/jobs.py` says twice what state a job is in: the property `status` looks at the related rows
of one job, and the query sets select the jobs of a state with conditions on joined tables.  The
two agree on every database, also where a job has several states; and in every state the queue can
reach, no job has.
-/

namespace DjQueue

open Relational

/-! ## One job -/

/-- `JOB_STATUS_RELATIONS` -/
def jobStatusRelations : List StateModel := [.ready, .scheduled, .claimed, .blocked, .failed]

/-- The status of a job. -/
inductive JobStatus where
  | live (state : StateModel) | finished | invalid
deriving DecidableEq, Repr

/-- `live_execution_state_names` -/
def Db.liveExecutionStateNames (db : Db) (job : Job) : List StateModel :=
  jobStatusRelations.filter (fun m => db.hasState m job.id)

/-- `execution_state_names` -/
def Db.executionStateNames (db : Db) (job : Job) : List JobStatus :=
  let live := (db.liveExecutionStateNames job).map JobStatus.live
  if job.finishedAt.isNone then live else .finished :: live

/-- `Job.status` -/
def Db.status (db : Db) (job : Job) : Option JobStatus :=
  let live := db.liveExecutionStateNames job
  if 1 < live.length then some .invalid
  else if job.finishedAt.isSome then
    if live.isEmpty then some .finished else some .invalid
  else live.head?.map JobStatus.live

/-! ## Conditions -/

/-- A `Q` object over a job and its one-to-one rows. -/
inductive Q where
  | isNotNull (relation : StateModel)
  | finishedAtIsNotNull
  | pkIn (ids : List JobId)
  | both (p q : Q)
  | either (p q : Q)
  | negated (p : Q)
deriving DecidableEq, Repr

/-- What a query asks of a job. -/
def Q.holds (db : Db) (job : Job) : Q → Bool
  | isNotNull relation => db.hasState relation job.id
  | finishedAtIsNotNull => job.finishedAt.isSome
  | pkIn ids => ids.contains job.id
  | both p q => p.holds db job && q.holds db job
  | either p q => p.holds db job || q.holds db job
  | negated p => !p.holds db job

/-- `_or_query` -/
def orQuery : Option Q → Q → Option Q
  | none, next => some next
  | some current, next => some (.either current next)

/-- Two rows of live states, or a row of one and a finish time. -/
def invalidExecutionStateQuery : Q :=
  let pairs := (combinations jobStatusRelations).foldl
    (fun query pair => orQuery query (.both (.isNotNull pair.1) (.isNotNull pair.2))) none
  let query := jobStatusRelations.foldl
    (fun query relation => orQuery query (.both .finishedAtIsNotNull (.isNotNull relation))) pairs
  query.getD (.pkIn [])

/-- `job_status_query_filter`; there is no relation of the name `invalid`. -/
def jobStatusQueryFilter : JobStatus → Option Q
  | .live state => some (.isNotNull state)
  | .finished => some .finishedAtIsNotNull
  | .invalid => none

/-- `_state_query`: the jobs of one state. -/
def stateQuery (state : JobStatus) : Q :=
  match jobStatusQueryFilter state with
  | none => invalidExecutionStateQuery
  | some query => .both query (.negated invalidExecutionStateQuery)

/-- `JobQuerySet.filter` with the rows of one state, which `filter_queue_state` also uses. -/
def filterQueueState (db : Db) (jobs : List Job) (state : JobStatus) : List Job :=
  jobs.filter (fun job => (stateQuery state).holds db job)

/-- The names of `QUEUE_STATE_DEFINITIONS`; each has its place as rank. -/
def queueStates : List JobStatus :=
  [.live .ready, .live .scheduled, .live .claimed, .live .blocked, .live .failed, .finished,
    .invalid]

/-- `status_rank_expression`: the first of the cases that holds, or 99. -/
def statusRank (db : Db) (job : Job) : Nat :=
  let cases := queueStates.zipIdx.filter (fun state => (stateQuery state.1).holds db job)
  (cases.head?.map Prod.snd).getD 99

/-! ## What the conditions select -/

section Queries

variable {db : Db} {job : Job}

/-- The names listed are those of the tables with a row of the job. -/
theorem mem_liveExecutionStateNames {m : StateModel} :
    m ∈ db.liveExecutionStateNames job ↔ job.id ∈ db.stateJobIds m := by
  have named : m ∈ jobStatusRelations := by cases m <;> decide
  rw [Db.liveExecutionStateNames, List.mem_filter, Db.hasState, List.contains_iff_mem]
  exact and_iff_right named

/-- A disjunction that is put together one condition after the other. -/
theorem holds_foldl_orQuery {α : Type} (f : α → Q) (l : List α) :
    ∀ start : Option Q, (l.foldl (fun query a => orQuery query (f a)) start).any (Q.holds db job) =
      (start.any (Q.holds db job) || l.any (fun a => (f a).holds db job)) := by
  induction l with
  | nil => simp
  | cons a l ih =>
      intro start
      rw [List.foldl_cons, ih, List.any_cons]
      cases start with
      | none => simp [orQuery]
      | some current => simp [orQuery, Q.holds, Bool.or_assoc]

/-- The jobs with more than one state: two rows, or a row and a `finished_at`. -/
theorem holds_invalidExecutionStateQuery :
    invalidExecutionStateQuery.holds db job =
      (decide (1 < (db.liveExecutionStateNames job).length) ||
        (job.finishedAt.isSome && !(db.liveExecutionStateNames job).isEmpty)) := by
  have empty (query : Option Q) :
      (query.getD (.pkIn [])).holds db job = query.any (Q.holds db job) := by
    cases query with
    | none => rfl
    | some query => rfl
  have pairs : (combinations jobStatusRelations).any
      (fun pair => (Q.both (.isNotNull pair.1) (.isNotNull pair.2)).holds db job) =
        decide (1 < (db.liveExecutionStateNames job).length) :=
    any_combinations (fun m => db.hasState m job.id) jobStatusRelations
  have finished : jobStatusRelations.any
      (fun relation => (Q.both .finishedAtIsNotNull (.isNotNull relation)).holds db job) =
        (job.finishedAt.isSome && !(db.liveExecutionStateNames job).isEmpty) := by
    rw [Db.liveExecutionStateNames, Bool.eq_iff_iff]
    cases done : job.finishedAt.isSome with
    | false => simp [Q.holds, done]
    | true => simp [Q.holds, done]
  unfold invalidExecutionStateQuery
  dsimp only
  rw [empty, holds_foldl_orQuery, holds_foldl_orQuery, pairs, finished]
  rfl

/-- The status is `invalid` when the query of invalid states holds. -/
theorem status_eq_invalid_iff :
    db.status job = some .invalid ↔ invalidExecutionStateQuery.holds db job = true := by
  rw [holds_invalidExecutionStateQuery, Db.status]
  cases many : decide (1 < (db.liveExecutionStateNames job).length) with
  | true => simp [of_decide_eq_true many]
  | false =>
      rw [if_neg (of_decide_eq_false many)]
      cases done : job.finishedAt.isSome with
      | false => simp
      | true => cases live : db.liveExecutionStateNames job <;> simp

/-- The invalid jobs are those with more than one entry in `execution_state_names`. -/
theorem status_eq_invalid_iff_length :
    db.status job = some .invalid ↔ 1 < (db.executionStateNames job).length := by
  rw [status_eq_invalid_iff, holds_invalidExecutionStateQuery, Db.executionStateNames]
  cases done : job.finishedAt with
  | none => simp
  | some t =>
      cases live : db.liveExecutionStateNames job with
      | nil => simp
      | cons m rest => simp

/-- A job without any state has no status. -/
theorem status_eq_none_iff : db.status job = none ↔ db.executionStateNames job = [] := by
  rw [Db.status, Db.executionStateNames]
  cases done : job.finishedAt with
  | none =>
      cases live : db.liveExecutionStateNames job with
      | nil => simp
      | cons m rest => cases rest <;> simp
  | some t => cases live : db.liveExecutionStateNames job <;> simp

/-- A valid job has its status from its one row or from its `finished_at`. -/
theorem status_of_valid (valid : invalidExecutionStateQuery.holds db job = false) :
    (∀ m, db.status job = some (.live m) ↔ db.hasState m job.id = true) ∧
      (db.status job = some .finished ↔ job.finishedAt.isSome = true) := by
  rw [holds_invalidExecutionStateQuery, Bool.or_eq_false_iff, decide_eq_false_iff_not] at valid
  rcases valid with ⟨one, apart⟩
  have has (m : StateModel) :
      db.hasState m job.id = true ↔ m ∈ db.liveExecutionStateNames job := by
    rw [mem_liveExecutionStateNames, Db.hasState, List.contains_iff_mem]
  rw [Db.status, if_neg one]
  cases done : job.finishedAt.isSome with
  | false =>
      rw [if_neg (by simp)]
      cases live : db.liveExecutionStateNames job with
      | nil => simp [has, live]
      | cons m rest =>
          rw [live, List.length_cons] at one
          have alone : rest = [] := List.length_eq_zero_iff.mp (by omega)
          simp [has, live, alone, eq_comm]
  | true =>
      rw [done, Bool.true_and, Bool.not_eq_false', List.isEmpty_iff] at apart
      simp [has, apart]

/-- The query sets select by the property. -/
theorem holds_stateQuery_iff (state : JobStatus) :
    (stateQuery state).holds db job = true ↔ db.status job = some state := by
  cases state with
  | invalid => exact status_eq_invalid_iff.symm
  | live m =>
      cases valid : invalidExecutionStateQuery.holds db job with
      | true => simp [stateQuery, jobStatusQueryFilter, Q.holds, valid, status_eq_invalid_iff.mpr valid]
      | false => simp [stateQuery, jobStatusQueryFilter, Q.holds, valid, (status_of_valid valid).1]
  | finished =>
      cases valid : invalidExecutionStateQuery.holds db job with
      | true => simp [stateQuery, jobStatusQueryFilter, Q.holds, valid, status_eq_invalid_iff.mpr valid]
      | false => simp [stateQuery, jobStatusQueryFilter, Q.holds, valid, (status_of_valid valid).2]

/-- The cases of the rank exclude each other, so that their order does not matter. -/
theorem statusRank_eq :
    statusRank db job = ((db.status job).map (fun state => queueStates.idxOf state)).getD 99 := by
  have cases_ : queueStates.zipIdx.filter (fun state => (stateQuery state.1).holds db job) =
      queueStates.zipIdx.filter (fun state => db.status job == some state.1) := by
    apply List.filter_congr
    intro state _
    rw [Bool.eq_iff_iff, holds_stateQuery_iff, beq_iff_eq]
  unfold statusRank
  dsimp only
  rw [cases_]
  cases db.status job with
  | none => decide
  | some state =>
      cases state with
      | live m => cases m <;> decide
      | finished => decide
      | invalid => decide

end Queries

/-- The rows of a state are those whose property has it. -/
theorem filterQueueState_eq_filter_status (db : Db) (jobs : List Job) (state : JobStatus) :
    filterQueueState db jobs state = jobs.filter (fun job => db.status job = some state) := by
  apply List.filter_congr
  intro job _
  rw [Bool.eq_iff_iff, holds_stateQuery_iff, decide_eq_true_eq]

/-- The property, the query sets and the sort key agree on the state of every job, whatever the
tables hold; the invalid jobs are those with more than one state, and those without any are in no
query set and rank last. -/
theorem queue_states_agree (db : Db) :
    (∀ jobs state, filterQueueState db jobs state =
      jobs.filter (fun job => db.status job = some state)) ∧
      ∀ job, statusRank db job =
          ((db.status job).map (fun state => queueStates.idxOf state)).getD 99 ∧
        (db.status job = some .invalid ↔ 1 < (db.executionStateNames job).length) ∧
        (db.status job = none ↔ db.executionStateNames job = []) :=
  ⟨filterQueueState_eq_filter_status db,
    fun _ => ⟨statusRank_eq, status_eq_invalid_iff_length, status_eq_none_iff⟩⟩

/-! ## In a reachable state -/

namespace Accounts

variable {a : Audit} {db : Db} {job : Job}

/-- In a sound state no job is invalid. -/
theorem status_ne_invalid (good : Accounts a [] 0 db) (mem : job ∈ db.jobs) :
    invalidExecutionStateQuery.holds db job = false := by
  rw [holds_invalidExecutionStateQuery, Bool.or_eq_false_iff, decide_eq_false_iff_not,
    Bool.and_eq_false_iff]
  have distinct : (db.liveExecutionStateNames job).Nodup :=
    List.Nodup.filter _ (by decide : jobStatusRelations.Nodup)
  constructor
  · intro many
    cases live : db.liveExecutionStateNames job with
    | nil => rw [live] at many; simp at many
    | cons m others =>
        cases others with
        | nil => rw [live] at many; simp at many
        | cons m' rest =>
            have has := mem_liveExecutionStateNames.mp (live ▸ List.mem_cons_self)
            have has' := mem_liveExecutionStateNames.mp
              (live ▸ List.mem_cons_of_mem _ List.mem_cons_self)
            rw [live, good.eq_of_states mem has has'] at distinct
            simp at distinct
  · cases done : job.finishedAt.isSome with
    | false => exact .inl rfl
    | true =>
        right
        rw [Bool.not_eq_false', List.isEmpty_iff, List.eq_nil_iff_forall_not_mem]
        intro m live
        exact good.stateless_of_finished mem done m (mem_liveExecutionStateNames.mp live)

end Accounts

end DjQueue
