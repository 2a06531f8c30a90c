import DjQueue.Dispatching.Departures

/-!
# What each operation dispatches

Which jobs an operation takes, case by case: new ones, the scheduled ones it promotes, the failed
ones it retries, and those it removes.  The readings of the clock that decide are the first ones:
a job that is retried was due when it was first dispatched.
-/

namespace DjQueue

open Relational

/-- Every job that has left the scheduled state is due, and the others have the time of their
scheduled row. -/
structure OnTime (T : Time) (db : Db) : Prop where
  due : ∀ j ∈ db.jobs, ∀ m, m ≠ .scheduled → j.id ∈ db.stateJobIds m → j.Due T
  matched : ∀ j ∈ db.jobs, ∀ r ∈ db.scheduled.rows, r.jobId = j.id →
    j.scheduledAt = some r.scheduledAt

/-- Later still, everything is on time. -/
theorem OnTime.mono {T T' : Time} {db : Db} (onTime : OnTime T db) (later : T ≤ T') :
    OnTime T' db :=
  ⟨fun j mem m other has => (onTime.due j mem m other has).mono later, onTime.matched⟩

/-! ## The failures whose time has come -/

/-- The failed rows of the backend whose time has come. -/
def dueFailures (db : Db) (env : Env) (now : Time) : List (FailedExecution × Job) :=
  failedOfBackend db env
    (orderBy retryOrder (db.failed.rows.filter (fun r => r.retryAt.any (fun t => t ≤ now))))

/-- Retries are in the order of their times, then of their keys. -/
theorem retryOrder_some {x y : FailedExecution} {s t : Time} (first : x.retryAt = some s)
    (second : y.retryAt = some t) :
    retryOrder x y = true ↔ s < t ∨ s = t ∧ x.id ≤ y.id := by
  unfold retryOrder
  rw [first, second]
  simp only [Bool.or_eq_true, decide_eq_true_eq, Bool.and_eq_true, beq_iff_eq]

/-- A failed row without a retry comes last. -/
theorem retryOrder_none {x y : FailedExecution} (first : x.retryAt = none) :
    retryOrder x y = true ↔ y.retryAt = none ∧ x.id ≤ y.id := by
  unfold retryOrder
  rw [first]
  cases y.retryAt <;> simp

/-- A retry comes before a failed row without one. -/
theorem retryOrder_some_none {x y : FailedExecution} {s : Time} (first : x.retryAt = some s)
    (second : y.retryAt = none) : retryOrder x y = true := by
  unfold retryOrder
  rw [first, second]

/-- The order of retries is total and transitive. -/
theorem orders_retryOrder : Orders retryOrder := by
  constructor
  · intro x y z before before'
    cases first : x.retryAt with
    | none =>
        rw [retryOrder_none first] at before ⊢
        rw [retryOrder_none before.1] at before'
        exact ⟨before'.1, Nat.le_trans before.2 before'.2⟩
    | some s =>
        cases third : z.retryAt with
        | none => exact retryOrder_some_none first third
        | some u =>
            cases second : y.retryAt with
            | none =>
                rw [retryOrder_none second, third] at before'
                cases before'.1
            | some t =>
                rw [retryOrder_some first second] at before
                rw [retryOrder_some second third] at before'
                rw [retryOrder_some first third]
                rcases before with earlier | ⟨rfl, ids⟩
                · rcases before' with earlier' | ⟨rfl, -⟩
                  · exact .inl (Int.lt_trans earlier earlier')
                  · exact .inl earlier
                · exact before'.imp_right fun same => ⟨same.1, Nat.le_trans ids same.2⟩
  · intro x y
    cases first : x.retryAt with
    | none =>
        cases second : y.retryAt with
        | none =>
            rw [retryOrder_none first, retryOrder_none second]
            exact (Nat.le_total x.id y.id).imp (fun le => ⟨second, le⟩) (fun le => ⟨first, le⟩)
        | some t => exact .inr (retryOrder_some_none second first)
    | some s =>
        cases second : y.retryAt with
        | none => exact .inl (retryOrder_some_none first second)
        | some t =>
            rw [retryOrder_some first second, retryOrder_some second first]
            rcases Int.lt_trichotomy s t with earlier | rfl | later
            · exact .inl (.inl earlier)
            · exact (Nat.le_total x.id y.id).imp (fun le => .inr ⟨rfl, le⟩)
                (fun le => .inr ⟨rfl, le⟩)
            · exact .inr (.inl later)

/-- What `promote_failed_job_retries` retries: a batch of the failures whose time has come, the
earliest first. -/
structure EarliestRetries (env : Env) (db : Db) (now : Time) (n : Nat)
    (rows : List FailedExecution) : Prop where
  mem : ∀ r ∈ rows, r ∈ db.failed.rows ∧ ∃ t, r.retryAt = some t ∧ t ≤ now
  few : rows.length ≤ n
  first : ∀ r ∈ rows, ∀ t, r.retryAt = some t → ∀ r' ∈ db.failed.rows, r' ∉ rows →
    (∃ j, db.findJob r'.jobId = some j ∧ j.backendAlias = env.config.backendAlias) →
    ∀ t', r'.retryAt = some t' → t' ≤ now → t ≤ t'

/-- The first rows of the due ones are the earliest. -/
theorem earliestRetries_take (db : Db) (env : Env) (now : Time) (n : Nat) :
    EarliestRetries env db now n (((dueFailures db env now).take n).map Prod.fst) := by
  have related {x : FailedExecution × Job} : x ∈ dueFailures db env now ↔
      ((x.1 ∈ db.failed.rows ∧ x.1.retryAt.any (fun t => t ≤ now) = true) ∧
        db.findJob x.1.jobId = some x.2) ∧ x.2.backendAlias = env.config.backendAlias := by
    rw [dueFailures, failedOfBackend, List.mem_filter, mem_selectRelatedJob, mem_orderBy,
      List.mem_filter, beq_iff_eq]
    rfl
  have sorted : (dueFailures db env now).Pairwise (fun x y => retryOrder x.1 y.1 = true) := by
    apply List.Pairwise.filter
    exact pairwise_selectRelatedJob (m := .failed) (R := fun r s => retryOrder r s = true)
      (pairwise_orderBy retryOrder orders_retryOrder.trans orders_retryOrder.total _)
  refine ⟨fun r mem => ?_, ?_, ?_⟩
  · rcases List.mem_map.mp mem with ⟨x, taken, rfl⟩
    rcases related.mp (List.mem_of_mem_take taken) with ⟨⟨⟨there, come⟩, -⟩, -⟩
    rcases (Option.any_eq_true _ _).mp come with ⟨t, at', come⟩
    exact ⟨there, t, at', of_decide_eq_true come⟩
  · rw [List.length_map]
    exact List.length_take_le n _
  · rintro r mem t at' r' there left ⟨j, found, own⟩ t' later come
    rcases List.mem_map.mp mem with ⟨x, taken, rfl⟩
    have due : (r', j) ∈ dueFailures db env now :=
      related.mpr ⟨⟨⟨there, (Option.any_eq_true _ _).mpr ⟨t', later, decide_eq_true come⟩⟩, found⟩,
        own⟩
    -- what was not taken comes after everything that was
    rw [← List.take_append_drop n (dueFailures db env now)] at due sorted
    rcases List.mem_append.mp due with early | late
    · exact absurd (List.mem_map_of_mem early) left
    · have before := (List.pairwise_append.mp sorted).2.2 x taken _ late
      rw [retryOrder_some at' later] at before
      rcases before with earlier | ⟨rfl, -⟩
      · exact Int.le_of_lt earlier
      · exact Int.le_refl _

namespace Accounts

variable {a : Audit} {hand : List JobId} {owed : Nat} {m : StateModel} {w w' : World} {T : Time}

/-! ## New jobs -/

/-- An enqueue dispatches the job it creates. -/
theorem dispatches_of_enqueueJobWithDispatch {call : TaskCall} {validate : Bool} {jobId : JobId}
    {result : Job × DispatchOutcome} (good : Accounts a hand owed w.db)
    (run : Runs (DjQueue.enqueueJobWithDispatch a.env call validate jobId) w result w') :
    jobId ∉ w.db.jobs.map Job.id ∧ Dispatches (w.clock 0) (· ∈ [jobId]) w.db w'.db := by
  rcases Runs.of_bind run with ⟨job, w₁, computed, rest₁⟩
  rcases Runs.of_ofExcept computed with ⟨ok, same₁⟩
  rw [same₁] at rest₁
  have id := (submitted_of_prepareSubmission ok).id
  rcases Runs.of_bind (Runs.of_atomic rest₁) with ⟨v, w₂, inserted, rest₂⟩
  rcases Runs.of_bind rest₂ with ⟨outcome, w₃, dispatched, rest₃⟩
  rw [(Runs.of_pure rest₃).2]
  have db₂ : w₂ = { w with db := { w.db with jobs := w.db.jobs ++ [job] } } := by
    rcases Runs.of_bind inserted with ⟨u, w₄, checked, rest₄⟩
    rcases of_run_ensureFits checked with ⟨-, rfl⟩
    rcases Runs.of_bind rest₄ with ⟨db, w₅, got, rest⟩
    rcases of_run_getDb got with ⟨rfl, rfl⟩
    split at rest
    · exact (Runs.of_throw rest).elim
    · cases rest
      rfl
  have new : jobId ∉ w.db.jobs.map Job.id := by
    rw [← id]
    exact ids_of_findJob_none (of_run_insertJob inserted).1
  have inHand : TakesInHand [job] w.db w₂.db := by
    rw [db₂]
    have alone : ([job].map Job.id).Nodup := List.nodup_singleton job.id
    apply takesInHand_of_created good alone
    intro j mem
    rw [List.mem_singleton.mp mem, id]
    exact new
  have dispatches := (places_of_dispatchJob dispatched).dispatches inHand
  rw [List.map_singleton, id, db₂] at dispatches
  exact ⟨new, dispatches⟩

/-- A bulk enqueue dispatches the jobs it creates. -/
theorem dispatches_of_enqueueJobsBulk {calls : List (TaskCall × JobId)} {validate : Bool}
    {result : List (DispatchEntry × DispatchOutcome)} (good : Accounts a hand owed w.db)
    (run : Runs (DjQueue.enqueueJobsBulk a.env calls validate) w result w') :
    ∃ ids : List JobId, (∀ id ∈ ids, id ∉ w.db.jobs.map Job.id) ∧
      Dispatches (w.clock 0) (· ∈ ids) w.db w'.db := by
  rcases Runs.of_bind run with ⟨jobs, w₁, computed, rest₁⟩
  rcases Runs.of_ofExcept computed with ⟨-, same₁⟩
  rw [same₁] at rest₁
  split at rest₁
  · rw [(Runs.of_pure rest₁).2]
    refine ⟨[], fun _ mem => absurd mem List.not_mem_nil, ?_⟩
    have calm := (Calm.refl w.db).dispatches (w.clock 0)
    simpa only [List.not_mem_nil] using calm
  · rcases places_of_enqueueBulkOnce rest₁ with ⟨nodup, new, places⟩
    refine ⟨jobs.map Job.id, fun id mem => ?_,
      places.dispatches (takesInHand_of_created good nodup new)⟩
    rcases List.mem_map.mp mem with ⟨j, inJobs, rfl⟩
    exact new j inJobs

/-! ## Jobs that are dispatched again -/

/-- Selected rows are consumed, and their jobs, which are due, dispatched again. -/
theorem dispatches_of_redispatch {rows consumed : List (m.Row × Job)}
    {pk : m.Row × Job → Nat} {isolate reset : Bool} {w₁ : World}
    (consume : Runs (consumeSelectedRows a.env m pk rows) w consumed w₁)
    (good : Accounts a hand owed w.db) (pkOf : ∀ r, pk r = rowId r.1)
    (selected : Selected w.db rows) (own : ∀ r ∈ rows, r.2.backendAlias = a.backendAlias)
    (due : ∀ r ∈ rows, r.2.Due T)
    (redispatch : consumed.isEmpty = true ∧ w' = w₁ ∨
      ∃ result, Runs (DjQueue.redispatchJobs a.env (consumed.map Prod.snd) isolate reset) w₁ result
        w') :
    Dispatches T (· ∈ rows.map (fun r => rowJobId r.1)) w.db w'.db ∧
      ∀ r' ∈ w'.db.failed.rows, r' ∈ w₁.db.failed.rows ∨ w₁.db.failed.nextId ≤ r'.id := by
  rcases takesInHand_of_consumed good pkOf selected own consume with ⟨rfl, -, inHand⟩
  have dueJobs : ∀ j ∈ consumed.map Prod.snd, j.Due T := by
    intro j mem
    rcases List.mem_map.mp mem with ⟨r, inRows, rfl⟩
    exact due r inRows
  have places : Places T (consumed.map Prod.snd) w₁.db w'.db := by
    rcases redispatch with ⟨-, rfl⟩ | ⟨result, redispatched⟩
    · exact .of_calm (.refl _) rfl dueJobs
    · exact places_of_redispatchJobs dueJobs redispatched
  refine ⟨?_, places.failures⟩
  rw [selected.ids_eq, show consumed.map (fun r => r.2.id) = (consumed.map Prod.snd).map Job.id from
    (List.map_map ..).symm]
  exact places.dispatches inHand

/-- Scheduled jobs that are due are dispatched. -/
theorem dispatches_of_promoteScheduledJobs {batchSize : Int} {jobs : List Job}
    (good : Accounts a hand owed w.db) (onTime : OnTime T w.db)
    (run : Runs (DjQueue.promoteScheduledJobs a.env batchSize) w jobs w') :
    ∃ rows : List ScheduledExecution, (∀ r ∈ rows, r ∈ w.db.scheduled.rows ∧
      r.scheduledAt ≤ w.clock 0) ∧
      Dispatches (w.clock 0) (· ∈ rows.map ScheduledExecution.jobId) w.db w'.db := by
  rcases Runs.of_bind run with ⟨now, w₁, read, rest₁⟩
  cases read
  rcases Runs.of_bind (Runs.of_atomic rest₁) with ⟨db, w₂, got, rest₂⟩
  rcases of_run_getDb got with ⟨rfl, rfl⟩
  rcases Runs.of_bind rest₂ with ⟨rows, w₃, sliced, rest₃⟩
  rcases of_run_sliceTo sliced with ⟨taken, same₃⟩
  rw [same₃] at rest₃
  rcases Runs.of_bind rest₃ with ⟨v, w₄, check, rest₄⟩
  rcases of_run_ensureStateRowsBelongToBackend (m := .scheduled) check with ⟨same₄, own⟩
  rw [same₄] at rest₄
  rcases Runs.of_bind rest₄ with ⟨consumed, w₅, consume, rest₅⟩
  have selected : Selected (m := .scheduled) w.db rows := by
    rw [taken]
    exact (good.selected_orderBy .scheduled (fun r =>
      r.backendAlias == a.env.config.backendAlias && r.scheduledAt ≤ w.clock 0)
      scheduledOrder).sublist (List.take_sublist batchSize.toNat _)
  have come : ∀ r ∈ rows, r.1.scheduledAt ≤ w.clock 0 := by
    intro r mem
    rw [taken] at mem
    rcases List.mem_filterMap.mp (List.mem_of_mem_take mem) with ⟨row, ordered, loaded⟩
    rcases Option.map_eq_some_iff.mp loaded with ⟨j, -, rfl⟩
    have hit := (List.mem_filter.mp (mem_orderBy.mp ordered)).2
    exact of_decide_eq_true (Bool.and_eq_true_iff.mp hit).2
  have due : ∀ r ∈ rows, r.2.Due (w.clock 0) := by
    intro r mem t at'
    have job := mem_of_findJob (selected.job r mem)
    have same := onTime.matched r.2 job.1 r.1 (selected.mem r mem) job.2.symm
    rw [at'] at same
    rw [Option.some.inj same]
    exact come r mem
  refine ⟨rows.map Prod.fst, fun r mem => ?_, ?_⟩
  · rcases List.mem_map.mp mem with ⟨x, inRows, rfl⟩
    exact ⟨selected.mem x inRows, come x inRows⟩
  · have redispatch : consumed.isEmpty = true ∧ w' = w₅ ∨ ∃ result,
        Runs (DjQueue.redispatchJobs a.env (consumed.map Prod.snd) true false) w₅ result w' := by
      split at rest₅
      · rename_i empty
        exact .inl ⟨empty, (Runs.of_pure rest₅).2⟩
      · rcases Runs.of_bind rest₅ with ⟨result, w₆, redispatched, rest₆⟩
        rw [(Runs.of_pure rest₆).2]
        exact .inr ⟨result, redispatched⟩
    rw [List.map_map]
    exact (dispatches_of_redispatch (m := .scheduled) consume good (fun _ => rfl) selected own due
      redispatch).1

/-- The job in hand loses its time. -/
theorem takesInHand_unscheduled {db db₁ : Db} {job : Job} (inHand : TakesInHand [job] db db₁) :
    TakesInHand [{ job with scheduledAt := none }] db { db₁ with
      jobs := db₁.jobs.map (fun j =>
        if j.id == job.id then { j with scheduledAt := none } else j) } := by
  refine ⟨fun j mem other => ?_, fun j mem i inJobs same => ?_, inHand.free, inHand.stays,
    inHand.waits, inHand.failed⟩
  · rcases List.mem_map.mp mem with ⟨j₁, there, rfl⟩
    by_cases hit : (j₁.id == job.id) = true
    · rw [if_pos hit] at other
      exact absurd (List.mem_singleton.mpr (beq_iff_eq.mp hit)) other
    · rw [if_neg hit] at other ⊢
      exact inHand.others j₁ there other
  · rw [List.mem_singleton.mp inJobs] at same ⊢
    rcases List.mem_map.mp mem with ⟨j₁, there, rfl⟩
    by_cases hit : (j₁.id == job.id) = true
    · rw [if_pos hit]
    · rw [if_neg hit] at same
      exact absurd (beq_iff_eq.mpr same.symm) hit

/-- A scheduled job that is dispatched now loses its time first. -/
theorem dispatches_of_dispatchScheduledJobNow {jobId : JobId} {result : Job × DispatchOutcome}
    (good : Accounts a hand owed w.db)
    (run : Runs (DjQueue.dispatchScheduledJobNow a.env jobId) w result w') :
    jobId ∈ w.db.stateJobIds .scheduled ∧
      (∀ j' ∈ w'.db.jobs, j'.id = jobId → j'.scheduledAt = none) ∧
      Dispatches T (· ∈ [jobId]) w.db w'.db := by
  rcases Runs.of_bind (Runs.of_atomic run) with ⟨db, w₁, got, rest₁⟩
  rcases of_run_getDb got with ⟨rfl, rfl⟩
  split at rest₁
  · exact (Runs.of_throw rest₁).elim
  · rename_i scheduled others selection
    have chosen := selection ▸ List.mem_cons_self (a := scheduled) (l := others)
    have selected : Selected (m := .scheduled) w₁.db [scheduled] :=
      (good.selected_filter .scheduled (fun r => r.jobId == jobId &&
        r.backendAlias == a.env.config.backendAlias)).sublist (List.singleton_sublist.mpr chosen)
    have isJob : scheduled.2.id = jobId := by
      rcases List.mem_filterMap.mp chosen with ⟨row, filtered, loaded⟩
      rcases Option.map_eq_some_iff.mp loaded with ⟨j, found, rfl⟩
      have hit := (Bool.and_eq_true_iff.mp (List.mem_filter.mp filtered).2).1
      exact (mem_of_findJob found).2.trans (beq_iff_eq.mp hit)
    have there := selected.mem scheduled List.mem_cons_self
    rcases Runs.of_bind rest₁ with ⟨v, w₂, check, rest₂⟩
    rcases of_run_ensureStateRowsBelongToBackend (m := .scheduled) check with ⟨rfl, own⟩
    rcases Runs.of_bind rest₂ with ⟨consumed, w₃, consume, rest₃⟩
    rcases takesInHand_of_consumed (m := .scheduled) good (fun _ => rfl) selected own consume with
      ⟨rfl, -, inHand⟩
    rcases Runs.of_bind rest₃ with ⟨v', w₄, updated, rest₄⟩
    rcases Runs.of_bind rest₄ with ⟨outcome, w₅, dispatched, rest₅⟩
    rw [(Runs.of_pure rest₅).2]
    have inHand₄ : TakesInHand [{ scheduled.2 with scheduledAt := none }] w₂.db w₄.db := by
      unfold updateJobsWhere at updated
      rw [of_run_modifyDb updated]
      exact takesInHand_unscheduled inHand
    have places := places_of_dispatchJob dispatched
    have due : ∀ j ∈ [{ scheduled.2 with scheduledAt := none }], Job.Due T j := by
      intro j mem t at'
      rw [List.mem_singleton.mp mem] at at'
      cases at'
    refine ⟨?_, fun j' mem same => ?_, ?_⟩
    · rw [← isJob, selected.id_eq List.mem_cons_self]
      exact List.mem_map_of_mem there
    · rcases places.times j' mem with ⟨j, before, id, at', -⟩
      rw [at', ← inHand₄.own j before _ (List.mem_singleton.mpr rfl)
        (isJob.trans (same.symm.trans id))]
    · rw [← isJob]
      exact (places.redue due).dispatches inHand₄

/-! ## Retries -/

/-- A failed job is due: it was dispatched before. -/
theorem due_of_failed {rows : List (FailedExecution × Job)} (onTime : OnTime T w.db)
    (selected : Selected (m := .failed) w.db rows) : ∀ r ∈ rows, r.2.Due T := by
  intro r mem
  apply onTime.due r.2 (mem_of_findJob (selected.job r mem)).1 .failed (by decide)
  rw [selected.id_eq mem]
  exact List.mem_map_of_mem (selected.mem r mem)

theorem dispatches_of_retryFailedJob {jobId : JobId} {job : Option Job}
    (good : Accounts a hand owed w.db) (onTime : OnTime T w.db)
    (run : Runs (DjQueue.retryFailedJob a.env jobId) w job w') :
    jobId ∈ w.db.stateJobIds .failed ∧ Dispatches T (· ∈ [jobId]) w.db w'.db := by
  rcases Runs.of_bind (Runs.of_atomic run) with ⟨db, w₁, got, rest₁⟩
  rcases of_run_getDb got with ⟨rfl, rfl⟩
  split at rest₁
  · exact (Runs.of_throw rest₁).elim
  · rename_i failed found
    rcases good.selected_getFailed found with ⟨selected, own⟩
    have isJob : failed.1.jobId = jobId := by
      rcases List.mem_filterMap.mp (List.mem_of_find?_eq_some found) with ⟨row, filtered, loaded⟩
      rcases Option.map_eq_some_iff.mp loaded with ⟨j, -, rfl⟩
      exact beq_iff_eq.mp (List.mem_filter.mp filtered).2
    rcases Runs.of_bind rest₁ with ⟨consumed, w₂, consume, rest₂⟩
    have redispatch : consumed.isEmpty = true ∧ w' = w₂ ∨ ∃ result,
        Runs (DjQueue.redispatchJobs a.env (consumed.map Prod.snd) false true) w₂ result w' := by
      split at rest₂
      · exact (Runs.of_throw rest₂).elim
      · rcases Runs.of_bind rest₂ with ⟨result, w₃, redispatched, rest₃⟩
        rw [(Runs.of_pure rest₃).2]
        exact .inr ⟨result, redispatched⟩
    refine ⟨?_, ?_⟩
    · rw [← isJob]
      exact List.mem_map_of_mem (selected.mem failed List.mem_cons_self)
    · have dispatches := (dispatches_of_redispatch (m := .failed) consume good (fun _ => rfl) selected
        (fun r mem => List.mem_singleton.mp mem ▸ own) (due_of_failed onTime selected) redispatch).1
      rw [List.map_singleton, show rowJobId (m := .failed) failed.1 = jobId from isJob] at dispatches
      exact dispatches

/-- The rows that are retried leave, whatever becomes of their jobs. -/
theorem dispatches_of_retryFailedRows {rows : List (FailedExecution × Job)} {jobs : List Job}
    (good : Accounts a hand owed w.db) (onTime : OnTime T w.db)
    (selected : Selected (m := .failed) w.db rows)
    (own : ∀ r ∈ rows, r.2.backendAlias = a.backendAlias)
    (run : Runs (DjQueue.retryFailedRows a.env rows) w jobs w') :
    Dispatches T (· ∈ rows.map (fun r => r.1.jobId)) w.db w'.db ∧
      ∀ r ∈ rows, ¬ w'.db.keepsFailure r.1 := by
  rcases Runs.of_bind run with ⟨consumed, w₁, consume, rest₁⟩
  have redispatch : consumed.isEmpty = true ∧ w' = w₁ ∨ ∃ result,
      Runs (DjQueue.redispatchJobs a.env (consumed.map Prod.snd) true true) w₁ result w' := by
    split at rest₁
    · rename_i empty
      exact .inl ⟨empty, (Runs.of_pure rest₁).2⟩
    · rcases Runs.of_bind rest₁ with ⟨result, w₂, redispatched, rest₂⟩
      rw [(Runs.of_pure rest₂).2]
      exact .inr ⟨result, redispatched⟩
  rcases dispatches_of_redispatch (m := .failed) consume good (fun _ => rfl) selected own
    (due_of_failed onTime selected) redispatch with ⟨dispatches, added⟩
  refine ⟨dispatches, fun r mem kept => ?_⟩
  rcases takesInHand_of_consumed (m := .failed) good (fun _ => rfl) selected own consume with
    ⟨-, db₁, -⟩
  have failed₁ : w₁.db.failed =
      without (m := .failed) w.db.failed (rows.map (fun r => r.1.id)) := by
    rw [db₁]
    rfl
  rcases kept with ⟨r', there, sameId, -⟩
  rcases added r' there with old | new
  · rw [failed₁] at old
    have out := (List.mem_filter.mp old).2
    rw [Bool.not_eq_true', ← Bool.not_eq_true, List.contains_iff_mem] at out
    exact out (List.mem_map.mpr ⟨r, mem, sameId.symm⟩)
  · have bound := good.rowBound .failed r.1 (selected.mem r mem)
    rw [failed₁] at new
    change w.db.failed.nextId ≤ r'.id at new
    change r.1.id < w.db.failed.nextId at bound
    omega

theorem dispatches_of_retryFailedJobs {jobIds : Option (List JobId)} {batchSize : Int} {n : Nat}
    (good : Accounts a hand owed w.db) (onTime : OnTime T w.db)
    (run : Runs (DjQueue.retryFailedJobs a.env jobIds batchSize) w n w') :
    ∃ rows : List FailedExecution, (∀ r ∈ rows, r ∈ w.db.failed.rows ∧
      jobIds.all (fun ids => ids.contains r.jobId) = true) ∧
      Dispatches T (· ∈ rows.map FailedExecution.jobId) w.db w'.db := by
  rcases Runs.of_bind (Runs.of_atomic run) with ⟨db, w₁, got, rest₁⟩
  rcases of_run_getDb got with ⟨rfl, rfl⟩
  rcases Runs.of_bind rest₁ with ⟨rows, w₂, sliced, rest₂⟩
  rcases of_run_sliceTo sliced with ⟨taken, same₂⟩
  rw [same₂] at rest₂
  rcases Runs.of_bind rest₂ with ⟨jobs, w₃, retried, rest₃⟩
  rw [(Runs.of_pure rest₃).2]
  rcases good.selected_failedOfBackend (fun r => jobIds.all (fun ids => ids.contains r.jobId))
    failedIdOrder batchSize.toNat with ⟨selected, own⟩
  rw [← taken] at selected own
  refine ⟨rows.map Prod.fst, fun r mem => ?_, ?_⟩
  · rcases List.mem_map.mp mem with ⟨x, inRows, rfl⟩
    refine ⟨selected.mem x inRows, ?_⟩
    rw [taken] at inRows
    rcases List.mem_filterMap.mp (List.mem_of_mem_filter (List.mem_of_mem_take inRows)) with
      ⟨row, ordered, loaded⟩
    rcases Option.map_eq_some_iff.mp loaded with ⟨j, -, rfl⟩
    exact (List.mem_filter.mp (mem_orderBy.mp ordered)).2
  · rw [List.map_map]
    exact (dispatches_of_retryFailedRows good onTime selected own retried).1

theorem dispatches_of_promoteFailedJobRetries {batchSize : Int} {jobs : List Job}
    (good : Accounts a hand owed w.db) (onTime : OnTime T w.db)
    (run : Runs (DjQueue.promoteFailedJobRetries a.env batchSize) w jobs w') :
    ∃ rows, EarliestRetries a.env w.db (w.clock 0) batchSize.toNat rows ∧
      Dispatches T (· ∈ rows.map FailedExecution.jobId) w.db w'.db ∧
      ∀ r ∈ w.db.failed.rows, ¬ w'.db.keepsFailure r ↔ r ∈ rows := by
  rcases Runs.of_bind run with ⟨now, w₁, read, rest₁⟩
  cases read
  rcases Runs.of_bind (Runs.of_atomic rest₁) with ⟨db, w₂, got, rest₂⟩
  rcases of_run_getDb got with ⟨rfl, rfl⟩
  rcases Runs.of_bind rest₂ with ⟨rows, w₃, sliced, retried⟩
  rcases of_run_sliceTo sliced with ⟨taken, same₃⟩
  rw [same₃] at retried
  rcases good.selected_failedOfBackend (fun r => r.retryAt.any (fun t => t ≤ w.clock 0)) retryOrder
    batchSize.toNat with ⟨selected, own⟩
  rw [← taken] at selected own
  have earliest := earliestRetries_take w.db a.env (w.clock 0) batchSize.toNat
  rw [show (dueFailures w.db a.env (w.clock 0)).take batchSize.toNat = rows from taken.symm]
    at earliest
  rcases dispatches_of_retryFailedRows (w := ⟨w.db, fun n => w.clock (n + 1), w.uuids⟩) good onTime
    selected own retried with ⟨dispatches, leave⟩
  refine ⟨rows.map Prod.fst, earliest, ?_, fun r mem => ⟨fun gone => ?_, fun inRows => ?_⟩⟩
  · rw [List.map_map]
    exact dispatches
  · by_contra other
    refine gone (dispatches.failed r mem fun taken => other ?_)
    rcases List.mem_map.mp taken with ⟨x, there, same⟩
    have row : x.1 = r := List.inj_on_of_nodup_map (good.stateJobIds_nodup .failed)
      (selected.mem x there) mem same
    exact List.mem_map.mpr ⟨x, there, row⟩
  · rcases List.mem_map.mp inRows with ⟨x, there, rfl⟩
    exact leave x there

end Accounts

end DjQueue
