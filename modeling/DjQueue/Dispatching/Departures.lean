import DjQueue.Dispatching.Places

/-!
# Who leaves the scheduled and the failed state

An operation takes jobs in hand, out of the table of their state or new ones, and places them.
`Dispatches` says what this comes to for the operation as a whole: the jobs it took are due or have
a scheduled row with their own time, and all the others are where they were.
-/

namespace DjQueue

open Relational

/-! ## Jobs in hand -/

/-- The jobs in hand have no scheduled row; the rows of the others stay. -/
structure TakesInHand (jobs : List Job) (db db₁ : Db) : Prop where
  others : ∀ j ∈ db₁.jobs, j.id ∉ jobs.map Job.id → j ∈ db.jobs
  own : ∀ j ∈ db₁.jobs, ∀ i ∈ jobs, i.id = j.id → i.scheduledAt = j.scheduledAt
  free : ∀ r ∈ db₁.scheduled.rows, r.jobId ∉ jobs.map Job.id
  stays : ∀ r ∈ db₁.scheduled.rows, r ∈ db.scheduled.rows
  waits : ∀ r ∈ db.scheduled.rows, r.jobId ∉ jobs.map Job.id → r ∈ db₁.scheduled.rows
  failed : ∀ r ∈ db.failed.rows, r.jobId ∉ jobs.map Job.id → r ∈ db₁.failed.rows

/-- The jobs that were `taken` are due at `T` or scheduled for their own time; every other job, and
every scheduled or failed row of another job, is still there. -/
structure Dispatches (T : Time) (taken : JobId → Prop) (db db' : Db) : Prop where
  jobs : ∀ j' ∈ db'.jobs, ¬ taken j'.id → ∃ j ∈ db.jobs, j.SameTimes j'
  joins : ∀ r' ∈ db'.scheduled.rows, ¬ taken r'.jobId → r' ∈ db.scheduled.rows
  waits : ∀ r ∈ db.scheduled.rows, ¬ taken r.jobId → r ∈ db'.scheduled.rows
  failed : ∀ r ∈ db.failed.rows, ¬ taken r.jobId → db'.keepsFailure r
  placed : ∀ j' ∈ db'.jobs, taken j'.id → j'.Due T ∨ j'.id ∈ db'.stateJobIds .scheduled
  matched : ∀ j' ∈ db'.jobs, ∀ r' ∈ db'.scheduled.rows, taken j'.id → r'.jobId = j'.id →
    j'.scheduledAt = some r'.scheduledAt

/-- A calm operation dispatches nothing. -/
theorem Calm.dispatches {db db' : Db} (calm : Calm db db') (T : Time) :
    Dispatches T (fun _ => False) db db' := by
  refine ⟨fun j' mem _ => calm.jobs j' mem, fun r' mem _ => ?_, fun r mem _ => ?_,
    fun r mem _ => calm.failed r mem, fun _ _ taken => taken.elim,
    fun _ _ _ _ taken => taken.elim⟩
  · rw [← calm.scheduled]
    exact mem
  · rw [calm.scheduled]
    exact mem

/-- Jobs that are due at one time are placed for any other they are due at. -/
theorem Places.redue {T T' : Time} {jobs : List Job} {db db' : Db} (places : Places T jobs db db')
    (due : ∀ j ∈ jobs, j.Due T') : Places T' jobs db db' := by
  rcases places.scheduled with ⟨new, rows, given, -⟩
  exact ⟨places.times, ⟨new, rows, given, fun j mem => .inl (due j mem)⟩, places.failed,
    places.failures⟩

/-- Taking jobs in hand and placing them is a dispatch of these jobs. -/
theorem Places.dispatches {T : Time} {jobs : List Job} {db db₁ db' : Db}
    (places : Places T jobs db₁ db') (inHand : TakesInHand jobs db db₁) :
    Dispatches T (· ∈ jobs.map Job.id) db db' := by
  rcases places.scheduled with ⟨new, rows', given, due⟩
  refine ⟨fun j' mem other => ?_, fun r' mem other => ?_, fun r mem other => ?_,
    fun r mem other => ?_, fun j' mem taken => ?_, fun j' mem r' there taken same => ?_⟩
  · rcases places.times j' mem with ⟨j, there, id, -, taken | times⟩
    · exact absurd (id ▸ taken) other
    · exact ⟨j, inHand.others j there (id ▸ other), times⟩
  · rw [rows'] at mem
    rcases List.mem_append.mp mem with old | added
    · exact inHand.stays r' old
    · rcases given r' added with ⟨i, inJobs, id, -⟩
      exact absurd (List.mem_map.mpr ⟨i, inJobs, id.symm⟩) other
  · rw [rows']
    exact List.mem_append_left _ (inHand.waits r mem other)
  · exact ⟨r, places.failed r (inHand.failed r mem other), rfl, rfl⟩
  · rcases List.mem_map.mp taken with ⟨i, inJobs, sameId⟩
    rcases places.times j' mem with ⟨j, there, id, at', -⟩
    rcases due i inJobs with due | ⟨r, added, job⟩
    · refine .inl fun t set => due t ?_
      rw [inHand.own j there i inJobs (sameId.trans id), ← at', set]
    · refine .inr (List.mem_map.mpr ⟨r, ?_, job.trans sameId⟩)
      change r ∈ db'.scheduled.rows
      rw [rows']
      exact List.mem_append_right _ added
  · rw [rows'] at there
    rcases List.mem_append.mp there with old | added
    · exact absurd (same ▸ taken) (inHand.free r' old)
    · rcases given r' added with ⟨i, inJobs, job, at'⟩
      rcases places.times j' mem with ⟨j, before, id, at'', -⟩
      rw [at'', ← inHand.own j before i inJobs (job.symm.trans (same.trans id)), at']

/-! ## Taking them -/

section Taking

variable {a : Audit} {hand : List JobId} {owed : Nat} {m : StateModel} {w w' : World}

/-- Selected rows are deleted. -/
theorem takesInHand_of_consumed {rows consumed : List (m.Row × Job)} {pk : m.Row × Job → Nat}
    (good : Accounts a hand owed w.db) (pkOf : ∀ r, pk r = rowId r.1)
    (selected : Selected w.db rows) (own : ∀ r ∈ rows, r.2.backendAlias = a.backendAlias)
    (run : Runs (consumeSelectedRows a.env m pk rows) w consumed w') :
    consumed = rows ∧
      w'.db = w.db.setTable m (without (w.db.table m) (rows.map (fun r => rowId r.1))) ∧
      TakesInHand (rows.map Prod.snd) w.db w'.db := by
  rcases good.consume pkOf selected own run with ⟨rfl, good'⟩
  obtain rfl : pk = fun r => rowId r.1 := funext pkOf
  have db' := (of_run_consumeSelectedRows (fun r mem => ⟨r.1, selected.mem r mem, rfl⟩)
    selected.nodup run).2
  have jobs : w'.db.jobs = w.db.jobs := by
    rw [db', Db.jobs_setTable]
  have ids : (consumed.map Prod.snd).map Job.id = consumed.map (fun r => r.2.id) := by
    rw [List.map_map]
    rfl
  -- a row that is not of a job in hand was not selected
  have stays : ∀ m', ∀ r ∈ (w.db.table m').rows, rowJobId r ∉ (consumed.map Prod.snd).map Job.id →
      r ∈ (w'.db.table m').rows := by
    intro m' r mem other
    rw [db']
    by_cases same : m' = m
    · subst same
      rw [Db.table_setTable_same]
      refine List.mem_filter.mpr ⟨mem, ?_⟩
      rw [Bool.not_eq_true', ← Bool.not_eq_true, List.contains_iff_mem, List.mem_map]
      rintro ⟨x, inRows, sameId⟩
      have row := List.inj_on_of_nodup_map (good.rowIds m') (selected.mem x inRows) mem sameId
      rw [← row, ← selected.id_eq inRows, ids] at other
      exact other (List.mem_map_of_mem inRows)
    · rw [Db.table_setTable_ne _ _ same]
      exact mem
  have was : ∀ m', ∀ r ∈ (w'.db.table m').rows, r ∈ (w.db.table m').rows := by
    intro m' r mem
    rw [db'] at mem
    by_cases same : m' = m
    · subst same
      rw [Db.table_setTable_same] at mem
      exact List.mem_of_mem_filter mem
    · rw [Db.table_setTable_ne _ _ same] at mem
      exact mem
  refine ⟨rfl, db', fun j mem _ => jobs ▸ mem, fun j mem i inHand same => ?_, fun r mem taken => ?_,
    was .scheduled, stays .scheduled, stays .failed⟩
  · rcases List.mem_map.mp inHand with ⟨x, inRows, rfl⟩
    rw [jobs] at mem
    rw [good.eq_of_id (mem_of_findJob (selected.job x inRows)).1 mem same]
  · rw [ids] at taken
    rcases List.mem_map.mp taken with ⟨x, inRows, same⟩
    have there : x.2 ∈ w'.db.jobs := jobs ▸ (mem_of_findJob (selected.job x inRows)).1
    apply good'.stateless_of_hand there (List.mem_append_left _ (List.mem_map_of_mem inRows))
      .scheduled
    rw [same]
    exact List.mem_map_of_mem mem

/-- New jobs have no rows. -/
theorem takesInHand_of_created {db : Db} {jobs : List Job} (good : Accounts a hand owed db)
    (nodup : (jobs.map Job.id).Nodup) (new : ∀ j ∈ jobs, j.id ∉ db.jobs.map Job.id) :
    TakesInHand jobs db { db with jobs := db.jobs ++ jobs } := by
  refine ⟨fun j mem other => ?_, fun j mem i inJobs same => ?_, fun r mem taken => ?_,
    fun _ mem => mem, fun _ mem _ => mem, fun _ mem _ => mem⟩
  · rcases List.mem_append.mp mem with old | created
    · exact old
    · exact absurd (List.mem_map_of_mem created) other
  · rcases List.mem_append.mp mem with old | created
    · exact absurd (same ▸ List.mem_map_of_mem old) (new i inJobs)
    · rw [List.inj_on_of_nodup_map nodup inJobs created same]
  · rcases List.mem_map.mp taken with ⟨j, inJobs, same⟩
    rcases good.job_of_mem_stateJobIds (m := .scheduled) (List.mem_map_of_mem mem) with
      ⟨i, there, sameId⟩
    exact new j inJobs (List.mem_map.mpr ⟨i, there, sameId.trans same.symm⟩)

end Taking

end DjQueue
