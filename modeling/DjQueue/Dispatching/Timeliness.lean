import DjQueue.Dispatching.Removals
import DjQueue.System.Invariants

/-!
# Never early

A chronicle of calls: the tables, the latest time any of them has seen, and for every job when it
last became ready, blocked or claimed.  Calls come in any order, and the first reading of a call may
be older than the calls before it, as that of a transaction that is retried.
-/

namespace DjQueue

open Relational

/-! ## Who may be taken -/

/-- The calls that delete jobs in this state. -/
def JobOperation.discards : JobOperation → StateModel → Bool
  | discardScheduledJobs _ _, .scheduled => true
  | discardFailedJob _, .failed | discardFailedJobs _ _, .failed
  | clearFailedJobs _ _ _ _, .failed => true
  | _, _ => false

/-- The calls that retry failed jobs whenever they are made. -/
def JobOperation.retries : JobOperation → Bool
  | retryFailedJob _ | retryFailedJobs _ _ => true
  | _ => false

/-- The call is for this job: it names it, or asks for no job in particular. -/
def JobOperation.AsksFor : JobOperation → JobId → Prop
  | retryFailedJob id, i | discardFailedJob id, i => i = id
  | retryFailedJobs ids _, i | discardFailedJobs ids _, i | discardScheduledJobs ids _, i =>
      ids.all (fun l => l.contains i) = true
  | clearFailedJobs _ _ _ _, _ => True
  | _, _ => False

/-- Why a call that began at `T` may take a job into its hand. -/
inductive JobOperation.MayTake (T : Time) (db db' : Db) : JobOperation → JobId → Prop
  | created {op : JobOperation} {id : JobId} (new : id ∉ db.jobs.map Job.id) :
      MayTake T db db' op id
  | promoted {n : Int} {r : ScheduledExecution} (mem : r ∈ db.scheduled.rows)
      (come : r.scheduledAt ≤ T) : MayTake T db db' (.promoteScheduledJobs n) r.jobId
  | dispatchedNow {id : JobId} (was : id ∈ db.stateJobIds .scheduled)
      (nulled : ∀ j' ∈ db'.jobs, j'.id = id → j'.scheduledAt = none) :
      MayTake T db db' (.dispatchScheduledJobNow id) id
  | retried {op : JobOperation} {id : JobId} (retries : op.retries = true)
      (asked : op.AsksFor id) (was : id ∈ db.stateJobIds .failed) : MayTake T db db' op id
  | retryPromoted {n : Int} {r : FailedExecution} {t : Time} (mem : r ∈ db.failed.rows)
      (at_ : r.retryAt = some t) (come : t ≤ T) :
      MayTake T db db' (.promoteFailedJobRetries n) r.jobId
  | removed {op : JobOperation} {m : StateModel} {id : JobId} (discards : op.discards m = true)
      (asked : op.AsksFor id) (was : id ∈ db.stateJobIds m) (gone : ∀ j' ∈ db'.jobs, j'.id ≠ id) :
      MayTake T db db' op id

/-- A dispatch that was on time stays so. -/
theorem Dispatches.mono {T T' : Time} {taken : JobId → Prop} {db db' : Db}
    (dispatches : Dispatches T taken db db') (later : T ≤ T') : Dispatches T' taken db db' :=
  { dispatches with
    placed := fun j mem hit => (dispatches.placed j mem hit).imp_left fun due => due.mono later }

/-- What a call did: it took some jobs, each for a reason, and dispatched or deleted them. -/
def JobOperation.Takes (op : JobOperation) (T now : Time) (db db' : Db) : Prop :=
  ∃ taken, Dispatches now taken db db' ∧ ∀ id, taken id → op.MayTake T db db' id

section Calls

variable {env : Env} {w : World} {now : Time}

theorem takes_nothing {op : JobOperation} {T : Time} {db db' : Db} (calm : Calm db db') :
    op.Takes T now db db' :=
  ⟨fun _ => False, calm.dispatches now, fun _ taken => taken.elim⟩

/-- A call that undoes itself when it raises. -/
theorem takes_of_rollsBack {α : Type} {x : Op α} {op : JobOperation} {T : Time}
    (rolls : RollsBack x) (returns : ∀ v w', Runs x w v w' → op.Takes T now w.db w'.db) :
    op.Takes T now w.db (finalState x w).db := by
  rcases runs_or_raises x w with ⟨v, run, -⟩ | ⟨e, raised, -⟩
  · exact returns v _ run
  · rw [rolls _ _ _ raised]
    exact takes_nothing (.refl w.db)

/-- Jobs that were asked for are deleted. -/
theorem takes_of_removed {op : JobOperation} {m : StateModel} {T : Time} {db db' : Db}
    {ids : List JobId} (discards : op.discards m = true)
    (asked : ∀ id ∈ ids, op.AsksFor id ∧ id ∈ db.stateJobIds m)
    (removed : Dispatches now (· ∈ ids) db db' ∧ Gone ids db') : op.Takes T now db db' :=
  ⟨_, removed.1, fun id taken => .removed discards (asked id taken).1 (asked id taken).2
    fun j mem same => removed.2 j mem (same ▸ taken)⟩

theorem Sound.audited {db : Db} (sound : Sound none db) (env : Env) :
    ∃ a : Audit, a.env = env ∧ Accounts a [] 0 db := by
  rcases sound.opened env [] List.nodup_nil (fun _ mem => absurd mem List.not_mem_nil) [] with
    ⟨a, opened⟩
  exact ⟨a, opened.env, opened.accounts⟩

/-- What any call does, however it ends. -/
theorem JobOperation.takes (op : JobOperation) (sound : Sound none w.db) (onTime : OnTime now w.db)
    (later : w.clock 0 ≤ now) : op.Takes (w.clock 0) now w.db (op.final env w).db := by
  rcases sound.audited env with ⟨a, rfl, good⟩
  cases idle : op.dispatches with
  | false => exact takes_nothing (op.calm idle a.env w)
  | true =>
      cases op with
      | enqueueJobWithDispatch call validate jobId =>
          refine takes_of_rollsBack (RollsBack.enqueueJobWithDispatch a.env call validate jobId) ?_
          intro result w' run
          rcases good.dispatches_of_enqueueJobWithDispatch run with ⟨new, dispatches⟩
          refine ⟨_, dispatches.mono later, fun id taken => .created ?_⟩
          rw [List.mem_singleton.mp taken]
          exact new
      | enqueueJobsBulk calls validate =>
          refine takes_of_rollsBack (RollsBack.enqueueJobsBulk a.env calls validate) ?_
          intro result w' run
          rcases good.dispatches_of_enqueueJobsBulk run with ⟨ids, new, dispatches⟩
          exact ⟨_, dispatches.mono later, fun id taken => .created (new id taken)⟩
      | promoteScheduledJobs batchSize =>
          refine takes_of_rollsBack (RollsBack.promoteScheduledJobs a.env batchSize) ?_
          intro jobs w' run
          rcases good.dispatches_of_promoteScheduledJobs onTime run with ⟨rows, come, dispatches⟩
          refine ⟨_, dispatches.mono later, fun id taken => ?_⟩
          rcases List.mem_map.mp taken with ⟨r, mem, rfl⟩
          exact .promoted (come r mem).1 (come r mem).2
      | dispatchScheduledJobNow jobId =>
          refine takes_of_rollsBack (RollsBack.atomic _) ?_
          intro result w' run
          rcases good.dispatches_of_dispatchScheduledJobNow run with ⟨was, nulled, dispatches⟩
          refine ⟨_, dispatches, fun id taken => ?_⟩
          rw [List.mem_singleton.mp taken]
          exact .dispatchedNow was nulled
      | retryFailedJob jobId =>
          refine takes_of_rollsBack (RollsBack.atomic _) ?_
          intro job w' run
          rcases good.dispatches_of_retryFailedJob onTime run with ⟨was, dispatches⟩
          refine ⟨_, dispatches, fun id taken => ?_⟩
          rw [List.mem_singleton.mp taken]
          exact .retried rfl rfl was
      | retryFailedJobs jobIds batchSize =>
          refine takes_of_rollsBack (RollsBack.atomic _) ?_
          intro n w' run
          rcases good.dispatches_of_retryFailedJobs onTime run with ⟨rows, asked, dispatches⟩
          refine ⟨_, dispatches, fun id taken => ?_⟩
          rcases List.mem_map.mp taken with ⟨r, mem, rfl⟩
          exact .retried rfl (asked r mem).2 (List.mem_map_of_mem (asked r mem).1)
      | promoteFailedJobRetries batchSize =>
          refine takes_of_rollsBack (RollsBack.promoteFailedJobRetries a.env batchSize) ?_
          intro jobs w' run
          rcases good.dispatches_of_promoteFailedJobRetries onTime run with
            ⟨rows, earliest, dispatches, -⟩
          refine ⟨_, dispatches, fun id taken => ?_⟩
          rcases List.mem_map.mp taken with ⟨r, mem, rfl⟩
          rcases earliest.mem r mem with ⟨there, t, at_, come⟩
          exact .retryPromoted there at_ come
      | discardScheduledJobs jobIds batchSize =>
          refine takes_of_rollsBack (RollsBack.atomic _) ?_
          intro n w' run
          rcases good.dispatches_of_discardStateJobs (m := .scheduled) run with ⟨ids, was, gone⟩
          exact takes_of_removed (m := .scheduled) rfl (fun id mem => (was id mem).symm) gone
      | discardFailedJob jobId =>
          refine takes_of_rollsBack (RollsBack.atomic _) ?_
          intro n w' run
          rcases good.dispatches_of_discardStateJobs (m := .failed) run with ⟨ids, was, gone⟩
          refine takes_of_removed (m := .failed) rfl (fun id mem => ⟨?_, (was id mem).1⟩) gone
          exact List.mem_singleton.mp (List.contains_iff_mem.mp (was id mem).2)
      | discardFailedJobs jobIds batchSize =>
          refine takes_of_rollsBack (RollsBack.atomic _) ?_
          intro n w' run
          rcases good.dispatches_of_discardStateJobs (m := .failed) run with ⟨ids, was, gone⟩
          exact takes_of_removed (m := .failed) rfl (fun id mem => (was id mem).symm) gone
      | clearFailedJobs olderThan taskPath batchSize now =>
          refine takes_of_rollsBack RollsBack.retained ?_
          intro n w' run
          rcases good.dispatches_of_clearFailedJobs run with ⟨ids, was, gone⟩
          exact takes_of_removed (m := .failed) rfl (fun id mem => ⟨trivial, was id mem⟩) gone
      | _ => cases idle

end Calls

/-! ## What becomes of a job -/

namespace Accounts

variable {a : Audit} {hand : List JobId} {owed : Nat} {db : Db} {j : Job}

theorem eq_of_states (good : Accounts a hand owed db) (mem : j ∈ db.jobs) {m m' : StateModel}
    (has : j.id ∈ db.stateJobIds m) (has' : j.id ∈ db.stateJobIds m') : m = m' := by
  have one := good.places j mem
  have pos := List.count_pos_iff.mpr has
  have pos' := List.count_pos_iff.mpr has'
  rw [places_eq] at one
  cases m <;> cases m' <;> first | rfl | omega

/-- An unfinished job has a state row. -/
theorem exists_state (good : Accounts a [] owed db) (mem : j ∈ db.jobs)
    (unfinished : ¬ j.finishedAt.isSome = true) : ∃ m, j.id ∈ db.stateJobIds m := by
  by_contra none
  have zero (m : StateModel) : (db.stateJobIds m).count j.id = 0 :=
    List.count_eq_zero.mpr fun has => none ⟨m, has⟩
  have one := good.places j mem
  rw [places_eq, zero, zero, zero, zero, zero, if_neg unfinished] at one
  simp at one

end Accounts

section Steps

variable {a a' : Audit} {db db' : Db} {T now : Time} {taken : JobId → Prop} {op : JobOperation}

/-- A job that was not taken and has left the scheduled state had left it before. -/
theorem Dispatches.stays (dispatches : Dispatches now taken db db') (good : Accounts a [] 0 db)
    (good' : Accounts a' [] 0 db') {j' : Job} (mem : j' ∈ db'.jobs) (other : ¬ taken j'.id)
    {m : StateModel} (left : m ≠ .scheduled) (has : j'.id ∈ db'.stateJobIds m) :
    ∃ j ∈ db.jobs, j.SameTimes j' ∧ ∃ m', m' ≠ .scheduled ∧ j.id ∈ db.stateJobIds m' := by
  rcases dispatches.jobs j' mem other with ⟨j, there, same⟩
  refine ⟨j, there, same, ?_⟩
  have unfinished : ¬ j.finishedAt.isSome = true := fun done =>
    good'.stateless_of_finished mem (same.finished done) m has
  rcases good.exists_state there unfinished with ⟨m', was⟩
  refine ⟨m', fun waits => left ?_, was⟩
  subst waits
  rcases List.mem_map.mp was with ⟨r, inTable, isJob⟩
  have isJob : r.jobId = j'.id := isJob.trans same.id.symm
  have stays := dispatches.waits r inTable (isJob ▸ other)
  exact good'.eq_of_states mem has (List.mem_map.mpr ⟨r, stays, isJob⟩)

/-- What is on time before an operation is so after it. -/
theorem OnTime.step (onTime : OnTime now db) (dispatches : Dispatches now taken db db')
    (good : Accounts a [] 0 db) (good' : Accounts a' [] 0 db') : OnTime now db' := by
  constructor
  · intro j' mem m left has
    by_cases hit : taken j'.id
    · rcases dispatches.placed j' mem hit with due | waits
      · exact due
      · exact absurd (good'.eq_of_states mem has waits) left
    · rcases dispatches.stays good good' mem hit left has with ⟨j, there, same, m', left', was⟩
      exact same.due (onTime.due j there m' left' was)
  · intro j' mem r' there same
    by_cases hit : taken j'.id
    · exact dispatches.matched j' mem r' there hit same
    · rcases dispatches.jobs j' mem hit with ⟨j, before, times⟩
      have was := dispatches.joins r' there (same ▸ hit)
      rw [times.scheduledAt]
      exact onTime.matched j before r' was (same.trans times.id)

/-- Ready, blocked or claimed. -/
def Db.dispatched (db : Db) (id : JobId) : Prop :=
  ∃ m, (m = .ready ∨ m = .blocked ∨ m = .claimed) ∧ id ∈ db.stateJobIds m

instance (db : Db) (id : JobId) : Decidable (db.dispatched id) :=
  decidable_of_iff (id ∈ db.stateJobIds .ready ∨ id ∈ db.stateJobIds .blocked ∨
    id ∈ db.stateJobIds .claimed) (by simp [Db.dispatched])

/-- A job that is dispatched already is not taken. -/
theorem JobOperation.MayTake.not_dispatched (good : Accounts a [] 0 db) {id : JobId}
    (mayTake : op.MayTake T db db' id) : ¬ db.dispatched id := by
  rintro ⟨m, active, has⟩
  rcases good.job_of_mem_stateJobIds has with ⟨j, mem, rfl⟩
  have waits (was : j.id ∈ db.stateJobIds .scheduled) : False := by
    rw [good.eq_of_states mem has was] at active
    simp at active
  have failed (was : j.id ∈ db.stateJobIds .failed) : False := by
    rw [good.eq_of_states mem has was] at active
    simp at active
  generalize same : j.id = id at mayTake
  cases mayTake with
  | created new => exact new (List.mem_map.mpr ⟨j, mem, same⟩)
  | promoted inTable => exact waits (List.mem_map.mpr ⟨_, inTable, same.symm⟩)
  | dispatchedNow was => exact waits (same ▸ was)
  | retried _ _ was => exact failed (same ▸ was)
  | retryPromoted inTable => exact failed (List.mem_map.mpr ⟨_, inTable, same.symm⟩)
  | @removed _ m' _ discards _ was =>
      cases m' with
      | scheduled => exact waits (same ▸ was)
      | failed => exact failed (same ▸ was)
      | ready | claimed | blocked => cases op <;> cases discards

end Steps

/-! ## Runs -/

/-- A database with the time of the last operation and the time of every job's last dispatch. -/
structure Chronicle where
  db : Db
  now : Time
  dispatchedAt : JobId → Option Time

namespace Chronicle

/-- A call in `env` that reads these clocks and identifiers.  On a clock that never goes back the new
time is the first reading of the call. -/
def step (s : Chronicle) (env : Env) (clock : Nat → Time) (uuids : Nat → JobId)
    (op : JobOperation) : Chronicle :=
  let db := (op.final env ⟨s.db, clock, uuids⟩).db
  { db := db
    now := max s.now (clock 0)
    dispatchedAt := fun id =>
      if db.dispatched id ∧ ¬ s.db.dispatched id then some (max s.now (clock 0))
      else s.dispatchedAt id }

/-- Any number of operations later. -/
inductive Reaches (s : Chronicle) : Chronicle → Prop
  | refl : Reaches s s
  | step {s' : Chronicle} {env : Env} {clock : Nat → Time} {uuids : Nat → JobId}
      {op : JobOperation} (run : Reaches s s') (promised : op.Promised none env s'.db) :
      Reaches s (s'.step env clock uuids op)

/-- What every call leaves. -/
structure Timely (s : Chronicle) : Prop where
  sound : Sound none s.db
  onTime : OnTime s.now s.db
  recorded : ∀ j ∈ s.db.jobs, s.db.dispatched j.id →
    ∃ t, s.dispatchedAt j.id = some t ∧ t ≤ s.now ∧ j.Due t

section Step

variable {s : Chronicle} {env : Env} {clock : Nat → Time} {uuids : Nat → JobId}
  {op : JobOperation}

/-- Whatever an operation takes was due. -/
theorem Timely.takes (timely : s.Timely) (env : Env) (clock : Nat → Time) (uuids : Nat → JobId)
    (op : JobOperation) :
    op.Takes (clock 0) (max s.now (clock 0)) s.db (s.step env clock uuids op).db :=
  op.takes (w := ⟨s.db, clock, uuids⟩) timely.sound (timely.onTime.mono (Int.le_max_left _ _))
    (Int.le_max_right _ _)

/-- One operation keeps the chronicle timely. -/
theorem Timely.step (timely : s.Timely) (promised : op.Promised none env s.db) :
    (s.step env clock uuids op).Timely := by
  have sound := (op.moves (w := ⟨s.db, clock, uuids⟩) timely.sound promised).sound
  rcases timely.takes env clock uuids op with ⟨taken, dispatches, reasons⟩
  rcases timely.sound.audited env with ⟨a, -, good⟩
  rcases sound.audited env with ⟨a', -, good'⟩
  have onTime : OnTime (max s.now (clock 0)) (s.step env clock uuids op).db :=
    (timely.onTime.mono (Int.le_max_left _ _)).step dispatches good good'
  refine ⟨sound, onTime, fun j' mem active => ?_⟩
  by_cases before : s.db.dispatched j'.id
  · have other : ¬ taken j'.id := fun hit => (reasons _ hit).not_dispatched good before
    rcases dispatches.jobs j' mem other with ⟨j, there, same⟩
    rcases timely.recorded j there (same.id ▸ before) with ⟨t, recorded, past, due⟩
    refine ⟨t, ?_, Int.le_trans past (Int.le_max_left _ _), same.due due⟩
    rw [← recorded, same.id]
    exact if_neg fun both => both.2 (same.id ▸ before)
  · refine ⟨_, if_pos ⟨active, before⟩, Int.le_refl _, ?_⟩
    rcases active with ⟨m, which, has⟩
    refine onTime.due j' mem m ?_ has
    rcases which with rfl | rfl | rfl <;> nofun

end Step

/-- Nobody was dispatched before its time, and nobody will be by the next call. -/
structure NeverEarly (s : Chronicle) : Prop where
  /-- A job that is ready, blocked or claimed had no `scheduled_at`, or it was not later than the
  clock, when it was dispatched. -/
  dispatched : ∀ j ∈ s.db.jobs, s.db.dispatched j.id →
    ∃ t, s.dispatchedAt j.id = some t ∧ t ≤ s.now ∧ ∀ u, j.scheduledAt = some u → u ≤ t
  leavesScheduled : ∀ env clock uuids op, ∀ j ∈ s.db.jobs, j.id ∈ s.db.stateJobIds .scheduled →
    ∀ j' ∈ (s.step env clock uuids op).db.jobs, j'.id = j.id →
      j'.id ∉ (s.step env clock uuids op).db.stateJobIds .scheduled →
      (∃ n, op = .promoteScheduledJobs n) ∧ (∃ u, j.scheduledAt = some u ∧ u ≤ clock 0) ∨
        op = .dispatchScheduledJobNow j.id ∧ j'.scheduledAt = none
  leavesFailed : ∀ env clock uuids op, ∀ r ∈ s.db.failed.rows,
    ¬ (s.step env clock uuids op).db.keepsFailure r →
      (op.retries = true ∨ op.discards .failed = true) ∧ op.AsksFor r.jobId ∨
        (∃ n, op = .promoteFailedJobRetries n) ∧ ∃ t, r.retryAt = some t ∧ t ≤ clock 0
  /-- Of the failures whose time has come a batch leaves, the earliest first. -/
  earliest : ∀ env clock uuids n, ∃ rows, EarliestRetries env s.db (clock 0) n.toNat rows ∧
    ∀ r ∈ s.db.failed.rows,
      ¬ (s.step env clock uuids (.promoteFailedJobRetries n)).db.keepsFailure r ↔ r ∈ rows

/-- A scheduled row leaves when its time has come, or its job is dispatched by hand. -/
theorem Timely.leavesScheduled {s : Chronicle} (timely : s.Timely) {env : Env} {clock : Nat → Time}
    {uuids : Nat → JobId} {op : JobOperation} {j j' : Job} (mem : j ∈ s.db.jobs)
    (waits : j.id ∈ s.db.stateJobIds .scheduled)
    (mem' : j' ∈ (s.step env clock uuids op).db.jobs) (same : j'.id = j.id)
    (left : j'.id ∉ (s.step env clock uuids op).db.stateJobIds .scheduled) :
    (∃ n, op = .promoteScheduledJobs n) ∧ (∃ u, j.scheduledAt = some u ∧ u ≤ clock 0) ∨
      op = .dispatchScheduledJobNow j.id ∧ j'.scheduledAt = none := by
  rcases timely.takes env clock uuids op with ⟨taken, dispatches, reasons⟩
  rcases timely.sound.audited env with ⟨a, -, good⟩
  have taken' : taken j.id := by
    by_contra other
    rcases List.mem_map.mp waits with ⟨r, inTable, isJob⟩
    have isJob : r.jobId = j.id := isJob
    have stays := dispatches.waits r inTable (isJob ▸ other)
    exact left (List.mem_map.mpr ⟨r, stays, isJob.trans same.symm⟩)
  have notFailed (was : j.id ∈ s.db.stateJobIds .failed) : False := by
    cases good.eq_of_states mem waits was
  have mayTake := reasons _ taken'
  generalize isJob : j.id = id at mayTake
  cases mayTake with
  | created new => exact absurd (List.mem_map.mpr ⟨j, mem, isJob⟩) new
  | @promoted n r inTable come =>
      exact .inl ⟨⟨n, rfl⟩, _, timely.onTime.matched j mem r inTable isJob.symm, come⟩
  | dispatchedNow was nulled => exact .inr ⟨rfl, nulled j' mem' (same.trans isJob)⟩
  | retried _ _ was => exact (notFailed (isJob ▸ was)).elim
  | retryPromoted inTable =>
      exact (notFailed (List.mem_map.mpr ⟨_, inTable, isJob.symm⟩)).elim
  | removed _ _ _ gone => exact absurd (same.trans isJob) (gone j' mem')

theorem Timely.leavesFailed {s : Chronicle} (timely : s.Timely) {env : Env} {clock : Nat → Time}
    {uuids : Nat → JobId} {op : JobOperation} {r : FailedExecution} (mem : r ∈ s.db.failed.rows)
    (left : ¬ (s.step env clock uuids op).db.keepsFailure r) :
    (op.retries = true ∨ op.discards .failed = true) ∧ op.AsksFor r.jobId ∨
      (∃ n, op = .promoteFailedJobRetries n) ∧ ∃ t, r.retryAt = some t ∧ t ≤ clock 0 := by
  rcases timely.takes env clock uuids op with ⟨taken, dispatches, reasons⟩
  rcases timely.sound.audited env with ⟨a, -, good⟩
  have taken' : taken r.jobId := by
    by_contra other
    exact left (dispatches.failed r mem other)
  have has : r.jobId ∈ s.db.stateJobIds .failed := List.mem_map_of_mem mem
  rcases good.job_of_mem_stateJobIds has with ⟨j, there, isJob⟩
  have notScheduled (was : r.jobId ∈ s.db.stateJobIds .scheduled) : False := by
    cases good.eq_of_states there (isJob ▸ has) (isJob ▸ was)
  have mayTake := reasons _ taken'
  generalize same : r.jobId = id at mayTake
  cases mayTake with
  | created new => exact absurd (List.mem_map.mpr ⟨j, there, isJob.trans same⟩) new
  | promoted inTable => exact (notScheduled (List.mem_map.mpr ⟨_, inTable, same.symm⟩)).elim
  | dispatchedNow was => exact (notScheduled (same ▸ was)).elim
  | retried retries asked was => exact .inl ⟨.inl retries, same ▸ asked⟩
  | @retryPromoted n r' t inTable at_ come =>
      have row : r = r' := List.inj_on_of_nodup_map (good.stateJobIds_nodup .failed) mem inTable same
      rw [row]
      exact .inr ⟨⟨n, rfl⟩, t, at_, come⟩
  | @removed _ m _ discards asked was =>
      have failed : m = .failed :=
        good.eq_of_states there (isJob.trans same ▸ was) (isJob ▸ has)
      exact .inl ⟨.inr (failed ▸ discards), same ▸ asked⟩

/-- The promotion of retries takes the earliest. -/
theorem Timely.earliest {s : Chronicle} (timely : s.Timely) (env : Env) (clock : Nat → Time)
    (uuids : Nat → JobId) (n : Int) :
    ∃ rows, EarliestRetries env s.db (clock 0) n.toNat rows ∧ ∀ r ∈ s.db.failed.rows,
      ¬ (s.step env clock uuids (.promoteFailedJobRetries n)).db.keepsFailure r ↔ r ∈ rows := by
  rcases timely.sound.audited env with ⟨a, rfl, good⟩
  rcases runs_or_raises (promoteFailedJobRetries a.env n) ⟨s.db, clock, uuids⟩ with
    ⟨jobs, run, -⟩ | ⟨e, raised, -⟩
  · rcases good.dispatches_of_promoteFailedJobRetries (w := ⟨s.db, clock, uuids⟩) timely.onTime run
      with ⟨rows, earliest, -, leave⟩
    exact ⟨rows, earliest, leave⟩
  · have same := RollsBack.promoteFailedJobRetries a.env n _ _ _ raised
    refine ⟨[], ⟨fun _ mem => absurd mem List.not_mem_nil, Nat.zero_le _,
      fun _ mem => absurd mem List.not_mem_nil⟩, fun r mem => ⟨fun left => ?_, nofun⟩⟩
    refine absurd ?_ left
    have kept : (s.step a.env clock uuids (.promoteFailedJobRetries n)).db = s.db := same
    rw [kept]
    exact (Calm.refl s.db).failed r mem

/-- Whatever calls are made, and in whatever order, from an empty queue on. -/
theorem never_early {start s : Chronicle} (sound : Sound none start.db)
    (empty : start.db.jobs = []) (run : start.Reaches s) : s.NeverEarly := by
  have timely : s.Timely := by
    induction run with
    | refl =>
        refine ⟨sound, ⟨fun j mem => ?_, fun j mem => ?_⟩, fun j mem => ?_⟩ <;>
          exact absurd (empty ▸ mem) List.not_mem_nil
    | step _ promised ih => exact ih.step promised
  exact ⟨timely.recorded, fun env clock uuids op j mem waits j' mem' same left =>
    timely.leavesScheduled mem waits mem' same left,
    fun env clock uuids op r mem left => timely.leavesFailed mem left,
    fun env clock uuids n => timely.earliest env clock uuids n⟩

/-! A job is asked for at noon, an hour ahead, and promoted when the hour has come. -/

/-- The task waits until `runAfter`. -/
def laterCall (runAfter : Time) : TaskCall where
  task := ⟨"app.tasks.sync", "default", 0, some runAfter, none, none, none⟩
  payload := some emptyPayload
  key := .unset

/-- A job for an hour later. -/
def asked : Chronicle :=
  step ⟨Db.empty, 0, fun _ => none⟩ (sqliteEnv "default") (fun _ => 100) (fun _ => 0)
    (.enqueueJobWithDispatch (laterCall 3600) true 1)

/-- The promotion an hour later. -/
def promoted : Chronicle :=
  asked.step (sqliteEnv "default") (fun _ => 3600) (fun _ => 0) (.promoteScheduledJobs 10)

/-- The job is promoted when its hour has come. -/
theorem promoted_never_early : 1 ∈ asked.db.stateJobIds .scheduled ∧ promoted.db.dispatched 1 ∧
    promoted.dispatchedAt 1 = some 3600 ∧ promoted.NeverEarly :=
  ⟨by decide +kernel, by decide +kernel, by decide +kernel,
    never_early (sound_empty (by rintro t ⟨⟩)) rfl
      (.step (.step .refl (by rintro job - t ⟨⟩)) trivial)⟩

end Chronicle

end DjQueue
