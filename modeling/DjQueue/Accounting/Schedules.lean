import DjQueue.Recurring.Sessions
import DjQueue.Accounting.Audits

/-!
# Pauses and recurring tasks

The operations that write the tables no job moves through: pauses, recurring tasks and
their executions.  Publishing a run enqueues a job besides.  A poll is many transactions,
and a raise in one of them leaves the earlier ones committed, so these results are about
the state a session ends in, however it ends.
-/

namespace DjQueue

open Relational

/-! ## One backend's part of a table -/

/-- The rows of the other backends are the same. -/
def SameElsewhere {ρ : Type} (own : ρ → String) (A : String) (t t' : Table ρ) : Prop :=
  ∀ B, B ≠ A → t'.rows.filter (fun r => own r == B) = t.rows.filter (fun r => own r == B)

namespace SameElsewhere

variable {ρ : Type} {own : ρ → String} {A : String} {t t' t'' : Table ρ}

theorem refl : SameElsewhere own A t t := fun _ _ => rfl

theorem trans (first : SameElsewhere own A t t') (second : SameElsewhere own A t' t'') :
    SameElsewhere own A t t'' :=
  fun B ne => (second B ne).trans (first B ne)

/-- A row of one backend is not counted for another. -/
theorem other {B : String} (ne : B ≠ A) {r : ρ} (here : own r = A) : (own r == B) = false := by
  rw [here, beq_eq_false_iff_ne]
  exact ne.symm

theorem insert {mk : Nat → ρ} (here : own (mk t.nextId) = A) :
    SameElsewhere own A t (t.insert mk) :=
  fun _ ne => t.filter_insert (other ne here)

theorem deleteWhere {p : ρ → Bool} (here : ∀ r ∈ t.rows, p r = true → own r = A) :
    SameElsewhere own A t (t.deleteWhere p) :=
  fun _ ne => t.filter_deleteWhere fun r mem hit => other ne (here r mem hit)

/-- Rows of this backend change, and stay its own. -/
theorem updateWhere {p : ρ → Bool} {f : ρ → ρ} (here : ∀ r ∈ t.rows, p r = true → own r = A)
    (kept : ∀ r, own (f r) = own r) : SameElsewhere own A t (t.updateWhere p f) :=
  fun _ ne => t.filter_updateWhere fun r mem hit =>
    ⟨other ne (here r mem hit), other ne ((kept r).trans (here r mem hit))⟩

end SameElsewhere

/-! ## The tables no job moves through -/

section Others

variable {tracked : Option (String × Int)} {A : String} {db : Db}

/-- Pauses, recurring tasks and executions are replaced. -/
theorem Sound.keeps_others (sound : Sound tracked db) {p : Table Pause} {t : Table RecurringTask}
    {e : Table RecurringExecution} (numbered : Numbered Pause.id p)
    (links : ∀ x ∈ e.rows, ∀ id, x.jobId = some id →
      ∃ j ∈ db.jobs, j.id = id ∧ j.backendAlias = x.backendAlias)
    (pauses : SameElsewhere Pause.backendAlias A db.pauses p)
    (tasks : SameElsewhere RecurringTask.backendAlias A db.recurringTasks t)
    (executions : SameElsewhere RecurringExecution.backendAlias A db.recurringExecutions e) :
    Keeps tracked A db
      { db with pauses := p, recurringTasks := t, recurringExecutions := e } := by
  obtain ⟨⟨a, rfl, good⟩, -⟩ := sound
  constructor
  · refine ⟨⟨{ a with start := { db with
      pauses := p, recurringTasks := t, recurringExecutions := e } }, rfl, ?_⟩, numbered⟩
    obtain ⟨processIds, processBound, supervisors, -⟩ := good.registry
    exact {
      jobIds := good.jobIds
      knows := fun j mem =>
        ⟨(good.knows j mem).identity, (good.knows j mem).key, (good.knows j mem).limit⟩
      rowIds := good.rowIds
      rowBound := good.rowBound
      rowFits := fun m r mem =>
        ⟨(good.rowFits m r mem).job, (good.rowFits m r mem).columns,
          (good.rowFits m r mem).process⟩
      places := good.places
      semaphores := good.semaphores
      slots := good.slots
      registry := ⟨processIds, processBound, supervisors, links⟩
      untouched := Audit.Untouched.refl _ }
  · intro B ne
    unfold Db.view
    rw [View.mk.injEq]
    exact ⟨rfl, rfl, rfl, pauses B ne, tasks B ne, executions B ne⟩

/-- A linked execution row points to a job of its own backend. -/
theorem Sound.links (sound : Sound tracked db) :
    ∀ x ∈ db.recurringExecutions.rows, ∀ id, x.jobId = some id →
      ∃ j ∈ db.jobs, j.id = id ∧ j.backendAlias = x.backendAlias := by
  obtain ⟨⟨a, rfl, good⟩, -⟩ := sound
  exact good.registry.links

/-- The pauses of this backend may change: no job is at stake. -/
theorem Sound.keeps_pauses (sound : Sound tracked db) {p : Table Pause}
    (numbered : Numbered Pause.id p) (pauses : SameElsewhere Pause.backendAlias A db.pauses p) :
    Keeps tracked A db { db with pauses := p } :=
  sound.keeps_others numbered sound.links pauses .refl .refl

/-- The tasks of this backend may change. -/
theorem Sound.keeps_tasks (sound : Sound tracked db) {t : Table RecurringTask}
    (tasks : SameElsewhere RecurringTask.backendAlias A db.recurringTasks t) :
    Keeps tracked A db { db with recurringTasks := t } :=
  sound.keeps_others sound.pauses sound.links .refl tasks .refl

end Others

/-! ## Pauses -/

section Pauses

variable {tracked : Option (String × Int)} {env : Env}

/-- A pause belongs to the backend that sets it. -/
theorem Preserves.createPause (queueName : String) :
    Preserves tracked env.config.backendAlias (createPause env queueName) := by
  refine of_rollsBack (RollsBack.atomic _) fun w u w' sound run => ?_
  obtain ⟨now, w₁, read, rest₁⟩ := Runs.of_bind (Runs.of_atomic run)
  obtain ⟨db, w₂, got, rest₂⟩ := Runs.of_bind rest₁
  obtain ⟨rfl, rfl⟩ := of_run_getDb got
  rw [← of_run_timezoneNow read] at sound ⊢
  rcases Runs.of_runIf rest₂ with ⟨-, written⟩ | ⟨-, rfl⟩
  · rw [of_run_modifyDb written]
    obtain ⟨ids, bound⟩ := sound.pauses
    refine sound.keeps_pauses ⟨?_, fun p mem => ?_⟩ (SameElsewhere.insert rfl)
    · rw [Table.rows_insert, List.map_append, List.nodup_append]
      refine ⟨ids, List.nodup_singleton _, fun x old y new => ?_⟩
      obtain ⟨p, mem, rfl⟩ := List.mem_map.mp old
      rw [List.mem_singleton.mp new]
      exact Nat.ne_of_lt (bound p mem)
    · rw [Table.nextId_insert]
      rcases List.mem_append.mp mem with old | new
      · exact Nat.lt_succ_of_lt (bound p old)
      · rw [List.mem_singleton.mp new]
        exact Nat.lt_succ_self _
  · exact Keeps.refl sound

theorem Preserves.lockReadyRows (queueName : String) :
    Preserves tracked env.config.backendAlias (lockReadyRows env queueName) := by
  refine of_rollsBack (RollsBack.atomic _) fun w ids w' sound run => ?_
  unfold DjQueue.lockReadyRows at run
  have body := Runs.of_atomic run
  obtain ⟨db, w₁, got, done⟩ := Runs.of_bind body
  obtain ⟨-, rfl⟩ := of_run_getDb got
  obtain ⟨-, rfl⟩ := Runs.of_pure done
  exact Keeps.refl sound

theorem Preserves.pauseQueue (queueName : String) :
    Preserves tracked env.config.backendAlias (pauseQueue env queueName) :=
  bind (createPause queueName) fun _ _ _ _ => bind (lockReadyRows queueName) fun _ _ _ _ =>
    of_reads (Reads.pure _)

/-- Resuming deletes the pause and writes to ready rows of its queue. -/
theorem Preserves.resumeQueue (queueName : String) (resumedAt : Option Time) :
    Preserves tracked env.config.backendAlias (resumeQueue env queueName resumedAt) := by
  refine of_rollsBack (RollsBack.atomic _) fun w u w' sound run => ?_
  obtain ⟨db, w₁, got, rest₁⟩ := Runs.of_bind (Runs.of_atomic run)
  obtain ⟨rfl, rfl⟩ := of_run_getDb got
  obtain ⟨now, w₂, read, rest₂⟩ := Runs.of_bind rest₁
  split at rest₂
  · obtain ⟨-, rfl⟩ := Runs.of_pure rest₂
    rw [of_run_timezoneNow read]
    exact Keeps.refl sound
  · rename_i pause found
    obtain ⟨v, w₃, written, done⟩ := Runs.of_bind rest₂
    obtain ⟨-, rfl⟩ := Runs.of_pure done
    rw [of_run_modifyDb written, of_run_timezoneNow read]
    have hit := List.find?_some found
    simp only [Bool.and_eq_true, beq_iff_eq] at hit
    -- the ready rows of the queue first, then the pause
    obtain ⟨a, opened⟩ := sound.opened env [] List.nodup_nil
      (fun _ mem => absurd mem List.not_mem_nil) []
    have stamped := opened.accounts.updateRows (m := .ready)
      (p := fun r => r.backendAlias == env.config.backendAlias && r.queueName == queueName)
      (f := fun r => { r with
        latencyStartedAt := some (resumedLatency pause.createdAt (resumedAt.getD now) r) })
      (fun _ => rfl) (fun _ => rfl)
      (fun r mem _ => by
        obtain ⟨job, ⟨i, known, same⟩, -⟩ := opened.accounts.rowFits .ready r mem
        exact ⟨job, ⟨i, known, ⟨same.backend, same.queue, same.key⟩⟩, by rintro id ⟨⟩⟩)
      (fun r mem own => by
        obtain ⟨j, there, same, -, known, columns⟩ := opened.accounts.known_of_row (m := .ready) mem
        rw [Bool.and_eq_true, beq_iff_eq] at own
        rw [← same, opened.accounts.owns_iff there, Audit.backendAlias, opened.env, ← own.1]
        exact (columns.backend _ rfl).symm)
    have resumed := (opened.moves stamped).toKeeps
    refine resumed.trans (resumed.sound.keeps_pauses
      (p := w₁.db.pauses.deleteWhere (fun p => p.id == pause.id)) ⟨?_, ?_⟩ ?_)
    · exact sound.pauses.ids.sublist (List.filter_sublist.map _)
    · exact fun p mem => sound.pauses.bound p (List.mem_of_mem_filter mem)
    · refine SameElsewhere.deleteWhere fun p mem same => ?_
      rw [List.inj_on_of_nodup_map sound.pauses.ids mem (List.mem_of_find?_eq_some found)
        (beq_iff_eq.mp same)]
      exact hit.1

end Pauses

/-! ## Recurring tasks -/

/-- Only recurring tasks of the backend have changed. -/
def TasksOnly (A : String) (db db' : Db) : Prop :=
  ∃ t, db' = { db with recurringTasks := t } ∧
    SameElsewhere RecurringTask.backendAlias A db.recurringTasks t

section Tasks

variable {tracked : Option (String × Int)} {env : Env} {A : String}

theorem TasksOnly.refl (db : Db) : TasksOnly A db db := ⟨db.recurringTasks, rfl, .refl⟩

theorem TasksOnly.trans {db db' db'' : Db} (first : TasksOnly A db db')
    (second : TasksOnly A db' db'') : TasksOnly A db db'' := by
  obtain ⟨t, rfl, same⟩ := first
  obtain ⟨t', rfl, same'⟩ := second
  exact ⟨t', rfl, same.trans same'⟩

/-- Changing tasks of one backend keeps everything of the others. -/
theorem TasksOnly.keeps {db db' : Db} (only : TasksOnly A db db') (sound : Sound tracked db) :
    Keeps tracked A db db' := by
  obtain ⟨t, rfl, same⟩ := only
  exact sound.keeps_tasks same

/-- The session changes only recurring tasks of the backend. -/
def KeepsToTasks {α : Type} (A : String) (x : Op α) : Prop :=
  Relates (fun w w' => TasksOnly A w.db w'.db) x

namespace KeepsToTasks

variable {α β : Type}

theorem of_reads {x : Op α} (reads : Reads x) : KeepsToTasks A x := by
  intro w a w' run
  rw [reads.returns _ _ _ run]
  exact TasksOnly.refl _

theorem bind {x : Op α} {f : α → Op β} (first : KeepsToTasks A x)
    (second : ∀ a, KeepsToTasks A (f a)) : KeepsToTasks A (x >>= f) :=
  Relates.bind (R := fun (w w' : World) => TasksOnly A w.db w'.db) (fun _ _ _ => TasksOnly.trans)
    first second

theorem forM {f : α → Op Unit} (body : ∀ a, KeepsToTasks A (f a)) (l : List α) :
    KeepsToTasks A (l.forM f) :=
  Relates.forM (R := fun (w w' : World) => TasksOnly A w.db w'.db)
    (fun w => TasksOnly.refl w.db) (fun _ _ _ => TasksOnly.trans) body l

/-- A step that is skipped under a condition. -/
theorem runIf {c : Bool} {x : Op Unit} (body : KeepsToTasks A x) : KeepsToTasks A (runIf c x) :=
  Relates.runIf (fun w => TasksOnly.refl w.db) c body

/-- A write to the tasks that keeps to one backend. -/
theorem modifyTasks {f : Table RecurringTask → Table RecurringTask}
    (same : ∀ t, SameElsewhere RecurringTask.backendAlias A t (f t)) :
    KeepsToTasks A (modifyDb (fun db => { db with recurringTasks := f db.recurringTasks })) := by
  intro w u w' run
  rw [of_run_modifyDb run]
  exact ⟨_, rfl, same _⟩

/-- A task that is created belongs to the backend. -/
theorem insertRecurringTask {mk : Nat → RecurringTask} (own : ∀ n, (mk n).backendAlias = A) :
    KeepsToTasks A (insertRecurringTask mk) :=
  modifyTasks (f := fun t => t.insert mk) fun _ => .insert (own _)

/-- A statement that filters by backend and key hits rows of the backend. -/
theorem own_of_hit {r : RecurringTask} {key : String}
    (hit : (r.backendAlias == A && r.key == key) = true) : r.backendAlias = A := by
  rw [Bool.and_eq_true, beq_iff_eq] at hit
  exact hit.1

/-- A definition that is written to a row of the same backend and key. -/
theorem redefineRecurringTask (key : String) (desired : RecurringDefinition) :
    KeepsToTasks A (redefineRecurringTask A key desired) := by
  refine bind (of_reads Reads.timezoneNow) fun now => ?_
  refine modifyTasks (f := fun t => t.updateWhere (fun t => t.backendAlias == A && t.key == key)
    (fun t => t.redefine (t.keeping desired) now)) fun t =>
      .updateWhere (fun r _ hit => own_of_hit hit) (fun r => ?_)
  unfold RecurringTask.redefine
  split <;> rfl

/-- The check against a dynamic task reads. -/
theorem ensureNotDynamic (c : RecurringTaskConfig) : KeepsToTasks A (ensureNotDynamic env c) :=
  bind (of_reads Reads.getDb) fun _ => runIf (of_reads (Reads.throw _))

theorem createStaticRecurringTask (c : RecurringTaskConfig) :
    KeepsToTasks env.config.backendAlias (createStaticRecurringTask env c) := by
  refine bind (of_reads Reads.timezoneNow) fun now => bind (of_reads Reads.getDb) fun db => ?_
  split
  · exact bind (of_reads (Reads.ofExcept _)) fun _ => insertRecurringTask fun _ => rfl
  · exact of_reads (Reads.pure _)

theorem updateStaticRecurringTask (c : RecurringTaskConfig) :
    KeepsToTasks env.config.backendAlias (updateStaticRecurringTask env c) := by
  refine bind (of_reads Reads.timezoneNow) fun now => bind (of_reads Reads.getDb) fun db => ?_
  split
  · exact of_reads (Reads.pure _)
  · split
    · exact of_reads (Reads.pure _)
    · refine bind (of_reads (Reads.ofExcept _)) fun payload => ?_
      exact modifyTasks (f := fun t => t.updateWhere
        (fun t => t.backendAlias == env.config.backendAlias && t.key == c.key)
        (fun t => t.overwrite (c.desired payload) now)) fun t =>
          .updateWhere (fun r _ hit => own_of_hit hit) (fun r => rfl)

theorem applyStaticRecurringTasks (configs : List RecurringTaskConfig) :
    KeepsToTasks env.config.backendAlias (applyStaticRecurringTasks env configs) := by
  refine bind (forM ensureNotDynamic _) fun _ => bind (forM createStaticRecurringTask _) fun _ =>
    bind (forM updateStaticRecurringTask _) fun _ => ?_
  refine modifyTasks (f := fun t => t.deleteWhere _) fun t => .deleteWhere fun r _ hit => ?_
  simp only [Bool.and_eq_true, beq_iff_eq] at hit
  exact hit.1.1

theorem getOrCreateRecurringTask (key : String) (desired : RecurringDefinition) :
    KeepsToTasks env.config.backendAlias (getOrCreateRecurringTask env key desired) := by
  refine bind (of_reads Reads.timezoneNow) fun now => bind (of_reads Reads.getDb) fun db => ?_
  split
  · exact insertRecurringTask fun _ => rfl
  · split
    · exact of_reads (Reads.throw _)
    · exact redefineRecurringTask _ _

end KeepsToTasks

/-- However the session ends, only recurring tasks of the backend have changed. -/
def EditsTasks {α : Type} (A : String) (x : Op α) : Prop :=
  Leads (fun _ => True) (fun w w' => TasksOnly A w.db w'.db) x

namespace EditsTasks

variable {α β : Type}

/-- What rolls back when it raises needs a look at its returns only. -/
theorem of_rollsBack {x : Op α} (rolls : RollsBack x) (tasks : KeepsToTasks A x) :
    EditsTasks A x := by
  refine Leads.of_returns (fun w e w' _ raised => ?_) (fun w a w' _ run => tasks _ _ _ run)
  rw [rolls _ _ _ raised]
  exact TasksOnly.refl _

theorem of_reads {x : Op α} (reads : Reads x) : EditsTasks A x :=
  of_rollsBack reads.raises (KeepsToTasks.of_reads reads)

theorem of_atomic {x : Op α} (tasks : KeepsToTasks A x) : EditsTasks A (transactionAtomic x) :=
  of_rollsBack (RollsBack.atomic _) fun _ _ _ run => tasks _ _ _ (Runs.of_atomic run)

theorem bind {x : Op α} {f : α → Op β} (first : EditsTasks A x)
    (second : ∀ a, EditsTasks A (f a)) : EditsTasks A (x >>= f) :=
  Leads.bind (P := fun (_ : World) => True) (R := fun (w w' : World) => TasksOnly A w.db w'.db)
    (fun _ _ _ => trivial) (fun _ _ _ => TasksOnly.trans) first
    fun _ a w' _ _ => second a w' trivial

/-- The static tasks of one backend are reconciled. -/
theorem upsertStaticRecurringTasks (configs : List RecurringTaskConfig) :
    EditsTasks env.config.backendAlias (upsertStaticRecurringTasks env configs) :=
  bind (of_reads (Reads.ofExcept _)) fun _ =>
    of_atomic (KeepsToTasks.applyStaticRecurringTasks configs)

theorem scheduleRecurringTask (key taskPath schedule : String) (payload : Option Payload)
    (queueName : String) (priority : Int) (description : String) :
    EditsTasks env.config.backendAlias (scheduleRecurringTask env key taskPath schedule payload
      queueName priority description) :=
  bind (of_reads (Reads.ofExcept _)) fun _ => bind (of_reads (Reads.ofExcept _)) fun _ =>
    bind (of_reads (Reads.ofExcept _)) fun _ => bind (of_reads (Reads.ofExcept _)) fun _ =>
      of_atomic (KeepsToTasks.getOrCreateRecurringTask _ _)

theorem unscheduleRecurringTask (key : String) :
    EditsTasks env.config.backendAlias (unscheduleRecurringTask env key) := by
  refine bind (of_reads Reads.getDb) fun _ => bind (of_rollsBack ?_ ?_) fun _ =>
    of_reads (Reads.pure _)
  · intro w e w' raised
    cases raised
  · refine KeepsToTasks.modifyTasks (f := fun t => t.deleteWhere _) fun t =>
      .deleteWhere fun r _ hit => ?_
    simp only [Bool.and_eq_true, beq_iff_eq] at hit
    exact hit.1.1

end EditsTasks

/-- Jobs and slots are not touched by a change of tasks. -/
theorem Preserves.of_edits {α : Type} {x : Op α} (edits : EditsTasks A x) :
    Preserves tracked A x :=
  fun w sound => (edits w trivial).keeps sound

end Tasks

/-! ## Firing -/

/-- Every job a recurring task of this process can have created resolves as the jobs do. -/
def RecurringResolves (tracked : Option (String × Int)) (env : Env) : Prop :=
  ∀ r call job, reservedCall env r = .ok call →
    prepareSubmission env.config call true r.intendedJobId = .ok job → Resolves tracked job

section Firing

variable {tracked : Option (String × Int)} {env : Env} {db db' : Db}

theorem Sound.keeps_advance (sound : Sound tracked db) {task : RecurringTask} {next : Time}
    (own : task.backendAlias = env.config.backendAlias) :
    Keeps tracked env.config.backendAlias db (db.advance task next) := by
  refine sound.keeps_tasks (.updateWhere (fun t _ hit => ?_) (fun _ => rfl))
  simp only [Bool.and_eq_true, beq_iff_eq] at hit
  exact hit.1.2.trans own

/-- An execution row that is reserved has no job yet. -/
theorem Sound.keeps_reserveExecution (sound : Sound tracked db) (key : String) (runAt : Time)
    (intended : JobId) :
    Keeps tracked env.config.backendAlias db
      (db.reserveExecution env.config.backendAlias key runAt intended) := by
  refine sound.keeps_others sound.pauses (fun x mem id linked => ?_) .refl .refl (.insert rfl)
  rcases List.mem_append.mp mem with old | new
  · exact sound.links x old id linked
  · rw [List.mem_singleton.mp new] at linked
    cases linked

/-- A reservation moves the cursor and may add a row. -/
theorem Reserves.keeps {task : RecurringTask} {runAt next : Time} {intended : JobId}
    {x : Option Reservation} (reserves : Reserves env db task runAt next intended x db')
    (own : task.backendAlias = env.config.backendAlias) (sound : Sound tracked db) :
    Keeps tracked env.config.backendAlias db db' := by
  cases reserves with
  | passed => exact Keeps.refl sound
  | reserved _ gets =>
      cases gets with
      | found => exact sound.keeps_advance own
      | created =>
          have kept : Keeps tracked env.config.backendAlias db _ :=
            sound.keeps_reserveExecution task.key runAt intended
          exact kept.trans (kept.sound.keeps_advance own)

/-- A reservation carries the backend of its task. -/
theorem Reserves.backend {task : RecurringTask} {runAt next : Time} {intended : JobId}
    {x : Option Reservation} (reserves : Reserves env db task runAt next intended x db')
    {r : Reservation} (some : x = some r) : r.backendAlias = task.backendAlias := by
  have made : ∀ {e : RecurringExecution}, recurringReservation e task next = .some r →
      r.backendAlias = task.backendAlias := by
    intro e made
    unfold recurringReservation at made
    split at made
    · cases made
    · obtain ⟨intended, -, rfl⟩ := Option.map_eq_some_iff.mp made
      rfl
  cases reserves with
  | passed =>
      obtain ⟨e, -, same⟩ := Option.bind_eq_some_iff.mp some
      exact made same
  | reserved => exact made some

/-- A reservation, or an exception that takes it back. -/
theorem Preserves.reserveRecurringTask (taskId : Nat) (runAt : Time) :
    Preserves tracked env.config.backendAlias (reserveRecurringTask env taskId runAt) := by
  refine of_rollsBack (RollsBack.atomic _) fun w x w' sound run => ?_
  rcases of_run_reserveRecurringTask run with
    ⟨-, same, -⟩ | ⟨task, next, -, -, own, -, -, reserves⟩
  · rw [same]
    exact Keeps.refl sound
  · exact reserves.keeps own sound

/-- The job of a reservation is enqueued like any other, under the key intended for it. -/
theorem Enqueues.keeps {r : Reservation} {job : Job} (enqueues : Enqueues env db r job db')
    (sound : Sound tracked db) (resolves : RecurringResolves tracked env)
    (own : r.backendAlias = env.config.backendAlias) :
    Keeps tracked env.config.backendAlias db db' ∧
      ∃ j ∈ db'.jobs, j.id = job.id ∧ j.backendAlias = env.config.backendAlias := by
  cases enqueues with
  | found here backend =>
      exact ⟨Keeps.refl sound, job, (mem_of_findJob here).1, rfl, backend.trans own⟩
  | @created w w' call outcome start _ called run =>
      subst start
      refine ⟨(sound.enqueueJobWithDispatch (fun job => resolves r call job called) run).toKeeps, ?_⟩
      obtain ⟨prepared, frame⟩ := frame_of_enqueueJobWithDispatch run
      have there : job.core ∈ w'.db.jobs.map Job.core := by
        rw [frame.cores]
        exact List.mem_map_of_mem (List.mem_append_right _ (List.mem_singleton_self _))
      obtain ⟨j, mem, same⟩ := List.mem_map.mp there
      have id : j.core.id = job.core.id := congrArg _ same
      have backend : j.core.backendAlias = job.core.backendAlias := congrArg _ same
      exact ⟨j, mem, id, backend.trans (submitted_of_prepareSubmission prepared).own⟩

/-- A publication attaches a job of the same backend, or enqueues one. -/
theorem Publishes.keeps {r : Reservation} (publishes : Publishes env db r db')
    (sound : Sound tracked db) (resolves : RecurringResolves tracked env)
    (own : r.backendAlias = env.config.backendAlias) :
    Keeps tracked env.config.backendAlias db db' := by
  cases publishes with
  | idle => exact Keeps.refl sound
  | attachedOther _ _ _ _ _ enqueues => exact (enqueues.keeps sound resolves own).1
  | @attached job db₁ e _ _ enqueues _ _ =>
      obtain ⟨kept, j, there, same, backend⟩ := enqueues.keeps sound resolves own
      refine kept.trans (kept.sound.keeps_others kept.sound.pauses ?_ .refl .refl
        (.updateWhere (fun x _ hit => ?_) (fun _ => rfl)))
      · intro x mem id linked
        obtain ⟨old, inTable, rfl⟩ := List.mem_map.mp mem
        by_cases hit : attachable env r job old = true
        · rw [if_pos hit] at linked ⊢
          simp only [attachable, Bool.and_eq_true, beq_iff_eq] at hit
          exact ⟨j, there, same.trans (Option.some.inj linked), backend.trans hit.1.1.2.symm⟩
        · rw [if_neg hit] at linked ⊢
          exact kept.sound.links old inTable id linked
      · simp only [attachable, Bool.and_eq_true, beq_iff_eq] at hit
        exact hit.1.1.2

/-- A publication, or an exception that takes it back. -/
theorem Preserves.publishReservedRecurringTask {r : Reservation}
    (resolves : RecurringResolves tracked env) (own : r.backendAlias = env.config.backendAlias) :
    Preserves tracked env.config.backendAlias (publishReservedRecurringTask env r) :=
  of_rollsBack (RollsBack.atomic _) fun _ _ _ sound run =>
    (of_run_publishReservedRecurringTask run).keeps sound resolves own

/-- A firing is a reservation and a publication, in transactions of their own. -/
theorem Preserves.fireRecurringTask (resolves : RecurringResolves tracked env) (taskId : Nat)
    (runAt : Time) :
    Preserves tracked env.config.backendAlias (fireRecurringTask env taskId runAt) := by
  refine bind (reserveRecurringTask taskId runAt) fun w x w' run => ?_
  cases x with
  | none => exact of_reads (Reads.pure _)
  | some r =>
      refine publishReservedRecurringTask resolves ?_
      rcases of_run_reserveRecurringTask run with
        ⟨none, -, -⟩ | ⟨task, next, -, -, own, -, -, reserves⟩
      · cases none
      · exact (reserves.backend rfl).trans own

end Firing

/-! ## Polling -/

theorem Reads.sliceToBatch {α : Type} (batchSize : Option Int) (rows : List α) :
    Reads (sliceToBatch batchSize rows) := by
  cases batchSize with
  | none => exact Reads.pure _
  | some n => exact Reads.sliceTo n rows

/-- Firings of these tasks lead from tables with `P` to related ones with `P`. -/
structure FiringsLead (env : Env) (ids : Nat → Prop) (P : Db → Prop) (R : Db → Db → Prop) :
    Prop where
  refl : ∀ db, P db → R db db
  trans : ∀ a b c, R a b → R b c → R a c
  keeps : ∀ a b, R a b → P b
  fire : ∀ taskId runAt, ids taskId → Leads (fun w => P w.db) (fun w w' => R w.db w'.db)
    (fireRecurringTask env taskId runAt)

namespace FiringsLead

variable {α β : Type} {env : Env} {ids : Nat → Prop} {P : Db → Prop} {R : Db → Db → Prop}

theorem of_reads (leads : FiringsLead env ids P R) {x : Op α} (reads : Reads x) :
    Leads (fun w => P w.db) (fun w w' => R w.db w'.db) x := by
  refine Leads.of_returns (fun w e w' holds raised => ?_) (fun w a w' holds run => ?_)
  · rw [reads.raises _ _ _ raised]
    exact leads.refl _ holds
  · rw [reads.returns _ _ _ run]
    exact leads.refl _ holds

theorem bind (leads : FiringsLead env ids P R) {x : Op α} {f : α → Op β}
    (first : Leads (fun w => P w.db) (fun w w' => R w.db w'.db) x)
    (second : ∀ a, Leads (fun w => P w.db) (fun w w' => R w.db w'.db) (f a)) :
    Leads (fun w => P w.db) (fun w w' => R w.db w'.db) (x >>= f) :=
  Leads.bind (P := fun (w : World) => P w.db) (R := fun (w w' : World) => R w.db w'.db)
    (fun _ _ => leads.keeps _ _) (fun _ _ _ => leads.trans _ _ _) first
    fun _ a w _ holds => second a w holds

/-- The job is loaded after its firing. -/
theorem fireAndLoad (leads : FiringsLead env ids P R) {taskId : Nat} (mine : ids taskId)
    (runAt : Time) :
    Leads (fun w => P w.db) (fun w w' => R w.db w'.db) (fireAndLoad env taskId runAt) :=
  leads.bind (leads.fire taskId runAt mine) fun _ =>
    leads.bind (leads.of_reads Reads.getDb) fun _ => leads.of_reads (Reads.pure _)

/-- The waiting runs of one task, by induction on the list. -/
theorem firePending (leads : FiringsLead env ids P R) {taskId : Nat} (mine : ids taskId) :
    ∀ (pending : List RecurringExecution) (remaining : Option Int),
      Leads (fun w => P w.db) (fun w w' => R w.db w'.db) (firePending env taskId pending remaining)
  | [], _ => leads.of_reads (Reads.pure _)
  | e :: pending, remaining => by
      refine leads.bind (leads.fireAndLoad mine e.runAt) fun _ => ?_
      split
      · exact leads.of_reads (Reads.pure _)
      · exact leads.bind (leads.firePending mine pending _) fun _ =>
          leads.of_reads (Reads.pure _)

theorem fireLatest (leads : FiringsLead env ids P R) (now : Time) {task : RecurringTask}
    (mine : ids task.id) (remaining : Option Int) :
    Leads (fun w => P w.db) (fun w w' => R w.db w'.db) (fireLatest env now task remaining) := by
  unfold DjQueue.fireLatest
  split
  · exact leads.of_reads (Reads.pure _)
  · exact leads.bind (leads.of_reads (Reads.ofExcept _)) fun _ =>
      leads.bind (leads.fireAndLoad mine _) fun _ => leads.of_reads (Reads.pure _)

/-- The tasks of a poll, by induction on the list. -/
theorem fireTasks (leads : FiringsLead env ids P R) (now : Time) (pending : List RecurringExecution) :
    ∀ {tasks : List RecurringTask}, (∀ t ∈ tasks, ids t.id) → ∀ remaining : Option Int,
      Leads (fun w => P w.db) (fun w w' => R w.db w'.db) (fireTasks env now pending tasks remaining)
  | [], _, _ => leads.of_reads (Reads.pure _)
  | task :: tasks, mine, remaining => by
      have first : ids task.id := mine task List.mem_cons_self
      refine leads.bind (leads.firePending first _ remaining) fun published => ?_
      dsimp only
      split
      · exact leads.of_reads (Reads.pure _)
      · refine leads.bind (leads.fireLatest now first _) fun fired => ?_
        split
        · exact leads.of_reads (Reads.pure _)
        · exact leads.bind
            (leads.fireTasks now pending (fun t mem => mine t (List.mem_cons_of_mem _ mem)) _)
            fun _ => leads.of_reads (Reads.pure _)

/-- A poll leads where its firings lead. -/
theorem fireDueRecurringTasks (leads : FiringsLead env ids P R) (all : ∀ id, ids id) (now : Time)
    (includeDynamicTasks : Bool) (batchSize : Option Int) :
    Leads (fun w => P w.db) (fun w w' => R w.db w'.db)
      (fireDueRecurringTasks env now includeDynamicTasks batchSize) :=
  leads.bind (leads.of_reads Reads.getDb) fun _ =>
    leads.bind (leads.of_reads (Reads.sliceToBatch _ _)) fun _ =>
      leads.bind (leads.of_reads (Reads.sliceToBatch _ _)) fun _ =>
        leads.fireTasks now _ (fun t _ => all t.id) _

end FiringsLead

/-- A poll is a sequence of firings, and may end at any of them. -/
theorem Preserves.fireDueRecurringTasks {tracked : Option (String × Int)} {env : Env}
    (resolves : RecurringResolves tracked env) (now : Time) (includeDynamicTasks : Bool)
    (batchSize : Option Int) :
    Preserves tracked env.config.backendAlias
      (fireDueRecurringTasks env now includeDynamicTasks batchSize) := by
  have leads : FiringsLead env (fun _ => True) (Sound tracked)
      (Keeps tracked env.config.backendAlias) :=
    ⟨fun _ => Keeps.refl, fun _ _ _ => Keeps.trans, fun _ _ kept => kept.sound,
      fun taskId runAt _ => fireRecurringTask resolves taskId runAt⟩
  exact leads.fireDueRecurringTasks (fun _ => trivial) now includeDynamicTasks batchSize

end DjQueue
