import DjQueue.Accounting.Transitions

/-!
# Maintenance and the ledger

Retention, expired semaphores and expired waiters.
-/

namespace DjQueue

open Relational

namespace Accounts

variable {a : Audit} {hand hand' : List JobId} {owed owed' : Nat} {db : Db} {w w' : World}
  {u : Unit} {m : StateModel}

/-! ## Retention -/

/-- A finished job has no state row. -/
theorem stateless_of_finished (good : Accounts a hand owed db) {j : Job} (mem : j ∈ db.jobs)
    (finished : j.finishedAt.isSome = true) (m : StateModel) : j.id ∉ db.stateJobIds m := by
  intro row
  have one := good.places j mem
  have pos := List.count_pos_iff.mpr row
  rw [places_eq, finished, if_pos rfl] at one
  cases m <;> omega

theorem clearFinishedJobs {olderThan : Option Int} {taskPath : Option String} {batchSize : Int}
    {now : Time} {n : Nat} (good : Accounts a hand owed w.db)
    (run : Runs (clearFinishedJobs a.env olderThan taskPath batchSize now) w n w') :
    Accounts a hand owed w'.db := by
  unfold DjQueue.clearFinishedJobs at run
  split at run
  · obtain ⟨-, rfl⟩ := Runs.of_pure run
    exact good
  · obtain ⟨db, w₁, got, rest₁⟩ := Runs.of_bind (Runs.of_atomic run)
    obtain ⟨rfl, rfl⟩ := of_run_getDb got
    obtain ⟨jobs, w₂, sliced, rest₂⟩ := Runs.of_bind rest₁
    obtain ⟨taken, rfl⟩ := of_run_sliceTo sliced
    split at rest₂
    · obtain ⟨-, rfl⟩ := Runs.of_pure rest₂
      exact good
    · obtain ⟨v, w₃, check, delete⟩ := Runs.of_bind rest₂
      cases of_run_ensureJobIdsHaveNoOtherExecutionState check
      have finished : ∀ j ∈ jobs, j ∈ w₂.db.jobs ∧ j.finishedAt.isSome = true := by
        intro j mem
        rw [taken] at mem
        have old := List.mem_filter.mp (mem_orderBy.mp (List.mem_of_mem_take mem))
        simp only [Bool.and_eq_true] at old
        obtain ⟨t, at', -⟩ := (Option.any_eq_true _ _).mp old.2.1.2
        exact ⟨old.1, by rw [at']; rfl⟩
      refine good.deleteJobsWhere ?_ ?_ (fun _ _ _ => rfl) delete
      · intro j mem hit
        rw [Bool.and_eq_true, beq_iff_eq] at hit
        exact hit.1
      · intro j mem hit m
        rw [Bool.and_eq_true, List.contains_iff_mem] at hit
        obtain ⟨i, inJobs, same⟩ := List.mem_map.mp hit.2
        obtain ⟨there, done⟩ := finished i inJobs
        rw [← good.eq_of_id there mem same]
        exact good.stateless_of_finished there done m

theorem clearFailedJobs {olderThan : Option Int} {taskPath : Option String} {batchSize : Int}
    {now : Time} {n : Nat} (good : Accounts a hand owed w.db)
    (run : Runs (clearFailedJobs a.env olderThan taskPath batchSize now) w n w') :
    Accounts a hand owed w'.db := by
  unfold DjQueue.clearFailedJobs at run
  split at run
  · obtain ⟨-, rfl⟩ := Runs.of_pure run
    exact good
  · rename_i age configured
    obtain ⟨db, w₁, got, rest₁⟩ := Runs.of_bind (Runs.of_atomic run)
    obtain ⟨rfl, rfl⟩ := of_run_getDb got
    obtain ⟨rows, w₂, sliced, rest₂⟩ := Runs.of_bind rest₁
    obtain ⟨taken, rfl⟩ := of_run_sliceTo sliced
    obtain ⟨consumed, w₃, consume, rest₃⟩ := Runs.of_bind rest₂
    have selected : Selected (m := .failed) w₂.db rows := by
      rw [taken]
      exact (good.selected_orderBy .failed _ failureAgeOrder).sublist
        (((List.take_sublist _ _).trans List.filter_sublist).trans List.filter_sublist)
    have own : ∀ r ∈ rows, r.2.backendAlias = a.backendAlias := by
      intro r mem
      rw [taken] at mem
      have hit := (List.mem_filter.mp (List.mem_of_mem_filter (List.mem_of_mem_take mem))).2
      exact beq_iff_eq.mp hit
    obtain ⟨rfl, good₃⟩ := good.consume (m := .failed) (fun _ => rfl) selected own consume
    rw [Audit.held_of_inactive rfl, Nat.add_zero] at good₃
    split at rest₃
    · rename_i empty
      obtain ⟨-, rfl⟩ := Runs.of_pure rest₃
      rw [List.isEmpty_iff.mp empty] at good₃
      exact good₃
    · obtain ⟨v, w₄, check, delete⟩ := Runs.of_bind rest₃
      cases of_run_ensureJobIdsHaveNoOtherExecutionState check
      rw [show consumed.map (fun r => r.1.jobId) = consumed.map (fun r => r.2.id) from
        selected.ids_eq] at delete
      have owned : ∀ id ∈ consumed.map (fun r => r.2.id), a.owns id = true := by
        intro id mem
        obtain ⟨r, inRows, rfl⟩ := List.mem_map.mp mem
        exact (good.knows_of_selected selected inRows).owns (own r inRows)
      refine good₃.deleteHand _ owned (fun j mem => ?_) delete
      rw [Bool.and_eq_true, beq_iff_eq, List.contains_iff_mem]
      exact ⟨fun both => both.2, fun inIds => ⟨(good₃.owns_iff mem).mp (owned _ inIds), inIds⟩⟩

/-- Old execution rows have no slots of their own. -/
theorem clearRecurringExecutions {olderThan : Option Int} {taskKey : Option String}
    {batchSize : Int} {now : Time} {n : Nat} (good : Accounts a hand owed w.db)
    (run : Runs (clearRecurringExecutions a.env olderThan taskKey batchSize now) w n w') :
    Accounts a hand owed w'.db := by
  unfold DjQueue.clearRecurringExecutions at run
  split at run
  · obtain ⟨-, rfl⟩ := Runs.of_pure run
    exact good
  · obtain ⟨db, w₁, got, rest₁⟩ := Runs.of_bind (Runs.of_atomic run)
    obtain ⟨rfl, rfl⟩ := of_run_getDb got
    obtain ⟨executions, w₂, sliced, rest₂⟩ := Runs.of_bind rest₁
    obtain ⟨-, rfl⟩ := of_run_sliceTo sliced
    obtain ⟨v, w₃, written, done⟩ := Runs.of_bind rest₂
    obtain ⟨-, rfl⟩ := Runs.of_pure done
    rw [of_run_modifyDb written]
    obtain ⟨processIds, processBound, supervisors, links⟩ := good.registry
    obtain ⟨jobs, rows, processes, pauses, tasks, kept, ⟨p, trimmed⟩, created⟩ := good.untouched
    refine { good with
      registry := ⟨processIds, processBound, supervisors,
        fun e mem => links e (List.mem_of_mem_filter mem)⟩
      untouched := ⟨jobs, rows, processes, pauses, tasks, ?_, ?_, created⟩ }
    · rw [← kept, Table.rows_deleteWhere, List.filter_filter]
      refine List.filter_congr fun e _ => ?_
      by_cases own : e.backendAlias = a.backendAlias
      · simp [own]
      · simp [beq_eq_false_iff_ne.mpr own]
    · refine ⟨fun e => p e || e.backendAlias == a.env.config.backendAlias &&
        (executions.map RecurringExecution.id).contains e.id, ?_⟩
      simp only [trimmed, Table.deleteWhere, List.filter_filter, Table.mk.injEq, and_true]
      refine List.filter_congr fun e _ => ?_
      rw [Bool.not_or, Bool.and_comm]

/-! ## Expired semaphores -/

/-- Without an active job of the tracked key no slot is held. -/
theorem active_eq_zero (good : Accounts a hand owed db) {key : String} {L : Int}
    (tracked : a.tracked = some (key, L))
    (idle : ∀ j ∈ db.jobs, j.concurrencyKey = some key → db.isActive j = false) :
    a.active db = 0 := by
  have none : ∀ m : StateModel, (m = .ready ∨ m = .claimed) →
      a.held m (db.stateJobIds m) = 0 := by
    intro m active
    unfold Audit.held
    split
    · refine List.countP_eq_zero.mpr fun id row holds => ?_
      obtain ⟨j, there, rfl⟩ := good.job_of_mem_stateJobIds row
      have waits : j.concurrencyKey = some key := by
        rw [Audit.holds, (good.knows j there).identity, Option.any_some] at holds
        obtain ⟨k, keyOf, tracks⟩ := (Option.any_eq_true _ _).mp holds
        rw [Audit.tracks, tracked, Option.any_some, beq_iff_eq] at tracks
        rw [← tracks] at keyOf
        exact keyOf
      have quiet := idle j there waits
      rw [Db.isActive, Bool.or_eq_false_iff] at quiet
      have contained : db.hasState m j.id = true := List.contains_iff_mem.mpr row
      rcases active with rfl | rfl
      · rw [quiet.2] at contained
        cases contained
      · rw [quiet.1] at contained
        cases contained
    · rfl
  rw [Audit.active, none .ready (.inl rfl), none .claimed (.inr rfl)]

/-- Semaphore rows are deleted, the tracked one only while no slot is held. -/
theorem deleteSemaphores (good : Accounts a hand 0 db) {p : Semaphore → Bool}
    (idle : ∀ t r, a.tracked = some t → db.findSemaphore t.1 = some r → p r = true →
      a.active db = 0) :
    Accounts a hand 0 { db with semaphores := db.semaphores.deleteWhere p } := by
  have numbered := good.semaphores
  have numbered' : SemaphoresNumbered (db.semaphores.deleteWhere p) :=
    ⟨numbered.keys.sublist (List.filter_sublist.map _),
      numbered.ids.sublist (List.filter_sublist.map _),
      fun r mem => numbered.bound r (List.mem_of_mem_filter mem), numbered.next⟩
  refine good.setSemaphores numbered' fun t tracked => ?_
  rcases good.slots_of_tracked (L := t.2) tracked with ⟨missing, zero⟩ |
    ⟨r, found, slots⟩
  · rw [show (db.semaphores.deleteWhere p).rows.find? (fun r => r.key == t.1) = none from
      List.find?_eq_none.mpr fun r mem =>
        List.find?_eq_none.mp missing r (List.mem_of_mem_filter mem)]
    exact zero
  · obtain ⟨inTable, keyOf⟩ := mem_of_findSemaphore found
    cases hit : p r with
    | false =>
        have kept : ({ db with semaphores := db.semaphores.deleteWhere p } : Db).findSemaphore r.key =
            some r :=
          findSemaphore_of_mem numbered' (List.mem_filter.mpr ⟨inTable, by simp [hit]⟩)
        rw [Db.findSemaphore, keyOf] at kept
        rw [kept]
        exact slots
    | true =>
        rw [show (db.semaphores.deleteWhere p).rows.find? (fun r => r.key == t.1) = none from ?_]
        · exact idle t r tracked found hit
        · refine List.find?_eq_none.mpr fun s mem same => ?_
          obtain ⟨there, kept⟩ := List.mem_filter.mp mem
          have equal := List.inj_on_of_nodup_map numbered.keys there inTable
            ((beq_iff_eq.mp same).trans keyOf.symm)
          rw [equal, hit] at kept
          cases kept

/-- A semaphore that nobody counts on may go. -/
theorem cleanupExpiredSemaphores {batchSize : PyValue} {n : Nat} (good : Accounts a hand 0 w.db)
    (run : Runs (cleanupExpiredSemaphores batchSize) w n w') : Accounts a hand 0 w'.db := by
  obtain ⟨batch, w₁, computed, rest₁⟩ := Runs.of_bind run
  obtain ⟨-, rfl⟩ := Runs.of_ofExcept computed
  obtain ⟨now, w₂, read, rest₂⟩ := Runs.of_bind rest₁
  rw [← of_run_timezoneNow read] at good
  obtain ⟨db, w₃, got, rest₃⟩ := Runs.of_bind (Runs.of_atomic rest₂)
  obtain ⟨rfl, rfl⟩ := of_run_getDb got
  obtain ⟨v, w₄, written, done⟩ := Runs.of_bind rest₃
  obtain ⟨-, rfl⟩ := Runs.of_pure done
  rw [of_run_modifyDb written]
  refine good.deleteSemaphores fun t r tracked found hit => ?_
  obtain ⟨inTable, keyOf⟩ := mem_of_findSemaphore found
  rw [List.contains_iff_mem] at hit
  obtain ⟨c, inFilter, same⟩ := List.mem_map.mp hit
  obtain ⟨candidate, quiet⟩ := List.mem_filter.mp inFilter
  have there : c ∈ w₃.db.semaphores.rows :=
    List.mem_of_mem_filter (mem_orderBy.mp (List.mem_of_mem_take candidate))
  obtain rfl := List.inj_on_of_nodup_map good.semaphores.ids there inTable same
  have own : a.tracked = some (c.key, t.2) := by
    rw [keyOf]
    exact tracked
  refine good.active_eq_zero own fun j mem waits => ?_
  -- an active job would have kept the row
  rw [← Bool.not_eq_true]
  intro active
  rw [Bool.not_eq_true', ← Bool.not_eq_true, List.contains_iff_mem] at quiet
  refine quiet (List.mem_filterMap.mpr ⟨j, List.mem_filter.mpr ⟨mem, ?_⟩, waits⟩)
  rw [Bool.and_eq_true, waits, Option.any_some, List.contains_iff_mem]
  exact ⟨List.mem_map_of_mem candidate, active⟩

/-! ## Expired waiters -/

/-- What is cached for a task path is what any historical policy with that path resolves to. -/
def CacheAgrees (a : Audit) (cache : TaskSettings) : Prop :=
  ∀ path pair, cache.lookup path = some pair → ∀ job : Job, a.Knows job →
    job.historicalPolicy = true → job.taskPath = path → ∀ key, job.concurrencyKey = some key →
    a.Limit key pair.1

/-- A historical policy resolves by its task path alone. -/
theorem settings_of_taskPath {env : Env} {job other : Job} {settings : ConcurrencySettings}
    (historical : job.historicalPolicy = true) (historical' : other.historicalPolicy = true)
    (same : other.taskPath = job.taskPath)
    (ok : concurrencySettingsForJob env job none = .ok settings) :
    concurrencySettingsForJob env other none = .ok settings := by
  rw [concurrencySettingsForJob, if_pos historical] at ok
  rw [concurrencySettingsForJob, if_pos historical']
  have resolve : resolveHistoricalPolicy env other none = resolveHistoricalPolicy env job none := by
    rw [resolveHistoricalPolicy, resolveHistoricalPolicy, same]
  rw [resolve]
  split at ok
  · exact ok
  · split at ok <;> cases ok

/-- The settings of a waiter are those of its key, cached or not. -/
theorem blockedConcurrencySettings {job : Job} {cache cache' : TaskSettings} {pair : Int × Int}
    {key : String} (knows : a.Knows job) (waits : job.concurrencyKey = some key)
    (agrees : CacheAgrees a cache)
    (ok : blockedConcurrencySettings a.env job cache = .ok (pair, cache')) :
    a.Limit key pair.1 ∧ CacheAgrees a cache' := by
  unfold DjQueue.blockedConcurrencySettings at ok
  split at ok
  · rename_i settings cached
    cases ok
    split at cached
    · rename_i historical
      exact ⟨agrees _ _ cached job knows historical rfl key waits, agrees⟩
    · cases cached
  · split at ok
    · cases ok
    · rename_i settings resolved
      cases ok
      refine ⟨fun L tracked => knows.limit _ tracked waits _ _ _ resolved, ?_⟩
      split
      · rename_i historical
        intro path pair found other knows' historical' samePath key' waits'
        rw [List.lookup_cons] at found
        split at found
        · rename_i hit
          cases found
          intro L tracked
          refine knows'.limit _ tracked waits' _ _ _
            (settings_of_taskPath historical historical' ?_ resolved)
          rw [samePath]
          exact beq_iff_eq.mp hit
        · exact agrees path pair found other knows' historical' samePath key' waits'
      · exact agrees

/-- The expired waiters still to be looked at: out of their table when rows are consumed first,
else still in it. -/
def Waiting (a : Audit) (consumed : Bool) (hand : List JobId) (owed : Nat)
    (rows : List (BlockedExecution × Job)) (db : Db) : Prop :=
  if consumed then Accounts a (rows.map (fun r => r.2.id) ++ hand) owed db
  else Accounts a hand owed db ∧ Selected (m := .blocked) db rows

/-- The other waiters are still there once one is deleted. -/
theorem selected_of_without {r : BlockedExecution × Job} {rows : List (BlockedExecution × Job)}
    {db db' : Db} (selected : Selected (m := .blocked) db (r :: rows))
    (table : db'.blocked = without (m := .blocked) db.blocked [r.1.id])
    (jobs : db'.jobs = db.jobs) : Selected (m := .blocked) db' rows := by
  refine ⟨fun s mem => ?_, fun s mem => ?_, (List.nodup_cons.mp selected.nodup).2⟩
  · have there := selected.mem s (List.mem_cons_of_mem _ mem)
    have apart : s.1.id ≠ r.1.id := fun same =>
      (List.nodup_cons.mp selected.nodup).1 (List.mem_map.mpr ⟨s, mem, same⟩)
    change s.1 ∈ db'.blocked.rows
    rw [table, without, Table.rows_deleteWhere, List.mem_filter]
    refine ⟨there, ?_⟩
    simpa [rowId] using apart
  · rw [Db.findJob, jobs]
    exact selected.job s (List.mem_cons_of_mem _ mem)

/-- A waiter whose policy does not resolve fails. -/
theorem failBlockedPolicy {consumed failed : Bool} {r : BlockedExecution × Job}
    {rows : List (BlockedExecution × Job)} {error : PyError}
    (waiting : Waiting a consumed hand owed (r :: rows) w.db)
    (waiter : a.Waiter r.1.concurrencyKey r)
    (run : Runs (failBlockedPolicy a.env r.1 r.2 error consumed) w failed w') :
    Waiting a consumed hand owed rows w'.db := by
  obtain ⟨left, w₁, take, rest₁⟩ := Runs.of_bind run
  have own : a.OwnRow (m := .failed) (policyFailureRow r.2 error) :=
    policyFailureRow_own waiter.knows waiter.own
  cases consumed with
  | true =>
      obtain ⟨rfl, rfl⟩ := Runs.of_pure take
      obtain ⟨v₂, w₂, check, rest₂⟩ := Runs.of_bind rest₁
      cases of_run_ensureNoOtherExecutionState check
      obtain ⟨v₃, w₃, created, done⟩ := Runs.of_bind rest₂
      obtain ⟨-, rfl⟩ := Runs.of_pure done
      exact (createRow (m := .failed) (by rw [Audit.held_of_inactive rfl]; exact waiting) own
        (Audit.ownProcess_of_ne (by decide) _) created).1
  | false =>
      obtain ⟨good, selected⟩ := waiting
      obtain ⟨rfl, db₁⟩ := of_run_consumeSelectedRows (m := .blocked)
        (fun x mem => ⟨r.1, selected.mem r List.mem_cons_self, by
          rw [List.mem_singleton.mp mem]
          rfl⟩) (by simp) take
      have good₁ : Accounts a (r.1.jobId :: hand) owed w₁.db := by
        rw [db₁]
        exact good.takeWaiter selected waiter
      rw [← waiter.id] at good₁
      obtain ⟨v₂, w₂, check, rest₂⟩ := Runs.of_bind rest₁
      cases of_run_ensureNoOtherExecutionState check
      obtain ⟨v₃, w₃, created, done⟩ := Runs.of_bind rest₂
      obtain ⟨-, rfl⟩ := Runs.of_pure done
      obtain ⟨t, db₃⟩ := of_run_createRow created
      refine ⟨(createRow (m := .failed)
        (by rw [Audit.held_of_inactive rfl]; exact good₁) own
        (Audit.ownProcess_of_ne (by decide) _) created).1, ?_⟩
      refine selected_of_without selected ?_ ?_
      · rw [db₃, db₁]
        rfl
      · rw [db₃, db₁]
        rfl

/-- A waiter that got a slot becomes ready. -/
theorem promoteBlockedExecution {consumed : Bool} {r : BlockedExecution × Job}
    {rows : List (BlockedExecution × Job)} {now : Time}
    (waiting : Waiting a consumed hand (owed + a.slot r.1.concurrencyKey) (r :: rows) w.db)
    (waiter : a.Waiter r.1.concurrencyKey r)
    (run : Runs (promoteBlockedExecution r.1 r.2 now consumed) w u w') :
    Waiting a consumed hand owed rows w'.db := by
  obtain ⟨v₁, w₁, delete, create⟩ := Runs.of_bind run
  rw [waiter.rowBackend] at create
  have slot : a.held .ready [r.2.ref.id] = a.slot r.1.concurrencyKey :=
    Audit.held_of_known waiter.knows.identity waiter.waits rfl
  have queue : ∀ q, some r.1.queueName = some q → q = r.2.ref.queueName := by
    intro q same
    rw [← Option.some.inj same]
    exact waiter.queue
  cases consumed with
  | true =>
      rcases Runs.of_runIf delete with ⟨impossible, -⟩ | ⟨-, rfl⟩
      · cases impossible
      · exact createReadyExecution (by rw [slot]; exact waiting)
          waiter.knows.identity queue create
  | false =>
      obtain ⟨good, selected⟩ := waiting
      rcases Runs.of_runIf delete with ⟨-, delete⟩ | ⟨impossible, -⟩
      · obtain ⟨n, w₂, deleted, done⟩ := Runs.of_bind delete
        obtain ⟨-, rfl⟩ := Runs.of_pure done
        have db₂ := (of_run_deleteRowsWhere deleted).2
        rw [show (w.db.table .blocked).deleteWhere (fun x => x.id == r.1.id) =
          without (m := .blocked) w.db.blocked [r.1.id] from
            without_singleton (m := .blocked) w.db.blocked r.1.id] at db₂
        have good₂ := good.takeWaiter selected waiter
        rw [← db₂, ← waiter.id] at good₂
        obtain ⟨t, db'⟩ := of_run_createReadyExecution create
        refine ⟨createReadyExecution (by rw [slot]; exact good₂)
          waiter.knows.identity queue create, selected_of_without selected ?_ ?_⟩
        · rw [db', db₂]
          rfl
        · rw [db', db₂]
          rfl
      · cases impossible

/-- A waiter that got none waits on. -/
theorem renewBlockedExecution {consumed : Bool} {r : BlockedExecution × Job}
    {rows : List (BlockedExecution × Job)} {expiresAt : Time}
    (waiting : Waiting a consumed hand owed (r :: rows) w.db)
    (waiter : a.Waiter r.1.concurrencyKey r)
    (run : Runs (renewBlockedExecution r.1 r.2 expiresAt consumed) w u w') :
    Waiting a consumed hand owed rows w'.db := by
  unfold DjQueue.renewBlockedExecution at run
  cases consumed with
  | true =>
      rw [if_pos rfl, waiter.rowBackend] at run
      change Accounts a (r.2.ref.id :: _) owed _ at waiting
      exact createBlockedExecution waiting waiter.knows.identity waiter.waits
        (fun q same => Option.some.inj same ▸ waiter.queue) run
  | false =>
      rw [if_neg Bool.false_ne_true] at run
      obtain ⟨good, selected⟩ := waiting
      have db' := of_run_modifyDb run
      have here := selected.mem r List.mem_cons_self
      refine ⟨?_, fun s mem => ?_, fun s mem => ?_, (List.nodup_cons.mp selected.nodup).2⟩
      · rw [db']
        refine good.updateRows (m := .blocked) (fun _ => rfl) (fun _ => rfl) ?_ ?_
        · intro x mem hit
          obtain ⟨job, ⟨i, known, same⟩, process⟩ := good.rowFits .blocked x mem
          exact ⟨job, ⟨i, known, ⟨same.backend, same.queue, same.key⟩⟩, by rintro p ⟨⟩⟩
        · intro x mem hit
          have same : x = r.1 := List.inj_on_of_nodup_map (good.rowIds .blocked) mem here
            (beq_iff_eq.mp hit)
          rw [same]
          change a.owns r.1.jobId = true
          rw [← waiter.id]
          exact waiter.knows.owns waiter.own
      · have there := selected.mem s (List.mem_cons_of_mem _ mem)
        have apart : s.1.id ≠ r.1.id := fun same =>
          (List.nodup_cons.mp selected.nodup).1 (List.mem_map.mpr ⟨s, mem, same⟩)
        rw [db']
        exact List.mem_map.mpr ⟨s.1, there, if_neg (by simpa using apart)⟩
      · rw [db']
        exact selected.job s (List.mem_cons_of_mem _ mem)

/-- Asking for a slot leaves the waiters where they are. -/
theorem waiting_semaphoreAcquire {consumed given : Bool} {rows : List (BlockedExecution × Job)}
    {key : String} {limit duration : Int} (waiting : Waiting a consumed hand owed rows w.db)
    (agrees : a.Limit key limit)
    (run : Runs (DjQueue.semaphoreAcquire a.env key limit duration) w given w') :
    Waiting a consumed hand (owed + if given then a.slot key else 0) rows w'.db := by
  cases consumed with
  | true => exact semaphoreAcquire waiting agrees run
  | false =>
      obtain ⟨good, selected⟩ := waiting
      refine ⟨good.semaphoreAcquire agrees run, ?_⟩
      have outcome := of_run_semaphoreAcquire good.semaphores run
      generalize w'.db = db' at outcome
      cases outcome with
      | opened absent expiresAt now => exact selected.of_same rfl rfl
      | asked found expiresAt now => exact selected.of_same rfl rfl

/-- A waiter becomes ready with a slot, waits on, or fails without one. -/
theorem promoteExpiredBlockedJob {consumed : Bool} {r : BlockedExecution × Job}
    {rows : List (BlockedExecution × Job)} {now : Time} {cache : TaskSettings}
    {result : WaiterOutcome × TaskSettings}
    (waiting : Waiting a consumed hand owed (r :: rows) w.db)
    (waiter : a.Waiter r.1.concurrencyKey r) (agrees : CacheAgrees a cache)
    (run : Runs (promoteExpiredBlockedJob a.env now consumed r.1 r.2 cache) w result w') :
    Waiting a consumed hand owed rows w'.db ∧ CacheAgrees a result.2 := by
  unfold DjQueue.promoteExpiredBlockedJob at run
  split at run
  · obtain ⟨failed, w₁, fail, done⟩ := Runs.of_bind run
    obtain ⟨rfl, rfl⟩ := Runs.of_pure done
    exact ⟨failBlockedPolicy waiting waiter fail, agrees⟩
  · exact (Runs.of_throw run).elim
  · rename_i limit duration cache' ok
    obtain ⟨limitOf, agrees'⟩ := blockedConcurrencySettings waiter.knows waiter.waits agrees ok
    obtain ⟨acquired, w₁, asked, rest₁⟩ := Runs.of_bind run
    have waiting₁ := waiting_semaphoreAcquire waiting limitOf asked
    cases acquired with
    | true =>
        obtain ⟨v₂, w₂, promoted, done⟩ := Runs.of_bind rest₁
        obtain ⟨rfl, rfl⟩ := Runs.of_pure done
        exact ⟨promoteBlockedExecution waiting₁ waiter promoted, agrees'⟩
    | false =>
        obtain ⟨expiresAt, w₂, added, rest₂⟩ := Runs.of_bind rest₁
        obtain ⟨rfl, -, rfl⟩ := of_run_addSeconds added
        obtain ⟨v₃, w₃, renewed, done⟩ := Runs.of_bind rest₂
        obtain ⟨rfl, rfl⟩ := Runs.of_pure done
        exact ⟨renewBlockedExecution waiting₁ waiter renewed, agrees'⟩

/-- The waiters of a batch, one after the other. -/
theorem promoteExpiredLoop (consumed : Bool) {now : Time} :
    ∀ {rows : List (BlockedExecution × Job)} {cache : TaskSettings} {w : World}
      {outcomes : List WaiterOutcome},
      Waiting a consumed hand owed rows w.db → (∀ r ∈ rows, a.Waiter r.1.concurrencyKey r) →
      CacheAgrees a cache →
      Runs (promoteExpiredLoop a.env now consumed rows cache) w outcomes w' →
      Waiting a consumed hand owed [] w'.db
  | [], cache, w, outcomes, waiting, _, _, run => by
      obtain ⟨-, rfl⟩ := Runs.of_pure run
      exact waiting
  | (blocked, job) :: rows, cache, w, outcomes, waiting, waiters, agrees, run => by
      obtain ⟨result, w₁, head, rest₁⟩ := Runs.of_bind run
      obtain ⟨waiting₁, agrees₁⟩ := promoteExpiredBlockedJob (r := (blocked, job)) waiting
        (waiters _ List.mem_cons_self) agrees head
      obtain ⟨others, w₂, tail, done⟩ := Runs.of_bind rest₁
      obtain ⟨-, rfl⟩ := Runs.of_pure done
      exact promoteExpiredLoop consumed waiting₁ (fun r mem => waiters r (List.mem_cons_of_mem _ mem))
        agrees₁ tail

theorem promoteExpiredBlockedJobs {batchSize : Int} {jobs : List Job}
    (good : Accounts a hand owed w.db)
    (run : Runs (promoteExpiredBlockedJobs a.env batchSize) w jobs w') :
    Accounts a hand owed w'.db := by
  obtain ⟨now, w₁, read, rest₁⟩ := Runs.of_bind run
  rw [← of_run_timezoneNow read] at good
  obtain ⟨db, w₂, got, rest₂⟩ := Runs.of_bind (Runs.of_atomic rest₁)
  obtain ⟨rfl, rfl⟩ := of_run_getDb got
  obtain ⟨rows, w₃, sliced, rest₃⟩ := Runs.of_bind rest₂
  obtain ⟨taken, rfl⟩ := of_run_sliceTo sliced
  obtain ⟨v₄, w₄, check, rest₄⟩ := Runs.of_bind rest₃
  obtain ⟨rfl, own⟩ := of_run_ensureStateRowsBelongToBackend (m := .blocked) check
  have selected : Selected (m := .blocked) w₄.db rows := by
    rw [taken]
    exact (good.selected_orderBy .blocked _ expiredOrder).sublist (List.take_sublist _ _)
  have waiters : ∀ r ∈ rows, a.Waiter r.1.concurrencyKey r := by
    intro r mem
    refine good.waiter_of_selected selected mem ?_
    exact ((good.matches_of_selected selected mem).backend _ rfl).trans (own r mem)
  obtain ⟨left, w₅, take, rest₅⟩ := Runs.of_bind rest₄
  obtain ⟨outcomes, w₆, loop, done⟩ := Runs.of_bind rest₅
  obtain ⟨-, rfl⟩ := Runs.of_pure done
  have none : CacheAgrees a [] := fun path pair found => by cases found
  cases serialized : a.env.config.family.usesSerializedWrites with
  | true =>
      rw [serialized] at take loop
      obtain ⟨rfl, good₅⟩ := good.consume (m := .blocked) (fun _ => rfl) selected own take
      rw [Audit.held_of_inactive rfl, Nat.add_zero] at good₅
      exact promoteExpiredLoop true good₅ waiters none loop
  | false =>
      rw [serialized] at take loop
      obtain ⟨rfl, rfl⟩ := Runs.of_pure take
      exact (promoteExpiredLoop false ⟨good, selected⟩ waiters none loop).1

end Accounts

end DjQueue
