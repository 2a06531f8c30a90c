import DjQueue.Relational.Ordering
import DjQueue.Slots.WaiterRows
import DjQueue.Enqueue.Placement

/-!
# A waiter gets its slot

`unblock_next_blocked_job`, run forward: nobody waits, the first waiter of the key gets the slot, or
the key's row refuses it.  Both ways to consume a waiter come to the same there, except for the row
of the waiter that was refused.
-/

namespace DjQueue

open Relational

/-! ## Deleting selected rows -/

section Consume

variable {m : StateModel} {β : Type} {pk : β → Nat}

theorem runs_deleteRowsWhere (m : StateModel) (p : m.Row → Bool) (w : World) :
    Runs (deleteRowsWhere m p) w ((w.db.table m).rows.countP p)
      { w with db := w.db.setTable m ((w.db.table m).deleteWhere p) } := rfl

theorem runs_consumeEachRow : ∀ (rows : List β) (w : World),
    (∀ b ∈ rows, ∃ r ∈ (w.db.table m).rows, rowId r = pk b) → (rows.map pk).Nodup →
    Runs (consumeEachRow m pk rows) w rows
      { w with db := w.db.setTable m (without (w.db.table m) (rows.map pk)) }
  | [], w, _, _ => by
      rw [List.map_nil, without_nil, Db.setTable_table]
      rfl
  | b :: rows, w, there, nodup => by
      rcases List.nodup_cons.mp nodup with ⟨fresh, nodup⟩
      have later := runs_consumeEachRow rows
        { w with db := w.db.setTable m ((w.db.table m).deleteWhere (fun r => rowId r == pk b)) } ?_
        nodup
      · rw [Db.table_setTable_same, without_cons, Db.setTable_setTable] at later
        have deleted : (w.db.table m).rows.countP (fun r => rowId r == pk b) ≠ 0 := by
          rcases there b List.mem_cons_self with ⟨r, mem, same⟩
          apply Nat.ne_of_gt
          exact List.countP_pos_iff.mpr ⟨r, mem, beq_iff_eq.mpr same⟩
        refine Runs.bind (runs_deleteRowsWhere m _ w) (Runs.bind later ?_)
        rw [if_neg deleted]
        exact runs_pure _ _
      · intro b' mem
        rcases there b' (List.mem_cons_of_mem _ mem) with ⟨r, inside, same⟩
        refine ⟨r, ?_, same⟩
        rw [Db.table_setTable_same, Table.rows_deleteWhere, List.mem_filter]
        refine ⟨inside, ?_⟩
        rw [Bool.not_eq_true', beq_eq_false_iff_ne, same]
        intro equal
        apply fresh
        rw [← equal]
        exact List.mem_map_of_mem mem

/-- Rows that are there, each selected once, are all consumed. -/
theorem runs_consumeSelectedRows (env : Env) (pk : β → Nat) (rows : List β) (w : World)
    (there : ∀ b ∈ rows, ∃ r ∈ (w.db.table m).rows, rowId r = pk b) (nodup : (rows.map pk).Nodup) :
    Runs (consumeSelectedRows env m pk rows) w rows
      { w with db := w.db.setTable m (without (w.db.table m) (rows.map pk)) } := by
  unfold consumeSelectedRows
  split
  · exact runs_consumeEachRow rows w there nodup
  · exact Runs.bind (runs_deleteRowsWhere m _ w) (runs_pure _ _)

end Consume

/-! ## The tables after a hand-off -/

namespace Db

/-- The job has a row in another state table than the blocked one. -/
def hasOtherState (db : Db) (id : JobId) : Bool :=
  executionStateModels.any (fun m => m ≠ .blocked && db.hasState m id)

/-- A waiter is taken out. -/
def withoutWaiter (db : Db) (blocked : BlockedExecution) : Db :=
  { db with blocked := db.blocked.deleteWhere (fun r => r.id == blocked.id) }

end Db

/-- The ready row of a waiter that got its slot. -/
def promotedRow (backendAlias : String) (readyAt : Time) (blocked : BlockedExecution) (id : Nat) :
    ReadyExecution where
  id := id
  jobId := blocked.jobId
  backendAlias := backendAlias
  queueName := blocked.queueName
  priority := blocked.priority
  createdAt := readyAt
  latencyStartedAt := some readyAt

/-- The row a refused waiter is put back on. -/
def restoredRow (backendAlias : String) (blocked : BlockedExecution) (id : Nat) : BlockedExecution :=
  { blocked with id := id, backendAlias := backendAlias }

namespace Db

/-- A waiter stands in the ready table. -/
def withPromoted (db : Db) (backendAlias : String) (readyAt : Time) (blocked : BlockedExecution) :
    Db :=
  { db with ready := db.ready.insert (promotedRow backendAlias readyAt blocked) }

/-- A waiter is back in the blocked table. -/
def withRestored (db : Db) (backendAlias : String) (blocked : BlockedExecution) : Db :=
  { db with blocked := db.blocked.insert (restoredRow backendAlias blocked) }

section States

variable {db : Db} {blocked : BlockedExecution} {id : JobId} {key : String}
  {f : Semaphore → Semaphore}

theorem hasOtherState_eq_false :
    db.hasOtherState id = false ↔ ∀ m ≠ StateModel.blocked, db.hasState m id = false := by
  unfold hasOtherState
  rw [List.any_eq_false]
  constructor
  · intro free m other
    have spared := free m (by cases m <;> decide)
    simpa [other] using spared
  · intro free m _ both
    rw [Bool.and_eq_true, decide_eq_true_eq] at both
    rw [free m both.1] at both
    exact Bool.false_ne_true both.2

/-- Deleting the waiter changes none of the others. -/
@[simp] theorem hasOtherState_withoutWaiter :
    (db.withoutWaiter blocked).hasOtherState id = db.hasOtherState id := rfl

@[simp] theorem hasOtherState_saveSemaphore :
    (db.saveSemaphore key f).hasOtherState id = db.hasOtherState id := rfl

/-- Promoting one waiter says nothing about the jobs of the others. -/
theorem hasOtherState_withPromoted {backendAlias : String} {readyAt : Time}
    (other : blocked.jobId ≠ id) :
    (db.withPromoted backendAlias readyAt blocked).hasOtherState id = db.hasOtherState id := by
  have ready : (db.withPromoted backendAlias readyAt blocked).hasState .ready id =
      db.hasState .ready id := hasState_insert (m := .ready) other
  have states : ∀ m, (db.withPromoted backendAlias readyAt blocked).hasState m id =
      db.hasState m id := by
    intro m
    cases m with
    | ready => exact ready
    | scheduled => rfl
    | claimed => rfl
    | blocked => rfl
    | failed => rfl
  unfold hasOtherState
  simp only [states]

@[simp] theorem findJob_withoutWaiter :
    (db.withoutWaiter blocked).findJob id = db.findJob id := rfl

/-- The waiter that is taken out, and the others. -/
theorem perm_withoutWaiter (numbered : WaitersNumbered db.blocked)
    (mem : blocked ∈ db.blocked.rows) :
    db.blocked.rows.Perm (blocked :: (db.withoutWaiter blocked).blocked.rows) := by
  have one : db.blocked.rows.filter (fun r => r.id == blocked.id) = [blocked] := by
    apply List.perm_singleton.mp
    refine (List.perm_ext_iff_of_nodup (numbered.ids.of_map.filter _)
      (List.nodup_singleton _)).mpr fun r => ?_
    rw [List.mem_filter, List.mem_singleton, beq_iff_eq]
    constructor
    · rintro ⟨there, same⟩
      exact numbered.eq_of_id there mem same
    · rintro rfl
      exact ⟨mem, rfl⟩
  have split := List.filter_append_perm (fun r => r.id == blocked.id) db.blocked.rows
  rw [one] at split
  exact split.symm

/-- A job waits on one row, so it does not wait once that one is gone. -/
theorem hasState_withoutWaiter (numbered : WaitersNumbered db.blocked)
    (mem : blocked ∈ db.blocked.rows) :
    (db.withoutWaiter blocked).hasState .blocked blocked.jobId = false := by
  unfold hasState stateJobIds
  rw [← Bool.not_eq_true, List.contains_iff_mem, List.mem_map]
  rintro ⟨r, there, same⟩
  rcases List.mem_filter.mp there with ⟨inside, kept⟩
  rw [numbered.eq_of_job inside mem same] at kept
  simp at kept

end States

end Db

/-! ## Conflicts -/

section Conflicts

variable {db : Db} {ids : List JobId} {id : JobId}

/-- Jobs without other rows pass the check. -/
theorem runs_ensureJobIdsHaveNoOtherExecutionState {ignored : List StateModel} {w : World}
    (free : ∀ id ∈ ids, ∀ m, m ∉ ignored → w.db.hasState m id = false) :
    Runs (ensureJobIdsHaveNoOtherExecutionState ids ignored) w () w := by
  refine Runs.bind (runs_getDb w) ?_
  have nobody : jobIdsWithOtherExecutionState w.db ids ignored = [] := by
    unfold jobIdsWithOtherExecutionState
    rw [List.map_eq_nil_iff, List.filter_eq_nil_iff]
    intro j mem stateful
    have inside := List.contains_iff_mem.mp (List.mem_filter.mp mem).2
    rcases List.any_eq_true.mp stateful with ⟨m, -, both⟩
    rw [Bool.and_eq_true, Bool.not_eq_true', ← Bool.not_eq_true, List.contains_iff_mem] at both
    rw [free j.id inside m both.1] at both
    exact Bool.false_ne_true both.2
  rw [nobody]
  rfl

/-- Rows of the backend pass the check. -/
theorem runs_ensureStateRowsBelongToBackend {rows : List (BlockedExecution × Job)} {B : String}
    {w : World} (own : ∀ x ∈ rows, x.2.backendAlias = B) :
    Runs (ensureStateRowsBelongToBackend (m := .blocked) rows B) w () w := by
  unfold ensureStateRowsBelongToBackend
  rw [List.find?_eq_none.mpr (fun x mem => by simpa using own x mem)]
  rfl

/-- The row of a group release fits its columns where the limit does. -/
theorem holds_groupReleaseRow {family : BackendFamily} {L available promoted : Int}
    (holds : family.holds L = true) (least : promoted ≤ available) (none : 0 ≤ promoted)
    (most : available ≤ L) (expiresAt now : Time) (r : Semaphore) :
    (groupReleaseRow L available promoted expiresAt now r).columns.all family.holds = true := by
  simp only [groupReleaseRow, Semaphore.columns, Option.toList_some, List.all_cons, List.all_nil,
    Bool.and_true, Bool.and_eq_true]
  exact ⟨BackendFamily.holds_of_between (by omega) (by omega) holds, holds,
    BackendFamily.holds_of_between (by omega) (by omega) holds⟩

theorem fails_ensureNoOtherExecutionState {w : World} (job : (w.db.findJob id).isSome)
    (stateful : w.db.hasOtherState id = true) :
    Fails (ensureNoOtherExecutionState id []) w (alreadyHasState id) := by
  refine Runs.bind_fails (runs_getDb w) ?_
  rcases List.any_eq_true.mp stateful with ⟨m, listed, both⟩
  rw [Bool.and_eq_true] at both
  have only : ∀ id' ∈ jobIdsWithOtherExecutionState w.db [id] [], id' = id := by
    intro id' mem
    rcases List.mem_map.mp mem with ⟨j, inside, rfl⟩
    have named := (List.mem_filter.mp (List.mem_filter.mp inside).1).2
    exact List.mem_singleton.mp (List.contains_iff_mem.mp named)
  have found : id ∈ jobIdsWithOtherExecutionState w.db [id] [] := by
    rcases Option.isSome_iff_exists.mp job with ⟨j, here⟩
    have same : j.id = id := by simpa using List.find?_some here
    refine List.mem_map.mpr ⟨j, List.mem_filter.mpr ⟨List.mem_filter.mpr
      ⟨List.mem_of_find?_eq_some here, ?_⟩, ?_⟩, same⟩
    · rw [List.contains_iff_mem, same]
      exact List.mem_singleton_self _
    · rw [same]
      exact List.any_eq_true.mpr ⟨m, listed, by simpa using both.2⟩
  cases conflicts : jobIdsWithOtherExecutionState w.db [id] [] with
  | nil =>
      rw [conflicts] at found
      cases found
  | cons first rest =>
      have same : first = id := only first (by rw [conflicts]; exact List.mem_cons_self)
      rw [same]
      exact Fails.of_throw _ _

end Conflicts

/-! ## The row of the key -/

section Slot

variable {db : Db} {key : String}

/-- An `UPDATE` of the key's row hits it when its filter does. -/
theorem countP_pos (numbered : SemaphoresNumbered db.semaphores) (p : Semaphore → Bool) :
    decide (0 < db.semaphores.rows.countP (fun r => r.key == key && p r)) =
      (db.findSemaphore key).any p := by
  cases found : db.findSemaphore key with
  | none =>
      have absent : db.semaphores.rows.countP (fun r => r.key == key && p r) = 0 := by
        rw [List.countP_eq_zero]
        intro r mem hit
        rw [Bool.and_eq_true] at hit
        exact List.find?_eq_none.mp found r mem hit.1
      rw [absent]
      rfl
  | some r =>
      have hits := countP_key numbered found p
      cases accepted : p r with
      | false =>
          rw [accepted] at hits
          simpa [Option.any, accepted] using hits
      | true =>
          rw [accepted] at hits
          simpa [Option.any, accepted, Nat.pos_iff_ne_zero] using hits

/-- The key's row has a slot for a waiter. -/
def gives (db : Db) (key : String) (mode : SlotHandoffMode) (L : Int) : Bool :=
  (db.findSemaphore key).any (mode.update L 0 0).filter

/-- The times an update writes do not decide whether it is done. -/
theorem gives_eq (db : Db) (key : String) (mode : SlotHandoffMode) (L : Int)
    (expiresAt now : Time) :
    (db.findSemaphore key).any (mode.update L expiresAt now).filter = gives db key mode L := by
  cases mode <;> rfl

/-- The key's row after a waiter asked for its slot. -/
def askedFor (db : Db) (order : EvaluationOrder) (key : String) (mode : SlotHandoffMode) (L : Int)
    (expiresAt now : Time) : Db :=
  db.saveSemaphore key ((mode.update L expiresAt now).run order)

/-- A slot that is refused changes no row. -/
theorem askedFor_of_refused (order : EvaluationOrder) {mode : SlotHandoffMode} {L : Int}
    (numbered : SemaphoresNumbered db.semaphores) (refused : gives db key mode L = false)
    (expiresAt now : Time) : askedFor db order key mode L expiresAt now = db := by
  refine saveSemaphore_of_refused (w := ⟨db, fun _ => 0, fun _ => 0⟩) numbered fun r found => ?_
  rw [← gives_eq db key mode L expiresAt now] at refused
  have found : db.findSemaphore key = some r := found
  rw [found] at refused
  exact refused

/-- The statement that asks for a slot. -/
def SlotHandoffMode.statement (L : Int) (expiresAt now : Time) : SlotHandoffMode → SlotStatement
  | .releaseClaimed => handoffReleasedClaimedSlotStatement L expiresAt now
  | .consumeReleased => consumeReleasedSemaphoreSlotStatement L expiresAt now

/-- The numbers a hand-off computes of the key's row are in range. -/
def HandoffFits (family : BackendFamily) (db : Db) (key : String) (mode : SlotHandoffMode)
    (L duration : Int) (now : Time) : Prop :=
  ((mode.statement L (now + seconds duration) now).numbers family (db.findSemaphore key)).all
    family.holds = true

instance (family : BackendFamily) (db : Db) (key : String) (mode : SlotHandoffMode)
    (L duration : Int) (now : Time) : Decidable (HandoffFits family db key mode L duration now) := by
  unfold HandoffFits
  infer_instance

/-- The deadline of a hand-off is a time, and its numbers are in range. -/
structure Computable (family : BackendFamily) (db : Db) (key : String) (mode : SlotHandoffMode)
    (L duration : Int) (now : Time) : Prop where
  deadline : isDatetime (now + seconds duration) = true
  numbers : HandoffFits family db key mode L duration now

theorem acquireHandoffSlot_eq (env : Env) (mode : SlotHandoffMode) (key : String) (L duration : Int)
    (now : Time) :
    acquireHandoffSlot env mode key L duration now = (do
      let expiresAt ← MonadExcept.ofExcept (addSeconds now duration)
      let updated ← updateSlots env.config.family key (mode.statement L expiresAt now)
      pure (decide (0 < updated))) := by
  cases mode <;> rfl

/-- Asking for the slot, with a deadline and numbers in range. -/
theorem runs_acquireHandoffSlot (key : String) (env : Env) (mode : SlotHandoffMode)
    (L duration : Int) (now : Time) {w : World} (numbered : SemaphoresNumbered w.db.semaphores)
    (computable : Computable env.config.family w.db key mode L duration now) :
    Runs (acquireHandoffSlot env mode key L duration now) w (gives w.db key mode L)
      { w with db := (askedFor w.db env.config.family.evaluationOrder key mode L
        (now + seconds duration) now) } := by
  have same : (mode.statement L (now + seconds duration) now).update =
      mode.update L (now + seconds duration) now := by cases mode <;> rfl
  have updated := runs_updateSlots computable.numbers
    (runs_updateSemaphore env.config.family.evaluationOrder key _ w)
  rw [same] at updated
  rw [acquireHandoffSlot_eq, ← gives_eq w.db key mode L (now + seconds duration) now,
    ← countP_pos numbered]
  exact Runs.bind (runs_addSeconds computable.deadline w) (Runs.bind updated (runs_pure _ _))

/-- A deadline beyond the range of dates. -/
theorem fails_acquireHandoffSlot_deadline (key : String) (env : Env) (mode : SlotHandoffMode)
    (L : Int) {duration : Int} {now : Time}
    (beyond : isDatetime (now + seconds duration) = false) (w : World) :
    Fails (acquireHandoffSlot env mode key L duration now) w dateOutOfRange := by
  rw [acquireHandoffSlot_eq]
  exact Fails.bind (fails_addSeconds beyond w)

/-- Numbers beyond the range of the column. -/
theorem fails_acquireHandoffSlot_numbers {key : String} {env : Env} {mode : SlotHandoffMode}
    {L duration : Int} {now : Time} {w : World}
    (deadline : isDatetime (now + seconds duration) = true)
    (beyond : ¬ HandoffFits env.config.family w.db key mode L duration now) :
    Fails (acquireHandoffSlot env mode key L duration now) w env.config.family.outOfRange := by
  rw [acquireHandoffSlot_eq]
  exact Runs.bind_fails (runs_addSeconds deadline w)
    (Fails.bind (fails_updateSlots (Bool.eq_false_of_not_eq_true beyond)))

end Slot

/-! ## Consuming a waiter -/

section Consuming

variable {env : Env} {key : String} {w : World} {x : BlockedExecution × Job}
  {rest : List (BlockedExecution × Job)}

theorem runs_consumeNextBlockedJob_nobody
    (nobody : waitersOf w.db env.config.backendAlias key = []) :
    Runs (consumeNextBlockedJob env key) w none w := by
  refine Runs.bind (runs_getDb w) ?_
  rw [nobody]
  rfl

theorem runs_consumeNextBlockedJob (waiters : waitersOf w.db env.config.backendAlias key = x :: rest)
    (own : x.2.backendAlias = env.config.backendAlias) :
    Runs (consumeNextBlockedJob env key) w (some x) { w with db := w.db.withoutWaiter x.1 } := by
  have inside := (mem_waitersOf (x := x)).mp (by rw [waiters]; exact List.mem_cons_self)
  have consumed : Runs (consumeSelectedRows env .blocked (fun r : BlockedExecution × Job => r.1.id)
      [x]) w [x] { w with db := w.db.withoutWaiter x.1 } := by
    have all := runs_consumeSelectedRows (m := .blocked) env
      (fun r : BlockedExecution × Job => r.1.id) [x] w
      (fun b mem => ⟨x.1, inside.1, by rw [List.mem_singleton.mp mem]; rfl⟩)
      (List.nodup_singleton _)
    rw [List.map_singleton, ← without_singleton] at all
    exact all
  have checked : Runs (ensureStateRowsBelongToBackend (m := .blocked) [x] env.config.backendAlias)
      w () w := by
    unfold ensureStateRowsBelongToBackend
    rw [List.find?_singleton, if_neg (by simpa using own)]
    rfl
  refine Runs.bind (runs_getDb w) ?_
  rw [waiters]
  dsimp only
  split
  · exact Runs.bind (runs_deleteRowsWhere .blocked _ w) (runs_pure _ _)
  · exact Runs.bind checked (Runs.bind consumed (runs_pure _ _))

/-- A waiter whose job is of another backend. -/
theorem fails_consumeBlockedJobPortably_foreign (mode : SlotHandoffMode) (L duration : Int)
    (now : Time) (waiters : waitersOf w.db env.config.backendAlias key = x :: rest)
    (foreign : x.2.backendAlias ≠ env.config.backendAlias) :
    Fails (consumeBlockedJobPortably env mode key L duration now) w
      (belongsToBackend x.1.jobId x.2.backendAlias) := by
  have checked : Fails (ensureStateRowsBelongToBackend (m := .blocked) [x]
      env.config.backendAlias) w (belongsToBackend x.1.jobId x.2.backendAlias) := by
    unfold ensureStateRowsBelongToBackend
    rw [List.find?_singleton, if_pos (by simpa using foreign)]
    exact Fails.of_throw _ _
  by_cases onPostgres : env.config.family = .postgresql
  · have consumed : Runs (consumeNextBlockedJob env key) w (some x)
        { w with db := w.db.withoutWaiter x.1 } := by
      refine Runs.bind (runs_getDb w) ?_
      rw [waiters]
      dsimp only
      rw [onPostgres]
      exact Runs.bind (runs_deleteRowsWhere .blocked _ w) (runs_pure _ _)
    refine Runs.bind_fails consumed ?_
    dsimp only
    rw [if_pos foreign]
    exact Fails.of_throw _ _
  · apply Fails.bind
    refine Runs.bind_fails (runs_getDb w) ?_
    rw [waiters]
    dsimp only
    split
    · rename_i is
      exact absurd is onPostgres
    · exact Fails.bind checked

/-- The waiter, its job of this backend, has been asked for. -/
theorem runs_consumeBlockedJobPortably_given (mode : SlotHandoffMode) (L duration : Int)
    (now : Time) (numbered : SemaphoresNumbered w.db.semaphores)
    (computable : Computable env.config.family w.db key mode L duration now)
    (waiters : waitersOf w.db env.config.backendAlias key = x :: rest)
    (own : x.2.backendAlias = env.config.backendAlias) (given : gives w.db key mode L = true) :
    Runs (consumeBlockedJobPortably env mode key L duration now) w
      (some (blockedJobRef x.1 env.config.backendAlias, true))
      { w with db := (askedFor w.db env.config.family.evaluationOrder key mode L
        (now + seconds duration) now).withoutWaiter x.1 } := by
  have asked := runs_acquireHandoffSlot key env mode L duration now
    (w := { w with db := w.db.withoutWaiter x.1 }) numbered
    ⟨computable.deadline, computable.numbers⟩
  rw [show gives (w.db.withoutWaiter x.1) key mode L = true from given] at asked
  refine Runs.bind (runs_consumeNextBlockedJob waiters own) ?_
  dsimp only
  rw [if_neg (not_not_intro own)]
  exact Runs.bind asked (Runs.bind (runs_pure _ _) (runs_pure _ _))

/-- The limit is one of the numbers. -/
theorem HandoffFits.limit {db : Db} {mode : SlotHandoffMode} {L duration : Int} {now : Time}
    (fits : HandoffFits .postgresql db key mode L duration now) : int4 L = true := by
  have listed : L ∈ (mode.statement L (now + seconds duration) now).numbers .postgresql
      (db.findSemaphore key) := by
    cases mode <;> exact List.mem_cons_self
  exact List.all_eq_true.mp fits L listed

/-- The statement of PostgreSQL, its arguments checked. -/
theorem consumeNextBlockedJobWithReleasedSlot_checked {L duration : Int} {now : Time}
    (deadline : isDatetime (now + seconds duration) = true) (limit : int4 L = true)
    {consumed : Option ((BlockedExecution × Job) × Bool)} {w' : World}
    (run : Runs (match waitersOf w.db env.config.backendAlias key with
      | [] => pure none
      | blocked :: _ => do
          let updated ← updateSlots .postgresql key
            (handoffReleasedClaimedSlotStatement L (now + seconds duration) now)
          if updated = 0 then pure (some (blocked, false))
          else do
            let _ ← deleteRowsWhere .blocked (fun r => r.id == blocked.1.id)
            pure (some (blocked, true))) w consumed w') :
    Runs (consumeNextBlockedJobWithReleasedSlot env key L duration now) w consumed w' :=
  Runs.bind (runs_addSeconds deadline w) (Runs.bind (runs_getDb w)
    (Runs.bind (runs_ensureFits (by simpa [BackendFamily.holds] using limit) w) run))

/-- The PostgreSQL statement deletes the waiter only where it got the slot. -/
theorem runs_consumeNextBlockedJobWithReleasedSlot (L duration : Int) (now : Time)
    (numbered : SemaphoresNumbered w.db.semaphores)
    (computable : Computable .postgresql w.db key .releaseClaimed L duration now)
    (waiters : waitersOf w.db env.config.backendAlias key = x :: rest) :
    Runs (consumeNextBlockedJobWithReleasedSlot env key L duration now) w
      (some (x, gives w.db key .releaseClaimed L))
      { w with db := (if gives w.db key .releaseClaimed L then
        (askedFor w.db .simultaneous key .releaseClaimed L (now + seconds duration)
          now).withoutWaiter x.1 else w.db) } := by
  apply consumeNextBlockedJobWithReleasedSlot_checked computable.deadline computable.numbers.limit
  rw [waiters]
  refine Runs.bind (runs_updateSlots computable.numbers
    (runs_updateSemaphore .simultaneous key _ w)) ?_
  have updated : decide (0 < w.db.semaphores.rows.countP (fun r => r.key == key &&
      (handoffReleasedClaimedSlotUpdate L (now + seconds duration) now).filter r)) =
      gives w.db key .releaseClaimed L :=
    (countP_pos numbered _).trans (gives_eq w.db key .releaseClaimed L _ now)
  cases given : gives w.db key .releaseClaimed L with
  | true =>
      rw [given, decide_eq_true_eq] at updated
      rw [show (handoffReleasedClaimedSlotStatement L (now + seconds duration) now).update =
        handoffReleasedClaimedSlotUpdate L (now + seconds duration) now from rfl,
        if_neg (Nat.ne_of_gt updated), if_pos rfl]
      exact Runs.bind (runs_deleteRowsWhere .blocked _ _) (runs_pure _ _)
  | false =>
      have same := askedFor_of_refused .simultaneous numbered given (now + seconds duration) now
      rw [given, decide_eq_false_iff_not] at updated
      rw [show (handoffReleasedClaimedSlotStatement L (now + seconds duration) now).update =
        handoffReleasedClaimedSlotUpdate L (now + seconds duration) now from rfl,
        if_pos (Nat.eq_zero_of_not_pos updated), if_neg Bool.false_ne_true]
      rw [show w.db.saveSemaphore key ((handoffReleasedClaimedSlotUpdate L
        (now + seconds duration) now).run .simultaneous) = w.db from same]
      exact runs_pure _ _

/-- A deadline beyond the range of dates. -/
theorem fails_consumeNextBlockedJobWithReleasedSlot_deadline (L : Int) {duration : Int} {now : Time}
    (beyond : isDatetime (now + seconds duration) = false) :
    Fails (consumeNextBlockedJobWithReleasedSlot env key L duration now) w dateOutOfRange :=
  Fails.bind (fails_addSeconds beyond w)

/-- A limit beyond the range of the column. -/
theorem fails_consumeNextBlockedJobWithReleasedSlot_limit {L duration : Int} {now : Time}
    (deadline : isDatetime (now + seconds duration) = true) (beyond : int4 L = false) :
    Fails (consumeNextBlockedJobWithReleasedSlot env key L duration now) w
      (BackendFamily.outOfRange .postgresql) :=
  Runs.bind_fails (runs_addSeconds deadline w) (Runs.bind_fails (runs_getDb w)
    (Fails.bind (fails_ensureFits (by simpa [BackendFamily.holds] using beyond) w)))

theorem fails_consumeNextBlockedJobWithReleasedSlot_numbers {L duration : Int} {now : Time}
    (deadline : isDatetime (now + seconds duration) = true)
    (beyond : ¬ HandoffFits .postgresql w.db key .releaseClaimed L duration now)
    (waiters : waitersOf w.db env.config.backendAlias key = x :: rest) :
    Fails (consumeNextBlockedJobWithReleasedSlot env key L duration now) w
      (BackendFamily.outOfRange .postgresql) := by
  cases limit : int4 L with
  | false => exact fails_consumeNextBlockedJobWithReleasedSlot_limit deadline limit
  | true =>
      refine Runs.bind_fails (runs_addSeconds deadline w) (Runs.bind_fails (runs_getDb w)
        (Runs.bind_fails (runs_ensureFits (by simpa [BackendFamily.holds] using limit) w) ?_))
      rw [waiters]
      exact Fails.bind (fails_updateSlots (Bool.eq_false_of_not_eq_true beyond))

/-- The statement consumes the first waiter and its slot. -/
theorem runs_consumeBlockedJobOnPostgres (L duration : Int) (now : Time)
    (numbered : SemaphoresNumbered w.db.semaphores)
    (computable : Computable .postgresql w.db key .releaseClaimed L duration now)
    (waiters : waitersOf w.db env.config.backendAlias key = x :: rest)
    (own : x.2.backendAlias = env.config.backendAlias) :
    Runs (consumeBlockedJobOnPostgres env key L duration now) w
      (some (blockedJobRef x.1 env.config.backendAlias, gives w.db key .releaseClaimed L))
      { w with db := (if gives w.db key .releaseClaimed L then
        (askedFor w.db .simultaneous key .releaseClaimed L (now + seconds duration)
          now).withoutWaiter x.1 else w.db) } := by
  refine Runs.bind
    (runs_consumeNextBlockedJobWithReleasedSlot L duration now numbered computable waiters) ?_
  dsimp only
  rw [if_neg (not_not_intro own)]
  exact runs_pure _ _

/-- A waiter of another backend is refused. -/
theorem fails_consumeBlockedJobOnPostgres_foreign (L duration : Int) (now : Time)
    (numbered : SemaphoresNumbered w.db.semaphores)
    (computable : Computable .postgresql w.db key .releaseClaimed L duration now)
    (waiters : waitersOf w.db env.config.backendAlias key = x :: rest)
    (foreign : x.2.backendAlias ≠ env.config.backendAlias) :
    Fails (consumeBlockedJobOnPostgres env key L duration now) w
      (belongsToBackend x.1.jobId x.2.backendAlias) := by
  refine Runs.bind_fails
    (runs_consumeNextBlockedJobWithReleasedSlot L duration now numbered computable waiters) ?_
  dsimp only
  rw [if_pos foreign]
  exact Fails.of_throw _ _

/-- A waiter that is asked for a slot whose deadline or numbers are out of range. -/
theorem fails_consumeBlockedJobPortably_asked {mode : SlotHandoffMode} {L duration : Int}
    {now : Time} {e : PyError}
    (waiters : waitersOf w.db env.config.backendAlias key = x :: rest)
    (own : x.2.backendAlias = env.config.backendAlias)
    (asked : Fails (acquireHandoffSlot env mode key L duration now)
      { w with db := w.db.withoutWaiter x.1 } e) :
    Fails (consumeBlockedJobPortably env mode key L duration now) w e := by
  refine Runs.bind_fails (runs_consumeNextBlockedJob waiters own) ?_
  dsimp only
  rw [if_neg (not_not_intro own)]
  exact Fails.bind asked

/-- The blocked row put back as it was. -/
theorem blockedExecutionRow_waiter (backendAlias : String) (blocked : BlockedExecution) :
    blockedExecutionRow (blockedJobRef blocked backendAlias) backendAlias
      (some blocked.concurrencyKey) blocked.expiresAt (some blocked.queueName)
      (some blocked.priority) = .ok (restoredRow backendAlias blocked 0) := by
  have own : executionBackendAlias (blockedJobRef blocked backendAlias) backendAlias =
      .ok backendAlias := if_neg (not_not_intro rfl)
  unfold blockedExecutionRow
  rw [own]
  rfl

/-- The portable path puts a waiter that got no slot back, unless its job is somewhere else. -/
theorem runs_consumeBlockedJobPortably_refused (mode : SlotHandoffMode) (L duration : Int)
    (now : Time) (numbered : SemaphoresNumbered w.db.semaphores)
    (places : WaitersNumbered w.db.blocked)
    (computable : Computable env.config.family w.db key mode L duration now)
    (waiters : waitersOf w.db env.config.backendAlias key = x :: rest)
    (own : x.2.backendAlias = env.config.backendAlias) (refused : gives w.db key mode L = false)
    (free : w.db.hasOtherState x.1.jobId = false) :
    Runs (consumeBlockedJobPortably env mode key L duration now) w
      (some (blockedJobRef x.1 env.config.backendAlias, false))
      { w with
        db := (w.db.withoutWaiter x.1).withRestored env.config.backendAlias x.1
        clock := fun n => w.clock (n + 1) } := by
  have inside := (mem_waitersOf (x := x)).mp (by rw [waiters]; exact List.mem_cons_self)
  have asked := runs_acquireHandoffSlot key env mode L duration now
    (w := { w with db := w.db.withoutWaiter x.1 }) numbered
    ⟨computable.deadline, computable.numbers⟩
  have left : gives (w.db.withoutWaiter x.1) key mode L = false := refused
  rw [left, askedFor_of_refused _ (by exact numbered) left] at asked
  have waiting := Db.hasState_withoutWaiter places inside.1
  have job : ((w.db.withoutWaiter x.1).findJob x.1.jobId).isSome := by
    rw [Db.findJob_withoutWaiter, inside.2.2.2]
    rfl
  have restored : Runs (restoreBlockedExecution x.1 env.config.backendAlias)
      { w with db := w.db.withoutWaiter x.1 } ()
      { w with
        db := (w.db.withoutWaiter x.1).withRestored env.config.backendAlias x.1
        clock := fun n => w.clock (n + 1) } := by
    refine Runs.bind (runs_ensureJobIdsHaveNoOtherExecutionState fun id mem m _ => ?_) ?_
    · rw [List.mem_singleton.mp mem]
      by_cases isBlocked : m = .blocked
      · rw [isBlocked]
        exact waiting
      · have elsewhere : (w.db.withoutWaiter x.1).hasOtherState x.1.jobId = false := free
        exact Db.hasOtherState_eq_false.mp elsewhere m isBlocked
    · refine Runs.bind (runs_ofExcept (blockedExecutionRow_waiter _ x.1) _) ?_
      exact runs_createRow_from (m := .blocked) { w with db := w.db.withoutWaiter x.1 } job waiting
  refine Runs.bind (runs_consumeNextBlockedJob waiters own) ?_
  dsimp only
  rw [if_neg (not_not_intro own)]
  exact Runs.bind asked (Runs.bind restored (runs_pure _ _))

/-- A waiter with another state row is refused. -/
theorem fails_consumeBlockedJobPortably_stateful (mode : SlotHandoffMode) (L duration : Int)
    (now : Time) (numbered : SemaphoresNumbered w.db.semaphores)
    (computable : Computable env.config.family w.db key mode L duration now)
    (waiters : waitersOf w.db env.config.backendAlias key = x :: rest)
    (own : x.2.backendAlias = env.config.backendAlias) (refused : gives w.db key mode L = false)
    (stateful : w.db.hasOtherState x.1.jobId = true) :
    Fails (consumeBlockedJobPortably env mode key L duration now) w
      (alreadyHasState x.1.jobId) := by
  have inside := (mem_waitersOf (x := x)).mp (by rw [waiters]; exact List.mem_cons_self)
  have asked := runs_acquireHandoffSlot key env mode L duration now
    (w := { w with db := w.db.withoutWaiter x.1 }) numbered
    ⟨computable.deadline, computable.numbers⟩
  have left : gives (w.db.withoutWaiter x.1) key mode L = false := refused
  rw [left, askedFor_of_refused _ (by exact numbered) left] at asked
  have job : ((w.db.withoutWaiter x.1).findJob x.1.jobId).isSome := by
    rw [Db.findJob_withoutWaiter, inside.2.2.2]
    rfl
  have conflict : Fails (restoreBlockedExecution x.1 env.config.backendAlias)
      { w with db := w.db.withoutWaiter x.1 } (alreadyHasState x.1.jobId) :=
    Fails.bind (Fails.of_runIf rfl (fails_ensureNoOtherExecutionState job stateful))
  refine Runs.bind_fails (runs_consumeNextBlockedJob waiters own) ?_
  dsimp only
  rw [if_neg (not_not_intro own)]
  exact Runs.bind_fails asked (Fails.bind (Fails.of_runIf rfl conflict))

end Consuming

/-! ## Unblocking -/

section Unblocking

variable {env : Env} {key : String} {L duration : Int} {mode : SlotHandoffMode} {w : World}
  {x : BlockedExecution × Job} {rest : List (BlockedExecution × Job)}

/-- What follows the first reading of the clock. -/
def World.tick (w : World) : World := { w with clock := fun n => w.clock (n + 1) }

theorem runs_insertReadyAfterBlockedConsume (backendAlias : String) (readyAt : Time)
    (job : (w.db.findJob x.1.jobId).isSome) (free : w.db.hasOtherState x.1.jobId = false) :
    Runs (createReadyExecutionAfterBlockedConsume (blockedJobRef x.1 backendAlias) backendAlias
      readyAt) w () { w with db := w.db.withPromoted backendAlias readyAt x.1 } := by
  have inserted : Runs (insertReadyAfterBlockedConsume (blockedJobRef x.1 backendAlias)
      backendAlias x.1.queueName x.1.priority readyAt) w 1
      { w with db := w.db.withPromoted backendAlias readyAt x.1 } := by
    refine Runs.bind (runs_getDb w) ?_
    split
    · rename_i stateful
      exact absurd (free.symm.trans stateful) Bool.false_ne_true
    refine Runs.bind (a := ()) (Runs.bind (runs_getDb w) ?_) (runs_pure _ _)
    rw [if_neg]
    · exact runs_modifyDb _ _
    · have ready := Db.hasOtherState_eq_false.mp free .ready (by decide)
      rw [show w.db.hasState .ready (blockedJobRef x.1 backendAlias).id = false from ready,
        Bool.or_false, Option.isNone_iff_eq_none]
      exact Option.isSome_iff_ne_none.mp job
  exact Runs.bind inserted (runs_pure _ _)

/-- A waiter whose job has another state row is not made ready. -/
theorem fails_insertReadyAfterBlockedConsume (backendAlias : String) (readyAt : Time)
    (stateful : w.db.hasOtherState x.1.jobId = true) :
    Fails (createReadyExecutionAfterBlockedConsume (blockedJobRef x.1 backendAlias) backendAlias
      readyAt) w (alreadyHasState x.1.jobId) := by
  have inserted : Runs (insertReadyAfterBlockedConsume (blockedJobRef x.1 backendAlias)
      backendAlias x.1.queueName x.1.priority readyAt) w 0 w := by
    refine Runs.bind (runs_getDb w) ?_
    split
    · exact runs_pure _ _
    · rename_i free
      exact absurd stateful free
  exact Runs.bind_fails inserted (Fails.of_runIf rfl (Fails.of_throw _ _))

/-- The tables once the waiter has its slot and stands in the ready table. -/
def handedOver (db : Db) (env : Env) (key : String) (mode : SlotHandoffMode) (L duration : Int)
    (now : Time) (blocked : BlockedExecution) : Db :=
  ((askedFor db env.config.family.evaluationOrder key mode L (now + seconds duration)
    now).withoutWaiter blocked).withPromoted env.config.backendAlias now blocked

/-- Also where nobody waits PostgreSQL's statement takes its deadline and its limit. -/
def CallFits (env : Env) (mode : SlotHandoffMode) (L duration : Int) (now : Time) : Prop :=
  mode = .releaseClaimed ∧ env.config.family = .postgresql →
    isDatetime (now + seconds duration) = true ∧ int4 L = true

/-- The call fits where its numbers do. -/
theorem Computable.callFits {db : Db} {now : Time}
    (computable : Computable env.config.family db key mode L duration now) :
    CallFits env mode L duration now := by
  rintro ⟨-, onPostgres⟩
  have numbers := computable.numbers
  rw [onPostgres] at numbers
  exact ⟨computable.deadline, numbers.limit⟩

theorem runs_unblockNextBlockedJob_nobody (fits : CallFits env mode L duration (w.clock 0))
    (nobody : waitersOf w.db env.config.backendAlias key = []) :
    Runs (unblockNextBlockedJob env key L duration mode) w none w.tick := by
  refine Runs.bind (runs_timezoneNow w) (runs_atomic ?_)
  refine Runs.bind (a := none) (m := w.tick) ?_ (runs_pure _ _)
  unfold consumeBlockedJobForSlot
  split
  · rename_i path
    refine Runs.bind (a := none) (m := w.tick) ?_ (runs_pure _ _)
    apply consumeNextBlockedJobWithReleasedSlot_checked (fits path).1 (fits path).2
    dsimp only
    rw [nobody]
    exact runs_pure _ _
  · exact Runs.bind (runs_consumeNextBlockedJob_nobody nobody) (runs_pure _ _)

theorem runs_consumeBlockedJobForSlot_given (now : Time)
    (numbered : SemaphoresNumbered w.db.semaphores)
    (computable : Computable env.config.family w.db key mode L duration now)
    (waiters : waitersOf w.db env.config.backendAlias key = x :: rest)
    (own : x.2.backendAlias = env.config.backendAlias) (given : gives w.db key mode L = true) :
    Runs (consumeBlockedJobForSlot env mode key L duration now) w
      (some (blockedJobRef x.1 env.config.backendAlias, true))
      { w with db := (askedFor w.db env.config.family.evaluationOrder key mode L
        (now + seconds duration) now).withoutWaiter x.1 } := by
  unfold consumeBlockedJobForSlot
  split
  · rename_i path
    rw [path.1, path.2] at computable
    have onPostgres := runs_consumeBlockedJobOnPostgres L duration now numbered computable waiters own
    rw [path.1] at given ⊢
    rw [path.2]
    rw [given, if_pos rfl] at onPostgres
    exact onPostgres
  · exact runs_consumeBlockedJobPortably_given mode L duration now numbered computable waiters own
      given

/-- The first waiter gets the slot. -/
theorem runs_unblockNextBlockedJob_given (numbered : SemaphoresNumbered w.db.semaphores)
    (computable : Computable env.config.family w.db key mode L duration (w.clock 0))
    (waiters : waitersOf w.db env.config.backendAlias key = x :: rest)
    (own : x.2.backendAlias = env.config.backendAlias) (given : gives w.db key mode L = true)
    (free : w.db.hasOtherState x.1.jobId = false) :
    Runs (unblockNextBlockedJob env key L duration mode) w
      (some (blockedJobRef x.1 env.config.backendAlias))
      { w.tick with db := handedOver w.db env key mode L duration (w.clock 0) x.1 } := by
  have inside := (mem_waitersOf (x := x)).mp (by rw [waiters]; exact List.mem_cons_self)
  refine Runs.bind (runs_timezoneNow w) (runs_atomic ?_)
  refine Runs.bind (runs_consumeBlockedJobForSlot_given (w := w.tick) _ numbered computable waiters
    own given) ?_
  refine Runs.bind (runs_insertReadyAfterBlockedConsume _ _ ?_ free) (runs_pure _ _)
  have job : (w.db.findJob x.1.jobId).isSome := by
    rw [inside.2.2.2]
    rfl
  exact job

theorem findSemaphore_handedOver (env : Env) {db : Db} {mode : SlotHandoffMode} (now : Time)
    (blocked : BlockedExecution) :
    (handedOver db env key mode L duration now blocked).findSemaphore key =
      (db.findSemaphore key).map ((mode.update L (now + seconds duration) now).run
        env.config.family.evaluationOrder) := by
  cases mode with
  | releaseClaimed =>
      exact find?_updateWhere_key fun r =>
        (sameRow_handoffReleasedClaimedSlotUpdate L _ _ _ r).1
  | consumeReleased =>
      exact find?_updateWhere_key fun r =>
        (sameRow_consumeReleasedSemaphoreSlotUpdate L _ _ _ r).1

end Unblocking

end DjQueue
