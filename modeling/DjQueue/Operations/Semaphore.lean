import DjQueue.Operations.Helpers
import DjQueue.Relational.Update

/-!
# Semaphore slots

The slot operations of `operations/concurrency.py` on one semaphore row, with the three
implementations of `semaphore_acquire`: the ORM one that runs on SQLite, the PostgreSQL
statement of data-modifying CTEs, and the MySQL upsert whose assignments run left to
right.  ORM updates are `Relational.Update`s, evaluated in the order of the database
they run on.
-/

namespace DjQueue

open Relational

/-! ## Column expressions -/

/-- `_reconciled_available_expression`: the free slots under a new limit. -/
def reconciledAvailable (limit : Int) (row : Semaphore) : Int :=
  min limit (max 0 (row.value + limit - row.limit))

/-- `_released_available_expression`: the free slots once one more is given back. -/
def releasedAvailable (limit : Int) (row : Semaphore) : Int :=
  min limit (max 0 (row.value + limit - row.limit + 1))

namespace Semaphore

/-- `value = …` -/
def setValue (e : Semaphore → Int) : Assignment Semaphore :=
  ⟨fun source target => { target with value := e source }⟩

/-- `active_count = …` -/
def setActiveCount (e : Semaphore → Int) : Assignment Semaphore :=
  ⟨fun source target => { target with activeCount := some (e source) }⟩

/-- `limit = …` -/
def setLimit (e : Semaphore → Int) : Assignment Semaphore :=
  ⟨fun source target => { target with limit := e source }⟩

/-- `expires_at = …` -/
def setExpiresAt (e : Semaphore → Time) : Assignment Semaphore :=
  ⟨fun source target => { target with expiresAt := e source }⟩

/-- `updated_at = …` -/
def setUpdatedAt (e : Semaphore → Time) : Assignment Semaphore :=
  ⟨fun source target => { target with updatedAt := e source }⟩

end Semaphore

open Semaphore

/-- Which row the right sides of a `SET` read. -/
def BackendFamily.evaluationOrder : BackendFamily → EvaluationOrder
  | .postgresql | .sqlite => .simultaneous
  | .mysql | .mariadb => .leftToRight

/-! ## ORM updates -/

/-- The update of `semaphore_release` -/
def semaphoreReleaseUpdate (limit : Int) (expiresAt now : Time) : Update Semaphore where
  filter _ := true
  assignments := [
    setValue (releasedAvailable limit),
    setActiveCount (fun r => limit - releasedAvailable limit r),
    setLimit (fun _ => limit),
    setExpiresAt (fun _ => expiresAt),
    setUpdatedAt (fun _ => now)]

/-- The update of `_consume_released_semaphore_slot` -/
def consumeReleasedSemaphoreSlotUpdate (limit : Int) (expiresAt now : Time) :
    Update Semaphore where
  filter r := 0 < r.value
  assignments := [
    setValue (fun r => r.value - 1),
    setActiveCount (fun r => limit - r.value + 1),
    setLimit (fun _ => limit),
    setExpiresAt (fun _ => expiresAt),
    setUpdatedAt (fun _ => now)]

/-- The update of `_handoff_released_claimed_slot` -/
def handoffReleasedClaimedSlotUpdate (limit : Int) (expiresAt now : Time) :
    Update Semaphore where
  filter r := r.limit - limit - 1 < r.value
  assignments := [
    setValue (fun r => releasedAvailable limit r - 1),
    setActiveCount (fun r => limit - releasedAvailable limit r + 1),
    setLimit (fun _ => limit),
    setExpiresAt (fun _ => expiresAt),
    setUpdatedAt (fun _ => now)]

/-- The ORM `semaphore_acquire`'s first update: take a slot. -/
def acquireUpdate (limit : Int) (expiresAt now : Time) : Update Semaphore where
  filter r := r.limit - limit < r.value
  assignments := [
    setValue (fun r => reconciledAvailable limit r - 1),
    setActiveCount (fun r => limit - reconciledAvailable limit r + 1),
    setLimit (fun _ => limit),
    setExpiresAt (fun _ => expiresAt),
    setUpdatedAt (fun _ => now)]

/-- The ORM `semaphore_acquire`'s second update: no slot, bring the row to the new limit. -/
def reconcileUpdate (limit : Int) (now : Time) : Update Semaphore where
  filter r :=
    r.value < reconciledAvailable limit r || reconciledAvailable limit r < r.value ||
      r.activeCount.isNone || r.activeCount ≠ some (limit - reconciledAvailable limit r) ||
      r.limit ≠ limit
  assignments := [
    setValue (reconciledAvailable limit),
    setActiveCount (fun r => limit - reconciledAvailable limit r),
    setLimit (fun _ => limit),
    setUpdatedAt (fun _ => now)]

/-- Rewrite the key's row. -/
def saveSemaphore (key : String) (f : Semaphore → Semaphore) : Op Unit :=
  modifyDb (fun db => { db with
    semaphores := db.semaphores.updateWhere (fun r => r.key == key) f })

/-- An `UPDATE` of the key's row; returns the number of rows updated. -/
def updateSemaphore (order : EvaluationOrder) (key : String) (u : Update Semaphore) : Op Nat := do
  let db ← getDb
  saveSemaphore key (u.run order)
  pure (db.semaphores.rows.countP (fun r => r.key == key && u.filter r))

/-! ## Numbers out of range -/

/-- The integer columns of a row. -/
def Semaphore.columns (r : Semaphore) : List Int := r.value :: r.limit :: r.activeCount.toList

/-- What PostgreSQL computes, in 32 bits, on its way to the free slots under a new limit.  The
rest of the expressions stays between 0 and the limit. -/
def reconciledSteps (limit : Int) (r : Semaphore) : List Int :=
  [r.value + limit, r.value + limit - r.limit]

/-- The same with one more slot given back. -/
def releasedSteps (limit : Int) (r : Semaphore) : List Int :=
  reconciledSteps limit r ++ [r.value + limit - r.limit + 1]

/-- An `UPDATE` of the slots of a key: the numbers its `WHERE` computes of the key's row, and
those its assignments compute of a row they change. -/
structure SlotStatement where
  limit : Int
  update : Update Semaphore
  filterSteps : Semaphore → List Int
  steps : Semaphore → List Int

/-- The numbers a statement computes or stores, with the key's row if there is one.  PostgreSQL
also folds the limit it assigns while it plans; SQLite takes it as a parameter, and MySQL computes
in 64 bits. -/
def SlotStatement.numbers (family : BackendFamily) (s : SlotStatement) (row : Option Semaphore) :
    List Int :=
  let matched := row.toList.filter s.update.filter
  let written := matched.flatMap (fun r =>
    (assign family.evaluationOrder s.update.assignments r).columns)
  match family with
  | .sqlite => [s.limit]
  | .mysql | .mariadb => written
  | .postgresql => s.limit :: (row.toList.flatMap s.filterSteps ++ matched.flatMap s.steps ++ written)

/-- The statement of `semaphore_release`, with the numbers it computes. -/
def semaphoreReleaseStatement (limit : Int) (expiresAt now : Time) : SlotStatement where
  limit := limit
  update := semaphoreReleaseUpdate limit expiresAt now
  filterSteps _ := []
  steps := releasedSteps limit

/-- The statement of `_consume_released_semaphore_slot` -/
def consumeReleasedSemaphoreSlotStatement (limit : Int) (expiresAt now : Time) :
    SlotStatement where
  limit := limit
  update := consumeReleasedSemaphoreSlotUpdate limit expiresAt now
  filterSteps _ := []
  steps r := [r.value - 1, limit - r.value, limit - r.value + 1]

/-- The statement of `_handoff_released_claimed_slot` -/
def handoffReleasedClaimedSlotStatement (limit : Int) (expiresAt now : Time) :
    SlotStatement where
  limit := limit
  update := handoffReleasedClaimedSlotUpdate limit expiresAt now
  filterSteps r := [r.limit - limit, r.limit - limit - 1]
  steps := releasedSteps limit

/-- An `UPDATE` of the slots of a key; returns the number of rows updated. -/
def updateSlots (family : BackendFamily) (key : String) (s : SlotStatement) : Op Nat := do
  let db ← getDb
  ensureFits family (s.numbers family (db.findSemaphore key))
  updateSemaphore family.evaluationOrder key s.update

/-- A semaphore that is created. -/
def insertSemaphore (mk : Nat → Semaphore) : Op Unit :=
  modifyDb (fun db => { db with semaphores := db.semaphores.insert mk })

/-- The row of a key that had none. -/
def newSemaphore (key : String) (limit acquired : Int) (expiresAt now : Time) (id : Nat) :
    Semaphore where
  id := id
  key := key
  value := limit - acquired
  activeCount := some acquired
  limit := limit
  expiresAt := expiresAt
  updatedAt := now

/-! ## `semaphore_acquire` -/

/-- `create_ignore_conflicts`, then the two ORM updates. -/
def semaphoreAcquireSqlite (key : String) (limit : Int) (expiresAt now : Time) : Op Bool := do
  let stamp ← timezoneNow
  let db ← getDb
  match db.findSemaphore key with
  | none => do
      insertSemaphore (newSemaphore key limit 1 expiresAt stamp)
      pure true
  | some _ => do
      let updated ← updateSemaphore .simultaneous key (acquireUpdate limit expiresAt now)
      if updated ≠ 0 then pure true
      else do
        let _ ← updateSemaphore .simultaneous key (reconcileUpdate limit now)
        pure false

/-- The conflict arm of the PostgreSQL statement: `acquired` updates the row when its `WHERE`
holds, else `reconciled` does, on the same snapshot. -/
def postgresConflict (limit : Int) (expiresAt now : Time) (r : Semaphore) : Bool × Semaphore :=
  let available := reconciledAvailable limit r
  if r.limit - limit < r.value then
    (true, { r with value := available - 1, activeCount := some (limit - (available - 1)),
                    limit := limit, expiresAt := expiresAt, updatedAt := now })
  else if r.value ≠ available || r.activeCount ≠ some (limit - available) || r.limit ≠ limit then
    (false, { r with value := available, activeCount := some (limit - available),
                     limit := limit, updatedAt := now })
  else (false, r)

/-- `semaphore_acquire` of PostgreSQL: an insert with a conflict update. -/
def semaphoreAcquirePostgres (key : String) (limit : Int) (expiresAt now : Time) : Op Bool := do
  let db ← getDb
  match db.findSemaphore key with
  | none => do
      insertSemaphore (newSemaphore key limit 1 expiresAt now)
      pure true
  | some row => do
      saveSemaphore key (fun r => (postgresConflict limit expiresAt now r).2)
      pure (postgresConflict limit expiresAt now row).1

/-- The row and the session's `LAST_INSERT_ID`, which the upsert's assignments set. -/
structure UpsertState where
  row : Semaphore
  lastInsertId : Nat
deriving DecidableEq, Repr

/-- The MySQL upsert's `should_touch`. -/
def shouldTouch (limit : Int) (r : Semaphore) : Bool :=
  0 < reconciledAvailable limit r || r.value ≠ reconciledAvailable limit r ||
    r.activeCount.isNone || r.activeCount ≠ some (limit - reconciledAvailable limit r) ||
    r.limit ≠ limit

/-- The slot count the upsert leaves. -/
def upsertValue (limit : Int) (r : Semaphore) : Int :=
  if 0 < reconciledAvailable limit r then reconciledAvailable limit r - 1
  else reconciledAvailable limit r

/-- `ON DUPLICATE KEY UPDATE`: the key column keeps its value and reports the outcome through
`LAST_INSERT_ID`; `value` and `limit`, which the other expressions read, come last. -/
def upsertAssignments (limit : Int) (expiresAt now : Time) : List (Assignment UpsertState) := [
  ⟨fun s t => { t with row := { t.row with
    expiresAt := if 0 < reconciledAvailable limit s.row then expiresAt else s.row.expiresAt } }⟩,
  ⟨fun s t => { t with row := { t.row with
    updatedAt := if shouldTouch limit s.row then now else s.row.updatedAt } }⟩,
  ⟨fun s t => { t with
    lastInsertId := if 0 < reconciledAvailable limit s.row then s.row.id else 0 }⟩,
  ⟨fun s t => { t with row := { t.row with
    activeCount := some (limit - upsertValue limit s.row) } }⟩,
  ⟨fun s t => { t with row := { t.row with value := upsertValue limit s.row } }⟩,
  ⟨fun _ t => { t with row := { t.row with limit := limit } }⟩]

/-- The row an upsert leaves where there was one, with the session variable. -/
def mysqlConflict (limit : Int) (expiresAt now : Time) (r : Semaphore) : UpsertState :=
  assign .leftToRight (upsertAssignments limit expiresAt now) ⟨r, 0⟩

/-- `semaphore_acquire` of MySQL: an upsert that counts its changes. -/
def semaphoreAcquireMysql (key : String) (limit : Int) (expiresAt now : Time) : Op Bool := do
  let db ← getDb
  match db.findSemaphore key with
  | none => do
      insertSemaphore (newSemaphore key limit 1 expiresAt now)
      pure (db.semaphores.nextId ≠ 0)
  | some row => do
      saveSemaphore key (fun r => (mysqlConflict limit expiresAt now r).row)
      pure ((mysqlConflict limit expiresAt now row).lastInsertId ≠ 0)

/-- The numbers `semaphore_acquire` computes or stores, with the key's row if there is one.  What it
assigns to a row lies between 0 and the limit. -/
def acquireNumbers (family : BackendFamily) (limit : Int) (row : Option Semaphore) : List Int :=
  limit :: (limit - 1) :: match family with
    | .postgresql => row.toList.flatMap (fun r => (r.limit - limit) :: reconciledSteps limit r)
    | .mysql | .mariadb | .sqlite => []

/-- The implementation of the database. -/
def familySemaphoreAcquire (family : BackendFamily) (key : String) (limit : Int)
    (expiresAt now : Time) : Op Bool :=
  match family with
  | .postgresql => semaphoreAcquirePostgres key limit expiresAt now
  | .mysql | .mariadb => semaphoreAcquireMysql key limit expiresAt now
  | .sqlite => semaphoreAcquireSqlite key limit expiresAt now

/-- `semaphore_acquire` -/
def semaphoreAcquire (env : Env) (key : String) (limit durationSeconds : Int) : Op Bool := do
  let now ← timezoneNow
  let expiresAt ← MonadExcept.ofExcept (addSeconds now durationSeconds)
  let db ← getDb
  ensureFits env.config.family
    (acquireNumbers env.config.family limit (db.findSemaphore key))
  familySemaphoreAcquire env.config.family key limit expiresAt now

/-! ## `semaphore_acquire_many` -/

/-- How many of `count` slots the row can give under `limit`. -/
def acquirableCount (count limit : Int) (r : Semaphore) : Int :=
  min count (reconciledAvailable limit r)

/-- The row `semaphore_acquire_many` saves; `expires_at` moves only with a slot. -/
def acquireManyRow (count limit : Int) (expiresAt now : Time) (r : Semaphore) : Semaphore :=
  let acquired := acquirableCount count limit r
  let value := reconciledAvailable limit r - acquired
  let activeCount := limit - value
  if acquired ≠ 0 then
    { r with value := value, activeCount := some activeCount, limit := limit,
             expiresAt := expiresAt, updatedAt := now }
  else if r.value ≠ value || r.activeCount ≠ some activeCount || r.limit ≠ limit then
    { r with value := value, activeCount := some activeCount, limit := limit, updatedAt := now }
  else r

/-- The numbers `semaphore_acquire_many` stores; a row that it does not save has them already. -/
def acquireManyNumbers (count limit : Int) (expiresAt now : Time) : Option Semaphore → List Int
  | none => [limit - min count limit, min count limit, limit]
  | some r => (acquireManyRow count limit expiresAt now r).columns

/-- `semaphore_acquire_many` -/
def semaphoreAcquireMany (env : Env) (key : String) (count limit durationSeconds : Int) :
    Op Int :=
  if count ≤ 0 then pure 0
  else do
    let now ← timezoneNow
    let expiresAt ← MonadExcept.ofExcept (addSeconds now durationSeconds)
    let stamp ← timezoneNow
    let db ← getDb
    ensureFits env.config.family
      (acquireManyNumbers count limit expiresAt stamp (db.findSemaphore key))
    match db.findSemaphore key with
    | none => do
        insertSemaphore (newSemaphore key limit (min count limit) expiresAt stamp)
        pure (min count limit)
    | some row => do
        saveSemaphore key (acquireManyRow count limit expiresAt stamp)
        pure (acquirableCount count limit row)

/-! ## Releases -/

/-- `semaphore_release` -/
def semaphoreRelease (env : Env) (key : String) (limit durationSeconds : Int) : Op Bool := do
  let now ← timezoneNow
  let expiresAt ← MonadExcept.ofExcept (addSeconds now durationSeconds)
  let updated ← updateSlots env.config.family key (semaphoreReleaseStatement limit expiresAt now)
  pure (0 < updated)

/-- `_consume_released_semaphore_slot` -/
def consumeReleasedSemaphoreSlot (env : Env) (key : String) (limit durationSeconds : Int)
    (now : Time) : Op Bool := do
  let expiresAt ← MonadExcept.ofExcept (addSeconds now durationSeconds)
  let updated ← updateSlots env.config.family key
    (consumeReleasedSemaphoreSlotStatement limit expiresAt now)
  pure (0 < updated)

/-- `_handoff_released_claimed_slot` -/
def handoffReleasedClaimedSlot (env : Env) (key : String) (limit durationSeconds : Int)
    (now : Time) : Op Bool := do
  let expiresAt ← MonadExcept.ofExcept (addSeconds now durationSeconds)
  let updated ← updateSlots env.config.family key
    (handoffReleasedClaimedSlotStatement limit expiresAt now)
  pure (0 < updated)

/-! ## Calls that return -/

section Runs

variable {env : Env} {key : String} {limit duration : Int} {w w' : World}

/-- A statement that returns had numbers that fit. -/
theorem of_run_updateSlots {family : BackendFamily} {s : SlotStatement} {n : Nat}
    (run : Runs (updateSlots family key s) w n w') :
    (s.numbers family (w.db.findSemaphore key)).all family.holds = true ∧
      Runs (updateSemaphore family.evaluationOrder key s.update) w n w' := by
  obtain ⟨db, w₁, read, rest₁⟩ := Runs.of_bind run
  obtain ⟨rfl, rfl⟩ := of_run_getDb read
  obtain ⟨u, w₂, checked, rest₂⟩ := Runs.of_bind rest₁
  obtain ⟨fits, rfl⟩ := of_run_ensureFits checked
  exact ⟨fits, rest₂⟩

/-- A statement whose numbers fit writes its row. -/
theorem runs_updateSlots {family : BackendFamily} {s : SlotStatement} {n : Nat}
    (fits : (s.numbers family (w.db.findSemaphore key)).all family.holds = true)
    (run : Runs (updateSemaphore family.evaluationOrder key s.update) w n w') :
    Runs (updateSlots family key s) w n w' :=
  Runs.bind (runs_getDb w) (Runs.bind (runs_ensureFits fits w) run)

/-- A statement with a number that does not fit raises. -/
theorem fails_updateSlots {family : BackendFamily} {s : SlotStatement}
    (beyond : (s.numbers family (w.db.findSemaphore key)).all family.holds = false) :
    Fails (updateSlots family key s) w family.outOfRange :=
  Runs.bind_fails (runs_getDb w) (Fails.bind (fails_ensureFits beyond w))

/-- The one update a release, a hand-off or a consumption comes to. -/
theorem of_run_updated {family : BackendFamily} {now : Time} {s : Time → SlotStatement}
    {given : Bool}
    (run : Runs (do
      let expiresAt ← MonadExcept.ofExcept (addSeconds now duration)
      let updated ← updateSlots family key (s expiresAt)
      pure (decide (0 < updated))) w given w') :
    isDatetime (now + seconds duration) = true ∧
      ((s (now + seconds duration)).numbers family
        (w.db.findSemaphore key)).all family.holds = true ∧
      ∃ updated, given = decide (0 < updated) ∧
        Runs (updateSemaphore family.evaluationOrder key
          (s (now + seconds duration)).update) w updated w' := by
  obtain ⟨expiresAt, w₁, added, rest⟩ := Runs.of_bind run
  obtain ⟨rfl, inRange, rfl⟩ := of_run_addSeconds added
  obtain ⟨updated, w₂, update, done⟩ := Runs.of_bind rest
  obtain ⟨fits, update⟩ := of_run_updateSlots update
  obtain ⟨rfl, rfl⟩ := Runs.of_pure done
  exact ⟨inRange, fits, updated, rfl, update⟩

/-- A release that returns found its deadline and its numbers in range, and ran its `UPDATE`. -/
theorem checked_of_run_semaphoreRelease {released : Bool}
    (run : Runs (semaphoreRelease env key limit duration) w released w') :
    ∃ now w₁, Runs timezoneNow w now w₁ ∧ isDatetime (now + seconds duration) = true ∧
      ((semaphoreReleaseStatement limit (now + seconds duration) now).numbers env.config.family
        (w₁.db.findSemaphore key)).all env.config.family.holds = true ∧
      ∃ updated, released = decide (0 < updated) ∧
        Runs (updateSemaphore env.config.family.evaluationOrder key
          (semaphoreReleaseUpdate limit (now + seconds duration) now)) w₁ updated w' := by
  obtain ⟨now, w₁, ticked, rest⟩ := Runs.of_bind run
  exact ⟨now, w₁, ticked,
    of_run_updated (s := fun expiresAt => semaphoreReleaseStatement limit expiresAt now) rest⟩

/-- A slot that was taken back had a deadline that is a time. -/
theorem checked_of_run_consumeReleasedSemaphoreSlot {now : Time} {given : Bool}
    (run : Runs (consumeReleasedSemaphoreSlot env key limit duration now) w given w') :
    isDatetime (now + seconds duration) = true ∧
      ((consumeReleasedSemaphoreSlotStatement limit (now + seconds duration) now).numbers
        env.config.family (w.db.findSemaphore key)).all env.config.family.holds = true ∧
      ∃ updated, given = decide (0 < updated) ∧
        Runs (updateSemaphore env.config.family.evaluationOrder key
          (consumeReleasedSemaphoreSlotUpdate limit (now + seconds duration) now)) w updated w' :=
  of_run_updated (s := fun expiresAt =>
    consumeReleasedSemaphoreSlotStatement limit expiresAt now) run

/-- A slot that was handed over had a deadline that is a time. -/
theorem checked_of_run_handoffReleasedClaimedSlot {now : Time} {given : Bool}
    (run : Runs (handoffReleasedClaimedSlot env key limit duration now) w given w') :
    isDatetime (now + seconds duration) = true ∧
      ((handoffReleasedClaimedSlotStatement limit (now + seconds duration) now).numbers
        env.config.family (w.db.findSemaphore key)).all env.config.family.holds = true ∧
      ∃ updated, given = decide (0 < updated) ∧
        Runs (updateSemaphore env.config.family.evaluationOrder key
          (handoffReleasedClaimedSlotUpdate limit (now + seconds duration) now)) w updated w' :=
  of_run_updated (s := fun expiresAt =>
    handoffReleasedClaimedSlotStatement limit expiresAt now) run

/-- An acquire that returns found its deadline and its numbers in range. -/
theorem checked_of_run_semaphoreAcquire {acquired : Bool}
    (run : Runs (semaphoreAcquire env key limit duration) w acquired w') :
    ∃ now w₁, Runs timezoneNow w now w₁ ∧ isDatetime (now + seconds duration) = true ∧
      (acquireNumbers env.config.family limit (w₁.db.findSemaphore key)).all
        env.config.family.holds = true ∧
      Runs (familySemaphoreAcquire env.config.family key limit (now + seconds duration) now) w₁
        acquired w' := by
  obtain ⟨now, w₁, ticked, rest₁⟩ := Runs.of_bind run
  obtain ⟨expiresAt, w₂, added, rest₂⟩ := Runs.of_bind rest₁
  obtain ⟨rfl, inRange, rfl⟩ := of_run_addSeconds added
  obtain ⟨db, w₃, read, rest₃⟩ := Runs.of_bind rest₂
  obtain ⟨rfl, rfl⟩ := of_run_getDb read
  obtain ⟨u, w₄, checked, rest₄⟩ := Runs.of_bind rest₃
  obtain ⟨fits, rfl⟩ := of_run_ensureFits checked
  exact ⟨now, _, ticked, inRange, fits, rest₄⟩

/-- A group acquire that returns and was asked for something. -/
theorem checked_of_run_semaphoreAcquireMany {count acquired : Int} (asks : ¬ count ≤ 0)
    (run : Runs (semaphoreAcquireMany env key count limit duration) w acquired w') :
    ∃ now stamp w₁, w₁.db = w.db ∧ isDatetime (now + seconds duration) = true ∧
      (acquireManyNumbers count limit (now + seconds duration) stamp
        (w₁.db.findSemaphore key)).all env.config.family.holds = true ∧
      Runs (match w₁.db.findSemaphore key with
        | none => do
            insertSemaphore
              (newSemaphore key limit (min count limit) (now + seconds duration) stamp)
            pure (min count limit)
        | some row => do
            saveSemaphore key (acquireManyRow count limit (now + seconds duration) stamp)
            pure (acquirableCount count limit row)) w₁ acquired w' := by
  unfold semaphoreAcquireMany at run
  rw [if_neg asks] at run
  obtain ⟨now, w₁, ticked, rest₁⟩ := Runs.of_bind run
  obtain ⟨expiresAt, w₂, added, rest₂⟩ := Runs.of_bind rest₁
  obtain ⟨rfl, inRange, rfl⟩ := of_run_addSeconds added
  obtain ⟨stamp, w₃, ticked', rest₃⟩ := Runs.of_bind rest₂
  obtain ⟨db, w₄, read, rest₄⟩ := Runs.of_bind rest₃
  obtain ⟨rfl, rfl⟩ := of_run_getDb read
  obtain ⟨u, w₅, checked, rest₅⟩ := Runs.of_bind rest₄
  obtain ⟨fits, rfl⟩ := of_run_ensureFits checked
  exact ⟨now, stamp, _, (of_run_timezoneNow ticked').trans (of_run_timezoneNow ticked), inRange,
    fits, rest₅⟩

end Runs

end DjQueue
