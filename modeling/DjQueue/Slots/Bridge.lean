import DjQueue.Slots.Calls
import DjQueue.Slots.Rows
import DjQueue.Relational.TwoRuns

/-!
# The bridge column

`active_count` is kept for processes of the release before, which count the other way round, and
such a process may leave anything in it.  Two databases that differ in that column, and in the
times the rows were touched, are told apart by no sequence of slot operations.
-/

namespace DjQueue

open Relational

/-! ## Databases that differ in the bridge column -/

/-- The columns besides the bridge count and the time of the last write. -/
def Semaphore.withoutBridge (r : Semaphore) : Semaphore :=
  { r with activeCount := none, updatedAt := 0 }

/-- A table without its rows' `active_count` -/
def Table.withoutBridge (t : Table Semaphore) : Table Semaphore :=
  ⟨t.rows.map Semaphore.withoutBridge, t.nextId⟩

/-- A database without it. -/
def Db.withoutBridge (db : Db) : Db := db.withSemaphores (Table.withoutBridge db.semaphores)

/-- The same database, but for the bridge. -/
def SameBridge (w w' : World) : Prop :=
  ∃ t, w' = { w with db := w.db.withSemaphores t } ∧
    Table.withoutBridge t = Table.withoutBridge w.db.semaphores

/-- The session cannot see the bridge. -/
def Blind {α : Type} (x : Op α) : Prop := Parallel SameBridge Eq x x

section Reads

variable (db : Db) (t : Table Semaphore)

/-- State rows stay when the semaphores are replaced. -/
@[simp] theorem Db.table_withSemaphores (m : StateModel) :
    (db.withSemaphores t).table m = db.table m := by
  cases m <;> rfl

@[simp] theorem Db.hasState_withSemaphores (m : StateModel) (id : JobId) :
    (db.withSemaphores t).hasState m id = db.hasState m id := by
  cases m <;> rfl

@[simp] theorem Db.findJob_withSemaphores (id : JobId) :
    (db.withSemaphores t).findJob id = db.findJob id := rfl

@[simp] theorem jobIdsWithOtherExecutionState_withSemaphores (ids : List JobId)
    (ignored : List StateModel) :
    jobIdsWithOtherExecutionState (db.withSemaphores t) ids ignored =
      jobIdsWithOtherExecutionState db ids ignored := by
  simp only [jobIdsWithOtherExecutionState, Db.hasState_withSemaphores]
  rfl

@[simp] theorem waitersOf_withSemaphores (backendAlias key : String) :
    waitersOf (db.withSemaphores t) backendAlias key = waitersOf db backendAlias key := rfl

theorem Db.setTable_withSemaphores (m : StateModel) (rows : Table m.Row) :
    (db.withSemaphores t).setTable m rows = (db.setTable m rows).withSemaphores t := by
  cases m <;> rfl

end Reads

/-- Rows of one key correspond. -/
theorem findSemaphore_withoutBridge {db : Db} {t : Table Semaphore} (key : String)
    (same : Table.withoutBridge t = Table.withoutBridge db.semaphores) :
    ((db.withSemaphores t).findSemaphore key).map Semaphore.withoutBridge =
      (db.findSemaphore key).map Semaphore.withoutBridge := by
  have rows : t.rows.map Semaphore.withoutBridge =
      db.semaphores.rows.map Semaphore.withoutBridge := congrArg Table.rows same
  have find : ∀ l : List Semaphore,
      (l.find? (fun r => r.key == key)).map Semaphore.withoutBridge =
        (l.map Semaphore.withoutBridge).find? (fun r => r.key == key) := by
    intro l
    rw [List.find?_map]
    rfl
  have here := find t.rows
  rw [rows, ← find db.semaphores.rows] at here
  exact here

namespace Blind

variable {α β : Type}

theorem pure (a : α) : Blind (Pure.pure a : Op α) := Parallel.pure rfl

theorem throw (e : PyError) : Blind (throw e : Op α) := Parallel.throw e

theorem bind {x : Op α} {f : α → Op β} (first : Blind x) (second : ∀ a, Blind (f a)) :
    Blind (x >>= f) :=
  Parallel.bind_eq first second

theorem ofExcept (x : Except PyError α) : Blind (MonadExcept.ofExcept x : Op α) :=
  Parallel.ofExcept x

theorem runIf (c : Bool) {x : Op Unit} (body : Blind x) : Blind (runIf c x) :=
  Parallel.runIf c body

theorem atomic {x : Op α} (body : Blind x) : Blind (transactionAtomic x) := by
  refine Parallel.atomic (fun s t s' t' before after => ?_) body
  obtain ⟨table, rfl, same⟩ := before
  obtain ⟨table', rfl, -⟩ := after
  exact ⟨table, rfl, same⟩

theorem timezoneNow : Blind timezoneNow := by
  rintro w _ ⟨t, rfl, same⟩
  exact .ok rfl ⟨t, rfl, same⟩

/-- What is read off the other tables is the same. -/
theorem getDb {f : Db → Op α} {V : α → α → Prop}
    (rest : ∀ db t, Table.withoutBridge t = Table.withoutBridge db.semaphores →
      Parallel SameBridge V (f db) (f (db.withSemaphores t))) :
    Parallel SameBridge V (getDb >>= f) (getDb >>= f) := by
  refine Parallel.bind (V := fun db db' => ∃ t, db' = db.withSemaphores t ∧
    Table.withoutBridge t = Table.withoutBridge db.semaphores) ?_ ?_
  · rintro w _ ⟨t, rfl, same⟩
    exact .ok ⟨t, rfl, same⟩ ⟨t, rfl, same⟩
  · rintro db _ ⟨t, rfl, same⟩
    exact rest db t same

/-- One of the other tables is written. -/
theorem setTable (m : StateModel) (f : Table m.Row → Table m.Row) :
    Blind (modifyDb (fun db => db.setTable m (f (db.table m)))) := by
  rintro w _ ⟨t, rfl, same⟩
  refine .ok rfl ⟨t, ?_, ?_⟩
  · simp only [Db.table_withSemaphores, Db.setTable_withSemaphores]
  · rw [Db.semaphores_setTable]
    exact same

/-! ## The helpers -/

theorem deleteRowsWhere (m : StateModel) (p : m.Row → Bool) : Blind (deleteRowsWhere m p) := by
  refine getDb fun db t _ => ?_
  rw [Db.table_withSemaphores]
  exact bind (setTable m fun t => t.deleteWhere p) fun _ => pure _

theorem insertRow (m : StateModel) (jobId : JobId) (mk : Nat → m.Row) :
    Blind (insertRow m jobId mk) := by
  refine getDb fun db t _ => ?_
  rw [Db.findJob_withSemaphores, Db.hasState_withSemaphores]
  split
  · exact throw _
  · exact setTable m fun t => t.insert mk

theorem createRow (m : StateModel) (row : m.Row) : Blind (createRow m row) :=
  bind timezoneNow fun _ => insertRow m _ _

theorem ensureJobIdsHaveNoOtherExecutionState (ids : List JobId) (ignored : List StateModel) :
    Blind (ensureJobIdsHaveNoOtherExecutionState ids ignored) := by
  refine getDb fun db t _ => ?_
  rw [jobIdsWithOtherExecutionState_withSemaphores]
  split
  · exact pure _
  · exact throw _

theorem ensureStateRowsBelongToBackend {m : StateModel} (rows : List (m.Row × Job))
    (backendAlias : String) : Blind (ensureStateRowsBelongToBackend rows backendAlias) := by
  unfold DjQueue.ensureStateRowsBelongToBackend
  split
  · exact pure _
  · exact throw _

theorem consumeEachRow {β : Type} (m : StateModel) (pk : β → Nat) :
    ∀ rows : List β, Blind (consumeEachRow m pk rows)
  | [] => pure _
  | _ :: rows => bind (deleteRowsWhere m _) fun _ => bind (consumeEachRow m pk rows) fun _ => pure _

theorem consumeSelectedRows {β : Type} (env : Env) (m : StateModel) (pk : β → Nat) (rows : List β) :
    Blind (consumeSelectedRows env m pk rows) := by
  unfold DjQueue.consumeSelectedRows
  split
  · exact consumeEachRow m pk rows
  · exact bind (deleteRowsWhere m _) fun _ => pure _

theorem createBlockedExecution (job : JobRef) (backendAlias : String) (key : Option String)
    (expiresAt : Time) (queueName : Option String) (priority : Option Int) (check : Bool) :
    Blind (createBlockedExecution job backendAlias key expiresAt queueName priority check) :=
  bind (runIf check (ensureJobIdsHaveNoOtherExecutionState _ _)) fun _ =>
    bind (ofExcept _) fun _ => createRow .blocked _

theorem insertReadyAfterBlockedConsume (job : JobRef) (backendAlias queueName : String)
    (priority : Int) (readyAt : Time) :
    Blind (insertReadyAfterBlockedConsume job backendAlias queueName priority readyAt) := by
  refine getDb fun db t _ => ?_
  simp only [Db.hasState_withSemaphores]
  split
  · exact pure _
  · exact bind (insertRow .ready _ _) fun _ => pure _

theorem bulkCreateReadyExecutions (rows : List ReadyExecution) (check : Bool) :
    Blind (bulkCreateReadyExecutions rows check) := by
  unfold DjQueue.bulkCreateReadyExecutions
  split
  · exact pure _
  · exact bind (runIf check (ensureJobIdsHaveNoOtherExecutionState _ _)) fun _ =>
      Parallel.forM (fun row => createRow .ready row) rows

/-! ## The semaphore row -/

/-- A rewriting of the row that does not let the bridge into the other columns. -/
theorem saveSemaphore (key : String) {f : Semaphore → Semaphore}
    (blind : ∀ r r' : Semaphore, r.withoutBridge = r'.withoutBridge →
      (f r).withoutBridge = (f r').withoutBridge) : Blind (saveSemaphore key f) := by
  rintro w _ ⟨t, rfl, same⟩
  refine .ok rfl ⟨t.updateWhere (fun r => r.key == key) f, rfl, ?_⟩
  have rows : t.rows.map Semaphore.withoutBridge =
      w.db.semaphores.rows.map Semaphore.withoutBridge := congrArg Table.rows same
  have next : (Table.withoutBridge t).nextId = (Table.withoutBridge w.db.semaphores).nextId :=
    congrArg Table.nextId same
  have saved : ∀ l l' : List Semaphore,
      l.map Semaphore.withoutBridge = l'.map Semaphore.withoutBridge →
      (l.map (fun r => if r.key == key then f r else r)).map Semaphore.withoutBridge =
        (l'.map (fun r => if r.key == key then f r else r)).map Semaphore.withoutBridge := by
    intro l
    induction l with
    | nil =>
        intro l' agree
        rw [List.map_nil, eq_comm, List.map_eq_nil_iff] at agree
        rw [agree]
    | cons r l ih =>
        intro l' agree
        cases l' with
        | nil => cases agree
        | cons r' l' =>
            simp only [List.map_cons, List.cons.injEq] at agree ⊢
            refine ⟨?_, ih l' agree.2⟩
            have sameKey : r.withoutBridge.key = r'.withoutBridge.key :=
              congrArg Semaphore.key agree.1
            change r.key = r'.key at sameKey
            rw [sameKey]
            split
            · exact blind r r' agree.1
            · exact agree.1
  unfold Table.withoutBridge
  rw [Table.rows_updateWhere, Table.nextId_updateWhere, saved _ _ rows]
  exact congrArg _ next

/-- Counting rows by the other columns. -/
theorem countP_withoutBridge {db : Db} {t : Table Semaphore} {p : Semaphore → Bool}
    (same : Table.withoutBridge t = Table.withoutBridge db.semaphores)
    (blind : ∀ r : Semaphore, p r = p r.withoutBridge) :
    t.rows.countP p = db.semaphores.rows.countP p := by
  have rows : t.rows.map Semaphore.withoutBridge =
      db.semaphores.rows.map Semaphore.withoutBridge := congrArg Table.rows same
  have count : ∀ l : List Semaphore, l.countP p = (l.map Semaphore.withoutBridge).countP p := by
    intro l
    rw [List.countP_map]
    exact List.countP_congr fun r _ => by rw [Function.comp_apply, ← blind r]
  rw [count, rows, ← count]

/-- An update that looks at the other columns only, and writes them from them only. -/
theorem updateSemaphore (order : EvaluationOrder) (key : String) {u : Update Semaphore}
    (filter : ∀ r : Semaphore, u.filter r = u.filter r.withoutBridge)
    (row : ∀ r r' : Semaphore, r.withoutBridge = r'.withoutBridge →
      (u.run order r).withoutBridge = (u.run order r').withoutBridge) :
    Blind (updateSemaphore order key u) := by
  refine getDb fun db t same => ?_
  have count : (db.withSemaphores t).semaphores.rows.countP (fun r => r.key == key && u.filter r) =
      db.semaphores.rows.countP (fun r => r.key == key && u.filter r) :=
    countP_withoutBridge same fun r => by rw [filter r]; rfl
  rw [count]
  exact bind (saveSemaphore key row) fun _ => pure _

/-- The numbers of a statement that do not depend on the bridge are checked alike. -/
theorem ensureFits_bind {family : BackendFamily} {key : String}
    {f : Option Semaphore → List Int}
    (blind : ∀ r : Semaphore, f (some r) = f (some r.withoutBridge)) {db : Db}
    {t : Table Semaphore} (same : Table.withoutBridge t = Table.withoutBridge db.semaphores)
    {x y : Op α} (rest : Parallel SameBridge Eq x y) :
    Parallel SameBridge Eq
      (ensureFits family (f (db.findSemaphore key)) >>= fun _ => x)
      (ensureFits family (f ((db.withSemaphores t).findSemaphore key)) >>= fun _ => y) := by
  have row := findSemaphore_withoutBridge key same
  have equal : f ((db.withSemaphores t).findSemaphore key) =
      f (db.findSemaphore key) := by
    cases found : db.findSemaphore key with
    | none =>
        rw [found, Option.map_none, Option.map_eq_none_iff] at row
        rw [row]
    | some r =>
        rw [found, Option.map_some] at row
        obtain ⟨r', found', visible⟩ := Option.map_eq_some_iff.mp row
        rw [found', blind r', visible, ← blind r]
  rw [equal]
  exact Parallel.bind (V := Eq) (runIf _ (throw _)) fun _ _ _ => rest

/-- The same when nobody looks at how many rows were hit. -/
theorem updateSemaphore_bind (order : EvaluationOrder) (key : String) {u : Update Semaphore}
    (row : ∀ r r' : Semaphore, r.withoutBridge = r'.withoutBridge →
      (u.run order r).withoutBridge = (u.run order r').withoutBridge) {x : Op α} (rest : Blind x) :
    Blind (DjQueue.updateSemaphore order key u >>= fun _ => x) := by
  refine Parallel.bind (V := fun _ _ => True) (getDb fun db t _ => ?_) fun _ _ _ => rest
  exact Parallel.bind_eq (saveSemaphore key row) fun _ => Parallel.pure trivial

end Blind

/-! ## What the updates read -/

/-- An update whose filter and expressions do not read the bridge, and whose only assignment to it
is its own. -/
theorem withoutBridge_run {order : EvaluationOrder} {u : Update Semaphore}
    (filter : ∀ r : Semaphore, u.filter r = u.filter r.withoutBridge)
    (row : ∀ r : Semaphore, (assign order u.assignments r).withoutBridge =
      (assign order u.assignments r.withoutBridge).withoutBridge) :
    ∀ r r' : Semaphore, r.withoutBridge = r'.withoutBridge →
      (u.run order r).withoutBridge = (u.run order r').withoutBridge := by
  intro r r' same
  unfold Update.run
  rw [filter r, filter r', same]
  split
  · rw [row r, row r', same]
  · exact same

theorem eq_of_withoutBridge {β : Type} {f : Semaphore → β}
    (blind : ∀ r : Semaphore, f r = f r.withoutBridge) {r r' : Semaphore}
    (same : r'.withoutBridge = r.withoutBridge) : f r' = f r := by
  rw [blind r', same, ← blind r]

/-- The same for a row function, from what it leaves of the other columns. -/
theorem withoutBridge_of_formula {f visible : Semaphore → Semaphore}
    (formula : ∀ r, (f r).withoutBridge = visible r)
    (blind : ∀ r : Semaphore, visible r = visible r.withoutBridge) :
    ∀ r r' : Semaphore, r.withoutBridge = r'.withoutBridge →
      (f r).withoutBridge = (f r').withoutBridge := by
  intro r r' same
  rw [formula, formula, blind r, blind r', same]

/-- The numbers of a statement none of whose parts reads the bridge. -/
theorem numbers_withoutBridge {s : SlotStatement}
    (filter : ∀ r : Semaphore, s.update.filter r = s.update.filter r.withoutBridge)
    (filterSteps : ∀ r : Semaphore, s.filterSteps r = s.filterSteps r.withoutBridge)
    (steps : ∀ r : Semaphore, s.steps r = s.steps r.withoutBridge)
    (columns : ∀ order (r : Semaphore), (assign order s.update.assignments r).columns =
      (assign order s.update.assignments r.withoutBridge).columns)
    (family : BackendFamily) (r : Semaphore) :
    s.numbers family (some r) = s.numbers family (some r.withoutBridge) := by
  have matched : ∀ f : Semaphore → List Int, (∀ r, f r = f r.withoutBridge) →
      (([r].filter s.update.filter).flatMap f) =
        (([r.withoutBridge].filter s.update.filter).flatMap f) := by
    intro f blind
    simp only [List.filter_cons, filter r, List.filter_nil]
    split
    · simp only [List.flatMap_cons, List.flatMap_nil, blind r]
    · rfl
  unfold SlotStatement.numbers
  simp only [Option.toList_some, List.flatMap_cons, List.flatMap_nil, filterSteps r,
    matched _ steps, matched _ (columns family.evaluationOrder)]

section Updates

variable (limit : Int) (expiresAt now : Time) (order : EvaluationOrder)

/-- The release writes the other columns from themselves. -/
theorem withoutBridge_semaphoreReleaseUpdate (r r' : Semaphore)
    (same : r.withoutBridge = r'.withoutBridge) :
    ((semaphoreReleaseUpdate limit expiresAt now).run order r).withoutBridge =
      ((semaphoreReleaseUpdate limit expiresAt now).run order r').withoutBridge :=
  withoutBridge_run (fun _ => rfl) (fun _ => by cases order <;> rfl) r r' same

theorem withoutBridge_consumeReleasedSemaphoreSlotUpdate (r r' : Semaphore)
    (same : r.withoutBridge = r'.withoutBridge) :
    ((consumeReleasedSemaphoreSlotUpdate limit expiresAt now).run order r).withoutBridge =
      ((consumeReleasedSemaphoreSlotUpdate limit expiresAt now).run order r').withoutBridge :=
  withoutBridge_run (fun _ => rfl) (fun _ => by cases order <;> rfl) r r' same

/-- The hand-off of a released slot writes the other columns from themselves. -/
theorem withoutBridge_handoffReleasedClaimedSlotUpdate (r r' : Semaphore)
    (same : r.withoutBridge = r'.withoutBridge) :
    ((handoffReleasedClaimedSlotUpdate limit expiresAt now).run order r).withoutBridge =
      ((handoffReleasedClaimedSlotUpdate limit expiresAt now).run order r').withoutBridge :=
  withoutBridge_run (fun _ => rfl) (fun _ => by cases order <;> rfl) r r' same

/-- The numbers the release computes are of the other columns. -/
theorem numbers_semaphoreReleaseStatement (family : BackendFamily) (r : Semaphore) :
    (semaphoreReleaseStatement limit expiresAt now).numbers family (some r) =
      (semaphoreReleaseStatement limit expiresAt now).numbers family (some r.withoutBridge) :=
  numbers_withoutBridge (fun _ => rfl) (fun _ => rfl) (fun _ => rfl)
    (fun order _ => by cases order <;> rfl) family r

theorem numbers_consumeReleasedSemaphoreSlotStatement (family : BackendFamily) (r : Semaphore) :
    (consumeReleasedSemaphoreSlotStatement limit expiresAt now).numbers family (some r) =
      (consumeReleasedSemaphoreSlotStatement limit expiresAt now).numbers family
        (some r.withoutBridge) :=
  numbers_withoutBridge (fun _ => rfl) (fun _ => rfl) (fun _ => rfl)
    (fun order _ => by cases order <;> rfl) family r

/-- The numbers of the hand-off of a released slot are of the other columns. -/
theorem numbers_handoffReleasedClaimedSlotStatement (family : BackendFamily) (r : Semaphore) :
    (handoffReleasedClaimedSlotStatement limit expiresAt now).numbers family (some r) =
      (handoffReleasedClaimedSlotStatement limit expiresAt now).numbers family
        (some r.withoutBridge) :=
  numbers_withoutBridge (fun _ => rfl) (fun _ => rfl) (fun _ => rfl)
    (fun order _ => by cases order <;> rfl) family r

theorem withoutBridge_acquireUpdate (r r' : Semaphore)
    (same : r.withoutBridge = r'.withoutBridge) :
    ((acquireUpdate limit expiresAt now).run order r).withoutBridge =
      ((acquireUpdate limit expiresAt now).run order r').withoutBridge :=
  withoutBridge_run (fun _ => rfl) (fun _ => by cases order <;> rfl) r r' same

/-- The columns an operation that brings a row to `limit` leaves, bridge apart, whether it found
something to write or not. -/
def Semaphore.reconciled (limit : Int) (r : Semaphore) : Semaphore :=
  { r with value := reconciledAvailable limit r, activeCount := none, limit := limit, updatedAt := 0 }

theorem withoutBridge_reconcileUpdate (r : Semaphore) :
    ((reconcileUpdate limit now).run .simultaneous r).withoutBridge = r.reconciled limit := by
  unfold Update.run
  split
  · rfl
  · rename_i same
    simp only [reconcileUpdate, Bool.or_eq_true, decide_eq_true_eq, not_or, not_lt, ne_eq,
      Decidable.not_not] at same
    have value : reconciledAvailable limit r = r.value := by omega
    simp only [Semaphore.reconciled, Semaphore.withoutBridge, value, same.2]

theorem withoutBridge_postgresConflict (r : Semaphore) :
    (postgresConflict limit expiresAt now r).1 = decide (r.limit - limit < r.value) ∧
      (postgresConflict limit expiresAt now r).2.withoutBridge =
        if r.limit - limit < r.value then
          { r.reconciled limit with
            value := reconciledAvailable limit r - 1, expiresAt := expiresAt }
        else r.reconciled limit := by
  unfold postgresConflict
  dsimp only
  split
  · rename_i free
    exact ⟨(decide_eq_true free).symm, rfl⟩
  · rename_i taken
    split
    · exact ⟨(decide_eq_false taken).symm, rfl⟩
    · rename_i same
      simp only [Bool.or_eq_true, decide_eq_true_eq, not_or, Decidable.not_not, ne_eq] at same
      refine ⟨(decide_eq_false taken).symm, ?_⟩
      simp only [Semaphore.reconciled, Semaphore.withoutBridge, ← same.1.1, same.2]

/-- The row after several are acquired. -/
theorem withoutBridge_acquireManyRow (count : Int) (r : Semaphore) :
    (acquireManyRow count limit expiresAt now r).withoutBridge =
      { r.reconciled limit with
        value := reconciledAvailable limit r - acquirableCount count limit r
        expiresAt := if acquirableCount count limit r ≠ 0 then expiresAt else r.expiresAt } := by
  unfold acquireManyRow
  dsimp only
  split
  · rfl
  · split
    · rfl
    · rename_i same
      simp only [Bool.or_eq_true, decide_eq_true_eq, not_or, Decidable.not_not, ne_eq] at same
      simp only [Semaphore.reconciled, Semaphore.withoutBridge, ← same.1.1, same.2]

end Updates

/-! ## The slot operations -/

namespace Blind

theorem updateSlots (family : BackendFamily) (key : String) {s : SlotStatement}
    (filter : ∀ r : Semaphore, s.update.filter r = s.update.filter r.withoutBridge)
    (row : ∀ r r' : Semaphore, r.withoutBridge = r'.withoutBridge →
      (s.update.run family.evaluationOrder r).withoutBridge =
        (s.update.run family.evaluationOrder r').withoutBridge)
    (numbers : ∀ r : Semaphore,
      s.numbers family (some r) = s.numbers family (some r.withoutBridge)) :
    Blind (updateSlots family key s) :=
  getDb fun _ _ same => ensureFits_bind numbers same (updateSemaphore _ key filter row)

theorem insertSemaphore (mk : Nat → Semaphore) : Blind (insertSemaphore mk) := by
  rintro w _ ⟨t, rfl, same⟩
  refine .ok rfl ⟨t.insert mk, rfl, ?_⟩
  have rows : t.rows.map Semaphore.withoutBridge =
      w.db.semaphores.rows.map Semaphore.withoutBridge := congrArg Table.rows same
  have next : (Table.withoutBridge t).nextId = (Table.withoutBridge w.db.semaphores).nextId :=
    congrArg Table.nextId same
  change t.nextId = w.db.semaphores.nextId at next
  simp only [Table.withoutBridge, Table.rows_insert, Table.nextId_insert, List.map_append, rows,
    next]

/-- An operation that opens the key's row or works on it. -/
theorem findSemaphore {α : Type} {key : String} {absent : Op α} {here : Semaphore → Op α} {db : Db}
    {t : Table Semaphore} (same : Table.withoutBridge t = Table.withoutBridge db.semaphores)
    (none : Blind absent)
    (some : ∀ r r', r'.withoutBridge = r.withoutBridge →
      Parallel SameBridge Eq (here r) (here r')) :
    Parallel SameBridge Eq
      (match db.findSemaphore key with
        | .none => absent
        | .some r => here r)
      (match (db.withSemaphores t).findSemaphore key with
        | .none => absent
        | .some r => here r) := by
  have row := findSemaphore_withoutBridge key same
  cases found : db.findSemaphore key with
  | none =>
      rw [found, Option.map_none, Option.map_eq_none_iff] at row
      rw [row]
      exact none
  | some r =>
      rw [found, Option.map_some] at row
      obtain ⟨r', found', visible⟩ := Option.map_eq_some_iff.mp row
      rw [found']
      exact some r r' visible

theorem semaphoreAcquireSqlite (key : String) (limit : Int) (expiresAt now : Time) :
    Blind (semaphoreAcquireSqlite key limit expiresAt now) := by
  refine bind timezoneNow fun stamp => getDb fun db t same => findSemaphore same ?_ fun r r' _ => ?_
  · exact bind (insertSemaphore _) fun _ => pure _
  · refine bind (updateSemaphore _ key (fun _ => rfl) (withoutBridge_acquireUpdate _ _ _ _))
      fun updated => ?_
    split
    · exact pure _
    · exact updateSemaphore_bind _ key (withoutBridge_of_formula
        (withoutBridge_reconcileUpdate limit now) fun _ => rfl) (pure _)

theorem semaphoreAcquirePostgres (key : String) (limit : Int) (expiresAt now : Time) :
    Blind (semaphoreAcquirePostgres key limit expiresAt now) := by
  refine getDb fun db t same => findSemaphore same ?_ fun r r' visible => ?_
  · exact bind (insertSemaphore _) fun _ => pure _
  · have given : (postgresConflict limit expiresAt now r').1 =
        (postgresConflict limit expiresAt now r).1 := by
      rw [(withoutBridge_postgresConflict limit expiresAt now r').1,
        (withoutBridge_postgresConflict limit expiresAt now r).1]
      exact eq_of_withoutBridge (f := fun s => decide (s.limit - limit < s.value))
        (fun _ => rfl) visible
    rw [given]
    exact bind (saveSemaphore key (withoutBridge_of_formula
      (fun r => (withoutBridge_postgresConflict limit expiresAt now r).2) fun _ => rfl))
      fun _ => pure _

theorem semaphoreAcquireMysql (key : String) (limit : Int) (expiresAt now : Time) :
    Blind (semaphoreAcquireMysql key limit expiresAt now) := by
  refine getDb fun db t same => ?_
  have next : (Table.withoutBridge t).nextId = (Table.withoutBridge db.semaphores).nextId :=
    congrArg Table.nextId same
  change (db.withSemaphores t).semaphores.nextId = db.semaphores.nextId at next
  rw [next]
  refine findSemaphore same ?_ fun r r' visible => ?_
  · exact bind (insertSemaphore _) fun _ => pure _
  · have given : (mysqlConflict limit expiresAt now r').lastInsertId =
        (mysqlConflict limit expiresAt now r).lastInsertId :=
      eq_of_withoutBridge (f := fun s => (mysqlConflict limit expiresAt now s).lastInsertId)
        (fun _ => rfl) visible
    rw [given]
    exact bind (saveSemaphore key (withoutBridge_of_formula
      (fun _ => rfl) fun _ => rfl)) fun _ => pure _

theorem semaphoreAcquire (env : Env) (key : String) (limit durationSeconds : Int) :
    Blind (semaphoreAcquire env key limit durationSeconds) := by
  refine bind timezoneNow fun now => bind (ofExcept _) fun expiresAt => getDb fun db t same =>
    ensureFits_bind (f := acquireNumbers env.config.family limit)
      (fun r => by cases env.config.family <;> rfl) same ?_
  unfold familySemaphoreAcquire
  split
  · exact semaphoreAcquirePostgres _ _ _ _
  · exact semaphoreAcquireMysql _ _ _ _
  · exact semaphoreAcquireMysql _ _ _ _
  · exact semaphoreAcquireSqlite _ _ _ _

theorem semaphoreAcquireMany (env : Env) (key : String) (count limit durationSeconds : Int) :
    Blind (semaphoreAcquireMany env key count limit durationSeconds) := by
  unfold DjQueue.semaphoreAcquireMany
  split
  · exact pure _
  · refine bind timezoneNow fun now => bind (ofExcept _) fun expiresAt => bind timezoneNow
      fun stamp => getDb fun db t same => ensureFits_bind
      (f := acquireManyNumbers count limit expiresAt stamp)
      (fun r => (columns_acquireManyRow _ _ _ _ r).trans
        (columns_acquireManyRow _ _ _ _ r.withoutBridge).symm) same
      (findSemaphore same ?_ fun r r' visible => ?_)
    · exact bind (insertSemaphore _) fun _ => pure _
    · have given : acquirableCount count limit r' = acquirableCount count limit r :=
        eq_of_withoutBridge (f := acquirableCount count limit) (fun _ => rfl) visible
      rw [given]
      exact bind (saveSemaphore key (withoutBridge_of_formula
        (withoutBridge_acquireManyRow limit _ stamp count) fun _ => rfl)) fun _ => pure _

theorem semaphoreRelease (env : Env) (key : String) (limit durationSeconds : Int) :
    Blind (semaphoreRelease env key limit durationSeconds) :=
  bind timezoneNow fun _ => bind (ofExcept _) fun _ => bind (updateSlots _ key (fun _ => rfl)
    (withoutBridge_semaphoreReleaseUpdate _ _ _ _)
    (numbers_semaphoreReleaseStatement _ _ _ _)) fun _ => pure _

theorem consumeReleasedSemaphoreSlot (env : Env) (key : String) (limit durationSeconds : Int)
    (now : Time) : Blind (consumeReleasedSemaphoreSlot env key limit durationSeconds now) :=
  bind (ofExcept _) fun _ => bind (updateSlots _ key (fun _ => rfl)
    (withoutBridge_consumeReleasedSemaphoreSlotUpdate _ _ _ _)
    (numbers_consumeReleasedSemaphoreSlotStatement _ _ _ _)) fun _ => pure _

theorem handoffReleasedClaimedSlot (env : Env) (key : String) (limit durationSeconds : Int)
    (now : Time) : Blind (handoffReleasedClaimedSlot env key limit durationSeconds now) :=
  bind (ofExcept _) fun _ => bind (updateSlots _ key (fun _ => rfl)
    (withoutBridge_handoffReleasedClaimedSlotUpdate _ _ _ _)
    (numbers_handoffReleasedClaimedSlotStatement _ _ _ _)) fun _ => pure _

theorem acquireHandoffSlot (env : Env) (mode : SlotHandoffMode) (key : String)
    (limit durationSeconds : Int) (now : Time) :
    Blind (acquireHandoffSlot env mode key limit durationSeconds now) := by
  cases mode with
  | releaseClaimed => exact handoffReleasedClaimedSlot env key limit durationSeconds now
  | consumeReleased => exact consumeReleasedSemaphoreSlot env key limit durationSeconds now

theorem consumeNextBlockedJob (env : Env) (key : String) : Blind (consumeNextBlockedJob env key) := by
  refine getDb fun db t _ => ?_
  rw [waitersOf_withSemaphores]
  split
  · exact pure _
  · split
    · exact bind (deleteRowsWhere .blocked _) fun _ => pure _
    · exact bind (ensureStateRowsBelongToBackend (m := .blocked) _ _) fun _ =>
        bind (consumeSelectedRows env .blocked _ _) fun _ => pure _

theorem consumeNextBlockedJobWithReleasedSlot (env : Env) (key : String)
    (limit durationSeconds : Int) (now : Time) :
    Blind (consumeNextBlockedJobWithReleasedSlot env key limit durationSeconds now) := by
  refine bind (ofExcept _) fun expiresAt => getDb fun db t _ => ?_
  rw [waitersOf_withSemaphores]
  refine bind (runIf _ (throw _)) fun _ => ?_
  split
  · exact pure _
  · refine bind (updateSlots _ key (fun _ => rfl)
      (withoutBridge_handoffReleasedClaimedSlotUpdate _ _ _ _)
      (numbers_handoffReleasedClaimedSlotStatement _ _ _ _)) fun updated => ?_
    split
    · exact pure _
    · exact bind (deleteRowsWhere .blocked _) fun _ => pure _

theorem consumeBlockedJobPortably (env : Env) (mode : SlotHandoffMode) (key : String)
    (limit durationSeconds : Int) (now : Time) :
    Blind (consumeBlockedJobPortably env mode key limit durationSeconds now) := by
  refine bind (consumeNextBlockedJob env key) fun consumed => ?_
  split
  · exact pure _
  · split
    · exact throw _
    · exact bind (acquireHandoffSlot env mode key limit durationSeconds now) fun _ =>
        bind (runIf _ (createBlockedExecution _ _ _ _ _ _ _)) fun _ => pure _

theorem consumeBlockedJobOnPostgres (env : Env) (key : String) (limit durationSeconds : Int)
    (now : Time) : Blind (consumeBlockedJobOnPostgres env key limit durationSeconds now) := by
  refine bind (consumeNextBlockedJobWithReleasedSlot env key limit durationSeconds now)
    fun consumed => ?_
  split
  · exact pure _
  · split
    · exact throw _
    · exact pure _

theorem unblockNextBlockedJob (env : Env) (key : String) (limit durationSeconds : Int)
    (mode : SlotHandoffMode) :
    Blind (unblockNextBlockedJob env key limit durationSeconds mode) := by
  refine bind timezoneNow fun now => atomic (bind ?_ fun blockedSlot => ?_)
  · unfold consumeBlockedJobForSlot
    split
    · exact consumeBlockedJobOnPostgres env key limit durationSeconds now
    · exact consumeBlockedJobPortably env mode key limit durationSeconds now
  · split
    · exact bind (bind (insertReadyAfterBlockedConsume _ _ _ _ _) fun _ => runIf _ (throw _))
        fun _ => pure _
    · exact pure _

/-- The limit of the row is no part of the bridge. -/
theorem releaseSettings (env : Env) (job : Job) (key : String) (task : Option Imported) :
    Blind (releaseSettings env job key task) := by
  refine getDb fun db t same => ?_
  have limit : semaphoreLimitOrOne (db.withSemaphores t) key = semaphoreLimitOrOne db key := by
    have row := congrArg (Option.map Semaphore.limit) (findSemaphore_withoutBridge key same)
    rw [Option.map_map, Option.map_map] at row
    unfold semaphoreLimitOrOne
    rw [show (Option.map Semaphore.limit ((db.withSemaphores t).findSemaphore key)) = _ from row]
    rfl
  rw [limit]
  split
  · exact pure _
  · exact pure _
  · exact throw _

theorem releaseConcurrencySlot (env : Env) (job : Job) (task : Option Imported) :
    Blind (releaseConcurrencySlot env job task) := by
  unfold DjQueue.releaseConcurrencySlot
  split
  · exact pure _
  · refine bind (releaseSettings env job _ task) fun settings =>
      bind (unblockNextBlockedJob env _ _ _ _) fun unblocked => ?_
    split
    · exact pure _
    · exact bind (semaphoreRelease env _ _ _) fun _ =>
        bind (unblockNextBlockedJob env _ _ _ _) fun _ => pure _

theorem releaseRecoveredConcurrencyGroup (env : Env) (key : String) (releaseCount : Nat)
    (limit durationSeconds : Int) :
    Blind (releaseRecoveredConcurrencyGroup env key releaseCount limit durationSeconds) := by
  refine bind timezoneNow fun now => bind (ofExcept _) fun expiresAt => getDb fun db t same => ?_
  simp only [waitersOf_withSemaphores]
  refine Parallel.bind_eq (ensureStateRowsBelongToBackend (m := .blocked) _ _) fun _ =>
    findSemaphore same (pure _) fun r r' visible => ?_
  have available : groupAvailable releaseCount limit r' = groupAvailable releaseCount limit r :=
    eq_of_withoutBridge (f := groupAvailable releaseCount limit) (fun _ => rfl) visible
  rw [available]
  refine bind (consumeSelectedRows env .blocked _ _) fun promoted => bind timezoneNow fun stamp =>
    bind (runIf _ (throw _)) fun _ =>
      bind (saveSemaphore key (withoutBridge_of_formula (fun _ => rfl) fun _ => rfl)) fun _ =>
      bind (ofExcept _) fun _ => bind (bulkCreateReadyExecutions _ _) fun _ => pure _

theorem slotCall (env : Env) (key : String) (call : SlotCall) : Blind (call.run env key) := by
  cases call with
  | semaphoreAcquire limit duration =>
      exact atomic (bind (semaphoreAcquire env key limit duration) fun _ => pure _)
  | semaphoreAcquireMany count limit duration =>
      exact atomic (bind (semaphoreAcquireMany env key count limit duration) fun _ => pure _)
  | semaphoreRelease limit duration =>
      exact atomic (bind (semaphoreRelease env key limit duration) fun _ => pure _)
  | unblockNextBlockedJob limit duration mode =>
      exact atomic (bind (unblockNextBlockedJob env key limit duration mode) fun _ => pure _)
  | releaseConcurrencySlot job task =>
      exact atomic (bind (releaseConcurrencySlot env _ task) fun _ => pure _)
  | releaseRecoveredConcurrencyGroup releaseCount limit duration =>
      exact atomic (bind (releaseRecoveredConcurrencyGroup env key releaseCount limit duration)
        fun _ => pure _)

end Blind

/-! ## Sequences -/

theorem withoutBridge_eq_of_sameBridge {w w' : World} (same : SameBridge w w') :
    w'.db.withoutBridge = w.db.withoutBridge := by
  obtain ⟨t, rfl, agree⟩ := same
  simp only [Db.withoutBridge, Db.withSemaphores, agree]

/-- Worlds of databases that are the same but for it. -/
theorem sameBridge_of_withoutBridge {db db' : Db} (same : db.withoutBridge = db'.withoutBridge)
    (step : SlotStep) : SameBridge (step.world db) (step.world db') := by
  have rows : Table.withoutBridge db.semaphores = Table.withoutBridge db'.semaphores :=
    congrArg Db.semaphores same
  refine ⟨db'.semaphores, ?_, ?_⟩
  · unfold SlotStep.world SlotStep.start
    cases step.others with
    | none =>
        have others := congrArg (fun d : Db => d.withSemaphores db'.semaphores) same
        simp only [Db.withoutBridge, Db.withSemaphores] at others ⊢
        rw [others]
    | some others => rfl
  · unfold SlotStep.world SlotStep.start
    cases step.others with
    | none => exact rows.symm
    | some others => exact rows.symm

/-- What can be seen of a call besides the bridge: its result, and the tables after it. -/
def visibleOutcome (outcome : Except PyError SlotResult × Db) : Except PyError SlotResult × Db :=
  (outcome.1, outcome.2.withoutBridge)

/-- From two databases that differ in nothing but the bridge column and the times of the last
writes, every sequence of slot operations returns the same, promotes the same waiters and leaves the
same values, limits and expiry times, after every call. -/
theorem bridge_steers_nothing (key : String) {db db' : Db}
    (same : db.withoutBridge = db'.withoutBridge) (steps : List SlotStep) :
    (slotTrace key db steps).map visibleOutcome = (slotTrace key db' steps).map visibleOutcome := by
  induction steps generalizing db db' with
  | nil => rfl
  | cons step rest ih =>
      have outcome := Blind.slotCall step.env key step.call _ _ (sameBridge_of_withoutBridge same step)
      unfold slotTrace
      generalize step.call.run step.env key (step.world db) = r at outcome ⊢
      generalize step.call.run step.env key (step.world db') = r' at outcome ⊢
      cases outcome with
      | ok value state =>
          have after := (withoutBridge_eq_of_sameBridge state).symm
          simp only [List.map_cons, visibleOutcome, value, after, ih after]
      | error state =>
          have after := (withoutBridge_eq_of_sameBridge state).symm
          simp only [List.map_cons, visibleOutcome, after, ih after]

/-- A row with four slots taken out of five, and this count of them in the bridge. -/
def bridgedRow (activeCount : Option Int) : Db :=
  { Db.empty with semaphores := ⟨[⟨1, "account", 1, activeCount, 5, 0, 0⟩], 2⟩ }

/-- The count is right in one run and missing in the other; the limit shrinks, and a slot comes
back on another database. -/
theorem bridge_steers_nothing_from_null_count :
    (slotTrace "account" (bridgedRow (some 4))
      [⟨Env.ofConfig { family := .sqlite }, .semaphoreAcquire 2 60, fun _ => 9, fun _ => 0, none⟩,
        ⟨Env.ofConfig { family := .mysql }, .semaphoreRelease 3 60, fun _ => 10, fun _ => 0, none⟩]).map
      visibleOutcome =
    (slotTrace "account" (bridgedRow none)
      [⟨Env.ofConfig { family := .sqlite }, .semaphoreAcquire 2 60, fun _ => 9, fun _ => 0, none⟩,
        ⟨Env.ofConfig { family := .mysql }, .semaphoreRelease 3 60, fun _ => 10, fun _ => 0, none⟩]).map
      visibleOutcome :=
  @bridge_steers_nothing "account" (bridgedRow (some 4)) _ rfl _

end DjQueue
