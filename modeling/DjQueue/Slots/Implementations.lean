import DjQueue.Accounting.Slots

/-!
# One `semaphore_acquire`, three times

The ORM updates, the PostgreSQL statement and the MySQL upsert are three ways to write the same
change of a row.  `acquireSpec` says which: the free slots are brought to the new limit, one is
taken if there is one, and the times move when the columns do.
-/

namespace DjQueue

open Relational

/-- `semaphore_acquire` on the key's row: whether it gives a slot, and the row it leaves. -/
def acquireSpec (limit : Int) (expiresAt now : Time) (r : Semaphore) : Bool × Semaphore :=
  let available := reconciledAvailable limit r
  if 0 < available then
    (true, { r with value := available - 1, activeCount := some (limit - (available - 1)),
                    limit := limit, expiresAt := expiresAt, updatedAt := now })
  else
    (false, { r with value := available, activeCount := some (limit - available), limit := limit,
                     updatedAt := if (available, some (limit - available), limit) = r.slots
                       then r.updatedAt else now })

/-- A row whose slots are those already. -/
theorem Semaphore.withSlots_self {r : Semaphore} {value : Int} {activeCount : Option Int}
    {limit : Int} (same : (value, activeCount, limit) = r.slots) :
    { r with value := value, activeCount := activeCount, limit := limit,
             updatedAt := r.updatedAt } = r := by
  simp only [Semaphore.slots, Prod.mk.injEq] at same
  obtain ⟨rfl, rfl, rfl⟩ := same
  rfl

section Rows

variable {L : Int} (positive : 0 < L) (expiresAt now : Time) (r : Semaphore)

include positive in
theorem postgresConflict_eq_spec :
    postgresConflict L expiresAt now r = acquireSpec L expiresAt now r := by
  unfold postgresConflict acquireSpec
  by_cases free : r.limit - L < r.value
  · have given := (reconciledAvailable_pos_iff positive r).mpr free
    simp only [free, given, if_true]
  · have refused : ¬ 0 < reconciledAvailable L r :=
      fun given => free ((reconciledAvailable_pos_iff positive r).mp given)
    simp only [free, refused, if_false]
    by_cases same : (reconciledAvailable L r, some (L - reconciledAvailable L r), L) = r.slots
    · rw [if_pos same, Semaphore.withSlots_self same, if_neg]
      simp only [Semaphore.slots, Prod.mk.injEq] at same
      simp [← same.1, ← same.2.1, ← same.2.2]
    · rw [if_pos, if_neg same]
      simp only [Semaphore.slots, Prod.mk.injEq, not_and] at same
      simp only [Bool.or_eq_true, decide_eq_true_eq, ne_eq]
      by_contra agrees
      simp only [not_or, Decidable.not_not] at agrees
      exact same agrees.1.1.symm agrees.1.2.symm agrees.2.symm

theorem mysqlConflict_eq_spec (numbered : r.id ≠ 0) :
    (decide ((mysqlConflict L expiresAt now r).lastInsertId ≠ 0),
      (mysqlConflict L expiresAt now r).row) = acquireSpec L expiresAt now r := by
  rw [mysqlConflict_eq]
  unfold acquireSpec upsertValue
  by_cases given : 0 < reconciledAvailable L r
  · simp [given, numbered, shouldTouch]
  · simp only [given, if_false]
    by_cases same : (reconciledAvailable L r, some (L - reconciledAvailable L r), L) = r.slots
    · rw [if_pos same]
      simp only [Semaphore.slots, Prod.mk.injEq] at same
      have untouched : shouldTouch L r = false := by
        rw [shouldTouch, ← same.2.1, ← same.2.2, ← same.1]
        simpa using given
      simp [untouched]
    · rw [if_neg same]
      simp only [Semaphore.slots, Prod.mk.injEq, not_and] at same
      have touched : shouldTouch L r = true := by
        by_contra agrees
        simp only [shouldTouch, Bool.or_eq_true, decide_eq_true_eq, not_or, ne_eq,
          Decidable.not_not] at agrees
        exact same agrees.1.1.1.2.symm agrees.1.2.symm agrees.2.symm
      simp [touched]

include positive in
theorem sqliteConflict_eq_spec :
    acquireRow .sqlite L expiresAt now r = acquireSpec L expiresAt now r := by
  have filter : (acquireUpdate L expiresAt now).filter r = decide (r.limit - L < r.value) := rfl
  unfold acquireRow acquireSpec
  simp only [filter]
  by_cases free : r.limit - L < r.value
  · have given := (reconciledAvailable_pos_iff positive r).mpr free
    simp only [free, given, decide_true, if_true, acquireUpdate_run]
    simp only [Prod.mk.injEq, true_and]
    congr 2
    omega
  · have refused : ¬ 0 < reconciledAvailable L r :=
      fun given => free ((reconciledAvailable_pos_iff positive r).mp given)
    simp only [free, refused, decide_false, Bool.false_eq_true, if_false, Update.run]
    by_cases same : (reconciledAvailable L r, some (L - reconciledAvailable L r), L) = r.slots
    · have off : (reconcileUpdate L now).filter r = false := by
        simp only [Semaphore.slots, Prod.mk.injEq] at same
        simp [reconcileUpdate, same.1, ← same.2.1, ← same.2.2]
      rw [off, if_pos same, Semaphore.withSlots_self same]
      rfl
    · have on : (reconcileUpdate L now).filter r = true := by
        simp only [Semaphore.slots, Prod.mk.injEq, not_and] at same
        by_contra agrees
        simp only [reconcileUpdate, Bool.or_eq_true, decide_eq_true_eq, not_or, not_lt, ne_eq,
          Decidable.not_not] at agrees
        refine same ?_ agrees.1.2.symm agrees.2.symm
        omega
      rw [on, if_neg same]
      rfl

include positive in
/-- All three are the one specification. -/
theorem acquireRow_eq_spec (family : BackendFamily) (numbered : r.id ≠ 0) :
    acquireRow family L expiresAt now r = acquireSpec L expiresAt now r := by
  cases family with
  | postgresql => exact postgresConflict_eq_spec positive expiresAt now r
  | mysql => exact mysqlConflict_eq_spec expiresAt now r numbered
  | mariadb => exact mysqlConflict_eq_spec expiresAt now r numbered
  | sqlite => exact sqliteConflict_eq_spec positive expiresAt now r

end Rows

/-! ## The calls -/

section Calls

variable {db : Db} {key : String} {r : Semaphore}

/-- One row has the key, so only what becomes of that one matters. -/
theorem saveSemaphore_congr (numbered : SemaphoresNumbered db.semaphores)
    (found : db.findSemaphore key = some r) {f g : Semaphore → Semaphore} (agree : f r = g r) :
    db.saveSemaphore key f = db.saveSemaphore key g := by
  unfold Db.saveSemaphore Table.updateWhere
  congr 2
  refine List.map_congr_left fun s mem => ?_
  by_cases same : s.key = key
  · have found' := findSemaphore_of_mem numbered mem
    rw [same, found] at found'
    rw [← Option.some.inj found', agree]
  · simp [same]

theorem countP_key (numbered : SemaphoresNumbered db.semaphores)
    (found : db.findSemaphore key = some r) (p : Semaphore → Bool) :
    db.semaphores.rows.countP (fun s => s.key == key && p s) ≠ 0 ↔ p r = true := by
  rw [← Nat.pos_iff_ne_zero, List.countP_pos_iff]
  constructor
  · rintro ⟨s, mem, hit⟩
    rw [Bool.and_eq_true, beq_iff_eq] at hit
    have found' := findSemaphore_of_mem numbered mem
    rw [hit.1, found] at found'
    rw [Option.some.inj found']
    exact hit.2
  · intro accepted
    obtain ⟨mem, same⟩ := mem_of_findSemaphore found
    exact ⟨r, mem, by simp [same, accepted]⟩

/-- An update returns whether it reached the row. -/
theorem runs_updateSemaphore (order : EvaluationOrder) (key : String) (u : Update Semaphore)
    (w : World) :
    Runs (updateSemaphore order key u) w
      (w.db.semaphores.rows.countP (fun r => r.key == key && u.filter r))
      { w with db := w.db.saveSemaphore key (u.run order) } := rfl

/-- The tables after `semaphore_acquire`, and its result. -/
def Db.acquire (db : Db) (key : String) (limit : Int) (expiresAt now : Time) : Bool × Db :=
  match db.findSemaphore key with
  | none =>
      (true, { db with semaphores := db.semaphores.insert (newSemaphore key limit 1 expiresAt now) })
  | some r =>
      ((acquireSpec limit expiresAt now r).1,
        db.saveSemaphore key (fun r => (acquireSpec limit expiresAt now r).2))

/-- No number of an acquire on this row is out of range for the database. -/
def AcquireFits (family : BackendFamily) (limit : Int) (row : Option Semaphore) : Prop :=
  (acquireNumbers family limit row).all family.holds = true

instance (family : BackendFamily) (limit : Int) (row : Option Semaphore) :
    Decidable (AcquireFits family limit row) := by unfold AcquireFits; infer_instance

variable {L : Int} (positive : 0 < L) (numbered : SemaphoresNumbered db.semaphores)
  (expiresAt now : Time) (clock : Nat → Time) (uuids : Nat → JobId)

include positive in
theorem runs_semaphoreAcquirePostgres :
    Runs (semaphoreAcquirePostgres key L expiresAt now) ⟨db, clock, uuids⟩
      (db.acquire key L expiresAt now).1 ⟨(db.acquire key L expiresAt now).2, clock, uuids⟩ := by
  have spec : ∀ r, postgresConflict L expiresAt now r = acquireSpec L expiresAt now r :=
    postgresConflict_eq_spec positive expiresAt now
  refine Runs.bind (runs_getDb _) ?_
  unfold Db.acquire
  cases found : db.findSemaphore key with
  | none => rfl
  | some r =>
      simp only [spec]
      rfl

include numbered in
theorem runs_semaphoreAcquireMysql :
    Runs (semaphoreAcquireMysql key L expiresAt now) ⟨db, clock, uuids⟩
      (db.acquire key L expiresAt now).1 ⟨(db.acquire key L expiresAt now).2, clock, uuids⟩ := by
  refine Runs.bind (runs_getDb _) ?_
  unfold Db.acquire
  cases found : db.findSemaphore key with
  | none =>
      simp only [numbered.next, ne_eq, not_false_eq_true, decide_true]
      rfl
  | some r =>
      have spec := mysqlConflict_eq_spec (L := L) expiresAt now r
        (numbered.bound r (mem_of_findSemaphore found).1).1
      dsimp only
      rw [← spec, saveSemaphore_congr numbered found
        (g := fun r => (mysqlConflict L expiresAt now r).row) (congrArg Prod.snd spec).symm]
      rfl

include positive numbered in
theorem runs_semaphoreAcquireSqlite :
    Runs (semaphoreAcquireSqlite key L expiresAt now) ⟨db, fun _ => now, uuids⟩
      (db.acquire key L expiresAt now).1
      ⟨(db.acquire key L expiresAt now).2, fun _ => now, uuids⟩ := by
  refine Runs.bind (runs_timezoneNow _) ?_
  refine Runs.bind (runs_getDb _) ?_
  unfold Db.acquire
  cases found : db.findSemaphore key with
  | none => rfl
  | some r =>
      have spec := sqliteConflict_eq_spec positive expiresAt now r
      have count := countP_key numbered found (acquireUpdate L expiresAt now).filter
      refine Runs.bind (runs_updateSemaphore _ key _ _) ?_
      cases accepted : (acquireUpdate L expiresAt now).filter r with
      | true =>
          rw [if_pos (count.mpr accepted)]
          simp only [acquireRow, accepted, if_true] at spec
          dsimp only
          rw [← spec, saveSemaphore_congr numbered found
            (f := fun r => (acquireSpec L expiresAt now r).2)
            (g := (acquireUpdate L expiresAt now).run .simultaneous) (congrArg Prod.snd spec).symm]
          rfl
      | false =>
          have refused : ∀ s, db.findSemaphore key = some s →
              (acquireUpdate L expiresAt now).filter s = false := by
            intro s found'
            rw [found] at found'
            rw [← Option.some.inj found', accepted]
          have zero : ¬ db.semaphores.rows.countP (fun s => s.key == key &&
              (acquireUpdate L expiresAt now).filter s) ≠ 0 := by
            rw [count, accepted]
            exact Bool.false_ne_true
          rw [if_neg zero, saveSemaphore_of_refused (w := ⟨db, fun _ => now, uuids⟩) numbered refused]
          simp only [acquireRow, accepted, Bool.false_eq_true, if_false] at spec
          dsimp only
          rw [← spec, saveSemaphore_congr numbered found
            (f := fun r => (acquireSpec L expiresAt now r).2)
            (g := (reconcileUpdate L now).run .simultaneous) (congrArg Prod.snd spec).symm]
          rfl

include positive numbered in
/-- At one fixed time, all databases do the same, unless they meet a number out of range. -/
theorem runs_semaphoreAcquire {env : Env} {duration : Int}
    (inRange : isDatetime (now + seconds duration) = true)
    (fits : AcquireFits env.config.family L (db.findSemaphore key)) :
    Runs (semaphoreAcquire env key L duration) ⟨db, fun _ => now, uuids⟩
      (db.acquire key L (now + seconds duration) now).1
      ⟨(db.acquire key L (now + seconds duration) now).2, fun _ => now, uuids⟩ := by
  refine Runs.bind (runs_timezoneNow _) (Runs.bind (runs_addSeconds inRange _)
    (Runs.bind (runs_getDb _) (Runs.bind (runs_ensureFits fits _) ?_)))
  unfold familySemaphoreAcquire
  cases env.config.family with
  | postgresql => exact runs_semaphoreAcquirePostgres positive _ _ _ _
  | mysql => exact runs_semaphoreAcquireMysql numbered _ _ _ _
  | mariadb => exact runs_semaphoreAcquireMysql numbered _ _ _ _
  | sqlite => exact runs_semaphoreAcquireSqlite positive numbered _ _ _

end Calls

/-- The row `semaphore_acquire` leaves, from the row it found: `expires_at` moves with a slot,
`updated_at` with a slot or a changed count. -/
def AcquireTimes (given : Bool) (expiresAt now : Time) (r r' : Semaphore) : Prop :=
  r'.expiresAt = (if given then expiresAt else r.expiresAt) ∧
    r'.updatedAt = (if given ∨ r'.slots ≠ r.slots then now else r.updatedAt)

theorem acquireTimes_acquireSpec (limit : Int) (expiresAt now : Time) (r : Semaphore) :
    AcquireTimes (acquireSpec limit expiresAt now r).1 expiresAt now r
      (acquireSpec limit expiresAt now r).2 := by
  unfold acquireSpec AcquireTimes
  dsimp only
  split
  · simp
  · refine ⟨rfl, ?_⟩
    have left : ∀ s : Int × Option Int × Int, (if s = r.slots then r.updatedAt else now) =
        if false = true ∨ s ≠ r.slots then now else r.updatedAt := by
      intro s
      by_cases same : s = r.slots
      · rw [if_pos same, if_neg (by simp [same])]
      · rw [if_neg same, if_pos (.inr same)]
    exact left _

/-- What an acquire leaves of the key: a new row with one slot taken, or the row it found. -/
def AcquireLeaves (db : Db) (key : String) (limit : Int) (expiresAt now : Time) (given : Bool)
    (db' : Db) : Prop :=
  ∃ r', db'.findSemaphore key = some r' ∧
    match db.findSemaphore key with
    | none => given = true ∧ r'.slots = (limit - 1, some 1, limit) ∧
        r'.expiresAt = expiresAt ∧ r'.updatedAt = now
    | some r => AcquireTimes given expiresAt now r r'

theorem acquireLeaves_acquire (db : Db) (key : String) (limit : Int) (expiresAt now : Time) :
    AcquireLeaves db key limit expiresAt now (db.acquire key limit expiresAt now).1
      (db.acquire key limit expiresAt now).2 := by
  unfold AcquireLeaves Db.acquire
  cases found : db.findSemaphore key with
  | none =>
      refine ⟨newSemaphore key limit 1 expiresAt now db.semaphores.nextId, ?_, rfl, rfl, rfl, rfl⟩
      have absent : db.semaphores.rows.find? (fun r => r.key == key) = none := found
      simp [Db.findSemaphore, absent, newSemaphore]
  | some r =>
      refine ⟨(acquireSpec limit expiresAt now r).2, ?_, acquireTimes_acquireSpec ..⟩
      have keeps : ∀ s, (acquireSpec limit expiresAt now s).2.key = s.key := by
        intro s
        unfold acquireSpec
        dsimp only
        split <;> rfl
      have here : db.semaphores.rows.find? (fun r => r.key == key) = some r := found
      simp only [Db.findSemaphore, Db.saveSemaphore, Table.rows_updateWhere,
        find?_updateWhere_key keeps, here, Option.map_some]

/-- At the fixed time, every database returns the same, leaves the same tables, and leaves the row
as an acquire is to leave it. -/
def AcquiresAlike (db : Db) (key : String) (limit duration : Int) (now : Time)
    (uuids : Nat → JobId) : Prop :=
  ∃ given db', AcquireLeaves db key limit (now + seconds duration) now given db' ∧
    ∀ env : Env, ∃ clock', Runs (semaphoreAcquire env key limit duration)
      ⟨db, fun _ => now, uuids⟩ given ⟨db', clock', uuids⟩

/-- The three implementations of `semaphore_acquire` return the same and leave the same tables
exactly when the deadline is a `datetime` and no database meets a number out of range. -/
theorem semaphoreAcquire_implementations_agree_iff {db : Db} {key : String} {L : Int}
    (positive : 0 < L) (numbered : SemaphoresNumbered db.semaphores) (duration : Int) (now : Time)
    (uuids : Nat → JobId) :
    AcquiresAlike db key L duration now uuids ↔
      isDatetime (now + seconds duration) = true ∧
        ∀ family, AcquireFits family L (db.findSemaphore key) := by
  constructor
  · rintro ⟨given, db', -, runs⟩
    have checked : ∀ family : BackendFamily, isDatetime (now + seconds duration) = true ∧
        AcquireFits family L (db.findSemaphore key) := by
      intro family
      obtain ⟨clock', run⟩ := runs (.ofConfig { family := family })
      obtain ⟨read, w₁, ticked, inRange, fits, -⟩ := checked_of_run_semaphoreAcquire run
      cases ticked
      exact ⟨inRange, fits⟩
    exact ⟨(checked .sqlite).1, fun family => (checked family).2⟩
  · rintro ⟨inRange, fits⟩
    exact ⟨_, _, acquireLeaves_acquire .., fun env =>
      ⟨_, runs_semaphoreAcquire positive numbered now uuids inRange (fits env.config.family)⟩⟩

/-- A database whose only semaphore is this row. -/
def semaphoreDb (r : Semaphore) : Db := { Db.empty with semaphores := ⟨[r], 2⟩ }

/-- Five of ten slots are free, and the limit becomes the greatest 32-bit integer: SQLite gives a
slot, and PostgreSQL overflows on the way. -/
theorem semaphoreAcquire_overflows_on_postgresql :
    let db := semaphoreDb ⟨1, "account", 5, some 5, 10, 0, 0⟩
    returned (semaphoreAcquire (.ofConfig { family := .sqlite }) "account" 2147483647 60)
        ⟨db, fun _ => 9, fun _ => 0⟩ = some true ∧
      ¬ AcquiresAlike db "account" 2147483647 60 9 (fun _ => 0) := by
  refine ⟨by decide, ?_⟩
  rintro ⟨given, db', -, runs⟩
  obtain ⟨clock', run⟩ := runs (.ofConfig { family := .postgresql })
  obtain ⟨read, w₁, ticked, -, fits, -⟩ := checked_of_run_semaphoreAcquire run
  cases ticked
  exact absurd fits (by decide)

/-- A row of an earlier release with no bridge count, under a limit that has shrunk. -/
theorem semaphoreAcquire_implementations_agree_iff_on_null_count :
    AcquiresAlike (semaphoreDb ⟨1, "account", 1, none, 5, 0, 0⟩) "account" 2 60 9 (fun _ => 0) :=
  (semaphoreAcquire_implementations_agree_iff (by decide) ⟨by decide, by decide, by decide,
    by decide⟩ 60 9 (fun _ => 0)).mpr ⟨by decide, fun family => by cases family <;> decide⟩

end DjQueue
