import DjQueue.Relational.TwoRuns
import DjQueue.Slots.GroupAcquire

/-!
# One call for many slots, or one call for each

`semaphore_acquire_many` computes in Python what `semaphore_acquire`, called as often, comes to in
SQL: the split into slots given and slots refused, the reconciled row, and its times.
-/

namespace DjQueue

open Relational

/-- `semaphore_acquire`, `n` times; the number of times it returned `True`. -/
def acquireRepeatedly (env : Env) (key : String) (limit durationSeconds : Int) : Nat → Op Int
  | 0 => pure 0
  | n + 1 => do
      let given ← semaphoreAcquire env key limit durationSeconds
      let others ← acquireRepeatedly env key limit durationSeconds n
      pure ((if given then 1 else 0) + others)

/-- The free slots once one has been asked for. -/
def freeAfterOne (limit : Int) : Option Semaphore → Int
  | none => limit - 1
  | some r => max 0 (reconciledAvailable limit r - 1)

/-- No number of `n` acquires in a row is out of range: the first one finds the row, and those after
it find fewer and fewer slots free under the limit. -/
def RepeatsFit (family : BackendFamily) (limit : Int) (n : Nat) (row : Option Semaphore) : Prop :=
  0 < n → AcquireFits family limit row ∧
    (1 < n → family = .postgresql → int4 (freeAfterOne limit row + limit) = true)

instance (family : BackendFamily) (limit : Int) (n : Nat) (row : Option Semaphore) :
    Decidable (RepeatsFit family limit n row) := by unfold RepeatsFit; infer_instance

/-- On a row under the limit only PostgreSQL can still meet a number out of range. -/
theorem acquireFits_some_iff {family : BackendFamily} {limit : Int} (positive : 0 < limit)
    {r : Semaphore} (under : r.limit = limit) (nonneg : 0 ≤ r.value) (bounded : r.value ≤ limit) :
    AcquireFits family limit (some r) ↔ family.holds limit = true ∧
      (family = .postgresql → int4 (r.value + limit) = true) := by
  cases family <;>
    simp only [AcquireFits, acquireNumbers, reconciledSteps, under, Option.toList_some,
      List.flatMap_cons, List.flatMap_nil, List.append_nil, List.all_cons, List.all_nil,
      Bool.and_eq_true, Bool.and_true, BackendFamily.holds, int4, int8, decide_eq_true_eq,
      reduceCtorEq, false_implies, and_true, forall_const] <;> omega

section Repeated

variable {L : Int} (positive : 0 < L) (key : String) (expiresAt now : Time)

include positive in
/-- The row the first of several acquires leaves. -/
theorem exists_find?_acquireSlot (t : Table Semaphore) :
    ∃ r, (acquireSlot key L expiresAt now t).2.rows.find? (fun r => r.key == key) = some r ∧
      r.limit = L ∧ r.value = freeAfterOne L (t.rows.find? (fun r => r.key == key)) ∧
      0 ≤ r.value ∧ r.value ≤ L := by
  unfold acquireSlot
  cases found : t.rows.find? (fun r => r.key == key) with
  | none =>
      refine ⟨newSemaphore key L 1 expiresAt now t.nextId, ?_, rfl, rfl, ?_, ?_⟩
      · rw [Table.rows_insert, List.find?_append, found]
        simp [newSemaphore]
      · simp only [newSemaphore]
        omega
      · simp only [newSemaphore]
        omega
  | some r =>
      have bounds := reconciledAvailable_bounds positive r
      have slots := slots_acquireSpec (L := L) expiresAt now r
      have value : (acquireSpec L expiresAt now r).2.value = freeAfterOne L (some r) := by
        unfold acquireSpec freeAfterOne
        dsimp only
        split
        · dsimp only
          omega
        · dsimp only
          omega
      refine ⟨(acquireSpec L expiresAt now r).2, ?_, congrArg (fun s => s.2.2) slots, value, ?_, ?_⟩
      · dsimp only
        rw [Table.rows_updateWhere, find?_updateWhere_key (key_acquireSpec expiresAt now), found]
        rfl
      · rw [value, freeAfterOne]
        omega
      · rw [value, freeAfterOne]
        omega

include positive in
/-- The calls after the first fit exactly when the second does. -/
theorem repeatsFit_succ (family : BackendFamily) (n : Nat) (t : Table Semaphore)
    (holds : family.holds L = true) :
    RepeatsFit family L n
        ((acquireSlot key L expiresAt now t).2.rows.find? (fun r => r.key == key)) ↔
      (0 < n → family = .postgresql →
        int4 (freeAfterOne L (t.rows.find? (fun r => r.key == key)) + L) = true) := by
  obtain ⟨r, found, under, value, nonneg, bounded⟩ :=
    exists_find?_acquireSlot positive key expiresAt now t
  rw [found, RepeatsFit, acquireFits_some_iff positive under nonneg bounded, ← value]
  refine ⟨fun fits some => (fits some).1.2, fun fits some => ⟨⟨holds, fits some⟩, ?_⟩⟩
  intro _ postgres
  have free : freeAfterOne L (.some r) ≤ r.value := by
    simp only [freeAfterOne, reconciledAvailable]
    omega
  have free' : 0 ≤ freeAfterOne L (.some r) := by
    simp only [freeAfterOne]
    omega
  have next := fits some postgres
  simp only [int4, Bool.and_eq_true, decide_eq_true_eq] at next ⊢
  omega

include positive in
/-- The induction is on the calls left; each call leaves the semaphores numbered, which the next
one needs. -/
theorem runs_acquireRepeatedly {env : Env} {duration : Int} (uuids : Nat → JobId) (n : Nat) :
    ∀ {db : Db}, SemaphoresNumbered db.semaphores →
      (0 < n → isDatetime (now + seconds duration) = true) →
      RepeatsFit env.config.family L n (db.findSemaphore key) →
      Runs (acquireRepeatedly env key L duration n) ⟨db, fun _ => now, uuids⟩
        (acquireSlots key n L (now + seconds duration) now db.semaphores).1
        ⟨{ db with semaphores :=
          (acquireSlots key n L (now + seconds duration) now db.semaphores).2 },
          fun _ => now, uuids⟩ := by
  induction n with
  | zero =>
      intro db _ _ _
      rfl
  | succ n ih =>
      intro db numbered inRange fits
      have inRange := inRange (Nat.succ_pos n)
      obtain ⟨firstFits, laterFit⟩ := fits (Nat.succ_pos n)
      have holds : env.config.family.holds L = true := by
        simp only [AcquireFits, acquireNumbers, List.all_cons, Bool.and_eq_true] at firstFits
        exact firstFits.1
      have first : Runs (semaphoreAcquire env key L duration) ⟨db, fun _ => now, uuids⟩ _ _ :=
        runs_semaphoreAcquire positive numbered now uuids inRange firstFits
      rw [acquire_eq] at first
      have others := @ih { db with
        semaphores := (acquireSlot key L (now + seconds duration) now db.semaphores).2 }
        (numbered_acquireSlot key _ now numbered) (fun _ => inRange)
        ((repeatsFit_succ positive key _ now _ n db.semaphores holds).mpr
          fun some => laterFit (by omega))
      rw [Int.natCast_succ, acquireSlots_succ positive]
      exact Runs.bind first (Runs.bind others (runs_pure _ _))

include positive in
/-- Calls that return found every number in range. -/
theorem fits_of_run_acquireRepeatedly {env : Env} {duration : Int} {uuids : Nat → JobId} {n : Nat}
    {db : Db} (numbered : SemaphoresNumbered db.semaphores) {given : Int} {w' : World}
    (run : Runs (acquireRepeatedly env key L duration n) ⟨db, fun _ => now, uuids⟩ given w') :
    (0 < n → isDatetime (now + seconds duration) = true) ∧
      RepeatsFit env.config.family L n (db.findSemaphore key) := by
  cases n with
  | zero => exact ⟨fun none => absurd none (Nat.lt_irrefl 0), fun none =>
      absurd none (Nat.lt_irrefl 0)⟩
  | succ n =>
      obtain ⟨given₁, w₁, first, rest⟩ := Runs.of_bind run
      obtain ⟨read, w₂, ticked, inRange, fits, -⟩ := checked_of_run_semaphoreAcquire first
      cases ticked
      refine ⟨fun _ => inRange, fun _ => ⟨fits, fun more postgres => ?_⟩⟩
      -- the second call finds the row the first one left
      have again : Runs (semaphoreAcquire env key L duration) ⟨db, fun _ => now, uuids⟩ _ _ :=
        runs_semaphoreAcquire positive numbered now uuids inRange fits
      rw [acquire_eq] at again
      obtain ⟨-, rfl⟩ := Runs.unique again first
      obtain ⟨m, rfl⟩ := Nat.exists_eq_succ_of_ne_zero (show n ≠ 0 by omega)
      obtain ⟨given₂, w₃, later, rest₂⟩ := Runs.of_bind rest
      obtain ⟨given₃, w₄, second, rest₃⟩ := Runs.of_bind later
      obtain ⟨read, w₅, ticked, -, fits₂, -⟩ := checked_of_run_semaphoreAcquire second
      cases ticked
      obtain ⟨r, found, under, value, nonneg, bounded⟩ :=
        exists_find?_acquireSlot positive key (now + seconds duration) now db.semaphores
      have second : AcquireFits env.config.family L (.some r) := by
        unfold AcquireFits
        rw [← found]
        exact fits₂
      rw [acquireFits_some_iff positive under nonneg bounded, value] at second
      exact second.2 postgres

end Repeated

/-- `expires_at` moves with a slot, `updated_at` with a slot or a changed count. -/
theorem acquireTimes_acquireManyRow (count L : Int) (expiresAt now : Time) (r : Semaphore) :
    AcquireTimes (acquirableCount count L r ≠ 0) expiresAt now r
      (acquireManyRow count L expiresAt now r) := by
  unfold acquireManyRow AcquireTimes
  dsimp only
  by_cases given : acquirableCount count L r = 0
  · rw [given, if_neg (not_not_intro rfl), Int.sub_zero]
    by_cases stale : (r.value ≠ reconciledAvailable L r ||
        r.activeCount ≠ some (L - reconciledAvailable L r) || r.limit ≠ L) = true
    · rw [if_pos stale]
      have changed : (reconciledAvailable L r, some (L - reconciledAvailable L r), L) ≠ r.slots := by
        intro same
        unfold Semaphore.slots at same
        simp only [Prod.mk.injEq] at same
        simp [← same.1, ← same.2.1, ← same.2.2] at stale
      refine ⟨by simp, ?_⟩
      rw [if_pos]
      exact Or.inr changed
    · rw [if_neg stale]
      simp
  · rw [if_pos given]
    simp [given]

/-- At the fixed time, one call for `n` slots returns how many of `n` calls for one slot return
`True`, and leaves the tables they leave. -/
def AcquiresAtOnce (env : Env) (db : Db) (key : String) (L : Int) (n : Nat) (duration : Int)
    (now : Time) (uuids : Nat → JobId) : Prop :=
  ∃ given db', Runs (semaphoreAcquireMany env key n L duration) ⟨db, fun _ => now, uuids⟩ given
      ⟨db', fun _ => now, uuids⟩ ∧
    Runs (acquireRepeatedly env key L duration n) ⟨db, fun _ => now, uuids⟩ given
      ⟨db', fun _ => now, uuids⟩ ∧
    (0 < n → ∃ r', db'.findSemaphore key = some r' ∧
      match db.findSemaphore key with
      | none => r'.slots = (L - given, some given, L) ∧ r'.expiresAt = now + seconds duration ∧
          r'.updatedAt = now
      | some r => AcquireTimes (given ≠ 0) (now + seconds duration) now r r')

end DjQueue
