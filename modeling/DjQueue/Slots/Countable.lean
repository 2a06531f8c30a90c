import DjQueue.Slots.Handoffs
import DjQueue.Slots.PossibleSessions

/-!
# Slots a database can count

Whether a slot can be given back or taken depends on the numbers the statement computes on its way.
They are in range where every limit and every number of free slots leaves room for them, and giving
slots back and taking them under such limits leaves such numbers.
-/

namespace DjQueue

open Relational

/-- There is room for what a statement computes of such counts: PostgreSQL adds two of them and one
more, MySQL counts one more, and SQLite computes in 64 bits and only takes the limit. -/
def BackendFamily.counts : BackendFamily → Int → Bool
  | .postgresql, n => int4 (2 * n + 1)
  | .mysql, n | .mariadb, n => int4 (n + 1)
  | .sqlite, n => int8 n

/-- The free slots of the row and its limit can be counted. -/
structure Semaphore.Countable (family : BackendFamily) (r : Semaphore) : Prop where
  least : 0 ≤ r.value
  value : family.counts r.value = true
  nonneg : 0 ≤ r.limit
  limit : family.counts r.limit = true

/-- Every row is in the column's range. -/
def CountableSlots (family : BackendFamily) (t : Table Semaphore) : Prop :=
  ∀ r ∈ t.rows, r.Countable family

section Numbers

variable {family : BackendFamily} {L x : Int}

/-- Between zero and a limit in range. -/
theorem BackendFamily.counts_of_between (nonneg : 0 ≤ x) (le : x ≤ L)
    (counts : family.counts L = true) : family.counts x = true := by
  cases family <;> simp only [BackendFamily.counts, int4, int8, Bool.and_eq_true,
    decide_eq_true_eq] at counts ⊢ <;> omega

/-- A count in range is a number the column holds. -/
theorem BackendFamily.holds_of_counts (nonneg : 0 ≤ x) (counts : family.counts x = true) :
    family.holds x = true := by
  cases family <;> simp only [BackendFamily.counts, BackendFamily.holds, int4, int8,
    Bool.and_eq_true, decide_eq_true_eq] at counts ⊢ <;> omega

/-- A row with at most so many free slots under this limit. -/
theorem Semaphore.countable_of_slots {r : Semaphore} (limit : r.limit = L) (least : 0 ≤ r.value)
    (most : r.value ≤ L) (counts : family.counts L = true) : r.Countable family where
  least := least
  value := BackendFamily.counts_of_between least most counts
  nonneg := by omega
  limit := by rw [limit]; exact counts

/-- One less than such a row had, under this limit. -/
theorem Semaphore.Countable.less {r r' : Semaphore} (countable : r.Countable family)
    (limit : r'.limit = L) (positive : 0 < L) (counts : family.counts L = true)
    (free : 0 < r.value) (value : r'.value = r.value - 1) : r'.Countable family where
  least := by omega
  value := BackendFamily.counts_of_between (by omega) (by omega : r'.value ≤ r.value)
    countable.value
  nonneg := by omega
  limit := by rw [limit]; exact counts

/-! ## Statements -/

variable (positive : 0 < L) (counts : family.counts L = true)

include positive counts

/-- A statement whose numbers are in range of each row it may find. -/
theorem SlotStatement.holds_of_rows {s : SlotStatement} {row : Option Semaphore}
    (limit : s.limit = L) (rows : ∀ r, row = some r →
      (s.numbers family (some r)).all family.holds = true) :
    (s.numbers family row).all family.holds = true := by
  cases row with
  | some r => exact rows r rfl
  | none =>
      have holds := BackendFamily.holds_of_counts positive.le counts
      cases family <;> simp [SlotStatement.numbers, limit, holds]

/-- The release computes within the range. -/
theorem holds_semaphoreReleaseStatement {r : Semaphore} (countable : r.Countable family)
    (expiresAt now : Time) :
    ((semaphoreReleaseStatement L expiresAt now).numbers family (some r)).all family.holds =
      true := by
  rcases countable with ⟨least, value, nonneg, limit⟩
  cases family <;>
    simp [SlotStatement.numbers, semaphoreReleaseStatement, semaphoreReleaseUpdate, assign,
      Semaphore.columns, BackendFamily.evaluationOrder, Semaphore.setValue, Semaphore.setLimit,
      Semaphore.setActiveCount, Semaphore.setExpiresAt, Semaphore.setUpdatedAt, releasedSteps,
      reconciledSteps, releasedAvailable, BackendFamily.holds, BackendFamily.counts, int4, int8]
      at value limit counts ⊢ <;> omega

theorem holds_handoffReleasedClaimedSlotStatement {r : Semaphore} (countable : r.Countable family)
    (expiresAt now : Time) :
    ((handoffReleasedClaimedSlotStatement L expiresAt now).numbers family (some r)).all
      family.holds = true := by
  rcases countable with ⟨least, value, nonneg, limit⟩
  cases family <;>
    simp [SlotStatement.numbers, handoffReleasedClaimedSlotStatement,
      handoffReleasedClaimedSlotUpdate, assign,
      Semaphore.columns, BackendFamily.evaluationOrder, Semaphore.setValue, Semaphore.setLimit,
      Semaphore.setActiveCount, Semaphore.setExpiresAt, Semaphore.setUpdatedAt, releasedSteps,
      reconciledSteps, releasedAvailable, BackendFamily.holds, BackendFamily.counts, int4, int8]
      at value limit counts ⊢ <;> omega

theorem holds_consumeReleasedSemaphoreSlotStatement {r : Semaphore}
    (countable : r.Countable family) (expiresAt now : Time) :
    ((consumeReleasedSemaphoreSlotStatement L expiresAt now).numbers family (some r)).all
      family.holds = true := by
  rcases countable with ⟨least, value, nonneg, limit⟩
  by_cases accepted : 0 < r.value <;> cases family <;>
    simp [SlotStatement.numbers, consumeReleasedSemaphoreSlotStatement,
      consumeReleasedSemaphoreSlotUpdate, accepted, assign,
      Semaphore.columns, BackendFamily.evaluationOrder, Semaphore.setValue, Semaphore.setLimit,
      Semaphore.setActiveCount, Semaphore.setExpiresAt, Semaphore.setUpdatedAt,
      BackendFamily.holds, BackendFamily.counts, int4, int8]
      at value limit counts ⊢ <;> omega

/-- The slot a waiter asks for can be computed. -/
theorem handoffFits_of_countable {db : Db} (countable : CountableSlots family db.semaphores)
    (key : String) (mode : SlotHandoffMode) (duration : Int) (now : Time) :
    HandoffFits family db key mode L duration now := by
  have rows : ∀ r, db.findSemaphore key = some r → r.Countable family :=
    fun r found => countable r (mem_of_findSemaphore found).1
  cases mode with
  | releaseClaimed =>
      refine SlotStatement.holds_of_rows positive counts rfl fun r found => ?_
      exact holds_handoffReleasedClaimedSlotStatement positive counts (rows r found) _ _
  | consumeReleased =>
      refine SlotStatement.holds_of_rows positive counts rfl fun r found => ?_
      exact holds_consumeReleasedSemaphoreSlotStatement positive counts (rows r found) _ _

/-- The release of a row in range never overflows. -/
theorem holds_release_of_countable {db : Db} (countable : CountableSlots family db.semaphores)
    (key : String) (expiresAt now : Time) :
    ((semaphoreReleaseStatement L expiresAt now).numbers family
      (db.findSemaphore key)).all family.holds = true := by
  refine SlotStatement.holds_of_rows positive counts rfl fun r found => ?_
  exact holds_semaphoreReleaseStatement positive counts
    (countable r (mem_of_findSemaphore found).1) _ _

end Numbers

/-! ## Tables -/

section Tables

variable {family : BackendFamily} {key : String} {L : Int} {t : Table Semaphore}

theorem CountableSlots.update (countable : CountableSlots family t) {f : Semaphore → Semaphore}
    (keeps : ∀ r : Semaphore, r.Countable family → (f r).Countable family) :
    CountableSlots family (t.updateWhere (fun r => r.key == key) f) :=
  Table.forall_updateWhere countable fun r mem _ => keeps r (countable r mem)

variable (positive : 0 < L) (counts : family.counts L = true)

include positive counts

theorem countable_semaphoreRelease (order : EvaluationOrder) (expiresAt now : Time)
    (r : Semaphore) : ((semaphoreReleaseUpdate L expiresAt now).run order r).Countable family := by
  have slots := slots_run_semaphoreReleaseUpdate L expiresAt now order r
  simp only [Semaphore.slots, Prod.mk.injEq] at slots
  have bounds := releasedAvailable_bounds positive r
  exact Semaphore.countable_of_slots slots.2.2 (by omega) (by omega) counts

theorem keepsCountable (key : String) (mode : SlotHandoffMode) :
    UpholdsSlots.UpdateKeeps (CountableSlots family) key L mode := by
  intro order expiresAt now t countable
  apply countable.update
  intro r inside
  by_cases accepted : (mode.update L expiresAt now).filter r = true
  · cases mode with
    | releaseClaimed =>
        rcases handoffReleasedClaimedSlotUpdate_columns L _ _ order r accepted with
          ⟨room, value, limit⟩
        have bounds := releasedAvailable_bounds positive r
        have some : 1 ≤ releasedAvailable L r := by
          unfold releasedAvailable
          omega
        have left := Int.sub_nonneg_of_le some
        exact Semaphore.countable_of_slots limit (value ▸ left) (value ▸ by omega) counts
    | consumeReleased =>
        rcases consumeReleasedSemaphoreSlotUpdate_columns L _ _ order r accepted with
          ⟨free, value, limit⟩
        exact inside.less limit positive counts free value
  · rw [Update.run, if_neg accepted]
    exact inside

/-! ## Sessions -/

theorem upholds_semaphoreRelease (env : Env) (key : String) (duration : Int) :
    UpholdsSlots (CountableSlots family) (semaphoreRelease env key L duration) :=
  .bind (.of_reads Reads.timezoneNow) fun _ => .bind (.ofExcept _) fun _ =>
    .bind (.updateSlots fun _ countable => countable.update fun r _ =>
      countable_semaphoreRelease positive counts _ _ _ r) fun _ => .pure _

theorem upholds_releaseSlot (env : Env) (key : String) (duration : Int) :
    UpholdsSlots (CountableSlots family) (releaseSlot env key L duration) := by
  refine .bind (.unblockNextBlockedJob (keepsCountable positive counts key _)) fun unblocked => ?_
  split
  · exact .pure _
  · exact .bind (upholds_semaphoreRelease positive counts env key duration) fun _ =>
      .bind (.unblockNextBlockedJob (keepsCountable positive counts key _)) fun _ => .pure _

theorem upholds_releaseRecoveredConcurrencyGroup (env : Env) (key : String) (n : Nat)
    (duration : Int) :
    UpholdsSlots (CountableSlots family)
      (releaseRecoveredConcurrencyGroup env key n L duration) := by
  refine .bind (.of_reads Reads.timezoneNow) fun now => .bind (.ofExcept _) fun expiresAt =>
    .bind (.of_reads Reads.getDb) fun db => .bind (.of_spares (.ensureStateRowsBelongToBackend
      (m := .blocked) _ _)) fun _ => ?_
  split
  · exact .pure _
  · rename_i r found
    refine .bind_of (P := fun promoted => (promoted.length : Int) ≤ groupAvailable n L r) ?_ ?_
    · intro w promoted w' countable consumed
      have fewer := length_le_of_consumeSelectedRows consumed
      have same : w'.db.semaphores = w.db.semaphores :=
        Spares.consumeSelectedRows (m := .blocked) (apart_semaphores _) env _ _ _ _ _ consumed
      refine ⟨?_, ?_⟩
      · unfold slotsOf at countable ⊢
        rw [same]
        exact countable
      · rw [pySlice, List.length_take] at fewer
        unfold groupAvailable at fewer ⊢
        split at fewer <;> omega
    · intro promoted least
      have most : groupAvailable n L r ≤ L := by
        unfold groupAvailable
        omega
      refine .bind (.of_reads Reads.timezoneNow) fun stamp => .bind (.of_reads
        (Reads.ensureFits _ _)) fun _ => .bind (.modifyDb fun _ countable => countable.update
          fun r' _ => ?_) fun _ => .bind (.ofExcept _) fun _ => .bind (.of_spares
            (.bulkCreateReadyExecutions (apart_semaphores _) _ _)) fun _ => .pure _
      exact Semaphore.countable_of_slots (r := groupReleaseRow L _ _ _ _ r') rfl
        (Int.sub_nonneg_of_le least) (by unfold groupReleaseRow; dsimp only; omega) counts

end Tables

end DjQueue
