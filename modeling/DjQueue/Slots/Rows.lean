import DjQueue.Operations.Concurrency

/-!
# What the slot operations do to a semaphore row

Each operation of `Operations.Semaphore` on the key's row, as far as slots are concerned:
the free slots it leaves, when it gives one, and that it leaves the row's key and number
alone and its limit at the one it was called with.  The three implementations of
`semaphore_acquire` do the same here.
-/

namespace DjQueue

open Relational

/-- The columns that count slots. -/
def Semaphore.slots (r : Semaphore) : Int × Option Int × Int := (r.value, r.activeCount, r.limit)

/-! ## What one update leaves -/

/-- The row of a key after an update of its columns. -/
theorem find?_updateWhere_key {rows : List Semaphore} {key : String} {f : Semaphore → Semaphore}
    (keeps : ∀ r, (f r).key = r.key) :
    (rows.map (fun r => if r.key == key then f r else r)).find? (fun r => r.key == key) =
      (rows.find? (fun r => r.key == key)).map f := by
  induction rows with
  | nil => rfl
  | cons r rows ih =>
      by_cases hit : r.key = key
      · simp [hit, keeps]
      · simp only [List.map_cons, beq_eq_false_iff_ne.mpr hit, Bool.false_eq_true, if_false,
          List.find?_cons_of_neg, ih, not_false_eq_true]

/-- The row before and after an update of its columns. -/
def Semaphore.SameRow (r r' : Semaphore) : Prop := r'.key = r.key ∧ r'.id = r.id

/-- An `UPDATE` whose assignments leave key and number alone leaves them alone. -/
theorem Semaphore.sameRow_run {u : Update Semaphore} (order : EvaluationOrder) (r : Semaphore)
    (keeps : ∀ a ∈ u.assignments, ∀ source target : Semaphore,
      target.SameRow (a.set source target)) :
    r.SameRow (u.run order r) := by
  refine Update.run_induction (P := fun t : Semaphore => r.SameRow t) order ?_ ⟨rfl, rfl⟩
  intro a mem source target same
  have kept := keeps a mem source target
  exact ⟨kept.1.trans same.1, kept.2.trans same.2⟩

section Updates

variable (L : Int) (expiresAt now : Time) (order : EvaluationOrder) (r : Semaphore)

/-- The release writes to the same row. -/
theorem sameRow_semaphoreReleaseUpdate :
    r.SameRow ((semaphoreReleaseUpdate L expiresAt now).run order r) :=
  Semaphore.sameRow_run order r (by simp [semaphoreReleaseUpdate, Semaphore.SameRow,
    Semaphore.setValue, Semaphore.setActiveCount, Semaphore.setLimit, Semaphore.setExpiresAt,
    Semaphore.setUpdatedAt])

theorem sameRow_handoffReleasedClaimedSlotUpdate :
    r.SameRow ((handoffReleasedClaimedSlotUpdate L expiresAt now).run order r) :=
  Semaphore.sameRow_run order r (by simp [handoffReleasedClaimedSlotUpdate, Semaphore.SameRow,
    Semaphore.setValue, Semaphore.setActiveCount, Semaphore.setLimit, Semaphore.setExpiresAt,
    Semaphore.setUpdatedAt])

theorem sameRow_consumeReleasedSemaphoreSlotUpdate :
    r.SameRow ((consumeReleasedSemaphoreSlotUpdate L expiresAt now).run order r) :=
  Semaphore.sameRow_run order r (by simp [consumeReleasedSemaphoreSlotUpdate, Semaphore.SameRow,
    Semaphore.setValue, Semaphore.setActiveCount, Semaphore.setLimit, Semaphore.setExpiresAt,
    Semaphore.setUpdatedAt])

/-- Each update takes its new `value` and `limit` from the old row in both orders; only the row
that `active_count` is computed from differs. -/
theorem slots_run_semaphoreReleaseUpdate :
    ((semaphoreReleaseUpdate L expiresAt now).run order r).slots =
      (releasedAvailable L r,
        some (L - releasedAvailable L (match order with
          | .simultaneous => r
          | .leftToRight => { r with value := releasedAvailable L r })), L) := by
  cases order <;> rfl

/-- The counts after the hand-off of a released slot. -/
theorem slots_run_handoffReleasedClaimedSlotUpdate :
    ((handoffReleasedClaimedSlotUpdate L expiresAt now).run order r).slots =
      if r.limit - L - 1 < r.value then
        (releasedAvailable L r - 1,
          some (L - releasedAvailable L (match order with
            | .simultaneous => r
            | .leftToRight => { r with value := releasedAvailable L r - 1 }) + 1), L)
      else r.slots := by
  by_cases accepted : r.limit - L - 1 < r.value
  · have hit : (handoffReleasedClaimedSlotUpdate L expiresAt now).filter r = true :=
      decide_eq_true accepted
    rw [Update.run, if_pos hit, if_pos accepted]
    cases order <;> rfl
  · have refused : ¬ (handoffReleasedClaimedSlotUpdate L expiresAt now).filter r = true :=
      fun hit => accepted (of_decide_eq_true hit)
    rw [Update.run, if_neg refused, if_neg accepted]

/-- The counts after the portable hand-off. -/
theorem slots_run_consumeReleasedSemaphoreSlotUpdate :
    ((consumeReleasedSemaphoreSlotUpdate L expiresAt now).run order r).slots =
      if 0 < r.value then
        (r.value - 1,
          some (L - (match order with
            | .simultaneous => r.value
            | .leftToRight => r.value - 1) + 1), L)
      else r.slots := by
  by_cases accepted : 0 < r.value
  · cases order <;> simp [Update.run, consumeReleasedSemaphoreSlotUpdate, accepted] <;> rfl
  · simp [Update.run, consumeReleasedSemaphoreSlotUpdate, accepted]

/-! The same, column by column. -/

theorem semaphoreReleaseUpdate_value :
    ((semaphoreReleaseUpdate L expiresAt now).run order r).value = releasedAvailable L r := by
  exact congrArg Prod.fst (slots_run_semaphoreReleaseUpdate L expiresAt now order r)

theorem semaphoreReleaseUpdate_limit :
    ((semaphoreReleaseUpdate L expiresAt now).run order r).limit = L := by
  exact congrArg (fun t => t.2.2) (slots_run_semaphoreReleaseUpdate L expiresAt now order r)

/-- The columns after the hand-off of a released slot. -/
theorem handoffReleasedClaimedSlotUpdate_columns
    (accepted : (handoffReleasedClaimedSlotUpdate L expiresAt now).filter r = true) :
    r.limit - L - 1 < r.value ∧
      ((handoffReleasedClaimedSlotUpdate L expiresAt now).run order r).value =
        releasedAvailable L r - 1 ∧
      ((handoffReleasedClaimedSlotUpdate L expiresAt now).run order r).limit = L := by
  have hit : r.limit - L - 1 < r.value := of_decide_eq_true accepted
  have slots := slots_run_handoffReleasedClaimedSlotUpdate L expiresAt now order r
  rw [if_pos hit] at slots
  exact ⟨hit, congrArg Prod.fst slots, congrArg (fun t => t.2.2) slots⟩

/-- The columns after the portable hand-off. -/
theorem consumeReleasedSemaphoreSlotUpdate_columns
    (accepted : (consumeReleasedSemaphoreSlotUpdate L expiresAt now).filter r = true) :
    0 < r.value ∧
      ((consumeReleasedSemaphoreSlotUpdate L expiresAt now).run order r).value = r.value - 1 ∧
      ((consumeReleasedSemaphoreSlotUpdate L expiresAt now).run order r).limit = L := by
  have hit : 0 < r.value := of_decide_eq_true accepted
  have slots := slots_run_consumeReleasedSemaphoreSlotUpdate L expiresAt now order r
  rw [if_pos hit] at slots
  exact ⟨hit, congrArg Prod.fst slots, congrArg (fun t => t.2.2) slots⟩

end Updates

/-! ## Taking slots -/

/-- `semaphore_acquire` on an existing row: whether it gave a slot, and the row it leaves. -/
def acquireRow (family : BackendFamily) (limit : Int) (expiresAt now : Time) (r : Semaphore) :
    Bool × Semaphore :=
  match family with
  | .postgresql => postgresConflict limit expiresAt now r
  | .mysql | .mariadb =>
      let upserted := mysqlConflict limit expiresAt now r
      (upserted.lastInsertId ≠ 0, upserted.row)
  | .sqlite =>
      if (acquireUpdate limit expiresAt now).filter r then
        (true, (acquireUpdate limit expiresAt now).run .simultaneous r)
      else (false, (reconcileUpdate limit now).run .simultaneous r)

/-- The slots a row has free under a limit, and what is left of them once one is asked for. -/
structure TakesSlot (L : Int) (r : Semaphore) (given : Bool) (r' : Semaphore) : Prop where
  given_iff : given = true ↔ 0 < reconciledAvailable L r
  value : r'.value = reconciledAvailable L r - if given then 1 else 0
  limit : r'.limit = L
  key : r'.key = r.key
  id : r'.id = r.id

/-- Under the row's own limit, a slot is given when one is free. -/
theorem TakesSlot.value_of_limit {L : Int} {r r' : Semaphore} {given : Bool} (limit : r.limit = L)
    (positive : 0 < L) (takes : TakesSlot L r given r') :
    (given = true ↔ 0 < r.value) ∧ (given = true → r'.value < r.value) ∧
      (given = false → r'.value = 0) := by
  obtain ⟨iff, value, -, -, -⟩ := takes
  unfold reconciledAvailable at iff value
  cases given with
  | true => simp at iff value ⊢; omega
  | false => simp at iff value ⊢; omega

section Acquire

variable {L : Int} (positive : 0 < L) (expiresAt now : Time) (r : Semaphore)

/-- A slot is free after reconciling exactly when the row has more than the limit's difference. -/
theorem reconciledAvailable_pos_iff {L : Int} (positive : 0 < L) (r : Semaphore) :
    0 < reconciledAvailable L r ↔ r.limit - L < r.value := by
  unfold reconciledAvailable
  omega

include positive in
/-- PostgreSQL's conflict clause takes a slot. -/
theorem postgresConflict_takes :
    TakesSlot L r (postgresConflict L expiresAt now r).1 (postgresConflict L expiresAt now r).2 := by
  unfold postgresConflict
  by_cases free : r.limit - L < r.value
  · simp only [free, if_true]
    exact ⟨by simpa using (reconciledAvailable_pos_iff positive r).mpr free, rfl, rfl, rfl, rfl⟩
  · have refused : ¬ 0 < reconciledAvailable L r :=
      fun pos => free ((reconciledAvailable_pos_iff positive r).mp pos)
    simp only [free, if_false]
    split
    · exact ⟨by simpa using refused, by simp, rfl, rfl, rfl⟩
    · rename_i same
      simp only [Bool.or_eq_true, decide_eq_true_eq, not_or, Decidable.not_not, ne_eq] at same
      exact ⟨by simpa using refused, by simp [same.1.1], same.2, rfl, rfl⟩

/-- The upsert's assignments, run left to right: what they read is assigned after them. -/
theorem mysqlConflict_eq :
    mysqlConflict L expiresAt now r =
      ⟨{ r with
          expiresAt := if 0 < reconciledAvailable L r then expiresAt else r.expiresAt
          updatedAt := if shouldTouch L r then now else r.updatedAt
          activeCount := some (L - upsertValue L r)
          value := upsertValue L r
          limit := L },
        if 0 < reconciledAvailable L r then r.id else 0⟩ := rfl

theorem mysqlConflict_takes (numbered : r.id ≠ 0) :
    TakesSlot L r ((mysqlConflict L expiresAt now r).lastInsertId ≠ 0)
      (mysqlConflict L expiresAt now r).row := by
  rw [mysqlConflict_eq]
  by_cases free : 0 < reconciledAvailable L r
  · exact ⟨by simp [free, numbered], by simp [free, numbered, upsertValue], rfl, rfl, rfl⟩
  · exact ⟨by simp [free], by simp [free, upsertValue], rfl, rfl, rfl⟩

theorem acquireUpdate_run (free : r.limit - L < r.value) :
    (acquireUpdate L expiresAt now).run .simultaneous r =
      { r with value := reconciledAvailable L r - 1
               activeCount := some (L - reconciledAvailable L r + 1)
               limit := L, expiresAt := expiresAt, updatedAt := now } := by
  simp only [Update.run, acquireUpdate, free, decide_true, if_true]
  rfl

/-- The statement that reconciles a full row. -/
theorem reconcileUpdate_takes (refused : ¬ 0 < reconciledAvailable L r) :
    TakesSlot L r false ((reconcileUpdate L now).run .simultaneous r) := by
  unfold Update.run
  split
  · exact ⟨by simpa using refused, by simp [assign, reconcileUpdate, Semaphore.setValue,
      Semaphore.setActiveCount, Semaphore.setLimit, Semaphore.setUpdatedAt], rfl, rfl, rfl⟩
  · rename_i same
    simp only [reconcileUpdate, Bool.or_eq_true, decide_eq_true_eq, not_or, not_lt, ne_eq,
      Decidable.not_not] at same
    exact ⟨by simpa using refused, by simp; omega, same.2, rfl, rfl⟩

include positive in
/-- `semaphore_acquire` gives a slot when the row has one under the limit, and takes it out. -/
theorem acquireRow_takes (family : BackendFamily) (numbered : r.id ≠ 0) :
    TakesSlot L r (acquireRow family L expiresAt now r).1
      (acquireRow family L expiresAt now r).2 := by
  unfold acquireRow
  cases family with
  | postgresql => exact postgresConflict_takes positive expiresAt now r
  | mysql => exact mysqlConflict_takes expiresAt now r numbered
  | mariadb => exact mysqlConflict_takes expiresAt now r numbered
  | sqlite =>
      have filter : (acquireUpdate L expiresAt now).filter r = decide (r.limit - L < r.value) := rfl
      simp only [filter]
      by_cases free : r.limit - L < r.value
      · simp only [free, decide_true, if_true, acquireUpdate_run]
        exact ⟨by simpa using (reconciledAvailable_pos_iff positive r).mpr free, rfl, rfl, rfl, rfl⟩
      · simp only [free, decide_false, Bool.false_eq_true, if_false]
        exact reconcileUpdate_takes now r
          (fun pos => free ((reconciledAvailable_pos_iff positive r).mp pos))

end Acquire

/-- `semaphore_acquire_many` on an existing row. -/
theorem acquireManyRow_slots (count L : Int) (expiresAt now : Time) (r : Semaphore) :
    (acquireManyRow count L expiresAt now r).value =
        reconciledAvailable L r - acquirableCount count L r ∧
      (acquireManyRow count L expiresAt now r).limit = L ∧
      (acquireManyRow count L expiresAt now r).key = r.key ∧
      (acquireManyRow count L expiresAt now r).id = r.id := by
  simp only [acquireManyRow]
  split
  · exact ⟨rfl, rfl, rfl, rfl⟩
  · split
    · exact ⟨rfl, rfl, rfl, rfl⟩
    · rename_i same
      simp only [Bool.or_eq_true, decide_eq_true_eq, not_or, Decidable.not_not, ne_eq] at same
      exact ⟨same.1.1, same.2, rfl, rfl⟩

/-- The columns a group acquire leaves, whether it saved them or found them. -/
theorem columns_acquireManyRow (count L : Int) (expiresAt now : Time) (r : Semaphore) :
    (acquireManyRow count L expiresAt now r).columns =
      [reconciledAvailable L r - acquirableCount count L r, L,
        L - (reconciledAvailable L r - acquirableCount count L r)] := by
  simp only [acquireManyRow]
  split
  · rfl
  · split
    · rfl
    · rename_i same
      simp only [Bool.or_eq_true, decide_eq_true_eq, not_or, Decidable.not_not, ne_eq] at same
      rw [Semaphore.columns, same.1.2, same.2, Option.toList_some]
      exact congrArg (· :: _) same.1.1

end DjQueue
