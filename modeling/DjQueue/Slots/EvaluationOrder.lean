import DjQueue.Slots.Rows

/-!
# The slot updates under both evaluation orders

`semaphore_release`, `_handoff_released_claimed_slot` and `_consume_released_semaphore_slot`
set `value` first and compute `active_count` from `F("value")` afterwards.  Where a right-hand
side sees the columns already assigned, `active_count` is computed from the new `value`.  The
theorem below says on exactly which rows that makes no difference.
-/

namespace DjQueue

open Relational

/-- The bridge column mirrors the free slots. -/
def Semaphore.Coherent (r : Semaphore) : Prop := r.activeCount = some (r.limit - r.value)

instance (r : Semaphore) : Decidable r.Coherent := by unfold Semaphore.Coherent; infer_instance

/-- The key's row after a session. -/
def semaphoreAfter {α : Type} (x : Op α) (w : World) (key : String) : Option Semaphore :=
  (finalState x w).db.findSemaphore key

/-- Two sessions leave the same slot columns in the key's row, and leave it coherent. -/
def SlotsAgree {α : Type} (x y : Op α) (w : World) (key : String) : Prop :=
  (semaphoreAfter x w key).map Semaphore.slots = (semaphoreAfter y w key).map Semaphore.slots ∧
    ∀ r ∈ semaphoreAfter y w key, r.Coherent

instance {α : Type} (x y : Op α) (w : World) (key : String) : Decidable (SlotsAgree x y w key) := by
  unfold SlotsAgree; infer_instance

/-! ## The updates -/

section Updates

variable (order : EvaluationOrder) (key : String) (L : Int) (expiresAt now : Time) (w : World)

theorem semaphoreAfter_semaphoreReleaseUpdate :
    semaphoreAfter (updateSemaphore order key (semaphoreReleaseUpdate L expiresAt now)) w key =
      (w.db.findSemaphore key).map ((semaphoreReleaseUpdate L expiresAt now).run order) :=
  find?_updateWhere_key (fun r => (sameRow_semaphoreReleaseUpdate L _ _ _ r).1)

/-- The row after the hand-off of a released slot. -/
theorem semaphoreAfter_handoffReleasedClaimedSlotUpdate :
    semaphoreAfter (updateSemaphore order key (handoffReleasedClaimedSlotUpdate L expiresAt now))
        w key =
      (w.db.findSemaphore key).map
        ((handoffReleasedClaimedSlotUpdate L expiresAt now).run order) :=
  find?_updateWhere_key (fun r => (sameRow_handoffReleasedClaimedSlotUpdate L _ _ _ r).1)

/-- The row after the portable hand-off. -/
theorem semaphoreAfter_consumeReleasedSemaphoreSlotUpdate :
    semaphoreAfter (updateSemaphore order key (consumeReleasedSemaphoreSlotUpdate L expiresAt now))
        w key =
      (w.db.findSemaphore key).map
        ((consumeReleasedSemaphoreSlotUpdate L expiresAt now).run order) :=
  find?_updateWhere_key (fun r => (sameRow_consumeReleasedSemaphoreSlotUpdate L _ _ _ r).1)

end Updates

theorem Semaphore.coherent_iff_slots (r : Semaphore) :
    r.Coherent ↔ r.slots.2.1 = some (r.slots.2.2 - r.slots.1) := Iff.rfl

/-- Two rows agree on their slots, the second one coherently, as far as the triples say. -/
theorem slotsAgree_iff {α : Type} {x y : Op α} {w : World} {key : String} {r : Semaphore}
    {f g : Semaphore → Semaphore} (found : w.db.findSemaphore key = some r)
    (left : semaphoreAfter x w key = (w.db.findSemaphore key).map f)
    (right : semaphoreAfter y w key = (w.db.findSemaphore key).map g) :
    SlotsAgree x y w key ↔ (f r).slots = (g r).slots ∧ (g r).Coherent := by
  simp [SlotsAgree, left, right, found]

/-! ## Where the order does not matter -/

/-- The rows on which a release is computed alike in both orders: the new `value` does not
move when it is released once more. -/
def releaseOrderFree (L : Int) (r : Semaphore) : Prop :=
  r.limit = L + 1 ∨ (r.limit ≤ L ∧ r.limit ≤ r.value + 1) ∨
    (L + 1 < r.limit ∧ r.value + L + 1 ≤ r.limit)

/-- The rows on which a hand-off is: it is refused, the limit stays, or the row ends full. -/
def handoffOrderFree (L : Int) (r : Semaphore) : Prop :=
  r.value + L + 1 ≤ r.limit ∨ r.limit = L ∨ (r.limit < L ∧ r.limit ≤ r.value + 1)

section OrderFree

variable {L : Int} {r : Semaphore} (positive : 0 < L) (nonneg : 0 ≤ r.value)
  (bounded : r.value ≤ r.limit) (coherent : r.Coherent) (expiresAt now : Time)

include positive nonneg bounded in
/-- On which rows the release depends on no order. -/
theorem release_orderFree_iff :
    (((semaphoreReleaseUpdate L expiresAt now).run .simultaneous r).slots =
        ((semaphoreReleaseUpdate L expiresAt now).run .leftToRight r).slots ∧
      ((semaphoreReleaseUpdate L expiresAt now).run .leftToRight r).Coherent) ↔
      releaseOrderFree L r := by
  rw [Semaphore.coherent_iff_slots, slots_run_semaphoreReleaseUpdate,
    slots_run_semaphoreReleaseUpdate]
  simp only [releasedAvailable, releaseOrderFree, Prod.mk.injEq, Option.some.injEq, true_and,
    and_true]
  omega

include positive bounded coherent in
/-- On which rows the hand-off depends on none. -/
theorem handoff_orderFree_iff :
    (((handoffReleasedClaimedSlotUpdate L expiresAt now).run .simultaneous r).slots =
        ((handoffReleasedClaimedSlotUpdate L expiresAt now).run .leftToRight r).slots ∧
      ((handoffReleasedClaimedSlotUpdate L expiresAt now).run .leftToRight r).Coherent) ↔
      handoffOrderFree L r := by
  rw [Semaphore.coherent_iff_slots, slots_run_handoffReleasedClaimedSlotUpdate,
    slots_run_handoffReleasedClaimedSlotUpdate]
  by_cases accepted : r.limit - L - 1 < r.value
  · simp only [accepted, if_true, releasedAvailable, handoffOrderFree, Prod.mk.injEq,
      Option.some.injEq, true_and, and_true]
    omega
  · have refused : handoffOrderFree L r := Or.inl (by omega)
    simp only [accepted, if_false, refused, true_and, iff_true]
    exact coherent

include nonneg coherent in
/-- On which rows the portable hand-off depends on none. -/
theorem consume_orderFree_iff :
    (((consumeReleasedSemaphoreSlotUpdate L expiresAt now).run .simultaneous r).slots =
        ((consumeReleasedSemaphoreSlotUpdate L expiresAt now).run .leftToRight r).slots ∧
      ((consumeReleasedSemaphoreSlotUpdate L expiresAt now).run .leftToRight r).Coherent) ↔
      r.value = 0 := by
  rw [Semaphore.coherent_iff_slots, slots_run_consumeReleasedSemaphoreSlotUpdate,
    slots_run_consumeReleasedSemaphoreSlotUpdate]
  by_cases accepted : 0 < r.value
  · simp only [accepted, if_true, Prod.mk.injEq, Option.some.injEq, true_and, and_true]
    omega
  · simp only [accepted, if_false, true_and]
    exact ⟨fun _ => by omega, fun _ => coherent⟩

end OrderFree

/-- On a coherent row, the `UPDATE`s of the three operations leave the same slot columns on a
database of either kind, and a coherent row, exactly under these conditions.  A release of the row's
own limit is right only when it fills the row; taking a released slot is right only when there is
none. -/
theorem slotUpdates_agree_iff {pg my : BackendFamily}
    (simultaneous : pg.evaluationOrder = .simultaneous)
    (leftToRight : my.evaluationOrder = .leftToRight)
    {w : World} {key : String} {r : Semaphore} (found : w.db.findSemaphore key = some r)
    (nonneg : 0 ≤ r.value) (bounded : r.value ≤ r.limit) (coherent : r.Coherent)
    {L : Int} (positive : 0 < L) (expiresAt now : Time) :
    (SlotsAgree (updateSemaphore pg.evaluationOrder key (semaphoreReleaseUpdate L expiresAt now))
        (updateSemaphore my.evaluationOrder key (semaphoreReleaseUpdate L expiresAt now)) w key ↔
        releaseOrderFree L r) ∧
      (SlotsAgree
          (updateSemaphore pg.evaluationOrder key
            (handoffReleasedClaimedSlotUpdate L expiresAt now))
          (updateSemaphore my.evaluationOrder key
            (handoffReleasedClaimedSlotUpdate L expiresAt now)) w key ↔ handoffOrderFree L r) ∧
      (SlotsAgree
          (updateSemaphore pg.evaluationOrder key
            (consumeReleasedSemaphoreSlotUpdate L expiresAt now))
          (updateSemaphore my.evaluationOrder key
            (consumeReleasedSemaphoreSlotUpdate L expiresAt now)) w key ↔ r.value = 0) := by
  refine ⟨?_, ?_, ?_⟩
  · rw [slotsAgree_iff found (semaphoreAfter_semaphoreReleaseUpdate _ key L expiresAt now w)
      (semaphoreAfter_semaphoreReleaseUpdate _ key L expiresAt now w), simultaneous, leftToRight]
    exact release_orderFree_iff positive nonneg bounded _ _
  · rw [slotsAgree_iff found
      (semaphoreAfter_handoffReleasedClaimedSlotUpdate _ key L expiresAt now w)
      (semaphoreAfter_handoffReleasedClaimedSlotUpdate _ key L expiresAt now w), simultaneous,
      leftToRight]
    exact handoff_orderFree_iff positive bounded coherent _ _
  · rw [slotsAgree_iff found
      (semaphoreAfter_consumeReleasedSemaphoreSlotUpdate _ key L expiresAt now w)
      (semaphoreAfter_consumeReleasedSemaphoreSlotUpdate _ key L expiresAt now w), simultaneous,
      leftToRight]
    exact consume_orderFree_iff nonneg coherent _ _

/-- A semaphore of limit two, both slots taken. -/
def fullSemaphore : Semaphore := newSemaphore "k" 2 2 180000000 0 1

/-- The full semaphore, alone in its table. -/
def fullSemaphoreWorld : World where
  db := { Db.empty with semaphores := ⟨[fullSemaphore], 2⟩ }
  clock _ := 1
  uuids n := n

/-- One of the two slots is given back: MySQL records no active job where one is left. -/
theorem semaphoreRelease_disagrees_on_mysql :
    fullSemaphoreWorld.db.findSemaphore "k" = some fullSemaphore ∧
      0 ≤ fullSemaphore.value ∧ fullSemaphore.value ≤ fullSemaphore.limit ∧
      fullSemaphore.Coherent ∧
      ¬ SlotsAgree (semaphoreRelease (.ofConfig { family := .postgresql }) "k" 2 180)
          (semaphoreRelease (.ofConfig { family := .mysql }) "k" 2 180) fullSemaphoreWorld "k" := by
  decide

/-- The full semaphore released under both orders. -/
theorem slotUpdates_agree_iff_on_fullSemaphore :
    (SlotsAgree
        (updateSemaphore BackendFamily.postgresql.evaluationOrder "k"
          (semaphoreReleaseUpdate 3 180000001 1))
        (updateSemaphore BackendFamily.mysql.evaluationOrder "k"
          (semaphoreReleaseUpdate 3 180000001 1)) fullSemaphoreWorld "k" ↔
      releaseOrderFree 3 fullSemaphore) ∧
    (SlotsAgree
        (updateSemaphore BackendFamily.postgresql.evaluationOrder "k"
          (handoffReleasedClaimedSlotUpdate 3 180000001 1))
        (updateSemaphore BackendFamily.mysql.evaluationOrder "k"
          (handoffReleasedClaimedSlotUpdate 3 180000001 1)) fullSemaphoreWorld "k" ↔
      handoffOrderFree 3 fullSemaphore) ∧
    (SlotsAgree
        (updateSemaphore BackendFamily.postgresql.evaluationOrder "k"
          (consumeReleasedSemaphoreSlotUpdate 3 180000001 1))
        (updateSemaphore BackendFamily.mysql.evaluationOrder "k"
          (consumeReleasedSemaphoreSlotUpdate 3 180000001 1)) fullSemaphoreWorld "k" ↔
      fullSemaphore.value = 0) :=
  slotUpdates_agree_iff rfl rfl (by decide) (by decide) (by decide) (by decide) (by decide) _ 1

end DjQueue
