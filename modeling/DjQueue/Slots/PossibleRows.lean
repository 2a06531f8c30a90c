import DjQueue.Relational.Upkeep
import DjQueue.Slots.WellFormed

/-!
# Possible slot counts

What the deep health check asks of every semaphore row, on every database: at least one slot, no
fewer than none free and no more than all, and no negative number of active jobs.  The order in
which an `UPDATE` evaluates its assignments changes the active count only, and never below zero.
-/

namespace DjQueue

open Relational

/-- What the health check does not report. -/
structure Semaphore.Possible (r : Semaphore) : Prop where
  limit : 1 ≤ r.limit
  least : 0 ≤ r.value
  most : r.value ≤ r.limit
  active : ∀ n, r.activeCount = some n → 0 ≤ n

/-- Numbered rows, each with possible counts. -/
structure PossibleSlots (t : Table Semaphore) : Prop where
  numbered : SemaphoresNumbered t
  rows : ∀ r ∈ t.rows, r.Possible

/-- The row of the key, if there is one, has this limit. -/
structure PossibleUnder (key : String) (L : Int) (t : Table Semaphore) : Prop
    extends PossibleSlots t where
  limited : ∀ r ∈ t.rows, r.key = key → r.limit = L

theorem Semaphore.WellFormed.possible {r : Semaphore} (formed : r.WellFormed) : r.Possible where
  limit := formed.limit
  least := formed.free
  most := formed.fits
  active := by
    intro n count
    have fits := formed.fits
    rw [formed.count] at count
    cases count
    omega

/-! ## Updates of a row -/

section Updates

variable {L : Int} (positive : 0 < L) (order : EvaluationOrder) (expiresAt now : Time)
  {r : Semaphore}

theorem Semaphore.possible_of_slots {value active : Int}
    (slots : r.slots = (value, some active, L)) (positive : 0 < L) (least : 0 ≤ value)
    (most : value ≤ L) (held : 0 ≤ active) : r.Possible ∧ r.limit = L := by
  simp only [Semaphore.slots, Prod.mk.injEq] at slots
  rcases slots with ⟨isValue, count, limit⟩
  refine ⟨⟨by omega, by omega, by omega, ?_⟩, limit⟩
  intro n isCount
  rw [count] at isCount
  cases isCount
  exact held

include positive

theorem possible_semaphoreRelease :
    ((semaphoreReleaseUpdate L expiresAt now).run order r).Possible ∧
      ((semaphoreReleaseUpdate L expiresAt now).run order r).limit = L := by
  have bounds := releasedAvailable_bounds positive r
  apply Semaphore.possible_of_slots (slots_run_semaphoreReleaseUpdate ..) positive bounds.1 bounds.2
  cases order with
  | simultaneous => exact Int.sub_nonneg_of_le bounds.2
  | leftToRight => exact Int.sub_nonneg_of_le (releasedAvailable_bounds positive _).2

theorem possible_handoffReleasedClaimedSlot (possible : r.Possible) :
    ((handoffReleasedClaimedSlotUpdate L expiresAt now).run order r).Possible := by
  by_cases accepted : r.limit - L - 1 < r.value
  · have slots := slots_run_handoffReleasedClaimedSlotUpdate L expiresAt now order r
    rw [if_pos accepted] at slots
    have bounds := releasedAvailable_bounds positive r
    have room : 1 ≤ releasedAvailable L r := by
      unfold releasedAvailable
      omega
    apply (Semaphore.possible_of_slots slots positive (by omega) (by omega) ?_).1
    cases order with
    | simultaneous => dsimp only; omega
    | leftToRight =>
        have later := releasedAvailable_bounds positive
          { r with value := releasedAvailable L r - 1 }
        dsimp only
        omega
  · have refused : ¬ (handoffReleasedClaimedSlotUpdate L expiresAt now).filter r = true :=
      fun hit => accepted (of_decide_eq_true hit)
    rw [Update.run, if_neg refused]
    exact possible

/-- The row has this limit already. -/
theorem possible_consumeReleasedSemaphoreSlot (possible : r.Possible) (limited : r.limit = L) :
    ((consumeReleasedSemaphoreSlotUpdate L expiresAt now).run order r).Possible ∧
      ((consumeReleasedSemaphoreSlotUpdate L expiresAt now).run order r).limit = L := by
  by_cases accepted : 0 < r.value
  · have slots := slots_run_consumeReleasedSemaphoreSlotUpdate L expiresAt now order r
    rw [if_pos accepted] at slots
    have most := possible.most
    apply Semaphore.possible_of_slots slots positive (by omega) (by omega)
    cases order with
    | simultaneous => dsimp only; omega
    | leftToRight => dsimp only; omega
  · rw [Update.run, if_neg (by simpa [consumeReleasedSemaphoreSlotUpdate] using accepted)]
    exact ⟨possible, limited⟩

end Updates

/-! ## The table -/

section Tables

variable {key : String} {L : Int} {t : Table Semaphore}

theorem PossibleSlots.update (possible : PossibleSlots t) {f : Semaphore → Semaphore}
    (keeps : ∀ r : Semaphore, r.SameRow (f r))
    (keepsPossible : ∀ r ∈ t.rows, r.key = key → r.Possible → (f r).Possible) :
    PossibleSlots (t.updateWhere (fun r => r.key == key) f) where
  numbered := possible.numbered.update keeps
  rows := Table.forall_updateWhere possible.rows fun r mem hit =>
    keepsPossible r mem (beq_iff_eq.mp hit) (possible.rows r mem)

/-- An update that brings the key under the limit. -/
theorem PossibleUnder.update (possible : PossibleSlots t) {f : Semaphore → Semaphore}
    (keeps : ∀ r : Semaphore, r.SameRow (f r))
    (under : ∀ r ∈ t.rows, r.key = key → r.Possible → (f r).Possible ∧ (f r).limit = L) :
    PossibleUnder key L (t.updateWhere (fun r => r.key == key) f) where
  toPossibleSlots := possible.update keeps fun r mem same inside => (under r mem same inside).1
  limited := by
    intro r mem same
    rcases List.mem_map.mp mem with ⟨old, there, rfl⟩
    by_cases hit : (old.key == key) = true
    · rw [if_pos hit]
      exact (under old there (beq_iff_eq.mp hit) (possible.rows old there)).2
    · rw [if_neg hit] at same
      exact absurd (beq_iff_eq.mpr same) hit

theorem PossibleSlots.insert (possible : PossibleSlots t) {mk : Nat → Semaphore}
    (id : ∀ n, (mk n).id = n) (absent : ∀ r ∈ t.rows, r.key ≠ (mk t.nextId).key)
    (inside : (mk t.nextId).Possible) : PossibleSlots (t.insert mk) where
  numbered := possible.numbered.insert id absent
  rows := Table.forall_insert possible.rows inside

theorem ne_of_findSemaphore_none {db : Db} (absent : db.findSemaphore key = none) :
    ∀ r ∈ db.semaphores.rows, r.key ≠ key := by
  intro r mem same
  exact absurd (List.find?_eq_none.mp absent r mem) (by rw [same, beq_self_eq_true]; decide)

end Tables

end DjQueue
