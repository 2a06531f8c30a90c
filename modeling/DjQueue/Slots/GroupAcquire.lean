import DjQueue.Relational.Serving
import DjQueue.Slots.WellFormed

/-!
# One `semaphore_acquire_many` or one `semaphore_acquire` after another

At one fixed time, asking for a number of slots of a key at once and asking for them one by one
gives the same number of slots and leaves the same rows.  Requests of different keys do not disturb
each other once one key has its row: an update of that row and a new row of another key commute.
-/

namespace DjQueue

open Relational

/-- `semaphore_acquire` on the semaphores. -/
def acquireSlot (key : String) (limit : Int) (expiresAt now : Time) (t : Table Semaphore) :
    Bool × Table Semaphore :=
  match t.rows.find? (fun r => r.key == key) with
  | none => (true, t.insert (newSemaphore key limit 1 expiresAt now))
  | some r => ((acquireSpec limit expiresAt now r).1,
      t.updateWhere (fun r => r.key == key) (fun r => (acquireSpec limit expiresAt now r).2))

/-- `semaphore_acquire_many` on the semaphores. -/
def acquireSlots (key : String) (count limit : Int) (expiresAt now : Time) (t : Table Semaphore) :
    Int × Table Semaphore :=
  if count ≤ 0 then (0, t)
  else match t.rows.find? (fun r => r.key == key) with
    | none => (min count limit, t.insert (newSemaphore key limit (min count limit) expiresAt now))
    | some r => (acquirableCount count limit r,
        t.updateWhere (fun r => r.key == key) (acquireManyRow count limit expiresAt now))

/-- Acquiring touches the semaphores alone. -/
theorem acquire_eq (db : Db) (key : String) (limit : Int) (expiresAt now : Time) :
    db.acquire key limit expiresAt now =
      ((acquireSlot key limit expiresAt now db.semaphores).1,
        { db with semaphores := (acquireSlot key limit expiresAt now db.semaphores).2 }) := by
  unfold Db.acquire acquireSlot Db.findSemaphore
  cases db.semaphores.rows.find? (fun r => r.key == key) with
  | none => rfl
  | some r => rfl

/-- A group acquire stores no number beyond its limit. -/
theorem acquireManyNumbers_fit_iff {family : BackendFamily} {count limit : Int} (asks : 0 < count)
    (positive : 0 < limit) (expiresAt now : Time) (row : Option Semaphore) :
    (acquireManyNumbers count limit expiresAt now row).all family.holds = true ↔
      family.holds limit = true := by
  have between : ∀ x, 0 ≤ x → x ≤ limit → family.holds limit = true → family.holds x = true :=
    fun x => BackendFamily.holds_of_between
  have stored : ∀ free, 0 ≤ free → free ≤ limit →
      ([free, limit, limit - free].all family.holds = true ↔ family.holds limit = true) := by
    intro free nonneg le
    simp only [List.all_cons, List.all_nil, Bool.and_true, Bool.and_eq_true]
    exact ⟨fun all => all.2.1, fun holds => ⟨between _ nonneg le holds, holds,
      between _ (by omega) (by omega) holds⟩⟩
  cases row with
  | none =>
      have opened := stored (limit - min count limit) (by omega) (by omega)
      have taken : limit - (limit - min count limit) = min count limit := by omega
      rw [taken] at opened
      simp only [acquireManyNumbers, List.all_cons, List.all_nil, Bool.and_true,
        Bool.and_eq_true] at opened ⊢
      refine ⟨fun all => all.2.2, fun holds => ?_⟩
      obtain ⟨free, here, given⟩ := opened.mpr holds
      exact ⟨free, given, here⟩
  | some r =>
      have bounds := reconciledAvailable_bounds positive r
      rw [acquireManyNumbers, columns_acquireManyRow]
      exact stored _ (by unfold acquirableCount; omega) (by unfold acquirableCount; omega)

/-- `semaphore_acquire_many` under a positive limit comes to asking for one slot after another. -/
theorem runs_semaphoreAcquireMany {env : Env} {count limit duration : Int} {now : Time}
    (positive : 0 < limit) (inRange : 0 < count → isDatetime (now + seconds duration) = true)
    (holds : 0 < count → env.config.family.holds limit = true) (db : Db) (key : String)
    (uuids : Nat → JobId) :
    Runs (semaphoreAcquireMany env key count limit duration) ⟨db, fun _ => now, uuids⟩
      (acquireSlots key count limit (now + seconds duration) now db.semaphores).1
      ⟨{ db with semaphores :=
        (acquireSlots key count limit (now + seconds duration) now db.semaphores).2 },
        fun _ => now, uuids⟩ := by
  unfold semaphoreAcquireMany acquireSlots
  split
  · rfl
  · rename_i asks
    have asks : 0 < count := by omega
    refine Runs.bind (runs_timezoneNow _) (Runs.bind (runs_addSeconds (inRange asks) _)
      (Runs.bind (runs_timezoneNow _) (Runs.bind (runs_getDb _) (Runs.bind (runs_ensureFits
        ((acquireManyNumbers_fit_iff asks positive _ _ _).mpr (holds asks)) _) ?_))))
    cases found : db.findSemaphore key with
    | none =>
        have absent : db.semaphores.rows.find? (fun r => r.key == key) = none := found
        rw [absent]
        rfl
    | some r =>
        have here : db.semaphores.rows.find? (fun r => r.key == key) = some r := found
        rw [here]
        rfl

/-! ## One key -/

section Rows

variable {L : Int} (positive : 0 < L) (expiresAt now : Time) (r : Semaphore)

theorem key_acquireSpec : (acquireSpec L expiresAt now r).2.key = r.key := by
  unfold acquireSpec
  dsimp only
  split <;> rfl

include positive in
/-- After an acquire the free slots are those of the row. -/
theorem reconciledAvailable_acquireSpec :
    reconciledAvailable L (acquireSpec L expiresAt now r).2 =
      (acquireSpec L expiresAt now r).2.value := by
  have bounds := reconciledAvailable_bounds positive r
  unfold acquireSpec
  dsimp only
  split
  · rw [reconciledAvailable]
    dsimp only
    omega
  · rw [reconciledAvailable]
    dsimp only
    omega

include positive in
theorem acquirableCount_acquireSpec (n : Nat) :
    acquirableCount (n + 1) L r = (if (acquireSpec L expiresAt now r).1 then 1 else 0) +
      acquirableCount n L (acquireSpec L expiresAt now r).2 := by
  have bounds := reconciledAvailable_bounds positive r
  unfold acquirableCount
  rw [reconciledAvailable_acquireSpec positive]
  unfold acquireSpec
  dsimp only
  split
  · rw [if_pos rfl]
    dsimp only
    omega
  · rw [if_neg Bool.false_ne_true]
    dsimp only
    omega

theorem slots_acquireSpec :
    (acquireSpec L expiresAt now r).2.slots =
      ((acquireSpec L expiresAt now r).2.value,
        some (L - (acquireSpec L expiresAt now r).2.value), L) := by
  unfold acquireSpec
  dsimp only
  split <;> rfl

variable {r} in
/-- A row that is up to date and has no slot to give stays as it is. -/
theorem acquireManyRow_of_none {count : Int} (none : acquirableCount count L r = 0)
    (current : r.slots = (reconciledAvailable L r, some (L - reconciledAvailable L r), L)) :
    acquireManyRow count L expiresAt now r = r := by
  unfold Semaphore.slots at current
  simp only [Prod.mk.injEq] at current
  obtain ⟨value, active, limit⟩ := current
  unfold acquireManyRow
  dsimp only
  rw [none, if_neg (not_not_intro rfl), Int.sub_zero, if_neg]
  rw [← value] at active ⊢
  simp [active, limit]

include positive in
/-- The first slot and then the others, in one row. -/
theorem acquireManyRow_acquireSpec (n : Nat) :
    acquireManyRow (n + 1) L expiresAt now r =
      acquireManyRow n L expiresAt now (acquireSpec L expiresAt now r).2 := by
  have bounds := reconciledAvailable_bounds positive r
  have available := reconciledAvailable_acquireSpec positive expiresAt now r
  have slots := slots_acquireSpec (L := L) expiresAt now r
  rw [← available] at slots
  by_cases given : 0 < reconciledAvailable L r
  · have spec : (acquireSpec L expiresAt now r).2 = { r with
        value := reconciledAvailable L r - 1
        activeCount := some (L - (reconciledAvailable L r - 1))
        limit := L, expiresAt := expiresAt, updatedAt := now } := by
      unfold acquireSpec
      dsimp only
      rw [if_pos given]
    have left : acquireManyRow (n + 1) L expiresAt now r = { r with
        value := reconciledAvailable L r - acquirableCount (n + 1) L r
        activeCount := some (L - (reconciledAvailable L r - acquirableCount (n + 1) L r))
        limit := L, expiresAt := expiresAt, updatedAt := now } := by
      unfold acquireManyRow
      dsimp only
      rw [if_pos]
      unfold acquirableCount
      omega
    by_cases more : acquirableCount n L (acquireSpec L expiresAt now r).2 = 0
    · rw [acquireManyRow_of_none expiresAt now more slots, left, spec]
      have one : acquirableCount (n + 1) L r = 1 := by
        rw [acquirableCount_acquireSpec positive expiresAt now, more]
        simp [acquireSpec, given]
      rw [one]
    · have next : acquirableCount (n + 1) L r =
          1 + acquirableCount n L (acquireSpec L expiresAt now r).2 := by
        rw [acquirableCount_acquireSpec positive expiresAt now]
        simp [acquireSpec, given]
      rw [left, acquireManyRow, if_pos more, available, next]
      generalize acquirableCount n L (acquireSpec L expiresAt now r).2 = others
      have shift : reconciledAvailable L r - (1 + others) =
          reconciledAvailable L r - 1 - others := by omega
      simp only [spec, shift]
  · -- no slot: the row is brought up to date, once
    have none : ∀ m : Nat, acquirableCount m L (acquireSpec L expiresAt now r).2 = 0 := by
      intro m
      have refused : (acquireSpec L expiresAt now r).2.value = reconciledAvailable L r := by
        unfold acquireSpec
        dsimp only
        rw [if_neg given]
      unfold acquirableCount
      rw [available, refused]
      omega
    have zero : acquirableCount (n + 1) L r = 0 := by
      unfold acquirableCount
      omega
    rw [acquireManyRow_of_none expiresAt now (none n) slots]
    unfold acquireManyRow acquireSpec
    dsimp only
    rw [zero, if_neg (not_not_intro rfl), Int.sub_zero, if_neg given]
    by_cases same : (reconciledAvailable L r, some (L - reconciledAvailable L r), L) = r.slots
    · rw [if_pos same, Semaphore.withSlots_self same, if_neg]
      unfold Semaphore.slots at same
      simp only [Prod.mk.injEq] at same
      simp [← same.1, ← same.2.1, ← same.2.2]
    · rw [if_neg same, if_pos]
      simp only [Semaphore.slots, Prod.mk.injEq, not_and] at same
      simp only [Bool.or_eq_true, decide_eq_true_eq, ne_eq]
      by_contra agrees
      simp only [not_or, Decidable.not_not] at agrees
      exact same agrees.1.1.symm agrees.1.2.symm agrees.2.symm

include positive in
/-- The row a first slot opens, and then the others. -/
theorem acquireManyRow_newSemaphore (key : String) (n id : Nat) :
    acquireManyRow n L expiresAt now (newSemaphore key L 1 expiresAt now id) =
      newSemaphore key L (min (n + 1) L) expiresAt now id := by
  have available : reconciledAvailable L (newSemaphore key L 1 expiresAt now id) = L - 1 := by
    simp only [reconciledAvailable, newSemaphore]
    omega
  by_cases none : acquirableCount n L (newSemaphore key L 1 expiresAt now id) = 0
  · rw [acquireManyRow_of_none expiresAt now none]
    · have one : min (n + 1 : Int) L = 1 := by
        unfold acquirableCount at none
        omega
      rw [one]
    · rw [available]
      simp only [newSemaphore, Semaphore.slots, Prod.mk.injEq, Option.some.injEq, true_and,
        and_true]
      omega
  · have taken : acquirableCount n L (newSemaphore key L 1 expiresAt now id) =
        min (n + 1 : Int) L - 1 := by
      unfold acquirableCount
      omega
    unfold acquireManyRow
    dsimp only
    rw [if_pos none, taken, available]
    simp only [newSemaphore, Semaphore.mk.injEq, Option.some.injEq, true_and, and_true]
    omega

end Rows

section Tables

variable {L : Int} (positive : 0 < L) (key : String) (expiresAt now : Time) (t : Table Semaphore)

include positive in
/-- Many slots are one slot and then the others. -/
theorem acquireSlots_succ (n : Nat) :
    acquireSlots key (n + 1) L expiresAt now t =
      ((if (acquireSlot key L expiresAt now t).1 then 1 else 0) +
          (acquireSlots key n L expiresAt now (acquireSlot key L expiresAt now t).2).1,
        (acquireSlots key n L expiresAt now (acquireSlot key L expiresAt now t).2).2) := by
  cases found : t.rows.find? (fun r => r.key == key) with
  | none =>
      have miss : ∀ r ∈ t.rows, (r.key == key) = true → False :=
        fun r mem hit => List.find?_eq_none.mp found r mem hit
      have first : acquireSlot key L expiresAt now t =
          (true, t.insert (newSemaphore key L 1 expiresAt now)) := by
        unfold acquireSlot
        rw [found]
      have left : acquireSlots key (n + 1) L expiresAt now t = (min (n + 1 : Int) L,
          t.insert (newSemaphore key L (min (n + 1 : Int) L) expiresAt now)) := by
        unfold acquireSlots
        rw [if_neg (by omega), found]
      rw [left, first]
      have opened : (t.insert (newSemaphore key L 1 expiresAt now)).rows.find?
          (fun r => r.key == key) = some (newSemaphore key L 1 expiresAt now t.nextId) := by
        rw [Table.rows_insert, List.find?_append, found]
        simp [newSemaphore]
      unfold acquireSlots
      cases n with
      | zero =>
          have one : min (((0 : Nat) : Int) + 1) L = 1 := by omega
          rw [one]
          rfl
      | succ n =>
          have available : acquirableCount ((n + 1 : Nat) : Int) L
              (newSemaphore key L 1 expiresAt now t.nextId) = min (n + 1 : Int) (L - 1) := by
            simp only [acquirableCount, reconciledAvailable, newSemaphore]
            omega
          dsimp only
          rw [if_pos rfl, if_neg (by omega), opened]
          dsimp only
          rw [available]
          refine Prod.ext (by dsimp only; omega) ?_
          dsimp only
          have others : t.updateWhere (fun r => r.key == key)
              (acquireManyRow ((n + 1 : Nat) : Int) L expiresAt now) = t :=
            t.updateWhere_eq_self fun r mem hit => (miss r mem hit).elim
          have rows := congrArg Table.rows others
          rw [Table.rows_updateWhere] at rows
          simp only [Table.insert, Table.updateWhere, List.map_append, rows, List.map_singleton]
          rw [if_pos (by simp [newSemaphore]), acquireManyRow_newSemaphore positive]
  | some r =>
      have first : acquireSlot key L expiresAt now t = ((acquireSpec L expiresAt now r).1,
          t.updateWhere (fun r => r.key == key) (fun r => (acquireSpec L expiresAt now r).2)) := by
        unfold acquireSlot
        rw [found]
      have left : acquireSlots key (n + 1) L expiresAt now t =
          (acquirableCount (n + 1) L r, t.updateWhere (fun r => r.key == key)
            (fun r => acquireManyRow n L expiresAt now (acquireSpec L expiresAt now r).2)) := by
        unfold acquireSlots
        rw [if_neg (by omega), found]
        dsimp only
        rw [funext fun r => acquireManyRow_acquireSpec positive expiresAt now r n]
      have next : (t.updateWhere (fun r => r.key == key)
          (fun r => (acquireSpec L expiresAt now r).2)).rows.find? (fun r => r.key == key) =
            some (acquireSpec L expiresAt now r).2 := by
        rw [Table.rows_updateWhere, find?_updateWhere_key (key_acquireSpec expiresAt now), found]
        rfl
      rw [left, first, acquirableCount_acquireSpec positive expiresAt now]
      unfold acquireSlots
      dsimp only
      cases n with
      | zero =>
          have none : ∀ r : Semaphore,
              acquirableCount ((0 : Nat) : Int) L (acquireSpec L expiresAt now r).2 = 0 := by
            intro r
            have bounds := reconciledAvailable_bounds positive (acquireSpec L expiresAt now r).2
            unfold acquirableCount
            omega
          have row : (fun r => acquireManyRow ((0 : Nat) : Int) L expiresAt now
              (acquireSpec L expiresAt now r).2) = fun r => (acquireSpec L expiresAt now r).2 := by
            funext r
            refine acquireManyRow_of_none expiresAt now (none r) ?_
            rw [slots_acquireSpec, reconciledAvailable_acquireSpec positive]
          rw [none, row]
          rfl
      | succ n =>
          rw [if_neg (c := ((n + 1 : Nat) : Int) ≤ 0) (by omega), next,
            Table.updateWhere_updateWhere]
          · rfl
          · intro r hit
            rw [key_acquireSpec]
            exact hit

include positive in
theorem acquireSlots_nonneg (n : Nat) : 0 ≤ (acquireSlots key n L expiresAt now t).1 := by
  unfold acquireSlots
  split
  · exact Int.le_refl 0
  · split
    · dsimp only
      omega
    · rename_i r _
      have bounds := reconciledAvailable_bounds positive r
      unfold acquirableCount
      dsimp only
      omega

include positive in
/-- A key that has no slot for one has none for the others. -/
theorem acquireSlots_of_refused (refused : (acquireSlot key L expiresAt now t).1 = false)
    (n : Nat) :
    (acquireSlots key n L expiresAt now (acquireSlot key L expiresAt now t).2).1 = 0 := by
  cases found : t.rows.find? (fun r => r.key == key) with
  | none =>
      unfold acquireSlot at refused
      rw [found] at refused
      cases refused
  | some r =>
      have next : (acquireSlot key L expiresAt now t).2.rows.find? (fun r => r.key == key) =
          some (acquireSpec L expiresAt now r).2 := by
        unfold acquireSlot
        rw [found]
        dsimp only
        rw [Table.rows_updateWhere, find?_updateWhere_key (key_acquireSpec expiresAt now), found]
        rfl
      have none : (acquireSpec L expiresAt now r).2.value = 0 := by
        have bounds := reconciledAvailable_bounds positive r
        unfold acquireSlot at refused
        rw [found] at refused
        unfold acquireSpec at refused ⊢
        dsimp only at refused ⊢
        split at refused
        · cases refused
        · rename_i empty
          rw [if_neg empty]
          dsimp only
          omega
      unfold acquireSlots
      split
      · rfl
      · rw [next]
        dsimp only
        unfold acquirableCount
        rw [reconciledAvailable_acquireSpec positive, none]
        omega

variable {t} in
/-- Asking keeps the semaphores numbered. -/
theorem numbered_acquireSlot (numbered : SemaphoresNumbered t) :
    SemaphoresNumbered (acquireSlot key L expiresAt now t).2 := by
  unfold acquireSlot
  split
  · rename_i absent
    apply numbered.insert (fun _ => rfl)
    intro r mem same
    exact List.find?_eq_none.mp absent r mem (beq_iff_eq.mpr same)
  · apply numbered.update
    intro r
    unfold acquireSpec
    dsimp only
    split <;> exact ⟨rfl, rfl⟩

end Tables

/-! ## Many keys -/

/-- A request for a slot, at a fixed time. -/
def serveSlot (now : Time) (k : String × ConcurrencySettings) (t : Table Semaphore) :
    Bool × Table Semaphore :=
  acquireSlot k.1 k.2.limit (now + seconds k.2.durationSeconds) now t

theorem find?_acquireSlot_other {key other : String} (ne : other ≠ key) (L : Int)
    (expiresAt now : Time) (t : Table Semaphore) :
    (acquireSlot key L expiresAt now t).2.rows.find? (fun r => r.key == other) =
      t.rows.find? (fun r => r.key == other) := by
  unfold acquireSlot
  split
  · rw [Table.rows_insert, List.find?_append]
    cases t.rows.find? (fun r => r.key == other) with
    | none => simp [newSemaphore, Ne.symm ne]
    | some r => rfl
  · exact find?_updateWhere_other (key_acquireSpec expiresAt now) ne

theorem find?_acquireSlot_same (key : String) (L : Int) (expiresAt now : Time)
    (t : Table Semaphore) :
    ((acquireSlot key L expiresAt now t).2.rows.find? (fun r => r.key == key)).isSome := by
  unfold acquireSlot
  split
  · rename_i absent
    rw [Table.rows_insert, List.find?_append, absent]
    simp [newSemaphore]
  · rename_i r found
    rw [Table.rows_updateWhere, find?_updateWhere_key (key_acquireSpec expiresAt now), found]
    rfl

/-- What a request gives is decided by the key's row alone. -/
theorem acquireSlot_fst_congr {t t' : Table Semaphore} {key : String} (L : Int)
    (expiresAt now : Time)
    (same : t'.rows.find? (fun r => r.key == key) = t.rows.find? (fun r => r.key == key)) :
    (acquireSlot key L expiresAt now t').1 = (acquireSlot key L expiresAt now t).1 := by
  unfold acquireSlot
  rw [same]
  split <;> rfl

/-- Asking under one key commutes with asking under another. -/
theorem commutes_serveSlot (now : Time) :
    Commutes (serveSlot now) (fun k t => (t.rows.find? (fun r => r.key == k.1)).isSome)
      (fun k k' => k.1 ≠ k'.1) where
  served k t := find?_acquireSlot_same k.1 _ _ _ t
  stays k k' t known := by
    by_cases same : k.1 = k'.1
    · rw [same]
      exact find?_acquireSlot_same k'.1 _ _ _ t
    · rw [serveSlot, find?_acquireSlot_other same]
      exact known
  swap k k' t apart known := by
    have here : (serveSlot now k' t).2.rows.find? (fun r => r.key == k.1) =
        t.rows.find? (fun r => r.key == k.1) := find?_acquireSlot_other apart _ _ _ t
    have there : (serveSlot now k t).2.rows.find? (fun r => r.key == k'.1) =
        t.rows.find? (fun r => r.key == k'.1) := find?_acquireSlot_other (Ne.symm apart) _ _ _ t
    refine ⟨acquireSlot_fst_congr _ _ _ here, acquireSlot_fst_congr _ _ _ there, ?_⟩
    obtain ⟨r, found⟩ := Option.isSome_iff_exists.mp known
    have update : ∀ t' : Table Semaphore, t'.rows.find? (fun r => r.key == k.1) = some r →
        (serveSlot now k t').2 = t'.updateWhere (fun r => r.key == k.1)
          (fun r => (acquireSpec k.2.limit (now + seconds k.2.durationSeconds) now r).2) := by
      intro t' found
      unfold serveSlot acquireSlot
      rw [found]
    rw [update _ (here.trans found), update t found]
    rw [update t found] at there
    unfold serveSlot acquireSlot
    rw [there]
    split
    · exact Table.updateWhere_insert t (beq_eq_false_iff_ne.mpr (Ne.symm apart))
    · refine t.updateWhere_comm ?_ ?_ ?_
      · intro r hit
        rw [beq_iff_eq] at hit
        rw [hit]
        exact beq_eq_false_iff_ne.mpr (Ne.symm apart)
      · exact fun r => by rw [key_acquireSpec]
      · exact fun r => by rw [key_acquireSpec]

/-- A request for the slots of a group, at a fixed time. -/
def serveSlots (now : Time) (k : String × ConcurrencySettings) (count : Nat)
    (t : Table Semaphore) : Int × Table Semaphore :=
  acquireSlots k.1 count k.2.limit (now + seconds k.2.durationSeconds) now t

/-- A group is served at once: the first requests get the slots there are. -/
theorem serveAll_group {α : Type} {key : α → String × ConcurrencySettings} (now : Time)
    {k : String × ConcurrencySettings} (positive : 0 < k.2.limit) :
    ∀ (l : List α) (t : Table Semaphore), (∀ a ∈ l, key a = k) →
      serveAll (serveSlot now) key l t =
        ((l.take (serveSlots now k l.length t).1.toNat).map (fun a => (a, true)) ++
          (l.drop (serveSlots now k l.length t).1.toNat).map (fun a => (a, false)),
          (serveSlots now k l.length t).2)
  | [], t, _ => rfl
  | a :: l, t, all => by
      have isKey : key a = k := all a List.mem_cons_self
      have ih := serveAll_group now positive l (serveSlot now k t).2
        (fun b mem => all b (List.mem_cons_of_mem _ mem))
      have more : serveSlots now k (l.length + 1) t =
          ((if (serveSlot now k t).1 then 1 else 0) +
            (serveSlots now k l.length (serveSlot now k t).2).1,
          (serveSlots now k l.length (serveSlot now k t).2).2) :=
        acquireSlots_succ positive k.1 _ now t l.length
      have nonneg : 0 ≤ (serveSlots now k l.length (serveSlot now k t).2).1 :=
        acquireSlots_nonneg positive k.1 _ now _ l.length
      rw [serveAll_cons, isKey, ih, List.length_cons, more]
      dsimp only
      cases given : (serveSlot now k t).1 with
      | true =>
          have count : (1 + (serveSlots now k l.length (serveSlot now k t).2).1).toNat =
              (serveSlots now k l.length (serveSlot now k t).2).1.toNat + 1 := by omega
          rw [if_pos rfl, count]
          rfl
      | false =>
          have none : (serveSlots now k l.length (serveSlot now k t).2).1 = 0 :=
            acquireSlots_of_refused positive k.1 _ now t given l.length
          rw [if_neg Bool.false_ne_true, none]
          rfl

end DjQueue
