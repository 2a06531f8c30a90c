import DjQueue.Accounting.Ledger
import DjQueue.Relational.Batches
import Mathlib.Data.String.Basic

/-!
# What semaphore cleanup gets to

`cleanup_expired_semaphores` takes the first expired rows, up to the batch size, and deletes those
whose key no ready or claimed job has. The rows it does not delete are first again the next time:
once a whole batch of them is in front, nothing behind them is looked at any more.
-/

namespace DjQueue

open Relational

/-- A ready or claimed job has the key. -/
def Db.keyInUse (db : Db) (key : String) : Bool :=
  db.jobs.any (fun j => j.concurrencyKey == some key && db.isActive j)

/-- The expired rows in the order in which they are looked at. -/
def Db.expiredSemaphores (db : Db) (now : Time) : List Semaphore :=
  orderBy semaphoreExpiryOrder (db.semaphores.rows.filter (fun r => r.expiresAt ≤ now))

/-- A row that cleanup is there for. -/
structure Db.Idle (db : Db) (now : Time) (r : Semaphore) : Prop where
  mem : r ∈ db.semaphores.rows
  expired : r.expiresAt ≤ now
  unused : db.keyInUse r.key = false

/-- How many expired rows that have to stay come before `r`. -/
def Db.inUseBefore (db : Db) (now : Time) (r : Semaphore) : Nat :=
  db.semaphores.rows.countP (fun s =>
    decide (s.expiresAt ≤ now) && (db.keyInUse s.key && semaphoreExpiryOrder s r))

/-- What a cleanup may do to a database, and does to as many rows as it says. -/
structure CleansUp (now : Time) (deleted : Nat) (db db' : Db) : Prop where
  frame : db' = { db with semaphores := db'.semaphores }
  rows : db'.semaphores.rows.Sublist db.semaphores.rows
  spares : ∀ r ∈ db.semaphores.rows, r ∉ db'.semaphores.rows → db.Idle now r
  counted : deleted + db'.semaphores.rows.length = db.semaphores.rows.length

/-- The databases that repeated cleanups at one time go through. -/
def cleanups (batchSize : PyValue) (now : Time) (uuids : Nat → JobId) (db : Db) : Nat → Db
  | 0 => db
  | calls + 1 =>
      (finalState (cleanupExpiredSemaphores batchSize)
        ⟨cleanups batchSize now uuids db calls, fun _ => now, uuids⟩).db

/-! ## One call -/

theorem orders_semaphoreExpiryOrder : Orders semaphoreExpiryOrder where
  trans a b c first second := by
    simp only [semaphoreExpiryOrder, Bool.or_eq_true, Bool.and_eq_true, decide_eq_true_eq,
      beq_iff_eq] at first second ⊢
    rcases first with earlier | ⟨same, less | equal⟩
    · rcases second with earlier' | ⟨same', -⟩
      · exact .inl (Int.lt_trans earlier earlier')
      · exact .inl (same' ▸ earlier)
    · rcases second with earlier' | ⟨same', less' | equal'⟩
      · exact .inl (same ▸ earlier')
      · exact .inr ⟨same.trans same', .inl (lt_trans less less')⟩
      · exact .inr ⟨same.trans same', .inl (equal' ▸ less)⟩
    · rcases second with earlier' | ⟨same', later⟩
      · exact .inl (same ▸ earlier')
      · exact .inr ⟨same.trans same', equal ▸ later⟩
  total a b := by
    simp only [semaphoreExpiryOrder, Bool.or_eq_true, Bool.and_eq_true, decide_eq_true_eq,
      beq_iff_eq]
    rcases Int.lt_trichotomy a.expiresAt b.expiresAt with earlier | same | later
    · exact .inl (.inl earlier)
    · rcases lt_trichotomy a.key b.key with less | equal | more
      · exact .inl (.inr ⟨same, .inl less⟩)
      · exact .inl (.inr ⟨same, .inr equal⟩)
      · exact .inr (.inr ⟨same.symm, .inl more⟩)
    · exact .inr (.inl later)

/-- Two that come before each other have one key. -/
theorem key_of_semaphoreExpiryOrder {a b : Semaphore} (before : semaphoreExpiryOrder a b = true)
    (after : semaphoreExpiryOrder b a = true) : a.key = b.key := by
  simp only [semaphoreExpiryOrder, Bool.or_eq_true, Bool.and_eq_true, decide_eq_true_eq,
    beq_iff_eq] at before after
  rcases before with earlier | ⟨same, less | equal⟩
  · rcases after with earlier' | ⟨same, -⟩
    · exact absurd earlier' (Int.lt_asymm earlier)
    · exact absurd (same ▸ earlier) (Int.lt_irrefl _)
  · rcases after with earlier' | ⟨-, less' | equal'⟩
    · exact absurd (same ▸ earlier') (Int.lt_irrefl _)
    · exact absurd less' (lt_asymm less)
    · exact equal'.symm
  · exact equal

/-- The rows one call deletes. -/
def Db.discards (db : Db) (now : Time) (batch : Nat) (r : Semaphore) : Bool :=
  ((db.expiredSemaphores now).take batch).contains r && !db.keyInUse r.key

/-- The table after the batch is deleted. -/
def Db.cleanedUp (db : Db) (now : Time) (batch : Nat) : Db :=
  { db with semaphores := db.semaphores.deleteWhere (db.discards now batch) }

section Call

variable {db : Db} {now : Time} {batch : Nat}

theorem mem_expiredSemaphores {r : Semaphore} :
    r ∈ db.expiredSemaphores now ↔ r ∈ db.semaphores.rows ∧ r.expiresAt ≤ now := by
  rw [Db.expiredSemaphores, mem_orderBy, List.mem_filter, decide_eq_true_eq]

theorem keyInUse_iff {key : String} : db.keyInUse key = true ↔
    ∃ j ∈ db.jobs, j.concurrencyKey = some key ∧ db.isActive j = true := by
  simp only [Db.keyInUse, List.any_eq_true, Bool.and_eq_true, beq_iff_eq]

/-- The active keys of the batch are those of its rows that are in use. -/
theorem mem_activeKeys {keys : List String} {key : String} (inBatch : key ∈ keys) :
    key ∈ (db.jobs.filter (fun j =>
      j.concurrencyKey.any keys.contains && db.isActive j)).filterMap Job.concurrencyKey ↔
      db.keyInUse key = true := by
  rw [List.mem_filterMap, keyInUse_iff]
  constructor
  · rintro ⟨j, mem, isKey⟩
    rcases List.mem_filter.mp mem with ⟨mem, both⟩
    exact ⟨j, mem, isKey, (Bool.and_eq_true_iff.mp both).2⟩
  · rintro ⟨j, mem, isKey, active⟩
    refine ⟨j, List.mem_filter.mpr ⟨mem, ?_⟩, isKey⟩
    rw [isKey, active, Bool.and_true, Option.any_some, List.contains_iff_mem]
    exact inBatch

/-- `semaphore_ids` -/
def Db.idleIds (db : Db) (now : Time) (batch : Nat) : List Nat :=
  let semaphores := (db.expiredSemaphores now).take batch
  let activeKeys := (db.jobs.filter (fun j =>
    j.concurrencyKey.any (semaphores.map Semaphore.key).contains && db.isActive j)).filterMap
      Job.concurrencyKey
  (semaphores.filter (fun r => !activeKeys.contains r.key)).map Semaphore.id

/-- A row is deleted exactly when it is among the discarded. -/
theorem contains_idleIds (numbered : SemaphoresNumbered db.semaphores) {r : Semaphore}
    (mem : r ∈ db.semaphores.rows) :
    (db.idleIds now batch).contains r.id = db.discards now batch r := by
  rw [Bool.eq_iff_iff, List.contains_iff_mem, Db.discards, Bool.and_eq_true,
    List.contains_iff_mem, Bool.not_eq_true', Db.idleIds, List.mem_map]
  constructor
  · rintro ⟨s, inside, sameId⟩
    rcases List.mem_filter.mp inside with ⟨inBatch, unused⟩
    have there := (mem_expiredSemaphores.mp (List.mem_of_mem_take inBatch)).1
    rw [← List.inj_on_of_nodup_map numbered.ids there mem sameId]
    refine ⟨inBatch, ?_⟩
    rw [← Bool.not_eq_true, ← mem_activeKeys (List.mem_map_of_mem inBatch)]
    rwa [Bool.not_eq_true', ← Bool.not_eq_true, List.contains_iff_mem] at unused
  · rintro ⟨inBatch, unused⟩
    refine ⟨r, List.mem_filter.mpr ⟨inBatch, ?_⟩, rfl⟩
    rw [Bool.not_eq_true', ← Bool.not_eq_true, List.contains_iff_mem,
      mem_activeKeys (List.mem_map_of_mem inBatch), unused]
    exact Bool.false_ne_true

/-- A call returns, whatever the state, and deletes the idle rows of its batch. -/
theorem runs_cleanupExpiredSemaphores (numbered : SemaphoresNumbered db.semaphores)
    {batchSize : PyValue} {batch : Int}
    (positive : positiveIntOption batchSize "batch_size" = .ok batch) (clock : Nat → Time)
    (uuids : Nat → JobId) :
    Runs (cleanupExpiredSemaphores batchSize) ⟨db, clock, uuids⟩
      (db.semaphores.rows.countP (db.discards (clock 0) batch.toNat))
      ⟨db.cleanedUp (clock 0) batch.toNat, fun n => clock (n + 1), uuids⟩ := by
  have deleted : db.semaphores.deleteWhere (db.discards (clock 0) batch.toNat) =
      db.semaphores.deleteWhere (fun r =>
        (db.idleIds (clock 0) batch.toNat).contains r.id) := by
    unfold Table.deleteWhere
    congr 1
    apply List.filter_congr
    exact fun r mem => congrArg not (contains_idleIds numbered mem).symm
  have counted : db.semaphores.rows.countP (db.discards (clock 0) batch.toNat) =
      db.semaphores.rows.countP (fun r =>
        (db.idleIds (clock 0) batch.toNat).contains r.id) := by
    apply List.countP_congr
    intro r mem
    rw [contains_idleIds numbered mem]
  rw [counted, Db.cleanedUp, deleted]
  exact Runs.bind (runs_ofExcept positive _) (Runs.bind (runs_timezoneNow _) (runs_atomic
    (Runs.bind (runs_getDb _) (Runs.bind (runs_modifyDb _ _) (runs_pure _ _)))))

theorem idle_iff {r : Semaphore} :
    db.Idle now r ↔ r ∈ db.expiredSemaphores now ∧ db.keyInUse r.key = false := by
  rw [mem_expiredSemaphores]
  exact ⟨fun idle => ⟨⟨idle.mem, idle.expired⟩, idle.unused⟩,
    fun both => ⟨both.1.1, both.1.2, both.2⟩⟩

theorem cleansUp_cleanedUp :
    CleansUp now (db.semaphores.rows.countP (db.discards now batch)) db
      (db.cleanedUp now batch) where
  frame := rfl
  rows := List.filter_sublist
  spares := by
    intro r mem gone
    have hit : db.discards now batch r = true := by
      by_contra spared
      rw [Bool.not_eq_true] at spared
      exact gone (List.mem_filter.mpr ⟨mem, by rw [spared]; rfl⟩)
    rcases Bool.and_eq_true_iff.mp hit with ⟨inBatch, unused⟩
    exact idle_iff.mpr ⟨List.mem_of_mem_take (List.contains_iff_mem.mp inBatch),
      (Bool.not_eq_true' _).mp unused⟩
  counted := by
    have parts := List.length_eq_countP_add_countP (db.discards now batch)
      (l := db.semaphores.rows)
    rw [parts, Db.cleanedUp, Table.rows_deleteWhere, List.countP_eq_length_filter (p := fun r =>
      ¬ db.discards now batch r = true)]
    congr 2
    apply List.filter_congr
    intro r _
    cases db.discards now batch r <;> rfl

theorem numbered_cleanedUp (numbered : SemaphoresNumbered db.semaphores) :
    SemaphoresNumbered (db.cleanedUp now batch).semaphores where
  keys := numbered.keys.sublist (List.filter_sublist.map _)
  ids := numbered.ids.sublist (List.filter_sublist.map _)
  bound r mem := numbered.bound r (List.mem_of_mem_filter mem)
  next := numbered.next

theorem nodup_expiredSemaphores (numbered : SemaphoresNumbered db.semaphores) :
    (db.expiredSemaphores now).Nodup :=
  (orderBy_perm _ _).nodup_iff.mpr (numbered.ids.of_map.filter _)

/-- The queue of expired rows after a call. -/
theorem expiredSemaphores_cleanedUp (numbered : SemaphoresNumbered db.semaphores) :
    (db.cleanedUp now batch).expiredSemaphores now =
      sweep batch (fun r => db.keyInUse r.key) (db.expiredSemaphores now) := by
  have queue : (db.cleanedUp now batch).expiredSemaphores now =
      (db.expiredSemaphores now).filter (fun r => !db.discards now batch r) := by
    rw [Db.expiredSemaphores, Db.expiredSemaphores,
      orders_semaphoreExpiryOrder.filter_orderBy, List.filter_filter]
    congr 1
    rw [Db.cleanedUp, Table.rows_deleteWhere, List.filter_filter]
    apply List.filter_congr
    intro r _
    exact Bool.and_comm _ _
  have distinct : (db.expiredSemaphores now).Nodup := nodup_expiredSemaphores numbered
  rw [← List.take_append_drop batch (db.expiredSemaphores now)] at distinct
  have apart := (List.nodup_append.mp distinct).2.2
  rw [queue, sweep]
  nth_rewrite 1 [← List.take_append_drop batch (db.expiredSemaphores now)]
  rw [List.filter_append]
  congr 1
  · apply List.filter_congr
    intro r mem
    rw [Db.discards, List.contains_iff_mem.mpr mem, Bool.true_and, Bool.not_not]
  · apply List.filter_eq_self.mpr
    intro r mem
    have out : ((db.expiredSemaphores now).take batch).contains r = false := by
      rw [← Bool.not_eq_true, List.contains_iff_mem]
      exact fun front => apart r front r mem rfl
    rw [Db.discards, out]
    rfl

/-- The order of the expired is antisymmetric. -/
theorem antisymm_semaphoreExpiryOrder (numbered : SemaphoresNumbered db.semaphores) :
    ∀ r ∈ db.semaphores.rows.filter (fun r => r.expiresAt ≤ now),
      ∀ s ∈ db.semaphores.rows.filter (fun r => r.expiresAt ≤ now),
        semaphoreExpiryOrder r s → semaphoreExpiryOrder s r → r = s := by
  intro r mem s mem' before after
  exact List.inj_on_of_nodup_map numbered.keys (List.mem_of_mem_filter mem)
    (List.mem_of_mem_filter mem') (key_of_semaphoreExpiryOrder before after)

/-- The rows in use that come before a row. -/
theorem countP_expired (r : Semaphore) :
    (db.semaphores.rows.filter (fun r => r.expiresAt ≤ now)).countP (fun s =>
      db.keyInUse s.key && semaphoreExpiryOrder s r) = db.inUseBefore now r := by
  rw [List.countP_filter, Db.inUseBefore]
  apply List.countP_congr
  intro s _
  rw [Bool.and_comm]

/-- Every idle row is within reach exactly when fewer than a batch in use come before it. -/
theorem withinReach_iff (numbered : SemaphoresNumbered db.semaphores) :
    WithinReach batch (fun r => db.keyInUse r.key) (db.expiredSemaphores now) ↔
      ∀ r, db.Idle now r → db.inUseBefore now r < batch := by
  rw [Db.expiredSemaphores, withinReach_orderBy_iff orders_semaphoreExpiryOrder
    (antisymm_semaphoreExpiryOrder numbered)]
  constructor
  · intro few r idle
    rw [← countP_expired]
    exact few r (List.mem_filter.mpr ⟨idle.mem, decide_eq_true idle.expired⟩) idle.unused
  · intro few r mem unused
    rw [countP_expired]
    rcases List.mem_filter.mp mem with ⟨mem, expired⟩
    exact few r ⟨mem, of_decide_eq_true expired, unused⟩

/-- A call deletes something exactly if some idle row has less than a batch in front of it. -/
theorem pos_countP_discards_iff (numbered : SemaphoresNumbered db.semaphores) :
    0 < db.semaphores.rows.countP (db.discards now batch) ↔
      ∃ r, db.Idle now r ∧ db.inUseBefore now r < batch := by
  rw [List.countP_pos_iff]
  have inBatch : (∃ r ∈ db.semaphores.rows, db.discards now batch r = true) ↔
      ∃ r ∈ (db.expiredSemaphores now).take batch, db.keyInUse r.key = false := by
    constructor
    · rintro ⟨r, -, hit⟩
      rcases Bool.and_eq_true_iff.mp hit with ⟨there, unused⟩
      exact ⟨r, List.contains_iff_mem.mp there, (Bool.not_eq_true' _).mp unused⟩
    · rintro ⟨r, there, unused⟩
      refine ⟨r, (mem_expiredSemaphores.mp (List.mem_of_mem_take there)).1, ?_⟩
      rw [Db.discards, List.contains_iff_mem.mpr there, unused]
      rfl
  rw [inBatch, Db.expiredSemaphores, exists_mem_take_orderBy_iff orders_semaphoreExpiryOrder
    (antisymm_semaphoreExpiryOrder numbered)]
  constructor
  · rintro ⟨r, mem, unused, few⟩
    rw [countP_expired] at few
    rcases List.mem_filter.mp mem with ⟨mem, expired⟩
    exact ⟨r, ⟨mem, of_decide_eq_true expired, unused⟩, few⟩
  · rintro ⟨r, idle, few⟩
    rw [← countP_expired] at few
    exact ⟨r, List.mem_filter.mpr ⟨idle.mem, decide_eq_true idle.expired⟩, idle.unused, few⟩

end Call

/-! ## Repeated calls -/

section Calls

variable {db : Db} {now : Time} {batchSize : PyValue} {batch : Int}

variable (now) in
theorem cleanups_spec (numbered : SemaphoresNumbered db.semaphores)
    (positive : positiveIntOption batchSize "batch_size" = .ok batch) (uuids : Nat → JobId) :
    ∀ calls, SemaphoresNumbered (cleanups batchSize now uuids db calls).semaphores ∧
      (∀ key, (cleanups batchSize now uuids db calls).keyInUse key = db.keyInUse key) ∧
      (cleanups batchSize now uuids db calls).expiredSemaphores now =
        (sweep batch.toNat (fun r => db.keyInUse r.key))^[calls] (db.expiredSemaphores now)
  | 0 => ⟨numbered, fun _ => rfl, rfl⟩
  | calls + 1 => by
      rcases cleanups_spec numbered positive uuids calls with ⟨numbered', sameUse, queue⟩
      have next : cleanups batchSize now uuids db (calls + 1) =
          (cleanups batchSize now uuids db calls).cleanedUp now batch.toNat := by
        rw [cleanups, Runs.finalState_eq
          (runs_cleanupExpiredSemaphores numbered' positive (fun _ => now) uuids)]
      rw [next]
      refine ⟨numbered_cleanedUp numbered', sameUse, ?_⟩
      rw [expiredSemaphores_cleanedUp numbered', queue, Function.iterate_succ_apply']
      congr 1
      funext r
      exact sameUse r.key

/-- Every call of a row of them deletes nothing but idle rows, as many as it returns. It deletes
some exactly if an idle row has less than a batch of expired rows that are in use before it, and
repeated at one time it deletes all of them exactly if this is so for each. -/
theorem cleanup_progress_iff (numbered : SemaphoresNumbered db.semaphores)
    (positive : positiveIntOption batchSize "batch_size" = .ok batch) (now : Time)
    (uuids : Nat → JobId) :
    (∀ calls, ∃ deleted, returned (cleanupExpiredSemaphores batchSize)
        ⟨cleanups batchSize now uuids db calls, fun _ => now, uuids⟩ = some deleted ∧
      CleansUp now deleted (cleanups batchSize now uuids db calls)
        (cleanups batchSize now uuids db (calls + 1)) ∧
      (0 < deleted ↔ ∃ r, (cleanups batchSize now uuids db calls).Idle now r ∧
        (cleanups batchSize now uuids db calls).inUseBefore now r < batch)) ∧
    ((∃ calls, ∀ r, ¬ (cleanups batchSize now uuids db calls).Idle now r) ↔
      ∀ r, db.Idle now r → db.inUseBefore now r < batch) := by
  have inBatch (before : Nat) : (before : Int) < batch ↔ before < batch.toNat :=
    Int.lt_toNat.symm
  simp only [inBatch]
  refine ⟨fun calls => ?_, ?_⟩
  · rcases cleanups_spec now numbered positive uuids calls with ⟨numbered', -, -⟩
    have ran := runs_cleanupExpiredSemaphores numbered' positive (fun _ => now) uuids
    refine ⟨_, Runs.returned_eq ran, ?_, pos_countP_discards_iff numbered'⟩
    rw [cleanups, Runs.finalState_eq ran]
    exact cleansUp_cleanedUp
  · rw [← withinReach_iff numbered, ← exists_drained_iff]
    apply exists_congr
    intro calls
    rcases cleanups_spec now numbered positive uuids calls with ⟨-, sameUse, queue⟩
    rw [← queue]
    constructor
    · intro none r mem
      by_contra unused
      exact none r (idle_iff.mpr ⟨mem, (sameUse r.key).trans (Bool.not_eq_true _ ▸ unused)⟩)
    · intro drained r idle
      rcases idle_iff.mp idle with ⟨mem, unused⟩
      rw [sameUse, show db.keyInUse r.key = true from drained r mem] at unused
      cases unused

end Calls

/-! ## A key in use in front of an idle one -/

/-- Both rows have expired; a job with the key of the first is still claimed. -/
def busyKeyInFront : Db :=
  { Db.empty with
    jobs := [⟨1, "app.task", "default", 0, ⟨[], []⟩, "default", none, some "busy", some 1,
      some 60, some "block", none, none⟩]
    claimed := ⟨[⟨1, 1, none, 0⟩], 2⟩
    semaphores := ⟨[⟨1, "busy", 0, some 1, 1, 10, 0⟩, ⟨2, "idle", 1, some 0, 1, 20, 0⟩], 3⟩ }

theorem numbered_busyKeyInFront : SemaphoresNumbered busyKeyInFront.semaphores where
  keys := by decide
  ids := by decide
  bound := by decide
  next := by decide

/-- A batch of two holds both rows, and the idle one is deleted. -/
theorem cleanup_reaches_idle_behind_busy :
    ∃ calls, ∀ r, ¬ (cleanups (.int 2) 100 (fun _ => 0) busyKeyInFront calls).Idle 100 r := by
  have two : positiveIntOption (.int 2) "batch_size" = .ok 2 := rfl
  apply (cleanup_progress_iff numbered_busyKeyInFront two 100 (fun _ => 0)).2.mpr
  intro r idle
  have one : busyKeyInFront.inUseBefore 100 r ≤ 1 := by
    unfold Db.inUseBefore
    rcases List.mem_pair.mp idle.mem with rfl | rfl
    · decide
    · decide
  omega

/-- With a batch of one, the row in use is the only one that is ever looked at. -/
theorem cleanup_stops_at_busy_key :
    SemaphoresNumbered busyKeyInFront.semaphores ∧
      busyKeyInFront.Idle 100 ⟨2, "idle", 1, some 0, 1, 20, 0⟩ ∧
      returned (cleanupExpiredSemaphores (.int 1)) ⟨busyKeyInFront, fun _ => 100, fun _ => 0⟩ =
        some 0 ∧
      ∀ calls, cleanups (.int 1) 100 (fun _ => 0) busyKeyInFront calls = busyKeyInFront := by
  refine ⟨numbered_busyKeyInFront, ⟨by decide, by decide, by decide⟩, by decide +kernel, ?_⟩
  intro calls
  induction calls with
  | zero => rfl
  | succ calls ih =>
    rw [cleanups, ih]
    decide +kernel

end DjQueue
