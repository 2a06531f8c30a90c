import DjQueue.Accounting.Jobs

/-!
# Slot operations and the ledger

A slot that `semaphore_acquire` gives is owed until a row holds it; a slot whose row was
deleted is owed until `semaphore_release` puts it back or a waiter takes it over.
-/

namespace DjQueue

open Relational

/-- The tables with the key's semaphore row rewritten. -/
def Db.saveSemaphore (db : Db) (key : String) (f : Semaphore → Semaphore) : Db :=
  { db with semaphores := db.semaphores.updateWhere (fun r => r.key == key) f }

namespace SemaphoresNumbered

variable {t : Table Semaphore}

/-- An update that keeps keys and ids keeps them unique. -/
theorem update (numbered : SemaphoresNumbered t) {p : Semaphore → Bool} {f : Semaphore → Semaphore}
    (keeps : ∀ r : Semaphore, r.SameRow (f r)) : SemaphoresNumbered (t.updateWhere p f) := by
  have same : ∀ r : Semaphore, r.SameRow (if p r then f r else r) := by
    intro r
    split
    · exact keeps r
    · exact ⟨rfl, rfl⟩
  have keys : (t.updateWhere p f).rows.map Semaphore.key = t.rows.map Semaphore.key := by
    rw [Table.rows_updateWhere, List.map_map]
    exact List.map_congr_left fun r _ => (same r).1
  have ids : (t.updateWhere p f).rows.map Semaphore.id = t.rows.map Semaphore.id := by
    rw [Table.rows_updateWhere, List.map_map]
    exact List.map_congr_left fun r _ => (same r).2
  refine ⟨by rw [keys]; exact numbered.keys, by rw [ids]; exact numbered.ids, ?_, numbered.next⟩
  intro r mem
  obtain ⟨old, there, rfl⟩ := List.mem_map.mp mem
  rw [(same old).2]
  exact numbered.bound old there

/-- A semaphore of a new key may be added. -/
theorem insert (numbered : SemaphoresNumbered t) {mk : Nat → Semaphore}
    (id : ∀ n, (mk n).id = n) (absent : ∀ r ∈ t.rows, r.key ≠ (mk t.nextId).key) :
    SemaphoresNumbered (t.insert mk) := by
  refine ⟨?_, ?_, ?_, Nat.succ_ne_zero _⟩
  · rw [Table.rows_insert, List.map_append, List.map_singleton, List.nodup_append]
    refine ⟨numbered.keys, List.nodup_singleton _, fun x old y new same => ?_⟩
    obtain ⟨r, mem, rfl⟩ := List.mem_map.mp old
    rw [List.mem_singleton.mp new] at same
    exact absent r mem same
  · rw [Table.rows_insert, List.map_append, List.map_singleton, List.nodup_append, id]
    refine ⟨numbered.ids, List.nodup_singleton _, fun x old y new => ?_⟩
    obtain ⟨r, mem, rfl⟩ := List.mem_map.mp old
    rw [List.mem_singleton.mp new]
    exact Nat.ne_of_lt (numbered.bound r mem).2
  · intro r mem
    rw [Table.nextId_insert]
    rcases List.mem_append.mp mem with old | new
    · exact ⟨(numbered.bound r old).1, Nat.lt_succ_of_lt (numbered.bound r old).2⟩
    · rw [List.mem_singleton.mp new, id]
      exact ⟨numbered.next, Nat.lt_succ_self _⟩

end SemaphoresNumbered

/-- A semaphore that is found by its key. -/
theorem mem_of_findSemaphore {db : Db} {key : String} {r : Semaphore}
    (found : db.findSemaphore key = some r) : r ∈ db.semaphores.rows ∧ r.key = key := by
  have hit := List.find?_some found
  exact ⟨List.mem_of_find?_eq_some found, beq_iff_eq.mp hit⟩

theorem findSemaphore_of_mem {db : Db} (numbered : SemaphoresNumbered db.semaphores)
    {r : Semaphore} (mem : r ∈ db.semaphores.rows) : db.findSemaphore r.key = some r :=
  find?_of_unique numbered.keys mem

/-- An update of one key leaves the others. -/
theorem find?_updateWhere_other {rows : List Semaphore} {key other : String}
    {f : Semaphore → Semaphore} (keeps : ∀ r, (f r).key = r.key) (ne : other ≠ key) :
    (rows.map (fun r => if r.key == key then f r else r)).find? (fun r => r.key == other) =
      rows.find? (fun r => r.key == other) := by
  induction rows with
  | nil => rfl
  | cons r rows ih =>
      rw [List.map_cons, List.find?_cons, List.find?_cons, ih]
      by_cases hit : r.key = key
      · have miss : r.key ≠ other := fun same => ne (same.symm.trans hit)
        simp [hit, keeps, beq_eq_false_iff_ne.mpr (Ne.symm ne)]
      · simp only [beq_eq_false_iff_ne.mpr hit, Bool.false_eq_true, if_false]

namespace Accounts

variable {a : Audit} {hand hand' : List JobId} {owed owed' : Nat} {db : Db}

/-- Only the key that is followed is counted. -/
theorem slot_of_untracked {key : String} (untracked : a.tracks key = false) : a.slot key = 0 := by
  simp [Audit.slot, untracked]

/-- A row of the key that is followed counts one. -/
theorem slot_of_tracked {key : String} {L : Int} (tracked : a.tracked = some (key, L)) :
    a.slot key = 1 := by
  simp [Audit.slot, Audit.tracks, tracked]

/-- There is a limit for the key that is followed. -/
theorem tracked_of_tracks {key : String} (tracks : a.tracks key = true) :
    ∃ L, a.tracked = some (key, L) := by
  obtain ⟨t, tracked, same⟩ := (Option.any_eq_true _ _).mp tracks
  rw [beq_iff_eq] at same
  exact ⟨t.2, by rw [tracked, ← same]⟩

/-- The row of the tracked key, as far as it is there. -/
theorem slots_of_tracked (good : Accounts a hand owed db) {key : String} {L : Int}
    (tracked : a.tracked = some (key, L)) :
    (db.findSemaphore key = none ∧ a.active db + owed = 0) ∨
      ∃ r, db.findSemaphore key = some r ∧ r.limit = L ∧ 0 ≤ r.value ∧
        r.value + ((a.active db + owed : Nat) : Int) = L := by
  have slots := good.slots _ tracked
  unfold Db.findSemaphore
  split at slots
  · rename_i absent
    exact .inl ⟨absent, slots⟩
  · rename_i r found
    exact .inr ⟨r, found, slots⟩

/-- Without a row nothing is taken. -/
theorem taken_of_absent (good : Accounts a hand owed db) {key : String} {L : Int}
    (tracked : a.tracked = some (key, L)) (absent : db.findSemaphore key = none) :
    a.active db + owed = 0 := by
  rcases good.slots_of_tracked tracked with ⟨-, zero⟩ | ⟨r, found, -⟩
  · exact zero
  · rw [absent] at found
    cases found

/-- The semaphores may change as long as they agree with the rows that hold slots. -/
theorem setSemaphores (good : Accounts a hand owed db) {t : Table Semaphore}
    (numbered : SemaphoresNumbered t) (slots : a.SlotsHold t.rows (a.active db + owed')) :
    Accounts a hand owed' { db with semaphores := t } :=
  ⟨good.jobIds, good.knows, good.rowIds, good.rowBound, good.rowFits, good.places, numbered, slots,
    ⟨good.registry.processIds, good.registry.processBound, good.registry.supervisors,
      good.registry.links⟩,
    ⟨good.untouched.jobs, good.untouched.rows, good.untouched.processes, good.untouched.pauses,
      good.untouched.tasks, good.untouched.executions, good.untouched.trimmed,
      good.untouched.created⟩⟩

/-- A row is rewritten: only for the tracked key does it matter how. -/
theorem save (good : Accounts a hand owed db) {key : String} {f : Semaphore → Semaphore}
    (keeps : ∀ r : Semaphore, r.SameRow (f r))
    (row : ∀ L r, a.tracked = some (key, L) → db.findSemaphore key = some r → r.limit = L →
      0 ≤ r.value → r.value + ((a.active db + owed : Nat) : Int) = L →
      (f r).limit = L ∧ 0 ≤ (f r).value ∧
        (f r).value + ((a.active db + owed' : Nat) : Int) = L)
    (untracked : a.tracks key = false → owed' = owed)
    (absent : ∀ L, a.tracked = some (key, L) → db.findSemaphore key = none → owed' = owed) :
    Accounts a hand owed' (db.saveSemaphore key f) := by
  refine good.setSemaphores (good.semaphores.update keeps) fun t tracked => ?_
  rw [Table.rows_updateWhere]
  by_cases same : t.1 = key
  · have tracked : a.tracked = some (key, t.2) := by rw [tracked, ← same]
    rw [same, find?_updateWhere_key (fun r => (keeps r).1)]
    rcases good.slots_of_tracked tracked with ⟨missing, zero⟩ | ⟨r, found, limit, free, sum⟩
    · rw [show db.semaphores.rows.find? (fun r => r.key == key) = none from missing]
      simpa [absent t.2 tracked missing] using zero
    · rw [show db.semaphores.rows.find? (fun r => r.key == key) = some r from found]
      exact row t.2 r tracked found limit free sum
  · have other : a.tracks key = false := by
      simp [Audit.tracks, tracked, same]
    rw [find?_updateWhere_other (fun r => (keeps r).1) same, untracked other]
    exact good.slots t tracked

/-- A row for a key that had none. -/
theorem open_ (good : Accounts a hand owed db) {key : String} {mk : Nat → Semaphore}
    (absent : db.findSemaphore key = none) (id : ∀ n, (mk n).id = n) (keyOf : ∀ n, (mk n).key = key)
    (row : ∀ L n, a.tracked = some (key, L) → (mk n).limit = L ∧ 0 ≤ (mk n).value ∧
      (mk n).value + (owed' : Int) = L)
    (untracked : a.tracks key = false → owed' = owed) :
    Accounts a hand owed' { db with semaphores := db.semaphores.insert mk } := by
  have missing : ∀ r ∈ db.semaphores.rows, r.key ≠ key := by
    intro r mem
    simpa using List.find?_eq_none.mp absent r mem
  refine good.setSemaphores (good.semaphores.insert id (by rwa [keyOf])) fun t tracked => ?_
  rw [Table.rows_insert, List.find?_append]
  by_cases same : t.1 = key
  · have tracked : a.tracked = some (key, t.2) := by rw [tracked, ← same]
    have zero := good.taken_of_absent tracked absent
    rw [same, show db.semaphores.rows.find? (fun r => r.key == key) = none from absent]
    simp only [List.find?_singleton, keyOf, beq_self_eq_true, if_true, Option.none_or]
    have new := row t.2 db.semaphores.nextId tracked
    have none : a.active db = 0 := by omega
    rw [none, Nat.zero_add]
    exact new
  · have other : a.tracks key = false := by
      simp [Audit.tracks, tracked, same]
    have miss : [mk db.semaphores.nextId].find? (fun r => r.key == t.1) = none := by
      simp [keyOf, beq_eq_false_iff_ne.mpr (Ne.symm same)]
    rw [miss, Option.or_none, untracked other]
    exact good.slots t tracked

end Accounts

/-! ## Sessions on one row -/

section Sessions

variable {w w' : World} {u : Unit} {key : String}

/-- An update writes to the row of its key. -/
theorem of_run_updateSemaphore {order : EvaluationOrder} {update : Update Semaphore} {n : Nat}
    (numbered : SemaphoresNumbered w.db.semaphores)
    (run : Runs (updateSemaphore order key update) w n w') :
    w'.db = w.db.saveSemaphore key (update.run order) ∧
      (n ≠ 0 ↔ ∃ r, w.db.findSemaphore key = some r ∧ update.filter r = true) := by
  obtain ⟨db, w₁, read, rest⟩ := Runs.of_bind run
  obtain ⟨rfl, rfl⟩ := of_run_getDb read
  obtain ⟨v, w₂, saved, rest⟩ := Runs.of_bind rest
  obtain ⟨rfl, rfl⟩ := Runs.of_pure rest
  refine ⟨of_run_modifyDb saved, ?_⟩
  rw [← Nat.pos_iff_ne_zero, List.countP_pos_iff]
  constructor
  · rintro ⟨r, mem, hit⟩
    rw [Bool.and_eq_true, beq_iff_eq] at hit
    exact ⟨r, hit.1 ▸ findSemaphore_of_mem numbered mem, hit.2⟩
  · rintro ⟨r, found, accepted⟩
    obtain ⟨mem, same⟩ := mem_of_findSemaphore found
    exact ⟨r, mem, by simp [same, accepted]⟩

/-- An update the row refuses changes nothing. -/
theorem saveSemaphore_of_refused {order : EvaluationOrder} {update : Update Semaphore}
    (numbered : SemaphoresNumbered w.db.semaphores)
    (refused : ∀ r, w.db.findSemaphore key = some r → update.filter r = false) :
    w.db.saveSemaphore key (update.run order) = w.db := by
  have same : w.db.semaphores.updateWhere (fun r => r.key == key) (update.run order) =
      w.db.semaphores := by
    rw [Table.updateWhere]
    congr 1
    refine (List.map_congr_left fun r mem => ?_).trans (List.map_id _)
    by_cases hit : r.key = key
    · have found := findSemaphore_of_mem numbered mem
      rw [hit] at found
      simp [hit, Update.run, refused r found]
    · simp [hit]
  unfold Db.saveSemaphore
  rw [same]

/-- An acquisition keeps the key and the id. -/
theorem sameRow_acquireRow (family : BackendFamily) (limit : Int) (expiresAt now : Time)
    (r : Semaphore) : r.SameRow (acquireRow family limit expiresAt now r).2 := by
  cases family with
  | postgresql =>
      unfold acquireRow postgresConflict
      dsimp only
      split
      · exact ⟨rfl, rfl⟩
      · split <;> exact ⟨rfl, rfl⟩
  | mysql => exact ⟨rfl, rfl⟩
  | mariadb => exact ⟨rfl, rfl⟩
  | sqlite =>
      unfold acquireRow
      dsimp only
      split
      · exact Semaphore.sameRow_run _ r (by simp [acquireUpdate, Semaphore.SameRow,
          Semaphore.setValue, Semaphore.setActiveCount, Semaphore.setLimit,
          Semaphore.setExpiresAt, Semaphore.setUpdatedAt])
      · exact Semaphore.sameRow_run _ r (by simp [reconcileUpdate, Semaphore.SameRow,
          Semaphore.setValue, Semaphore.setActiveCount, Semaphore.setLimit,
          Semaphore.setUpdatedAt])

/-- What `semaphore_acquire` does on every database: a new row, or the row `acquireRow` leaves. -/
inductive Acquires (family : BackendFamily) (db : Db) (key : String) (limit : Int) :
    Bool → Db → Prop
  | opened (absent : db.findSemaphore key = none) (expiresAt now : Time) :
      Acquires family db key limit true
        { db with semaphores := db.semaphores.insert (newSemaphore key limit 1 expiresAt now) }
  | asked {r : Semaphore} (found : db.findSemaphore key = some r) (expiresAt now : Time) :
      Acquires family db key limit (acquireRow family limit expiresAt now r).1
        (db.saveSemaphore key (fun r => (acquireRow family limit expiresAt now r).2))

/-- The acquisition of SQLite, in two statements. -/
theorem of_run_semaphoreAcquireSqlite {limit : Int} {expiresAt now : Time} {given : Bool}
    (numbered : SemaphoresNumbered w.db.semaphores)
    (run : Runs (semaphoreAcquireSqlite key limit expiresAt now) w given w') :
    Acquires .sqlite w.db key limit given w'.db := by
  obtain ⟨stamp, w₁, read, rest⟩ := Runs.of_bind run
  have same := of_run_timezoneNow read
  rw [← same] at numbered ⊢
  obtain ⟨db, w₂, got, rest⟩ := Runs.of_bind rest
  obtain ⟨rfl, rfl⟩ := of_run_getDb got
  split at rest
  · rename_i absent
    obtain ⟨v, w₃, inserted, rest⟩ := Runs.of_bind rest
    obtain ⟨rfl, rfl⟩ := Runs.of_pure rest
    rw [of_run_modifyDb inserted]
    exact .opened absent expiresAt stamp
  · rename_i r found
    obtain ⟨n, w₃, updated, rest⟩ := Runs.of_bind rest
    obtain ⟨db₃, hit⟩ := of_run_updateSemaphore numbered updated
    -- the row the updates leave is the one `acquireRow` leaves, and no other row has the key
    have rows : ∀ f : Semaphore → Semaphore,
        f r = (acquireRow .sqlite limit expiresAt now r).2 →
        w₂.db.saveSemaphore key f =
          w₂.db.saveSemaphore key (fun r => (acquireRow .sqlite limit expiresAt now r).2) := by
      intro f agrees
      unfold Db.saveSemaphore Table.updateWhere
      congr 2
      refine List.map_congr_left fun s mem => ?_
      by_cases same : s.key = key
      · have found' := findSemaphore_of_mem numbered mem
        rw [same, found] at found'
        rw [← Option.some.inj found', agrees]
      · simp [same]
    cases accepted : (acquireUpdate limit expiresAt now).filter r with
    | true =>
        rw [if_pos (hit.mpr ⟨r, found, accepted⟩)] at rest
        obtain ⟨rfl, rfl⟩ := Runs.of_pure rest
        rw [db₃, rows _ (by simp [acquireRow, accepted])]
        have outcome : Acquires .sqlite w₂.db key limit _ _ := .asked found expiresAt now
        simpa [acquireRow, accepted] using outcome
    | false =>
        have refused : ∀ s, w₂.db.findSemaphore key = some s →
            (acquireUpdate limit expiresAt now).filter s = false := by
          intro s found'
          rw [found] at found'
          rw [← Option.some.inj found', accepted]
        have zero : n = 0 := by
          by_contra positive
          obtain ⟨s, found', accepted'⟩ := hit.mp positive
          rw [refused s found'] at accepted'
          cases accepted'
        rw [if_neg (by simp [zero])] at rest
        obtain ⟨n', w₄, reconciled, rest⟩ := Runs.of_bind rest
        obtain ⟨rfl, rfl⟩ := Runs.of_pure rest
        rw [saveSemaphore_of_refused numbered refused] at db₃
        rw [(of_run_updateSemaphore (by rw [db₃]; exact numbered) reconciled).1, db₃,
          rows _ (by simp [acquireRow, accepted])]
        have outcome : Acquires .sqlite w₂.db key limit _ _ := .asked found expiresAt now
        simpa [acquireRow, accepted] using outcome

/-- The acquisition of PostgreSQL, in one statement. -/
theorem of_run_semaphoreAcquirePostgres {limit : Int} {expiresAt now : Time} {given : Bool}
    (run : Runs (semaphoreAcquirePostgres key limit expiresAt now) w given w') :
    Acquires .postgresql w.db key limit given w'.db := by
  obtain ⟨db, w₁, got, rest⟩ := Runs.of_bind run
  obtain ⟨rfl, rfl⟩ := of_run_getDb got
  split at rest
  · rename_i absent
    obtain ⟨v, w₂, inserted, rest⟩ := Runs.of_bind rest
    obtain ⟨rfl, rfl⟩ := Runs.of_pure rest
    rw [of_run_modifyDb inserted]
    exact .opened absent _ _
  · rename_i r found
    obtain ⟨v, w₂, saved, rest⟩ := Runs.of_bind rest
    obtain ⟨rfl, rfl⟩ := Runs.of_pure rest
    rw [of_run_modifyDb saved]
    exact .asked found _ _

/-- The acquisition of MySQL, under a lock. -/
theorem of_run_semaphoreAcquireMysql {limit : Int} {expiresAt now : Time} {given : Bool}
    {family : BackendFamily} (upserts : family = .mysql ∨ family = .mariadb)
    (numbered : SemaphoresNumbered w.db.semaphores)
    (run : Runs (semaphoreAcquireMysql key limit expiresAt now) w given w') :
    Acquires family w.db key limit given w'.db := by
  obtain ⟨db, w₁, got, rest⟩ := Runs.of_bind run
  obtain ⟨rfl, rfl⟩ := of_run_getDb got
  split at rest
  · rename_i absent
    obtain ⟨v, w₂, inserted, rest⟩ := Runs.of_bind rest
    obtain ⟨rfl, rfl⟩ := Runs.of_pure rest
    rw [of_run_modifyDb inserted]
    simp only [numbered.next, ne_eq, not_false_eq_true, decide_true]
    exact .opened absent _ _
  · rename_i r found
    obtain ⟨v, w₂, saved, rest⟩ := Runs.of_bind rest
    obtain ⟨rfl, rfl⟩ := Runs.of_pure rest
    rw [of_run_modifyDb saved]
    rcases upserts with rfl | rfl
    · exact .asked found _ _
    · exact .asked found _ _

/-- Whichever database, an acquisition creates the row or counts one slot from it. -/
theorem of_run_semaphoreAcquire {env : Env} {limit duration : Int} {given : Bool}
    (numbered : SemaphoresNumbered w.db.semaphores)
    (run : Runs (semaphoreAcquire env key limit duration) w given w') :
    Acquires env.config.family w.db key limit given w'.db := by
  obtain ⟨now, w₁, read, -, -, rest⟩ := checked_of_run_semaphoreAcquire run
  have same := of_run_timezoneNow read
  rw [← same] at numbered ⊢
  cases family : env.config.family with
  | postgresql =>
      rw [family] at rest
      exact of_run_semaphoreAcquirePostgres rest
  | mysql =>
      rw [family] at rest
      exact of_run_semaphoreAcquireMysql (.inl rfl) numbered rest
  | mariadb =>
      rw [family] at rest
      exact of_run_semaphoreAcquireMysql (.inr rfl) numbered rest
  | sqlite =>
      rw [family] at rest
      exact of_run_semaphoreAcquireSqlite numbered rest

end Sessions

/-! ## What the ledger says of them -/

/-- The limit an operation uses for a key: for the tracked key it is the tracked one. -/
def Audit.Limit (a : Audit) (key : String) (limit : Int) : Prop :=
  ∀ L, a.tracked = some (key, L) → limit = L

/-- A row under its own limit, with free and taken slots that add up to it, has its value free. -/
theorem reconciledAvailable_of_sum {L : Int} {r : Semaphore} {taken : Nat} (limit : r.limit = L)
    (free : 0 ≤ r.value) (sum : r.value + (taken : Int) = L) : reconciledAvailable L r = r.value := by
  unfold reconciledAvailable
  omega

/-- As long as a slot is taken, a release adds one. -/
theorem releasedAvailable_of_sum {L : Int} {r : Semaphore} {taken : Nat} (limit : r.limit = L)
    (free : 0 ≤ r.value) (sum : r.value + (taken : Int) = L) (positive : 0 < taken) :
    releasedAvailable L r = r.value + 1 := by
  unfold releasedAvailable
  omega

namespace Accounts

variable {a : Audit} {hand hand' : List JobId} {owed owed' : Nat} {w w' : World} {key : String}
  {limit duration : Int}

/-- A slot that was given is owed. -/
theorem semaphoreAcquire {given : Bool} (good : Accounts a hand owed w.db)
    (agrees : a.Limit key limit)
    (run : Runs (semaphoreAcquire a.env key limit duration) w given w') :
    Accounts a hand (owed + if given then a.slot key else 0) w'.db := by
  have unchanged : a.tracks key = false →
      (owed + if given then a.slot key else 0) = owed := by
    intro untracked
    rw [slot_of_untracked untracked]
    split <;> rfl
  have outcome := of_run_semaphoreAcquire good.semaphores run
  generalize w'.db = db' at outcome ⊢
  cases outcome with
  | opened absent expiresAt now =>
      refine good.open_ absent (fun _ => rfl) (fun _ => rfl) ?_ unchanged
      intro L n tracked
      obtain rfl := agrees L tracked
      have positive := a.positive _ tracked
      have zero := good.taken_of_absent tracked absent
      rw [slot_of_tracked tracked, if_pos rfl]
      simp only [newSemaphore] at positive ⊢
      exact ⟨trivial, by omega, by omega⟩
  | @asked r found expiresAt now =>
      refine good.save (fun r => sameRow_acquireRow _ _ _ _ r) ?_ unchanged ?_
      · intro L r' tracked found' limitOf free sum
        rw [found] at found'
        obtain rfl := Option.some.inj found'
        obtain rfl := agrees L tracked
        have positive := a.positive _ tracked
        have takes := acquireRow_takes positive expiresAt now r a.env.config.family
          (good.semaphores.bound r (mem_of_findSemaphore found).1).1
        have available := reconciledAvailable_of_sum limitOf free sum
        have given_iff := takes.given_iff
        have value := takes.value
        rw [available] at given_iff value
        refine ⟨takes.limit, ?_⟩
        rw [slot_of_tracked tracked]
        cases given : (acquireRow a.env.config.family limit expiresAt now r).1 with
        | true =>
            rw [given] at given_iff value
            simp only [true_iff, if_true] at given_iff value ⊢
            omega
        | false =>
            rw [given] at value
            simp only [Bool.false_eq_true, if_false] at value ⊢
            omega
      · intro L _ absent
        rw [found] at absent
        cases absent

/-- `semaphore_acquire_many` owes as many slots as it gave, and gave no more than was asked. -/
theorem semaphoreAcquireMany {count : Nat} {acquired : Int} (good : Accounts a hand owed w.db)
    (agrees : 0 < count → a.Limit key limit)
    (run : Runs (semaphoreAcquireMany a.env key count limit duration) w acquired w') :
    acquired.toNat ≤ count ∧ Accounts a hand (owed + acquired.toNat * a.slot key) w'.db := by
  by_cases asks : (count : Int) ≤ 0
  · rw [DjQueue.semaphoreAcquireMany, if_pos asks] at run
    obtain ⟨rfl, rfl⟩ := Runs.of_pure run
    simpa using good
  · have agrees := agrees (by omega)
    obtain ⟨now, stamp, w₁, same, -, -, rest⟩ := checked_of_run_semaphoreAcquireMany asks run
    rw [← same] at good
    have unchanged : ∀ n : Int, a.tracks key = false → owed + n.toNat * a.slot key = owed := by
      intro n untracked
      rw [slot_of_untracked untracked]
      rfl
    split at rest
    · rename_i absent
      obtain ⟨v, w₄, inserted, rest⟩ := Runs.of_bind rest
      obtain ⟨rfl, rfl⟩ := Runs.of_pure rest
      refine ⟨by omega, ?_⟩
      rw [of_run_modifyDb inserted]
      refine good.open_ absent (fun _ => rfl) (fun _ => rfl) ?_ (unchanged _)
      intro L n tracked
      obtain rfl := agrees L tracked
      have positive := a.positive _ tracked
      have zero := good.taken_of_absent tracked absent
      rw [slot_of_tracked tracked]
      simp only [newSemaphore] at positive ⊢
      exact ⟨trivial, by omega, by omega⟩
    · rename_i r found
      obtain ⟨v, w₄, saved, rest⟩ := Runs.of_bind rest
      obtain ⟨rfl, rfl⟩ := Runs.of_pure rest
      refine ⟨by unfold acquirableCount; omega, ?_⟩
      rw [of_run_modifyDb saved]
      refine good.save (fun r => (acquireManyRow_slots _ _ _ _ r).2.2) ?_ (unchanged _) ?_
      · intro L r' tracked found' limitOf free sum
        rw [found] at found'
        obtain rfl := Option.some.inj found'
        obtain rfl := agrees L tracked
        obtain ⟨value, limitAfter, -, -⟩ :=
          acquireManyRow_slots count limit (now + seconds duration) stamp r
        rw [acquirableCount, reconciledAvailable_of_sum limitOf free sum] at value
        refine ⟨limitAfter, ?_⟩
        rw [slot_of_tracked tracked, value, acquirableCount,
          reconciledAvailable_of_sum limitOf free sum]
        omega
      · intro L _ absent
        rw [found] at absent
        cases absent

/-- A slot that was owed goes back to the row. -/
theorem semaphoreRelease {released : Bool} (good : Accounts a hand (owed + a.slot key) w.db)
    (agrees : a.Limit key limit)
    (run : Runs (semaphoreRelease a.env key limit duration) w released w') :
    Accounts a hand owed w'.db := by
  obtain ⟨now, w₁, read, -, -, n, -, updated⟩ := checked_of_run_semaphoreRelease run
  rw [← of_run_timezoneNow read] at good
  rw [(of_run_updateSemaphore good.semaphores updated).1]
  refine good.save (sameRow_semaphoreReleaseUpdate _ _ _ _) ?_ ?_ ?_
  · intro L r tracked found limitOf free sum
    obtain rfl := agrees L tracked
    rw [slot_of_tracked tracked] at sum
    have available := releasedAvailable_of_sum limitOf free sum (by omega)
    rw [semaphoreReleaseUpdate_limit, semaphoreReleaseUpdate_value, available]
    omega
  · intro untracked
    rw [slot_of_untracked untracked]
    rfl
  · intro L tracked absent
    have zero := good.taken_of_absent tracked absent
    rw [slot_of_tracked tracked] at zero
    omega

end Accounts

end DjQueue
