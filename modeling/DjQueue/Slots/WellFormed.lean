import DjQueue.Slots.Calls
import DjQueue.Slots.Implementations
import DjQueue.Slots.Parts

/-!
# Well-formed semaphore rows

Every slot operation brings the row to the limit it was called with before it counts, save one:
`_consume_released_semaphore_slot` takes a slot from the row as it is.  It only runs after a
`semaphore_release` under the same limit, and that keeps the row well formed.
-/

namespace DjQueue

open Relational

/-- The free and the taken slots of a row add up to its limit. -/
structure Semaphore.WellFormed (r : Semaphore) : Prop where
  limit : 1 ≤ r.limit
  free : 0 ≤ r.value
  fits : r.value ≤ r.limit
  count : r.activeCount = some (r.limit - r.value)

/-- Well formed, and under this limit. -/
structure Semaphore.Under (L : Int) (r : Semaphore) : Prop extends r.WellFormed where
  isLimit : r.limit = L

theorem Semaphore.under_of_slots {L : Int} {r : Semaphore} (positive : 0 < L) (value : Int)
    (slots : r.slots = (value, some (L - value), L)) (free : 0 ≤ value) (fits : value ≤ L) :
    r.Under L := by
  simp only [Semaphore.slots, Prod.mk.injEq] at slots
  obtain ⟨isValue, count, limit⟩ := slots
  exact ⟨⟨by omega, by omega, by omega, by rw [count, isValue, limit]⟩, limit⟩

/-- What reconciling leaves is within the limit. -/
theorem reconciledAvailable_bounds {L : Int} (positive : 0 < L) (r : Semaphore) :
    0 ≤ reconciledAvailable L r ∧ reconciledAvailable L r ≤ L := by
  unfold reconciledAvailable
  omega

/-- What a release leaves is within the limit. -/
theorem releasedAvailable_bounds {L : Int} (positive : 0 < L) (r : Semaphore) :
    0 ≤ releasedAvailable L r ∧ releasedAvailable L r ≤ L := by
  unfold releasedAvailable
  omega

/-! ## Rows -/

section Rows

variable {L : Int} (positive : 0 < L) (expiresAt now : Time) (r : Semaphore)

include positive

theorem under_newSemaphore (key : String) {acquired : Int} (asked : 0 ≤ acquired)
    (given : acquired ≤ L) (id : Nat) : (newSemaphore key L acquired expiresAt now id).Under L := by
  refine Semaphore.under_of_slots positive (L - acquired) ?_ (by omega) (by omega)
  simp only [newSemaphore, Semaphore.slots, Prod.mk.injEq, true_and, and_true, Option.some.injEq]
  omega

theorem under_acquireSpec : (acquireSpec L expiresAt now r).2.Under L := by
  have bounds := reconciledAvailable_bounds positive r
  unfold acquireSpec
  dsimp only
  split
  · exact Semaphore.under_of_slots positive (reconciledAvailable L r - 1) rfl
      (by omega) (by omega)
  · exact Semaphore.under_of_slots positive (reconciledAvailable L r) rfl
      (by omega) (by omega)

theorem under_acquireManyRow {count : Int} (asks : 0 < count) :
    (acquireManyRow count L expiresAt now r).Under L := by
  have bounds := reconciledAvailable_bounds positive r
  have some : 0 ≤ acquirableCount count L r ∧ acquirableCount count L r ≤ reconciledAvailable L r := by
    unfold acquirableCount
    omega
  unfold acquireManyRow
  dsimp only
  split
  · exact Semaphore.under_of_slots positive
      (reconciledAvailable L r - acquirableCount count L r) rfl (by omega) (by omega)
  · split
    · exact Semaphore.under_of_slots positive
        (reconciledAvailable L r - acquirableCount count L r) rfl (by omega) (by omega)
    · rename_i same
      simp only [Bool.or_eq_true, decide_eq_true_eq, not_or, Decidable.not_not, ne_eq] at same
      refine Semaphore.under_of_slots positive r.value ?_ (by omega) (by omega)
      rw [Semaphore.slots, same.1.2, same.2, ← same.1.1]

theorem under_groupReleaseRow {available promoted : Int} (free : promoted ≤ available)
    (some : 0 ≤ promoted) (fits : available ≤ L) :
    (groupReleaseRow L available promoted expiresAt now r).Under L :=
  Semaphore.under_of_slots positive (available - promoted) rfl (by omega) (by omega)

theorem under_semaphoreRelease :
    ((semaphoreReleaseUpdate L expiresAt now).run .simultaneous r).Under L := by
  have bounds := releasedAvailable_bounds positive r
  exact Semaphore.under_of_slots positive _ (slots_run_semaphoreReleaseUpdate ..) bounds.1 bounds.2

/-- A row handed over, if it was at all. -/
theorem under_handoffReleasedClaimedSlot :
    (handoffReleasedClaimedSlotUpdate L expiresAt now).run .simultaneous r = r ∨
      ((handoffReleasedClaimedSlotUpdate L expiresAt now).run .simultaneous r).Under L := by
  by_cases accepted : r.limit - L - 1 < r.value
  · have slots := slots_run_handoffReleasedClaimedSlotUpdate L expiresAt now .simultaneous r
    rw [if_pos accepted] at slots
    have bounds := releasedAvailable_bounds positive r
    have room : 1 ≤ releasedAvailable L r := by
      unfold releasedAvailable
      omega
    refine .inr (Semaphore.under_of_slots positive (releasedAvailable L r - 1) ?_
      (by omega) (by omega))
    rw [slots]
    simp only [Prod.mk.injEq, true_and, and_true, Option.some.injEq]
    omega
  · have refused : ¬ (handoffReleasedClaimedSlotUpdate L expiresAt now).filter r = true :=
      fun hit => accepted (of_decide_eq_true hit)
    exact .inl (by rw [Update.run, if_neg refused])

/-- The row has this limit already. -/
theorem under_consumeReleasedSemaphoreSlot (under : r.Under L) :
    ((consumeReleasedSemaphoreSlotUpdate L expiresAt now).run .simultaneous r).Under L := by
  by_cases accepted : 0 < r.value
  · have slots := slots_run_consumeReleasedSemaphoreSlotUpdate L expiresAt now .simultaneous r
    rw [if_pos accepted] at slots
    have fits := under.fits
    have limit := under.isLimit
    refine Semaphore.under_of_slots positive (r.value - 1) ?_ (by omega) (by omega)
    rw [slots]
    simp only [Prod.mk.injEq, true_and, and_true, Option.some.injEq]
    omega
  · rw [Update.run, if_neg (by simpa [consumeReleasedSemaphoreSlotUpdate] using accepted)]
    exact under

end Rows

/-! ## The row of a key -/

/-- What a call does to the row of a key: nothing, or it leaves it well formed under `L`. -/
def RowMoves (L : Int) (row row' : Option Semaphore) : Prop :=
  row' = row ∨ ∃ r', row' = some r' ∧ r'.Under L

/-- The row after its columns are saved. -/
theorem findSemaphore_saveSemaphore {db : Db} {key : String} {f : Semaphore → Semaphore}
    (keeps : ∀ r : Semaphore, r.SameRow (f r)) :
    (db.saveSemaphore key f).findSemaphore key = (db.findSemaphore key).map f :=
  find?_updateWhere_key fun r => (keeps r).1

theorem findSemaphore_insert {db : Db} {key : String} {mk : Nat → Semaphore}
    (absent : db.findSemaphore key = none) (keyed : (mk db.semaphores.nextId).key = key) :
    { db with semaphores := db.semaphores.insert mk }.findSemaphore key =
      some (mk db.semaphores.nextId) := by
  have none : db.semaphores.rows.find? (fun r => r.key == key) = none := absent
  simp [Db.findSemaphore, none, keyed]

/-- The semaphore table after a call: numbered as before, with the key's row moved. -/
structure TableMoves (L : Int) (key : String) (db db' : Db) : Prop where
  numbered : SemaphoresNumbered db'.semaphores
  row : RowMoves L (db.findSemaphore key) (db'.findSemaphore key)

section Tables

variable {L : Int} {key : String} {db db' : Db}

theorem TableMoves.unchanged (numbered : SemaphoresNumbered db.semaphores)
    (same : db'.semaphores = db.semaphores) : TableMoves L key db db' := by
  refine ⟨by rw [same]; exact numbered, .inl ?_⟩
  unfold Db.findSemaphore
  rw [same]

theorem TableMoves.save (numbered : SemaphoresNumbered db.semaphores) {f : Semaphore → Semaphore}
    (keeps : ∀ r : Semaphore, r.SameRow (f r))
    (under : ∀ r, db.findSemaphore key = some r → f r = r ∨ (f r).Under L) :
    TableMoves L key db (db.saveSemaphore key f) := by
  refine ⟨numbered.update keeps, ?_⟩
  rw [findSemaphore_saveSemaphore keeps]
  cases found : db.findSemaphore key with
  | none => exact .inl rfl
  | some r =>
      rcases under r found with same | under
      · exact .inl (by rw [Option.map_some, same])
      · exact .inr ⟨f r, rfl, under⟩

theorem TableMoves.insert (numbered : SemaphoresNumbered db.semaphores)
    (absent : db.findSemaphore key = none) {mk : Nat → Semaphore} (ids : ∀ n, (mk n).id = n)
    (keyed : ∀ n, (mk n).key = key) (under : ∀ n, (mk n).Under L) :
    TableMoves L key db { db with semaphores := db.semaphores.insert mk } := by
  refine ⟨numbered.insert ids fun r mem same => ?_, .inr ⟨_, findSemaphore_insert absent (keyed _),
    under _⟩⟩
  have found := findSemaphore_of_mem numbered mem
  rw [same, keyed, absent] at found
  cases found

theorem TableMoves.of_same {db₁ : Db} (moves : TableMoves L key db db₁)
    (same : db'.semaphores = db₁.semaphores) : TableMoves L key db db' :=
  ⟨by rw [same]; exact moves.numbered, by unfold Db.findSemaphore; rw [same]; exact moves.row⟩

theorem TableMoves.trans {db₁ : Db} (first : TableMoves L key db db₁)
    (second : TableMoves L key db₁ db') : TableMoves L key db db' := by
  refine ⟨second.numbered, ?_⟩
  rcases second.row with same | moved
  · rw [same]
    exact first.row
  · exact .inr moved

end Tables

/-! ## Calls -/

section Calls

variable {env : Env} {key : String} {L duration : Int} {w w' : World}

theorem TableMoves.semaphoreAcquire {given : Bool} (positive : 0 < L)
    (numbered : SemaphoresNumbered w.db.semaphores)
    (run : Runs (semaphoreAcquire env key L duration) w given w') :
    TableMoves L key w.db w'.db := by
  have acquires := of_run_semaphoreAcquire numbered run
  generalize w'.db = db' at acquires ⊢
  cases acquires with
  | opened absent expiresAt now =>
      exact .insert numbered absent (fun _ => rfl) (fun _ => rfl)
        (under_newSemaphore positive expiresAt now key (by decide) positive)
  | asked found expiresAt now =>
      refine .save numbered (sameRow_acquireRow _ L expiresAt now) fun r found => ?_
      have nonzero := (numbered.bound r (mem_of_findSemaphore found).1).1
      rw [acquireRow_eq_spec positive expiresAt now r _ nonzero]
      exact .inr (under_acquireSpec positive expiresAt now r)

theorem sameRow_acquireManyRow (count limit : Int) (expiresAt now : Time) (r : Semaphore) :
    r.SameRow (acquireManyRow count limit expiresAt now r) := by
  unfold acquireManyRow
  dsimp only
  split
  · exact ⟨rfl, rfl⟩
  · split <;> exact ⟨rfl, rfl⟩

theorem TableMoves.semaphoreAcquireMany {count acquired : Int} (positive : 0 < L)
    (numbered : SemaphoresNumbered w.db.semaphores)
    (run : Runs (semaphoreAcquireMany env key count L duration) w acquired w') :
    TableMoves L key w.db w'.db := by
  by_cases asks : count ≤ 0
  · rw [DjQueue.semaphoreAcquireMany, if_pos asks] at run
    rw [(Runs.of_pure run).2]
    exact .unchanged numbered rfl
  · obtain ⟨now, stamp, w₁, same, -, -, rest⟩ := checked_of_run_semaphoreAcquireMany asks run
    rw [← same] at numbered ⊢
    split at rest
    · rename_i absent
      obtain ⟨u, w₄, inserted, rest⟩ := Runs.of_bind rest
      obtain ⟨-, rfl⟩ := Runs.of_pure rest
      rw [of_run_modifyDb inserted]
      exact .insert numbered absent (fun _ => rfl) (fun _ => rfl)
        (under_newSemaphore positive _ _ key (by omega) (by omega))
    · obtain ⟨u, w₄, saved, rest⟩ := Runs.of_bind rest
      obtain ⟨-, rfl⟩ := Runs.of_pure rest
      rw [of_run_modifyDb saved]
      exact .save numbered (sameRow_acquireManyRow _ _ _ _) fun r _ =>
        .inr (under_acquireManyRow positive _ _ r (by omega))

/-- The update that gives a consumed waiter its slot. -/
def SlotHandoffMode.update (L : Int) (expiresAt now : Time) : SlotHandoffMode → Update Semaphore
  | .releaseClaimed => handoffReleasedClaimedSlotUpdate L expiresAt now
  | .consumeReleased => consumeReleasedSemaphoreSlotUpdate L expiresAt now

/-- What an unblocking does to the table: nothing, or the one update of its mode. -/
def Unblocks (mode : SlotHandoffMode) (L : Int) (key : String) (db db' : Db) : Prop :=
  db'.semaphores = db.semaphores ∨ ∃ expiresAt now,
    db'.semaphores = (db.saveSemaphore key ((mode.update L expiresAt now).run .simultaneous)).semaphores

theorem semaphores_of_updateSemaphore {order : EvaluationOrder} {u : Update Semaphore} {n : Nat}
    (run : Runs (updateSemaphore order key u) w n w') :
    w'.db.semaphores = (w.db.saveSemaphore key (u.run order)).semaphores := by
  obtain ⟨db, w₁, got, rest⟩ := Runs.of_bind run
  obtain ⟨rfl, rfl⟩ := of_run_getDb got
  obtain ⟨u, w₂, saved, rest⟩ := Runs.of_bind rest
  obtain ⟨-, rfl⟩ := Runs.of_pure rest
  rw [of_run_modifyDb saved]
  rfl

theorem unblocks_of_acquireHandoffSlot {mode : SlotHandoffMode} {now : Time} {given : Bool}
    (simultaneous : env.config.family.evaluationOrder = .simultaneous)
    (run : Runs (acquireHandoffSlot env mode key L duration now) w given w') :
    Unblocks mode L key w.db w'.db := by
  cases mode with
  | releaseClaimed =>
      obtain ⟨-, -, n, -, updated⟩ := checked_of_run_handoffReleasedClaimedSlot run
      rw [simultaneous] at updated
      exact .inr ⟨_, _, semaphores_of_updateSemaphore updated⟩
  | consumeReleased =>
      obtain ⟨-, -, n, -, updated⟩ := checked_of_run_consumeReleasedSemaphoreSlot run
      rw [simultaneous] at updated
      exact .inr ⟨_, _, semaphores_of_updateSemaphore updated⟩

theorem unblocks_of_consumeBlockedJobPortably {mode : SlotHandoffMode} {now : Time}
    {result : Option (JobRef × Bool)}
    (simultaneous : env.config.family.evaluationOrder = .simultaneous)
    (run : Runs (consumeBlockedJobPortably env mode key L duration now) w result w') :
    Unblocks mode L key w.db w'.db := by
  obtain ⟨consumed, w₁, taken, rest⟩ := Runs.of_bind run
  have same : w₁.db.semaphores = w.db.semaphores :=
    Spares.consumeNextBlockedJob (apart_semaphores _) env key _ _ _ taken
  split at rest
  · rw [(Runs.of_pure rest).2]
    exact .inl same
  · split at rest
    · exact (Runs.of_throw rest).elim
    · obtain ⟨given, w₂, asked, rest⟩ := Runs.of_bind rest
      obtain ⟨u, w₃, restored, rest⟩ := Runs.of_bind rest
      obtain ⟨-, rfl⟩ := Runs.of_pure rest
      have kept : w'.db.semaphores = w₂.db.semaphores := Spares.runIf _
        (Spares.createBlockedExecution (apart_semaphores _) _ _ _ _ _ _ _) _ _ _ restored
      unfold Unblocks Db.saveSemaphore
      rw [kept, ← same]
      exact unblocks_of_acquireHandoffSlot simultaneous asked

theorem unblocks_of_consumeBlockedJobOnPostgres {now : Time} {result : Option (JobRef × Bool)}
    (run : Runs (consumeBlockedJobOnPostgres env key L duration now) w result w') :
    Unblocks .releaseClaimed L key w.db w'.db := by
  obtain ⟨consumed, w₁, taken, rest⟩ := Runs.of_bind run
  have unblocks : Unblocks .releaseClaimed L key w.db w₁.db := by
    obtain ⟨-, -, body⟩ := checked_of_run_consumeNextBlockedJobWithReleasedSlot taken
    split at body
    · rw [(Runs.of_pure body).2]
      exact .inl rfl
    · obtain ⟨n, w₃, updated, body⟩ := Runs.of_bind body
      have moved := semaphores_of_updateSemaphore (of_run_updateSlots updated).2
      split at body
      · rw [(Runs.of_pure body).2]
        exact .inr ⟨_, _, moved⟩
      · obtain ⟨n', w₄, deleted, body⟩ := Runs.of_bind body
        rw [(Runs.of_pure body).2]
        have kept : w₄.db.semaphores = w₃.db.semaphores :=
          Spares.deleteRowsWhere (m := .blocked) (apart_semaphores _) _ _ _ _ deleted
        exact .inr ⟨_, _, kept.trans moved⟩
  split at rest
  · rw [(Runs.of_pure rest).2]
    exact unblocks
  · split at rest
    · exact (Runs.of_throw rest).elim
    · rw [(Runs.of_pure rest).2]
      exact unblocks

theorem unblocks_of_unblockNextBlockedJob {mode : SlotHandoffMode} {job : Option JobRef}
    (simultaneous : env.config.family.evaluationOrder = .simultaneous)
    (run : Runs (unblockNextBlockedJob env key L duration mode) w job w') :
    Unblocks mode L key w.db w'.db := by
  obtain ⟨now, w₁, read, rest⟩ := Runs.of_bind run
  have same := of_run_timezoneNow read
  obtain ⟨slot, w₂, consumed, rest⟩ := Runs.of_bind (Runs.of_atomic rest)
  have unblocks : Unblocks mode L key w.db w₂.db := by
    rw [← same]
    unfold consumeBlockedJobForSlot at consumed
    split at consumed
    · rename_i path
      rw [path.1]
      exact unblocks_of_consumeBlockedJobOnPostgres consumed
    · exact unblocks_of_consumeBlockedJobPortably simultaneous consumed
  split at rest
  · obtain ⟨u, w₃, created, rest⟩ := Runs.of_bind rest
    rw [(Runs.of_pure rest).2]
    have kept : w₃.db.semaphores = w₂.db.semaphores :=
      Spares.createReadyExecutionAfterBlockedConsume (apart_semaphores _) _ _ _ _ _ _ created
    unfold Unblocks
    rw [kept]
    exact unblocks
  · rw [(Runs.of_pure rest).2]
    exact unblocks

/-- The released slot goes to the waiter: the row comes under the limit of the release. -/
theorem TableMoves.handoff {db db' : Db} (positive : 0 < L)
    (numbered : SemaphoresNumbered db.semaphores)
    (unblocks : Unblocks .releaseClaimed L key db db') : TableMoves L key db db' := by
  rcases unblocks with same | ⟨expiresAt, now, moved⟩
  · exact .unchanged numbered same
  · refine TableMoves.of_same (.save numbered ?_ fun r _ => ?_) moved
    · exact sameRow_handoffReleasedClaimedSlotUpdate L expiresAt now _
    · exact under_handoffReleasedClaimedSlot positive expiresAt now r

/-- The slot comes from the row, which the release just brought under this limit. -/
theorem TableMoves.consume {db db' : Db} (positive : 0 < L)
    (numbered : SemaphoresNumbered db.semaphores)
    (released : ∀ r, db.findSemaphore key = some r → r.Under L)
    (unblocks : Unblocks .consumeReleased L key db db') : TableMoves L key db db' := by
  rcases unblocks with same | ⟨expiresAt, now, moved⟩
  · exact .unchanged numbered same
  · refine TableMoves.of_same (.save numbered ?_ fun r found => ?_) moved
    · exact sameRow_consumeReleasedSemaphoreSlotUpdate L expiresAt now _
    · exact .inr (under_consumeReleasedSemaphoreSlot positive expiresAt now r (released r found))

theorem TableMoves.releaseSlot {u : Unit} (positive : 0 < L)
    (simultaneous : env.config.family.evaluationOrder = .simultaneous)
    (numbered : SemaphoresNumbered w.db.semaphores)
    (run : Runs (releaseSlot env key L duration) w u w') : TableMoves L key w.db w'.db := by
  obtain ⟨unblocked, w₁, handed, rest⟩ := Runs.of_bind run
  have first := TableMoves.handoff positive numbered
    (unblocks_of_unblockNextBlockedJob simultaneous handed)
  split at rest
  · rw [(Runs.of_pure rest).2]
    exact first
  · obtain ⟨released, w₂, given, rest⟩ := Runs.of_bind rest
    obtain ⟨again, w₃, consumed, rest⟩ := Runs.of_bind rest
    rw [(Runs.of_pure rest).2]
    obtain ⟨now, w₄, read, -, -, n, -, updated⟩ := checked_of_run_semaphoreRelease given
    have same := of_run_timezoneNow read
    rw [simultaneous] at updated
    have saved := semaphores_of_updateSemaphore updated
    rw [same] at saved
    have second : TableMoves L key w₁.db w₂.db := by
      refine TableMoves.of_same (.save first.numbered ?_ fun r _ => .inr ?_) saved
      · exact sameRow_semaphoreReleaseUpdate L _ now _
      · exact under_semaphoreRelease positive _ now r
    -- whatever the hand-off left, the release brought the row under the limit
    have under : ∀ r, w₂.db.findSemaphore key = some r → r.Under L := by
      intro r found
      have found' : (w₁.db.saveSemaphore key ((semaphoreReleaseUpdate L (now + seconds duration)
          now).run .simultaneous)).findSemaphore key = some r := by
        unfold Db.findSemaphore
        rw [← saved]
        exact found
      rw [findSemaphore_saveSemaphore (sameRow_semaphoreReleaseUpdate L _ now _)] at found'
      obtain ⟨r₀, -, rfl⟩ := Option.map_eq_some_iff.mp found'
      exact under_semaphoreRelease positive _ now r₀
    exact (first.trans second).trans (TableMoves.consume positive second.numbered under
      (unblocks_of_unblockNextBlockedJob simultaneous consumed))

theorem length_le_of_consumeEachRow {β : Type} {m : StateModel} {pk : β → Nat} :
    ∀ {rows consumed : List β} {w w' : World}, Runs (consumeEachRow m pk rows) w consumed w' →
      consumed.length ≤ rows.length
  | [], consumed, w, w', run => by rw [(Runs.of_pure run).1]
  | row :: rows, consumed, w, w', run => by
      obtain ⟨n, w₁, deleted, rest⟩ := Runs.of_bind run
      obtain ⟨others, w₂, tail, rest⟩ := Runs.of_bind rest
      have fewer := length_le_of_consumeEachRow tail
      rw [(Runs.of_pure rest).1]
      split
      · exact Nat.le_succ_of_le fewer
      · exact Nat.succ_le_succ fewer

theorem length_le_of_consumeSelectedRows {β : Type} {m : StateModel} {pk : β → Nat}
    {rows consumed : List β} (run : Runs (consumeSelectedRows env m pk rows) w consumed w') :
    consumed.length ≤ rows.length := by
  unfold consumeSelectedRows at run
  split at run
  · exact length_le_of_consumeEachRow run
  · obtain ⟨n, w₁, deleted, rest⟩ := Runs.of_bind run
    rw [(Runs.of_pure rest).1]

theorem TableMoves.releaseRecoveredConcurrencyGroup {count : Nat} {jobs : List Job}
    (positive : 0 < L) (numbered : SemaphoresNumbered w.db.semaphores)
    (run : Runs (releaseRecoveredConcurrencyGroup env key count L duration) w jobs w') :
    TableMoves L key w.db w'.db := by
  obtain ⟨now, w₁, read, rest₁⟩ := Runs.of_bind run
  have same := of_run_timezoneNow read
  rw [← same] at numbered ⊢
  obtain ⟨expiresAt, w₀, added, rest₂⟩ := Runs.of_bind rest₁
  obtain ⟨rfl, -, rfl⟩ := of_run_addSeconds added
  obtain ⟨db, w₂, got, rest₃⟩ := Runs.of_bind rest₂
  obtain ⟨rfl, rfl⟩ := of_run_getDb got
  obtain ⟨u, w₃, checked, rest⟩ := Runs.of_bind rest₃
  have kept₃ : w₃.db.semaphores = w₂.db.semaphores :=
    Spares.ensureStateRowsBelongToBackend (m := .blocked) _ _ _ _ _ checked
  split at rest
  · rw [(Runs.of_pure rest).2]
    exact .unchanged numbered kept₃
  · rename_i r found
    obtain ⟨promoted, w₄, consumed, rest⟩ := Runs.of_bind rest
    have fewer := length_le_of_consumeSelectedRows consumed
    have kept₄ : w₄.db.semaphores = w₃.db.semaphores :=
      Spares.consumeSelectedRows (m := .blocked) (apart_semaphores _) env _ _ _ _ _ consumed
    obtain ⟨stamp, w₅, read', rest⟩ := Runs.of_bind rest
    have same₅ := of_run_timezoneNow read'
    obtain ⟨u, w₉, fits, rest₉⟩ := Runs.of_bind rest
    obtain ⟨-, rfl⟩ := of_run_ensureFits fits
    obtain ⟨u, w₆, saved, rest⟩ := Runs.of_bind rest₉
    obtain ⟨rows, w₇, built, rest⟩ := Runs.of_bind rest
    rw [(Runs.of_ofExcept built).2] at rest
    obtain ⟨u, w₈, created, rest⟩ := Runs.of_bind rest
    rw [(Runs.of_pure rest).2]
    have kept₈ : w₈.db.semaphores = w₆.db.semaphores :=
      Spares.bulkCreateReadyExecutions (apart_semaphores _) _ _ _ _ _ created
    have before : w₉.db.semaphores = w₂.db.semaphores := by rw [same₅, kept₄, kept₃]
    have after : w₈.db.semaphores = (w₂.db.saveSemaphore key
        (groupReleaseRow L (groupAvailable count L r) promoted.length
          (now + seconds duration) stamp)).semaphores := by
      rw [kept₈, of_run_modifyDb saved]
      unfold Db.saveSemaphore
      rw [← before]
    -- never more waiters than slots the group gives back
    have bounds : (promoted.length : Int) ≤ groupAvailable count L r ∧
        groupAvailable count L r ≤ L := by
      rw [pySlice, List.length_take] at fewer
      unfold groupAvailable at fewer ⊢
      split at fewer <;> omega
    refine TableMoves.of_same (.save numbered ?_ fun r' _ => .inr ?_) after
    · exact fun _ => ⟨rfl, rfl⟩
    · exact under_groupReleaseRow positive _ _ r' bounds.1 (by omega) bounds.2

end Calls

/-! ## The limit of a release -/

/-- A bind of exceptions returns only when both parts do. -/
theorem of_bind_ok {α β : Type} {x : Except PyError α} {f : α → Except PyError β} {b : β}
    (eq : x >>= f = .ok b) : ∃ a, x = .ok a ∧ f a = .ok b := by
  cases x with
  | ok a => exact ⟨a, rfl, eq⟩
  | error e => cases eq

theorem positive_of_positiveIntOption {value : PyValue} {name : String} {n : Int}
    (read : positiveIntOption value name = .ok n) : 0 < n := by
  obtain ⟨m, -, checked⟩ := of_bind_ok read
  split at checked
  · cases checked
  · cases checked
    omega

/-- The limits of a task are positive. -/
theorem positive_of_taskConcurrencySettings {config : Config} {task : Task}
    {settings : ConcurrencySettings} (eq : taskConcurrencySettings config task = .ok settings) :
    0 < settings.limit ∧ 0 < settings.durationSeconds := by
  obtain ⟨v, -, eq⟩ := of_bind_ok eq
  obtain ⟨limit, read, eq⟩ := of_bind_ok eq
  obtain ⟨duration, read', eq⟩ := of_bind_ok eq
  obtain ⟨onConflict, -, eq⟩ := of_bind_ok eq
  cases eq
  exact ⟨positive_of_positiveIntOption read, positive_of_positiveIntOption read'⟩

theorem positive_of_persistedConcurrencySettings {limit duration : Int} {onConflict : String}
    {settings : ConcurrencySettings}
    (eq : persistedConcurrencySettings limit duration onConflict = .ok settings) :
    0 < settings.limit ∧ 0 < settings.durationSeconds := by
  obtain ⟨L, read, eq⟩ := of_bind_ok eq
  obtain ⟨d, read', eq⟩ := of_bind_ok eq
  obtain ⟨rule, -, eq⟩ := of_bind_ok eq
  cases eq
  exact ⟨positive_of_positiveIntOption read, positive_of_positiveIntOption read'⟩

/-- The limits of an imported object are positive. -/
theorem positive_of_concurrencySettings {config : Config} {imported : Imported}
    {settings : ConcurrencySettings} (eq : concurrencySettings config imported = .ok settings) :
    0 < settings.limit ∧ 0 < settings.durationSeconds := by
  cases imported with
  | task t => exact positive_of_taskConcurrencySettings eq
  | object => cases eq

/-- The limits of a job are positive, wherever they come from. -/
theorem positive_of_concurrencySettingsForJob {env : Env} {job : Job} {task : Option Imported}
    {settings : ConcurrencySettings} (eq : concurrencySettingsForJob env job task = .ok settings) :
    0 < settings.limit ∧ 0 < settings.durationSeconds := by
  unfold concurrencySettingsForJob at eq
  split at eq
  · split at eq
    · rename_i resolved
      cases eq
      cases task with
      | some imported => exact positive_of_concurrencySettings resolved
      | none =>
          obtain ⟨imported, -, resolved⟩ := of_bind_ok resolved
          exact positive_of_concurrencySettings resolved
    · split at eq <;> cases eq
  · split at eq
    · split at eq
      · rename_i persisted
        cases eq
        exact positive_of_persistedConcurrencySettings persisted
      · cases eq
    · cases eq

/-! ## Sequences of calls -/

/-- The limit a call runs under.  A release whose job has no usable policy takes the row's. -/
def SlotCall.limit (env : Env) (key : String) (db : Db) : SlotCall → Int
  | semaphoreAcquire limit _ => limit
  | semaphoreAcquireMany _ limit _ => limit
  | semaphoreRelease limit _ => limit
  | unblockNextBlockedJob limit _ _ => limit
  | releaseConcurrencySlot job task =>
      match concurrencySettingsForJob env { job with concurrencyKey := some key } task with
      | .ok settings => settings.limit
      | .error _ => semaphoreLimitOrOne db key
  | releaseRecoveredConcurrencyGroup _ limit _ => limit

/-- The calls that take or give back slots as one transaction each, under a positive limit; the
`UPDATE`s of a release see the row as it was. -/
def SlotStep.WholeCall (step : SlotStep) : Prop :=
  match step.call with
  | .semaphoreAcquire limit _ | .semaphoreAcquireMany _ limit _
  | .releaseRecoveredConcurrencyGroup _ limit _ => 0 < limit
  | .releaseConcurrencySlot _ _ => step.env.config.family.evaluationOrder = .simultaneous
  | .semaphoreRelease _ _ | .unblockNextBlockedJob _ _ _ => False

/-- The state after a step. -/
def SlotStep.after (key : String) (step : SlotStep) (db : Db) : Db :=
  (finalState (step.call.run step.env key) (step.world db)).db

/-- The tables after every call, with the limit of the last call that changed the key's row. -/
def slotHistory (key : String) : Db → Option Int → List SlotStep → List (Db × Option Int)
  | _, _, [] => []
  | db, last, step :: rest =>
      let db' := step.after key db
      let last' := if db'.findSemaphore key = db.findSemaphore key then last
        else some (step.call.limit step.env key (step.start db))
      (db', last') :: slotHistory key db' last' rest

/-- The key's row, if there is one, is well formed and under this limit. -/
def RowUnder (key : String) (db : Db) (last : Option Int) : Prop :=
  ∀ r, db.findSemaphore key = some r → r.WellFormed ∧ last = some r.limit

/-- The row stays under the limit last written. -/
theorem TableMoves.rowUnder {L : Int} {key : String} {db db' : Db} {last : Option Int}
    (moves : TableMoves L key db db') (under : RowUnder key db last) :
    RowUnder key db' (if db'.findSemaphore key = db.findSemaphore key then last else some L) := by
  intro r found
  split
  · rename_i same
    exact under r (same ▸ found)
  · rename_i differs
    rcases moves.row with same | ⟨r', found', inside⟩
    · exact absurd same differs
    · obtain rfl : r' = r := Option.some.inj (found'.symm.trans found)
      exact ⟨inside.toWellFormed, by rw [inside.isLimit]⟩

/-- The limit in the row is positive, or one. -/
theorem positive_semaphoreLimitOrOne {key : String} {db : Db} {last : Option Int}
    (under : RowUnder key db last) : 0 < semaphoreLimitOrOne db key := by
  unfold semaphoreLimitOrOne
  cases found : db.findSemaphore key with
  | none => exact Int.zero_lt_one
  | some r =>
      have positive := (under r found).1.limit
      simp only [Option.map_some]
      split
      · exact Int.zero_lt_one
      · exact Int.zero_lt_one
      · rename_i eq
        cases eq
        omega

/-- A release asks under a positive limit. -/
theorem positive_limit_of_release {env : Env} {key : String} {job : Job} {task : Option Imported}
    {db : Db} {last : Option Int} (under : RowUnder key db last) :
    0 < (SlotCall.releaseConcurrencySlot job task).limit env key db := by
  unfold SlotCall.limit
  dsimp only
  split
  · rename_i policy
    exact (positive_of_concurrencySettingsForJob policy).1
  · exact positive_semaphoreLimitOrOne under

theorem of_run_releaseSettings {env : Env} {key : String} {job : Job} {task : Option Imported}
    {w w' : World} {settings : Int × Int}
    (run : Runs (releaseSettings env { job with concurrencyKey := some key } key task) w settings
      w') :
    settings.1 = (SlotCall.releaseConcurrencySlot job task).limit env key w.db ∧ w' = w := by
  obtain ⟨db, w₁, got, rest⟩ := Runs.of_bind run
  obtain ⟨rfl, rfl⟩ := of_run_getDb got
  cases policy : concurrencySettingsForJob env { job with concurrencyKey := some key } task with
  | ok resolved =>
      rw [policy] at rest
      obtain ⟨rfl, rfl⟩ := Runs.of_pure rest
      simp only [SlotCall.limit, policy, and_self]
  | error e =>
      rw [policy] at rest
      cases e with
      | dispatchPolicyError message =>
          obtain ⟨rfl, rfl⟩ := Runs.of_pure rest
          simp only [SlotCall.limit, policy, and_self]
      | _ => exact (Runs.of_throw rest).elim

theorem TableMoves.releaseConcurrencySlot {env : Env} {key : String} {job : Job}
    {task : Option Imported} {w w' : World} {u : Unit} {last : Option Int}
    (simultaneous : env.config.family.evaluationOrder = .simultaneous)
    (numbered : SemaphoresNumbered w.db.semaphores) (under : RowUnder key w.db last)
    (run : Runs (releaseConcurrencySlot env { job with concurrencyKey := some key } task) w u w') :
    TableMoves ((SlotCall.releaseConcurrencySlot job task).limit env key w.db) key w.db w'.db := by
  unfold DjQueue.releaseConcurrencySlot at run
  split at run
  · rw [(Runs.of_pure run).2]
    exact .unchanged numbered rfl
  · rename_i key' keyed
    obtain rfl : key' = key := by
      simp only [Job.slotKey, Option.filter_eq_some_iff] at keyed
      exact (Option.some.inj keyed.1).symm
    obtain ⟨settings, w₁, read, rest⟩ := Runs.of_bind run
    obtain ⟨isLimit, same⟩ := of_run_releaseSettings read
    rw [same] at rest
    have positive : 0 < settings.1 := by
      rw [isLimit]
      exact positive_limit_of_release under
    rw [← isLimit]
    exact .releaseSlot positive simultaneous numbered rest

section Steps

variable {key : String} {db : Db} {last : Option Int} {step : SlotStep}

/-- The times a step begins with touch no semaphore. -/
@[simp] theorem SlotStep.semaphores_start : (step.start db).semaphores = db.semaphores := by
  unfold SlotStep.start
  split <;> rfl

/-- A call that raises is undone; one that returns is one of the four. -/
theorem SlotStep.moves (whole : step.WholeCall) (numbered : SemaphoresNumbered db.semaphores)
    (under : RowUnder key db last) :
    TableMoves (step.call.limit step.env key (step.start db)) key db (step.after key db) := by
  have here : TableMoves (step.call.limit step.env key (step.start db)) key (step.start db)
      (step.after key db) := by
    have numbered : SemaphoresNumbered (step.world db).db.semaphores := by
      rw [SlotStep.world, SlotStep.semaphores_start]
      exact numbered
    have under : RowUnder key (step.world db).db last := by
      intro r found
      refine under r ?_
      rw [← found]
      simp [SlotStep.world, Db.findSemaphore]
    unfold SlotStep.after SlotStep.WholeCall at *
    rcases runs_or_raises (step.call.run step.env key) (step.world db) with
      ⟨result, run, -⟩ | ⟨e, raised, -⟩
    · generalize (finalState (step.call.run step.env key) (step.world db)) = w' at run
      cases call : step.call with
      | semaphoreAcquire limit duration =>
          rw [call] at run whole
          obtain ⟨given, w₁, acquired, rest⟩ := Runs.of_bind (Runs.of_atomic run)
          rw [(Runs.of_pure rest).2]
          exact .semaphoreAcquire whole numbered acquired
      | semaphoreAcquireMany count limit duration =>
          rw [call] at run whole
          obtain ⟨given, w₁, acquired, rest⟩ := Runs.of_bind (Runs.of_atomic run)
          rw [(Runs.of_pure rest).2]
          exact .semaphoreAcquireMany whole numbered acquired
      | semaphoreRelease limit duration =>
          rw [call] at whole
          exact whole.elim
      | unblockNextBlockedJob limit duration mode =>
          rw [call] at whole
          exact whole.elim
      | releaseConcurrencySlot job task =>
          rw [call] at run whole
          obtain ⟨u, w₁, released, rest⟩ := Runs.of_bind (Runs.of_atomic run)
          rw [(Runs.of_pure rest).2]
          exact .releaseConcurrencySlot whole numbered under released
      | releaseRecoveredConcurrencyGroup count limit duration =>
          rw [call] at run whole
          obtain ⟨jobs, w₁, released, rest⟩ := Runs.of_bind (Runs.of_atomic run)
          rw [(Runs.of_pure rest).2]
          exact .releaseRecoveredConcurrencyGroup whole numbered released
    · have rolled : (finalState (step.call.run step.env key) (step.world db)).db =
          step.start db := by
        cases call : step.call <;> rw [call] at raised <;>
          exact db_of_raises_transactionAtomic raised
      exact .unchanged numbered (by rw [rolled])
  exact ⟨here.numbered, by simpa [Db.findSemaphore] using here.row⟩

end Steps

/-- One induction along the sequence: each call leaves the row it found or one of its own. -/
theorem rowUnder_of_slotHistory {key : String} : ∀ {steps : List SlotStep} {db : Db}
    {last : Option Int}, SemaphoresNumbered db.semaphores → RowUnder key db last →
    (∀ step ∈ steps, step.WholeCall) → ∀ state ∈ slotHistory key db last steps,
      RowUnder key state.1 state.2
  | [], db, last, _, _, _, state, mem => by cases mem
  | step :: rest, db, last, numbered, under, whole, state, mem => by
      have moves := step.moves (whole step List.mem_cons_self) numbered under
      have under' := moves.rowUnder under
      rcases List.mem_cons.mp mem with rfl | mem
      · exact under'
      · exact rowUnder_of_slotHistory moves.numbered under'
          (fun s inside => whole s (List.mem_cons_of_mem _ inside)) state mem

/-- A job whose persisted policy has this limit. -/
def limitedJob (limit : Int) : Job :=
  ⟨1, "app.task", "default", 0, ⟨[], []⟩, "default", none, some "account", some limit, some 60,
    some "block", none, none⟩

/-- Three slots of three are taken, then two jobs end under a limit of one. -/
def shrinkingLimits : List SlotStep := [
  ⟨Env.ofConfig { family := .sqlite }, .semaphoreAcquireMany 3 3 60, fun _ => 9, fun _ => 0, none⟩,
  ⟨Env.ofConfig { family := .sqlite }, .releaseConcurrencySlot (limitedJob 1) none,
    fun _ => 10, fun _ => 0, none⟩,
  ⟨Env.ofConfig { family := .postgresql }, .releaseRecoveredConcurrencyGroup 1 1 60,
    fun _ => 11, fun _ => 0, none⟩,
  ⟨Env.ofConfig { family := .mysql }, .semaphoreAcquire 4 60, fun _ => 12, fun _ => 0, none⟩]

end DjQueue
