import DjQueue.Slots.Handoffs

/-!
# One release for many slots, or one for each

`_release_recovered_concurrency_group` computes how many waiters the released slots reach and what
is left of the slots; `release_concurrency_slot` finds it out slot by slot, handing each one over
or giving it back.  Both come to the same as long as the row is not overdrawn.
-/

namespace DjQueue

open Relational

/-! ## The waiters left -/

section Waiters

variable {db : Db} {backendAlias key : String} {x : BlockedExecution × Job}
  {rest : List (BlockedExecution × Job)}

theorem orders_blockedOrder : Orders blockedOrder where
  trans _ _ _ := blockedOrder_trans
  total := blockedOrder_total

/-- A selection of rows keeps their jobs. -/
theorem selectRelatedJob_filter (db : Db) {m : StateModel} (p : m.Row → Bool) (rows : List m.Row) :
    selectRelatedJob db (rows.filter p) =
      (selectRelatedJob db rows).filter (fun x => p x.1) := by
  unfold selectRelatedJob
  induction rows with
  | nil => rfl
  | cons r rows ih =>
      cases found : db.findJob (rowJobId r) with
      | none => cases kept : p r <;> simp [kept, found, ih]
      | some j => cases kept : p r <;> simp [kept, found, ih]

/-- Without its first waiter, a key has the others, in their order. -/
theorem waitersOf_withoutWaiter (places : WaitersNumbered db.blocked)
    (waiters : waitersOf db backendAlias key = x :: rest) :
    waitersOf (db.withoutWaiter x.1) backendAlias key = rest := by
  have selected : waitersOf (db.withoutWaiter x.1) backendAlias key =
      (waitersOf db backendAlias key).filter (fun y => !(y.1.id == x.1.id)) := by
    unfold waitersOf
    rw [← selectRelatedJob_filter (m := .blocked) db (fun r => !(r.id == x.1.id)),
      orders_blockedOrder.filter_orderBy, List.filter_filter]
    change selectRelatedJob (m := .blocked) db (orderBy blockedOrder
      ((db.blocked.rows.filter _).filter _)) = _
    rw [List.filter_filter]
    simp only [Bool.and_comm]
  have ids := ids_waitersOf places backendAlias key
  rw [waiters] at ids selected
  rw [selected, List.filter_cons_of_neg (by simp), List.filter_eq_self]
  intro y mem
  rw [Bool.not_eq_true', beq_eq_false_iff_ne]
  intro same
  rw [List.map_cons, List.nodup_cons] at ids
  exact ids.1 (List.mem_map.mpr ⟨y, mem, same⟩)

end Waiters

/-- The waiters of the key, one row a job, each job of the backend and in no other state. -/
structure ValidWaiters (db : Db) (backendAlias key : String) : Prop where
  places : WaitersNumbered db.blocked
  own : ∀ x ∈ waitersOf db backendAlias key, x.2.backendAlias = backendAlias
  free : ∀ x ∈ waitersOf db backendAlias key, db.hasOtherState x.1.jobId = false

/-- The key's row, under the limit `L`, has `value` free slots, and `n` more fit in. -/
structure Releasable (db : Db) (key : String) (n : Nat) (L value : Int) : Prop where
  numbered : SemaphoresNumbered db.semaphores
  nonneg : 0 ≤ value
  fits : value + n ≤ L
  row : ∃ r, db.findSemaphore key = some r ∧ r.limit = L ∧ r.value = value

/-- What `n` releases compute is in range: the deadline is a time, the limit fits its column, and on
PostgreSQL the free slots and the limit together stay a 32-bit number up to the last release.  The
slots grow once nobody waits any more. -/
structure RoundsFit (env : Env) (key : String) (n : Nat) (L value duration : Int) (now : Time)
    (db : Db) : Prop where
  deadline : isDatetime (now + seconds duration) = true
  limit : env.config.family.holds L = true
  sums : env.config.family = .postgresql →
    int4 (value + (n - 1 - (waitersOf db env.config.backendAlias key).length : Nat) + L) = true

/-! ## Numbers in range -/

section Numbers

variable {family : BackendFamily} {L : Int} {r : Semaphore} (limit : r.limit = L)
  (nonneg : 0 ≤ r.value) (fits : r.value + 1 ≤ L) (held : family.holds L = true)
  (sum : family = .postgresql → int4 (r.value + L) = true) (expiresAt now : Time)

include limit nonneg fits held sum

theorem holds_release_of_row :
    ((semaphoreReleaseStatement L expiresAt now).numbers family (some r)).all family.holds =
      true := by
  cases family <;>
    simp [SlotStatement.numbers, semaphoreReleaseStatement, semaphoreReleaseUpdate, assign,
      Semaphore.setValue, Semaphore.setActiveCount, Semaphore.setLimit, Semaphore.setExpiresAt,
      Semaphore.setUpdatedAt, Semaphore.columns, releasedSteps, reconciledSteps, releasedAvailable,
      BackendFamily.evaluationOrder, BackendFamily.holds, int4, int8] at held sum ⊢ <;> omega

theorem holds_handoff_of_row :
    ((handoffReleasedClaimedSlotStatement L expiresAt now).numbers family (some r)).all
      family.holds = true := by
  cases family <;>
    simp [SlotStatement.numbers, handoffReleasedClaimedSlotStatement,
      handoffReleasedClaimedSlotUpdate, assign,
      Semaphore.setValue, Semaphore.setActiveCount, Semaphore.setLimit, Semaphore.setExpiresAt,
      Semaphore.setUpdatedAt, Semaphore.columns, releasedSteps, reconciledSteps, releasedAvailable,
      BackendFamily.evaluationOrder, BackendFamily.holds, int4, int8] at held sum ⊢ <;> omega

end Numbers

/-! ## One slot -/

/-- The tables after one `release_concurrency_slot`. -/
def releaseOnce (env : Env) (key : String) (L duration : Int) (now : Time) (db : Db) : Db :=
  match waitersOf db env.config.backendAlias key with
  | [] => db.saveSemaphore key ((semaphoreReleaseUpdate L (now + seconds duration) now).run
      env.config.family.evaluationOrder)
  | x :: _ => handedOver db env key .releaseClaimed L duration now x.1

section One

variable {env : Env} {key : String} {n : Nat} {L value duration : Int} {now : Time} {db : Db}
  {x : BlockedExecution × Job} {rest : List (BlockedExecution × Job)}

/-- A releasable row gives its slot away. -/
theorem gives_of_releasable (releasable : Releasable db key n L value) :
    gives db key .releaseClaimed L = true := by
  rcases releasable.row with ⟨r, found, limit, free⟩
  unfold gives
  rw [found]
  apply decide_eq_true
  have nonneg := releasable.nonneg
  omega

/-- What one release leaves of the key's row. -/
structure ReleasedRow (order : EvaluationOrder) (L value : Int) (expiresAt now : Time)
    (r r' : Semaphore) : Prop where
  same : r.SameRow r'
  value : r'.value = value
  limit : r'.limit = L
  expiresAt : r'.expiresAt = expiresAt
  updatedAt : r'.updatedAt = now
  count : order = .simultaneous → r'.activeCount = some (L - r'.value)

/-- A release leaves the row with one more. -/
theorem releasedRow_release {r : Semaphore} (order : EvaluationOrder) (expiresAt now : Time)
    (limit : r.limit = L) (nonneg : 0 ≤ r.value) (fits : r.value + 1 ≤ L) :
    ReleasedRow order L (r.value + 1) expiresAt now r
      ((semaphoreReleaseUpdate L expiresAt now).run order r) := by
  have available : releasedAvailable L r = r.value + 1 := by
    unfold releasedAvailable
    omega
  refine ⟨sameRow_semaphoreReleaseUpdate L expiresAt now order r, ?_,
    semaphoreReleaseUpdate_limit L expiresAt now order r, ?_, ?_, ?_⟩
  · rw [semaphoreReleaseUpdate_value]
    exact available
  · cases order <;> rfl
  · cases order <;> rfl
  · rintro rfl
    rfl

theorem releasedRow_handoff {r : Semaphore} (order : EvaluationOrder) (expiresAt now : Time)
    (limit : r.limit = L) (nonneg : 0 ≤ r.value) (fits : r.value + 1 ≤ L) :
    ReleasedRow order L r.value expiresAt now r
      ((handoffReleasedClaimedSlotUpdate L expiresAt now).run order r) := by
  have accepted : (handoffReleasedClaimedSlotUpdate L expiresAt now).filter r = true := by
    apply decide_eq_true
    omega
  rcases handoffReleasedClaimedSlotUpdate_columns L expiresAt now order r accepted with
    ⟨-, left, bounded⟩
  have available : releasedAvailable L r - 1 = r.value := by
    unfold releasedAvailable
    omega
  refine ⟨sameRow_handoffReleasedClaimedSlotUpdate L expiresAt now order r, ?_, bounded, ?_, ?_, ?_⟩
  · rw [left]
    exact available
  · rw [Update.run, if_pos accepted]
    cases order <;> rfl
  · rw [Update.run, if_pos accepted]
    cases order <;> rfl
  · rintro rfl
    rw [Update.run, if_pos accepted]
    change some (L - releasedAvailable L r + 1) = some (L - (releasedAvailable L r - 1))
    congr 1
    omega

/-- The free slots after one release. -/
def valueAfter (env : Env) (key : String) (value : Int) (db : Db) : Int :=
  match waitersOf db env.config.backendAlias key with
  | [] => value + 1
  | _ :: _ => value

theorem findSemaphore_releaseOnce (env : Env) (duration : Int) (now : Time)
    (releasable : Releasable db key (n + 1) L value) :
    ∃ r r', db.findSemaphore key = some r ∧
      (releaseOnce env key L duration now db).findSemaphore key = some r' ∧
      ReleasedRow env.config.family.evaluationOrder L (valueAfter env key value db)
        (now + seconds duration) now r r' := by
  rcases releasable.row with ⟨r, found, limit, rfl⟩
  have fits := releasable.fits
  refine ⟨r, ?_⟩
  unfold releaseOnce valueAfter
  cases waitersOf db env.config.backendAlias key with
  | nil =>
      refine ⟨_, found, ?_, releasedRow_release env.config.family.evaluationOrder _ now limit
        releasable.nonneg (by omega)⟩
      rw [findSemaphore_saveSemaphore fun s => sameRow_semaphoreReleaseUpdate L _ _ _ s, found]
      rfl
  | cons x rest =>
      refine ⟨_, found, ?_, releasedRow_handoff env.config.family.evaluationOrder _ now limit
        releasable.nonneg (by omega)⟩
      dsimp only
      rw [findSemaphore_handedOver, found]
      rfl

theorem Releasable.releaseOnce (env : Env) (duration : Int) (now : Time)
    (releasable : Releasable db key (n + 1) L value) :
    Releasable (releaseOnce env key L duration now db) key n L (valueAfter env key value db) := by
  rcases findSemaphore_releaseOnce env duration now releasable with ⟨r, r', -, found, released⟩
  have nonneg := releasable.nonneg
  have fits := releasable.fits
  refine ⟨?_, ?_, ?_, r', found, released.limit, released.value⟩
  · unfold DjQueue.releaseOnce
    split
    · exact releasable.numbered.update fun s => sameRow_semaphoreReleaseUpdate L _ _ _ s
    · exact releasable.numbered.update fun s => sameRow_handoffReleasedClaimedSlotUpdate L _ _ _ s
  · unfold valueAfter
    split <;> omega
  · unfold valueAfter
    split <;> omega

theorem ValidWaiters.nobody (env : Env) (L duration : Int) (now : Time)
    (nobody : waitersOf db env.config.backendAlias key = []) :
    waitersOf (releaseOnce env key L duration now db) env.config.backendAlias key = [] := by
  unfold releaseOnce
  rw [nobody]
  exact nobody

theorem waitersOf_releaseOnce (env : Env) (L duration : Int) (now : Time)
    (places : WaitersNumbered db.blocked)
    (waiters : waitersOf db env.config.backendAlias key = x :: rest) :
    waitersOf (releaseOnce env key L duration now db) env.config.backendAlias key = rest := by
  unfold releaseOnce
  rw [waiters]
  exact waitersOf_withoutWaiter places waiters

theorem ValidWaiters.releaseOnce (env : Env) (L duration : Int) (now : Time)
    (valid : ValidWaiters db env.config.backendAlias key) :
    ValidWaiters (releaseOnce env key L duration now db) env.config.backendAlias key := by
  cases waiters : waitersOf db env.config.backendAlias key with
  | nil =>
      have nobody := ValidWaiters.nobody env L duration now waiters
      refine ⟨?_, ?_, ?_⟩
      · unfold DjQueue.releaseOnce
        rw [waiters]
        exact valid.places
      · rw [nobody]
        exact fun y mem => absurd mem List.not_mem_nil
      · rw [nobody]
        exact fun y mem => absurd mem List.not_mem_nil
  | cons x rest =>
      have left := waitersOf_releaseOnce env L duration now valid.places waiters
      have inside : ∀ y ∈ rest, y ∈ waitersOf db env.config.backendAlias key := by
        intro y mem
        rw [waiters]
        exact List.mem_cons_of_mem x mem
      refine ⟨?_, ?_, ?_⟩
      · unfold DjQueue.releaseOnce
        rw [waiters]
        exact valid.places.deleteWhere _
      · rw [left]
        exact fun y mem => valid.own y (inside y mem)
      · rw [left]
        intro y mem
        have ids := ids_waitersOf valid.places env.config.backendAlias key
        have free := valid.free y (inside y mem)
        unfold DjQueue.releaseOnce
        rw [waiters] at ids ⊢
        rw [List.map_cons, List.nodup_cons] at ids
        refine (Db.hasOtherState_withPromoted ?_).trans free
        intro same
        have first := (mem_waitersOf (x := x)).mp (by rw [waiters]; exact List.mem_cons_self)
        have later := (mem_waitersOf (x := y)).mp (inside y mem)
        have sameRow := valid.places.eq_of_job first.1 later.1 same
        exact ids.1 (List.mem_map.mpr ⟨y, mem, by rw [sameRow]⟩)

/-- The sum of a round is below that of the last one. -/
theorem RoundsFit.sum (inRange : RoundsFit env key (n + 1) L value duration now db)
    (releasable : Releasable db key (n + 1) L value) (onPostgres : env.config.family = .postgresql) :
    int4 (value + L) = true := by
  have last := inRange.sums onPostgres
  have nonneg := releasable.nonneg
  have fits := releasable.fits
  simp only [int4, Bool.and_eq_true, decide_eq_true_eq] at last ⊢
  omega

theorem RoundsFit.computable (inRange : RoundsFit env key (n + 1) L value duration now db)
    (releasable : Releasable db key (n + 1) L value) :
    Computable env.config.family db key .releaseClaimed L duration now := by
  rcases releasable.row with ⟨r, found, limit, rfl⟩
  have fits := releasable.fits
  refine ⟨inRange.deadline, ?_⟩
  unfold HandoffFits
  rw [found]
  exact holds_handoff_of_row limit releasable.nonneg (by omega) inRange.limit
    (inRange.sum releasable) _ now

theorem RoundsFit.releaseOnce (inRange : RoundsFit env key (n + 2) L value duration now db)
    (places : WaitersNumbered db.blocked) :
    RoundsFit env key (n + 1) L (valueAfter env key value db) duration now
      (releaseOnce env key L duration now db) := by
  refine ⟨inRange.deadline, inRange.limit, fun onPostgres => ?_⟩
  have last := inRange.sums onPostgres
  cases waiters : waitersOf db env.config.backendAlias key with
  | nil =>
      have left := ValidWaiters.nobody env L duration now waiters
      rw [waiters] at last
      unfold valueAfter
      rw [left, waiters]
      simp only [List.length_nil] at last ⊢
      have same : value + 1 + ((n + 1 - 1 - 0 : Nat) : Int) =
          value + ((n + 2 - 1 - 0 : Nat) : Int) := by
        omega
      rw [same]
      exact last
  | cons x rest =>
      have left := waitersOf_releaseOnce env L duration now places waiters
      rw [waiters] at last
      unfold valueAfter
      rw [left, waiters]
      have same : n + 1 - 1 - rest.length = n + 2 - 1 - (x :: rest).length := by
        rw [List.length_cons]
        omega
      rw [same]
      exact last

/-- One slot is handed over, or given back to a row that nobody waits for. -/
theorem runs_releaseSlot (uuids : Nat → JobId) (releasable : Releasable db key (n + 1) L value)
    (inRange : RoundsFit env key (n + 1) L value duration now db)
    (valid : ValidWaiters db env.config.backendAlias key) :
    Runs (releaseSlot env key L duration) ⟨db, fun _ => now, uuids⟩ ()
      ⟨releaseOnce env key L duration now db, fun _ => now, uuids⟩ := by
  have given := gives_of_releasable releasable
  cases waiters : waitersOf db env.config.backendAlias key with
  | nil =>
      have left := ValidWaiters.nobody env L duration now waiters
      unfold releaseOnce at left ⊢
      rw [waiters] at left ⊢
      have numbers : ((semaphoreReleaseStatement L (now + seconds duration) now).numbers
          env.config.family (db.findSemaphore key)).all env.config.family.holds = true := by
        rcases releasable.row with ⟨r, found, limit, rfl⟩
        have fits := releasable.fits
        rw [found]
        exact holds_release_of_row limit releasable.nonneg (by omega) inRange.limit
          (inRange.sum releasable) _ now
      have released : Runs (semaphoreRelease env key L duration) ⟨db, fun _ => now, uuids⟩ _
          ⟨db.saveSemaphore key ((semaphoreReleaseUpdate L (now + seconds duration) now).run
            env.config.family.evaluationOrder), fun _ => now, uuids⟩ :=
        Runs.bind (runs_timezoneNow _) (Runs.bind (runs_addSeconds inRange.deadline _)
          (Runs.bind (runs_updateSlots numbers (runs_updateSemaphore _ key _ _)) (runs_pure _ _)))
      exact Runs.bind (runs_unblockNextBlockedJob_nobody (inRange.computable releasable).callFits
          waiters)
        (Runs.bind released (Runs.bind (runs_unblockNextBlockedJob_nobody (fun path => nomatch path.1)
          left) (runs_pure _ _)))
  | cons x rest =>
      have mem : x ∈ waitersOf db env.config.backendAlias key := by
        rw [waiters]
        exact List.mem_cons_self
      have unblocked : Runs (unblockNextBlockedJob env key L duration .releaseClaimed)
          ⟨db, fun _ => now, uuids⟩ (some (blockedJobRef x.1 env.config.backendAlias))
          ⟨handedOver db env key .releaseClaimed L duration now x.1, fun _ => now, uuids⟩ :=
        runs_unblockNextBlockedJob_given releasable.numbered (inRange.computable releasable) waiters
          (valid.own x mem) given (valid.free x mem)
      unfold releaseOnce
      rw [waiters]
      exact Runs.bind unblocked (runs_pure _ _)

end One

/-! ## The calls -/

/-- A job of the key that releases under this limit and duration: they are its policy, or its
policy does not resolve and they are the row's limit and the default duration. -/
def ReleasesUnder (env : Env) (key : String) (L duration : Int) (call : Job × Option Imported) :
    Prop :=
  call.1.slotKey = some key ∧
    match concurrencySettingsForJob env call.1 call.2 with
    | .ok settings => settings.limit = L ∧ settings.durationSeconds = duration
    | .error (.dispatchPolicyError _) => env.config.defaultConcurrencyDuration = duration
    | .error _ => False

/-- `release_concurrency_slot`, for each of the jobs. -/
def releaseEach (env : Env) : List (Job × Option Imported) → Op Unit
  | [] => pure ()
  | call :: calls => do
      releaseConcurrencySlot env call.1 call.2
      releaseEach env calls

/-- The tables after `n` releases. -/
def releaseRepeatedly (env : Env) (key : String) (L duration : Int) (now : Time) : Nat → Db → Db
  | 0, db => db
  | n + 1, db => releaseRepeatedly env key L duration now n (releaseOnce env key L duration now db)

section Calls

variable {env : Env} {key : String} {L value duration : Int} {now : Time} {uuids : Nat → JobId}

/-- The settings looked up are those of the group. -/
theorem runs_releaseSettings {n : Nat} {call : Job × Option Imported} {w : World}
    (releasable : Releasable w.db key (n + 1) L value) (under : ReleasesUnder env key L duration call) :
    Runs (releaseSettings env call.1 key call.2) w (L, duration) w := by
  rcases releasable.row with ⟨r, found, limit, -⟩
  have nonneg := releasable.nonneg
  have fits := releasable.fits
  have ofRow : semaphoreLimitOrOne w.db key = L := by
    unfold semaphoreLimitOrOne
    rw [found, Option.map_some, limit]
    split
    · rename_i impossible
      cases impossible
    · rename_i zero
      have zero := Option.some.inj zero
      omega
    · rename_i same
      exact (Option.some.inj same).symm
  refine Runs.bind (runs_getDb w) ?_
  have resolved := under.2
  cases settings : concurrencySettingsForJob env call.1 call.2 with
  | ok s =>
      rw [settings] at resolved
      rw [← resolved.1, ← resolved.2]
      exact runs_pure _ _
  | error e =>
      rw [settings] at resolved
      cases e with
      | dispatchPolicyError message =>
          rw [ofRow, show env.config.defaultConcurrencyDuration = duration from resolved]
          exact runs_pure _ _
      | _ => exact resolved.elim

/-- The releases, one after the other. -/
theorem runs_releaseEach : ∀ {calls : List (Job × Option Imported)} {db : Db} {value : Int},
    Releasable db key calls.length L value →
    RoundsFit env key calls.length L value duration now db →
    ValidWaiters db env.config.backendAlias key →
    (∀ call ∈ calls, ReleasesUnder env key L duration call) →
    Runs (releaseEach env calls) ⟨db, fun _ => now, uuids⟩ ()
      ⟨releaseRepeatedly env key L duration now calls.length db, fun _ => now, uuids⟩
  | [], db, value, _, _, _, _ => runs_pure _ _
  | call :: calls, db, value, releasable, inRange, valid, all => by
      have under := all call List.mem_cons_self
      have later : Runs (releaseEach env calls)
          ⟨releaseOnce env key L duration now db, fun _ => now, uuids⟩ ()
          ⟨releaseRepeatedly env key L duration now (calls.length + 1) db, fun _ => now, uuids⟩ := by
        cases calls with
        | nil => exact runs_pure _ _
        | cons next calls =>
            exact runs_releaseEach (releasable.releaseOnce env duration now)
              (inRange.releaseOnce valid.places) (valid.releaseOnce env L duration now)
              fun call' mem => all call' (List.mem_cons_of_mem _ mem)
      have first : Runs (releaseConcurrencySlot env call.1 call.2) ⟨db, fun _ => now, uuids⟩ ()
          ⟨releaseOnce env key L duration now db, fun _ => now, uuids⟩ := by
        unfold releaseConcurrencySlot
        rw [under.1]
        exact Runs.bind (runs_releaseSettings releasable under)
          (runs_releaseSlot uuids releasable inRange valid)
      exact Runs.bind first later

end Calls

/-! ## The group -/

/-- Waiters become ready, one after the other. -/
def promoteAll (backendAlias : String) (readyAt : Time) (t : Table ReadyExecution)
    (promoted : List (BlockedExecution × Job)) : Table ReadyExecution :=
  promoted.foldl (fun t x => t.insert (promotedRow backendAlias readyAt x.1)) t

/-- The tables after a group release of `n` slots, where the row has `value` free ones. -/
def releaseTogether (env : Env) (key : String) (L duration : Int) (now : Time) (value : Int) (n : Nat)
    (db : Db) : Db :=
  let promoted := (waitersOf db env.config.backendAlias key).take n
  { db.saveSemaphore key (groupReleaseRow L (value + n) promoted.length (now + seconds duration) now)
    with
    blocked := without (m := .blocked) db.blocked (promoted.map (fun x => x.1.id))
    ready := promoteAll env.config.backendAlias now db.ready promoted }

section Group

variable {env : Env} {key : String} {n : Nat} {L value duration : Int} {now : Time}
  {uuids : Nat → JobId} {db : Db}

/-- The row a group release saves only keeps the key and the number of the old one. -/
theorem groupReleaseRow_sameRow {r r' : Semaphore} (same : r.SameRow r') (available promoted : Int)
    (expiresAt now : Time) :
    groupReleaseRow L available promoted expiresAt now r' =
      groupReleaseRow L available promoted expiresAt now r := by
  unfold groupReleaseRow
  rw [same.1, same.2]

/-- Of two saves, the group release's is the last word. -/
theorem updateWhere_groupReleaseRow (t : Table Semaphore) {f : Semaphore → Semaphore}
    (same : ∀ r : Semaphore, r.SameRow (f r)) (available promoted : Int) (expiresAt now : Time) :
    (t.updateWhere (fun r => r.key == key) f).updateWhere (fun r => r.key == key)
        (groupReleaseRow L available promoted expiresAt now) =
      t.updateWhere (fun r => r.key == key) (groupReleaseRow L available promoted expiresAt now) := by
  have after : groupReleaseRow L available promoted expiresAt now ∘ f =
      groupReleaseRow L available promoted expiresAt now :=
    funext fun r => groupReleaseRow_sameRow (same r) available promoted expiresAt now
  rw [Table.updateWhere_updateWhere, after]
  intro r hit
  rw [(same r).1]
  exact hit

/-- A release of more slots is one release, and then a release of the others. -/
theorem releaseTogether_succ (places : WaitersNumbered db.blocked) :
    releaseTogether env key L duration now value (n + 1) db =
      releaseTogether env key L duration now (valueAfter env key value db) n
        (releaseOnce env key L duration now db) := by
  cases waiters : waitersOf db env.config.backendAlias key with
  | nil =>
      have left := ValidWaiters.nobody env L duration now waiters
      unfold releaseTogether valueAfter
      rw [left]
      unfold releaseOnce
      rw [waiters]
      dsimp only
      have slots : value + (n + 1 : Nat) = value + 1 + n := by omega
      rw [List.take_nil, List.take_nil, slots]
      simp only [Db.saveSemaphore]
      rw [updateWhere_groupReleaseRow _ fun r => sameRow_semaphoreReleaseUpdate L _ _ _ r]
  | cons x rest =>
      have left := waitersOf_releaseOnce env L duration now places waiters
      unfold releaseTogether valueAfter
      rw [left]
      unfold releaseOnce
      rw [waiters]
      dsimp only
      have row : groupReleaseRow L (value + (n + 1 : Nat)) ((rest.take n).length + 1 : Nat)
          (now + seconds duration) now =
          groupReleaseRow L (value + n) (rest.take n).length (now + seconds duration) now := by
        unfold groupReleaseRow
        have slots : value + (n + 1 : Nat) - ((rest.take n).length + 1 : Nat) =
            value + n - (rest.take n).length := by omega
        rw [slots]
      rw [List.take_succ_cons, List.length_cons, List.map_cons, row, ← without_cons]
      simp only [Db.saveSemaphore, handedOver, askedFor, Db.withPromoted, Db.withoutWaiter]
      have kept : ∀ r : Semaphore, r.SameRow ((SlotHandoffMode.update L (now + seconds duration) now
          .releaseClaimed).run env.config.family.evaluationOrder r) :=
        fun r => sameRow_handoffReleasedClaimedSlotUpdate L _ now _ r
      rw [updateWhere_groupReleaseRow _ kept]
      rfl

/-- The count of taken slots, brought in line with the free ones. -/
def Semaphore.withCount (r : Semaphore) : Semaphore :=
  { r with activeCount := some (r.limit - r.value) }

/-- After one release, a group release of no slot only writes the count. -/
theorem releaseTogether_zero (releasable : Releasable db key 1 L value) :
    releaseTogether env key L duration now (valueAfter env key value db) 0
        (releaseOnce env key L duration now db) =
      (releaseOnce env key L duration now db).saveSemaphore key Semaphore.withCount := by
  rcases findSemaphore_releaseOnce env duration now releasable with ⟨r, r', -, found, released⟩
  have numbered := (releasable.releaseOnce env duration now).numbered
  have row : groupReleaseRow L (valueAfter env key value db + (0 : Nat)) (0 : Nat)
      (now + seconds duration) now r' = r'.withCount := by
    unfold groupReleaseRow Semaphore.withCount
    rw [← released.value, ← released.limit, ← released.expiresAt, ← released.updatedAt]
    simp
  unfold releaseTogether
  dsimp only
  rw [List.take_zero, List.map_nil, without_nil, List.length_nil]
  exact saveSemaphore_congr numbered found row

/-- The group's tables are those of the single releases, with the count brought in line. -/
theorem releaseTogether_eq : ∀ {n : Nat} {value : Int} {db : Db},
    Releasable db key (n + 1) L value → ValidWaiters db env.config.backendAlias key →
    releaseTogether env key L duration now value (n + 1) db =
      (releaseRepeatedly env key L duration now (n + 1) db).saveSemaphore key Semaphore.withCount
  | 0, value, db, releasable, valid => by
      rw [releaseTogether_succ valid.places]
      exact releaseTogether_zero releasable
  | n + 1, value, db, releasable, valid => by
      rw [releaseTogether_succ valid.places]
      exact releaseTogether_eq (releasable.releaseOnce env duration now)
        (valid.releaseOnce env L duration now)

/-- Where the right-hand sides are evaluated on the old row, the count is in line already. -/
theorem withCount_releaseOnce (simultaneous : env.config.family.evaluationOrder = .simultaneous)
    (releasable : Releasable db key (n + 1) L value) :
    (releaseOnce env key L duration now db).saveSemaphore key Semaphore.withCount =
      releaseOnce env key L duration now db := by
  rcases findSemaphore_releaseOnce env duration now releasable with ⟨r, r', here, found, released⟩
  have numbered := (releasable.releaseOnce env duration now).numbered
  have counted : r'.activeCount = some (r'.limit - r'.value) := by
    rw [released.count simultaneous, released.limit]
  have same : r'.withCount = id r' := by
    unfold Semaphore.withCount
    rw [← counted]
    rfl
  rw [saveSemaphore_congr numbered found same]
  unfold Db.saveSemaphore
  rw [Table.updateWhere_eq_self (f := id) _ fun _ _ _ => rfl]

/-- Where assignments are simultaneous the counts agree with the row. -/
theorem withCount_releaseRepeatedly
    (simultaneous : env.config.family.evaluationOrder = .simultaneous) :
    ∀ {n : Nat} {value : Int} {db : Db}, Releasable db key (n + 1) L value →
      (releaseRepeatedly env key L duration now (n + 1) db).saveSemaphore key Semaphore.withCount =
        releaseRepeatedly env key L duration now (n + 1) db
  | 0, _, _, releasable => withCount_releaseOnce simultaneous releasable
  | n + 1, _, db, releasable => by
      rw [releaseRepeatedly]
      exact withCount_releaseRepeatedly simultaneous (releasable.releaseOnce env duration now)

/-- The row built for a waiter; the insert gives it its number and its time. -/
def unstampedRow (backendAlias : String) (readyAt : Time) (x : BlockedExecution × Job) :
    ReadyExecution :=
  { promotedRow backendAlias readyAt x.1 0 with createdAt := 0 }

theorem readyExecutionRow_waiter {x : BlockedExecution × Job} {backendAlias : String}
    (own : x.2.backendAlias = backendAlias) (loaded : x.2.id = x.1.jobId) (readyAt : Time) :
    readyExecutionRow x.2.ref backendAlias (some x.1.queueName) (some x.1.priority) readyAt =
      .ok (unstampedRow backendAlias readyAt x) := by
  have backend : executionBackendAlias x.2.ref backendAlias = .ok backendAlias := by
    rw [← own]
    exact if_neg (not_not_intro rfl)
  unfold readyExecutionRow
  rw [backend, show x.2.ref.id = x.1.jobId from loaded]
  rfl

/-- The rows of those promoted, added at once. -/
theorem addRows_unstampedRow (backendAlias : String) (now : Time) (t : Table ReadyExecution)
    (promoted : List (BlockedExecution × Job)) :
    addRows (m := .ready) now t (promoted.map (unstampedRow backendAlias now)) =
      promoteAll backendAlias now t promoted := by
  unfold addRows promoteAll
  rw [List.foldl_map]
  rfl

/-- The ready jobs with the promoted ones behind them. -/
theorem jobIds_promoteAll (backendAlias : String) (readyAt : Time) :
    ∀ {promoted : List (BlockedExecution × Job)} {t : Table ReadyExecution},
      (∀ x ∈ promoted, x.2.id = x.1.jobId) →
      (promoteAll backendAlias readyAt t promoted).rows.map ReadyExecution.jobId =
        t.rows.map ReadyExecution.jobId ++ (promoted.map Prod.snd).map Job.id
  | [], t, _ => by simp [promoteAll]
  | x :: promoted, t, loaded => by
      have later := jobIds_promoteAll backendAlias readyAt
        (t := t.insert (promotedRow backendAlias readyAt x.1))
        fun y mem => loaded y (List.mem_cons_of_mem x mem)
      refine later.trans ?_
      have first := loaded x List.mem_cons_self
      simp [promotedRow, first]

/-- Rows of jobs without any state are checked and created. -/
theorem runs_bulkCreateReadyExecutions_checked {rows : List ReadyExecution}
    (jobs : ∀ r ∈ rows, (db.findJob r.jobId).isSome) (free : ∀ r ∈ rows, Stateless db r.jobId)
    (nodup : (rows.map ReadyExecution.jobId).Nodup) :
    Runs (bulkCreateReadyExecutions rows true) ⟨db, fun _ => now, uuids⟩ ()
      ⟨db.setTable .ready (addRows (m := .ready) now db.ready rows), fun _ => now, uuids⟩ := by
  unfold bulkCreateReadyExecutions
  cases rows with
  | nil => rfl
  | cons row rows =>
      rw [if_neg (by simp)]
      refine Runs.bind (runs_ensureJobIdsHaveNoOtherExecutionState fun id mem m _ => ?_)
        (runs_bulkCreate (m := .ready) _ (fun r mem => ⟨jobs r mem, free r mem .ready⟩) nodup)
      rcases List.mem_map.mp mem with ⟨r, inside, rfl⟩
      exact free r inside m

/-- Once its row is gone, a waiter's job has no state left. -/
theorem stateless_taken (valid : ValidWaiters db env.config.backendAlias key)
    {x : BlockedExecution × Job} (mem : x ∈ waitersOf db env.config.backendAlias key) {taken : Db}
    {ids : List Nat} (others : ∀ m ≠ StateModel.blocked, taken.table m = db.table m)
    (blocked : taken.blocked = without (m := .blocked) db.blocked ids) (gone : x.1.id ∈ ids) :
    Stateless taken x.1.jobId := by
  have here := mem_waitersOf.mp mem
  intro m
  by_cases isBlocked : m = .blocked
  · subst isBlocked
    unfold Db.hasState Db.stateJobIds
    rw [← Bool.not_eq_true, List.contains_iff_mem, List.mem_map]
    rintro ⟨r, there, same⟩
    have there : r ∈ (without (m := .blocked) db.blocked ids).rows := blocked ▸ there
    rcases List.mem_filter.mp there with ⟨old, kept⟩
    rw [valid.places.eq_of_job old here.1 same, Bool.not_eq_true', ← Bool.not_eq_true,
      List.contains_iff_mem] at kept
    exact kept gone
  · have free := Db.hasOtherState_eq_false.mp (valid.free x mem) m isBlocked
    unfold Db.hasState Db.stateJobIds at free ⊢
    rw [others m isBlocked]
    exact free

/-- The waiters of the group made ready, their blocked rows consumed and the group's row written. -/
theorem runs_createPromoted (now : Time) (uuids : Nat → JobId)
    (valid : ValidWaiters db env.config.backendAlias key) {taken : Db}
    (jobsKept : taken.jobs = db.jobs) (others : ∀ m ≠ StateModel.blocked, taken.table m = db.table m)
    (blocked : taken.blocked = without (m := .blocked) db.blocked
      (((waitersOf db env.config.backendAlias key).take n).map (fun x => x.1.id))) :
    Runs (bulkCreateReadyExecutions (((waitersOf db env.config.backendAlias key).take n).map
        (unstampedRow env.config.backendAlias now)) true) ⟨taken, fun _ => now, uuids⟩ ()
      ⟨taken.setTable .ready (promoteAll env.config.backendAlias now db.ready
        ((waitersOf db env.config.backendAlias key).take n)), fun _ => now, uuids⟩ := by
  set promoted := (waitersOf db env.config.backendAlias key).take n
  have inside : ∀ x ∈ promoted, x ∈ waitersOf db env.config.backendAlias key :=
    fun x mem => List.mem_of_mem_take mem
  have jobs : ∀ row ∈ promoted.map (unstampedRow env.config.backendAlias now),
      (taken.findJob row.jobId).isSome := by
    intro row mem
    rcases List.mem_map.mp mem with ⟨x, here, rfl⟩
    unfold Db.findJob
    rw [jobsKept]
    exact Option.isSome_iff_exists.mpr ⟨x.2, (mem_waitersOf.mp (inside x here)).2.2.2⟩
  have stateless : ∀ row ∈ promoted.map (unstampedRow env.config.backendAlias now),
      Stateless taken row.jobId := by
    intro row mem
    rcases List.mem_map.mp mem with ⟨x, here, rfl⟩
    exact stateless_taken valid (inside x here) others blocked (List.mem_map.mpr ⟨x, here, rfl⟩)
  have distinct : ((promoted.map (unstampedRow env.config.backendAlias now)).map
      ReadyExecution.jobId).Nodup := by
    rw [List.map_map]
    exact (nodup_waitersOf valid.places.jobs env.config.backendAlias key).sublist
      ((List.take_sublist n _).map _)
  have ready : taken.ready = db.ready := others .ready nofun
  rw [← addRows_unstampedRow, ← ready]
  exact runs_bulkCreateReadyExecutions_checked jobs stateless distinct

/-- The group release, run forward. -/
theorem runs_releaseRecoveredConcurrencyGroup (uuids : Nat → JobId)
    (releasable : Releasable db key n L value)
    (deadline : isDatetime (now + seconds duration) = true)
    (held : env.config.family.holds L = true)
    (valid : ValidWaiters db env.config.backendAlias key) :
    Runs (releaseRecoveredConcurrencyGroup env key n L duration) ⟨db, fun _ => now, uuids⟩
      (((waitersOf db env.config.backendAlias key).take n).map Prod.snd)
      ⟨releaseTogether env key L duration now value n db, fun _ => now, uuids⟩ := by
  rcases releasable.row with ⟨r, found, limit, free⟩
  have nonneg := releasable.nonneg
  have fits := releasable.fits
  set promoted := (waitersOf db env.config.backendAlias key).take n with isPromoted
  have inside : ∀ x ∈ promoted, x ∈ waitersOf db env.config.backendAlias key :=
    fun x mem => List.mem_of_mem_take mem
  have ids := (ids_waitersOf valid.places env.config.backendAlias key).sublist
    ((List.take_sublist n _).map _)
  have checked : Runs (ensureStateRowsBelongToBackend (m := .blocked) promoted
      env.config.backendAlias) ⟨db, fun _ => now, uuids⟩ () ⟨db, fun _ => now, uuids⟩ :=
    runs_ensureStateRowsBelongToBackend fun x mem => valid.own x (inside x mem)
  have available : groupAvailable n L r = value + n := by
    unfold groupAvailable
    omega
  have shorter : promoted.length ≤ n := List.length_take_le n _
  have all : pySlice (min (min (n : Int) (groupAvailable n L r)) promoted.length) promoted =
      promoted := by
    have whole : min (min (n : Int) (groupAvailable n L r)) promoted.length = promoted.length := by
      omega
    unfold pySlice
    rw [whole, if_neg (by omega), Int.toNat_natCast, List.take_length]
  have consumed := runs_consumeSelectedRows (m := .blocked) env
    (fun r : BlockedExecution × Job => r.1.id) promoted ⟨db, fun _ => now, uuids⟩
    (fun x mem => ⟨x.1, (mem_waitersOf.mp (inside x mem)).1, rfl⟩) ids
  have built : promoted.mapM (fun r => readyExecutionRow r.2.ref env.config.backendAlias
      (some r.1.queueName) (some r.1.priority) now) =
      .ok (promoted.map (unstampedRow env.config.backendAlias now)) :=
    mapM_eq_ok fun x mem => readyExecutionRow_waiter (valid.own x (inside x mem))
      (mem_of_findJob (mem_waitersOf.mp (inside x mem)).2.2.2).2 now
  have columns : (groupReleaseRow L (value + n) promoted.length (now + seconds duration) now
      r).columns.all env.config.family.holds = true :=
    holds_groupReleaseRow held (by omega) (Int.natCast_nonneg _) (by omega) _ _ _
  set taken : Db := { db.saveSemaphore key (groupReleaseRow L (value + n) promoted.length
    (now + seconds duration) now) with
    blocked := without (m := .blocked) db.blocked (promoted.map (fun x => x.1.id)) } with isTaken
  have jobsKept : taken.jobs = db.jobs := rfl
  have others : ∀ m ≠ StateModel.blocked, taken.table m = db.table m := by
    intro m other
    cases m with
    | blocked => exact absurd rfl other
    | _ => rfl
  have created := runs_createPromoted now uuids valid jobsKept others rfl
  refine Runs.bind (runs_timezoneNow _) (Runs.bind (runs_addSeconds deadline _)
    (Runs.bind (runs_getDb _) (Runs.bind checked ?_)))
  dsimp only
  rw [found]
  dsimp only
  rw [← isPromoted, all, available]
  exact Runs.bind consumed (Runs.bind (runs_timezoneNow _) (Runs.bind (runs_ensureFits columns _)
    (Runs.bind (runs_modifyDb _ _) (Runs.bind (runs_ofExcept built _)
      (Runs.bind created (runs_pure _ _))))))

end Group

/-! ## The theorem -/

/-- A job of the key, under a limit of two. -/
def pairedJob (id : JobId) : Job where
  id := id
  taskPath := "tasks.charge"
  queueName := "default"
  priority := 0
  payload := ⟨[], []⟩
  backendAlias := "default"
  scheduledAt := none
  concurrencyKey := some "account"
  concurrencyLimit := some 2
  concurrencyDuration := some 60
  concurrencyOnConflict := some "block"
  finishedAt := none
  returnValue := none

/-- One job waits on a row with `value` free slots. -/
def oneWaiter (value : Int) : World where
  db := { Db.empty with
    jobs := [pairedJob 7]
    blocked := ⟨[⟨1, 7, "default", "default", 0, "account", 60⟩], 2⟩
    semaphores := ⟨[⟨1, "account", value, some (2 - value), 2, 60, 0⟩], 2⟩ }
  clock := fun _ => 9
  uuids := fun _ => 0

/-- The jobs made ready, by an operation. -/
def jobsReady {α : Type} (x : Op α) (w : World) : List JobId :=
  (finalState x w).db.ready.rows.map ReadyExecution.jobId

/-- The count of active jobs after it. -/
def countAfter {α : Type} (x : Op α) (w : World) : Option (Option Int) :=
  ((finalState x w).db.findSemaphore "account").map Semaphore.activeCount

/-- The free slots after it. -/
def freeAfter {α : Type} (x : Op α) (w : World) : Option Int :=
  ((finalState x w).db.findSemaphore "account").map Semaphore.value

/-- A job of the key, under the largest limit its column takes. -/
def unboundedJob : Job := { pairedJob 8 with concurrencyLimit := some 2147483647 }

/-- One slot of that limit is free, and nobody waits. -/
def nobodyWaits : World where
  db := { Db.empty with
    semaphores := ⟨[⟨1, "account", 1, some 2147483646, 2147483647, 60, 0⟩], 2⟩ }
  clock := fun _ => 9
  uuids := fun _ => 0

end DjQueue
