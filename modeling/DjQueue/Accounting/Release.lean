import DjQueue.Accounting.Slots

/-!
# Handing slots over

`unblock_next_blocked_job`, `release_concurrency_slot` and the group release of recovery.
A waiter that takes over a claimed slot uses the slot that is owed; one that follows a
release takes a free slot first.  Either way the waiter's ready row ends up with it.
-/

namespace DjQueue

open Relational

/-- A waiter of the operation's backend with its job, which waits for the key. -/
structure Audit.Waiter (a : Audit) (key : String) (r : BlockedExecution × Job) : Prop where
  knows : a.Knows r.2
  own : r.2.backendAlias = a.backendAlias
  waits : r.2.concurrencyKey = some key
  id : r.2.id = r.1.jobId
  queue : r.1.queueName = r.2.queueName
  rowBackend : r.1.backendAlias = a.backendAlias
  rowKey : r.1.concurrencyKey = key

theorem Audit.Waiter.known {a : Audit} {key : String} {r : BlockedExecution × Job}
    (waiter : a.Waiter key r) :
    a.known r.1.jobId = some (blockedJobRef r.1 a.backendAlias).identity := by
  rw [← waiter.id, waiter.knows.identity, Job.identity, JobRef.identity, blockedJobRef,
    waiter.own, waiter.waits, waiter.queue, waiter.rowKey]

/-- An active row of a key holds its slot. -/
theorem Audit.held_of_known {a : Audit} {m : StateModel} {id : JobId} {i : Identity} {key : String}
    (known : a.known id = some i) (waits : i.concurrencyKey = some key)
    (active : m.isActive = true) : a.held m [id] = a.slot key := by
  simp [Audit.held, active, Audit.slot, Audit.holds, known, waits]

/-- What the slot of a finished claim counts for, by hand-off mode: it is still owed, or it has
already gone back to the row. -/
def Audit.given (a : Audit) (key : String) : SlotHandoffMode → Nat
  | .releaseClaimed => a.slot key
  | .consumeReleased => 0

namespace Accounts

variable {a : Audit} {hand hand' : List JobId} {owed owed' : Nat} {w w' : World} {u : Unit}
  {key : String} {limit duration : Int} {now : Time}

/-! ## Waiters -/

/-- The waiters of a key are rows with their jobs. -/
theorem selected_waitersOf {db : Db} (good : Accounts a hand owed db) (key : String) :
    Selected (m := .blocked) db (waitersOf db a.backendAlias key) :=
  good.selected_orderBy .blocked _ _

/-- A waiter that is selected repeats its job. -/
theorem waiter_of_selected {db : Db} (good : Accounts a hand owed db)
    {rows : List (BlockedExecution × Job)} (selected : Selected (m := .blocked) db rows)
    {r : BlockedExecution × Job} (mem : r ∈ rows) (own : r.1.backendAlias = a.backendAlias) :
    a.Waiter r.1.concurrencyKey r := by
  have same := good.matches_of_selected selected mem
  exact ⟨good.knows_of_selected selected mem, (same.backend _ rfl).symm.trans own,
    same.key _ rfl, selected.id_eq mem, same.queue _ rfl, own, rfl⟩

theorem waiter_of_mem {db : Db} (good : Accounts a hand owed db) {r : BlockedExecution × Job}
    (mem : r ∈ waitersOf db a.backendAlias key) : a.Waiter key r := by
  have hit : r.1.backendAlias = a.backendAlias ∧ r.1.concurrencyKey = key := by
    obtain ⟨row, inList, pair⟩ := List.mem_filterMap.mp mem
    obtain ⟨j, -, rfl⟩ := Option.map_eq_some_iff.mp pair
    have hit := (List.mem_filter.mp (mem_orderBy.mp inList)).2
    rwa [Bool.and_eq_true, beq_iff_eq, beq_iff_eq] at hit
  rw [← hit.2]
  exact good.waiter_of_selected (good.selected_waitersOf key) mem hit.1

/-- One waiter's row is deleted by its key. -/
theorem takeWaiter {db : Db} {r : BlockedExecution × Job} {rest : List (BlockedExecution × Job)}
    (good : Accounts a hand owed db)
    (selected : Selected (m := .blocked) db (r :: rest)) (waiter : a.Waiter key r) :
    Accounts a (r.1.jobId :: hand) owed
      (db.setTable .blocked (without (m := .blocked) db.blocked [r.1.id])) := by
  have taken := good.take (m := .blocked) [r.1]
    (fun x mem => List.mem_singleton.mp mem ▸ selected.mem r List.mem_cons_self)
    (List.nodup_singleton _)
    (fun x mem => by
      rw [List.mem_singleton.mp mem]
      change a.owns r.1.jobId = true
      rw [← waiter.id]
      exact waiter.knows.owns waiter.own)
  rw [Audit.held_of_inactive rfl] at taken
  exact taken

/-- The first waiter is taken, if there is one. -/
theorem consumeNextBlockedJob {found : Option (BlockedExecution × Job)}
    (good : Accounts a hand owed w.db) (run : Runs (consumeNextBlockedJob a.env key) w found w') :
    (found = none ∧ Accounts a hand owed w'.db) ∨
      ∃ r, found = some r ∧ a.Waiter key r ∧ Accounts a (r.1.jobId :: hand) owed w'.db := by
  obtain ⟨db, w₁, read, rest⟩ := Runs.of_bind run
  obtain ⟨rfl, rfl⟩ := of_run_getDb read
  split at rest
  · obtain ⟨rfl, rfl⟩ := Runs.of_pure rest
    exact .inl ⟨rfl, good⟩
  · rename_i r others waiters
    have selected := good.selected_waitersOf key
    have waiter := good.waiter_of_mem (r := r) (waiters ▸ List.mem_cons_self)
    rw [show waitersOf w₁.db a.backendAlias key = r :: others from waiters] at selected
    have taken := good.takeWaiter selected waiter
    split at rest
    · obtain ⟨n, w₂, deleted, done⟩ := Runs.of_bind rest
      obtain ⟨rfl, rfl⟩ := Runs.of_pure done
      refine .inr ⟨r, rfl, waiter, ?_⟩
      rw [(of_run_deleteRowsWhere deleted).2]
      exact without_singleton (m := .blocked) w₁.db.blocked r.1.id ▸ taken
    · obtain ⟨v, w₂, check, consume⟩ := Runs.of_bind rest
      obtain ⟨rfl, -⟩ := of_run_ensureStateRowsBelongToBackend (m := .blocked) check
      obtain ⟨consumed, w₃, deleted, done⟩ := Runs.of_bind consume
      obtain ⟨rfl, rfl⟩ := Runs.of_pure done
      obtain ⟨rfl, db₃⟩ := of_run_consumeSelectedRows (m := .blocked)
        (fun x mem => ⟨r.1, selected.mem r List.mem_cons_self, by
          rw [List.mem_singleton.mp mem]
          rfl⟩) (by simp) deleted
      refine .inr ⟨r, rfl, waiter, ?_⟩
      rw [db₃]
      exact taken

/-! ## The waiter's slot -/

/-- Under the row's own limit a claimed slot that is handed over changes no count. -/
theorem handoff_row {L : Int} {r : Semaphore} {taken : Nat} (expiresAt : Time)
    (order : EvaluationOrder) (limitOf : r.limit = L) (free : 0 ≤ r.value)
    (sum : r.value + (taken : Int) = L) (positive : 0 < taken) :
    ((handoffReleasedClaimedSlotUpdate L expiresAt now).run order r).value = r.value ∧
      ((handoffReleasedClaimedSlotUpdate L expiresAt now).run order r).limit = L := by
  have accepted : (handoffReleasedClaimedSlotUpdate L expiresAt now).filter r = true :=
    decide_eq_true (by omega)
  obtain ⟨-, value, limitAfter⟩ :=
    handoffReleasedClaimedSlotUpdate_columns L expiresAt now order r accepted
  rw [releasedAvailable_of_sum limitOf free sum positive] at value
  exact ⟨by omega, limitAfter⟩

/-- A slot that is handed over is counted for its next holder. -/
theorem handoff {db : Db} (good : Accounts a hand (owed + a.slot key) db)
    (agrees : a.Limit key limit) (expiresAt : Time) (order : EvaluationOrder) :
    Accounts a hand (owed + a.slot key)
      (db.saveSemaphore key ((handoffReleasedClaimedSlotUpdate limit expiresAt now).run order)) := by
  refine good.save (sameRow_handoffReleasedClaimedSlotUpdate _ _ _ _) ?_ (fun _ => rfl)
    (fun _ _ _ => rfl)
  intro L r tracked found limitOf free sum
  obtain rfl := agrees L tracked
  rw [slot_of_tracked tracked] at sum ⊢
  obtain ⟨value, limitAfter⟩ := handoff_row expiresAt order limitOf free sum (by omega)
  rw [value, limitAfter]
  exact ⟨rfl, free, sum⟩

/-- A refused hand-off leaves the slot where it was; an accepted one owes it to the waiter. -/
theorem acquireHandoffSlot {mode : SlotHandoffMode} {given : Bool}
    (good : Accounts a hand (owed + a.given key mode) w.db) (agrees : a.Limit key limit)
    (run : Runs (acquireHandoffSlot a.env mode key limit duration now) w given w') :
    Accounts a hand (owed + if given then a.slot key else a.given key mode) w'.db := by
  cases mode with
  | releaseClaimed =>
      obtain ⟨-, -, n, rfl, updated⟩ := checked_of_run_handoffReleasedClaimedSlot run
      rw [(of_run_updateSemaphore good.semaphores updated).1]
      simpa [Audit.given] using good.handoff agrees _ _
  | consumeReleased =>
      obtain ⟨-, -, n, rfl, updated⟩ := checked_of_run_consumeReleasedSemaphoreSlot run
      obtain ⟨db₁, hit⟩ := of_run_updateSemaphore good.semaphores updated
      rw [db₁]
      by_cases accepted : n ≠ 0
      · obtain ⟨r, found, filter⟩ := hit.mp accepted
        rw [decide_eq_true (Nat.pos_of_ne_zero accepted), if_pos rfl]
        refine good.save (sameRow_consumeReleasedSemaphoreSlotUpdate _ _ _ _) ?_ ?_ ?_
        · intro L r' tracked found' limitOf free sum
          rw [found] at found'
          obtain rfl := Option.some.inj found'
          obtain rfl := agrees L tracked
          obtain ⟨positive, value, limitAfter⟩ :=
            consumeReleasedSemaphoreSlotUpdate_columns _ _ _ a.env.config.family.evaluationOrder r
              filter
          rw [value, limitAfter, slot_of_tracked tracked]
          simp only [Audit.given] at sum
          exact ⟨rfl, by omega, by omega⟩
        · intro untracked
          rw [slot_of_untracked untracked]
          rfl
        · intro L _ absent
          rw [found] at absent
          cases absent
      · have refused : ∀ r, w.db.findSemaphore key = some r →
            (consumeReleasedSemaphoreSlotUpdate limit (now + seconds duration) now).filter r =
              false := by
          intro r found
          rw [← Bool.not_eq_true]
          exact fun filter => accepted (hit.mpr ⟨r, found, filter⟩)
        rw [saveSemaphore_of_refused good.semaphores refused]
        simpa [Decidable.not_not.mp accepted, Audit.given] using good

/-- What `_consume_blocked_job_for_slot` leaves: a waiter out of its table with a slot for it, or
everything as it was. -/
theorem consumeBlockedJobForSlot {mode : SlotHandoffMode} {found : Option (JobRef × Bool)}
    (good : Accounts a hand (owed + a.given key mode) w.db) (agrees : a.Limit key limit)
    (run : Runs (consumeBlockedJobForSlot a.env mode key limit duration now) w found w') :
    (∃ ref, found = some (ref, true) ∧ a.known ref.id = some ref.identity ∧
        ref.backendAlias = a.backendAlias ∧ ref.concurrencyKey = some key ∧
        Accounts a (ref.id :: hand) (owed + a.slot key) w'.db) ∨
      ((∀ ref, found ≠ some (ref, true)) ∧ Accounts a hand (owed + a.given key mode) w'.db) := by
  unfold DjQueue.consumeBlockedJobForSlot at run
  split at run
  · rename_i direct
    obtain ⟨rfl, -⟩ := direct
    obtain ⟨consumed, w₁, taken, rest⟩ := Runs.of_bind run
    obtain ⟨-, -, rest₁⟩ := checked_of_run_consumeNextBlockedJobWithReleasedSlot taken
    split at rest₁
    · obtain ⟨rfl, rfl⟩ := Runs.of_pure rest₁
      obtain ⟨rfl, rfl⟩ := Runs.of_pure rest
      exact .inr ⟨fun _ => by simp, good⟩
    · rename_i r others waiters
      obtain ⟨blocked, job⟩ := r
      have waiter := good.waiter_of_mem (r := (blocked, job))
        (waiters ▸ List.mem_cons_self)
      obtain ⟨n, w₃, sent, rest₂⟩ := Runs.of_bind rest₁
      obtain ⟨-, updated⟩ := of_run_updateSlots sent
      obtain ⟨db₃, -⟩ := of_run_updateSemaphore good.semaphores updated
      have good₃ : Accounts a hand (owed + a.slot key) w₃.db := by
        rw [db₃]
        exact good.handoff agrees _ _
      split at rest₂
      · obtain ⟨rfl, rfl⟩ := Runs.of_pure rest₂
        dsimp only at rest
        split at rest
        · exact (Runs.of_throw rest).elim
        · obtain ⟨rfl, rfl⟩ := Runs.of_pure rest
          exact .inr ⟨fun _ => by simp, good₃⟩
      · obtain ⟨n', w₄, deleted, done⟩ := Runs.of_bind rest₂
        obtain ⟨rfl, rfl⟩ := Runs.of_pure done
        dsimp only at rest
        split at rest
        · exact (Runs.of_throw rest).elim
        · obtain ⟨rfl, rfl⟩ := Runs.of_pure rest
          refine .inl ⟨_, rfl, waiter.known, rfl, by rw [← waiter.rowKey]; rfl, ?_⟩
          have selected := good.selected_waitersOf key
          rw [show waitersOf w.db a.backendAlias key = (blocked, job) :: others from waiters]
            at selected
          have still : Selected (m := .blocked) w₃.db [(blocked, job)] := by
            rw [db₃]
            exact (selected.sublist (List.singleton_sublist.mpr List.mem_cons_self)).of_same rfl rfl
          rw [(of_run_deleteRowsWhere deleted).2]
          exact without_singleton (m := .blocked) w₃.db.blocked blocked.id ▸
            good₃.takeWaiter still waiter
  · obtain ⟨consumed, w₁, taken, rest⟩ := Runs.of_bind run
    rcases good.consumeNextBlockedJob taken with ⟨rfl, good₁⟩ | ⟨r, rfl, waiter, good₁⟩
    · obtain ⟨rfl, rfl⟩ := Runs.of_pure rest
      exact .inr ⟨fun _ => by simp, good₁⟩
    · obtain ⟨blocked, job⟩ := r
      dsimp only at rest
      split at rest
      · exact (Runs.of_throw rest).elim
      · obtain ⟨acquired, w₂, asked, rest₁⟩ := Runs.of_bind rest
        have good₂ := good₁.acquireHandoffSlot agrees asked
        obtain ⟨v, w₃, restored, done⟩ := Runs.of_bind rest₁
        obtain ⟨rfl, rfl⟩ := Runs.of_pure done
        rcases Runs.of_runIf restored with ⟨refused, restored⟩ | ⟨kept, rfl⟩
        · have refused : acquired = false := by simpa using refused
          subst refused
          refine .inr ⟨fun _ => by simp, ?_⟩
          exact createBlockedExecution good₂ waiter.known rfl
            (fun q same => Option.some.inj same ▸ rfl) restored
        · have acquired : acquired = true := by simpa using kept
          subst acquired
          exact .inl ⟨_, rfl, waiter.known, rfl, by rw [← waiter.rowKey]; rfl, good₂⟩

/-- `unblock_next_blocked_job`: the slot goes to the first waiter, or nothing changes. -/
theorem unblockNextBlockedJob {mode : SlotHandoffMode} {found : Option JobRef}
    (good : Accounts a hand (owed + a.given key mode) w.db) (agrees : a.Limit key limit)
    (run : Runs (unblockNextBlockedJob a.env key limit duration mode) w found w') :
    (found.isSome = true ∧ Accounts a hand owed w'.db) ∨
      (found = none ∧ Accounts a hand (owed + a.given key mode) w'.db) := by
  obtain ⟨now, w₁, read, rest⟩ := Runs.of_bind run
  rw [← of_run_timezoneNow read] at good
  obtain ⟨slot, w₂, consumed, rest⟩ := Runs.of_bind (Runs.of_atomic rest)
  rcases good.consumeBlockedJobForSlot agrees consumed with
    ⟨ref, rfl, known, own, waits, good₂⟩ | ⟨none, good₂⟩
  · obtain ⟨v, w₃, created, done⟩ := Runs.of_bind rest
    obtain ⟨rfl, rfl⟩ := Runs.of_pure done
    refine .inl ⟨rfl, createReadyExecutionAfterBlockedConsume ?_ known own created⟩
    rw [Audit.held_of_known known waits rfl]
    exact good₂
  · split at rest
    · exact absurd rfl (none _)
    · obtain ⟨rfl, rfl⟩ := Runs.of_pure rest
      exact .inr ⟨rfl, good₂⟩

/-! ## One slot -/

/-- `release_concurrency_slot` under settings: the slot that was owed is not any more. -/
theorem releaseSlot (good : Accounts a hand (owed + a.slot key) w.db) (agrees : a.Limit key limit)
    (run : Runs (releaseSlot a.env key limit duration) w u w') : Accounts a hand owed w'.db := by
  obtain ⟨found, w₁, unblocked, rest⟩ := Runs.of_bind run
  rcases unblockNextBlockedJob good agrees unblocked with
    ⟨some, good₁⟩ | ⟨rfl, good₁⟩
  · obtain ⟨ref, rfl⟩ := Option.isSome_iff_exists.mp some
    obtain ⟨-, rfl⟩ := Runs.of_pure rest
    exact good₁
  · obtain ⟨released, w₂, back, rest⟩ := Runs.of_bind rest
    have good₂ := semaphoreRelease good₁ agrees back
    obtain ⟨found, w₃, unblocked, done⟩ := Runs.of_bind rest
    obtain ⟨-, rfl⟩ := Runs.of_pure done
    rcases unblockNextBlockedJob good₂ agrees unblocked with
      ⟨-, good₃⟩ | ⟨-, good₃⟩
    · exact good₃
    · exact good₃

end Accounts

/-- What a job's slot counts for. -/
def Audit.jobSlot (a : Audit) (j : Job) : Nat := (j.slotKey.map a.slot).getD 0

/-- A known job asks for a slot under its own key. -/
theorem Audit.Knows.slotKey {a : Audit} {j : Job} (knows : a.Knows j) :
    j.slotKey = j.concurrencyKey := by
  unfold Job.slotKey
  cases key : j.concurrencyKey with
  | none => rfl
  | some k =>
      have real : k ≠ "" := fun empty => knows.key (by rw [key, empty])
      simp [Option.filter, real]

/-- A row that holds a slot holds that of its job. -/
theorem Audit.Knows.held {a : Audit} {m : StateModel} {j : Job} (knows : a.Knows j)
    (active : m.isActive = true) : a.held m [j.id] = a.jobSlot j := by
  unfold Audit.jobSlot
  rw [knows.slotKey]
  cases key : j.concurrencyKey with
  | none => simp [Audit.held, active, Audit.holds, knows.identity, Job.identity, key]
  | some k => exact Audit.held_of_known knows.identity key active

namespace Accounts

variable {a : Audit} {hand hand' : List JobId} {owed owed' : Nat} {w w' : World} {u : Unit}
  {key : String} {limit duration : Int} {now : Time}

/-- Active rows hold as many slots as their jobs ask for. -/
theorem held_map {m : StateModel} (active : m.isActive = true) :
    ∀ {jobs : List Job}, (∀ j ∈ jobs, a.Knows j) →
      a.held m (jobs.map Job.id) = (jobs.map a.jobSlot).sum
  | [], _ => Audit.held_nil
  | j :: jobs, knows => by
      rw [List.map_cons, Audit.held_cons, (knows j List.mem_cons_self).held active,
        held_map active (fun i mem => knows i (List.mem_cons_of_mem _ mem))]
      rfl

/-- `_release_settings` of a job whose slot is still owed: the tracked limit, from the policy or
from the row. -/
theorem releaseSettings {job : Job} {task : Option Imported} {settings : Int × Int}
    (good : Accounts a hand owed w.db) (knows : a.Knows job) (waits : job.concurrencyKey = some key)
    (slotOwed : a.slot key ≤ owed)
    (run : Runs (releaseSettings a.env job key task) w settings w') :
    w' = w ∧ a.Limit key settings.1 := by
  obtain ⟨db, w₁, read, rest⟩ := Runs.of_bind run
  obtain ⟨rfl, rfl⟩ := of_run_getDb read
  split at rest
  · rename_i resolved ok
    obtain ⟨rfl, rfl⟩ := Runs.of_pure rest
    exact ⟨rfl, fun L tracked => knows.limit _ tracked waits _ _ _ ok⟩
  · obtain ⟨rfl, rfl⟩ := Runs.of_pure rest
    refine ⟨rfl, fun L tracked => ?_⟩
    rw [slot_of_tracked tracked] at slotOwed
    rcases good.slots_of_tracked tracked with ⟨-, zero⟩ | ⟨r, found, limitOf, -, -⟩
    · omega
    · have positive := a.positive _ tracked
      simp only [semaphoreLimitOrOne, found, Option.map_some, limitOf]
      split
      · rename_i impossible
        cases impossible
      · rename_i zero
        rw [Option.some.inj zero] at positive
        exact absurd positive (lt_irrefl _)
      · rename_i same
        exact (Option.some.inj same).symm
  · exact (Runs.of_throw rest).elim

/-- `release_concurrency_slot` -/
theorem releaseConcurrencySlot {job : Job} {task : Option Imported}
    (good : Accounts a hand (owed + a.jobSlot job) w.db) (knows : a.Knows job)
    (run : Runs (releaseConcurrencySlot a.env job task) w u w') : Accounts a hand owed w'.db := by
  unfold DjQueue.releaseConcurrencySlot at run
  split at run
  · rename_i none
    obtain ⟨-, rfl⟩ := Runs.of_pure run
    simpa [Audit.jobSlot, none] using good
  · rename_i key slotKey
    have good : Accounts a hand (owed + a.slot key) w.db := by
      simpa [Audit.jobSlot, slotKey] using good
    obtain ⟨settings, w₁, resolved, rest⟩ := Runs.of_bind run
    obtain ⟨rfl, agrees⟩ := good.releaseSettings knows (knows.slotKey ▸ slotKey)
      (Nat.le_add_left _ _) resolved
    exact good.releaseSlot agrees rest

/-- As many slots are released as the jobs hold. -/
theorem releaseAll : ∀ {jobs : List Job} {w : World},
    Accounts a hand (owed + (jobs.map a.jobSlot).sum) w.db → (∀ j ∈ jobs, a.Knows j) →
    Runs (releaseAll a.env jobs) w u w' → Accounts a hand owed w'.db
  | [], w, good, _, run => by
      obtain ⟨-, rfl⟩ := Runs.of_pure run
      exact good
  | job :: jobs, w, good, knows, run => by
      obtain ⟨v, w₁, head, tail⟩ := Runs.of_bind run
      rw [List.map_cons, List.sum_cons, Nat.add_comm (a.jobSlot job), ← Nat.add_assoc] at good
      exact (good.releaseConcurrencySlot (knows job List.mem_cons_self) head).releaseAll
        (fun j mem => knows j (List.mem_cons_of_mem _ mem)) tail

/-! ## The slots of a group -/

/-- The ready rows built for known jobs are theirs. -/
theorem ownRows_of_mapM {β : Type} {rows : List β} {job : β → JobRef} {queueName : β → Option String}
    {priority : β → Option Int} {readyAt : Time} {built : List ReadyExecution}
    (known : ∀ b ∈ rows, a.known (job b).id = some (job b).identity)
    (queue : ∀ b ∈ rows, ∀ q, queueName b = some q → q = (job b).queueName)
    (ok : rows.mapM (fun b => readyExecutionRow (job b) a.backendAlias (queueName b) (priority b)
      readyAt) = .ok built) :
    built.map ReadyExecution.jobId = rows.map (fun b => (job b).id) ∧
      ∀ r ∈ built, a.OwnRow (m := .ready) r := by
  have each := forall₂_of_mapM_ok ok
  clear ok
  induction each with
  | nil => exact ⟨rfl, fun r mem => absurd mem List.not_mem_nil⟩
  | @cons b row rows built one _ ih =>
      obtain ⟨ids, own⟩ := ih (fun b mem => known b (List.mem_cons_of_mem _ mem))
        (fun b mem => queue b (List.mem_cons_of_mem _ mem))
      obtain ⟨id, first⟩ := ownRow_readyExecutionRow (known b List.mem_cons_self)
        (queue b List.mem_cons_self) one
      refine ⟨by rw [List.map_cons, List.map_cons, ids, id], fun r mem => ?_⟩
      rcases List.mem_cons.mp mem with rfl | mem
      · exact first
      · exact own r mem

/-- Jobs that all have the key hold as many slots of it as there are of them. -/
theorem sum_jobSlot : ∀ {jobs : List Job}, (∀ j ∈ jobs, a.Knows j) →
    (∀ j ∈ jobs, j.concurrencyKey = some key) →
    (jobs.map a.jobSlot).sum = jobs.length * a.slot key
  | [], _, _ => by simp
  | j :: jobs, knows, waits => by
      have one : a.jobSlot j = a.slot key := by
        simp [Audit.jobSlot, (knows j List.mem_cons_self).slotKey, waits j List.mem_cons_self]
      have others := sum_jobSlot (fun i mem => knows i (List.mem_cons_of_mem _ mem))
        (fun i mem => waits i (List.mem_cons_of_mem _ mem))
      rw [List.map_cons, List.sum_cons, one, others, List.length_cons, Nat.succ_mul, Nat.add_comm]

/-- A slice has at most as many rows as its bound. -/
theorem length_pySlice_le {α : Type} {n : Int} (positive : 0 ≤ n) (rows : List α) :
    ((pySlice n rows).length : Int) ≤ n := by
  rw [pySlice, if_neg (by omega), List.length_take]
  omega

/-- The row of a group written: each waiter promoted keeps one of the slots that are given back. -/
theorem saveGroup {db : Db} {count promoted : Nat} {semaphore : Semaphore} {expiresAt now : Time}
    (good : Accounts a hand (owed + count * a.slot key) db) (agrees : a.Limit key limit)
    (found : db.findSemaphore key = some semaphore)
    (room : 0 ≤ groupAvailable count limit semaphore →
      (promoted : Int) ≤ groupAvailable count limit semaphore) :
    Accounts a hand (owed + promoted * a.slot key) (db.saveSemaphore key
      (groupReleaseRow limit (groupAvailable count limit semaphore) promoted expiresAt now)) := by
  refine good.save (fun _ => ⟨rfl, rfl⟩) ?_ ?_ ?_
  · intro L r tracked found' limitOf free sum
    rw [found] at found'
    obtain rfl := Option.some.inj found'
    obtain rfl := agrees L tracked
    rw [slot_of_tracked tracked] at sum ⊢
    have available : groupAvailable count limit semaphore = semaphore.value + count := by
      unfold groupAvailable
      omega
    rw [available] at room
    simp only [groupReleaseRow, available]
    exact ⟨trivial, by omega, by omega⟩
  · intro untracked
    rw [slot_of_untracked untracked, Nat.mul_zero, Nat.mul_zero]
  · intro L tracked absent
    rw [found] at absent
    cases absent

/-- The waiters of a key hold a slot of it each, once they are ready. -/
theorem held_waiters {rows : List (BlockedExecution × Job)} (waiters : ∀ r ∈ rows, a.Waiter key r) :
    a.held .ready (rows.map (fun r => r.2.id)) = rows.length * a.slot key := by
  have knows : ∀ j ∈ rows.map Prod.snd, a.Knows j := by
    intro j mem
    obtain ⟨r, inRows, rfl⟩ := List.mem_map.mp mem
    exact (waiters r inRows).knows
  have waits : ∀ j ∈ rows.map Prod.snd, j.concurrencyKey = some key := by
    intro j mem
    obtain ⟨r, inRows, rfl⟩ := List.mem_map.mp mem
    exact (waiters r inRows).waits
  have sum := (held_map (m := .ready) rfl knows).trans (sum_jobSlot knows waits)
  rwa [List.map_map, List.length_map] at sum

/-- `_release_recovered_concurrency_group`: as many slots are given back as jobs were recovered,
and the waiters that take them over keep them. -/
theorem releaseRecoveredConcurrencyGroup {count : Nat} {promoted : List Job}
    (good : Accounts a hand (owed + count * a.slot key) w.db) (agrees : a.Limit key limit)
    (run : Runs (releaseRecoveredConcurrencyGroup a.env key count limit duration) w promoted w') :
    Accounts a hand owed w'.db := by
  obtain ⟨now, w₁, read, rest₀⟩ := Runs.of_bind run
  rw [← of_run_timezoneNow read] at good
  obtain ⟨expiresAt, w₀, added, rest₁⟩ := Runs.of_bind rest₀
  obtain ⟨rfl, -, rfl⟩ := of_run_addSeconds added
  obtain ⟨db, w₂, got, rest₂⟩ := Runs.of_bind rest₁
  obtain ⟨rfl, rfl⟩ := of_run_getDb got
  obtain ⟨v, w₃, check, rest₃⟩ := Runs.of_bind rest₂
  obtain ⟨rfl, -⟩ := of_run_ensureStateRowsBelongToBackend (m := .blocked) check
  split at rest₃
  · rename_i absent
    obtain ⟨-, rfl⟩ := Runs.of_pure rest₃
    -- nothing is owed without a row
    have none : count * a.slot key = 0 := by
      cases tracks : a.tracks key with
      | false => rw [slot_of_untracked tracks, Nat.mul_zero]
      | true =>
          obtain ⟨L, tracked⟩ := tracked_of_tracks tracks
          have zero := good.taken_of_absent tracked absent
          omega
    rwa [none] at good
  · rename_i semaphore found
    obtain ⟨rows, w₄, consumed, rest₄⟩ := Runs.of_bind rest₃
    -- the waiters that are promoted: some of the first ones, no more than there are free slots
    have waiting : (pySlice (min (min (count : Int) (groupAvailable count limit semaphore))
        ((waitersOf w₃.db a.backendAlias key).take count).length)
        ((waitersOf w₃.db a.backendAlias key).take count)).Sublist
        (waitersOf w₃.db a.backendAlias key) :=
      (List.take_sublist _ _).trans (List.take_sublist count _)
    have room : 0 ≤ groupAvailable count limit semaphore →
        ((pySlice (min (min (count : Int) (groupAvailable count limit semaphore))
          ((waitersOf w₃.db a.backendAlias key).take count).length)
          ((waitersOf w₃.db a.backendAlias key).take count)).length : Int) ≤
        groupAvailable count limit semaphore := by
      intro free
      exact (length_pySlice_le (by omega) _).trans (by omega)
    generalize pySlice (min (min (count : Int) (groupAvailable count limit semaphore))
      ((waitersOf w₃.db a.backendAlias key).take count).length)
      ((waitersOf w₃.db a.backendAlias key).take count) = chosen at consumed waiting room
    have waiters : ∀ r ∈ chosen, a.Waiter key r := fun r mem =>
      good.waiter_of_mem (waiting.subset mem)
    obtain ⟨rfl, good₄⟩ := good.consume (m := .blocked) (fun _ => rfl)
      ((good.selected_waitersOf key).sublist waiting)
      (fun r mem => (waiters r mem).own) consumed
    rw [Audit.held_of_inactive rfl, Nat.add_zero] at good₄
    have found₄ : w₄.db.findSemaphore key = some semaphore := by
      rw [(of_run_consumeSelectedRows (m := .blocked) (fun r mem => ⟨r.1,
        ((good.selected_waitersOf key).sublist waiting).mem r mem, rfl⟩)
        ((good.selected_waitersOf key).sublist waiting).nodup consumed).2]
      exact found
    obtain ⟨stamp, w₅, read₅, rest₅⟩ := Runs.of_bind rest₄
    rw [← of_run_timezoneNow read₅] at good₄ found₄
    obtain ⟨v', w₉, checked, rest₉⟩ := Runs.of_bind rest₅
    obtain ⟨-, rfl⟩ := of_run_ensureFits checked
    obtain ⟨v', w₆, saved, rest₆⟩ := Runs.of_bind rest₉
    have good₆ : Accounts a (rows.map (fun r => r.2.id) ++ hand)
        (owed + rows.length * a.slot key) w₆.db := by
      rw [of_run_modifyDb saved]
      exact good₄.saveGroup agrees found₄ room
    obtain ⟨ready, w₇, computed, rest₇⟩ := Runs.of_bind rest₆
    obtain ⟨built, rfl⟩ := Runs.of_ofExcept computed
    obtain ⟨v'', w₈, created, done⟩ := Runs.of_bind rest₇
    obtain ⟨-, rfl⟩ := Runs.of_pure done
    obtain ⟨ids, own⟩ := ownRows_of_mapM
      (fun r mem => (waiters r mem).knows.identity)
      (fun r mem q same => Option.some.inj same ▸ (waiters r mem).queue) built
    refine bulkCreateReadyExecutions ?_ own created
    rw [ids]
    change Accounts a (rows.map (fun r => r.2.id) ++ hand)
      (owed + a.held .ready (rows.map (fun r => r.2.id))) w₇.db
    rw [held_waiters waiters]
    exact good₆

/-- The settings of a group agree on the limit. -/
theorem releaseSettingsOfAll : ∀ {jobs : List Job} {w w' : World} {settings : List (Int × Int)},
    Accounts a hand owed w.db → (∀ j ∈ jobs, a.Knows j) →
    (∀ j ∈ jobs, j.concurrencyKey = some key) → (jobs ≠ [] → a.slot key ≤ owed) →
    Runs (releaseSettingsOfAll a.env key jobs) w settings w' →
    w' = w ∧ ∀ s ∈ settings, a.Limit key s.1
  | [], w, w', settings, _, _, _, _, run => by
      obtain ⟨rfl, rfl⟩ := Runs.of_pure run
      exact ⟨rfl, fun s mem => absurd mem List.not_mem_nil⟩
  | job :: jobs, w, w', settings, good, knows, waits, slotOwed, run => by
      have slotOwed := slotOwed (List.cons_ne_nil _ _)
      obtain ⟨first, w₁, resolved, rest⟩ := Runs.of_bind run
      obtain ⟨rfl, agrees⟩ := good.releaseSettings (knows job List.mem_cons_self)
        (waits job List.mem_cons_self) slotOwed resolved
      obtain ⟨others, w₂, tail, done⟩ := Runs.of_bind rest
      obtain ⟨rfl, agreeing⟩ := good.releaseSettingsOfAll
        (fun j mem => knows j (List.mem_cons_of_mem _ mem))
        (fun j mem => waits j (List.mem_cons_of_mem _ mem)) (fun _ => slotOwed) tail
      obtain ⟨rfl, rfl⟩ := Runs.of_pure done
      refine ⟨rfl, fun s mem => ?_⟩
      rcases List.mem_cons.mp mem with rfl | mem
      · exact agrees
      · exact agreeing s mem

/-- One group: its slots are given back, or all its jobs are left for later. -/
theorem releaseRecoveredGroup {jobs fallback : List Job}
    (good : Accounts a hand (owed + (jobs.map a.jobSlot).sum) w.db) (knows : ∀ j ∈ jobs, a.Knows j)
    (waits : ∀ j ∈ jobs, j.concurrencyKey = some key)
    (run : Runs (releaseRecoveredGroup a.env key jobs) w fallback w') :
    (∀ j ∈ fallback, j ∈ jobs) ∧ Accounts a hand (owed + (fallback.map a.jobSlot).sum) w'.db := by
  obtain ⟨settings, w₁, resolved, rest⟩ := Runs.of_bind run
  have sum := sum_jobSlot knows waits
  obtain ⟨rfl, agrees⟩ := good.releaseSettingsOfAll knows waits (fun some => by
    rw [sum]
    have positive := List.length_pos_iff.mpr some
    exact (Nat.le_mul_of_pos_left _ positive).trans (Nat.le_add_left _ _)) resolved
  split at rest
  · rename_i limit duration same
    obtain ⟨promoted, w₂, released, done⟩ := Runs.of_bind rest
    obtain ⟨rfl, rfl⟩ := Runs.of_pure done
    refine ⟨fun j mem => absurd mem List.not_mem_nil, ?_⟩
    rw [sum] at good
    have inSettings : (limit, duration) ∈ settings := by
      rw [← mem_distinct, same]
      exact List.mem_singleton_self _
    exact good.releaseRecoveredConcurrencyGroup (agrees _ inSettings) released
  · obtain ⟨rfl, rfl⟩ := Runs.of_pure rest
    exact ⟨fun j mem => mem, good⟩

/-- Every group of a recovery is released, or left for the fallback. -/
theorem releaseRecoveredGroups : ∀ {groups : List (String × List Job)} {owed : Nat} {w : World}
    {fallback : List Job},
    Accounts a hand (owed + ((groups.flatMap Prod.snd).map a.jobSlot).sum) w.db →
    (∀ g ∈ groups, ∀ j ∈ g.2, a.Knows j ∧ j.concurrencyKey = some g.1) →
    Runs (releaseRecoveredGroups a.env groups) w fallback w' →
    (∀ j ∈ fallback, j ∈ groups.flatMap Prod.snd) ∧
      Accounts a hand (owed + (fallback.map a.jobSlot).sum) w'.db
  | [], owed, w, fallback, good, _, run => by
      obtain ⟨rfl, rfl⟩ := Runs.of_pure run
      exact ⟨fun j mem => mem, good⟩
  | (key, jobs) :: groups, owed, w, fallback, good, members, run => by
      obtain ⟨first, w₁, head, rest⟩ := Runs.of_bind run
      obtain ⟨others, w₂, tail, done⟩ := Runs.of_bind rest
      obtain ⟨rfl, rfl⟩ := Runs.of_pure done
      rw [List.flatMap_cons, List.map_append, List.sum_append,
        Nat.add_comm (jobs.map a.jobSlot).sum, ← Nat.add_assoc] at good
      obtain ⟨fromGroup, good₁⟩ := good.releaseRecoveredGroup
        (fun j mem => (members _ List.mem_cons_self j mem).1)
        (fun j mem => (members _ List.mem_cons_self j mem).2) head
      rw [Nat.add_right_comm] at good₁
      obtain ⟨fromRest, good₂⟩ := good₁.releaseRecoveredGroups
        (fun g mem => members g (List.mem_cons_of_mem _ mem)) tail
      refine ⟨fun j mem => ?_, ?_⟩
      · rw [List.flatMap_cons]
        rcases List.mem_append.mp mem with mem | mem
        · exact List.mem_append_left _ (fromGroup j mem)
        · exact List.mem_append_right _ (fromRest j mem)
      · rw [List.map_append, List.sum_append, ← Nat.add_assoc]
        exact good₂

/-- The jobs without a key hold no slot. -/
theorem sum_slotJobs (jobs : List Job) :
    (((slotJobs jobs).map Prod.snd).map a.jobSlot).sum = (jobs.map a.jobSlot).sum := by
  unfold slotJobs
  induction jobs with
  | nil => rfl
  | cons j jobs ih =>
      rw [List.map_cons, List.sum_cons, ← ih]
      cases key : j.slotKey with
      | none =>
          have zero : a.jobSlot j = 0 := by simp [Audit.jobSlot, key]
          rw [List.filterMap_cons_none (by rw [key]; rfl), zero, Nat.zero_add]
      | some k =>
          rw [List.filterMap_cons_some (b := (k, j)) (by rw [key]; rfl), List.map_cons,
            List.map_cons, List.sum_cons]

/-- The jobs of each group have its key. -/
theorem members_of_groups {jobs : List Job} (knows : ∀ j ∈ jobs, a.Knows j) :
    ∀ g ∈ (groupBy Prod.fst (slotJobs jobs)).map (fun g => (g.1, g.2.map Prod.snd)),
      ∀ j ∈ g.2, a.Knows j ∧ j.concurrencyKey = some g.1 := by
  intro group inGroups j inGroup
  obtain ⟨g, grouped, rfl⟩ := List.mem_map.mp inGroups
  obtain ⟨pair, mem, rfl⟩ := List.mem_map.mp inGroup
  obtain ⟨inSlots, same⟩ := mem_of_mem_groupBy grouped mem
  obtain ⟨j, inJobs, made⟩ := List.mem_filterMap.mp inSlots
  obtain ⟨k, slotKey, rfl⟩ := Option.map_eq_some_iff.mp made
  have known := knows j inJobs
  exact ⟨known, by rw [← known.slotKey, slotKey]; exact congrArg some same⟩

/-- The groups hold the jobs with a slot, each once. -/
theorem perm_groups (jobs : List Job) :
    (((groupBy Prod.fst (slotJobs jobs)).map (fun g => (g.1, g.2.map Prod.snd))).flatMap
      Prod.snd).Perm ((slotJobs jobs).map Prod.snd) := by
  have perm := (groupBy_flatMap_perm Prod.fst (slotJobs jobs)).map Prod.snd
  rw [List.map_flatMap] at perm
  rw [List.flatMap_map]
  exact perm

/-- `release_recovered_concurrency_slots`, then one by one what it left. -/
theorem releaseFallback {jobs : List Job}
    (good : Accounts a hand (owed + (jobs.map a.jobSlot).sum) w.db) (knows : ∀ j ∈ jobs, a.Knows j)
    (run : Runs (releaseFallback a.env jobs) w u w') : Accounts a hand owed w'.db := by
  obtain ⟨fallback, w₁, grouped, rest⟩ := Runs.of_bind run
  unfold releaseRecoveredConcurrencySlots at grouped
  split at grouped
  · exact (Runs.of_throw grouped).elim
  · have members := members_of_groups knows
    have total : (((((groupBy Prod.fst (slotJobs jobs)).map
        (fun g => (g.1, g.2.map Prod.snd))).flatMap Prod.snd)).map a.jobSlot).sum =
        (jobs.map a.jobSlot).sum := by
      rw [← sum_slotJobs jobs]
      exact ((perm_groups jobs).map a.jobSlot).sum_nat
    rw [← total] at good
    obtain ⟨left, good₁⟩ := good.releaseRecoveredGroups members grouped
    refine good₁.releaseAll (fun j mem => ?_) rest
    obtain ⟨g, inGroups, inGroup⟩ := List.mem_flatMap.mp (left j mem)
    exact (members g inGroups j inGroup).1

end Accounts

end DjQueue
