import DjQueue.Slots.HandoffPaths
import DjQueue.Slots.Countable
import DjQueue.Slots.GroupRelease
import DjQueue.Slots.Readings
import DjQueue.Accounting.Recovery

/-!
# What a release comes to

Giving slots back on sound tables raises only what looking a job's policy up raises, or that its
deadline is beyond what a `datetime` holds, or that a count is out of the range of the database.
Else it changes nothing but the slots: a waiter that gets one is ready from then on.
-/

namespace DjQueue

open Relational

/-! ## Hand-offs -/

/-- Where a ready job stands. -/
structure ReadyPlace where
  jobId : JobId
  backendAlias : String
  queueName : String
deriving DecidableEq

/-- Where a ready row stands. -/
def ReadyExecution.place (r : ReadyExecution) : ReadyPlace := ⟨r.jobId, r.backendAlias, r.queueName⟩

/-- The places of the ready rows. -/
def Db.readyPlaces (db : Db) : List ReadyPlace := db.ready.rows.map ReadyExecution.place

/-- Where waiters stand once they have their slots. -/
def promotedPlaces (backendAlias : String) (promoted : List BlockedExecution) : List ReadyPlace :=
  promoted.map (fun b => ⟨b.jobId, backendAlias, b.queueName⟩)

/-- Where jobs stood that were ready in this queue. -/
def clearedPlaces (backendAlias queueName : String) (cleared : List Job) : List ReadyPlace :=
  cleared.map (fun j => ⟨j.id, backendAlias, queueName⟩)

/-- Waiters, the numbers of their rows aside. -/
def unnumbered (waiters : List BlockedExecution) : List BlockedExecution :=
  waiters.map (fun r => { r with id := 0 })

/-- Slots of keys with `P` were given back: these waiters got one, and nothing else changed but
the semaphores and the keys of waiters' rows. -/
structure HandsOver (backendAlias : String) (P : String → Prop) (promoted : List BlockedExecution)
    (db db' : Db) : Prop where
  rest : db' = { db with ready := db'.ready, blocked := db'.blocked, semaphores := db'.semaphores }
  ready : db'.readyPlaces = db.readyPlaces ++ promotedPlaces backendAlias promoted
  blocked : (db'.unnumberedWaiters ++ unnumbered promoted).Perm db.unnumberedWaiters
  own : ∀ b ∈ promoted, b.backendAlias = backendAlias ∧ P b.concurrencyKey

namespace HandsOver

variable {B : String} {P Q : String → Prop} {promoted promoted' : List BlockedExecution}
  {db db' db'' : Db} {b : BlockedExecution}

theorem refl (db : Db) : HandsOver B P [] db db :=
  ⟨rfl, (List.append_nil _).symm, by rw [unnumbered, List.map_nil, List.append_nil],
    fun b mem => absurd mem List.not_mem_nil⟩

theorem trans (first : HandsOver B P promoted db db') (second : HandsOver B P promoted' db' db'') :
    HandsOver B P (promoted ++ promoted') db db'' := by
  constructor
  · have rest := second.rest
    rw [first.rest] at rest
    exact rest
  · rw [second.ready, first.ready, promotedPlaces, promotedPlaces, promotedPlaces,
      List.map_append, List.append_assoc]
  · rw [unnumbered, List.map_append]
    have later := second.blocked.append_right (unnumbered promoted)
    apply List.Perm.trans _ (later.trans first.blocked)
    rw [List.append_assoc]
    exact List.perm_append_comm.append_left _
  · intro b mem
    exact (List.mem_append.mp mem).elim (first.own b) (second.own b)

theorem mono (hands : HandsOver B P promoted db db') (weaker : ∀ k, P k → Q k) :
    HandsOver B Q promoted db db' :=
  { hands with own := fun b mem => ⟨(hands.own b mem).1, weaker _ (hands.own b mem).2⟩ }

/-- Only semaphores changed. -/
theorem saveSemaphore (key : String) (f : Semaphore → Semaphore) :
    HandsOver B P [] db (db.saveSemaphore key f) :=
  ⟨rfl, (List.append_nil _).symm, by
    rw [unnumbered, List.map_nil, List.append_nil]
    exact List.Perm.refl _, fun b mem => absurd mem List.not_mem_nil⟩

/-- A waiter was put back on a new row. -/
theorem restored (places : WaitersNumbered db.blocked) (mem : b ∈ db.blocked.rows) :
    HandsOver B P [] db ((db.withoutWaiter b).withRestored b.backendAlias b) :=
  ⟨rfl, (List.append_nil _).symm, by
    rw [unnumbered, List.map_nil, List.append_nil]
    exact (unnumberedWaiters_restored places mem).symm, fun b mem => absurd mem List.not_mem_nil⟩

/-- The first waiter of the key got the slot. -/
theorem handedOver {env : Env} {key : String} (places : WaitersNumbered db.blocked)
    (mem : b ∈ db.blocked.rows) (own : b.backendAlias = env.config.backendAlias)
    (waits : P b.concurrencyKey) (mode : SlotHandoffMode) (L duration : Int) (now : Time) :
    HandsOver env.config.backendAlias P [b] db
      (DjQueue.handedOver db env key mode L duration now b) := by
  constructor
  · rfl
  · rw [DjQueue.handedOver, Db.withPromoted, Db.readyPlaces, Table.rows_insert, List.map_append]
    rfl
  · have left := (Db.perm_withoutWaiter places mem).map
      (fun r : BlockedExecution => { r with id := 0 })
    exact (List.perm_append_singleton _ _).trans left.symm
  · intro b' only
    rw [List.mem_singleton.mp only]
    exact ⟨own, waits⟩

end HandsOver

namespace Accounts

variable {a : Audit} {hand : List JobId} {owed : Nat} {w : World} {key : String}

/-- The waiters of a state in which the books are right. -/
theorem waitersNumbered (good : Accounts a hand owed w.db) : WaitersNumbered w.db.blocked :=
  ⟨good.rowIds .blocked, good.stateJobIds_nodup .blocked, good.rowBound .blocked⟩

/-- A waiter's job is of the row's backend. -/
theorem own_of_waiter (good : Accounts a hand owed w.db) {B : String}
    {x : BlockedExecution × Job} (mem : x ∈ waitersOf w.db B key) : x.2.backendAlias = B := by
  rcases mem_waitersOf.mp mem with ⟨there, own, -, found⟩
  rcases mem_of_findJob found with ⟨inJobs, same⟩
  rcases (good.rowFits .blocked x.1 there).columns with ⟨i, known, columns⟩
  have identity := (good.knows x.2 inJobs).identity
  rw [same] at identity
  have equal : i = x.2.identity := Option.some.inj (known.symm.trans identity)
  have backend : x.1.backendAlias = i.backendAlias := columns.backend _ rfl
  rw [← own, backend, equal]
  rfl

/-- A waiter's job is nowhere else. -/
theorem free_of_waiter (good : Accounts a hand owed w.db) {B : String}
    {x : BlockedExecution × Job} (mem : x ∈ waitersOf w.db B key) :
    w.db.hasOtherState x.1.jobId = false := by
  rcases mem_waitersOf.mp mem with ⟨there, -, -, found⟩
  rcases mem_of_findJob found with ⟨inJobs, same⟩
  have one := good.places x.2 inJobs
  have waiting : 0 < (w.db.stateJobIds .blocked).count x.2.id := by
    rw [List.count_pos_iff, same]
    exact List.mem_map_of_mem there
  rw [places_eq] at one
  apply Db.hasOtherState_eq_false.mpr
  intro m other
  have none : (w.db.stateJobIds m).count x.2.id = 0 := by
    cases m with
    | blocked => exact absurd rfl other
    | ready => omega
    | scheduled => omega
    | claimed => omega
    | failed => omega
  rw [Db.hasState, ← Bool.not_eq_true, List.contains_iff_mem, ← same]
  exact List.count_eq_zero.mp none

end Accounts

/-! ## What is in the way -/

/-- What a slot under this limit and for this duration cannot be computed for: a deadline, counted
from some reading of the clock, or a number of slots. -/
inductive SlotObstacle (family : BackendFamily) (w : World) (L duration : Int) : PyError → Prop
  | deadline (n : Nat) (beyond : isDatetime (w.clock n + seconds duration) = false) :
      SlotObstacle family w L duration dateOutOfRange
  | range (beyond : ¬ (CountableSlots family w.db.semaphores ∧ 0 < L ∧ family.counts L = true)) :
      SlotObstacle family w L duration family.outOfRange

/-- What is in the way later was in the way before. -/
theorem SlotObstacle.earlier {family : BackendFamily} {w w' : World} {L duration : Int}
    {e : PyError} (ticks : Ticks w w')
    (keeps : 0 < L → family.counts L = true → CountableSlots family w.db.semaphores →
      CountableSlots family w'.db.semaphores) (later : SlotObstacle family w' L duration e) :
    SlotObstacle family w L duration e := by
  cases later with
  | deadline n beyond =>
      rcases ticks with ⟨k, shifted⟩
      rw [shifted] at beyond
      exact .deadline _ beyond
  | range beyond =>
      refine .range fun fits => beyond ⟨?_, fits.2⟩
      exact keeps fits.2.1 fits.2.2 fits.1

namespace Accounts

variable {a : Audit} {hand : List JobId} {owed : Nat} {w : World} {key : String}

/-- Unblocking hands over one slot at most, unless the slot cannot be computed. -/
theorem unblockNextBlockedJob_outcome (good : Accounts a hand owed w.db) (key : String)
    (L duration : Int) (mode : SlotHandoffMode) :
    (∃ job promoted w', Runs (DjQueue.unblockNextBlockedJob a.env key L duration mode) w job w' ∧
      HandsOver a.backendAlias (· = key) promoted w.db w'.db) ∨
    ∃ e, Fails (DjQueue.unblockNextBlockedJob a.env key L duration mode) w e ∧
      SlotObstacle a.env.config.family w L duration e := by
  have inRange : ∀ {x : Int}, a.env.config.family = .postgresql → 0 < x →
      a.env.config.family.counts x = true → int4 x = true := by
    intro x onPostgres positive counts
    have holds := BackendFamily.holds_of_counts positive.le counts
    rw [onPostgres] at holds
    exact holds
  cases waiters : waitersOf w.db a.env.config.backendAlias key with
  | nil =>
      by_cases fits : CallFits a.env mode L duration (w.clock 0)
      · exact .inl ⟨_, _, _, runs_unblockNextBlockedJob_nobody fits waiters, HandsOver.refl _⟩
      · right
        obtain ⟨path, beyond⟩ := Classical.not_imp.mp fits
        have asked {e : PyError} (fails : Fails (consumeNextBlockedJobWithReleasedSlot a.env key L
            duration (w.clock 0)) w.tick e) :
            Fails (DjQueue.unblockNextBlockedJob a.env key L duration mode) w e := by
          apply fails_unblockNextBlockedJob
          unfold DjQueue.consumeBlockedJobForSlot
          rw [if_pos path]
          exact Fails.bind fails
        cases deadline : isDatetime (w.clock 0 + seconds duration) with
        | false =>
            exact ⟨_, asked (fails_consumeNextBlockedJobWithReleasedSlot_deadline L deadline),
              .deadline 0 deadline⟩
        | true =>
            have limit : int4 L = false := Bool.eq_false_of_not_eq_true fun holds =>
              beyond ⟨deadline, holds⟩
            refine ⟨a.env.config.family.outOfRange, ?_, .range fun fits => ?_⟩
            · rw [path.2]
              exact asked (fails_consumeNextBlockedJobWithReleasedSlot_limit deadline limit)
            · rw [inRange path.2 fits.2.1 fits.2.2] at limit
              cases limit
  | cons x rest =>
      have mem : x ∈ waitersOf w.db a.env.config.backendAlias key := by
        rw [waiters]
        exact List.mem_cons_self
      rcases mem_waitersOf.mp mem with ⟨there, backend, waits, -⟩
      have own := good.own_of_waiter mem
      have free := good.free_of_waiter mem
      have places := good.waitersNumbered
      cases deadline : isDatetime (w.clock 0 + seconds duration) with
      | false =>
          exact .inr ⟨_, fails_unblockNextBlockedJob_deadline deadline
            (.inr ⟨_, _, waiters, own⟩), .deadline 0 deadline⟩
      | true =>
          by_cases fits : HandoffFits a.env.config.family w.db key mode L duration (w.clock 0)
          · left
            have computable : Computable a.env.config.family w.db key mode L duration
              (w.clock 0) := ⟨deadline, fits⟩
            cases given : gives w.db key mode L with
            | true =>
                exact ⟨_, _, _, runs_unblockNextBlockedJob_given good.semaphores computable waiters
                  own given free, HandsOver.handedOver places there backend waits mode L duration _⟩
            | false =>
                by_cases onPostgres : mode = .releaseClaimed ∧ a.env.config.family = .postgresql
                · rw [onPostgres.1] at given computable ⊢
                  rw [onPostgres.2] at computable
                  exact ⟨_, _, _, runs_unblockNextBlockedJob_refused_onPostgres onPostgres.2
                    good.semaphores computable waiters own given, HandsOver.refl _⟩
                · have back : HandsOver a.backendAlias (· = key) [] w.db
                      ((w.db.withoutWaiter x.1).withRestored a.env.config.backendAlias x.1) := by
                    rw [← backend]
                    exact HandsOver.restored places there
                  exact ⟨_, _, _, runs_unblockNextBlockedJob_refused onPostgres good.semaphores
                    places computable waiters own given free, back⟩
          · refine .inr ⟨_, fails_unblockNextBlockedJob_numbers deadline fits waiters own,
              .range fun room => fits ?_⟩
            exact handoffFits_of_countable room.2.1 room.2.2 room.1 key mode duration _

/-! ## Releases -/

/-- `semaphore_release` returns or fails, and hands nothing over. -/
theorem semaphoreRelease_outcome (B : String) (P : String → Prop) (env : Env) (key : String)
    (L duration : Int) (w : World) :
    (∃ released w', Runs (DjQueue.semaphoreRelease env key L duration) w released w' ∧
      HandsOver B P [] w.db w'.db) ∨
    ∃ e, Fails (DjQueue.semaphoreRelease env key L duration) w e ∧
      SlotObstacle env.config.family w L duration e := by
  cases deadline : isDatetime (w.clock 0 + seconds duration) with
  | false =>
      exact .inr ⟨_, Runs.bind_fails (runs_timezoneNow w) (Fails.bind (fails_addSeconds deadline _)),
        .deadline 0 deadline⟩
  | true =>
      by_cases fits : ((semaphoreReleaseStatement L (w.clock 0 + seconds duration)
          (w.clock 0)).numbers env.config.family (w.db.findSemaphore key)).all
            env.config.family.holds = true
      · left
        exact ⟨_, _, Runs.bind (runs_timezoneNow w) (Runs.bind (runs_addSeconds deadline _)
          (Runs.bind (runs_updateSlots fits (runs_updateSemaphore _ key _ _)) (runs_pure _ _))),
          HandsOver.saveSemaphore key _⟩
      · refine .inr ⟨_, Runs.bind_fails (runs_timezoneNow w) (Runs.bind_fails
          (runs_addSeconds deadline _) (Fails.bind (fails_updateSlots
            (Bool.eq_false_of_not_eq_true fits)))), .range fun room => fits ?_⟩
        exact holds_release_of_countable room.2.1 room.2.2 room.1 key _ _

/-- Where no slots are counted, any number of them is owed. -/
theorem owing (good : Accounts a hand owed w.db) (untracked : a.tracked = none) (owed' : Nat) :
    Accounts a hand owed' w.db := by
  refine { good with slots := fun t tracked => ?_ }
  rw [untracked] at tracked
  cases tracked

/-- The release of a slot hands at most one over, or fails. -/
theorem releaseSlot_outcome (good : Accounts a hand owed w.db) (untracked : a.tracked = none)
    (key : String) (L duration : Int) :
    (∃ promoted w', Runs (DjQueue.releaseSlot a.env key L duration) w () w' ∧
      HandsOver a.backendAlias (· = key) promoted w.db w'.db ∧ Accounts a hand owed w'.db) ∨
    ∃ e, Fails (DjQueue.releaseSlot a.env key L duration) w e ∧
      SlotObstacle a.env.config.family w L duration e := by
  have agrees : a.Limit key L := by
    intro limit tracked
    rw [untracked] at tracked
    cases tracked
  have unblocks {w : World} (good : Accounts a hand owed w.db) (mode : SlotHandoffMode) :
      (∃ job promoted w', Runs (DjQueue.unblockNextBlockedJob a.env key L duration mode) w job w' ∧
        HandsOver a.backendAlias (· = key) promoted w.db w'.db ∧ Accounts a hand owed w'.db) ∨
      ∃ e, Fails (DjQueue.unblockNextBlockedJob a.env key L duration mode) w e ∧
        SlotObstacle a.env.config.family w L duration e := by
    rcases good.unblockNextBlockedJob_outcome key L duration mode with
      ⟨job, promoted, w', unblocked, hands⟩ | failed
    · left
      refine ⟨job, promoted, w', unblocked, hands, ?_⟩
      rcases unblockNextBlockedJob (good.owing untracked (0 + a.given key mode)) agrees unblocked
        with ⟨-, good'⟩ | ⟨-, good'⟩ <;> exact good'.owing untracked owed
    · exact .inr failed
  rcases unblocks good .releaseClaimed with
    ⟨first, promoted, w₁, unblocked, hands, good₁⟩ | ⟨e, failed, obstacle⟩
  · cases first with
    | some ref => exact .inl ⟨promoted, w₁, Runs.bind unblocked (runs_pure _ _), hands, good₁⟩
    | none =>
        have ticks₁ := (Advances.unblockNextBlockedJob _ _ _ _ _).of_run unblocked
        have keeps₁ (positive : 0 < L) (counts : a.env.config.family.counts L = true) :=
          UpholdsSlots.unblockNextBlockedJob (keepsCountable positive counts key _) _ _ _ unblocked
        rcases semaphoreRelease_outcome a.backendAlias (· = key) a.env key L duration w₁ with
          ⟨released, w₂, back, same⟩ | ⟨e, failed, obstacle⟩
        · have ticks₂ := ticks₁.trans ((Advances.semaphoreRelease _ _ _ _).of_run back)
          have keeps₂ (positive : 0 < L) (counts : a.env.config.family.counts L = true)
              (countable : CountableSlots a.env.config.family w.db.semaphores) :=
            upholds_semaphoreRelease positive counts a.env key duration _ _ _ back
              (keeps₁ positive counts countable)
          have good₂ : Accounts a hand owed w₂.db :=
            semaphoreRelease (good₁.owing untracked _) agrees back
          rcases unblocks good₂ .consumeReleased with
            ⟨second, promoted', w₃, again, hands', good₃⟩ | ⟨e, failed, obstacle⟩
          · exact .inl ⟨_, w₃, Runs.bind unblocked (Runs.bind back (Runs.bind again
              (runs_pure _ _))), (hands.trans same).trans hands', good₃⟩
          · exact .inr ⟨e, Runs.bind_fails unblocked (Runs.bind_fails back (Fails.bind failed)),
              obstacle.earlier ticks₂ keeps₂⟩
        · exact .inr ⟨e, Runs.bind_fails unblocked (Fails.bind failed),
            obstacle.earlier ticks₁ keeps₁⟩
  · exact .inr ⟨e, Fails.bind failed, obstacle⟩

end Accounts

/-! ## The slots of jobs -/

/-- Looking the job's policy up ends in an exception that a release does not expect. -/
def PolicyLookupRaises (env : Env) (job : Job) (e : PyError) : Prop :=
  concurrencySettingsForJob env job none = .error e ∧ ∀ message, e ≠ .dispatchPolicyError message

/-- The limit of the job's policy, if it resolves, can be counted. -/
def LimitCounts (env : Env) (job : Job) : Prop :=
  ∀ settings, concurrencySettingsForJob env job none = .ok settings →
    env.config.family.counts settings.limit = true

/-- How long the slot is given for that the job gives back. -/
def releaseDuration (env : Env) (job : Job) : Int :=
  match concurrencySettingsForJob env job none with
  | .ok settings => settings.durationSeconds
  | .error _ => env.config.defaultConcurrencyDuration

/-- Why the slot of a job cannot be given back: looking its policy up raises, or a deadline or a
number of slots cannot be computed. -/
inductive ReleaseObstacle (env : Env) (w : World) (job : Job) : PyError → Prop
  | policy {e : PyError} (raises : PolicyLookupRaises env job e) : ReleaseObstacle env w job e
  | deadline (n : Nat) (beyond : isDatetime (w.clock n + seconds (releaseDuration env job)) = false) :
      ReleaseObstacle env w job dateOutOfRange
  | range (beyond : ¬ (CountableSlots env.config.family w.db.semaphores ∧ LimitCounts env job)) :
      ReleaseObstacle env w job env.config.family.outOfRange

/-- One of the jobs holds a slot that cannot be given back. -/
def Obstructed (env : Env) (w : World) (jobs : List Job) (e : PyError) : Prop :=
  ∃ j ∈ jobs, j.slotKey ≠ none ∧ ReleaseObstacle env w j e

/-- Slots of these jobs were given back in between: the clock went on, and what could be counted can
still be counted, if their limits can. -/
structure SlotsGivenBack (env : Env) (jobs : List Job) (w w' : World) : Prop where
  ticks : Ticks w w'
  countable : (∀ j ∈ jobs, j.slotKey ≠ none → LimitCounts env j) →
    CountableSlots env.config.family w.db.semaphores →
    CountableSlots env.config.family w'.db.semaphores

/-- An obstruction in a part is one in the whole. -/
theorem Obstructed.mono {env : Env} {w : World} {jobs jobs' : List Job} {e : PyError}
    (obstructed : Obstructed env w jobs e) (inside : ∀ j ∈ jobs, j ∈ jobs') :
    Obstructed env w jobs' e := by
  rcases obstructed with ⟨j, mem, obstacle⟩
  exact ⟨j, inside j mem, obstacle⟩

/-- What is in the way later was in the way of these slots before, or of those. -/
theorem Obstructed.earlier {env : Env} {w w' : World} {before jobs : List Job} {e : PyError}
    (given : SlotsGivenBack env before w w') (later : Obstructed env w' jobs e) :
    Obstructed env w (before ++ jobs) e := by
  rcases later with ⟨j, mem, holds, obstacle⟩
  have here : j ∈ before ++ jobs := List.mem_append_right _ mem
  cases obstacle with
  | policy raises => exact ⟨j, here, holds, .policy raises⟩
  | deadline n beyond =>
      rcases given.ticks with ⟨k, shifted⟩
      rw [shifted] at beyond
      exact ⟨j, here, holds, .deadline _ beyond⟩
  | range beyond =>
      by_cases limits : ∀ i ∈ before, i.slotKey ≠ none → LimitCounts env i
      · refine ⟨j, here, holds, .range fun fits => beyond ⟨?_, fits.2⟩⟩
        exact given.countable limits fits.1
      · push Not at limits
        rcases limits with ⟨i, inside, holds, large⟩
        exact ⟨i, List.mem_append_left _ inside, holds, .range fun fits => large fits.2⟩

namespace SlotsGivenBack

variable {env : Env} {jobs jobs' : List Job} {w w' w'' : World}

theorem refl (env : Env) (jobs : List Job) (w : World) : SlotsGivenBack env jobs w w :=
  ⟨.refl w, fun _ countable => countable⟩

theorem trans (first : SlotsGivenBack env jobs w w') (second : SlotsGivenBack env jobs' w' w'') :
    SlotsGivenBack env (jobs ++ jobs') w w'' where
  ticks := first.ticks.trans second.ticks
  countable limits countable :=
    second.countable (fun j mem => limits j (List.mem_append_right _ mem))
      (first.countable (fun j mem => limits j (List.mem_append_left _ mem)) countable)

end SlotsGivenBack

/-! ## Settings -/

/-- The settings of a release are found, or the lookup raises. -/
theorem releaseSettings_outcome (env : Env) (job : Job) (key : String) (w : World) :
    (∃ settings, Runs (releaseSettings env job key none) w settings w) ∨
      ∃ e, Fails (releaseSettings env job key none) w e ∧ PolicyLookupRaises env job e := by
  cases looked : concurrencySettingsForJob env job none with
  | ok settings =>
      left
      refine ⟨(settings.limit, settings.durationSeconds), Runs.bind (runs_getDb w) ?_⟩
      rw [looked]
      exact runs_pure _ _
  | error e =>
      cases e with
      | dispatchPolicyError message =>
          left
          refine ⟨(semaphoreLimitOrOne w.db key, env.config.defaultConcurrencyDuration),
            Runs.bind (runs_getDb w) ?_⟩
          rw [looked]
          exact runs_pure _ _
      | _ =>
          right
          refine ⟨_, Runs.bind_fails (runs_getDb w) ?_, looked, nofun⟩
          rw [looked]
          exact Fails.of_throw _ _

/-- The limit of a row can be counted, and so can the one slot where there is no row. -/
theorem CountableSlots.limitOrOne {family : BackendFamily} {db : Db}
    (countable : CountableSlots family db.semaphores) (key : String) :
    0 < semaphoreLimitOrOne db key ∧ family.counts (semaphoreLimitOrOne db key) = true := by
  have one : family.counts 1 = true := by cases family <;> rfl
  unfold semaphoreLimitOrOne
  cases found : db.findSemaphore key with
  | none => exact ⟨Int.zero_lt_one, one⟩
  | some r =>
      rcases countable r (mem_of_findSemaphore found).1 with ⟨-, -, nonneg, counts⟩
      simp only [Option.map_some]
      split
      · exact ⟨Int.zero_lt_one, one⟩
      · exact ⟨Int.zero_lt_one, one⟩
      · rename_i nonzero same
        cases same
        exact ⟨lt_of_le_of_ne nonneg fun zero => nonzero zero.symm, counts⟩

/-- What a job's slot is given back under. -/
theorem settings_of_run {env : Env} {job : Job} {key : String} {settings : Int × Int}
    {w w' : World} (run : Runs (releaseSettings env job key none) w settings w') :
    w' = w ∧ settings.2 = releaseDuration env job ∧
      (CountableSlots env.config.family w.db.semaphores → LimitCounts env job →
        0 < settings.1 ∧ env.config.family.counts settings.1 = true) := by
  rcases Runs.of_bind run with ⟨db, w₁, got, rest⟩
  rcases of_run_getDb got with ⟨rfl, rfl⟩
  unfold releaseDuration LimitCounts
  split at rest
  · rename_i looked
    rcases Runs.of_pure rest with ⟨rfl, rfl⟩
    rw [looked]
    refine ⟨rfl, rfl, fun _ limit => ⟨?_, limit _ rfl⟩⟩
    exact (positive_of_concurrencySettingsForJob looked).1
  · rename_i looked
    rcases Runs.of_pure rest with ⟨rfl, rfl⟩
    rw [looked]
    exact ⟨rfl, rfl, fun countable _ => countable.limitOrOne key⟩
  · exact (Runs.of_throw rest).elim

/-- What is in the way of the slot is in the way of the job. -/
theorem ReleaseObstacle.of_slot {env : Env} {job : Job} {key : String} {settings : Int × Int}
    {w : World} {e : PyError} (looked : Runs (releaseSettings env job key none) w settings w)
    (obstacle : SlotObstacle env.config.family w settings.1 settings.2 e) :
    ReleaseObstacle env w job e := by
  rcases settings_of_run looked with ⟨-, duration, counts⟩
  cases obstacle with
  | deadline n beyond =>
      rw [duration] at beyond
      exact .deadline n beyond
  | range beyond => exact .range fun fits => beyond ⟨fits.1, counts fits.1 fits.2⟩

/-- A release that returned gave the slot back. -/
theorem SlotsGivenBack.of_run_releaseConcurrencySlot {env : Env} {job : Job} {w w' : World}
    (run : Runs (releaseConcurrencySlot env job none) w () w') :
    SlotsGivenBack env [job] w w' where
  ticks := (Advances.releaseConcurrencySlot env job none).of_run run
  countable limits countable := by
    unfold releaseConcurrencySlot at run
    cases slot : job.slotKey with
    | none =>
        rw [slot] at run
        rw [(Runs.of_pure run).2]
        exact countable
    | some key =>
        rw [slot] at run
        rcases Runs.of_bind run with ⟨settings, w₁, looked, released⟩
        rcases settings_of_run looked with ⟨rfl, -, counts⟩
        have limit := limits job List.mem_cons_self (by rw [slot]; exact Option.some_ne_none key)
        have room := counts countable limit
        exact upholds_releaseSlot room.1 room.2 env key _ _ _ _ released countable

namespace Accounts

variable {a : Audit} {hand : List JobId} {owed : Nat} {w : World}

/-- The release of a job's slot returns, or something is in its way. -/
theorem releaseConcurrencySlot_outcome (good : Accounts a hand owed w.db)
    (untracked : a.tracked = none) (job : Job) :
    (∃ promoted w', Runs (DjQueue.releaseConcurrencySlot a.env job none) w () w' ∧
        HandsOver a.backendAlias (fun k => job.concurrencyKey = some k) promoted w.db w'.db ∧
        Accounts a hand owed w'.db) ∨
      ∃ e, Fails (DjQueue.releaseConcurrencySlot a.env job none) w e ∧
        Obstructed a.env w [job] e := by
  unfold DjQueue.releaseConcurrencySlot
  cases slot : job.slotKey with
  | none => exact .inl ⟨[], w, runs_pure _ _, HandsOver.refl _, good⟩
  | some key =>
      dsimp only
      have own : job.concurrencyKey = some key := (Option.filter_eq_some_iff.mp slot).1
      have holds : job.slotKey ≠ none := by
        rw [slot]
        exact Option.some_ne_none key
      rcases releaseSettings_outcome a.env job key w with ⟨settings, looked⟩ | ⟨e, failed, raised⟩
      · rcases good.releaseSlot_outcome untracked key settings.1 settings.2 with
          ⟨promoted, w', released, hands, good'⟩ | ⟨e, failed, obstacle⟩
        · left
          refine ⟨promoted, w', Runs.bind looked released, hands.mono ?_, good'⟩
          rintro k rfl
          exact own
        · exact .inr ⟨e, Runs.bind_fails looked failed, job, List.mem_cons_self, holds,
            .of_slot looked obstacle⟩
      · exact .inr ⟨e, Fails.bind failed, job, List.mem_cons_self, holds, .policy raised⟩

theorem releaseAll_outcome : ∀ {w : World}, Accounts a hand owed w.db →
    ∀ jobs : List Job, a.tracked = none →
    (∃ promoted w', Runs (DjQueue.releaseAll a.env jobs) w () w' ∧
        HandsOver a.backendAlias (fun k => ∃ j ∈ jobs, j.concurrencyKey = some k) promoted
          w.db w'.db ∧ Accounts a hand owed w'.db) ∨
      ∃ e, Fails (DjQueue.releaseAll a.env jobs) w e ∧ Obstructed a.env w jobs e
  | w, good, [], _ => .inl ⟨[], w, runs_pure _ _, HandsOver.refl _, good⟩
  | w, good, job :: jobs, untracked => by
      rcases good.releaseConcurrencySlot_outcome untracked job with
        ⟨promoted, w₁, first, hands, good₁⟩ | ⟨e, failed, obstructed⟩
      · rcases good₁.releaseAll_outcome jobs untracked with
          ⟨promoted', w₂, rest, hands', good₂⟩ | ⟨e, failed, obstructed⟩
        · left
          refine ⟨_, w₂, Runs.bind first rest, (hands.mono ?_).trans (hands'.mono ?_), good₂⟩
          · exact fun k own => ⟨job, List.mem_cons_self, own⟩
          · rintro k ⟨j, mem, own⟩
            exact ⟨j, List.mem_cons_of_mem _ mem, own⟩
        · exact .inr ⟨e, Runs.bind_fails first failed,
            obstructed.earlier (.of_run_releaseConcurrencySlot first)⟩
      · refine .inr ⟨e, Fails.bind failed, obstructed.mono fun j mem => ?_⟩
        rw [List.mem_singleton.mp mem]
        exact List.mem_cons_self

end Accounts

/-! ## Groups -/

theorem runs_bulkCreateReadyExecutions_from {rows : List ReadyExecution} {w : World}
    (jobs : ∀ r ∈ rows, (w.db.findJob r.jobId).isSome) (free : ∀ r ∈ rows, Stateless w.db r.jobId)
    (nodup : (rows.map ReadyExecution.jobId).Nodup) :
    ∃ w', Runs (bulkCreateReadyExecutions rows true) w () w' := by
  unfold bulkCreateReadyExecutions
  cases rows with
  | nil => exact ⟨w, rfl⟩
  | cons row rows =>
      rw [if_neg (by simp)]
      have stateless : ∀ id ∈ (row :: rows).map ReadyExecution.jobId, ∀ m, m ∉ [] →
          w.db.hasState m id = false := by
        intro id mem m _
        rcases List.mem_map.mp mem with ⟨r, inside, rfl⟩
        exact free r inside m
      rcases runs_bulkCreate_from (m := .ready) _ w (fun r mem => ⟨jobs r mem, free r mem .ready⟩)
        nodup with ⟨stamped, nextId, w', created, -, -⟩
      exact ⟨w', Runs.bind (runs_ensureJobIdsHaveNoOtherExecutionState stateless) created⟩

namespace Accounts

variable {a : Audit} {hand : List JobId} {owed : Nat} {w : World}

theorem validWaiters (good : Accounts a hand owed w.db) (key : String) :
    ValidWaiters w.db a.env.config.backendAlias key :=
  ⟨good.waitersNumbered, fun _ mem => good.own_of_waiter mem, fun _ mem => good.free_of_waiter mem⟩

/-- Waiters that were selected once each become ready. -/
theorem runs_promoteWaiters (good : Accounts a hand owed w.db) (key : String)
    {promoted : List (BlockedExecution × Job)}
    (inside : ∀ x ∈ promoted, x ∈ waitersOf w.db a.env.config.backendAlias key)
    (ids : (promoted.map (fun x => x.1.id)).Nodup)
    (jobIds : (promoted.map (fun x => x.1.jobId)).Nodup) (now : Time) :
    ∃ db rows, Runs (consumeSelectedRows a.env .blocked
        (fun r : BlockedExecution × Job => r.1.id) promoted) w promoted { w with db := db } ∧
      promoted.mapM (fun r => readyExecutionRow r.2.ref a.env.config.backendAlias
        (some r.1.queueName) (some r.1.priority) now) = .ok rows ∧
      ∀ f clock, ∃ w', Runs (DjQueue.bulkCreateReadyExecutions rows true)
        ⟨db.saveSemaphore key f, clock, w.uuids⟩ () w' := by
  have valid := good.validWaiters key
  have consumed := runs_consumeSelectedRows (m := .blocked) a.env
    (fun r : BlockedExecution × Job => r.1.id) promoted w
    (fun x mem => ⟨x.1, (mem_waitersOf.mp (inside x mem)).1, rfl⟩) ids
  generalize taken : w.db.setTable .blocked (without (m := .blocked) (w.db.table .blocked)
    (promoted.map (fun x => x.1.id))) = db₁ at consumed
  have built : promoted.mapM (fun r => readyExecutionRow r.2.ref a.env.config.backendAlias
      (some r.1.queueName) (some r.1.priority) now) =
      .ok (promoted.map (unstampedRow a.env.config.backendAlias now)) :=
    mapM_eq_ok fun x mem => readyExecutionRow_waiter (valid.own x (inside x mem))
      (mem_of_findJob (mem_waitersOf.mp (inside x mem)).2.2.2).2 now
  have jobs (f : Semaphore → Semaphore) :
      ∀ row ∈ promoted.map (unstampedRow a.env.config.backendAlias now),
        ((db₁.saveSemaphore key f).findJob row.jobId).isSome := by
    intro row mem
    rcases List.mem_map.mp mem with ⟨x, here, rfl⟩
    rw [← taken]
    exact Option.isSome_iff_exists.mpr ⟨x.2, (mem_waitersOf.mp (inside x here)).2.2.2⟩
  have stateless (f : Semaphore → Semaphore) :
      ∀ row ∈ promoted.map (unstampedRow a.env.config.backendAlias now),
        Stateless (db₁.saveSemaphore key f) row.jobId := by
    intro row mem
    rcases List.mem_map.mp mem with ⟨x, here, rfl⟩
    have others : ∀ m ≠ StateModel.blocked,
        (db₁.saveSemaphore key f).table m = w.db.table m := by
      intro m other
      rw [← taken]
      cases m with
      | blocked => exact absurd rfl other
      | _ => rfl
    exact stateless_taken valid (inside x here) others (by rw [← taken]; rfl)
      (List.mem_map.mpr ⟨x, here, rfl⟩)
  have distinct : ((promoted.map (unstampedRow a.env.config.backendAlias now)).map
      ReadyExecution.jobId).Nodup := by
    rw [List.map_map]
    exact jobIds
  refine ⟨db₁, _, consumed, built, fun f clock => ?_⟩
  exact runs_bulkCreateReadyExecutions_from (jobs f) (stateless f) distinct

/-- The slots of a group are given back, unless they cannot be computed. -/
theorem releaseRecoveredConcurrencyGroup_outcome (good : Accounts a hand owed w.db) (key : String)
    (n : Nat) (L duration : Int) :
    (∃ jobs w',
      Runs (DjQueue.releaseRecoveredConcurrencyGroup a.env key n L duration) w jobs w') ∨
    ∃ e, Fails (DjQueue.releaseRecoveredConcurrencyGroup a.env key n L duration) w e ∧
      SlotObstacle a.env.config.family w L duration e := by
  have valid := good.validWaiters key
  cases deadline : isDatetime (w.clock 0 + seconds duration) with
  | false =>
      exact .inr ⟨_, Runs.bind_fails (runs_timezoneNow w) (Fails.bind (fails_addSeconds deadline _)),
        .deadline 0 deadline⟩
  | true =>
  generalize rows : (waitersOf w.db a.env.config.backendAlias key).take n = blockedRows
  have inside : ∀ x ∈ blockedRows, x ∈ waitersOf w.db a.env.config.backendAlias key := by
    intro x mem
    rw [← rows] at mem
    exact List.mem_of_mem_take mem
  have checked : ∀ w₁ : World, Runs (ensureStateRowsBelongToBackend (m := .blocked) blockedRows
      a.env.config.backendAlias) w₁ () w₁ := fun _ =>
    runs_ensureStateRowsBelongToBackend fun x mem => valid.own x (inside x mem)
  have distinct {γ : Type} {column : BlockedExecution → γ}
      (all : ((waitersOf w.db a.env.config.backendAlias key).map (fun x => column x.1)).Nodup)
      (count : Int) : ((pySlice count blockedRows).map (fun x => column x.1)).Nodup := by
    rw [← rows]
    exact all.sublist (((List.take_sublist _ _).trans (List.take_sublist n _)).map _)
  cases semaphore : w.db.findSemaphore key with
  | none =>
      refine .inl ⟨[], ⟨w.db, fun n => w.clock (n + 1), w.uuids⟩, Runs.bind (runs_timezoneNow w)
        (Runs.bind (runs_addSeconds deadline _) (Runs.bind (runs_getDb _) ?_))⟩
      dsimp only
      rw [rows, semaphore]
      exact Runs.bind (checked _) (runs_pure _ _)
  | some r =>
      generalize counted : min (min (n : Int) (groupAvailable n L r)) blockedRows.length = count
      have good' : Accounts a hand owed
          (World.mk w.db (fun n => w.clock (n + 1)) w.uuids).db := good
      rcases good'.runs_promoteWaiters key (fun x mem => inside x (List.mem_of_mem_take mem))
        (distinct (ids_waitersOf valid.places a.env.config.backendAlias key) count)
        (distinct (nodup_waitersOf valid.places.jobs a.env.config.backendAlias key) count)
        (w.clock 0) with ⟨db, readyRows, consumed, built, creates⟩
      cases fits : (groupReleaseRow L (groupAvailable n L r) (pySlice count blockedRows).length
          (w.clock 0 + seconds duration) (w.clock 1) r).columns.all a.env.config.family.holds with
      | true =>
          rcases creates (groupReleaseRow L (groupAvailable n L r)
            (pySlice count blockedRows).length (w.clock 0 + seconds duration) (w.clock 1))
              (fun n => w.clock (n + 1 + 1)) with ⟨w', created⟩
          refine .inl ⟨(pySlice count blockedRows).map Prod.snd, w', Runs.bind (runs_timezoneNow w)
            (Runs.bind (runs_addSeconds deadline _) (Runs.bind (runs_getDb _) ?_))⟩
          dsimp only
          rw [rows, semaphore]
          refine Runs.bind (checked _) ?_
          dsimp only
          rw [counted]
          exact Runs.bind consumed (Runs.bind (runs_timezoneNow _) (Runs.bind
            (runs_ensureFits fits _) (Runs.bind (runs_modifyDb _ _)
              (Runs.bind (runs_ofExcept built _) (Runs.bind created (runs_pure _ _))))))
      | false =>
          refine .inr ⟨a.env.config.family.outOfRange, Runs.bind_fails (runs_timezoneNow w)
            (Runs.bind_fails (runs_addSeconds deadline _) (Runs.bind_fails (runs_getDb _) ?_)),
            .range fun room => ?_⟩
          · dsimp only
            rw [rows, semaphore]
            refine Runs.bind_fails (checked _) ?_
            dsimp only
            rw [counted]
            exact Runs.bind_fails consumed (Runs.bind_fails (runs_timezoneNow _)
              (Fails.bind (fails_ensureFits fits _)))
          · have some : groupAvailable n L r ≤ L ∧ 0 ≤ groupAvailable n L r := by
              have positive := room.2.1
              unfold groupAvailable
              omega
            have fewer : ((pySlice count blockedRows).length : Int) ≤ groupAvailable n L r := by
              rw [pySlice, List.length_take]
              split <;> omega
            rw [holds_groupReleaseRow (BackendFamily.holds_of_counts room.2.1.le room.2.2) fewer
              (Int.natCast_nonneg _) some.1] at fits
            cases fits

end Accounts

/-- A lookup that raises ends the release. -/
theorem fails_releaseSettings {env : Env} {job : Job} {e : PyError} (key : String) (w : World)
    (raises : PolicyLookupRaises env job e) : Fails (releaseSettings env job key none) w e := by
  rcases raises with ⟨looked, unexpected⟩
  apply Runs.bind_fails (runs_getDb w)
  rw [looked]
  cases e with
  | dispatchPolicyError message => exact absurd rfl (unexpected message)
  | _ => exact Fails.of_throw _ _

/-- A release that returned had its settings. -/
theorem not_raises_of_runs {env : Env} {job : Job} {key : String} {settings : Int × Int}
    {w w' : World} (run : Runs (releaseSettings env job key none) w settings w') (e : PyError) :
    ¬PolicyLookupRaises env job e := fun raises => by
  rcases fails_releaseSettings key w raises with ⟨w'', raised⟩
  rw [Runs, show releaseSettings env job key none w = .error e w'' from raised] at run
  cases run

/-- The settings of all jobs of a group are looked up, unless one of the lookups raises. -/
theorem releaseSettingsOfAll_outcome (env : Env) (key : String) (w : World) : ∀ jobs : List Job,
    (∃ settings, Runs (releaseSettingsOfAll env key jobs) w settings w) ∨
      ∃ e, Fails (releaseSettingsOfAll env key jobs) w e ∧ ∃ j ∈ jobs, PolicyLookupRaises env j e
  | [] => .inl ⟨[], runs_pure _ _⟩
  | job :: jobs => by
      rcases releaseSettings_outcome env job key w with ⟨settings, looked⟩ | ⟨e, failed, raises⟩
      · rcases releaseSettingsOfAll_outcome env key w jobs with
          ⟨others, rest⟩ | ⟨e, failed, j, mem, raises⟩
        · exact .inl ⟨settings :: others, Runs.bind looked (Runs.bind rest (runs_pure _ _))⟩
        · exact .inr ⟨e, Runs.bind_fails looked (Fails.bind failed), j,
            List.mem_cons_of_mem _ mem, raises⟩
      · exact .inr ⟨e, Fails.bind failed, job, List.mem_cons_self, raises⟩

theorem not_raises_of_runs_ofAll {env : Env} {key : String} : ∀ {jobs : List Job}
    {settings : List (Int × Int)} {w w' : World},
    Runs (releaseSettingsOfAll env key jobs) w settings w' →
    ∀ j ∈ jobs, ∀ e, ¬PolicyLookupRaises env j e
  | [], _, _, _, _, j, mem => absurd mem List.not_mem_nil
  | job :: jobs, settings, w, w', run, j, mem => by
      rcases Runs.of_bind run with ⟨first, w₁, looked, rest⟩
      rcases Runs.of_bind rest with ⟨others, w₂, tail, -⟩
      rcases List.mem_cons.mp mem with rfl | mem
      · exact not_raises_of_runs looked
      · exact not_raises_of_runs_ofAll tail j mem

/-- Each settings of a group are those of one of its jobs. -/
theorem exists_of_mem_releaseSettingsOfAll {env : Env} {key : String} : ∀ {jobs : List Job}
    {settings : List (Int × Int)} {w w' : World},
    Runs (releaseSettingsOfAll env key jobs) w settings w' → w' = w ∧
      ∀ s ∈ settings, ∃ j ∈ jobs, Runs (releaseSettings env j key none) w s w
  | [], _, _, _, run => by
      rcases Runs.of_pure run with ⟨rfl, rfl⟩
      exact ⟨rfl, fun s mem => absurd mem List.not_mem_nil⟩
  | job :: jobs, settings, w, w', run => by
      rcases Runs.of_bind run with ⟨first, w₁, looked, rest₁⟩
      rcases Runs.of_bind rest₁ with ⟨others, w₂, tail, rest₂⟩
      rcases Runs.of_pure rest₂ with ⟨rfl, rfl⟩
      obtain ⟨rfl, -, -⟩ := settings_of_run looked
      obtain ⟨rfl, found⟩ := exists_of_mem_releaseSettingsOfAll tail
      refine ⟨rfl, fun s mem => ?_⟩
      rcases List.mem_cons.mp mem with rfl | mem
      · exact ⟨job, List.mem_cons_self, looked⟩
      · rcases found s mem with ⟨j, inside, same⟩
        exact ⟨j, List.mem_cons_of_mem _ inside, same⟩

/-- A group whose jobs agree is given back under the settings of one of them. -/
theorem exists_of_distinct {env : Env} {key : String} {jobs : List Job}
    {settings : List (Int × Int)} {limit duration : Int} {w w' : World}
    (run : Runs (releaseSettingsOfAll env key jobs) w settings w')
    (same : distinct settings = [(limit, duration)]) :
    w' = w ∧ ∃ j ∈ jobs, Runs (releaseSettings env j key none) w (limit, duration) w := by
  have mem : (limit, duration) ∈ distinct settings := same ▸ List.mem_cons_self
  obtain ⟨unchanged, found⟩ := exists_of_mem_releaseSettingsOfAll run
  exact ⟨unchanged, found _ (mem_distinct.mp mem)⟩

/-- A group that returned gave its slots back. -/
theorem SlotsGivenBack.of_run_releaseRecoveredGroup {env : Env} {key : String} {jobs : List Job}
    {fallback : List Job} {w w' : World} (slots : ∀ j ∈ jobs, j.slotKey ≠ none)
    (run : Runs (releaseRecoveredGroup env key jobs) w fallback w') :
    SlotsGivenBack env jobs w w' where
  ticks := (Advances.releaseRecoveredGroup env key jobs).of_run run
  countable limits countable := by
    rcases Runs.of_bind run with ⟨settings, w₁, looked, rest⟩
    split at rest
    · rename_i limit duration same
      rcases exists_of_distinct looked same with ⟨rfl, j, mem, one⟩
      rcases settings_of_run one with ⟨-, -, counts⟩
      have room := counts countable (limits j mem (slots j mem))
      rcases Runs.of_bind rest with ⟨promoted, w₂, released, done⟩
      rw [(Runs.of_pure done).2]
      exact upholds_releaseRecoveredConcurrencyGroup room.1 room.2 env key _ _ _ _ _ released
        countable
    · obtain ⟨rfl, -⟩ := exists_of_mem_releaseSettingsOfAll looked
      rw [(Runs.of_pure rest).2]
      exact countable

theorem SlotsGivenBack.of_run_releaseRecoveredGroups {env : Env} :
    ∀ {groups : List (String × List Job)} {fallback : List Job} {w w' : World},
      (∀ g ∈ groups, ∀ j ∈ g.2, j.slotKey ≠ none) →
      Runs (releaseRecoveredGroups env groups) w fallback w' →
      SlotsGivenBack env (groups.flatMap Prod.snd) w w'
  | [], _, _, _, _, run => by
      rw [(Runs.of_pure run).2]
      exact .refl ..
  | (key, jobs) :: groups, fallback, w, w', slots, run => by
      rcases Runs.of_bind run with ⟨first, w₁, head, rest₁⟩
      rcases Runs.of_bind rest₁ with ⟨others, w₂, tail, rest₂⟩
      rw [(Runs.of_pure rest₂).2, List.flatMap_cons]
      exact (of_run_releaseRecoveredGroup (slots _ List.mem_cons_self) head).trans
        (of_run_releaseRecoveredGroups (fun g mem => slots g (List.mem_cons_of_mem _ mem)) tail)

namespace Accounts

variable {a : Audit} {hand : List JobId} {owed : Nat}

/-- The release of a group returns, or something is in its way. -/
theorem releaseRecoveredGroup_outcome {w : World} (good : Accounts a hand owed w.db)
    (untracked : a.tracked = none) {key : String} {jobs : List Job}
    (members : ∀ j ∈ jobs, a.Knows j ∧ j.concurrencyKey = some key)
    (slots : ∀ j ∈ jobs, j.slotKey ≠ none) :
    (∃ fallback w', Runs (DjQueue.releaseRecoveredGroup a.env key jobs) w fallback w' ∧
        (∀ j ∈ fallback, j ∈ jobs) ∧ Accounts a hand owed w'.db) ∨
      ∃ e, Fails (DjQueue.releaseRecoveredGroup a.env key jobs) w e ∧
        Obstructed a.env w jobs e := by
  have returns : (∃ fallback w', Runs (DjQueue.releaseRecoveredGroup a.env key jobs) w fallback w') ∨
      ∃ e, Fails (DjQueue.releaseRecoveredGroup a.env key jobs) w e ∧
        Obstructed a.env w jobs e := by
    rcases releaseSettingsOfAll_outcome a.env key w jobs with
      ⟨settings, looked⟩ | ⟨e, failed, j, mem, raises⟩
    · unfold DjQueue.releaseRecoveredGroup
      by_cases alone : ∃ limit duration, distinct settings = [(limit, duration)]
      · rcases alone with ⟨limit, duration, same⟩
        rcases good.releaseRecoveredConcurrencyGroup_outcome key jobs.length limit duration with
          ⟨promoted, w', released⟩ | ⟨e, failed, obstacle⟩
        · refine .inl ⟨[], w', Runs.bind looked ?_⟩
          rw [same]
          exact Runs.bind released (runs_pure _ _)
        · rcases exists_of_distinct looked same with ⟨-, j, mem, one⟩
          refine .inr ⟨e, Runs.bind_fails looked ?_, j, mem, slots j mem, .of_slot one obstacle⟩
          rw [same]
          exact Fails.bind failed
      · refine .inl ⟨jobs, w, Runs.bind looked ?_⟩
        split
        · rename_i limit duration same
          exact absurd ⟨limit, duration, same⟩ alone
        · exact runs_pure _ _
    · exact .inr ⟨e, Fails.bind failed, j, mem, slots j mem, .policy raises⟩
  rcases returns with ⟨fallback, w', run⟩ | failed
  · rcases (good.owing untracked (owed + (jobs.map a.jobSlot).sum)).releaseRecoveredGroup
      (fun j mem => (members j mem).1) (fun j mem => (members j mem).2) run with ⟨inside, good'⟩
    exact .inl ⟨fallback, w', run, inside, good'.owing untracked owed⟩
  · exact .inr failed

theorem releaseRecoveredGroups_outcome : ∀ {groups : List (String × List Job)} {w : World},
    Accounts a hand owed w.db → a.tracked = none →
    (∀ g ∈ groups, ∀ j ∈ g.2, a.Knows j ∧ j.concurrencyKey = some g.1) →
    (∀ g ∈ groups, ∀ j ∈ g.2, j.slotKey ≠ none) →
    (∃ fallback w', Runs (DjQueue.releaseRecoveredGroups a.env groups) w fallback w' ∧
        (∀ j ∈ fallback, j ∈ groups.flatMap Prod.snd) ∧ Accounts a hand owed w'.db) ∨
      ∃ e, Fails (DjQueue.releaseRecoveredGroups a.env groups) w e ∧
        Obstructed a.env w (groups.flatMap Prod.snd) e
  | [], w, good, _, _, _ =>
      .inl ⟨[], w, runs_pure _ _, fun j mem => absurd mem List.not_mem_nil, good⟩
  | (key, jobs) :: groups, w, good, untracked, members, slots => by
      rw [List.flatMap_cons]
      have here := slots _ List.mem_cons_self
      rcases good.releaseRecoveredGroup_outcome untracked (members _ List.mem_cons_self) here with
        ⟨first, w₁, head, inside, good₁⟩ | ⟨e, failed, obstructed⟩
      · rcases good₁.releaseRecoveredGroups_outcome untracked
          (fun g mem => members g (List.mem_cons_of_mem _ mem))
          (fun g mem => slots g (List.mem_cons_of_mem _ mem)) with
          ⟨others, w₂, tail, inside', good₂⟩ | ⟨e, failed, obstructed⟩
        · refine .inl ⟨first ++ others, w₂, Runs.bind head (Runs.bind tail (runs_pure _ _)), ?_,
            good₂⟩
          intro j mem
          rcases List.mem_append.mp mem with mem | mem
          · exact List.mem_append_left _ (inside j mem)
          · exact List.mem_append_right _ (inside' j mem)
        · exact .inr ⟨e, Runs.bind_fails head (Fails.bind failed),
            obstructed.earlier (.of_run_releaseRecoveredGroup here head)⟩
      · exact .inr ⟨e, Fails.bind failed,
          obstructed.mono fun j mem => List.mem_append_left _ mem⟩

end Accounts

/-- The groups that returned had their settings. -/
theorem not_raises_of_runs_groups {env : Env} : ∀ {groups : List (String × List Job)}
    {fallback : List Job} {w w' : World}, Runs (releaseRecoveredGroups env groups) w fallback w' →
    ∀ j ∈ groups.flatMap Prod.snd, ∀ e, ¬PolicyLookupRaises env j e
  | [], _, _, _, _, j, mem => absurd mem List.not_mem_nil
  | (key, jobs) :: groups, fallback, w, w', run, j, mem => by
      rcases Runs.of_bind run with ⟨first, w₁, head, rest⟩
      rcases Runs.of_bind rest with ⟨others, w₂, tail, -⟩
      rcases Runs.of_bind head with ⟨settings, w₃, looked, -⟩
      rw [List.flatMap_cons] at mem
      rcases List.mem_append.mp mem with mem | mem
      · exact not_raises_of_runs_ofAll looked j mem
      · exact not_raises_of_runs_groups tail j mem

/-! ## Recovered slots -/

/-- The job holds a slot that cannot be given back: looking its policy up raises. -/
def ReleaseRaises (env : Env) (job : Job) : Prop :=
  job.slotKey ≠ none ∧ ∃ e, PolicyLookupRaises env job e

/-- The jobs that have a slot to give back. -/
theorem mem_slotJobs {jobs : List Job} {j : Job} :
    j ∈ (slotJobs jobs).map Prod.snd ↔ j ∈ jobs ∧ j.slotKey ≠ none := by
  rw [slotJobs, List.mem_map]
  constructor
  · rintro ⟨pair, mem, rfl⟩
    rcases List.mem_filterMap.mp mem with ⟨j, there, made⟩
    rcases Option.map_eq_some_iff.mp made with ⟨key, slot, rfl⟩
    exact ⟨there, by rw [slot]; exact Option.some_ne_none key⟩
  · rintro ⟨there, holds⟩
    rcases Option.ne_none_iff_exists'.mp holds with ⟨key, slot⟩
    refine ⟨(key, j), List.mem_filterMap.mpr ⟨j, there, ?_⟩, rfl⟩
    rw [slot]
    rfl

/-- The groups of the jobs that hold slots. -/
theorem mem_groups {jobs : List Job} {j : Job} :
    j ∈ ((groupBy Prod.fst (slotJobs jobs)).map (fun g => (g.1, g.2.map Prod.snd))).flatMap
      Prod.snd ↔ j ∈ jobs ∧ j.slotKey ≠ none :=
  ((Accounts.perm_groups jobs).mem_iff (a := j)).trans mem_slotJobs

/-- The groups of jobs of the backend are released one after the other. -/
theorem releaseRecoveredConcurrencySlots_eq {env : Env} {jobs : List Job}
    (own : ∀ j ∈ jobs, j.backendAlias = env.config.backendAlias) :
    releaseRecoveredConcurrencySlots env jobs = releaseRecoveredGroups env
      ((groupBy Prod.fst (slotJobs jobs)).map (fun g => (g.1, g.2.map Prod.snd))) := by
  unfold releaseRecoveredConcurrencySlots
  rw [List.find?_eq_none.mpr fun j mem => by simpa using own j mem]

/-- The releases of several jobs that returned. -/
theorem SlotsGivenBack.of_run_releaseAll {env : Env} : ∀ {jobs : List Job} {w w' : World},
    Runs (releaseAll env jobs) w () w' → SlotsGivenBack env jobs w w'
  | [], _, _, run => by
      rw [(Runs.of_pure run).2]
      exact .refl ..
  | _ :: _, _, _, run => by
      rcases Runs.of_bind run with ⟨u, w₁, first, rest⟩
      exact (of_run_releaseConcurrencySlot first).trans (of_run_releaseAll rest)

/-- Recovered slots are all given back, unless one of them cannot be. -/
theorem Accounts.releaseFallback_outcome {a : Audit} {hand : List JobId} {owed : Nat} {w : World}
    (good : Accounts a hand owed w.db) (untracked : a.tracked = none) {jobs : List Job}
    (knows : ∀ j ∈ jobs, a.Knows j) (own : ∀ j ∈ jobs, j.backendAlias = a.backendAlias) :
    (∃ w', Runs (DjQueue.releaseFallback a.env jobs) w () w' ∧ Accounts a hand owed w'.db ∧
        SlotsGivenBack a.env jobs w w' ∧ ∀ j ∈ jobs, ¬ReleaseRaises a.env j) ∨
      ∃ e, Fails (DjQueue.releaseFallback a.env jobs) w e ∧ Obstructed a.env w jobs e := by
  have members := members_of_groups knows
  have slots := fun j => @mem_groups jobs j
  have grouped := @releaseRecoveredConcurrencySlots_eq a.env jobs own
  generalize (groupBy Prod.fst (slotJobs jobs)).map (fun g => (g.1, g.2.map Prod.snd)) = groups
    at members slots grouped
  have held : ∀ g ∈ groups, ∀ j ∈ g.2, j.slotKey ≠ none :=
    fun g mem j here => ((slots j).mp (List.mem_flatMap.mpr ⟨g, mem, here⟩)).2
  unfold DjQueue.releaseFallback
  rw [grouped]
  rcases good.releaseRecoveredGroups_outcome untracked members held with
    ⟨fallback, w₁, released, left, good₁⟩ | ⟨e, failed, obstructed⟩
  · have quiet := not_raises_of_runs_groups released
    have given := SlotsGivenBack.of_run_releaseRecoveredGroups held released
    have inside : ∀ j ∈ groups.flatMap Prod.snd ++ fallback, j ∈ jobs := by
      intro j mem
      rcases List.mem_append.mp mem with grouped | alone
      · exact ((slots j).mp grouped).1
      · exact ((slots j).mp (left j alone)).1
    rcases good₁.releaseAll_outcome fallback untracked with
      ⟨promoted, w₂, rest, -, good₂⟩ | ⟨e, failed, obstructed⟩
    · have both := given.trans (.of_run_releaseAll rest)
      refine .inl ⟨w₂, Runs.bind released rest, good₂, ⟨both.ticks, fun limits =>
        both.countable fun j mem => limits j (inside j mem)⟩, ?_⟩
      rintro j there ⟨holds, e, raises⟩
      exact quiet j ((slots j).mpr ⟨there, holds⟩) e raises
    · exact .inr ⟨e, Runs.bind_fails released failed, (obstructed.earlier given).mono inside⟩
  · exact .inr ⟨e, Fails.bind failed, obstructed.mono fun j mem => ((slots j).mp mem).1⟩

end DjQueue
