import DjQueue.Relational.TwoRuns
import DjQueue.Slots.EvaluationOrder
import DjQueue.Slots.Handoffs

/-!
# Two ways to hand a claimed slot over

PostgreSQL locks the first waiter, gives it the slot and deletes it in one statement.  Elsewhere the
waiter is deleted first, asks for the slot, and is put back on a new row when there is none.
-/

namespace DjQueue

open Relational

/-! ## What is compared -/

/-- The waiters, their row numbers aside. -/
def Db.unnumberedWaiters (db : Db) : List BlockedExecution :=
  db.blocked.rows.map (fun r => { r with id := 0 })

/-- The key's row, the ready rows, and the waiters up to their row numbers. -/
structure SameSlotsAndWaiters (key : String) (w w' : World) : Prop where
  semaphore : w.db.findSemaphore key = w'.db.findSemaphore key
  ready : w.db.ready = w'.db.ready
  waiters : w.db.unnumberedWaiters.Perm w'.db.unnumberedWaiters

/-- The sessions return the same job, or raise the same exception, and leave the same; where no
waiter gets a slot they leave what they found. -/
def HandoffsAgree (key : String) (x y : Op (Option JobRef)) (w : World) : Prop :=
  Alike (SameSlotsAndWaiters key) Eq (x w) (y w) ∧
    ∀ w', Runs y w none w' → SameSlotsAndWaiters key w w'

/-- Both ways to hand over do the same with a waiter of the backend: it gets the slot, and the
columns are computed on a database or on a row where their order does not matter, unless its job is
stuck in a second state table and both sessions raise; or it is refused and its job is in no other
state table. -/
def handsOverAlike (env : Env) (key : String) (L : Int) (db : Db) (id : JobId) : Prop :=
  if gives db key .releaseClaimed L then
    db.hasOtherState id = true ∨ env.config.family.evaluationOrder = .simultaneous ∨
      ∀ r, db.findSemaphore key = some r → handoffOrderFree L r
  else db.hasOtherState id = false

/-- What the hand-off of a slot computes is in range on both databases, and they hand over alike; or
it is in range on neither, and they raise the same. -/
def computedAlike (env : Env) (key : String) (L duration : Int) (now : Time) (db : Db) (id : JobId) :
    Prop :=
  (HandoffFits .postgresql db key .releaseClaimed L duration now ∧
      HandoffFits env.config.family db key .releaseClaimed L duration now ∧
      handsOverAlike env key L db id) ∨
    (¬ HandoffFits .postgresql db key .releaseClaimed L duration now ∧
      ¬ HandoffFits env.config.family db key .releaseClaimed L duration now ∧
      env.config.family.outOfRange = BackendFamily.outOfRange .postgresql)

/-- A waiter of another backend is refused by both, unless PostgreSQL's statement raises before.
Where the deadline is no time both raise the same; elsewhere what is computed decides. -/
def pathsMeetAt (env : Env) (key : String) (L duration : Int) (now : Time) (db : Db)
    (x : BlockedExecution × Job) : Prop :=
  if x.2.backendAlias = env.config.backendAlias then
    isDatetime (now + seconds duration) = true →
      computedAlike env key L duration now db x.1.jobId
  else Computable .postgresql db key .releaseClaimed L duration now

/-- Nobody waits, and PostgreSQL's statement can be asked; or the paths meet at the waiter that is
looked at. -/
def handoffPathsMeet (env : Env) (key : String) (L duration : Int) (now : Time) (db : Db) : Prop :=
  match waitersOf db env.config.backendAlias key with
  | [] => isDatetime (now + seconds duration) = true ∧ int4 L = true
  | x :: _ => pathsMeetAt env key L duration now db x

/-! ## The key's row -/

/-- Where the row hands its slot over, both orders leave the same row exactly where `active_count`
comes out the same. -/
theorem handoff_rows_agree_iff {L : Int} (positive : 0 < L) (expiresAt now : Time) {r : Semaphore}
    (given : r.limit - L - 1 < r.value) :
    (handoffReleasedClaimedSlotUpdate L expiresAt now).run .simultaneous r =
        (handoffReleasedClaimedSlotUpdate L expiresAt now).run .leftToRight r ↔
      handoffOrderFree L r := by
  have hit : (handoffReleasedClaimedSlotUpdate L expiresAt now).filter r = true :=
    decide_eq_true given
  have rows : (handoffReleasedClaimedSlotUpdate L expiresAt now).run .simultaneous r =
      (handoffReleasedClaimedSlotUpdate L expiresAt now).run .leftToRight r ↔
      releasedAvailable L r = releasedAvailable L { r with value := releasedAvailable L r - 1 } := by
    rw [Update.run, if_pos hit, Update.run, if_pos hit]
    constructor
    · intro same
      have counts := congrArg Semaphore.activeCount same
      simp only [assign, handoffReleasedClaimedSlotUpdate, Semaphore.setValue,
        Semaphore.setActiveCount, Semaphore.setLimit, Semaphore.setExpiresAt,
        Semaphore.setUpdatedAt, List.foldl_cons, List.foldl_nil, Option.some.injEq] at counts
      omega
    · intro same
      simp only [assign, handoffReleasedClaimedSlotUpdate, Semaphore.setValue,
        Semaphore.setActiveCount, Semaphore.setLimit, Semaphore.setExpiresAt,
        Semaphore.setUpdatedAt, List.foldl_cons, List.foldl_nil]
      rw [← same]
  rw [rows]
  unfold releasedAvailable handoffOrderFree
  dsimp only
  omega

/-! ## The two sessions -/

section Sessions

variable {env : Env} {key : String} {L duration : Int} {mode : SlotHandoffMode} {w : World}
  {x : BlockedExecution × Job} {rest : List (BlockedExecution × Job)} {e : PyError}

/-- A session that rolls back and fails. -/
theorem eq_error_of_fails {α : Type} {op : Op α} (rollsBack : RollsBack op) (fails : Fails op w e) :
    ∃ w', op w = .error e w' ∧ w'.db = w.db := by
  rcases fails with ⟨w', raised⟩
  exact ⟨w', raised, rollsBack _ _ _ raised⟩

theorem rollsBack_unblockNextBlockedJob (env : Env) (key : String) (L duration : Int)
    (mode : SlotHandoffMode) : RollsBack (unblockNextBlockedJob env key L duration mode) :=
  RollsBack.bind Reads.timezoneNow fun _ => RollsBack.atomic _

/-- What fails in a transaction fails. -/
theorem fails_transactionAtomic {α : Type} {op : Op α} (body : Fails op w e) :
    Fails (transactionAtomic op) w e := by
  rcases raises_transactionAtomic body with ⟨w', raised, -⟩
  exact ⟨w', raised⟩

/-- The hand-off fails where its consumption does. -/
theorem fails_unblockNextBlockedJob
    (raised : Fails (consumeBlockedJobForSlot env mode key L duration (w.clock 0)) w.tick e) :
    Fails (unblockNextBlockedJob env key L duration mode) w e :=
  Runs.bind_fails (runs_timezoneNow w) (fails_transactionAtomic (Fails.bind raised))

/-- Only PostgreSQL's statement computes anything for a waiter of another backend. -/
theorem fails_unblockNextBlockedJob_foreign (numbered : SemaphoresNumbered w.db.semaphores)
    (computable : env.config.family = .postgresql →
      Computable .postgresql w.db key .releaseClaimed L duration (w.clock 0))
    (waiters : waitersOf w.db env.config.backendAlias key = x :: rest)
    (foreign : x.2.backendAlias ≠ env.config.backendAlias) :
    Fails (unblockNextBlockedJob env key L duration mode) w
      (belongsToBackend x.1.jobId x.2.backendAlias) := by
  apply fails_unblockNextBlockedJob
  unfold consumeBlockedJobForSlot
  split
  · rename_i path
    exact fails_consumeBlockedJobOnPostgres_foreign (w := w.tick) L duration _ numbered
      (computable path.2) waiters foreign
  · exact fails_consumeBlockedJobPortably_foreign mode L duration _ waiters foreign

/-- The waiter gets the slot, and then cannot become ready. -/
theorem fails_unblockNextBlockedJob_stateful (numbered : SemaphoresNumbered w.db.semaphores)
    (computable : Computable env.config.family w.db key mode L duration (w.clock 0))
    (waiters : waitersOf w.db env.config.backendAlias key = x :: rest)
    (own : x.2.backendAlias = env.config.backendAlias) (given : gives w.db key mode L = true)
    (stateful : w.db.hasOtherState x.1.jobId = true) :
    Fails (unblockNextBlockedJob env key L duration mode) w (alreadyHasState x.1.jobId) := by
  refine Runs.bind_fails (runs_timezoneNow w) (fails_transactionAtomic ?_)
  refine Runs.bind_fails
    (runs_consumeBlockedJobForSlot_given (w := w.tick) _ numbered computable waiters own given) ?_
  exact Fails.bind (fails_insertReadyAfterBlockedConsume _ _ stateful)

/-- On PostgreSQL a refusal writes nothing. -/
theorem runs_unblockNextBlockedJob_refused_onPostgres (onPostgres : env.config.family = .postgresql)
    (numbered : SemaphoresNumbered w.db.semaphores)
    (computable : Computable .postgresql w.db key .releaseClaimed L duration (w.clock 0))
    (waiters : waitersOf w.db env.config.backendAlias key = x :: rest)
    (own : x.2.backendAlias = env.config.backendAlias)
    (refused : gives w.db key .releaseClaimed L = false) :
    Runs (unblockNextBlockedJob env key L duration .releaseClaimed) w none w.tick := by
  have consumed := runs_consumeBlockedJobOnPostgres (w := w.tick) L duration (w.clock 0) numbered
    computable waiters own
  have left : gives w.tick.db key .releaseClaimed L = false := refused
  rw [left, if_neg Bool.false_ne_true] at consumed
  refine Runs.bind (runs_timezoneNow w) (runs_atomic ?_)
  unfold consumeBlockedJobForSlot
  rw [if_pos ⟨rfl, onPostgres⟩]
  exact Runs.bind consumed (runs_pure _ _)

/-- Elsewhere it puts the waiter on a new row. -/
theorem runs_unblockNextBlockedJob_refused
    (portable : ¬ (mode = .releaseClaimed ∧ env.config.family = .postgresql))
    (numbered : SemaphoresNumbered w.db.semaphores) (places : WaitersNumbered w.db.blocked)
    (computable : Computable env.config.family w.db key mode L duration (w.clock 0))
    (waiters : waitersOf w.db env.config.backendAlias key = x :: rest)
    (own : x.2.backendAlias = env.config.backendAlias) (refused : gives w.db key mode L = false)
    (free : w.db.hasOtherState x.1.jobId = false) :
    Runs (unblockNextBlockedJob env key L duration mode) w none
      { w.tick.tick with
        db := (w.db.withoutWaiter x.1).withRestored env.config.backendAlias x.1 } := by
  refine Runs.bind (runs_timezoneNow w) (runs_atomic ?_)
  unfold consumeBlockedJobForSlot
  rw [if_neg portable]
  exact Runs.bind (runs_consumeBlockedJobPortably_refused (w := w.tick) mode L duration _ numbered
    places computable waiters own refused free) (runs_pure _ _)

/-- A refused slot puts the waiter back, which fails where its job has another state row. -/
theorem fails_unblockNextBlockedJob_refused
    (portable : ¬ (mode = .releaseClaimed ∧ env.config.family = .postgresql))
    (numbered : SemaphoresNumbered w.db.semaphores)
    (computable : Computable env.config.family w.db key mode L duration (w.clock 0))
    (waiters : waitersOf w.db env.config.backendAlias key = x :: rest)
    (own : x.2.backendAlias = env.config.backendAlias) (refused : gives w.db key mode L = false)
    (stateful : w.db.hasOtherState x.1.jobId = true) :
    Fails (unblockNextBlockedJob env key L duration mode) w (alreadyHasState x.1.jobId) := by
  apply fails_unblockNextBlockedJob
  unfold consumeBlockedJobForSlot
  rw [if_neg portable]
  exact fails_consumeBlockedJobPortably_stateful (w := w.tick) mode L duration _ numbered
    computable waiters own refused stateful

/-- A hand-off whose deadline is no time. -/
theorem fails_unblockNextBlockedJob_deadline
    (beyond : isDatetime (w.clock 0 + seconds duration) = false)
    (asks : (mode = .releaseClaimed ∧ env.config.family = .postgresql) ∨
      ∃ x rest, waitersOf w.db env.config.backendAlias key = x :: rest ∧
        x.2.backendAlias = env.config.backendAlias) :
    Fails (unblockNextBlockedJob env key L duration mode) w dateOutOfRange := by
  apply fails_unblockNextBlockedJob
  unfold consumeBlockedJobForSlot
  split
  · exact Fails.bind (fails_consumeNextBlockedJobWithReleasedSlot_deadline L beyond)
  · rename_i portable
    obtain ⟨x, rest, waiters, own⟩ := asks.resolve_left portable
    exact fails_consumeBlockedJobPortably_asked (w := w.tick) waiters own
      (fails_acquireHandoffSlot_deadline key env mode L beyond _)

/-- A hand-off that computes a number out of range. -/
theorem fails_unblockNextBlockedJob_numbers
    (deadline : isDatetime (w.clock 0 + seconds duration) = true)
    (beyond : ¬ HandoffFits env.config.family w.db key mode L duration (w.clock 0))
    (waiters : waitersOf w.db env.config.backendAlias key = x :: rest)
    (own : x.2.backendAlias = env.config.backendAlias) :
    Fails (unblockNextBlockedJob env key L duration mode) w env.config.family.outOfRange := by
  apply fails_unblockNextBlockedJob
  unfold consumeBlockedJobForSlot
  split
  · rename_i path
    rw [path.1, path.2] at beyond
    rw [path.2]
    exact Fails.bind (fails_consumeNextBlockedJobWithReleasedSlot_numbers (w := w.tick) deadline
      beyond waiters)
  · exact fails_consumeBlockedJobPortably_asked (w := w.tick) waiters own
      (fails_acquireHandoffSlot_numbers deadline beyond)

/-- A hand-off whose numbers are in range returns, or finds the waiter's job in a second state. -/
theorem unblockNextBlockedJob_outcome (numbered : SemaphoresNumbered w.db.semaphores)
    (places : WaitersNumbered w.db.blocked)
    (computable : Computable env.config.family w.db key mode L duration (w.clock 0))
    (waiters : waitersOf w.db env.config.backendAlias key = x :: rest)
    (own : x.2.backendAlias = env.config.backendAlias) :
    (∃ job w', Runs (unblockNextBlockedJob env key L duration mode) w job w') ∨
      Fails (unblockNextBlockedJob env key L duration mode) w (alreadyHasState x.1.jobId) := by
  cases given : gives w.db key mode L with
  | true =>
      cases stateful : w.db.hasOtherState x.1.jobId with
      | true => exact .inr (fails_unblockNextBlockedJob_stateful numbered computable waiters own
          given stateful)
      | false => exact .inl ⟨_, _, runs_unblockNextBlockedJob_given numbered computable waiters own
          given stateful⟩
  | false =>
      by_cases path : mode = .releaseClaimed ∧ env.config.family = .postgresql
      · rw [path.1] at given ⊢
        rw [path.1, path.2] at computable
        exact .inl ⟨_, _, runs_unblockNextBlockedJob_refused_onPostgres path.2 numbered computable
          waiters own given⟩
      cases stateful : w.db.hasOtherState x.1.jobId with
      | true => exact .inr (fails_unblockNextBlockedJob_refused path numbered computable waiters own
          given stateful)
      | false => exact .inl ⟨_, _, runs_unblockNextBlockedJob_refused path numbered places
          computable waiters own given stateful⟩

theorem alreadyHasState_ne_outOfRange (id : JobId) (family : BackendFamily) :
    alreadyHasState id ≠ family.outOfRange := by
  cases family <;> nofun

/-- A waiter that is back is the waiter it was. -/
theorem unnumberedWaiters_restored {db : Db} (places : WaitersNumbered db.blocked)
    {blocked : BlockedExecution} (mem : blocked ∈ db.blocked.rows) :
    db.unnumberedWaiters.Perm
      ((db.withoutWaiter blocked).withRestored blocked.backendAlias blocked).unnumberedWaiters := by
  have moved := ((Db.perm_withoutWaiter places mem).trans
    (List.perm_append_singleton blocked _).symm).map
      (fun r : BlockedExecution => { r with id := 0 })
  unfold Db.unnumberedWaiters
  rw [Db.withRestored, Table.rows_insert, List.map_append]
  rw [List.map_append] at moved
  exact moved

end Sessions

/-! ## The theorem -/

section Paths

variable {pg portable : Env} {key : String} {L duration : Int} {w w' : World}

theorem SameSlotsAndWaiters.refl (key : String) {w w' : World} (same : w'.db = w.db) :
    SameSlotsAndWaiters key w w' := by
  refine ⟨?_, ?_, ?_⟩ <;> rw [same]

theorem SameSlotsAndWaiters.symm (same : SameSlotsAndWaiters key w w') :
    SameSlotsAndWaiters key w' w :=
  ⟨same.semaphore.symm, same.ready.symm, same.waiters.symm⟩

theorem semaphoreAfter_of_alike {x y : Op (Option JobRef)}
    (alike : Alike (SameSlotsAndWaiters key) Eq (x w) (y w)) :
    semaphoreAfter x w key = semaphoreAfter y w key := by
  unfold semaphoreAfter finalState
  generalize x w = left at alike ⊢
  generalize y w = right at alike ⊢
  cases alike with
  | ok _ same => exact same.semaphore
  | error same => exact same.semaphore

/-- Both raise the same and roll back. -/
theorem handoffsAgree_of_fails {x y : Op (Option JobRef)} {e : PyError} (left : Fails x w e)
    (right : Fails y w e) (undone : RollsBack x) (undone' : RollsBack y) :
    HandoffsAgree key x y w := by
  rcases eq_error_of_fails undone left with ⟨s, first, same⟩
  rcases eq_error_of_fails undone' right with ⟨t, second, same'⟩
  refine ⟨?_, fun w' run => ?_⟩
  · rw [first, second]
    exact .error (.refl key (same'.trans same.symm))
  · rw [Runs, second] at run
    cases run

/-- The tables a hand-over leaves only differ in the key's row. -/
theorem sameSlotsAndWaiters_handedOver (positive : 0 < L)
    (onPostgres : pg.config.family = .postgresql)
    (backend : pg.config.backendAlias = portable.config.backendAlias) (now : Time)
    (blocked : BlockedExecution) (given : gives w.db key .releaseClaimed L = true) :
    SameSlotsAndWaiters key
        { w.tick with db := handedOver w.db pg key .releaseClaimed L duration now blocked }
        { w.tick with db := handedOver w.db portable key .releaseClaimed L duration now blocked } ↔
      portable.config.family.evaluationOrder = .simultaneous ∨
        ∀ r, w.db.findSemaphore key = some r → handoffOrderFree L r := by
  rcases (Option.any_eq_true _ _).mp given with ⟨r, found, accepted⟩
  have accepted : r.limit - L - 1 < r.value := of_decide_eq_true accepted
  have agree := handoff_rows_agree_iff positive (now + seconds duration) now accepted
  have simultaneous : pg.config.family.evaluationOrder = .simultaneous := by
    rw [onPostgres]
    rfl
  have rows : (handedOver w.db pg key .releaseClaimed L duration now blocked).findSemaphore key =
      (handedOver w.db portable key .releaseClaimed L duration now blocked).findSemaphore key ↔
      portable.config.family.evaluationOrder = .simultaneous ∨
        ∀ r, w.db.findSemaphore key = some r → handoffOrderFree L r := by
    rw [findSemaphore_handedOver, findSemaphore_handedOver, found, simultaneous, Option.map_some,
      Option.map_some, Option.some.injEq]
    cases order : portable.config.family.evaluationOrder with
    | simultaneous => simp
    | leftToRight =>
        refine agree.trans ?_
        simp
  rw [← rows]
  constructor
  · exact fun same => same.semaphore
  · intro same
    refine ⟨same, ?_, .refl _⟩
    simp only [handedOver, Db.withPromoted, backend]
    rfl

section Waiter

variable {x : BlockedExecution × Job} {rest : List (BlockedExecution × Job)}
  (onPostgres : pg.config.family = .postgresql) (elsewhere : portable.config.family ≠ .postgresql)
  (backend : pg.config.backendAlias = portable.config.backendAlias)
  (numbered : SemaphoresNumbered w.db.semaphores)
  (waiters : waitersOf w.db portable.config.backendAlias key = x :: rest)
  (own : x.2.backendAlias = portable.config.backendAlias)

section Computable

variable (computable : Computable .postgresql w.db key .releaseClaimed L duration (w.clock 0))
  (computable' : Computable portable.config.family w.db key .releaseClaimed L duration (w.clock 0))

include onPostgres backend numbered waiters own computable computable'

/-- The waiter gets the slot on both paths. -/
theorem handoffsAgree_given_iff (positive : 0 < L) (given : gives w.db key .releaseClaimed L = true)
    (free : w.db.hasOtherState x.1.jobId = false) :
    HandoffsAgree key (unblockNextBlockedJob pg key L duration .releaseClaimed)
        (unblockNextBlockedJob portable key L duration .releaseClaimed) w ↔
      portable.config.family.evaluationOrder = .simultaneous ∨
        ∀ r, w.db.findSemaphore key = some r → handoffOrderFree L r := by
  have first : Runs (unblockNextBlockedJob pg key L duration .releaseClaimed) w
      (some (blockedJobRef x.1 pg.config.backendAlias))
      { w.tick with db := handedOver w.db pg key .releaseClaimed L duration (w.clock 0) x.1 } :=
    runs_unblockNextBlockedJob_given numbered (onPostgres ▸ computable) (backend ▸ waiters)
      (own.trans backend.symm) given free
  have second : Runs (unblockNextBlockedJob portable key L duration .releaseClaimed) w
      (some (blockedJobRef x.1 portable.config.backendAlias))
      { w.tick with
        db := handedOver w.db portable key .releaseClaimed L duration (w.clock 0) x.1 } :=
    runs_unblockNextBlockedJob_given numbered computable' waiters own given free
  rw [← sameSlotsAndWaiters_handedOver positive onPostgres backend (w.clock 0) x.1 given]
  constructor
  · rintro ⟨alike, -⟩
    exact ((alike_iff_of_runs first second).mp alike).2
  · intro same
    refine ⟨(alike_iff_of_runs first second).mpr ⟨by rw [backend], same⟩, fun w' run => ?_⟩
    cases (Runs.unique second run).1

include elsewhere

/-- The waiter is refused on both paths. -/
theorem handoffsAgree_refused_iff (places : WaitersNumbered w.db.blocked)
    (refused : gives w.db key .releaseClaimed L = false) :
    HandoffsAgree key (unblockNextBlockedJob pg key L duration .releaseClaimed)
        (unblockNextBlockedJob portable key L duration .releaseClaimed) w ↔
      w.db.hasOtherState x.1.jobId = false := by
  have inside := (mem_waitersOf (x := x)).mp (by rw [waiters]; exact List.mem_cons_self)
  have offPostgres : ¬ (SlotHandoffMode.releaseClaimed = .releaseClaimed ∧
      portable.config.family = .postgresql) := fun path => elsewhere path.2
  have first : Runs (unblockNextBlockedJob pg key L duration .releaseClaimed) w none w.tick :=
    runs_unblockNextBlockedJob_refused_onPostgres onPostgres numbered computable
      (backend ▸ waiters) (own.trans backend.symm) refused
  cases stateful : w.db.hasOtherState x.1.jobId with
  | true =>
      refine iff_of_false (fun agree => ?_) (by decide)
      exact not_alike_of_fails first (fails_unblockNextBlockedJob_refused offPostgres numbered
        computable' waiters own refused stateful) agree.1
  | false =>
      have second : Runs (unblockNextBlockedJob portable key L duration .releaseClaimed) w none
          { w.tick.tick with
            db := (w.db.withoutWaiter x.1).withRestored portable.config.backendAlias x.1 } :=
        runs_unblockNextBlockedJob_refused offPostgres numbered places computable' waiters own
          refused stateful
      have same : SameSlotsAndWaiters key w { w.tick.tick with
          db := (w.db.withoutWaiter x.1).withRestored portable.config.backendAlias x.1 } := by
        refine ⟨rfl, rfl, ?_⟩
        rw [← inside.2.1]
        exact unnumberedWaiters_restored places inside.1
      have same' : SameSlotsAndWaiters key w.tick { w.tick.tick with
          db := (w.db.withoutWaiter x.1).withRestored portable.config.backendAlias x.1 } :=
        ⟨same.semaphore, same.ready, same.waiters⟩
      refine iff_of_true ⟨(alike_iff_of_runs first second).mpr ⟨rfl, same'⟩, fun w' run => ?_⟩ rfl
      rw [(Runs.unique second run).2]
      exact same

/-- What both paths compute is in range. -/
theorem handoffsAgree_computable_iff (positive : 0 < L) (places : WaitersNumbered w.db.blocked) :
    HandoffsAgree key (unblockNextBlockedJob pg key L duration .releaseClaimed)
        (unblockNextBlockedJob portable key L duration .releaseClaimed) w ↔
      handsOverAlike portable key L w.db x.1.jobId := by
  unfold handsOverAlike
  cases given : gives w.db key .releaseClaimed L with
  | true =>
      rw [if_pos rfl]
      cases stateful : w.db.hasOtherState x.1.jobId with
      | true =>
          have raised : Fails (unblockNextBlockedJob pg key L duration .releaseClaimed) w _ :=
            fails_unblockNextBlockedJob_stateful numbered (onPostgres ▸ computable)
              (backend ▸ waiters) (own.trans backend.symm) given stateful
          have raised' : Fails (unblockNextBlockedJob portable key L duration
              .releaseClaimed) w _ :=
            fails_unblockNextBlockedJob_stateful numbered computable' waiters own given stateful
          exact iff_of_true (handoffsAgree_of_fails raised raised'
            (rollsBack_unblockNextBlockedJob _ _ _ _ _) (rollsBack_unblockNextBlockedJob _ _ _ _ _))
            (.inl rfl)
      | false =>
          rw [handoffsAgree_given_iff onPostgres backend numbered waiters own computable computable'
            positive given stateful]
          simp
  | false =>
      rw [if_neg Bool.false_ne_true]
      exact handoffsAgree_refused_iff onPostgres elsewhere backend numbered waiters own computable
        computable' places given

end Computable

include onPostgres elsewhere backend numbered waiters own in
/-- The waiter is asked for, and the deadline is a time. -/
theorem handoffsAgree_own_iff (positive : 0 < L) (places : WaitersNumbered w.db.blocked)
    (deadline : isDatetime (w.clock 0 + seconds duration) = true) :
    HandoffsAgree key (unblockNextBlockedJob pg key L duration .releaseClaimed)
        (unblockNextBlockedJob portable key L duration .releaseClaimed) w ↔
      computedAlike portable key L duration (w.clock 0) w.db x.1.jobId := by
  have undone := rollsBack_unblockNextBlockedJob pg key L duration .releaseClaimed
  have undone' := rollsBack_unblockNextBlockedJob portable key L duration .releaseClaimed
  have raised : ¬ HandoffFits .postgresql w.db key .releaseClaimed L duration (w.clock 0) →
      Fails (unblockNextBlockedJob pg key L duration .releaseClaimed) w
        (BackendFamily.outOfRange .postgresql) := by
    intro beyond
    rw [← onPostgres] at beyond ⊢
    exact fails_unblockNextBlockedJob_numbers deadline beyond (backend ▸ waiters)
      (own.trans backend.symm)
  have raised' : ¬ HandoffFits portable.config.family w.db key .releaseClaimed L duration
        (w.clock 0) →
      Fails (unblockNextBlockedJob portable key L duration .releaseClaimed) w
        portable.config.family.outOfRange :=
    fun beyond => fails_unblockNextBlockedJob_numbers deadline beyond waiters own
  unfold computedAlike
  by_cases fits : HandoffFits .postgresql w.db key .releaseClaimed L duration (w.clock 0) <;>
    by_cases fits' : HandoffFits portable.config.family w.db key .releaseClaimed L duration
      (w.clock 0)
  · rw [handoffsAgree_computable_iff onPostgres elsewhere backend numbered waiters own
      ⟨deadline, fits⟩ ⟨deadline, fits'⟩ positive places]
    simp [fits, fits']
  · refine iff_of_false (fun agree => ?_) (by simp [fits, fits'])
    have computable : Computable pg.config.family w.db key .releaseClaimed L duration
        (w.clock 0) := ⟨deadline, onPostgres ▸ fits⟩
    rcases unblockNextBlockedJob_outcome numbered places computable (backend ▸ waiters)
      (own.trans backend.symm) with ⟨job, w', run⟩ | stateful
    · exact not_alike_of_fails run (raised' fits') agree.1
    · exact alreadyHasState_ne_outOfRange _ _
        (eq_of_alike_of_fails stateful (raised' fits') agree.1)
  · refine iff_of_false (fun agree => ?_) (by simp [fits, fits'])
    rcases unblockNextBlockedJob_outcome numbered places ⟨deadline, fits'⟩ waiters own with
      ⟨job, w', run⟩ | stateful
    · have back : Alike (SameSlotsAndWaiters key) Eq _ _ := agree.1.symm SameSlotsAndWaiters.symm
      exact not_alike_of_fails run (raised fits) back
    · exact alreadyHasState_ne_outOfRange _ _
        (eq_of_alike_of_fails (raised fits) stateful agree.1).symm
  · constructor
    · intro agree
      exact .inr ⟨fits, fits', (eq_of_alike_of_fails (raised fits) (raised' fits') agree.1).symm⟩
    · rintro (⟨inRange, -, -⟩ | ⟨-, -, same⟩)
      · exact absurd inRange fits
      · exact handoffsAgree_of_fails (same ▸ raised fits) (raised' fits') undone undone'

/-- PostgreSQL's statement raises for a waiter that it cannot compute a slot for. -/
theorem fails_unblockNextBlockedJob_incomputable (onPostgres : pg.config.family = .postgresql)
    (waiters : waitersOf w.db pg.config.backendAlias key = x :: rest)
    (beyond : ¬ Computable .postgresql w.db key .releaseClaimed L duration (w.clock 0)) :
    ∃ e, Fails (unblockNextBlockedJob pg key L duration .releaseClaimed) w e ∧
      (e = dateOutOfRange ∨ e = BackendFamily.outOfRange .postgresql) := by
  cases deadline : isDatetime (w.clock 0 + seconds duration) with
  | false => exact ⟨_, fails_unblockNextBlockedJob_deadline deadline
      (.inl ⟨rfl, onPostgres⟩), .inl rfl⟩
  | true =>
      refine ⟨_, fails_unblockNextBlockedJob ?_, .inr rfl⟩
      unfold consumeBlockedJobForSlot
      rw [if_pos ⟨rfl, onPostgres⟩]
      exact Fails.bind (fails_consumeNextBlockedJobWithReleasedSlot_numbers (w := w.tick) deadline
        (fun fits => beyond ⟨deadline, fits⟩) waiters)

include onPostgres elsewhere backend numbered waiters in
/-- The waiter's job is of another backend. -/
theorem handoffsAgree_foreign_iff (foreign : x.2.backendAlias ≠ portable.config.backendAlias) :
    HandoffsAgree key (unblockNextBlockedJob pg key L duration .releaseClaimed)
        (unblockNextBlockedJob portable key L duration .releaseClaimed) w ↔
      Computable .postgresql w.db key .releaseClaimed L duration (w.clock 0) := by
  have refused : Fails (unblockNextBlockedJob portable key L duration .releaseClaimed) w _ :=
    fails_unblockNextBlockedJob_foreign numbered (fun path => absurd path elsewhere) waiters foreign
  constructor
  · intro agree
    by_contra beyond
    rcases fails_unblockNextBlockedJob_incomputable onPostgres (backend ▸ waiters) beyond with
      ⟨e, raised, rfl | rfl⟩
    · cases eq_of_alike_of_fails raised refused agree.1
    · cases eq_of_alike_of_fails raised refused agree.1
  · intro computable
    have refused' : Fails (unblockNextBlockedJob pg key L duration .releaseClaimed) w _ :=
      fails_unblockNextBlockedJob_foreign numbered (fun _ => computable) (backend ▸ waiters)
        (by rw [backend]; exact foreign)
    exact handoffsAgree_of_fails refused' refused (rollsBack_unblockNextBlockedJob _ _ _ _ _)
      (rollsBack_unblockNextBlockedJob _ _ _ _ _)

end Waiter

/-- Nobody waits. -/
theorem handoffsAgree_nobody_iff (onPostgres : pg.config.family = .postgresql)
    (elsewhere : portable.config.family ≠ .postgresql)
    (backend : pg.config.backendAlias = portable.config.backendAlias)
    (nobody : waitersOf w.db portable.config.backendAlias key = []) :
    HandoffsAgree key (unblockNextBlockedJob pg key L duration .releaseClaimed)
        (unblockNextBlockedJob portable key L duration .releaseClaimed) w ↔
      isDatetime (w.clock 0 + seconds duration) = true ∧ int4 L = true := by
  have second : Runs (unblockNextBlockedJob portable key L duration .releaseClaimed) w none
      w.tick := runs_unblockNextBlockedJob_nobody (fun path => absurd path.2 elsewhere) nobody
  constructor
  · intro agree
    by_contra beyond
    have raised : ∃ e, Fails (consumeBlockedJobForSlot pg .releaseClaimed key L duration
        (w.clock 0)) w.tick e := by
      unfold consumeBlockedJobForSlot
      rw [if_pos ⟨rfl, onPostgres⟩]
      cases deadline : isDatetime (w.clock 0 + seconds duration) with
      | false => exact ⟨_, Fails.bind
          (fails_consumeNextBlockedJobWithReleasedSlot_deadline L deadline)⟩
      | true => exact ⟨_, Fails.bind (fails_consumeNextBlockedJobWithReleasedSlot_limit deadline
          (Bool.eq_false_of_not_eq_true fun limit => beyond ⟨deadline, limit⟩))⟩
    rcases raised with ⟨e, raised⟩
    have back : Alike (SameSlotsAndWaiters key) Eq _ _ := agree.1.symm SameSlotsAndWaiters.symm
    exact not_alike_of_fails second (fails_unblockNextBlockedJob raised) back
  · intro fits
    have first : Runs (unblockNextBlockedJob pg key L duration .releaseClaimed) w none w.tick :=
      runs_unblockNextBlockedJob_nobody (fun _ => fits) (by rw [backend]; exact nobody)
    have same : SameSlotsAndWaiters key w.tick w.tick := .refl key rfl
    refine ⟨(alike_iff_of_runs first second).mpr ⟨rfl, same⟩, fun w' run => ?_⟩
    rw [(Runs.unique second run).2]
    exact .refl key rfl

/-- The hand-off in one statement and the portable one do the same exactly where
`handoffPathsMeet`, whatever the row, the limit, the duration and the waiters. -/
theorem handoff_paths_agree_iff (onPostgres : pg.config.family = .postgresql)
    (elsewhere : portable.config.family ≠ .postgresql)
    (backend : pg.config.backendAlias = portable.config.backendAlias) (positive : 0 < L)
    (numbered : SemaphoresNumbered w.db.semaphores) (places : WaitersNumbered w.db.blocked) :
    HandoffsAgree key (unblockNextBlockedJob pg key L duration .releaseClaimed)
        (unblockNextBlockedJob portable key L duration .releaseClaimed) w ↔
      handoffPathsMeet portable key L duration (w.clock 0) w.db := by
  have undone := rollsBack_unblockNextBlockedJob pg key L duration .releaseClaimed
  have undone' := rollsBack_unblockNextBlockedJob portable key L duration .releaseClaimed
  unfold handoffPathsMeet
  cases waiters : waitersOf w.db portable.config.backendAlias key with
  | nil =>
      exact handoffsAgree_nobody_iff onPostgres elsewhere backend waiters
  | cons x rest =>
      have waiters' : waitersOf w.db pg.config.backendAlias key = x :: rest := by
        rw [backend]
        exact waiters
      dsimp only
      unfold pathsMeetAt
      by_cases own : x.2.backendAlias = portable.config.backendAlias
      · rw [if_pos own]
        cases deadline : isDatetime (w.clock 0 + seconds duration) with
        | true =>
            rw [imp_iff_right rfl]
            exact handoffsAgree_own_iff onPostgres elsewhere backend numbered waiters own positive
              places deadline
        | false =>
            refine iff_of_true (handoffsAgree_of_fails
              (fails_unblockNextBlockedJob_deadline deadline
                (.inl ⟨rfl, onPostgres⟩))
              (fails_unblockNextBlockedJob_deadline deadline (.inr ⟨_, _, waiters, own⟩))
              undone undone') nofun
      · rw [if_neg own]
        exact handoffsAgree_foreign_iff onPostgres elsewhere backend numbered waiters own

end Paths

/-- A job that waits for its slot. -/
def handoffWaiter : Job where
  id := 7
  taskPath := "tasks.charge"
  queueName := "default"
  priority := 0
  payload := ⟨[], []⟩
  backendAlias := "default"
  scheduledAt := none
  concurrencyKey := some "account"
  concurrencyLimit := some 1
  concurrencyDuration := some 60
  concurrencyOnConflict := some "block"
  finishedAt := none
  returnValue := none

/-- The limit went from three to one while one of the slots was taken. -/
def shrunkSemaphore : World where
  db := { Db.empty with
    jobs := [handoffWaiter]
    blocked := ⟨[⟨1, 7, "default", "default", 0, "account", 60⟩], 2⟩
    semaphores := ⟨[⟨1, "account", 2, some 1, 3, 60, 0⟩], 2⟩ }
  clock := fun _ => 9
  uuids := fun _ => 0

/-- PostgreSQL counts one taken slot, MySQL two. -/
theorem handoff_paths_disagree_on_mysql : ¬ HandoffsAgree "account"
    (unblockNextBlockedJob (Env.ofConfig { family := .postgresql }) "account" 1 60 .releaseClaimed)
    (unblockNextBlockedJob (Env.ofConfig { family := .mysql }) "account" 1 60 .releaseClaimed)
    shrunkSemaphore := by
  rintro ⟨alike, -⟩
  have same := semaphoreAfter_of_alike alike
  revert same
  decide +kernel

/-- On SQLite the same hand-off leaves what PostgreSQL leaves. -/
theorem handoff_paths_agree_iff_on_shrunk_semaphore : HandoffsAgree "account"
    (unblockNextBlockedJob (Env.ofConfig { family := .postgresql }) "account" 1 60 .releaseClaimed)
    (unblockNextBlockedJob (Env.ofConfig { family := .sqlite }) "account" 1 60 .releaseClaimed)
    shrunkSemaphore := by
  have meet : handoffPathsMeet (Env.ofConfig { family := .sqlite }) "account" 1 60
      (shrunkSemaphore.clock 0) shrunkSemaphore.db :=
    fun _ => .inl ⟨by decide, by decide, .inr (.inl rfl)⟩
  exact (handoff_paths_agree_iff rfl (by decide) (by rfl) (by decide)
    ⟨by decide, by decide, by decide, by decide⟩ ⟨by decide, by decide, by decide⟩).mpr meet

end DjQueue
