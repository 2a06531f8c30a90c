import DjQueue.Operations.Retries
import DjQueue.System.Invariants

/-!
# Retried operations

The operations that hand their transaction to `retry_transient_database_errors`, on a database that
breaks transactions off at will.  Every attempt but the last was broken off and left nothing, so a
call comes to one attempt at a later time; whatever runs of such calls reach is reached without any
breakdown.
-/

namespace DjQueue

open Relational

/-! ## Attempts -/

section Attempts

variable {α : Type} {x : Op α} {s t : Exposed} {b : Breakdown}

theorem exposed_broken (breaks : s.breakdowns 0 = some b) :
    exposed x s = .error (.database b.error) ⟨s.world.later b, fun n => s.breakdowns (n + 1)⟩ := by
  simp only [exposed, breaks]

theorem exposed_runs {a : α} {w : World} (quiet : s.breakdowns 0 = none)
    (run : Runs x s.world a w) :
    Runs (exposed x) s a ⟨w, fun n => s.breakdowns (n + 1)⟩ := by
  simp only [Runs] at run
  simp only [Runs, exposed, quiet, run]

/-- The operation raising an error of its own. -/
theorem exposed_raises {e : PyError} {w : World} (quiet : s.breakdowns 0 = none)
    (raised : Raises x s.world e w) :
    Raises (exposed x) s (.own e) ⟨w, fun n => s.breakdowns (n + 1)⟩ := by
  simp only [Raises] at raised
  simp only [Raises, exposed, quiet, raised]

/-- What asks for another attempt is a breakdown, which changed no table. -/
theorem broken_of_retried {e : Raised} (raised : Raises (exposed x) s e t)
    (asks : e.retried = true) :
    ∃ b, s.breakdowns 0 = some b ∧ e = .database b.error ∧ t.world.db = s.world.db ∧
      t.breakdowns = fun n => s.breakdowns (n + 1) := by
  cases breaks : s.breakdowns 0 with
  | some b =>
      rw [Raises, exposed_broken breaks] at raised
      cases raised
      exact ⟨b, rfl, rfl, rfl, rfl⟩
  | none =>
      rcases runs_or_raises x s.world with ⟨a, run, -⟩ | ⟨e', own, -⟩
      · rw [Raises, show exposed x s = _ from exposed_runs breaks run] at raised
        cases raised
      · rw [Raises, show exposed x s = _ from exposed_raises breaks own] at raised
        cases raised
        cases asks

/-- The attempts that were broken off are the first ones, and they left the tables alone. -/
theorem broken_of_tried {k : Nat} (tried : Tried Raised.retried (exposed x) k s t) :
    t.world.db = s.world.db ∧ (t.breakdowns = fun n => s.breakdowns (n + k)) ∧
      ∀ i < k, ∃ b, s.breakdowns i = some b ∧ (Raised.database b.error).retried = true := by
  induction tried with
  | start s => exact ⟨rfl, rfl, fun _ less => absurd less (Nat.not_lt_zero _)⟩
  | @again k s m t e raised asks rest ih =>
      rcases broken_of_retried raised asks with ⟨b, breaks, rfl, same, shifted⟩
      rcases ih with ⟨same', shifted', earlier⟩
      rw [shifted] at shifted' earlier
      refine ⟨same'.trans same, ?_, ?_⟩
      · rw [shifted']
        funext n
        show s.breakdowns (n + k + 1) = s.breakdowns (n + (k + 1))
        rw [Nat.add_assoc]
      · intro i less
        cases i with
        | zero => exact ⟨b, breaks, asks⟩
        | succ i => exact earlier i (Nat.lt_of_succ_lt_succ less)

/-- How often the transaction may be tried again. -/
def Connection.retries (c : Connection) : Nat :=
  if c.callerOwned then 0 else transientDatabaseRetryAttempts - 1

/-- The retry loop is a bounded number of attempts. -/
theorem retry_eq_attempts (c : Connection) (operation : EStateM Raised Exposed α) :
    retryTransientDatabaseErrors c operation = attempts Raised.retried c.retries operation := by
  unfold retryTransientDatabaseErrors Connection.retries
  split <;> rfl

/-- What a retried transaction comes to after `k` breakdowns: a last one that is not retried, with
the tables as they were, or the transaction run once. -/
inductive Outcome (c : Connection) (x : Op α) (s : Exposed) (k : Nat) : Prop
  | broken {b : Breakdown} {t : Exposed} (breaks : s.breakdowns k = some b)
      (final : k < c.retries → (Raised.database b.error).retried = false)
      (raised : Raises (retryTransientDatabaseErrors c (exposed x)) s (.database b.error) t)
      (same : t.world.db = s.world.db)
  | returned {w w' : World} {rest : Nat → Option Breakdown} {a : α} (quiet : s.breakdowns k = none)
      (start : w.db = s.world.db) (run : Runs x w a w')
      (result : Runs (retryTransientDatabaseErrors c (exposed x)) s a ⟨w', rest⟩)
  | raised {w w' : World} {rest : Nat → Option Breakdown} {e : PyError}
      (quiet : s.breakdowns k = none) (start : w.db = s.world.db) (raises : Raises x w e w')
      (result : Raises (retryTransientDatabaseErrors c (exposed x)) s (.own e) ⟨w', rest⟩)

/-- Where the loop ends: after so many breakdowns. -/
theorem retry_outcome (c : Connection) (x : Op α) (s : Exposed) :
    ∃ k ≤ c.retries, (∀ i < k, ∃ b, s.breakdowns i = some b ∧
      (Raised.database b.error).retried = true) ∧ Outcome c x s k := by
  rcases @attempts_outcome _ _ _ Raised.retried (exposed x) c.retries s with
    ⟨k, t, le, tried, same, last⟩
  rcases broken_of_tried tried with ⟨db, shifted, earlier⟩
  have next : t.breakdowns 0 = s.breakdowns k := by
    rw [shifted]
    show s.breakdowns (0 + k) = s.breakdowns k
    rw [Nat.zero_add]
  rw [← retry_eq_attempts] at same
  refine ⟨k, le, earlier, ?_⟩
  cases breaks : s.breakdowns k with
  | some b =>
      have broken := exposed_broken (x := x) (next.trans breaks)
      exact .broken breaks (fun less => last less _ _ broken) (same.trans broken) db
  | none =>
      rcases runs_or_raises x t.world with ⟨a, run, -⟩ | ⟨e, raised, -⟩
      · exact .returned breaks db run (same.trans (exposed_runs (next.trans breaks) run))
      · exact .raised breaks db raised (same.trans (exposed_raises (next.trans breaks) raised))

end Attempts

/-! ## The operations that are retried -/

/-- A call that prepares itself and then makes one transaction, which is retried. -/
structure RetriedCall where
  Input : Type
  Output : Type
  prepare : Op Input
  transition : Input → Op Output
  reads : Reads prepare
  rollsBack : ∀ i, RollsBack (transition i)
  /-- Any later world could be the one the preparation has led to. -/
  resumes : ∀ w i w₁, Runs prepare w i w₁ → ∀ w', w'.db = w.db → ∃ v, v.db = w.db ∧
    Runs prepare v i w'

/-- The session without the breakdowns. -/
def unexposed {α : Type} (x : Op α) : EStateM Raised Exposed α := fun s =>
  match x s.world with
  | .ok a w => .ok a ⟨w, s.breakdowns⟩
  | .error e w => .error (.own e) ⟨w, s.breakdowns⟩

namespace RetriedCall

/-- The call on a database that breaks transactions off. -/
def run (call : RetriedCall) (c : Connection) : EStateM Raised Exposed call.Output := do
  let input ← unexposed call.prepare
  retryTransientDatabaseErrors c (exposed (call.transition input))

/-- The call without a loop around it. -/
def plain (call : RetriedCall) : Op call.Output := call.prepare >>= call.transition

/-- A call without preparations. -/
def ofTransition {α : Type} (x : Op α) (rollsBack : RollsBack x) : RetriedCall where
  Input := Unit
  Output := α
  prepare := pure ()
  transition _ := x
  reads := Reads.pure ()
  rollsBack _ := rollsBack
  resumes _ _ _ _ w' same := ⟨w', same, rfl⟩

/-- What is prepared depends on the arguments alone. -/
def ofExcept {ι α : Type} (arguments : Except PyError ι) (transition : ι → Op α)
    (rollsBack : ∀ i, RollsBack (transition i)) : RetriedCall where
  Input := ι
  Output := α
  prepare := MonadExcept.ofExcept arguments
  transition := transition
  reads := Reads.ofExcept arguments
  rollsBack := rollsBack
  resumes w i w₁ run w' same := by
    have ok : arguments = .ok i := (Runs.of_ofExcept run).1
    exact ⟨w', same, runs_ofExcept ok w'⟩

/-- The job of a claim is looked up first. -/
def ofClaim (env : Env) (arg : JobArg) (transition : Job → Op Unit)
    (rollsBack : ∀ job, RollsBack (transition job)) : RetriedCall where
  Input := Job
  Output := Unit
  prepare := resolveClaimedJob env arg
  transition := transition
  reads := Reads.resolveClaimedJob env arg
  rollsBack := rollsBack
  resumes w job w₁ run w' same := by
    refine ⟨w', same, ?_⟩
    cases arg with
    | job loaded =>
        simp only [resolveClaimedJob] at run ⊢
        split at run
        · exact (Runs.of_throw run).elim
        · rename_i own
          rw [if_neg own, (Runs.of_pure run).1]
          exact runs_pure _ _
    | pk id =>
        simp only [resolveClaimedJob] at run ⊢
        rcases Runs.of_bind run with ⟨db, w₂, got, rest⟩
        rcases of_run_getDb got with ⟨rfl, rfl⟩
        refine Runs.bind (runs_getDb w') ?_
        rw [same]
        split at rest
        · exact (Runs.of_throw rest).elim
        · rw [(Runs.of_pure rest).1]
          exact runs_pure _ _

/-- The time is read first. -/
def ofTime {α : Type} (transition : Time → Op α) (rollsBack : ∀ now, RollsBack (transition now)) :
    RetriedCall where
  Input := Time
  Output := α
  prepare := timezoneNow
  transition := transition
  reads := Reads.timezoneNow
  rollsBack := rollsBack
  resumes w now w₁ run w' same := by
    refine ⟨{ w' with clock := fun n => Nat.casesOn n now w'.clock }, same, ?_⟩
    exact runs_timezoneNow _

end RetriedCall

/-- The operations that are retried, each split where its transaction begins. -/
def JobOperation.retriedCall (env : Env) : JobOperation → Option RetriedCall
  | enqueueJobWithDispatch call validate jobId =>
      some (.ofExcept (prepareSubmission env.config call validate jobId)
        (fun job => transactionAtomic do
          insertJob env.config.family job
          let outcome ← dispatchJob env job false (some (.task call.task))
          pure (job, outcome)) fun _ => RollsBack.atomic _)
  | enqueueJobsBulk calls validate =>
      some (.ofExcept (prepareSubmissions env.config validate calls)
        (fun jobs => if jobs.isEmpty then pure [] else enqueueBulkOnce env jobs)
        fun _ => RollsBack.ite (Reads.pure _).raises <| RollsBack.bind Reads.timezoneNow fun _ =>
          RollsBack.bind (Reads.ofExcept _) fun _ => RollsBack.atomic _)
  | claimReadyJobs limit queues process =>
      some (.ofTransition (DjQueue.claimReadyJobs env limit queues process)
        (RollsBack.claimReadyJobs env limit queues process))
  | completeClaimedJob arg returnValue task =>
      some (.ofClaim env arg (fun job => transactionAtomic do
        let now ← timezoneNow
        finishClaimedJob env job returnValue now
        DjQueue.releaseConcurrencySlot env job task) fun _ => RollsBack.atomic _)
  | failClaimedJob arg failure task =>
      some (.ofClaim env arg (fun job => transactionAtomic do
        deleteClaimedExecution job.id
        ensureNoOtherExecutionState job.id [.claimed]
        createRow .failed (failedRow failure job.id)
        DjQueue.releaseConcurrencySlot env job task) fun _ => RollsBack.atomic _)
  | promoteScheduledJobs batchSize =>
      some (.ofTransition (DjQueue.promoteScheduledJobs env batchSize)
        (RollsBack.promoteScheduledJobs env batchSize))
  | retryFailedJob jobId =>
      some (.ofTransition (DjQueue.retryFailedJob env jobId) (RollsBack.atomic _))
  | retryFailedJobs jobIds batchSize =>
      some (.ofTransition (DjQueue.retryFailedJobs env jobIds batchSize) (RollsBack.atomic _))
  | promoteFailedJobRetries batchSize =>
      some (.ofTime (fun now => transactionAtomic do
        let db ← getDb
        let due := db.failed.rows.filter (fun r => r.retryAt.any (fun t => t ≤ now))
        let rows ← sliceTo batchSize (failedOfBackend db env (orderBy retryOrder due))
        retryFailedRows env rows) fun _ => RollsBack.atomic _)
  | promoteExpiredBlockedJobs batchSize =>
      some (.ofTransition (DjQueue.promoteExpiredBlockedJobs env batchSize)
        (RollsBack.promoteExpiredBlockedJobs env batchSize))
  | cleanupExpiredSemaphores batchSize =>
      some (.ofTransition (DjQueue.cleanupExpiredSemaphores batchSize)
        (RollsBack.cleanupExpiredSemaphores batchSize))
  | _ => none

/-- Without breakdowns a retried call is the operation. -/
theorem final_of_retriedCall {env : Env} {op : JobOperation} {call : RetriedCall}
    (retried : op.retriedCall env = some call) (w : World) :
    op.final env w = finalState call.plain w := by
  cases op <;> cases retried <;> rfl

/-! ## What the callers see -/

section Calls

variable {s : Exposed} {c : Connection}

/-- The prepared call goes on as its retried transaction. -/
theorem run_of_prepared {call : RetriedCall} {input : call.Input} {w : World}
    (prepared : Runs call.prepare s.world input w) :
    call.run c s = retryTransientDatabaseErrors c (exposed (call.transition input))
      ⟨w, s.breakdowns⟩ := by
  have ready : Runs (unexposed call.prepare) s input ⟨w, s.breakdowns⟩ := by
    simp only [Runs] at prepared
    simp only [Runs, unexposed, prepared]
  unfold RetriedCall.run
  simp only [Bind.bind, EStateM.bind]
  rw [show unexposed call.prepare s = _ from ready]

/-- What a retried call comes to after `k` breakdowns: a last one that is not retried, with the
tables as they were, or one run of the operation, at some time. -/
inductive CallOutcome (call : RetriedCall) (c : Connection) (s : Exposed) (k : Nat) : Prop
  | broken {b : Breakdown} {t : Exposed} (breaks : s.breakdowns k = some b)
      (final : k < c.retries → (Raised.database b.error).retried = false)
      (raised : Raises (call.run c) s (.database b.error) t) (same : t.world.db = s.world.db)
  | returned {v w : World} {rest : Nat → Option Breakdown} {a : call.Output}
      (quiet : s.breakdowns k = none) (start : v.db = s.world.db) (run : Runs call.plain v a w)
      (result : Runs (call.run c) s a ⟨w, rest⟩)
  | raised {v w : World} {rest : Nat → Option Breakdown} {e : PyError}
      (quiet : s.breakdowns k = none) (start : v.db = s.world.db) (raises : Raises call.plain v e w)
      (same : w.db = s.world.db) (result : Raises (call.run c) s (.own e) ⟨w, rest⟩)

theorem run_outcome (call : RetriedCall) {input : call.Input} {w₁ : World}
    (prepared : Runs call.prepare s.world input w₁) :
    ∃ k ≤ c.retries, (∀ i < k, ∃ b, s.breakdowns i = some b ∧
      (Raised.database b.error).retried = true) ∧ CallOutcome call c s k := by
  have same := run_of_prepared (c := c) prepared
  have db := call.reads.returns _ _ _ prepared
  rcases retry_outcome c (call.transition input) ⟨w₁, s.breakdowns⟩ with ⟨k, le, earlier, outcome⟩
  refine ⟨k, le, earlier, ?_⟩
  cases outcome with
  | broken breaks final raised unchanged =>
      exact .broken breaks final (same.trans raised) (unchanged.trans db)
  | returned quiet start run result =>
      rcases call.resumes _ _ _ prepared _ (start.trans db) with ⟨v, from_, again⟩
      exact .returned quiet from_ (Runs.bind again run) (same.trans result)
  | raised quiet start raises result =>
      rcases call.resumes _ _ _ prepared _ (start.trans db) with ⟨v, from_, again⟩
      exact .raised quiet from_ (Runs.bind_raises again raises)
        ((call.rollsBack input _ _ _ raises).trans (start.trans db)) (same.trans result)

/-- A preparation that raises is all there is of the call. -/
theorem run_of_unprepared (call : RetriedCall) {e : PyError} {w₁ : World}
    (raised : Raises call.prepare s.world e w₁) :
    Raises (call.run c) s (.own e) ⟨w₁, s.breakdowns⟩ ∧ w₁.db = s.world.db := by
  refine ⟨Raises.bind ?_, call.reads.raises _ _ _ raised⟩
  simp only [Raises] at raised
  simp only [Raises, unexposed, raised]

/-- The tables are as they were, or as one run of the operation, at some time, leaves them. -/
theorem db_of_run (call : RetriedCall) :
    (finalState (call.run c) s).world.db = s.world.db ∨
      ∃ v, v.db = s.world.db ∧
        (finalState (call.run c) s).world.db = (finalState call.plain v).db := by
  rcases runs_or_raises call.prepare s.world with ⟨input, prepared, -⟩ | ⟨e, raised, -⟩
  · rcases run_outcome (c := c) call prepared with ⟨k, -, -, outcome⟩
    cases outcome with
    | broken breaks final raised same =>
        rw [raised.finalState_eq]
        exact .inl same
    | returned quiet start run result =>
        rw [result.finalState_eq]
        exact .inr ⟨_, start, congrArg World.db run.finalState_eq.symm⟩
    | raised quiet start raises same result =>
        rw [result.finalState_eq]
        exact .inl same
  · rcases run_of_unprepared (c := c) call raised with ⟨result, same⟩
    rw [result.finalState_eq]
    exact .inl same

end Calls

/-- A retried operation, once it is prepared, commits at most once.  It is tried again after
transient breakdowns only, twice at most and never in a transaction of the caller; then it fails
with the error of the database and has changed nothing, or it does what the operation does. -/
theorem retried_operation_commits_once {env : Env} {op : JobOperation} {call : RetriedCall}
    (retried : op.retriedCall env = some call) (c : Connection) (s : Exposed) {input : call.Input}
    {w₁ : World} (prepared : Runs call.prepare s.world input w₁) :
    ∃ k ≤ c.retries,
      (∀ i < k, ∃ b, s.breakdowns i = some b ∧ (Raised.database b.error).retried = true) ∧
      ((∃ b t, s.breakdowns k = some b ∧
          (k < c.retries → (Raised.database b.error).retried = false) ∧
          Raises (call.run c) s (.database b.error) t ∧ t.world.db = s.world.db) ∨
        (s.breakdowns k = none ∧ ∃ v, v.db = s.world.db ∧ ∃ rest,
          (∃ a, Runs call.plain v a (op.final env v) ∧
            Runs (call.run c) s a ⟨op.final env v, rest⟩) ∨
          ∃ e, Raises call.plain v e (op.final env v) ∧ (op.final env v).db = s.world.db ∧
            Raises (call.run c) s (.own e) ⟨op.final env v, rest⟩)) := by
  rcases run_outcome (c := c) call prepared with ⟨k, le, earlier, outcome⟩
  refine ⟨k, le, earlier, ?_⟩
  cases outcome with
  | broken breaks final raised same => exact .inl ⟨_, _, breaks, final, raised, same⟩
  | @returned v w rest a quiet start run result =>
      have ends : op.final env v = w := (final_of_retriedCall retried v).trans run.finalState_eq
      subst ends
      exact .inr ⟨quiet, v, start, rest, .inl ⟨a, run, result⟩⟩
  | @raised v w rest e quiet start raises same result =>
      have ends : op.final env v = w :=
        (final_of_retriedCall retried v).trans raises.finalState_eq
      subst ends
      exact .inr ⟨quiet, v, start, rest, .inr ⟨e, raises, same, result⟩⟩

/-! The first transaction is broken off by a deadlock, and no other. -/

/-- A deadlock on PostgreSQL, before the operation's first statement. -/
def deadlock : Breakdown where
  error := { size := 1, raised := 0, errors := fun _ =>
    { isOperationalError := true, pgcode := none, sqlstate := some "40P01", sqliteErrorcode := none,
      errno := none, firstArg := none, message := [], cause := none, context := none } }
  readings := 1
  keys := 0

/-- The first attempt deadlocks. -/
def deadlocked (db : Db) : Exposed where
  world := ⟨db, fun _ => 0, fun _ => 0⟩
  breakdowns n := if n = 0 then some deadlock else none

/-- Claiming one job. -/
def claimCall : RetriedCall :=
  .ofTransition (claimReadyJobs (sqliteEnv "default") 1 (.str "*") none)
    (RollsBack.claimReadyJobs _ _ _ _)

/-- The claim as an operation. -/
def claimAgain : JobOperation := .claimReadyJobs 1 (.str "*") none

/-- After the deadlock the claim is made, once. -/
theorem retried_operation_commits_once_after_deadlock :
    ∃ v, v.db = twoEnqueued ∧
      (finalState (claimCall.run ⟨false, true⟩) (deadlocked twoEnqueued)).world =
        claimAgain.final (sqliteEnv "default") v := by
  have retried : claimAgain.retriedCall (sqliteEnv "default") = some claimCall := rfl
  rcases retried_operation_commits_once retried ⟨false, true⟩ (deadlocked twoEnqueued)
    (runs_pure () _) with ⟨k, le, earlier, ⟨b, t, breaks, final, -⟩ | ⟨-, v, start, rest, ends⟩⟩
  · -- the only breakdown is the first one, and a deadlock is not the last word
    cases k with
    | zero =>
        cases breaks
        exact absurd (final (by decide)) (by decide)
    | succ k => cases breaks
  · refine ⟨v, start, ?_⟩
    rcases ends with ⟨a, -, run⟩ | ⟨e, -, -, raised⟩
    · rw [run.finalState_eq]
    · rw [raised.finalState_eq]

/-! ## Runs -/

/-- A step of the system, or a retried operation on a database that breaks transactions off. -/
inductive ExposedStep (tracked : Option (String × Int)) : Db → Db → Prop
  | step {db db' : Db} (step : Step tracked db db') : ExposedStep tracked db db'
  | retried {env : Env} {op : JobOperation} {call : RetriedCall} {s : Exposed} (c : Connection)
      (retried : op.retriedCall env = some call) (promised : op.Promised tracked env s.world.db) :
      ExposedStep tracked s.world.db (finalState (call.run c) s).world.db

/-- Breakdowns, however many and of whatever kind, lead to no state that is not reached without. -/
theorem reachable_despite_breakdowns {tracked : Option (String × Int)} {db : Db}
    (run : Relation.ReflTransGen (ExposedStep tracked) Db.empty db) : Reachable tracked db := by
  induction run with
  | refl => exact .refl
  | tail _ step ih =>
      cases step with
      | step step => exact ih.tail step
      | @retried env op call s c retried promised =>
          rcases db_of_run (c := c) (s := s) call with same | ⟨v, start, ends⟩
          · rw [same]
            exact ih
          · rw [ends, ← final_of_retriedCall retried v]
            rw [← start] at promised ih
            exact ih.tail (@Step.operation tracked v.db env (.job op) v.clock v.uuids promised)

/-- The state after the retried claim is reachable. -/
theorem reachable_despite_breakdowns_after_deadlock :
    Reachable none
      (finalState (claimCall.run ⟨false, true⟩) (deadlocked twoEnqueued)).world.db := by
  have reached : Reachable none twoEnqueued :=
    reachable_twoEnqueued (by intro t tracked; cases tracked)
  have plain : Relation.ReflTransGen (ExposedStep none) Db.empty twoEnqueued :=
    reached.lift id fun _ _ step => ExposedStep.step step
  have retried : claimAgain.retriedCall (sqliteEnv "default") = some claimCall := rfl
  exact reachable_despite_breakdowns (plain.tail (.retried (s := deadlocked twoEnqueued)
    ⟨false, true⟩ retried fun _ none_ => nomatch none_))

end DjQueue
