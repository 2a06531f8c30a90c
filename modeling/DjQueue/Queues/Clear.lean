import DjQueue.Slots.Releases
import DjQueue.System.Invariants

/-!
# Clearing a queue

`QueueInfo.clear` of `api.py` discards the ready jobs of a queue batch by batch until a batch is
empty.  Each batch gives the slots of its jobs back, and a waiter that gets one of them in this very
queue is ready when the next batch selects: it is discarded too.
-/

namespace DjQueue

open Relational

/-! ## The loop -/

/-- The `while` loop, with the number of jobs it has deleted; `none` is a loop that is not done after
so many batches. -/
def clearBatches (env : Env) (queueName : String) (batchSize : Int) : Nat → Nat → Op (Option Nat)
  | 0, _ => pure none
  | fuel + 1, deleted => do
      let batchDeleted ← discardReadyJobsForQueue env queueName batchSize
      if batchDeleted = 0 then pure (some deleted)
      else clearBatches env queueName batchSize fuel (deleted + batchDeleted)

/-- `QueueInfo.clear` -/
def clear (env : Env) (queueName : String) (batchSize : Int) (fuel : Nat) : Op (Option Nat) :=
  clearBatches env queueName batchSize fuel 0

/-! ## One batch -/

/-- The job is ready in this queue of this backend. -/
def Db.readyIn (db : Db) (backendAlias queueName : String) (id : JobId) : Prop :=
  ∃ r ∈ db.ready.rows, r.jobId = id ∧ r.backendAlias = backendAlias ∧ r.queueName = queueName

/-- The job is blocked in this queue of this backend. -/
def Db.waitsIn (db : Db) (backendAlias queueName : String) (id : JobId) : Prop :=
  ∃ r ∈ db.blocked.rows, r.jobId = id ∧ r.backendAlias = backendAlias ∧ r.queueName = queueName

/-- A ready place of the queue is a ready row of the queue. -/
theorem mem_readyPlaces {db : Db} {B q : String} {id : JobId} :
    (⟨id, B, q⟩ : ReadyPlace) ∈ db.readyPlaces ↔ db.readyIn B q id := by
  rw [Db.readyPlaces, List.mem_map]
  constructor
  · rintro ⟨r, mem, same⟩
    cases same
    exact ⟨r, mem, rfl, rfl, rfl⟩
  · rintro ⟨r, mem, rfl, rfl, rfl⟩
    exact ⟨r, mem, rfl⟩

/-- These jobs, ready in the queue, were deleted; these waiters got their slots; and nothing else
changed but the semaphores, the keys of waiters' rows and the executions of the deleted jobs. -/
structure Clears (B q : String) (cleared : List Job) (promoted : List BlockedExecution)
    (db db' : Db) : Prop where
  jobs : db'.jobs = db.jobs.filter (fun j => !(cleared.map Job.id).contains j.id)
  scheduled : db'.scheduled = db.scheduled
  claimed : db'.claimed = db.claimed
  failed : db'.failed = db.failed
  ready : (db'.readyPlaces ++ clearedPlaces B q cleared).Perm
    (db.readyPlaces ++ promotedPlaces B promoted)
  blocked : (db'.unnumberedWaiters ++ unnumbered promoted).Perm db.unnumberedWaiters
  inside : ∀ j ∈ cleared, j ∈ db.jobs
  nodup : (cleared.map Job.id).Nodup
  own : ∀ b ∈ promoted, b.backendAlias = B
  rooted : ∀ b ∈ promoted, ∃ j ∈ db.jobs, db.readyIn B q j.id ∧
    j.concurrencyKey = some b.concurrencyKey

section Batch

variable {a : Audit} {w : World} {q : String} {batchSize : Int}

/-- The rows of one batch. -/
def batchRows (env : Env) (db : Db) (queueName : String) (batchSize : Int) :
    List (ReadyExecution × Job) :=
  ((selectRelatedJob (m := .ready) db (orderBy (rowIdOrder (m := .ready)) db.ready.rows)).filter
    (discardable env .ready none (some queueName))).take batchSize.toNat

/-- The rows of a batch are rows of the table joined with their jobs. -/
theorem selected_batchRows (good : Accounts a [] 0 w.db) (q : String) (batchSize : Int) :
    Selected (m := .ready) w.db (batchRows a.env w.db q batchSize) := by
  have all := good.selected_orderBy .ready (fun _ => true) rowIdOrder
  rw [List.filter_true] at all
  exact all.sublist ((List.take_sublist _ _).trans List.filter_sublist)

/-- A batch holds ready rows of the backend and the queue only. -/
theorem place_of_mem_batchRows {r : ReadyExecution × Job}
    (mem : r ∈ batchRows a.env w.db q batchSize) :
    r.1.backendAlias = a.backendAlias ∧ r.1.queueName = q := by
  have hit := (List.mem_filter.mp (List.mem_of_mem_take mem)).2
  simpa [discardable, rowBackendAlias, rowQueueName] using hit

/-- The jobs of a batch are of the backend itself. -/
theorem own_of_mem_batchRows (good : Accounts a [] 0 w.db) {r : ReadyExecution × Job}
    (mem : r ∈ batchRows a.env w.db q batchSize) : r.2.backendAlias = a.backendAlias := by
  have columns := good.matches_of_selected (selected_batchRows good q batchSize) mem
  rw [← (place_of_mem_batchRows mem).1]
  exact (columns.backend _ rfl).symm

/-- The selected rows, and the others. -/
theorem perm_without (good : Accounts a [] 0 w.db) (q : String) (batchSize : Int) :
    w.db.ready.rows.Perm ((without (m := .ready) w.db.ready
      ((batchRows a.env w.db q batchSize).map (fun r => r.1.id))).rows ++
        (batchRows a.env w.db q batchSize).map Prod.fst) := by
  have selected := selected_batchRows good q batchSize
  have ids : (w.db.ready.rows.map ReadyExecution.id).Nodup := good.rowIds .ready
  have taken : (w.db.ready.rows.filter (fun r =>
      ((batchRows a.env w.db q batchSize).map (fun r => r.1.id)).contains r.id)).Perm
        ((batchRows a.env w.db q batchSize).map Prod.fst) := by
    have rows : ((batchRows a.env w.db q batchSize).map Prod.fst).Nodup := by
      have nodup := selected.nodup
      rw [show (fun r : ReadyExecution × Job => rowId (m := .ready) r.1) =
        ReadyExecution.id ∘ Prod.fst from rfl, ← List.map_map] at nodup
      exact nodup.of_map
    apply (List.perm_ext_iff_of_nodup (ids.of_map.filter _) rows).mpr
    intro r
    rw [List.mem_filter, List.contains_iff_mem, List.mem_map, List.mem_map]
    constructor
    · rintro ⟨there, x, mem, same⟩
      exact ⟨x, mem, List.inj_on_of_nodup_map ids (selected.mem x mem) there same⟩
    · rintro ⟨x, mem, rfl⟩
      exact ⟨selected.mem x mem, x, mem, rfl⟩
  have split := List.filter_append_perm (fun r : ReadyExecution =>
    ((batchRows a.env w.db q batchSize).map (fun r => r.1.id)).contains r.id) w.db.ready.rows
  exact split.symm.trans (List.perm_append_comm.trans (taken.append_left _))

/-- The tables once the jobs of a batch are deleted, before their slots are given back. -/
def batchDeleted (env : Env) (db : Db) (queueName : String) (batchSize : Int) : Db :=
  Accounts.deleteJobs (db.setTable .ready (without (m := .ready) db.ready
    ((batchRows env db queueName batchSize).map (fun r => r.1.id))))
    (fun j => ((batchRows env db queueName batchSize).map (fun r => r.1.jobId)).contains j.id)

theorem runs_deleteJobsWhere (p : Job → Bool) (w : World) :
    ∃ n w', Runs (deleteJobsWhere p) w n w' :=
  ⟨_, _, rfl⟩

/-- A batch ends as giving the slots of its jobs back ends. -/
theorem batch_of_releaseAll (good : Accounts a [] 0 w.db) (untracked : a.tracked = none)
    (q : String) (positive : 1 ≤ batchSize) :
    ∃ w₂ : World, w₂.db = batchDeleted a.env w.db q batchSize ∧ Ticks w w₂ ∧
      Accounts a [] 0 w₂.db ∧
      (∀ w', Runs (releaseAll a.env ((batchRows a.env w.db q batchSize).map Prod.snd)) w₂ () w' →
        Runs (discardReadyJobsForQueue a.env q batchSize) w
          ((batchRows a.env w.db q batchSize).map Prod.snd).length w') ∧
      ∀ e, Fails (releaseAll a.env ((batchRows a.env w.db q batchSize).map Prod.snd)) w₂ e →
        Fails (discardReadyJobsForQueue a.env q batchSize) w e := by
  have selected := selected_batchRows good q batchSize
  have own : ∀ r ∈ batchRows a.env w.db q batchSize, r.2.backendAlias = a.backendAlias :=
    fun r mem => own_of_mem_batchRows good mem
  have sliced : Runs (sliceTo batchSize ((selectRelatedJob (m := .ready) w.db
      (orderBy (rowIdOrder (m := .ready)) w.db.ready.rows)).filter
        (discardable a.env .ready none (some q)))) w (batchRows a.env w.db q batchSize) w := by
    unfold sliceTo
    rw [if_neg (by omega)]
    exact runs_pure _ _
  have checked : Runs (ensureStateRowsBelongToBackend (m := .ready)
      (batchRows a.env w.db q batchSize) a.env.config.backendAlias) w () w := by
    unfold ensureStateRowsBelongToBackend
    rw [List.find?_eq_none.mpr fun r mem => by simpa using own r mem]
    exact runs_pure _ _
  have consumed := runs_consumeSelectedRows (m := .ready) a.env
    (fun r : ReadyExecution × Job => r.1.id) (batchRows a.env w.db q batchSize) w
    (fun r mem => ⟨r.1, selected.mem r mem, rfl⟩) selected.nodup
  have good₁ := (good.consume (m := .ready) (fun _ => rfl) selected own consumed).2
  have free : Runs (ensureJobIdsHaveNoOtherExecutionState
      ((batchRows a.env w.db q batchSize).map (fun r => r.1.jobId)) []) _ () _ :=
    runs_ensureJobIdsHaveNoOtherExecutionState fun id mem m _ => by
      rcases List.mem_map.mp mem with ⟨r, inside, rfl⟩
      rcases mem_of_findJob (selected.job r inside) with ⟨there, same⟩
      rw [Db.hasState, ← Bool.not_eq_true, List.contains_iff_mem]
      have inHand : r.2.id ∈ (batchRows a.env w.db q batchSize).map (fun r => r.2.id) ++ [] :=
        List.mem_append_left _ (List.mem_map_of_mem inside)
      have nowhere := good₁.stateless_of_hand there inHand m
      rw [same] at nowhere
      exact nowhere
  rcases runs_deleteJobsWhere (fun j => ((batchRows a.env w.db q batchSize).map
    (fun r => r.1.jobId)).contains j.id) { w with db := w.db.setTable .ready (without (m := .ready)
      w.db.ready ((batchRows a.env w.db q batchSize).map (fun r => r.1.id))) } with
    ⟨n, w₂, deleted⟩
  have hits : ∀ j ∈ w.db.jobs, ((batchRows a.env w.db q batchSize).map
      (fun r => r.1.jobId)).contains j.id = true ↔
        j.id ∈ (batchRows a.env w.db q batchSize).map (fun r => r.2.id) := by
    intro j _
    rw [List.contains_iff_mem, ← selected.ids_eq]
    rfl
  have owned : ∀ id ∈ (batchRows a.env w.db q batchSize).map (fun r => r.2.id),
      a.owns id = true := by
    intro id mem
    rcases List.mem_map.mp mem with ⟨r, inside, rfl⟩
    exact (good.knows_of_selected selected inside).owns (own r inside)
  have stateless : ∀ j ∈ w.db.jobs, ((batchRows a.env w.db q batchSize).map
      (fun r => r.1.jobId)).contains j.id = true → ∀ m, j.id ∉ ((w.db.setTable .ready
        (without (m := .ready) w.db.ready
          ((batchRows a.env w.db q batchSize).map (fun r => r.1.id)))).stateJobIds m) :=
    fun j mem hit m => good₁.stateless_of_hand mem (List.mem_append_left _ ((hits j mem).mp hit)) m
  have good₂ := (good₁.deleteHand _ owned hits deleted).owing untracked 0
  have jobs : ((batchRows a.env w.db q batchSize).map (fun r => r.1.jobId)).filterMap
      (w.db.setTable .ready (without (m := .ready) w.db.ready
        ((batchRows a.env w.db q batchSize).map (fun r => r.1.id)))).findJob =
      (batchRows a.env w.db q batchSize).map Prod.snd :=
    Accounts.filterMap_findJob (m := .ready) fun r mem => selected.job r mem
  refine ⟨w₂, Accounts.of_run_deleteJobsWhere stateless deleted,
    ((Advances.deleteJobsWhere _).of_run deleted).of_tables, good₂, ?_, ?_⟩
  · intro w' released
    refine runs_atomic (Runs.bind (runs_getDb w) (Runs.bind sliced (Runs.bind checked
      (Runs.bind consumed (Runs.bind free (Runs.bind (runs_getDb _) (Runs.bind deleted
        (Runs.bind (a := ()) (m := w') ?_ ?_))))))))
    · rw [← jobs] at released
      exact released
    · rw [← jobs]
      exact runs_pure _ _
  · intro e failed
    refine fails_transactionAtomic (Runs.bind_fails (runs_getDb w) (Runs.bind_fails sliced
      (Runs.bind_fails checked (Runs.bind_fails consumed (Runs.bind_fails free
        (Runs.bind_fails (runs_getDb _) (Runs.bind_fails deleted (Fails.bind ?_))))))))
    rw [← jobs] at failed
    exact failed

/-- What a batch comes to. -/
theorem clears_of_handsOver (good : Accounts a [] 0 w.db) {promoted : List BlockedExecution}
    {db' : Db} (hands : HandsOver a.backendAlias (fun k => ∃ j ∈ (batchRows a.env w.db q
      batchSize).map Prod.snd, j.concurrencyKey = some k) promoted
        (batchDeleted a.env w.db q batchSize) db') :
    Clears a.backendAlias q ((batchRows a.env w.db q batchSize).map Prod.snd) promoted w.db db' := by
  have selected := selected_batchRows good q batchSize
  have ids : (batchRows a.env w.db q batchSize).map (fun r => r.1.jobId) =
      ((batchRows a.env w.db q batchSize).map Prod.snd).map Job.id := by
    rw [List.map_map]
    exact selected.ids_eq
  have rest := hands.rest
  have places : ((batchRows a.env w.db q batchSize).map Prod.fst).map ReadyExecution.place =
      clearedPlaces a.backendAlias q ((batchRows a.env w.db q batchSize).map Prod.snd) := by
    rw [clearedPlaces, List.map_map, List.map_map]
    apply List.map_congr_left
    intro r mem
    rcases place_of_mem_batchRows mem with ⟨backend, queue⟩
    have same : r.2.id = r.1.jobId := selected.id_eq mem
    rw [Function.comp_apply, Function.comp_apply, ReadyExecution.place, backend, queue, same]
  have placed : ∀ r ∈ batchRows a.env w.db q batchSize, r.2 ∈ w.db.jobs ∧
      w.db.readyIn a.backendAlias q r.2.id := by
    intro r mem
    rcases mem_of_findJob (selected.job r mem) with ⟨there, same⟩
    rcases place_of_mem_batchRows mem with ⟨backend, queue⟩
    exact ⟨there, r.1, selected.mem r mem, same.symm, backend, queue⟩
  constructor
  · rw [rest, ← ids]
    rfl
  · rw [rest]
    rfl
  · rw [rest]
    rfl
  · rw [rest]
    rfl
  · have left := (perm_without good q batchSize).map ReadyExecution.place
    rw [List.map_append, places] at left
    rw [hands.ready, List.append_assoc]
    apply (List.perm_append_comm.append_left _).trans
    rw [← List.append_assoc]
    exact left.symm.append_right _
  · exact hands.blocked
  · intro j mem
    rcases List.mem_map.mp mem with ⟨r, inside, rfl⟩
    exact (placed r inside).1
  · rw [List.map_map]
    exact good.nodup_of_selected selected
  · exact fun b mem => (hands.own b mem).1
  · intro b mem
    rcases (hands.own b mem).2 with ⟨j, inside, key⟩
    rcases List.mem_map.mp inside with ⟨r, inRows, rfl⟩
    exact ⟨r.2, (placed r inRows).1, (placed r inRows).2, key⟩

/-- A batch is empty once no job is ready in the queue. -/
theorem batchRows_eq_nil (good : Accounts a [] 0 w.db) (positive : 1 ≤ batchSize)
    (empty : batchRows a.env w.db q batchSize = []) (id : JobId) :
    ¬ w.db.readyIn a.backendAlias q id := by
  rintro ⟨r, mem, rfl, backend, queue⟩
  have none : (selectRelatedJob (m := .ready) w.db (orderBy (rowIdOrder (m := .ready))
      w.db.ready.rows)).filter (discardable a.env .ready none (some q)) = [] := by
    rcases List.take_eq_nil_iff.mp empty with zero | none
    · omega
    · exact none
  rcases List.mem_map.mp (good.rowFits .ready r mem).job with ⟨j, there, same⟩
  have found : w.db.findJob r.jobId = some j := by
    have found := good.findJob_of_mem there
    rw [same] at found
    exact found
  apply List.filter_eq_nil_iff.mp none (r, j)
  · apply List.mem_filterMap.mpr
    refine ⟨r, mem_orderBy.mpr mem, ?_⟩
    rw [show rowJobId (m := .ready) r = r.jobId from rfl, found]
    rfl
  · simp [discardable, rowBackendAlias, rowQueueName, backend, queue]

/-- A batch deletes ready jobs of the queue and gives their slots back, unless a slot of some job of
the table cannot be given back. -/
theorem batch_outcome (good : Accounts a [] 0 w.db) (untracked : a.tracked = none)
    (positive : 1 ≤ batchSize) :
    (∃ cleared promoted w', Runs (discardReadyJobsForQueue a.env q batchSize) w cleared.length w' ∧
        Clears a.backendAlias q cleared promoted w.db w'.db ∧ Accounts a [] 0 w'.db ∧
        SlotsGivenBack a.env cleared w w' ∧
        (cleared = [] → ∀ id, ¬ w.db.readyIn a.backendAlias q id)) ∨
      ∃ e w', Raises (discardReadyJobsForQueue a.env q batchSize) w e w' ∧ w'.db = w.db ∧
        Obstructed a.env w w.db.jobs e := by
  rcases batch_of_releaseAll good untracked q positive with
    ⟨w₂, db₂, ticks, good₂, returns, raises⟩
  have deleted : SlotsGivenBack a.env [] w w₂ := ⟨ticks, fun _ countable => by
    rw [db₂]
    exact countable⟩
  rcases good₂.releaseAll_outcome ((batchRows a.env w.db q batchSize).map Prod.snd) untracked
    with ⟨promoted, w', released, hands, good'⟩ | ⟨e, failed, obstructed⟩
  · left
    rw [db₂] at hands
    refine ⟨_, promoted, w', returns w' released, clears_of_handsOver good hands, good',
      deleted.trans (.of_run_releaseAll released), ?_⟩
    intro none
    exact batchRows_eq_nil good positive (List.map_eq_nil_iff.mp none)
  · right
    rcases raises e failed with ⟨w', raised⟩
    have there : ∀ j ∈ (batchRows a.env w.db q batchSize).map Prod.snd, j ∈ w.db.jobs := by
      intro j mem
      rcases List.mem_map.mp mem with ⟨r, inside, rfl⟩
      exact (mem_of_findJob ((selected_batchRows good q batchSize).job r inside)).1
    exact ⟨e, w', raised, RollsBack.atomic _ _ _ _ raised, (obstructed.earlier deleted).mono there⟩

end Batch

/-! ## Batch after batch -/

/-- A waiter's row repeats the key of its job. -/
def KeysMatch (db : Db) : Prop :=
  ∀ b ∈ db.blocked.rows, ∀ j ∈ db.jobs, j.id = b.jobId → j.concurrencyKey = some b.concurrencyKey

theorem Accounts.keysMatch {a : Audit} {hand : List JobId} {owed : Nat} {db : Db}
    (good : Accounts a hand owed db) : KeysMatch db := by
  intro b mem j there same
  rcases (good.rowFits .blocked b mem).columns with ⟨i, known, columns⟩
  have identity := (good.knows j there).identity
  rw [same] at identity
  have equal : i = j.identity := Option.some.inj (known.symm.trans identity)
  rw [equal] at columns
  exact columns.key _ rfl

namespace Clears

variable {B q : String} {cleared cleared' : List Job} {promoted promoted' : List BlockedExecution}
  {db db' db'' : Db}

theorem refl (db : Db) : Clears B q [] [] db db := by
  constructor
  · exact (List.filter_eq_self.mpr fun _ _ => rfl).symm
  · rfl
  · rfl
  · rfl
  · exact List.Perm.refl _
  · rw [unnumbered, List.map_nil, List.append_nil]
  · exact fun j mem => absurd mem List.not_mem_nil
  · exact List.nodup_nil
  · exact fun b mem => absurd mem List.not_mem_nil
  · exact fun b mem => absurd mem List.not_mem_nil

/-- The jobs left are the earlier ones without those cleared. -/
theorem mem_jobs (clears : Clears B q cleared promoted db db') {j : Job} :
    j ∈ db'.jobs ↔ j ∈ db.jobs ∧ j.id ∉ cleared.map Job.id := by
  rw [clears.jobs, List.mem_filter, Bool.not_eq_true', ← Bool.not_eq_true, List.contains_iff_mem]

/-- A promoted waiter waited. -/
theorem waited (clears : Clears B q cleared promoted db db') {b : BlockedExecution}
    (mem : b ∈ promoted) : ∃ b' ∈ db.blocked.rows, b'.jobId = b.jobId ∧
      b'.backendAlias = b.backendAlias ∧ b'.queueName = b.queueName ∧
        b'.concurrencyKey = b.concurrencyKey := by
  have inside : ({ b with id := 0 } : BlockedExecution) ∈ db.unnumberedWaiters :=
    clears.blocked.mem_iff.mp (List.mem_append_right _ (List.mem_map_of_mem mem))
  rcases List.mem_map.mp inside with ⟨b', there, same⟩
  simp only [BlockedExecution.mk.injEq] at same
  exact ⟨b', there, same.2.1, same.2.2.1, same.2.2.2.1, same.2.2.2.2.2.1⟩

/-- Who is ready in the queue after some batches was ready, or is a waiter that got its slot. -/
theorem readyIn_cases (clears : Clears B q cleared promoted db db') {id : JobId}
    (ready : db'.readyIn B q id ∨ id ∈ cleared.map Job.id) : db.readyIn B q id ∨
      ∃ b ∈ promoted, b.jobId = id ∧ b.queueName = q := by
  have place : (⟨id, B, q⟩ : ReadyPlace) ∈ db'.readyPlaces ++ clearedPlaces B q cleared := by
    rcases ready with still | gone
    · exact List.mem_append_left _ (mem_readyPlaces.mpr still)
    · rcases List.mem_map.mp gone with ⟨j, mem, rfl⟩
      exact List.mem_append_right _ (List.mem_map_of_mem mem)
  rcases List.mem_append.mp (clears.ready.mem_iff.mp place) with before | new
  · exact .inl (mem_readyPlaces.mp before)
  · rcases List.mem_map.mp new with ⟨b, mem, same⟩
    cases same
    exact .inr ⟨b, mem, rfl, rfl⟩

/-- Two stretches of clearing make one. -/
theorem trans (matched : KeysMatch db) (first : Clears B q cleared promoted db db')
    (second : Clears B q cleared' promoted' db' db'') :
    Clears B q (cleared ++ cleared') (promoted ++ promoted') db db'' := by
  constructor
  · rw [second.jobs, first.jobs, List.filter_filter]
    apply List.filter_congr
    intro j _
    rw [List.map_append, Bool.eq_iff_iff, Bool.and_eq_true]
    simp only [Bool.not_eq_true', ← Bool.not_eq_true, List.contains_iff_mem, List.mem_append,
      not_or, and_comm]
  · rw [second.scheduled, first.scheduled]
  · rw [second.claimed, first.claimed]
  · rw [second.failed, first.failed]
  · rw [clearedPlaces, promotedPlaces, List.map_append, List.map_append]
    have later := second.ready.append_right (clearedPlaces B q cleared)
    have earlier := first.ready.append_right (promotedPlaces B promoted')
    rw [List.append_assoc] at later
    apply (List.perm_append_comm.append_left _).trans (later.trans _)
    rw [List.append_assoc]
    apply (List.perm_append_comm.append_left _).trans
    rw [← List.append_assoc, ← List.append_assoc]
    exact earlier
  · rw [unnumbered, List.map_append]
    have later := second.blocked.append_right (unnumbered promoted)
    apply List.Perm.trans _ (later.trans first.blocked)
    rw [List.append_assoc]
    exact List.perm_append_comm.append_left _
  · intro j mem
    rcases List.mem_append.mp mem with old | new
    · exact first.inside j old
    · exact (first.mem_jobs.mp (second.inside j new)).1
  · rw [List.map_append, List.nodup_append]
    refine ⟨first.nodup, second.nodup, ?_⟩
    rintro id old id' new rfl
    rcases List.mem_map.mp new with ⟨j, mem, rfl⟩
    exact (first.mem_jobs.mp (second.inside j mem)).2 old
  · intro b mem
    exact (List.mem_append.mp mem).elim (first.own b) (second.own b)
  · intro b mem
    rcases List.mem_append.mp mem with old | new
    · exact first.rooted b old
    · rcases second.rooted b new with ⟨j, there, ready, key⟩
      have inJobs := (first.mem_jobs.mp there).1
      rcases first.readyIn_cases (.inl ready) with before | ⟨b', mem', same, _⟩
      · exact ⟨j, inJobs, before, key⟩
      · -- the slot came from a waiter that was promoted and cleared in turn
        rcases first.waited mem' with ⟨row, waits, sameJob, -, -, sameKey⟩
        have own := matched row waits j inJobs (same.symm.trans sameJob.symm)
        have keys : b'.concurrencyKey = b.concurrencyKey :=
          sameKey.symm.trans (Option.some.inj (own.symm.trans key))
        rcases first.rooted b' mem' with ⟨i, inside, root, rootKey⟩
        exact ⟨i, inside, root, rootKey.trans (congrArg some keys)⟩

/-- The cleared jobs are those that are gone. -/
theorem length_jobs (clears : Clears B q cleared promoted db db')
    (nodup : (db.jobs.map Job.id).Nodup) : db'.jobs.length + cleared.length = db.jobs.length := by
  have gone : (db.jobs.filter (fun j => (cleared.map Job.id).contains j.id)).Perm cleared := by
    apply (List.perm_ext_iff_of_nodup (nodup.of_map.filter _) clears.nodup.of_map).mpr
    intro j
    rw [List.mem_filter, List.contains_iff_mem, List.mem_map]
    constructor
    · rintro ⟨there, j', mem, same⟩
      exact List.inj_on_of_nodup_map nodup (clears.inside j' mem) there same ▸ mem
    · exact fun mem => ⟨clears.inside j mem, j, mem, rfl⟩
  rw [clears.jobs, ← gone.length_eq, Nat.add_comm]
  exact (List.length_eq_length_filter_add _).symm

end Clears

section Loop

variable {a : Audit} {q : String} {batchSize : Int}

/-- The loop ends: every batch but the last deletes a job. -/
theorem clearBatches_outcome (untracked : a.tracked = none) (positive : 1 ≤ batchSize) :
    ∀ {jobs : Nat} {w : World}, Accounts a [] 0 w.db → w.db.jobs.length < jobs →
    ∃ cleared promoted w', Clears a.backendAlias q cleared promoted w.db w'.db ∧
      ((∀ id, ¬ w'.db.readyIn a.backendAlias q id) ∧
        (∀ fuel deleted, w.db.jobs.length < fuel →
          Runs (clearBatches a.env q batchSize fuel deleted) w (some (deleted + cleared.length))
            w') ∨
      ∃ e, Obstructed a.env w w.db.jobs e ∧ ∀ fuel deleted, w.db.jobs.length < fuel →
        Raises (clearBatches a.env q batchSize fuel deleted) w e w')
  | 0, w, _, few => absurd few (Nat.not_lt_zero _)
  | jobs + 1, w, good, few => by
      rcases batch_outcome good untracked positive with
        ⟨cleared, promoted, w₁, batch, clears, good₁, given, empty⟩ |
          ⟨e, w₁, raised, same, obstructed⟩
      · cases cleared with
        | nil =>
            -- nobody was ready, so nobody gave a slot back either
            have nobody := empty rfl
            have none : ∀ id, ¬ w₁.db.readyIn a.backendAlias q id := by
              intro id ready
              rcases clears.readyIn_cases (.inl ready) with before | ⟨b, mem, _, _⟩
              · exact nobody id before
              · rcases clears.rooted b mem with ⟨j, _, root, _⟩
                exact nobody j.id root
            refine ⟨[], promoted, w₁, clears, .inl ⟨none, ?_⟩⟩
            intro fuel deleted enough
            cases fuel with
            | zero => exact absurd enough (Nat.not_lt_zero _)
            | succ fuel => exact Runs.bind batch (runs_pure _ _)
        | cons first others =>
            have shorter := clears.length_jobs good.jobIds
            rw [List.length_cons] at shorter
            have fewer : w₁.db.jobs.length < jobs := by omega
            have again (fuel deleted : Nat) :
                (if (first :: others).length = 0 then pure (some deleted)
                else clearBatches a.env q batchSize fuel (deleted + (first :: others).length)) =
                  clearBatches a.env q batchSize fuel (deleted + (first :: others).length) :=
              if_neg (Nat.succ_ne_zero _)
            rcases clearBatches_outcome untracked positive good₁ fewer with
              ⟨cleared', promoted', w', later, ⟨done, returns⟩ | ⟨e, obstructed, raises⟩⟩
            · refine ⟨_, _, w', clears.trans good.keysMatch later, .inl ⟨done, ?_⟩⟩
              intro fuel deleted enough
              cases fuel with
              | zero => exact absurd enough (Nat.not_lt_zero _)
              | succ fuel =>
                  refine Runs.bind batch ?_
                  rw [again, List.length_append, ← Nat.add_assoc]
                  exact returns fuel _ (by omega)
            · have before : Obstructed a.env w w.db.jobs e :=
                (obstructed.earlier given).mono fun j mem => (List.mem_append.mp mem).elim
                  (clears.inside j) fun mem => (clears.mem_jobs.mp mem).1
              refine ⟨_, _, w', clears.trans good.keysMatch later, .inr ⟨e, before, ?_⟩⟩
              intro fuel deleted enough
              cases fuel with
              | zero => exact absurd enough (Nat.not_lt_zero _)
              | succ fuel =>
                  have later := raises fuel (deleted + (first :: others).length) (by omega)
                  rw [← again] at later
                  exact Runs.bind_raises batch later
      · refine ⟨[], [], w₁, same ▸ Clears.refl _, .inr ⟨e, obstructed, ?_⟩⟩
        intro fuel deleted enough
        cases fuel with
        | zero => exact absurd enough (Nat.not_lt_zero _)
        | succ fuel => exact Raises.bind raised

end Loop

/-! ## The theorem -/

/-- What clearing a queue leaves, however it ends: the jobs it deletes were ready in the queue, or
they were blocked in it, no longer are, and shared their key with one that was ready. -/
structure ClearLeaves (B q : String) (db db' : Db) : Prop where
  jobs : db'.jobs.Sublist db.jobs
  gone : ∀ j ∈ db.jobs, j ∉ db'.jobs → db.readyIn B q j.id ∨
    db.waitsIn B q j.id ∧ db'.hasState .blocked j.id = false ∧
      ∃ i ∈ db.jobs, db.readyIn B q i.id ∧ j.concurrencyKey.isSome ∧
        i.concurrencyKey = j.concurrencyKey
  kept : ∀ j ∈ db.jobs, (db.hasState .scheduled j.id ∨ db.hasState .claimed j.id ∨
    db.hasState .failed j.id ∨ j.finishedAt.isSome) → j ∈ db'.jobs
  states : db'.scheduled = db.scheduled ∧ db'.claimed = db.claimed ∧ db'.failed = db.failed
  waiting : ∀ j ∈ db'.jobs, db.hasState .blocked j.id →
    db'.hasState .blocked j.id ∨ db'.hasState .ready j.id

/-- The queue is empty, and this many jobs are gone: exactly those that were ready in it and those
that were blocked in it and got a slot. -/
structure QueueCleared (B q : String) (n : Nat) (db db' : Db) : Prop where
  emptied : ∀ id, ¬ db'.readyIn B q id
  counted : db'.jobs.length + n = db.jobs.length
  deleted : ∀ j ∈ db.jobs, j ∉ db'.jobs ↔
    db.readyIn B q j.id ∨ db.waitsIn B q j.id ∧ db'.hasState .blocked j.id = false

namespace Clears

variable {B q : String} {cleared : List Job} {promoted : List BlockedExecution} {db db' : Db}

/-- Whoever waited still waits, or got its slot. -/
theorem waiter_cases (clears : Clears B q cleared promoted db db') {b : BlockedExecution}
    (mem : b ∈ db.blocked.rows) : db'.hasState .blocked b.jobId = true ∨
      ∃ b' ∈ promoted, b'.jobId = b.jobId ∧ b'.queueName = b.queueName := by
  have inside : ({ b with id := 0 } : BlockedExecution) ∈ db'.unnumberedWaiters ++
      unnumbered promoted := clears.blocked.mem_iff.mpr (List.mem_map_of_mem mem)
  rcases List.mem_append.mp inside with still | new
  · rcases List.mem_map.mp still with ⟨b', there, same⟩
    simp only [BlockedExecution.mk.injEq] at same
    left
    rw [Db.hasState, List.contains_iff_mem]
    exact List.mem_map.mpr ⟨b', there, same.2.1⟩
  · rcases List.mem_map.mp new with ⟨b', there, same⟩
    simp only [BlockedExecution.mk.injEq] at same
    exact .inr ⟨b', there, same.2.1, same.2.2.2.1⟩

/-- A waiter that got its slot does not wait any more. -/
theorem unblocked (clears : Clears B q cleared promoted db db')
    (one : (db.stateJobIds .blocked).Nodup) {b : BlockedExecution} (mem : b ∈ promoted) :
    db'.hasState .blocked b.jobId = false := by
  have jobs := clears.blocked.map BlockedExecution.jobId
  have before : db.unnumberedWaiters.map BlockedExecution.jobId = db.stateJobIds .blocked := by
    rw [Db.unnumberedWaiters, List.map_map]
    rfl
  have after : db'.unnumberedWaiters.map BlockedExecution.jobId = db'.stateJobIds .blocked := by
    rw [Db.unnumberedWaiters, List.map_map]
    rfl
  rw [List.map_append, before, after] at jobs
  have apart := (List.nodup_append.mp (jobs.nodup_iff.mpr one)).2.2
  rw [Db.hasState, ← Bool.not_eq_true, List.contains_iff_mem]
  intro still
  apply apart _ still b.jobId _ rfl
  rw [unnumbered, List.map_map]
  exact List.mem_map_of_mem mem

/-- A deleted job was ready in the queue, or is a waiter that got its slot. -/
theorem gone_cases (clears : Clears B q cleared promoted db db') {j : Job} (mem : j ∈ db.jobs)
    (gone : j ∉ db'.jobs) :
    db.readyIn B q j.id ∨ ∃ b ∈ promoted, b.jobId = j.id ∧ b.queueName = q := by
  apply clears.readyIn_cases
  right
  by_contra kept
  exact gone (clears.mem_jobs.mpr ⟨mem, kept⟩)

/-- A waiter of the queue that got its slot was blocked in the queue. -/
theorem waitsIn (clears : Clears B q cleared promoted db db') {b : BlockedExecution}
    (mem : b ∈ promoted) (queue : b.queueName = q) : db.waitsIn B q b.jobId := by
  rcases clears.waited mem with ⟨row, there, job, backend, name, -⟩
  exact ⟨row, there, job, backend.trans (clears.own b mem), name.trans queue⟩

/-- What clearing leaves, from a state in which the books are right. -/
theorem leaves {a : Audit} {hand : List JobId} {owed : Nat} (good : Accounts a hand owed db)
    (clears : Clears B q cleared promoted db db') : ClearLeaves B q db db' := by
  have one := good.stateJobIds_nodup .blocked
  constructor
  · rw [clears.jobs]
    exact List.filter_sublist
  · intro j mem gone
    rcases clears.gone_cases mem gone with ready | ⟨b, there, job, queue⟩
    · exact .inl ready
    · rcases clears.rooted b there with ⟨i, inJobs, ready, key⟩
      rcases clears.waited there with ⟨row, inRows, sameJob, -, -, sameKey⟩
      have own : j.concurrencyKey = some b.concurrencyKey :=
        sameKey ▸ good.keysMatch row inRows j mem (job.symm.trans sameJob.symm)
      rw [← job, own]
      exact .inr ⟨clears.waitsIn there queue, clears.unblocked one there, i, inJobs, ready, rfl, key⟩
  · intro j mem elsewhere
    by_contra gone
    have place := good.places j mem
    rw [Accounts.places_eq] at place
    have active : 0 < (db.stateJobIds .ready).count j.id ∨
        0 < (db.stateJobIds .blocked).count j.id := by
      rcases clears.gone_cases mem gone with ⟨r, there, job, -⟩ | ⟨b, there, job, -⟩
      · left
        rw [List.count_pos_iff, ← job]
        exact List.mem_map_of_mem there
      · right
        rcases clears.waited there with ⟨row, inRows, sameJob, -⟩
        rw [List.count_pos_iff, ← job, ← sameJob]
        exact List.mem_map_of_mem inRows
    have counted {m : StateModel} (state : db.hasState m j.id = true) :
        0 < (db.stateJobIds m).count j.id := by
      rw [Db.hasState, List.contains_iff_mem] at state
      exact List.count_pos_iff.mpr state
    rcases elsewhere with scheduled | claimed | failed | finished
    · have := counted scheduled
      omega
    · have := counted claimed
      omega
    · have := counted failed
      omega
    · rw [if_pos finished] at place
      omega
  · exact ⟨clears.scheduled, clears.claimed, clears.failed⟩
  · intro j mem blocked
    rw [Db.hasState, List.contains_iff_mem] at blocked
    rcases List.mem_map.mp blocked with ⟨row, inRows, same⟩
    have same : row.jobId = j.id := same
    rcases clears.waiter_cases inRows with still | ⟨b, there, job, -⟩
    · exact .inl (same ▸ still)
    · right
      rw [Db.hasState, List.contains_iff_mem]
      have ready : (⟨b.jobId, B, b.queueName⟩ : ReadyPlace) ∈
          db'.readyPlaces ++ clearedPlaces B q cleared :=
        clears.ready.mem_iff.mpr (List.mem_append_right _ (List.mem_map_of_mem there))
      rcases List.mem_append.mp ready with here | gone
      · rcases mem_readyPlaces.mp here with ⟨r, inTable, sameJob, -⟩
        exact List.mem_map.mpr ⟨r, inTable, sameJob.trans (job.trans same)⟩
      · rcases List.mem_map.mp gone with ⟨i, inside, place⟩
        have own : i.id = b.jobId := congrArg ReadyPlace.jobId place
        exact absurd (List.mem_map.mpr ⟨i, inside, own.trans (job.trans same)⟩)
          (clears.mem_jobs.mp mem).2

/-- Where no job is ready any more, every job that was ready or got its slot is deleted. -/
theorem queueCleared {a : Audit} {hand : List JobId} {owed : Nat} (good : Accounts a hand owed db)
    (clears : Clears B q cleared promoted db db') (emptied : ∀ id, ¬ db'.readyIn B q id) :
    QueueCleared B q cleared.length db db' := by
  have left {j : Job} (place : (⟨j.id, B, q⟩ : ReadyPlace) ∈
      db.readyPlaces ++ promotedPlaces B promoted) : j ∉ db'.jobs := by
    intro still
    rcases List.mem_append.mp (clears.ready.mem_iff.mpr place) with ready | gone
    · exact emptied j.id (mem_readyPlaces.mp ready)
    · rcases List.mem_map.mp gone with ⟨i, inside, same⟩
      have own : i.id = j.id := congrArg ReadyPlace.jobId same
      exact (clears.mem_jobs.mp still).2 (List.mem_map.mpr ⟨i, inside, own⟩)
  refine ⟨emptied, clears.length_jobs good.jobIds, fun j mem => ⟨fun gone => ?_, ?_⟩⟩
  · rcases clears.gone_cases mem gone with ready | ⟨b, there, job, queue⟩
    · exact .inl ready
    · rw [← job]
      exact .inr ⟨clears.waitsIn there queue,
        clears.unblocked (good.stateJobIds_nodup .blocked) there⟩
  · rintro (ready | ⟨⟨row, inRows, job, -, queue⟩, unblocked⟩)
    · exact left (List.mem_append_left _ (mem_readyPlaces.mpr ready))
    · rcases clears.waiter_cases inRows with still | ⟨b, there, sameJob, sameQueue⟩
      · rw [job, unblocked] at still
        cases still
      · apply left
        apply List.mem_append_right
        apply List.mem_map.mpr
        exact ⟨b, there, by rw [sameJob, sameQueue, job, queue]⟩

end Clears

/-- The two jobs, enqueued by a release that kept no policy. -/
def twoHistorical : Db := twoEnqueued.withPolicies fun _ => ⟨none, none, none⟩

/-- A process that cannot read the modules of its tasks. -/
def unreadableEnv : Env :=
  { sqliteEnv "default" with importString := fun path => .error (.osError path) }

end DjQueue
