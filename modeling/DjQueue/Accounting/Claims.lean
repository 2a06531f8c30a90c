import DjQueue.Claiming.Selection
import DjQueue.Operations.Execution
import DjQueue.Accounting.Transitions

/-!
# Claims and the ledger

`claim_ready_jobs`, `complete_claimed_job` and `fail_claimed_job`.  A claim passes the slot
of a ready row on to a claimed row; completing and failing give it back.
-/

namespace DjQueue

open Relational

/-! ## What a claim selects -/

/-- Distinct rows out of `rows`. -/
structure Chosen (rows selected : List ReadyExecution) : Prop where
  mem : ∀ r ∈ selected, r ∈ rows
  nodup : (selected.map ReadyExecution.id).Nodup

/-- The selected rows are rows of the table, none of them twice. -/
theorem chosen_selectReadyRows {rows : List ReadyExecution}
    (nodup : (rows.map ReadyExecution.id).Nodup) (env : Env) (queues : QueueSelectors)
    (limit : Nat) : Chosen rows (selectReadyRows env rows queues limit) := by
  rw [selectReadyRows_eq nodup, specifiedRows]
  constructor
  · intro r mem
    exact List.mem_of_mem_filter (mem_orderBy.mp (List.mem_of_mem_take mem))
  · apply List.Nodup.sublist ((List.take_sublist _ _).map _)
    rw [((orderBy_perm _ _).map ReadyExecution.id).nodup_iff]
    exact nodup.sublist (List.filter_sublist.map _)

/-! ## Instances -/

/-- A job with the tracked key resolves to the tracked limit. -/
def Resolves (tracked : Option (String × Int)) (job : Job) : Prop :=
  ∀ t, tracked = some t → job.concurrencyKey = some t.1 → job.ResolvesTo t.2

/-- An instance of a job the caller loaded: the row with its key, if it is still there, has the
same identity, and the instance resolves as the jobs do. -/
structure JobLoaded (tracked : Option (String × Int)) (db : Db) (job : Job) : Prop where
  identity : ∀ j ∈ db.jobs, j.id = job.id → j.identity = job.identity
  limit : Resolves tracked job

/-- The key a caller passes in place of an instance promises nothing. -/
def ArgLoaded (tracked : Option (String × Int)) (db : Db) : JobArg → Prop
  | .job job => JobLoaded tracked db job
  | .pk _ => True

/-- An instance of a process the caller loaded: the row with its key, if it is still there,
belongs to the same backend. -/
def ProcessLoaded (db : Db) (process : Option Process) : Prop :=
  ∀ p, process = some p → ∀ q ∈ db.processes.rows, q.id = p.id → q.backendAlias = p.backendAlias

/-! ## Claiming -/

/-- Slots are held by jobs, whichever active state they are in. -/
theorem Audit.held_eq_of_active {a : Audit} (m m' : StateModel) (active : m.isActive = true)
    (active' : m'.isActive = true) (ids : List JobId) : a.held m ids = a.held m' ids := by
  rw [Audit.held, Audit.held, active, active']

namespace Accounts

variable {a : Audit} {hand hand' : List JobId} {owed owed' : Nat} {w w' : World} {u : Unit}

/-- The check of the process leaves the world as it is. -/
theorem of_run_ensureProcessBelongs {env : Env} {process : Option Process}
    (run : Runs (ensureProcessBelongs env process) w u w') :
    w' = w ∧ ∀ p, process = some p → p.backendAlias = env.config.backendAlias := by
  unfold ensureProcessBelongs at run
  split at run
  · exact ⟨(Runs.of_pure run).2, by rintro p ⟨⟩⟩
  · split at run
    · exact (Runs.of_throw run).elim
    · rename_i own
      refine ⟨(Runs.of_pure run).2, ?_⟩
      rintro p ⟨⟩
      exact Decidable.not_not.mp own

/-- The process of a claim, after the checks: a row of the operation's backend. -/
theorem ownProcess_of_ensured {process : Option Process} (loaded : ProcessLoaded w.db process)
    (own : ∀ p, process = some p → p.backendAlias = a.backendAlias)
    (run : Runs (ensureProcessExists process) w u w') :
    w' = w ∧ ∀ p, process = some p →
      ∃ q ∈ w.db.processes.rows, q.id = p.id ∧ q.backendAlias = a.backendAlias := by
  obtain ⟨db, w₁, got, check⟩ := Runs.of_bind run
  obtain ⟨rfl, rfl⟩ := of_run_getDb got
  obtain ⟨exists', rfl⟩ := of_run_runIf_throw check
  refine ⟨rfl, ?_⟩
  rintro p rfl
  rw [Option.any_some, Option.isNone_eq_false_iff] at exists'
  obtain ⟨q, found⟩ := Option.isSome_iff_exists.mp exists'
  have there := List.mem_of_find?_eq_some found
  have hit := List.find?_some found
  have same : q.id = p.id := beq_iff_eq.mp hit
  exact ⟨q, there, same, (loaded p rfl q there same).trans (own p rfl)⟩

/-- A claim of a job in hand by such a process. -/
theorem insertClaims {process : Option Process} {claimedAt : Time} :
    ∀ {ids : List JobId} {w : World},
      Accounts a (ids ++ hand) (owed + a.held .claimed ids) w.db → (∀ id ∈ ids, a.owns id = true) →
      (∀ p, process = some p →
        ∃ q ∈ w.db.processes.rows, q.id = p.id ∧ q.backendAlias = a.backendAlias) →
      Runs (ids.forM (insertClaimAt process claimedAt)) w u w' → Accounts a hand owed w'.db
  | [], w, good, _, _, run => by
      cases run
      simpa [Audit.held_nil] using good
  | id :: ids, w, good, own, ownProcess, run => by
      obtain ⟨v, w₁, head, tail⟩ := Runs.of_bind run
      rw [Audit.held_cons] at good
      have good : Accounts a (id :: (ids ++ hand))
          (owed + a.held .claimed ids + a.held .claimed [id]) w.db := by
        rw [Nat.add_assoc, Nat.add_comm (a.held .claimed ids)]
        exact good
      obtain ⟨i, known, backend⟩ := (Option.any_eq_true _ _).mp (own id List.mem_cons_self)
      obtain ⟨good₁, processes⟩ := good.insertRow (m := .claimed) (fun _ => rfl) (fun _ => rfl)
        (fun _ => ownRow_claimed known (beq_iff_eq.mp backend)) (fun _ pid claimed => by
          obtain ⟨p, some, rfl⟩ := Option.map_eq_some_iff.mp claimed
          exact ownProcess p some) head
      refine good₁.insertClaims (fun id mem => own id (List.mem_cons_of_mem _ mem)) ?_ tail
      rw [processes]
      exact ownProcess

variable {rows : List (ReadyExecution × Job)} {process : Option Process} {claimedAt : Time}

/-- The portable claim deletes the ready rows and creates the claims. -/
theorem claimPortably {claimed : List (ReadyExecution × Job)} (good : Accounts a hand owed w.db)
    (selected : Selected (m := .ready) w.db rows)
    (own : ∀ r ∈ rows, r.2.backendAlias = a.backendAlias) (loaded : ProcessLoaded w.db process)
    (ownProcess : ∀ p, process = some p → p.backendAlias = a.backendAlias)
    (run : Runs (claimPortably a.env rows process claimedAt) w claimed w') :
    Accounts a hand owed w'.db := by
  obtain ⟨consumed, w₁, consume, rest₁⟩ := Runs.of_bind run
  have db₁ := (of_run_consumeSelectedRows (m := .ready)
    (fun r mem => ⟨r.1, selected.mem r mem, rfl⟩) selected.nodup consume).2
  obtain ⟨rfl, good₁⟩ := good.consume (m := .ready) (fun _ => rfl) selected own consume
  obtain ⟨v, w₂, check, rest₂⟩ := Runs.of_bind rest₁
  obtain ⟨v', w₃, created, done⟩ := Runs.of_bind rest₂
  obtain ⟨-, rfl⟩ := Runs.of_pure done
  have ids : (consumed.map (fun r => claimedRow r.2.id process claimedAt)).map
      (rowJobId (m := .claimed)) = consumed.map (fun r => r.2.id) := by
    rw [List.map_map]
    rfl
  rcases Runs.of_runIf check with ⟨-, check⟩ | ⟨empty, rfl⟩
  · obtain ⟨rfl, exists'⟩ := ownProcess_of_ensured (a := a)
      (by rwa [ProcessLoaded, db₁, Db.processes_setTable]) ownProcess check
    refine Accounts.bulkCreate (m := .claimed) ?_ ?_ ?_ created
    · rw [ids, Audit.held_eq_of_active .claimed .ready rfl rfl]
      exact good₁
    · intro row mapped
      obtain ⟨r, mem, rfl⟩ := List.mem_map.mp mapped
      exact ownRow_claimed (good.knows_of_selected selected mem).identity (own r mem)
    · intro row mapped pid claimed
      obtain ⟨r, mem, rfl⟩ := List.mem_map.mp mapped
      obtain ⟨p, some, rfl⟩ := Option.map_eq_some_iff.mp claimed
      exact exists' p some
  · rw [Bool.not_eq_false', List.isEmpty_iff] at empty
    rw [empty] at created good₁
    cases created
    simpa [Audit.held_nil] using good₁

/-- The claim of PostgreSQL creates the claims in one statement. -/
theorem claimOnPostgres {claimed : List (ReadyExecution × Job)} (good : Accounts a hand owed w.db)
    (selected : Selected (m := .ready) w.db rows)
    (own : ∀ r ∈ rows, r.2.backendAlias = a.backendAlias) (loaded : ProcessLoaded w.db process)
    (ownProcess : ∀ p, process = some p → p.backendAlias = a.backendAlias)
    (run : Runs (claimOnPostgres rows process claimedAt) w claimed w') :
    Accounts a hand owed w'.db := by
  obtain ⟨v, w₁, check, rest₁⟩ := Runs.of_bind run
  obtain ⟨rfl, exists'⟩ := ownProcess_of_ensured (a := a) loaded ownProcess check
  obtain ⟨created, w₂, consumed, rest₂⟩ := Runs.of_bind rest₁
  split at rest₂
  · rename_i all
    obtain ⟨-, rfl⟩ := Runs.of_pure rest₂
    obtain ⟨db, w₃, got, rest₃⟩ := Runs.of_bind consumed
    obtain ⟨rfl, rfl⟩ := of_run_getDb got
    obtain ⟨n, w₄, deleted, rest₄⟩ := Runs.of_bind rest₃
    obtain ⟨v', w₅, inserted, done⟩ := Runs.of_bind rest₄
    obtain ⟨createdIs, rfl⟩ := Runs.of_pure done
    have there : ∀ r ∈ rows.map Prod.fst, r ∈ (w₃.db.table .ready).rows := by
      intro r mapped
      obtain ⟨pair, mem, rfl⟩ := List.mem_map.mp mapped
      exact selected.mem pair mem
    have keys : rows.map (fun r => r.1.id) = (rows.map Prod.fst).map (rowId (m := .ready)) := by
      rw [List.map_map]
      rfl
    have taken := good.filter_rowId_perm (m := .ready) there (keys ▸ selected.nodup)
    rw [← keys] at taken
    -- as many claims as selected rows, so no deleted row is left without one
    have whole : created = ((w₃.db.table .ready).rows.filter (fun r =>
        (rows.map (fun r => r.1.id)).contains (rowId r))).map rowJobId := by
      rw [createdIs]
      refine List.filter_sublist.eq_of_length ?_
      rw [← createdIs, all, List.length_map]
      have lengths := taken.length_eq
      rw [List.length_map] at lengths
      exact lengths.symm
    have ownRows : ∀ r ∈ (w₃.db.table .ready).rows,
        (rows.map (fun r => r.1.id)).contains (rowId r) = true → a.owns (rowJobId r) = true := by
      intro r inTable hit
      obtain ⟨pair, mem, rfl⟩ := List.mem_map.mp (taken.mem_iff.mp
        (List.mem_filter.mpr ⟨inTable, hit⟩))
      rw [← selected.id_eq mem]
      exact (good.knows_of_selected selected mem).owns (own pair mem)
    have good₄ := good.delete (m := .ready) ownRows
    rw [← whole, Audit.held_eq_of_active .ready .claimed rfl rfl] at good₄
    have db₄ := (of_run_deleteRowsWhere deleted).2
    rw [← createdIs] at inserted
    refine insertClaims (db₄ ▸ good₄) (fun id mem => ?_) ?_ inserted
    · rw [whole] at mem
      obtain ⟨r, hit, rfl⟩ := List.mem_map.mp mem
      obtain ⟨inTable, hit⟩ := List.mem_filter.mp hit
      exact ownRows r inTable hit
    · rw [db₄, Db.processes_setTable]
      exact exists'
  · obtain ⟨-, w₃, -, raised⟩ := Runs.of_bind rest₂
    exact (Runs.of_throw raised).elim

/-- Both ways to claim exchange ready rows for claims, and no slot changes hands. -/
theorem claimSelectedRows {claimed : List ClaimedJob} (good : Accounts a hand owed w.db)
    (selected : Selected (m := .ready) w.db rows)
    (own : ∀ r ∈ rows, r.2.backendAlias = a.backendAlias) (loaded : ProcessLoaded w.db process)
    (ownProcess : ∀ p, process = some p → p.backendAlias = a.backendAlias)
    (run : Runs (claimSelectedRows a.env rows process) w claimed w') :
    Accounts a hand owed w'.db := by
  obtain ⟨claimedAt, w₁, now, rest⟩ := Runs.of_bind run
  have same := of_run_timezoneNow now
  rw [← same] at good loaded selected
  obtain ⟨result, w₂, claim, done⟩ := Runs.of_bind rest
  obtain ⟨-, rfl⟩ := Runs.of_pure done
  unfold claimRows at claim
  split at claim
  · exact good.claimOnPostgres selected own loaded ownProcess claim
  · exact good.claimPortably selected own loaded ownProcess claim

/-- A claim exchanges ready rows for claims. -/
theorem claimReadyJobs {limit : Int} {queues : QueueSelectors} {claimed : List ClaimedJob}
    (good : Accounts a hand owed w.db) (loaded : ProcessLoaded w.db process)
    (run : Runs (claimReadyJobs a.env limit queues process) w claimed w') :
    Accounts a hand owed w'.db := by
  unfold DjQueue.claimReadyJobs at run
  split at run
  · obtain ⟨-, rfl⟩ := Runs.of_pure run
    exact good
  · obtain ⟨v₁, w₁, belongs, rest₁⟩ := Runs.of_bind (Runs.of_atomic run)
    obtain ⟨rfl, ownProcess⟩ := of_run_ensureProcessBelongs belongs
    obtain ⟨db, w₂, got, rest₂⟩ := Runs.of_bind rest₁
    obtain ⟨rfl, rfl⟩ := of_run_getDb got
    obtain ⟨v₃, w₃, check, rest₃⟩ := Runs.of_bind rest₂
    obtain ⟨v₄, w₄, belong, stateless⟩ := Runs.of_bind check
    obtain ⟨rfl, own⟩ := of_run_ensureStateRowsBelongToBackend (m := .ready) belong
    cases of_run_runIf_check of_run_ensureJobIdsHaveNoOtherExecutionState stateless
    have claimable : ((claimableRows w₃.db a.backendAlias).map ReadyExecution.id).Nodup :=
      (good.rowIds .ready).sublist (List.filter_sublist.map _)
    have chosen := chosen_selectReadyRows claimable a.env queues limit.toNat
    have selected := Selected.of_selectRelatedJob (m := .ready)
      (fun r mem => List.mem_of_mem_filter (chosen.mem r mem)) chosen.nodup
    dsimp only at rest₃
    split at rest₃
    · obtain ⟨-, rfl⟩ := Runs.of_pure rest₃
      exact good
    · exact good.claimSelectedRows (selected.sublist List.filter_sublist)
        (fun r mem => own r (List.mem_filter.mp mem).1) loaded ownProcess rest₃

/-! ## Ending a claim -/

/-- A job that was just read agrees with its row. -/
theorem jobLoaded_of_mem {db : Db} (good : Accounts a hand owed db) {job : Job}
    (mem : job ∈ db.jobs) : JobLoaded a.tracked db job where
  identity j there same := by rw [good.eq_of_id there mem same]
  limit := (good.knows job mem).limit

/-- An instance that agrees with its row is known. -/
theorem knows_of_loaded {db : Db} {job : Job} (good : Accounts a hand owed db)
    (loaded : JobLoaded a.tracked db job) {j : Job} (mem : j ∈ db.jobs) (same : j.id = job.id) :
    a.Knows job := by
  have identity := loaded.identity j mem same
  have knows := good.knows j mem
  refine ⟨?_, ?_, loaded.limit⟩
  · rw [← same, ← identity]
    exact knows.identity
  · have key : j.identity.concurrencyKey = job.identity.concurrencyKey := by rw [identity]
    change j.concurrencyKey = job.concurrencyKey at key
    rw [← key]
    exact knows.key

/-- What an operation on a claim finds is a job of its backend. -/
theorem of_run_resolveClaimedJob {arg : JobArg} {job : Job} (good : Accounts a hand owed w.db)
    (loaded : ArgLoaded a.tracked w.db arg) (run : Runs (resolveClaimedJob a.env arg) w job w') :
    w' = w ∧ job.backendAlias = a.backendAlias ∧ JobLoaded a.tracked w.db job := by
  cases arg with
  | job instance' =>
      simp only [resolveClaimedJob] at run
      split at run
      · exact (Runs.of_throw run).elim
      · rename_i own
        obtain ⟨rfl, rfl⟩ := Runs.of_pure run
        exact ⟨rfl, Decidable.not_not.mp own, loaded⟩
  | pk id =>
      obtain ⟨db, w₁, got, rest⟩ := Runs.of_bind run
      obtain ⟨rfl, rfl⟩ := of_run_getDb got
      split at rest
      · exact (Runs.of_throw rest).elim
      · rename_i found
        obtain ⟨rfl, rfl⟩ := Runs.of_pure rest
        have hit := List.find?_some found
        rw [Bool.and_eq_true, beq_iff_eq, beq_iff_eq] at hit
        exact ⟨rfl, hit.2, good.jobLoaded_of_mem (List.mem_of_find?_eq_some found)⟩

/-- A job has at most one claim. -/
theorem filter_jobId {db : Db} (good : Accounts a hand owed db) {m : StateModel} {id : JobId}
    {p : m.Row → Bool} (hits : ∀ r, p r = (rowJobId r == id))
    (some : (db.table m).rows.countP p ≠ 0) :
    ((db.table m).rows.filter p).map rowJobId = [id] ∧ id ∈ db.stateJobIds m := by
  obtain rfl : p = fun r => rowJobId r == id := funext hits
  obtain ⟨r, there, hit⟩ := List.countP_pos_iff.mp (Nat.pos_of_ne_zero some)
  have mem : id ∈ db.stateJobIds m := beq_iff_eq.mp hit ▸ List.mem_map_of_mem there
  refine ⟨?_, mem⟩
  have filtered := (List.filter_map (f := rowJobId (m := m)) (p := fun i => i == id)
    (l := (db.table m).rows)).symm
  have one := List.count_eq_one_of_mem (good.stateJobIds_nodup m) mem
  rw [show (List.map rowJobId (db.table m).rows) = db.stateJobIds m from rfl, List.filter_beq, one]
    at filtered
  exact filtered

/-- The claim of a job of the backend is deleted: the job is in hand, and its slot is owed. -/
theorem deleteClaim {job : Job} {n : Nat} (good : Accounts a hand owed w.db)
    (own : job.backendAlias = a.backendAlias) (loaded : JobLoaded a.tracked w.db job) (some : n ≠ 0)
    (run : Runs (deleteRowsWhere .claimed (fun r => r.jobId == job.id)) w n w') :
    Accounts a (job.id :: hand) (owed + a.jobSlot job) w'.db ∧ a.Knows job ∧
      w'.db.jobs = w.db.jobs := by
  obtain ⟨rfl, db'⟩ := of_run_deleteRowsWhere run
  obtain ⟨ids, mem⟩ := good.filter_jobId (m := .claimed) (p := fun r => r.jobId == job.id)
    (fun _ => rfl) some
  obtain ⟨j, there, same⟩ := good.job_of_mem_stateJobIds mem
  have knows := good.knows_of_loaded loaded there same
  have deleted := good.delete (m := .claimed) (p := fun r => r.jobId == job.id) (fun r _ hit => by
    rw [show rowJobId r = job.id from beq_iff_eq.mp hit]
    exact knows.owns own)
  rw [ids, knows.held rfl] at deleted
  rw [db', Db.jobs_setTable]
  exact ⟨deleted, knows, rfl⟩

/-- A claim that is deleted leaves its job and its slot in hand. -/
theorem deleteClaimedExecution {job : Job} (good : Accounts a hand owed w.db)
    (own : job.backendAlias = a.backendAlias) (loaded : JobLoaded a.tracked w.db job)
    (run : Runs (deleteClaimedExecution job.id) w u w') :
    Accounts a (job.id :: hand) (owed + a.jobSlot job) w'.db ∧ a.Knows job := by
  obtain ⟨n, w₁, deleted, check⟩ := Runs.of_bind run
  obtain ⟨some, rfl⟩ := of_run_runIf_throw check
  obtain ⟨good₁, knows, -⟩ := good.deleteClaim own loaded (of_decide_eq_false some) deleted
  exact ⟨good₁, knows⟩

/-- The PostgreSQL statement deletes one claim and finishes one job, which is the same. -/
theorem deleteClaimedAndFinish {job : Job} {returnValue : Option String} {now : Time}
    (good : Accounts a hand owed w.db) (own : job.backendAlias = a.backendAlias)
    (loaded : JobLoaded a.tracked w.db job)
    (run : Runs (deleteClaimedAndFinishJobIfNoExecutionState job returnValue now) w u w') :
    Accounts a hand (owed + a.jobSlot job) w'.db ∧ a.Knows job := by
  obtain ⟨db, w₁, got, rest₁⟩ := Runs.of_bind run
  obtain ⟨rfl, rfl⟩ := of_run_getDb got
  obtain ⟨n, w₂, deleted, rest₂⟩ := Runs.of_bind rest₁
  obtain ⟨v₃, w₃, updated, rest₃⟩ := Runs.of_bind rest₂
  obtain ⟨v₄, w₄, check₄, check₅⟩ := Runs.of_bind rest₃
  obtain ⟨deletedOne, rfl⟩ := of_run_runIf_throw check₄
  obtain ⟨hitOne, rfl⟩ := of_run_runIf_throw check₅
  have deletedOne := Decidable.not_not.mp (of_decide_eq_false deletedOne)
  obtain ⟨good₂, knows, jobs⟩ := good.deleteClaim own loaded (by omega) deleted
  refine ⟨?_, knows⟩
  rw [of_run_modifyDb updated]
  refine good₂.finish (knows.owns own) ?_ (fun _ => rfl) (fun _ => rfl)
  -- the update hit a row, and only the job's own row has its key
  have hitOne := Decidable.not_not.mp (of_decide_eq_false hitOne)
  obtain ⟨i, there, hit⟩ := List.countP_pos_iff.mp (hitOne ▸ Nat.one_pos)
  have key := hit
  simp only [Bool.and_eq_true, beq_iff_eq] at key
  intro j mem
  constructor
  · intro hit
    simp only [Bool.and_eq_true, beq_iff_eq] at hit
    exact hit.1.1.1
  · intro same
    rw [good₂.eq_of_id mem (jobs ▸ there) (same.trans key.1.1.1.symm)]
    exact hit

/-- A finished job leaves its slot in hand. -/
theorem finishClaimedJob {job : Job} {returnValue : Option String} {now : Time}
    (good : Accounts a hand owed w.db) (own : job.backendAlias = a.backendAlias)
    (loaded : JobLoaded a.tracked w.db job)
    (run : Runs (finishClaimedJob a.env job returnValue now) w u w') :
    Accounts a hand (owed + a.jobSlot job) w'.db ∧ a.Knows job := by
  unfold DjQueue.finishClaimedJob at run
  split at run
  · split at run
    · exact good.deleteClaimedAndFinish own loaded run
    · obtain ⟨v, w₁, deleted, finished⟩ := Runs.of_bind run
      obtain ⟨good₁, knows⟩ := good.deleteClaimedExecution own loaded deleted
      exact ⟨good₁.finishJobIfNoExecutionState (knows.owns own) finished, knows⟩
  · obtain ⟨v₁, w₁, deleted, rest₁⟩ := Runs.of_bind run
    obtain ⟨good₁, knows⟩ := good.deleteClaimedExecution own loaded deleted
    obtain ⟨v₂, w₂, check, rest₂⟩ := Runs.of_bind rest₁
    cases of_run_ensureNoOtherExecutionState check
    obtain ⟨n, w₃, gone, done⟩ := Runs.of_bind rest₂
    obtain ⟨-, rfl⟩ := Runs.of_pure done
    refine ⟨deleteHand [job.id] good₁ ?_ (fun j _ => by simp) gone, knows⟩
    intro id mem
    rw [List.mem_singleton.mp mem]
    exact knows.owns own

/-- A successful job gives its slot back. -/
theorem completeClaimedJob {arg : JobArg} {returnValue : Option String} {task : Option Imported}
    (good : Accounts a hand owed w.db) (loaded : ArgLoaded a.tracked w.db arg)
    (run : Runs (completeClaimedJob a.env arg returnValue task) w u w') :
    Accounts a hand owed w'.db := by
  obtain ⟨job, w₁, resolved, rest₁⟩ := Runs.of_bind run
  obtain ⟨rfl, own, loaded⟩ := good.of_run_resolveClaimedJob loaded resolved
  obtain ⟨now, w₂, read, rest₂⟩ := Runs.of_bind (Runs.of_atomic rest₁)
  rw [← of_run_timezoneNow read] at good loaded
  obtain ⟨v, w₃, finished, released⟩ := Runs.of_bind rest₂
  obtain ⟨good₃, knows⟩ := good.finishClaimedJob own loaded finished
  exact good₃.releaseConcurrencySlot knows released

theorem failClaimedJob {arg : JobArg} {failure : Failure} {task : Option Imported}
    (good : Accounts a hand owed w.db) (loaded : ArgLoaded a.tracked w.db arg)
    (run : Runs (failClaimedJob a.env arg failure task) w u w') : Accounts a hand owed w'.db := by
  obtain ⟨job, w₁, resolved, rest₁⟩ := Runs.of_bind run
  obtain ⟨rfl, own, loaded⟩ := good.of_run_resolveClaimedJob loaded resolved
  obtain ⟨v₂, w₂, deleted, rest₂⟩ := Runs.of_bind (Runs.of_atomic rest₁)
  obtain ⟨good₂, knows⟩ := good.deleteClaimedExecution own loaded deleted
  obtain ⟨v₃, w₃, check, rest₃⟩ := Runs.of_bind rest₂
  cases of_run_ensureNoOtherExecutionState check
  obtain ⟨v₄, w₄, created, released⟩ := Runs.of_bind rest₃
  have good₄ := (Accounts.createRow (m := .failed)
    (by rw [Audit.held_of_inactive rfl]; exact good₂) (ownRow_failed knows.identity own)
    (Audit.ownProcess_of_ne (by decide) _) created).1
  exact good₄.releaseConcurrencySlot knows released

end Accounts

end DjQueue
