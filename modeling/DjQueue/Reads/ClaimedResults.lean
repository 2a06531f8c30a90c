import DjQueue.Interleaving.ReadyRows
import DjQueue.Reads.EnqueueResults

/-!
# The result that a running task sees

A task that takes a context is told its result from the claim in memory; `get_result` makes it of
the rows.  The two differ in the task, which the context has as it was imported, and in the time of
the start where `auto_now_add` reads the clock for the row once more.
-/

namespace DjQueue

open Relational

/-! ## The rows of a claim -/

/-- The process rows and the claims of a database. -/
def workParts (db : Db) : Table Process × Table ClaimedExecution := (db.processes, db.claimed)

/-- Claims that were not there before are for the process, from a time of those allowed. -/
structure ClaimedFor (process : Option Process) (from_ : Time → Prop) (db db' : Db) : Prop where
  processes : db'.processes = db.processes
  claims : ∀ c ∈ db'.claimed.rows, c ∈ db.claimed.rows ∨
    c.processId = process.map Process.id ∧ from_ c.createdAt

namespace ClaimedFor

variable {process : Option Process} {from_ : Time → Prop} {db db' db'' : Db}

/-- Nothing changed in the tables concerned. -/
theorem of_parts (same : workParts db' = workParts db) : ClaimedFor process from_ db db' := by
  rcases Prod.mk.inj same with ⟨processes, claimed⟩
  refine ⟨processes, fun c mem => .inl ?_⟩
  rwa [← claimed]

/-- Two stretches of claiming make one. -/
theorem trans (first : ClaimedFor process from_ db db')
    (second : ClaimedFor process from_ db' db'') : ClaimedFor process from_ db db'' := by
  refine ⟨second.processes.trans first.processes, fun c mem => ?_⟩
  rcases second.claims c mem with mem | new
  · exact first.claims c mem
  · exact .inr new

/-- Claims stamped from one set of readings are stamped from a larger one. -/
theorem mono {from' : Time → Prop} (claimed : ClaimedFor process from_ db db')
    (weaker : ∀ t, from_ t → from' t) : ClaimedFor process from' db db' := by
  refine ⟨claimed.processes, fun c mem => ?_⟩
  rcases claimed.claims c mem with mem | ⟨same, at'⟩
  · exact .inl mem
  · exact .inr ⟨same, weaker _ at'⟩

/-- A new claim is appended. -/
theorem insert {mk : Nat → ClaimedExecution}
    (for_ : ∀ n, (mk n).processId = process.map Process.id ∧ from_ (mk n).createdAt) :
    ClaimedFor process from_ db (db.setTable .claimed (db.claimed.insert mk)) := by
  refine ⟨rfl, fun c mem => ?_⟩
  rcases List.mem_append.mp mem with mem | mem
  · exact .inl mem
  · rw [List.mem_singleton.mp mem]
    exact .inr (for_ _)

end ClaimedFor

section Claiming

variable {env : Env} {w w' : World} {u : Unit} {process : Option Process} {claimedAt : Time}
  {rows claimed : List (ReadyExecution × Job)}

/-- Ready rows are not among the tables concerned. -/
theorem apart_workParts : Apart workParts .ready := fun _ _ => rfl

/-- PostgreSQL inserts the claims with the time it is given. -/
theorem claimedFor_of_claimOnPostgres
    (run : Runs (claimOnPostgres rows process claimedAt) w claimed w') :
    ClaimedFor process (· = claimedAt) w.db w'.db := by
  rcases Runs.of_bind run with ⟨v, w₁, checked, rest⟩
  rw [of_run_ensureProcessExists checked] at rest
  rcases Runs.of_bind rest with ⟨created, w₂, consumed, rest⟩
  have last : w'.db = w₂.db := by
    split at rest
    · rw [(Runs.of_pure rest).2]
    · rcases Runs.of_bind rest with ⟨-, w₃, -, raised⟩
      exact (Runs.of_throw raised).elim
  rw [last]
  rcases Runs.of_bind consumed with ⟨db, w₃, got, body⟩
  rcases of_run_getDb got with ⟨rfl, rfl⟩
  rcases Runs.of_bind body with ⟨n, w₄, deleted, body⟩
  rcases Runs.of_bind body with ⟨v', w₅, inserted, done⟩
  rcases Runs.of_pure done with ⟨-, rfl⟩
  have emptied : ClaimedFor process (· = claimedAt) w₃.db w₄.db := by
    apply ClaimedFor.of_parts
    rw [(of_run_deleteRowsWhere deleted).2]
    exact apart_workParts _ _
  have each : ∀ id, Relates (fun s t : World => ClaimedFor process (· = claimedAt) s.db t.db)
      (insertClaimAt process claimedAt id) := by
    intro id s v t run
    rw [Accounts.of_run_insertRow run]
    exact ClaimedFor.insert fun n => ⟨rfl, rfl⟩
  have filled := Relates.forM (R := fun s t : World => ClaimedFor process (· = claimedAt) s.db t.db)
    (fun _ => .of_parts rfl) (fun _ _ _ => ClaimedFor.trans) each _ _ _ _ inserted
  exact emptied.trans filled

/-- The clock and the parts that consuming ready rows leaves alone. -/
def SameWork (s t : World) : Prop := t.clock = s.clock ∧ workParts t.db = workParts s.db

/-- Deleting ready rows touches none of them. -/
theorem sameWork_deleteRowsWhere (p : ReadyExecution → Bool) :
    Relates SameWork (deleteRowsWhere .ready p) := by
  intro w n w' run
  cases run
  exact ⟨rfl, apart_workParts _ _⟩

theorem SameWork.trans (s t v : World) (first : SameWork s t) (second : SameWork t v) :
    SameWork s v :=
  ⟨second.1.trans first.1, second.2.trans first.2⟩

/-- Consuming rows one by one touches none. -/
theorem sameWork_consumeEachRow {β : Type} (pk : β → Nat) :
    ∀ rows : List β, Relates SameWork (consumeEachRow .ready pk rows)
  | [] => .pure (fun _ => ⟨rfl, rfl⟩) _
  | row :: rows => by
      apply Relates.bind SameWork.trans (sameWork_deleteRowsWhere _)
      intro deleted
      apply Relates.bind SameWork.trans (sameWork_consumeEachRow pk rows)
      intro consumed
      exact .pure (fun _ => ⟨rfl, rfl⟩) _

/-- Consuming the rows selected touches none. -/
theorem sameWork_consumeSelectedRows {β : Type} (pk : β → Nat) (rows : List β) :
    Relates SameWork (consumeSelectedRows env .ready pk rows) := by
  unfold consumeSelectedRows
  split
  · exact sameWork_consumeEachRow pk rows
  · apply Relates.bind SameWork.trans (sameWork_deleteRowsWhere _)
    intro deleted
    exact .pure (fun _ => ⟨rfl, rfl⟩) _

theorem clock_of_run_insertRow {m : StateModel} {jobId : JobId} {mk : Nat → m.Row}
    (run : Runs (insertRow m jobId mk) w u w') : w'.clock = w.clock := by
  rcases Runs.of_bind run with ⟨db, w₁, got, rest⟩
  rcases of_run_getDb got with ⟨rfl, rfl⟩
  split at rest
  · exact (Runs.of_throw rest).elim
  · cases rest
    rfl

/-- `bulk_create` stamps each claim with a reading of its own. -/
theorem claimedFor_of_bulkCreate :
    ∀ {rows : List ClaimedExecution} {w : World},
      (∀ r ∈ rows, r.processId = process.map Process.id) →
      Runs (bulkCreate .claimed rows) w u w' →
      ClaimedFor process (fun t => ∃ n, t = w.clock n) w.db w'.db
  | [], w, _, run => by
      rw [(Runs.of_pure run).2]
      exact .of_parts rfl
  | row :: rows, w, for_, run => by
      rcases Runs.of_bind run with ⟨v, w₁, created, rest⟩
      rcases Runs.of_bind created with ⟨now, w₂, read, inserted⟩
      cases read
      have clock := clock_of_run_insertRow inserted
      have first : ClaimedFor process (fun t => ∃ n, t = w.clock n) w.db w₁.db := by
        rw [Accounts.of_run_insertRow inserted]
        exact .insert fun n => ⟨for_ row List.mem_cons_self, 0, rfl⟩
      have later := claimedFor_of_bulkCreate (fun r mem => for_ r (List.mem_cons_of_mem _ mem)) rest
      apply first.trans (later.mono ?_)
      intro t at'
      rcases at' with ⟨n, rfl⟩
      exact ⟨n + 1, by rw [clock]⟩

/-- The foreign key holds: a process that is claimed for has a row. -/
theorem process_of_ensured (run : Runs (ensureProcessExists process) w u w') {p : Process}
    (some_ : process = some p) : ∃ q ∈ w.db.processes.rows, q.id = p.id := by
  rcases Runs.of_bind run with ⟨db, w₁, got, check⟩
  rcases of_run_getDb got with ⟨rfl, rfl⟩
  have exists' := (of_run_runIf_throw check).1
  rw [some_, Option.any_some, Option.isNone_eq_false_iff] at exists'
  rcases Option.isSome_iff_exists.mp exists' with ⟨q, found⟩
  have hit := List.find?_some found
  exact ⟨q, List.mem_of_find?_eq_some found, beq_iff_eq.mp hit⟩

/-- What a claim leaves of the claims, and what it returns beside the jobs. -/
theorem claimedFor_of_claimRows (run : Runs (claimRows env rows process claimedAt) w claimed w') :
    ClaimedFor process (fun t => if env.config.family = .postgresql then t = claimedAt
        else ∃ n, t = w.clock n) w.db w'.db ∧
      (claimed ≠ [] → ∀ p, process = some p → ∃ q ∈ w.db.processes.rows, q.id = p.id) := by
  unfold claimRows at run
  split at run
  · rename_i family
    rcases Runs.of_bind run with ⟨v, w₁, checked, rest⟩
    simp only [family, if_true]
    exact ⟨claimedFor_of_claimOnPostgres run, fun _ p some_ => process_of_ensured checked some_⟩
  · rename_i family
    have other : env.config.family ≠ .postgresql := family
    simp only [other, if_false]
    rcases Runs.of_bind run with ⟨consumed, w₁, taken, rest⟩
    rcases sameWork_consumeSelectedRows _ _ _ _ _ taken with ⟨clock, parts⟩
    rcases Runs.of_bind rest with ⟨v, w₂, checked, rest⟩
    have unchanged := of_run_runIf_check of_run_ensureProcessExists checked
    rw [unchanged] at rest
    rcases Runs.of_bind rest with ⟨v', w₃, created, done⟩
    rcases Runs.of_pure done with ⟨rfl, rfl⟩
    constructor
    · apply (ClaimedFor.of_parts parts).trans
      rw [← clock]
      apply claimedFor_of_bulkCreate _ created
      intro r mem
      rcases List.mem_map.mp mem with ⟨x, -, rfl⟩
      rfl
    · intro some_ p same
      rcases Runs.of_runIf checked with ⟨-, ensured⟩ | ⟨none, -⟩
      · rw [← (Prod.mk.inj parts).1]
        exact process_of_ensured ensured same
      · simp [some_] at none

end Claiming

/-! ## The context -/

/-- The ready jobs of a state in which the books are right. -/
theorem Accounts.queued {a : Audit} {db : Db} (good : Accounts a [] 0 db) : Queued db where
  ids := good.rowIds .ready
  bound := good.rowBound .ready
  jobs := good.stateJobIds_nodup .ready
  claims := good.stateJobIds_nodup .claimed
  apart r ready c claimed same := by
    have waits := good.statusOf_eq_of_shows (p := some (.live .ready)) (List.mem_map_of_mem ready)
    have runs := good.statusOf_eq_of_shows (p := some (.live .claimed))
      (List.mem_map_of_mem claimed)
    rw [show rowJobId (m := .claimed) c = rowJobId (m := .ready) r from same, waits] at runs
    cases runs

section Context

variable {a : Audit} {api : TaskApi} {env : Env} {limit : Int} {queues : QueueSelectors}
  {process : Option Process} {w w' : World} {claimed : List ClaimedJob} {c : ClaimedJob}

/-- The claim consumes rows that it selected, of jobs of its backend. -/
theorem selection_of_claimReadyJobs (good : Accounts a [] 0 w.db) (mem : c ∈ claimed)
    (run : Runs (claimReadyJobs env limit queues process) w claimed w') :
    ∃ rows, Selected (m := .ready) w.db rows ∧
      (∀ r ∈ rows, r.2.backendAlias = env.config.backendAlias) ∧
      Runs (claimSelectedRows env rows process) w claimed w' := by
  unfold claimReadyJobs at run
  split at run
  · rw [(Runs.of_pure run).1] at mem
    exact absurd mem List.not_mem_nil
  · rcases Runs.of_bind (Runs.of_atomic run) with ⟨v, w₁, belongs, rest₁⟩
    rw [(Accounts.of_run_ensureProcessBelongs belongs).1] at rest₁
    rcases Runs.of_bind rest₁ with ⟨db, w₂, got, rest₂⟩
    rcases of_run_getDb got with ⟨rfl, rfl⟩
    rcases Runs.of_bind rest₂ with ⟨v', w₃, check, rest₃⟩
    rcases Runs.of_bind check with ⟨v'', w₄, belong, stateless⟩
    rcases of_run_ensureStateRowsBelongToBackend (m := .ready) belong with ⟨rfl, own⟩
    cases of_run_runIf_check of_run_ensureJobIdsHaveNoOtherExecutionState stateless
    have claimable : ((claimableRows w₃.db env.config.backendAlias).map ReadyExecution.id).Nodup :=
      (good.rowIds .ready).sublist (List.filter_sublist.map _)
    have chosen := chosen_selectReadyRows claimable env queues limit.toNat
    have selected := Selected.of_selectRelatedJob (m := .ready)
      (fun r mem => List.mem_of_mem_filter (chosen.mem r mem)) chosen.nodup
    dsimp only at rest₃
    split at rest₃
    · rw [(Runs.of_pure rest₃).1] at mem
      exact absurd mem List.not_mem_nil
    · exact ⟨_, selected.sublist List.filter_sublist,
        fun r mem => own r (List.mem_filter.mp mem).1, rest₃⟩

/-- The row of a job that was just claimed. -/
structure RowOfClaim (env : Env) (process : Option Process) (w : World) (db' : Db) (c : ClaimedJob)
    (row : ClaimedExecution) : Prop where
  job : c.job ∈ db'.jobs
  own : c.job.backendAlias = env.config.backendAlias
  mem : row ∈ db'.claimed.rows
  jobId : row.jobId = c.job.id
  processId : row.processId = process.map Process.id
  processes : db'.processes = w.db.processes
  process_ : ∀ p, process = some p → ∃ q ∈ w.db.processes.rows, q.id = p.id
  claimedAt : c.claimedAt = w.clock 0
  workerIds : c.workerIds = (process.map Process.name).toList
  createdAt : ∃ n, row.createdAt = w.clock n ∧ (env.config.family = .postgresql ↔ n = 0)

/-- Each of the selected rows that was still there has a claim, which is a new one. -/
theorem Claims.row {rows : List (ReadyExecution × Job)} {db db' : Db} (claims : Claims rows db db')
    {x : ReadyExecution × Job} (kept : x ∈ stillThere db rows) :
    ∃ row ∈ db'.claimed.rows, row.jobId = x.1.jobId ∧ row ∉ db.claimed.rows := by
  rcases claims.claimed with ⟨new, appended, perm, fresh⟩
  have claimedId : x.1.jobId ∈ new.map ClaimedExecution.jobId :=
    perm.mem_iff.mpr (List.mem_map.mpr ⟨x, kept, rfl⟩)
  rcases List.mem_map.mp claimedId with ⟨row, inNew, ofJob⟩
  refine ⟨row, ?_, ofJob, fun old => fresh row inNew (List.mem_map_of_mem old)⟩
  rw [appended]
  exact List.mem_append_right _ inNew

/-- Every job `claim_ready_jobs` returns has a claim of the moment it says. -/
theorem rowOfClaim_of_claimReadyJobs (good : Accounts a [] 0 w.db) (mem : c ∈ claimed)
    (run : Runs (claimReadyJobs env limit queues process) w claimed w') :
    ∃ row, RowOfClaim env process w w'.db c row := by
  rcases selection_of_claimReadyJobs good mem run with ⟨rows, selected, own, body⟩
  have queued := good.queued
  rcases claims_of_claimSelectedRows queued selected.nodup (fun x there => selected.id_eq there)
    (fun x there r inTable same => queued.eq_of_id inTable (selected.mem x there) same)
    (fun _ x there => List.mem_map_of_mem (selected.mem x there)) body with ⟨order, claims⟩
  have listed : c.job ∈ (stillThere w.db rows).map Prod.snd := by
    rw [← order]
    exact List.mem_map_of_mem mem
  rcases List.mem_map.mp listed with ⟨x, kept, same⟩
  have inRows : x ∈ rows := List.mem_of_mem_filter kept
  rcases claims.row kept with ⟨row, inTable, ofJob, notOld⟩
  rcases Runs.of_bind body with ⟨now, w₁, read, rest⟩
  cases read
  rcases Runs.of_bind rest with ⟨taken, w₂, claims', done⟩
  rcases Runs.of_pure done with ⟨result, rfl⟩
  rcases claimedFor_of_claimRows claims' with ⟨for_, exists_⟩
  rw [result] at mem
  rcases List.mem_map.mp mem with ⟨y, inTaken, made⟩
  have new_ : row.processId = process.map Process.id ∧
      (if env.config.family = .postgresql then row.createdAt = w.clock 0
        else ∃ n, row.createdAt = w.clock (n + 1)) := by
    rcases for_.claims row inTable with old | found
    · exact absurd old notOld
    · exact found
  refine ⟨row, ?_, ?_, inTable, ?_, new_.1, for_.processes, ?_, ?_, ?_, ?_⟩
  · rw [claims.jobs, ← same]
    exact (mem_of_findJob (selected.job x inRows)).1
  · rw [← same]
    exact own x inRows
  · rw [ofJob, ← same]
    exact (selected.id_eq inRows).symm
  · exact exists_ (List.ne_nil_of_mem inTaken)
  · rw [← made]
  · rw [← made]
  · have at' := new_.2
    split at at'
    · rename_i family
      exact ⟨0, at', by simp [family]⟩
    · rename_i family
      rcases at' with ⟨n, at'⟩
      exact ⟨n + 1, at', by simp [family]⟩

/-- The worker is named by its process row as the claim names it. -/
theorem RowOfClaim.worker {db' : Db} {row : ClaimedExecution}
    (found : RowOfClaim env process w db' c row)
    (named : ∀ p, process = some p → ∀ q ∈ w.db.processes.rows, q.id = p.id → q.name = p.name) :
    (db'.processOf row).toList.map Process.name = c.workerIds := by
  rw [found.workerIds, Db.processOf, found.processId, found.processes]
  cases some_ : process with
  | none => rfl
  | some p =>
      rcases found.process_ p some_ with ⟨q, there, same⟩
      have some_q : (w.db.processes.rows.find? (fun q => q.id == p.id)).isSome = true :=
        List.find?_isSome.mpr ⟨q, there, beq_iff_eq.mpr same⟩
      rcases Option.isSome_iff_exists.mp some_q with ⟨q', found'⟩
      have hit := List.find?_some found'
      have name := named p some_ q' (List.mem_of_find?_eq_some found') (beq_iff_eq.mp hit)
      simp [found', name]

/-- The result a task is told when it runs is the one `get_result` makes of its rows, but for the
task, which is not bound to the job, and a start that was read off the clock earlier. -/
theorem context_result_reads_back (reached : Reachable none w.db)
    (loaded : ∀ p, process = some p → ∀ q ∈ w.db.processes.rows, q.id = p.id →
      q.backendAlias = p.backendAlias ∧ q.name = p.name)
    (run : Runs (claimReadyJobs env limit queues process) w claimed w') (mem : c ∈ claimed)
    {task bound : Imported} (binds : taskForJob api env c.job = .ok bound) :
    ∃ n, (env.config.family = .postgresql ↔ n = 0) ∧ c.claimedAt = w.clock 0 ∧
      getResult api env w'.db c.job.id = .ok { taskResultForClaimedJob api task c with
        task := bound
        startedAt := some (w.clock n)
        lastAttemptedAt := some (w.clock n) } := by
  have sound : Sound none w.db := sound_of_reachable (by intro t tracked; cases tracked) reached
  rcases sound.accounts with ⟨a, -, good⟩
  rcases rowOfClaim_of_claimReadyJobs good mem run with ⟨row, found⟩
  rcases found.createdAt with ⟨n, createdAt, family⟩
  refine ⟨n, family, found.claimedAt, ?_⟩
  have promised : (JobOperation.claimReadyJobs limit queues process).Promised none env w.db :=
    fun p some_ q there same => (loaded p some_ q there same).1
  have moved := JobOperation.moves (.claimReadyJobs limit queues process) sound promised
  rw [show (JobOperation.claimReadyJobs limit queues process).final env w = w' from
    run.finalState_eq] at moved
  rcases moved.sound.accounts with ⟨a', -, good'⟩
  have worker := found.worker fun p some_ q there same => (loaded p some_ q there same).2
  rw [good'.getResult_of_claimed found.job found.own binds found.mem found.jobId, worker,
    createdAt]
  rfl

end Context

/-! ### A worker that claims the first of two jobs -/

/-- A worker process of id 1. -/
def workerOne : Process := ⟨1, "default", 10, "worker-1", none, 0⟩

/-- The worker registered, two jobs enqueued. -/
def onShift : World :=
  ⟨afterRegister 10 "worker-1" none 0 twoEnqueued, fun n => 7 + n, fun _ => 0⟩

/-- One job claimed by the worker, read back as running. -/
theorem context_result_reads_back_worker : ∃ claimed w',
    Runs (claimReadyJobs callingEnv 1 .none (some workerOne)) onShift claimed w' ∧
      claimed.map ClaimedJob.workerIds = [["worker-1"]] ∧
      ∀ c ∈ claimed, ∃ n : Nat, n ≠ 0 ∧ getResult plainApi callingEnv w'.db c.job.id =
        .ok { taskResultForClaimedJob plainApi (.task syncCall.task) c with
          startedAt := some (7 + n)
          lastAttemptedAt := some (7 + n) } := by
  have reached : Reachable none onShift.db :=
    (reachable_twoEnqueued (by intro t tracked; cases tracked)).tail
      (step_afterRegister _ _ _ _ (fun s given => by cases given))
  have ran : ∃ claimed w', Runs (claimReadyJobs callingEnv 1 .none (some workerOne)) onShift claimed
      w' := ⟨_, _, rfl⟩
  have looks : (returned (claimReadyJobs callingEnv 1 .none (some workerOne)) onShift).map
      (List.map (fun c => (c.workerIds, taskForJob plainApi callingEnv c.job))) =
        some [(["worker-1"], .ok (.task syncCall.task))] := by
    decide +kernel
  have loaded : ∀ p, some workerOne = some p → ∀ q ∈ onShift.db.processes.rows, q.id = p.id →
      q.backendAlias = p.backendAlias ∧ q.name = p.name := by
    intro p some_
    cases some_
    decide +kernel
  rcases ran with ⟨claimed, w', run⟩
  rw [run.returned_eq] at looks
  have listed := Option.some.inj looks
  refine ⟨claimed, w', run, ?_, fun c mem => ?_⟩
  · have workers := congrArg (List.map Prod.fst) listed
    rwa [List.map_map] at workers
  · have binds := List.mem_map_of_mem
      (f := fun c => (c.workerIds, taskForJob plainApi callingEnv c.job)) mem
    rw [listed] at binds
    have imported := (Prod.mk.inj (List.mem_singleton.mp binds)).2
    rcases @context_result_reads_back plainApi callingEnv 1 .none (some workerOne) onShift w'
      claimed c reached loaded run mem (.task syncCall.task) _ imported with ⟨n, family, -, read⟩
    refine ⟨n, fun zero => ?_, read⟩
    have postgres := family.mpr zero
    cases postgres

end DjQueue
