import DjQueue.Operations.Jobs

/-!
# Processes and recovery

The rows `runtime/base.py` keeps for each process, and `operations/recovery.py`: what
happens to the claims of a process that is gone.  Deleting a process sets the claims and
the child processes that point to it to null.
-/

namespace DjQueue

open Relational

/-! ## Process rows -/

/-- The unique constraint on `(backend_alias, name, supervisor_identity)`. -/
def processIdentity (p : Process) : String × String × Nat :=
  (p.backendAlias, p.name, p.supervisorId.getD 0)

/-- The processes are written, if their names are unique. -/
def saveProcesses (processes : Table Process) : Op Unit :=
  if (processes.rows.map processIdentity).Nodup then
    modifyDb (fun db => { db with processes := processes })
  else throw .integrityError

/-- The foreign key from a process to its supervisor. -/
def supervisorExists (db : Db) (supervisorId : Option Nat) : Bool :=
  supervisorId.all (fun id => db.processes.rows.any (fun p => p.id == id))

/-- `_register_process` -/
def registerProcess (env : Env) (pid : Int) (name : String) (supervisorId : Option Nat) :
    Op Process := do
  let now ← timezoneNow
  let db ← getDb
  if supervisorExists db supervisorId then do
    let mk : Nat → Process := fun id =>
      ⟨id, env.config.backendAlias, pid, name, supervisorId, now⟩
    saveProcesses (db.processes.insert mk)
    pure (mk db.processes.nextId)
  else throw .integrityError

/-- `_touch_process_row` -/
def touchProcessRow (processId : Nat) : Op Unit := do
  let now ← timezoneNow
  modifyDb (fun db => { db with
    processes := db.processes.updateWhere (fun p => p.id == processId)
      (fun p => { p with lastHeartbeatAt := now }) })

/-- `Process` deletes set the references to the deleted rows to null before the rows go; returns
their number. -/
def deleteProcessesWhere (p : Process → Bool) : Op Nat := do
  let db ← getDb
  let ids := (db.processes.rows.filter p).map Process.id
  saveProcesses (db.processes.updateWhere
    (fun q => q.supervisorId.any ids.contains) (fun q => { q with supervisorId := none }))
  modifyDb (fun db => { db with
    processes := db.processes.deleteWhere (fun q => ids.contains q.id)
    claimed := db.claimed.updateWhere (fun r => r.processId.any ids.contains)
      (fun r => { r with processId := none }) })
  pure ids.length

/-- `_deregister_process` -/
def deregisterProcess (processId : Nat) : Op Unit :=
  transactionAtomic do
    let _ ← deleteProcessesWhere (fun p => p.id == processId)
    pure ()

/-! ## Failing the claims of lost processes -/

/-- The releases of recovered slots, and one by one those that were left. -/
def releaseFallback (env : Env) (jobs : List Job) : Op Unit := do
  let fallback ← releaseRecoveredConcurrencySlots env jobs
  releaseAll env fallback

/-- `_fail_claimed_jobs` -/
def failClaimedJobs (env : Env) (jobs : List Job) (failure : Failure) : Op (List Job) :=
  if jobs.isEmpty then pure []
  else if jobs.any (fun j => j.backendAlias ≠ env.config.backendAlias) then
    throw .claimedDoesNotExist
  else transactionAtomic do
    let ids := jobs.map Job.id
    let deleted ← deleteRowsWhere .claimed (fun r => ids.contains (ClaimedExecution.jobId r))
    runIf (deleted ≠ ids.length) (throw .claimedDoesNotExist)
    ensureJobIdsHaveNoOtherExecutionState ids [.claimed]
    bulkCreate .failed (ids.map (failedRow failure))
    releaseFallback env jobs
    pure jobs

/-- `id` -/
def claimedIdOrder (a b : ClaimedExecution) : Bool := a.id ≤ b.id

/-- `fail_orphaned_claimed_jobs` -/
def failOrphanedClaimedJobs (env : Env) (failure : Failure) (batchSize : Int) : Op (List Job) :=
  transactionAtomic do
    let db ← getDb
    let orphans := orderBy claimedIdOrder
      (db.claimed.rows.filter (fun r => r.processId.isNone))
    let rows ← sliceTo batchSize ((selectRelatedJob (m := .claimed) db orphans).filter
      (fun r => r.2.backendAlias == env.config.backendAlias))
    failClaimedJobs env (rows.map Prod.snd) failure

/-- The jobs a process holds claims on. -/
def jobsClaimedBy (db : Db) (processId : Nat) : List Job :=
  (selectRelatedJob (m := .claimed) db
    (db.claimed.rows.filter (fun r => r.processId == some processId))).map Prod.snd

/-- Two transactions: the claims first, then the process row. -/
def failClaimedJobsForProcess (env : Env) (process : Option Process) (failure : Failure)
    (deleteProcess : Bool) : Op (List Job) :=
  match process with
  | none => pure []
  | some p => do
      let db ← getDb
      let failed ← failClaimedJobs env (jobsClaimedBy db p.id) failure
      runIf deleteProcess (deregisterProcess p.id)
      pure failed

/-- `fail_claimed_jobs_for_pid` -/
def failClaimedJobsForPid (env : Env) (pid : Int) (failure : Failure) : Op (List Job) := do
  let db ← getDb
  match db.processes.rows.filter (fun p =>
      p.pid == pid && p.backendAlias == env.config.backendAlias) with
  | [p] => failClaimedJobsForProcess env (some p) failure true
  | _ => pure []

/-- `fail_claimed_jobs_for_child` -/
def failClaimedJobsForChild (env : Env) (pid : Int) (name : String) (supervisorId : Option Nat)
    (failure : Failure) : Op (List Job) := do
  let db ← getDb
  failClaimedJobsForProcess env (db.processes.rows.find? (fun p =>
    p.pid == pid && p.name == name && p.supervisorId == supervisorId &&
      p.backendAlias == env.config.backendAlias)) failure true

/-- `last_heartbeat_at, id` -/
def heartbeatOrder (a b : Process) : Bool :=
  a.lastHeartbeatAt < b.lastHeartbeatAt ||
    (a.lastHeartbeatAt == b.lastHeartbeatAt && a.id ≤ b.id)

/-- The processes of the backend without a recent heartbeat, but one. -/
def staleProcesses (db : Db) (env : Env) (cutoff : Time) (excluded : Option Nat) : List Process :=
  orderBy heartbeatOrder (db.processes.rows.filter (fun p =>
    p.backendAlias == env.config.backendAlias && p.lastHeartbeatAt < cutoff &&
      excluded ≠ some p.id))

/-- The first `remaining` claims of a process, by key. -/
def staleClaims (db : Db) (processId : Nat) (remaining : Int) : Op (List (ClaimedExecution × Job)) :=
  sliceTo remaining (selectRelatedJob (m := .claimed) db (orderBy claimedIdOrder
    (db.claimed.rows.filter (fun r => r.processId == some processId))))

/-- The loop of `prune_stale_processes`: delete a process, fail the claims within the budget.
The claims beyond it are left without a process. -/
def pruneLoop (env : Env) (cutoff : Time) (failure : Failure) :
    List Process → Int → Op (List Process)
  | [], _ => pure []
  | process :: rest, remaining => do
      let db ← getDb
      let rows ← staleClaims db process.id remaining
      let deleted ← deleteProcessesWhere (fun p =>
        p.id == process.id && p.backendAlias == env.config.backendAlias &&
          p.lastHeartbeatAt < cutoff)
      if deleted = 0 then pruneLoop env cutoff failure rest remaining
      else do
        let _ ← failClaimedJobs env (rows.map Prod.snd) failure
        if remaining - rows.length = 0 then pure [process]
        else do
          let pruned ← pruneLoop env cutoff failure rest (remaining - rows.length)
          pure (process :: pruned)

/-- `prune_stale_processes` -/
def pruneStaleProcesses (env : Env) (cutoff : Time) (failure : Failure) (excluded : Option Nat)
    (batchSize : Int) : Op (List Process) :=
  transactionAtomic do
    let db ← getDb
    let stale ← sliceTo batchSize (staleProcesses db env cutoff excluded)
    pruneLoop env cutoff failure stale batchSize

end DjQueue
