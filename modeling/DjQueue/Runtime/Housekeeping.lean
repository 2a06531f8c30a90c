import DjQueue.Runtime.LostClaims
import DjQueue.Accounting.Audits
import DjQueue.Relational.Ordering

/-!
# Housekeeping

The recovery in `Supervisor.poll_once`: fail the claims that have lost their process, and prune the
stale processes with what is left of the batch.  A round that raises is logged and forgotten; the
next one starts over.
-/

namespace DjQueue

open Relational

/-- What does not change from one round to the next. -/
structure Housekeeping where
  env : Env
  cutoff : Time
  excluded : Option Nat
  batchSize : Int
  orphaned : Failure
  pruned : Failure

namespace Housekeeping

variable (h : Housekeeping)

/-- The body of the `try` in `poll_once`. -/
def recover : Op (List Process) := do
  let failedOrphans ← failOrphanedClaimedJobs h.env h.orphaned h.batchSize
  let remaining := h.batchSize - failedOrphans.length
  if remaining > 0 then
    pruneStaleProcesses h.env h.cutoff h.pruned h.excluded remaining
  else pure []

/-- One round; an exception goes to the log. -/
def round : Op (List Process) := tryCatch h.recover fun _ => pure []

/-- So many rounds, one after the other. -/
def rounds : Nat → World → World
  | 0, w => w
  | n + 1, w => rounds n (finalState h.round w)

/-! ## Dead claims -/

/-- The rows a round finds stale. -/
def stale (db : Db) : List Process := staleProcesses db h.env h.cutoff h.excluded

/-- The ids of the stale rows. -/
def staleIds (db : Db) : List Nat := (h.stale db).map Process.id

/-- A claim on a job of the backend without a process, or with a stale one. -/
def isDead (db : Db) (r : ClaimedExecution) : Bool :=
  (db.findJob r.jobId).any (fun j => j.backendAlias == h.env.config.backendAlias) &&
    r.processId.all (h.staleIds db).contains

/-- The jobs claimed by processes that are dead. -/
def deadJobs (db : Db) : List JobId :=
  (db.claimed.rows.filter (h.isDead db)).map ClaimedExecution.jobId

/-- No stale process is left, and no claim without a process or of a stale one. -/
structure Drained (db : Db) : Prop where
  processes : h.stale db = []
  claims : h.deadJobs db = []

/-- The slots of the dead claims can be given back, and the stale processes can be deleted. -/
structure Recoverable (db : Db) : Prop where
  releasable : ∀ j ∈ db.jobs, j.id ∈ h.deadJobs db → ¬ReleaseRaises h.env j
  separable : Separable db.processes.rows (h.staleIds db)

/-- What giving the slots of the dead claims back computes is in range: their limits and the slots
that are counted can be counted on, and their deadlines, from whatever reading of the clock, are
times. -/
structure InRange (w : World) : Prop where
  countable : CountableSlots h.env.config.family w.db.semaphores
  jobs : ∀ j ∈ w.db.jobs, j.id ∈ h.deadJobs w.db → j.slotKey ≠ none → LimitCounts h.env j ∧
    ∀ n, isDatetime (w.clock n + seconds (releaseDuration h.env j)) = true

/-! ## Progress -/

/-- The claims of these jobs were failed and these stale processes were deleted, and no other job,
process, claim or failure changed but for losing a process that is gone. -/
structure Recovers (ids : List JobId) (gone : List Nat) (db db' : Db) : Prop where
  jobs : db'.jobs = db.jobs
  stale : h.staleIds db = gone ++ h.staleIds db'
  processes : db'.processes.rows = registered gone db.processes.rows
  claimed : db'.claimed.rows = (db.claimed.rows.filter (fun r => !ids.contains r.jobId)).map
    (ClaimedExecution.orphanedBy gone)
  failed : ∃ rows, db'.failed.rows = db.failed.rows ++ rows ∧ rows.map FailedExecution.jobId = ids
  nodup : ids.Nodup
  dead : ∀ id ∈ ids, id ∈ h.deadJobs db
  released : ∀ j ∈ db.jobs, j.id ∈ ids → ¬ReleaseRaises h.env j
  separable : Separable db.processes.rows gone

namespace Recovers

variable {h : Housekeeping} {ids ids' : List JobId} {gone gone' : List Nat} {db db' db'' : Db}

theorem refl (h : Housekeeping) (db : Db) : h.Recovers [] [] db db where
  jobs := rfl
  stale := rfl
  processes := (registered_nil _).symm
  claimed := by
    rw [List.map_congr_left fun r _ => r.orphanedBy_nil, List.map_id']
    exact (List.filter_eq_self.mpr fun r _ => rfl).symm
  failed := ⟨[], (List.append_nil _).symm, rfl⟩
  nodup := List.nodup_nil
  dead id mem := absurd mem List.not_mem_nil
  released j _ mem := absurd mem List.not_mem_nil
  separable before id after split := by
    cases before <;> cases split

/-- A claim that stays is as dead as before. -/
theorem isDead_orphanedBy (recovers : h.Recovers ids gone db db') (r : ClaimedExecution) :
    h.isDead db' (r.orphanedBy gone) = h.isDead db r := by
  have found : db'.findJob r.jobId = db.findJob r.jobId := by
    rw [Db.findJob, Db.findJob, recovers.jobs]
  rw [isDead, isDead, jobId_orphanedBy, found, recovers.stale]
  congr 1
  unfold ClaimedExecution.orphanedBy
  cases process : r.processId with
  | none => simp [process]
  | some id => by_cases lost : id ∈ gone <;> simp [process, lost]

theorem deadJobs_eq (recovers : h.Recovers ids gone db db') :
    h.deadJobs db' = (h.deadJobs db).filter (fun id => !ids.contains id) := by
  have same : h.isDead db' ∘ ClaimedExecution.orphanedBy gone = h.isDead db :=
    funext recovers.isDead_orphanedBy
  have jobId : ClaimedExecution.jobId ∘ ClaimedExecution.orphanedBy gone =
      ClaimedExecution.jobId := funext (jobId_orphanedBy gone)
  rw [deadJobs, deadJobs, recovers.claimed, List.filter_map, same, List.map_map, jobId,
    List.filter_map, List.filter_filter, List.filter_filter]
  congr 1
  exact List.filter_congr fun r _ => Bool.and_comm _ _

/-- The dead claims are those that failed and those that are left. -/
theorem deadJobs_perm (recovers : h.Recovers ids gone db db')
    (claims : (db.claimed.rows.map ClaimedExecution.jobId).Nodup) :
    (ids ++ h.deadJobs db').Perm (h.deadJobs db) := by
  have nodup : (h.deadJobs db).Nodup := claims.sublist (List.filter_sublist.map _)
  have failed : ids.Perm ((h.deadJobs db).filter ids.contains) := by
    rw [List.perm_ext_iff_of_nodup recovers.nodup (nodup.filter _)]
    intro id
    rw [List.mem_filter, List.contains_iff_mem]
    exact ⟨fun mem => ⟨recovers.dead id mem, mem⟩, And.right⟩
  rw [recovers.deadJobs_eq]
  exact (failed.append_right _).trans (List.filter_append_perm _ _)

theorem trans (first : h.Recovers ids gone db db') (second : h.Recovers ids' gone' db' db'') :
    h.Recovers (ids ++ ids') (gone ++ gone') db db'' where
  jobs := second.jobs.trans first.jobs
  stale := by rw [first.stale, second.stale, List.append_assoc]
  processes := by rw [second.processes, first.processes, registered_registered]
  claimed := by
    have both : (ClaimedExecution.orphanedBy gone') ∘ (ClaimedExecution.orphanedBy gone) =
        ClaimedExecution.orphanedBy (gone ++ gone') :=
      funext fun r => r.orphanedBy_orphanedBy gone gone'
    rw [second.claimed, first.claimed, List.filter_map, List.map_map, both, List.filter_filter]
    congr 1
    apply List.filter_congr
    intro r _
    rw [Function.comp_apply, jobId_orphanedBy, Bool.and_comm, ← Bool.not_or, List.contains_append]
  failed := by
    rcases first.failed with ⟨rows, written, jobIds⟩
    rcases second.failed with ⟨rows', written', jobIds'⟩
    refine ⟨rows ++ rows', by rw [written', written, List.append_assoc], ?_⟩
    rw [List.map_append, jobIds, jobIds']
  nodup := by
    rw [List.nodup_append]
    refine ⟨first.nodup, second.nodup, ?_⟩
    rintro id old _ new rfl
    have left := second.dead id new
    rw [first.deadJobs_eq, List.mem_filter, List.contains_iff_mem.mpr old] at left
    cases left.2
  dead id mem := by
    rcases List.mem_append.mp mem with old | new
    · exact first.dead id old
    · have left := second.dead id new
      rw [first.deadJobs_eq] at left
      exact List.mem_of_mem_filter left
  released j mem failed := by
    rcases List.mem_append.mp failed with old | new
    · exact first.released j mem old
    · exact second.released j (first.jobs ▸ mem) new
  separable := by
    rw [separable_append, ← first.processes]
    exact ⟨first.separable, second.separable⟩

/-- What was in range stays in range. -/
theorem inRange {w w' : World} (recovers : h.Recovers ids gone w.db w'.db) (ticks : Ticks w w')
    (countable : CountableSlots h.env.config.family w'.db.semaphores) (before : h.InRange w) :
    h.InRange w' where
  countable := countable
  jobs j mem dead holds := by
    rw [recovers.deadJobs_eq] at dead
    rcases before.jobs j (recovers.jobs ▸ mem) (List.mem_of_mem_filter dead) holds with
      ⟨limit, deadlines⟩
    exact ⟨limit, ticks.forall (P := fun t =>
      isDatetime (t + seconds (releaseDuration h.env j)) = true) deadlines⟩

/-- Progress changes nothing about what is in the way of the rest. -/
theorem recoverable_iff (recovers : h.Recovers ids gone db db') :
    h.Recoverable db ↔ h.Recoverable db' := by
  constructor
  · rintro ⟨releasable, separable⟩
    constructor
    · intro j mem dead
      rw [recovers.deadJobs_eq] at dead
      exact releasable j (recovers.jobs ▸ mem) (List.mem_of_mem_filter dead)
    · rw [recovers.stale, separable_append, ← recovers.processes] at separable
      exact separable.2
  · rintro ⟨releasable, separable⟩
    constructor
    · intro j mem dead
      by_cases failed : j.id ∈ ids
      · exact recovers.released j mem failed
      · apply releasable j (recovers.jobs.symm ▸ mem)
        rw [recovers.deadJobs_eq, List.mem_filter, Bool.not_eq_true', ← Bool.not_eq_true,
          List.contains_iff_mem]
        exact ⟨dead, failed⟩
    · rw [recovers.stale, separable_append, ← recovers.processes]
      exact ⟨recovers.separable, separable⟩

end Recovers

end Housekeeping

theorem orders_heartbeatOrder : Orders heartbeatOrder := by
  constructor
  · intro a b c
    simp only [heartbeatOrder, Bool.or_eq_true, Bool.and_eq_true, decide_eq_true_eq, beq_iff_eq]
    intro first second
    rcases first with before | ⟨same, le⟩ <;> rcases second with before' | ⟨same', le'⟩
    · exact .inl (lt_trans before before')
    · exact .inl (same' ▸ before)
    · exact .inl (same ▸ before')
    · exact .inr ⟨same.trans same', le_trans le le'⟩
  · intro a b
    simp only [heartbeatOrder, Bool.or_eq_true, Bool.and_eq_true, decide_eq_true_eq, beq_iff_eq]
    rcases lt_trichotomy a.lastHeartbeatAt b.lastHeartbeatAt with before | same | after
    · exact .inl (.inl before)
    · rcases le_total a.id b.id with le | le
      · exact .inl (.inr ⟨same, le⟩)
      · exact .inr (.inr ⟨same.symm, le⟩)
    · exact .inr (.inl after)

namespace Housekeeping

variable {h : Housekeeping} {db db' : Db} {gone : List Nat} {id : Nat}

/-- The stale processes are those that were stale and are not gone. -/
theorem staleIds_registered (h : Housekeeping)
    (rows : db'.processes.rows = registered gone db.processes.rows) :
    h.staleIds db' = (h.staleIds db).filter (fun id => !gone.contains id) := by
  have order : ∀ p q : Process, heartbeatOrder (p.orphanedBy gone) (q.orphanedBy gone) =
      heartbeatOrder p q := by
    intro p q
    simp only [heartbeatOrder, orphanedBy_columns]
  have tests : (fun p : Process => p.backendAlias == h.env.config.backendAlias &&
      decide (p.lastHeartbeatAt < h.cutoff) && decide (h.excluded ≠ some p.id)) ∘
      Process.orphanedBy gone = fun p : Process => p.backendAlias == h.env.config.backendAlias &&
        decide (p.lastHeartbeatAt < h.cutoff) && decide (h.excluded ≠ some p.id) := by
    funext p
    simp only [Function.comp_apply, orphanedBy_columns]
  have ids : Process.id ∘ Process.orphanedBy gone = Process.id :=
    funext fun p => (orphanedBy_columns gone p).1
  rw [staleIds, staleIds, stale, stale, staleProcesses, staleProcesses, rows, registered,
    List.filter_map, tests, Orders.orderBy_map order, List.map_map, ids, List.filter_map,
    orders_heartbeatOrder.filter_orderBy, List.filter_filter, List.filter_filter]
  congr 2
  exact List.filter_congr fun p _ => Bool.and_comm _ _

theorem mem_staleIds : id ∈ h.staleIds db ↔ ∃ p ∈ db.processes.rows, p.id = id ∧
    p.backendAlias = h.env.config.backendAlias ∧ p.lastHeartbeatAt < h.cutoff ∧
    h.excluded ≠ some id := by
  simp only [staleIds, stale, staleProcesses, List.mem_map, mem_orderBy, List.mem_filter,
    Bool.and_eq_true, beq_iff_eq, decide_eq_true_eq]
  constructor
  · rintro ⟨p, ⟨there, ⟨own, late⟩, other⟩, rfl⟩
    exact ⟨p, there, rfl, own, late, other⟩
  · rintro ⟨p, there, rfl, own, late, other⟩
    exact ⟨p, ⟨there, ⟨own, late⟩, other⟩, rfl⟩

theorem nodup_staleIds (ids : (db.processes.rows.map Process.id).Nodup) :
    (h.staleIds db).Nodup :=
  ((orderBy_perm _ _).map Process.id).nodup_iff.mpr (ids.sublist (List.filter_sublist.map _))

end Housekeeping

end DjQueue
